import FrontendAudit.Proofs.Source.File
import FrontendAudit.Rule.Registry
import Mathlib.Data.List.Basic
import Mathlib.Data.List.Induction

/-!
# Registries in use

Names in a registry are distinct. So when every detector reports under its own name (`Labelled`),
the results of one detector can be told from the others by their name, and what a run reports under
a name is what the detector of that name reports line by line (`filter_run`). The results of a run
stand in the order of their lines, and on one line in the order in which the detectors were
registered (`pairwise_run`). Empty lines in front of a text, on which nothing is found, only move
what is found (`map_run_below`), and what the detectors leave out line by line is all that a run
leaves out (`run_eq_filter`).

Where calls of detectors do more than report, a run makes each call once and in turn (`CallsInTurn`,
`runWith_eq`). However registrations and runs follow each other, the registry holds the first
detector of each name, in the order of registration, and a registration that is refused or a run
leaves it as it is (`steps_in_order`).

Where what is reported is findings about the lines of a file (`ReportsLines`), and none about a
blank line (`PassesOverBlanks`), all of them are accepted if the file has a path, each points to a
line with text, and they stand in order (`acceptAll_run_eq_ok_iff`, `exists_pointsTo`, `inOrder`).
-/

namespace FrontendAudit

namespace Rule.Registry

variable {γ α : Type} {r : Registry γ α} {kind : α → String} {name : String}
  {detector : Detector γ α}

/-- Every detector reports under the name under which it is registered. -/
def Labelled (r : Registry γ α) (kind : α → String) : Prop :=
  ∀ entry ∈ r.entries, ∀ line index source, ∀ a ∈ entry.2 line index source, kind a = entry.1

/-- On one line. -/
theorem filter_runLine (hlabelled : r.Labelled kind) (hmem : (name, detector) ∈ r.entries)
    (source : γ) (line : List Char) (index : Nat) :
    (r.runLine source line index).filter (kind · = name) = detector line index source := by
  obtain ⟨above, below, hsplit⟩ := List.append_of_mem hmem
  have hnodup := r.nodup
  rw [hsplit, List.map_append, List.map_cons, List.nodup_append, List.nodup_cons] at hnodup
  obtain ⟨-, ⟨hbelow, -⟩, habove⟩ := hnodup
  -- the other detectors report under other names
  have hothers : ∀ entries : List (String × Detector γ α), (∀ entry ∈ entries, entry ∈ r.entries) →
      name ∉ entries.map (·.1) →
      (entries.flatMap fun entry => entry.2 line index source).filter (kind · = name) = [] := by
    intro entries hentries hname
    rw [List.filter_eq_nil_iff]
    intro a ha
    obtain ⟨entry, hentry, hin⟩ := List.mem_flatMap.mp ha
    rw [decide_eq_true_eq, hlabelled entry (hentries entry hentry) line index source a hin]
    rintro rfl
    exact hname (List.mem_map_of_mem hentry)
  have hown : (detector line index source).filter (kind · = name) = detector line index source :=
    List.filter_eq_self.mpr fun a ha =>
      decide_eq_true (hlabelled (name, detector) hmem line index source a ha)
  rw [runLine, hsplit, List.flatMap_append, List.flatMap_cons, List.filter_append,
    List.filter_append, hown, hothers above, hothers below]
  · simp
  · exact fun entry h => by simp [hsplit, h]
  · exact hbelow
  · exact fun entry h => by simp [hsplit, h]
  · exact fun h => habove name h name List.mem_cons_self rfl

/-- What is reported under a name is what the detector of that name reports. -/
theorem filter_run (hlabelled : r.Labelled kind) (hmem : (name, detector) ∈ r.entries) (source : γ)
    (lines : List (List Char)) :
    (r.run source lines).filter (kind · = name) =
      lines.zipIdx.flatMap fun (line, index) => detector line index source := by
  rw [run, List.filter_flatMap]
  congr 1
  funext numbered
  obtain ⟨line, index⟩ := numbered
  exact filter_runLine hlabelled hmem source line index

/-- Each result of a run is reported by a detector about a line. -/
theorem mem_run_iff {source : γ} {lines : List (List Char)} {a : α} :
    a ∈ r.run source lines ↔
      ∃ line index, (line, index) ∈ lines.zipIdx ∧
        ∃ entry ∈ r.entries, a ∈ entry.2 line index source := by
  simp only [run, runLine, List.mem_flatMap, Prod.exists]

/-! ## The order of results -/

/-- The place of a name in the order of registration. -/
def rank (r : Registry γ α) (name : String) : Nat := r.names.idxOf name

theorem pairwise_entries (r : Registry γ α) :
    r.entries.Pairwise fun entry later => r.rank entry.1 < r.rank later.1 := by
  have hnodup : r.names.Nodup := r.nodup
  have hnames : r.names.Pairwise fun name later => r.rank name < r.rank later := by
    rw [List.pairwise_iff_getElem]
    intro i j hi hj hij
    rwa [rank, rank, hnodup.idxOf_getElem i hi, hnodup.idxOf_getElem j hj]
  rwa [names, List.pairwise_map] at hnames

theorem pairwise_runLine (hlabelled : r.Labelled kind) (source : γ) (line : List Char)
    (index : Nat) :
    (r.runLine source line index).Pairwise fun a b => r.rank (kind a) ≤ r.rank (kind b) := by
  have hkind : ∀ entry ∈ r.entries, ∀ a ∈ entry.2 line index source, kind a = entry.1 :=
    fun entry hentry => hlabelled entry hentry line index source
  rw [runLine, List.pairwise_flatMap]
  constructor
  · intro entry hentry
    refine List.pairwise_of_forall_mem_list fun a ha b hb => ?_
    exact Nat.le_of_eq (by rw [hkind entry hentry a ha, hkind entry hentry b hb])
  · refine r.pairwise_entries.imp_of_mem fun {entry later} hentry hlater hlt a ha b hb => ?_
    rw [hkind entry hentry a ha, hkind later hlater b hb]
    exact Nat.le_of_lt hlt

theorem pairwise_zipIdx (lines : List (List Char)) :
    lines.zipIdx.Pairwise fun numbered later => numbered.2 < later.2 := by
  rw [← List.pairwise_map, List.zipIdx_map_snd]
  exact List.pairwise_lt_range' 1

/-- Results stand in the order of the lines that they are about, and on one line in the order of the
detectors that report them. -/
theorem pairwise_run (isAbout : α → Nat → Prop) (hlabelled : r.Labelled kind)
    (habout : ∀ entry ∈ r.entries, ∀ line index source, ∀ a ∈ entry.2 line index source,
      isAbout a index)
    (source : γ) (lines : List (List Char)) :
    (r.run source lines).Pairwise fun a b => ∃ i j, isAbout a i ∧ isAbout b j ∧
      (i < j ∨ i = j ∧ r.rank (kind a) ≤ r.rank (kind b)) := by
  have hline : ∀ line index, ∀ a ∈ r.runLine source line index, isAbout a index := by
    intro line index a ha
    obtain ⟨entry, hentry, hin⟩ := List.mem_flatMap.mp ha
    exact habout entry hentry line index source a hin
  rw [run, List.pairwise_flatMap]
  constructor
  · rintro ⟨line, index⟩ -
    refine (pairwise_runLine hlabelled source line index).imp_of_mem fun ha hb hle => ?_
    exact ⟨index, index, hline line index _ ha, hline line index _ hb, .inr ⟨rfl, hle⟩⟩
  · refine (pairwise_zipIdx lines).imp fun {numbered later} hlt a ha b hb => ?_
    exact ⟨numbered.2, later.2, hline _ _ a ha, hline _ _ b hb, .inl hlt⟩

/-! ## Lines in front of a text -/

/-- Below lines on which nothing is found, what is found of each line is what is found of a text. -/
theorem map_run_below {β : Type} {source source' : γ} {view view' : α → β}
    {above lines : List (List Char)}
    (habove : ∀ entry ∈ r.entries, ∀ line ∈ above, ∀ index, entry.2 line index source' = [])
    (hbelow : ∀ entry ∈ r.entries, ∀ line index, (line, index) ∈ lines.zipIdx →
      (entry.2 line (above.length + index) source').map view' =
        (entry.2 line index source).map view) :
    (r.run source' (above ++ lines)).map view' = (r.run source lines).map view := by
  -- the lines above yield nothing, and count on to the number of each line below
  have hnone : (above.zipIdx.flatMap fun (line, index) => r.runLine source' line index) = [] := by
    rw [List.flatMap_eq_nil_iff]
    rintro ⟨line, index⟩ hline
    refine List.flatMap_eq_nil_iff.mpr fun entry hentry => ?_
    exact habove entry hentry line (List.fst_mem_of_mem_zipIdx hline) index
  rw [run, run, List.zipIdx_append, List.flatMap_append, hnone, List.nil_append, Nat.zero_add,
    List.zipIdx_eq_map_add, List.flatMap_map, List.map_flatMap, List.map_flatMap]
  refine List.flatMap_congr ?_
  rintro ⟨line, index⟩ hline
  simp only [runLine, List.map_flatMap]
  exact List.flatMap_congr fun entry hentry => hbelow entry hentry line index hline

/-! ## Results that are left out -/

/-- What every detector leaves out on every line is left out of the results of a run, and no
more. -/
theorem run_eq_filter {source source' : γ} {keep : α → Bool} {lines : List (List Char)}
    (hkeep : ∀ entry ∈ r.entries, ∀ line index, (line, index) ∈ lines.zipIdx →
      entry.2 line index source' = (entry.2 line index source).filter keep) :
    r.run source' lines = (r.run source lines).filter keep := by
  rw [run, run, List.filter_flatMap]
  refine List.flatMap_congr ?_
  rintro ⟨line, index⟩ hline
  simp only [runLine, List.filter_flatMap]
  exact List.flatMap_congr fun entry hentry => hkeep entry hentry line index hline

/-! ## The calls of a run -/

/-- Each registered detector is called on each line, in the order of the lines and on one line in
the order of registration. -/
structure CallsInTurn (r : Registry γ α) (lines : List (List Char))
    (calls : List (Call γ α)) : Prop where
  registered : ∀ call ∈ calls,
    lines[call.index]? = some call.line ∧ (call.name, call.detector) ∈ r.entries
  once : ∀ index line, lines[index]? = some line → ∀ name detector, (name, detector) ∈ r.entries →
    ∃! place : Nat, calls[place]? = some ⟨name, detector, line, index⟩
  ordered : calls.Pairwise fun call later => call.index < later.index ∨
    call.index = later.index ∧ r.rank call.name < r.rank later.name

/-- The calls on one line. -/
def callsOn (r : Registry γ α) (line : List Char) (index : Nat) : List (Call γ α) :=
  r.entries.map fun (name, detector) => ⟨name, detector, line, index⟩

/-- The calls on all lines. -/
def calls (r : Registry γ α) (lines : List (List Char)) : List (Call γ α) :=
  lines.zipIdx.flatMap fun (line, index) => r.callsOn line index

theorem mem_calls_iff {lines : List (List Char)} {call : Call γ α} : call ∈ r.calls lines ↔
    lines[call.index]? = some call.line ∧ (call.name, call.detector) ∈ r.entries := by
  simp only [calls, callsOn, List.mem_flatMap, List.mem_map, Prod.exists,
    List.mk_mem_zipIdx_iff_getElem?]
  constructor
  · rintro ⟨line, index, hline, name, detector, hentry, rfl⟩
    exact ⟨hline, hentry⟩
  · rintro ⟨hline, hentry⟩
    exact ⟨call.line, call.index, hline, call.name, call.detector, hentry, rfl⟩

theorem pairwise_calls (r : Registry γ α) (lines : List (List Char)) :
    (r.calls lines).Pairwise fun call later => call.index < later.index ∨
      call.index = later.index ∧ r.rank call.name < r.rank later.name := by
  have hindex : ∀ line index, ∀ call ∈ r.callsOn line index, call.index = index := by
    intro line index call hcall
    obtain ⟨entry, -, rfl⟩ := List.mem_map.mp hcall
    rfl
  rw [calls, List.pairwise_flatMap]
  constructor
  · rintro ⟨line, index⟩ -
    exact List.pairwise_map.mpr (r.pairwise_entries.imp fun hlt => .inr ⟨rfl, hlt⟩)
  · refine (pairwise_zipIdx lines).imp fun {numbered later} hlt call hcall call' hcall' => .inl ?_
    rwa [hindex _ _ call hcall, hindex _ _ call' hcall']

theorem nodup_calls (r : Registry γ α) (lines : List (List Char)) : (r.calls lines).Nodup := by
  refine (r.pairwise_calls lines).imp fun hlt => ?_
  rintro rfl
  rcases hlt with hlt | ⟨-, hlt⟩
  · exact Nat.lt_irrefl _ hlt
  · exact Nat.lt_irrefl _ hlt

theorem callsInTurn (r : Registry γ α) (lines : List (List Char)) :
    r.CallsInTurn lines (r.calls lines) where
  registered call hcall := mem_calls_iff.mp hcall
  once index line hline name detector hentry := by
    have hmem : ⟨name, detector, line, index⟩ ∈ r.calls lines := mem_calls_iff.mpr ⟨hline, hentry⟩
    obtain ⟨place, hplace⟩ := List.mem_iff_getElem?.mp hmem
    refine ⟨place, hplace, fun place' hplace' => ?_⟩
    obtain ⟨hlt, -⟩ := List.getElem?_eq_some_iff.mp hplace'
    exact (List.getElem?_inj hlt (r.nodup_calls lines)).mp (hplace'.trans hplace.symm)
  ordered := r.pairwise_calls lines

section

variable {β δ : Type} {m : Type → Type} [Monad m] [LawfulMonad m]

/-- Steps that each add to what was found find what all of them return. -/
theorem foldlM_collect (step : δ → m (List β)) (xs : List δ) (found : List β) :
    xs.foldlM (fun found x => (found ++ ·) <$> step x) found =
      (found ++ ·) <$> List.flatten <$> xs.mapM step := by
  induction xs generalizing found with
  | nil => simp
  | cons x xs ih =>
      rw [List.foldlM_cons, List.mapM_cons, bind_map_left]
      simp only [map_bind, bind_pure_comp, Functor.map_map, List.flatten_cons]
      refine bind_congr fun reports => ?_
      rw [ih]
      simp only [Functor.map_map, List.append_assoc]

/-- Steps that consist of further steps do these one after the other. -/
theorem flatten_mapM_flatMap {κ : Type} (step : κ → m (List β)) (further : δ → List κ)
    (xs : List δ) :
    List.flatten <$> (xs.flatMap further).mapM step =
      List.flatten <$> xs.mapM fun x => List.flatten <$> (further x).mapM step := by
  induction xs with
  | nil => rfl
  | cons x xs ih =>
      rw [List.flatMap_cons, List.mapM_append, List.mapM_cons, bind_map_left]
      simp only [map_bind, bind_pure_comp, Functor.map_map, List.flatten_cons, List.flatten_append]
      refine bind_congr fun returned => ?_
      have hrest := congrArg ((returned.flatten ++ ·) <$> ·) ih
      simpa only [Functor.map_map] using hrest

/-- A run makes its calls one after the other and does nothing else. -/
theorem runWith_eq (r : Registry γ α) (make : Call γ α → m (List β)) (lines : List (List Char)) :
    r.runWith make lines = List.flatten <$> (r.calls lines).mapM make := by
  have hline : ∀ (numbered : List Char × Nat) (found : List β),
      r.entries.foldlM (fun found (name, detector) =>
        (found ++ ·) <$> make ⟨name, detector, numbered.1, numbered.2⟩) found =
      (found ++ ·) <$> List.flatten <$> (r.callsOn numbered.1 numbered.2).mapM make := by
    intro numbered found
    rw [callsOn, List.mapM_map]
    exact foldlM_collect _ _ _
  rw [calls, flatten_mapM_flatMap, runWith]
  simp only [hline]
  rw [foldlM_collect]
  simp only [List.nil_append, id_map']

/-- Where calls only ask the detectors, a run finds what these report. -/
theorem runWith_reports (r : Registry γ α) (source : γ) (lines : List (List Char)) :
    r.runWith (fun call => pure (call.reports source)) lines =
      (pure (r.run source lines) : m (List α)) := by
  rw [runWith_eq, List.mapM_pure, map_pure, ← List.flatMap_def, calls, List.flatMap_assoc, run]
  congr 2
  funext numbered
  exact List.flatMap_map ..

end

/-! ## What is registered -/

/-- What some steps ask to register, in order. -/
def Step.registrations (steps : List (Step γ α)) : List (String × Detector γ α) :=
  steps.filterMap fun
    | .register name detector => some (name, detector)
    | .run _ _ => none

/-- The registry after a step. -/
def next (r : Registry γ α) : Step γ α → Registry γ α
  | .register name detector => (r.register? name detector).getD r
  | .run _ _ => r

/-- The registry after some steps. -/
def after (r : Registry γ α) (steps : List (Step γ α)) : Registry γ α :=
  steps.foldl next r

theorem after_concat (r : Registry γ α) (steps : List (Step γ α)) (step : Step γ α) :
    r.after (steps ++ [step]) = (r.after steps).next step :=
  List.foldl_concat next r step steps

/-- The registry holds the first registration of each name, in order. -/
structure HoldsFirsts (r : Registry γ α) (asked : List (String × Detector γ α)) : Prop where
  names_eq : r.names = (asked.map (·.1)).eraseDups
  mem_entries_iff : ∀ entry, entry ∈ r.entries ↔ asked.find? (·.1 = entry.1) = some entry

section

variable {asked : List (String × Detector γ α)}

/-- Everything that a registration can do. -/
theorem register?_cases (r : Registry γ α) (name : String) (detector : Detector γ α) :
    (name ∈ r.names ∧ r.register? name detector = none) ∨
    ∃ r', name ∉ r.names ∧ r.register? name detector = some r' ∧
      r'.entries = r.entries ++ [(name, detector)] := by
  by_cases hname : name ∈ r.names
  · exact .inl ⟨hname, register?_eq_none_iff.mpr hname⟩
  · exact .inr ⟨_, hname, dif_neg hname, rfl⟩

theorem find?_name_eq_none_iff : asked.find? (·.1 = name) = none ↔ name ∉ asked.map (·.1) := by
  rw [List.find?_eq_none, List.mem_map, not_exists]
  simp only [decide_eq_true_eq, not_and]

theorem HoldsFirsts.mem_names_iff (h : r.HoldsFirsts asked) :
    name ∈ r.names ↔ name ∈ asked.map (·.1) := by
  rw [h.names_eq, List.mem_eraseDups]

/-- A name that is asked for again has its first registration already. -/
theorem HoldsFirsts.repeated (h : r.HoldsFirsts asked) (hname : name ∈ r.names)
    (detector : Detector γ α) :
    r.HoldsFirsts (asked ++ [(name, detector)]) := by
  rw [h.mem_names_iff] at hname
  constructor
  · rw [h.names_eq, List.map_append, List.eraseDups_append]
    simp [List.removeAll, hname]
  · intro entry
    rw [h.mem_entries_iff, List.find?_append]
    cases hfind : asked.find? (·.1 = entry.1) with
    | some first => rw [Option.some_or]
    | none =>
        -- an entry whose name was not asked for has another name
        have hne : name ≠ entry.1 := fun heq => find?_name_eq_none_iff.mp hfind (heq ▸ hname)
        simp [hne]

theorem HoldsFirsts.added (h : r.HoldsFirsts asked) (hname : name ∉ r.names) {r' : Registry γ α}
    (hentries : r'.entries = r.entries ++ [(name, detector)]) :
    r'.HoldsFirsts (asked ++ [(name, detector)]) := by
  rw [h.mem_names_iff] at hname
  constructor
  · rw [names, hentries, List.map_append, ← names, h.names_eq, List.map_append,
      List.eraseDups_append]
    simp [List.removeAll, hname, List.eraseDups_cons]
  · rintro ⟨key, other⟩
    rw [hentries, List.mem_append, h.mem_entries_iff, List.find?_append]
    by_cases heq : name = key
    · subst heq
      rw [find?_name_eq_none_iff.mpr hname]
      simp [eq_comm]
    · simp [heq, Ne.symm heq]

theorem HoldsFirsts.next (h : r.HoldsFirsts asked) (step : Step γ α) :
    (r.next step).HoldsFirsts (asked ++ Step.registrations [step]) := by
  cases step with
  | run source lines => exact (List.append_nil asked).symm ▸ h
  | register name detector =>
      rw [Registry.next]
      obtain ⟨hname, hregister⟩ | ⟨r', hname, hregister, hentries⟩ :=
        r.register?_cases name detector
      · rw [hregister]
        exact h.repeated hname detector
      · rw [hregister]
        exact h.added hname hentries

theorem holdsFirsts_after (steps : List (Step γ α)) :
    (empty.after steps).HoldsFirsts (Step.registrations steps) := by
  induction steps using List.reverseRecOn with
  | nil => exact ⟨rfl, fun _ => iff_of_false List.not_mem_nil (by simp [Step.registrations])⟩
  | append_singleton steps step ih =>
      rw [after_concat, Step.registrations, List.filterMap_append]
      exact ih.next step

end

/-! ## Steps in any order -/

section

variable {β ε : Type} {m : Type → Type} [Monad m]

/-- The answers to some steps that are taken one after the other, and the registry after them. -/
def performAll (make : γ → Call γ α → ExceptT ε m (List β)) (r : Registry γ α) :
    List (Step γ α) → m (List (Answer ε β) × Registry γ α)
  | [] => pure ([], r)
  | step :: steps => do
    let (answer, r) ← r.perform make step
    let (answers, r) ← r.performAll make steps
    return (answer :: answers, r)

variable (make : γ → Call γ α → ExceptT ε m (List β))

theorem perform_register_of_mem (hname : name ∈ r.names) (detector : Detector γ α) :
    r.perform make (.register name detector) = pure (.refused (.nameTaken name), r) := by
  rw [perform, register?_eq_none_iff.mpr hname]

theorem perform_register_of_not_mem (hname : name ∉ r.names) (detector : Detector γ α) :
    ∃ r', r.perform make (.register name detector) = pure (.registered, r') ∧
      r'.entries = r.entries ++ [(name, detector)] := by
  obtain ⟨htaken, -⟩ | ⟨r', -, hregister, hentries⟩ := r.register?_cases name detector
  · exact absurd htaken hname
  · exact ⟨r', by rw [perform, hregister], hentries⟩

variable [LawfulMonad m]

theorem perform_run (r : Registry γ α) (source : γ) (lines : List (List Char)) :
    r.perform make (.run source lines) =
      (fun returned => (.ran (returned.map List.flatten), r)) <$>
        ((r.calls lines).mapM (make source)).run := by
  rw [perform, runWith_eq, ExceptT.run_map, bind_map_left, bind_pure_comp]

/-- What calls do does not change what is registered. -/
theorem perform_next (r : Registry γ α) (step : Step γ α) :
    r.perform make step = (fun answered => (answered.1, r.next step)) <$> r.perform make step := by
  cases step with
  | register name detector =>
      rw [perform, next]
      cases r.register? name detector <;> simp
  | run source lines =>
      rw [perform, next]
      simp

/-- A further step is taken from the registry that the steps before it lead to. -/
theorem performAll_concat (r : Registry γ α) (steps : List (Step γ α)) (step : Step γ α) :
    r.performAll make (steps ++ [step]) = do
      let (answers, _) ← r.performAll make steps
      let (answer, r') ← (r.after steps).perform make step
      return (answers ++ [answer], r') := by
  induction steps generalizing r with
  | nil => simp [performAll, after]
  | cons first steps ih =>
      -- the first step leads to the same registry whatever its calls do
      rw [List.cons_append, performAll, performAll, perform_next]
      simp only [ih, bind_assoc, pure_bind, bind_map_left]
      rfl

/-- Whatever steps a registry without detectors is asked for, and whatever calls of detectors do
besides what they return, a further step is taken from a registry whose names are distinct and stand
in the order in which they were first asked for, each with its first detector. A registration under
a name that is taken is refused and leaves the registry as it is. A run calls each detector once on
each line, in the order of the lines and on one line in the order of registration, and gives what
the calls return, one after the other; a call that fails ends it. Where calls only ask the
detectors, this is what they report. -/
theorem steps_in_order (steps : List (Step γ α)) :
    let r := empty.after steps
    (∀ step, empty.performAll make (steps ++ [step]) = do
      let (answers, _) ← empty.performAll make steps
      let (answer, r') ← r.perform make step
      return (answers ++ [answer], r')) ∧
    r.names.Nodup ∧
    r.names = ((Step.registrations steps).map (·.1)).eraseDups ∧
    (∀ entry, entry ∈ r.entries ↔ (Step.registrations steps).find? (·.1 = entry.1) = some entry) ∧
    (∀ name detector, name ∈ r.names →
      r.perform make (.register name detector) = pure (.refused (.nameTaken name), r)) ∧
    (∀ name detector, name ∉ r.names → ∃ r',
      r.perform make (.register name detector) = pure (.registered, r') ∧
      r'.entries = r.entries ++ [(name, detector)]) ∧
    (∀ source lines, ∃ calls, r.CallsInTurn lines calls ∧
      r.perform make (.run source lines) =
        (fun returned => (.ran (returned.map List.flatten), r)) <$>
          (calls.mapM (make source)).run) ∧
    ∀ source lines,
      r.runWith (fun call => pure (call.reports source)) lines =
        (pure (r.run source lines) : m (List α)) := by
  intro r
  have hfirsts : r.HoldsFirsts (Step.registrations steps) := holdsFirsts_after steps
  refine ⟨performAll_concat make empty steps, r.nodup, hfirsts.names_eq, hfirsts.mem_entries_iff,
    ?_, ?_, ?_, ?_⟩
  · exact fun name detector hname => perform_register_of_mem make hname detector
  · exact fun name detector hname => perform_register_of_not_mem make hname detector
  · exact fun source lines => ⟨r.calls lines, r.callsInTurn lines, perform_run make r source lines⟩
  · exact fun source lines => r.runWith_reports source lines

end

/-- Notes a call in a log before it is made. -/
def noted (source : Unit) (call : Call Unit Nat) :
    ExceptT String (StateM (List (String × Nat))) (List Nat) := do
  modify (· ++ [(call.name, call.index)])
  return call.reports source

theorem steps_in_order_noted :
    let steps : List (Step Unit Nat) :=
      [.register "index" fun _ index _ => [index], .run () [['a']],
        .register "length" fun line _ _ => [line.length], .register "index" fun _ _ _ => []]
    let r := empty.after steps
    LawfulMonad (StateM (List (String × Nat))) ∧
    r.names = ["index", "length"] ∧
    (∀ detector, r.perform noted (.register "index" detector) =
      pure (.refused (.nameTaken "index"), r)) ∧
    (∃ calls, r.CallsInTurn [['a'], ['b', 'c']] calls ∧
      r.perform noted (.run () [['a'], ['b', 'c']]) =
        (fun returned => (.ran (returned.map List.flatten), r)) <$> (calls.mapM (noted ())).run) ∧
    (r.perform noted (.run () [['a'], ['b', 'c']])).run [] =
      ((.ran (.ok [0, 1, 1, 2]), r),
        [("index", 0), ("length", 0), ("index", 1), ("length", 1)]) := by
  intro steps r
  obtain ⟨-, -, hnames, -, hrefused, -, hruns, -⟩ := steps_in_order noted steps
  have hnames : r.names = ["index", "length"] := hnames.trans (by decide)
  refine ⟨inferInstance, hnames, fun detector => hrefused "index" detector ?_, hruns () _, ?_⟩
  · rw [hnames]
    decide
  · rfl

end Rule.Registry

/-! ## Findings about a file -/

/-- The findings stand in the order of their lines, and on one line in the order of the names. -/
def InOrder (names : List String) (found : List Finding) : Prop :=
  found.Pairwise fun f g => ∃ i j : Int, f.line = some i ∧ g.line = some j ∧
    (i < j ∨ i = j ∧ names.idxOf f.kind ≤ names.idxOf g.kind)

namespace Rule.Registry

variable {γ : Type} {r : Registry γ Finding} {fileOf : γ → SourceFile} {source : γ}
  {lines : List (List Char)} {found : List Finding} {f : Finding}

/-- Every detector reports under its name about the line that it looks at. -/
def ReportsLines (r : Registry γ Finding) (fileOf : γ → SourceFile) : Prop :=
  ∀ entry ∈ r.entries, ∀ line index source, ∀ f ∈ entry.2 line index source,
    (fileOf source).Reports entry.1 index f

/-- No detector reports anything about a line without text. -/
def PassesOverBlanks (r : Registry γ Finding) : Prop :=
  ∀ entry ∈ r.entries, ∀ line index source, Text.isBlankText line = true →
  entry.2 line index source = []

theorem ReportsLines.labelled (h : r.ReportsLines fileOf) : r.Labelled Finding.kind :=
  fun entry hentry line index source f hf => (h entry hentry line index source f hf).kind_eq

theorem ReportsLines.acceptAll_run_eq_ok_iff (h : r.ReportsLines fileOf) :
    Finding.acceptAll (r.run source lines) = .ok found ↔
      ((fileOf source).path ≠ "" ∨ r.run source lines = []) ∧
      found = (r.run source lines).map Finding.bounded := by
  refine Finding.acceptAll_eq_ok_iff_of_location fun f hf => ?_
  obtain ⟨line, index, -, entry, hentry, hin⟩ := mem_run_iff.mp hf
  exact (h entry hentry line index source f hin).location_isSome_iff

/-- Each finding of a run points to a line of the file, under the name of a detector. -/
theorem ReportsLines.exists_pointsTo (h : r.ReportsLines fileOf) (hblank : r.PassesOverBlanks)
    (hf : f ∈ (r.run source (fileOf source).lines).map Finding.bounded) :
    f.kind ∈ r.names ∧ ∃ n, f.PointsTo (fileOf source).path (fileOf source).lines n := by
  obtain ⟨raw, hraw, rfl⟩ := List.mem_map.mp hf
  obtain ⟨line, index, hline, entry, hentry, hin⟩ := mem_run_iff.mp hraw
  have hreports := h entry hentry line index source raw hin
  have htext : Text.isBlankText line = false := by
    rw [← Bool.not_eq_true]
    intro hall
    rw [hblank entry hentry line index source hall] at hin
    cases hin
  refine ⟨?_, index + 1, hreports.pointsTo (List.mk_mem_zipIdx_iff_getElem?.mp hline) htext⟩
  have hkind : raw.bounded.kind = entry.1 := hreports.kind_eq
  exact hkind ▸ List.mem_map_of_mem hentry

theorem ReportsLines.inOrder (h : r.ReportsLines fileOf) (source : γ) (lines : List (List Char)) :
    InOrder r.names ((r.run source lines).map Finding.bounded) := by
  rw [InOrder, List.pairwise_map]
  refine (pairwise_run
    (fun f index => f.line = some ((index : Int) + 1)) h.labelled ?_ source lines).imp ?_
  · exact fun entry hentry line index source f hf => (h entry hentry line index source f hf).line_eq
  · rintro f g ⟨i, j, hf, hg, hplace⟩
    refine ⟨(i : Int) + 1, (j : Int) + 1, hf, hg, ?_⟩
    rcases hplace with hlt | ⟨rfl, hrank⟩
    · exact .inl (by omega)
    · exact .inr ⟨rfl, hrank⟩

/-- Where each detector sees below empty lines what it sees in a text, the same is found below line
feeds. -/
theorem PassesOverBlanks.map_run_below (h : r.PassesOverBlanks) (sourceOf : SourceFile → γ)
    (path : String) (content : List Char) (k : Nat) {view view' : Finding → Finding}
    (hbelow : ∀ entry ∈ r.entries, ∀ line index,
      (entry.2 line (k + index)
        (sourceOf ⟨path, List.replicate k [] ++ Text.sourceLines content⟩)).map view' =
        (entry.2 line index (sourceOf (.ofContent path content))).map view) :
    (r.run (sourceOf (.ofContent path (List.replicate k '\n' ++ content)))
        (Text.sourceLines (List.replicate k '\n' ++ content))).map view' =
      (r.run (sourceOf (.ofContent path content)) (Text.sourceLines content)).map view := by
  rw [SourceFile.ofContent, Text.sourceLines_below]
  refine Registry.map_run_below ?_ fun entry hentry line index _ => ?_
  · intro entry hentry line hline index
    exact h entry hentry line index _ (List.eq_of_mem_replicate hline ▸ rfl)
  · rw [List.length_replicate]
    exact hbelow entry hentry line index

end Rule.Registry

end FrontendAudit
