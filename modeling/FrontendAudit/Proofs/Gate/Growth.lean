import FrontendAudit.Gate.Evaluation
import FrontendAudit.Proofs.Summary
import Mathlib.Data.Fintype.Basic
import Mathlib.Data.List.FinRange
import Mathlib.Data.List.Sort
import Mathlib.Order.WellFounded

/-!
# What more findings change

The issues stand at the positions of the first findings of their keys, and these positions are the
only ones that have each key once and in its first finding (`existsUnique_firsts`). Whether a
finding is an issue is settled by those before it, so that findings that come behind others add
their issues at the end (`dedupe_append`). The gate counts issues, so that more findings never take
a category out of those that fail (`issues_grow_with_findings`).
-/

namespace FrontendAudit

variable {seen seen' : List Finding.Key} {fs xs ys : List Finding}

/-! ## Positions of issues -/

/-- Positions in order that have each key of the findings once, in the first finding with it. -/
structure Firsts (fs : List Finding) (chosen : List (Fin fs.length)) : Prop where
  ascending : chosen.Pairwise (· < ·)
  first : ∀ i ∈ chosen, ∀ j < i, (fs.get j).key ≠ (fs.get i).key
  once : ∀ f ∈ fs, chosen.countP (fun i => (fs.get i).key = f.key) = 1

/-- Every key of the findings has a first position. -/
theorem exists_first_position {f : Finding} (hf : f ∈ fs) :
    ∃ i : Fin fs.length, (fs.get i).key = f.key ∧ ∀ j < i, (fs.get j).key ≠ (fs.get i).key := by
  obtain ⟨k, rfl⟩ := List.mem_iff_get.mp hf
  obtain ⟨i, hkey, hleast⟩ := (wellFounded_lt (α := Fin fs.length)).has_min
    {i | (fs.get i).key = (fs.get k).key} ⟨k, rfl⟩
  refine ⟨i, hkey, ?_⟩
  intro j hlt heq
  exact hleast j (heq.trans hkey) hlt

/-- Two first positions of one key are the same. -/
theorem first_position_unique {i j : Fin fs.length}
    (hi : ∀ k < i, (fs.get k).key ≠ (fs.get i).key) (hj : ∀ k < j, (fs.get k).key ≠ (fs.get j).key)
    (heq : (fs.get i).key = (fs.get j).key) : i = j := by
  rcases lt_trichotomy i j with hlt | rfl | hlt
  · exact absurd heq (hj i hlt)
  · rfl
  · exact absurd heq.symm (hi j hlt)

/-- The positions of the findings that have no finding with their key before them. -/
def firstPositions (fs : List Finding) : List (Fin fs.length) :=
  (List.finRange fs.length).filter fun i => ∀ j < i, (fs.get j).key ≠ (fs.get i).key

theorem mem_firstPositions {i : Fin fs.length} :
    i ∈ firstPositions fs ↔ ∀ j < i, (fs.get j).key ≠ (fs.get i).key := by
  rw [firstPositions, List.mem_filter, decide_eq_true_eq]
  exact and_iff_right (List.mem_finRange i)

theorem firsts_firstPositions (fs : List Finding) : Firsts fs (firstPositions fs) where
  ascending := (List.pairwise_lt_finRange _).filter _
  first i hi := mem_firstPositions.mp hi
  once f hf := by
    obtain ⟨i, hkey, hfirst⟩ := exists_first_position hf
    have honly : ∀ j ∈ firstPositions fs, decide ((fs.get j).key = f.key) = true ↔
        (j == i) = true := by
      intro j hj
      rw [decide_eq_true_eq, beq_iff_eq]
      constructor
      · intro hj'
        exact first_position_unique (mem_firstPositions.mp hj) hfirst (hj'.trans hkey.symm)
      · rintro rfl
        exact hkey
    have hnodup : (firstPositions fs).Nodup := (List.nodup_finRange _).filter _
    rw [List.countP_congr honly]
    exact List.count_eq_one_of_mem hnodup (mem_firstPositions.mpr hfirst)

/-- No other positions have each key once and in its first finding. -/
theorem Firsts.eq_firstPositions {chosen : List (Fin fs.length)} (h : Firsts fs chosen) :
    chosen = firstPositions fs := by
  refine h.ascending.eq_of_mem_iff (firsts_firstPositions fs).ascending ?_
  intro i
  rw [mem_firstPositions]
  refine ⟨h.first i, ?_⟩
  intro hi
  -- the key is somewhere among the positions, and there in its first finding
  have hcount := h.once (fs.get i) (List.get_mem fs i)
  obtain ⟨j, hj, hkey⟩ := List.countP_pos_iff.mp (hcount ▸ Nat.one_pos)
  rw [← first_position_unique (h.first j hj) hi (of_decide_eq_true hkey)]
  exact hj

theorem existsUnique_firsts (fs : List Finding) : ∃! chosen, Firsts fs chosen :=
  ⟨firstPositions fs, firsts_firstPositions fs, fun _ h => h.eq_firstPositions⟩

/-- Which of their keys were seen matters to findings, and not in what order or how often. -/
theorem dedupeAfter_congr_of_mem (h : ∀ f ∈ fs, f.key ∈ seen ↔ f.key ∈ seen') :
    dedupeAfter seen fs = dedupeAfter seen' fs := by
  induction fs generalizing seen seen' with
  | nil => rfl
  | cons f fs ih =>
      rw [List.forall_mem_cons] at h
      have hcons : ∀ g ∈ fs, g.key ∈ f.key :: seen ↔ g.key ∈ f.key :: seen' := by
        intro g hg
        rw [List.mem_cons, List.mem_cons, h.2 g hg]
      simp only [dedupeAfter, h.1, ih h.2, ih hcons]

theorem dedupeAfter_congr (h : ∀ key, key ∈ seen ↔ key ∈ seen') :
    dedupeAfter seen fs = dedupeAfter seen' fs :=
  dedupeAfter_congr_of_mem fun f _ => h f.key

/-- What is kept after some keys were seen stands at the first positions of the other keys. -/
theorem dedupeAfter_eq_map (seen : List Finding.Key) (fs : List Finding) :
    dedupeAfter seen fs =
      ((List.finRange fs.length).filter fun i =>
        (fs.get i).key ∉ seen ∧ ∀ j < i, (fs.get j).key ≠ (fs.get i).key).map fs.get := by
  induction fs generalizing seen with
  | nil => rfl
  | cons f fs ih =>
      have hhead : (((f :: fs).get 0).key ∉ seen ∧
          ∀ j < (0 : Fin (f :: fs).length), ((f :: fs).get j).key ≠ ((f :: fs).get 0).key) ↔
            f.key ∉ seen := and_iff_left fun j hj => absurd hj (Fin.not_lt_zero j)
      -- behind a finding a position is first when it is first there and has another key
      have htail : ∀ i : Fin fs.length,
          (((f :: fs).get i.succ).key ∉ seen ∧
            ∀ j < i.succ, ((f :: fs).get j).key ≠ ((f :: fs).get i.succ).key) ↔
          (fs.get i).key ∉ f.key :: seen ∧ ∀ j < i, (fs.get j).key ≠ (fs.get i).key := by
        intro i
        rw [Fin.forall_fin_succ, List.mem_cons, not_or]
        simp only [Fin.succ_pos, Fin.succ_lt_succ_iff, forall_const]
        constructor
        · rintro ⟨hseen, hne, hfirst⟩
          exact ⟨⟨Ne.symm hne, hseen⟩, hfirst⟩
        · rintro ⟨⟨hne, hseen⟩, hfirst⟩
          exact ⟨hseen, Ne.symm hne, hfirst⟩
      have hbehind : (((List.finRange fs.length).map Fin.succ).filter fun i =>
          ((f :: fs).get i).key ∉ seen ∧ ∀ j < i, ((f :: fs).get j).key ≠ ((f :: fs).get i).key).map
            (f :: fs).get = dedupeAfter (f.key :: seen) fs := by
        rw [List.filter_map, List.map_map, ih]
        refine congrArg _ (List.filter_congr fun i _ => ?_)
        exact decide_eq_decide.mpr (htail i)
      have hrange : List.finRange (f :: fs).length = 0 :: (List.finRange fs.length).map Fin.succ :=
        List.finRange_succ
      rw [hrange, List.filter_cons, dedupeAfter]
      by_cases hseen : f.key ∈ seen
      · rw [if_pos hseen, if_neg (by rwa [decide_eq_true_eq, hhead, not_not]), hbehind]
        refine dedupeAfter_congr fun key => ?_
        rw [List.mem_cons]
        exact ⟨.inr, fun h => h.elim (fun heq => heq ▸ hseen) id⟩
      · rw [if_neg hseen, if_pos (decide_eq_true (hhead.mpr hseen)), List.map_cons, hbehind]
        rfl

/-- The issues are the findings at the first positions. -/
theorem dedupe_eq_map (fs : List Finding) : dedupe fs = (firstPositions fs).map fs.get := by
  rw [dedupe, dedupeAfter_eq_map, firstPositions]
  simp only [List.not_mem_nil, not_false_eq_true, true_and]

/-! ## More findings -/

/-- Findings that come behind others are kept when their keys are not among those of the others. -/
theorem dedupeAfter_append (seen : List Finding.Key) (xs ys : List Finding) :
    dedupeAfter seen (xs ++ ys) =
      dedupeAfter seen xs ++ dedupeAfter (xs.map Finding.key ++ seen) ys := by
  induction xs generalizing seen with
  | nil => rfl
  | cons x xs ih =>
      rw [List.cons_append, dedupeAfter, dedupeAfter, List.map_cons, List.cons_append]
      by_cases hseen : x.key ∈ seen
      · rw [if_pos hseen, if_pos hseen, ih seen]
        refine congrArg _ (dedupeAfter_congr fun key => ?_)
        rw [List.mem_cons]
        exact ⟨.inr, fun h => h.elim (fun heq => List.mem_append_right _ (heq ▸ hseen)) id⟩
      · rw [if_neg hseen, if_neg hseen, ih (x.key :: seen), List.cons_append]
        refine congrArg _ (congrArg _ (dedupeAfter_congr fun key => ?_))
        exact List.perm_middle.mem_iff

theorem dedupe_append (xs ys : List Finding) :
    dedupe (xs ++ ys) = dedupe xs ++ dedupeAfter (xs.map Finding.key) ys := by
  rw [dedupe, dedupeAfter_append, List.append_nil]
  rfl

/-- Nothing is dropped of findings with keys that were not seen and are all different. -/
theorem dedupeAfter_eq_self (hdiffer : (fs.map Finding.key).Nodup)
    (hseen : ∀ f ∈ fs, f.key ∉ seen) :
    dedupeAfter seen fs = fs := by
  induction fs generalizing seen with
  | nil => rfl
  | cons f fs ih =>
      rw [List.map_cons, List.nodup_cons] at hdiffer
      rw [List.forall_mem_cons] at hseen
      rw [dedupeAfter, if_neg hseen.1, ih hdiffer.2]
      intro g hg hmem
      rcases List.mem_cons.mp hmem with heq | hmem
      · exact hdiffer.1 (heq ▸ List.mem_map_of_mem hg)
      · exact hseen.2 g hg hmem

theorem dedupe_dedupe (fs : List Finding) : dedupe (dedupe fs) = dedupe fs :=
  dedupeAfter_eq_self (nodup_keys_dedupeAfter [] fs) fun _ _ => List.not_mem_nil

/-- No key is lost, and none made up. -/
theorem mem_keys_dedupe_iff {key : Finding.Key} :
    key ∈ (dedupe fs).map Finding.key ↔ key ∈ fs.map Finding.key := by
  rw [← List.mem_toFinset, toFinset_keys_dedupe, List.mem_toFinset]

theorem dedupeAfter_sublist (seen : List Finding.Key) (fs : List Finding) :
    (dedupeAfter seen fs).Sublist fs := by
  induction fs generalizing seen with
  | nil => exact List.Sublist.refl []
  | cons f fs ih =>
      rw [dedupeAfter]
      split
      · exact (ih seen).cons f
      · exact (ih (f.key :: seen)).cons_cons f

/-- In front of others, issues do as well as their findings. -/
theorem dedupe_dedupe_append (xs ys : List Finding) :
    dedupe (dedupe xs ++ ys) = dedupe (xs ++ ys) := by
  rw [dedupe_append, dedupe_append, dedupe_dedupe]
  exact congrArg _ (dedupeAfter_congr fun _ => mem_keys_dedupe_iff)

/-- What keys tell apart can be left out before or after repeated findings are dropped. -/
theorem filter_dedupeAfter {p : Finding → Bool} (hp : ∀ f g : Finding, f.key = g.key → p f = p g)
    (seen : List Finding.Key) (fs : List Finding) :
    (dedupeAfter seen fs).filter p = dedupeAfter seen (fs.filter p) := by
  induction fs generalizing seen with
  | nil => rfl
  | cons f fs ih =>
      by_cases hf : p f = true
      · rw [List.filter_cons_of_pos hf, dedupeAfter, dedupeAfter]
        split
        · exact ih seen
        · rw [List.filter_cons_of_pos hf, ih]
      · rw [List.filter_cons_of_neg hf, dedupeAfter]
        split
        · exact ih seen
        · -- none of the findings that stay has the key of the one that goes
          rw [List.filter_cons_of_neg hf, ih]
          refine dedupeAfter_congr_of_mem fun g hg => ?_
          have hne : g.key ≠ f.key := fun heq =>
            hf (hp g f heq ▸ (List.mem_filter.mp hg).2)
          rw [List.mem_cons, or_iff_right hne]

/-- The issues of one kind are those of the findings of that kind. -/
theorem filter_kind_dedupe (kind : String) (fs : List Finding) :
    (dedupe fs).filter (·.kind = kind) = dedupe (fs.filter (·.kind = kind)) := by
  refine filter_dedupeAfter (fun f g heq => ?_) [] fs
  have hkind : f.kind = g.kind := congrArg Finding.Key.kind heq
  rw [hkind]

theorem dedupe_prefix_append (xs ys : List Finding) : dedupe xs <+: dedupe (xs ++ ys) :=
  ⟨_, (dedupe_append xs ys).symm⟩

/-! ## The gate -/

/-- How many of the issues of findings are high. -/
def highIssues (fs : List Finding) : Int := (dedupe fs).countP (·.severity = .high)

theorem highIssues_le_append (xs ys : List Finding) : highIssues xs ≤ highIssues (xs ++ ys) :=
  Int.ofNat_le.mpr (dedupe_prefix_append xs ys).sublist.countP_le

/-- The results of categories, each from its findings. -/
def Results.ofFindings (now : String) (found : List (String × List Finding)) : Results :=
  found.map fun (category, fs) => (category, summarize now fs)

/-- With more findings of each category behind those that there are. -/
def withMore (found : List (String × List Finding)) (more : String → List Finding) :
    List (String × List Finding) :=
  found.map fun (category, fs) => (category, fs ++ more category)

theorem Json.lookup?_map {α β : Type} (g : String → α → β) (key : String) (ms : List (String × α)) :
    Json.lookup? key (ms.map fun m => (m.1, g m.1 m.2)) = (Json.lookup? key ms).map (g key) := by
  induction ms with
  | nil => rfl
  | cons m ms ih =>
      by_cases hkey : m.1 = key
      · simp [Json.lookup?, hkey]
      · simpa [Json.lookup?, hkey] using ih

namespace GateReport

/-- Whether a category was run and has more high issues than its threshold allows. -/
def Exceeds (found : List (String × List Finding)) (threshold : String × Int) : Prop :=
  ∃ fs ∈ Json.lookup? threshold.1 found, threshold.2 < highIssues fs

instance (found : List (String × List Finding)) : DecidablePred (Exceeds found) :=
  fun threshold => inferInstanceAs (Decidable (∃ fs ∈ Json.lookup? threshold.1 found, _))

theorem isSome_excess?_ofFindings {now : String} {found : List (String × List Finding)}
    {threshold : String × Int} :
    (excess? (Results.ofFindings now found) threshold).isSome = true ↔ Exceeds found threshold := by
  rw [excess?, Results.ofFindings, Json.lookup?_map fun _ fs => summarize now fs]
  unfold Exceeds
  cases Json.lookup? threshold.1 found with
  | none => simp
  | some fs =>
      show (if threshold.2 < highIssues fs then some (highIssues fs) else none).isSome = true ↔ _
      split <;> simp_all

/-- The categories that fail are those of the thresholds that are exceeded, in order. -/
theorem failuresOf_ofFindings (now : String) (found : List (String × List Finding))
    (thresholds : List (String × Int)) :
    failuresOf (Results.ofFindings now found) thresholds =
      (thresholds.filter fun t => Exceeds found t).map (·.1) := by
  refine congrArg _ (List.filter_congr fun t _ => ?_)
  rw [Bool.eq_iff_iff, isSome_excess?_ofFindings, decide_eq_true_eq]

/-- More findings exceed what fewer exceed. -/
theorem Exceeds.withMore {found : List (String × List Finding)} {threshold : String × Int}
    (h : Exceeds found threshold) (more : String → List Finding) :
    Exceeds (withMore found more) threshold := by
  obtain ⟨fs, hfs, hhigh⟩ := h
  refine ⟨fs ++ more threshold.1, ?_, lt_of_lt_of_le hhigh (highIssues_le_append fs _)⟩
  rw [FrontendAudit.withMore, Json.lookup?_map fun category fs => fs ++ more category, hfs]
  rfl

end GateReport

/-- The issues of findings are the findings at the only positions that have each key once and in its
first finding. So nothing changes when they are taken again, no key is lost, findings may be
replaced by their issues when others come behind them, and the others only add to the issues. The
categories that fail are those of the thresholds, in order, that were run and have more high issues
than is allowed; with more findings behind those of each category, none of them passes, and nor does
the gate. -/
theorem issues_grow_with_findings (xs ys : List Finding) :
    (∃! chosen, Firsts xs chosen) ∧ (∀ chosen, Firsts xs chosen → dedupe xs = chosen.map xs.get) ∧
    dedupe (dedupe xs) = dedupe xs ∧
    (∀ key, key ∈ (dedupe xs).map Finding.key ↔ key ∈ xs.map Finding.key) ∧
    dedupe (xs ++ ys) = dedupe (dedupe xs ++ ys) ∧ dedupe xs <+: dedupe (xs ++ ys) ∧
    ∀ (config : GateConfig) (platform now : String) (found : List (String × List Finding)),
      let gate := GateReport.evaluate (Results.ofFindings now found) config platform
      gate.failures = (config.thresholds.filter fun t =>
        ∃ fs ∈ Json.lookup? t.1 found,
          t.2 < ((dedupe fs).countP (·.severity = .high) : Int)).map (·.1) ∧
      ∀ (later : String) (more : String → List Finding),
        let gate' :=
          GateReport.evaluate (Results.ofFindings later (withMore found more)) config platform
        gate.failures.Sublist gate'.failures ∧ (gate.passed = false → gate'.passed = false) := by
  refine ⟨existsUnique_firsts xs, ?_, dedupe_dedupe xs, fun _ => mem_keys_dedupe_iff,
    (dedupe_dedupe_append xs ys).symm, dedupe_prefix_append xs ys, ?_⟩
  · intro chosen h
    rw [h.eq_firstPositions, dedupe_eq_map]
  intro config platform now found gate
  refine ⟨GateReport.failuresOf_ofFindings now found config.thresholds, ?_⟩
  intro later more gate'
  have hsub : gate.failures.Sublist gate'.failures := by
    show (GateReport.failuresOf _ _).Sublist (GateReport.failuresOf _ _)
    rw [GateReport.failuresOf_ofFindings, GateReport.failuresOf_ofFindings]
    refine (List.monotone_filter_right _ fun t ht => ?_).map _
    rw [decide_eq_true_eq] at ht ⊢
    exact ht.withMore more
  refine ⟨hsub, ?_⟩
  intro hfails
  show gate'.failures.isEmpty = false
  have hne : gate.failures ≠ [] := by
    intro hnil
    have hpassed : gate.failures.isEmpty = false := hfails
    rw [hnil] at hpassed
    cases hpassed
  rw [List.isEmpty_eq_false_iff]
  intro hnil
  exact hne (List.sublist_nil.mp (hnil ▸ hsub))

/-- An image without a text, in some line of a page. -/
def imageFinding (severity : Severity) (line : Int) : Finding :=
  { kind := "missing_alt", severity, message := "no text", file := some "a.html",
    line := some line }

/-- Of two findings about one image the first is the issue, and a page that fails for one image
fails when the image is found again as a lesser fault and another one besides. -/
theorem issues_grow_with_findings_images :
    dedupe [imageFinding .low 1, imageFinding .high 1] = [imageFinding .low 1] ∧
      (GateReport.evaluate
        (Results.ofFindings "now" (withMore [("accessibility", [imageFinding .high 1])]
        fun _ => [imageFinding .low 1, imageFinding .high 2])) ⟨true, true, [("accessibility", 0)]⟩
          "local").passed = false := by
  have hfirsts : Firsts [imageFinding .low 1, imageFinding .high 1] [0] :=
    ⟨by decide, by decide +kernel, by decide +kernel⟩
  have hfails :
      (GateReport.evaluate (Results.ofFindings "now" [("accessibility", [imageFinding .high 1])])
      ⟨true, true, [("accessibility", 0)]⟩ "local").passed = false := by
    decide +kernel
  obtain ⟨-, hdedupe, -, -, -, -, hgate⟩ :=
    issues_grow_with_findings [imageFinding .low 1, imageFinding .high 1] []
  refine ⟨hdedupe [0] hfirsts, ?_⟩
  exact ((hgate _ _ _ _).2 "now" _).2 hfails

end FrontendAudit
