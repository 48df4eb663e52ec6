import FrontendAudit.Entry.Command
import FrontendAudit.Proofs.Json.Halves
import FrontendAudit.Proofs.Project.Response
import FrontendAudit.Proofs.Project.Verdict
import FrontendAudit.Proofs.Text.Utf8

/-!
# How the command ends

The members of an object always lead to one value that can be read back from its text, and to zero
or one (`runMembers_ends`): whatever is wrong with them, or goes wrong afterwards, is printed as an
error. Any other value is asked for its members before it is checked, and the command crashes. It
also fails where its input is not in UTF-8, and where half of a surrogate pair stands alone in a
member of the request, and nowhere else (`printed_iff`). Such a half is told by what others read in
its place: a member without one is the same for all of them (`Whole`), and two of them show whether
it is (`isTorn_eq_false_iff`). All this is said of readers without limits: where one gives up on
long numbers or on values of great depth, so does the command.

Once the directory of a request has become its path (`aliased`), the command ends with zero exactly
when the request is accepted and names a location, the audit gives a response, and the gate does not
block it; and whatever the gate says, the response is printed (`exit_zero_iff`).
-/

namespace FrontendAudit

/-! ## What is printed -/

theorem Issue.isExact_toRecord (e : Issue) : e.toRecord.IsExact := by
  refine ⟨?_, ?_, trivial, trivial⟩
  · show ["loc", "type"].Nodup
    decide
  · refine Json.isExact_arr fun step _ => ?_
    cases step <;> exact trivial

namespace Command

/-- Only an object has the members of an object when it is renamed. -/
theorem obj_of_renamed {v : Json} {ms : List (String × Json)} (h : renamed v = .ok (.obj ms)) :
    ∃ ms, v = .obj ms := by
  obtain ⟨hasDirectory, -, h⟩ := bind_eq_ok.mp h
  obtain ⟨hasPath, -, h⟩ := bind_eq_ok.mp h
  split at h
  · cases v with
    | obj ms => exact ⟨ms, rfl⟩
    | _ => cases h
  · exact ⟨ms, Except.ok.inj h⟩

theorem obj_of_members {v : Json} {ms : List (String × Json)} (h : members v = .ok ms) :
    v = .obj ms := by
  cases v with
  | obj ms => exact congrArg Json.obj (Except.ok.inj h)
  | _ => cases h

/-- The members of the input, with the directory as the path unless there is a path. -/
def aliased (ms : List (String × Json)) : List (String × Json) :=
  match Json.lookup? "path" ms, Json.lookup? "directory" ms with
  | none, some directory => ms.filter (·.1 ≠ "directory") ++ [("path", directory)]
  | _, _ => ms

theorem any_key_eq (key : String) (ms : List (String × Json)) :
    (ms.any (·.1 = key)) = (Json.lookup? key ms).isSome := by
  rw [Json.lookup?, Option.isSome_map, List.isSome_find?]

theorem renamed_eq (ms : List (String × Json)) : renamed (.obj ms) = .ok (.obj (aliased ms)) := by
  simp only [renamed, holds, bind, Except.bind, any_key_eq, aliased]
  cases Json.lookup? "path" ms with
  | some path => simp [pure, Except.pure]
  | none =>
      cases Json.lookup? "directory" ms with
      | none => simp [pure, Except.pure]
      | some directory => simp [pure, Except.pure]

/-- The path is the directory where there is none; the other members stay as they are. -/
theorem lookup?_aliased {key : String} (hkey : key ≠ "directory") (ms : List (String × Json)) :
    Json.lookup? key (aliased ms) =
      if key = "path" then (Json.lookup? "path" ms).or (Json.lookup? "directory" ms)
      else Json.lookup? key ms := by
  have hkept : Json.lookup? key (ms.filter (·.1 ≠ "directory")) = Json.lookup? key ms := by
    rw [Json.lookup?, List.find?_filter, Json.lookup?]
    congr 2
    funext m
    by_cases hm : m.1 = key
    · simp [hm, hkey]
    · simp [hm]
  unfold aliased
  split
  · next directory hpath hdirectory =>
      rw [Json.lookup?, List.find?_append, Option.map_or, ← Json.lookup?, hkept]
      by_cases h : key = "path"
      · subst h
        rw [if_pos rfl, hpath, hdirectory]
        rfl
      · simp [h, Ne.symm h]
  · next hboth =>
      by_cases h : key = "path"
      · subst h
        rw [if_pos rfl]
        cases hpath : Json.lookup? "path" ms with
        | some path => rfl
        | none =>
            cases hdirectory : Json.lookup? "directory" ms with
            | none => rfl
            | some directory => exact absurd hdirectory (hboth directory hpath)
      · rw [if_neg h]

/-- Only the members of an object are asked for. -/
theorem asked?_of_ne_obj {v : Json} (h : ∀ ms, v ≠ .obj ms) : asked? v = none := by
  unfold asked?
  cases hmembers : (renamed v).bind members with
  | error m => rfl
  | ok ms =>
      obtain ⟨v', hrenamed, hms⟩ := bind_eq_ok.mp hmembers
      obtain rfl := obj_of_members hms
      obtain ⟨ms, rfl⟩ := obj_of_renamed hrenamed
      exact absurd rfl (h ms)

theorem asked?_obj (ms : List (String × Json)) :
    asked? (.obj ms) =
      if isGiven "path" (aliased ms) || isGiven "repo_url" (aliased ms) then some (aliased ms)
      else none := by
  rw [asked?, renamed_eq]
  rfl

/-! ## Halves of surrogate pairs -/

/-- The value of a member that is checked, where it is said what stands for half of a surrogate
pair. -/
def askedWith? (half text : List Char) (key : String) : Option Json :=
  ((Json.parseWith? half text).bind asked?).bind (Json.lookup? key)

/-- No member of the request holds half of a surrogate pair that stands alone: each is the same
whatever stands for such halves. U+FFFD is among it, so that a name with a half in it is never
mistaken for the name of a member of the request. -/
def Whole (text : List Char) : Prop :=
  ∀ half, '\uFFFD' ∈ half → ∀ key ∈ Request.keys,
    askedWith? half text key = askedWith? ['\uFFFD'] text key

/-- Members are checked whatever stands for halves, or never. -/
theorem asked?_uniform {n : Nat} {ms : List Char → List (String × Json)}
    (hfound : ∀ key ∈ Request.keys,
      Json.IsFound n '\uFFFD' fun half => Json.lookup? key (aliased (ms half))) :
    (∀ half, '\uFFFD' ∈ half → asked? (.obj (ms half)) = none) ∨
      ∀ half, '\uFFFD' ∈ half → asked? (.obj (ms half)) = some (aliased (ms half)) := by
  have hgiven : ∀ key ∈ Request.keys, ∀ half, '\uFFFD' ∈ half →
      isGiven key (aliased (ms half)) = isGiven key (aliased (ms ['\uFFFD'])) := by
    intro key hkey half hhalf
    exact congrArg not ((hfound key hkey).isVacant_eq hhalf)
  have hasked : ∀ half, '\uFFFD' ∈ half → asked? (.obj (ms half)) =
      if isGiven "path" (aliased (ms ['\uFFFD'])) ||
          isGiven "repo_url" (aliased (ms ['\uFFFD'])) then some (aliased (ms half))
      else none := by
    intro half hhalf
    rw [asked?_obj, hgiven "path" (by decide) half hhalf,
      hgiven "repo_url" (by decide) half hhalf]
  split at hasked
  · exact .inr hasked
  · exact .inl hasked

/-- Whatever stands for halves, no members are checked, or those of one object with places. -/
theorem exists_asked (text : List Char) :
    (∀ half, '\uFFFD' ∈ half → (Json.parseWith? half text).bind asked? = none) ∨
      ∃ ms : List Char → List (String × Json),
        (∀ half, '\uFFFD' ∈ half → (Json.parseWith? half text).bind asked? = some (ms half)) ∧
        ∀ key ∈ Request.keys,
          Json.IsFound text.length '\uFFFD' fun half => Json.lookup? key (ms half) := by
  rcases Json.exists_reading text with hnone | ⟨f, hf, hsome⟩
  · exact .inl fun half _ => by rw [hnone, Option.bind_none]
  simp only [hsome, Option.bind_some]
  cases hf with
  | same v =>
      cases hasked : asked? v with
      | none => exact .inl fun _ _ => hasked
      | some ms => exact .inr ⟨fun _ => ms, fun _ _ => hasked, fun _ _ => Json.isFound_const _⟩
  | str _ => exact .inl fun _ _ => asked?_of_ne_obj nofun
  | arr _ => exact .inl fun _ _ => asked?_of_ne_obj nofun
  | @obj ms _ hmembers =>
      have hnames : ∀ key ∈ "directory" :: Request.keys, '\uFFFD' ∉ key.toList := by decide
      have hlookup : ∀ key ∈ "directory" :: Request.keys, Json.IsFound text.length '\uFFFD'
          fun half => Json.lookup? key (Json.collect (Json.filled half ms)) :=
        fun key hkey => Json.isFound_collect_filled hmembers (hnames key hkey)
      have hfound : ∀ key ∈ Request.keys, Json.IsFound text.length '\uFFFD'
          fun half => Json.lookup? key (aliased (Json.collect (Json.filled half ms))) := by
        intro key hkey
        have hdirectory : key ≠ "directory" := ne_of_mem_of_not_mem hkey (by decide)
        simp only [lookup?_aliased hdirectory]
        split
        · exact (hlookup "path" (by decide)).or (hlookup "directory" (by decide))
        · exact hlookup key (List.mem_cons_of_mem _ hkey)
      exact (asked?_uniform hfound).imp_right fun hasked => ⟨_, hasked, hfound⟩

/-- So it is seen from two readings whether a member holds half of a surrogate pair. -/
theorem isTorn_eq_false_iff (text : List Char) : isTorn text = false ↔ Whole text := by
  have hmany : '\uFFFD' ∈ List.replicate (text.length + 1) '\uFFFD' :=
    List.mem_replicate.mpr ⟨Nat.succ_ne_zero _, rfl⟩
  have hone : '\uFFFD' ∈ ['\uFFFD'] := List.mem_cons_self
  unfold isTorn Whole askedWith? Json.parse?
  rcases exists_asked text with hnone | ⟨ms, hsome, hfound⟩
  · simp only [hnone _ hone, true_iff]
    intro half hhalf key _
    rw [hnone half hhalf]
  · simp only [hsome _ hmany, hsome _ hone, Option.bind_some, List.any_eq_false, bne_iff_ne,
      not_not]
    constructor
    · intro h half hhalf key hkey
      rw [hsome half hhalf]
      exact (hfound key hkey).eq_of_eq (h key hkey).symm hhalf
    · intro h key hkey
      have hwhole := h _ hmany key hkey
      rw [hsome _ hmany] at hwhole
      exact hwhole.symm

/-! ## Runs -/

/-- The bytes of a text. -/
def encoded (text : String) : List UInt8 := text.toList.flatMap String.utf8EncodeChar

theorem strict?_encoded (text : String) : Text.Utf8.strict? (encoded text) = some text.toList :=
  Text.Utf8.strict?_eq_some_iff.mpr rfl

/-- A value that was written out holds no half of a surrogate pair. -/
theorem isTorn_compact {v : Json} (h : v.IsExact) : isTorn v.compact.toList = false := by
  refine (isTorn_eq_false_iff _).mpr fun half _ key _ => ?_
  rw [askedWith?, askedWith?, Json.parseWith?_compact h, Json.parseWith?_compact h]

/-- So what the command makes of such a text is what it comes to. -/
theorem answer_compact (c : Project.Context) {v : Json} (h : v.IsExact) (w : World) :
    answer c (encoded v.compact) w = run c v.compact.toList w := by
  simp only [answer, strict?_encoded, isTorn_compact h, Bool.false_eq_true, if_false]

example : isTorn "\x7b\"path\": \"p\", \"categories\": [\"\\ud800\"]\x7d".toList = true ∧
    isTorn "\x7b\"path\": \"p\", \"color\": \"\\ud800\"\x7d".toList = false := by
  decide +kernel

open Project (GateBlocks)

/-- A request names a path or a repository. -/
def Located (r : Request) : Prop :=
  (nonempty? r.path).isSome = true ∨ (nonempty? r.repository).isSome = true

section

variable {c : Project.Context} {ms : List (String × Json)} {r : Request} {w : World}

/-- A member that is read as a text is given exactly when the text is not empty. -/
theorem isGiven_of_field {key : String} {value : Option String}
    (h : Checked.field [key] (some none) (Checked.optional Checked.text) ms = .ok value) :
    isGiven key ms = (nonempty? value).isSome := by
  have hnamed : Checked.firstNamed? [key] ms = (Json.lookup? key ms).map (key, ·) := by
    rw [Checked.firstNamed?, List.findSome?_singleton]
  unfold isGiven
  rcases Checked.field_eq_ok_iff.mp h with ⟨hnone, rfl⟩ | ⟨name, v, hsome, hcheck⟩
  · rw [Option.map_eq_none_iff.mp (hnamed.symm.trans hnone)]
    rfl
  · obtain ⟨v, hlookup, heq⟩ := Option.map_eq_some_iff.mp (hnamed.symm.trans hsome)
    obtain ⟨rfl, rfl⟩ := Prod.mk.inj heq
    rw [hlookup, Checked.optional_text_eq_ok.mp hcheck]
    cases value with
    | none => rfl
    | some s =>
        show (!s.isEmpty) = (nonempty? (some s)).isSome
        simp only [nonempty?]
        cases s.isEmpty <;> rfl

/-- Of a request that is accepted, the members that say something are the path and the repository it
names. -/
theorem isGiven_iff_located (h : Request.check (.obj ms) = .ok r) :
    isGiven "path" ms = true ∨ isGiven "repo_url" ms = true ↔ Located r := by
  obtain ⟨hpath, hrepository, -⟩ := Request.fields_of_check h
  rw [isGiven_of_field hpath, isGiven_of_field hrepository, Located]

theorem gateFails_iff {response : Response} : gateFails response = true ↔
    ∃ g, response.gate = some g ∧ g.passed = false ∧ g.failOnHigh = true := by
  unfold gateFails
  cases response.gate <;> simp

theorem run_obj {input : List Char} (hinput : Json.parse? input = some (.obj ms)) :
    run c input w = runMembers c (aliased ms) w := by
  rw [run, hinput]
  simp only [renamed_eq]
  rfl

/-- A request of which an audit gives a response names a location. -/
theorem located_of_audit {response : Response} (h : (Project.audit c r w).1 = .ok response) :
    Located r := by
  obtain ⟨path, w', hsite, -⟩ := Project.exists_site_of_audit h
  cases hsite with
  | path hpath => exact .inl (by rw [hpath]; rfl)
  | clone _ hrepository _ => exact .inr (by rw [hrepository]; rfl)

/-- Whether the gate blocks a run is told by the response. -/
theorem exists_response_of_gateFails {fails : Bool}
    (h : (Project.audit c r w).1.toOption.map gateFails = some fails) :
    ∃ response, (Project.audit c r w).1 = .ok response ∧
    (GateBlocks c r w response ↔ fails = true) := by
  cases haudit : (Project.audit c r w).1 with
  | error e =>
      rw [haudit] at h
      cases h
  | ok response =>
      rw [haudit] at h
      obtain rfl : gateFails response = fails := Option.some.inj h
      exact ⟨response, rfl, (gateFails_iff.trans (Project.gate_fails_iff haudit)).symm⟩

/-! ## The ways in which the command ends -/

theorem runMembers_of_not_given (h : ¬ (isGiven "path" ms = true ∨ isGiven "repo_url" ms = true)) :
    (runMembers c ms w).1 = .printed 1 missingInput := by
  rw [not_or, Bool.not_eq_true, Bool.not_eq_true] at h
  rw [runMembers, h.1, h.2]
  rfl

section

variable (hgiven : isGiven "path" ms = true ∨ isGiven "repo_url" ms = true)

include hgiven

theorem runMembers_of_bad {issues : List Issue} (hcheck : Request.check (.obj ms) = .bad issues) :
    (runMembers c ms w).1 = .printed 1 (.obj [("error", .str "Invalid input"),
      ("details", .arr (issues.map Issue.toRecord))]) := by
  rw [runMembers, if_neg (by rcases hgiven with h | h <;> simp [h]), hcheck]

theorem runMembers_of_error {e : Failure} (hcheck : Request.check (.obj ms) = .ok r)
    (haudit : (Project.audit c r w).1 = .error e) :
    (runMembers c ms w).1 = .printed 1 (.obj [("error", .str e.message)]) := by
  rw [runMembers, if_neg (by rcases hgiven with h | h <;> simp [h]), hcheck]
  dsimp only
  rw [show Project.audit c r w = (.error e, (Project.audit c r w).2) from Prod.ext haudit rfl]

theorem runMembers_of_response {response : Response} (hcheck : Request.check (.obj ms) = .ok r)
    (haudit : (Project.audit c r w).1 = .ok response) :
    (runMembers c ms w).1 = .printed (if gateFails response then 1 else 0) response.toRecord := by
  rw [runMembers, if_neg (by rcases hgiven with h | h <;> simp [h]), hcheck]
  dsimp only
  rw [show Project.audit c r w = (.ok response, (Project.audit c r w).2) from Prod.ext haudit rfl]

end

end

/-- For every object: the command prints one value and ends with zero or one. It ends with zero
exactly when the request is accepted and names a location, the audit gives a response, and the gate
does not block it. A response is printed whatever the gate says. -/
theorem exit_zero_iff (c : Project.Context) {input : List Char} {ms : List (String × Json)}
    (hinput : Json.parse? input = some (.obj ms)) (w : World) :
    ∃ exit output, (run c input w).1 = .printed exit output ∧ exit ≤ 1 ∧
      (exit = 0 ↔ ∃ r response, Request.check (.obj (aliased ms)) = .ok r ∧ Located r ∧
        (Project.audit c r w).1 = .ok response ∧ ¬ GateBlocks c r w response) ∧
      ∀ r response, Request.check (.obj (aliased ms)) = .ok r →
      (Project.audit c r w).1 = .ok response →
        output = response.toRecord := by
  rw [run_obj hinput]
  by_cases hgiven : isGiven "path" (aliased ms) = true ∨ isGiven "repo_url" (aliased ms) = true
  · cases hcheck : Request.check (.obj (aliased ms)) with
    | bad issues =>
        refine ⟨1, _, runMembers_of_bad hgiven hcheck, Nat.le_refl 1,
          iff_of_false Nat.one_ne_zero ?_, ?_⟩
        · rintro ⟨r, response, hr, -⟩
          cases hr
        · intro r response hr
          cases hr
    | ok r =>
        cases haudit : (Project.audit c r w).1 with
        | error e =>
            refine ⟨1, _, runMembers_of_error hgiven hcheck haudit, Nat.le_refl 1,
              iff_of_false Nat.one_ne_zero ?_, ?_⟩
            · rintro ⟨_, response, ⟨⟩, -, hok, -⟩
              cases haudit.symm.trans hok
            · rintro _ response ⟨⟩ hok
              cases haudit.symm.trans hok
        | ok response =>
            have hblocks := gateFails_iff.trans (Project.gate_fails_iff haudit)
            refine ⟨_, _, runMembers_of_response hgiven hcheck haudit, ?_, ?_, ?_⟩
            · split <;> decide
            · constructor
              · intro hzero
                refine ⟨r, response, rfl, located_of_audit haudit, haudit, fun hgate => ?_⟩
                rw [if_pos (hblocks.mpr hgate)] at hzero
                cases hzero
              · rintro ⟨_, response', ⟨⟩, -, hok, hgate⟩
                obtain rfl := Except.ok.inj (haudit.symm.trans hok)
                rw [if_neg fun hfails => hgate (hblocks.mp hfails)]
            · rintro _ response' ⟨⟩ hok
              rw [Except.ok.inj (haudit.symm.trans hok)]
  · refine ⟨1, _, runMembers_of_not_given hgiven, Nat.le_refl 1,
      iff_of_false Nat.one_ne_zero ?_, ?_⟩
    · rintro ⟨r, response, hr, hlocated, -⟩
      exact hgiven ((isGiven_iff_located hr).mpr hlocated)
    · intro r response hr haudit
      exact absurd ((isGiven_iff_located hr).mpr (located_of_audit haudit)) hgiven

/-! ## One site on two hosts -/

/-- A host whose environment is given. -/
def hostedBy (environment : List (String × String)) : Project.Context :=
  { Project.siteContext with host := { Project.siteContext.host with environment } }

/-- A review of a site is asked for, which is named as a directory. -/
def siteInput : Json := .obj [("directory", .str "site"), ("categories", .arr [.str "security"])]

/-- A site whose settings allow less than no high finding on a platform. -/
def strictSite : World :=
  Project.site [(Config.fileName, .file (.text
    (Json.obj
      [("ci",
        .obj [("enabled", .bool true), ("thresholds", .obj [("security", .int (-1))])])]).compact))]

def siteReviewed : Request := { path := some "site", categories := [.security] }

/-- On a platform the gate blocks a review that finds nothing; elsewhere it is not evaluated. -/
theorem exit_zero_iff_strictSite :
    (∃ response, (Project.audit (hostedBy [("TRAVIS", "1")]) siteReviewed strictSite).1 =
      .ok response ∧
      GateBlocks (hostedBy [("TRAVIS", "1")]) siteReviewed strictSite response ∧
      (run (hostedBy [("TRAVIS", "1")]) siteInput.compact.toList strictSite).1 =
        .printed 1 response.toRecord) ∧
    ∃ response, (Project.audit (hostedBy [("TRAVIS", "")]) siteReviewed strictSite).1 =
      .ok response ∧
      ¬ GateBlocks (hostedBy [("TRAVIS", "")]) siteReviewed strictSite response ∧
      (run (hostedBy [("TRAVIS", "")]) siteInput.compact.toList strictSite).1 =
        .printed 0 response.toRecord := by
  have hinput : Json.parse? siteInput.compact.toList = some siteInput :=
    Json.parse?_compact ⟨by decide, trivial, ⟨trivial, trivial⟩, trivial⟩
  have hcheck : Request.check (.obj (aliased [("directory", .str "site"),
      ("categories", .arr [.str "security"])])) = .ok siteReviewed := rfl
  have hruns : ∀ environment response,
      (Project.audit (hostedBy environment) siteReviewed strictSite).1 = .ok response →
      ∃ exit, (run (hostedBy environment) siteInput.compact.toList strictSite).1 =
        .printed exit response.toRecord ∧ exit ≤ 1 ∧
        (exit = 0 ↔ ¬ GateBlocks (hostedBy environment) siteReviewed strictSite response) := by
    intro environment response haudit
    obtain ⟨exit, output, hrun, hle, hzero, hprints⟩ :=
      exit_zero_iff (hostedBy environment) hinput strictSite
    obtain rfl := hprints _ _ hcheck haudit
    refine ⟨exit, hrun, hle, hzero.trans ⟨?_, fun hgate => ?_⟩⟩
    · rintro ⟨r, response', hr, -, hok, hgate⟩
      obtain rfl := Checked.ok.inj (hcheck.symm.trans hr)
      rwa [Except.ok.inj (haudit.symm.trans hok)]
    · exact ⟨_, response, hcheck, located_of_audit haudit, haudit, hgate⟩
  constructor
  · have hfails :
        (Project.audit (hostedBy [("TRAVIS", "1")]) siteReviewed strictSite).1.toOption.map
        gateFails = some true := by decide +kernel
    obtain ⟨response, haudit, hgate⟩ := exists_response_of_gateFails hfails
    obtain ⟨exit, hrun, hle, hzero⟩ := hruns _ response haudit
    have hblocks := hgate.mpr rfl
    have hone : exit = 1 := by
      have hnot : exit ≠ 0 := fun h => hzero.mp h hblocks
      omega
    exact ⟨response, haudit, hblocks, hone ▸ hrun⟩
  · have hpasses :
        (Project.audit (hostedBy [("TRAVIS", "")]) siteReviewed strictSite).1.toOption.map
        gateFails = some false := by decide +kernel
    obtain ⟨response, haudit, hgate⟩ := exists_response_of_gateFails hpasses
    obtain ⟨exit, hrun, -, hzero⟩ := hruns _ response haudit
    have hnot : ¬ GateBlocks (hostedBy [("TRAVIS", "")]) siteReviewed strictSite response :=
      fun h => Bool.false_ne_true (hgate.mp h)
    exact ⟨response, haudit, hnot, hzero.mpr hnot ▸ hrun⟩

end Command

end FrontendAudit
