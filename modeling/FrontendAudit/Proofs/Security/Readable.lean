import FrontendAudit.Proofs.Finding.Record
import FrontendAudit.Proofs.Security.Review

/-!
# Which reviews can be read

Reading a review stops at the first part that is not of the kind that is counted on. So a review can
be read exactly when there is no such part (`Readable`, `exists_findings_iff`). This is less than
being well-formed: an entry that is left out as likely no problem need only be an object, the number
of a line may be written in any way that records allow, and a group without entries may be a text or
an object.
-/

namespace FrontendAudit.Review

/-- A member that is read as the number of a line: it says nothing, or is one. -/
def IsLineField (entry : Json) : Prop :=
  ((entry.get? "line").getD .null).isVacant = true ∨
    ∃ v n, entry.get? "line" = some v ∧ Checked.integer v = .ok n

/-- An entry that can be read: an object, whose members are of the right kinds if it counts. -/
structure Origin.Fits (o : Origin) (entry : Json) : Prop where
  object : ∃ members, entry = .obj members
  texts : o.counts entry = true → ∀ key ∈ o.texts, IsTextField key entry
  line : o.counts entry = true → o ≠ .dependency → IsLineField entry
  pattern : o.counts entry = true → ∀ group, o = .pattern group →
    entry.get? "pattern" = none ∨ ∃ s, entry.get? "pattern" = some (.str s)

/-- A review that can be read: it says nothing or is an object, and so is what it has to say of its
groups; the groups are lists, if they are there and not empty, and their entries can be read. -/
structure Readable (review : Json) : Prop where
  object : review.isVacant = true ∨ ∃ members, review = .obj members
  groups : ∃ members, groupsIn review = .obj members
  lists : ∀ o ∈ origins, ∀ group, (groupsIn review).get? o.group = some group →
    (∃ entries, group = .arr entries) ∨ group = .str "" ∨ group = .obj []
  entries : ∀ o ∈ origins, ∀ entry ∈ entriesOf review o, o.Fits entry

/-! ## Members of an entry -/

/-- What stands for a member: null, if it says nothing. -/
def valueOf (key : String) (entry : Json) : Json :=
  if ((entry.get? key).getD .null).isVacant then .null else (entry.get? key).getD .null

theorem exists_eq_ofOption_iff {key : String} {entry : Json} :
    (∃ s, valueOf key entry = Json.ofOption .str s) ↔ IsTextField key entry := by
  unfold valueOf IsTextField
  split
  · next hvacant => exact ⟨fun _ => .inl hvacant, fun _ => ⟨none, rfl⟩⟩
  · next hstated =>
      constructor
      · rintro ⟨_ | s, hs⟩
        · rw [hs] at hstated
          exact absurd rfl hstated
        · refine .inr ⟨s, ?_⟩
          cases hmember : entry.get? key with
          | none =>
              rw [hmember] at hstated
              exact absurd rfl hstated
          | some v =>
              rw [hmember] at hs
              exact congrArg some hs
      · rintro (hvacant | ⟨s, hs⟩)
        · exact absurd hvacant hstated
        · exact ⟨some s, by rw [hs]; rfl⟩

theorem exists_integer_iff {entry : Json} :
    (∃ n, Checked.optional Checked.integer (valueOf "line" entry) = .ok n) ↔ IsLineField entry := by
  unfold valueOf IsLineField
  split
  · next hvacant => exact ⟨fun _ => .inl hvacant, fun _ => ⟨none, rfl⟩⟩
  · next hstated =>
      cases hmember : entry.get? "line" with
      | none =>
          rw [hmember] at hstated
          exact absurd rfl hstated
      | some v =>
          rw [hmember] at hstated
          have hnull : v ≠ .null := by
            rintro rfl
            exact hstated rfl
          rw [Option.getD_some] at hstated ⊢
          constructor
          · rintro ⟨value, hvalue⟩
            obtain ⟨n, hn, -⟩ := (Checked.optional_eq_ok_of_ne_null hnull).mp hvalue
            exact .inr ⟨v, n, rfl, hn⟩
          · rintro (hvacant | ⟨_, n, hv, hn⟩)
            · exact absurd hvacant hstated
            · obtain rfl := Option.some.inj hv
              exact ⟨some n, (Checked.optional_eq_ok_of_ne_null hnull).mpr ⟨n, hn, rfl⟩⟩

theorem optionalMember_eq {entry : Json} (hobject : ∃ members, entry = .obj members)
    (key : String) :
    optionalMember key entry = .ok (valueOf key entry) := by
  rw [optionalMember, memberOrNull_obj hobject]
  rfl

theorem place_eq_ok {entry : Json} (hobject : ∃ members, entry = .obj members) :
    ∃ v, place entry = .ok v ∧ v.isVacant = false ∧
    ((∃ s, v = .str s) ↔ IsTextField "file" entry) := by
  rw [place, memberOrNull_obj hobject]
  unfold IsTextField
  cases hvacant : ((entry.get? "file").getD .null).isVacant with
  | true =>
      refine ⟨.str ".", congrArg Except.ok (if_pos hvacant), rfl, ?_⟩
      exact ⟨fun _ => .inl rfl, fun _ => ⟨".", rfl⟩⟩
  | false =>
      refine ⟨_, congrArg Except.ok (if_neg (by rw [hvacant]; exact Bool.false_ne_true)),
        hvacant, ?_⟩
      cases hmember : entry.get? "file" with
      | none =>
          rw [hmember] at hvacant
          cases hvacant
      | some v => simp

/-! ## Checking what was read -/

section

open Checked (optional integer)

variable {kind source : String} {severity : Severity} {message file line code recommendation
  rule : Json}

theorem ofMembers_located {f : Finding} : Finding.ofMembers
      [("type", .str kind), ("severity", .str severity.name), ("message", message),
       ("file", file), ("line", line), ("code", code), ("recommendation", recommendation),
       ("source", .str source)] = .ok f ↔
    kind = f.kind ∧ severity = f.severity ∧ message = .str f.message ∧
      file = Json.ofOption .str f.file ∧ optional integer line = .ok f.line ∧ none = f.url ∧
      code = Json.ofOption .str f.code ∧ none = f.context ∧
      recommendation = Json.ofOption .str f.recommendation ∧ source = f.source ∧ none = f.wcag ∧
      none = f.rule := by
  rw [Finding.ofMembers_eq_ok]
  simp [Checked.field, Checked.firstNamed?, Json.lookup?, Checked.below_eq_ok,
    Checked.text_eq_ok, Checked.optional_text_eq_ok, Severity.check_name]

theorem ofMembers_ruled {f : Finding} : Finding.ofMembers
      [("type", .str kind), ("severity", .str severity.name), ("message", message),
       ("file", file), ("recommendation", recommendation), ("source", .str source),
       ("rule_id", rule)] = .ok f ↔
    kind = f.kind ∧ severity = f.severity ∧ message = .str f.message ∧
      file = Json.ofOption .str f.file ∧ none = f.line ∧ none = f.url ∧ none = f.code ∧
      none = f.context ∧ recommendation = Json.ofOption .str f.recommendation ∧
      source = f.source ∧ none = f.wcag ∧ rule = Json.ofOption .str f.rule := by
  rw [Finding.ofMembers_eq_ok]
  simp [Checked.field, Checked.firstNamed?, Json.lookup?, Checked.below_eq_ok,
    Checked.text_eq_ok, Checked.optional_text_eq_ok, Severity.check_name]

/-- A file that says something is a location. -/
theorem isSome_location? {f : Finding} {s : String} (hfile : f.file = some s)
    (hstated : (Json.str s).isVacant = false) : f.location?.isSome = true := by
  have hempty : s.isEmpty = false := hstated
  rw [Finding.location?, hfile, nonempty?, hempty]
  rfl

/-- A finding with a place in a file is accepted when its parts are of the right kinds. -/
theorem check_located_iff (hfile : file.isVacant = false) :
    (∃ f, Finding.check (.obj
      [("type", .str kind), ("severity", .str severity.name), ("message", message),
       ("file", file), ("line", line), ("code", code), ("recommendation", recommendation),
       ("source", .str source)]) = .ok f) ↔
    (∃ s, message = .str s) ∧ (∃ s, file = .str s) ∧ (∃ n, optional integer line = .ok n) ∧
      (∃ s, code = Json.ofOption .str s) ∧ ∃ s, recommendation = Json.ofOption .str s := by
  rw [Finding.check_eq_ok]
  simp only [ofMembers_located]
  constructor
  · rintro ⟨f, ⟨-, -, hmessage, hplace, hline, -, hcode, -, hrecommendation, -⟩, -⟩
    refine ⟨⟨_, hmessage⟩, ?_, ⟨_, hline⟩, ⟨_, hcode⟩, ⟨_, hrecommendation⟩⟩
    cases hf : f.file with
    | none =>
        rw [hplace, hf] at hfile
        cases hfile
    | some s => exact ⟨s, by rw [hplace, hf]; rfl⟩
  · rintro ⟨⟨message, rfl⟩, ⟨file, rfl⟩, ⟨line, hline⟩, ⟨code, rfl⟩, ⟨recommendation, rfl⟩⟩
    refine ⟨{ kind, severity, message, file := some file, line, code, recommendation, source },
      ⟨rfl, rfl, rfl, rfl, hline, rfl, rfl, rfl, rfl, rfl, rfl, rfl⟩, ?_⟩
    exact isSome_location? rfl hfile

/-- A finding with a place in a file and a rule is accepted when its parts are of the right
kinds. -/
theorem check_ruled_iff {message file : String} (hfile : (Json.str file).isVacant = false) :
    (∃ f, Finding.check (.obj
      [("type", .str kind), ("severity", .str severity.name), ("message", .str message),
       ("file", .str file), ("recommendation", recommendation), ("source", .str source),
       ("rule_id", rule)]) = .ok f) ↔
    (∃ s, recommendation = Json.ofOption .str s) ∧ ∃ s, rule = Json.ofOption .str s := by
  rw [Finding.check_eq_ok]
  simp only [ofMembers_ruled]
  constructor
  · rintro ⟨f, ⟨-, -, -, -, -, -, -, -, hrecommendation, -, -, hrule⟩, -⟩
    exact ⟨⟨_, hrecommendation⟩, ⟨_, hrule⟩⟩
  · rintro ⟨⟨recommendation, rfl⟩, ⟨rule, rfl⟩⟩
    refine ⟨{ kind, severity, message, file := some file, recommendation, source, rule },
      ⟨rfl, rfl, rfl, rfl, rfl, rfl, rfl, rfl, rfl, rfl, rfl, rfl⟩, ?_⟩
    exact isSome_location? rfl hfile

end

/-! ## Reading an entry -/

section

variable {entry : Json} (hobject : ∃ members, entry = .obj members)

include hobject

theorem exists_secretFinding_iff : (∃ f, secretFinding entry = .ok f) ↔
    IsTextField "file" entry ∧ IsLineField entry ∧ IsTextField "preview" entry ∧
      IsTextField "recommendation" entry := by
  obtain ⟨file, hplace, hstated, hfile⟩ := place_eq_ok hobject
  have hseverity : severity .high entry = _ := severity_eq hobject .secret
  rw [secretFinding, shown_eq hobject, hseverity, hplace, optionalMember_eq hobject,
    optionalMember_eq hobject, optionalMember_eq hobject, ← hfile, ← exists_integer_iff,
    ← exists_eq_ofOption_iff, ← exists_eq_ofOption_iff]
  simp only [bind, Except.bind, Checked.toExcept_eq_ok, check_located_iff hstated]
  simp

theorem exists_patternFinding_iff (group : String) : (∃ f, patternFinding group entry = .ok f) ↔
    (entry.get? "pattern" = none ∨ ∃ s, entry.get? "pattern" = some (.str s)) ∧
      IsTextField "file" entry ∧ IsLineField entry ∧ IsTextField "snippet" entry ∧
      IsTextField "recommendation" entry := by
  obtain ⟨file, hplace, hstated, hfile⟩ := place_eq_ok hobject
  have hseverity : severity .medium entry = _ := severity_eq hobject (.pattern group)
  have hmessage : (∃ s, (entry.get? "pattern").getD (.str group) = .str s) ↔
      entry.get? "pattern" = none ∨ ∃ s, entry.get? "pattern" = some (.str s) := by
    cases entry.get? "pattern" <;> simp
  rw [patternFinding, hseverity, member_obj hobject, hplace, optionalMember_eq hobject,
    optionalMember_eq hobject, optionalMember_eq hobject, ← hmessage, ← hfile, ← exists_integer_iff,
    ← exists_eq_ofOption_iff, ← exists_eq_ofOption_iff]
  simp only [bind, Except.bind, Checked.toExcept_eq_ok, check_located_iff hstated]

theorem exists_dependencyFinding_iff : (∃ f, dependencyFinding entry = .ok f) ↔
    IsTextField "recommendation" entry ∧ IsTextField "cve" entry := by
  have hseverity : severity .medium entry = _ := severity_eq hobject .dependency
  rw [dependencyFinding, shown_eq hobject, shown_eq hobject, hseverity, optionalMember_eq hobject,
    optionalMember_eq hobject, optionalMember_eq hobject, ← exists_eq_ofOption_iff,
    ← exists_eq_ofOption_iff]
  simp only [bind, Except.bind, Checked.toExcept_eq_ok]
  exact check_ruled_iff rfl

end

/-! ## Reading a group -/

theorem exists_isDoubtful_iff {entry : Json} {k : Bool → Except Misfit (List Finding)} :
    (∃ found, isDoubtful entry >>= k = .ok found) ↔ (∃ members, entry = .obj members) ∧
      ∃ found, k (!((entry.get? "likely_false_positive").getD .null).isVacant) = .ok found := by
  rw [exists_bind_eq_ok]
  constructor
  · rintro ⟨doubtful, hdoubtful, hk⟩
    have hobject : ∃ members, entry = .obj members := by
      cases entry with
      | obj members => exact ⟨members, rfl⟩
      | _ => cases hdoubtful
    rw [isDoubtful_eq hobject] at hdoubtful
    obtain rfl := Except.ok.inj hdoubtful
    exact ⟨hobject, hk⟩
  · rintro ⟨hobject, hk⟩
    exact ⟨_, isDoubtful_eq hobject, hk⟩

/-- Entries are read to the end when each of them that counts is read. -/
theorem exists_credibleFindings_iff {finding : Json → Except Misfit Finding} {o : Origin}
    (ho : o ≠ .dependency)
    (h : ∀ entry, (∃ members, entry = .obj members) → o.counts entry = true →
      ((∃ f, finding entry = .ok f) ↔ o.Fits entry)) {entries : List Json} :
    (∃ found, credibleFindings finding entries = .ok found) ↔ ∀ entry ∈ entries, o.Fits entry := by
  induction entries with
  | nil => simp [credibleFindings]
  | cons entry entries ih =>
      have hcounts :
          ((entry.get? "likely_false_positive").getD .null).isVacant = o.counts entry := by
        cases o with
        | dependency => exact absurd rfl ho
        | _ => rfl
      rw [credibleFindings, exists_isDoubtful_iff, hcounts, List.forall_mem_cons, ← ih]
      cases hcount : o.counts entry with
      | true =>
          -- the entry counts, and is read before the others
          simp only [Bool.not_true, Bool.false_eq_true, if_false, exists_bind_eq_ok]
          constructor
          · rintro ⟨hobject, f, hf, found, hfound, -⟩
            exact ⟨(h entry hobject hcount).mp ⟨f, hf⟩, found, hfound⟩
          · rintro ⟨hfits, found, hfound⟩
            obtain ⟨f, hf⟩ := (h entry hfits.object hcount).mpr hfits
            exact ⟨hfits.object, f, hf, found, hfound, _, rfl⟩
      | false =>
          have hskipped : o.Fits entry ↔ ∃ members, entry = .obj members := by
            refine ⟨Origin.Fits.object, fun hobject => ⟨hobject, ?_, ?_, ?_⟩⟩ <;>
              exact fun hcount' => absurd (hcount.symm.trans hcount') Bool.false_ne_true
          rw [hskipped]
          rfl

theorem exists_secrets_iff {entries : List Json} :
    (∃ found, credibleFindings secretFinding entries = .ok found) ↔
      ∀ entry ∈ entries, Origin.secret.Fits entry := by
  refine exists_credibleFindings_iff (by decide) fun entry hobject hcount => ?_
  rw [exists_secretFinding_iff hobject]
  constructor
  · rintro ⟨hfile, hline, hcode, hrecommendation⟩
    refine ⟨hobject, fun _ => ?_, fun _ _ => hline, fun _ _ h => nomatch h⟩
    simp [Origin.texts, hfile, hcode, hrecommendation]
  · intro h
    have htexts := h.texts hcount
    exact ⟨htexts "file" (by decide), h.line hcount (by decide), htexts "preview" (by decide),
      htexts "recommendation" (by decide)⟩

theorem exists_patterns_iff (group : String) {entries : List Json} :
    (∃ found, credibleFindings (patternFinding group) entries = .ok found) ↔
      ∀ entry ∈ entries, (Origin.pattern group).Fits entry := by
  refine exists_credibleFindings_iff Origin.noConfusion fun entry hobject hcount => ?_
  rw [exists_patternFinding_iff hobject]
  constructor
  · rintro ⟨hmessage, hfile, hline, hcode, hrecommendation⟩
    refine ⟨hobject, fun _ => ?_, fun _ _ => hline, fun _ _ _ => hmessage⟩
    simp [Origin.texts, hfile, hcode, hrecommendation]
  · intro h
    have htexts := h.texts hcount
    exact ⟨h.pattern hcount group rfl, htexts "file" (by simp [Origin.texts]),
      h.line hcount Origin.noConfusion, htexts "snippet" (by simp [Origin.texts]),
      htexts "recommendation" (by simp [Origin.texts])⟩

theorem exists_dependencies_iff {entries : List Json} :
    (∃ found, entries.mapM dependencyFinding = .ok found) ↔
      ∀ entry ∈ entries, Origin.dependency.Fits entry := by
  rw [exists_mapM_eq_ok]
  refine forall₂_congr fun entry _ => ?_
  constructor
  · rintro ⟨f, hf⟩
    have hobject : ∃ members, entry = .obj members := by
      cases entry with
      | obj members => exact ⟨members, rfl⟩
      | _ => cases hf
    obtain ⟨hrecommendation, hrule⟩ := (exists_dependencyFinding_iff hobject).mp ⟨f, hf⟩
    refine ⟨hobject, fun _ => ?_, fun _ h => absurd rfl h, fun _ _ h => nomatch h⟩
    simp [Origin.texts, hrecommendation, hrule]
  · intro h
    have htexts := h.texts rfl
    exact (exists_dependencyFinding_iff h.object).mpr
      ⟨htexts "recommendation" (by decide), htexts "cve" (by decide)⟩

theorem not_fits_str (o : Origin) (s : String) : ¬ o.Fits (.str s) := by
  rintro ⟨⟨members, h⟩, -⟩
  cases h

/-- A group is gone through, and its entries are read, when it is a list of such entries or is
empty. -/
theorem entries_fit_iff {review : Json} (hgroups : ∃ members, groupsIn review = .obj members)
    (o : Origin) :
    (∃ es, entries o.group (groupsIn review) = .ok es ∧ ∀ entry ∈ es, o.Fits entry) ↔
      (∀ group, (groupsIn review).get? o.group = some group →
        (∃ es, group = .arr es) ∨ group = .str "" ∨ group = .obj []) ∧
      ∀ entry ∈ entriesOf review o, o.Fits entry := by
  rw [entries, member_obj hgroups, entriesOf]
  cases hgroup : (groupsIn review).get? o.group with
  | none => simp [bind, Except.bind, Json.items]
  | some group =>
      simp only [bind, Except.bind, Option.getD_some, Option.some.injEq, forall_eq']
      cases group with
      | arr es => simp [Json.items]
      | str s =>
          -- the items of a text are texts
          cases hs : s.toList with
          | nil =>
              have hempty : s = "" := String.toList_eq_nil_iff.mp hs
              simp [Json.items, hempty]
          | cons c cs =>
              have hne : s ≠ "" := by
                rintro rfl
                cases hs
              simp [Json.items, hs, hne, not_fits_str]
      | obj members => cases members <;> simp [Json.items, not_fits_str]
      | _ => simp [Json.items]

/-! ## Reading a review -/

theorem readable_of_isVacant {review : Json} (h : review.isVacant = true) : Readable review := by
  have hgroups : groupsIn review = .obj [] := by
    rw [groupsIn, get?_of_isVacant h]
    rfl
  refine ⟨.inl h, ⟨[], hgroups⟩, ?_, ?_⟩
  · intro o _ group hgroup
    rw [hgroups] at hgroup
    cases hgroup
  · intro o _ entry hentry
    rw [entriesOf, hgroups] at hentry
    cases hentry

/-- The groups of a review are read one after the other. -/
theorem exists_groups_iff {groups : Json} :
    (∃ found, (do
      let secrets ← credibleFindings secretFinding (← entries "secrets" groups)
      let dependencies ← (← entries "dependencies" groups).mapM dependencyFinding
      let patterns ← patternGroups.mapM fun group => do
        credibleFindings (patternFinding group) (← entries group groups)
      return secrets ++ dependencies ++ patterns.flatten : Except Misfit (List Finding)) =
        .ok found) ↔
    ∀ o ∈ origins, ∃ es, entries o.group groups = .ok es ∧ ∀ entry ∈ es, o.Fits entry := by
  simp only [origins, List.forall_mem_cons, List.forall_mem_map, exists_bind_eq_ok]
  constructor
  · rintro ⟨es, hes, _, hsecrets, es', hes', _, hdependencies, _, hpatterns, -⟩
    refine ⟨⟨es, hes, exists_secrets_iff.mp ⟨_, hsecrets⟩⟩,
      ⟨es', hes', exists_dependencies_iff.mp ⟨_, hdependencies⟩⟩, fun group hgroup => ?_⟩
    obtain ⟨es, hes, hfound⟩ :=
      exists_bind_eq_ok.mp (exists_mapM_eq_ok.mp ⟨_, hpatterns⟩ group hgroup)
    exact ⟨es, hes, (exists_patterns_iff group).mp hfound⟩
  · rintro ⟨⟨es, hes, hsecrets⟩, ⟨es', hes', hdependencies⟩, hpatterns⟩
    obtain ⟨secrets, hsecrets⟩ := exists_secrets_iff.mpr hsecrets
    obtain ⟨dependencies, hdependencies⟩ := exists_dependencies_iff.mpr hdependencies
    obtain ⟨patterns, hpatterns⟩ : ∃ found, patternGroups.mapM (fun group => do
        credibleFindings (patternFinding group) (← entries group groups)) = .ok found := by
      refine exists_mapM_eq_ok.mpr fun group hgroup => ?_
      obtain ⟨es, hes, hfits⟩ := hpatterns group hgroup
      exact exists_bind_eq_ok.mpr ⟨es, hes, (exists_patterns_iff group).mpr hfits⟩
    exact ⟨es, hes, secrets, hsecrets, es', hes', dependencies, hdependencies, patterns, hpatterns,
      _, rfl⟩

/-- A review gives findings exactly when it can be read. -/
theorem exists_findings_iff (review : Json) :
    (∃ found, findings review = .ok found) ↔ Readable review := by
  by_cases hvacant : review.isVacant = true
  · refine ⟨fun _ => readable_of_isVacant hvacant, fun _ => ⟨[], ?_⟩⟩
    rw [findings, if_pos hvacant]
  rw [findings, if_neg hvacant, exists_bind_eq_ok]
  constructor
  · rintro ⟨groups, hgroupsOf, hfound⟩
    have hobject : ∃ members, review = .obj members := by
      cases review with
      | obj members => exact ⟨members, rfl⟩
      | _ => cases hgroupsOf
    obtain rfl : groupsIn review = groups := by
      rw [groupsOf, memberOrNull_obj hobject] at hgroupsOf
      exact Except.ok.inj hgroupsOf
    have hfits := exists_groups_iff.mp hfound
    -- a group could only be looked up in an object
    obtain ⟨es, hes, -⟩ := hfits .secret (by decide)
    have hgroups : ∃ members, groupsIn review = .obj members := by
      cases hgroups : groupsIn review with
      | obj members => exact ⟨members, rfl⟩
      | _ =>
          rw [hgroups] at hes
          cases hes
    exact ⟨.inr hobject, hgroups, fun o ho => ((entries_fit_iff hgroups o).mp (hfits o ho)).1,
      fun o ho => ((entries_fit_iff hgroups o).mp (hfits o ho)).2⟩
  · intro h
    have hobject := h.object.resolve_left hvacant
    refine ⟨groupsIn review, ?_, exists_groups_iff.mpr fun o ho => ?_⟩
    · rw [groupsOf, memberOrNull_obj hobject]
      rfl
    · exact (entries_fit_iff h.groups o).mpr ⟨h.lists o ho, h.entries o ho⟩

end FrontendAudit.Review
