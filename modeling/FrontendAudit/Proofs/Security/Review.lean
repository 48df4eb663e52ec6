import FrontendAudit.Proofs.Fallible
import FrontendAudit.Security.Review

/-!
# What a well-formed review gives

A review is well-formed when its groups are lists of objects whose members are of the kinds that are
counted on (`WellFormed`). Then nothing in it is a misfit, and its findings are those of its
credible entries, one each, group by group and in the order of the entries (`findings_eq`). What the
finding of an entry is can be said without reading step by step (`Origin.finding`).
-/

namespace FrontendAudit

namespace Checked

theorem text_str (s : String) : text (.str s) = .ok s := rfl

theorem optional_text_str (s : String) : optional text (.str s) = .ok (some s) := rfl

theorem optional_text (value : Option String) :
    optional text (Json.ofOption .str value) = .ok value := by
  cases value <;> rfl

theorem optional_integer (value : Option Int) :
    optional integer (Json.ofOption .int value) = .ok value := by
  cases value <;> rfl

end Checked

theorem Severity.check_name (s : Severity) : Severity.check (.str s.name) = .ok s := by
  rw [Severity.check, Severity.ofRecord?_name]

namespace Review

/-! ## Entries and their findings -/

/-- The group that an entry stands in. -/
inductive Origin where
  | secret
  | dependency
  | pattern (group : String)
  deriving DecidableEq, Repr

/-- The groups of a review, in the order of their findings. -/
def origins : List Origin := .secret :: .dependency :: patternGroups.map .pattern

/-- A member as a text, unless it says nothing. -/
def textOf (key : String) (entry : Json) : Option String :=
  match entry.get? key with
  | some (.str s) => nonempty? (some s)
  | _ => none

/-- The line of an entry, unless it says none. -/
def lineOf (entry : Json) : Option Int :=
  match entry.get? "line" with
  | some (.int n) => if n = 0 then none else some n
  | _ => none

/-- What a message shows for a member, or another text if there is no such member. -/
def shownOf (key otherwise : String) (entry : Json) : String :=
  ((entry.get? key).map Json.display).getD otherwise

/-- A member that is read as a text: it says nothing, or is one. -/
def IsTextField (key : String) (entry : Json) : Prop :=
  ((entry.get? key).getD .null).isVacant = true ∨ ∃ s, entry.get? key = some (.str s)

namespace Origin

/-- The name of the group. -/
def group : Origin → String
  | .secret => "secrets"
  | .dependency => "dependencies"
  | .pattern group => group

/-- The severity of an entry that names none. -/
def usual : Origin → Severity
  | .secret => .high
  | _ => .medium

/-- The texts that are read from an entry. -/
def texts : Origin → List String
  | .secret => ["file", "preview", "recommendation"]
  | .dependency => ["cve", "recommendation"]
  | .pattern _ => ["file", "snippet", "recommendation"]

/-- Whether an entry counts: a dependency always, any other unless it is likely no problem. -/
def counts : Origin → Json → Bool
  | .dependency, _ => true
  | _, entry => ((entry.get? "likely_false_positive").getD .null).isVacant

/-- The severity of an entry. -/
def severity (o : Origin) (entry : Json) : Severity :=
  .ofAny o.usual ((entry.get? "severity").getD .null)

def kind (o : Origin) (entry : Json) : String :=
  match o with
  | .secret => "secret_" ++ shownOf "type" "unknown" entry
  | .dependency => "vulnerable_dependency"
  | .pattern group => group

def message (o : Origin) (entry : Json) : String :=
  match o with
  | .secret => "Possible exposed secret: " ++ shownOf "type" "unknown" entry
  | .dependency =>
    let message :=
      shownOf "package" "unknown" entry ++ "@" ++ shownOf "version" "?" entry ++ " is vulnerable"
    let title := (entry.get? "title").getD .null
    if title.isVacant then message else message ++ ": " ++ title.display
  | .pattern group => shownOf "pattern" group entry

def file (o : Origin) (entry : Json) : String :=
  match o with
  | .dependency => "package.json"
  | _ => (textOf "file" entry).getD "."

def line (o : Origin) (entry : Json) : Option Int :=
  match o with
  | .dependency => none
  | _ => lineOf entry

def code (o : Origin) (entry : Json) : Option String :=
  match o with
  | .secret => textOf "preview" entry
  | .dependency => none
  | .pattern _ => textOf "snippet" entry

def rule (o : Origin) (entry : Json) : Option String :=
  match o with
  | .dependency => textOf "cve" entry
  | _ => none

/-- The finding of an entry. -/
def finding (o : Origin) (entry : Json) : Finding :=
  { kind := o.kind entry
    severity := o.severity entry
    message := o.message entry
    file := some (o.file entry)
    line := o.line entry
    code := (o.code entry).map Snippet.bounded
    recommendation := textOf "recommendation" entry
    source := source
    rule := o.rule entry }

/-- An entry whose members are of the kinds that are counted on. -/
structure Reads (o : Origin) (entry : Json) : Prop where
  object : ∃ members, entry = .obj members
  texts : ∀ key ∈ o.texts, IsTextField key entry
  line : o ≠ .dependency →
    ((entry.get? "line").getD .null).isVacant = true ∨ ∃ n, entry.get? "line" = some (.int n)
  pattern : ∀ group, o = .pattern group →
    entry.get? "pattern" = none ∨ ∃ s, entry.get? "pattern" = some (.str s)

end Origin

/-! ## Well-formed reviews -/

/-- The object that holds the groups of a review; an empty one, if the review names no findings. -/
def groupsIn (review : Json) : Json :=
  let groups := (review.get? "findings").getD .null
  if groups.isVacant then .obj [] else groups

/-- The entries of a group. -/
def entriesOf (review : Json) (o : Origin) : List Json :=
  match (groupsIn review).get? o.group with
  | some (.arr entries) => entries
  | _ => []

/-- The entries of a review that count, with the groups that they stand in. -/
def credible (review : Json) : List (Origin × Json) :=
  origins.flatMap fun o => ((entriesOf review o).filter o.counts).map (o, ·)

/-- A review says nothing or is an object, its groups are lists, and their entries can be read. -/
structure WellFormed (review : Json) : Prop where
  object : review.isVacant = true ∨ ∃ members, review = .obj members
  groups : ∃ members, groupsIn review = .obj members
  lists : ∀ o ∈ origins, (groupsIn review).get? o.group = none ∨
    ∃ entries, (groupsIn review).get? o.group = some (.arr entries)
  entries : ∀ o ∈ origins, ∀ entry ∈ entriesOf review o, o.Reads entry

/-! ## Reading members -/

theorem member_obj {v : Json} (h : ∃ members, v = .obj members) (key : String) :
    v.member key = .ok (v.get? key) := by
  obtain ⟨members, rfl⟩ := h
  rfl

theorem memberOrNull_obj {v : Json} (h : ∃ members, v = .obj members) (key : String) :
    v.memberOrNull key = .ok ((v.get? key).getD .null) := by
  rw [Json.memberOrNull, member_obj h]
  rfl

theorem textOf_of_vacant {key : String} {entry : Json}
    (h : ((entry.get? key).getD .null).isVacant = true) : textOf key entry = none := by
  unfold textOf
  split
  · next s hs =>
      rw [hs] at h
      exact if_pos h
  · rfl

theorem textOf_of_text {key s : String} {entry : Json} (h : entry.get? key = some (.str s)) :
    textOf key entry = if s.isEmpty then none else some s := by
  rw [textOf, h]
  rfl

theorem lineOf_of_vacant {entry : Json}
    (h : ((entry.get? "line").getD .null).isVacant = true) : lineOf entry = none := by
  unfold lineOf
  split
  · next n hn =>
      rw [hn] at h
      exact if_pos (of_decide_eq_true h)
  · rfl

section

variable {entry : Json} (hobject : ∃ members, entry = .obj members)

include hobject

theorem optionalMember_of_vacant {key : String}
    (h : ((entry.get? key).getD .null).isVacant = true) :
    optionalMember key entry = .ok .null := by
  rw [optionalMember, memberOrNull_obj hobject]
  exact congrArg Except.ok (if_pos h)

theorem optionalMember_text {key : String} (htext : IsTextField key entry) :
    optionalMember key entry = .ok (Json.ofOption .str (textOf key entry)) := by
  rcases htext with hvacant | ⟨s, hs⟩
  · rw [optionalMember_of_vacant hobject hvacant, textOf_of_vacant hvacant]
    rfl
  · rw [optionalMember, memberOrNull_obj hobject, textOf_of_text hs, hs]
    show Except.ok (if s.isEmpty then _ else _) = _
    cases s.isEmpty <;> rfl

theorem optionalMember_line (hline : ((entry.get? "line").getD .null).isVacant = true ∨
      ∃ n, entry.get? "line" = some (.int n)) :
    optionalMember "line" entry = .ok (Json.ofOption .int (lineOf entry)) := by
  rcases hline with hvacant | ⟨n, hn⟩
  · rw [optionalMember_of_vacant hobject hvacant, lineOf_of_vacant hvacant]
    rfl
  · rw [optionalMember, memberOrNull_obj hobject, lineOf, hn]
    show Except.ok (if decide (n = 0) = true then _ else _) = Except.ok (Json.ofOption .int
      (if n = 0 then none else some n))
    by_cases hzero : n = 0
    · rw [if_pos hzero, if_pos (decide_eq_true hzero)]
      rfl
    · rw [if_neg hzero, if_neg (by simpa using hzero)]
      rfl

theorem place_eq (htext : IsTextField "file" entry) :
    place entry = .ok (.str ((textOf "file" entry).getD ".")) := by
  rw [place, memberOrNull_obj hobject]
  rcases htext with hvacant | ⟨s, hs⟩
  · rw [textOf_of_vacant hvacant]
    exact congrArg Except.ok (if_pos hvacant)
  · rw [textOf_of_text hs, hs]
    show Except.ok (if s.isEmpty then _ else _) = _
    cases s.isEmpty <;> rfl

theorem shown_eq (key otherwise : String) :
    shown key otherwise entry = .ok (shownOf key otherwise entry) := by
  rw [shown, member_obj hobject]
  rfl

theorem severity_eq (o : Origin) :
    severity o.usual entry = .ok (.str (o.severity entry).name) := by
  rw [severity, memberOrNull_obj hobject]
  rfl

end

/-! ## Checking what was read -/

open Checked (text_str optional_text_str optional_text optional_integer)

/-- A finding with a place in a file is accepted. -/
theorem check_located {kind message file source : String} {severity : Severity}
    {line : Option Int} {code recommendation : Option String} (hfile : file ≠ "") :
    Finding.check (.obj
      [("type", .str kind), ("severity", .str severity.name), ("message", .str message),
       ("file", .str file), ("line", Json.ofOption .int line), ("code", Json.ofOption .str code),
       ("recommendation", Json.ofOption .str recommendation), ("source", .str source)]) =
      .ok { kind, severity, message, file := some file, line
            code := code.map Snippet.bounded, recommendation, source } := by
  have hlocated : (nonempty? (some file)).isSome = true := by simp [nonempty?, hfile]
  simp only [Finding.check, Checked.record, Finding.ofMembers, Checked.field,
    Checked.firstNamed?, Json.lookup?]
  simp [Severity.check_name, text_str, optional_text_str, optional_text, optional_integer,
    Checked.andThen, Finding.accept, Finding.location?, Finding.bounded, hlocated]

/-- A finding with a place in a file and a rule is accepted. -/
theorem check_ruled {kind message file source : String} {severity : Severity}
    {recommendation rule : Option String} (hfile : file ≠ "") :
    Finding.check (.obj
      [("type", .str kind), ("severity", .str severity.name), ("message", .str message),
       ("file", .str file), ("recommendation", Json.ofOption .str recommendation),
       ("source", .str source), ("rule_id", Json.ofOption .str rule)]) =
      .ok { kind, severity, message, file := some file, recommendation, source, rule } := by
  have hlocated : (nonempty? (some file)).isSome = true := by simp [nonempty?, hfile]
  simp only [Finding.check, Checked.record, Finding.ofMembers, Checked.field,
    Checked.firstNamed?, Json.lookup?]
  simp [Severity.check_name, text_str, optional_text_str, optional_text, Checked.andThen,
    Finding.accept, Finding.location?, Finding.bounded, hlocated]

theorem textOf_getD_ne_empty (key : String) (entry : Json) : (textOf key entry).getD "." ≠ "" := by
  unfold textOf
  split
  · next s hs =>
      by_cases hempty : s.isEmpty = true
      · rw [nonempty?, if_pos hempty]
        decide
      · rw [nonempty?, if_neg hempty]
        simpa using hempty
  · decide

/-! ## The finding of an entry -/

theorem secretFinding_eq {entry : Json} (h : Origin.secret.Reads entry) :
    secretFinding entry = .ok (Origin.secret.finding entry) := by
  have hseverity : severity .high entry = _ := severity_eq h.object .secret
  rw [secretFinding, shown_eq h.object, hseverity, place_eq h.object (h.texts _ (by decide)),
    optionalMember_line h.object (h.line (by decide)),
    optionalMember_text h.object (h.texts "preview" (by decide)),
    optionalMember_text h.object (h.texts "recommendation" (by decide))]
  show (Finding.check _).toExcept = _
  rw [check_located (textOf_getD_ne_empty "file" entry)]
  rfl

theorem pattern_message {group : String} {entry : Json}
    (h : (Origin.pattern group).Reads entry) :
    (entry.get? "pattern").getD (.str group) = .str (shownOf "pattern" group entry) := by
  unfold shownOf
  rcases h.pattern group rfl with hnone | ⟨s, hs⟩
  · rw [hnone, Option.map_none, Option.getD_none, Option.getD_none]
  · rw [hs, Option.map_some, Option.getD_some, Option.getD_some, Json.display]

theorem patternFinding_eq {group : String} {entry : Json} (h : (Origin.pattern group).Reads entry) :
    patternFinding group entry = .ok ((Origin.pattern group).finding entry) := by
  have hseverity : severity .medium entry = _ := severity_eq h.object (.pattern group)
  rw [patternFinding, hseverity, member_obj h.object,
    place_eq h.object (h.texts "file" (by simp [Origin.texts])),
    optionalMember_line h.object (h.line Origin.noConfusion),
    optionalMember_text h.object (h.texts "snippet" (by simp [Origin.texts])),
    optionalMember_text h.object (h.texts "recommendation" (by simp [Origin.texts]))]
  simp only [bind, Except.bind]
  rw [pattern_message h, check_located (textOf_getD_ne_empty "file" entry)]
  rfl

/-- A title that says something is shown behind the message. -/
theorem message_title (message : String) (title : Json) :
    (if (if title.isVacant then Json.null else title) == .null then message
      else message ++ ": " ++ (if title.isVacant then Json.null else title).display) =
    if title.isVacant then message else message ++ ": " ++ title.display := by
  cases hvacant : title.isVacant with
  | true => rfl
  | false =>
      have hnull : (title == .null) = false := by
        cases title with
        | null => cases hvacant
        | _ => rfl
      rw [if_neg Bool.false_ne_true, hnull]

theorem dependencyFinding_eq {entry : Json} (h : Origin.dependency.Reads entry) :
    dependencyFinding entry = .ok (Origin.dependency.finding entry) := by
  have hseverity : severity .medium entry = _ := severity_eq h.object .dependency
  rw [dependencyFinding, shown_eq h.object, shown_eq h.object, hseverity,
    optionalMember_text h.object (h.texts "cve" (by decide)),
    optionalMember_text h.object (h.texts "recommendation" (by decide)),
    optionalMember, memberOrNull_obj h.object]
  simp only [bind, Except.bind, Except.map]
  rw [message_title, check_ruled (show "package.json" ≠ "" by decide)]
  rfl

/-! ## The findings of a review -/

theorem isDoubtful_eq {entry : Json} (hobject : ∃ members, entry = .obj members) :
    isDoubtful entry =
      .ok (!((entry.get? "likely_false_positive").getD .null).isVacant) := by
  rw [isDoubtful, memberOrNull_obj hobject]
  rfl

/-- Entries that count give their findings, the others nothing. -/
theorem credibleFindings_eq {finding : Json → Except Misfit Finding} {o : Origin}
    (ho : o ≠ .dependency) {entries : List Json}
    (h : ∀ entry ∈ entries, o.Reads entry ∧ finding entry = .ok (o.finding entry)) :
    credibleFindings finding entries = .ok ((entries.filter o.counts).map o.finding) := by
  induction entries with
  | nil => rfl
  | cons entry entries ih =>
      obtain ⟨hreads, hfinding⟩ := h entry List.mem_cons_self
      have hrest := ih fun e he => h e (List.mem_cons_of_mem entry he)
      have hcounts :
          ((entry.get? "likely_false_positive").getD .null).isVacant = o.counts entry := by
        cases o with
        | dependency => exact absurd rfl ho
        | _ => rfl
      rw [credibleFindings, isDoubtful_eq hreads.object, hcounts, List.filter_cons]
      cases o.counts entry with
      | true =>
          simp only [bind, Except.bind, hfinding, hrest]
          rfl
      | false => exact hrest

theorem entries_eq {review : Json} (h : WellFormed review) {o : Origin} (ho : o ∈ origins) :
    entries o.group (groupsIn review) = .ok (entriesOf review o) := by
  rw [entries, member_obj h.groups, entriesOf]
  rcases h.lists o ho with hnone | ⟨list, hlist⟩
  · rw [hnone]
    rfl
  · rw [hlist]
    rfl

theorem get?_of_isVacant {review : Json} (h : review.isVacant = true) (key : String) :
    review.get? key = none := by
  cases review with
  | obj members =>
      rw [List.isEmpty_iff.mp h]
      rfl
  | _ => rfl

/-- A review that says nothing has no entries. -/
theorem credible_of_isVacant {review : Json} (h : review.isVacant = true) :
    credible review = [] := by
  have hgroups : groupsIn review = .obj [] := by
    rw [groupsIn, get?_of_isVacant h]
    rfl
  have hentries : ∀ o, entriesOf review o = [] := by
    intro o
    rw [entriesOf, hgroups, get?_of_isVacant rfl]
  rw [credible]
  refine List.flatMap_eq_nil_iff.mpr ?_
  intro o _
  rw [hentries]
  rfl

/-- The findings of the credible entries, group by group. -/
theorem map_finding_credible (review : Json) :
    (credible review).map (fun e => e.1.finding e.2) =
      ((entriesOf review .secret).filter Origin.secret.counts).map Origin.secret.finding ++
        (entriesOf review .dependency).map Origin.dependency.finding ++
        (patternGroups.map fun group =>
          ((entriesOf review (.pattern group)).filter (Origin.pattern group).counts).map
            (Origin.pattern group).finding).flatten := by
  rw [← List.flatMap_def]
  have hdependencies : (entriesOf review .dependency).filter Origin.dependency.counts =
      entriesOf review .dependency := List.filter_eq_self.mpr fun _ _ => rfl
  simp only [credible, origins, List.map_append, List.map_flatMap, List.flatMap_cons,
    List.flatMap_map, List.map_map, Function.comp_def, hdependencies, List.append_assoc]

/-- The findings of a well-formed review are those of its credible entries, one each and in
order. -/
theorem findings_eq {review : Json} (h : WellFormed review) :
    findings review = .ok ((credible review).map fun e => e.1.finding e.2) := by
  by_cases hvacant : review.isVacant = true
  · rw [findings, if_pos hvacant, credible_of_isVacant hvacant]
    rfl
  · -- no step of the reading fails: each group is a list, and each entry in it has its finding
    have hobject := h.object.resolve_left hvacant
    have hgroups : groupsOf review = .ok (groupsIn review) := by
      rw [groupsOf, memberOrNull_obj hobject]
      rfl
    have hsecrets : credibleFindings secretFinding (entriesOf review .secret) = _ :=
      credibleFindings_eq (by decide) fun entry hentry =>
        have hreads := h.entries .secret (by decide) entry hentry
        ⟨hreads, secretFinding_eq hreads⟩
    have hdependencies : (entriesOf review .dependency).mapM dependencyFinding = _ :=
      mapM_eq_ok fun entry hentry =>
        dependencyFinding_eq (h.entries .dependency (by decide) entry hentry)
    have hpatterns : patternGroups.mapM (fun group => do
          credibleFindings (patternFinding group) (← entries group (groupsIn review))) =
        .ok (patternGroups.map fun group =>
          ((entriesOf review (.pattern group)).filter (Origin.pattern group).counts).map
            (Origin.pattern group).finding) := by
      refine mapM_eq_ok fun group hgroup => ?_
      have ho : Origin.pattern group ∈ origins :=
        List.mem_cons_of_mem _ (List.mem_cons_of_mem _ (List.mem_map_of_mem hgroup))
      have hentries : entries group (groupsIn review) = _ := entries_eq h ho
      rw [hentries]
      refine credibleFindings_eq Origin.noConfusion fun entry hentry => ?_
      have hreads := h.entries _ ho entry hentry
      exact ⟨hreads, patternFinding_eq hreads⟩
    have hlists : ∀ o ∈ origins, entries o.group (groupsIn review) = _ := fun o => entries_eq h
    have hsecretList : entries "secrets" (groupsIn review) = _ := hlists .secret (by decide)
    have hdependencyList : entries "dependencies" (groupsIn review) = _ :=
      hlists .dependency (by decide)
    rw [findings, if_neg hvacant, hgroups]
    simp only [bind, Except.bind, hsecretList, hdependencyList, hsecrets,
      hdependencies] at hpatterns ⊢
    rw [hpatterns, map_finding_credible]
    rfl

end Review

end FrontendAudit
