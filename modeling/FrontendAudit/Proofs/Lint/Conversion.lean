import FrontendAudit.Lint.Conversion
import FrontendAudit.Proofs.Fallible
import FrontendAudit.Proofs.Finding.Record
import FrontendAudit.Proofs.Security.Review

/-!
# Which messages become findings

A message that is not left out becomes a finding when its rule and text are texts and its line is
the number of a line (`Message.Usable`), and messages are turned into findings exactly when each of
them is left out or usable (`exists_findings_iff`). Then there is one finding for each that is not
left out, in order, and it tells of the message (`forall₂_of_findings`).
-/

namespace FrontendAudit.Lint

open Checked (optional integer)

variable {linter : Linter} {excluded : List String} {path : String} {lines : List (List Char)}

/-! ## Messages -/

/-- Whether a message is left out: it is about a rule that is. -/
def Message.isLeftOut (excluded : List String) (m : Message) : Bool :=
  match m.rule with
  | .str rule => !rule.isEmpty && excluded.contains rule
  | _ => false

/-- A value that does for the number of a line: it says nothing, or is a whole number, or true for
the first line, or a float without a fraction that is too small or too large for the lines that
there are. -/
def IsLine (lines : List (List Char)) (line : Json) : Prop :=
  line.isVacant = true ∨ (∃ n, line = .int n) ∨ line = .bool true ∨
    ∃ x n, line = .float x ∧ x.isWithin 1 lines.length = false ∧ integer (.float x) = .ok n

/-- A message of which a finding can be made. -/
structure Message.Usable (lines : List (List Char)) (m : Message) : Prop where
  rule : ∃ rule, m.rule = Json.ofOption .str rule
  text : ∃ text, m.text = .str text
  line : IsLine lines m.line

/-- A finding tells of a message about a file: it has its severity, text, line and rule, and its
kind is the rule, or an error of the linter where there is none. -/
structure Tells (linter : Linter) (path : String) (m : Message) (f : Finding) : Prop where
  kind : f.kind = (nonempty? f.rule).getD (linter.name ++ "_error")
  severity : f.severity = m.severity
  message : m.text = .str f.message
  file : f.file = some path
  line : optional integer (vacantAsNull m.line) = .ok f.line
  rule : m.rule = Json.ofOption .str f.rule
  source : f.source = linter.name

/-! ## One message -/

/-- A line is quoted and then read as a number; it has to do for both. -/
theorem isLine_iff {line : Json} : IsLine lines line ↔
    (∃ quoted, excerptAt lines line = .ok quoted) ∧
      ∃ n, optional integer (vacantAsNull line) = .ok n := by
  unfold IsLine excerptAt vacantAsNull
  by_cases hvacant : line.isVacant = true
  · rw [if_pos hvacant, if_pos hvacant]
    exact iff_of_true (.inl hvacant) ⟨⟨_, rfl⟩, _, rfl⟩
  · rw [if_neg hvacant, if_neg hvacant]
    cases line with
    | null => exact absurd rfl hvacant
    | bool b =>
        cases b with
        | false => exact absurd rfl hvacant
        | true => exact iff_of_true (.inr (.inr (.inl rfl))) ⟨⟨_, rfl⟩, _, rfl⟩
    | int n => exact iff_of_true (.inr (.inl ⟨n, rfl⟩)) ⟨⟨_, rfl⟩, _, rfl⟩
    | float x =>
        dsimp only
        rw [show (∃ n, optional integer (.float x) = .ok n) ↔ ∃ n, integer (.float x) = .ok n by
          simp [Checked.optional_eq_ok_of_ne_null (show Json.float x ≠
            .null from Json.noConfusion)]]
        constructor
        · rintro (h | ⟨n, h⟩ | h | ⟨x', n, h, hwithin, hn⟩)
          · exact absurd h hvacant
          · cases h
          · cases h
          · obtain rfl := Json.float.inj h
            exact ⟨⟨_, if_neg (by rw [hwithin]; exact Bool.false_ne_true)⟩, n, hn⟩
        · rintro ⟨⟨quoted, hquoted⟩, n, hn⟩
          refine .inr (.inr (.inr ⟨x, n, rfl, ?_, hn⟩))
          by_contra hwithin
          rw [Bool.not_eq_false] at hwithin
          rw [if_pos hwithin] at hquoted
          cases hquoted
    | _ =>
        refine iff_of_false ?_ fun ⟨⟨_, hquoted⟩, _⟩ => nomatch hquoted
        rintro (h | ⟨_, h⟩ | h | ⟨_, _, h, _⟩)
        · exact hvacant h
        all_goals cases h

theorem ofMembers_linted {kind message line rule : Json} {severity : Severity}
    {path source : String} {code context : Option String} {f : Finding} : Finding.ofMembers
      [("type", kind), ("severity", .str severity.name), ("message", message), ("file", .str path),
       ("line", line), ("code", Json.ofOption .str code), ("context", Json.ofOption .str context),
       ("source", .str source), ("rule_id", rule)] = .ok f ↔
    kind = .str f.kind ∧ severity = f.severity ∧ message = .str f.message ∧ some path = f.file ∧
      optional integer line = .ok f.line ∧ none = f.url ∧ code = f.code ∧ context = f.context ∧
      none = f.recommendation ∧ source = f.source ∧ none = f.wcag ∧
      rule = Json.ofOption .str f.rule := by
  rw [Finding.ofMembers_eq_ok]
  simp [Checked.field, Checked.firstNamed?, Json.lookup?, Checked.below_eq_ok, Checked.text_eq_ok,
    Checked.optional_text_eq_ok, Severity.check_name, Checked.optional_text,
      Checked.optional_text_str]

/-- The kind of the finding of a message. -/
theorem kind_eq_iff {rule : Option String} {kind otherwise : String} :
    (if (Json.ofOption .str rule).isVacant then Json.str otherwise else Json.ofOption .str rule) =
      .str kind ↔
      kind = (nonempty? rule).getD otherwise := by
  cases rule with
  | none => exact ⟨fun h => (Json.str.inj h).symm, fun h => congrArg Json.str h.symm⟩
  | some rule =>
      rw [nonempty?]
      show (if rule.isEmpty = true then Json.str otherwise else .str rule) = .str kind ↔ _
      by_cases hempty : rule.isEmpty = true
      · rw [if_pos hempty, if_pos hempty]
        exact ⟨fun h => (Json.str.inj h).symm, fun h => congrArg Json.str h.symm⟩
      · rw [if_neg hempty, if_neg hempty]
        exact ⟨fun h => (Json.str.inj h).symm, fun h => congrArg Json.str h.symm⟩

/-- A message is turned into a finding by quoting its line and checking a record. -/
theorem finding_toRecord (linter : Linter) (path : String) (lines : List (List Char))
    (m : Message) :
    finding linter path lines m.toRecord = excerptAt lines m.line >>= fun quoted =>
      (Finding.check (.obj
        [("type", if m.rule.isVacant then .str (linter.name ++ "_error") else m.rule),
         ("severity", .str m.severity.name), ("message", m.text), ("file", .str path),
         ("line", vacantAsNull m.line), ("code", Json.ofOption .str (Source.asText? quoted.code)),
         ("context", Json.ofOption .str (Source.asText? quoted.context)),
         ("source", .str linter.name), ("rule_id", m.rule)])).toExcept := by
  rfl

/-- A finding that is made of a message tells of it. -/
theorem tells_of_finding {m : Message} {f : Finding}
    (h : finding linter path lines m.toRecord = .ok f) :
    Tells linter path m f := by
  rw [finding_toRecord] at h
  obtain ⟨quoted, -, hchecked⟩ := bind_eq_ok.mp h
  obtain ⟨g, hg, haccepted⟩ := Checked.andThen_eq_ok.mp (Checked.toExcept_eq_ok.mp hchecked)
  obtain ⟨-, rfl⟩ := Finding.accept_eq_ok_iff.mp haccepted
  obtain ⟨hkind, hseverity, hmessage, hfile, hline, -, -, -, -, hsource, -, hrule⟩ :=
    ofMembers_linted.mp hg
  rw [hrule, kind_eq_iff] at hkind
  exact ⟨hkind, hseverity.symm, hmessage, hfile.symm, hline, hrule, hsource.symm⟩

theorem exists_finding_iff (linter : Linter) (hpath : path ≠ "") (m : Message) :
    (∃ f, finding linter path lines m.toRecord = .ok f) ↔ m.Usable lines := by
  constructor
  · rintro ⟨f, hf⟩
    have htells := tells_of_finding hf
    rw [finding_toRecord] at hf
    obtain ⟨quoted, hquoted, -⟩ := bind_eq_ok.mp hf
    exact ⟨⟨f.rule, htells.rule⟩, ⟨f.message, htells.message⟩,
      isLine_iff.mpr ⟨⟨quoted, hquoted⟩, f.line, htells.line⟩⟩
  · rintro ⟨⟨rule, hrule⟩, ⟨text, htext⟩, hline⟩
    obtain ⟨⟨quoted, hquoted⟩, n, hn⟩ := isLine_iff.mp hline
    rw [finding_toRecord, exists_bind_eq_ok]
    refine ⟨quoted, hquoted, ?_⟩
    simp only [Checked.toExcept_eq_ok]
    refine Finding.check_eq_ok.mpr
      ⟨{ kind := (nonempty? rule).getD (linter.name ++ "_error"), severity := m.severity,
         message := text, file := some path, line := n, code := Source.asText? quoted.code,
         context := Source.asText? quoted.context, source := linter.name, rule }, ?_, ?_⟩
    · rw [ofMembers_linted, hrule, kind_eq_iff]
      exact ⟨rfl, rfl, htext, rfl, hn, rfl, rfl, rfl, rfl, rfl, rfl, rfl⟩
    · have hstated : path.isEmpty = false := by simpa using hpath
      simp [Finding.location?, nonempty?, hstated]

/-! ## All messages -/

/-- Whether a message is left out can be said when its rule is neither a list nor an object, unless
these are empty. -/
theorem isExcluded_cases (excluded : List String) (m : Message) :
    isExcluded excluded m.rule = .ok (m.isLeftOut excluded) ∨
      (∃ e, isExcluded excluded m.rule = .error e) ∧ m.isLeftOut excluded = false ∧
        ¬ ∃ rule, m.rule = Json.ofOption .str rule := by
  unfold isExcluded Message.isLeftOut
  cases m.rule with
  | str rule =>
      refine .inl ?_
      show (if rule.isEmpty = true then Except.ok false else .ok (excluded.contains rule)) =
        .ok (!rule.isEmpty && excluded.contains rule)
      cases rule.isEmpty <;> rfl
  | arr items =>
      cases items with
      | nil => exact .inl rfl
      | cons item items =>
          exact .inr ⟨⟨_, rfl⟩, rfl, fun ⟨rule, hrule⟩ => by cases rule <;> cases hrule⟩
  | obj members =>
      cases members with
      | nil => exact .inl rfl
      | cons member members =>
          exact .inr ⟨⟨_, rfl⟩, rfl, fun ⟨rule, hrule⟩ => by cases rule <;> cases hrule⟩
  | _ => exact .inl (ite_self _)

/-- The first message is left out, or becomes the first finding. -/
theorem findings_cons (m : Message) (messages : List Message) :
    findings linter excluded path lines ((m :: messages).map Message.toRecord) =
      isExcluded excluded m.rule >>= fun leftOut =>
        if leftOut then findings linter excluded path lines (messages.map Message.toRecord)
        else finding linter path lines m.toRecord >>= fun f =>
          findings linter excluded path lines (messages.map Message.toRecord) >>= fun found =>
            .ok (f :: found) := by
  rfl

theorem exists_findings_iff (linter : Linter) (excluded : List String) (lines : List (List Char))
    (hpath : path ≠ "") (messages : List Message) :
    (∃ found, findings linter excluded path lines (messages.map Message.toRecord) = .ok found) ↔
      ∀ m ∈ messages, m.isLeftOut excluded = true ∨ m.Usable lines := by
  induction messages with
  | nil => exact iff_of_true ⟨[], rfl⟩ fun m hm => nomatch hm
  | cons m messages ih =>
      rw [findings_cons, exists_bind_eq_ok, List.forall_mem_cons, ← ih]
      rcases isExcluded_cases excluded m with hok | ⟨⟨e, he⟩, hkept, hrule⟩
      · simp only [hok, Except.ok.injEq, exists_eq_left']
        cases m.isLeftOut excluded with
        | true => simp
        | false =>
            simp only [Bool.false_eq_true, if_false, false_or, exists_bind_eq_ok,
              ← exists_finding_iff linter hpath m]
            constructor
            · rintro ⟨f, hf, found, hfound, -⟩
              exact ⟨⟨f, hf⟩, found, hfound⟩
            · rintro ⟨⟨f, hf⟩, found, hfound⟩
              exact ⟨f, hf, found, hfound, _, rfl⟩
      · rw [he, hkept]
        refine iff_of_false (fun ⟨_, h, _⟩ => nomatch h) ?_
        rintro ⟨h | h, -⟩
        · cases h
        · exact hrule h.rule

/-- There is one finding for each message that is not left out. -/
theorem forall₂_of_findings {messages : List Message} {found : List Finding}
    (h : findings linter excluded path lines (messages.map Message.toRecord) = .ok found) :
    List.Forall₂ (Tells linter path) (messages.filter fun m => !m.isLeftOut excluded) found := by
  induction messages generalizing found with
  | nil =>
      obtain rfl : [] = found := Except.ok.inj h
      exact .nil
  | cons m messages ih =>
      rw [findings_cons] at h
      obtain ⟨leftOut, hleftOut, h⟩ := bind_eq_ok.mp h
      rw [List.filter_cons]
      rcases isExcluded_cases excluded m with hok | ⟨⟨e, he⟩, -⟩
      · obtain rfl : leftOut = m.isLeftOut excluded := Except.ok.inj (hleftOut.symm.trans hok)
        cases hleft : m.isLeftOut excluded with
        | true =>
            rw [hleft] at h
            exact ih h
        | false =>
            rw [hleft] at h
            obtain ⟨f, hf, h⟩ := bind_eq_ok.mp h
            obtain ⟨rest, hrest, heq⟩ := bind_eq_ok.mp h
            obtain rfl : f :: rest = found := Except.ok.inj heq
            exact .cons (tells_of_finding hf) (ih hrest)
      · rw [he] at hleftOut
        cases hleftOut

end FrontendAudit.Lint
