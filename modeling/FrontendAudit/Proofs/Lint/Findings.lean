import FrontendAudit.Config.Basic
import FrontendAudit.Proofs.Lint.Conversion
import FrontendAudit.Proofs.Lint.Report
import FrontendAudit.Proofs.Path
import FrontendAudit.Proofs.Source.Excerpt
import FrontendAudit.Proofs.Source.File

/-!
# From a report to findings

The members of a message that a linter writes are of certain types or absent, and so it tells of a
rule, a severity, a line and a text (`Writes`). A linter prints a report of such messages, or
nothing (`Prints`). What it prints is read message by message, and each message whose rule is not
left out becomes one finding that says the same and quotes the line, if the file has it
(`findings_of_report`). Which rules are left out depends on the settings (`Exclusions.LeavesOut`).
-/

namespace FrontendAudit

/-! ## Rules that are left out -/

/-- A rule is left out unless exclusions are off: if it is among the additional ones, or is built in
and not overridden. -/
def Exclusions.LeavesOut (e : Exclusions) (builtIn : List String) (rule : String) : Prop :=
  e.enabled = true ∧ (rule ∈ e.additional ∨ e.overrideDefault = false ∧ rule ∈ builtIn)

instance (e : Exclusions) (builtIn : List String)
    (rule : String) : Decidable (e.LeavesOut builtIn rule) :=
  inferInstanceAs (Decidable (_ ∧ _))

theorem Exclusions.mem_merge_iff {e : Exclusions} {builtIn : List String} {rule : String} :
    rule ∈ e.merge builtIn ↔ e.LeavesOut builtIn rule := by
  unfold merge LeavesOut
  cases e.enabled with
  | false => simp
  | true =>
      cases e.overrideDefault with
      | true => simp
      | false =>
          by_cases hmem : rule ∈ builtIn <;> simp [hmem]

/-! ## Texts without values -/

theorem Json.asciiDigit?_of_isBlank {c : Char} (h : Text.isBlank c = true) :
    Text.asciiDigit? c = none := by
  simp only [Text.isBlank, Bool.or_eq_true, Bool.and_eq_true, decide_eq_true_eq] at h
  have hrange : ¬('0' ≤ c && c ≤ '9') = true := by
    simp only [Bool.and_eq_true, decide_eq_true_eq, Char.le_def, UInt32.le_iff_toNat_le]
    show ¬(48 ≤ c.toNat ∧ c.toNat ≤ 57)
    omega
  exact if_neg hrange

/-- A blank text holds no value. -/
theorem Json.parse?_of_isBlankText {s : List Char} (h : Text.isBlankText s = true) :
    parse? s = none := by
  have hvalue : ∀ half, readValue half (s.length + 1) (skipSpace s) = none := by
    intro half
    cases hleft : skipSpace s with
    | nil => rfl
    | cons c rest =>
        -- no value begins with a blank that is left when the blanks of the format are skipped
        have hblank : Text.isBlank c = true := by
          have hmem : c ∈ skipSpace s := by
            rw [hleft]
            exact List.mem_cons_self
          exact List.all_eq_true.mp h c ((List.dropWhile_sublist isSpace).subset hmem)
        have hne : ∀ d, Text.isBlank d = false → d ≠ c := by
          rintro d hd rfl
          rw [hblank] at hd
          cases hd
        have hword : readWord (c :: rest) = none := by
          simp [readWord, words, after?, hne 'n' rfl, hne 't' rfl, hne 'f' rfl, hne 'N' rfl,
            hne 'I' rfl, hne '-' rfl]
        have hnumber : readNumber false (c :: rest) = none := by
          have hwhole : wholePart? (c :: rest) = none := by
            rw [wholePart?, spanDigits]
            · simp [asciiDigit?_of_isBlank hblank]
            · exact fun _ h => hne '0' rfl (List.cons.inj h).1.symm
          rw [readNumber, hwhole]
          rfl
        rw [readValue, hword]
        · exact hnumber
        · exact fun _ h => hne '"' rfl (List.cons.inj h).1.symm
        · exact fun _ h => hne '[' rfl (List.cons.inj h).1.symm
        · exact fun _ h => hne '\x7b' rfl (List.cons.inj h).1.symm
        · exact fun _ h => hne '-' rfl (List.cons.inj h).1.symm
  rw [parse?, parseWith?, hvalue]
  rfl

namespace Lint

open Source (asText?)

/-! ## What linters report -/

/-- What a message of a linter tells of. -/
structure Reported where
  rule : Option String
  severity : Severity
  line : Option Int
  text : String
  deriving DecidableEq, Repr

/-- The severity of an ESLint message of a grade. -/
def severityOfGrade (grade : Option Int) (fatal : Option Bool) : Severity :=
  if fatal = some true ∨ grade = some 2 then .high else if grade = some 1 then .medium else .low

/-- The severity of a Stylelint message of a grade. -/
def severityOfWord (grade : Option String) : Severity :=
  if grade = some "error" then .high else .medium

/-- The members of an object say a value under a key, or nothing, where the member is absent or
null. -/
def Says {α : Type} (wrap : α → Json) (members : List (String × Json)) (key : String)
    (value : Option α) : Prop :=
  (Json.lookup? key members).getD .null = Json.ofOption wrap value

/-- A message as a linter writes it, and what it tells of. -/
inductive Writes : Linter → Json → Reported → Prop
  | eslint {members : List (String × Json)} {rule : Option String} {grade : Option Int}
      {fatal : Option Bool} {line : Option Int} {text : Option String}
      (hrule : Says .str members "ruleId" rule) (hgrade : Says .int members "severity" grade)
      (hfatal : Says .bool members "fatal" fatal) (hline : Says .int members "line" line)
      (htext : Json.lookup? "message" members = text.map .str) :
      Writes .eslint (.obj members) ⟨rule, severityOfGrade grade fatal, line, text.getD ""⟩
  | stylelint {members : List (String × Json)} {rule grade : Option String} {line : Option Int}
      {text : Option String}
      (hrule : Says .str members "rule" rule) (hgrade : Says .str members "severity" grade)
      (hline : Says .int members "line" line)
      (htext : Json.lookup? "text" members = text.map .str) :
      Writes .stylelint (.obj members) ⟨rule, severityOfWord grade, line, text.getD ""⟩

/-- A result as a linter writes it, with the list of its messages or without one. -/
inductive IsResult (linter : Linter) : Json → List Reported → Prop
  | unlisted {members : List (String × Json)}
      (h : Json.lookup? (messagesKey linter) members = none) :
      IsResult linter (.obj members) []
  | listed {members : List (String × Json)} {messages : List Json} {told : List Reported}
      (h : Json.lookup? (messagesKey linter) members = some (.arr messages))
      (hall : List.Forall₂ (Writes linter) messages told) : IsResult linter (.obj members) told

/-- A report as a linter writes it: a list of results, whose messages tell of this. -/
inductive IsReport (linter : Linter) : Json → List Reported → Prop
  | mk {results : List Json} {told : List (List Reported)}
      (hall : List.Forall₂ (IsResult linter) results told) :
      IsReport linter (.arr results) told.flatten

/-- A linter prints nothing, or a report whose messages tell of this. -/
inductive Prints (linter : Linter) : List Char → List Reported → Prop
  | nothing {text : List Char} (h : Text.isBlankText text = true) : Prints linter text []
  | report {text : List Char} {report : Json} {told : List Reported}
      (hparse : Json.parse? text = some report) (h : IsReport linter report told) :
      Prints linter text told

namespace Reported

/-- The message that tells of this. -/
def toMessage (m : Reported) : Message :=
  ⟨Json.ofOption .str m.rule, m.severity, Json.ofOption .int m.line, .str m.text⟩

/-- The line that is reported, if it is not zero. -/
def place (m : Reported) : Option Int := m.line.filter (· ≠ 0)

/-- The rule is there and left out. -/
def IsLeftOut (e : Exclusions) (builtIn : List String) (m : Reported) : Prop :=
  ∃ rule ∈ m.rule, rule ≠ "" ∧ e.LeavesOut builtIn rule

instance (e : Exclusions) (builtIn : List String)
    (m : Reported) : Decidable (m.IsLeftOut e builtIn) :=
  inferInstanceAs (Decidable (∃ rule ∈ m.rule, _ ∧ _))

/-- What is quoted of the lines of the file. -/
def quoted (m : Reported) (lines : List (List Char)) : Source.Excerpt :=
  (m.place.map fun n => Source.excerpt lines n).getD ⟨[], []⟩

/-- The finding about a file. -/
def finding (m : Reported) (linter : Linter) (path : String) (lines : List (List Char)) :
    Finding where
  kind := (nonempty? m.rule).getD (linter.name ++ "_error")
  severity := m.severity
  message := m.text
  file := some path
  line := m.place
  code := asText? (m.quoted lines).code
  context := asText? (m.quoted lines).context
  source := linter.name
  rule := m.rule

end Reported

/-! ## Reading a report -/

theorem gradeSeverity_ofOption (grade : Option Int) (fatal : Option Bool) :
    gradeSeverity (Json.ofOption .int grade) (Json.ofOption .bool fatal) =
      severityOfGrade grade fatal := by
  have hfatal : (!(Json.ofOption .bool fatal).isVacant) = decide (fatal = some true) := by
    rcases fatal with _ | fatal
    · rfl
    · cases fatal <;> rfl
  have hgrade : ∀ n, isNumber n (Json.ofOption .int grade) = decide (grade = some n) := by
    intro n
    cases grade with
    | none => rfl
    | some m => simp [Json.ofOption, isNumber]
  simp only [gradeSeverity, severityOfGrade, hfatal, hgrade, Bool.or_eq_true, decide_eq_true_eq]

theorem wordSeverity_ofOption (grade : Option String) :
    wordSeverity (Json.ofOption .str grade) = severityOfWord grade := by
  cases grade with
  | none => rfl
  | some word =>
      have hword : (Json.str word == .str "error") = decide (word = "error") := rfl
      simp [wordSeverity, severityOfWord, Json.ofOption, hword]

theorem getD_map_str (text : Option String) :
    (text.map Json.str).getD (.str "") = .str (text.getD "") := by
  cases text <;> rfl

section

variable {linter : Linter}

/-- A message is read as what it tells of. -/
theorem Writes.messageOf_eq {message : Json} {m : Reported} (h : Writes linter message m) :
    messageFault? message = none ∧ messageOf linter message = m.toMessage := by
  refine ⟨by cases h <;> rfl, ?_⟩
  cases h with
  | eslint hrule hgrade hfatal hline htext =>
      rw [Says] at hrule hgrade hfatal hline
      simp only [messageOf, Json.get?, hrule, hgrade, hfatal, hline, htext, gradeSeverity_ofOption,
        getD_map_str]
      rfl
  | stylelint hrule hgrade hline htext =>
      rw [Says] at hrule hgrade hline
      simp only [messageOf, Json.get?, hrule, hgrade, hline, htext, wordSeverity_ofOption,
        getD_map_str]
      rfl

/-- The messages of a list are read one by one. -/
theorem messages_of_forall₂ {messages : List Json} {told : List Reported}
    (hall : List.Forall₂ (Writes linter) messages told) :
    messages.findSome? messageFault? = none ∧
      messages.map (messageOf linter) = told.map Reported.toMessage := by
  induction hall with
  | nil => exact ⟨rfl, rfl⟩
  | cons h rest ih =>
      obtain ⟨hfault, hmessage⟩ := h.messageOf_eq
      exact ⟨by rw [List.findSome?_cons, hfault, ih.1], by rw [List.map_cons, List.map_cons,
        hmessage, ih.2]⟩

theorem IsResult.messagesIn_eq {result : Json} {told : List Reported}
    (h : IsResult linter result told) :
    resultFault? linter result = none ∧ messagesIn linter result = told.map Reported.toMessage := by
  cases h with
  | @unlisted members h =>
      have hmessages : messagesOf linter (.obj members) = .arr [] := by
        rw [messagesOf, Json.get?, h]
        rfl
      rw [messagesIn, resultFault?, hmessages]
      exact ⟨rfl, rfl⟩
  | @listed members messages told h hall =>
      have hmessages : messagesOf linter (.obj members) = .arr messages := by
        rw [messagesOf, Json.get?, h]
        rfl
      rw [messagesIn, resultFault?, hmessages]
      exact messages_of_forall₂ hall

/-- The results of a list are read one by one. -/
theorem results_of_forall₂ {results : List Json} {told : List (List Reported)}
    (hall : List.Forall₂ (IsResult linter) results told) :
    results.findSome? (resultFault? linter) = none ∧
      results.flatMap (messagesIn linter) = told.flatten.map Reported.toMessage := by
  induction hall with
  | nil => exact ⟨rfl, rfl⟩
  | cons h rest ih =>
      obtain ⟨hfault, hmessages⟩ := h.messagesIn_eq
      refine ⟨by rw [List.findSome?_cons, hfault, ih.1], ?_⟩
      rw [List.flatMap_cons, List.flatten_cons, List.map_append, hmessages, ih.2]

theorem IsReport.reportMessages_eq {report : Json} {told : List Reported}
    (h : IsReport linter report told) :
    reportMessages linter report = .ok (told.map Reported.toMessage) := by
  cases h with
  | @mk results told hall =>
      obtain ⟨hfault, hmessages⟩ := results_of_forall₂ hall
      have hread :
          reportMessages linter (.arr results) =
            valueUnless (results.findSome? (resultFault? linter))
          (results.flatMap (messagesIn linter)) := Lint.reportMessages_eq linter (.arr results)
      rw [hread, hfault, hmessages]
      rfl

theorem reportText_eq (linter : Linter) (output errors : List Char) :
    reportText linter output errors =
    if linter = .stylelint ∧ Text.isBlankText output = true then errors else output := by
  cases linter <;> simp [reportText]

/-- What a linter prints is read as what its messages tell of. -/
theorem Prints.parseReport_eq {output errors : List Char} {told : List Reported}
    (h : Prints linter (reportText linter output errors) told) :
    parseReport linter output errors = .ok (told.map Reported.toMessage) := by
  cases h with
  | nothing h => exact if_pos h
  | report hparse hreport =>
      have hstated : ¬ Text.isBlankText (reportText linter output errors) = true := by
        intro hblank
        rw [Json.parse?_of_isBlankText hblank] at hparse
        cases hparse
      rw [parseReport, if_neg hstated, hparse]
      dsimp only
      rw [hreport.reportMessages_eq]
      rfl

end

/-! ## Turning messages into findings -/

section

variable {linter : Linter} {path : String} {lines : List (List Char)}

theorem newline_not_mem_sourceLines (content : List Char) :
    ∀ line ∈ Text.sourceLines content, '\n' ∉ line := by
  intro line hline hnewline
  obtain ⟨piece, hpiece, rfl⟩ := List.mem_map.mp hline
  refine Text.not_mem_of_mem_splitOn hpiece ?_
  exact List.mem_reverse.mp ((List.dropWhile_sublist _).subset (List.mem_reverse.mp hnewline))

/-- Lines that are no longer than they may be stay as they are. -/
theorem truncateLines_joinWith {pieces : List (List Char)}
    (hnewline : ∀ piece ∈ pieces, '\n' ∉ piece)
    (hkept : ∀ piece ∈ pieces, Snippet.truncate piece = piece) :
    Snippet.truncateLines (Text.joinWith ['\n'] pieces) = Text.joinWith ['\n'] pieces := by
  by_cases hne : pieces = []
  · subst hne
    rfl
  · rw [Snippet.truncateLines, Text.splitOn_joinWith hne hnewline, List.map_congr_left hkept,
      List.map_id']

/-- What is quoted of lines is not cut again. -/
theorem bounded_excerpt (hlines : ∀ line ∈ lines, '\n' ∉ line) (n : Int) :
    (asText? (Source.excerpt lines n).code).map Snippet.bounded =
      asText? (Source.excerpt lines n).code ∧
      (asText? (Source.excerpt lines n).context).map Snippet.boundedLines =
        asText? (Source.excerpt lines n).context := by
  have hkept : Snippet.truncate (Source.excerpt lines n).code = (Source.excerpt lines n).code ∧
      Snippet.truncateLines (Source.excerpt lines n).context =
        (Source.excerpt lines n).context := by
    unfold Source.excerpt
    split
    · next hin =>
        simp only [Bool.and_eq_true, decide_eq_true_eq] at hin
        have hshows : Source.Shows lines n.toNat Source.usualRadius _ :=
          Source.shows_quotedLines (by omega) (by omega) Source.usualRadius
        refine ⟨Snippet.truncate_truncate _, truncateLines_joinWith ?_ ?_⟩
        · exact List.forall_mem_map.mpr fun line h =>
            Source.not_newline_mem_renderLine hlines (hshows.near line h).2
        · exact List.forall_mem_map.mpr fun line _ => Snippet.truncate_truncate _
    · exact ⟨rfl, rfl⟩
  have htext : ∀ {cut : List Char → List Char} {s : List Char}, cut s = s →
      (asText? s).map (fun t => String.ofList (cut t.toList)) = asText? s := by
    intro cut s hs
    unfold asText?
    split
    · rfl
    · rw [Option.map_some, String.toList_ofList, hs]
  exact ⟨htext hkept.1, htext hkept.2⟩

theorem isExcluded_toMessage (e : Exclusions) (builtIn : List String) (m : Reported) :
    isExcluded (e.merge builtIn) m.toMessage.rule = .ok (decide (m.IsLeftOut e builtIn)) := by
  obtain ⟨rule, severity, line, text⟩ := m
  cases rule with
  | none =>
      have hkept : ¬ (⟨none, severity, line, text⟩ : Reported).IsLeftOut e builtIn := by
        rintro ⟨_, hrule, -⟩
        cases hrule
      rw [decide_eq_false hkept]
      rfl
  | some rule =>
      have hiff : (⟨some rule, severity, line, text⟩ : Reported).IsLeftOut e builtIn ↔
          rule ≠ "" ∧ e.LeavesOut builtIn rule := by
        simp [Reported.IsLeftOut]
      have hread : isExcluded (e.merge builtIn) (.str rule) =
          if rule.isEmpty = true then .ok false else .ok ((e.merge builtIn).contains rule) := rfl
      show isExcluded (e.merge builtIn) (.str rule) = _
      rw [hread, List.contains_eq_mem]
      by_cases hempty : rule = ""
      · subst hempty
        simp [hiff]
      · rw [if_neg (by simpa using hempty)]
        simp [hiff, hempty, Exclusions.mem_merge_iff]

/-- The line of a message says nothing, or it is the line that is not zero. -/
theorem line_cases (m : Reported) :
    m.place = none ∧ m.toMessage.line.isVacant = true ∨
      ∃ n, m.place = some n ∧ m.toMessage.line = .int n ∧ (Json.int n).isVacant = false := by
  obtain ⟨rule, severity, line, text⟩ := m
  cases line with
  | none => exact .inl ⟨rfl, rfl⟩
  | some n =>
      by_cases hzero : n = 0
      · subst hzero
        exact .inl ⟨rfl, rfl⟩
      · exact .inr ⟨n, by simpa [Reported.place] using hzero,
          rfl, by simpa [Json.isVacant] using hzero⟩

theorem excerptAt_toMessage (lines : List (List Char)) (m : Reported) :
    excerptAt lines m.toMessage.line = .ok (m.quoted lines) := by
  unfold excerptAt Reported.quoted
  rcases line_cases m with ⟨hplace, hvacant⟩ | ⟨n, hplace, hline, hstated⟩
  · rw [hplace, hvacant]
    rfl
  · rw [hplace, hline, hstated]
    rfl

theorem line_toMessage (m : Reported) :
    Checked.optional Checked.integer (vacantAsNull m.toMessage.line) = .ok m.place := by
  unfold vacantAsNull
  rcases line_cases m with ⟨hplace, hvacant⟩ | ⟨n, hplace, hline, hstated⟩
  · rw [hplace, hvacant]
    rfl
  · rw [hplace, hline, hstated]
    rfl

/-- A message becomes the finding that says the same. -/
theorem finding_toMessage (hpath : path ≠ "") (hlines : ∀ line ∈ lines, '\n' ∉ line)
    (m : Reported) :
    Lint.finding linter path lines m.toMessage.toRecord = .ok (m.finding linter path lines) := by
  have hlocated : (m.finding linter path lines).location?.isSome = true := by
    have hstated : path.isEmpty = false := by simpa using hpath
    simp [Reported.finding, Finding.location?, nonempty?, hstated]
  have hbounded : m.finding linter path lines = (m.finding linter path lines).bounded := by
    have hquoted :
        (asText? (m.quoted lines).code).map Snippet.bounded = asText? (m.quoted lines).code ∧
        (asText? (m.quoted lines).context).map Snippet.boundedLines =
          asText? (m.quoted lines).context := by
      unfold Reported.quoted
      cases m.place with
      | none => exact ⟨rfl, rfl⟩
      | some n => exact bounded_excerpt hlines n
    simp only [Finding.bounded, Reported.finding, hquoted.1, hquoted.2]
  rw [finding_toRecord, excerptAt_toMessage]
  refine Checked.toExcept_eq_ok.mpr (Checked.andThen_eq_ok.mpr
    ⟨m.finding linter path lines, ofMembers_linted.mpr ?_,
      Finding.accept_eq_ok_iff.mpr ⟨hlocated, hbounded⟩⟩)
  exact ⟨kind_eq_iff.mpr rfl, rfl, rfl, rfl, line_toMessage m, rfl, rfl, rfl, rfl, rfl, rfl, rfl⟩

/-- Each message that is not left out becomes its finding. -/
theorem findings_toMessage (hpath : path ≠ "") (hlines : ∀ line ∈ lines, '\n' ∉ line)
    (e : Exclusions) (builtIn : List String) (told : List Reported) :
    findings linter (e.merge builtIn) path lines
      ((told.map Reported.toMessage).map Message.toRecord) =
      .ok ((told.filter fun m => ¬ m.IsLeftOut e builtIn).map fun m =>
        m.finding linter path lines) := by
  induction told with
  | nil => rfl
  | cons m told ih =>
      rw [List.map_cons, findings_cons, isExcluded_toMessage, List.filter_cons]
      by_cases hleftOut : m.IsLeftOut e builtIn
      · rw [if_neg (by simpa using hleftOut)]
        simp only [hleftOut, decide_true]
        exact ih
      · rw [if_pos (by simpa using hleftOut)]
        simp only [hleftOut, decide_false]
        rw [finding_toMessage hpath hlines, ih]
        rfl

theorem asText?_eq_none_iff {s : List Char} : asText? s = none ↔ s = [] := by
  rw [asText?, ite_eq_left_iff, List.isEmpty_iff]
  simp

/-- The code of a finding is absent unless the file has the line and it has text. -/
theorem code_finding_eq_none_iff (m : Reported) : (m.finding linter path lines).code = none ↔
    ¬ ∃ n ∈ m.place, (1 ≤ n ∧ n ≤ lines.length) ∧ Source.quoted lines n.toNat ≠ [] := by
  show asText? (m.quoted lines).code = none ↔ _
  rw [asText?_eq_none_iff, Reported.quoted]
  cases m.place with
  | none => simp
  | some n =>
      have hcode : (Source.excerpt lines n).code ≠ [] ↔ _ := Source.excerpt_code_ne_nil_iff
      rw [← not_iff_not, not_not]
      simpa using hcode

/-- The context of a finding is absent unless the file has the line. -/
theorem context_finding_eq_none_iff (m : Reported) : (m.finding linter path lines).context = none ↔
    ¬ ∃ n ∈ m.place, 1 ≤ n ∧ n ≤ lines.length := by
  show asText? (m.quoted lines).context = none ↔ _
  rw [asText?_eq_none_iff, Reported.quoted]
  cases m.place with
  | none => simp
  | some n =>
      have hcontext : (Source.excerpt lines n).context ≠ [] ↔ _ :=
        Source.excerpt_context_ne_nil_iff (by decide)
      rw [← not_iff_not, not_not]
      simpa using hcontext

end

/-- What a linter prints, Stylelint where errors go if nothing is printed elsewhere, becomes one
finding for each message whose rule is not left out, in order, that says what the message tells of.
Its code is absent unless the file has the line and it has text, and its context is absent unless
the file has the line. -/
theorem findings_of_report {linter : Linter} {output errors : List Char} {told : List Reported}
    (hprints : Prints linter
      (if linter = .stylelint ∧ Text.isBlankText output = true then errors else output) told)
    (c : Config) (builtIn : List String) {file : Path} (hnames : "" ∉ file.parts) (project : Path)
    (content : List Char) :
    let exclusions := (Json.lookup? linter.name c.exclusions).getD {}
    let path := file.display project
    let lines := Text.sourceLines content
    ∃ messages, parseReport linter output errors = .ok messages ∧
      findings linter (c.excludedRules linter.name builtIn) path lines
        (messages.map Message.toRecord) =
        .ok ((told.filter fun m => ¬ m.IsLeftOut exclusions builtIn).map fun m =>
          m.finding linter path lines) ∧
      ∀ m ∈ told,
        ((m.finding linter path lines).code = none ↔
          ¬ ∃ n ∈ m.place, (1 ≤ n ∧ n ≤ lines.length) ∧ Source.quoted lines n.toNat ≠ []) ∧
        ((m.finding linter path lines).context = none ↔
          ¬ ∃ n ∈ m.place, 1 ≤ n ∧ n ≤ lines.length) := by
  intro exclusions path lines
  rw [← reportText_eq] at hprints
  refine ⟨told.map Reported.toMessage, hprints.parseReport_eq, ?_, fun m _ => ?_⟩
  · exact findings_toMessage (Path.display_ne_empty hnames project)
      (newline_not_mem_sourceLines content)
      exclusions builtIn told
  · exact ⟨code_finding_eq_none_iff m, context_finding_eq_none_iff m⟩

/-- Warnings about a rule that is left out otherwise, about nothing, and about a rule that is left
out. -/
def warnings : List Json :=
  [.obj [("rule", .str "color-no-hex"), ("severity", .str "error"), ("line", .int 2),
    ("text", .str "no hex")],
   .obj [("severity", .str "warning"), ("line", .int 0), ("text", .str "unreadable")],
   .obj [("rule", .str "indentation"), ("severity", .str "warning"), ("line", .int 1)]]

/-- What the warnings tell of. -/
def warned : List Reported :=
  [⟨some "color-no-hex", .high, some 2, "no hex"⟩, ⟨none, .medium, some 0, "unreadable"⟩,
   ⟨some "indentation", .medium, some 1, ""⟩]

/-- A report of the warnings, and of a file without any. -/
def warningsReport : Json :=
  .arr [.obj [("warnings", .arr warnings)], .obj [("errored", .bool false)]]

/-- Settings with an additional rule that overrides the rules that are built in. -/
def overriding : Config :=
  { Config.default with exclusions := [("stylelint", ⟨true, true, ["indentation"]⟩)] }

theorem prints_warningsReport : Prints .stylelint warningsReport.compact.toList warned := by
  have hwarnings : List.Forall₂ (Writes .stylelint) warnings warned :=
    .cons
      (@Writes.stylelint _ (some "color-no-hex") (some "error") (some 2)
        (some "no hex") rfl rfl rfl rfl)
      (.cons
        (@Writes.stylelint _ none (some "warning") (some 0) (some "unreadable") rfl rfl rfl rfl)
        (.cons
          (@Writes.stylelint _ (some "indentation") (some "warning")
            (some 1) none rfl rfl rfl rfl) .nil))
  have hexact : warningsReport.IsExact := by
    simp [warningsReport, warnings, Json.IsExact, Json.ItemsExact, Json.MembersExact]
  exact .report (Json.parse?_compact hexact)
    (.mk (.cons (.listed rfl hwarnings) (.cons (.unlisted rfl) .nil)))

/-- Overriding settings leave out an additional rule, but not the rule that is built in. -/
theorem findings_of_report_warnings :
    Prints .stylelint (if Linter.stylelint = .stylelint ∧ Text.isBlankText ['\n'] = true
      then warningsReport.compact.toList else ['\n']) warned ∧
    "" ∉ (Path.absolute ["site", "a.css"]).parts ∧
    ∃ messages, parseReport .stylelint ['\n'] warningsReport.compact.toList = .ok messages ∧
      findings .stylelint (overriding.excludedRules "stylelint" ["color-no-hex"]) "a.css"
        ["a ".toList, "  #fff ".toList] (messages.map Message.toRecord) =
      .ok [{ kind := "color-no-hex", severity := .high, message := "no hex", file := some "a.css",
             line := some 2, code := some "#fff", context := some "    1: a\n>>> 2: #fff",
             source := "stylelint", rule := some "color-no-hex" },
           { kind := "stylelint_error", severity := .medium, message := "unreadable",
             file := some "a.css", source := "stylelint" }] := by
  have hprints :
      Prints .stylelint (if Linter.stylelint = .stylelint ∧ Text.isBlankText ['\n'] = true
      then warningsReport.compact.toList else ['\n']) warned := prints_warningsReport
  have hnames : "" ∉ (Path.absolute ["site", "a.css"]).parts := by decide
  obtain ⟨messages, hparsed, hfindings, -⟩ :=
    findings_of_report hprints overriding ["color-no-hex"] hnames
    (.absolute ["site"]) "a \n  #fff ".toList
  refine ⟨hprints, hnames, messages, hparsed, hfindings.trans ?_⟩
  decide +kernel

end Lint

end FrontendAudit
