import FrontendAudit.Proofs.Disk.Write
import FrontendAudit.Proofs.Finding.Record
import FrontendAudit.Proofs.Json.Keys
import FrontendAudit.Proofs.Path
import FrontendAudit.Proofs.Summary
import FrontendAudit.Report.Write

/-!
# Findings read back

A finding that was accepted is not cut again when it is read back: cutting leaves a cut text alone,
and it does so line by line, since no line that was cut holds a line feed
(`truncateLines_truncateLines`). Its record leaves out what is absent, and what is left out is read
as absent. So a finding comes back from its record as it is (`Finding.Valid.check_toRecord`), and a
result from the text of its report (`AuditResult.heldBy_categoryArtifact`); `findings_read_back`
puts this together.
-/

namespace FrontendAudit

/-! ## Cutting -/

namespace Text

variable {sep : Char}

theorem joinWith_cons_eq_flatMap (piece : List Char) (pieces : List (List Char)) :
    joinWith [sep] (piece :: pieces) = piece ++ pieces.flatMap (sep :: ·) := by
  induction pieces generalizing piece with
  | nil => simp [joinWith]
  | cons next pieces ih =>
      rw [joinWith_cons (List.cons_ne_nil _ _), ih, List.flatMap_cons]
      simp

/-- Pieces without separators are found again when they are joined. -/
theorem splitOn_joinWith {pieces : List (List Char)} (hne : pieces ≠ [])
    (h : ∀ piece ∈ pieces, sep ∉ piece) : splitOn sep (joinWith [sep] pieces) = pieces := by
  cases pieces with
  | nil => exact absurd rfl hne
  | cons piece pieces =>
      rw [List.forall_mem_cons] at h
      rw [joinWith_cons_eq_flatMap, splitOn_append_flatMap h.1 h.2]

end Text

namespace Snippet

open Text (splitOn joinWith)

theorem not_mem_truncate {c : Char} (hmark : c ∉ cutMark) {s : List Char} (h : c ∉ s) :
    c ∉ truncate s := by
  unfold truncate
  split
  · exact h
  · intro hmem
    rcases List.mem_append.mp hmem with hmem | hmem
    · exact h (List.mem_of_mem_take hmem)
    · exact hmark hmem

/-- The lines of a text whose lines were cut are the lines that were cut. -/
theorem splitOn_truncateLines (s : List Char) :
    splitOn '\n' (truncateLines s) = (splitOn '\n' s).map truncate := by
  refine Text.splitOn_joinWith ?_ ?_
  · simp [Text.splitOn_ne_nil]
  · intro line hline
    obtain ⟨given, hgiven, rfl⟩ := List.mem_map.mp hline
    exact not_mem_truncate (by decide) (Text.not_mem_of_mem_splitOn hgiven)

/-- Cutting the lines twice is cutting them once. -/
theorem truncateLines_truncateLines (s : List Char) :
    truncateLines (truncateLines s) = truncateLines s := by
  show joinWith ['\n'] ((splitOn '\n' (truncateLines s)).map truncate) = _
  rw [splitOn_truncateLines, List.map_map]
  have htwice : truncate ∘ truncate = truncate := funext truncate_truncate
  rw [htwice]
  rfl

/-- A text as it is kept of one that was given: whole up to the limit, else with the mark of a cut
at its end, and of 214 characters at the most. -/
structure KeptOf (given kept : List Char) : Prop where
  length_le : kept.length ≤ 214
  whole : given.length ≤ 200 → kept = given
  marked : 200 < given.length → cutMark <:+ kept

theorem keptOf_truncate (s : List Char) : KeptOf s (truncate s) where
  length_le := length_truncate_le s
  whole h := if_pos h
  marked h := by
    have hlong : ¬ s.length ≤ limit := Nat.not_le.mpr h
    rw [truncate, if_neg hlong]
    exact List.suffix_append _ _

end Snippet

namespace Finding

/-- A finding that was accepted. -/
def Valid (f : Finding) : Prop := ∃ given : Finding, given.accept = .ok f

theorem bounded_bounded (f : Finding) : f.bounded.bounded = f.bounded := by
  have hcode : Snippet.bounded ∘ Snippet.bounded = Snippet.bounded := by
    funext s
    simp [Snippet.bounded, Snippet.truncate_truncate]
  have hcontext : Snippet.boundedLines ∘ Snippet.boundedLines = Snippet.boundedLines := by
    funext s
    simp [Snippet.boundedLines, Snippet.truncateLines_truncateLines]
  simp [bounded, hcode, hcontext]

/-- A finding that was accepted is accepted again as it is. -/
theorem Valid.accept_eq {f : Finding} (h : f.Valid) : f.accept = .ok f := by
  obtain ⟨given, hgiven⟩ := h
  obtain ⟨hlocated, rfl⟩ := accept_eq_ok_iff.mp hgiven
  exact accept_eq_ok_iff.mpr ⟨hlocated, given.bounded_bounded.symm⟩

/-- What is read from a record was accepted. -/
theorem valid_of_check {v : Json} {f : Finding} (h : check v = .ok f) : f.Valid := by
  cases v with
  | obj ms =>
      obtain ⟨given, -, haccept⟩ := Checked.andThen_eq_ok.mp h
      exact ⟨given, haccept⟩
  | _ => cases h

/-- The code and the context of a finding, as they are kept of those that were given. -/
structure Quotes (given f : Finding) : Prop where
  code : Option.Rel (fun s t => Snippet.KeptOf s.toList t.toList) given.code f.code
  context : Option.Rel (fun s t => List.Forall₂ Snippet.KeptOf (Text.splitOn '\n' s.toList)
    (Text.splitOn '\n' t.toList)) given.context f.context

theorem quotes_of_accept {given f : Finding} (h : given.accept = .ok f) : given.Quotes f := by
  obtain ⟨-, rfl⟩ := accept_eq_ok_iff.mp h
  constructor
  · show Option.Rel _ given.code (given.code.map Snippet.bounded)
    cases given.code with
    | none => exact .none
    | some s =>
        refine .some ?_
        rw [Snippet.bounded, String.toList_ofList]
        exact Snippet.keptOf_truncate s.toList
  · show Option.Rel _ given.context (given.context.map Snippet.boundedLines)
    cases given.context with
    | none => exact .none
    | some s =>
        refine .some ?_
        rw [Snippet.boundedLines, String.toList_ofList, Snippet.splitOn_truncateLines,
          List.forall₂_map_right_iff, List.forall₂_same]
        exact fun line _ => Snippet.keptOf_truncate line

end Finding

/-! ## Members -/

namespace Checked

variable {α : Type} {name : String} {others : List String} {usual : Option α}
  {ms : List (String × Json)}

theorem field_of_mem {check : Json → Checked α} {v : Json} {a : α} (hkeys : (ms.map (·.1)).Nodup)
    (h : (name, v) ∈ ms) (hv : check v = .ok a) :
    field (name :: others) usual check ms = .ok a := by
  have hfirst : firstNamed? (name :: others) ms = some (name, v) := by
    simp [firstNamed?, Json.lookup?_of_mem hkeys h]
  unfold field
  rw [hfirst]
  exact below_eq_ok.mpr hv

theorem field_of_absent {check : Json → Checked α} {names : List String} {a : α}
    (h : ∀ name ∈ names, name ∉ ms.map (·.1)) : field names (some a) check ms = .ok a := by
  have hfirst : firstNamed? names ms = none :=
    List.findSome?_eq_none_iff.mpr fun name hname => by
      simp [Json.lookup?_of_not_mem (h name hname)]
  unfold field
  rw [hfirst]

end Checked

/-! ## Records -/

namespace Finding

open Checked (field text optional integer)

variable {f : Finding}

/-- What the record of a finding names, with what it is. -/
theorem mem_record_iff {m : String × Json} :
    m ∈ f.fields.filter (fun m => m.2 != .null) ↔ m ∈ f.fields ∧ m.2 ≠ .null := by
  rw [List.mem_filter, bne_iff_ne]

theorem nodup_keys_record (f : Finding) :
    ((f.fields.filter fun m => m.2 != .null).map (·.1)).Nodup :=
  f.nodup_keys_fields.sublist (List.filter_sublist.map _)

/-- A member that is always there is read as it was written. -/
theorem field_record {α : Type} {name : String} {v : Json} {check : Json → Checked α} {a : α}
    {usual : Option α} (h : (name, v) ∈ f.fields) (hne : v ≠ .null) (hv : check v = .ok a) :
    field [name] usual check (f.fields.filter fun m => m.2 != .null) = .ok a :=
  Checked.field_of_mem f.nodup_keys_record (mem_record_iff.mpr ⟨h, hne⟩) hv

/-- A member that may be left out is read as it was written, under whatever other names a record may
have it. -/
theorem field_record_optional {α : Type} {name : String} {others : List String} {g : α → Json}
    {check : Json → Checked α} {value : Option α} (h : (name, Json.ofOption g value) ∈ f.fields)
    (hothers : ∀ other ∈ others, other ∉ f.fields.map (·.1)) (hne : ∀ a, g a ≠ .null)
    (hread : ∀ a, check (g a) = .ok a) :
    field (name :: others) (some none) (optional check) (f.fields.filter fun m => m.2 != .null) =
      .ok value := by
  cases value with
  | some a =>
      refine Checked.field_of_mem f.nodup_keys_record (mem_record_iff.mpr ⟨h, hne a⟩) ?_
      exact (Checked.optional_eq_ok_of_ne_null (hne a)).mpr ⟨a, hread a, rfl⟩
  | none =>
      refine Checked.field_of_absent (List.forall_mem_cons.mpr ⟨?_, ?_⟩)
      · -- the only member of that name is null and was left out
        intro hmem
        obtain ⟨⟨_, v⟩, hm, rfl⟩ := List.mem_map.mp hmem
        obtain ⟨hfields, hnull⟩ := mem_record_iff.mp hm
        have hfound := Json.lookup?_of_mem f.nodup_keys_fields hfields
        rw [Json.lookup?_of_mem f.nodup_keys_fields h] at hfound
        exact hnull (Option.some.inj hfound).symm
      · intro other hother hmem
        exact hothers other hother ((List.filter_sublist.map _).subset hmem)

/-- The members of the record of a finding describe the finding. -/
theorem ofMembers_toRecord (f : Finding) :
    ofMembers (f.fields.filter fun m => m.2 != .null) = .ok f := by
  have htext : ∀ {name : String} {value : Option String},
      (name, Json.ofOption .str value) ∈ f.fields →
      field [name] (some none) (optional text) (f.fields.filter fun m => m.2 != .null) =
        .ok value :=
    fun h => field_record_optional h (by simp) (by simp) fun _ => rfl
  refine ofMembers_eq_ok.mpr ⟨?_, ?_, ?_, htext ?_, ?_, htext ?_, htext ?_, htext ?_, htext ?_, ?_,
    htext ?_, ?_⟩
  · exact field_record (v := .str f.kind) (by simp [fields]) (by simp) rfl
  · refine field_record (v := .str f.severity.name) (by simp [fields]) (by simp) ?_
    rw [Severity.check, Severity.ofRecord?_name]
  · exact field_record (v := .str f.message) (by simp [fields]) (by simp) rfl
  · simp [fields]
  · exact field_record_optional (g := .int) (by simp [fields]) (by simp) (by simp) fun _ => rfl
  · simp [fields]
  · simp [fields]
  · simp [fields]
  · simp [fields]
  · exact field_record (v := .str f.source) (by simp [fields]) (by simp) rfl
  · simp [fields]
  · exact field_record_optional (g := .str)
      (by simp [fields]) (by simp [fields]) (by simp) fun _ => rfl

/-- A finding that was accepted is read back from its record. -/
theorem Valid.check_toRecord (h : f.Valid) : check f.toRecord = .ok f := by
  show (ofMembers (f.fields.filter fun m => m.2 != .null)).andThen accept = .ok f
  rw [ofMembers_toRecord]
  exact h.accept_eq

end Finding

namespace AuditResult

theorem isExact_fields (r : AuditResult) {issue : Finding → Json} (h : ∀ f, (issue f).IsExact) :
    (r.fields issue).IsExact := by
  refine ⟨?_, trivial, trivial, trivial, trivial, trivial, Json.isExact_arr fun f _ => h f, trivial⟩
  show ["timestamp", "totalIssues", "highSeverity", "mediumSeverity", "lowSeverity", "issues"].Nodup
  decide

/-- A result of accepted findings is read back from its record. -/
theorem check_toRecord {r : AuditResult} (h : ∀ f ∈ r.issues, f.Valid) :
    check r.toRecord = .ok r := by
  have hkeys : ["timestamp", "totalIssues", "highSeverity", "mediumSeverity", "lowSeverity",
      "issues"].Nodup := by decide
  have hissues : Checked.list Finding.check (.arr (r.issues.map Finding.toRecord)) = .ok r.issues :=
    Checked.listFrom_map (fun f hf => (h f hf).check_toRecord) 0
  simp only [check, toRecord, fields, Checked.record, Checked.seq_eq_ok, Checked.map_eq_ok]
  refine ⟨_, r.issues, ⟨_, r.counts.low, ⟨_, r.counts.medium, ⟨_, r.counts.high, ⟨_, r.counts.total,
    ⟨r.timestamp, ?_, rfl⟩, ?_, rfl⟩, ?_, rfl⟩, ?_, rfl⟩, ?_, rfl⟩, ?_, rfl⟩
  · exact Checked.field_of_mem hkeys (v := .str r.timestamp) (by simp) rfl
  · exact Checked.field_of_mem hkeys (v := .int r.counts.total) (by simp) rfl
  · exact Checked.field_of_mem hkeys (v := .int r.counts.high) (by simp) rfl
  · exact Checked.field_of_mem hkeys (v := .int r.counts.medium) (by simp) rfl
  · exact Checked.field_of_mem hkeys (v := .int r.counts.low) (by simp) rfl
  · exact Checked.field_of_mem hkeys (by simp) hissues

/-- The record of a result can be read back from its text. -/
theorem isExact_toRecord (r : AuditResult) : r.toRecord.IsExact :=
  r.isExact_fields Finding.isExact_toRecord

/-- A text that holds a result. -/
def HeldBy (r : AuditResult) (text : String) : Prop :=
  ∃ v, Json.parse? text.toList = some v ∧ check v = .ok r

/-- The report of a result of accepted findings holds the result. -/
theorem heldBy_categoryArtifact {r : AuditResult} (h : ∀ f ∈ r.issues, f.Valid) (directory : Path)
    (category : String) : r.HeldBy (Report.categoryArtifact directory category r).text :=
  ⟨r.toRecord, Json.parse?_pretty r.isExact_toRecord, check_toRecord h⟩

end AuditResult

theorem valid_of_mem_issues {now : String} {findings : List Finding} {time : Option String}
    (h : ∀ f ∈ findings, f.Valid) : ∀ f ∈ (summarize now findings time).issues, f.Valid := by
  intro f hf
  obtain ⟨before, after, rfl, -⟩ := mem_dedupe_iff.mp hf
  exact h f (by simp)

namespace Report

/-- A report that was written is the file at its path. -/
theorem file?_of_write {host : Host} {a : Artifact} {w w' : World} {path : Path}
    (h : write host a w = (some path, w')) :
    w'.volume.tree.file? (host.locate path) = some (.text a.text) := by
  unfold write at h
  split at h
  · next volume hwrite =>
      obtain ⟨hpath, rfl⟩ := Prod.mk.inj h
      obtain rfl : a.path = path := Option.some.inj hpath
      exact Disk.Volume.file?_write?_self hwrite
  · cases (Prod.mk.inj h).1

end Report

/-! ## What is written down -/

/-- What is written down of findings comes back as it was. What a check accepts is an accepted
finding; an accepted finding keeps its code, and each line of its context, in at most 214
characters, marked where there were more than 200, and it is read from its record field for field.
The report of a result of accepted findings holds that result, and so does the file when the report
was written. -/
theorem findings_read_back {given f : Finding} (hf : given.accept = .ok f) {findings : List Finding}
    (hfindings : ∀ g ∈ findings, g.Valid) (now : String) (time : Option String) (directory : Path)
    (category : String) :
    (∀ v g, Finding.check v = .ok g → g.Valid) ∧
    given.Quotes f ∧
    Finding.check f.toRecord = .ok f ∧
    (summarize now findings time).HeldBy
      (Report.categoryArtifact directory category (summarize now findings time)).text ∧
    ∀ (host : Host) (w w' : World) (path : Path),
      Report.write host
        (Report.categoryArtifact directory category (summarize now findings time)) w =
        (some path, w') →
      ∃ text, w'.volume.tree.file? (host.locate path) = some (.text text) ∧
        (summarize now findings time).HeldBy text := by
  have hissues : ∀ g ∈ (summarize now findings time).issues, g.Valid :=
    valid_of_mem_issues hfindings
  have hheld := AuditResult.heldBy_categoryArtifact hissues directory category
  refine ⟨fun v g hv => Finding.valid_of_check hv, Finding.quotes_of_accept hf,
    Finding.Valid.check_toRecord ⟨given, hf⟩, hheld, ?_⟩
  intro host w w' path hwrite
  exact ⟨_, Report.file?_of_write hwrite, hheld⟩

/-- A finding with more code, and with a longer line in its context, than is kept. -/
def longQuote : Finding where
  kind := "no-eval"
  severity := .high
  message := "eval(\"x\")"
  file := some "src/a.js"
  line := some 3
  code := some (String.ofList (List.replicate 500 'x'))
  context := some (String.ofList ("    2: ok\n>>> 3: ".toList ++ List.replicate 500 'x'))
  rule := some "no-eval"

/-- With more code than is kept, twice in a list, in a report that is written. -/
theorem findings_read_back_longQuote :
    longQuote.accept = .ok longQuote.bounded ∧ longQuote.Quotes longQuote.bounded ∧
    Finding.check longQuote.bounded.toRecord = .ok longQuote.bounded ∧
    ∃ w' text,
      Report.write default (Report.categoryArtifact ⟨.root, ["reports"]⟩ "eslint"
        (summarize "now" [longQuote.bounded, longQuote.bounded])) { volume := default } =
          (some ⟨.root, ["reports", "eslint-report.json"]⟩, w') ∧
      w'.volume.tree.file? ["reports", "eslint-report.json"] = some (.text text) ∧
      (summarize "now" [longQuote.bounded, longQuote.bounded]).HeldBy text := by
  have haccept : longQuote.accept = .ok longQuote.bounded := rfl
  have hvalid : ∀ g ∈ [longQuote.bounded, longQuote.bounded], g.Valid := by
    intro g hg
    obtain rfl : g = longQuote.bounded := by simpa using hg
    exact ⟨longQuote, haccept⟩
  have hwrite : (Report.write default (Report.categoryArtifact ⟨.root, ["reports"]⟩ "eslint"
      (summarize "now" [longQuote.bounded, longQuote.bounded])) { volume := default }).1 =
        some ⟨.root, ["reports", "eslint-report.json"]⟩ := by
    rfl
  obtain ⟨-, hquotes, hcheck, -, hwritten⟩ :=
    findings_read_back haccept hvalid "now" none ⟨.root, ["reports"]⟩ "eslint"
  obtain ⟨text, hfile, hheld⟩ := hwritten default _ _ _ (Prod.ext hwrite rfl)
  exact ⟨haccept, hquotes, hcheck, _, text, Prod.ext hwrite rfl, hfile, hheld⟩

end FrontendAudit
