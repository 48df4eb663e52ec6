import FrontendAudit.Proofs.Source.Excerpt
import FrontendAudit.Source.File

/-!
# Findings about the lines of a file

What is reported about a line is accepted if the file has a path, and then it points to the line: it
bears the number of the line and quotes its text (`SourceFile.Reports.pointsTo`). Empty lines in
front of a file only raise the number (`Text.sourceLines_below`, `findingAt_below`), although the
lines that are quoted around it need not be the same.
-/

namespace FrontendAudit

/-- Line feeds in front of a text are empty lines in front of its lines. -/
theorem Text.sourceLines_below (k : Nat) (content : List Char) :
    sourceLines (List.replicate k '\n' ++ content) =
      List.replicate k [] ++ sourceLines content := by
  have hsplit : splitOn '\n' (List.replicate k '\n' ++ content) =
      List.replicate k [] ++ splitOn '\n' content := by
    induction k with
    | zero => rfl
    | succ k ih =>
        rw [List.replicate_succ, List.cons_append, splitOn_cons, if_pos rfl, ih,
          List.replicate_succ, List.cons_append]
  rw [sourceLines, hsplit, List.map_append, List.map_replicate]
  rfl

theorem Snippet.truncate_ne_nil {s : List Char} (h : s ≠ []) : truncate s ≠ [] := by
  unfold truncate
  split
  · exact h
  · exact List.append_ne_nil_of_right_ne_nil _ (by decide)

namespace Finding

variable {fs gs : List Finding} {path : String}

/-- Findings are accepted together when each has a location, and are then cut to size one by one. -/
theorem acceptAll_eq_ok_iff :
    acceptAll fs = .ok gs ↔ (∀ f ∈ fs, f.location?.isSome) ∧ gs = fs.map bounded := by
  induction fs generalizing gs with
  | nil => exact ⟨fun h => ⟨by simp, (Checked.ok.inj h).symm⟩, fun h => h.2 ▸ rfl⟩
  | cons f fs ih =>
      have hstep : acceptAll (f :: fs) =
          f.accept.andThen fun g => (acceptAll fs).andThen fun gs => .ok (g :: gs) := rfl
      rw [hstep, List.forall_mem_cons, List.map_cons]
      cases hf : f.accept with
      | bad issues =>
          have hnot : ¬f.location?.isSome := fun h => by
            rw [accept, if_pos h] at hf
            cases hf
          simp [Checked.andThen, hnot]
      | ok g =>
          obtain ⟨hlocation, rfl⟩ := accept_eq_ok_iff.mp hf
          cases hfs : acceptAll fs with
          | bad issues =>
              have hnot : ¬∀ f ∈ fs, f.location?.isSome := fun h => by
                rw [ih.mpr ⟨h, rfl⟩] at hfs
                cases hfs
              simp [Checked.andThen, hnot]
          | ok rest =>
              obtain ⟨hall, rfl⟩ := ih.mp hfs
              simp only [Checked.andThen, Checked.ok.injEq]
              exact ⟨fun h => ⟨⟨hlocation, hall⟩, h.symm⟩, fun h => h.2.symm⟩

/-- Findings about a file are accepted if the file has a path, and without one as long as there are
none. -/
theorem acceptAll_eq_ok_iff_of_location
    (hlocation : ∀ f ∈ fs, f.location?.isSome = true ↔ path ≠ "") :
    acceptAll fs = .ok gs ↔ (path ≠ "" ∨ fs = []) ∧ gs = fs.map bounded := by
  rw [acceptAll_eq_ok_iff, List.eq_nil_iff_forall_not_mem]
  refine and_congr_left fun _ => ⟨fun hall => ?_, ?_⟩
  · by_cases hpath : path = ""
    · exact .inr fun f hf => (hlocation f hf).mp (hall f hf) hpath
    · exact .inl hpath
  · rintro (hpath | hnone) f hf
    · exact (hlocation f hf).mpr hpath
    · exact absurd hf (hnone f)

/-- The finding is about line `n` of a file, which has text, and quotes it. It is no finding of a
tool or about a page. -/
structure PointsTo (f : Finding) (path : String) (lines : List (List Char)) (n : Nat) : Prop where
  file : f.file = some path
  line : f.line = some (n : Int)
  first : 1 ≤ n
  last : n ≤ lines.length
  text : Text.isBlankText (lines.getD (n - 1) []) = false
  code : f.code = some (String.ofList (Snippet.truncate (Text.strip (lines.getD (n - 1) []))))
  code_ne : f.code ≠ some ""
  source : f.source = "custom"
  url : f.url = none
  rule : f.rule = none

/-- The finding about a line that is `k` lines further down. -/
def lowered (k : Nat) (f : Finding) : Finding := { f with line := f.line.map (· + (k : Int)) }

/-- The finding without the lines that are quoted around it. -/
def withoutContext (f : Finding) : Finding := { f with context := none }

end Finding

namespace Source

variable {lines above : List (List Char)}

theorem quoted_below (above lines : List (List Char)) (index : Nat) :
    quoted (above ++ lines) (above.length + index + 1) = quoted lines (index + 1) := by
  have hback : above.length + index - above.length = index := by omega
  rw [quoted, quoted, Nat.add_sub_cancel, Nat.add_sub_cancel,
    List.getD_append_right _ _ _ _ (Nat.le_add_right ..), hback]

theorem quoted_of_getElem? {index : Nat} {line : List Char} (hline : lines[index]? = some line) :
    quoted lines (index + 1) = Text.strip line := by
  obtain ⟨hindex, hget⟩ := List.getElem?_eq_some_iff.mp hline
  rw [quoted, Nat.add_sub_cancel, List.getD_eq_getElem _ _ hindex, hget]

/-- The code of an excerpt is the text of the line. -/
theorem code_excerpt (lines : List (List Char)) (index : Nat) :
    (excerpt lines ((index : Int) + 1)).code = Snippet.truncate (quoted lines (index + 1)) := by
  rw [excerpt]
  by_cases hindex : index < lines.length
  · rw [if_pos (by simp; omega)]
    rfl
  · rw [if_neg (by simp; omega), quoted, List.getD_eq_default _ _ (by omega)]
    rfl

end Source

namespace SourceFile

variable {file : SourceFile} {kind : String} {index : Nat} {line : List Char} {f : Finding}

/-- The finding is reported under the name about the line of the index. -/
def Reports (file : SourceFile) (kind : String) (index : Nat) (f : Finding) : Prop :=
  ∃ severity message recommendation wcag,
    f = file.findingAt index kind severity message recommendation wcag

theorem Reports.kind_eq (h : file.Reports kind index f) : f.kind = kind := by
  obtain ⟨severity, message, recommendation, wcag, rfl⟩ := h
  rfl

theorem Reports.line_eq (h : file.Reports kind index f) : f.line = some ((index : Int) + 1) := by
  obtain ⟨severity, message, recommendation, wcag, rfl⟩ := h
  rfl

theorem Reports.location_isSome_iff (h : file.Reports kind index f) :
    f.location?.isSome = true ↔ file.path ≠ "" := by
  obtain ⟨severity, message, recommendation, wcag, rfl⟩ := h
  have hfile : (file.findingAt index kind severity message recommendation wcag).location? =
      (nonempty? (some file.path)).or none := rfl
  rw [hfile, nonempty?]
  by_cases hpath : file.path = "" <;> simp [hpath]

/-- The code of a finding that is cut to size is the text of its line, if it has text. -/
theorem code_findingAt (file : SourceFile) (index : Nat) (kind : String) (severity : Severity)
    (message recommendation : String) (wcag : Option String) :
    (file.findingAt index kind severity message recommendation wcag).bounded.code =
      Source.asText? (Snippet.truncate (Source.quoted file.lines (index + 1))) := by
  have hcode : (file.findingAt index kind severity message recommendation wcag).code =
      Source.asText? (Snippet.truncate (Source.quoted file.lines (index + 1))) := by
    rw [← Source.code_excerpt]
    rfl
  rw [Finding.bounded, hcode, Source.asText?]
  split
  · rfl
  · rw [Option.map_some, Snippet.bounded, String.toList_ofList, Snippet.truncate_truncate]

/-- What is reported about a line with text points to it. -/
theorem Reports.pointsTo (h : file.Reports kind index f) (hline : file.lines[index]? = some line)
    (htext : Text.isBlankText line = false) :
    f.bounded.PointsTo file.path file.lines (index + 1) := by
  obtain ⟨severity, message, recommendation, wcag, rfl⟩ := h
  obtain ⟨hindex, hget⟩ := List.getElem?_eq_some_iff.mp hline
  have hgetD : file.lines.getD (index + 1 - 1) [] = line := by
    rw [Nat.add_sub_cancel, List.getD_eq_getElem _ _ hindex, hget]
  have hstrip : Text.strip line ≠ [] := fun hnil => by
    rw [Text.strip_eq_nil_iff.mp hnil] at htext
    cases htext
  have hne : Snippet.truncate (Text.strip line) ≠ [] := Snippet.truncate_ne_nil hstrip
  have hcode : (file.findingAt index kind severity message recommendation wcag).bounded.code =
      some (String.ofList (Snippet.truncate (Text.strip line))) := by
    rw [code_findingAt, Source.quoted_of_getElem? hline, Source.asText?,
      if_neg (by simpa using hne)]
  exact
    { file := rfl
      line := rfl
      first := Nat.le_add_left 1 index
      last := hindex
      text := hgetD ▸ htext
      code := hgetD ▸ hcode
      code_ne := by
        rw [hcode, ne_eq, Option.some.injEq, ← String.toList_inj, String.toList_ofList]
        exact hne
      source := rfl
      url := rfl
      rule := rfl }

/-- Below other lines a finding about a line differs in its number and in the lines around it
only. -/
theorem findingAt_below {above : List (List Char)} {k : Nat} (habove : above.length = k)
    (path : String) (lines : List (List Char)) (index : Nat) (kind : String) (severity : Severity)
    (message recommendation : String) (wcag : Option String) :
    ((⟨path, above ++ lines⟩ : SourceFile).findingAt (k +
      index) kind severity message recommendation
        wcag).bounded.withoutContext =
      ((⟨path, lines⟩ : SourceFile).findingAt index kind severity message recommendation
        wcag).bounded.withoutContext.lowered k := by
  subst habove
  have hcode := code_findingAt ⟨path, above ++ lines⟩ (above.length + index) kind severity message
    recommendation wcag
  rw [Source.quoted_below,
    ← code_findingAt ⟨path, lines⟩ index kind severity message recommendation wcag] at hcode
  simp only [Finding.withoutContext, Finding.lowered, hcode]
  simp only [Finding.bounded, findingAt, Option.map_some, Finding.mk.injEq, Option.some.injEq,
    true_and, and_true]
  omega

end SourceFile

end FrontendAudit
