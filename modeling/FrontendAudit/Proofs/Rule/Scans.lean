import FrontendAudit.Proofs.Rule.Accessibility.Scan
import FrontendAudit.Proofs.Rule.Performance.Scan

/-!
# Findings and the lines that they are about

What the scans of both families find in a file points to lines of the file that have text, in their
order (`findings_point_to_lines`). Where a file is put further down by line feeds in front of it,
the same is found on the lines further down (`findings_below_line_feeds`).
-/

namespace FrontendAudit

variable {path : String}

/-- Each finding of a scan points to a line of the file under the name of a detector, with the
severity and the criterion of its check if it is about accessibility, and the findings stand in the
order of the lines and then of the detectors. -/
theorem findings_point_to_lines (hpath : path ≠ "") (content : List Char)
    (components : List String) :
    (∃ found, Accessibility.scan path content components = .ok found ∧
      (∀ f ∈ found, f.kind ∈ Accessibility.detectors.names ∧
        (∃ n, f.PointsTo path (Text.sourceLines content) n) ∧
        ∃ check : Accessibility.Check, f.kind = check.name ∧ f.severity = check.severity ∧
          f.wcag = some check.criterion) ∧
      InOrder Accessibility.detectors.names found) ∧
    ∃ found, Performance.scan path content = .ok found ∧
      (∀ f ∈ found, f.kind ∈ Performance.detectors.names ∧
        ∃ n, f.PointsTo path (Text.sourceLines content) n) ∧
      InOrder Performance.detectors.names found := by
  constructor
  · obtain ⟨found, hscan⟩ := Accessibility.exists_scan hpath content components
    have hfound := (Accessibility.scan_eq_ok_iff.mp hscan).2
    refine ⟨found, hscan, fun f hf => ?_, hfound ▸ Accessibility.reportsLines_detectors.inOrder _ _⟩
    obtain ⟨hkind, hpoints⟩ := Accessibility.reportsLines_detectors.exists_pointsTo
      Accessibility.passesOverBlanks_detectors (hfound ▸ hf)
    exact ⟨hkind, hpoints, Accessibility.exists_check_of_mem_scan hscan hf⟩
  · refine ⟨_, Performance.scan_eq_ok_iff.mpr ⟨.inl hpath, rfl⟩, fun f hf => ?_,
      Performance.reportsLines_detectors.inOrder _ _⟩
    exact Performance.reportsLines_detectors.exists_pointsTo
      Performance.passesOverBlanks_detectors hf

/-- A page on which both families find something, with a blank line between. -/
def sparsePage : List Char :=
  "<h2>News</h2>\n \t\n  <img src=\"a.png\"> JSON.parse( JSON.stringify(x))".toList

theorem findings_point_to_lines_sparse :
    (∃ found, Accessibility.scan "page.html" sparsePage [] = .ok found ∧
      found.map (fun f => (f.line, f.kind)) =
        [(some 1, "skipped_heading"), (some 3, "missing_alt")] ∧
      (∀ f ∈ found, ∃ n, f.PointsTo "page.html" (Text.sourceLines sparsePage) n) ∧
      InOrder Accessibility.detectors.names found) ∧
    ∃ found, Performance.scan "page.html" sparsePage = .ok found ∧
      found.map (fun f => (f.line, f.kind)) = [(some 3, "inefficient_operation")] ∧
      ∀ f ∈ found, ∃ n, f.PointsTo "page.html" (Text.sourceLines sparsePage) n := by
  obtain ⟨⟨found, hscan, hall, horder⟩, found', hscan', hall', -⟩ :=
    @findings_point_to_lines "page.html" (by decide) sparsePage []
  refine ⟨⟨found, hscan, ?_, fun f hf => (hall f hf).2.1, horder⟩, found', hscan', ?_,
    fun f hf => (hall' f hf).2⟩
  · rw [(Accessibility.scan_eq_ok_iff.mp hscan).2]
    decide +kernel
  · rw [(Performance.scan_eq_ok_iff.mp hscan').2]
    decide +kernel

/-- With `k` line feeds in front of a text the same is found in the same order, on lines further
down by `k`, and but for these numbers and for the lines that are quoted around each the findings
are the same. -/
theorem findings_below_line_feeds (hpath : path ≠ "") (content : List Char)
    (components : List String) (k : Nat) :
    (∃ found found', Accessibility.scan path content components = .ok found ∧
      Accessibility.scan path (List.replicate k '\n' ++ content) components = .ok found' ∧
      found'.map Finding.withoutContext = found.map fun f => f.withoutContext.lowered k) ∧
    ∃ found found', Performance.scan path content = .ok found ∧
      Performance.scan path (List.replicate k '\n' ++ content) = .ok found' ∧
      found'.map Finding.withoutContext = found.map fun f => f.withoutContext.lowered k := by
  constructor
  · refine ⟨_, _, Accessibility.scan_eq_ok_iff.mpr ⟨.inl hpath, rfl⟩,
      Accessibility.scan_eq_ok_iff.mpr ⟨.inl hpath, rfl⟩, ?_⟩
    rw [List.map_map, List.map_map]
    exact Accessibility.raised_below path content components k
  · refine ⟨_, _, Performance.scan_eq_ok_iff.mpr ⟨.inl hpath, rfl⟩,
      Performance.scan_eq_ok_iff.mpr ⟨.inl hpath, rfl⟩, ?_⟩
    rw [List.map_map, List.map_map]
    exact Performance.raised_below path content k

theorem findings_below_line_feeds_sparse :
    ∃ found found', Accessibility.scan "page.html" sparsePage [] = .ok found ∧
      Accessibility.scan "page.html" ('\n' :: '\n' :: sparsePage) [] = .ok found' ∧
      found'.map Finding.withoutContext = found.map (fun f => f.withoutContext.lowered 2) ∧
      found.map (·.line) = [some 1, some 3] ∧ found'.map (·.line) = [some 3, some 5] := by
  obtain ⟨⟨found, found', hscan, hscan', hsame⟩, -⟩ :=
    @findings_below_line_feeds "page.html" (by decide) sparsePage [] 2
  have hlines : found.map (·.line) = [some 1, some 3] := by
    rw [(Accessibility.scan_eq_ok_iff.mp hscan).2]
    decide +kernel
  have hlines' : found'.map (·.line) = [some 3, some 5] := by
    rw [(Accessibility.scan_eq_ok_iff.mp hscan').2]
    decide +kernel
  exact ⟨found, found', hscan, hscan', hsame, hlines, hlines'⟩

end FrontendAudit
