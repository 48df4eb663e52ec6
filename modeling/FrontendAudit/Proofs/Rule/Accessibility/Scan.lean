import FrontendAudit.Proofs.Pattern.Blank
import FrontendAudit.Proofs.Rule.Registry
import FrontendAudit.Proofs.Source.Heading
import FrontendAudit.Rule.Accessibility.Detectors

/-!
# What an accessibility scan finds

A detector looks at its line, and of the rest of the source only at the levels of the headings
before the line and, if it is about images, at whether a component on the line takes care of
accessibility. What it finds there are reports of its check about the line, the same at two places
that look alike (`SeesOnly`). So of the findings of a scan those of one check are what the detector
of that check reports line by line (`filter_scan`). All findings are about the file, which must have
a path for them to be accepted (`scan_eq_ok_iff`), none are about a blank line
(`passesOverBlanks_detectors`), and empty lines in front of a text only move them (`raised_below`).
-/

namespace FrontendAudit.Accessibility

open Pattern
open FrontendAudit.Source (headingOpen headingLevels levelsBefore)

variable {line : List Char} {source source' : Source} {check : Check} {index index' : Nat}
  {f : Finding}

/-! ## Places that look alike -/

/-- The checks of images. -/
def imageChecks : List Check := [.missingAlt, .emptyAlt, .genericAlt]

/-- For the check, the line looks alike at both places: the same headings come before it, and it is
exempt from the checks of images at both or at neither. -/
structure LooksAlike (check : Check) (line : List Char) (source : Source) (index : Nat)
    (source' : Source) (index' : Nat) : Prop where
  exempt : check ∈ imageChecks →
    usesComponent line source'.components = usesComponent line source.components
  before : levelsBefore source'.headings index' = levelsBefore source.headings index

/-- Where places look alike the detector reports alike: its findings are seen as the same, whenever
reports of the check about the two places are. -/
def SeesOnly (detector : LineDetector) (check : Check) : Prop :=
  ∀ ⦃line source index source' index'⦄, LooksAlike check line source index source' index' →
    ∀ view view' : Finding → Finding,
      (∀ message recommendation, view' (source'.report check index' message recommendation) =
        view (source.report check index message recommendation)) →
      (detector line index' source').map view' = (detector line index source).map view

theorem LooksAlike.imageTags_eq {check : Check}
    (h : LooksAlike check line source index source' index') (hcheck : check ∈ imageChecks) :
    imageTags line source' = imageTags line source := by
  rw [imageTags, imageTags, h.exempt hcheck]

theorem seesOnly_missingAlt : SeesOnly detectMissingAlt .missingAlt := by
  intro line source index source' index' halike view view' hview
  rw [detectMissingAlt, detectMissingAlt, halike.imageTags_eq (by decide), List.map_filterMap,
    List.map_filterMap]
  refine List.filterMap_congr fun tag _ => ?_
  split
  · rfl
  · rw [Option.map_some, Option.map_some, hview]

theorem seesOnly_emptyAlt : SeesOnly detectEmptyAlt .emptyAlt := by
  intro line source index source' index' halike view view' hview
  rw [detectEmptyAlt, detectEmptyAlt, halike.imageTags_eq (by decide), List.map_filterMap,
    List.map_filterMap]
  refine List.filterMap_congr fun tag _ => ?_
  split
  · split
    · rw [Option.map_some, Option.map_some, hview]
    · rfl
  · rfl

theorem seesOnly_genericAlt : SeesOnly detectGenericAlt .genericAlt := by
  intro line source index source' index' halike view view' hview
  rw [detectGenericAlt, detectGenericAlt, halike.imageTags_eq (by decide), List.map_filterMap,
    List.map_filterMap]
  refine List.filterMap_congr fun tag _ => ?_
  split
  · dsimp only
    split
    · rw [Option.map_some, Option.map_some, hview]
    · rfl
  · rfl

theorem seesOnly_skippedHeading : SeesOnly detectSkippedHeading .skippedHeading := by
  intro line source index source' index' halike view view' hview
  rw [detectSkippedHeading, detectSkippedHeading, halike.before, List.map_map, List.map_map]
  exact List.map_congr_left fun level _ => hview _ _

theorem seesOnly_multipleH1 : SeesOnly detectMultipleH1 .multipleH1 := by
  intro line source index source' index' halike view view' hview
  simp only [detectMultipleH1, halike.before, List.map_replicate, hview]

theorem seesOnly_emptyHeading : SeesOnly detectEmptyHeading .emptyHeading := by
  intro line source index source' index' halike view view' hview
  rw [detectEmptyHeading, detectEmptyHeading, List.map_filterMap, List.map_filterMap]
  refine List.filterMap_congr fun m _ => ?_
  split
  · rw [Option.map_some, Option.map_some, hview]
  · rfl

theorem seesOnly_missingFormLabel : SeesOnly detectMissingFormLabel .missingFormLabel := by
  intro line source index source' index' halike view view' hview
  rw [detectMissingFormLabel, detectMissingFormLabel, List.map_filterMap, List.map_filterMap]
  refine List.filterMap_congr fun m _ => ?_
  split
  · rfl
  · rw [Option.map_some, Option.map_some, hview]

theorem seesOnly_emptyAria : SeesOnly detectEmptyAria .emptyAria := by
  intro line source index source' index' halike view view' hview
  rw [detectEmptyAria, detectEmptyAria, List.map_map, List.map_map]
  exact List.map_congr_left fun m _ => hview _ _

theorem seesOnly_duplicateAria : SeesOnly detectDuplicateAria .duplicateAria := by
  intro line source index source' index' halike view view' hview
  rw [detectDuplicateAria, detectDuplicateAria, List.map_flatMap, List.map_flatMap]
  refine List.flatMap_congr fun m _ => ?_
  rw [List.map_map, List.map_map]
  exact List.map_congr_left fun name _ => hview _ _

theorem seesOnly_reportIf (holds : List Char → Bool) (check : Check)
    (message recommendation : String) :
    SeesOnly
      (fun line index source =>
        reportIf source (holds line) check index message recommendation) check := by
  intro line source index source' index' halike view view' hview
  dsimp only [reportIf]
  split
  · rw [List.map_singleton, List.map_singleton, hview]
  · rfl

/-- Each detector sees only what the check under whose name it is registered has to do with. -/
theorem seesOnly_of_mem {entry : String × LineDetector} (h : entry ∈ detectors.entries) :
    ∃ check : Check, entry.1 = check.name ∧ SeesOnly entry.2 check := by
  simp only [detectors, List.mem_cons, List.not_mem_nil, or_false] at h
  rcases h with rfl | rfl | rfl | rfl | rfl | rfl | rfl | rfl | rfl | rfl | rfl | rfl | rfl
  · exact ⟨_, rfl, seesOnly_missingAlt⟩
  · exact ⟨_, rfl, seesOnly_emptyAlt⟩
  · exact ⟨_, rfl, seesOnly_genericAlt⟩
  · exact ⟨_, rfl, seesOnly_skippedHeading⟩
  · exact ⟨_, rfl, seesOnly_multipleH1⟩
  · exact ⟨_, rfl, seesOnly_emptyHeading⟩
  · exact ⟨_, rfl, seesOnly_missingFormLabel⟩
  · exact ⟨_, rfl, seesOnly_reportIf _ .colorContrast _ _⟩
  · exact ⟨_, rfl, seesOnly_reportIf _ .keyboardNavigation _ _⟩
  · exact ⟨_, rfl, seesOnly_emptyAria⟩
  · exact ⟨_, rfl, seesOnly_duplicateAria⟩
  · exact ⟨_, rfl, seesOnly_reportIf _ .tabOrderFocus _ _⟩
  · exact ⟨_, rfl, seesOnly_reportIf _ .focusManagement _ _⟩

/-! ## Reports of checks -/

/-- The finding is one that the check reports about the line. -/
def Source.Reports (source : Source) (check : Check) (index : Nat) (f : Finding) : Prop :=
  ∃ message recommendation, f = source.report check index message recommendation

theorem Source.Reports.ofFile (h : source.Reports check index f) :
    source.toSourceFile.Reports check.name index f := by
  obtain ⟨message, recommendation, rfl⟩ := h
  exact ⟨_, _, _, _, rfl⟩

/-- Whatever the detector finds is a finding of the check about the line that it looks at. -/
def OnlyReports (detector : LineDetector) (check : Check) : Prop :=
  ∀ line index source, ∀ f ∈ detector line index source, source.Reports check index f

/-- A detector that does not see what its reports are finds nothing but reports. -/
theorem SeesOnly.onlyReports {detector : LineDetector} (h : SeesOnly detector check) :
    OnlyReports detector check := by
  classical
  intro line index source f hf
  by_contra hnot
  -- changing whatever is no report of the check would be seen in what is found
  let changed (g : Finding) : Finding :=
    if source.Reports check index g then g else { g with message := g.message ++ "!" }
  have hsame : (detector line index source).map changed = (detector line index source).map id :=
    h ⟨fun _ => rfl, rfl⟩ id changed fun message recommendation =>
      if_pos ⟨message, recommendation, rfl⟩
  have hf' : changed f = f := List.map_inj_left.mp hsame f hf
  have hmessage : f.message ++ "!" = f.message := by
    simpa only [changed, if_neg hnot] using congrArg Finding.message hf'
  simp at hmessage

theorem reportsLines_detectors : detectors.ReportsLines Source.toSourceFile := by
  intro entry hentry line index source f hf
  obtain ⟨check, hname, hsees⟩ := seesOnly_of_mem hentry
  rw [hname]
  exact (hsees.onlyReports line index source f hf).ofFile

/-! ## The findings of a scan -/

variable {path : String} {content : List Char} {components : List String} {found : List Finding}

/-- What the detectors find in a file before it is accepted. -/
def raised (path : String) (content : List Char) (components : List String) : List Finding :=
  let source := Source.of (.ofContent path content) components
  detectors.run source source.lines

/-- A scan succeeds if the file has a path, and without one as long as nothing is found. -/
theorem scan_eq_ok_iff :
    scan path content components = .ok found ↔
      (path ≠ "" ∨ raised path content components = []) ∧
        found = (raised path content components).map Finding.bounded := by
  have hscan : scan path content components = Finding.acceptAll (raised path content components) :=
    rfl
  rw [hscan]
  exact reportsLines_detectors.acceptAll_run_eq_ok_iff

theorem exists_scan (hpath : path ≠ "") (content : List Char) (components : List String) :
    ∃ found, scan path content components = .ok found :=
  ⟨_, scan_eq_ok_iff.mpr ⟨.inl hpath, rfl⟩⟩

/-- Each finding is one of a check, with the severity and the criterion of the check. -/
theorem exists_check_of_mem_scan (hscan : scan path content components = .ok found)
    (hf : f ∈ found) :
    ∃ check : Check,
      f.kind = check.name ∧ f.severity = check.severity ∧ f.wcag = some check.criterion := by
  obtain ⟨-, rfl⟩ := scan_eq_ok_iff.mp hscan
  obtain ⟨raw, hraw, rfl⟩ := List.mem_map.mp hf
  obtain ⟨line, index, -, entry, hentry, hin⟩ := Rule.Registry.mem_run_iff.mp hraw
  obtain ⟨check, -, hsees⟩ := seesOnly_of_mem hentry
  obtain ⟨message, recommendation, rfl⟩ := hsees.onlyReports line index _ raw hin
  exact ⟨check, rfl, rfl, rfl⟩

/-- The findings of one check are what its detector finds line by line, cut to size. -/
theorem filter_scan {detector : LineDetector} (hmem : (check.name, detector) ∈ detectors.entries)
    (hscan : scan path content components = .ok found) :
    found.filter (·.kind = check.name) =
      ((Text.sourceLines content).zipIdx.flatMap fun (line, index) =>
        detector line index (Source.of (.ofContent path content) components)).map
          Finding.bounded := by
  obtain ⟨-, rfl⟩ := scan_eq_ok_iff.mp hscan
  rw [List.filter_map]
  exact congrArg (List.map Finding.bounded)
    (Rule.Registry.filter_run reportsLines_detectors.labelled hmem
      (Source.of (.ofContent path content) components) _)

/-- What one check finds, where its detector reports in the same way whatever it comes upon in a
line. -/
theorem filter_scan_eq_map {β : Type} {detector : LineDetector} {onLine : List Char → Nat → List β}
    {about : β → Finding} (hmem : (check.name, detector) ∈ detectors.entries)
    (hdetector :
      ∀ line index, detector line index (Source.of (.ofContent path content) components) =
      (onLine line index).map about)
    (hscan : scan path content components = .ok found) :
    found.filter (·.kind = check.name) =
      ((Text.sourceLines content).zipIdx.flatMap fun (line, index) => onLine line index).map
        fun b => (about b).bounded := by
  rw [filter_scan hmem hscan]
  simp only [hdetector, List.map_flatMap, List.map_map]
  rfl

/-! ## Blank lines -/

/-- What the detectors look for on a line has text. -/
theorem needsText_of_mem :
    ∀ p ∈ [imageTag, headingOpen, headingElement, formControl, colorLiteral, clickHandler,
      emptyAriaAttribute, openTag, dialogOpen], p.needsText = true := by
  decide +kernel

theorem headingLevels_eq_nil_of_blank (h : Text.isBlankText line = true) :
    headingLevels line = [] := by
  rw [headingLevels, allMatches_eq_nil_of_blank (needsText_of_mem headingOpen (by simp)) h,
    List.map_nil]

theorem passesOverBlanks_detectors : detectors.PassesOverBlanks := by
  intro entry hentry line index source hblank
  have hmatches : ∀ p ∈ [imageTag, headingElement, formControl, emptyAriaAttribute, openTag],
      p.allMatches line = [] := fun p hp =>
    allMatches_eq_nil_of_blank (needsText_of_mem p (by grind)) hblank
  have hoccurs : ∀ p ∈ [colorLiteral, clickHandler, dialogOpen], p.occursIn line = false :=
    fun p hp => occursIn_eq_false_of_blank (needsText_of_mem p (by grind)) hblank
  simp only [List.forall_mem_cons, List.not_mem_nil, false_implies, implies_true,
    and_true] at hmatches hoccurs
  obtain ⟨himage, helement, hcontrol, haria, htag⟩ := hmatches
  obtain ⟨hcolor, hclick, hdialog⟩ := hoccurs
  have htags : imageTags line source = [] := by
    simp [imageTags, himage]
  have hlevels : headingLevels line = [] := headingLevels_eq_nil_of_blank hblank
  simp only [detectors, List.mem_cons, List.not_mem_nil, or_false] at hentry
  rcases hentry with rfl | rfl | rfl | rfl | rfl | rfl | rfl | rfl | rfl | rfl | rfl | rfl | rfl
  · simp [detectMissingAlt, htags]
  · simp [detectEmptyAlt, htags]
  · simp [detectGenericAlt, htags]
  · simp [detectSkippedHeading, hlevels, skippedLevels]
  · simp [detectMultipleH1, hlevels]
  · simp [detectEmptyHeading, helement]
  · simp [detectMissingFormLabel, hcontrol]
  · simp [detectColorContrast, reportIf, hcolor]
  · simp [detectKeyboardNavigation, reportIf, hclick]
  · simp [detectEmptyAria, haria]
  · simp [detectDuplicateAria, htag]
  · simp [detectTabOrderFocus, reportIf, hclick]
  · simp [detectFocusManagement, reportIf, hdialog]

/-! ## Lines in front of a text -/

/-- Below empty lines a line looks as it does in the text. -/
theorem looksAlike_below (check : Check) (line : List Char) (path : String)
    (components : List String) (k : Nat) (lines : List (List Char)) (index : Nat) :
    LooksAlike check line (Source.of ⟨path, lines⟩ components) index
      (Source.of ⟨path, List.replicate k [] ++ lines⟩ components) (k + index) where
  exempt := fun _ => rfl
  before := by
    have habove : ∀ line ∈ List.replicate k ([] : List Char), headingLevels line = [] :=
      fun line hline => headingLevels_eq_nil_of_blank (List.eq_of_mem_replicate hline ▸ rfl)
    have hbefore := FrontendAudit.Source.levelsBefore_below habove lines index
    rwa [List.length_replicate] at hbefore

/-- Below line feeds the detectors find what they find in the text, on lines further down. -/
theorem raised_below (path : String) (content : List Char) (components : List String) (k : Nat) :
    (raised path (List.replicate k '\n' ++ content) components).map (·.bounded.withoutContext) =
      (raised path content components).map (·.bounded.withoutContext.lowered k) := by
  refine passesOverBlanks_detectors.map_run_below (Source.of · components) path content k ?_
  intro entry hentry line index
  obtain ⟨check, -, hsees⟩ := seesOnly_of_mem hentry
  exact hsees (looksAlike_below check line path components k _ index) _ _
    fun message recommendation =>
      SourceFile.findingAt_below List.length_replicate path _ index check.name check.severity
        message recommendation (some check.criterion)

end FrontendAudit.Accessibility
