import FrontendAudit.Proofs.Rule.Accessibility.Order
import FrontendAudit.Proofs.Rule.Accessibility.Scan

/-!
# Components that take care of accessibility

A component is used on a line where its name, whatever characters it has, stands right behind a `<`
and ends at the edge of a word (`Uses`). With more components a scan leaves out the findings about
images on the lines that use one of them, and nothing else (`scan_of_more_components`).
-/

namespace FrontendAudit.Accessibility

open Pattern

variable {path : String} {content line : List Char} {name : String} {components more : List String}
  {lines : List (List Char)} {source : Source} {check : Check} {index : Nat} {f : Finding}

/-! ## Uses of components -/

/-- The component is used on the line: its name stands right behind a `<` and ends at the edge of a
word. -/
def Uses (line : List Char) (name : String) : Prop :=
  ∃ above below, line = above ++ '<' :: (name.toList ++ below) ∧
    Text.isBoundary (behind (some '<') name.toList) below.head? = true

theorem occursIn_componentUse_iff : (componentUse name).occursIn line = true ↔ Uses line name := by
  have hnames : CoversNames (word name) (· = name.toList) :=
    ⟨recalls_word name, fun _ _ _ => covers_word_iff⟩
  rw [componentUse_eq_openingOf, occursIn_openingOf_iff hnames]
  constructor
  · rintro ⟨above, _, rfl, _, below, rfl, rfl, hboundary⟩
    exact ⟨above, below, rfl, hboundary⟩
  · rintro ⟨above, below, rfl, hboundary⟩
    exact ⟨above, _, rfl, name.toList, below, rfl, rfl, hboundary⟩

instance : DecidableRel Uses := fun _ _ => decidable_of_iff _ occursIn_componentUse_iff

theorem usesComponent_iff :
    usesComponent line components = true ↔ ∃ name ∈ components, Uses line name := by
  simp only [usesComponent, List.any_eq_true, occursIn_componentUse_iff]

theorem usesComponent_mono (hmore : components ⊆ more) (h : usesComponent line components = true) :
    usesComponent line more = true := by
  obtain ⟨name, hname, huses⟩ := usesComponent_iff.mp h
  exact usesComponent_iff.mpr ⟨name, hmore hname, huses⟩

/-- Where a component is used, the detectors of images report nothing. -/
theorem eq_nil_of_usesComponent {entry : String × LineDetector} (hentry : entry ∈ detectors.entries)
    (himage : entry.1 ∈ imageChecks.map Check.name)
    (huses : usesComponent line source.components = true) (index : Nat) :
    entry.2 line index source = [] := by
  have htags : imageTags line source = [] := if_pos huses
  obtain ⟨hmissing, hempty, hgeneric⟩ := detectors_of_imageTags_eq_nil htags index
  simp only [detectors, List.mem_cons, List.not_mem_nil, or_false] at hentry
  rcases hentry with rfl | rfl | rfl | rfl | rfl | rfl | rfl | rfl | rfl | rfl | rfl | rfl | rfl
  · exact hmissing
  · exact hempty
  · exact hgeneric
  all_goals exact absurd himage (by decide)

/-! ## Findings that are left out -/

/-- The finding is of a check of images, and one of the components is used on its line. -/
def IsExempt (lines : List (List Char)) (components : List String) (f : Finding) : Prop :=
  f.kind ∈ imageChecks.map Check.name ∧
    ∃ numbered ∈ lines.zipIdx, f.line = some ((numbered.2 : Int) + 1) ∧
      ∃ name ∈ components, Uses numbered.1 name

instance : DecidablePred (IsExempt lines components) := fun _ => inferInstanceAs (Decidable (_ ∧ _))

theorem isExempt_iff_of_reports (hline : (line, index) ∈ lines.zipIdx)
    (hreports : source.Reports check index f) :
    IsExempt lines components f ↔
      check.name ∈ imageChecks.map Check.name ∧ usesComponent line components = true := by
  obtain ⟨message, recommendation, rfl⟩ := hreports
  refine and_congr_right fun _ => ?_
  rw [usesComponent_iff]
  constructor
  · rintro ⟨⟨line', index'⟩, hline', hindex, huses⟩
    have hsame : index = index' := by
      have hint : ((index : Int) + 1) = index' + 1 := Option.some.inj hindex
      omega
    subst hsame
    rw [List.mk_mem_zipIdx_iff_getElem?] at hline hline'
    obtain rfl : line = line' := Option.some.inj (hline.symm.trans hline')
    exact huses
  · exact fun huses => ⟨(line, index), hline, rfl, huses⟩

/-- A line looks alike with more components, unless a check is of images and one of them is used
there. -/
theorem looksAlike_of_more_components (hmore : components ⊆ more)
    (hnot : ¬(check ∈ imageChecks ∧ usesComponent line more = true)) (file : SourceFile)
    (index : Nat) :
    LooksAlike check line (Source.of file components) index (Source.of file more) index where
  exempt := fun hcheck => by
    have hmany : ¬usesComponent line more = true := fun huses => hnot ⟨hcheck, huses⟩
    have hfew : ¬usesComponent line components = true :=
      fun huses => hmany (usesComponent_mono hmore huses)
    exact (Bool.eq_false_iff.mpr hmany).trans (Bool.eq_false_iff.mpr hfew).symm
  before := rfl

/-- On one line a detector leaves out what it finds there, if a component exempts it, and else
nothing. -/
theorem detector_of_more_components {entry : String × LineDetector} {file : SourceFile}
    (hmore : components ⊆ more) (hentry : entry ∈ detectors.entries)
    (hline : (line, index) ∈ file.lines.zipIdx) :
    entry.2 line index (Source.of file more) =
      (entry.2 line index (Source.of file components)).filter fun f =>
        ¬IsExempt file.lines more f := by
  obtain ⟨check, hname, hsees⟩ := seesOnly_of_mem hentry
  have hexempt : ∀ f ∈ entry.2 line index (Source.of file components),
      (IsExempt file.lines more f ↔
        entry.1 ∈ imageChecks.map Check.name ∧ usesComponent line more = true) := by
    intro f hf
    rw [hname]
    exact isExempt_iff_of_reports hline (hsees.onlyReports line index _ f hf)
  -- either all that is found here is left out, or fewer components let the detector see the same
  by_cases himage : entry.1 ∈ imageChecks.map Check.name ∧ usesComponent line more = true
  · rw [eq_nil_of_usesComponent hentry himage.1 himage.2 index, eq_comm, List.filter_eq_nil_iff]
    intro f hf
    simpa using (hexempt f hf).mpr himage
  · have halike :
        LooksAlike check line (Source.of file components) index (Source.of file more) index :=
      looksAlike_of_more_components hmore
        (fun h => himage ⟨hname ▸ List.mem_map_of_mem h.1, h.2⟩) file index
    have hsame :
        entry.2 line index (Source.of file more) =
          entry.2 line index (Source.of file components) := by
      simpa using hsees halike id id fun _ _ => rfl
    rw [hsame, eq_comm, List.filter_eq_self]
    intro f hf
    simpa using (hexempt f hf).not.mpr himage

theorem raised_of_more_components (hmore : components ⊆ more) (path : String)
    (content : List Char) :
    raised path content more =
      (raised path content components).filter fun f =>
        ¬IsExempt (Text.sourceLines content) more f :=
  Rule.Registry.run_eq_filter fun _ hentry _ _ hline =>
    detector_of_more_components hmore hentry hline

/-- With more components a scan finds the same in the same order, but for the findings of the checks
of images on the lines on which one of the components is used. -/
theorem scan_of_more_components (hmore : components ⊆ more) (path : String) (content : List Char) :
    (path ≠ "" → ∃ found, scan path content components = .ok found) ∧
    ∀ found, scan path content components = .ok found →
      scan path content more =
        .ok (found.filter fun f => ¬IsExempt (Text.sourceLines content) more f) := by
  refine ⟨fun hpath => exists_scan hpath content components, fun found hscan => ?_⟩
  obtain ⟨haccepted, rfl⟩ := scan_eq_ok_iff.mp hscan
  have hraised := raised_of_more_components hmore path content
  refine scan_eq_ok_iff.mpr
    ⟨haccepted.imp_right fun hnone => by rw [hraised, hnone, List.filter_nil], ?_⟩
  rw [hraised, List.filter_map]
  rfl

/-- A page on whose first line a component is used beside an image. -/
def framedPage : List Char :=
  "<My.Frame$ /><img src=\"a.png\"><h2>News</h2>\n<img src=\"b.png\"><My.Frames>".toList

theorem scan_of_more_components_framed :
    ∃ found found', scan "page.jsx" framedPage ["Photo"] = .ok found ∧
      scan "page.jsx" framedPage ["Photo", "My.Frame"] = .ok found' ∧
      found' =
        found.filter (fun f => ¬IsExempt (Text.sourceLines framedPage) ["Photo", "My.Frame"] f) ∧
      found.map (fun f => (f.line, f.kind)) =
        [(some 1, "missing_alt"), (some 1, "skipped_heading"), (some 2, "missing_alt")] ∧
      found'.map (fun f => (f.line, f.kind)) =
        [(some 1, "skipped_heading"), (some 2, "missing_alt")] := by
  have hmore : ["Photo"] ⊆ ["Photo", "My.Frame"] := by simp
  obtain ⟨hexists, hfilter⟩ := scan_of_more_components hmore "page.jsx" framedPage
  obtain ⟨found, hscan⟩ := hexists (by decide)
  refine ⟨found, _, hscan, hfilter found hscan, rfl, ?_, ?_⟩
  · rw [(scan_eq_ok_iff.mp hscan).2]
    decide +kernel
  · rw [(scan_eq_ok_iff.mp (hfilter found hscan)).2]
    decide +kernel

end FrontendAudit.Accessibility
