import FrontendAudit.Proofs.Gate.Growth
import FrontendAudit.Proofs.Rule.Accessibility.Scan
import FrontendAudit.Proofs.Source.Heading

/-!
# Findings about the outline of headings

A scan looks at a file line by line, with the headings of the earlier lines at hand. What it finds
about levels that are skipped is what one pass over all headings finds, whatever lines they stand on
(`skippedHeading_findings`), and it finds every `h1` but the first (`multipleH1_findings`), of which
there is one issue for each line that they stand on.
-/

namespace FrontendAudit.Accessibility

open FrontendAudit.Source (Heading headings headingLevels levelsBefore headings_concat
  pairwise_headings index_lt_of_mem_headings flatMap_levelsBefore_eq)

/-! ## Levels that are skipped -/

/-- A heading below the first level that comes behind headings of which none has the level above
it. -/
def Skips (before : List Heading) (heading : Heading) : Prop :=
  1 < heading.2 ∧ ∀ earlier ∈ before, earlier.2 ≠ heading.2 - 1

instance (before : List Heading) (heading : Heading) : Decidable (Skips before heading) :=
  inferInstanceAs (Decidable (_ ∧ _))

/-- What is known after some headings: their levels, and the headings that skipped a level. -/
structure Outline where
  levels : List Nat
  skipped : List Heading

/-- Goes on to the next heading, which skips a level if no heading before it has the level above its
own. -/
def Outline.follow (outline : Outline) (heading : Heading) : Outline where
  levels := outline.levels ++ [heading.2]
  skipped :=
    if 1 < heading.2 ∧ heading.2 - 1 ∉ outline.levels then outline.skipped ++ [heading]
    else outline.skipped

/-- The outline of some headings, followed from the first to the last. -/
def outline (hs : List Heading) : Outline := hs.foldl Outline.follow ⟨[], []⟩

theorem outline_concat (hs : List Heading) (heading : Heading) :
    outline (hs ++ [heading]) = (outline hs).follow heading := by
  rw [outline, List.foldl_append]
  rfl

theorem levels_outline (hs : List Heading) : (outline hs).levels = hs.map (·.2) := by
  induction hs using List.reverseRecOn with
  | nil => rfl
  | append_singleton hs heading ih =>
      rw [outline_concat, Outline.follow, ih, List.map_append]
      rfl

theorem skips_iff {hs : List Heading} {heading : Heading} :
    Skips hs heading ↔ 1 < heading.2 ∧ heading.2 - 1 ∉ (outline hs).levels := by
  rw [Skips, levels_outline, List.mem_map]
  push Not
  rfl

/-- The headings that skip a level, each told by the headings before it. -/
theorem skipped_outline (hs : List Heading) :
    (outline hs).skipped = (hs.zipIdx.filter fun h => Skips (hs.take h.2) h.1).map (·.1) := by
  induction hs using List.reverseRecOn with
  | nil => rfl
  | append_singleton hs heading ih =>
      -- what stands before another heading than the last is the same without the last
      have hbefore : (hs.zipIdx.filter fun h => Skips ((hs ++ [heading]).take h.2) h.1) =
          hs.zipIdx.filter fun h => Skips (hs.take h.2) h.1 := by
        refine List.filter_congr fun h hmem => ?_
        have hk : h.2 ≤ hs.length := Nat.le_of_lt (List.snd_lt_of_mem_zipIdx hmem)
        rw [List.take_append_of_le_length hk]
      rw [outline_concat, Outline.follow, List.zipIdx_append, List.filter_append, hbefore,
        List.map_append, ← ih]
      by_cases hskips : Skips hs heading
      · rw [if_pos (skips_iff.mp hskips)]
        simp [hskips]
      · rw [if_neg (mt skips_iff.mpr hskips)]
        simp [hskips]

/-- Only which levels were seen matters, and not in what order or how often. -/
theorem skippedLevels_congr {seen seen' : List Nat} (h : ∀ level, level ∈ seen ↔ level ∈ seen')
    (levels : List Nat) : skippedLevels seen levels = skippedLevels seen' levels := by
  induction levels generalizing seen seen' with
  | nil => rfl
  | cons level levels ih =>
      have hcons : ∀ other, other ∈ level :: seen ↔ other ∈ level :: seen' := fun other => by
        rw [List.mem_cons, List.mem_cons, h]
      simp only [skippedLevels, ih hcons, List.contains_eq_mem, h]

/-- Headings of one line skip the levels that the line is found to skip. -/
theorem foldl_follow_line (o : Outline) (levels : List Nat) (index : Nat) :
    (levels.map (index, ·)).foldl Outline.follow o =
      ⟨o.levels ++ levels, o.skipped ++ (skippedLevels o.levels levels).map (index, ·)⟩ := by
  induction levels generalizing o with
  | nil => simp [skippedLevels]
  | cons level levels ih =>
      have hseen : skippedLevels (level :: o.levels) levels =
          skippedLevels (o.levels ++ [level]) levels :=
        skippedLevels_congr (fun other => by simp [or_comm]) levels
      rw [List.map_cons, List.foldl_cons, ih]
      simp only [Outline.follow, skippedLevels, hseen, List.append_assoc, List.singleton_append,
        Bool.and_eq_true, decide_eq_true_eq, Bool.not_eq_true', List.contains_eq_mem,
        decide_eq_false_iff_not]
      by_cases hskips : 1 < level ∧ level - 1 ∉ o.levels <;> simp [hskips]

/-- The headings that the lines are found to skip to, line by line, are those that one pass
finds. -/
theorem flatMap_skippedLevels_eq (lines : List (List Char)) :
    (lines.zipIdx.flatMap fun (line, index) =>
      (skippedLevels (levelsBefore (headings lines) index) (headingLevels line)).map (index, ·)) =
      (outline (headings lines)).skipped := by
  refine flatMap_levelsBefore_eq
    (fun before line index => (skippedLevels before (headingLevels line)).map (index, ·))
    (fun lines => (outline (headings lines)).skipped) rfl ?_ lines
  intro above line
  have hfollow : outline (headings (above ++ [line])) =
      ((headingLevels line).map (above.length, ·)).foldl Outline.follow
        (outline (headings above)) := by
    rw [headings_concat, outline, List.foldl_append]
    rfl
  rw [hfollow, foldl_follow_line, levels_outline]

/-- What is reported about a heading that skips a level: it is about the line of the heading and
names its level. -/
def skippedAt (path : String) (content : List Char) (components : List String) (heading : Heading) :
    Finding :=
  (Source.of (.ofContent path content) components).report .skippedHeading heading.1
    ("Heading level " ++ toString heading.2 ++ " used without previous level "
      ++ toString (heading.2 - 1))
    "Keep heading levels sequential so the outline stays navigable"

/-- The headings that are found to skip a level are those that one pass over all headings of the
file finds, in their order: those below the first level that have no heading of the level above
before them. -/
theorem skippedHeading_findings (path : String) (content : List Char) (components : List String) :
    (path ≠ "" → ∃ found, scan path content components = .ok found) ∧
    (∀ found, scan path content components = .ok found →
      found.filter (·.kind = Check.skippedHeading.name) =
        (outline (headings (Text.sourceLines content))).skipped.map fun heading =>
          (skippedAt path content components heading).bounded) ∧
    ∀ hs, (outline hs).skipped = (hs.zipIdx.filter fun h => Skips (hs.take h.2) h.1).map (·.1) := by
  refine ⟨fun hpath => exists_scan hpath content components, ?_, skipped_outline⟩
  intro found hscan
  have hmem : (Check.skippedHeading.name, detectSkippedHeading) ∈ detectors.entries := by
    simp [detectors]
  have honLine : ∀ line index,
      detectSkippedHeading line index (Source.of (.ofContent path content) components) =
        ((skippedLevels (levelsBefore (headings (Text.sourceLines content)) index)
          (headingLevels line)).map (index, ·)).map (skippedAt path content components) := by
    intro line index
    rw [List.map_map]
    rfl
  rw [filter_scan_eq_map hmem honLine hscan, flatMap_skippedLevels_eq]

/-- A page with a level that is left out, and with more than one `h1`. -/
def unevenPage : List Char :=
  "<h1>Title</h1>\n<p>Intro</p>\n<h3>Details</h3><h2>More</h2><h1>Notes</h1><h1>Rest</h1>".toList

theorem skippedHeading_findings_page :
    ∃ found, scan "page.html" unevenPage [] = .ok found ∧
      found.filter (·.kind = Check.skippedHeading.name) =
        [(skippedAt "page.html" unevenPage [] (2, 3)).bounded] := by
  obtain ⟨hscan, hfound, -⟩ := skippedHeading_findings "page.html" unevenPage []
  obtain ⟨found, hok⟩ := hscan (by decide)
  have hskipped : (outline (headings (Text.sourceLines unevenPage))).skipped = [(2, 3)] := by
    decide +kernel
  refine ⟨found, hok, (hfound found hok).trans ?_⟩
  rw [hskipped]
  rfl

/-! ## First headings -/

/-- The headings of the first level in a text. -/
def firstLevel (lines : List (List Char)) : List Heading :=
  (headings lines).filter (·.2 = 1)

/-- All of them but the first. -/
def laterFirstLevel (lines : List (List Char)) : List Heading := (firstLevel lines).drop 1

theorem firstLevel_concat (above : List (List Char)) (line : List Char) :
    firstLevel (above ++ [line]) =
      firstLevel above ++ List.replicate ((headingLevels line).count 1) (above.length, 1) := by
  have hline : ((headingLevels line).map (above.length, ·)).filter (·.2 = 1) =
      List.replicate ((headingLevels line).count 1) (above.length, 1) := by
    rw [List.filter_map]
    have hlevels :
        (headingLevels line).filter ((fun h : Heading => decide (h.2 = 1)) ∘ (above.length, ·)) =
        List.replicate ((headingLevels line).count 1) 1 := List.filter_eq 1
    rw [hlevels, List.map_replicate]
  rw [firstLevel, headings_concat, List.filter_append, hline]
  rfl

theorem count_levels (lines : List (List Char)) :
    ((headings lines).map (·.2)).count 1 = (firstLevel lines).length := by
  rw [List.count, List.countP_map, List.countP_eq_length_filter, firstLevel]
  exact congrArg List.length (List.filter_congr fun h _ => Bool.eq_iff_iff.mpr (by simp))

/-- What comes behind the first of some headings and some more on one line. -/
theorem drop_one_append_replicate {α : Type} (before : List α) (count : Nat) (a : α) :
    (before ++ List.replicate count a).drop 1 =
      before.drop 1 ++ List.replicate (if before.length = 0 then count - 1 else count) a := by
  cases before with
  | nil => simp
  | cons b before => simp

/-- The lines on which an `h1` is found to be one too many are those of all but the first. -/
theorem flatMap_replicate_eq (lines : List (List Char)) :
    (lines.zipIdx.flatMap fun (line, index) =>
      List.replicate
        (if (levelsBefore (headings lines) index).count 1 = 0 then (headingLevels line).count 1 - 1
          else (headingLevels line).count 1) index) =
      (laterFirstLevel lines).map (·.1) := by
  refine flatMap_levelsBefore_eq
    (fun before line index => List.replicate
      (if before.count 1 = 0 then (headingLevels line).count 1 - 1
        else (headingLevels line).count 1) index)
    (fun lines => (laterFirstLevel lines).map (·.1)) rfl ?_ lines
  intro above line
  rw [laterFirstLevel, laterFirstLevel, firstLevel_concat, drop_one_append_replicate,
    List.map_append, List.map_replicate, count_levels]

/-- What is reported about an `h1` that is not the first, on the line of an index. -/
def repeatedAt (path : String) (content : List Char) (components : List String)
    (index : Nat) : Finding :=
  (Source.of (.ofContent path content) components).report .multipleH1 index
    "Multiple <h1> elements in one file" "Use a single <h1> per page and <h2>-<h6> for sections"

theorem repeatedAt_key_injective (path : String) (content : List Char) (components : List String)
    (i j : Nat) (h : (repeatedAt path content components i).bounded.key =
      (repeatedAt path content components j).bounded.key) : i = j := by
  have hline : (some (i + 1 : Int)) = some (j + 1 : Int) := congrArg Finding.Key.line h
  simpa using hline

/-- Findings about lines in ascending order, told apart by their lines, make one issue for each
line. -/
theorem dedupe_map_eq {about : Nat → Finding} (hkey : ∀ i j, (about i).key = (about j).key → i = j)
    {indices : List Nat} (hascending : indices.Pairwise (· ≤ ·)) {n : Nat}
    (hlt : ∀ i ∈ indices, i < n) :
    dedupe (indices.map about) = ((List.range n).filter (· ∈ indices)).map about := by
  obtain ⟨kept, hkept, heq⟩ := List.sublist_map_iff.mp (dedupeAfter_sublist [] (indices.map about))
  have hdedupe : dedupe (indices.map about) = kept.map about := heq
  have hnodup : kept.Nodup := by
    have hkeys := nodup_keys_dedupeAfter [] (indices.map about)
    rw [heq, List.map_map] at hkeys
    exact List.Nodup.of_map _ hkeys
  have hstrict : kept.Pairwise (· < ·) :=
    (List.Pairwise.and (hascending.sublist hkept) hnodup).imp fun h => Nat.lt_of_le_of_ne h.1 h.2
  have hmem : ∀ i, i ∈ kept ↔ i ∈ indices := by
    refine fun i => ⟨fun h => hkept.subset h, fun h => ?_⟩
    have hin : (about i).key ∈ (dedupe (indices.map about)).map Finding.key :=
      mem_keys_dedupe_iff.mpr (List.mem_map_of_mem (List.mem_map_of_mem h))
    rw [hdedupe, List.map_map] at hin
    obtain ⟨j, hj, hsame⟩ := List.mem_map.mp hin
    exact hkey j i hsame ▸ hj
  have hall : kept = (List.range n).filter (· ∈ indices) := by
    refine hstrict.eq_of_mem_iff (List.pairwise_lt_range.filter _) fun i => ?_
    rw [List.mem_filter, List.mem_range, decide_eq_true_eq, hmem]
    exact (and_iff_right_of_imp (hlt i)).symm
  rw [hdedupe, hall]

/-- The lines of the findings about more than one `h1`. -/
theorem filter_multipleH1 {path : String} {content : List Char} {components : List String}
    {found : List Finding} (hscan : scan path content components = .ok found) :
    found.filter (·.kind = Check.multipleH1.name) =
      ((laterFirstLevel (Text.sourceLines content)).map (·.1)).map fun index =>
        (repeatedAt path content components index).bounded := by
  have hmem : (Check.multipleH1.name, detectMultipleH1) ∈ detectors.entries := by
    simp [detectors]
  have honLine : ∀ line index,
      detectMultipleH1 line index (Source.of (.ofContent path content) components) =
        (List.replicate
          (if (levelsBefore (headings (Text.sourceLines content)) index).count 1 = 0 then
            (headingLevels line).count 1 - 1
          else (headingLevels line).count 1) index).map (repeatedAt path content components) := by
    intro line index
    rw [List.map_replicate]
    rfl
  rw [filter_scan_eq_map hmem honLine hscan, flatMap_replicate_eq]

/-- Every `h1` of a file but the first is found, on its line and in order, and among the issues of
the file there is one for each line that such an `h1` stands on. -/
theorem multipleH1_findings (path : String) (content : List Char) (components : List String) :
    (path ≠ "" → ∃ found, scan path content components = .ok found) ∧
    ∀ found, scan path content components = .ok found →
      found.filter (·.kind = Check.multipleH1.name) =
          (laterFirstLevel (Text.sourceLines content)).map
            (fun h1 => (repeatedAt path content components h1.1).bounded) ∧
        (found.filter (·.kind = Check.multipleH1.name)).length =
          (firstLevel (Text.sourceLines content)).length - 1 ∧
        ∀ now time, (summarize now found time).issues.filter (·.kind = Check.multipleH1.name) =
          ((List.range (Text.sourceLines content).length).filter fun i =>
              ∃ h1 ∈ laterFirstLevel (Text.sourceLines content), h1.1 = i).map
            fun i => (repeatedAt path content components i).bounded := by
  refine ⟨fun hpath => exists_scan hpath content components, ?_⟩
  intro found hscan
  have hfound := filter_multipleH1 hscan
  have hascending : ((laterFirstLevel (Text.sourceLines content)).map (·.1)).Pairwise (· ≤ ·) :=
    List.pairwise_map.mpr (((pairwise_headings _).filter _).sublist (List.drop_sublist 1 _))
  have hlt : ∀ i ∈ (laterFirstLevel (Text.sourceLines content)).map (·.1),
      i < (Text.sourceLines content).length := by
    intro i hi
    obtain ⟨h1, hmem, rfl⟩ := List.mem_map.mp hi
    exact index_lt_of_mem_headings (List.mem_filter.mp (List.mem_of_mem_drop hmem)).1
  refine ⟨?_, ?_, fun now time => ?_⟩
  · rw [hfound, List.map_map]
    rfl
  · rw [hfound, List.length_map, List.length_map, laterFirstLevel, List.length_drop]
  · have hissues : (summarize now found time).issues = dedupe found := rfl
    rw [hissues, filter_kind_dedupe, hfound,
      dedupe_map_eq (repeatedAt_key_injective path content components) hascending hlt]
    refine congrArg (List.map _) (List.filter_congr fun i _ => ?_)
    rw [decide_eq_decide, List.mem_map]

theorem multipleH1_findings_page :
    ∃ found, scan "page.html" unevenPage [] = .ok found ∧
      found.filter (·.kind = Check.multipleH1.name) =
        [(repeatedAt "page.html" unevenPage [] 2).bounded,
          (repeatedAt "page.html" unevenPage [] 2).bounded] ∧
      (summarize "now" found).issues.filter (·.kind = Check.multipleH1.name) =
        [(repeatedAt "page.html" unevenPage [] 2).bounded] := by
  obtain ⟨hscan, hfound⟩ := multipleH1_findings "page.html" unevenPage []
  obtain ⟨found, hok⟩ := hscan (by decide)
  obtain ⟨hrepeated, -, hissues⟩ := hfound found hok
  have hlater : laterFirstLevel (Text.sourceLines unevenPage) = [(2, 1), (2, 1)] := by
    decide +kernel
  have hlines : (Text.sourceLines unevenPage).length = 3 := by
    decide
  refine ⟨found, hok, hrepeated.trans ?_, (hissues "now" none).trans ?_⟩
  · rw [hlater]
    rfl
  · simp only [hlater, hlines]
    rfl

end FrontendAudit.Accessibility
