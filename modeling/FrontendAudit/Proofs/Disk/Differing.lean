import FrontendAudit.Proofs.Disk.Filled

/-!
# Volumes that differ in some files

Two volumes with the same files may refuse different writes. When files are written in some places
of both, they differ in those that one of them refused (`Volume.SameBut`). What a category finds
depends on which files there are, in whatever order (`Category.files_eq_of_paths`); so it finds the
same in both volumes if it looks at none of the files in which they differ
(`Category.files_eq_of_sameBut`).
-/

namespace FrontendAudit

namespace Disk

/-! ## Sorted paths -/

theorem pairwise_le_sortPaths (paths : List String) : (sortPaths paths).Pairwise (· ≤ ·) := by
  refine (List.pairwise_mergeSort (fun a b c hab hbc => ?_) (fun a b => ?_) paths).imp
    of_decide_eq_true
  · rw [decide_eq_true_eq] at hab hbc ⊢
    exact String.le_trans hab hbc
  · rw [Bool.or_eq_true, decide_eq_true_eq, decide_eq_true_eq]
    exact String.le_total a b

/-- Sorted, paths are the same when they are the same as a set. -/
theorem sortPaths_eraseDups_eq {paths paths' : List String}
    (h : ∀ path, path ∈ paths ↔ path ∈ paths') :
    sortPaths paths.eraseDups = sortPaths paths'.eraseDups := by
  have hperm : paths.eraseDups.Perm paths'.eraseDups := by
    refine (List.perm_ext_iff_of_nodup (nodup_eraseDups paths) (nodup_eraseDups paths')).mpr ?_
    intro path
    rw [List.mem_eraseDups, List.mem_eraseDups]
    exact h path
  exact List.Perm.eq_of_pairwise (fun a b _ _ => String.le_antisymm) (pairwise_le_sortPaths _)
    (pairwise_le_sortPaths _)
      ((List.mergeSort_perm _ _).trans (hperm.trans (List.mergeSort_perm _ _).symm))

/-! ## Paths of files -/

theorem Tree.mem_of_named? {name : String} {t : Tree} {entries : List (String × Tree)}
    (h : named? name entries = some t) : (name, t) ∈ entries := by
  obtain ⟨⟨other, t'⟩, hfind, rfl⟩ := Option.map_eq_some_iff.mp h
  obtain rfl : other = name := by simpa using List.find?_some hfind
  exact List.mem_of_find?_eq_some hfind

theorem Tree.mem_paths_of_file? {t : Tree} {names : List String} {d : FileData}
    (h : t.file? names = some d) : names ∈ t.paths := by
  induction names generalizing t with
  | nil =>
      cases t with
      | file d' => exact List.mem_singleton.mpr rfl
      | dir entries => cases h
  | cons name names ih =>
      cases t with
      | file d' => cases h
      | dir entries =>
          cases hnamed : named? name entries with
          | none =>
              rw [file?, at?, hnamed] at h
              cases h
          | some below =>
              rw [file?, at?, hnamed] at h
              rw [paths_dir]
              exact List.mem_flatMap.mpr ⟨(name, below), mem_of_named? hnamed,
                List.mem_map_of_mem (ih h)⟩

namespace Volume

variable {places : List (List String)} {v v' : Volume} {directory : List String}
  {entries entries' : List (String × Tree)}

/-- The files of a directory after some writes are those before and those that are there now. -/
theorem Filled.mem_paths_iff (h : Filled places v v')
    (hbefore : v.tree.at? directory = some (.dir entries))
    (hafter : v'.tree.at? directory = some (.dir entries')) (names : List String) :
    names ∈ (Tree.dir entries').paths ↔ names ∈ (Tree.dir entries).paths ∨
      (v'.tree.file? (directory ++ names)).isSome = true := by
  induction h generalizing entries' with
  | unwritten =>
      obtain rfl := Tree.dir.inj (Option.some.inj (hbefore.symm.trans hafter))
      constructor
      · exact .inl
      · rintro (hmem | hfile)
        · exact hmem
        · obtain ⟨d, hd⟩ := Option.isSome_iff_exists.mp hfile
          exact Tree.mem_paths_of_file? ((Tree.file?_append hafter names).trans hd)
  | @write v₁ v₂ place d before hplace hwrite ih =>
      obtain ⟨entries₁, hbetween, -⟩ := before.directory hbefore
      obtain ⟨entries₂, hafter₂, hstep⟩ := directory_write? hwrite hbetween
      obtain rfl : entries₂ = entries' := Tree.dir.inj (Option.some.inj (hafter₂.symm.trans hafter))
      by_cases hhere : directory ++ names = place
      · -- the file that was written is there
        have hwritten : v₂.tree.file? (directory ++ names) = some d := by
          rw [hhere]
          exact file?_write?_self hwrite
        have hmem : names ∈ (Tree.dir entries₂).paths :=
          Tree.mem_paths_of_file? ((Tree.file?_append hafter names).trans hwritten)
        simp [hmem, hwritten]
      · -- any other is there or not as it was before this write
        have hkept : names ∈ (Tree.dir entries₂).paths ↔ names ∈ (Tree.dir entries₁).paths := by
          let isHere (other : List String) : Bool := decide (other = names)
          have hpaths := hstep isHere fun other _ hother => decide_eq_false fun heq =>
            hhere (heq ▸ hother)
          have hfiltered : names ∈ (Tree.dir entries₂).paths.filter isHere ↔
              names ∈ (Tree.dir entries₁).paths.filter isHere := by rw [hpaths]
          simpa [List.mem_filter, isHere] using hfiltered
        rw [hkept, ih hbetween, file?_write?_of_ne hwrite hhere]

/-! ## Writing to both -/

/-- Whether a file can be written at a place. -/
def takes (v : Volume) (place : List String) : Bool := (v.write? place (.text "")).isSome

/-- What can be written in one of the places could be written there from the start, whatever it
is. -/
theorem Filled.isSome_write?_eq_takes (h : Filled places v v') (hapart : Apart places)
    {place : List String} (hplace : place ∈ places) (d : FileData) :
    (v'.write? place d).isSome = v.takes place := by
  rw [h.isSome_write?_eq hapart hplace, Bool.eq_iff_iff, takes, isSome_write?_iff,
    isSome_write?_iff]

/-- Volumes that come from two others by writing files in some places of both, and that have the
same files but for the places of reports. -/
structure SameBut (v₀ v₀' : Volume) (places reports : List (List String))
    (v v' : Volume) : Prop where
  filled : v₀.Filled places v
  filled' : v₀'.Filled places v'
  files : ∀ path, path ∉ reports → v.tree.file? path = v'.tree.file? path

theorem file?_getD_of_ne {place other : List String} (hne : other ≠ place) (d : FileData) :
    ((v.write? place d).getD v).tree.file? other = v.tree.file? other := by
  cases hwrite : v.write? place d with
  | none => rfl
  | some v' => exact file?_write?_of_ne hwrite hne

theorem file?_getD_append?_of_ne {place other : List String} (hne : other ≠ place)
    (more : String) :
    ((v.append? place more).getD v).tree.file? other = v.tree.file? other :=
  append?_induction (P := fun u => u.tree.file? other = v.tree.file? other) rfl
    (file?_getD_of_ne hne) more

namespace SameBut

variable {v₀ v₀' : Volume} {reports : List (List String)}

theorem mono (h : SameBut v₀ v₀' places reports v v') {more : List (List String)}
    (hmore : ∀ place ∈ reports, place ∈ more) : SameBut v₀ v₀' places more v v' :=
  ⟨h.filled, h.filled', fun path hpath => h.files path fun hmem => hpath (hmore path hmem)⟩

/-- The same text is written to both, or to neither where both refuse it. -/
theorem write (h : SameBut v₀ v₀' places reports v v') (htree : v₀'.tree = v₀.tree)
    (hapart : Apart places) {place : List String} (hplace : place ∈ places)
    (hrefuses : v₀'.refuses place = v₀.refuses place) (d : FileData) :
    (v.write? place d).isSome = (v'.write? place d).isSome ∧
      SameBut v₀ v₀' places reports ((v.write? place d).getD v) ((v'.write? place d).getD v') := by
  have hsame : (v.write? place d).isSome = (v'.write? place d).isSome := by
    rw [h.filled.isSome_write?_eq hapart hplace, h.filled'.isSome_write?_eq hapart hplace,
      Bool.eq_iff_iff, isSome_write?_iff, isSome_write?_iff, htree, hrefuses]
  refine ⟨hsame, h.filled.getD hplace d, h.filled'.getD hplace d, fun path hpath => ?_⟩
  by_cases hhere : path = place
  · -- here both hold the new text, or both what they held before
    subst hhere
    cases hwrite : v.write? path d with
    | none =>
        rw [hwrite, Option.isSome_none] at hsame
        rw [Option.isNone_iff_eq_none.mp (Option.isSome_eq_false_iff.mp hsame.symm)]
        exact h.files path hpath
    | some u =>
        rw [hwrite, Option.isSome_some] at hsame
        obtain ⟨u', hwrite'⟩ := Option.isSome_iff_exists.mp hsame.symm
        rw [hwrite']
        exact (file?_write?_self hwrite).trans (file?_write?_self hwrite').symm
  · rw [file?_getD_of_ne hhere, file?_getD_of_ne hhere]
    exact h.files path hpath

/-- A report may be written to one of the two only, or different ones to both. -/
theorem write_report (h : SameBut v₀ v₀' places reports v v') {place : List String}
    (hplace : place ∈ places) (hreport : place ∈ reports) (d d' : FileData) :
    SameBut v₀ v₀' places reports ((v.write? place d).getD v) ((v'.write? place d').getD v') := by
  refine ⟨h.filled.getD hplace d, h.filled'.getD hplace d', fun path hpath => ?_⟩
  have hne : path ≠ place := by
    rintro rfl
    exact hpath hreport
  rw [file?_getD_of_ne hne, file?_getD_of_ne hne]
  exact h.files path hpath

/-- The same text is put behind a file of both, where it is there. -/
theorem append (h : SameBut v₀ v₀' places reports v v') (htree : v₀'.tree = v₀.tree)
    (hapart : Apart places) {place : List String} (hplace : place ∈ places)
    (hrefuses : v₀'.refuses place = v₀.refuses place) (more : String) :
    SameBut v₀ v₀' places reports ((v.append? place more).getD v)
      ((v'.append? place more).getD v') := by
  refine ⟨h.filled.append hplace more, h.filled'.append hplace more, fun path hpath => ?_⟩
  by_cases hhere : path = place
  · -- here both hold the same, so that the same is written
    subst hhere
    rw [append?, append?, ← h.files path hpath]
    cases v.tree.file? path with
    | none => exact h.files path hpath
    | some d => exact (h.write htree hapart hplace hrefuses (d.append more)).2.files path hpath
  · rw [file?_getD_append?_of_ne hhere, file?_getD_append?_of_ne hhere]
    exact h.files path hpath

end SameBut

end Volume

end Disk

/-! ## What a category finds -/

open Disk

namespace Category

variable {c : Config} {category : Category}

/-- What a project excludes decides, with the settings, which files a category looks at. -/
theorem looksAt_congr {project project' : Tree}
    (h : projectIgnorePatterns project = projectIgnorePatterns project') (names : List String) :
    category.LooksAt c project names ↔ category.LooksAt c project' names := by
  have hgroups : category.patternGroups c project = category.patternGroups c project' := by
    rw [patternGroups, patternGroups, h]
  rw [LooksAt, LooksAt, hgroups]

theorem mem_selectedFiles {s : Selection} {entries : List (String × Tree)} {path : String} :
    path ∈ selectedFiles s (.dir entries) ↔
      ∃ names ∈ (Tree.dir entries).paths, s.finds names = true ∧ relativePath names = path := by
  rw [selectedFiles_eq, mem_sortPaths, List.mem_map]
  simp only [List.mem_filter, and_assoc]
  rfl

/-- A category finds what its selections find, sorted and each once. -/
theorem files_eq (c : Config) (category : Category) (entries : List (String × Tree)) :
    category.files c (.dir entries) =
      ((category.patternGroups c (.dir entries)).mapM Selection.ofPatterns).map fun selections =>
        sortPaths (selections.flatMap (selectedFiles · (.dir entries))).eraseDups := by
  have hmatching : (category.patternGroups c (.dir entries)).mapM
      (filesMatching · (some (.dir entries))) = _ :=
    mapM_map Selection.ofPatterns (selectedFiles · (.dir entries)) _
  unfold files
  rw [hmatching]
  cases (category.patternGroups c (.dir entries)).mapM Selection.ofPatterns <;> rfl

/-- The order of the files in a project does not matter. -/
theorem files_eq_of_paths {entries entries' : List (String × Tree)}
    (hignore : projectIgnorePatterns (.dir entries) = projectIgnorePatterns (.dir entries'))
    (h : ∀ names, category.LooksAt c (.dir entries) names →
      (names ∈ (Tree.dir entries).paths ↔ names ∈ (Tree.dir entries').paths)) :
    category.files c (.dir entries) = category.files c (.dir entries') := by
  have hgroups :
      category.patternGroups c (.dir entries') = category.patternGroups c (.dir entries) := by
    rw [patternGroups, patternGroups, hignore]
  rw [files_eq, files_eq, hgroups]
  cases hselections : (category.patternGroups c (.dir entries)).mapM Selection.ofPatterns with
  | error e => rfl
  | ok selections =>
      refine congrArg Except.ok (sortPaths_eraseDups_eq fun path => ?_)
      simp only [List.mem_flatMap, mem_selectedFiles]
      -- a file that one of the selections finds is one that the category looks at
      refine exists_congr fun s => and_congr_right fun hs => exists_congr fun names => ?_
      obtain ⟨group, hgroup, hselection⟩ := exists_of_mem_mapM hselections hs
      by_cases hfinds : s.finds names = true
      · rw [h names ⟨group, hgroup, s, hselection, hfinds⟩]
      · simp [hfinds]

section

variable {places reports : List (List String)} {v₀ v₀' v v' : Volume} {directory : List String}
  {entries₀ entries entries' : List (String × Tree)}

/-- A category that looks at no report finds the same in both volumes. -/
theorem files_eq_of_sameBut (h : Volume.SameBut v₀ v₀' places reports v v')
    (htree : v₀'.tree = v₀.tree) (hstart : v₀.tree.at? directory = some (.dir entries₀))
    (hafter : v.tree.at? directory = some (.dir entries))
    (hafter' : v'.tree.at? directory = some (.dir entries'))
    (hignore : directory ++ [ignoreFileName] ∉ places)
    (hunseen : ∀ names, names ≠ [] → directory ++ names ∈ reports →
      ¬ category.LooksAt c (.dir entries₀) names) :
    category.files c (.dir entries) = category.files c (.dir entries') := by
  have hstart' : v₀'.tree.at? directory = some (.dir entries₀) := by rw [htree, hstart]
  have hpatterns := ignorePatterns_of_filled h.filled hstart hafter hignore
  have hpatterns' := ignorePatterns_of_filled h.filled' hstart' hafter' hignore
  refine files_eq_of_paths (hpatterns.trans hpatterns'.symm) fun names hlooks => ?_
  by_cases hne : names = []
  · subst hne
    constructor
    · intro hmem
      exact absurd rfl (Tree.ne_nil_of_mem_paths hmem)
    · intro hmem
      exact absurd rfl (Tree.ne_nil_of_mem_paths hmem)
  · have hfile : v.tree.file? (directory ++ names) = v'.tree.file? (directory ++ names) :=
      h.files _ fun hmem => hunseen names hne hmem ((looksAt_congr hpatterns names).mp hlooks)
    rw [h.filled.mem_paths_iff hstart hafter, h.filled'.mem_paths_iff hstart' hafter', hfile]

end

end Category

end FrontendAudit
