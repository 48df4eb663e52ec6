import FrontendAudit.Disk.Category
import FrontendAudit.Proofs.Disk.Walk
import FrontendAudit.Proofs.Disk.Write
import FrontendAudit.Proofs.Fallible

/-!
# Volumes into which files are written

One volume comes from another by writing files in some places (`Volume.Filled`). All other files
stay as they are, a directory stays one, and whether something can be written in one of the places
stays as it is. So a category finds the same files in a project, unless it looks at one of the
places (`Category.files_eq_of_filled`).
-/

namespace FrontendAudit

namespace Disk

/-! ## Trees -/

namespace Tree

theorem paths_file (d : FileData) : (Tree.file d).paths = [[]] := rfl

theorem paths_dir (entries : List (String × Tree)) :
    (Tree.dir entries).paths = entries.flatMap fun e => e.2.paths.map (e.1 :: ·) := by
  rw [paths, files]
  induction entries with
  | nil => rfl
  | cons e entries ih =>
      obtain ⟨name, t⟩ := e
      rw [filesOf, List.map_append, ih, List.flatMap_cons, List.nil_append, files_cons,
        List.map_map, paths, List.map_map]
      rfl

theorem ne_nil_of_mem_paths {entries : List (String × Tree)} {names : List String}
    (h : names ∈ (Tree.dir entries).paths) : names ≠ [] := by
  obtain ⟨f, hf, rfl⟩ := List.mem_map.mp h
  exact ne_nil_of_mem_filesOf f hf

/-- Replacing an entry changes nothing that is the same for the new tree and the one before. -/
theorem flatMap_setEntry {f : String × Tree → List (List String)} {name : String} {t : Tree}
    {entries : List (String × Tree)}
    (h : f (name, t) = f (name, (named? name entries).getD (.dir [])))
    (hnothing : f (name, .dir []) = []) :
    (setEntry name t entries).flatMap f = entries.flatMap f := by
  induction entries with
  | nil =>
      have hnew : f (name, t) = [] := h.trans hnothing
      rw [setEntry, List.flatMap_cons, hnew]
      rfl
  | cons e entries ih =>
      by_cases he : e.1 = name
      · have hbefore : named? name (e :: entries) = some e.2 := by simp [named?, he]
        rw [hbefore, Option.getD_some, ← he] at h
        rw [setEntry, if_pos he, List.flatMap_cons, List.flatMap_cons, ← he, h]
      · have hbefore : named? name (e :: entries) = named? name entries := by simp [named?, he]
        rw [hbefore] at h
        rw [setEntry, if_neg he, List.flatMap_cons, List.flatMap_cons, ih h]

/-- A file that is put where there is no directory changes nothing about the other files. -/
theorem filter_paths_put? {path : List String} {t t' : Tree} {d : FileData}
    (h : t.put? path (.file d) = some t')
    (halone : ∀ t₀, t.at? path = some t₀ → ∀ names ∈ t₀.paths, names = [])
    {keep : List String → Bool} (hkeep : keep path = false) :
    t'.paths.filter keep = t.paths.filter keep := by
  induction path generalizing t t' keep with
  | nil =>
      obtain rfl : Tree.file d = t' := Option.some.inj h
      rw [paths_file, List.filter_eq_nil_iff.mpr, List.filter_eq_nil_iff.mpr]
      · intro names hnames
        rw [halone t rfl names hnames, hkeep]
        exact Bool.false_ne_true
      · intro names hnames
        rw [List.mem_singleton.mp hnames, hkeep]
        exact Bool.false_ne_true
  | cons name path ih =>
      obtain ⟨entries, below, rfl, hput, rfl⟩ := put?_cons_eq_some.mp h
      have hbelow : below.paths.filter (fun names => keep (name :: names)) =
          ((named? name entries).getD (.dir [])).paths.filter fun names =>
            keep (name :: names) := by
        refine ih hput ?_ hkeep
        intro t₀ ht₀ names hnames
        cases hnamed : named? name entries with
        | none =>
            -- a directory that is made on the way has no files
            rw [hnamed, Option.getD_none] at ht₀
            cases path with
            | nil =>
                obtain rfl : Tree.dir [] = t₀ := Option.some.inj ht₀
                cases hnames
            | cons _ _ => cases ht₀
        | some t₁ =>
            rw [hnamed, Option.getD_some] at ht₀
            refine halone t₀ ?_ names hnames
            rw [at?, hnamed]
            exact ht₀
      simp only [paths_dir, List.filter_flatMap, List.filter_map]
      refine flatMap_setEntry ?_ rfl
      exact congrArg (List.map (name :: ·)) hbelow

/-- What is put below a directory is put into what is there. -/
theorem at?_put?_front {front back : List String} {t t' new below : Tree}
    (h : t.put? (front ++ back) new = some t') (hfront : t.at? front = some below) :
    ∃ below', t'.at? front = some below' ∧ below.put? back new = some below' := by
  induction front generalizing t t' with
  | nil =>
      obtain rfl : t = below := Option.some.inj hfront
      exact ⟨t', rfl, h⟩
  | cons name front ih =>
      obtain ⟨entries, t₁, rfl, hput, rfl⟩ := put?_cons_eq_some.mp h
      cases hnamed : named? name entries with
      | none =>
          rw [at?, hnamed] at hfront
          cases hfront
      | some t₂ =>
          rw [at?, hnamed, Option.bind_some] at hfront
          rw [hnamed, Option.getD_some] at hput
          obtain ⟨below', hat, hbelow⟩ := ih hput hfront
          refine ⟨below', ?_, hbelow⟩
          rw [at?, named?_setEntry_self, Option.bind_some, hat]

end Tree

/-! ## Volumes -/

/-- No place lies below another. -/
def Apart (places : List (List String)) : Prop :=
  ∀ place ∈ places, ∀ place' ∈ places, place <+: place' → place = place'

namespace Volume

/-- A volume becomes another when files are written in some of the places. -/
inductive Filled (places : List (List String)) (v : Volume) : Volume → Prop
  | unwritten : Filled places v v
  | write {v' v'' : Volume} {place : List String} {d : FileData} (before : Filled places v v')
      (hplace : place ∈ places) (hwrite : v'.write? place d = some v'') : Filled places v v''

section

variable {places : List (List String)} {v v' : Volume}

/-- A directory with files is still one after a write, and all files in it but the one that was
written are the same. -/
theorem directory_write? {place directory : List String} {d : FileData}
    {entries : List (String × Tree)} (h : v.write? place d = some v')
    (hdirectory : v.tree.at? directory = some (.dir entries)) :
    ∃ entries', v'.tree.at? directory = some (.dir entries') ∧
      ∀ keep : List String → Bool,
        (∀ names, names ≠ [] → directory ++ names = place → keep names = false) →
        (Tree.dir entries').paths.filter keep = (Tree.dir entries).paths.filter keep := by
  by_cases hbelow : directory <+: place
  · have hwrite := write?_eq_some_iff.mp h
    obtain ⟨-, hdir, tree, hput, rfl⟩ := hwrite
    obtain ⟨rest, rfl⟩ := hbelow
    obtain ⟨below, hat, hbelow⟩ := Tree.at?_put?_front hput hdirectory
    cases rest with
    | nil =>
        rw [List.append_nil, Tree.isDir, hdirectory] at hdir
        cases hdir
    | cons name rest =>
        have hbelow' := hbelow
        obtain ⟨_, t, -, -, rfl⟩ := Tree.put?_cons_eq_some.mp hbelow'
        refine ⟨_, hat, fun keep hkeep => ?_⟩
        refine Tree.filter_paths_put? hbelow ?_ (hkeep _ (List.cons_ne_nil _ _) rfl)
        -- in the place of the file there is no directory
        intro t₀ ht₀ names hnames
        have hthere : v.tree.at? (directory ++ name :: rest) = some t₀ := by
          rw [Tree.at?_append, hdirectory]
          exact ht₀
        cases t₀ with
        | file d₀ => exact List.mem_singleton.mp hnames
        | dir entries₀ =>
            rw [Tree.isDir, hthere] at hdir
            cases hdir
  · exact ⟨entries, at?_write?_of_outside h hdirectory hbelow, fun _ _ => rfl⟩

namespace Filled

/-- A write that may not be possible is one more. -/
theorem getD (h : Filled places v v') {place : List String} (hplace : place ∈ places)
    (d : FileData) :
    Filled places v ((v'.write? place d).getD v') := by
  cases hwrite : v'.write? place d with
  | none => exact h
  | some v'' => exact .write h hplace hwrite

/-- What is put behind a file is written there. -/
theorem append (h : Filled places v v') {place : List String} (hplace : place ∈ places)
    (more : String) : Filled places v ((v'.append? place more).getD v') :=
  append?_induction h (h.getD hplace) more

/-- A file in another place has not changed. -/
theorem file?_eq (h : Filled places v v') {other : List String} (hother : other ∉ places) :
    v'.tree.file? other = v.tree.file? other := by
  induction h with
  | unwritten => rfl
  | write before hplace hwrite ih =>
      rw [file?_write?_of_ne hwrite, ih]
      rintro rfl
      exact hother hplace

/-- Whether a file can be written in one of the places has not changed. -/
theorem isSome_write?_eq (h : Filled places v v')
    (hapart : Apart places) {place : List String} (hplace : place ∈ places) (d : FileData) :
    (v'.write? place d).isSome = (v.write? place d).isSome := by
  induction h with
  | unwritten => rfl
  | write before hwritten hwrite ih =>
      rw [isSome_write?_after hwrite (hapart _ hplace _ hwritten)
        (fun hprefix => (hapart _ hwritten _ hplace hprefix).symm), ih]

/-- A directory is still there, with the same files in it but for the places. -/
theorem directory (h : Filled places v v') {directory : List String}
    {entries : List (String × Tree)} (hdirectory : v.tree.at? directory = some (.dir entries)) :
    ∃ entries', v'.tree.at? directory = some (.dir entries') ∧
      ∀ keep : List String → Bool,
        (∀ names, names ≠ [] → directory ++ names ∈ places → keep names = false) →
        (Tree.dir entries').paths.filter keep = (Tree.dir entries).paths.filter keep := by
  induction h with
  | unwritten => exact ⟨entries, hdirectory, fun _ _ => rfl⟩
  | write before hplace hwrite ih =>
      obtain ⟨entries', hdirectory', hpaths⟩ := ih
      obtain ⟨entries'', hdirectory'', hstep⟩ := directory_write? hwrite hdirectory'
      refine ⟨entries'', hdirectory'', fun keep hkeep => ?_⟩
      rw [hstep keep fun names hne hnames => hkeep names hne (hnames ▸ hplace), hpaths keep hkeep]

end Filled

end

end Volume

theorem mem_sortPaths {paths : List String} {path : String} :
    path ∈ sortPaths paths ↔ path ∈ paths := List.mem_mergeSort

/-- The files of a tree below a directory are those of the directory. -/
theorem Tree.file?_append {t : Tree} {directory : List String} {entries : List (String × Tree)}
    (h : t.at? directory = some (.dir entries)) (names : List String) :
    (Tree.dir entries).file? names = t.file? (directory ++ names) := by
  rw [file?, file?, at?_append, h, Option.bind_some]

end Disk

theorem nodup_eraseDups {α : Type} [BEq α] [LawfulBEq α] : ∀ l : List α, l.eraseDups.Nodup
  | [] => List.nodup_nil
  | a :: l => by
      rw [List.eraseDups_cons, List.nodup_cons]
      refine ⟨?_, nodup_eraseDups _⟩
      rw [List.mem_eraseDups]
      simp
termination_by l => l.length
decreasing_by exact Nat.lt_succ_of_le (List.length_filter_le _ _)

/-! ## What a category finds -/

open Disk

/-- Whether a walk of a selection finds a file, given by the names on the way to it. -/
def Selection.finds (s : Selection) (names : List String) : Bool :=
  isEntered names && !s.hides names && s.selects (relativePath names)

namespace Category

/-- A category looks at a file of a project if one of its selections finds the file. -/
def LooksAt (c : Config) (project : Tree) (category : Category) (names : List String) : Prop :=
  ∃ group ∈ category.patternGroups c project, ∃ s, Selection.ofPatterns group = .ok s ∧
    s.finds names = true

instance (c : Config) (project : Tree) (category : Category) (names : List String) :
    Decidable (category.LooksAt c project names) :=
  let looks := (category.patternGroups c project).any fun group =>
    match Selection.ofPatterns group with
    | .ok s => s.finds names
    | .error _ => false
  have hlooks : looks = true ↔ category.LooksAt c project names := by
    rw [List.any_eq_true, LooksAt]
    refine exists_congr fun group => and_congr_right fun _ => ?_
    cases Selection.ofPatterns group with
    | error e => simp
    | ok s => simp
  decidable_of_iff _ hlooks

/-- Without an ignore file it does not matter what there is in a project. -/
theorem looksAt_iff_of_no_ignoreFile {c : Config} {project : Tree} {category : Category}
    (h : project.file? [ignoreFileName] = none) {names : List String} :
    category.LooksAt c project names ↔ category.LooksAt c (.dir []) names := by
  have hpatterns : projectIgnorePatterns project = projectIgnorePatterns (.dir []) := by
    rw [projectIgnorePatterns, h]
    rfl
  have hgroups : category.patternGroups c project = category.patternGroups c (.dir []) := by
    rw [patternGroups, patternGroups, hpatterns]
  rw [LooksAt, LooksAt, hgroups]

/-- Every file that a category finds is one of the project's that it looks at. -/
theorem exists_of_mem_files {c : Config} {category : Category} {entries : List (String × Tree)}
    {files : List String} (h : category.files c (.dir entries) = .ok files) {file : String}
    (hfile : file ∈ files) :
    ∃ names ∈ (Tree.dir entries).paths, file = relativePath names ∧
      category.LooksAt c (.dir entries) names := by
  obtain ⟨groups, hgroups, hsorted⟩ := bind_eq_ok.mp h
  obtain rfl : sortPaths groups.flatten.eraseDups = files := Except.ok.inj hsorted
  rw [mem_sortPaths, List.mem_eraseDups, List.mem_flatten] at hfile
  obtain ⟨found, hfound, hfile⟩ := hfile
  obtain ⟨group, hgroup, hmatching⟩ := exists_of_mem_mapM hgroups hfound
  rw [filesMatching] at hmatching
  cases hselection : Selection.ofPatterns group with
  | error e =>
      rw [hselection] at hmatching
      cases hmatching
  | ok s =>
      rw [hselection] at hmatching
      obtain rfl : selectedFiles s (.dir entries) = found := Except.ok.inj hmatching
      rw [selectedFiles_eq, mem_sortPaths] at hfile
      obtain ⟨names, hnames, rfl⟩ := List.mem_map.mp hfile
      obtain ⟨hmem, hfinds⟩ := List.mem_filter.mp hnames
      exact ⟨names, hmem, rfl, group, hgroup, s, hselection, hfinds⟩

section

variable {places : List (List String)} {v v' : Volume} {directory : List String}
  {entries entries' : List (String × Tree)}

/-- Without a file in the place of the ignore file a project excludes what it did. -/
theorem ignorePatterns_of_filled (h : Volume.Filled places v v')
    (hbefore : v.tree.at? directory = some (.dir entries))
    (hafter : v'.tree.at? directory = some (.dir entries'))
    (hignore : directory ++ [ignoreFileName] ∉ places) :
    projectIgnorePatterns (.dir entries') = projectIgnorePatterns (.dir entries) := by
  rw [projectIgnorePatterns, projectIgnorePatterns, Tree.file?_append hafter,
    Tree.file?_append hbefore, h.file?_eq hignore]

/-- Files in places at which a category does not look make no difference to what it finds. -/
theorem files_eq_of_filled (h : Volume.Filled places v v')
    (hbefore : v.tree.at? directory = some (.dir entries))
    (hafter : v'.tree.at? directory = some (.dir entries'))
    (hignore : directory ++ [ignoreFileName] ∉ places) {c : Config} {category : Category}
    (hunseen : ∀ names, names ≠ [] → directory ++ names ∈ places →
      ¬ category.LooksAt c (.dir entries) names) :
    category.files c (.dir entries') = category.files c (.dir entries) := by
  obtain ⟨entries₁, hafter₁, hpaths⟩ := h.directory hbefore
  obtain rfl : entries₁ = entries' := by
    rw [hafter] at hafter₁
    exact (Tree.dir.inj (Option.some.inj hafter₁)).symm
  have hpatterns : projectIgnorePatterns (.dir entries₁) = projectIgnorePatterns (.dir entries) :=
    ignorePatterns_of_filled h hbefore hafter hignore
  have hgroups : category.patternGroups c (.dir entries₁) =
      category.patternGroups c (.dir entries) := by
    rw [patternGroups, patternGroups, hpatterns]
  unfold files
  rw [hgroups, mapM_congr]
  intro group hgroup
  rw [filesMatching, filesMatching]
  cases hselection : Selection.ofPatterns group with
  | error e => rfl
  | ok s =>
      -- the walk finds none of the places, so that they may be left out before it starts
      have hsame := hpaths s.finds fun names hne hnames => Bool.eq_false_iff.mpr fun hfinds =>
        hunseen names hne hnames ⟨group, hgroup, s, hselection, hfinds⟩
      have hfiles : selectedFiles s (.dir entries₁) = selectedFiles s (.dir entries) := by
        rw [selectedFiles_eq, selectedFiles_eq]
        exact congrArg (fun paths => sortPaths (paths.map relativePath)) hsame
      exact congrArg Except.ok hfiles

end

end Category

end FrontendAudit
