import FrontendAudit.Proofs.Disk.Differing
import FrontendAudit.Proofs.Disk.Enumeration
import FrontendAudit.Proofs.Path
import Mathlib.Data.List.Nodup

/-!
# Files in order

In a project whose names are such as files have, and differ within each directory, patterns find
exactly the files whose path they select and on whose way no directory is skipped or pruned, and
they find them strictly ascending, in whatever order directories list what is in them. A category
finds what one of its pattern lists finds, in the same strict order (`found_in_order`).
-/

namespace FrontendAudit

namespace Disk

/-- In each directory of a tree the entries have different names, which files can have. -/
inductive Tree.WellNamed : Tree → Prop
  | file (d : FileData) : WellNamed (.file d)
  | dir {entries : List (String × Tree)} (hdiffer : (entries.map (·.1)).Nodup)
      (hnames : ∀ e ∈ entries, IsFileName e.1) (hbelow : ∀ e ∈ entries, WellNamed e.2) :
      WellNamed (.dir entries)

/-- A tree becomes another when directories list their entries in other orders. -/
inductive Tree.Relisted : Tree → Tree → Prop
  | refl (t : Tree) : Relisted t t
  | trans {t t' t'' : Tree} (first : Relisted t t') (second : Relisted t' t'') : Relisted t t''
  | here {entries entries' : List (String × Tree)} (hperm : entries.Perm entries') :
      Relisted (.dir entries) (.dir entries')
  | inside {before behind : List (String × Tree)} {name : String} {t t' : Tree}
      (entry : Relisted t t') :
      Relisted (.dir (before ++ (name, t) :: behind)) (.dir (before ++ (name, t') :: behind))

/-! ## Names that differ -/

namespace Tree

variable {entries entries' : List (String × Tree)} {name : String} {names : List String}
  {t t' : Tree}

/-- The only entry of a name is the one that is found. -/
theorem named?_eq_some_iff (hdiffer : (entries.map (·.1)).Nodup) :
    named? name entries = some t ↔ (name, t) ∈ entries := by
  refine ⟨mem_of_named?, fun hmem => ?_⟩
  induction entries with
  | nil => cases hmem
  | cons e entries ih =>
      rw [List.map_cons, List.nodup_cons] at hdiffer
      rcases List.mem_cons.mp hmem with rfl | hmem
      · simp [named?]
      · have he : e.1 ≠ name := by
          rintro rfl
          exact hdiffer.1 (List.mem_map.mpr ⟨_, hmem, rfl⟩)
        have hskip : named? name (e :: entries) = named? name entries := by simp [named?, he]
        rw [hskip, ih hdiffer.2 hmem]

theorem WellNamed.differ (h : (Tree.dir entries).WellNamed) : (entries.map (·.1)).Nodup := by
  cases h with
  | dir hdiffer _ _ => exact hdiffer

theorem WellNamed.entry (h : (Tree.dir entries).WellNamed) (hmem : (name, t) ∈ entries) :
    IsFileName name ∧ t.WellNamed := by
  cases h with
  | dir _ hnames hbelow => exact ⟨hnames _ hmem, hbelow _ hmem⟩

theorem mem_paths_dir : names ∈ (Tree.dir entries).paths ↔
    ∃ name t, (name, t) ∈ entries ∧ ∃ rest ∈ t.paths, names = name :: rest := by
  rw [paths_dir, List.mem_flatMap]
  constructor
  · rintro ⟨⟨name, t⟩, hmem, hnames⟩
    obtain ⟨rest, hrest, rfl⟩ := List.mem_map.mp hnames
    exact ⟨name, t, hmem, rest, hrest, rfl⟩
  · rintro ⟨name, t, hmem, rest, hrest, rfl⟩
    exact ⟨(name, t), hmem, List.mem_map_of_mem hrest⟩

/-- The files that are gone through are those that are found by their names. -/
theorem WellNamed.mem_paths_iff (h : t.WellNamed) : names ∈ t.paths ↔ t.isFile names = true := by
  constructor
  · intro hmem
    induction names generalizing t with
    | nil =>
        cases t with
        | file d => rfl
        | dir entries => exact absurd rfl (ne_nil_of_mem_paths hmem)
    | cons name names ih =>
        cases t with
        | file d => cases List.mem_singleton.mp hmem
        | dir entries =>
            obtain ⟨_, below, hentry, _, hrest, heq⟩ := mem_paths_dir.mp hmem
            obtain ⟨rfl, rfl⟩ := List.cons.inj heq
            have hbelow := ih (h.entry hentry).2 hrest
            rw [isFile, file?, at?, (named?_eq_some_iff h.differ).mpr hentry]
            exact hbelow
  · intro hfile
    obtain ⟨d, hd⟩ := Option.isSome_iff_exists.mp hfile
    exact mem_paths_of_file? hd

theorem WellNamed.isFileName_of_mem (h : t.WellNamed) (hmem : names ∈ t.paths) :
    ∀ name ∈ names, IsFileName name := by
  induction h generalizing names with
  | file d =>
      obtain rfl := List.mem_singleton.mp hmem
      simp
  | dir _ hnames _ ih =>
      obtain ⟨name, t, hentry, rest, hrest, rfl⟩ := mem_paths_dir.mp hmem
      exact List.forall_mem_cons.mpr ⟨hnames _ hentry, ih _ hentry hrest⟩

theorem WellNamed.nodup_paths (h : t.WellNamed) : t.paths.Nodup := by
  induction h with
  | file d => exact List.nodup_singleton []
  | @dir entries hdiffer _ _ ih =>
      rw [paths_dir, List.nodup_flatMap]
      refine ⟨fun e he => (ih e he).map (List.cons_injective), ?_⟩
      -- the paths through different entries differ in the first name
      refine (List.pairwise_map.mp hdiffer).imp fun hne => ?_
      intro names hnames hnames'
      obtain ⟨rest, -, rfl⟩ := List.mem_map.mp hnames
      obtain ⟨rest', -, heq⟩ := List.mem_map.mp hnames'
      exact hne (List.cons.inj heq).1.symm

/-- The texts of the paths of different files differ. -/
theorem WellNamed.relativePath_inj (h : t.WellNamed) {names names' : List String}
    (hnames : names ∈ t.paths) (hnames' : names' ∈ t.paths) (hne : names ≠ []) (hne' : names' ≠ [])
    (heq : relativePath names = relativePath names') : names = names' := by
  have hread := Path.ofString_relativePath hne (h.isFileName_of_mem hnames)
  rw [heq, Path.ofString_relativePath hne' (h.isFileName_of_mem hnames')] at hread
  exact (congrArg Path.parts hread).symm

/-! ## Other orders -/

theorem named?_append_cons {other : String} (before behind : List (String × Tree)) :
    named? other (before ++ (name, t) :: behind) =
      (named? other before).or (if name = other then some t else named? other behind) := by
  rw [named?, List.find?_append, List.find?_cons, Option.map_or, named?, named?]
  by_cases hname : name = other <;> simp [hname]

/-- Another order changes neither the names nor what is found by them. -/
theorem Relisted.keeps (h : t.Relisted t') (hnamed : t.WellNamed) :
    t'.WellNamed ∧ ∀ names, t'.file? names = t.file? names := by
  induction h with
  | refl t => exact ⟨hnamed, fun _ => rfl⟩
  | trans _ _ ih ih' =>
      obtain ⟨hnamed', hfiles⟩ := ih hnamed
      obtain ⟨hnamed'', hfiles'⟩ := ih' hnamed'
      exact ⟨hnamed'', fun names => (hfiles' names).trans (hfiles names)⟩
  | @here entries entries' hperm =>
      have hdiffer' : (entries'.map (·.1)).Nodup := (hperm.map _).nodup_iff.mp hnamed.differ
      refine ⟨.dir hdiffer' (fun e he => (hnamed.entry (hperm.mem_iff.mpr he)).1)
        (fun e he => (hnamed.entry (hperm.mem_iff.mpr he)).2), fun names => ?_⟩
      cases names with
      | nil => rfl
      | cons name names =>
          have hnamed? : named? name entries' = named? name entries := by
            refine Option.ext fun t => ?_
            rw [named?_eq_some_iff hdiffer', named?_eq_some_iff hnamed.differ, hperm.mem_iff]
          rw [file?, file?, at?, at?, hnamed?]
  | @inside before behind name t t' _ ih =>
      have hentry := hnamed.entry (List.mem_append_right before List.mem_cons_self)
      obtain ⟨hnamed', hfiles⟩ := ih hentry.2
      have hdiffer : ((before ++ (name, t') :: behind).map (·.1)).Nodup := by
        have hdiffer := hnamed.differ
        rwa [List.map_append, List.map_cons] at hdiffer ⊢
      have hentries : ∀ e ∈ before ++ (name, t') :: behind, IsFileName e.1 ∧ e.2.WellNamed := by
        intro e he
        rcases List.mem_append.mp he with he | he
        · exact hnamed.entry (List.mem_append_left _ he)
        · rcases List.mem_cons.mp he with rfl | he
          · exact ⟨hentry.1, hnamed'⟩
          · exact hnamed.entry (List.mem_append_right before (List.mem_cons_of_mem _ he))
      refine ⟨.dir hdiffer (fun e he => (hentries e he).1) (fun e he => (hentries e he).2),
        fun names => ?_⟩
      · cases names with
        | nil => rfl
        | cons other names =>
            rw [file?, file?, at?, at?, named?_append_cons, named?_append_cons]
            cases named? other before with
            | some t₁ => rfl
            | none =>
                by_cases hname : name = other
                · rw [if_pos hname, if_pos hname]
                  exact hfiles names
                · rw [if_neg hname, if_neg hname]

end Tree

/-! ## Sorted paths -/

theorem pairwise_lt_sortPaths {paths : List String} (h : paths.Nodup) :
    (sortPaths paths).Pairwise (· < ·) := by
  have hdiffer : (sortPaths paths).Nodup := (List.mergeSort_perm _ _).nodup_iff.mpr h
  refine ((pairwise_le_sortPaths paths).and hdiffer).imp fun {a b} hab => ?_
  by_contra hlt
  exact hab.2 (String.le_antisymm hab.1 (String.not_lt.mp hlt))

/-- Strictly ascending paths are the same when they are the same as a set. -/
theorem eq_of_pairwise_lt {paths paths' : List String} (h : paths.Pairwise (· < ·))
    (h' : paths'.Pairwise (· < ·)) (hmem : ∀ path, path ∈ paths ↔ path ∈ paths') :
    paths = paths' := by
  have hdiffer : ∀ {l : List String}, l.Pairwise (· < ·) → l.Nodup := by
    intro l hl
    refine hl.imp ?_
    rintro a _ hlt rfl
    exact String.lt_irrefl a hlt
  have hperm := (List.perm_ext_iff_of_nodup (hdiffer h) (hdiffer h')).mpr hmem
  exact hperm.eq_of_pairwise (fun a b _ _ hab hba => absurd hab (String.lt_asymm hba)) h h'

end Disk

/-! ## What patterns find -/

open Disk (Tree FileData relativePath directoriesOf filesMatching selectedFiles sortPaths)

namespace Selection

variable {s : Selection} {names : List String}

/-- Patterns without opening brackets can be read. -/
theorem exists_ofPatterns_eq_ok {patterns : List String}
    (h : ∀ pattern ∈ patterns, '[' ∉ pattern.toList) : ∃ s, ofPatterns patterns = .ok s :=
  (ofPatterns_succeeds_iff patterns).mpr fun pattern hpattern _ htext =>
    Glob.wellBracketed_of_not_mem fun hmem => h pattern hpattern (mem_of_mem_textsOf htext hmem)

/-- A selection finds a file when it selects its path and no directory on the way there is one that
is never entered or one that the selection prunes. -/
theorem finds_iff : s.finds names = true ↔ s.selects (relativePath names) = true ∧
    ∀ above name below, names = above ++ name :: below → below ≠ [] →
      name ∉ Disk.skippedNames ∧ s.prunes (relativePath (above ++ [name])) = false := by
  rw [finds, Bool.and_eq_true, and_comm]
  refine and_congr_right fun _ => ?_
  rw [Bool.and_eq_true, Bool.not_eq_true', Disk.isEntered, List.all_eq_true, hides,
    List.any_eq_false]
  constructor
  · rintro ⟨hentered, hshown⟩ above name below rfl hbelow
    constructor
    · have hmem : name ∈ (above ++ name :: below).dropLast := by
        rw [List.dropLast_append_of_ne_nil (List.cons_ne_nil _ _),
          List.dropLast_cons_of_ne_nil hbelow]
        exact List.mem_append_right above List.mem_cons_self
      simpa using hentered name hmem
    · refine Bool.eq_false_iff.mpr
        (hshown (above ++ [name]) (Disk.mem_directoriesOf.mpr ⟨?_, below, hbelow, ?_⟩))
      · exact List.append_ne_nil_of_right_ne_nil above (List.cons_ne_nil _ _)
      · rw [List.append_assoc, List.singleton_append]
  · intro h
    constructor
    · intro name hname
      obtain ⟨above, between, hsplit⟩ := List.append_of_mem hname
      have hne : names ≠ [] := by
        rintro rfl
        cases hname
      have hnames : names = above ++ name :: (between ++ [names.getLast hne]) := by
        conv_lhs => rw [← List.dropLast_append_getLast hne, hsplit]
        simp
      simpa using (h above name _ hnames (by simp)).1
    · intro directory hdirectory
      obtain ⟨hne, below, hbelow, hnames⟩ := Disk.mem_directoriesOf.mp hdirectory
      obtain ⟨above, name, rfl⟩ := (List.eq_nil_or_concat' directory).resolve_left hne
      rw [List.append_assoc, List.singleton_append] at hnames
      rw [(h above name below hnames hbelow).2]
      exact Bool.false_ne_true

end Selection

namespace Disk

variable {entries : List (String × Tree)} {relisted : Tree} {s : Selection} {patterns : List String}

/-- What a selection finds is strictly ascending. -/
theorem pairwise_lt_selectedFiles (hnamed : (Tree.dir entries).WellNamed) :
    (selectedFiles s (.dir entries)).Pairwise (· < ·) := by
  rw [selectedFiles_eq]
  refine pairwise_lt_sortPaths ((hnamed.nodup_paths.filter _).map_on ?_)
  intro names hnames names' hnames' heq
  have hmem := (List.mem_filter.mp hnames).1
  have hmem' := (List.mem_filter.mp hnames').1
  exact hnamed.relativePath_inj hmem hmem' (Tree.ne_nil_of_mem_paths hmem)
    (Tree.ne_nil_of_mem_paths hmem')
    heq

theorem mem_selectedFiles_iff (hnamed : (Tree.dir entries).WellNamed) {path : String} :
    path ∈ selectedFiles s (.dir entries) ↔
      ∃ names, (Tree.dir entries).isFile names = true ∧ relativePath names = path ∧
        s.selects path = true ∧ ∀ above name below, names = above ++ name :: below → below ≠ [] →
          name ∉ skippedNames ∧ s.prunes (relativePath (above ++ [name])) = false := by
  rw [Category.mem_selectedFiles]
  refine exists_congr fun names => ?_
  rw [hnamed.mem_paths_iff, Selection.finds_iff]
  refine and_congr_right fun _ => ?_
  rw [and_comm, and_congr_right_iff]
  rintro rfl
  rfl

/-- A directory stays one in another order. -/
theorem Tree.Relisted.exists_entries (h : (Tree.dir entries).Relisted relisted)
    (hnamed : (Tree.dir entries).WellNamed) : ∃ entries', relisted = .dir entries' := by
  cases relisted with
  | dir entries' => exact ⟨entries', rfl⟩
  | file d => cases (h.keeps hnamed).2 []

/-- In whatever order directories list their entries, patterns find the same. -/
theorem filesMatching_relisted (hnamed : (Tree.dir entries).WellNamed)
    (h : (Tree.dir entries).Relisted relisted) :
    filesMatching patterns (some relisted) = filesMatching patterns (some (.dir entries)) := by
  obtain ⟨entries', rfl⟩ := h.exists_entries hnamed
  obtain ⟨hnamed', hfiles⟩ := h.keeps hnamed
  rw [filesMatching, filesMatching]
  congr 1
  funext s
  refine eq_of_pairwise_lt (pairwise_lt_selectedFiles hnamed') (pairwise_lt_selectedFiles hnamed) ?_
  intro path
  rw [mem_selectedFiles_iff hnamed', mem_selectedFiles_iff hnamed]
  simp only [Tree.isFile, hfiles]

end Disk

/-! ## What a category finds -/

namespace Category

variable {c : Config} {category : Category} {entries : List (String × Tree)} {relisted : Tree}

theorem patternGroups_relisted (hnamed : (Tree.dir entries).WellNamed)
    (h : (Tree.dir entries).Relisted relisted) :
    category.patternGroups c relisted = category.patternGroups c (.dir entries) := by
  rw [patternGroups, patternGroups, Disk.projectIgnorePatterns, Disk.projectIgnorePatterns,
    (h.keeps hnamed).2]

theorem files_relisted (hnamed : (Tree.dir entries).WellNamed)
    (h : (Tree.dir entries).Relisted relisted) :
    category.files c relisted = category.files c (.dir entries) := by
  rw [files, files, patternGroups_relisted hnamed h,
    mapM_congr fun patterns _ => Disk.filesMatching_relisted hnamed h]

/-- When each of its pattern lists can be read, a category finds what one of them finds. -/
theorem exists_files_eq_ok {project : Tree}
    (h : ∀ patterns ∈ category.patternGroups c project,
      ∃ found, filesMatching patterns (some project) = .ok found) :
    ∃ files, category.files c project = .ok files ∧ files.Pairwise (· < ·) ∧
      ∀ path, path ∈ files ↔ ∃ patterns ∈ category.patternGroups c project,
        ∃ found, filesMatching patterns (some project) = .ok found ∧ path ∈ found := by
  obtain ⟨groups, hgroups⟩ := exists_mapM_eq_ok.mpr h
  refine ⟨sortPaths groups.flatten.eraseDups, ?_,
    Disk.pairwise_lt_sortPaths (nodup_eraseDups _), ?_⟩
  · rw [files, hgroups]
    rfl
  · intro path
    rw [Disk.mem_sortPaths, List.mem_eraseDups, List.mem_flatten]
    constructor
    · rintro ⟨found, hfound, hpath⟩
      obtain ⟨patterns, hpatterns, hmatching⟩ := exists_of_mem_mapM hgroups hfound
      exact ⟨patterns, hpatterns, found, hmatching, hpath⟩
    · rintro ⟨patterns, hpatterns, found, hmatching, hpath⟩
      obtain ⟨found', hfound', hmatching'⟩ := exists_mem_of_mapM hgroups hpatterns
      obtain rfl : found = found' := Except.ok.inj (hmatching.symm.trans hmatching')
      exact ⟨found, hfound', hpath⟩

end Category

/-- Patterns that can be read find in a project, strictly ascending, exactly the files whose path
they select and on whose way no directory is skipped or pruned. A category whose pattern lists can
be read finds, strictly ascending, exactly what one of the lists finds. In which order directories
list their entries does not matter. -/
theorem found_in_order (entries : List (String × Tree)) (hnamed : (Tree.dir entries).WellNamed) :
    (∀ patterns s, Selection.ofPatterns patterns = .ok s →
      ∃ files, (∀ relisted, (Tree.dir entries).Relisted relisted →
          filesMatching patterns (some relisted) = .ok files) ∧
        files.Pairwise (· < ·) ∧
        ∀ path, path ∈ files ↔
          ∃ names, (Tree.dir entries).isFile names = true ∧ relativePath names = path ∧
            s.selects path = true ∧ ∀ above name below, names = above ++ name :: below →
            below ≠ [] →
              name ∉ Disk.skippedNames ∧ s.prunes (relativePath (above ++ [name])) = false) ∧
    (∀ (c : Config) (category : Category),
      (∀ patterns ∈ category.patternGroups c (.dir entries), ∃ s,
        Selection.ofPatterns patterns = .ok s) →
      ∃ files, (∀ relisted, (Tree.dir entries).Relisted relisted →
          category.files c relisted = .ok files) ∧
        files.Pairwise (· < ·) ∧
        ∀ path, path ∈ files ↔ ∃ patterns ∈ category.patternGroups c (.dir entries),
          ∃ found, filesMatching patterns (some (.dir entries)) = .ok found ∧ path ∈ found) := by
  have hmatching : ∀ patterns s, Selection.ofPatterns patterns = .ok s →
      filesMatching patterns (some (.dir entries)) = .ok (selectedFiles s (.dir entries)) := by
    intro patterns s hs
    rw [filesMatching, hs]
    rfl
  constructor
  · intro patterns s hs
    refine ⟨selectedFiles s (.dir entries), fun relisted hrelisted => ?_,
      Disk.pairwise_lt_selectedFiles hnamed, fun path => Disk.mem_selectedFiles_iff hnamed⟩
    rw [Disk.filesMatching_relisted hnamed hrelisted, hmatching patterns s hs]
  · intro c category hread
    obtain ⟨files, hfiles, hascending, hmem⟩ :=
      Category.exists_files_eq_ok fun patterns hpatterns =>
      (hread patterns hpatterns).imp' _ (hmatching patterns)
    exact ⟨files, fun relisted hrelisted => (Category.files_relisted hnamed hrelisted).trans hfiles,
      hascending, hmem⟩

namespace Disk

/-- The entries of a directory of sources, with packages and something generated in it. -/
def sourceEntries : List (String × Tree) :=
  [("b.js", .file (.text "")), ("node_modules", .dir [("x.js", .file (.text ""))]),
    ("made", .dir [("a.js", .file (.text ""))]), ("a.js", .file (.text ""))]

/-- A project with a directory of sources and a script beside it, the two in some order. -/
def scriptProject (sources : List (String × Tree)) : List (String × Tree) :=
  [("src", .dir sources), ("src-a.js", .file (.text ""))]

theorem wellNamed_scriptProject : (Tree.dir (scriptProject sourceEntries)).WellNamed := by
  refine .dir (by decide) (by decide) ?_
  simp only [scriptProject, List.forall_mem_cons]
  refine ⟨.dir (by decide) (by decide) ?_, .file _, by simp⟩
  simp only [sourceEntries, List.forall_mem_cons]
  refine ⟨.file _, .dir (by decide) (by decide) ?_, .dir (by decide) (by decide) ?_,
    .file _, by simp⟩ <;>
    simpa using Tree.WellNamed.file _

/-- Both pattern lists of these settings find the script in the directory of sources, and one of
them nothing in what is generated. -/
def overlappingConfig : Config :=
  { Config.default with scripts := ["**/*.js", "!src/made/**"], assets := ["src/a.*"] }

theorem filesMatching_eq_ok {found sorted : List String}
    (h : (Selection.ofPatterns patterns).map (selectedIn · "" entries) = .ok found)
    (hperm : found.Perm sorted) (hsorted : sorted.Pairwise (· < ·)) :
    filesMatching patterns (some (.dir entries)) = .ok sorted := by
  cases hs : Selection.ofPatterns patterns with
  | error e =>
      rw [hs] at h
      cases h
  | ok s =>
      rw [hs] at h
      obtain rfl : selectedIn s "" entries = found := Except.ok.inj h
      rw [filesMatching, hs]
      refine congrArg Except.ok (eq_of_pairwise_lt (pairwise_lt_sortPaths ?_) hsorted
        fun path => ?_)
      · exact hperm.nodup_iff.mpr (hsorted.imp fun hlt => String.ne_of_lt hlt)
      · exact mem_sortPaths.trans hperm.mem_iff

/-- Listed in another order, the project has the same files for its patterns and for a category of
which two pattern lists find one of them. -/
theorem found_in_order_overlapping :
    filesMatching overlappingConfig.scripts
      (some (.dir (scriptProject sourceEntries.reverse).reverse)) =
        .ok ["src-a.js", "src/a.js", "src/b.js"] ∧
      Category.performance.files overlappingConfig
        (.dir (scriptProject sourceEntries.reverse).reverse) =
        .ok ["src-a.js", "src/a.js", "src/b.js"] := by
  have hrelisted : (Tree.dir (scriptProject sourceEntries)).Relisted
      (.dir (scriptProject sourceEntries.reverse).reverse) :=
    (@Tree.Relisted.inside [] _ _ _ _ (.here (List.reverse_perm _).symm)).trans
      (.here (List.reverse_perm _).symm)
  obtain ⟨hpatterns, hcategory⟩ :=
    found_in_order (scriptProject sourceEntries) wellNamed_scriptProject
  have hscripts :
      filesMatching overlappingConfig.scripts (some (.dir (scriptProject sourceEntries))) =
      .ok ["src-a.js", "src/a.js", "src/b.js"] := by
    have hfound : (Selection.ofPatterns overlappingConfig.scripts).map
        (selectedIn · "" (scriptProject sourceEntries)) =
          .ok ["src/b.js", "src/a.js", "src-a.js"] := by
      decide +kernel
    exact filesMatching_eq_ok hfound (by decide) (by decide)
  have hassets :
      filesMatching overlappingConfig.assets (some (.dir (scriptProject sourceEntries))) =
      .ok ["src/a.js"] :=
    filesMatching_eq_ok (by decide +kernel) (.refl _) (by decide)
  have hgroups :
      Category.performance.patternGroups overlappingConfig (.dir (scriptProject sourceEntries)) =
      [overlappingConfig.scripts, overlappingConfig.assets] := by decide +kernel
  have hplain : ∀ patterns ∈ [overlappingConfig.scripts, overlappingConfig.assets],
      ∀ pattern ∈ patterns, '[' ∉ pattern.toList := by decide +kernel
  have hread : ∀ patterns ∈ [overlappingConfig.scripts, overlappingConfig.assets],
      ∃ s, Selection.ofPatterns patterns = .ok s := fun patterns hmem =>
    Selection.exists_ofPatterns_eq_ok (hplain patterns hmem)
  constructor
  · obtain ⟨s, hs⟩ := hread overlappingConfig.scripts List.mem_cons_self
    obtain ⟨files, hfiles, -⟩ := hpatterns _ s hs
    rw [hfiles _ hrelisted, ← hfiles _ (.refl _), hscripts]
  · obtain ⟨files, hfiles, hascending, hmem⟩ :=
      hcategory overlappingConfig .performance (hgroups ▸ hread)
    rw [hfiles _ hrelisted]
    refine congrArg Except.ok (eq_of_pairwise_lt hascending (by decide) fun path => ?_)
    -- the second list finds one of the files of the first
    rw [hmem, hgroups]
    simpa [hscripts, hassets] using fun h : path = "src/a.js" => Or.inr (Or.inl h)

end Disk

end FrontendAudit
