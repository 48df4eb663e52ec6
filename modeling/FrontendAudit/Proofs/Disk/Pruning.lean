import FrontendAudit.Proofs.Disk.Walk
import FrontendAudit.Proofs.Glob.Closing

/-!
# What pruning loses

A walk that prunes directories finds what a walk without pruning finds just when no selected file
lies below a pruned directory, and it does so in every project just when no path below a pruned
directory is selected (`pruning_loses_nothing_iff`). Excluded globs that close directories are safe
in this way; others are not: `build/*` prunes `build` and hides a file further down that it does not
exclude (`pruning_loses_file`).
-/

namespace FrontendAudit.Disk

/-- The selected files of a project when nothing is pruned, sorted. -/
def unprunedFiles (s : Selection) (entries : List (String × Tree)) : List String :=
  sortPaths (((Tree.dir entries).paths.filter fun names =>
    isEntered names && s.selects (relativePath names)).map relativePath)

/-- The tree with nothing in it but a single file. -/
def chain : List String → Tree
  | [] => .file (.text "")
  | name :: names => .dir [(name, chain names)]

/-- A name that a file of a project may have, without a line feed in it. -/
structure PlainName (name : String) : Prop where
  nonempty : name ≠ ""
  slash : '/' ∉ name.toList
  line : '\n' ∉ name.toList

/-! ## One project -/

theorem length_sortPaths (paths : List String) : (sortPaths paths).length = paths.length :=
  List.length_mergeSort paths

/-- In a project pruning loses nothing just when no selected file lies below a pruned directory. -/
theorem selectedFiles_eq_unprunedFiles_iff (s : Selection) (entries : List (String × Tree)) :
    selectedFiles s (.dir entries) = unprunedFiles s entries ↔
      ∀ names ∈ (Tree.dir entries).paths, isEntered names = true →
        s.selects (relativePath names) = true → s.hides names = false := by
  rw [selectedFiles_eq, unprunedFiles]
  have hfilter : (Tree.dir entries).paths.filter (fun names =>
        isEntered names && !s.hides names && s.selects (relativePath names)) =
      ((Tree.dir entries).paths.filter fun names =>
        isEntered names && s.selects (relativePath names)).filter fun names => !s.hides names := by
    rw [List.filter_filter]
    refine List.filter_congr fun names _ => ?_
    cases isEntered names <;> cases s.hides names <;> simp
  rw [hfilter]
  constructor
  · intro heq names hmem hentered hselects
    have hlength := congrArg List.length heq
    rw [length_sortPaths, length_sortPaths, List.length_map, List.length_map,
      List.length_filter_eq_length_iff] at hlength
    have := hlength names (List.mem_filter.mpr ⟨hmem, by rw [hentered, hselects]; rfl⟩)
    simpa using this
  · intro h
    rw [List.filter_eq_self.mpr]
    intro names hnames
    obtain ⟨hmem, hboth⟩ := List.mem_filter.mp hnames
    rw [Bool.and_eq_true] at hboth
    rw [h names hmem hboth.1 hboth.2]
    rfl

/-! ## All projects -/

theorem paths_chain (names : List String) : (chain names).paths = [names] := by
  induction names with
  | nil => rfl
  | cons name names ih =>
      have hfiles : Tree.files [] (chain (name :: names)) =
          (Tree.files [] (chain names)).map fun f => (name :: f.1, f.2) := by
        rw [← files_cons]
        exact List.append_nil _
      rw [Tree.paths, hfiles, List.map_map]
      show ((Tree.files [] (chain names)).map ((name :: ·) ∘ (·.1))) = _
      rw [← List.map_map]
      show (chain names).paths.map (name :: ·) = _
      rw [ih]
      rfl

/-- Pruning loses nothing in any project, whatever names are allowed, just when no path below a
pruned directory is selected. -/
theorem forall_selectedFiles_eq_iff (s : Selection) (legal : String → Prop) :
    (∀ entries, (∀ names ∈ (Tree.dir entries).paths, ∀ name ∈ names, legal name) →
      selectedFiles s (.dir entries) = unprunedFiles s entries) ↔
    ∀ directory below, directory ≠ [] → below ≠ [] →
      (∀ name ∈ directory ++ below, legal name) → isEntered (directory ++ below) = true →
      s.prunes (relativePath directory) = true →
      s.selects (relativePath (directory ++ below)) = false := by
  constructor
  · intro h directory below hdirectory hbelow hlegal hentered hprunes
    obtain ⟨name, names, hnames⟩ : ∃ name names, directory ++ below = name :: names :=
      List.exists_cons_of_ne_nil (by simp [hdirectory])
    -- a project with nothing in it but the file in question
    have hpaths : (Tree.dir [(name, chain names)]).paths = [name :: names] :=
      paths_chain (name :: names)
    have hall := h [(name, chain names)] (by
      intro path hpath
      rw [hpaths, List.mem_singleton] at hpath
      rw [hpath, ← hnames]
      exact hlegal)
    have hhidden := (selectedFiles_eq_unprunedFiles_iff s _).mp hall (directory ++ below)
      (by rw [hpaths, hnames]; exact List.mem_singleton_self _) hentered
    cases hselects : s.selects (relativePath (directory ++ below)) with
    | false => rfl
    | true =>
        have hshown := List.any_eq_false.mp (hhidden hselects) directory
          (mem_directoriesOf.mpr ⟨hdirectory, below, hbelow, rfl⟩)
        exact absurd hprunes hshown
  · intro h entries hlegal
    refine (selectedFiles_eq_unprunedFiles_iff s entries).mpr ?_
    intro names hmem hentered hselects
    refine List.any_eq_false.mpr ?_
    intro directory hdirectory hprunes
    obtain ⟨hne, below, hbelow, rfl⟩ := mem_directoriesOf.mp hdirectory
    have := h directory below hne hbelow (hlegal _ hmem) hentered hprunes
    rw [hselects] at this
    cases this

/-! ## Globs that close directories -/

theorem relativePath_ne_empty {directory : List String} (hne : directory ≠ [])
    (hplain : ∀ name ∈ directory, PlainName name) : relativePath directory ≠ "" := by
  cases directory with
  | nil => exact absurd rfl hne
  | cons name names =>
      have hname := (hplain name List.mem_cons_self).nonempty
      intro h
      have hchars := congrArg String.toList h
      rw [relativePath, List.foldl_cons, show pathBelow "" name = name from rfl,
        toList_foldl_pathBelow hname] at hchars
      exact hname (String.toList_eq_nil_iff.mp (List.append_eq_nil_iff.mp hchars).1)

/-- Plain names with slashes between them stand behind a slash. -/
theorem isBelow_of_plain {name : String} {names : List String} (hname : PlainName name)
    (hnames : ∀ n ∈ names, PlainName n) :
    Glob.IsBelow (name.toList ++ names.flatMap fun n => '/' :: n.toList) ∧
      '\n' ∉ name.toList ++ names.flatMap fun n => '/' :: n.toList := by
  induction names generalizing name with
  | nil =>
      rw [List.flatMap_nil, List.append_nil]
      exact ⟨⟨[], name.toList, rfl, .nil, hname.slash⟩, hname.line⟩
  | cons next names ih =>
      obtain ⟨⟨directories, last, heq, hdirectories, hlast⟩, hline⟩ :=
        ih (hnames next List.mem_cons_self) fun n hn => hnames n (List.mem_cons_of_mem _ hn)
      rw [List.flatMap_cons, List.cons_append]
      constructor
      · refine ⟨name.toList ++ '/' :: directories, last, ?_, ?_, hlast⟩
        · rw [heq]
          simp
        · exact .cons (by simpa using hname.nonempty) hname.slash hdirectories
      · intro hmem
        rcases List.mem_append.mp hmem with hmem | hmem
        · exact hname.line hmem
        · rcases List.mem_cons.mp hmem with hslash | hmem
          · exact absurd hslash (by decide)
          · exact hline hmem

/-- Below a directory that is pruned by globs that close directories nothing is selected. -/
theorem selects_below_of_closes {s : Selection} (hcloses : ∀ g ∈ s.excludes, g.Closes)
    {directory below : List String} (hdirectory : directory ≠ []) (hbelow : below ≠ [])
    (hplain : ∀ name ∈ directory ++ below, PlainName name)
    (hprunes : s.prunes (relativePath directory) = true) :
    s.selects (relativePath (directory ++ below)) = false := by
  obtain ⟨g, hg, hcovers⟩ := List.any_eq_true.mp hprunes
  obtain ⟨name, names, rfl⟩ := List.exists_cons_of_ne_nil hbelow
  have hne := relativePath_ne_empty hdirectory fun n hn => hplain n (List.mem_append_left _ hn)
  have hname := hplain name (List.mem_append_right _ List.mem_cons_self)
  have hnames : ∀ n ∈ names, PlainName n := fun n hn =>
    hplain n (List.mem_append_right _ (List.mem_cons_of_mem _ hn))
  obtain ⟨hisBelow, hline⟩ := isBelow_of_plain hname hnames
  have hpath : (relativePath (directory ++ name :: names)).toList =
      (relativePath directory).toList ++
        '/' :: (name.toList ++ names.flatMap fun n => '/' :: n.toList) := by
    rw [relativePath, List.foldl_append]
    exact toList_foldl_pathBelow hne (name :: names)
  have hexcluded : s.excludes.any
      (Glob.covers · (relativePath (directory ++ name :: names)).toList) = true := by
    refine List.any_eq_true.mpr ⟨g, hg, ?_⟩
    rw [hpath]
    exact Glob.covers_below_of_closes (hcloses g hg) hcovers hisBelow hline
  rw [Selection.selects, hexcluded, Bool.not_true, Bool.and_false]

/-! ## What patterns find -/

/-- The files that patterns find are those selected on whose way no directory is skipped or pruned.
In a project none is lost to pruning just when no selected file lies below a pruned directory, and
in all projects just when no path below a pruned directory is selected; so it is when all excluded
globs close directories, names being plain. -/
theorem pruning_loses_nothing_iff (patterns : List String) (s : Selection)
    (hs : Selection.ofPatterns patterns = .ok s) :
    (∀ entries, filesMatching patterns (some (.dir entries)) =
      .ok (sortPaths (((Tree.dir entries).paths.filter fun names =>
        isEntered names && !s.hides names && s.selects (relativePath names)).map relativePath))) ∧
    (∀ entries, filesMatching patterns (some (.dir entries)) = .ok (unprunedFiles s entries) ↔
      ∀ names ∈ (Tree.dir entries).paths, isEntered names = true →
        s.selects (relativePath names) = true → s.hides names = false) ∧
    (∀ legal : String → Prop,
      (∀ entries, (∀ names ∈ (Tree.dir entries).paths, ∀ name ∈ names, legal name) →
        filesMatching patterns (some (.dir entries)) = .ok (unprunedFiles s entries)) ↔
      ∀ directory below, directory ≠ [] → below ≠ [] →
        (∀ name ∈ directory ++ below, legal name) → isEntered (directory ++ below) = true →
        s.prunes (relativePath directory) = true →
        s.selects (relativePath (directory ++ below)) = false) ∧
    ((∀ g ∈ s.excludes, g.Closes) →
      ∀ directory below, directory ≠ [] → below ≠ [] →
        (∀ name ∈ directory ++ below, PlainName name) →
        s.prunes (relativePath directory) = true →
        s.selects (relativePath (directory ++ below)) = false) := by
  have hfiles : ∀ entries, filesMatching patterns (some (.dir entries)) =
      .ok (selectedFiles s (.dir entries)) := by
    intro entries
    rw [filesMatching, hs]
    rfl
  have hok :
      ∀ entries, filesMatching patterns (some (.dir entries)) = .ok (unprunedFiles s entries) ↔
      selectedFiles s (.dir entries) = unprunedFiles s entries := by
    intro entries
    rw [hfiles]
    exact ⟨Except.ok.inj, congrArg Except.ok⟩
  refine ⟨?_, ?_, ?_, fun hcloses directory below => selects_below_of_closes hcloses⟩
  · intro entries
    rw [hfiles, selectedFiles_eq]
  · intro entries
    rw [hok]
    exact selectedFiles_eq_unprunedFiles_iff s entries
  · intro legal
    rw [← forall_selectedFiles_eq_iff s legal]
    exact forall_congr' fun entries => imp_congr_right fun _ => hok entries

/-- With `build/**` excluded nothing that is selected lies in a pruned directory. -/
theorem pruning_loses_nothing_iff_build :
    ∃ s, Selection.ofPatterns ["**/*.js", "!build/**"] = .ok s ∧ s.prunes "build" = true ∧
      s.selects "src/x.js" = true ∧ s.selects "build/sub/x.js" = false := by
  refine ⟨_, rfl, by decide, by decide, ?_⟩
  exact (pruning_loses_nothing_iff ["**/*.js", "!build/**"] _ rfl).2.2.2 (by decide) ["build"]
    ["sub", "x.js"] (by decide) (by decide)
    (by
      intro name hname
      simp only [List.cons_append, List.nil_append, List.mem_cons, List.not_mem_nil,
        or_false] at hname
      rcases hname with rfl | rfl | rfl <;> exact ⟨by decide, by decide, by decide⟩)
    (by decide)

/-- Scripts are selected, and what lies in `build`. -/
def buildSelection : Selection :=
  let letters (text : String) : Glob := text.toList.map fun c => .one ⟨false, [.one c]⟩
  { includes := [.directories :: .run Glob.segmentChars :: letters ".js"]
    excludes := [letters "build/" ++ [.run Glob.segmentChars]] }

/-- A project with a file two directories down. -/
def buildTree : List (String × Tree) :=
  [("build", .dir [("sub", .dir [("x.js", .file (.text ""))])])]

/-- With `build/*` excluded the directory is pruned and a selected file below it is not found. -/
theorem pruning_loses_file :
    Selection.ofPatterns ["**/*.js", "!build/*"] = .ok buildSelection ∧
      buildSelection.prunes "build" = true ∧ buildSelection.selects "build/sub/x.js" = true ∧
      unprunedFiles buildSelection buildTree = ["build/sub/x.js"] ∧
      filesMatching ["**/*.js", "!build/*"] (some (.dir buildTree)) = .ok [] := by
  have hs : Selection.ofPatterns ["**/*.js", "!build/*"] = .ok buildSelection := rfl
  have hpruned : buildSelection.prunes "build" = true := by decide
  refine ⟨hs, hpruned, by decide, ?_, ?_⟩
  · have hpaths : ((Tree.dir buildTree).paths.filter fun names =>
        isEntered names && buildSelection.selects (relativePath names)) =
        [["build", "sub", "x.js"]] := by decide
    rw [unprunedFiles, hpaths]
    exact List.mergeSort_singleton _
  · have hpaths : ((Tree.dir buildTree).paths.filter fun names => isEntered names &&
        !buildSelection.hides names && buildSelection.selects (relativePath names)) = [] := by
      decide
    rw [filesMatching, hs]
    show Except.ok (selectedFiles buildSelection (.dir buildTree)) = _
    rw [selectedFiles_eq, hpaths]
    exact congrArg Except.ok List.mergeSort_nil

end FrontendAudit.Disk
