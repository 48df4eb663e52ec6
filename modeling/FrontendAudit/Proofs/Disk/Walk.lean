import FrontendAudit.Disk.Walk

/-!
# What a walk finds

A file of a project is known by the names on the way to it. The walk of a selection finds exactly
the files whose path is selected and on whose way no directory is skipped or pruned
(`selectedFiles_eq`), the tree being gone through as a whole (`Tree.paths`) with nothing left out.
-/

namespace FrontendAudit

namespace Disk

/-- The names on the way to each file of a tree. -/
def Tree.paths (t : Tree) : List (List String) := (t.files []).map (·.1)

/-- The text of a relative path. -/
def relativePath (names : List String) : String := names.foldl pathBelow ""

/-- The directories on the way to a file. -/
def directoriesOf : List String → List (List String)
  | [] => []
  | [_] => []
  | name :: next :: names => [name] :: (directoriesOf (next :: names)).map (name :: ·)

/-- Whether no directory on the way to a file is one of those that are never entered. -/
def isEntered (names : List String) : Bool :=
  names.dropLast.all fun name => !skippedNames.contains name

end Disk

open Disk

/-- Whether a directory on the way to a file is pruned. -/
def Selection.hides (s : Selection) (names : List String) : Bool :=
  (directoriesOf names).any fun directory => s.prunes (relativePath directory)

namespace Disk

/-- The directories on the way to a file are the beginnings of its path. -/
theorem mem_directoriesOf {names directory : List String} :
    directory ∈ directoriesOf names ↔
      directory ≠ [] ∧ ∃ rest, rest ≠ [] ∧ names = directory ++ rest := by
  induction names generalizing directory with
  | nil =>
      constructor
      · intro h
        cases h
      · rintro ⟨hne, rest, -, heq⟩
        exact absurd (List.append_eq_nil_iff.mp heq.symm).1 hne
  | cons name names ih =>
      cases names with
      | nil =>
          constructor
          · intro h
            cases h
          · rintro ⟨hne, rest, hrest, heq⟩
            cases directory with
            | nil => exact absurd rfl hne
            | cons d directory =>
                have htail := (List.cons.inj heq).2
                exact absurd (List.append_eq_nil_iff.mp htail.symm).2 hrest
      | cons next names =>
          rw [directoriesOf, List.mem_cons, List.mem_map]
          constructor
          · rintro (rfl | ⟨directory, hmem, rfl⟩)
            · exact ⟨List.cons_ne_nil _ _, next :: names, List.cons_ne_nil _ _, rfl⟩
            · obtain ⟨-, rest, hrest, heq⟩ := ih.mp hmem
              exact ⟨List.cons_ne_nil _ _, rest, hrest, by rw [heq]; rfl⟩
          · rintro ⟨hne, rest, hrest, heq⟩
            cases directory with
            | nil => exact absurd rfl hne
            | cons d directory =>
                obtain ⟨rfl, htail⟩ := List.cons.inj heq
                cases directory with
                | nil => exact .inl rfl
                | cons e directory =>
                    exact .inr ⟨e :: directory,
                      ih.mpr ⟨List.cons_ne_nil _ _, rest, hrest, htail⟩, rfl⟩

/-- A path below another is written with a slash in front of each name. -/
theorem toList_foldl_pathBelow {start : String} (hstart : start ≠ "") (names : List String) :
    (names.foldl pathBelow start).toList =
      start.toList ++ names.flatMap fun name => '/' :: name.toList := by
  induction names generalizing start with
  | nil => simp
  | cons name names ih =>
      have hstep : pathBelow start name = start ++ "/" ++ name := by
        rw [pathBelow, if_neg]
        simpa [String.isEmpty_iff] using hstart
      have hne : start ++ "/" ++ name ≠ "" := by
        intro h
        have := congrArg String.toList h
        simp at this
      rw [List.foldl_cons, hstep, ih hne]
      simp

/-! ## The walk step by step -/

/-- Whether a walk that is in a directory gets to a file below it. -/
def reaches (s : Selection) (directory : String) : List String → Bool
  | [] => true
  | [_] => true
  | name :: next :: names =>
    !skippedNames.contains name && !s.prunes (pathBelow directory name) &&
      reaches s (pathBelow directory name) (next :: names)

/-- A walk gets to a file when no directory on the way is skipped and none is pruned. -/
theorem reaches_eq (s : Selection) (directory : String) (names : List String) :
    reaches s directory names =
      (isEntered names &&
        !(directoriesOf names).any fun d => s.prunes (d.foldl pathBelow directory)) := by
  induction names generalizing directory with
  | nil => rfl
  | cons name names ih =>
      cases names with
      | nil => rfl
      | cons next names =>
          rw [reaches, ih, directoriesOf, List.any_cons, List.any_map]
          show (!skippedNames.contains name && !s.prunes (pathBelow directory name) &&
              (isEntered (next :: names) && !(directoriesOf (next :: names)).any
                fun d => s.prunes (d.foldl pathBelow (pathBelow directory name)))) =
            ((!skippedNames.contains name && isEntered (next :: names)) &&
              !(s.prunes (pathBelow directory name) || (directoriesOf (next :: names)).any
                fun d => s.prunes (d.foldl pathBelow (pathBelow directory name))))
          rw [Bool.not_or]
          cases skippedNames.contains name <;> cases s.prunes (pathBelow directory name) <;>
            cases isEntered (next :: names) <;> rfl

section

variable (s : Selection)

/-- Whether a walk in a directory finds a file, given by the names on the way from there. -/
def finds (directory : String) (names : List String) : Bool :=
  reaches s directory names && s.selects (names.foldl pathBelow directory)

mutual

theorem files_cons (name : String) (below : List String) : ∀ t : Tree,
    t.files (name :: below) = (t.files below).map fun f => (name :: f.1, f.2)
  | .file data => rfl
  | .dir entries => by
      rw [Tree.files, Tree.files]
      exact filesOf_cons name below entries

theorem filesOf_cons (name : String) (below : List String) : ∀ entries : List (String × Tree),
    Tree.filesOf (name :: below) entries =
      (Tree.filesOf below entries).map fun f => (name :: f.1, f.2)
  | [] => rfl
  | (n, t) :: entries => by
      rw [Tree.filesOf, Tree.filesOf, List.map_append]
      show t.files (name :: (below ++ [n])) ++ _ = _
      rw [files_cons name (below ++ [n]) t, filesOf_cons name below entries]

end

theorem ne_nil_of_mem_filesOf {below : List String} {entries : List (String × Tree)} :
    ∀ f ∈ Tree.filesOf below entries, f.1 ≠ [] := by
  cases below with
  | cons name below =>
      rw [filesOf_cons]
      intro f hf
      obtain ⟨g, -, rfl⟩ := List.mem_map.mp hf
      exact List.cons_ne_nil _ _
  | nil =>
      induction entries with
      | nil =>
          intro f hf
          cases hf
      | cons entry entries ih =>
          intro f hf
          rw [Tree.filesOf, List.nil_append, files_cons] at hf
          rcases List.mem_append.mp hf with hf | hf
          · obtain ⟨g, -, rfl⟩ := List.mem_map.mp hf
            exact List.cons_ne_nil _ _
          · exact ih f hf

mutual

/-- What the walk finds among the entries of a directory. -/
theorem selectedIn_eq (directory : String) : ∀ entries : List (String × Tree),
    selectedIn s directory entries =
      (((Tree.filesOf [] entries).map (·.1)).filter (finds s directory)).map
        (·.foldl pathBelow directory)
  | [] => rfl
  | (name, t) :: entries => by
      rw [selectedIn, selectedAt_eq directory name t, selectedIn_eq directory entries, Tree.filesOf,
        List.map_append, List.filter_append, List.map_append]
      rfl

/-- What the walk finds at an entry of a directory. -/
theorem selectedAt_eq (directory name : String) : ∀ t : Tree,
    selectedAt s (pathBelow directory name) name t =
      (((t.files [name]).map (·.1)).filter (finds s directory)).map (·.foldl pathBelow directory)
  | .file data => by
      show _ = ([[name]].filter (finds s directory)).map _
      rw [selectedAt, List.filter_cons]
      show (if s.selects (pathBelow directory name) then _ else _) =
        (if s.selects (pathBelow directory name) then _ else _ : List (List String)).map _
      split <;> rfl
  | .dir entries => by
      -- the files below keep their names and get one more in front, which decides whether the
      -- directory is entered at all
      have hstep : ∀ names ∈ (Tree.filesOf [] entries).map (·.1),
          finds s directory (name :: names) =
            ((!skippedNames.contains name && !s.prunes (pathBelow directory name)) &&
              finds s (pathBelow directory name) names) := by
        intro names hnames
        obtain ⟨f, hf, rfl⟩ := List.mem_map.mp hnames
        obtain ⟨next, rest, hne⟩ := List.exists_cons_of_ne_nil (ne_nil_of_mem_filesOf f hf)
        show (reaches s directory (name :: f.1) && _) = (_ && (reaches s _ f.1 && _))
        rw [hne, reaches, Bool.and_assoc]
        rfl
      have hfiles : (Tree.files [name] (.dir entries)).map (·.1) =
          ((Tree.filesOf [] entries).map (·.1)).map (name :: ·) := by
        rw [Tree.files, filesOf_cons, List.map_map, List.map_map]
        rfl
      rw [hfiles, List.filter_map, List.map_map, selectedAt, selectedIn_eq]
      have hfilter : ((Tree.filesOf [] entries).map (·.1)).filter
            (finds s directory ∘ (name :: ·)) =
          ((Tree.filesOf [] entries).map (·.1)).filter fun names =>
            (!skippedNames.contains name && !s.prunes (pathBelow directory name)) &&
              finds s (pathBelow directory name) names :=
        List.filter_congr hstep
      rw [hfilter]
      cases hskip : skippedNames.contains name <;>
        cases hprune : s.prunes (pathBelow directory name) <;> simp

end

end

/-- A walk finds the files whose path is selected and on whose way no directory is skipped or
pruned. -/
theorem selectedFiles_eq (s : Selection) (entries : List (String × Tree)) :
    selectedFiles s (.dir entries) = sortPaths (((Tree.dir entries).paths.filter fun names =>
      isEntered names && !s.hides names && s.selects (relativePath names)).map relativePath) := by
  rw [selectedFiles, selectedIn_eq]
  congr 2
  refine List.filter_congr fun names _ => ?_
  rw [finds, reaches_eq]
  rfl

end Disk

end FrontendAudit
