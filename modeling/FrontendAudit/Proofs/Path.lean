import FrontendAudit.Host
import FrontendAudit.Proofs.Disk.Walk

/-!
# Where paths lead

A path that is written from the names of files reads back as these names
(`Path.ofString_relativePath`). So what lies in a place that a host has located is located by the
names on the way there (`Host.locate_child`, `Host.locate_below`), and the way to every place goes
through names that files may have (`Host.isFileName_of_mem_locate`).
-/

namespace FrontendAudit

/-- A name that a file may have: not empty, without a slash, and not one of the names for the
directory itself and the one above. -/
def IsFileName (name : String) : Prop :=
  name ≠ "" ∧ name ≠ "." ∧ name ≠ ".." ∧ '/' ∉ name.toList

instance (name : String) : Decidable (IsFileName name) :=
  inferInstanceAs (Decidable (_ ∧ _ ∧ _ ∧ _))

/-! ## Splitting -/

namespace Text

variable {sep : Char} {s : List Char}

theorem splitOn_of_not_mem (h : sep ∉ s) : splitOn sep s = [s] := by
  induction s with
  | nil => rfl
  | cons c s ih =>
      rw [List.mem_cons, not_or] at h
      rw [splitOn_cons, if_neg (Ne.symm h.1), ih h.2]
      rfl

theorem splitOn_append_cons (h : sep ∉ s) (t : List Char) :
    splitOn sep (s ++ sep :: t) = s :: splitOn sep t := by
  induction s with
  | nil => rw [List.nil_append, splitOn_cons, if_pos rfl]
  | cons c s ih =>
      rw [List.mem_cons, not_or] at h
      rw [List.cons_append, splitOn_cons, if_neg (Ne.symm h.1), ih h.2]
      rfl

/-- Pieces with separators between them are found again. -/
theorem splitOn_append_flatMap (h : sep ∉ s) {pieces : List (List Char)}
    (hpieces : ∀ piece ∈ pieces, sep ∉ piece) :
    splitOn sep (s ++ pieces.flatMap (sep :: ·)) = s :: pieces := by
  induction pieces generalizing s with
  | nil => rw [List.flatMap_nil, List.append_nil, splitOn_of_not_mem h]
  | cons piece pieces ih =>
      rw [List.forall_mem_cons] at hpieces
      rw [List.flatMap_cons, List.cons_append, splitOn_append_cons h, ih hpieces.1 hpieces.2]

end Text

/-! ## Paths -/

namespace Path

open Disk (relativePath)

theorem anchorOf_of_slash_not_mem {s : String} {c : Char} {t : List Char} (h : s.toList = c :: t)
    (hc : c ≠ '/') : anchorOf s = .here := by
  rw [anchorOf, h, List.takeWhile_cons]
  simp [hc]

theorem toList_relativePath_cons {name : String} (hname : name ≠ "") (names : List String) :
    (relativePath (name :: names)).toList =
      name.toList ++ (names.map String.toList).flatMap ('/' :: ·) := by
  rw [relativePath, List.foldl_cons, show Disk.pathBelow "" name = name from rfl,
    Disk.toList_foldl_pathBelow hname, List.flatMap_map]

/-- Splitting a relative path at its slashes finds the names again. -/
theorem splitOn_relativePath {names : List String} (hne : names ≠ [])
    (hnames : ∀ name ∈ names, IsFileName name) :
    Text.splitOn '/' (relativePath names).toList = names.map String.toList := by
  obtain ⟨name, names, rfl⟩ := List.exists_cons_of_ne_nil hne
  rw [List.forall_mem_cons] at hnames
  obtain ⟨⟨hempty, -, -, hslash⟩, hrest⟩ := hnames
  rw [toList_relativePath_cons hempty, Text.splitOn_append_flatMap hslash]
  · rfl
  · intro piece hpiece
    obtain ⟨n, hn, rfl⟩ := List.mem_map.mp hpiece
    exact (hrest n hn).2.2.2

/-- The names of a relative path are read from its text. -/
theorem ofString_relativePath {names : List String} (hne : names ≠ [])
    (hnames : ∀ name ∈ names, IsFileName name) :
    ofString (relativePath names) = ⟨.here, names⟩ := by
  have hpieces := splitOn_relativePath hne hnames
  obtain ⟨name, names, rfl⟩ := List.exists_cons_of_ne_nil hne
  rw [List.forall_mem_cons] at hnames
  obtain ⟨⟨hempty, hhere, hup, hslash⟩, hrest⟩ := hnames
  -- none is empty or the name of the directory itself, so all are kept
  have hparts : partsOf (relativePath (name :: names)) = name :: names := by
    rw [partsOf, hpieces, List.map_map, List.filter_eq_self.mpr]
    · have hid : String.ofList ∘ String.toList = id := funext fun n => String.ofList_toList
      rw [hid, List.map_id]
    · intro part hpart
      obtain ⟨n, hn, rfl⟩ := List.mem_map.mp hpart
      have hname : IsFileName n := by
        rcases List.mem_cons.mp hn with rfl | hn
        · exact ⟨hempty, hhere, hup, hslash⟩
        · exact hrest n hn
      simp [hname.1, hname.2.1]
  have hanchor : anchorOf (relativePath (name :: names)) = .here := by
    obtain ⟨c, t, hchars⟩ := List.exists_cons_of_ne_nil (mt String.toList_eq_nil_iff.mp hempty)
    refine anchorOf_of_slash_not_mem (c := c)
      (by rw [toList_relativePath_cons hempty, hchars]; rfl) ?_
    rintro rfl
    exact hslash (by rw [hchars]; exact List.mem_cons_self)
  rw [ofString, hparts, hanchor]

theorem ofString_name {name : String} (h : IsFileName name) : ofString name = ⟨.here, [name]⟩ :=
  ofString_relativePath (List.cons_ne_nil name []) (by simpa using h)

/-- The parts of a text are names that files may have, and goings up. -/
theorem isFileName_of_mem_partsOf {s name : String} (h : name ∈ partsOf s) (hup : name ≠ "..") :
    IsFileName name := by
  obtain ⟨hbetween, hcounts⟩ := List.mem_filter.mp h
  obtain ⟨piece, hpiece, rfl⟩ := List.mem_map.mp hbetween
  have hslash : '/' ∉ piece := Text.not_mem_of_mem_splitOn hpiece
  rw [Bool.and_eq_true, bne_iff_ne, bne_iff_ne] at hcounts
  exact ⟨hcounts.1, hcounts.2, hup, by rwa [String.toList_ofList]⟩

/-! ## Texts of paths -/

theorem toString_ne_empty {p : Path} (h : "" ∉ p.parts) : p.toString ≠ "" := by
  obtain ⟨anchor, parts⟩ := p
  cases parts with
  | nil => cases anchor <;> decide
  | cons part parts =>
      have hpart : part ≠ "" := fun heq => h (heq ▸ List.mem_cons_self)
      have hjoined : "/".intercalate (part :: parts) ≠ "" := by
        cases parts with
        | nil => simpa using hpart
        | cons next parts =>
            rw [String.intercalate_cons_of_ne_nil (List.cons_ne_nil _ _)]
            simp [hpart]
      simp [toString, hjoined]

/-- A path without empty names is shown as something. -/
theorem display_ne_empty {p : Path} (h : "" ∉ p.parts) (root : Path) : p.display root ≠ "" := by
  unfold display below?
  split
  · exact toString_ne_empty fun hmem => h (List.mem_of_mem_drop hmem)
  · exact toString_ne_empty h

theorem toString_child (directory : Path) {name : String} (hname : IsFileName name) :
    (directory.child name).toString =
      directory.anchor.text ++ "/".intercalate (directory.parts ++ [name]) := by
  rw [child, ofString_name hname]
  show toString ⟨directory.anchor, directory.parts ++ [name]⟩ = _
  unfold toString
  split
  · next hparts => simp at hparts
  · rfl

/-- Paths of two names in a directory have different texts. -/
theorem child_toString_inj {directory : Path} {name other : String} (hname : IsFileName name)
    (hother : IsFileName other)
    (h : (directory.child name).toString = (directory.child other).toString) : name = other := by
  rw [toString_child directory hname, toString_child directory hother, String.append_right_inj] at h
  by_cases hparts : directory.parts = []
  · rw [hparts] at h
    simpa using h
  · rw [String.intercalate_append_of_ne_nil hparts (List.cons_ne_nil _ _),
      String.intercalate_append_of_ne_nil hparts (List.cons_ne_nil _ _),
        String.append_right_inj] at h
    simpa using h

/-! ## Going up -/

/-- Names are gone down to one after the other. -/
theorem collapse_append (parts : List String) {names : List String} (h : ".." ∉ names) :
    collapse (parts ++ names) = collapse parts ++ names := by
  rw [collapse, List.foldl_append]
  generalize hdone : parts.foldl _ [] = done
  show _ = collapse parts ++ names
  rw [show collapse parts = done from hdone]
  clear hdone
  induction names generalizing done with
  | nil => rw [List.foldl_nil, List.append_nil]
  | cons name names ih =>
      rw [List.mem_cons, not_or] at h
      rw [List.foldl_cons, if_neg (Ne.symm h.1), ih h.2, List.append_assoc]
      rfl

theorem collapse_of_not_mem {parts : List String} (h : ".." ∉ parts) : collapse parts = parts :=
  collapse_append [] h

/-- What is left when all goings up are done was there before. -/
theorem mem_of_mem_collapse {parts : List String} {name : String} (h : name ∈ collapse parts) :
    name ∈ parts := by
  -- in general some parts are done already
  have hfrom : ∀ done : List String,
      name ∈ parts.foldl (fun done part => if part = ".." then done.dropLast else done ++ [part])
        done → name ∈ done ∨ name ∈ parts := by
    clear h
    induction parts with
    | nil => exact fun done h => .inl h
    | cons part parts ih =>
        intro done h
        rw [List.foldl_cons] at h
        rcases ih _ h with h | h
        · split at h
          · exact .inl (List.dropLast_subset done h)
          · rcases List.mem_append.mp h with h | h
            · exact .inl h
            · exact .inr (List.mem_singleton.mp h ▸ List.mem_cons_self)
        · exact .inr (List.mem_cons_of_mem part h)
  rcases hfrom [] h with h | h
  · cases h
  · exact h

/-- When all goings up are done none is left. -/
theorem up_not_mem_collapse (parts : List String) : ".." ∉ collapse parts := by
  have hfrom : ∀ done : List String, ".." ∉ done →
      ".." ∉ parts.foldl (fun done part => if part = ".." then done.dropLast else done ++ [part])
        done := by
    induction parts with
    | nil => exact fun done h => h
    | cons part parts ih =>
        intro done h
        rw [List.foldl_cons]
        refine ih _ ?_
        split
        · exact fun hmem => h (List.dropLast_subset done hmem)
        · next hpart => simpa [Ne.symm hpart] using h
  exact hfrom [] List.not_mem_nil

end Path

namespace Host

variable (h : Host)

open Disk (relativePath)

theorem join_of_names (p : Path) (names : List String) :
    p.join ⟨.here, names⟩ = ⟨p.anchor, p.parts ++ names⟩ := rfl

theorem locate_append (anchor : Anchor) (parts : List String) {names : List String}
    (hnames : ".." ∉ names) :
    h.locate ⟨anchor, parts ++ names⟩ = h.locate ⟨anchor, parts⟩ ++ names := by
  cases anchor with
  | here =>
      show Path.collapse (h.cwd.parts ++ (parts ++ names)) = _
      rw [← List.append_assoc, Path.collapse_append _ hnames]
      rfl
  | root => exact Path.collapse_append _ hnames
  | doubleRoot => exact Path.collapse_append _ hnames

/-- What has a name in a directory lies in the directory's place under this name. -/
theorem locate_child (p : Path) {name : String} (hname : IsFileName name) :
    h.locate (p.child name) = h.locate p ++ [name] := by
  rw [Path.child, Path.ofString_name hname, join_of_names, locate_append]
  simpa using Ne.symm hname.2.2.1

/-- A text is located under names that files may have, if the current directory is. -/
theorem isFileName_of_mem_locate (hcwd : ∀ name ∈ h.cwd.parts, IsFileName name) (s : String)
    {name : String} (hname : name ∈ h.locate (.ofString s)) : IsFileName name := by
  have hup : name ≠ ".." := by
    rintro rfl
    exact Path.up_not_mem_collapse _ hname
  have hpart : name ∈ (h.cwd.join (.ofString s)).parts := Path.mem_of_mem_collapse hname
  unfold Path.join at hpart
  split at hpart
  · rcases List.mem_append.mp hpart with hpart | hpart
    · exact hcwd name hpart
    · exact Path.isFileName_of_mem_partsOf hpart hup
  · exact Path.isFileName_of_mem_partsOf hpart hup

/-- A place that was located stays where it is. -/
theorem locate_resolve (p : Path) : h.locate (p.resolve h.cwd) = (p.resolve h.cwd).parts :=
  Path.collapse_of_not_mem (Path.up_not_mem_collapse _)

/-- A file below a directory lies in the directory's place under the names on the way to it. -/
theorem locate_below (p : Path) {names : List String} (hne : names ≠ [])
    (hnames : ∀ name ∈ names, IsFileName name) :
    ((p.resolve h.cwd).join (.ofString (relativePath names))).parts =
        (p.resolve h.cwd).parts ++ names ∧
      h.locate ((p.resolve h.cwd).join (.ofString (relativePath names))) =
        (p.resolve h.cwd).parts ++ names := by
  have hup : ".." ∉ names := fun hmem => (hnames _ hmem).2.2.1 rfl
  rw [Path.ofString_relativePath hne hnames, join_of_names]
  refine ⟨rfl, ?_⟩
  rw [locate_append h _ _ hup]
  exact congrArg (· ++ names) (h.locate_resolve p)

end Host

end FrontendAudit
