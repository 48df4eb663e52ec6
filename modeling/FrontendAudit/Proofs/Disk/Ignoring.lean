import FrontendAudit.Proofs.Disk.Endings
import FrontendAudit.Proofs.Disk.Listing
import Mathlib.Data.List.Sort

/-!
# What an ignore file takes away

Everything an ignore file says is an excluding pattern. Such patterns add globs that exclude to
every selection of a category, each time the same ones, and a file is found just when it would be
found without them and none of them covers its path or the way to it
(`Category.files_eq_unlessBarred`). So what a category finds shrinks when lines are added to the
ignore file, whatever they are, and does not depend on their order or on how often they stand there
(`more_ignored_less_found`).
-/

namespace FrontendAudit

open Disk (Tree FileData relativePath directoriesOf sortPaths projectIgnorePatterns)

/-! ## Excluding patterns -/

namespace Selection

/-- A selection that excludes more. -/
def excluding (s : Selection) (globs : List Glob) : Selection :=
  { s with excludes := s.excludes ++ globs }

/-- The globs that an excluding pattern stands for. -/
def excludedBy (pattern : String) : Except Glob.GlobFault (List Glob) :=
  globsOf ((Text.strip pattern.toList).dropWhile (· = '!'))

/-- Whether globs exclude a file or prune a directory on the way to it. -/
def bars (globs : List Glob) (names : List String) : Bool :=
  globs.any (Glob.covers · (relativePath names).toList) ||
    (directoriesOf names).any fun directory =>
      globs.any (Glob.covers · ((relativePath directory).toList ++ ['/']))

section

variable {s : Selection} {patterns own ignored : List String} {excluded : List (List Glob)}
  {globs : List Glob} {names : List String}

theorem add_of_marked {pattern : String} (h : (Text.strip pattern.toList).head? = some '!') :
    s.add pattern = (excludedBy pattern).map s.excluding := by
  obtain ⟨rest, hstrip⟩ := List.head?_eq_some_iff.mp h
  have hrest : ('!' :: rest).dropWhile (· = '!') = rest.dropWhile (· = '!') :=
    List.dropWhile_cons_of_pos (by simp)
  unfold add excludedBy
  simp only [hstrip, hrest]
  cases globsOf (rest.dropWhile (· = '!')) <;> rfl

/-- Excluding patterns that can be read are all added to what is excluded. -/
theorem foldlM_add_of_marked
    (hmarked : ∀ pattern ∈ patterns, (Text.strip pattern.toList).head? = some '!')
    (h : patterns.mapM excludedBy = .ok excluded) :
    patterns.foldlM add s = .ok (s.excluding excluded.flatten) := by
  replace h := forall₂_of_mapM h
  induction h generalizing s with
  | nil => simp [excluding, pure, Except.pure]
  | cons hfirst _ ih =>
      rw [List.forall_mem_cons] at hmarked
      rw [List.foldlM_cons, add_of_marked hmarked.1, hfirst]
      refine (ih hmarked.2).trans ?_
      simp [excluding]

theorem ofPatterns_append_of_marked
    (hmarked : ∀ pattern ∈ ignored, (Text.strip pattern.toList).head? = some '!')
    (h : ignored.mapM excludedBy = .ok excluded) :
    ofPatterns (own ++ ignored) = (ofPatterns own).map (·.excluding excluded.flatten) := by
  rw [ofPatterns, List.foldlM_append]
  cases hown : own.foldlM add ⟨[], []⟩ with
  | error fault =>
      rw [ofPatterns, hown]
      rfl
  | ok s =>
      rw [ofPatterns, hown]
      exact foldlM_add_of_marked hmarked h

/-- Excluding patterns can be read together when each of them can. -/
theorem exists_excluded_iff
    (hmarked : ∀ pattern ∈ patterns, (Text.strip pattern.toList).head? = some '!') :
    (∃ s, ofPatterns patterns = .ok s) ↔ ∃ excluded, patterns.mapM excludedBy = .ok excluded := by
  rw [ofPatterns_succeeds_iff, exists_mapM_eq_ok]
  refine forall₂_congr fun pattern hpattern => ?_
  rw [← add_succeeds_iff ⟨[], []⟩, add_of_marked (hmarked pattern hpattern), Glob.exists_map_eq_ok]

theorem excluding_nil : s.excluding [] = s := by
  rw [excluding, List.append_nil]

theorem bars_nil (names : List String) : bars [] names = false := by
  simp [bars]

/-- A selection that excludes more finds the files that it found before and that the added globs do
not bar. -/
theorem finds_excluding :
    (s.excluding globs).finds names = (s.finds names && !bars globs names) := by
  have hselects : (s.excluding globs).selects (relativePath names) =
      (s.selects (relativePath names) &&
        !globs.any (Glob.covers · (relativePath names).toList)) := by
    rw [selects, selects, excluding, List.any_append, Bool.not_or, Bool.and_assoc]
  have hhides : (s.excluding globs).hides names =
      (s.hides names || (directoriesOf names).any fun directory =>
        globs.any (Glob.covers · ((relativePath directory).toList ++ ['/']))) := by
    rw [Bool.eq_iff_iff, Bool.or_eq_true, hides, hides, List.any_eq_true, List.any_eq_true,
      List.any_eq_true, ← exists_or]
    simp only [prunes, excluding, List.any_append, Bool.or_eq_true, and_or_left]
  rw [finds, finds, bars, hselects, hhides, Bool.not_or, Bool.not_or]
  ac_rfl

end

end Selection

/-! ## The selections of a category -/

namespace Category

/-- The files, among some, that one of the selections finds and that the globs do not bar,
sorted. -/
def unlessBarred (selections : List Selection) (globs : List Glob) (paths : List (List String)) :
    List String :=
  sortPaths (selections.flatMap fun s =>
    sortPaths ((paths.filter (s.excluding globs).finds).map relativePath)).eraseDups

section

variable {selections : List Selection} {globs globs' : List Glob} {paths : List (List String)}

theorem mem_unlessBarred {path : String} :
    path ∈ unlessBarred selections globs paths ↔
      ∃ names ∈ paths, relativePath names = path ∧ (∃ s ∈ selections, s.finds names = true) ∧
        Selection.bars globs names = false := by
  simp only [unlessBarred, Disk.mem_sortPaths, List.mem_eraseDups, List.mem_flatMap, List.mem_map,
    List.mem_filter, Selection.finds_excluding, Bool.and_eq_true, Bool.not_eq_true']
  constructor
  · rintro ⟨s, hs, names, ⟨hnames, hfinds, hbars⟩, rfl⟩
    exact ⟨names, hnames, rfl, ⟨s, hs, hfinds⟩, hbars⟩
  · rintro ⟨names, hnames, rfl, ⟨s, hs, hfinds⟩, hbars⟩
    exact ⟨s, hs, names, ⟨hnames, hfinds, hbars⟩, rfl⟩

theorem pairwise_lt_unlessBarred : (unlessBarred selections globs paths).Pairwise (· < ·) :=
  Disk.pairwise_lt_sortPaths (nodup_eraseDups _)

/-- More globs that bar leave fewer files, in the same order. -/
theorem unlessBarred_sublist (h : ∀ g ∈ globs, g ∈ globs') :
    (unlessBarred selections globs' paths).Sublist (unlessBarred selections globs paths) := by
  have hbars : ∀ names, Selection.bars globs names = true → Selection.bars globs' names = true := by
    intro names hbars
    have hmore : ∀ p : Glob → Bool, globs.any p = true → globs'.any p = true := by
      intro p hany
      obtain ⟨g, hg, hp⟩ := List.any_eq_true.mp hany
      exact List.any_eq_true.mpr ⟨g, h g hg, hp⟩
    rw [Selection.bars, Bool.or_eq_true] at hbars ⊢
    refine hbars.imp (hmore _) fun hprunes => ?_
    obtain ⟨directory, hdirectory, hany⟩ := List.any_eq_true.mp hprunes
    exact List.any_eq_true.mpr ⟨directory, hdirectory, hmore _ hany⟩
  have hsubset : unlessBarred selections globs' paths ⊆ unlessBarred selections globs paths := by
    intro path hpath
    obtain ⟨names, hnames, hrelative, hfinds, hbarred⟩ := mem_unlessBarred.mp hpath
    refine mem_unlessBarred.mpr ⟨names, hnames, hrelative, hfinds, ?_⟩
    exact Bool.eq_false_iff.mpr fun htrue => Bool.eq_false_iff.mp hbarred (hbars names htrue)
  have : Std.Antisymm (· < · : String → String → Prop) :=
    ⟨fun a b hab hba => absurd hba (String.lt_asymm hab)⟩
  have hnodup : (unlessBarred selections globs' paths).Nodup :=
    pairwise_lt_unlessBarred.imp fun hlt => String.ne_of_lt hlt
  exact List.sublist_of_subperm_of_pairwise (List.subperm_of_subset hnodup hsubset)
    pairwise_lt_unlessBarred pairwise_lt_unlessBarred

end

variable {c : Config} {category : Category} {entries : List (String × Tree)}
  {excluded : List (List Glob)}

/-- What a category finds, where the ignore file can be read: the files that one of its pattern
lists finds and that the ignore file does not bar. -/
theorem files_eq_unlessBarred (hread : c.ignoreFile = true)
    (h : (projectIgnorePatterns (.dir entries)).mapM Selection.excludedBy = .ok excluded) :
    category.files c (.dir entries) = ((category.patterns c).mapM Selection.ofPatterns).map
      (unlessBarred · excluded.flatten (Tree.dir entries).paths) := by
  have hmarked : ∀ pattern ∈ projectIgnorePatterns (.dir entries),
      (Text.strip pattern.toList).head? = some '!' := by
    unfold projectIgnorePatterns
    split
    · exact Disk.head?_of_mem_ignorePatterns
    · simp
  have hselections : (category.patternGroups c (.dir entries)).mapM Selection.ofPatterns =
      ((category.patterns c).mapM Selection.ofPatterns).map
        (List.map (·.excluding excluded.flatten)) := by
    rw [patternGroups, if_pos hread, List.mapM_map, ← mapM_map]
    exact mapM_congr fun own _ => Selection.ofPatterns_append_of_marked hmarked h
  rw [files_eq, hselections]
  cases (category.patterns c).mapM Selection.ofPatterns with
  | error fault => rfl
  | ok selections =>
      refine congrArg Except.ok ?_
      simp only [unlessBarred, List.flatMap_map, Disk.selectedFiles_eq]
      rfl

theorem files_eq_of_not_read (hread : c.ignoreFile = false) :
    category.files c (.dir entries) = ((category.patterns c).mapM Selection.ofPatterns).map
      (unlessBarred · [] (Tree.dir entries).paths) := by
  have hgroups : category.patternGroups c (.dir entries) = category.patterns c := by
    rw [patternGroups, if_neg (by simp [hread])]
    simp
  rw [files_eq, hgroups]
  cases (category.patterns c).mapM Selection.ofPatterns with
  | error fault => rfl
  | ok selections =>
      refine congrArg Except.ok ?_
      simp only [unlessBarred, Disk.selectedFiles_eq, Selection.excluding_nil]
      rfl

end Category

/-! ## One project with different ignore files -/

namespace Disk

/-- The entries of a project with an ignore file that holds something. -/
def withIgnoreFile (data : FileData) (entries : List (String × Tree)) : List (String × Tree) :=
  Tree.setEntry ignoreFileName (.file data) entries

/-- The lines of an ignore file. -/
def ignoreLines (data : FileData) : List (List Char) := Text.breakLines data.readTolerant

variable {data data' : FileData} {entries : List (String × Tree)}

theorem projectIgnorePatterns_withIgnoreFile :
    projectIgnorePatterns (.dir (withIgnoreFile data entries)) =
      ignorePatterns data.readTolerant := by
  rw [projectIgnorePatterns, Tree.file?, Tree.at?, withIgnoreFile, Tree.named?_setEntry_self]
  rfl

/-- What the ignore file holds does not change which files there are. -/
theorem paths_withIgnoreFile (data data' : FileData) (entries : List (String × Tree)) :
    (Tree.dir (withIgnoreFile data entries)).paths =
      (Tree.dir (withIgnoreFile data' entries)).paths := by
  rw [Tree.paths_dir, Tree.paths_dir, withIgnoreFile, withIgnoreFile]
  induction entries with
  | nil => rfl
  | cons e entries ih =>
      by_cases he : e.1 = ignoreFileName
      · rw [Tree.setEntry, Tree.setEntry, if_pos he, if_pos he]
        rfl
      · rw [Tree.setEntry, Tree.setEntry, if_neg he, if_neg he, List.flatMap_cons,
          List.flatMap_cons, ih]

/-- Every pattern of some lines is one of more lines. -/
theorem mem_ignorePatterns_of_lines (h : ∀ line ∈ ignoreLines data, line ∈ ignoreLines data')
    {pattern : String} (hpattern : pattern ∈ ignorePatterns data.readTolerant) :
    pattern ∈ ignorePatterns data'.readTolerant := by
  obtain ⟨line, hline, hmem⟩ := List.mem_flatMap.mp hpattern
  exact List.mem_flatMap.mpr ⟨line, h line hline, hmem⟩

/-- The globs of some patterns are among those of more patterns. -/
theorem mem_excluded_of_subset {patterns patterns' : List String}
    {excluded excluded' : List (List Glob)} (hsubset : ∀ pattern ∈ patterns, pattern ∈ patterns')
    (h : patterns.mapM Selection.excludedBy = .ok excluded)
    (h' : patterns'.mapM Selection.excludedBy = .ok excluded') :
    ∀ g ∈ excluded.flatten, g ∈ excluded'.flatten := by
  intro g hg
  obtain ⟨globs, hglobs, hmem⟩ := List.mem_flatten.mp hg
  obtain ⟨pattern, hpattern, hexcluded⟩ := exists_of_mem_mapM h hglobs
  obtain ⟨globs', hglobs', hexcluded'⟩ := exists_mem_of_mapM h' (hsubset pattern hpattern)
  obtain rfl : globs = globs' := Except.ok.inj (hexcluded.symm.trans hexcluded')
  exact List.mem_flatten.mpr ⟨globs, hglobs', hmem⟩

end Disk

open Disk

namespace Category

variable {c : Config} {category : Category} {entries : List (String × Tree)} {data : FileData}
  {excluded : List (List Glob)}

/-- What a category finds in a project with an ignore file, by what its own patterns select and by
the globs of the ignore file if it is read. -/
theorem files_withIgnoreFile
    (h : (ignorePatterns data.readTolerant).mapM Selection.excludedBy = .ok excluded) :
    category.files c (.dir (withIgnoreFile data entries)) =
      ((category.patterns c).mapM Selection.ofPatterns).map
        (unlessBarred · (if c.ignoreFile then excluded.flatten else [])
          (Tree.dir (withIgnoreFile data entries)).paths) := by
  cases hread : c.ignoreFile with
  | true =>
      rw [if_pos rfl]
      exact files_eq_unlessBarred hread (by rw [projectIgnorePatterns_withIgnoreFile]; exact h)
  | false =>
      rw [if_neg Bool.false_ne_true]
      exact files_eq_of_not_read hread

/-- More lines leave fewer files, whether or not the ignore file is read. -/
theorem unlessBarred_sublist_of_lines {data' : FileData} {excluded' : List (List Glob)}
    (hlines : ∀ line ∈ ignoreLines data, line ∈ ignoreLines data')
    (h : (ignorePatterns data.readTolerant).mapM Selection.excludedBy = .ok excluded)
    (h' : (ignorePatterns data'.readTolerant).mapM Selection.excludedBy = .ok excluded')
    (isRead : Bool) (selections : List Selection) (paths : List (List String)) :
    (unlessBarred selections (if isRead then excluded'.flatten else []) paths).Sublist
      (unlessBarred selections (if isRead then excluded.flatten else []) paths) := by
  cases isRead with
  | true =>
      exact unlessBarred_sublist
        (mem_excluded_of_subset (fun _ => mem_ignorePatterns_of_lines hlines) h h')
  | false => exact .refl _

/-- Where a category that has patterns finds files, all that the ignore file says can be read. -/
theorem exists_excluded_of_files {files : List String} (hread : c.ignoreFile = true)
    (h : category.files c (.dir (withIgnoreFile data entries)) = .ok files)
    (hpatterns : category.patterns c ≠ []) :
    ∃ excluded, (ignorePatterns data.readTolerant).mapM Selection.excludedBy = .ok excluded := by
  obtain ⟨own, others, hown⟩ := List.exists_cons_of_ne_nil hpatterns
  have hgroup : own ++ ignorePatterns data.readTolerant ∈
      category.patternGroups c (.dir (withIgnoreFile data entries)) := by
    rw [patternGroups, if_pos hread, hown, projectIgnorePatterns_withIgnoreFile]
    exact List.mem_cons_self
  refine (Selection.exists_excluded_iff head?_of_mem_ignorePatterns).mp ?_
  refine (Selection.ofPatterns_succeeds_iff _).mpr fun pattern hpattern => ?_
  exact files_succeeds_iff.mp ⟨files, h⟩ _ hgroup pattern (List.mem_append_right own hpattern)

/-- Whatever an ignore file holds, it adds nothing to what is found without it. -/
theorem files_sublist_of_not_read {files : List String}
    (h : category.files c (.dir (withIgnoreFile data entries)) = .ok files) :
    ∃ files', category.files { c with ignoreFile := false } (.dir (withIgnoreFile data entries)) =
      .ok files' ∧ files.Sublist files' := by
  have hpatterns : category.patterns { c with ignoreFile := false } = category.patterns c := by
    cases category <;> rfl
  have hfiles' :
      category.files { c with ignoreFile := false } (.dir (withIgnoreFile data entries)) = _ :=
    files_eq_of_not_read rfl
  rw [hpatterns] at hfiles'
  cases hread : c.ignoreFile with
  | false =>
      rw [files_eq_of_not_read hread] at h
      exact ⟨files, hfiles'.trans h, .refl _⟩
  | true =>
      by_cases hnone : category.patterns c = []
      · -- nothing is looked for
        rw [hnone] at hfiles'
        rw [files_eq, patternGroups, hnone] at h
        obtain rfl : sortPaths [] = files := Except.ok.inj h
        exact ⟨sortPaths [], hfiles', .refl _⟩
      · obtain ⟨excluded, hexcluded⟩ := exists_excluded_of_files hread h hnone
        rw [files_withIgnoreFile hexcluded] at h
        cases hselections : (category.patterns c).mapM Selection.ofPatterns with
        | error fault =>
            rw [hselections] at h
            cases h
        | ok selections =>
            rw [hselections] at h hfiles'
            obtain rfl := Except.ok.inj h
            exact ⟨_, hfiles', unlessBarred_sublist fun g hg => by cases hg⟩

end Category

/-- In one project, with ignore files that can be read: when every line of the first is one of the
second, a category can find files under the second exactly when it can under the first, and what it
finds is among what it found, in the same order. When both have the same lines, in whatever order
and however often, it finds the same. And nothing in an ignore file makes it find a file that it
does not find when the file is not read. -/
theorem more_ignored_less_found (c : Config) (category : Category) (entries : List (String × Tree))
    (first second : FileData)
    (hfirst : ∃ s, Selection.ofPatterns (ignorePatterns first.readTolerant) = .ok s)
    (hsecond : ∃ s, Selection.ofPatterns (ignorePatterns second.readTolerant) = .ok s) :
    ((∀ line ∈ ignoreLines first, line ∈ ignoreLines second) →
      (∀ fault, category.files c (.dir (withIgnoreFile second entries)) = .error fault ↔
        category.files c (.dir (withIgnoreFile first entries)) = .error fault) ∧
      ∀ found found', category.files c (.dir (withIgnoreFile first entries)) = .ok found →
        category.files c (.dir (withIgnoreFile second entries)) = .ok found' →
        found'.Sublist found) ∧
    ((∀ line, line ∈ ignoreLines first ↔ line ∈ ignoreLines second) →
      category.files c (.dir (withIgnoreFile second entries)) =
        category.files c (.dir (withIgnoreFile first entries))) ∧
    ∀ data found, category.files c (.dir (withIgnoreFile data entries)) = .ok found →
      ∃ found', category.files { c with ignoreFile := false } (.dir (withIgnoreFile data entries)) =
        .ok found' ∧ found.Sublist found' := by
  obtain ⟨excluded, hexcluded⟩ :=
    (Selection.exists_excluded_iff head?_of_mem_ignorePatterns).mp hfirst
  obtain ⟨excluded', hexcluded'⟩ :=
    (Selection.exists_excluded_iff head?_of_mem_ignorePatterns).mp hsecond
  have hfiles : category.files c (.dir (withIgnoreFile first entries)) = _ :=
    Category.files_withIgnoreFile hexcluded
  have hfiles' : category.files c (.dir (withIgnoreFile second entries)) = _ :=
    Category.files_withIgnoreFile hexcluded'
  rw [paths_withIgnoreFile second first] at hfiles'
  refine ⟨fun hlines => ?_, fun hlines => ?_, fun data found => Category.files_sublist_of_not_read⟩
  · rw [hfiles, hfiles']
    cases (category.patterns c).mapM Selection.ofPatterns with
    | error fault => simp [Except.map]
    | ok selections =>
        refine ⟨fun fault => by simp [Except.map], ?_⟩
        intro found found' hfound hfound'
        rw [← Except.ok.inj hfound, ← Except.ok.inj hfound']
        exact Category.unlessBarred_sublist_of_lines hlines hexcluded hexcluded' _ selections _
  · rw [hfiles, hfiles']
    cases (category.patterns c).mapM Selection.ofPatterns with
    | error fault => rfl
    | ok selections =>
        refine congrArg Except.ok (List.Sublist.antisymm ?_ ?_)
        · exact Category.unlessBarred_sublist_of_lines
            (fun line => (hlines line).mp) hexcluded hexcluded' _
            selections _
        · exact Category.unlessBarred_sublist_of_lines
            (fun line => (hlines line).mpr) hexcluded' hexcluded _
            selections _

namespace Disk

/-- A script, and one in a directory of its own. -/
def twoScripts : List (String × Tree) :=
  [("a.ts", .file (.text "")), ("made", .dir [("b.ts", .file (.text ""))])]

/-- What scripts are found under an ignore file. -/
def scriptsUnder (ignored : String) : Except Glob.GlobFault (List String) :=
  Category.eslint.files Config.default (.dir (withIgnoreFile (.text ignored) twoScripts))

/-- A line with a group takes one more file away, a line that would bring a file back does nothing,
and a repeated line changes nothing. -/
theorem more_ignored_less_found_twoScripts :
    (∃ found found', scriptsUnder "made/\n" = .ok found ∧
        scriptsUnder "!made/\n\x7ba,d\x7d.*\nmade/\n" = .ok found' ∧
        found = ["a.ts"] ∧ found' = [] ∧ found'.Sublist found) ∧
      scriptsUnder "\r\nmade/\r\n\r\nmade/" = scriptsUnder "made/\n\n" := by
  have hmore := more_ignored_less_found Config.default .eslint twoScripts (.text "made/\n")
    (.text "!made/\n\x7ba,d\x7d.*\nmade/\n") (Selection.exists_ofPatterns_eq_ok (by decide +kernel))
    (Selection.exists_ofPatterns_eq_ok (by decide +kernel))
  have hsame := more_ignored_less_found Config.default .eslint twoScripts (.text "made/\n\n")
    (.text "\r\nmade/\r\n\r\nmade/") (Selection.exists_ofPatterns_eq_ok (by decide +kernel))
    (Selection.exists_ofPatterns_eq_ok (by decide +kernel))
  refine ⟨⟨["a.ts"], [], by decide +kernel, by decide +kernel, rfl, rfl, ?_⟩, hsame.2.1 ?_⟩
  · exact (hmore.1 (by decide +kernel)).2 _ _ (by decide +kernel) (by decide +kernel)
  · have hlines : ignoreLines (.text "made/\n\n") = ["made/".toList, []] := by decide +kernel
    have hlines' : ignoreLines (.text "\r\nmade/\r\n\r\nmade/") =
        [[], "made/".toList, [], "made/".toList] := by decide +kernel
    intro line
    rw [hlines, hlines']
    simp only [List.mem_cons, List.not_mem_nil, or_false]
    constructor
    · rintro (hmade | hblank)
      · exact .inr (.inl hmade)
      · exact .inl hblank
    · rintro (hblank | hmade | hblank | hmade)
      · exact .inr hblank
      · exact .inl hmade
      · exact .inr hblank
      · exact .inl hmade

end Disk

end FrontendAudit
