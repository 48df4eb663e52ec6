import FrontendAudit.Proofs.Disk.Ignoring
import FrontendAudit.Proofs.Disk.Pruning
import FrontendAudit.Proofs.Glob.Groups
import FrontendAudit.Proofs.Glob.Plain
import Mathlib.Data.List.Infix

/-!
# Plain entries of an ignore file

An entry without the characters of globs is a text with slashes in it. Its globs describe the paths
of which the segments have those of the entry among them, one behind the other (`standsIn_iff`): as
a file or as a directory, or only as a directory when the entry ends in a slash. When all entries
are plain, the ignore file takes away exactly the files in whose paths an entry stands
(`plain_entries_remove`).
-/

namespace FrontendAudit

/-! ## Entries -/

namespace Disk

/-- The entry of a line of an ignore file, without the slashes in front; nothing for a blank line,
for a comment and for a line that would include something again. -/
def entryOf? (line : List Char) : Option (List Char) :=
  match Text.strip line with
  | [] => none
  | '#' :: _ => none
  | '!' :: _ => none
  | entry => some (entry.dropWhile (· = '/'))

/-- The entries of an ignore file. -/
def ignoreEntries (data : FileData) : List (List Char) := (ignoreLines data).filterMap entryOf?

/-- An entry without the characters of globs, and not of slashes only. -/
structure PlainEntry (entry : List Char) : Prop where
  nonempty : entry ≠ []
  plain : ∀ c ∈ entry, c ∉ globChars

/-- Whether an entry stands in a path: its segments are among those of the path, one behind the
other, and there is more behind them if the entry ends in a slash. -/
def StandsIn (entry : List Char) (path : String) : Prop :=
  if entry.getLast? = some '/' then
    ∃ above below, below ≠ [] ∧
      Text.splitOn '/' path.toList = above ++ Text.splitOn '/' entry.dropLast ++ below
  else ∃ above below, Text.splitOn '/' path.toList = above ++ Text.splitOn '/' entry ++ below

instance (entry : List Char) (path : String) : Decidable (StandsIn entry path) :=
  let segments := Text.splitOn '/' path.toList
  have hstands :
      (if entry.getLast? = some '/' then Text.splitOn '/' entry.dropLast <:+: segments.dropLast
      else Text.splitOn '/' entry <:+: segments) ↔ StandsIn entry path := by
    have hne : segments ≠ [] := Text.splitOn_ne_nil '/' path.toList
    unfold StandsIn
    split
    · constructor
      · rintro ⟨above, below, hsegments⟩
        refine ⟨above, below ++ [segments.getLast hne], by simp, ?_⟩
        rw [← List.append_assoc, hsegments, List.dropLast_append_getLast]
      · rintro ⟨above, below, hbelow, hsegments⟩
        refine ⟨above, below.dropLast, ?_⟩
        rw [← List.dropLast_append_of_ne_nil hbelow, ← hsegments]
    · exact exists_congr fun above => exists_congr fun below => eq_comm
  decidable_of_iff _ hstands

theorem ignoreLine_eq (line : List Char) : ignoreLine line =
    (entryOf? line).toList.flatMap fun entry => (entryGlobs entry).map fun glob =>
      String.ofList ('!' :: glob) := by
  unfold ignoreLine entryOf?
  split <;> simp_all

theorem ignorePatterns_eq (data : FileData) : ignorePatterns data.readTolerant =
    (ignoreEntries data).flatMap fun entry =>
      (entryGlobs entry).map fun glob => String.ofList ('!' :: glob) := by
  rw [ignorePatterns, ignoreEntries, ignoreLines, funext ignoreLine_eq]
  induction Text.breakLines data.readTolerant with
  | nil => rfl
  | cons line lines ih =>
      rw [List.flatMap_cons, ih, List.filterMap_cons]
      cases entryOf? line <;> simp

section

variable {entry glob : List Char}

theorem PlainEntry.ne_wildcard (h : PlainEntry entry) : ∀ c ∈ entry, c ≠ '*' ∧ c ≠ '?' := by
  intro c hc
  have hplain := h.plain c hc
  constructor
  · rintro rfl
    exact hplain (by decide)
  · rintro rfl
    exact hplain (by decide)

/-- A plain entry stands for what is in a directory, and for a file as well if it does not end in a
slash. -/
theorem PlainEntry.entryGlobs_eq (h : PlainEntry entry) : entryGlobs entry =
    if entry.getLast? = some '/' then ['*' :: '*' :: '/' :: (entry.dropLast ++ ['/', '*', '*'])]
    else ['*' :: '*' :: '/' :: entry, '*' :: '*' :: '/' :: (entry ++ ['/', '*', '*'])] := by
  have hplain : ¬ entry.any globChars.contains = true := by
    simpa using h.plain
  unfold entryGlobs
  dsimp only
  rw [if_neg hplain]
  split
  · next hlast =>
      obtain ⟨directory, rfl⟩ := List.getLast?_eq_some_iff.mp hlast
      simp
  · rfl

/-- The globs of an entry describe the paths in which it stands. -/
theorem PlainEntry.standsIn_iff (h : PlainEntry entry) {path : String}
    (hnames : ∀ segment ∈ Text.splitOn '/' path.toList, segment ≠ []) :
    StandsIn entry path ↔ ∃ glob ∈ entryGlobs entry, Glob.InLanguage glob path.toList := by
  rw [h.entryGlobs_eq, StandsIn]
  split
  · have hdirectory : ∀ c ∈ entry.dropLast, c ≠ '*' ∧ c ≠ '?' := fun c hc =>
      h.ne_wildcard c ((List.dropLast_sublist entry).subset hc)
    simp only [List.mem_singleton, exists_eq_left,
      Glob.inLanguage_below_iff_segments hdirectory hnames]
  · simp only [List.mem_cons, List.not_mem_nil, or_false, exists_eq_or_imp, exists_eq_left,
      Glob.inLanguage_file_iff h.ne_wildcard hnames,
        Glob.inLanguage_below_iff_segments h.ne_wildcard hnames]
    constructor
    · rintro ⟨above, below, hpath⟩
      by_cases hbelow : below = []
      · subst hbelow
        exact .inl ⟨above, by rw [hpath, List.append_nil]⟩
      · exact .inr ⟨above, below, hbelow, hpath⟩
    · rintro (⟨above, hpath⟩ | ⟨above, below, -, hpath⟩)
      · exact ⟨above, [], by rw [← hpath, List.append_nil]⟩
      · exact ⟨above, below, hpath⟩

/-- What a glob of an entry describes with a slash at its end, it describes with more behind the
slash. -/
theorem PlainEntry.inLanguage_below (h : PlainEntry entry) (hglob : glob ∈ entryGlobs entry)
    {directory : List Char} (hdirectory : Glob.InLanguage glob (directory ++ ['/']))
    (below : List Char) :
    Glob.InLanguage glob (directory ++ '/' :: below) := by
  have hinside : ∀ plain : List Char, (∀ c ∈ plain, c ≠ '*' ∧ c ≠ '?') →
      Glob.InLanguage ('*' :: '*' :: '/' :: (plain ++ ['/', '*', '*'])) (directory ++ ['/']) →
      Glob.InLanguage ('*' :: '*' :: '/' :: (plain ++ ['/', '*', '*'])) (directory ++
        '/' :: below) := by
    intro plain hplain hdirectory
    obtain ⟨rest, a, ha, heq⟩ := (Glob.inLanguage_below_iff hplain).mp hdirectory
    refine (Glob.inLanguage_below_iff hplain).mpr ⟨rest ++ below, a, ha, ?_⟩
    rw [← List.singleton_append, ← List.append_assoc, heq]
    simp only [List.append_assoc, List.cons_append]
  rw [h.entryGlobs_eq] at hglob
  split at hglob
  · obtain rfl := List.mem_singleton.mp hglob
    exact hinside _
      (fun c hc => h.ne_wildcard c ((List.dropLast_sublist entry).subset hc)) hdirectory
  · next hlast =>
      rcases List.mem_cons.mp hglob with rfl | hglob
      · -- the entry would have the slash at its end
        rw [← List.append_nil entry, Glob.inLanguage_anywhere_iff h.ne_wildcard] at hdirectory
        obtain ⟨a, -, texts, htexts, heq⟩ := hdirectory
        obtain rfl : texts = [] := List.forall₂_nil_left_iff.mp htexts
        have hend := congrArg List.getLast? heq
        rw [List.flatten_nil, List.append_nil, List.getLast?_concat,
          List.getLast?_append_of_ne_nil _ h.nonempty] at hend
        exact absurd hend.symm hlast
      · obtain rfl := List.mem_singleton.mp hglob
        exact hinside _ h.ne_wildcard hdirectory

/-- Entries do not end in a blank. -/
theorem isBlank_of_getLast?_entry {data : FileData} (hentry : entry ∈ ignoreEntries data) {c : Char}
    (hc : entry.getLast? = some c) : Text.isBlank c = false := by
  obtain ⟨line, -, hentryOf⟩ := List.mem_filterMap.mp hentry
  have hdrop : entry = (Text.strip line).dropWhile (· = '/') := by
    unfold entryOf? at hentryOf
    split at hentryOf
    · cases hentryOf
    · cases hentryOf
    · cases hentryOf
    · exact (Option.some.inj hentryOf).symm
  have hne : entry ≠ [] := by
    rintro rfl
    cases hc
  have hlast : (Text.strip line).getLast? = some c := by
    obtain ⟨slashes, hstrip⟩ := List.dropWhile_suffix (l := Text.strip line) (· = '/')
    rw [← hstrip, ← hdrop, List.getLast?_append_of_ne_nil _ hne, hc]
  exact Text.getLast?_trimEnd hlast

theorem PlainEntry.getLast?_glob (h : PlainEntry entry) (hglob : glob ∈ entryGlobs entry) :
    glob.getLast? = some '*' ∨ glob.getLast? = entry.getLast? := by
  have hinside : ∀ plain : List Char, ('*' :: '*' :: '/' :: (plain ++ ['/', '*', '*'])).getLast? =
      some '*' := by
    intro plain
    rw [show '*' :: '*' :: '/' :: (plain ++ ['/', '*', '*']) =
      '*' :: '*' :: '/' :: (plain ++ ['/', '*']) ++ ['*']
      by simp, List.getLast?_concat]
  rw [h.entryGlobs_eq] at hglob
  split at hglob
  · obtain rfl := List.mem_singleton.mp hglob
    exact .inl (hinside _)
  · rcases List.mem_cons.mp hglob with rfl | hglob
    · refine .inr ?_
      rw [show '*' :: '*' :: '/' :: entry = ['*', '*', '/'] ++ entry from rfl,
        List.getLast?_append_of_ne_nil _ h.nonempty]
    · obtain rfl := List.mem_singleton.mp hglob
      exact .inl (hinside _)

/-- A glob of a plain entry is read as it is written. -/
theorem PlainEntry.exists_excludedBy (h : PlainEntry entry)
    (hlast : ∀ c, entry.getLast? = some c → Text.isBlank c = false)
    (hglob : glob ∈ entryGlobs entry) :
    ∃ g, Selection.excludedBy (String.ofList ('!' :: glob)) = .ok [g] ∧
      ∀ path, '\n' ∉ path → (Glob.covers g path = true ↔ Glob.InLanguage glob path) := by
  have hfree : ∀ c ∈ globChars, c ≠ '*' → c ∉ glob := by
    intro c hc hstar hmem
    refine h.plain c (mem_of_mem_entryGlobs hglob hmem hstar ?_) hc
    rintro rfl
    revert hc
    decide
  obtain ⟨g, hparse, hcovers⟩ := Glob.covers_iff_inLanguage (hfree '[' (by decide) (by decide))
  refine ⟨g, ?_, hcovers⟩
  obtain ⟨tail, hhead⟩ : ∃ tail, glob = '*' :: tail := by
    rw [h.entryGlobs_eq] at hglob
    split at hglob <;> simp only [List.mem_cons, List.not_mem_nil, or_false] at hglob
    · exact ⟨_, hglob⟩
    · rcases hglob with rfl | rfl <;> exact ⟨_, rfl⟩
  have hstrip : Text.strip ('!' :: glob) = '!' :: glob := by
    refine Text.strip_eq_self (fun c hc => ?_) (fun c hc => ?_)
    · obtain rfl : '!' = c := Option.some.inj hc
      decide
    · rw [hhead, List.getLast?_cons_cons, ← hhead] at hc
      rcases h.getLast?_glob hglob with hend | hend
      · obtain rfl : '*' = c := Option.some.inj (hend.symm.trans hc)
        decide
      · exact hlast c (hend.symm.trans hc)
  have hexpand : Glob.expandBraces glob = [glob] :=
    Glob.expandBraces_of_not_isGroup fun _ _ _ =>
      Glob.not_isGroup_of_not_mem (hfree Glob.opening (by decide) (by decide))
  have hplain : ('!' :: glob).dropWhile (· = '!') = glob := by
    rw [List.dropWhile_cons_of_pos (by simp), hhead, List.dropWhile_cons_of_neg (by decide)]
  rw [Selection.excludedBy, String.toList_ofList, hstrip, hplain, Selection.globsOf, hexpand,
    List.mapM_cons, hparse]
  rfl

end

/-! ## Ignore files with plain entries -/

section

variable {data : FileData}

/-- The globs of an ignore file with plain entries, and what they cover. -/
theorem exists_excluded_of_plain (hplain : ∀ entry ∈ ignoreEntries data, PlainEntry entry) :
    ∃ excluded, (ignorePatterns data.readTolerant).mapM Selection.excludedBy = .ok excluded ∧
      ∀ path, '\n' ∉ path → (excluded.flatten.any (Glob.covers · path) = true ↔
        ∃ entry ∈ ignoreEntries data, ∃ glob ∈ entryGlobs entry, Glob.InLanguage glob path) := by
  have hread : ∀ entry ∈ ignoreEntries data, ∀ glob ∈ entryGlobs entry,
      ∃ g, Selection.excludedBy (String.ofList ('!' :: glob)) = .ok [g] ∧
        ∀ path, '\n' ∉ path → (Glob.covers g path = true ↔ Glob.InLanguage glob path) :=
    fun entry hentry glob => (hplain entry hentry).exists_excludedBy fun c =>
      isBlank_of_getLast?_entry hentry
  obtain ⟨excluded, hexcluded⟩ :
      ∃ excluded, (ignorePatterns data.readTolerant).mapM Selection.excludedBy = .ok excluded := by
    refine exists_mapM_eq_ok.mpr fun pattern hpattern => ?_
    rw [ignorePatterns_eq] at hpattern
    obtain ⟨entry, hentry, hpattern⟩ := List.mem_flatMap.mp hpattern
    obtain ⟨glob, hglob, rfl⟩ := List.mem_map.mp hpattern
    obtain ⟨g, hg, -⟩ := hread entry hentry glob hglob
    exact ⟨[g], hg⟩
  refine ⟨excluded, hexcluded, fun path hline => ?_⟩
  rw [ignorePatterns_eq] at hexcluded
  rw [List.any_eq_true]
  constructor
  · rintro ⟨g, hg, hcovers⟩
    obtain ⟨globs, hglobs, hmem⟩ := List.mem_flatten.mp hg
    obtain ⟨pattern, hpattern, hpatternRead⟩ := exists_of_mem_mapM hexcluded hglobs
    obtain ⟨entry, hentry, hpattern⟩ := List.mem_flatMap.mp hpattern
    obtain ⟨glob, hglob, rfl⟩ := List.mem_map.mp hpattern
    obtain ⟨g', hg', hcovers'⟩ := hread entry hentry glob hglob
    obtain rfl : globs = [g'] := Except.ok.inj (hpatternRead.symm.trans hg')
    obtain rfl := List.mem_singleton.mp hmem
    exact ⟨entry, hentry, glob, hglob, (hcovers' path hline).mp hcovers⟩
  · rintro ⟨entry, hentry, glob, hglob, hlanguage⟩
    obtain ⟨g, hg, hcovers⟩ := hread entry hentry glob hglob
    obtain ⟨globs, hglobs, hpatternRead⟩ := exists_mem_of_mapM hexcluded
      (List.mem_flatMap.mpr ⟨entry, hentry, List.mem_map_of_mem hglob⟩)
    obtain rfl : globs = [g] := Except.ok.inj (hpatternRead.symm.trans hg)
    exact ⟨g, List.mem_flatten.mpr ⟨[g], hglobs, List.mem_cons_self⟩,
      (hcovers path hline).mpr hlanguage⟩

theorem not_newline_mem_relativePath {names : List String} (hne : names ≠ [])
    (hnames : ∀ name ∈ names, PlainName name) : '\n' ∉ (relativePath names).toList := by
  obtain ⟨name, names, rfl⟩ := List.exists_cons_of_ne_nil hne
  rw [List.forall_mem_cons] at hnames
  rw [Path.toList_relativePath_cons hnames.1.nonempty, List.flatMap_map]
  exact (isBelow_of_plain hnames.1 hnames.2).2

/-- The path of a directory, with a slash behind it, begins the path of everything below. -/
theorem exists_toList_relativePath_append {directory rest : List String}
    (hdirectory : directory ≠ []) (hrest : rest ≠ [])
    (hnames : ∀ name ∈ directory, PlainName name) :
    ∃ below, (relativePath (directory ++ rest)).toList = (relativePath directory).toList ++
      '/' :: below := by
  obtain ⟨name, rest, rfl⟩ := List.exists_cons_of_ne_nil hrest
  rw [relativePath, List.foldl_append]
  exact ⟨_, toList_foldl_pathBelow (relativePath_ne_empty hdirectory hnames) (name :: rest)⟩

/-- The globs of plain entries bar the files in whose paths an entry stands. -/
theorem bars_iff_of_plain (hplain : ∀ entry ∈ ignoreEntries data, PlainEntry entry)
    {globs : List Glob} (hglobs : ∀ path, '\n' ∉ path → (globs.any (Glob.covers · path) = true ↔
      ∃ entry ∈ ignoreEntries data, ∃ glob ∈ entryGlobs entry, Glob.InLanguage glob path))
    {names : List String} (hne : names ≠ []) (hnames : ∀ name ∈ names, IsFileName name)
    (hline : ∀ name ∈ names, '\n' ∉ name.toList) :
    Selection.bars globs names = true ↔ ∃ entry ∈ ignoreEntries data,
      StandsIn entry (relativePath names) := by
  have hplainNames : ∀ name ∈ names, PlainName name := fun name hname =>
    ⟨(hnames name hname).1, (hnames name hname).2.2.2, hline name hname⟩
  have hpath : '\n' ∉ (relativePath names).toList := not_newline_mem_relativePath hne hplainNames
  have hsegments : ∀ segment ∈ Text.splitOn '/' (relativePath names).toList, segment ≠ [] := by
    rw [Path.splitOn_relativePath hne hnames]
    intro segment hsegment
    obtain ⟨name, hname, rfl⟩ := List.mem_map.mp hsegment
    exact mt String.toList_eq_nil_iff.mp (hnames name hname).1
  have hstands : ∀ entry ∈ ignoreEntries data, (StandsIn entry (relativePath names) ↔
      ∃ glob ∈ entryGlobs entry, Glob.InLanguage glob (relativePath names).toList) :=
    fun entry hentry => (hplain entry hentry).standsIn_iff hsegments
  rw [Selection.bars, Bool.or_eq_true]
  constructor
  · rintro (hcovered | hpruned)
    · obtain ⟨entry, hentry, hlanguage⟩ := (hglobs _ hpath).mp hcovered
      exact ⟨entry, hentry, (hstands entry hentry).mpr hlanguage⟩
    · -- a directory on the way is pruned, and what is below it excluded as well
      obtain ⟨directory, hdirectory, hcovered⟩ := List.any_eq_true.mp hpruned
      obtain ⟨hdirectoryNe, rest, hrest, rfl⟩ := mem_directoriesOf.mp hdirectory
      obtain ⟨below, hbelow⟩ :=
        exists_toList_relativePath_append hdirectoryNe hrest fun name hname =>
        hplainNames name (List.mem_append_left rest hname)
      have hdirectoryLine : '\n' ∉ (relativePath directory).toList ++ ['/'] := by
        intro hmem
        refine hpath ?_
        rw [hbelow, ← List.singleton_append, ← List.append_assoc]
        exact List.mem_append_left below hmem
      obtain ⟨entry, hentry, glob, hglob, hlanguage⟩ := (hglobs _ hdirectoryLine).mp hcovered
      refine ⟨entry, hentry, (hstands entry hentry).mpr ⟨glob, hglob, ?_⟩⟩
      rw [hbelow]
      exact (hplain entry hentry).inLanguage_below hglob hlanguage below
  · rintro ⟨entry, hentry, hentryStands⟩
    exact .inl ((hglobs _ hpath).mpr ⟨entry, hentry, (hstands entry hentry).mp hentryStands⟩)

end

end Disk

/-! ## What a category finds -/

open Disk (Tree FileData ignoreFileName ignoreEntries PlainEntry StandsIn relativePath)

namespace Category

variable {c : Config} {category : Category} {entries : List (String × Tree)} {data : FileData}

theorem patterns_with_ignoreFile (c : Config) (isRead : Bool) (category : Category) :
    category.patterns { c with ignoreFile := isRead } = category.patterns c := by
  cases category <;> rfl

/-- Of the files that selections find, plain entries leave those in whose paths none of them
stands. -/
theorem unlessBarred_eq_filter (hplain : ∀ entry ∈ ignoreEntries data, PlainEntry entry)
    {globs : List Glob} (hglobs : ∀ path, '\n' ∉ path → (globs.any (Glob.covers · path) = true ↔
      ∃ entry ∈ ignoreEntries data, ∃ glob ∈ Disk.entryGlobs entry, Glob.InLanguage glob path))
    (hnamed : (Tree.dir entries).WellNamed)
    (hline : ∀ names ∈ (Tree.dir entries).paths, ∀ name ∈ names, '\n' ∉ name.toList)
    (selections : List Selection) :
    unlessBarred selections globs (Tree.dir entries).paths =
      (unlessBarred selections [] (Tree.dir entries).paths).filter fun path =>
        ¬ ∃ entry ∈ ignoreEntries data, StandsIn entry path := by
  have hbars : ∀ names ∈ (Tree.dir entries).paths, (Selection.bars globs names = true ↔
      ∃ entry ∈ ignoreEntries data, StandsIn entry (relativePath names)) := fun names hnames =>
    Disk.bars_iff_of_plain hplain hglobs (Tree.ne_nil_of_mem_paths hnames)
      (hnamed.isFileName_of_mem hnames) (hline names hnames)
  refine Disk.eq_of_pairwise_lt pairwise_lt_unlessBarred (pairwise_lt_unlessBarred.filter _)
    fun path => ?_
  rw [List.mem_filter, mem_unlessBarred, mem_unlessBarred, decide_eq_true_eq]
  constructor
  · rintro ⟨names, hnames, rfl, hfinds, hbarred⟩
    refine ⟨⟨names, hnames, rfl, hfinds, Selection.bars_nil names⟩, ?_⟩
    rw [← hbars names hnames, hbarred]
    exact Bool.false_ne_true
  · rintro ⟨⟨names, hnames, rfl, hfinds, -⟩, hstands⟩
    refine ⟨names, hnames, rfl, hfinds, Bool.eq_false_iff.mpr ?_⟩
    rwa [Ne, hbars names hnames]

/-- The files of a project without its ignore file. -/
theorem mem_paths_without_ignoreFile (hnamed : (Tree.dir entries).WellNamed)
    (hfile : (Tree.dir entries).file? [ignoreFileName] = some data) {names : List String} :
    names ∈ (Tree.dir (entries.filter (·.1 != ignoreFileName))).paths ↔
      names ∈ (Tree.dir entries).paths ∧ names ≠ [ignoreFileName] := by
  simp only [Disk.Tree.mem_paths_dir, List.mem_filter, bne_iff_ne]
  constructor
  · rintro ⟨name, t, ⟨hentry, hname⟩, rest, hrest, rfl⟩
    exact ⟨⟨name, t, hentry, rest, hrest, rfl⟩, fun h => hname (List.cons.inj h).1⟩
  · rintro ⟨⟨name, t, hentry, rest, hrest, rfl⟩, hne⟩
    refine ⟨name, t, ⟨hentry, ?_⟩, rest, hrest, rfl⟩
    rintro rfl
    -- of this name there is nothing but the file
    have ht := (Disk.Tree.named?_eq_some_iff hnamed.differ).mpr hentry
    rw [Tree.file?, Tree.at?, ht] at hfile
    cases t with
    | file d => exact hne (by rw [List.mem_singleton.mp hrest])
    | dir below => cases hfile

/-- Without the ignore file nothing is barred, and the file itself not found. -/
theorem files_without_ignoreFile (hnamed : (Tree.dir entries).WellNamed)
    (hfile : (Tree.dir entries).file? [ignoreFileName] = some data) (hread : c.ignoreFile = true) :
    category.files c ((Tree.dir entries).remove [ignoreFileName]) =
      ((category.patterns c).mapM Selection.ofPatterns).map fun selections =>
        (unlessBarred selections [] (Tree.dir entries).paths).filter (· ≠ ignoreFileName) := by
  have hremoved : (Tree.dir entries).remove [ignoreFileName] =
      .dir (entries.filter (·.1 != ignoreFileName)) := rfl
  have hnone : Disk.projectIgnorePatterns (.dir (entries.filter (·.1 != ignoreFileName))) = [] := by
    rw [Disk.projectIgnorePatterns]
    split
    · next d hd =>
        have hmem :=
          (mem_paths_without_ignoreFile hnamed hfile).mp (Disk.Tree.mem_paths_of_file? hd)
        exact absurd rfl hmem.2
    · rfl
  have hexcluded : (Disk.projectIgnorePatterns (.dir (entries.filter (·.1 != ignoreFileName)))).mapM
      Selection.excludedBy = .ok [] := by
    rw [hnone]
    rfl
  rw [hremoved, files_eq_unlessBarred hread hexcluded]
  congr 1
  funext selections
  refine Disk.eq_of_pairwise_lt pairwise_lt_unlessBarred (pairwise_lt_unlessBarred.filter _)
    fun path => ?_
  rw [List.mem_filter, mem_unlessBarred, mem_unlessBarred, decide_eq_true_eq]
  constructor
  · rintro ⟨names, hnames, rfl, hfound⟩
    obtain ⟨hmem, hne⟩ := (mem_paths_without_ignoreFile hnamed hfile).mp hnames
    refine ⟨⟨names, hmem, rfl, hfound⟩, fun heq => hne ?_⟩
    exact hnamed.relativePath_inj hmem (Disk.Tree.mem_paths_of_file? hfile)
      (Tree.ne_nil_of_mem_paths hmem)
      (List.cons_ne_nil _ _) heq
  · rintro ⟨⟨names, hmem, rfl, hfound⟩, hne⟩
    refine ⟨names, (mem_paths_without_ignoreFile hnamed hfile).mpr ⟨hmem, ?_⟩, rfl, hfound⟩
    rintro rfl
    exact hne rfl

end Category

/-- In a project with names as files have them, none with a line feed in it, and with plain entries
in its ignore file: a category finds with the ignore file what it finds when the file is not read,
except the files in whose paths an entry stands. So it does, the ignore file itself apart, when the
file is not there. -/
theorem plain_entries_remove (c : Config) (category : Category) (entries : List (String × Tree))
    (data : FileData) (hfile : (Tree.dir entries).file? [ignoreFileName] = some data)
    (hnamed : (Tree.dir entries).WellNamed)
    (hline : ∀ names ∈ (Tree.dir entries).paths, ∀ name ∈ names, '\n' ∉ name.toList)
    (hplain : ∀ entry ∈ ignoreEntries data, PlainEntry entry) :
    category.files { c with ignoreFile := true } (.dir entries) =
        (category.files { c with ignoreFile := false } (.dir entries)).map
          (List.filter fun path => ¬ ∃ entry ∈ ignoreEntries data, StandsIn entry path) ∧
      (category.files { c with ignoreFile := true } (.dir entries)).map
        (List.filter (· ≠ ignoreFileName)) =
        (category.files { c with ignoreFile := true }
          ((Tree.dir entries).remove [ignoreFileName])).map
          (List.filter fun path => ¬ ∃ entry ∈ ignoreEntries data, StandsIn entry path) := by
  obtain ⟨excluded, hexcluded, hcovers⟩ := Disk.exists_excluded_of_plain hplain
  have hpatterns :
      Disk.projectIgnorePatterns (.dir entries) = Disk.ignorePatterns data.readTolerant := by
    rw [Disk.projectIgnorePatterns, hfile]
  have hread : category.files { c with ignoreFile := true } (.dir entries) = _ :=
    Category.files_eq_unlessBarred rfl (by rw [hpatterns]; exact hexcluded)
  have hunread : category.files { c with ignoreFile := false } (.dir entries) = _ :=
    Category.files_eq_of_not_read rfl
  have hwithout : category.files { c with ignoreFile := true }
      ((Tree.dir entries).remove [ignoreFileName]) = _ :=
    Category.files_without_ignoreFile hnamed hfile rfl
  rw [Category.patterns_with_ignoreFile] at hread hunread hwithout
  rw [hread, hunread, hwithout]
  cases (category.patterns c).mapM Selection.ofPatterns with
  | error fault => exact ⟨rfl, rfl⟩
  | ok selections =>
      have hleft := Category.unlessBarred_eq_filter hplain hcovers hnamed hline selections
      constructor
      · exact congrArg Except.ok hleft
      · refine congrArg Except.ok ?_
        dsimp only
        rw [hleft, List.filter_filter, List.filter_filter]
        exact List.filter_congr fun path _ => Bool.and_comm _ _

namespace Disk

/-- What the ignore file of a site says: a comment, a directory, an entry of two names, and a line
that would bring something back. -/
def generatedLines : FileData := .text "# made\n/src/gen/\r\n\n lib/x \n!src\n"

/-- A site with sources and this ignore file. -/
def generatedSite (sources : List (String × Tree)) : List (String × Tree) :=
  [("src", .dir sources), (ignoreFileName, .file generatedLines)]

theorem plainEntry_generatedLines : ∀ entry ∈ ignoreEntries generatedLines, PlainEntry entry := by
  have hentries : ignoreEntries generatedLines = ["src/gen/".toList, "lib/x".toList] := by
    decide +kernel
  have hplain : ∀ entry ∈ ["src/gen/".toList, "lib/x".toList],
      entry ≠ [] ∧ entry.all (fun c => decide (c ∉ globChars)) = true := by
    decide
  rw [hentries]
  intro entry hentry
  obtain ⟨hne, hall⟩ := hplain entry hentry
  exact ⟨hne, fun c hc => of_decide_eq_true (List.all_eq_true.mp hall c hc)⟩

theorem wellNamed_generatedSite {sources : List (String × Tree)}
    (h : (Tree.dir sources).WellNamed) :
    (Tree.dir (generatedSite sources)).WellNamed := by
  have names : ∀ e ∈ generatedSite sources, IsFileName e.1 := by
    simp only [generatedSite, List.forall_mem_cons]
    exact ⟨by decide, by decide, by simp⟩
  refine .dir (by simp [generatedSite, ignoreFileName]) names ?_
  simp only [generatedSite, List.forall_mem_cons]
  exact ⟨h, .file _, by simp⟩

/-- A script in the directory is not found any more, and a script of the same name as the directory
is. -/
theorem plain_entries_remove_generatedSite :
    Category.eslint.files { Config.default with ignoreFile := true }
        (.dir (generatedSite [("gen", .dir [("a.ts", .file (.text ""))])])) = .ok [] ∧
      Category.eslint.files { Config.default with ignoreFile := false }
        (.dir (generatedSite [("gen", .dir [("a.ts", .file (.text ""))])])) = .ok ["src/gen/a.ts"] ∧
      Category.eslint.files { Config.default with ignoreFile := true }
        (.dir (generatedSite [("gen", .file (.text "")), ("gen.ts", .file (.text ""))])) =
          .ok ["src/gen.ts"] := by
  have hdirectory : Category.eslint.files { Config.default with ignoreFile := false }
      (.dir (generatedSite [("gen", .dir [("a.ts", .file (.text ""))])])) =
        .ok ["src/gen/a.ts"] := by
    decide +kernel
  have hfile : Category.eslint.files { Config.default with ignoreFile := false }
      (.dir (generatedSite [("gen", .file (.text "")), ("gen.ts", .file (.text ""))])) =
        .ok ["src/gen.ts"] := by
    decide +kernel
  have hnamed : (Tree.dir [("gen", .dir [("a.ts", .file (.text ""))])]).WellNamed :=
    .dir
      (by decide) (by decide) (by simpa using .dir (by decide) (by decide) (by simpa using .file _))
  have hnamed' : (Tree.dir [("gen", .file (.text "")), ("gen.ts", .file (.text ""))]).WellNamed :=
    .dir (by decide) (by decide) (by simpa using .file _)
  refine ⟨?_, hdirectory, ?_⟩
  · rw [(plain_entries_remove Config.default .eslint _ generatedLines rfl
      (wellNamed_generatedSite hnamed)
      (by decide) plainEntry_generatedLines).1, hdirectory]
    decide +kernel
  · rw [(plain_entries_remove Config.default .eslint _ generatedLines rfl
      (wellNamed_generatedSite hnamed')
      (by decide) plainEntry_generatedLines).1, hfile]
    decide +kernel

end Disk

end FrontendAudit
