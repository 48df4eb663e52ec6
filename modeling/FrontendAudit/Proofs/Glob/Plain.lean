import FrontendAudit.Proofs.Glob.Wildcards
import FrontendAudit.Proofs.Path

/-!
# Globs of plain texts

A text without stars and question marks stands for itself in a glob (`wildcards_append`). Behind
directories it describes the paths that end in its segments (`inLanguage_file_iff`), and with
everything below behind it those that have its segments among theirs, one behind the other and with
more behind them (`inLanguage_below_iff_segments`).
-/

namespace FrontendAudit

/-! ## Texts -/

namespace Text

theorem consFirst_append {c : Char} {pieces more : List (List Char)} (h : pieces ≠ []) :
    consFirst c pieces ++ more = consFirst c (pieces ++ more) := by
  obtain ⟨piece, pieces, rfl⟩ := List.exists_cons_of_ne_nil h
  rfl

/-- What stands before a separator and what stands behind it are split each for itself. -/
theorem splitOn_append_separator (sep : Char) (a b : List Char) :
    splitOn sep (a ++ sep :: b) = splitOn sep a ++ splitOn sep b := by
  induction a with
  | nil => rw [List.nil_append, splitOn_cons, if_pos rfl, splitOn_nil, List.singleton_append]
  | cons c a ih =>
      rw [List.cons_append, splitOn_cons, splitOn_cons, ih]
      split
      · rfl
      · rw [consFirst_append (splitOn_ne_nil sep a)]

/-- Pieces without separators are those of some text. -/
theorem exists_splitOn_eq {sep : Char} {pieces : List (List Char)} (hne : pieces ≠ [])
    (h : ∀ piece ∈ pieces, sep ∉ piece) : ∃ s, splitOn sep s = pieces := by
  obtain ⟨piece, pieces, rfl⟩ := List.exists_cons_of_ne_nil hne
  rw [List.forall_mem_cons] at h
  exact ⟨_, splitOn_append_flatMap h.1 h.2⟩

/-- What neither begins nor ends with a blank is left as it is. -/
theorem strip_eq_self {s : List Char} (hfirst : ∀ c, s.head? = some c → isBlank c = false)
    (hlast : ∀ c, s.getLast? = some c → isBlank c = false) : strip s = s := by
  have hdrop : s.dropWhile isBlank = s := by
    cases s with
    | nil => rfl
    | cons c s => rw [List.dropWhile_cons_of_neg (by simp [hfirst c rfl])]
  rw [strip, hdrop, trimEnd_eq_self hlast]

end Text

/-! ## Globs of plain texts -/

namespace Glob

theorem wildcards_cons_char {c : Char} {s : List Char} (hstar : c ≠ '*') (hsingle : c ≠ '?') :
    wildcards (c :: s) = .char c :: wildcards s := by
  rw [wildcards] <;> simp [hstar, hsingle]

/-- Texts without stars and question marks are read character by character. -/
theorem wildcards_append {plain : List Char} (hplain : ∀ c ∈ plain, c ≠ '*' ∧ c ≠ '?')
    (s : List Char) :
    wildcards (plain ++ s) = plain.map .char ++ wildcards s := by
  induction plain with
  | nil => rfl
  | cons c plain ih =>
      rw [List.forall_mem_cons] at hplain
      rw [List.cons_append, wildcards_cons_char hplain.1.1 hplain.1.2, ih hplain.2]
      rfl

/-- Characters that mean themselves stand for a text as it is. -/
theorem exists_texts_chars_iff {plain s : List Char} {parts : List Wildcard} :
    (∃ texts, List.Forall₂ Wildcard.Stands (plain.map .char ++ parts) texts ∧ s = texts.flatten) ↔
      ∃ texts, List.Forall₂ Wildcard.Stands parts texts ∧ s = plain ++ texts.flatten := by
  induction plain generalizing s with
  | nil => rfl
  | cons c plain ih =>
      constructor
      · rintro ⟨texts, htexts, rfl⟩
        obtain ⟨_, rest, rfl, hrest, rfl⟩ := List.forall₂_cons_left_iff.mp htexts
        obtain ⟨texts, htexts, heq⟩ := ih.mp ⟨rest, hrest, rfl⟩
        exact ⟨texts, htexts, congrArg (c :: ·) heq⟩
      · rintro ⟨texts, htexts, rfl⟩
        obtain ⟨rest, hrest, heq⟩ := ih.mpr ⟨texts, htexts, rfl⟩
        exact ⟨[c] :: rest, .cons rfl hrest, congrArg (c :: ·) heq⟩

/-- A plain text behind directories, and in front of the other parts of a glob. -/
theorem inLanguage_anywhere_iff {plain s path : List Char}
    (hplain : ∀ c ∈ plain, c ≠ '*' ∧ c ≠ '?') :
    InLanguage ('*' :: '*' :: '/' :: (plain ++ s)) path ↔
      ∃ a, DirectoryText a ∧ ∃ texts, List.Forall₂ Wildcard.Stands (wildcards s) texts ∧
        path = a ++ (plain ++ texts.flatten) := by
  have hparts : wildcards (withoutHere ('*' :: '*' :: '/' :: (plain ++ s))) =
      .directories :: (plain.map .char ++ wildcards s) := by
    rw [← wildcards_append hplain]
    rfl
  rw [InLanguage, hparts]
  constructor
  · rintro ⟨texts, htexts, rfl⟩
    obtain ⟨a, rest, ha, hrest, rfl⟩ := List.forall₂_cons_left_iff.mp htexts
    obtain ⟨texts, htexts, heq⟩ := exists_texts_chars_iff.mp ⟨rest, hrest, rfl⟩
    exact ⟨a, ha, texts, htexts, congrArg (a ++ ·) heq⟩
  · rintro ⟨a, ha, texts, htexts, rfl⟩
    obtain ⟨rest, hrest, heq⟩ := exists_texts_chars_iff.mpr ⟨texts, htexts, rfl⟩
    exact ⟨a :: rest, .cons ha hrest, congrArg (a ++ ·) heq⟩

/-! ## Segments -/

theorem directoryText_flatMap {segments : List (List Char)}
    (h : ∀ segment ∈ segments, segment ≠ [] ∧ '/' ∉ segment) :
    DirectoryText (segments.flatMap (· ++ ['/'])) := by
  induction segments with
  | nil => exact .nil
  | cons segment segments ih =>
      rw [List.forall_mem_cons] at h
      rw [List.flatMap_cons, List.append_assoc, List.singleton_append]
      exact .cons h.1.1 h.1.2 (ih h.2)

/-- Directories in front of a text put their names in front of its segments. -/
theorem DirectoryText.splitOn_append {a : List Char} (h : DirectoryText a) (s : List Char) :
    ∃ above, Text.splitOn '/' (a ++ s) = above ++ Text.splitOn '/' s := by
  induction h with
  | nil => exact ⟨[], rfl⟩
  | @cons segment rest _ hslash _ ih =>
      obtain ⟨above, habove⟩ := ih
      refine ⟨segment :: above, ?_⟩
      rw [List.append_assoc, List.cons_append, Text.splitOn_append_cons hslash, habove]
      rfl

theorem joinWith_append {above below : List (List Char)} (hbelow : below ≠ []) :
    Text.joinWith ['/'] (above ++ below) =
      above.flatMap (· ++ ['/']) ++ Text.joinWith ['/'] below := by
  induction above with
  | nil => rfl
  | cons segment above ih =>
      rw [List.cons_append, Text.joinWith_cons (by simp [hbelow]), ih, List.flatMap_cons]
      simp only [List.append_assoc]

/-- A text stands behind directories in a path of names just when its segments are the last ones of
the path. -/
theorem behind_directories_iff {path s : List Char}
    (hnames : ∀ segment ∈ Text.splitOn '/' path, segment ≠ []) :
    (∃ a, DirectoryText a ∧ path = a ++ s) ↔ Text.splitOn '/' s <:+ Text.splitOn '/' path := by
  constructor
  · rintro ⟨a, ha, rfl⟩
    obtain ⟨above, habove⟩ := ha.splitOn_append s
    exact ⟨above, habove.symm⟩
  · rintro ⟨above, habove⟩
    refine ⟨above.flatMap (· ++ ['/']), directoryText_flatMap fun segment hsegment => ?_, ?_⟩
    · have hmem : segment ∈ Text.splitOn '/' path := habove ▸ List.mem_append_left _ hsegment
      exact ⟨hnames segment hmem, Text.not_mem_of_mem_splitOn hmem⟩
    · rw [← Text.joinWith_splitOn '/' path, ← habove, joinWith_append (Text.splitOn_ne_nil '/' s),
        Text.joinWith_splitOn]

/-- A file or directory of some name, wherever it lies. -/
theorem inLanguage_file_iff {plain path : List Char} (hplain : ∀ c ∈ plain, c ≠ '*' ∧ c ≠ '?')
    (hnames : ∀ segment ∈ Text.splitOn '/' path, segment ≠ []) :
    InLanguage ('*' :: '*' :: '/' :: plain) path ↔
      Text.splitOn '/' plain <:+ Text.splitOn '/' path := by
  rw [← behind_directories_iff hnames, ← List.append_nil plain, inLanguage_anywhere_iff hplain]
  simp [wildcards]

/-- Whatever is in a directory of some name, wherever it lies. -/
theorem inLanguage_below_iff {plain path : List Char} (hplain : ∀ c ∈ plain, c ≠ '*' ∧ c ≠ '?') :
    InLanguage ('*' :: '*' :: '/' :: (plain ++ ['/', '*', '*'])) path ↔
      ∃ rest a, DirectoryText a ∧ path = a ++ (plain ++ '/' :: rest) := by
  have hslash : ∀ c ∈ plain ++ ['/'], c ≠ '*' ∧ c ≠ '?' := by
    intro c hc
    rcases List.mem_append.mp hc with hc | hc
    · exact hplain c hc
    · rw [List.mem_singleton.mp hc]
      decide
  rw [show plain ++ ['/', '*', '*'] = (plain ++ ['/']) ++ ['*', '*'] by simp,
    inLanguage_anywhere_iff hslash]
  constructor
  · rintro ⟨a, ha, texts, -, rfl⟩
    exact ⟨texts.flatten, a, ha, by simp⟩
  · rintro ⟨rest, a, ha, rfl⟩
    exact ⟨a, ha, [rest], .cons trivial .nil, by simp⟩

theorem inLanguage_below_iff_segments {plain path : List Char}
    (hplain : ∀ c ∈ plain, c ≠ '*' ∧ c ≠ '?')
    (hnames : ∀ segment ∈ Text.splitOn '/' path, segment ≠ []) :
    InLanguage ('*' :: '*' :: '/' :: (plain ++ ['/', '*', '*'])) path ↔
      ∃ above below, below ≠ [] ∧
      Text.splitOn '/' path = above ++ Text.splitOn '/' plain ++ below := by
  rw [inLanguage_below_iff hplain]
  simp only [behind_directories_iff hnames, Text.splitOn_append_separator]
  constructor
  · rintro ⟨rest, above, habove⟩
    exact ⟨above, Text.splitOn '/' rest,
      Text.splitOn_ne_nil '/' rest, by rw [← habove, List.append_assoc]⟩
  · rintro ⟨above, below, hne, hpath⟩
    have hpieces : ∀ piece ∈ below, '/' ∉ piece := fun piece hpiece =>
      Text.not_mem_of_mem_splitOn (s := path) (hpath ▸ List.mem_append_right _ hpiece)
    obtain ⟨rest, rfl⟩ := Text.exists_splitOn_eq hne hpieces
    exact ⟨rest, above, by rw [hpath, List.append_assoc]⟩

end Glob

end FrontendAudit
