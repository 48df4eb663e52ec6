import FrontendAudit.Proofs.Finding.RoundTrip
import FrontendAudit.Proofs.Json.RoundTrip
import FrontendAudit.Source.Excerpt
import Mathlib.Data.List.Chain
import Mathlib.Data.List.DropRight
import Mathlib.Data.List.GetD

/-!
# What an excerpt shows

The lines that an excerpt shows are lines of its window in their order (`Shows`): every line with
text is among them, no two blank lines stand side by side, and a blank line at an edge can only be
the line in question. Trimming the edges stops at the line in question; leaving out repeated blank
lines does not, so that a blank line in question is left out when the line before it is blank too
and shown (`Hidden`). Then no line has the marker, and a blank line can be the last
(`excerpt_shows`, `blank_target_hidden`).
-/

namespace FrontendAudit

/-! ## Cutting keeps the start -/

namespace Snippet

theorem take_truncate {k : Nat} (hk : k ≤ limit - 1) (s : List Char) :
    (truncate s).take k = s.take k := by
  unfold truncate
  split
  · rfl
  · next hlong =>
      have hlen : k ≤ (s.take (limit - 1)).length := by
        rw [List.length_take]
        omega
      rw [List.take_append_of_le_length hlen, List.take_take, Nat.min_eq_left hk]

theorem truncate_eq_nil_iff {s : List Char} : truncate s = [] ↔ s = [] :=
  calc truncate s = [] ↔ (truncate s).take 1 = [] := by simp
    _ ↔ s.take 1 = [] := by rw [take_truncate (by decide)]
    _ ↔ s = [] := by simp

/-- A short text starts a text exactly when it starts the cut text. -/
theorem prefix_truncate_iff {start : List Char} (hstart : start.length ≤ limit - 1)
    (s : List Char) :
    start <+: truncate s ↔ start <+: s := by
  rw [List.prefix_iff_eq_take, List.prefix_iff_eq_take, take_truncate hstart]

end Snippet

/-- Joined texts are a text, if none of them is empty. -/
theorem Text.joinWith_ne_nil {sep : List Char} {pieces : List (List Char)} (hne : pieces ≠ [])
    (hpieces : ∀ piece ∈ pieces, piece ≠ []) : joinWith sep pieces ≠ [] := by
  cases pieces with
  | nil => exact absurd rfl hne
  | cons piece rest =>
      have hpiece : piece ≠ [] := hpieces piece List.mem_cons_self
      cases rest with
      | nil => exact hpiece
      | cons _ _ =>
          rw [joinWith_cons (List.cons_ne_nil _ _), List.append_assoc]
          exact List.append_ne_nil_of_left_ne_nil hpiece _

namespace Source

open Text (strip splitOn joinWith)

variable {lines : List (List Char)} {n : Nat} {radius : Int}

/-! ## The window -/

/-- The line of a number, as it is quoted. -/
def quoted (lines : List (List Char)) (i : Nat) : List Char :=
  strip (lines.getD (i - 1) [])

theorem exists_mem_of_mem_quoted {i : Nat} {c : Char} (h : c ∈ quoted lines i) :
    ∃ given ∈ lines, c ∈ given := by
  have hmem := Text.mem_of_mem_strip h
  by_cases hi : i - 1 < lines.length
  · rw [List.getD_eq_getElem _ _ hi] at hmem
    exact ⟨_, List.getElem_mem hi, hmem⟩
  · rw [List.getD_eq_default _ _ (Nat.le_of_not_lt hi)] at hmem
    cases hmem

/-- A line of the source that is no further than the radius from line `n`. -/
structure Near (lines : List (List Char)) (n : Nat) (radius : Int) (i : Nat) : Prop where
  one_le : 1 ≤ i
  le_length : i ≤ lines.length
  lower : (n : Int) - radius ≤ i
  upper : (i : Int) ≤ n + radius

/-- The lines of `count` consecutive numbers. -/
def stretch (lines : List (List Char)) (first count : Nat) : List Numbered :=
  (List.range' first count).map fun i => (i, quoted lines i)

theorem mem_stretch_iff {first count : Nat} {line : Numbered} :
    line ∈ stretch lines first count ↔
      (first ≤ line.1 ∧ line.1 < first + count) ∧ line.2 = quoted lines line.1 := by
  obtain ⟨i, text⟩ := line
  simp only [stretch, List.mem_map, List.mem_range'_1, Prod.mk.injEq]
  constructor
  · rintro ⟨j, hj, rfl, rfl⟩
    exact ⟨hj, rfl⟩
  · rintro ⟨hi, rfl⟩
    exact ⟨i, hi, rfl, rfl⟩

theorem stretch_append (first a b : Nat) :
    stretch lines first (a + b) = stretch lines first a ++ stretch lines (first + a) b := by
  rw [stretch, ← List.range'_append_1, List.map_append]
  rfl

theorem pairwise_stretch (first count : Nat) : (stretch lines first count).Pairwise (·.1 < ·.1) :=
  List.pairwise_map.mpr List.pairwise_lt_range'

/-- The lines of a stretch that lies within the source, read off it. -/
theorem zipIdx_take_drop_eq_stretch {first count : Nat} (hfirst : 1 ≤ first)
    (hcount : 0 < count → first - 1 + count ≤ lines.length) :
    (((lines.drop (first - 1)).take count).zipIdx first).map (fun (line, i) => (i, strip line)) =
      stretch lines first count := by
  apply List.ext_getElem
  · simp only [stretch, List.length_map, List.length_zipIdx, List.length_take, List.length_drop,
      List.length_range']
    omega
  · intro k hk hk'
    have hlt : first - 1 + k < lines.length := by
      simp only [stretch, List.length_map, List.length_range'] at hk'
      omega
    have hnum : first + k - 1 = first - 1 + k := by omega
    simp [stretch, quoted, hnum, hlt]

/-- The window is the stretch of the lines near line `n`. -/
theorem exists_window_eq (lines : List (List Char)) (n : Nat) (radius : Int) :
    ∃ first count, window lines n radius = stretch lines first count ∧
      ∀ i, (first ≤ i ∧ i < first + count) ↔ Near lines n radius i := by
  refine ⟨(max 1 ((n : Int) - radius)).toNat,
    (min (lines.length : Int) (n + radius)).toNat + 1 - (max 1 ((n : Int) - radius)).toNat, ?_, ?_⟩
  · exact zipIdx_take_drop_eq_stretch (by omega) (by omega)
  · intro i
    constructor
    · intro hi
      exact ⟨by omega, by omega, by omega, by omega⟩
    · rintro ⟨hone, hlen, hlower, hupper⟩
      omega

theorem mem_window_iff {line : Numbered} :
    line ∈ window lines n radius ↔ Near lines n radius line.1 ∧ line.2 = quoted lines line.1 := by
  obtain ⟨first, count, hwindow, hnear⟩ := exists_window_eq lines n radius
  rw [hwindow, mem_stretch_iff, hnear]

theorem pairwise_window : (window lines n radius).Pairwise (·.1 < ·.1) := by
  obtain ⟨first, count, hwindow, -⟩ := exists_window_eq lines n radius
  exact hwindow ▸ pairwise_stretch first count

/-- The window, taken apart at line `n`. -/
theorem exists_window_split (hn : Near lines n radius n) :
    ∃ first count,
      window lines n radius =
        stretch lines first (n - first) ++ (n, quoted lines n) :: stretch lines (n + 1) count ∧
      first ≤ n ∧ ∀ i < n, first ≤ i ↔ Near lines n radius i := by
  obtain ⟨first, count, hwindow, hnear⟩ := exists_window_eq lines n radius
  obtain ⟨hfirst, hlast⟩ := (hnear n).mpr hn
  refine ⟨first, first + count - (n + 1), ?_, hfirst, ?_⟩
  · have hcount : count = (n - first) + (1 + (first + count - (n + 1))) := by omega
    have hat : first + (n - first) = n := by omega
    rw [hwindow, hcount, stretch_append, stretch_append, hat]
    have hrest : n - first + (1 + (first + count - (n + 1))) = count := by omega
    simp [stretch, hrest]
  · intro i hi
    rw [← hnear]
    omega

/-! ## Trimming the edges -/

variable {l above below shown : List Numbered} {line : Numbered} {afterBlank : Bool}

theorem droppable_eq_true_iff : droppable n line = true ↔ line.2 = [] ∧ line.1 ≠ n := by
  simp [droppable]

theorem droppable_eq_false_iff : droppable n line = false ↔ line.2 ≠ [] ∨ line.1 = n := by
  rw [← Bool.not_eq_true, droppable_eq_true_iff]
  tauto

theorem dropWhile_append_cons_of_neg (h : droppable n line = false) (above below : List Numbered) :
    (above ++ line :: below).dropWhile (droppable n) =
      above.dropWhile (droppable n) ++ line :: below := by
  rw [List.dropWhile_append, List.dropWhile_cons_of_neg (by simp [h])]
  split
  · next hnone => rw [List.isEmpty_iff.mp hnone, List.nil_append]
  · rfl

/-- A line that must stay stops the trimming from both sides. -/
theorem trimEdges_append_cons (h : droppable n line = false) (above below : List Numbered) :
    trimEdges n (above ++ line :: below) =
      above.dropWhile (droppable n) ++ line :: below.rdropWhile (droppable n) := by
  rw [trimEdges, dropWhile_append_cons_of_neg h, List.reverse_append, List.reverse_cons,
    List.append_assoc, List.singleton_append, dropWhile_append_cons_of_neg h]
  simp [List.rdropWhile]

theorem mem_trimEdges (hmem : line ∈ l) (h : droppable n line = false) : line ∈ trimEdges n l := by
  obtain ⟨above, below, rfl⟩ := List.append_of_mem hmem
  rw [trimEdges_append_cons h]
  simp

theorem trimEdges_sublist (n : Nat) (l : List Numbered) : (trimEdges n l).Sublist l :=
  (List.rdropWhile_prefix _ _).sublist.trans (List.dropWhile_sublist _)

theorem not_droppable_head (h : line ∈ (trimEdges n l).head?) : droppable n line = false := by
  cases hrest : l.dropWhile (droppable n) with
  | nil =>
      rw [trimEdges, hrest] at h
      cases h
  | cons first rest =>
      have hfirst : droppable n first = false := by
        have := List.head?_dropWhile_not (droppable n) l
        rw [hrest] at this
        simpa using this
      have htrim : trimEdges n l = first :: rest.rdropWhile (droppable n) := by
        have := dropWhile_append_cons_of_neg hfirst rest.reverse []
        simp only [trimEdges, hrest, List.reverse_cons, this, List.reverse_append]
        simp [List.rdropWhile]
      rw [htrim] at h
      obtain rfl : first = line := by simpa using h
      exact hfirst

theorem not_droppable_getLast (h : line ∈ (trimEdges n l).getLast?) :
    droppable n line = false := by
  have hne : trimEdges n l ≠ [] := by
    rintro hnil
    rw [hnil] at h
    cases h
  have hlast := List.rdropWhile_last_not (droppable n) (l.dropWhile (droppable n)) hne
  rw [List.getLast?_eq_some_getLast hne] at h
  obtain rfl : (trimEdges n l).getLast hne = line := by simpa using h
  exact Bool.not_eq_true _ ▸ hlast

/-! ## Leaving out repeated blank lines -/

theorem collapseBlanks_cons_of_text (h : line.2 ≠ []) :
    collapseBlanks afterBlank (line :: l) = line :: collapseBlanks false l := by
  simp [collapseBlanks, List.isEmpty_eq_false_iff.mpr h]

theorem collapseBlanks_cons_of_blank (h : line.2 = []) :
    collapseBlanks afterBlank (line :: l) =
      (if afterBlank then [] else [line]) ++ collapseBlanks true l := by
  cases afterBlank <;> simp [collapseBlanks, h]

theorem collapseBlanks_sublist (afterBlank : Bool) (l : List Numbered) :
    (collapseBlanks afterBlank l).Sublist l := by
  fun_induction collapseBlanks afterBlank l with
  | case1 => exact List.Sublist.refl []
  | case2 _ line _ _ ih => exact ih.cons line
  | case3 _ line _ _ ih => exact ih.cons_cons line

theorem mem_collapseBlanks (hmem : line ∈ l) (htext : line.2 ≠ []) :
    line ∈ collapseBlanks afterBlank l := by
  fun_induction collapseBlanks afterBlank l with
  | case1 => cases hmem
  | case2 _ first rest hleft ih =>
      rcases List.mem_cons.mp hmem with rfl | hmem
      · simp [htext] at hleft
      · exact ih hmem
  | case3 _ first rest _ ih =>
      rcases List.mem_cons.mp hmem with rfl | hmem
      · exact List.mem_cons_self
      · exact List.mem_cons_of_mem _ (ih hmem)

/-- Behind a blank line the first line that is kept has text. -/
theorem text_of_mem_head? (h : line ∈ (collapseBlanks true l).head?) : line.2 ≠ [] := by
  induction l with
  | nil => cases h
  | cons first rest ih =>
      by_cases hfirst : first.2 = []
      · rw [collapseBlanks_cons_of_blank hfirst] at h
        exact ih h
      · rw [collapseBlanks_cons_of_text hfirst] at h
        obtain rfl : first = line := by simpa using h
        exact hfirst

/-- No two blank lines that are kept stand side by side. -/
theorem isChain_collapseBlanks (afterBlank : Bool) (l : List Numbered) :
    (collapseBlanks afterBlank l).IsChain fun a b => a.2 ≠ [] ∨ b.2 ≠ [] := by
  induction l generalizing afterBlank with
  | nil => exact List.isChain_nil
  | cons first rest ih =>
      by_cases hfirst : first.2 = []
      · rw [collapseBlanks_cons_of_blank hfirst]
        cases afterBlank with
        | true => exact ih true
        | false =>
            exact List.isChain_cons.mpr ⟨fun line h => .inr (text_of_mem_head? h), ih true⟩
      · rw [collapseBlanks_cons_of_text hfirst]
        exact List.isChain_cons.mpr ⟨fun _ _ => .inl hfirst, ih false⟩

/-- Whether the last line is blank, or else whether the line before them all is. -/
def endsBlank (afterBlank : Bool) (l : List Numbered) : Bool :=
  l.foldl (fun _ line => line.2.isEmpty) afterBlank

theorem endsBlank_concat (afterBlank : Bool) (l : List Numbered) (line : Numbered) :
    endsBlank afterBlank (l ++ [line]) = line.2.isEmpty := by
  simp [endsBlank]

theorem collapseBlanks_append (afterBlank : Bool) (l l' : List Numbered) :
    collapseBlanks afterBlank (l ++ l') =
      collapseBlanks afterBlank l ++ collapseBlanks (endsBlank afterBlank l) l' := by
  induction l generalizing afterBlank with
  | nil => rfl
  | cons first rest ih =>
      have hends : endsBlank afterBlank (first :: rest) = endsBlank first.2.isEmpty rest := rfl
      rw [List.cons_append, hends]
      by_cases hfirst : first.2 = []
      · rw [collapseBlanks_cons_of_blank hfirst, collapseBlanks_cons_of_blank hfirst, ih, hfirst,
          List.append_assoc]
        rfl
      · rw [collapseBlanks_cons_of_text hfirst, collapseBlanks_cons_of_text hfirst, ih,
          List.isEmpty_eq_false_iff.mpr hfirst]
        rfl

theorem head?_collapseBlanks (l : List Numbered) : (collapseBlanks false l).head? = l.head? := by
  cases l with
  | nil => rfl
  | cons first rest => simp [collapseBlanks]

/-- The last line is the last that is kept, or it is blank and left out. -/
theorem getLast?_collapseBlanks_concat (afterBlank : Bool) (l : List Numbered) (line : Numbered) :
    (collapseBlanks afterBlank (l ++ [line])).getLast? = some line ∨
      line.2 = [] ∧ collapseBlanks afterBlank (l ++ [line]) = collapseBlanks afterBlank l := by
  rw [collapseBlanks_append]
  by_cases hline : line.2 = []
  · rw [collapseBlanks_cons_of_blank hline]
    cases endsBlank afterBlank l with
    | true => exact .inr ⟨hline, by simp [collapseBlanks]⟩
    | false => exact .inl (by simp [collapseBlanks])
  · rw [collapseBlanks_cons_of_text hline]
    exact .inl (by simp [collapseBlanks])

/-- A blank line is kept unless what stands before it ends in a blank line. -/
theorem mem_collapseBlanks_blank_iff (hblank : line.2 = []) (habove : line ∉ above)
    (hbelow : line ∉ below) :
    line ∈ collapseBlanks afterBlank (above ++ line :: below) ↔
      endsBlank afterBlank above = false := by
  have habove' : line ∉ collapseBlanks afterBlank above :=
    fun h => habove ((collapseBlanks_sublist _ _).subset h)
  have hbelow' : line ∉ collapseBlanks true below :=
    fun h => hbelow ((collapseBlanks_sublist _ _).subset h)
  rw [collapseBlanks_append, collapseBlanks_cons_of_blank hblank]
  cases endsBlank afterBlank above <;> simp [habove', hbelow']

/-- The last line that is shown has text or is line `n`, unless line `n` ends the lines and is left
out. -/
theorem last_collapseBlanks_trimEdges (hascending : l.Pairwise (·.1 < ·.1))
    (hline : line ∈ (collapseBlanks false (trimEdges n l)).getLast?) :
    line.2 ≠ [] ∨ line.1 = n ∨
      line.1 < n ∧ ∃ edge ∈ l, edge.1 = n ∧ edge ∉ collapseBlanks false (trimEdges n l) := by
  rcases List.eq_nil_or_concat' (trimEdges n l) with hnone | ⟨rest, edge, htrim⟩
  · rw [hnone] at hline
    cases hline
  have hedge : droppable n edge = false := not_droppable_getLast (l := l) (by simp [htrim])
  have hlt : ∀ other ∈ rest, other.1 < edge.1 := by
    have hpair := hascending.sublist (trimEdges_sublist n l)
    rw [htrim, List.pairwise_append] at hpair
    exact fun other h => hpair.2.2 other h edge List.mem_cons_self
  rw [htrim] at hline ⊢
  rcases getLast?_collapseBlanks_concat false rest edge with hkept | ⟨hblank, hleft⟩
  · obtain rfl : edge = line := Option.some.inj (hkept.symm.trans hline)
    exact (droppable_eq_false_iff.mp hedge).imp_right .inl
  · rw [hleft] at hline ⊢
    have hnum : edge.1 = n := (droppable_eq_false_iff.mp hedge).resolve_left (not_not.mpr hblank)
    have hrest : ∀ other ∈ collapseBlanks false rest, other.1 < n := fun other h =>
      hnum ▸ hlt other ((collapseBlanks_sublist _ _).subset h)
    have hmem : edge ∈ l := (trimEdges_sublist n l).subset (by simp [htrim])
    exact .inr (.inr ⟨hrest line (List.mem_of_mem_getLast? hline), edge, hmem, hnum,
      fun h => absurd (hrest edge h) (by omega)⟩)

/-! ## What is shown -/

/-- Line `n` is blank, and so is the line before it, which is shown because a line of the window
before it has text. -/
structure Hidden (lines : List (List Char)) (n : Nat) (radius : Int) : Prop where
  blank : quoted lines n = []
  blankBefore : quoted lines (n - 1) = []
  text : ∃ i < n, Near lines n radius i ∧ quoted lines i ≠ []

/-- What of the window is shown around line `n`. -/
structure Shows (lines : List (List Char)) (n : Nat) (radius : Int) (shown : List Numbered) :
    Prop where
  near : ∀ line ∈ shown, Near lines n radius line.1 ∧ line.2 = quoted lines line.1
  ascending : shown.Pairwise (·.1 < ·.1)
  texts : ∀ i, Near lines n radius i → quoted lines i ≠ [] → (i, quoted lines i) ∈ shown
  spaced : shown.IsChain fun a b => a.2 ≠ [] ∨ b.2 ≠ []
  first : ∀ line ∈ shown.head?, line.2 ≠ [] ∨ line.1 = n
  last : ∀ line ∈ shown.getLast?, line.2 ≠ [] ∨ line.1 = n ∨ Hidden lines n radius ∧ line.1 < n
  target : (n, quoted lines n) ∈ shown ↔ 0 ≤ radius ∧ ¬Hidden lines n radius

theorem quotedLines_sublist_window : (quotedLines lines n radius).Sublist (window lines n radius) :=
  (collapseBlanks_sublist _ _).trans (trimEdges_sublist _ _)

theorem near_of_mem_quotedLines (h : line ∈ quotedLines lines n radius) :
    Near lines n radius line.1 ∧ line.2 = quoted lines line.1 :=
  mem_window_iff.mp (quotedLines_sublist_window.subset h)

theorem dropWhile_stretch_eq_nil_iff {first count : Nat} (hcount : first + count ≤ n) :
    (stretch lines first count).dropWhile (droppable n) = [] ↔
      ∀ i, first ≤ i → i < first + count → quoted lines i = [] := by
  rw [List.dropWhile_eq_nil_iff]
  constructor
  · intro h i hi hi'
    exact (droppable_eq_true_iff.mp
      (h (i, quoted lines i) (mem_stretch_iff.mpr ⟨⟨hi, hi'⟩, rfl⟩))).1
  · intro h line hline
    obtain ⟨⟨hi, hi'⟩, htext⟩ := mem_stretch_iff.mp hline
    exact droppable_eq_true_iff.mpr ⟨htext ▸ h line.1 hi hi', by omega⟩

/-- Before line `n`, what trimming leaves of a stretch ends in a blank line exactly when the last
line is blank and another has text. -/
theorem endsBlank_dropWhile_stretch_iff {first count : Nat} (hcount : first + count ≤ n) :
    endsBlank false ((stretch lines first count).dropWhile (droppable n)) = true ↔
      quoted lines (first + count - 1) = [] ∧
        ∃ i, (first ≤ i ∧ i < first + count) ∧ quoted lines i ≠ [] := by
  cases count with
  | zero =>
      simp [stretch, endsBlank]
  | succ count =>
      have hlast : first + (count + 1) - 1 = first + count := rfl
      have hone : stretch lines (first + count) 1 =
          [(first + count, quoted lines (first + count))] := rfl
      have hbefore : (stretch lines first count).dropWhile (droppable n) = [] ↔ _ :=
        dropWhile_stretch_eq_nil_iff (by omega)
      rw [stretch_append, hone, hlast, List.dropWhile_append]
      by_cases hall : ∀ i, first ≤ i → i < first + count → quoted lines i = []
      · -- trimming leaves nothing of the lines before the last
        rw [hbefore.mpr hall, if_pos List.isEmpty_nil]
        by_cases hblank : quoted lines (first + count) = []
        · have hdrop : droppable n (first + count, quoted lines (first + count)) = true :=
            droppable_eq_true_iff.mpr ⟨hblank, by omega⟩
          rw [List.dropWhile_cons_of_pos hdrop]
          refine iff_of_false Bool.false_ne_true ?_
          rintro ⟨-, i, ⟨hi, hi'⟩, htext⟩
          rcases Nat.lt_or_ge i (first + count) with hlt | hge
          · exact htext (hall i hi hlt)
          · obtain rfl : i = first + count := by omega
            exact htext hblank
        · have hstay : droppable n (first + count, quoted lines (first + count)) = false :=
            droppable_eq_false_iff.mpr (.inl hblank)
          rw [List.dropWhile_cons_of_neg (by simp [hstay])]
          simp [endsBlank, hblank]
      · -- the last line stays, whatever it is
        rw [if_neg (by rw [List.isEmpty_iff, hbefore]; exact hall), endsBlank_concat,
          List.isEmpty_iff]
        push Not at hall
        obtain ⟨i, hi, hi', htext⟩ := hall
        exact ⟨fun h => ⟨h, i, ⟨hi, by omega⟩, htext⟩, And.left⟩

theorem mem_target_quotedLines_iff (hn : Near lines n radius n) :
    (n, quoted lines n) ∈ quotedLines lines n radius ↔ ¬Hidden lines n radius := by
  obtain ⟨first, count, hwindow, hfirst, hnear⟩ := exists_window_split hn
  have hstay : droppable n (n, quoted lines n) = false := droppable_eq_false_iff.mpr (.inr rfl)
  rw [quotedLines, hwindow, trimEdges_append_cons hstay]
  by_cases hblank : quoted lines n = []
  · have habove : (n, quoted lines n) ∉ (stretch lines first (n - first)).dropWhile (droppable n) :=
      fun h => by
        have := (mem_stretch_iff.mp ((List.dropWhile_sublist _).subset h)).1
        omega
    have hbelow : (n, quoted lines n) ∉ (stretch lines (n + 1) count).rdropWhile (droppable n) :=
      fun h => by
        have := (mem_stretch_iff.mp ((List.rdropWhile_prefix _ _).subset h)).1
        omega
    have hat : first + (n - first) = n := by omega
    rw [mem_collapseBlanks_blank_iff hblank habove hbelow, ← Bool.not_eq_true,
      endsBlank_dropWhile_stretch_iff hat.le, hat, not_iff_not]
    constructor
    · rintro ⟨hbefore, i, ⟨hi, hi'⟩, htext⟩
      exact ⟨hblank, hbefore, i, hi', (hnear i hi').mp hi, htext⟩
    · rintro ⟨-, hbefore, i, hi, hi', htext⟩
      exact ⟨hbefore, i, ⟨(hnear i hi).mpr hi', hi⟩, htext⟩
  · refine iff_of_true (mem_collapseBlanks (by simp) hblank) ?_
    rintro ⟨h, -⟩
    exact hblank h

theorem shows_quotedLines (h1 : 1 ≤ n) (hlen : n ≤ lines.length) (radius : Int) :
    Shows lines n radius (quotedLines lines n radius) := by
  have htarget : (n, quoted lines n) ∈ quotedLines lines n radius ↔
      0 ≤ radius ∧ ¬Hidden lines n radius := by
    by_cases hradius : 0 ≤ radius
    · rw [mem_target_quotedLines_iff ⟨h1, hlen, by omega, by omega⟩]
      exact (and_iff_right hradius).symm
    · refine iff_of_false (fun h => ?_) (fun h => hradius h.1)
      have hn := (near_of_mem_quotedLines h).1.lower
      omega
  have hascending : (quotedLines lines n radius).Pairwise (·.1 < ·.1) :=
    pairwise_window.sublist quotedLines_sublist_window
  refine ⟨fun _ => near_of_mem_quotedLines, hascending, ?_, isChain_collapseBlanks _ _, ?_,
    ?_, htarget⟩
  · intro i hi htext
    have hstay : droppable n (i, quoted lines i) = false := droppable_eq_false_iff.mpr (.inl htext)
    exact mem_collapseBlanks (mem_trimEdges (mem_window_iff.mpr ⟨hi, rfl⟩) hstay) htext
  · intro line hline
    rw [quotedLines, head?_collapseBlanks] at hline
    exact droppable_eq_false_iff.mp (not_droppable_head hline)
  · intro line hline
    refine (last_collapseBlanks_trimEdges pairwise_window hline).imp_right (Or.imp_right ?_)
    rintro ⟨hlt, edge, hmem, hnum, hgone⟩
    have hnear := mem_window_iff.mp hmem
    obtain rfl : edge = (n, quoted lines n) := Prod.ext hnum (hnum ▸ hnear.2)
    have hradius : 0 ≤ radius := by
      have := hnear.1.lower
      omega
    exact ⟨by_contra fun hnot => hgone (htarget.mpr ⟨hradius, hnot⟩), hlt⟩

/-! ## What is rendered -/

/-- Whether a rendered line has the marker. -/
def marked (rendered : List Char) : Bool := ">>>".toList.isPrefixOf rendered

theorem marked_renderLine (n : Nat) (line : Numbered) :
    marked (renderLine n line) = true ↔ line.1 = n := by
  rw [marked, List.isPrefixOf_iff_prefix, renderLine, Snippet.prefix_truncate_iff (by decide)]
  by_cases h : line.1 = n <;> simp [h, List.prefix_cons_iff]

theorem filter_marked_eq_nil (h : ∀ line ∈ l, line.1 ≠ n) :
    (l.map (renderLine n)).filter marked = [] := by
  rw [List.filter_eq_nil_iff, List.forall_mem_map]
  exact fun line hline hmark => h line hline ((marked_renderLine n line).mp hmark)

/-- Of lines in ascending order at most one has the marker. -/
theorem filter_marked (hascending : shown.Pairwise (·.1 < ·.1)) (hmem : line ∈ shown)
    (hline : line.1 = n) : (shown.map (renderLine n)).filter marked = [renderLine n line] := by
  obtain ⟨above, below, rfl⟩ := List.append_of_mem hmem
  rw [List.pairwise_append, List.pairwise_cons] at hascending
  obtain ⟨-, ⟨hbelow, -⟩, habove⟩ := hascending
  have habove' : ∀ other ∈ above, other.1 ≠ n := fun other h => by
    have := habove other h line List.mem_cons_self
    omega
  have hbelow' : ∀ other ∈ below, other.1 ≠ n := fun other h => by
    have := hbelow other h
    omega
  rw [List.map_append, List.map_cons, List.filter_append,
    List.filter_cons_of_pos ((marked_renderLine n line).mpr hline), filter_marked_eq_nil habove',
    filter_marked_eq_nil hbelow']
  rfl

theorem not_newline_mem_renderLine (hlines : ∀ given ∈ lines, '\n' ∉ given)
    (hline : line.2 = quoted lines line.1) : '\n' ∉ renderLine n line := by
  have hnumber : ∀ i, '\n' ∉ Number.natText i := fun i h =>
    absurd (Json.isDigit_of_mem_natText h) (by decide)
  have htext : '\n' ∉ line.2 := by
    intro h
    obtain ⟨given, hgiven, hmem⟩ := exists_mem_of_mem_quoted (hline ▸ h)
    exact hlines given hgiven hmem
  refine Snippet.not_mem_truncate (by decide) ?_
  by_cases h : line.1 = n <;> simp [h, hnumber, htext]

theorem renderLine_ne_nil (n : Nat) (line : Numbered) : renderLine n line ≠ [] := by
  rw [renderLine, Ne, Snippet.truncate_eq_nil_iff]
  simp

/-- Something is shown around every line of the source. -/
theorem quotedLines_ne_nil (h1 : 1 ≤ n) (hlen : n ≤ lines.length) (hradius : 0 ≤ radius) :
    quotedLines lines n radius ≠ [] := by
  have hshows := shows_quotedLines h1 hlen radius
  by_cases hhidden : Hidden lines n radius
  · obtain ⟨i, -, hnear, htext⟩ := hhidden.text
    exact List.ne_nil_of_mem (hshows.texts i hnear htext)
  · exact List.ne_nil_of_mem (hshows.target.mpr ⟨hradius, hhidden⟩)

/-- The line in question is quoted if the source has it and it has text. -/
theorem excerpt_code_ne_nil_iff {n : Int} : (excerpt lines n radius).code ≠ [] ↔
    (1 ≤ n ∧ n ≤ lines.length) ∧ quoted lines n.toNat ≠ [] := by
  unfold excerpt
  split
  · next hin =>
      rw [Bool.and_eq_true, decide_eq_true_eq, decide_eq_true_eq] at hin
      exact (not_congr Snippet.truncate_eq_nil_iff).trans (and_iff_right hin).symm
  · next hout =>
      rw [Bool.and_eq_true, decide_eq_true_eq, decide_eq_true_eq] at hout
      exact iff_of_false (fun h => h rfl) fun h => hout h.1

/-- Lines are quoted around the line in question if the source has it, even if it is blank. -/
theorem excerpt_context_ne_nil_iff {n : Int} (hradius : 0 ≤ radius) :
    (excerpt lines n radius).context ≠ [] ↔ 1 ≤ n ∧ n ≤ lines.length := by
  unfold excerpt
  split
  · next hin =>
      rw [Bool.and_eq_true, decide_eq_true_eq, decide_eq_true_eq] at hin
      refine iff_of_true (Text.joinWith_ne_nil ?_ ?_) hin
      · rw [Ne, List.map_eq_nil_iff]
        exact quotedLines_ne_nil (by omega) (by omega) hradius
      · exact List.forall_mem_map.mpr fun line _ => renderLine_ne_nil _ line
  · next hout =>
      rw [Bool.and_eq_true, decide_eq_true_eq, decide_eq_true_eq] at hout
      exact iff_of_false (fun h => h rfl) hout

/-- Around a line of the source, an excerpt renders lines of the window in ascending order: all that
have text, no two blank ones side by side, and at the edges none that is blank unless it is the line
in question. Exactly one of them has the marker, that of the line in question, unless that line is
blank and left out as a repeated blank line; only then another blank line can be the last. -/
theorem excerpt_shows (lines : List (List Char)) {n : Nat} (h1 : 1 ≤ n) (hlen : n ≤ lines.length)
    (radius : Int) :
    ∃ shown, Shows lines n radius shown ∧
      excerpt lines n radius =
        ⟨Snippet.truncate (quoted lines n), joinWith ['\n'] (shown.map (renderLine n))⟩ ∧
      ((∀ line ∈ lines, '\n' ∉ line) → shown ≠ [] →
        splitOn '\n' (excerpt lines n radius).context = shown.map (renderLine n)) ∧
      (∀ line ∈ shown, marked (renderLine n line) = true ↔ line.1 = n) ∧
      (0 ≤ radius ∧ ¬Hidden lines n radius →
        (shown.map (renderLine n)).filter marked = [renderLine n (n, quoted lines n)]) ∧
      (radius < 0 ∨ Hidden lines n radius → (shown.map (renderLine n)).filter marked = []) := by
  have hshows := shows_quotedLines h1 hlen radius
  have hexcerpt : excerpt lines n radius = ⟨Snippet.truncate (quoted lines n),
      joinWith ['\n'] ((quotedLines lines n radius).map (renderLine n))⟩ := by
    have hin : (1 ≤ (n : Int) && (n : Int) ≤ lines.length) = true := by
      simp
      omega
    rw [excerpt, if_pos hin]
    rfl
  refine ⟨quotedLines lines n radius, hshows, hexcerpt, ?_, fun line _ =>
    marked_renderLine n line, ?_, ?_⟩
  · intro hlines hne
    rw [hexcerpt]
    refine Text.splitOn_joinWith (by simpa using hne) ?_
    rw [List.forall_mem_map]
    exact fun line h => not_newline_mem_renderLine hlines (hshows.near line h).2
  · intro hvisible
    exact filter_marked hshows.ascending (hshows.target.mpr hvisible) rfl
  · intro hinvisible
    refine filter_marked_eq_nil fun line hline hnum => ?_
    -- the only line of that number is line `n` itself
    have hself : line = (n, quoted lines n) := Prod.ext hnum (hnum ▸ (hshows.near line hline).2)
    obtain ⟨hradius, hnot⟩ := hshows.target.mp (hself ▸ hline)
    rcases hinvisible with hneg | hhidden
    · omega
    · exact hnot hhidden

theorem excerpt_shows_target :
    (1 ≤ 5 ∧ 5 ≤ (["", "x", "", "", "target", "", ""].map String.toList).length) ∧
    ∃ shown, Shows (["", "x", "", "", "target", "", ""].map String.toList) 5 3 shown ∧
      (excerpt (["", "x", "", "", "target", "", ""].map String.toList) 5 3).context =
        joinWith ['\n'] (shown.map (renderLine 5)) ∧
      (shown.map (renderLine 5)).filter marked = [">>> 5: target".toList] := by
  have hnot : ¬Hidden (["", "x", "", "", "target", "", ""].map String.toList) 5 3 := by
    rintro ⟨hblank, -⟩
    exact absurd hblank (by decide)
  obtain ⟨shown, hshows, hexcerpt, -, -, hmarked, -⟩ :=
    excerpt_shows (["", "x", "", "", "target", "", ""].map String.toList) (n := 5)
      (by decide) (by decide) 3
  exact ⟨by decide, shown, hshows, congrArg Excerpt.context hexcerpt, hmarked ⟨by decide, hnot⟩⟩

/-- A blank line after a blank line is not shown, although it is the line in question: no line has
the marker, and a blank line that is not in question can be the last. -/
theorem blank_target_hidden :
    excerpt (["a", "", "", "b"].map String.toList) 3 =
      ⟨[], "    1: a\n    2: \n    4: b".toList⟩ ∧
    (splitOn '\n' "    1: a\n    2: \n    4: b".toList).filter marked = [] ∧
    excerpt (["a", "", ""].map String.toList) 3 = ⟨[], "    1: a\n    2: ".toList⟩ := by
  decide

end Source

end FrontendAudit
