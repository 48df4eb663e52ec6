import FrontendAudit.Proofs.Glob.Groups

/-!
# Patterns with nested groups

A pattern is a row of characters and groups, and the alternatives of a group are patterns again. Its
meanings are the texts that come from choosing one alternative of each group (`Braced.meanings`);
without nested groups they are a product (`Braced.meanings_of_isFlat`). The texts of patterns are
exactly those whose braces are balanced (`balanced_iff`).
-/

namespace FrontendAudit.Glob

mutual

/-- A pattern: a row of characters and groups. -/
inductive Braced where
  | empty
  | char (c : Char) (rest : Braced)
  | group (choices : Choices) (rest : Braced)

/-- The alternatives of a group, of which there is at least one. -/
inductive Choices where
  | last (p : Braced)
  | more (p : Braced) (others : Choices)

end

/-! ## Texts and meanings -/

mutual

/-- The text of a pattern. -/
def Braced.text : Braced → List Char
  | .empty => []
  | .char c rest => c :: rest.text
  | .group choices rest => opening :: (choices.text ++ closing :: rest.text)

/-- The texts of alternatives, with commas between them. -/
def Choices.text : Choices → List Char
  | .last p => p.text
  | .more p others => p.text ++ ',' :: others.text

end

mutual

/-- No brace is a character of the pattern; a comma of an alternative is inside a further group. -/
def Braced.Written (inside : Bool) : Braced → Prop
  | .empty => True
  | .char c rest => isBrace c = false ∧ (inside = true → c ≠ ',') ∧ rest.Written inside
  | .group choices rest => choices.Written ∧ rest.Written inside

/-- Every alternative is written as one. -/
def Choices.Written : Choices → Prop
  | .last p => p.Written true
  | .more p others => p.Written true ∧ others.Written

end

mutual

/-- What a pattern stands for: a character for itself, a group for each of its alternatives, and
what follows for what it stands for by itself. -/
def Braced.meanings : Braced → List (List Char)
  | .empty => [[]]
  | .char c rest => rest.meanings.map (c :: ·)
  | .group choices rest => choices.meanings.flatMap fun choice => rest.meanings.map (choice ++ ·)

/-- What the alternatives of a group stand for together. -/
def Choices.meanings : Choices → List (List Char)
  | .last p => p.meanings
  | .more p others => p.meanings ++ others.meanings

end

mutual

/-- Every choice of alternatives gives a text. -/
theorem Braced.meanings_ne_nil : ∀ p : Braced, p.meanings ≠ []
  | .empty => List.cons_ne_nil [] []
  | .char c rest => by
      rw [Braced.meanings, Ne, List.map_eq_nil_iff]
      exact rest.meanings_ne_nil
  | .group choices rest => by
      obtain ⟨choice, hchoice⟩ := List.exists_mem_of_ne_nil _ choices.meanings_ne_nil
      obtain ⟨text, htext⟩ := List.exists_mem_of_ne_nil _ rest.meanings_ne_nil
      exact List.ne_nil_of_mem (List.mem_flatMap.mpr ⟨choice, hchoice, List.mem_map_of_mem htext⟩)

theorem Choices.meanings_ne_nil : ∀ choices : Choices, choices.meanings ≠ []
  | .last p => p.meanings_ne_nil
  | .more p _ => List.append_ne_nil_of_left_ne_nil p.meanings_ne_nil _

end

mutual

/-- A meaning has no braces, and no commas when it is one of an alternative. -/
theorem Braced.Written.of_mem_meanings {inside : Bool} {m : List Char} :
    ∀ {p : Braced}, p.Written inside → m ∈ p.meanings → BraceFree m ∧ (inside = true → ',' ∉ m)
  | .empty, _, hm => by
      obtain rfl := List.mem_singleton.mp hm
      exact ⟨braceFree_nil, fun _ => List.not_mem_nil⟩
  | .char c rest, h, hm => by
      obtain ⟨text, htext, rfl⟩ := List.mem_map.mp hm
      obtain ⟨hfree, hcomma⟩ := h.2.2.of_mem_meanings htext
      refine ⟨braceFree_cons.mpr ⟨h.1, hfree⟩, fun hinside => ?_⟩
      rw [List.mem_cons, not_or]
      exact ⟨(h.2.1 hinside).symm, hcomma hinside⟩
  | .group choices rest, h, hm => by
      obtain ⟨choice, hchoice, hm⟩ := List.mem_flatMap.mp hm
      obtain ⟨text, htext, rfl⟩ := List.mem_map.mp hm
      obtain ⟨hfree, hcomma⟩ := h.1.of_mem_meanings hchoice
      obtain ⟨hfree', hcomma'⟩ := h.2.of_mem_meanings htext
      refine ⟨braceFree_append.mpr ⟨hfree, hfree'⟩, fun hinside => ?_⟩
      rw [List.mem_append, not_or]
      exact ⟨hcomma, hcomma' hinside⟩

theorem Choices.Written.of_mem_meanings {m : List Char} :
    ∀ {choices : Choices}, choices.Written → m ∈ choices.meanings → BraceFree m ∧ ',' ∉ m
  | .last _, h, hm =>
      have hmeaning := Braced.Written.of_mem_meanings h hm
      ⟨hmeaning.1, hmeaning.2 rfl⟩
  | .more _ _, h, hm => by
      rcases List.mem_append.mp hm with hm | hm
      · exact ⟨(h.1.of_mem_meanings hm).1, (h.1.of_mem_meanings hm).2 rfl⟩
      · exact h.2.of_mem_meanings hm

end

/-! ## Patterns without nested groups -/

/-- Characters only. -/
def Braced.IsPlain : Braced → Prop
  | .empty => True
  | .char _ rest => rest.IsPlain
  | .group _ _ => False

/-- Alternatives without groups. -/
def Choices.ArePlain : Choices → Prop
  | .last p => p.IsPlain
  | .more p others => p.IsPlain ∧ others.ArePlain

/-- No group of the pattern has another one inside. -/
def Braced.IsFlat : Braced → Prop
  | .empty => True
  | .char _ rest => rest.IsFlat
  | .group choices rest => choices.ArePlain ∧ rest.IsFlat

/-- The texts of the alternatives, in their order. -/
def Choices.texts : Choices → List (List Char)
  | .last p => [p.text]
  | .more p others => p.text :: others.texts

/-- What can be chosen at each place of a pattern, from the left: a character, or an alternative of
a group. -/
def Braced.factors : Braced → List (List (List Char))
  | .empty => []
  | .char c rest => [[c]] :: rest.factors
  | .group choices rest => choices.texts :: rest.factors

/-- All ways to choose a text at each place, where the choice at the leftmost place varies
slowest. -/
def product : List (List (List Char)) → List (List Char)
  | [] => [[]]
  | choices :: rest => choices.flatMap fun choice => (product rest).map (choice ++ ·)

theorem Braced.meanings_of_isPlain : ∀ {p : Braced}, p.IsPlain → p.meanings = [p.text]
  | .empty, _ => rfl
  | .char c rest, h => by rw [meanings, meanings_of_isPlain (p := rest) h, List.map_singleton, text]

theorem Choices.meanings_of_arePlain :
    ∀ {choices : Choices}, choices.ArePlain → choices.meanings = choices.texts
  | .last _, h => Braced.meanings_of_isPlain h
  | .more _ _, h => by
      rw [meanings, Braced.meanings_of_isPlain h.1, meanings_of_arePlain h.2, texts,
        List.singleton_append]

/-- Without nested groups, the meanings are the product of what can be chosen at each place. -/
theorem Braced.meanings_of_isFlat : ∀ {p : Braced}, p.IsFlat → p.meanings = product p.factors
  | .empty, _ => rfl
  | .char c rest, h => by
      rw [meanings, meanings_of_isFlat (p := rest) h, factors, product, List.flatMap_singleton]
      rfl
  | .group choices rest, h => by
      rw [meanings, meanings_of_isFlat h.2, Choices.meanings_of_arePlain h.1, factors, product]

/-- The text of alternatives without groups is taken apart at the commas between them. -/
theorem Choices.alternatives_text : ∀ {choices : Choices}, choices.Written → choices.ArePlain →
    BraceFree choices.text ∧ alternatives choices.text = choices.texts
  | .last p, h, hplain => by
      have hmem : p.text ∈ p.meanings := by simp [Braced.meanings_of_isPlain hplain]
      obtain ⟨hfree, hcomma⟩ := Braced.Written.of_mem_meanings h hmem
      exact ⟨hfree, by rw [text, alternatives_eq_splitOn,
        Text.splitOn_of_not_mem (hcomma rfl), texts]⟩
  | .more p others, h, hplain => by
      have hmem : p.text ∈ p.meanings := by simp [Braced.meanings_of_isPlain hplain.1]
      obtain ⟨hfree, hcomma⟩ := h.1.of_mem_meanings hmem
      obtain ⟨hfree', htexts⟩ := alternatives_text h.2 hplain.2
      refine ⟨braceFree_append.mpr ⟨hfree, braceFree_cons.mpr ⟨by decide, hfree'⟩⟩, ?_⟩
      rw [text, alternatives_eq_splitOn, Text.splitOn_append_cons (hcomma rfl),
        ← alternatives_eq_splitOn, htexts, texts]

/-! ## Balanced texts -/

/-- Whether a text, read when a number of groups is open, closes them and all that it opens
itself. -/
def closes : List Char → Nat → Bool
  | [], depth => depth == 0
  | c :: s, depth =>
    if c = opening then closes s (depth + 1)
    else if c = closing then depth != 0 && closes s (depth - 1)
    else closes s depth

/-- Every brace of the text has its partner. -/
def Balanced (s : List Char) : Prop := closes s 0 = true

instance (s : List Char) : Decidable (Balanced s) := inferInstanceAs (Decidable (_ = true))

theorem closes_opening (s : List Char) (depth : Nat) :
    closes (opening :: s) depth = closes s (depth + 1) := by
  rw [closes, if_pos rfl]

theorem closes_closing (s : List Char) (depth : Nat) :
    closes (closing :: s) depth = (depth != 0 && closes s (depth - 1)) := by
  rw [closes, if_neg (by decide), if_pos rfl]

theorem closes_cons {c : Char} (h : isBrace c = false) (s : List Char) (depth : Nat) :
    closes (c :: s) depth = closes s depth := by
  obtain ⟨hopening, hclosing⟩ := isBrace_eq_false_iff.mp h
  rw [closes, if_neg hopening, if_neg hclosing]

mutual

/-- The text of a pattern closes what it opens. -/
theorem Braced.Written.closes_text {inside : Bool} (s : List Char) :
    ∀ {p : Braced} (depth : Nat), p.Written inside → closes (p.text ++ s) depth = closes s depth
  | .empty, _, _ => rfl
  | .char _ _, depth, h => by
      rw [Braced.text, List.cons_append, closes_cons h.1, h.2.2.closes_text s]
  | .group _ _, depth, h => by
      rw [Braced.text, List.cons_append, List.append_assoc, List.cons_append, closes_opening,
        h.1.closes_text, closes_closing, h.2.closes_text s]
      simp

theorem Choices.Written.closes_text (s : List Char) :
    ∀ {choices : Choices} (depth : Nat), choices.Written →
    closes (choices.text ++ s) depth = closes s depth
  | .last _, depth, h => Braced.Written.closes_text s depth h
  | .more _ _, depth, h => by
      rw [Choices.text, List.append_assoc, h.1.closes_text, List.cons_append,
        closes_cons (by decide), h.2.closes_text s]

end

/-- Puts something in front of the first alternative. -/
def Choices.onFirst (f : Braced → Braced) : Choices → Choices
  | .last p => .last (f p)
  | .more p others => .more (f p) others

theorem Choices.text_onFirst {f : Braced → Braced} {s : List Char}
    (h : ∀ p, (f p).text = s ++ p.text) :
    ∀ choices : Choices, (choices.onFirst f).text = s ++ choices.text
  | .last p => h p
  | .more p others => by rw [onFirst, text, h, text, List.append_assoc]

theorem Choices.Written.onFirst {f : Braced → Braced}
    (h : ∀ p, p.Written true → (f p).Written true) :
    ∀ {choices : Choices}, choices.Written → (choices.onFirst f).Written
  | .last p, hp => h p hp
  | .more p _, hp => ⟨h p hp.1, hp.2⟩

/-- What is left of a pattern while groups are open: the remaining alternatives of the innermost
one, then what is left behind it. -/
def Remainder : Nat → List Char → Prop
  | 0, s => ∃ p : Braced, p.Written false ∧ p.text = s
  | depth + 1, s => ∃ choices : Choices, choices.Written ∧
      ∃ rest, Remainder depth rest ∧ s = choices.text ++ closing :: rest

/-- What can stand in front of every pattern can stand in front of what is left of one. -/
theorem Remainder.front {f : Braced → Braced} {u : List Char}
    (htext : ∀ p, (f p).text = u ++ p.text)
    (hwritten : ∀ inside p, p.Written inside → (f p).Written inside) {depth : Nat} {s : List Char}
    (h : Remainder depth s) : Remainder depth (u ++ s) := by
  cases depth with
  | zero =>
      obtain ⟨p, hp, rfl⟩ := h
      exact ⟨f p, hwritten false p hp, htext p⟩
  | succ depth =>
      obtain ⟨choices, hchoices, rest, hrest, rfl⟩ := h
      refine ⟨choices.onFirst f, hchoices.onFirst (hwritten true), rest, hrest, ?_⟩
      rw [Choices.text_onFirst htext, List.append_assoc]

theorem remainder_of_closes {s : List Char} {depth : Nat} (h : closes s depth = true) :
    Remainder depth s := by
  induction s generalizing depth with
  | nil =>
      obtain rfl : depth = 0 := by simpa [closes] using h
      exact ⟨.empty, trivial, rfl⟩
  | cons c s ih =>
      by_cases hopening : c = opening
      · -- the group that opens here is closed in what is left, and stands in front of the rest
        subst hopening
        rw [closes_opening] at h
        obtain ⟨choices, hchoices, rest, hrest, rfl⟩ := ih h
        have hfront :=
          hrest.front (f := .group choices) (u := opening :: (choices.text ++ [closing]))
          (fun p => by simp [Braced.text]) (fun inside p hp => ⟨hchoices, hp⟩)
        simpa using hfront
      · by_cases hclosing : c = closing
        · subst hclosing
          rw [closes_closing, Bool.and_eq_true, bne_iff_ne] at h
          obtain ⟨depth, rfl⟩ := Nat.exists_eq_succ_of_ne_zero h.1
          exact ⟨.last .empty, trivial, s, ih h.2, rfl⟩
        · have hc : isBrace c = false := isBrace_eq_false_iff.mpr ⟨hopening, hclosing⟩
          rw [closes_cons hc] at h
          by_cases hcomma : c = ','
          · -- a comma begins the next alternative of an open group, and is a character otherwise
            subst hcomma
            cases depth with
            | zero =>
                obtain ⟨p, hp, rfl⟩ := ih h
                exact ⟨.char ',' p, ⟨hc, by simp, hp⟩, rfl⟩
            | succ depth =>
                obtain ⟨choices, hchoices, rest, hrest, rfl⟩ := ih h
                exact ⟨.more .empty choices, ⟨trivial, hchoices⟩, rest, hrest, rfl⟩
          · exact (ih h).front (f := .char c) (u := [c]) (fun p => rfl)
              (fun inside p hp => ⟨hc, fun _ => hcomma, hp⟩)

/-- A text is balanced exactly when it is the text of a pattern. -/
theorem balanced_iff {s : List Char} : Balanced s ↔ ∃ p : Braced, p.Written false ∧ p.text = s := by
  constructor
  · exact remainder_of_closes
  · rintro ⟨p, hp, rfl⟩
    have hcloses := hp.closes_text [] 0
    rwa [List.append_nil] at hcloses

end FrontendAudit.Glob
