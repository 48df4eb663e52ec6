import FrontendAudit.Json.Printer
import FrontendAudit.Json.Reader

/-!
# Reading what was written

A value without floating-point numbers whose objects name each key once (`IsExact`) is read back
from its text, whatever stands behind the text, in every layout that puts nothing but blanks around
the parts of lists and objects (`readValue_print`). A whole text holds nothing but its value
(`parseWith?_print`).
-/

namespace FrontendAudit.Json

/-! ## Texts -/

-- a value is written without halves of surrogate pairs, so it does not matter what stands for them
variable {half : List Char}

theorem hexValue?_hexDigit (n : Nat) : hexValue? (Text.hexDigit n) = some (n % 16) := by
  have h : ∀ d < 16, hexValue? (Text.hexDigit d) = some d := by decide
  have hmod : Text.hexDigit n = Text.hexDigit (n % 16) := by simp [Text.hexDigit]
  rw [hmod, h _ (Nat.mod_lt n (by decide))]

theorem hex4?_hexDigits {n : Nat} (h : n < 65536) (rest : List Char) :
    hex4? (Text.hexDigits 4 n ++ rest) = some (n, rest) := by
  have hdigits :
      Text.hexDigits 4 n = [Text.hexDigit (n / 16 / 16 / 16), Text.hexDigit (n / 16 / 16),
      Text.hexDigit (n / 16), Text.hexDigit n] := rfl
  rw [hdigits]
  simp only [List.cons_append, List.nil_append, hex4?, hexValue?_hexDigit, bind, Option.bind, pure]
  congr 2
  omega

/-- A control character is read back from its numeric escape. -/
theorem unicodeEscape?_control {c : Char} (h : c.toNat < 32) (rest : List Char) :
    unicodeEscape? half (Text.hexDigits 4 c.toNat ++ rest) = some ([c], rest) := by
  have hhigh : isHighHalf c.toNat = false := by simp [isHighHalf]; omega
  have hlow : isLowHalf c.toNat = false := by simp [isLowHalf]; omega
  rw [unicodeEscape?, hex4?_hexDigits (by omega)]
  simp [hhigh, hlow, charsOf, Char.ofNat_toNat]

/-- A character is read back from the way it is written. -/
theorem readText_escaped (fuel : Nat) (read : List Char) (c : Char) (rest : List Char) :
    readText half (fuel + 1) read (escaped c ++ rest) = readText half fuel (c :: read) rest := by
  have hchar : ∀ n, c.toNat = n → c = Char.ofNat n := by
    intro n hn
    rw [← hn, Char.ofNat_toNat]
  unfold escaped
  split
  · next h => subst h; rfl
  split
  · next h => subst h; rfl
  split
  · next h => subst h; rfl
  split
  · next h => subst h; rfl
  split
  · next h => subst h; rfl
  split
  · next h => rw [hchar 8 h]; rfl
  split
  · next h => rw [hchar 12 h]; rfl
  split
  · next h => simp [readText, escape?, unicodeEscape?_control h]
  · next hquote hslash _ _ _ _ _ hcontrol =>
      simp [readText, hquote, hslash, hcontrol]

theorem escaped_ne_nil (c : Char) : escaped c ≠ [] := by
  unfold escaped
  repeat' split
  all_goals exact List.cons_ne_nil _ _

theorem length_le_length_escaped (s : List Char) : s.length ≤ (s.flatMap escaped).length := by
  induction s with
  | nil => exact Nat.zero_le _
  | cons c s ih =>
      have hc := List.length_pos_iff.mpr (escaped_ne_nil c)
      simp only [List.flatMap_cons, List.length_append, List.length_cons]
      omega

theorem readText_flatMap {fuel : Nat} (read s rest : List Char) (h : s.length < fuel) :
    readText half fuel read (s.flatMap escaped ++ '"' :: rest) =
      some (read.reverse ++ s, rest) := by
  induction s generalizing fuel read with
  | nil =>
      obtain ⟨fuel, rfl⟩ := Nat.exists_eq_succ_of_ne_zero (Nat.ne_of_gt h)
      simp [readText]
  | cons c s ih =>
      obtain ⟨fuel, rfl⟩ := Nat.exists_eq_succ_of_ne_zero (Nat.ne_of_gt (Nat.zero_lt_of_lt h))
      rw [List.flatMap_cons, List.append_assoc, readText_escaped,
        ih _ (by simp only [List.length_cons] at h; omega)]
      simp

/-- A text is read back from between its quotes, with as much fuel as there are characters. -/
theorem readText_literal (s rest : List Char) :
    readText half ((s.flatMap escaped ++ '"' :: rest).length + 1) [] (s.flatMap escaped ++
      '"' :: rest) =
      some (s, rest) := by
  have hlength := length_le_length_escaped s
  rw [readText_flatMap [] s rest (by simp only [List.length_append, List.length_cons]; omega)]
  rfl

/-! ## Whole numbers -/

theorem asciiDigit?_of_isDigit {c : Char} (h : c.isDigit = true) :
    Text.asciiDigit? c = some (c.toNat - '0'.toNat) := by
  have hrange : '0' ≤ c ∧ c ≤ '9' := by
    simp only [Char.isDigit, Bool.and_eq_true, decide_eq_true_eq] at h
    exact h
  simp [Text.asciiDigit?, hrange]

/-- The values of digits. -/
def digitValues (ds : List Char) : List Nat := ds.map fun c => c.toNat - '0'.toNat

theorem isDigit_of_mem_natText {n : Nat} {c : Char} (h : c ∈ Number.natText n) :
    c.isDigit = true :=
  Nat.isDigit_of_mem_toDigits (by decide) (by decide) h

/-- What may stand behind a number: nothing that would be read as a part of it. -/
def EndsNumber (rest : List Char) : Prop :=
  ∀ c ∈ rest.head?, Text.asciiDigit? c = none ∧ c ≠ '.' ∧ c ≠ 'e' ∧ c ≠ 'E'

theorem endsNumber_nil : EndsNumber [] := by
  intro c hc
  cases hc

theorem endsNumber_cons {c : Char} {rest : List Char}
    (h : Text.asciiDigit? c = none ∧ c ≠ '.' ∧ c ≠ 'e' ∧ c ≠ 'E') : EndsNumber (c :: rest) := by
  intro c' hc'
  obtain rfl : c = c' := Option.some.inj hc'
  exact h

theorem spanDigits_append {ds rest : List Char} (hds : ∀ c ∈ ds, c.isDigit = true)
    (hrest : EndsNumber rest) :
    spanDigits (ds ++ rest) = (digitValues ds, rest) := by
  induction ds with
  | nil =>
      cases rest with
      | nil => rfl
      | cons c rest =>
          have hc := (hrest c rfl).1
          simp [spanDigits, digitValues, hc]
  | cons d ds ih =>
      have hd := asciiDigit?_of_isDigit (hds d List.mem_cons_self)
      have hrest := ih fun c hc => hds c (List.mem_cons_of_mem d hc)
      simp only [spanDigits, List.cons_append, List.takeWhile_cons, List.dropWhile_cons, hd,
        Option.isSome_some, if_true, List.filterMap_cons, digitValues, List.map_cons] at hrest ⊢
      rw [(Prod.mk.inj hrest).1, (Prod.mk.inj hrest).2]

theorem ofDigits_natText (n : Nat) :
    Text.ofDigits (digitValues (Number.natText n)) = n := by
  rw [Text.ofDigits, digitValues, List.foldl_map, Number.natText, ← Nat.ofDigitChars_eq_foldl]
  exact Nat.ofDigitChars_toDigits (by decide) (by decide)

/-- The number zero has the text of one digit; no other text of a number begins with a zero. -/
theorem natText_head {n : Nat} (h : n ≠ 0) {c : Char} {ds : List Char}
    (htext : Number.natText n = c :: ds) : c ≠ '0' := by
  induction n using Nat.strongRecOn generalizing c ds with
  | ind n ih =>
      by_cases hsmall : n < 10
      · rw [Number.natText, Nat.toDigits_of_lt_base hsmall] at htext
        have hdigits : ∀ d < 10, d ≠ 0 → Nat.digitChar d ≠ '0' := by decide
        rw [← (List.cons.inj htext).1]
        exact hdigits n hsmall h
      · rw [Number.natText, Nat.toDigits_of_base_le (by decide) (by omega)] at htext
        obtain ⟨d, more, hfront⟩ := List.exists_cons_of_ne_nil
          (Nat.toDigits_ne_nil (n := n / 10) (b := 10))
        rw [hfront] at htext
        rw [← (List.cons.inj htext).1]
        exact ih (n / 10) (by omega) (by omega) hfront

theorem wholePart?_natText (n : Nat) {rest : List Char} (hrest : EndsNumber rest) :
    wholePart? (Number.natText n ++ rest) =
      some (digitValues (Number.natText n), rest) := by
  by_cases hzero : n = 0
  · subst hzero
    rfl
  · obtain ⟨d, ds, htext⟩ := List.exists_cons_of_ne_nil
      (show Number.natText n ≠ [] from Nat.toDigits_ne_nil)
    have hd := natText_head hzero htext
    have hspan : spanDigits (Number.natText n ++ rest) = (digitValues (Number.natText n), rest) :=
      spanDigits_append (fun c hc => isDigit_of_mem_natText hc) hrest
    rw [htext] at hspan ⊢
    rw [wholePart?.eq_def]
    split
    · next h => exact absurd (List.cons.inj h).1 hd
    · rw [hspan]
      rfl

theorem readNumber_natText (negative : Bool) (n : Nat) {rest : List Char}
    (hrest : EndsNumber rest) :
    readNumber negative (Number.natText n ++ rest) =
      some (.int (if negative then -(n : Int) else n), rest) := by
  have hfraction : fraction? rest = none := by
    cases rest with
    | nil => rfl
    | cons c rest =>
        have := (hrest c rfl).2.1
        rw [fraction?.eq_def]
        split
        · next h => exact absurd (List.cons.inj h).1 this
        · rfl
  have hexponent : exponent? rest = none := by
    cases rest with
    | nil => rfl
    | cons c rest =>
        obtain ⟨-, -, he, hE⟩ := hrest c rfl
        simp [exponent?, he, hE]
  rw [readNumber, wholePart?_natText n hrest]
  simp [hfraction, hexponent, ofDigits_natText]

theorem natText_eq_cons (n : Nat) :
    ∃ d ds, Number.natText n = d :: ds ∧ d.isDigit = true := by
  obtain ⟨d, ds, htext⟩ := List.exists_cons_of_ne_nil
    (show Number.natText n ≠ [] from Nat.toDigits_ne_nil)
  exact ⟨d, ds, htext, isDigit_of_mem_natText (htext ▸ List.mem_cons_self)⟩

/-- What begins with a digit is none of the values that are written as a word. -/
theorem readWord_digit {d : Char} (h : d.isDigit = true) (s : List Char) :
    readWord (d :: s) = none ∧ readWord ('-' :: d :: s) = none := by
  have hne : ∀ c : Char, c.isDigit = false → c ≠ d := by
    rintro c hc rfl
    rw [h] at hc
    cases hc
  have hletters := And.intro (hne 'n' rfl) (And.intro (hne 't' rfl) (And.intro (hne 'f' rfl)
    (And.intro (hne 'N' rfl) (And.intro (hne 'I' rfl) (hne '-' rfl)))))
  constructor <;> simp [readWord, words, after?, hletters]

theorem readValue_int (fuel : Nat) (n : Int) {rest : List Char} (hrest : EndsNumber rest) :
    readValue half (fuel + 1) (Number.intText n ++ rest) = some (.int n, rest) := by
  cases n with
  | ofNat n =>
      obtain ⟨d, ds, htext, hd⟩ := natText_eq_cons n
      have hread := readNumber_natText false n hrest
      have hword := (readWord_digit hd (ds ++ rest)).1
      rw [Number.intText]
      rw [htext] at hread ⊢
      rw [List.cons_append] at hread ⊢
      rw [readValue]
      · rw [hword]
        exact hread
      all_goals
        intro _ h
        rw [(List.cons.inj h).1] at hd
        cases hd
  | negSucc n =>
      obtain ⟨d, ds, htext, hd⟩ := natText_eq_cons (n + 1)
      have hread := readNumber_natText true (n + 1) hrest
      have hword := (readWord_digit hd (ds ++ rest)).2
      rw [Number.intText]
      rw [htext] at hread ⊢
      simp only [List.cons_append] at hread ⊢
      rw [readValue]
      rw [hword]
      exact hread

/-! ## Values -/

mutual

/-- A value without floating-point numbers, whose objects name each key once. -/
def IsExact : Json → Prop
  | .float _ => False
  | .arr items => ItemsExact items
  | .obj members => (members.map (·.1)).Nodup ∧ MembersExact members
  | _ => True

def ItemsExact : List Json → Prop
  | [] => True
  | v :: vs => IsExact v ∧ ItemsExact vs

def MembersExact : List (String × Json) → Prop
  | [] => True
  | (_, v) :: ms => IsExact v ∧ MembersExact ms

end

/-- A layout that puts nothing but blanks around the parts of a list or object. -/
structure Layout.IsBlank (l : Layout) : Prop where
  opening : ∀ depth, ∀ c ∈ l.opening depth, isSpace c = true
  between : ∀ depth, ∃ blanks, l.between depth = ',' :: blanks ∧ ∀ c ∈ blanks, isSpace c = true
  closing : ∀ depth, ∀ c ∈ l.closing depth, isSpace c = true

theorem skipSpace_append {blanks s : List Char} (h : ∀ c ∈ blanks, isSpace c = true) :
    skipSpace (blanks ++ s) = skipSpace s := by
  induction blanks with
  | nil => rfl
  | cons c blanks ih =>
      rw [List.cons_append, skipSpace, List.dropWhile_cons, if_pos (h c List.mem_cons_self)]
      exact ih fun c hc => h c (List.mem_cons_of_mem _ hc)

theorem skipSpace_cons {c : Char} (s : List Char) (h : isSpace c = false) :
    skipSpace (c :: s) = c :: s := by
  rw [skipSpace, List.dropWhile_cons, if_neg (by rw [h]; exact Bool.false_ne_true)]

/-- Inserting a key that is not there adds it at the end. -/
theorem insertMember_of_not_mem {key : String} (value : Json) {ms : List (String × Json)}
    (h : key ∉ ms.map (·.1)) : insertMember key value ms = ms ++ [(key, value)] := by
  induction ms with
  | nil => rfl
  | cons m ms ih =>
      rw [List.map_cons, List.mem_cons, not_or] at h
      rw [insertMember, if_neg (Ne.symm h.1), ih h.2]
      rfl

/-- Members with different keys are kept as they are. -/
theorem collect_of_nodup {ms : List (String × Json)} (h : (ms.map (·.1)).Nodup) :
    collect ms = ms := by
  have hgeneral : ∀ front : List (String × Json), ((front ++ ms).map (·.1)).Nodup →
      ms.foldl (fun ms m => insertMember m.1 m.2 ms) front = front ++ ms := by
    clear h
    induction ms with
    | nil => intro front _; simp
    | cons m ms ih =>
        intro front hnodup
        have hm : m.1 ∉ front.map (·.1) := by
          rw [List.map_append, List.nodup_append] at hnodup
          intro hmem
          exact hnodup.2.2 m.1 hmem m.1 List.mem_cons_self rfl
        rw [List.foldl_cons, insertMember_of_not_mem _ hm, ih]
        · simp
        · simpa using hnodup
  exact hgeneral [] h

section

variable {l : Layout}

/-- The text of a value begins with neither a blank nor a closing bracket. -/
theorem print_eq_cons (l : Layout) (depth : Nat) {v : Json} (h : IsExact v) :
    ∃ c s, print l depth v = c :: s ∧ isSpace c = false ∧ c ≠ ']' := by
  cases v with
  | null => exact ⟨_, _, rfl, by decide, by decide⟩
  | bool b => cases b <;> exact ⟨_, _, rfl, by decide, by decide⟩
  | int n =>
      cases n with
      | ofNat n =>
          obtain ⟨d, ds, htext, hd⟩ := natText_eq_cons n
          refine ⟨d, ds, htext, ?_, ?_⟩
          · cases hspace : isSpace d with
            | false => rfl
            | true =>
                have : d = ' ' ∨ d = '\t' ∨ d = '\n' ∨ d = '\r' := by
                  simpa [isSpace, or_assoc] using hspace
                rcases this with rfl | rfl | rfl | rfl <;> cases hd
          · rintro rfl
            cases hd
      | negSucc n => exact ⟨_, _, rfl, by decide, by decide⟩
  | float x => exact h.elim
  | str s => exact ⟨_, _, rfl, by decide, by decide⟩
  | arr items => cases items <;> exact ⟨_, _, rfl, by decide, by decide⟩
  | obj members => cases members <;> exact ⟨_, _, rfl, by decide, by decide⟩

theorem skipSpace_print (depth : Nat) {v : Json} (h : IsExact v) (rest : List Char) :
    skipSpace (print l depth v ++ rest) = print l depth v ++ rest := by
  obtain ⟨c, s, htext, hspace, -⟩ := print_eq_cons l depth h
  rw [htext]
  exact skipSpace_cons _ hspace

theorem endsNumber_of_space {c : Char} (h : isSpace c = true) (rest : List Char) :
    EndsNumber (c :: rest) := by
  have hcases : c = ' ' ∨ c = '\t' ∨ c = '\n' ∨ c = '\r' := by simpa [isSpace, or_assoc] using h
  refine endsNumber_cons ?_
  rcases hcases with rfl | rfl | rfl | rfl <;> decide

/-- What stands behind a part of a list or object ends a number. -/
theorem endsNumber_closing (hl : l.IsBlank) (depth : Nat) {c : Char} (rest : List Char)
    (hc : Text.asciiDigit? c = none ∧ c ≠ '.' ∧ c ≠ 'e' ∧ c ≠ 'E') :
    EndsNumber (l.closing depth ++ c :: rest) := by
  have hblank := hl.closing depth
  cases hclosing : l.closing depth with
  | nil => exact endsNumber_cons hc
  | cons b blanks =>
      rw [hclosing] at hblank
      exact endsNumber_of_space (hblank b List.mem_cons_self) _

theorem endsNumber_between (hl : l.IsBlank) (depth : Nat) (rest : List Char) :
    EndsNumber (l.between depth ++ rest) := by
  obtain ⟨blanks, hbetween, -⟩ := hl.between depth
  rw [hbetween]
  exact endsNumber_cons (by decide)

/-- The items of a list as they stand behind its opening bracket. -/
def itemsText (l : Layout) (depth : Nat) : List Json → List Char
  | [] => []
  | v :: vs => print l (depth + 1) v ++ printItems l depth vs

/-- The members of an object as they stand behind its opening brace. -/
def membersText (l : Layout) (depth : Nat) : List (String × Json) → List Char
  | [] => []
  | m :: ms => printMember l depth m ++ printMembers l depth ms

theorem skipSpace_itemsText (depth : Nat) {v : Json} {vs : List Json} (h : IsExact v)
    (rest : List Char) :
    skipSpace (itemsText l depth (v :: vs) ++ rest) = itemsText l depth (v :: vs) ++ rest := by
  rw [itemsText, List.append_assoc]
  exact skipSpace_print (depth + 1) h _

theorem skipSpace_membersText (depth : Nat) (m : String × Json) (ms : List (String × Json))
    (rest : List Char) :
    skipSpace (membersText l depth (m :: ms) ++ rest) = membersText l depth (m :: ms) ++ rest := by
  rw [membersText, printMember, textLiteral]
  exact skipSpace_cons _ rfl

theorem length_print_pos (l : Layout) (depth : Nat) {v : Json} (h : IsExact v) :
    0 < (print l depth v).length := by
  obtain ⟨c, s, htext, -, -⟩ := print_eq_cons l depth h
  rw [htext]
  exact Nat.succ_pos _

/-- A member is read once its value is. -/
theorem readMembers_printMember {fuel depth : Nat} {key : String} {v : Json} {rest : List Char}
    (h : IsExact v) (hv : readValue half fuel (print l (depth + 1) v ++ rest) = some (v, rest))
    (read : List (String × Json)) :
    readMembers half (fuel + 1) read (printMember l depth (key, v) ++ rest) =
      match skipSpace rest with
      | ',' :: rest => readMembers half fuel ((key, v) :: read) (skipSpace rest)
      | '}' :: rest => some (((key, v) :: read).reverse, rest)
      | _ => none := by
  have hskip : skipSpace (' ' :: (print l (depth + 1) v ++ rest)) = print l (depth + 1) v ++ rest :=
    skipSpace_print (depth + 1) h rest
  simp only [printMember, textLiteral, List.cons_append, List.append_assoc, List.nil_append]
  rw [readMembers, readText_literal]
  simp only [bind, Option.bind, skipSpace_cons _ (show isSpace ':' = false from rfl), hskip, hv,
    String.ofList_toList]
  rfl

mutual

/-- A value is read back from its text, whatever stands behind the text. -/
theorem readValue_print (hl : l.IsBlank) : ∀ v : Json, IsExact v →
    ∀ (fuel depth : Nat) (rest : List Char), (print l depth v).length ≤ fuel + 1 →
      EndsNumber rest → readValue half (fuel + 1) (print l depth v ++ rest) = some (v, rest)
  | .null, _, _, _, _, _, _ => rfl
  | .bool true, _, _, _, _, _, _ => rfl
  | .bool false, _, _, _, _, _, _ => rfl
  | .int n, _, fuel, _, _, _, hrest => by
      rw [print]
      exact readValue_int fuel n hrest
  | .float _, h, _, _, _, _, _ => h.elim
  | .str s, _, _, _, rest, _, _ => by
      simp only [print, textLiteral, List.cons_append, List.append_assoc, List.nil_append]
      rw [readValue, readText_literal]
      simp
  | .arr [], _, _, _, _, _, _ => rfl
  | .arr (v :: vs), h, fuel, depth, rest, hfuel, _ => by
      have hitems := readItems_print hl (v :: vs) h (List.cons_ne_nil _ _) fuel depth [] rest (by
        simp only [print, itemsText, List.length_cons, List.length_append, List.length_nil]
          at hfuel ⊢
        omega)
      -- behind the opening bracket stands an item, so that the list is not taken for an empty one
      obtain ⟨c, s, htext, -, hc⟩ := print_eq_cons l (depth + 1) h.1
      have hskip : skipSpace (itemsText l depth (v :: vs) ++ (l.closing depth ++ ']' :: rest)) =
          itemsText l depth (v :: vs) ++ (l.closing depth ++ ']' :: rest) :=
        skipSpace_itemsText depth h.1 _
      simp only [print, itemsText, htext, List.cons_append, List.append_assoc, List.nil_append]
        at hitems hskip ⊢
      rw [readValue, skipSpace_append (hl.opening depth), hskip]
      split
      · next heq => exact absurd (List.cons.inj heq).1 hc
      · rw [hitems]
        rfl
  | .obj [], _, _, _, _, _, _ => rfl
  | .obj ((key, v) :: ms), h, fuel, depth, rest, hfuel, _ => by
      have hmembers :=
        readMembers_print hl ((key, v) :: ms) h.2 (List.cons_ne_nil _ _) fuel depth [] rest
        (by
          simp only [print, membersText, List.length_cons, List.length_append, List.length_nil]
            at hfuel ⊢
          omega)
      have hskip := skipSpace_membersText (l := l) depth (key, v) ms
        (l.closing depth ++ '}' :: rest)
      simp only [print, membersText, printMember, textLiteral, List.cons_append,
        List.append_assoc, List.nil_append] at hmembers hskip ⊢
      rw [readValue, skipSpace_append (hl.opening depth), hskip]
      split
      · next heq => cases (List.cons.inj heq).1
      · rw [hmembers]
        simp [collect_of_nodup h.1]

theorem readItems_print (hl : l.IsBlank) : ∀ vs : List Json, ItemsExact vs → vs ≠ [] →
    ∀ (fuel depth : Nat) (read : List Json) (rest : List Char),
      (itemsText l depth vs ++ l.closing depth).length < fuel →
      readItems half fuel read (itemsText l depth vs ++ l.closing depth ++ ']' :: rest) =
        some (read.reverse ++ vs, rest)
  | [], _, hne, _, _, _, _, _ => absurd rfl hne
  | v :: vs, h, _, fuel, depth, read, rest, hfuel => by
      have hpos := length_print_pos l (depth + 1) h.1
      simp only [itemsText, List.length_append] at hfuel
      obtain ⟨fuel, rfl⟩ : ∃ k, fuel = k + 2 := ⟨fuel - 2, by omega⟩
      cases vs with
      | nil =>
          have hv := readValue_print hl v h.1 fuel (depth + 1) (l.closing depth ++ ']' :: rest)
            (by omega) (endsNumber_closing hl depth rest (by decide))
          simp only [itemsText, printItems, List.append_assoc, List.append_nil]
          rw [readItems, hv]
          simp [skipSpace_append (hl.closing depth),
            skipSpace_cons rest (show isSpace ']' = false from rfl)]
      | cons w ws =>
          -- the separator begins with the comma at which the reader goes on
          obtain ⟨blanks, hbetween, hblanks⟩ := hl.between depth
          have hv := readValue_print hl v h.1 fuel (depth + 1)
            (l.between depth ++ (itemsText l depth (w :: ws) ++ (l.closing depth ++ ']' :: rest)))
            (by omega) (endsNumber_between hl depth _)
          have hws := readItems_print hl (w :: ws) h.2 (List.cons_ne_nil _ _) (fuel + 1) depth
            (v :: read) rest (by
              simp only [itemsText, printItems, hbetween, List.length_append, List.length_cons]
                at hfuel ⊢
              omega)
          have htext : itemsText l depth (v :: w :: ws) ++ l.closing depth ++ ']' :: rest =
              print l (depth + 1) v ++ (l.between depth ++
                (itemsText l depth (w :: ws) ++ (l.closing depth ++ ']' :: rest))) := by
            simp [itemsText, printItems]
          rw [htext, readItems, hv, hbetween]
          simp only [List.cons_append, bind, Option.bind,
            skipSpace_cons _ (show isSpace ',' = false from rfl), skipSpace_append hblanks,
            skipSpace_itemsText depth h.2.1]
          rw [← List.append_assoc, hws]
          simp

theorem readMembers_print (hl : l.IsBlank) : ∀ ms : List (String × Json), MembersExact ms →
    ms ≠ [] → ∀ (fuel depth : Nat) (read : List (String × Json)) (rest : List Char),
      (membersText l depth ms ++ l.closing depth).length < fuel →
      readMembers half fuel read (membersText l depth ms ++ l.closing depth ++ '}' :: rest) =
        some (read.reverse ++ ms, rest)
  | [], _, hne, _, _, _, _, _ => absurd rfl hne
  | (key, v) :: ms, h, _, fuel, depth, read, rest, hfuel => by
      have hpos := length_print_pos l (depth + 1) h.1
      simp only [membersText, printMember, textLiteral, List.length_append, List.length_cons]
        at hfuel
      obtain ⟨fuel, rfl⟩ : ∃ k, fuel = k + 2 := ⟨fuel - 2, by omega⟩
      cases ms with
      | nil =>
          have hv := readValue_print hl v h.1 fuel (depth + 1) (l.closing depth ++ '}' :: rest)
            (by omega) (endsNumber_closing hl depth rest (by decide))
          simp only [membersText, printMembers, List.append_assoc, List.append_nil]
          rw [readMembers_printMember h.1 hv]
          simp [skipSpace_append (hl.closing depth),
            skipSpace_cons rest (show isSpace '}' = false from rfl)]
      | cons m ms =>
          obtain ⟨blanks, hbetween, hblanks⟩ := hl.between depth
          have hv := readValue_print hl v h.1 fuel (depth + 1)
            (l.between depth ++ (membersText l depth (m :: ms) ++ (l.closing depth ++ '}' :: rest)))
            (by omega) (endsNumber_between hl depth _)
          have hms := readMembers_print hl (m :: ms) h.2 (List.cons_ne_nil _ _) (fuel + 1) depth
            ((key, v) :: read) rest (by
              simp only [membersText, printMembers, hbetween, List.length_append, List.length_cons]
                at hfuel ⊢
              omega)
          have htext : membersText l depth ((key, v) :: m :: ms) ++ l.closing depth ++ '}' :: rest =
              printMember l depth (key, v) ++ (l.between depth ++
                (membersText l depth (m :: ms) ++ (l.closing depth ++ '}' :: rest))) := by
            simp [membersText, printMembers]
          rw [htext, readMembers_printMember h.1 hv, hbetween]
          simp only [List.cons_append, skipSpace_cons _ (show isSpace ',' = false from rfl),
            skipSpace_append hblanks, skipSpace_membersText depth m ms]
          rw [← List.append_assoc, hms]
          simp

end

/-- A whole text holds the value that was written, with blanks behind it. -/
theorem parseWith?_print (hl : l.IsBlank) {v : Json} (h : IsExact v) (depth : Nat)
    {blanks : List Char} (hblanks : ∀ c ∈ blanks, isSpace c = true) :
    parseWith? half (print l depth v ++ blanks) = some v := by
  have hends : EndsNumber blanks := by
    cases blanks with
    | nil => exact endsNumber_nil
    | cons c blanks => exact endsNumber_of_space (hblanks c List.mem_cons_self) blanks
  have hrest : skipSpace blanks = [] := by
    rw [← List.append_nil blanks, skipSpace_append hblanks]
    rfl
  rw [parseWith?, skipSpace_print depth h,
    readValue_print hl v h _ depth blanks (by rw [List.length_append]; omega) hends]
  simp [hrest]

end

theorem Layout.inline_isBlank : Layout.inline.IsBlank where
  opening _ _ hc := by cases hc
  between _ := ⟨[' '], rfl, by simp [isSpace]⟩
  closing _ _ hc := by cases hc

theorem parseWith?_compact {v : Json} (h : IsExact v) :
    parseWith? half v.compact.toList = some v := by
  have hread : parseWith? half (print .inline 0 v ++ []) = some v :=
    parseWith?_print Layout.inline_isBlank h 0 (by simp)
  simpa [compact] using hread

/-- A value is read back from its text on one line. -/
theorem parse?_compact {v : Json} (h : IsExact v) : parse? v.compact.toList = some v :=
  parseWith?_compact h

theorem isSpace_of_mem_newLine {depth : Nat} {c : Char} (h : c ∈ newLine depth) :
    isSpace c = true := by
  rcases List.mem_cons.mp h with rfl | h
  · rfl
  · rw [List.eq_of_mem_replicate h]
    rfl

theorem Layout.indented_isBlank : Layout.indented.IsBlank where
  opening _ _ hc := isSpace_of_mem_newLine hc
  between depth := ⟨newLine (depth + 1), rfl, fun _ hc => isSpace_of_mem_newLine hc⟩
  closing _ _ hc := isSpace_of_mem_newLine hc

/-- A value is read back from its text on indented lines. -/
theorem parse?_pretty {v : Json} (h : IsExact v) : parse? v.pretty.toList = some v := by
  rw [pretty, String.toList_ofList]
  exact parseWith?_print Layout.indented_isBlank h 0 (by simp [isSpace])

/-! ## Values that are put together -/

theorem itemsExact_iff {vs : List Json} : ItemsExact vs ↔ ∀ v ∈ vs, IsExact v := by
  induction vs with
  | nil => simp [ItemsExact]
  | cons v vs ih => simp [ItemsExact, ih]

theorem membersExact_iff {ms : List (String × Json)} :
    MembersExact ms ↔ ∀ m ∈ ms, IsExact m.2 := by
  induction ms with
  | nil => simp [MembersExact]
  | cons m ms ih =>
      obtain ⟨key, v⟩ := m
      simp [MembersExact, ih]

theorem isExact_arr {α : Type} {f : α → Json} {as : List α} (h : ∀ a ∈ as, (f a).IsExact) :
    (arr (as.map f)).IsExact := by
  refine itemsExact_iff.mpr fun v hv => ?_
  obtain ⟨a, ha, rfl⟩ := List.mem_map.mp hv
  exact h a ha

theorem isExact_obj {α : Type} {f : α → Json} {as : List (String × α)}
    (hkeys : (as.map (·.1)).Nodup) (h : ∀ a ∈ as, (f a.2).IsExact) :
    (obj (as.map fun a => (a.1, f a.2))).IsExact := by
  refine ⟨?_, membersExact_iff.mpr fun m hm => ?_⟩
  · rw [List.map_map]
    exact hkeys
  · obtain ⟨a, ha, rfl⟩ := List.mem_map.mp hm
    exact h a ha

theorem isExact_ofOption {α : Type} {f : α → Json} {value : Option α}
    (h : ∀ a ∈ value, (f a).IsExact) :
    (ofOption f value).IsExact := by
  cases value with
  | none => trivial
  | some a => exact h a rfl

end FrontendAudit.Json
