import FrontendAudit.Proofs.Rule.Accessibility.Attributes

/-!
# Alternative texts

The alternative text of a tag begins behind an `alt` and an equals sign, in quotes and perhaps in a
brace. It goes up to the same quote, wherever that stands on the line (`altTextAt_eq_some_iff`). So
an attribute gives the text it holds if each quote that opens a text in it stands in it once more
(`Attribute.Closed`).
-/

namespace FrontendAudit.Accessibility

open Pattern

variable {before : Option Char} {s t u v after : List Char} {q : Char}
  {groups : List (Nat × List Char)}

/-! ## The text that is read at a place -/

/-- What stands before an alternative text. -/
def altOpening : Pattern :=
  seqs [.boundary, word "alt", blanks, word "=", blanks, optional (seqs [word "\x7b", blanks])]

/-- A text between two quotes that are the same. -/
def quotedText : Pattern := seqs [.group 1 (among "\"'`"), .group 2 (few inLine), .again 1]

theorem ends_altValue (c : Cursor) :
    ends altValue c = (ends altOpening c).flatMap (ends quotedText) :=
  ends_seqs_append [.boundary, word "alt", blanks, word "=", blanks,
    optional (seqs [word "\x7b", blanks])]
    [.group 1 (among "\"'`"), .group 2 (few inLine), .again 1] c

/-- The characters between which an alternative text stands. -/
def IsQuote (c : Char) : Prop := c ∈ "\"'`".toList

instance (c : Char) : Decidable (IsQuote c) := inferInstanceAs (Decidable (_ ∈ _))

/-- The text opens an alternative text. -/
def OpensText (t : List Char) : Prop :=
  ∃ gap gap' brace, t = "alt".toList ++ (gap ++ '=' :: (gap' ++ brace)) ∧
    (∀ c ∈ gap, Text.isBlank c = true) ∧ (∀ c ∈ gap', Text.isBlank c = true) ∧
    (brace = [] ∨ ∃ gap'', brace = '{' :: gap'' ∧ ∀ c ∈ gap'', Text.isBlank c = true)

theorem covers_optional_iff {p : Pattern} :
    Covers (optional p) before t after ↔ Covers p before t after ∨ t = [] := Iff.rfl

theorem covers_altOpening_iff :
    Covers altOpening before t after ↔ before.any Text.isWord = false ∧ OpensText t := by
  simp only [altOpening, covers_seqs_cons, covers_seqs_nil, covers_word_iff, covers_blanks_iff,
    covers_optional_iff, Covers]
  constructor
  · rintro ⟨_, _, rfl, ⟨rfl, hboundary⟩, _, _, rfl, rfl, gap, _, rfl, hgap, _, _, rfl, rfl, gap',
      _, rfl, hgap', brace, _, rfl, hbrace, rfl⟩
    refine ⟨(isBoundary_word (by decide)).mp hboundary, gap, gap', brace, by simp, hgap, hgap', ?_⟩
    rcases hbrace with ⟨_, _, rfl, rfl, gap'', _, rfl, hgap'', rfl⟩ | rfl
    · exact .inr ⟨gap'', by simp, hgap''⟩
    · exact .inl rfl
  · rintro ⟨hbefore, gap, gap', brace, rfl, hgap, hgap', hbrace⟩
    refine ⟨[], _, rfl, ⟨rfl, (isBoundary_word (by decide)).mpr hbefore⟩, _, _, rfl, rfl, gap,
      _, rfl, hgap, ['='], _, rfl, rfl, gap', _, rfl, hgap', brace, [], by simp, ?_, rfl⟩
    rcases hbrace with rfl | ⟨gap'', rfl, hgap''⟩
    · exact .inr rfl
    · exact .inl ⟨['{'], gap'', rfl, rfl, gap'', [], by simp, hgap'', rfl⟩

/-- A quote or a closing brace is neither blank nor one of the other characters that open a text. -/
theorem not_opens {c : Char} (hc : IsQuote c ∨ c = '}') :
    Text.isBlank c = false ∧ c ∉ "alt=\x7b".toList := by
  have hcases : (c = '"' ∨ c = '\'' ∨ c = '\x60') ∨ c = '}' := 
    hc.imp_left fun h => by simpa [IsQuote] using h
  rcases hcases with (rfl | rfl | rfl) | rfl <;> decide

/-- In what opens a text there are no quotes and no closing brace. -/
theorem OpensText.not_mem {c : Char} (ht : OpensText t) (hc : IsQuote c ∨ c = '}') : c ∉ t := by
  obtain ⟨gap, gap', brace, rfl, hgap, hgap', hbrace⟩ := ht
  obtain ⟨hblank, hother⟩ := not_opens hc
  have hnot : ∀ blanks : List Char, (∀ c ∈ blanks, Text.isBlank c = true) → c ∉ blanks :=
    fun blanks hall hmem => absurd (hall c hmem) (by simp [hblank])
  have hbrace' : c ∉ brace := by
    rcases hbrace with rfl | ⟨gap'', rfl, hgap''⟩
    · exact List.not_mem_nil
    · exact List.not_mem_cons_of_ne_of_not_mem (fun h => hother (by simp [h])) (hnot gap'' hgap'')
  simp only [List.mem_append, List.mem_cons, not_or]
  exact ⟨fun h => hother (List.mem_append_left _ h), hnot gap hgap, fun h => hother (by simp [h]),
    hnot gap' hgap', hbrace'⟩

/-- What the end of the pattern makes of a place: the text between it and the place where the text
began. -/
def closedAt (start c : Cursor) : Option (List Char) :=
  (ends (.again 1) (c.remember 2 start)).head?.map fun c => (c.group? 2).getD []

/-- It closes at the quote with which it was opened. -/
theorem closedAt_eq (start before : Option Char) (w s : List Char) (q : Char)
    (groups : List (Nat × List Char)) :
    closedAt ⟨start, w ++ s, (1, [q]) :: groups⟩ ⟨before, s, (1, [q]) :: groups⟩ =
      if s.head? = some q then some w else none := by
  rw [closedAt, Cursor.remember, upTo_append]
  cases s with
  | nil => simp [ends, Cursor.group?]
  | cons a s =>
      by_cases h : a = q
      · simp [ends, Cursor.group?, Cursor.advance, h]
      · simp [ends, Cursor.group?, h, Ne.symm h]

/-- The text goes up to the first place of the quote, on the same line. -/
def ReadsTo (q : Char) (s text : List Char) : Prop :=
  ∃ rest, s = text ++ q :: rest ∧ q ∉ text ∧ '\n' ∉ text

theorem not_readsTo_nil : ¬ReadsTo q [] v := by
  rintro ⟨rest, heq, -⟩
  simp at heq

theorem readsTo_cons_self_iff : ReadsTo q (q :: s) v ↔ v = [] := by
  constructor
  · rintro ⟨rest, heq, hq, -⟩
    exact (append_cons_inj (s := []) List.not_mem_nil hq heq).1.symm
  · rintro rfl
    exact ⟨s, rfl, List.not_mem_nil, List.not_mem_nil⟩

theorem readsTo_cons_iff {a : Char} (ha : a ≠ q) :
    ReadsTo q (a :: s) v ↔ a ≠ '\n' ∧ ∃ v', v = a :: v' ∧ ReadsTo q s v' := by
  constructor
  · rintro ⟨rest, heq, hq, hline⟩
    cases v with
    | nil => exact absurd (List.cons.inj heq).1 ha
    | cons b v =>
        obtain ⟨rfl, rfl⟩ := List.cons.inj heq
        exact ⟨(List.ne_of_not_mem_cons hline).symm, v, rfl, rest, rfl,
          List.not_mem_of_not_mem_cons hq, List.not_mem_of_not_mem_cons hline⟩
  · rintro ⟨hline, v', rfl, rest, rfl, hq, hline'⟩
    exact ⟨rest, rfl, List.not_mem_cons_of_ne_of_not_mem ha.symm hq,
      List.not_mem_cons_of_ne_of_not_mem hline.symm hline'⟩

theorem ReadsTo.unique {w : List Char} (hv : ReadsTo q s v) (hw : ReadsTo q s w) : v = w := by
  obtain ⟨rest, rfl, hq, -⟩ := hv
  obtain ⟨rest', heq, hq', -⟩ := hw
  exact (append_cons_inj hq hq' heq).1

/-- What stands behind the quote does not matter. -/
theorem readsTo_append_iff (hmem : q ∈ s) : ReadsTo q (s ++ t) v ↔ ReadsTo q s v := by
  constructor
  · rintro ⟨rest, heq, hq, hline⟩
    obtain ⟨text, after, rfl, hfirst⟩ := List.eq_append_cons_of_mem hmem
    rw [List.append_assoc] at heq
    obtain ⟨rfl, -⟩ := append_cons_inj hfirst hq heq
    exact ⟨after, rfl, hq, hline⟩
  · rintro ⟨rest, rfl, hq, hline⟩
    exact ⟨rest ++ t, by simp, hq, hline⟩

/-- The shortest text that is closed is the one that is read. -/
theorem findSome?_closedAt (start before : Option Char) (w s : List Char) (q : Char)
    (groups : List (Nat × List Char)) :
    (ends (few inLine) ⟨before, s, (1, [q]) :: groups⟩).findSome?
        (closedAt ⟨start, w ++ s, (1, [q]) :: groups⟩) = some v ↔
      ∃ text, v = w ++ text ∧ ReadsTo q s text := by
  induction s generalizing before w with
  | nil =>
      have hopen := closedAt_eq start before w [] q groups
      rw [List.head?_nil, if_neg (Option.some_ne_none q).symm, List.append_nil] at hopen
      simp [few, ends, starEnds, hopen, not_readsTo_nil]
  | cons a s ih =>
      rw [inLine, except, ends_few_chars_cons, List.findSome?_cons, closedAt_eq]
      by_cases hq : a = q
      · subst hq
        simp [readsTo_cons_self_iff, eq_comm]
      · have hhead : (a :: s).head? ≠ some q := by simpa using hq
        have hsplit : w ++ a :: s = (w ++ [a]) ++ s := by simp
        have hlater : (∃ text, v = w ++ text ∧ ReadsTo q (a :: s) text) ↔
            a ≠ '\n' ∧ ∃ text, v = w ++ [a] ++ text ∧ ReadsTo q s text := by
          simp only [readsTo_cons_iff hq, List.append_assoc, List.singleton_append]
          constructor
          · rintro ⟨_, hv, ha, text, rfl, h⟩
            exact ⟨ha, text, hv, h⟩
          · rintro ⟨ha, text, hv, h⟩
            exact ⟨_, hv, ha, text, rfl, h⟩
        rw [if_neg hhead, hlater, ← ih (some a) (w ++ [a]), ← hsplit]
        have hline : (⟨true, "\n".toList.map .one⟩ : CharSet).has a = true ↔ a ≠ '\n' :=
          has_except_map_one.trans (by simp)
        by_cases ha : a = '\n'
        · rw [if_neg (by rw [hline]; exact not_not.mpr ha)]
          simp [ha]
        · rw [if_pos (hline.mpr ha)]
          simp [ha, inLine, except]

/-- The quote that opens a text is remembered. -/
theorem ends_openQuote (before : Option Char) (q : Char) (rest : List Char)
    (groups : List (Nat × List Char)) :
    ends (.group 1 (among "\"'`")) ⟨before, q :: rest, groups⟩ =
      if IsQuote q then [⟨some q, rest, (1, [q]) :: groups⟩] else [] := by
  have hquote : (⟨false, "\"'`".toList.map .one⟩ : CharSet).has q = true ↔ IsQuote q := has_map_one
  simp only [ends, among, hquote]
  split
  · simp [Cursor.remember, Cursor.upTo]
  · rfl

/-- A quoted text is read at a place if a quote stands there, and once more on the same line. -/
theorem head?_quotedText :
    ((ends quotedText ⟨before, s, groups⟩).head?.map fun c => (c.group? 2).getD []) = some v ↔
      ∃ q rest, s = q :: rest ∧ IsQuote q ∧ ReadsTo q rest v := by
  cases s with
  | nil => simp [quotedText, seqs, ends, among]
  | cons q rest =>
      rw [quotedText, ends_seqs_cons, ends_openQuote]
      by_cases hq : IsQuote q
      · have hread := findSome?_closedAt (v := v) (some q) (some q) [] rest q groups
        simp only [List.nil_append, exists_eq_left'] at hread
        rw [if_pos hq, List.flatMap_singleton, ends_seqs_cons, List.head?_flatMap, ends,
          List.findSome?_map, List.map_findSome?]
        simp only [seqs]
        refine hread.trans ⟨fun h => ⟨q, rest, rfl, hq, h⟩, ?_⟩
        rintro ⟨_, _, heq, -, h⟩
        obtain ⟨rfl, rfl⟩ := List.cons.inj heq
        exact h
      · rw [if_neg hq]
        simp [hq]

/-- The alternative text that is read at a place. -/
def altTextAt (before : Option Char) (s : List Char) : Option (List Char) :=
  (altValue.matchAt? before s).map (·.group 2)

theorem altTextAt_eq_findSome? :
    altTextAt before s = (ends altOpening ⟨before, s, []⟩).findSome? fun c =>
      (ends quotedText c).head?.map fun c => (c.group? 2).getD [] := by
  rw [altTextAt, matchAt?_eq_head?, Option.map_map, ends_altValue, List.head?_flatMap,
    List.map_findSome?]
  rfl

/-- A text has one part before its first quote. -/
theorem opensText_inj {q q' : Char} {rest rest' : List Char} (ht : OpensText t) (hu : OpensText u)
    (hq : IsQuote q) (hq' : IsQuote q') (h : t ++ q :: rest = u ++ q' :: rest') :
    t = u ∧ q = q' ∧ rest = rest' := by
  rcases List.append_eq_append_iff.mp h with ⟨more, rfl, hmore⟩ | ⟨more, rfl, hmore⟩
  · cases more with
    | nil =>
        obtain ⟨rfl, rfl⟩ := List.cons.inj hmore
        simp
    | cons d more =>
        obtain ⟨rfl, -⟩ := List.cons.inj hmore
        exact absurd (List.mem_append_right t List.mem_cons_self) (hu.not_mem (.inl hq))
  · cases more with
    | nil =>
        obtain ⟨rfl, rfl⟩ := List.cons.inj hmore
        simp
    | cons d more =>
        obtain ⟨rfl, -⟩ := List.cons.inj hmore
        exact absurd (List.mem_append_right u List.mem_cons_self) (ht.not_mem (.inl hq'))

theorem recalls_altOpening : altOpening.recalls = false := by decide

/-- The alternative text at a place stands in quotes behind what opens it. -/
theorem altTextAt_eq_some_iff :
    altTextAt before s = some v ↔ before.any Text.isWord = false ∧
      ∃ t q rest, s = t ++ q :: rest ∧ OpensText t ∧ IsQuote q ∧ ReadsTo q rest v := by
  rw [altTextAt_eq_findSome?]
  constructor
  · intro h
    obtain ⟨⟨b, s', groups⟩, hmem, hread⟩ := List.exists_of_findSome?_eq_some h
    obtain ⟨t, rfl, -, ht⟩ := (exists_mem_ends_iff recalls_altOpening).mp ⟨groups, hmem⟩
    obtain ⟨q, rest, rfl, hq, hv⟩ := head?_quotedText.mp hread
    obtain ⟨hbefore, hopens⟩ := covers_altOpening_iff.mp ht
    exact ⟨hbefore, t, q, rest, rfl, hopens, hq, hv⟩
  · rintro ⟨hbefore, t, q, rest, rfl, hopens, hq, hv⟩
    have ht : Covers altOpening before t (q :: rest) := covers_altOpening_iff.mpr ⟨hbefore, hopens⟩
    obtain ⟨groups, hmem⟩ := (exists_mem_ends_iff recalls_altOpening).mpr ⟨t, rfl, rfl, ht⟩
    have hread : ((ends quotedText ⟨behind before t, q :: rest, groups⟩).head?.map fun c =>
        (c.group? 2).getD []) = some v := head?_quotedText.mpr ⟨q, rest, rfl, hq, hv⟩
    -- all places at which a text is read are behind the same opening
    cases hfound :
      List.findSome? (fun c => (ends quotedText c).head?.map fun c => (c.group? 2).getD [])
        (ends altOpening ⟨before, t ++ q :: rest, []⟩) with
    | none =>
        rw [List.findSome?_eq_none_iff] at hfound
        exact absurd (hfound _ hmem) (by simp [hread])
    | some w =>
        obtain ⟨⟨b, s', groups'⟩, hmem', hread'⟩ := List.exists_of_findSome?_eq_some hfound
        obtain ⟨t', heq, -, ht'⟩ := (exists_mem_ends_iff recalls_altOpening).mp ⟨groups', hmem'⟩
        obtain ⟨q', rest', rfl, hq', hw⟩ := head?_quotedText.mp hread'
        obtain ⟨rfl, rfl, rfl⟩ := opensText_inj hopens (covers_altOpening_iff.mp ht').2 hq hq' heq
        rw [hv.unique hw]

/-! ## The text that an attribute gives -/

/-- The alternative text that is read in an attribute. -/
def Attribute.altText? (a : Attribute) : Option (List Char) :=
  (altValue.search? a.text).map (·.group 2)

/-- Each quote that opens an alternative text in the attribute stands in it once more. -/
def Attribute.Closed (a : Attribute) : Prop :=
  ∀ s t q rest, a.text = s ++ (t ++ q :: rest) → (behind none s).any Text.isWord = false →
  OpensText t →
    IsQuote q → q ∈ rest

variable {a : Attribute} {texts : List (List Char)} {element : List Char}

theorem search?_altValue (s : List Char) :
    (altValue.search? s).map (·.group 2) = firstFrom? altTextAt none s :=
  map_searchFrom? (·.group 2) altValue none s

/-- An attribute without quotes is closed. -/
theorem Attribute.closed_of_no_quotes (h : ∀ c ∈ a.text, ¬IsQuote c) : a.Closed := by
  intro s t q rest heq _ _ hq
  exact absurd hq (h q (by simp [heq]))

/-- A plain attribute is closed. -/
theorem Attribute.IsPlain.closed (ha : a.IsPlain) : a.Closed := by
  rintro s t q rest heq - ⟨gap, gap', brace, rfl, -, hgap', hbrace⟩ hq
  have hsplit :
      a.text = (s ++ "alt".toList ++ gap) ++ '=' :: (gap' ++ (brace ++ q :: rest)) := by simp [heq]
  obtain ⟨-, hwritten⟩ := ha.text_eq_iff.mp hsplit
  obtain ⟨text, hvalue, -⟩ := ha.2
  rw [hvalue, AttributeValue.written] at hwritten
  cases gap' with
  | cons c gap' =>
      obtain ⟨rfl, -⟩ := List.cons.inj hwritten
      exact absurd (hgap' _ List.mem_cons_self) (by decide)
  | nil =>
      rcases hbrace with rfl | ⟨gap'', rfl, -⟩
      · obtain ⟨rfl, hrest⟩ := List.cons.inj hwritten
        have hrest' : rest = text ++ ['"'] := hrest
        simp [hrest']
      · exact absurd (List.cons.inj hwritten).1 (by decide)

theorem altTextAt_eq_none_of_found (h : found altAttribute before s = none) :
    altTextAt before s = none := by
  rw [Option.eq_none_iff_forall_ne_some]
  intro v hv
  obtain ⟨hbefore, t, q, rest, rfl, ⟨gap, gap', brace, rfl, hgap, -⟩, -⟩ :=
    altTextAt_eq_some_iff.mp hv
  rw [found, Option.map_eq_none_iff, altAttribute_eq_attributeOf,
    matchAt?_eq_none_iff (recalls_attributeOf attributeNames_alt)] at h
  refine h ("alt".toList ++ (gap ++ ['='])) (gap' ++ brace ++ q :: rest) (by simp) ?_
  exact (covers_attributeOf_iff attributeNames_alt).mpr ⟨hbefore, _, gap, rfl, rfl, hgap⟩

/-- Where an alternative text is read there is an `alt`, and there are quotes. -/
theorem occursIn_of_search?_altValue {m : Match} (h : altValue.search? s = some m) :
    altAttribute.occursIn s = true ∧ ∃ c ∈ s, IsQuote c := by
  have hsome : firstFrom? altTextAt none s ≠ none := by
    rw [← search?_altValue, h]
    exact Option.some_ne_none _
  rw [ne_eq, firstFrom?_eq_none_iff] at hsome
  push Not at hsome
  obtain ⟨s₁, s₂, heq, hplace⟩ := hsome
  constructor
  · rw [occursIn_eq_isSome, Option.isSome_iff_ne_none, ne_eq, firstFrom?_eq_none_iff]
    exact fun hnone => hplace (altTextAt_eq_none_of_found (hnone s₁ s₂ heq))
  · obtain ⟨w, hw⟩ := Option.ne_none_iff_exists'.mp hplace
    obtain ⟨-, t, q, rest, rfl, -, hq, -⟩ := altTextAt_eq_some_iff.mp hw
    exact ⟨q, by simp [heq], hq⟩

/-- An attribute that gives a text is taken for an `alt`, and has quotes. -/
theorem Attribute.occursIn_of_altText? (h : a.altText? = some v) :
    altAttribute.occursIn a.text = true ∧ ∃ c ∈ a.text, IsQuote c := by
  obtain ⟨m, hm, -⟩ := Option.map_eq_some_iff.mp h
  exact occursIn_of_search?_altValue hm

theorem altTextAt_congr {before' : Option Char}
    (h : before.any Text.isWord = before'.any Text.isWord) :
    altTextAt before s = altTextAt before' s := by
  refine Option.ext fun v => ?_
  rw [altTextAt_eq_some_iff, altTextAt_eq_some_iff, h]

/-- Behind a closed attribute nothing changes what is read in it. -/
theorem altTextAt_append {s₁ s₂ rest : List Char} (ha : a.Closed) (htext : a.text = s₁ ++ s₂)
    (hend : EndsClosed s₂) :
    altTextAt (behind none s₁) (s₂ ++ rest) = altTextAt (behind none s₁) s₂ := by
  refine Option.ext fun v => ?_
  rw [altTextAt_eq_some_iff, altTextAt_eq_some_iff]
  refine and_congr_right fun hbefore => ⟨?_, ?_⟩
  · rintro ⟨t, q, after, heq, ht, hq, hv⟩
    obtain ⟨u, rfl⟩ :=
      hend.exists_append (ht.not_mem (.inl (by decide))) (ht.not_mem (.inr rfl)) heq
    rw [List.append_assoc] at heq
    have hafter := List.append_cancel_left heq
    cases u with
    | nil =>
        -- the opening would end as an attribute does
        obtain ⟨c, hlast, hc⟩ := hend
        rw [List.append_nil] at hlast
        refine absurd (List.mem_of_getLast? hlast) (ht.not_mem (hc.imp_left ?_))
        rintro rfl
        decide
    | cons d u =>
        obtain ⟨rfl, rfl⟩ := List.cons.inj hafter
        exact ⟨t, d, u, rfl, ht, hq, (readsTo_append_iff (ha s₁ t d u htext hbefore ht hq)).mp hv⟩
  · rintro ⟨t, q, after, rfl, ht, hq, hv⟩
    have hmem : q ∈ after := by
      obtain ⟨rest, rfl, -⟩ := hv
      simp
    exact ⟨t, q, after ++ rest, by simp, ht, hq, (readsTo_append_iff hmem).mpr hv⟩

theorem TagLine.findsWithin_altTextAt (line : TagLine) (himage : IsImageName line.element)
    (hclosed : ∀ a ∈ line.attributes, a.Closed) :
    FindsWithin altTextAt (line.attributes.map (·.text)) :=
  have halt := (beginsAttribute_alt himage).findsWithin line.endsClosed_of_mem
  { nil := fun before => altTextAt_eq_none_of_found (halt.nil before)
    separator := fun before c s hsep => altTextAt_eq_none_of_found (halt.separator before c s hsep)
    behind_separator := fun c s hsep => altTextAt_congr (by rw [Option.any_some, hsep.isWord]; rfl)
    within := by
      intro text htext s₁ s₂ rest heq hne _
      obtain ⟨a, ha, rfl⟩ := List.mem_map.mp htext
      exact altTextAt_append (hclosed a ha) heq (a.endsClosed heq hne) }

/-- The alternative text of a tag whose attributes are closed is the first that one of them
gives. -/
theorem TagLine.altText?_tag (line : TagLine) (himage : IsImageName line.element)
    (hclosed : ∀ a ∈ line.attributes, a.Closed) :
    (altValue.search? line.tag).map (·.group 2) = line.attributes.findSome? fun a =>
      a.altText? := by
  rw [search?_altValue, line.firstFrom?_tag (line.findsWithin_altTextAt himage hclosed)]
  · simp only [Attribute.altText?, search?_altValue]
  · intro s₁ s₂ rest heq hne hrest
    exact altTextAt_eq_none_of_found
      ((beginsAttribute_alt himage).missesElement s₁ s₂ rest heq hne hrest)

/-! ## What is reported of alternative texts -/

/-- What is reported of an image whose alternative text is given. -/
def emptyAltFindings (source : Source) (index : Nat) (described : Bool)
    (text : List Char) : List Finding :=
  if Text.isBlankText text && !described then
    [source.report .emptyAlt index "Image has empty alt text"
      "Empty alt is only correct for decorative images; describe meaningful images"]
  else []

def genericAltFindings (source : Source) (index : Nat) (text : List Char) : List Finding :=
  if isGenericAlt (Text.strip text) then
    [source.report .genericAlt index
      ("Image alt text is generic: \"" ++ String.ofList (Text.strip text) ++ "\"")
      "Describe what the image shows or what it is for"]
  else []

theorem detectEmptyAlt_eq_flatMap (line : List Char) (index : Nat) (source : Source) :
    detectEmptyAlt line index source = (imageTags line source).flatMap fun tag =>
      ((altValue.search? tag).map (·.group 2)).toList.flatMap
        (emptyAltFindings source index (hasAltEquivalent tag)) := by
  rw [detectEmptyAlt, List.filterMap_eq_flatMap_toList]
  refine List.flatMap_congr fun tag _ => ?_
  cases altValue.search? tag with
  | none => rfl
  | some m =>
      simp only [Option.map_some, Option.toList_some, List.flatMap_singleton, emptyAltFindings]
      split <;> rfl

theorem detectGenericAlt_eq_flatMap (line : List Char) (index : Nat) (source : Source) :
    detectGenericAlt line index source = (imageTags line source).flatMap fun tag =>
      ((altValue.search? tag).map (·.group 2)).toList.flatMap
        (genericAltFindings source index) := by
  rw [detectGenericAlt, List.filterMap_eq_flatMap_toList]
  refine List.flatMap_congr fun tag _ => ?_
  cases altValue.search? tag with
  | none => rfl
  | some m =>
      simp only [Option.map_some, Option.toList_some, List.flatMap_singleton, genericAltFindings]
      split <;> rfl

theorem TagLine.detectEmptyAlt_eq (line : TagLine) (himage : IsImageName line.element)
    (h : line.Unbroken) (hclosed : ∀ a ∈ line.attributes, a.Closed) (index : Nat)
    (source : Source) :
    detectEmptyAlt line.text index source =
      if usesComponent line.text source.components then []
      else (line.attributes.findSome? fun a => a.altText?).toList.flatMap
        (emptyAltFindings source index (line.attributes.any fun a => hasAltEquivalent a.text)) := by
  rw [detectEmptyAlt_eq_flatMap, line.imageTags_text himage h]
  split
  · rfl
  · rw [List.flatMap_singleton, line.altText?_tag himage hclosed, line.hasAltEquivalent_tag himage]

theorem TagLine.detectGenericAlt_eq (line : TagLine) (himage : IsImageName line.element)
    (h : line.Unbroken) (hclosed : ∀ a ∈ line.attributes, a.Closed) (index : Nat)
    (source : Source) :
    detectGenericAlt line.text index source =
      if usesComponent line.text source.components then []
      else (line.attributes.findSome? fun a => a.altText?).toList.flatMap
        (genericAltFindings source index) := by
  rw [detectGenericAlt_eq_flatMap, line.imageTags_text himage h]
  split
  · rfl
  · rw [List.flatMap_singleton, line.altText?_tag himage hclosed]

end FrontendAudit.Accessibility
