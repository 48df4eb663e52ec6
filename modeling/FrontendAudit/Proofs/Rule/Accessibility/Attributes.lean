import FrontendAudit.Proofs.Rule.Accessibility.Tags

/-!
# Attributes of a tag

A tag of an image or of a control, with attributes that have their values in quotes or in braces.
Whatever is looked for in the tag and neither begins at a blank nor goes on behind the end of an
attribute is found in one of the attributes alone (`firstFrom?_tag`).

The name of an attribute is not told exactly: an attribute passes for another one in whose name its
own ends behind a hyphen.
-/

namespace FrontendAudit.Accessibility

open Pattern

variable {β : Type} {before : Option Char} {s t u : List Char} {texts : List (List Char)}

/-! ## Tags with attributes -/

/-- How an attribute gives its value: as a text in quotes, or as an expression in braces. -/
inductive AttributeValue where
  | quoted (text : List Char)
  | braced (expression : List Char)
  deriving DecidableEq

/-- A value as it is written. -/
def AttributeValue.written : AttributeValue → List Char
  | .quoted text => '"' :: (text ++ ['"'])
  | .braced expression => '{' :: (expression ++ ['}'])

structure Attribute where
  name : List Char
  value : AttributeValue
  deriving DecidableEq

/-- An attribute as it is written. -/
def Attribute.text (a : Attribute) : List Char := a.name ++ '=' :: a.value.written

/-- An attribute with the blanks before it. -/
structure SpacedAttribute extends Attribute where
  gap : List Char
  gap_ne_nil : gap ≠ []
  isBlank_of_mem_gap : ∀ c ∈ gap, Text.isBlank c = true

/-- A character that stands behind an attribute, and in no name. -/
def IsSeparator (c : Char) : Prop := Text.isBlank c = true ∨ c = '/' ∨ c = '>'

/-- A line with one tag. -/
structure TagLine where
  above : List Char
  element : List Char
  attributes : List SpacedAttribute
  closing : List Char
  below : List Char
  not_mem_above : '<' ∉ above
  isSeparator_of_mem_closing : ∀ c ∈ closing, Text.isBlank c = true ∨ c = '/'
  not_mem_below : '<' ∉ below

namespace TagLine

/-- What stands between the name of the element and `>`. -/
def inner (line : TagLine) : List Char :=
  line.attributes.flatMap (fun a => a.gap ++ a.text) ++ line.closing

/-- The tag as it is written. -/
def tag (line : TagLine) : List Char := '<' :: (line.element ++ line.inner ++ ['>'])

/-- The whole line. -/
def text (line : TagLine) : List Char :=
  line.above ++ '<' :: (line.element ++ line.inner ++ '>' :: line.below)

/-- No attribute holds a `>`. -/
def Unbroken (line : TagLine) : Prop := ∀ a ∈ line.attributes, '>' ∉ a.text

end TagLine

/-! ## Where attributes end -/

/-- The text is empty or begins with a separator. -/
def Separated (s : List Char) : Prop := ∀ c, s.head? = some c → IsSeparator c

/-- The text ends as an attribute does. -/
def EndsClosed (s : List Char) : Prop := ∃ c, s.getLast? = some c ∧ (c = '"' ∨ c = '}')

theorem IsSeparator.isWord {c : Char} (h : IsSeparator c) : Text.isWord c = false := by
  rcases h with h | rfl | rfl
  · exact Text.isWord_eq_false_of_isBlank h
  all_goals decide

theorem IsSeparator.isAttributeChar {c : Char} (h : IsSeparator c) : isAttributeChar c = false := by
  have hhyphen : c ≠ '-' := by
    rintro rfl
    rcases h with h | h | h <;> exact absurd h (by decide)
  simp [Accessibility.isAttributeChar, h.isWord, hhyphen]

theorem separated_nil : Separated [] := fun _ h => by cases h

theorem separated_cons {c : Char} (h : IsSeparator c) : Separated (c :: s) := by
  intro d hd
  obtain rfl : c = d := by simpa using hd
  exact h

theorem separated_of_forall (hs : ∀ c ∈ s, IsSeparator c) : Separated s :=
  fun c hc => hs c (List.mem_of_mem_head? hc)

theorem separated_attributes (attributes : List SpacedAttribute) (ht : Separated t) :
    Separated (attributes.flatMap (fun a => a.gap ++ a.text) ++ t) := by
  cases attributes with
  | nil => exact ht
  | cons a attributes =>
      obtain ⟨c, gap, hgap⟩ := List.exists_cons_of_ne_nil a.gap_ne_nil
      rw [List.flatMap_cons, hgap]
      exact separated_cons (.inl (a.isBlank_of_mem_gap c (by simp [hgap])))

theorem AttributeValue.getLast?_written (value : AttributeValue) : EndsClosed value.written := by
  cases value with
  | quoted text => exact ⟨'"', by simp [written, List.getLast?_cons], .inl rfl⟩
  | braced expression => exact ⟨'}', by simp [written, List.getLast?_cons], .inr rfl⟩

/-- Every part at the end of an attribute ends as the attribute does. -/
theorem Attribute.endsClosed (a : Attribute) (h : a.text = s ++ t) (hne : t ≠ []) :
    EndsClosed t := by
  obtain ⟨c, hlast, hc⟩ := a.value.getLast?_written
  have hvalue : a.value.written ≠ [] := by
    rintro heq
    rw [heq] at hlast
    cases hlast
  have htext : a.text.getLast? = some c := by
    rw [Attribute.text, List.getLast?_append, List.getLast?_cons_of_ne_nil hvalue, hlast]
    rfl
  rw [h, List.getLast?_append_of_ne_nil _ hne] at htext
  exact ⟨c, htext, hc⟩

/-- What has neither a quote nor a closing brace ends before an attribute does. -/
theorem EndsClosed.exists_append {x rest : List Char} (hs : EndsClosed s) (hquote : '"' ∉ x)
    (hbrace : '}' ∉ x) (h : s ++ t = x ++ rest) : ∃ u, s = x ++ u := by
  rcases List.append_eq_append_iff.mp h with ⟨u, hx, -⟩ | ⟨u, hs', -⟩
  · obtain ⟨c, hlast, hc⟩ := hs
    have hmem : c ∈ x := hx ▸ List.mem_append_left u (List.mem_of_getLast? hlast)
    rcases hc with rfl | rfl
    · exact absurd hmem hquote
    · exact absurd hmem hbrace
  · exact ⟨u, hs'⟩

theorem TagLine.isSeparator_closing (line : TagLine) :
    ∀ c ∈ line.closing ++ ['>'], IsSeparator c := by
  intro c hc
  rcases List.mem_append.mp hc with hc | hc
  · exact (line.isSeparator_of_mem_closing c hc).imp_right .inl
  · exact .inr (.inr (List.mem_singleton.mp hc))

theorem TagLine.separated_below (line : TagLine) :
    Separated (line.closing ++ '>' :: line.below) := by
  intro c hc
  refine line.isSeparator_closing c (List.mem_of_mem_head? ?_)
  cases hclosing : line.closing with
  | nil => simpa [hclosing] using hc
  | cons d closing => simpa [hclosing] using hc

/-! ## What is found attribute by attribute -/

/-- What `f` finds in attributes it finds within one of them: not at a separator, and whatever
stands behind the attribute. -/
structure FindsWithin (f : Option Char → List Char → Option β)
    (texts : List (List Char)) : Prop where
  nil : ∀ before, f before [] = none
  separator : ∀ before c s, IsSeparator c → f before (c :: s) = none
  behind_separator : ∀ c s, IsSeparator c → f (some c) s = f none s
  within : ∀ a ∈ texts, ∀ s₁ s₂ rest, a = s₁ ++ s₂ → s₂ ≠ [] → Separated rest →
    f (behind none s₁) (s₂ ++ rest) = f (behind none s₁) s₂

/-- Nothing is found in the name of the element. -/
def MissesElement (f : Option Char → List Char → Option β) (element : List Char) : Prop :=
  ∀ s₁ s₂ rest, '<' :: element = s₁ ++ s₂ → s₂ ≠ [] → Separated rest →
  f (behind none s₁) (s₂ ++ rest) = none

variable {f : Option Char → List Char → Option β} {element : List Char}

theorem FindsWithin.eq_none (h : FindsWithin f texts) (hs : Separated s) : f before s = none := by
  cases s with
  | nil => exact h.nil before
  | cons c s => exact h.separator before c s (hs c rfl)

theorem FindsWithin.firstFrom?_separators (h : FindsWithin f texts) (hs : ∀ c ∈ s, IsSeparator c) :
    firstFrom? f before (s ++ t) = firstFrom? f (behind before s) t := by
  induction s generalizing before with
  | nil => rfl
  | cons a s ih =>
      obtain ⟨ha, hs⟩ := List.forall_mem_cons.mp hs
      rw [List.cons_append, firstFrom?, h.separator before a _ ha, Option.none_or, ih hs,
        behind_cons]

/-- The attributes are searched one after the other, and then what stands behind them. -/
theorem firstFrom?_attributes (attributes : List SpacedAttribute)
    (h : FindsWithin f (attributes.map (·.text))) (ht : Separated t) :
    firstFrom? f before (attributes.flatMap (fun a => a.gap ++ a.text) ++ t) =
      (attributes.findSome? fun a => firstFrom? f none a.text).or (firstFrom? f none t) := by
  induction attributes generalizing before with
  | nil => exact firstFrom?_congr_before ((h.eq_none ht).trans (h.eq_none ht).symm)
  | cons a attributes ih =>
      have hlater : FindsWithin f (attributes.map (·.text)) :=
        ⟨h.nil, h.separator, h.behind_separator, fun b hb => h.within b (List.mem_cons_of_mem _ hb)⟩
      have hrest := separated_attributes attributes ht
      have hgap : ∀ c ∈ a.gap, IsSeparator c := fun c hc => .inl (a.isBlank_of_mem_gap c hc)
      have hbefore : ∃ c, behind before a.gap = some c ∧ IsSeparator c := by
        refine ⟨a.gap.getLast a.gap_ne_nil, ?_, hgap _ (List.getLast_mem _)⟩
        rw [behind, List.getLast?_eq_some_getLast a.gap_ne_nil]
        rfl
      obtain ⟨c, hc, hsep⟩ := hbefore
      rw [List.flatMap_cons, List.append_assoc, List.append_assoc, h.firstFrom?_separators hgap, hc,
        firstFrom?_append h.nil, firstFrom?_congr_before (h.behind_separator c _ hsep), ih hlater,
        List.findSome?_cons]
      · cases firstFrom? f none a.text <;> rfl
      · intro s₁ s₂ heq hne
        have hwithin := h.within a.text List.mem_cons_self s₁ s₂ _ heq hne hrest
        cases s₁ with
        | nil =>
            exact (h.behind_separator c _ hsep).trans
              (hwithin.trans (h.behind_separator c _ hsep).symm)
        | cons d s₁ => simpa only [behind_cons] using hwithin

/-- What is found in the tag is found in the first attribute in which something is found. -/
theorem TagLine.firstFrom?_tag (line : TagLine) (h : FindsWithin f (line.attributes.map (·.text)))
    (helement : MissesElement f line.element) :
    firstFrom? f none line.tag = line.attributes.findSome? fun a => firstFrom? f none a.text := by
  have htag : line.tag = ('<' :: line.element) ++
      (line.attributes.flatMap (fun a => a.gap ++ a.text) ++ (line.closing ++ ['>'])) := by
    simp [tag, inner]
  have hclosing := separated_of_forall line.isSeparator_closing
  have hhead : firstFrom? f none ('<' :: line.element) = none := by
    refine firstFrom?_eq_none_iff.mpr fun s₁ s₂ heq => ?_
    by_cases hne : s₂ = []
    · rw [hne, h.nil]
    · simpa using helement s₁ s₂ [] heq hne separated_nil
  have hend : firstFrom? f none (line.closing ++ ['>']) = none := by
    rw [← List.append_nil (line.closing ++ ['>']),
      h.firstFrom?_separators line.isSeparator_closing, firstFrom?, h.nil]
  rw [htag, firstFrom?_append h.nil, hhead, Option.none_or,
    firstFrom?_attributes line.attributes h hclosing, hend, Option.or_none]
  intro s₁ s₂ heq hne
  have hrest := separated_attributes line.attributes hclosing
  have hnone :
      f (behind none s₁) s₂ = none := by simpa using helement s₁ s₂ [] heq hne separated_nil
  rw [helement s₁ s₂ _ heq hne hrest, hnone]

/-! ## Patterns that are found attribute by attribute -/

variable {p : Pattern} {covered : List Char → Prop}

/-- Whether the pattern matches at a place. -/
def found (p : Pattern) (before : Option Char) (s : List Char) : Option Unit :=
  (p.matchAt? before s).map fun _ => ()

theorem found_congr {before' : Option Char}
    (h : (p.matchAt? before s).isSome = true ↔ (p.matchAt? before' t).isSome = true) :
    found p before s = found p before' t := by
  rw [found, found]
  cases hs : p.matchAt? before s <;> cases ht : p.matchAt? before' t <;> simp [hs, ht] at h ⊢

theorem occursIn_eq_isSome (p : Pattern) (s : List Char) :
    p.occursIn s = (firstFrom? (found p) none s).isSome := by
  have hsearch : (p.search? s).map (fun _ => ()) = firstFrom? (found p) none s :=
    map_searchFrom? (fun _ => ()) p none s
  rw [occursIn, ← hsearch, Option.isSome_map]

/-- A pattern for the beginning of an attribute: it begins with a word character at the beginning of
a word, what it covers does not go on behind an attribute, and it is not the name of the element. -/
structure BeginsAttribute (p : Pattern) (covered : List Char → Prop)
    (element : List Char) : Prop where
  recalls : p.recalls = false
  covers_iff : ∀ before t after, Covers p before t after ↔
    before.any Text.isWord = false ∧ covered t
  starts : ∀ t, covered t → ∃ c rest, t = c :: rest ∧ Text.isWord c = true
  ends_within : ∀ s t, covered (s ++ t) → EndsClosed s → Separated t → t = []
  not_element : ∀ t, covered t → ∀ rest u, Separated rest → element ++ rest ≠ t ++ u
  isWord_element : ∀ c ∈ element, Text.isWord c = true

theorem BeginsAttribute.isSome_matchAt?_iff (h : BeginsAttribute p covered element) :
    (p.matchAt? before s).isSome = true ↔
      before.any Text.isWord = false ∧ ∃ t u, s = t ++ u ∧ covered t := by
  rw [Pattern.isSome_matchAt?_iff h.recalls]
  simp only [h.covers_iff]
  constructor
  · rintro ⟨t, u, rfl, hbefore, ht⟩
    exact ⟨hbefore, t, u, rfl, ht⟩
  · rintro ⟨hbefore, t, u, rfl, ht⟩
    exact ⟨t, u, rfl, hbefore, ht⟩

theorem BeginsAttribute.found_eq_none (h : BeginsAttribute p covered element)
    (hnot : before.any Text.isWord = false → ∀ t u, s = t ++ u → ¬covered t) :
    found p before s = none := by
  rw [found, Option.map_eq_none_iff, ← Option.not_isSome_iff_eq_none, h.isSome_matchAt?_iff]
  rintro ⟨hbefore, t, u, heq, ht⟩
  exact hnot hbefore t u heq ht

theorem BeginsAttribute.findsWithin (h : BeginsAttribute p covered element)
    (htexts : ∀ a ∈ texts, ∀ s₁ s₂, a = s₁ ++ s₂ → s₂ ≠ [] → EndsClosed s₂) :
    FindsWithin (found p) texts where
  nil before := by
    refine h.found_eq_none fun _ t u heq ht => ?_
    obtain ⟨c, rest, rfl, -⟩ := h.starts t ht
    cases heq
  separator before c s hsep := by
    refine h.found_eq_none fun _ t u heq ht => ?_
    obtain ⟨d, rest, rfl, hd⟩ := h.starts t ht
    obtain ⟨rfl, -⟩ := List.cons.inj heq
    exact absurd hd (by simp [hsep.isWord])
  behind_separator c s hsep := by
    refine found_congr ?_
    rw [h.isSome_matchAt?_iff, h.isSome_matchAt?_iff, Option.any_some, hsep.isWord]
    rfl
  within a ha s₁ s₂ rest heq hne hrest := by
    refine found_congr ?_
    rw [h.isSome_matchAt?_iff, h.isSome_matchAt?_iff]
    refine and_congr_right fun _ => ⟨?_, ?_⟩
    · rintro ⟨t, u, hsplit, ht⟩
      rcases List.append_eq_append_iff.mp hsplit with ⟨more, rfl, hrest'⟩ | ⟨more, rfl, -⟩
      · have hmore : Separated more := fun c hc => hrest c (by simp [hrest', hc])
        obtain rfl := h.ends_within s₂ more ht (htexts a ha s₁ s₂ heq hne) hmore
        exact ⟨s₂, [], by simp, by simpa using ht⟩
      · exact ⟨t, more, rfl, ht⟩
    · rintro ⟨t, u, rfl, ht⟩
      exact ⟨t, u ++ rest, by simp, ht⟩

theorem BeginsAttribute.missesElement (h : BeginsAttribute p covered element) :
    MissesElement (found p) element := by
  intro s₁ s₂ rest heq hne hrest
  refine h.found_eq_none fun hbefore t u hsplit ht => ?_
  cases s₁ with
  | nil =>
      obtain ⟨c, more, rfl, hc⟩ := h.starts t ht
      rw [List.nil_append] at heq
      rw [← heq] at hsplit
      obtain ⟨rfl, -⟩ := List.cons.inj hsplit
      exact absurd hc (by decide)
  | cons d s₁ =>
      obtain ⟨rfl, helement⟩ := List.cons.inj heq
      rcases List.eq_nil_or_concat s₁ with rfl | ⟨first, last, rfl⟩
      · exact h.not_element t ht rest u hrest (by rw [helement]; exact hsplit)
      · -- within the name of the element no word begins
        have hlast : Text.isWord last = true := h.isWord_element last (by simp [helement])
        have hbehind : behind none ('<' :: (first ++ [last])) = some last := by
          rw [behind_cons, behind_append]
          rfl
        rw [List.concat_eq_append, hbehind, Option.any_some, hlast] at hbefore
        cases hbefore

theorem TagLine.endsClosed_of_mem (line : TagLine) :
    ∀ a ∈ line.attributes.map (·.text), ∀ s₁ s₂, a = s₁ ++ s₂ → s₂ ≠ [] → EndsClosed s₂ := by
  intro text htext s₁ s₂ heq hne
  obtain ⟨a, -, rfl⟩ := List.mem_map.mp htext
  exact a.endsClosed heq hne

/-- The beginning of an attribute occurs in a tag exactly when it occurs in one of the
attributes. -/
theorem BeginsAttribute.occursIn_tag {line : TagLine} (h : BeginsAttribute p covered line.element) :
    p.occursIn line.tag = line.attributes.any fun a => p.occursIn a.text := by
  rw [occursIn_eq_isSome,
    line.firstFrom?_tag (h.findsWithin line.endsClosed_of_mem) h.missesElement,
      List.isSome_findSome?]
  simp only [occursIn_eq_isSome]

/-! ## Names in a tag -/

/-- Behind word characters nothing that stands apart from them is taken. -/
theorem takeWhile_isWord_append (hs : ∀ c ∈ s, Text.isWord c = true) (ht : Separated t) :
    (s ++ t).takeWhile Text.isWord = s := by
  rw [List.takeWhile_append_of_pos hs]
  cases t with
  | nil => simp
  | cons c t => simp [(ht c rfl).isWord]

theorem takeWhile_append_of_head? {f : Char → Bool} (ht : ∀ c, t.head? = some c → f c = false) :
    (s ++ t).takeWhile f = s.takeWhile f := by
  induction s with
  | nil =>
      cases t with
      | nil => rfl
      | cons c t => simp [ht c rfl]
  | cons c s ih => rw [List.cons_append, List.takeWhile_cons, List.takeWhile_cons, ih]

/-- Blanks, an equals sign and anything behind it do not begin with a word character. -/
theorem isWord_head?_gap {gap rest : List Char} (hgap : ∀ c ∈ gap, Text.isBlank c = true) :
    ∀ c, (gap ++ '=' :: rest).head? = some c → Text.isWord c = false := by
  intro c hc
  cases gap with
  | nil =>
      obtain rfl : '=' = c := by simpa using hc
      decide
  | cons a gap =>
      obtain rfl : a = c := by simpa using hc
      exact Text.isWord_eq_false_of_isBlank (hgap a List.mem_cons_self)

/-- An attribute whose name is taken from a set begins no tag of an element with another name. -/
theorem element_append_ne {name gap rest u : List Char}
    (helement : ∀ c ∈ element, Text.isWord c = true) (hgap : ∀ c ∈ gap, Text.isBlank c = true)
    (hother : name.takeWhile Text.isWord ≠ element) (hs : Separated s) :
    element ++ s ≠ name ++ (gap ++ '=' :: rest) ++ u := by
  intro heq
  have htake := congrArg (List.takeWhile Text.isWord) heq
  rw [takeWhile_isWord_append helement hs, List.append_assoc, List.append_assoc, List.cons_append,
    takeWhile_append_of_head? (isWord_head?_gap hgap)] at htake
  exact hother htake.symm

/-- The beginning of an attribute with a name from a set, up to its equals sign. -/
def BeginsNamed (isName : List Char → Prop) (t : List Char) : Prop :=
  ∃ name gap, t = name ++ (gap ++ ['=']) ∧ isName name ∧ ∀ c ∈ gap, Text.isBlank c = true

variable {names : Pattern} {isName : List Char → Prop}

theorem beginsAttribute_attributeOf (hnames : AttributeNames names isName)
    (helement : ∀ c ∈ element, Text.isWord c = true)
    (hother : ∀ name, isName name → name.takeWhile Text.isWord ≠ element) :
    BeginsAttribute (attributeOf names) (BeginsNamed isName) element where
  recalls := recalls_attributeOf hnames
  covers_iff _ _ _ := covers_attributeOf_iff hnames
  starts := by
    rintro t ⟨name, gap, rfl, hname, -⟩
    obtain ⟨c, rest, rfl, hc⟩ := hnames.starts name hname
    exact ⟨c, _, rfl, hc⟩
  ends_within := by
    rintro s t ⟨name, gap, heq, hname, hgap⟩ ⟨c, hlast, hc⟩ -
    have hmem : c ∈ name ++ (gap ++ ['=']) :=
      heq ▸ List.mem_append_left t (List.mem_of_getLast? hlast)
    rcases List.mem_append.mp hmem with hmem | hmem
    · rcases hc with rfl | rfl <;> exact absurd (hnames.letters name hname _ hmem) (by decide)
    rcases List.mem_append.mp hmem with hmem | hmem
    · rcases hc with rfl | rfl <;> exact absurd (hgap _ hmem) (by decide)
    · rcases hc with rfl | rfl <;> exact absurd hmem (by decide)
  not_element := by
    rintro t ⟨name, gap, rfl, hname, hgap⟩ rest u hrest
    exact element_append_ne helement hgap (hother name hname) hrest
  isWord_element := helement

theorem IsControlName.le_length {name : List Char} (h : IsControlName name) : 5 ≤ name.length := by
  obtain ⟨w, hw, h⟩ := h
  rw [h.length_eq]
  clear h
  revert w
  decide

theorem IsImageName.length_le {name : List Char} (h : IsImageName name) : name.length ≤ 5 := by
  rcases h with h | rfl
  · rw [h.length_eq]
    decide
  · decide

theorem beginsAttribute_alt (himage : IsImageName element) :
    BeginsAttribute altAttribute (BeginsNamed IsAltName) element := by
  rw [altAttribute_eq_attributeOf]
  refine beginsAttribute_attributeOf attributeNames_alt
    (elementNames_image.isWord_of_mem element himage) ?_
  rintro name rfl rfl
  exact absurd himage (by decide)

theorem beginsAttribute_label (hcontrol : IsControlName element) :
    BeginsAttribute labelHook (BeginsNamed IsLabelName) element := by
  rw [labelHook_eq_attributeOf]
  refine beginsAttribute_attributeOf attributeNames_label
    (elementNames_control.isWord_of_mem element hcontrol) ?_
  rintro name ⟨w, hw, rfl⟩ rfl
  simp only [List.mem_cons, List.not_mem_nil, or_false] at hw
  rcases hw with rfl | rfl | rfl <;> exact absurd hcontrol (by decide)

theorem separated_eq_nil (ht : Separated t) (hnone : ∀ c ∈ t, ¬IsSeparator c) : t = [] := by
  cases t with
  | nil => rfl
  | cons c t => exact absurd (ht c rfl) (hnone c List.mem_cons_self)

theorem wordNames_hidden : WordNames (InAnyCase "hidden") :=
  wordNames_inAnyCase (by decide) (by decide +kernel)

theorem beginsAttribute_hidden (hcontrol : IsControlName element) :
    BeginsAttribute hiddenInput HidesControl element where
  recalls := by decide
  covers_iff _ _ _ := covers_hiddenInput_iff
  starts := by
    rintro t ⟨name, gap, gap', value, q, q', rfl, hname, -⟩
    obtain ⟨c, rest, rfl, hc⟩ := wordNames_type.exists_cons hname
    exact ⟨c, _, rfl, hc⟩
  ends_within := by
    rintro s t ⟨name, gap, gap', value, q, q', heq, hname, hvalue, hgap, hgap', hq, hq'⟩ hs ht
    have hquotes : ∀ d, d = '"' ∨ d = '}' → d ∉ name ++ (gap ++ '=' :: gap') := by
      rintro d hd hmem
      simp only [List.mem_append, List.mem_cons] at hmem
      rcases hmem with hmem | hmem | hmem | hmem
      · have hword := wordNames_type.isWord_of_mem name hname d hmem
        rcases hd with rfl | rfl <;> exact absurd hword (by decide)
      · rcases hd with rfl | rfl <;> exact absurd (hgap _ hmem) (by decide)
      · rcases hd with rfl | rfl <;> exact absurd hmem (by decide)
      · rcases hd with rfl | rfl <;> exact absurd (hgap' _ hmem) (by decide)
    have hsplit : s ++ t = (name ++ (gap ++ '=' :: gap')) ++ (q :: (value ++ [q'])) := by simp [heq]
    obtain ⟨u, rfl⟩ := hs.exists_append (hquotes _ (.inl rfl)) (hquotes _ (.inr rfl)) hsplit
    have hvalue' : u ++ t = q :: (value ++ [q']) :=
      List.append_cancel_left (by rw [← List.append_assoc]; exact hsplit)
    have hmark : ∀ d ∈ "'\"".toList, ¬IsSeparator d := by
      intro d hd hsep
      have hcases : d = '\'' ∨ d = '"' := by simpa using hd
      rcases hcases with rfl | rfl <;> rcases hsep with h | h | h <;> exact absurd h (by decide)
    refine separated_eq_nil ht fun c hc => ?_
    have hmem : c ∈ q :: (value ++ [q']) := hvalue' ▸ List.mem_append_right u hc
    rcases List.mem_cons.mp hmem with rfl | hmem
    · exact hmark c hq
    rcases List.mem_append.mp hmem with hmem | hmem
    · have hword := wordNames_hidden.isWord_of_mem value hvalue c hmem
      exact fun hsep => absurd hword (by simp [hsep.isWord])
    · exact List.mem_singleton.mp hmem ▸ hmark q' hq'
  not_element := by
    rintro t ⟨name, gap, gap', value, q, q', rfl, hname, -, hgap, -⟩ rest u hrest
    refine element_append_ne (elementNames_control.isWord_of_mem element hcontrol) hgap ?_ hrest
    have htake : name.takeWhile Text.isWord = name := by
      simpa using takeWhile_isWord_append (wordNames_type.isWord_of_mem name hname) separated_nil
    rw [htake]
    rintro rfl
    exact absurd hcontrol.le_length (by rw [hname.length_eq]; decide)
  isWord_element := elementNames_control.isWord_of_mem element hcontrol

/-! ## Props that describe an image in another way -/

/-- Whether one of the props begins at a place, its name directly before an equals sign. -/
def propAt (_before : Option Char) (s : List Char) : Option Unit :=
  if altEquivalents.any fun prop => (prop ++ "=").toList.isPrefixOf s then some () else none

theorem propAt_eq_none_iff {before : Option Char} :
    propAt before s = none ↔ ∀ prop ∈ altEquivalents, ∀ u, s ≠ (prop ++ "=").toList ++ u := by
  rw [propAt, ite_eq_right_iff]
  simp only [reduceCtorEq, imp_false, List.any_eq_true, List.isPrefixOf_iff_prefix,
    not_exists, not_and]
  exact forall₂_congr fun prop _ => ⟨fun h u heq => h ⟨u, heq.symm⟩, fun h ⟨u, heq⟩ => h u heq.symm⟩

theorem propAt_congr (h : ∀ prop ∈ altEquivalents,
    (prop ++ "=").toList.isPrefixOf s = (prop ++ "=").toList.isPrefixOf t) :
    propAt before s = propAt before t := by
  have hany : (altEquivalents.any fun prop => (prop ++ "=").toList.isPrefixOf s) =
      altEquivalents.any fun prop => (prop ++ "=").toList.isPrefixOf t := by
    rw [Bool.eq_iff_iff, List.any_eq_true, List.any_eq_true]
    exact exists_congr fun prop => and_congr_right fun hprop => by rw [h prop hprop]
  rw [propAt, propAt, hany]

theorem hasAltEquivalent_eq_isSome (s : List Char) :
    hasAltEquivalent s = (firstFrom? propAt none s).isSome := by
  rw [Bool.eq_iff_iff, hasAltEquivalent_iff, Option.isSome_iff_ne_none, ne_eq,
    firstFrom?_eq_none_iff]
  simp only [propAt_eq_none_iff, CarriesEquivalent]
  push Not
  constructor
  · rintro ⟨prop, hprop, above, below, rfl⟩
    exact ⟨above, _, List.append_assoc .., prop, hprop, below, rfl⟩
  · rintro ⟨above, _, rfl, prop, hprop, below, rfl⟩
    exact ⟨prop, hprop, above, below, (List.append_assoc ..).symm⟩

theorem length_prop : ∀ prop ∈ altEquivalents, 6 < (prop ++ "=").toList.length := by
  decide

theorem letters_prop : ∀ prop ∈ altEquivalents,
    ((prop ++ "=").toList.all fun c => isAttributeChar c || c = '=') = true := by
  decide

theorem not_mem_prop {prop : String} {c : Char} (hprop : prop ∈ altEquivalents)
    (hc : isAttributeChar c = false) (hequals : c ≠ '=') : c ∉ (prop ++ "=").toList := by
  intro hmem
  have h := List.all_eq_true.mp (letters_prop prop hprop) c hmem
  simp [hc, hequals] at h

theorem not_separator_of_mem_prop {prop : String} {c : Char} (hprop : prop ∈ altEquivalents)
    (hc : c ∈ (prop ++ "=").toList) : ¬IsSeparator c := by
  intro hsep
  refine not_mem_prop hprop hsep.isAttributeChar ?_ hc
  rintro rfl
  rcases hsep with h | h | h <;> exact absurd h (by decide)

theorem findsWithin_propAt
    (htexts : ∀ a ∈ texts, ∀ s₁ s₂, a = s₁ ++ s₂ → s₂ ≠ [] → EndsClosed s₂) :
    FindsWithin propAt texts where
  nil before := by
    refine propAt_eq_none_iff.mpr fun prop hprop u heq => ?_
    have hnil := (List.append_eq_nil_iff.mp heq.symm).1
    simp at hnil
  separator before c s hsep := by
    refine propAt_eq_none_iff.mpr fun prop hprop u heq => ?_
    cases hchars : (prop ++ "=").toList with
    | nil => simp at hchars
    | cons d chars =>
        rw [hchars] at heq
        obtain ⟨rfl, -⟩ := List.cons.inj heq
        exact not_separator_of_mem_prop hprop (by rw [hchars]; exact List.mem_cons_self) hsep
  behind_separator _ _ _ := rfl
  within a ha s₁ s₂ rest heq hne _ := by
    refine propAt_congr fun prop hprop => ?_
    rw [Bool.eq_iff_iff, List.isPrefixOf_iff_prefix, List.isPrefixOf_iff_prefix]
    constructor
    · rintro ⟨u, hu⟩
      obtain ⟨v, rfl⟩ := (htexts a ha s₁ s₂ heq hne).exists_append
        (not_mem_prop hprop
          (by decide) (by decide)) (not_mem_prop hprop (by decide) (by decide)) hu.symm
      exact List.prefix_append _ _
    · exact fun h => h.trans (List.prefix_append _ _)

theorem missesElement_propAt (himage : IsImageName element) : MissesElement propAt element := by
  intro s₁ s₂ rest heq hne hrest
  refine propAt_eq_none_iff.mpr fun prop hprop u hu => ?_
  -- no prop fits into the name of the element, and behind the name no prop goes on
  have hshort : s₂.length < (prop ++ "=").toList.length := by
    have hparts := congrArg List.length heq
    have hle := himage.length_le
    have hlong := length_prop prop hprop
    simp only [List.length_cons, List.length_append] at hparts
    omega
  rcases List.append_eq_append_iff.mp hu with ⟨v, hv, hrest'⟩ | ⟨v, hv, -⟩
  · cases v with
    | nil => exact absurd (congrArg List.length hv) (by simp only [List.append_nil]; omega)
    | cons c v =>
        exact not_separator_of_mem_prop hprop (by rw [hv]; simp) (hrest c (by rw [hrest']; rfl))
  · exact absurd (congrArg List.length hv) (by rw [List.length_append]; omega)

/-- A prop that describes the image in another way stands in a tag exactly when it stands in one of
the attributes. -/
theorem TagLine.hasAltEquivalent_tag (line : TagLine) (himage : IsImageName line.element) :
    hasAltEquivalent line.tag = line.attributes.any fun a => hasAltEquivalent a.text := by
  rw [hasAltEquivalent_eq_isSome, line.firstFrom?_tag (findsWithin_propAt line.endsClosed_of_mem)
    (missesElement_propAt himage),
    List.isSome_findSome?]
  simp only [hasAltEquivalent_eq_isSome]

/-! ## The tag that is found -/

theorem any_or {α : Type} (f g : α → Bool) (xs : List α) :
    (xs.any fun a => f a || g a) = (xs.any f || xs.any g) := by
  rw [Bool.eq_iff_iff]
  simp only [Bool.or_eq_true, List.any_eq_true, and_or_left, exists_or]

theorem TagLine.not_mem_inner (line : TagLine) (h : line.Unbroken) : '>' ∉ line.inner := by
  intro hmem
  rcases List.mem_append.mp hmem with hmem | hmem
  · obtain ⟨a, ha, hmem⟩ := List.mem_flatMap.mp hmem
    rcases List.mem_append.mp hmem with hmem | hmem
    · exact absurd (a.isBlank_of_mem_gap _ hmem) (by decide)
    · exact h a ha hmem
  · exact absurd (line.isSeparator_of_mem_closing _ hmem) (by decide)

/-- The tag of a line is the one that is found in it. -/
theorem TagLine.texts_allMatches (line : TagLine) (hnames : ElementNames names isName)
    (helement : isName line.element) (h : line.Unbroken) :
    ((tagOf names).allMatches line.text).map (·.text) = [line.tag] := by
  have hinner : Separated (line.inner ++ ['>']) := by
    rw [inner, List.append_assoc]
    exact separated_attributes line.attributes (separated_of_forall line.isSeparator_closing)
  refine texts_allMatches_tagOf hnames line.not_mem_above ?_ ⟨line.element, line.inner, rfl,
    helement, ?_⟩
    line.not_mem_below
  · simp [hnames.not_mem (c := '>') (by decide) helement, line.not_mem_inner h]
  · rw [hnames.isBoundary_iff helement, Option.any_eq_false]
    exact fun c hc => by simpa using (hinner c hc).isWord

theorem TagLine.imageTags_text (line : TagLine) (himage : IsImageName line.element)
    (h : line.Unbroken) (source : Source) :
    imageTags line.text source =
      if usesComponent line.text source.components then [] else [line.tag] := by
  rw [imageTags, imageTag_eq_tagOf, line.texts_allMatches elementNames_image himage h]

/-- An image is reported for want of an `alt` unless one of its attributes is taken for one, or
describes the image in another way. -/
theorem TagLine.detectMissingAlt_eq (line : TagLine) (himage : IsImageName line.element)
    (h : line.Unbroken) (index : Nat) (source : Source) :
    detectMissingAlt line.text index source =
      if usesComponent line.text source.components ||
          line.attributes.any
            (fun a => altAttribute.occursIn a.text || hasAltEquivalent a.text) then []
      else [source.report .missingAlt index "Image missing alt attribute"
        "Add descriptive alt text, or alt=\"\" if the image is purely decorative"] := by
  rw [detectMissingAlt, line.imageTags_text himage h]
  cases usesComponent line.text source.components
  · have hany : (altAttribute.occursIn line.tag || hasAltEquivalent line.tag) =
        line.attributes.any (fun a => altAttribute.occursIn a.text || hasAltEquivalent a.text) := by
      rw [(beginsAttribute_alt himage).occursIn_tag, line.hasAltEquivalent_tag himage, any_or]
    simp only [Bool.false_eq_true, if_false, List.filterMap_cons, List.filterMap_nil,
      Bool.false_or, hany]
    cases line.attributes.any _ <;> rfl
  · rfl

/-- A control is reported unless a label can reach it by one of its attributes, or one of them hides
it. -/
theorem TagLine.detectMissingFormLabel_eq (line : TagLine) (hcontrol : IsControlName line.element)
    (h : line.Unbroken) (index : Nat) (source : Source) :
    detectMissingFormLabel line.text index source =
      if line.attributes.any
        (fun a => labelHook.occursIn a.text || hiddenInput.occursIn a.text) then []
      else [source.report .missingFormLabel index "Form control missing proper labeling"
        "Associate a <label for=...> via id, or add aria-label / aria-labelledby"] := by
  obtain ⟨m, hmatches, htext⟩ := List.map_eq_singleton_iff.mp
    (line.texts_allMatches elementNames_control hcontrol h)
  rw [← formControl_eq_tagOf] at hmatches
  have hany : (labelHook.occursIn line.tag || hiddenInput.occursIn line.tag) =
      line.attributes.any (fun a => labelHook.occursIn a.text || hiddenInput.occursIn a.text) := by
    rw [(beginsAttribute_label hcontrol).occursIn_tag,
      (beginsAttribute_hidden hcontrol).occursIn_tag, any_or]
  rw [detectMissingFormLabel, hmatches, List.filterMap_cons, htext, hany]
  cases line.attributes.any _ <;> rfl

/-! ## Names that pass for others -/

/-- A character of a value that is no quote, equals sign or angle bracket. -/
def isPlainChar (c : Char) : Bool := !"\"'=<>".toList.contains c

/-- An attribute with a name of word characters and hyphens, and a value in quotes that holds
neither quotes nor equals signs nor angle brackets. -/
def Attribute.IsPlain (a : Attribute) : Prop :=
  (∀ c ∈ a.name, isAttributeChar c = true) ∧
    ∃ text, a.value = .quoted text ∧ ∀ c ∈ text, isPlainChar c = true

/-- The name ends in one from a set, behind a hyphen. -/
def EndsIn (isName : List Char → Prop) (name : List Char) : Prop :=
  ∃ first base, name = first ++ '-' :: base ∧ isName base

/-- The name is one from a set, or ends in one behind a hyphen. -/
def PassesFor (isName : List Char → Prop) (name : List Char) : Prop :=
  isName name ∨ EndsIn isName name

/-- The attribute hides a control, if its name is that of a type. -/
def Attribute.Hides (isType : List Char → Prop) (a : Attribute) : Prop :=
  isType a.name ∧ ∃ text, a.value = .quoted text ∧ InAnyCase "hidden" text

/-- The name ends in that of a prop that describes an image in another way. -/
def EndsAsEquivalent (name : List Char) : Prop := ∃ prop ∈ altEquivalents, prop.toList <:+ name

variable {a : Attribute}

/-- A plain attribute has one equals sign, behind its name. -/
theorem Attribute.IsPlain.text_eq_iff (ha : a.IsPlain) :
    a.text = s ++ '=' :: t ↔ s = a.name ∧ t = a.value.written := by
  obtain ⟨hname, text, hvalue, htext⟩ := ha
  constructor
  · intro h
    have hin : '=' ∉ a.name := fun hmem => absurd (hname _ hmem) (by decide)
    have hout : '=' ∉ a.value.written := by
      have hin : '=' ∉ text := fun hmem => absurd (htext _ hmem) (by decide)
      simp [hvalue, AttributeValue.written, hin]
    obtain ⟨rfl, rfl⟩ := append_cons_inj_of_once hin hout h
    exact ⟨rfl, rfl⟩
  · rintro ⟨rfl, rfl⟩
    rfl

theorem Attribute.IsPlain.not_blank (ha : a.IsPlain) {gap : List Char}
    (hname : a.name = s ++ gap) (hgap : ∀ c ∈ gap, Text.isBlank c = true) : gap = [] := by
  cases gap with
  | nil => rfl
  | cons c gap =>
      have hblank := hgap c List.mem_cons_self
      exact absurd (ha.1 c (by simp [hname])) (by simp [IsSeparator.isAttributeChar (.inl hblank)])

/-- A word begins at a place of a name exactly at its beginning and behind its hyphens. -/
theorem Attribute.IsPlain.any_behind_iff (ha : a.IsPlain) (hname : a.name = s ++ t) :
    (behind none s).any Text.isWord = false ↔ s = [] ∨ ∃ first, s = first ++ ['-'] := by
  rcases List.eq_nil_or_concat s with rfl | ⟨first, c, rfl⟩
  · simp
  · have hc : Text.isWord c = false ↔ c = '-' := by
      have hchar := ha.1 c (by simp [hname])
      constructor
      · intro hword
        simpa [isAttributeChar, hword] using hchar
      · rintro rfl
        decide
    rw [List.concat_eq_append, behind_append, behind_cons, behind_nil, Option.any_some, hc]
    simp

theorem Attribute.IsPlain.passesFor_iff (ha : a.IsPlain) :
    PassesFor isName a.name ↔
      ∃ s base, a.name = s ++ base ∧ isName base ∧ (behind none s).any Text.isWord = false := by
  constructor
  · rintro (hbase | ⟨first, base, hname, hbase⟩)
    · exact ⟨[], a.name, rfl, hbase, rfl⟩
    · refine ⟨first ++ ['-'], base, by simp [hname], hbase, ?_⟩
      exact (ha.any_behind_iff (t := base) (by simp [hname])).mpr (.inr ⟨first, rfl⟩)
  · rintro ⟨s, base, hname, hbase, hbehind⟩
    rcases (ha.any_behind_iff hname).mp hbehind with rfl | ⟨first, rfl⟩
    · exact .inl (hname ▸ hbase)
    · exact .inr ⟨first, base, by simp [hname], hbase⟩

/-- A plain attribute is taken for one with a name from a set exactly when its name passes for
one. -/
theorem Attribute.IsPlain.occursIn_attributeOf_iff (ha : a.IsPlain)
    (hnames : AttributeNames names isName) :
    (attributeOf names).occursIn a.text = true ↔ PassesFor isName a.name := by
  rw [occursIn_iff (recalls_attributeOf hnames), ha.passesFor_iff]
  simp only [covers_attributeOf_iff hnames]
  constructor
  · rintro ⟨s, _, after, heq, hbehind, base, gap, rfl, hbase, hgap⟩
    have hsplit : a.text = (s ++ base ++ gap) ++ '=' :: after := by simp [heq]
    obtain ⟨hname, -⟩ := ha.text_eq_iff.mp hsplit
    obtain rfl := ha.not_blank hname.symm hgap
    exact ⟨s, base, by simpa using hname.symm, hbase, hbehind⟩
  · rintro ⟨s, base, hname, hbase, hbehind⟩
    refine ⟨s, _, a.value.written, ?_, hbehind, base, [], rfl, hbase, by simp⟩
    simp [Attribute.text, hname]

/-- What stands in quotes of either kind at the beginning of a value is the whole value. -/
theorem eq_of_quoted {gap text value rest : List Char} {q q' : Char}
    (hgap : ∀ c ∈ gap, Text.isBlank c = true) (hq' : q' ∈ "'\"".toList) (hquote : '"' ∉ text)
    (happ : '\'' ∉ text) (hvalue : '"' ∉ value)
    (h : gap ++ q :: (value ++ q' :: rest) = (AttributeValue.quoted text).written) :
    value = text := by
  cases gap with
  | cons c gap =>
      obtain ⟨rfl, -⟩ := List.cons.inj h
      exact absurd (hgap _ List.mem_cons_self) (by decide)
  | nil =>
      obtain ⟨-, hrest⟩ := List.cons.inj h
      have hmem : q' ∈ text ++ ['"'] := by
        rw [← hrest]
        simp
      have hq : q' = '"' := by
        have hmark : q' = '\'' ∨ q' = '"' := by simpa using hq'
        rcases hmark with rfl | rfl
        · exact absurd hmem (by simp [happ])
        · rfl
      exact (append_cons_inj hvalue hquote (hq ▸ hrest)).1

theorem Attribute.IsPlain.occursIn_hiddenInput_iff (ha : a.IsPlain) :
    hiddenInput.occursIn a.text = true ↔ a.Hides (PassesFor (InAnyCase "type")) := by
  obtain ⟨text, hvalue, htext⟩ := ha.2
  rw [occursIn_iff (by decide), Attribute.Hides, ha.passesFor_iff]
  simp only [covers_hiddenInput_iff]
  constructor
  · rintro ⟨s, _, after, heq, hbehind, base, gap, gap', value, q, q', rfl, hbase, hhidden,
      hgap, hgap', hq, hq'⟩
    have hsplit :
        a.text = (s ++ base ++ gap) ++ '=' :: (gap' ++ q :: (value ++ q' :: after)) := by simp [heq]
    obtain ⟨hname, hwritten⟩ := ha.text_eq_iff.mp hsplit
    obtain rfl := ha.not_blank hname.symm hgap
    refine ⟨⟨s, base, by simpa using hname.symm, hbase, hbehind⟩, text, hvalue, ?_⟩
    rw [hvalue] at hwritten
    exact eq_of_quoted hgap' hq' (fun hmem => absurd (htext _ hmem) (by decide))
      (fun hmem => absurd (htext _ hmem) (by decide))
      (fun hmem => absurd (wordNames_hidden.isWord_of_mem value hhidden _ hmem) (by decide))
      hwritten ▸ hhidden
  · rintro ⟨⟨s, base, hname, hbase, hbehind⟩, text', hvalue', hhidden⟩
    refine ⟨s, _, [], ?_, hbehind, base, [], [], text', '"', '"', rfl, hbase,
      hhidden, by simp, by simp, by decide, by decide⟩
    simp [Attribute.text, hname, hvalue', AttributeValue.written]

theorem Attribute.IsPlain.hasAltEquivalent_iff (ha : a.IsPlain) :
    hasAltEquivalent a.text = true ↔ EndsAsEquivalent a.name := by
  rw [Accessibility.hasAltEquivalent_iff, CarriesEquivalent, EndsAsEquivalent]
  refine exists_congr fun prop => and_congr_right fun _ => ?_
  constructor
  · rintro ⟨above, below, heq⟩
    have hsplit : a.text = (above ++ prop.toList) ++ '=' :: below := by simp [heq]
    exact ⟨above, (ha.text_eq_iff.mp hsplit).1⟩
  · rintro ⟨above, hname⟩
    exact ⟨above, a.value.written, by simp [Attribute.text, ← hname]⟩

theorem Attribute.IsPlain.not_mem_text (ha : a.IsPlain) : '>' ∉ a.text := by
  obtain ⟨hname, text, hvalue, htext⟩ := ha
  have hin : '>' ∉ a.name := fun hmem => absurd (hname _ hmem) (by decide)
  have hout : '>' ∉ text := fun hmem => absurd (htext _ hmem) (by decide)
  simp [Attribute.text, hvalue, AttributeValue.written, hin, hout]

theorem not_endsIn_of_not_mem {name : List Char} (h : '-' ∉ name) : ¬EndsIn isName name := by
  rintro ⟨first, base, rfl, -⟩
  exact h (by simp)

theorem passesFor_iff_of_not_endsIn {name : List Char} (h : ¬EndsIn isName name) :
    PassesFor isName name ↔ isName name :=
  or_iff_left h

/-- What is reported of a tag with plain attributes. An attribute counts whose name passes for that
of an `id`, of a label, of a type or of an `alt`, or ends in that of a prop that stands in for
`alt`. So the names are told exactly where none merely ends in such a name. -/
theorem plain_tag_reported_iff (line : TagLine) (hplain : ∀ a ∈ line.attributes, a.IsPlain)
    (index : Nat) (source : Source) :
    (IsControlName line.element →
      (detectMissingFormLabel line.text index source = [] ↔ ∃ a ∈ line.attributes,
        PassesFor IsLabelName a.name ∨ a.Hides (PassesFor (InAnyCase "type"))) ∧
      ((∀ a ∈ line.attributes, ¬EndsIn IsLabelName a.name ∧ ¬EndsIn (InAnyCase "type") a.name) →
        (detectMissingFormLabel line.text index source = [] ↔ ∃ a ∈ line.attributes,
          IsLabelName a.name ∨ a.Hides (InAnyCase "type")))) ∧
    (IsImageName line.element → usesComponent line.text source.components = false →
      (detectMissingAlt line.text index source = [] ↔ ∃ a ∈ line.attributes,
        PassesFor IsAltName a.name ∨ EndsAsEquivalent a.name) ∧
      ((∀ a ∈ line.attributes, ¬EndsIn IsAltName a.name ∧
          (EndsAsEquivalent a.name → a.name ∈ altEquivalents.map String.toList)) →
        (detectMissingAlt line.text index source = [] ↔ ∃ a ∈ line.attributes,
          IsAltName a.name ∨ a.name ∈ altEquivalents.map String.toList))) := by
  have hunbroken : line.Unbroken := fun a ha => (hplain a ha).not_mem_text
  constructor
  · intro hcontrol
    have hpasses : detectMissingFormLabel line.text index source = [] ↔ ∃ a ∈ line.attributes,
        PassesFor IsLabelName a.name ∨ a.Hides (PassesFor (InAnyCase "type")) := by
      rw [line.detectMissingFormLabel_eq hcontrol hunbroken, ite_eq_left_iff, List.any_eq_true]
      simp only [List.cons_ne_nil, imp_false, not_not, Bool.or_eq_true]
      refine exists_congr fun a => and_congr_right fun ha => ?_
      rw [labelHook_eq_attributeOf, (hplain a ha).occursIn_attributeOf_iff attributeNames_label,
        (hplain a ha).occursIn_hiddenInput_iff]
    refine ⟨hpasses, fun hexact => hpasses.trans ?_⟩
    refine exists_congr fun a => and_congr_right fun ha => ?_
    rw [passesFor_iff_of_not_endsIn (hexact a ha).1, Attribute.Hides,
      passesFor_iff_of_not_endsIn (hexact a ha).2, Attribute.Hides]
  · intro himage hcomponents
    have hpasses : detectMissingAlt line.text index source = [] ↔ ∃ a ∈ line.attributes,
        PassesFor IsAltName a.name ∨ EndsAsEquivalent a.name := by
      rw [line.detectMissingAlt_eq himage hunbroken, hcomponents, Bool.false_or, ite_eq_left_iff,
        List.any_eq_true]
      simp only [List.cons_ne_nil, imp_false, not_not, Bool.or_eq_true]
      refine exists_congr fun a => and_congr_right fun ha => ?_
      rw [altAttribute_eq_attributeOf, (hplain a ha).occursIn_attributeOf_iff attributeNames_alt,
        (hplain a ha).hasAltEquivalent_iff]
    refine ⟨hpasses, fun hexact => hpasses.trans ?_⟩
    refine exists_congr fun a => and_congr_right fun ha => ?_
    have hequiv : EndsAsEquivalent a.name ↔ a.name ∈ altEquivalents.map String.toList := by
      refine ⟨(hexact a ha).2, fun hmem => ?_⟩
      obtain ⟨prop, hprop, hname⟩ := List.mem_map.mp hmem
      exact ⟨prop, hprop, hname ▸ List.suffix_refl _⟩
    rw [passesFor_iff_of_not_endsIn (hexact a ha).1, hequiv]

/-- An attribute behind a space. -/
def Attribute.behindSpace (a : Attribute) : SpacedAttribute :=
  ⟨a, [' '], List.cons_ne_nil _ _, List.forall_mem_singleton.mpr rfl⟩

/-- An attribute with its value in quotes. -/
def quotedAttribute (name text : String) : SpacedAttribute :=
  Attribute.behindSpace ⟨name.toList, .quoted text.toList⟩

/-- An attribute in quotes is plain if the characters of its name and of its value are. -/
theorem isPlain_quotedAttribute {name text : String}
    (hname : name.toList.all isAttributeChar = true) (htext : text.toList.all isPlainChar = true) :
    (quotedAttribute name text).IsPlain :=
  ⟨List.all_eq_true.mp hname, _, rfl, List.all_eq_true.mp htext⟩

/-- A line that consists of a tag. -/
def TagLine.bare (element : String) (attributes : List SpacedAttribute) : TagLine :=
  ⟨[], element.toList, attributes, [], [], List.not_mem_nil, List.forall_mem_nil _,
    List.not_mem_nil⟩

/-- A control with an `id`, and an image with an `alt`. -/
def namedControl : TagLine :=
  .bare "input" [quotedAttribute "name" "q", quotedAttribute "id" "query"]

def describedImage : TagLine :=
  .bare "img" [quotedAttribute "src" "a.png", quotedAttribute "alt" "The old mill"]

theorem plain_tag_reported_iff_named :
    ((∀ a ∈ namedControl.attributes, a.IsPlain) ∧ IsControlName namedControl.element ∧
      detectMissingFormLabel namedControl.text 0 plainSource = []) ∧
    ((∀ a ∈ describedImage.attributes, a.IsPlain) ∧ IsImageName describedImage.element ∧
      detectMissingAlt describedImage.text 0 plainSource = []) := by
  have hcontrol : ∀ a ∈ namedControl.attributes, a.IsPlain :=
    List.forall_mem_cons.mpr ⟨isPlain_quotedAttribute (by decide) (by decide),
      List.forall_mem_singleton.mpr (isPlain_quotedAttribute (by decide) (by decide))⟩
  have himage : ∀ a ∈ describedImage.attributes, a.IsPlain :=
    List.forall_mem_cons.mpr ⟨isPlain_quotedAttribute (by decide) (by decide),
      List.forall_mem_singleton.mpr (isPlain_quotedAttribute (by decide) (by decide))⟩
  have hinput : IsControlName namedControl.element := by decide
  have himg : IsImageName describedImage.element := by decide
  refine ⟨⟨hcontrol, hinput, ?_⟩, himage, himg, ?_⟩
  · exact ((plain_tag_reported_iff namedControl hcontrol 0 plainSource).1 hinput).1.mpr
      ⟨_, List.mem_cons_of_mem _ List.mem_cons_self, .inl (.inl (by decide))⟩
  · exact ((plain_tag_reported_iff describedImage himage 0 plainSource).2 himg rfl).1.mpr
      ⟨_, List.mem_cons_of_mem _ List.mem_cons_self, .inl (.inl rfl)⟩

/-- A control whose only attribute ends in the name of an `id`, and an image whose only attribute
ends in that of an `alt`. -/
def testControl : TagLine := .bare "input" [quotedAttribute "data-id" "q"]

def testImage : TagLine := .bare "img" [quotedAttribute "data-alt" "q"]

/-- An attribute that merely ends in such a name keeps the tag from being reported. -/
theorem unlabelled_control_not_reported :
    (testControl.text = "<input data-id=\"q\">".toList ∧ IsControlName testControl.element ∧
      (∀ a ∈ testControl.attributes, ¬IsLabelName a.name ∧ ¬InAnyCase "type" a.name) ∧
      detectMissingFormLabel testControl.text 0 plainSource = []) ∧
    (testImage.text = "<img data-alt=\"q\">".toList ∧ IsImageName testImage.element ∧
      usesComponent testImage.text plainSource.components = false ∧
      (∀ a ∈ testImage.attributes, ¬IsAltName a.name ∧ a.name ∉ altEquivalents.map String.toList) ∧
      detectMissingAlt testImage.text 0 plainSource = []) := by
  decide +kernel

end FrontendAudit.Accessibility
