import FrontendAudit.Proofs.Rule.Accessibility.AltText

/-!
# The order of attributes

The order of the attributes of an image or of a control does not matter for what is reported of it,
as long as its tag goes on to the first `>` behind it and no tag begins within an attribute. For the
two checks of alternative texts the quotes in the attributes must besides be closed where they are
opened, and the attributes must not give two different texts, for the first one counts.

A `>` in an attribute, as in an arrow function, ends the tag there, and what comes behind it is not
seen. Each attribute is searched by itself (`TagLine.firstFrom?_tag`), so that the order can matter
only for what is taken from the first of several.
-/

namespace FrontendAudit.Accessibility

open Pattern

variable {names : Pattern} {isName : List Char → Prop} {before : Option Char}
  {s t after : List Char} {texts : List (List Char)} {line line' : TagLine}

/-! ## Where tags begin -/

/-- The beginning of a tag of an element, its name given by a pattern. -/
def openingOf (names : Pattern) : Pattern := seqs [word "<", names, .boundary]

theorem componentUse_eq_openingOf (name : String) : componentUse name = openingOf (word name) := rfl

/-- A text in which no character stands that ends an attribute or stands behind one. -/
def IsTidy (name : List Char) : Prop := ∀ c ∈ name, ¬IsSeparator c ∧ c ≠ '"' ∧ c ≠ '}'

/-- The text begins as a tag does whose name has the property. -/
def OpensTag (isName : List Char → Prop) (s : List Char) : Prop :=
  ∃ name rest, s = '<' :: (name ++ rest) ∧ isName name ∧
    Text.isBoundary (behind (some '<') name) rest.head? = true

theorem recalls_openingOf (hnames : CoversNames names isName) :
    (openingOf names).recalls = false := by
  rw [openingOf, recalls_seqs]
  simp [hnames.recalls, recalls]

theorem covers_openingOf_iff (hnames : CoversNames names isName) :
    Covers (openingOf names) before t after ↔ ∃ name, t = '<' :: name ∧ isName name ∧
      Text.isBoundary (behind (some '<') name) after.head? = true := by
  simp only [openingOf, covers_seqs_cons, covers_seqs_nil, covers_word_iff,
    hnames.covers_iff, Covers]
  constructor
  · rintro ⟨_, _, rfl, rfl, name, _, rfl, hname, _, _, rfl, ⟨rfl, hboundary⟩, rfl⟩
    exact ⟨name, by simp, hname, by simpa using hboundary⟩
  · rintro ⟨name, rfl, hname, hboundary⟩
    exact ⟨['<'], name, rfl, rfl, name, [], by simp, hname, [], [], rfl,
      ⟨rfl, by simpa using hboundary⟩, rfl⟩

theorem isSome_matchAt?_openingOf (hnames : CoversNames names isName) :
    ((openingOf names).matchAt? before s).isSome = true ↔ OpensTag isName s := by
  rw [isSome_matchAt?_iff (recalls_openingOf hnames)]
  simp only [covers_openingOf_iff hnames]
  constructor
  · rintro ⟨_, after, rfl, name, rfl, hname, hboundary⟩
    exact ⟨name, after, rfl, hname, hboundary⟩
  · rintro ⟨name, after, rfl, hname, hboundary⟩
    exact ⟨'<' :: name, after, rfl, name, rfl, hname, hboundary⟩

theorem occursIn_openingOf_iff (hnames : CoversNames names isName) :
    (openingOf names).occursIn s = true ↔ ∃ s₁ s₂, s = s₁ ++ s₂ ∧ OpensTag isName s₂ := by
  rw [occursIn_iff (recalls_openingOf hnames)]
  simp only [covers_openingOf_iff hnames]
  constructor
  · rintro ⟨s₁, _, after, rfl, name, rfl, hname, hboundary⟩
    exact ⟨s₁, _, rfl, name, after, rfl, hname, hboundary⟩
  · rintro ⟨s₁, _, rfl, name, after, rfl, hname, hboundary⟩
    exact ⟨s₁, '<' :: name, after, rfl, name, rfl, hname, hboundary⟩

theorem found_openingOf_congr (hnames : CoversNames names isName) {before' : Option Char}
    (h : OpensTag isName s ↔ OpensTag isName t) :
    found (openingOf names) before s = found (openingOf names) before' t :=
  found_congr (by rw [isSome_matchAt?_openingOf hnames, isSome_matchAt?_openingOf hnames, h])

theorem found_openingOf_eq_none (hnames : CoversNames names isName) (hs : s.head? ≠ some '<') :
    found (openingOf names) before s = none := by
  rw [found, Option.map_eq_none_iff, ← Option.not_isSome_iff_eq_none,
    isSome_matchAt?_openingOf hnames]
  rintro ⟨name, rest, rfl, -⟩
  exact hs rfl

theorem found_openingOf_append (hnames : CoversNames names isName) (hne : s ≠ []) (hs : '<' ∉ s) :
    found (openingOf names) before (s ++ t) = found (openingOf names) before s := by
  have hhead : s.head? ≠ some '<' := fun h => hs (List.mem_of_mem_head? h)
  rw [found_openingOf_eq_none hnames hhead, found_openingOf_eq_none hnames]
  rwa [List.head?_append_of_ne_nil _ hne]

/-- Where no `<` stands no tag begins. -/
theorem firstFrom?_openingOf_eq_none (hnames : CoversNames names isName) (hs : '<' ∉ s) :
    firstFrom? (found (openingOf names)) before s = none :=
  firstFrom?_eq_none_iff.mpr fun s₁ _ heq => found_openingOf_eq_none hnames fun h =>
    hs (heq ▸ List.mem_append_right s₁ (List.mem_of_mem_head? h))

theorem IsTidy.not_mem {name : List Char} {c : Char} (h : IsTidy name) (hc : c = '"' ∨ c = '}') :
    c ∉ '<' :: name := by
  intro hmem
  rcases List.mem_cons.mp hmem with rfl | hmem
  · rcases hc with hc | hc <;> exact absurd hc (by decide)
  · exact hc.elim (h c hmem).2.1 (h c hmem).2.2

/-- No tag that has just begun ends as an attribute does. -/
theorem IsTidy.not_endsClosed {name : List Char} (h : IsTidy name) : ¬EndsClosed ('<' :: name) :=
  fun ⟨_, hlast, hc⟩ => h.not_mem hc (List.mem_of_getLast? hlast)

/-- A tag that begins in an attribute begins there whatever stands behind the attribute. -/
theorem opensTag_append_iff (htidy : ∀ name, isName name → IsTidy name) (hend : EndsClosed s) :
    OpensTag isName (s ++ t) ↔ OpensTag isName s := by
  constructor
  · rintro ⟨name, rest, heq, hname, hboundary⟩
    have hnot := (htidy name hname).not_endsClosed
    obtain ⟨u, rfl⟩ := hend.exists_append (x := '<' :: name) ((htidy name hname).not_mem (.inl rfl))
      ((htidy name hname).not_mem (.inr rfl)) heq
    cases u with
    | nil => exact absurd (by simpa using hend) hnot
    | cons c u =>
        obtain rfl : c :: u ++ t = rest := by simpa using heq
        exact ⟨name, c :: u, rfl, hname, hboundary⟩
  · rintro ⟨name, rest, rfl, hname, hboundary⟩
    cases rest with
    | nil => exact absurd (by simpa using hend) (htidy name hname).not_endsClosed
    | cons c rest => exact ⟨name, c :: rest ++ t, by simp, hname, hboundary⟩

/-- What stands behind the name of the element decides nothing, as long as it stands apart. -/
theorem opensTag_element_iff (htidy : ∀ name, isName name → IsTidy name) {element : List Char}
    (ht : Separated t) :
    OpensTag isName ('<' :: element ++ t) ↔ OpensTag isName ('<' :: element) := by
  have hapart : t.head?.any Text.isWord = false := by
    rw [Option.any_eq_false]
    exact fun c hc => by simpa using (ht c hc).isWord
  constructor
  · rintro ⟨name, rest, heq, hname, hboundary⟩
    rcases List.append_eq_append_iff.mp (List.cons.inj heq).2 with ⟨more, rfl, hmore⟩ |
      ⟨more, rfl, rfl⟩
    · cases more with
      | nil =>
          refine ⟨element, [], by simp, by simpa using hname, ?_⟩
          obtain rfl : t = rest := by simpa using hmore
          simpa [Text.isBoundary, hapart] using hboundary
      | cons c more =>
          have hsep : IsSeparator c := ht c (by simp [hmore])
          exact absurd hsep (htidy _ hname c (by simp)).1
    · refine ⟨name, more, rfl, hname, ?_⟩
      cases more with
      | nil => simpa [Text.isBoundary, hapart] using hboundary
      | cons c more => exact hboundary
  · rintro ⟨name, rest, heq, hname, hboundary⟩
    obtain ⟨-, rfl⟩ := List.cons.inj heq
    refine ⟨name, rest ++ t, by simp, hname, ?_⟩
    cases rest with
    | nil => simpa [Text.isBoundary, hapart] using hboundary
    | cons c rest => exact hboundary

theorem findsWithin_openingOf (hnames : CoversNames names isName)
    (htidy : ∀ name, isName name → IsTidy name)
    (htexts : ∀ a ∈ texts, ∀ s₁ s₂, a = s₁ ++ s₂ → s₂ ≠ [] → EndsClosed s₂) :
    FindsWithin (found (openingOf names)) texts where
  nil _ := found_openingOf_eq_none hnames (by simp)
  separator _ c s hsep := by
    refine found_openingOf_eq_none hnames fun h => ?_
    obtain rfl : c = '<' := by simpa using h
    rcases hsep with h | h | h <;> exact absurd h (by decide)
  behind_separator _ _ _ := found_openingOf_congr hnames Iff.rfl
  within a ha s₁ s₂ _ heq hne _ :=
    found_openingOf_congr hnames (opensTag_append_iff htidy (htexts a ha s₁ s₂ heq hne))

/-- A tag begins in a line with the element itself, or in an attribute. -/
theorem TagLine.occursIn_openingOf (line : TagLine) (hnames : CoversNames names isName)
    (htidy : ∀ name, isName name → IsTidy name) (helement : '<' ∉ line.element) :
    (openingOf names).occursIn line.text =
      ((openingOf names).occursIn ('<' :: line.element) ||
        line.attributes.any fun a => (openingOf names).occursIn a.text) := by
  have hfinds := findsWithin_openingOf hnames htidy line.endsClosed_of_mem
  have htext : line.text = line.above ++ (('<' :: line.element) ++
      (line.attributes.flatMap (fun a => a.gap ++ a.text) ++
        (line.closing ++ '>' :: line.below))) := by
    simp [TagLine.text, inner]
  have hbelow := line.separated_below
  have hnone : '<' ∉ line.closing ++ '>' :: line.below := by
    intro hmem
    rcases List.mem_append.mp hmem with hmem | hmem
    · exact absurd (line.isSeparator_of_mem_closing _ hmem) (by decide)
    · exact (List.mem_cons.mp hmem).elim (by decide) line.not_mem_below
  have hbehind :
      firstFrom? (found (openingOf names)) (behind none line.above) ('<' :: line.element) =
      firstFrom? (found (openingOf names)) none ('<' :: line.element) :=
    firstFrom?_congr_before (found_openingOf_congr hnames Iff.rfl)
  rw [occursIn_eq_isSome, htext, firstFrom?_append hfinds.nil,
    firstFrom?_openingOf_eq_none hnames line.not_mem_above, Option.none_or,
      firstFrom?_append hfinds.nil,
    hbehind, firstFrom?_attributes line.attributes hfinds hbelow,
      firstFrom?_openingOf_eq_none hnames hnone,
    Option.or_none, Option.isSome_or, List.isSome_findSome?]
  · simp only [occursIn_eq_isSome]
  · intro s₁ s₂ heq hne
    cases s₁ with
    | nil =>
        have hrest := separated_attributes line.attributes hbelow
        rw [List.nil_append] at heq
        rw [← heq]
        exact found_openingOf_congr hnames (opensTag_element_iff htidy hrest)
    | cons c s₁ =>
        obtain ⟨-, hsplit⟩ := List.cons.inj heq
        exact found_openingOf_append hnames hne (fun h => helement (by simp [hsplit, h]))
  · intro s₁ s₂ heq hne
    exact found_openingOf_append hnames hne (fun h => line.not_mem_above (by simp [heq, h]))

/-! ## Tags of other elements -/

/-- A tag of such an element begins in the text. -/
def BeginsTag (isName : List Char → Prop) (s : List Char) : Prop :=
  ∃ s₁ name s₂, s = s₁ ++ '<' :: (name ++ s₂) ∧ isName name ∧ s₂.head?.any Text.isWord = false

theorem occursIn_openingOf_iff_beginsTag (hnames : ElementNames names isName) :
    (openingOf names).occursIn s = true ↔ BeginsTag isName s := by
  rw [occursIn_openingOf_iff hnames.toCoversNames]
  constructor
  · rintro ⟨s₁, _, rfl, name, s₂, rfl, hname, hboundary⟩
    exact ⟨s₁, name, s₂, rfl, hname, (hnames.isBoundary_iff hname _).mp hboundary⟩
  · rintro ⟨s₁, name, s₂, rfl, hname, hnext⟩
    exact ⟨s₁, _, rfl, name, s₂, rfl, hname, (hnames.isBoundary_iff hname _).mpr hnext⟩

theorem WordNames.isTidy (hnames : WordNames isName) {name : List Char} (hname : isName name) :
    IsTidy name := by
  intro c hc
  have hword := hnames.isWord_of_mem name hname c hc
  refine ⟨fun hsep => absurd hword (by simp [hsep.isWord]), ?_, ?_⟩
  all_goals
    rintro rfl
    exact absurd hword (by decide)

/-- Where no tag of such an element begins none is found. -/
theorem allMatches_eq_nil_of_not_beginsTag (hnames : ElementNames names isName)
    (h : ¬BeginsTag isName s) :
    (tagOf names).allMatches s = [] := by
  refine allMatches_tagOf_eq_nil hnames ?_
  rintro above body below rfl - ⟨name, rest, rfl, hname, hboundary⟩
  refine h ⟨above, name, rest ++ '>' :: below, by simp, hname, ?_⟩
  have hnext := (hnames.isBoundary_iff hname _).mp hboundary
  rwa [List.head?_append] at hnext ⊢

/-- In the tag of another element none is found, if none begins in its attributes. -/
theorem TagLine.allMatches_eq_nil (line : TagLine) (hnames : ElementNames names isName)
    (hword : ∀ c ∈ line.element, Text.isWord c = true) (hother : ¬isName line.element)
    (hattributes : ∀ a ∈ line.attributes, ¬BeginsTag isName a.text) :
    (tagOf names).allMatches line.text = [] := by
  have hbracket : '<' ∉ line.element := fun h => absurd (hword _ h) (by decide)
  have helement : ¬BeginsTag isName ('<' :: line.element) := by
    rintro ⟨s₁, name, s₂, heq, hname, hnext⟩
    cases s₁ with
    | nil =>
        obtain ⟨-, heq⟩ := List.cons.inj heq
        cases s₂ with
        | nil => exact hother (by simpa [heq] using hname)
        | cons c s₂ => exact absurd (hword c (by simp [heq])) (by simpa using hnext)
    | cons c s₁ =>
        obtain ⟨-, heq⟩ := List.cons.inj heq
        exact hbracket (by simp [heq])
  refine allMatches_eq_nil_of_not_beginsTag hnames ?_
  rw [← occursIn_openingOf_iff_beginsTag hnames,
    line.occursIn_openingOf hnames.toCoversNames (fun _ => hnames.isTidy) hbracket, Bool.or_eq_true,
    occursIn_openingOf_iff_beginsTag hnames, List.any_eq_true]
  rintro (h | ⟨a, ha, h⟩)
  · exact helement h
  · exact hattributes a ha ((occursIn_openingOf_iff_beginsTag hnames).mp h)

theorem IsImageName.not_control {name : List Char} (h : IsImageName name) :
    ¬IsControlName name := by
  rcases h with h | rfl
  · intro hcontrol
    exact absurd hcontrol.le_length (by rw [h.length_eq]; decide)
  · decide

/-! ## Lines with the same attributes -/

/-- The attributes without the blanks between them. -/
def TagLine.listed (line : TagLine) : List Attribute := line.attributes.map (·.toAttribute)

/-- The second line has the tag of the first with its attributes in another order. -/
structure TagLine.Rearranges (line line' : TagLine) : Prop where
  element_eq : line'.element = line.element
  perm : line'.listed.Perm line.listed

/-- The tag is seen as a whole, and no other: no attribute holds a `>`, or the beginning of a tag of
the other kind. -/
structure TagLine.IsWhole (line : TagLine) : Prop where
  unbroken : line.Unbroken
  no_control : IsImageName line.element → ∀ a ∈ line.attributes, ¬BeginsTag IsControlName a.text
  no_image : IsControlName line.element → ∀ a ∈ line.attributes, ¬BeginsTag IsImageName a.text

/-- The attributes give one alternative text at most. -/
structure TagLine.GivesOneText (line : TagLine) : Prop where
  closed : ∀ a ∈ line.attributes, a.Closed
  agree : ∀ a ∈ line.attributes, ∀ b ∈ line.attributes, ∀ v w,
    a.altText? = some v → b.altText? = some w → v = w

/-- Two sources of one path for which the same components take care of accessibility. -/
structure Source.Shares (source source' : Source) : Prop where
  path_eq : source'.path = source.path
  components_eq : source'.components = source.components

/-- A finding without the lines that it quotes. -/
def unquoted (f : Finding) : Finding := { f with code := none, context := none }

variable {source source' : Source}

theorem TagLine.Rearranges.symm (h : line.Rearranges line') : line'.Rearranges line :=
  ⟨h.element_eq.symm, h.perm.symm⟩

theorem TagLine.Rearranges.forall_attributes (h : line.Rearranges line') {P : Attribute → Prop}
    (hall : ∀ a ∈ line.attributes, P a.toAttribute) : ∀ a ∈ line'.attributes, P a.toAttribute := by
  intro a ha
  have hmem : a.toAttribute ∈ line.listed := h.perm.mem_iff.mp (List.mem_map_of_mem ha)
  obtain ⟨b, hb, heq⟩ := List.mem_map.mp hmem
  exact heq ▸ hall b hb

theorem TagLine.Rearranges.any_eq (h : line.Rearranges line') (f : Attribute → Bool) :
    (line'.attributes.any fun a => f a.toAttribute) = line.attributes.any fun a =>
      f a.toAttribute := by
  have hlisted : ∀ l : TagLine, (l.attributes.any fun a => f a.toAttribute) = l.listed.any f :=
    fun l => by
    rw [listed, List.any_map]
    rfl
  rw [hlisted, hlisted, Bool.eq_iff_iff, List.any_eq_true, List.any_eq_true]
  exact exists_congr fun a => and_congr_left fun _ => h.perm.mem_iff

/-- What all elements of a list agree on is found in any order. -/
theorem findSome?_eq_of_perm {α β : Type} {f : α → Option β} {xs ys : List α} (h : ys.Perm xs)
    (hagree : ∀ a ∈ xs, ∀ b ∈ xs, ∀ v w, f a = some v → f b = some w → v = w) :
    ys.findSome? f = xs.findSome? f := by
  have hfound : ∀ zs : List α, zs.Perm xs → ∀ v, zs.findSome? f = some v ↔
      ∃ a ∈ xs, f a = some v := by
    intro zs hzs v
    constructor
    · intro hv
      obtain ⟨a, ha, hfa⟩ := List.exists_of_findSome?_eq_some hv
      exact ⟨a, hzs.mem_iff.mp ha, hfa⟩
    · rintro ⟨a, ha, hfa⟩
      have hsome : (zs.findSome? f).isSome = true :=
        List.findSome?_isSome_iff.mpr ⟨a, hzs.mem_iff.mpr ha, by rw [hfa]; rfl⟩
      obtain ⟨w, hw⟩ := Option.isSome_iff_exists.mp hsome
      obtain ⟨b, hb, hfb⟩ := List.exists_of_findSome?_eq_some hw
      rw [hw, hagree b (hzs.mem_iff.mp hb) a ha w v hfb hfa]
  exact Option.ext fun v => by rw [hfound ys h, hfound xs (.refl xs)]

theorem TagLine.Rearranges.findSome?_eq (h : line.Rearranges line') (hone : line.GivesOneText) :
    (line'.attributes.findSome? fun a => a.altText?) = line.attributes.findSome? fun a =>
      a.altText? := by
  have hlisted : ∀ l : TagLine,
      (l.attributes.findSome? fun a => a.altText?) =
        l.listed.findSome? Attribute.altText? := fun l => by
    rw [listed, List.findSome?_map]
    rfl
  rw [hlisted, hlisted]
  refine findSome?_eq_of_perm h.perm ?_
  simp only [TagLine.listed, List.forall_mem_map]
  exact hone.agree

theorem TagLine.Rearranges.isWhole (h : line.Rearranges line') (hwhole : line.IsWhole) :
    line'.IsWhole where
  unbroken := h.forall_attributes (P := fun a => '>' ∉ a.text) hwhole.unbroken
  no_control himage := h.forall_attributes (P := fun a => ¬BeginsTag IsControlName a.text)
    (hwhole.no_control (h.element_eq ▸ himage))
  no_image hcontrol := h.forall_attributes (P := fun a => ¬BeginsTag IsImageName a.text)
    (hwhole.no_image (h.element_eq ▸ hcontrol))

/-- The same components are used in both lines. -/
theorem TagLine.Rearranges.usesComponent_eq (h : line.Rearranges line')
    (hsource : source.Shares source') (helement : '<' ∉ line.element)
    (hcomponents : ∀ name ∈ source.components, IsTidy name.toList) :
    usesComponent line'.text source'.components = usesComponent line.text source.components := by
  have huse : ∀ name ∈ source.components, ∀ l : TagLine, l.element = line.element →
      (componentUse name).occursIn l.text = ((componentUse name).occursIn ('<' :: l.element) ||
        l.attributes.any fun a => (componentUse name).occursIn a.text) := by
    intro name hname l hl
    have hcovers : CoversNames (word name) (· = name.toList) :=
      ⟨recalls_word name, fun _ _ _ => covers_word_iff⟩
    rw [componentUse_eq_openingOf]
    exact l.occursIn_openingOf hcovers (fun _ heq => heq ▸ hcomponents name hname) (hl ▸ helement)
  rw [usesComponent, usesComponent, hsource.components_eq, Bool.eq_iff_iff, List.any_eq_true,
    List.any_eq_true]
  refine exists_congr fun name => and_congr_right fun hname => ?_
  rw [huse name hname line' h.element_eq, huse name hname line rfl, h.element_eq,
    h.any_eq fun a => (componentUse name).occursIn a.text]

theorem Source.Shares.report_unquoted (h : source.Shares source') (check : Check) (index : Nat)
    (message recommendation : String) :
    unquoted (source'.report check index message recommendation) =
      unquoted (source.report check index message recommendation) := by
  simp only [unquoted, Source.report, SourceFile.findingAt, h.path_eq]

/-! ## Images -/

theorem detectMissingFormLabel_image (himage : IsImageName line.element) (hwhole : line.IsWhole)
    (index : Nat) (source : Source) : detectMissingFormLabel line.text index source = [] := by
  have hnone : formControl.allMatches line.text = [] :=
    line.allMatches_eq_nil elementNames_control (elementNames_image.isWord_of_mem _ himage)
      himage.not_control
      (hwhole.no_control himage)
  rw [detectMissingFormLabel, hnone, List.filterMap_nil]

theorem TagLine.Rearranges.image_findings_eq (h : line.Rearranges line')
    (himage : IsImageName line.element) (hwhole : line.IsWhole) (hsource : source.Shares source')
    (hcomponents : ∀ name ∈ source.components, IsTidy name.toList) (index : Nat) :
    (detectMissingAlt line'.text index source').map unquoted =
      (detectMissingAlt line.text index source).map unquoted ∧
    (line.GivesOneText →
      (detectEmptyAlt line'.text index source').map unquoted =
        (detectEmptyAlt line.text index source).map unquoted ∧
      (detectGenericAlt line'.text index source').map unquoted =
        (detectGenericAlt line.text index source).map unquoted) := by
  have himage' : IsImageName line'.element := h.element_eq ▸ himage
  have hbracket : '<' ∉ line.element := elementNames_image.not_mem (by decide) himage
  have huses := h.usesComponent_eq hsource hbracket hcomponents
  have hdescribed := h.any_eq fun a => hasAltEquivalent a.text
  refine ⟨?_, fun hone => ?_⟩
  · rw [line'.detectMissingAlt_eq himage' (h.isWhole hwhole).unbroken,
      line.detectMissingAlt_eq himage hwhole.unbroken, huses,
      h.any_eq fun a => altAttribute.occursIn a.text || hasAltEquivalent a.text]
    split
    · rfl
    · rw [List.map_singleton, List.map_singleton, hsource.report_unquoted]
  · have hclosed' : ∀ a ∈ line'.attributes, a.Closed :=
      h.forall_attributes (P := Attribute.Closed) hone.closed
    constructor
    · rw [line'.detectEmptyAlt_eq himage' (h.isWhole hwhole).unbroken hclosed',
        line.detectEmptyAlt_eq himage hwhole.unbroken hone.closed, huses, hdescribed,
          h.findSome?_eq hone]
      split
      · rfl
      · rw [List.map_flatMap, List.map_flatMap]
        refine List.flatMap_congr fun text _ => ?_
        rw [emptyAltFindings, emptyAltFindings]
        split
        · rw [List.map_singleton, List.map_singleton, hsource.report_unquoted]
        · rfl
    · rw [line'.detectGenericAlt_eq himage' (h.isWhole hwhole).unbroken hclosed',
        line.detectGenericAlt_eq himage hwhole.unbroken hone.closed, huses, h.findSome?_eq hone]
      split
      · rfl
      · rw [List.map_flatMap, List.map_flatMap]
        refine List.flatMap_congr fun text _ => ?_
        rw [genericAltFindings, genericAltFindings]
        split
        · rw [List.map_singleton, List.map_singleton, hsource.report_unquoted]
        · rfl

/-! ## Form controls -/

theorem imageTags_control (hcontrol : IsControlName line.element) (hwhole : line.IsWhole)
    (source : Source) :
    imageTags line.text source = [] := by
  have hnone : imageTag.allMatches line.text = [] :=
    line.allMatches_eq_nil elementNames_image (elementNames_control.isWord_of_mem _ hcontrol)
      (fun himage => himage.not_control hcontrol) (hwhole.no_image hcontrol)
  simp [imageTags, hnone]

theorem TagLine.Rearranges.control_findings_eq (h : line.Rearranges line')
    (hcontrol : IsControlName line.element) (hwhole : line.IsWhole)
    (hsource : source.Shares source') (index : Nat) :
    (detectMissingFormLabel line'.text index source').map unquoted =
      (detectMissingFormLabel line.text index source).map unquoted := by
  rw [line'.detectMissingFormLabel_eq (h.element_eq ▸ hcontrol) (h.isWhole hwhole).unbroken,
    line.detectMissingFormLabel_eq hcontrol hwhole.unbroken,
    h.any_eq fun a => labelHook.occursIn a.text || hiddenInput.occursIn a.text]
  split
  · rfl
  · rw [List.map_singleton, List.map_singleton, hsource.report_unquoted]

/-! ## Both -/

/-- What is reported of the tag of an image or of a control stays the same when its attributes are
put in another order. -/
theorem findings_eq_of_perm {line line' : TagLine} {source source' : Source}
    (h : line.Rearranges line') (hname : IsImageName line.element ∨ IsControlName line.element)
    (hwhole : line.IsWhole) (hsource : source.Shares source')
    (hcomponents : ∀ name ∈ source.components, IsTidy name.toList) (index : Nat) :
    (detectMissingAlt line'.text index source').map unquoted =
      (detectMissingAlt line.text index source).map unquoted ∧
    (detectMissingFormLabel line'.text index source').map unquoted =
      (detectMissingFormLabel line.text index source).map unquoted ∧
    ((IsImageName line.element → line.GivesOneText) →
      (detectEmptyAlt line'.text index source').map unquoted =
        (detectEmptyAlt line.text index source).map unquoted ∧
      (detectGenericAlt line'.text index source').map unquoted =
        (detectGenericAlt line.text index source).map unquoted) := by
  rcases hname with himage | hcontrol
  · obtain ⟨hmissing, htexts⟩ := h.image_findings_eq himage hwhole hsource hcomponents index
    refine ⟨hmissing, ?_, fun hone => htexts (hone himage)⟩
    rw [detectMissingFormLabel_image himage hwhole,
      detectMissingFormLabel_image (h.element_eq ▸ himage) (h.isWhole hwhole)]
  · obtain ⟨hmissing, hempty, hgeneric⟩ :=
      detectors_of_imageTags_eq_nil (imageTags_control hcontrol hwhole source) index
    obtain ⟨hmissing', hempty', hgeneric'⟩ := detectors_of_imageTags_eq_nil
      (imageTags_control (h.element_eq ▸ hcontrol) (h.isWhole hwhole) source') index
    rw [hmissing, hmissing', hempty, hempty', hgeneric, hgeneric']
    exact ⟨rfl, h.control_findings_eq hcontrol hwhole hsource index, fun _ => ⟨rfl, rfl⟩⟩

/-- A tag without angle brackets in its attributes is whole. -/
theorem TagLine.isWhole_of_no_brackets (h : ∀ a ∈ line.attributes, '<' ∉ a.text ∧ '>' ∉ a.text) :
    line.IsWhole := by
  have hnone : ∀ isName : List Char → Prop, ∀ a ∈ line.attributes, ¬BeginsTag isName a.text := by
    rintro isName a ha ⟨s₁, name, s₂, heq, -⟩
    exact (h a ha).1 (by simp [heq])
  exact ⟨fun a ha => (h a ha).2, fun _ => hnone IsControlName, fun _ => hnone IsImageName⟩

/-- Attributes that are plain or without quotes give one text at most, if one of them at most passes
for an `alt`. -/
theorem TagLine.givesOneText_of_one_alt
    (hattributes : ∀ a ∈ line.attributes, a.IsPlain ∨ ∀ c ∈ a.text, ¬IsQuote c)
    (hone : ∀ a ∈ line.attributes, ∀ b ∈ line.attributes, PassesFor IsAltName a.name →
      PassesFor IsAltName b.name → a.toAttribute = b.toAttribute) : line.GivesOneText where
  closed a ha := (hattributes a ha).elim Attribute.IsPlain.closed Attribute.closed_of_no_quotes
  agree a ha b hb v w hv hw := by
    have hpasses : ∀ a ∈ line.attributes, ∀ v, a.altText? = some v →
        PassesFor IsAltName a.name := by
      intro a ha v hv
      obtain ⟨hoccurs, c, hc, hquote⟩ := a.occursIn_of_altText? hv
      rcases hattributes a ha with hplain | hnone
      · exact (hplain.occursIn_attributeOf_iff attributeNames_alt).mp hoccurs
      · exact absurd hquote (hnone c hc)
    rw [hone a ha b hb (hpasses a ha v hv) (hpasses b hb w hw), hw] at hv
    exact (Option.some.inj hv).symm

/-- An attribute with an expression in braces. -/
def bracedAttribute (name expression : String) : SpacedAttribute :=
  Attribute.behindSpace ⟨name.toList, .braced expression.toList⟩

/-- A picture with an `alt` before a handler, and the same picture with the `alt` behind it. -/
def pictureLine (handler : String) : TagLine :=
  .bare "img" [quotedAttribute "alt" "Team photo", bracedAttribute "onLoad" handler]

def turnedPictureLine (handler : String) : TagLine :=
  .bare "img" [bracedAttribute "onLoad" handler, quotedAttribute "alt" "Team photo"]

theorem findings_eq_of_perm_picture :
    ((pictureLine "show").Rearranges (turnedPictureLine "show") ∧ (pictureLine "show").IsWhole ∧
      (pictureLine "show").GivesOneText ∧ IsImageName (pictureLine "show").element ∧
      ∀ name ∈ plainSource.components, IsTidy name.toList) ∧
    (detectMissingAlt (turnedPictureLine "show").text 0 plainSource).map unquoted =
      (detectMissingAlt (pictureLine "show").text 0 plainSource).map unquoted ∧
    (detectEmptyAlt (turnedPictureLine "show").text 0 plainSource).map unquoted =
      (detectEmptyAlt (pictureLine "show").text 0 plainSource).map unquoted ∧
    (detectGenericAlt (turnedPictureLine "show").text 0 plainSource).map unquoted =
      (detectGenericAlt (pictureLine "show").text 0 plainSource).map unquoted := by
  have hturn : (pictureLine "show").Rearranges (turnedPictureLine "show") := ⟨rfl, by decide⟩
  have hwhole : (pictureLine "show").IsWhole := TagLine.isWhole_of_no_brackets (by decide)
  have himage : IsImageName (pictureLine "show").element := by decide
  have hcomponents : ∀ name ∈ plainSource.components, IsTidy name.toList := List.forall_mem_nil _
  have hone : (pictureLine "show").GivesOneText := by
    have hother : ¬PassesFor IsAltName "onLoad".toList := by
      rw [passesFor_iff_of_not_endsIn (not_endsIn_of_not_mem (by decide))]
      decide
    have hnames : ∀ a ∈ (pictureLine "show").attributes, PassesFor IsAltName a.name →
        a.toAttribute = ⟨"alt".toList, .quoted "Team photo".toList⟩ :=
      List.forall_mem_cons.mpr ⟨fun _ => rfl, List.forall_mem_singleton.mpr fun h =>
        absurd h hother⟩
    refine TagLine.givesOneText_of_one_alt ?_ fun a ha b hb hpa hpb => ?_
    · have hnone : ((bracedAttribute "onLoad" "show").text.all fun c => !decide (IsQuote c)) =
          true := by decide
      exact List.forall_mem_cons.mpr ⟨.inl (isPlain_quotedAttribute (by decide) (by decide)),
        List.forall_mem_singleton.mpr
          (.inr fun c hc => by simpa using List.all_eq_true.mp hnone c hc)⟩
    · exact (hnames a ha hpa).trans (hnames b hb hpb).symm
  obtain ⟨hmissing, -, htexts⟩ :=
    findings_eq_of_perm hturn (.inl himage) hwhole ⟨rfl, rfl⟩ hcomponents 0
  exact ⟨⟨hturn, hwhole, hone, himage, hcomponents⟩, hmissing, htexts fun _ => hone⟩

/-- Behind an arrow function an `alt` is not seen. -/
theorem arrow_hides_alt :
    ((pictureLine "() => f()").text = "<img alt=\"Team photo\" onLoad=\x7b() => f()\x7d>".toList ∧
      (turnedPictureLine "() => f()").text =
        "<img onLoad=\x7b() => f()\x7d alt=\"Team photo\">".toList ∧
      (turnedPictureLine "() => f()").element = (pictureLine "() => f()").element ∧
      (turnedPictureLine "() => f()").listed.Perm (pictureLine "() => f()").listed) ∧
    detectMissingAlt (pictureLine "() => f()").text 0 plainSource = [] ∧
    (detectMissingAlt (turnedPictureLine "() => f()").text 0 plainSource).map (·.kind) =
      ["missing_alt"] := by
  decide +kernel

end FrontendAudit.Accessibility
