import FrontendAudit.Proofs.Pattern.Search
import FrontendAudit.Rule.Accessibility.Detectors

/-!
# Tags that the checks look at

The tag of an image or of a form control begins with `<` and the name of the element, up to a word
boundary, and ends at the next `>` (`covers_tagOf_iff`). In a line with one such tag it is the one
that is found (`texts_allMatches_tagOf`), and a line in which none begins has none
(`allMatches_tagOf_eq_nil`).

A word boundary is not the end of a name: an element whose name goes on from that of an image with a
hyphen, a point or a colon is taken for an image, and no other element is.
-/

namespace FrontendAudit

namespace Accessibility

open Pattern

variable {names : Pattern} {isName : List Char → Prop} {before : Option Char}
  {line s t above body below after name : List Char} {source : Source}

/-! ## Tags of elements with given names -/

/-- A tag of an element, its name given by a pattern. -/
def tagOf (names : Pattern) : Pattern :=
  seqs [word "<", names, .boundary, many (except ">"), word ">"]

/-- The pattern covers the names that have the property, and nothing else. -/
structure CoversNames (names : Pattern) (isName : List Char → Prop) : Prop where
  recalls : names.recalls = false
  covers_iff : ∀ before t after, Covers names before t after ↔ isName t

/-- The names that have the property are made of word characters. -/
structure WordNames (isName : List Char → Prop) : Prop where
  ne_nil : ∀ t, isName t → t ≠ []
  isWord_of_mem : ∀ t, isName t → ∀ c ∈ t, Text.isWord c = true

/-- A pattern for names of elements. -/
structure ElementNames (names : Pattern) (isName : List Char → Prop) : Prop extends
  CoversNames names isName, WordNames isName

theorem WordNames.not_mem {c : Char} (h : WordNames isName) (hc : Text.isWord c = false)
    (hname : isName name) :
    c ∉ name :=
  fun hmem => absurd (h.isWord_of_mem name hname c hmem) (by simp [hc])

/-- What stands between `<` and `>` begins with such a name, which ends at a word boundary. -/
def BeginsWithName (isName : List Char → Prop) (body : List Char) : Prop :=
  ∃ name rest, body = name ++ rest ∧ isName name ∧
    Text.isBoundary (behind (some '<') name) (rest ++ ['>']).head? = true

theorem recalls_tagOf (hnames : ElementNames names isName) : (tagOf names).recalls = false := by
  rw [tagOf, recalls_seqs]
  simp [hnames.recalls, recalls, many, except]

/-- A tag is the text from `<` to the next `>`, with such a name behind the `<`. -/
theorem covers_tagOf_iff (hnames : ElementNames names isName) :
    Covers (tagOf names) before t after ↔
      ∃ body, t = '<' :: (body ++ ['>']) ∧ '>' ∉ body ∧ BeginsWithName isName body := by
  simp only [tagOf, covers_seqs_cons, covers_seqs_nil, covers_word_iff, hnames.covers_iff,
    covers_many_except_iff, Covers]
  constructor
  · rintro ⟨_, _, rfl, rfl, name, _, rfl, hname, _, _, rfl, ⟨rfl, hboundary⟩, rest, _, rfl,
      hrest, _, _, rfl, rfl, rfl⟩
    have hrest' : '>' ∉ rest := fun h => hrest '>' h (by decide)
    refine ⟨name ++ rest, by simp, ?_, name, rest, rfl, hname, ?_⟩
    · simp [hnames.not_mem (c := '>') (by decide) hname, hrest']
    · simpa [List.head?_append] using hboundary
  · rintro ⟨_, rfl, hend, name, rest, rfl, hname, hboundary⟩
    have hrest : ∀ a ∈ rest, a ∉ ">".toList := by
      intro a ha h
      obtain rfl : a = '>' := by simpa using h
      exact hend (List.mem_append_right name ha)
    refine ⟨['<'], name ++ (rest ++ ['>']), by simp, rfl, name, rest ++ ['>'], rfl,
      hname, [], _, rfl, ⟨rfl, ?_⟩, rest, ['>'], rfl, hrest, ['>'], [], rfl, rfl, rfl⟩
    simpa [List.head?_append] using hboundary

theorem matchAt?_tagOf (hnames : ElementNames names isName) (hbody : '>' ∉ body)
    (hname : BeginsWithName isName body) (before : Option Char) (after : List Char) :
    ∃ m, (tagOf names).matchAt? before ('<' :: (body ++ '>' :: after)) = some m ∧
      m.text = '<' :: (body ++ ['>']) := by
  have hsome : ((tagOf names).matchAt? before ('<' :: (body ++ '>' :: after))).isSome = true :=
    (isSome_matchAt?_iff (recalls_tagOf hnames)).mpr
      ⟨'<' :: (body ++ ['>']), after, by simp,
        (covers_tagOf_iff hnames).mpr ⟨body, rfl, hbody, hname⟩⟩
  obtain ⟨m, hm⟩ := Option.isSome_iff_exists.mp hsome
  obtain ⟨rest, heq, hcovers⟩ := covers_of_matchAt? (recalls_tagOf hnames) hm
  obtain ⟨body', htext, hbody', -⟩ := (covers_tagOf_iff hnames).mp hcovers
  -- both texts end at the first `>`
  have hsame : body = body' := by
    rw [htext, List.cons_append, List.cons.injEq, List.append_assoc] at heq
    have hsplit : body ++ '>' :: after = body' ++ '>' :: rest := heq.2
    exact (append_cons_inj hbody hbody' hsplit).1
  exact ⟨m, hm, hsame ▸ htext⟩

theorem matchAt?_tagOf_eq_none (hnames : ElementNames names isName)
    (h : ∀ body after, s = '<' :: (body ++ '>' :: after) → '>' ∉ body →
      ¬BeginsWithName isName body) :
    (tagOf names).matchAt? before s = none := by
  refine (matchAt?_eq_none_iff (recalls_tagOf hnames)).mpr fun t after heq hcovers => ?_
  obtain ⟨body, rfl, hbody, hname⟩ := (covers_tagOf_iff hnames).mp hcovers
  exact h body after (by simpa using heq) hbody hname

/-- Where no such tag begins, none is found. -/
theorem allMatches_tagOf_eq_nil (hnames : ElementNames names isName)
    (h : ∀ above body below, line = above ++ '<' :: (body ++ '>' :: below) → '>' ∉ body →
      ¬BeginsWithName isName body) :
    (tagOf names).allMatches line = [] := by
  refine matchesFrom_eq_nil_iff.mpr fun s₁ s₂ heq =>
    matchAt?_tagOf_eq_none hnames fun body after h₂ => ?_
  exact h s₁ body after (heq.trans (congrArg _ h₂))

/-- A line with one `<`, with which such a tag begins, has this tag. -/
theorem texts_allMatches_tagOf (hnames : ElementNames names isName) (habove : '<' ∉ above)
    (hbody : '>' ∉ body) (hname : BeginsWithName isName body) (hbelow : '<' ∉ below) :
    ((tagOf names).allMatches (above ++ '<' :: (body ++ '>' :: below))).map (·.text) =
      ['<' :: (body ++ ['>'])] := by
  have hnot : ∀ (s : List Char) (b : Option Char), s.head? ≠ some '<' →
      (tagOf names).matchAt? b s = none :=
    fun s b hs => matchAt?_tagOf_eq_none hnames fun body after heq => absurd (heq ▸ rfl) hs
  obtain ⟨m, hm, htext⟩ := matchAt?_tagOf hnames hbody hname (behind none above) below
  have hline : '<' :: (body ++ '>' :: below) = m.text ++ below := by simp [htext]
  have hnone : (tagOf names).matchesFrom (behind (behind none above) m.text) 0 below = [] := by
    refine matchesFrom_eq_nil_iff.mpr fun s₁ s₂ heq => hnot _ _ fun h => hbelow ?_
    exact heq ▸ List.mem_append_right s₁ (List.mem_of_mem_head? h)
  rw [allMatches, matchesFrom_append, hline,
    matchesFrom_of_matchAt? (hline ▸ hm) (by simp [htext]), hnone, List.map_singleton, htext]
  intro s₁ s₂ heq hne
  refine hnot _ _ fun h => habove ?_
  rw [List.head?_append_of_ne_nil _ hne] at h
  exact heq ▸ List.mem_append_right s₁ (List.mem_of_mem_head? h)

/-! ## Images and form controls -/

/-- The name of an image: `img` in any case, or `Image`. -/
def IsImageName (name : List Char) : Prop := InAnyCase "img" name ∨ name = "Image".toList

/-- The name of a form control, in any case. -/
def IsControlName (name : List Char) : Prop :=
  ∃ w ∈ ["input", "textarea", "select"], InAnyCase w name

instance (name : List Char) : Decidable (IsImageName name) := inferInstanceAs (Decidable (_ ∨ _))

instance (name : List Char) : Decidable (IsControlName name) :=
  inferInstanceAs (Decidable (∃ _ ∈ _, _))

theorem imageTag_eq_tagOf : imageTag = tagOf (.alt (caseless "img") (word "Image")) := rfl

theorem formControl_eq_tagOf :
    formControl = tagOf (anyCaseless ["input", "textarea", "select"]) := rfl

/-- The words in any case are names of elements, if all forms of their letters are word
characters. -/
theorem wordNames_inAnyCase {w : String} (hne : w.toList ≠ [])
    (hletters : (w.toList.all fun c => (caseVariants c).all Text.isWord) = true) :
    WordNames (InAnyCase w) where
  ne_nil := by
    rintro t h rfl
    exact hne (List.forall₂_nil_right_iff.mp h)
  isWord_of_mem _ h := forall_mem_of_forall₂ h (by simpa only [List.all_eq_true] using hletters)

theorem wordNames_img : WordNames (InAnyCase "img") :=
  wordNames_inAnyCase (by decide) (by decide +kernel)

theorem wordNames_control {w : String} (hw : w ∈ ["input", "textarea", "select"]) :
    WordNames (InAnyCase w) := by
  simp only [List.mem_cons, List.not_mem_nil, or_false] at hw
  rcases hw with rfl | rfl | rfl <;> exact wordNames_inAnyCase (by decide) (by decide +kernel)

theorem elementNames_image : ElementNames (.alt (caseless "img") (word "Image")) IsImageName where
  recalls := by decide
  covers_iff before t after := by
    rw [Covers, covers_caseless_iff, covers_word_iff]
    rfl
  ne_nil := by
    rintro t (h | rfl)
    · exact wordNames_img.ne_nil t h
    · decide
  isWord_of_mem := by
    rintro t (h | rfl)
    · exact wordNames_img.isWord_of_mem t h
    · exact List.all_eq_true.mp (by decide)

theorem elementNames_control :
    ElementNames (anyCaseless ["input", "textarea", "select"]) IsControlName where
  recalls := by decide
  covers_iff _ _ _ := covers_anyCaseless_iff
  ne_nil := by
    rintro t ⟨w, hw, h⟩
    exact (wordNames_control hw).ne_nil t h
  isWord_of_mem := by
    rintro t ⟨w, hw, h⟩
    exact (wordNames_control hw).isWord_of_mem t h

/-! ## Attributes as the patterns see them -/

/-- An attribute up to its equals sign, its name given by a pattern. -/
def attributeOf (names : Pattern) : Pattern := seqs [.boundary, names, blanks, word "="]

/-- A character that the name of an attribute can have: a word character or a hyphen. -/
def isAttributeChar (c : Char) : Bool := Text.isWord c || c = '-'

/-- A pattern for names of attributes, which begin with a word character. -/
structure AttributeNames (names : Pattern) (isName : List Char → Prop) : Prop extends
  CoversNames names isName where
  letters : ∀ t, isName t → ∀ c ∈ t, isAttributeChar c = true
  starts : ∀ t, isName t → ∃ c rest, t = c :: rest ∧ Text.isWord c = true

theorem recalls_attributeOf (hnames : AttributeNames names isName) :
    (attributeOf names).recalls = false := by
  rw [attributeOf, recalls_seqs]
  simp [hnames.recalls, recalls, blanks, many, blank, ofKinds]

theorem covers_attributeOf_iff (hnames : AttributeNames names isName) :
    Covers (attributeOf names) before t after ↔
      before.any Text.isWord = false ∧ ∃ name gap, t = name ++ (gap ++ ['=']) ∧ isName name ∧
        ∀ c ∈ gap, Text.isBlank c = true := by
  simp only [attributeOf, covers_seqs_cons, covers_seqs_nil, covers_word_iff, hnames.covers_iff,
    covers_blanks_iff, Covers]
  constructor
  · rintro ⟨_, _, rfl, ⟨rfl, hboundary⟩, name, _, rfl, hname, gap, _, rfl, hgap, _, _,
      rfl, rfl, rfl⟩
    obtain ⟨c, rest, rfl, hc⟩ := hnames.starts name hname
    exact ⟨(isBoundary_word hc).mp hboundary, c :: rest, gap, by simp, hname, hgap⟩
  · rintro ⟨hbefore, name, gap, rfl, hname, hgap⟩
    obtain ⟨c, rest, rfl, hc⟩ := hnames.starts name hname
    exact ⟨[], _, rfl, ⟨rfl, (isBoundary_word hc).mpr hbefore⟩, _, _, rfl, hname, gap, _, rfl,
      hgap, ['='], [], rfl, rfl, rfl⟩

/-- The name of an `alt` attribute. -/
def IsAltName (name : List Char) : Prop := name = "alt".toList

/-- The name of an attribute by which a label can reach a control. -/
def IsLabelName (name : List Char) : Prop :=
  ∃ w ∈ ["aria-label", "aria-labelledby", "id"], name = w.toList

instance (name : List Char) : Decidable (IsAltName name) := inferInstanceAs (Decidable (_ = _))

instance (name : List Char) : Decidable (IsLabelName name) :=
  inferInstanceAs (Decidable (∃ _ ∈ _, _))

theorem altAttribute_eq_attributeOf : altAttribute = attributeOf (word "alt") := rfl

theorem labelHook_eq_attributeOf :
    labelHook = attributeOf (anyWord ["aria-label", "aria-labelledby", "id"]) := rfl

theorem attributeNames_alt : AttributeNames (word "alt") IsAltName where
  recalls := by decide
  covers_iff _ _ _ := covers_word_iff
  letters := by
    rintro t rfl
    exact List.all_eq_true.mp (by decide)
  starts := by
    rintro t rfl
    exact ⟨'a', ['l', 't'], rfl, by decide⟩

theorem attributeNames_label :
    AttributeNames (anyWord ["aria-label", "aria-labelledby", "id"]) IsLabelName where
  recalls := by decide
  covers_iff _ _ _ := covers_anyWord_iff
  letters := by
    rintro t ⟨w, hw, rfl⟩
    simp only [List.mem_cons, List.not_mem_nil, or_false] at hw
    rcases hw with rfl | rfl | rfl <;> exact List.all_eq_true.mp (by decide)
  starts := by
    rintro t ⟨w, hw, rfl⟩
    simp only [List.mem_cons, List.not_mem_nil, or_false] at hw
    rcases hw with rfl | rfl | rfl
    · exact ⟨'a', _, rfl, by decide⟩
    · exact ⟨'a', _, rfl, by decide⟩
    · exact ⟨'i', _, rfl, by decide⟩

theorem wordNames_type : WordNames (InAnyCase "type") :=
  wordNames_inAnyCase (by decide) (by decide +kernel)

theorem WordNames.exists_cons (h : WordNames isName) (hname : isName name) :
    ∃ c rest, name = c :: rest ∧ Text.isWord c = true := by
  obtain ⟨c, rest, rfl⟩ := List.exists_cons_of_ne_nil (h.ne_nil name hname)
  exact ⟨c, rest, rfl, h.isWord_of_mem _ hname c List.mem_cons_self⟩

/-- The attribute of a hidden control, with the name and the value in any case. -/
def HidesControl (t : List Char) : Prop :=
  ∃ name gap gap' value q q', t = name ++ (gap ++ '=' :: (gap' ++ q :: (value ++ [q']))) ∧
    InAnyCase "type" name ∧ InAnyCase "hidden" value ∧ (∀ c ∈ gap, Text.isBlank c = true) ∧
    (∀ c ∈ gap', Text.isBlank c = true) ∧ q ∈ "'\"".toList ∧ q' ∈ "'\"".toList

theorem covers_hiddenInput_iff :
    Covers hiddenInput before t after ↔ before.any Text.isWord = false ∧ HidesControl t := by
  simp only [hiddenInput, quoteMark, among, covers_seqs_cons, covers_seqs_nil, covers_word_iff,
    covers_caseless_iff, covers_blanks_iff, Covers, has_map_one]
  constructor
  · rintro ⟨_, _, rfl, ⟨rfl, hboundary⟩, name, _, rfl, hname, gap, _, rfl, hgap, _, _, rfl, rfl,
      gap', _, rfl, hgap', _, _, rfl, ⟨q, rfl, hq⟩, value, _, rfl, hvalue, _, _, rfl,
        ⟨q', rfl, hq'⟩, rfl⟩
    obtain ⟨c, rest, rfl, hc⟩ := wordNames_type.exists_cons hname
    exact ⟨(isBoundary_word hc).mp hboundary, c :: rest, gap, gap', value, q, q', by simp, hname,
      hvalue, hgap, hgap', hq, hq'⟩
  · rintro ⟨hbefore, name, gap, gap', value, q, q', rfl, hname, hvalue, hgap, hgap', hq, hq'⟩
    obtain ⟨c, rest, rfl, hc⟩ := wordNames_type.exists_cons hname
    exact ⟨[], _, rfl, ⟨rfl, (isBoundary_word hc).mpr hbefore⟩, _, _, rfl, hname, gap, _, rfl,
      hgap, ['='], _, rfl, rfl, gap', _, rfl, hgap', [q], _, rfl, ⟨q, rfl, hq⟩, value, _, rfl,
        hvalue, [q'], [], rfl,
      ⟨q', rfl, hq'⟩, rfl⟩

theorem not_occursIn_of_not_mem_equals (hnames : AttributeNames names isName) (h : '=' ∉ s) :
    (attributeOf names).occursIn s = false := by
  rw [← Bool.not_eq_true, occursIn_iff (recalls_attributeOf hnames)]
  rintro ⟨s₁, t, after, rfl, hcovers⟩
  obtain ⟨-, name, gap, rfl, -⟩ := (covers_attributeOf_iff hnames).mp hcovers
  exact h (by simp)

/-- The tag has a prop that describes the image in another way, its name directly before an equals
sign. -/
def CarriesEquivalent (tag : List Char) : Prop :=
  ∃ prop ∈ altEquivalents, ∃ above below, tag = above ++ (prop ++ "=").toList ++ below

theorem hasAltEquivalent_iff {tag : List Char} :
    hasAltEquivalent tag = true ↔ CarriesEquivalent tag := by
  simp only [hasAltEquivalent, List.any_eq_true, Text.occurs_iff, CarriesEquivalent]

/-! ## The detectors of images -/

theorem detectors_of_imageTags_eq_nil (h : imageTags line source = []) (index : Nat) :
    detectMissingAlt line index source = [] ∧ detectEmptyAlt line index source = [] ∧
      detectGenericAlt line index source = [] := by
  simp [detectMissingAlt, detectEmptyAlt, detectGenericAlt, h]

/-! ## Names that go on -/

/-- A character that the name of an element can have: an ASCII letter or digit, an underscore, a
hyphen, a point or a colon. -/
def isNameChar (c : Char) : Bool := Text.isAsciiWord c || c = '-' || c = '.' || c = ':'

/-- An opening tag: `<`, the name of the element as far as it goes, and the rest up to the last
`>`. -/
structure OpeningTag where
  name : List Char
  rest : List Char
  name_ne_nil : name ≠ []
  isNameChar_of_mem : ∀ c ∈ name, isNameChar c = true
  maximal : ∀ c, rest.head? = some c → isNameChar c = false

/-- The line that consists of the tag. -/
def OpeningTag.text (tag : OpeningTag) : List Char := '<' :: (tag.name ++ (tag.rest ++ ['>']))

/-- No tag of such an element begins within the tag. -/
def OpeningTag.Alone (isName : List Char → Prop) (tag : OpeningTag) : Prop :=
  ∀ above body below, tag.rest ++ ['>'] = above ++ '<' :: (body ++ '>' :: below) → '>' ∉ body →
    ¬BeginsWithName isName body

/-- The name goes on from such a name with a hyphen, a point or a colon. -/
def Extends (isName : List Char → Prop) (name : List Char) : Prop :=
  ∃ base c more, name = base ++ c :: more ∧ isName base ∧ (c = '-' ∨ c = '.' ∨ c = ':')

/-- Behind the first character such a name has only characters that any name can have. -/
def NameTails (isName : List Char → Prop) : Prop :=
  ∀ t, isName t → ∀ c ∈ t.tail, isNameChar c = true

theorem nameTails_inAnyCase {w : String}
    (h : (w.toList.tail.all fun c => (caseVariants c).all isNameChar) = true) :
    NameTails (InAnyCase w) := by
  intro t ht
  have htail : List.Forall₂ (fun c a => a ∈ caseVariants c) w.toList.tail t.tail := by
    simpa using List.forall₂_drop 1 ht
  exact forall_mem_of_forall₂ htail (by simpa only [List.all_eq_true] using h)

theorem nameTails_image : NameTails IsImageName := by
  rintro t (h | rfl)
  · exact nameTails_inAnyCase (by decide) t h
  · exact List.all_eq_true.mp (by decide)

theorem nameTails_control : NameTails IsControlName := by
  rintro t ⟨w, hw, h⟩
  simp only [List.mem_cons, List.not_mem_nil, or_false] at hw
  rcases hw with rfl | rfl | rfl
  all_goals exact nameTails_inAnyCase (by decide) t h

theorem toNat_lt_of_isNameChar {c : Char} (hc : isNameChar c = true) : c.toNat < 128 := by
  simp only [isNameChar, Bool.or_eq_true, decide_eq_true_eq] at hc
  rcases hc with ((h | rfl) | rfl) | rfl
  · exact Text.toNat_lt_of_isAsciiWord h
  all_goals decide

theorem not_isWord_iff_of_isNameChar {c : Char} (hc : isNameChar c = true) :
    Text.isWord c = false ↔ c = '-' ∨ c = '.' ∨ c = ':' := by
  constructor
  · intro hword
    have hascii : Text.isAsciiWord c = false :=
      Bool.eq_false_iff.mpr fun h => Bool.eq_false_iff.mp hword (Text.isWord_of_isAsciiWord h)
    simpa [isNameChar, hascii, or_assoc] using hc
  · rintro (rfl | rfl | rfl) <;> decide

/-- Behind a name that is made of word characters there is a boundary exactly before what is no word
character. -/
theorem WordNames.isBoundary_iff (h : WordNames isName) (hname : isName name) (next : Option Char) :
    Text.isBoundary (behind before name) next = true ↔ next.any Text.isWord = false := by
  have hlast : (behind before name).any Text.isWord = true := by
    rw [behind, List.getLast?_eq_some_getLast (h.ne_nil name hname)]
    exact h.isWord_of_mem name hname _ (List.getLast_mem _)
  rw [Text.isBoundary, hlast]
  cases next.any Text.isWord <;> decide

/-- A tag whose name is another begins with such a name exactly when its name goes on from one. -/
theorem beginsWithName_append_iff (hnames : WordNames isName) (htails : NameTails isName)
    (hne : name ≠ []) (hchars : ∀ c ∈ name, isNameChar c = true)
    (hs : ∀ c, s.head? = some c → isNameChar c = false) (hother : ¬isName name) :
    BeginsWithName isName (name ++ s) ↔ Extends isName name := by
  constructor
  · rintro ⟨base, rest, heq, hbase, hboundary⟩
    rcases List.append_eq_append_iff.mp heq with ⟨more, rfl, hsplit⟩ | ⟨more, rfl, rfl⟩
    · cases more with
      | nil => exact absurd (by simpa using hbase) hother
      | cons c more =>
          -- a longer name than the name of the tag would have a character that no name has
          obtain ⟨a, name', rfl⟩ := List.exists_cons_of_ne_nil hne
          have hc : isNameChar c = true := htails _ hbase c (by simp)
          exact absurd hc (by simp [hs c (by simp [hsplit])])
    · cases more with
      | nil => exact absurd (by simpa using hbase) hother
      | cons c more =>
          have hc :
              Text.isWord c = false := by simpa using (hnames.isBoundary_iff hbase _).mp hboundary
          exact ⟨base, c, more, rfl, hbase,
            (not_isWord_iff_of_isNameChar (hchars c (by simp))).mp hc⟩
  · rintro ⟨base, c, more, rfl, hbase, hc⟩
    refine ⟨base, c :: (more ++ s), by simp, hbase, (hnames.isBoundary_iff hbase _).mpr ?_⟩
    simpa using (not_isWord_iff_of_isNameChar (hchars c (by simp))).mpr hc

theorem OpeningTag.not_mem_name {tag : OpeningTag} {c : Char} (hc : isNameChar c = false) :
    c ∉ tag.name :=
  fun h => absurd (tag.isNameChar_of_mem c h) (by simp [hc])

/-- Up to the first `>` the tag is its name and a part of the rest, if not all of it. -/
theorem OpeningTag.exists_body {tag : OpeningTag}
    (h : tag.name ++ (tag.rest ++ ['>']) = body ++ '>' :: below) (hbody : '>' ∉ body) :
    ∃ s, body = tag.name ++ s ∧ ∀ c, s.head? = some c → isNameChar c = false := by
  rcases List.append_eq_append_iff.mp h with ⟨s, rfl, hrest⟩ | ⟨more, hname, hmore⟩
  · refine ⟨s, rfl, fun c hc => ?_⟩
    cases s with
    | nil => cases hc
    | cons a s =>
        obtain rfl : a = c := by simpa using hc
        cases htag : tag.rest with
        | nil =>
            rw [htag] at hrest
            obtain ⟨rfl, -⟩ := List.cons.inj hrest
            exact absurd (List.mem_append_right tag.name List.mem_cons_self) hbody
        | cons b rest =>
            rw [htag] at hrest
            obtain ⟨rfl, -⟩ := List.cons.inj hrest
            exact tag.maximal b (by rw [htag]; rfl)
  · cases more with
    | nil => exact ⟨[], by simpa using hname.symm, fun c hc => by cases hc⟩
    | cons a more =>
        obtain ⟨rfl, -⟩ := List.cons.inj hmore
        exact absurd (hname ▸ List.mem_append_right body List.mem_cons_self)
          (tag.not_mem_name (c := '>') (by decide))

/-- In a tag of another element, whose name does not go on from such a name, no such tag is
found. -/
theorem OpeningTag.allMatches_eq_nil {tag : OpeningTag} (hnames : ElementNames names isName)
    (htails : NameTails isName) (hother : ¬isName tag.name) (hext : ¬Extends isName tag.name)
    (halone : tag.Alone isName) : (tagOf names).allMatches tag.text = [] := by
  refine allMatches_tagOf_eq_nil hnames fun above body below heq hbody => ?_
  cases above with
  | nil =>
      obtain ⟨-, heq⟩ := List.cons.inj heq
      obtain ⟨s, rfl, hs⟩ := tag.exists_body heq hbody
      rwa [beginsWithName_append_iff hnames.toWordNames htails tag.name_ne_nil
        tag.isNameChar_of_mem hs hother]
  | cons a above =>
      obtain ⟨-, heq⟩ := List.cons.inj heq
      rcases List.append_eq_append_iff.mp heq with ⟨more, -, hrest⟩ | ⟨more, hname, hmore⟩
      · exact halone more body below hrest hbody
      · cases more with
        | nil => exact halone [] body below hmore.symm hbody
        | cons c more =>
            obtain ⟨rfl, -⟩ := List.cons.inj hmore
            exact absurd (hname ▸ List.mem_append_right above List.mem_cons_self)
              (tag.not_mem_name (c := '<') (by decide))

/-- The tag of a name without anything else. -/
def bareTag (name : List Char) (hne : name ≠ []) (hchars : ∀ c ∈ name, isNameChar c = true) :
    OpeningTag where
  name
  rest := []
  name_ne_nil := hne
  isNameChar_of_mem := hchars
  maximal _ h := by cases h

theorem alone_bareTag {hne : name ≠ []} {hchars : ∀ c ∈ name, isNameChar c = true} :
    (bareTag name hne hchars).Alone isName := by
  intro above body below heq
  have hmem : '<' ∈ above ++ '<' :: (body ++ '>' :: below) := by simp
  rw [← heq] at hmem
  exact absurd (show '<' ∈ ['>'] from hmem) (by decide)

/-- A bare tag whose name goes on from such a name is found. -/
theorem texts_bareTag (hnames : ElementNames names isName) {hne : name ≠ []}
    {hchars : ∀ c ∈ name, isNameChar c = true} (hext : Extends isName name) :
    ((tagOf names).allMatches (bareTag name hne hchars).text).map (·.text) =
      [(bareTag name hne hchars).text] := by
  obtain ⟨base, c, more, hname, hbase, hc⟩ := hext
  have hnext : Text.isWord c = false := by
    rcases hc with rfl | rfl | rfl <;> decide
  refine texts_allMatches_tagOf hnames List.not_mem_nil
    ((bareTag name hne hchars).not_mem_name (c := '>') (by decide)) ?_ List.not_mem_nil
  exact ⟨base, c :: more, hname, hbase, (hnames.isBoundary_iff hbase _).mpr hnext⟩

/-- Among the names that elements can have, those of images are `Image` and those whose small
letters are `img`. -/
theorem isImageName_iff (hchars : ∀ c ∈ name, isNameChar c = true) :
    IsImageName name ↔ name.map Char.toLower = "img".toList ∨ name = "Image".toList := by
  rw [IsImageName, inAnyCase_iff (by decide) fun c hc => toNat_lt_of_isNameChar (hchars c hc)]

theorem isControlName_iff (hchars : ∀ c ∈ name, isNameChar c = true) :
    IsControlName name ↔
      name.map Char.toLower ∈ ["input", "textarea", "select"].map String.toList := by
  have hascii : ∀ c ∈ name, c.toNat < 128 := fun c hc => toNat_lt_of_isNameChar (hchars c hc)
  have hword : ∀ w ∈ ["input", "textarea", "select"],
      (InAnyCase w name ↔ name.map Char.toLower = w.toList) := by
    intro w hw
    simp only [List.mem_cons, List.not_mem_nil, or_false] at hw
    rcases hw with rfl | rfl | rfl <;> exact inAnyCase_iff (by decide) hascii
  rw [IsControlName, List.mem_map]
  exact exists_congr fun w => and_congr_right fun hw => (hword w hw).trans eq_comm

/-- A source without lines, for which no component takes care of accessibility. -/
def plainSource : Source := .of ⟨"", []⟩ []

theorem not_mem_equals_bareTag {hne : name ≠ []} {hchars : ∀ c ∈ name, isNameChar c = true} :
    '=' ∉ (bareTag name hne hchars).text := by
  have hname : '=' ∉ name := (bareTag name hne hchars).not_mem_name (by decide)
  simp [OpeningTag.text, bareTag, hname]

/-- A bare tag that is taken for an image has no `alt`. -/
theorem detectMissingAlt_bareTag_ne_nil {hne : name ≠ []} {hchars : ∀ c ∈ name, isNameChar c = true}
    (hext : Extends IsImageName name) :
    detectMissingAlt (bareTag name hne hchars).text 0 plainSource ≠ [] := by
  have htags :
      imageTags (bareTag name hne hchars).text plainSource = [(bareTag name hne hchars).text] :=
    texts_bareTag elementNames_image hext
  have halt : altAttribute.occursIn (bareTag name hne hchars).text = false :=
    not_occursIn_of_not_mem_equals attributeNames_alt not_mem_equals_bareTag
  have hequiv : hasAltEquivalent (bareTag name hne hchars).text = false := by
    rw [← Bool.not_eq_true, hasAltEquivalent_iff]
    rintro ⟨prop, -, above, below, heq⟩
    have hequals : '=' ∉ (bareTag name hne hchars).text := not_mem_equals_bareTag
    exact hequals (by simp [heq])
  simp [detectMissingAlt, htags, halt, hequiv]

/-- A bare tag that is taken for a control has no label. -/
theorem detectMissingFormLabel_bareTag_ne_nil {hne : name ≠ []}
    {hchars : ∀ c ∈ name, isNameChar c = true} (hext : Extends IsControlName name) :
    detectMissingFormLabel (bareTag name hne hchars).text 0 plainSource ≠ [] := by
  obtain ⟨m, hmatches, htext⟩ :=
    List.map_eq_singleton_iff.mp (texts_bareTag elementNames_control hext)
  have hmatches' : formControl.allMatches (bareTag name hne hchars).text = [m] := hmatches
  have hlabel : labelHook.occursIn m.text = false := by
    rw [htext]
    exact not_occursIn_of_not_mem_equals attributeNames_label not_mem_equals_bareTag
  have hhidden : hiddenInput.occursIn m.text = false := by
    rw [htext, ← Bool.not_eq_true, occursIn_iff (by decide)]
    rintro ⟨s₁, t, after, heq, hcovers⟩
    obtain ⟨-, _, gap, gap', value, q, q', rfl, -⟩ := covers_hiddenInput_iff.mp hcovers
    have hequals : '=' ∉ (bareTag name hne hchars).text := not_mem_equals_bareTag
    exact hequals (by simp [heq])
  simp [detectMissingFormLabel, hmatches', hlabel, hhidden]

/-- Whether the detectors of images stay silent about all tags of another element hangs on its name:
they do exactly when it does not go on from the name of an image with a hyphen, a point or a colon.
So it is with the detector of unlabelled controls and the names of controls. -/
theorem silent_iff_not_extends {name : List Char} (hne : name ≠ [])
    (hchars : ∀ c ∈ name, isNameChar c = true) :
    (name.map Char.toLower ≠ "img".toList → name ≠ "Image".toList →
      ((∀ tag : OpeningTag, tag.name = name → tag.Alone IsImageName → ∀ index source,
          detectMissingAlt tag.text index source = [] ∧ detectEmptyAlt tag.text index source = [] ∧
            detectGenericAlt tag.text index source = []) ↔ ¬Extends IsImageName name)) ∧
    (name.map Char.toLower ∉ ["input", "textarea", "select"].map String.toList →
      ((∀ tag : OpeningTag, tag.name = name → tag.Alone IsControlName → ∀ index source,
          detectMissingFormLabel tag.text index source = []) ↔ ¬Extends IsControlName name)) := by
  constructor
  · intro himg hcomponent
    have hother : ¬IsImageName name := by
      rw [isImageName_iff hchars]
      exact not_or.mpr ⟨himg, hcomponent⟩
    constructor
    · intro hsilent hext
      exact detectMissingAlt_bareTag_ne_nil hext
        (hsilent (bareTag name hne hchars) rfl alone_bareTag 0 plainSource).1
    · rintro hext tag rfl halone index source
      refine detectors_of_imageTags_eq_nil ?_ index
      have hnone : imageTag.allMatches tag.text = [] :=
        tag.allMatches_eq_nil elementNames_image nameTails_image hother hext halone
      simp [imageTags, hnone]
  · intro hcontrol
    have hother : ¬IsControlName name := by
      rwa [isControlName_iff hchars]
    constructor
    · intro hsilent hext
      exact detectMissingFormLabel_bareTag_ne_nil hext
        (hsilent (bareTag name hne hchars) rfl alone_bareTag 0 plainSource)
    · rintro hext tag rfl halone index source
      have hnone : formControl.allMatches tag.text = [] :=
        tag.allMatches_eq_nil elementNames_control nameTails_control hother hext halone
      simp [detectMissingFormLabel, hnone]

theorem silent_iff_not_extends_imageWithAlt :
    ("ImageWithAlt".toList ≠ [] ∧ ∀ c ∈ "ImageWithAlt".toList, isNameChar c = true) ∧
    ∀ tag : OpeningTag, tag.name = "ImageWithAlt".toList → tag.Alone IsImageName → ∀ index source,
      detectMissingAlt tag.text index source = [] ∧ detectEmptyAlt tag.text index source = [] ∧
        detectGenericAlt tag.text index source = [] := by
  have hext : ¬Extends IsImageName "ImageWithAlt".toList := by
    rintro ⟨base, c, more, heq, -, hc⟩
    have hmem : c ∈ "ImageWithAlt".toList := heq ▸ List.mem_append_right base List.mem_cons_self
    rcases hc with rfl | rfl | rfl <;> exact absurd hmem (by decide)
  have hchars : ∀ c ∈ "ImageWithAlt".toList, isNameChar c = true := List.all_eq_true.mp (by decide)
  exact ⟨⟨by decide, hchars⟩,
    ((silent_iff_not_extends (by decide) hchars).1 (by decide) (by decide)).mpr hext⟩

/-- A tag with something behind its name and a space. -/
def spacedTag (name rest : String) (hne : name.toList ≠ [])
    (hchars : name.toList.all isNameChar = true) :
    OpeningTag where
  name := name.toList
  rest := ' ' :: rest.toList
  name_ne_nil := hne
  isNameChar_of_mem := List.all_eq_true.mp hchars
  maximal c hc := by
    obtain rfl : ' ' = c := by simpa using hc
    decide

/-- Tags of elements that are neither images nor controls, although their names begin with such
names. -/
def wrapperTag : OpeningTag := spacedTag "img-wrapper" "src=\"a.png\"" (by decide) (by decide)

def groupTag : OpeningTag := spacedTag "input-group" "name=\"a\"" (by decide) (by decide)

/-- The tag of a custom element is reported as an image, or as a control. -/
theorem custom_elements_reported :
    (wrapperTag.text = "<img-wrapper src=\"a.png\">".toList ∧ ¬IsImageName wrapperTag.name ∧
      (detectMissingAlt wrapperTag.text 0 plainSource).map (·.kind) = ["missing_alt"]) ∧
    (groupTag.text = "<input-group name=\"a\">".toList ∧ ¬IsControlName groupTag.name ∧
      (detectMissingFormLabel groupTag.text 0 plainSource).map (·.kind) =
        ["missing_form_label"]) := by
  decide +kernel

/-! ## Images that are described in another way -/

/-- The alternative text of the tag is generic. -/
def HasGenericAlt (tag : List Char) : Prop :=
  ∃ m, altValue.search? tag = some m ∧ isGenericAlt (Text.strip (m.group 2)) = true

/-- Where each image has a prop that stands in for `alt`, none is reported for a missing or an empty
`alt`, and whether one is reported for a generic one hangs on the alternative texts alone. -/
theorem exempt_images_reported_iff (line : List Char) (index : Nat) (source : Source)
    (hcomponents : usesComponent line source.components = false)
    (hexempt : ∀ tag ∈ (imageTag.allMatches line).map (·.text), CarriesEquivalent tag) :
    detectMissingAlt line index source = [] ∧ detectEmptyAlt line index source = [] ∧
      (detectGenericAlt line index source = [] ↔
        ∀ tag ∈ (imageTag.allMatches line).map (·.text), ¬HasGenericAlt tag) := by
  have htags : imageTags line source = (imageTag.allMatches line).map (·.text) := by
    rw [imageTags, hcomponents]
    rfl
  have hequiv : ∀ tag ∈ imageTags line source, hasAltEquivalent tag = true := fun tag h =>
    hasAltEquivalent_iff.mpr (hexempt tag (htags ▸ h))
  refine ⟨?_, ?_, ?_⟩
  · rw [detectMissingAlt, List.filterMap_eq_nil_iff]
    intro tag h
    simp [hequiv tag h]
  · rw [detectEmptyAlt, List.filterMap_eq_nil_iff]
    intro tag h
    split
    · simp [hequiv tag h]
    · rfl
  · rw [detectGenericAlt, List.filterMap_eq_nil_iff, htags]
    refine forall₂_congr fun tag _ => ?_
    rw [HasGenericAlt]
    cases altValue.search? tag with
    | none => simp
    | some m => simp

/-- A tag with a prop that stands in for `alt`, and with an alternative text. -/
def labelledImage (text : String) : List Char :=
  "<img src=\"a.png\" aria-label=\"Company logo\" alt=\"".toList ++ text.toList ++ "\">".toList

theorem exempt_images_reported_iff_mill :
    (usesComponent (labelledImage "The old mill") [] = false ∧
      ∀ tag ∈ (imageTag.allMatches (labelledImage "The old mill")).map (·.text),
        CarriesEquivalent tag) ∧
    detectMissingAlt (labelledImage "The old mill") 0 plainSource = [] ∧
    detectEmptyAlt (labelledImage "The old mill") 0 plainSource = [] ∧
    detectGenericAlt (labelledImage "The old mill") 0 plainSource = [] := by
  have hexempt : ∀ tag ∈ (imageTag.allMatches (labelledImage "The old mill")).map (·.text),
      CarriesEquivalent tag := by
    simp only [← hasAltEquivalent_iff]
    decide +kernel
  obtain ⟨hmissing, hempty, -⟩ :=
    exempt_images_reported_iff (labelledImage "The old mill") 0 plainSource rfl hexempt
  exact ⟨⟨rfl, hexempt⟩, hmissing, hempty, by decide +kernel⟩

/-- A generic alternative text is reported, whatever describes the image besides. -/
theorem exempt_image_reported :
    usesComponent (labelledImage "logo") [] = false ∧
    (∀ tag ∈ (imageTag.allMatches (labelledImage "logo")).map (·.text),
      hasAltEquivalent tag = true) ∧
    (detectGenericAlt (labelledImage "logo") 0 plainSource).map (·.message) =
      ["Image alt text is generic: \"logo\""] := by
  decide +kernel

end Accessibility

end FrontendAudit
