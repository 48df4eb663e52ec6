import FrontendAudit.Proofs.Xml.RoundTrip

/-!
# What a document says

A document can be read exactly when every text and every value in it is made of characters that a
document may hold. What is read is the element that was written but for its line ends
(`read?_document`): those of a text were written as they are, and every carriage return among them
is read as a line feed. In values they were written as references, which keeps them.
-/

namespace FrontendAudit

namespace Text

/-! ## Line ends -/

theorem filterMap_zip_congr (b b' : Option Char) (h : b = some '\r' ↔ b' = some '\r')
    (s : List Char) :
    (((b :: s.map some).zip s).filterMap fun (before, c) =>
      if c = '\n' ∧ before = some '\r' then none else some (if c = '\r' then '\n' else c)) =
    ((b' :: s.map some).zip s).filterMap fun (before, c) =>
      if c = '\n' ∧ before = some '\r' then none else some (if c = '\r' then '\n' else c) := by
  cases s with
  | nil => rfl
  | cons c s => simp only [List.map_cons, List.zip_cons_cons, List.filterMap_cons, h]

theorem normalizeNewlines_nil : normalizeNewlines [] = [] := rfl

theorem normalizeNewlines_eq_nil_iff {s : List Char} : normalizeNewlines s = [] ↔ s = [] := by
  cases s with
  | nil => simp [normalizeNewlines_nil]
  | cons c s => simp [normalizeNewlines, withPrevious]

/-- What is no carriage return stays. -/
theorem normalizeNewlines_cons {c : Char} (h : c ≠ '\r') (s : List Char) :
    normalizeNewlines (c :: s) = c :: normalizeNewlines s := by
  have hrest := filterMap_zip_congr (some c) none (by simp [h]) s
  unfold normalizeNewlines withPrevious
  rw [List.map_cons, List.zip_cons_cons, List.filterMap_cons]
  simp [h, hrest]

/-- A carriage return and the line feed behind it are one line feed. -/
theorem normalizeNewlines_pair (s : List Char) :
    normalizeNewlines ('\r' :: '\n' :: s) = '\n' :: normalizeNewlines s := by
  have hrest := filterMap_zip_congr (some '\n') none (by simp) s
  unfold normalizeNewlines withPrevious
  simp [hrest]

/-- A carriage return alone is a line feed. -/
theorem normalizeNewlines_return {s : List Char} (h : s.head? ≠ some '\n') :
    normalizeNewlines ('\r' :: s) = '\n' :: normalizeNewlines s := by
  cases s with
  | nil => rfl
  | cons c s =>
      have hc : c ≠ '\n' := fun heq => h (congrArg some heq)
      unfold normalizeNewlines withPrevious
      simp [hc]

theorem normalizeNewlines_of_not_mem {s : List Char} (h : '\r' ∉ s) : normalizeNewlines s = s := by
  induction s with
  | nil => rfl
  | cons c s ih =>
      rw [List.mem_cons, not_or] at h
      rw [normalizeNewlines_cons (Ne.symm h.1), ih h.2]

theorem return_not_mem_normalizeNewlines (s : List Char) : '\r' ∉ normalizeNewlines s := by
  unfold normalizeNewlines
  intro h
  obtain ⟨⟨before, c⟩, -, hc⟩ := List.mem_filterMap.mp h
  by_cases hreturn : c = '\r'
  · simp [hreturn] at hc
  · simp only [if_neg hreturn, Option.ite_none_left_eq_some, Option.some.injEq] at hc
    exact hreturn hc.2

/-- Only a text without carriage returns stays as it is. -/
theorem normalizeNewlines_eq_self_iff {s : List Char} : normalizeNewlines s = s ↔ '\r' ∉ s := by
  constructor
  · intro h
    rw [← h]
    exact return_not_mem_normalizeNewlines s
  · exact normalizeNewlines_of_not_mem

end Text

namespace Xml

open Text (normalizeNewlines)

/-- A text that becomes another when its line ends are made line feeds, whatever follows it. -/
def Settles (s s' : List Char) : Prop :=
  ∀ rest, normalizeNewlines (s ++ rest) = s' ++ normalizeNewlines rest

theorem Settles.append {s s' t t' : List Char} (h : Settles s s') (h' : Settles t t') :
    Settles (s ++ t) (s' ++ t') := by
  intro rest
  rw [List.append_assoc, h, h', List.append_assoc]

theorem settles_of_not_mem {s : List Char} (h : '\r' ∉ s) : Settles s s := by
  intro rest
  induction s with
  | nil => rfl
  | cons c s ih =>
      rw [List.mem_cons, not_or] at h
      rw [List.cons_append, Text.normalizeNewlines_cons (Ne.symm h.1), ih h.2]
      rfl

/-! ## Texts and values -/

theorem return_not_mem_textChar {c : Char} (h : c ≠ '\r') : '\r' ∉ textChar c := by
  unfold textChar
  split
  · decide
  · decide
  · decide
  · simpa using Ne.symm h

theorem return_not_mem_valueChar (c : Char) : '\r' ∉ valueChar c := by
  unfold valueChar
  split
  · decide
  · decide
  · decide
  · decide
  · next hreturn _ _ => exact return_not_mem_textChar hreturn

/-- Only a line feed is written with a line feed. -/
theorem head?_textChar {c : Char} (h : c ≠ '\n') (s : List Char) :
    (textChar c ++ s).head? ≠ some '\n' := by
  unfold textChar
  split
  · show some '&' ≠ some '\n'
    decide
  · show some '&' ≠ some '\n'
    decide
  · show some '&' ≠ some '\n'
    decide
  · simpa using h

/-- Line ends in a text are made line feeds as if nothing of it were written as a reference. -/
theorem settles_text {ending : List Char} (hending : '\r' ∉ ending) (s : List Char) :
    Settles (s.flatMap textChar ++ '<' :: ending)
      ((normalizeNewlines s).flatMap textChar ++ '<' :: ending) := by
  have hend : Settles ('<' :: ending) ('<' :: ending) := settles_of_not_mem (by simpa using hending)
  match s with
  | [] => exact hend
  | c :: s =>
      by_cases hreturn : c = '\r'
      · subst hreturn
        intro rest
        match s with
        | [] =>
            -- what follows the text begins with a tag, not with a line feed
            show normalizeNewlines ('\r' :: ('<' :: ending ++ rest)) = _
            have hhead : ('<' :: ending ++ rest).head? ≠ some '\n' := by
              show some '<' ≠ some '\n'
              decide
            rw [Text.normalizeNewlines_return hhead, hend rest]
            rfl
        | d :: s =>
            by_cases hfeed : d = '\n'
            · subst hfeed
              show normalizeNewlines ('\r' :: '\n' :: ((s.flatMap textChar ++ _) ++ rest)) = _
              rw [Text.normalizeNewlines_pair, Text.normalizeNewlines_pair,
                settles_text hending s rest]
              rfl
            · have hrest := settles_text hending (d :: s) rest
              rw [List.flatMap_cons, List.append_assoc, List.append_assoc] at hrest
              have hhead : (d :: s).head? ≠ some '\n' := fun h => hfeed (Option.some.inj h)
              rw [Text.normalizeNewlines_return hhead]
              show normalizeNewlines ('\r' :: (((textChar d ++ s.flatMap textChar) ++ _) ++ rest)) =
                  _
              rw [List.append_assoc, List.append_assoc,
                Text.normalizeNewlines_return (head?_textChar hfeed _), hrest]
              rfl
      · rw [Text.normalizeNewlines_cons hreturn, List.flatMap_cons, List.flatMap_cons,
          List.append_assoc, List.append_assoc]
        exact (settles_of_not_mem (return_not_mem_textChar hreturn)).append (settles_text hending s)
termination_by s.length

/-! ## Elements -/

/-- A text with its line ends made line feeds. -/
def normalized (s : String) : String := String.ofList (normalizeNewlines s.toList)

namespace Element

mutual

/-- The element with the line ends of its texts made line feeds. -/
def normalized : Element → Element
  | .mk name attributes text children =>
    .mk name attributes (Xml.normalized text) (normalizedAll children)

def normalizedAll : List Element → List Element
  | [] => []
  | e :: es => e.normalized :: normalizedAll es

end

mutual

/-- The texts of an element and of all below it. -/
def texts : Element → List String
  | .mk _ _ text children => text :: textsOf children

def textsOf : List Element → List String
  | [] => []
  | e :: es => e.texts ++ textsOf es

end

mutual

/-- The values and texts of an element and of all below it. -/
def strings : Element → List String
  | .mk _ attributes text children => attributes.map (·.2) ++ text :: stringsOf children

def stringsOf : List Element → List String
  | [] => []
  | e :: es => e.strings ++ stringsOf es

end

theorem normalizedAll_eq_nil {es : List Element} : normalizedAll es = [] ↔ es = [] := by
  cases es <;> simp [normalizedAll]

end Element

theorem normalized_empty : normalized "" = "" := rfl

theorem toList_normalized (s : String) : (normalized s).toList = normalizeNewlines s.toList :=
  String.toList_ofList

theorem isEmpty_normalized (s : String) : (normalized s).isEmpty = s.isEmpty := by
  rw [Bool.eq_iff_iff, String.isEmpty_iff, String.isEmpty_iff, ← String.toList_eq_nil_iff,
    toList_normalized, Text.normalizeNewlines_eq_nil_iff, String.toList_eq_nil_iff]

mutual

theorem Element.isPlain_normalized : ∀ e : Element, e.IsPlain → e.normalized.IsPlain
  | .mk name attributes text children, ⟨hname, hnames, hnew, htext, hchildren⟩ => by
      refine ⟨hname, hnames, hnew, fun hne => ?_, Element.arePlain_normalizedAll children hchildren⟩
      rw [htext (fun h => hne (normalizedAll_eq_nil.mpr h)), normalized_empty]

theorem Element.arePlain_normalizedAll : ∀ es : List Element, Element.ArePlain es →
    Element.ArePlain (Element.normalizedAll es)
  | [], _ => trivial
  | e :: es, ⟨he, hes⟩ => ⟨e.isPlain_normalized he, Element.arePlain_normalizedAll es hes⟩

end

/-! ### Line ends of what is written -/

theorem return_not_mem_name {s : List Char} (h : isName s = true) : '\r' ∉ s := by
  obtain ⟨c, cs, rfl, hstart, hcs⟩ := isName_cons h
  intro hmem
  have hreturn : isNameChar '\r' = true := by
    rcases List.mem_cons.mp hmem with rfl | hmem
    · exact isNameChar_of_isNameStart hstart
    · exact List.all_eq_true.mp hcs _ hmem
  revert hreturn
  decide

theorem return_not_mem_opening {name : String} {attributes : List (String × String)}
    (hname : isName name.toList = true) (hnames : ∀ a ∈ attributes, isName a.1.toList = true) :
    '\r' ∉ '<' :: (name.toList ++ attributes.flatMap printAttribute) := by
  have hattributes : '\r' ∉ attributes.flatMap printAttribute := by
    intro h
    obtain ⟨a, ha, h⟩ := List.mem_flatMap.mp h
    simp [printAttribute, return_not_mem_name (hnames a ha), return_not_mem_valueChar] at h
  simp [return_not_mem_name hname, hattributes]

theorem return_not_mem_lead (indented : Bool) (depth : Nat) : '\r' ∉ lead indented depth := by
  unfold lead
  split
  · simp
  · exact List.not_mem_nil

mutual

/-- What is written for an element becomes what is written for the element with normal line ends. -/
theorem settles_print (indented : Bool) : ∀ e : Element, e.IsPlain → ∀ depth,
    Settles (print indented depth e) (print indented depth e.normalized)
  | .mk name attributes text [], ⟨hname, hnames, _⟩, depth => by
      have hopening := return_not_mem_opening hname hnames
      have hempty := isEmpty_normalized text
      simp only [Element.normalized, Element.normalizedAll, print, hempty]
      by_cases htext : text.isEmpty = true
      · rw [if_pos htext, if_pos htext]
        exact (settles_of_not_mem hopening).append (settles_of_not_mem (by decide))
      · rw [if_neg htext, if_neg htext, toList_normalized]
        have hending : '\r' ∉ '/' :: (name.toList ++ ['>']) := by
          simp [return_not_mem_name hname]
        have hstart : Settles ['>'] ['>'] := settles_of_not_mem (by decide)
        exact (settles_of_not_mem hopening).append
          (hstart.append (settles_text hending text.toList))
  | .mk name attributes text (child :: children), ⟨hname, hnames, _, htext, hchildren⟩, depth => by
      obtain rfl : text = "" := htext (List.cons_ne_nil _ _)
      have hopening := return_not_mem_opening hname hnames
      have hstart : Settles ['>'] ['>'] := settles_of_not_mem (by decide)
      have hlead := settles_of_not_mem (return_not_mem_lead indented depth)
      have hending : Settles ('<' :: '/' :: (name.toList ++ ['>']))
          ('<' :: '/' :: (name.toList ++ ['>'])) :=
        settles_of_not_mem (by simp [return_not_mem_name hname])
      exact (settles_of_not_mem hopening).append (hstart.append
        (((settles_printAll indented (child :: children) hchildren (depth + 1)).append hlead).append
          hending))

theorem settles_printAll (indented : Bool) : ∀ es : List Element, Element.ArePlain es → ∀ depth,
    Settles (printAll indented depth es) (printAll indented depth (Element.normalizedAll es))
  | [], _, _ => settles_of_not_mem List.not_mem_nil
  | e :: es, ⟨he, hes⟩, depth =>
      ((settles_of_not_mem (return_not_mem_lead indented depth)).append
        (settles_print indented e he depth)).append (settles_printAll indented es hes depth)

end

/-! ## Characters of what is written -/

theorem isChar_of_isNameChar {c : Char} (h : isNameChar c = true) : isChar c = true := by
  simp only [isNameChar, nameRanges, nameStartRanges, isChar, charRanges, List.cons_append,
    List.nil_append, List.any_cons, List.any_nil, Bool.or_eq_true, Text.CodeRange.holds_iff,
    Bool.false_eq_true, or_false] at h ⊢
  omega

theorem all_isChar_name {s : List Char} (h : isName s = true) : s.all isChar = true := by
  obtain ⟨c, cs, rfl, hstart, hcs⟩ := isName_cons h
  rw [List.all_cons, isChar_of_isNameChar (isNameChar_of_isNameStart hstart), Bool.true_and]
  exact List.all_eq_true.mpr fun c' hc' => isChar_of_isNameChar (List.all_eq_true.mp hcs c' hc')

theorem all_isChar_textChar (c : Char) : (textChar c).all isChar = isChar c := by
  unfold textChar
  split
  · decide
  · decide
  · decide
  · simp

theorem all_isChar_valueChar (c : Char) : (valueChar c).all isChar = isChar c := by
  unfold valueChar
  split
  · decide
  · decide
  · decide
  · decide
  · exact all_isChar_textChar c

theorem all_isChar_flatMap {f : Char → List Char} (h : ∀ c, (f c).all isChar = isChar c)
    (s : List Char) : (s.flatMap f).all isChar = s.all isChar := by
  rw [List.all_flatMap]
  simp only [h]

theorem all_isChar_attributes {attributes : List (String × String)}
    (hnames : ∀ a ∈ attributes, isName a.1.toList = true) :
    (attributes.flatMap printAttribute).all isChar =
      (attributes.map (·.2)).all fun s => s.toList.all isChar := by
  induction attributes with
  | nil => rfl
  | cons a attributes ih =>
      have hrest := ih fun b hb => hnames b (List.mem_cons_of_mem a hb)
      have hmarks : isChar ' ' = true ∧ isChar '=' = true ∧ isChar '"' = true := by decide
      rw [List.flatMap_cons, List.all_append, hrest, List.map_cons, List.all_cons, printAttribute]
      simp [all_isChar_name (hnames a List.mem_cons_self), all_isChar_flatMap all_isChar_valueChar,
        hmarks]

theorem all_isChar_lead (indented : Bool) (depth : Nat) :
    (lead indented depth).all isChar = true := by
  have hspace : isChar ' ' = true ∧ isChar '\n' = true := by decide
  unfold lead
  split
  · simp [hspace]
  · rfl

mutual

/-- Only values and texts bring characters that a document may not hold. -/
theorem all_isChar_print (indented : Bool) : ∀ e : Element, e.IsPlain → ∀ depth,
    (print indented depth e).all isChar = e.strings.all fun s => s.toList.all isChar
  | .mk name attributes text [], ⟨hname, hnames, _⟩, depth => by
      have hmarks :
          isChar '<' = true ∧ isChar '>' = true ∧ isChar '/' = true ∧ isChar ' ' = true := by
        decide
      rw [print]
      by_cases htext : text.isEmpty = true
      · obtain rfl : text = "" := by simpa using htext
        simp [all_isChar_name hname, all_isChar_attributes hnames, hmarks, Element.strings,
          Element.stringsOf]
      · rw [if_neg htext]
        simp [all_isChar_name hname, all_isChar_attributes hnames, hmarks, Element.strings,
          Element.stringsOf, all_isChar_flatMap all_isChar_textChar]
  | .mk name attributes text (child :: children), ⟨hname, hnames, _, htext, hchildren⟩, depth => by
      have hmarks : isChar '<' = true ∧ isChar '>' = true ∧ isChar '/' = true := by decide
      have hall := all_isChar_printAll indented (child :: children) hchildren (depth + 1)
      rw [print, Element.strings]
      · simp [all_isChar_name hname, all_isChar_attributes hnames, hmarks, hall,
          all_isChar_flatMap all_isChar_textChar, all_isChar_lead]
      · exact List.cons_ne_nil _ _

theorem all_isChar_printAll (indented : Bool) : ∀ es : List Element, Element.ArePlain es → ∀ depth,
    (printAll indented depth es).all isChar =
      (Element.stringsOf es).all fun s => s.toList.all isChar
  | [], _, _ => rfl
  | e :: es, ⟨he, hes⟩, depth => by
      rw [printAll, Element.stringsOf, List.all_append, List.all_append, List.all_append,
        all_isChar_lead, Bool.true_and, all_isChar_print indented e he,
        all_isChar_printAll indented es hes]

end

/-! ## Documents -/

theorem toList_document (e : Element) :
    e.document.toList = declaration.toList ++ print true 0 e := by
  rw [Element.document, String.toList_append, String.toList_ofList]

theorem behindDeclaration?_declaration (body : List Char) :
    behindDeclaration? (declaration.toList ++ body) = some ('\n' :: body) := rfl

/-- The machine reads what is written for an element as a document. -/
theorem run_document {e : Element} (h : e.IsPlain) :
    ∃ n, ((Reader.run {} ('\n' :: print true 0 e)).bind (·.document?)) = some n ∧
      n.unindented = .ofElement e := by
  obtain ⟨n, hn, -, hread⟩ := Reader.run_print true e h 0 {} rfl rfl
  have hfeed : Reader.step {} '\n' = some {} := rfl
  refine ⟨n, ?_, hread⟩
  rw [Reader.run_cons, hfeed, Option.bind_some, hn]
  rfl

/-- A document can be read when it holds no character that it may not hold; what is read is the
element, with the line ends of its texts made line feeds. -/
theorem read?_document {e : Element} (h : e.IsPlain) :
    if e.strings.all (fun s => s.toList.all isChar) then
      ∃ n, read? e.document.toList = some n ∧ n.unindented = .ofElement e.normalized
    else read? e.document.toList = none := by
  have hchars : e.document.toList.all isChar = e.strings.all fun s => s.toList.all isChar := by
    have hdeclaration : declaration.toList.all isChar = true := by decide
    rw [toList_document, List.all_append, hdeclaration, Bool.true_and, all_isChar_print true e h]
  have hlines : normalizeNewlines e.document.toList =
      declaration.toList ++ print true 0 e.normalized := by
    have hdeclaration : Settles declaration.toList declaration.toList :=
      settles_of_not_mem (by decide)
    have hsettles := hdeclaration.append (settles_print true e h 0) []
    rwa [List.append_nil, Text.normalizeNewlines_nil, List.append_nil,
      ← toList_document] at hsettles
  rw [← hchars]
  cases hall : e.document.toList.all isChar with
  | false =>
      rw [if_neg Bool.false_ne_true, read?, hall]
      rfl
  | true =>
      obtain ⟨n, hn, hread⟩ := run_document (e.isPlain_normalized h)
      refine ⟨n, ?_, hread⟩
      rw [read?, hall, hlines, behindDeclaration?_declaration]
      exact hn

end Xml

end FrontendAudit
