import FrontendAudit.Proofs.Xml.Document
import FrontendAudit.Report.Write

/-!
# Reading test suites back

The document of test suites can be read exactly when everything in it that comes from findings and
categories is made of characters that XML knows, and it says what was put into it exactly when,
besides, the code of no high issue has a carriage return (`junit_read_back_iff`). Nothing else is
lost: names, places and messages stand in values, where all that could be taken for something else
is written as a reference.
-/

namespace FrontendAudit

namespace Xml

/-- A text that a document may hold. -/
def IsText (s : String) : Prop := s.toList.all isChar = true

theorem isText_append {s s' : String} : IsText (s ++ s') ↔ IsText s ∧ IsText s' := by
  rw [IsText, String.toList_append, List.all_append, Bool.and_eq_true]
  rfl

/-! ## Elements that are read as they were -/

theorem ofElements_ne_text {es : List Element} {s : List Char} {ns : List Node} :
    Node.ofElements es ≠ .text s :: ns := by
  intro h
  cases es with
  | nil => cases h
  | cons e es =>
      obtain ⟨name, attributes, text, children⟩ := e
      cases (List.cons.inj h).1

/-- The text in front of the children can be told from them. -/
theorem textNodes_append_inj {s s' : List Char} {es es' : List Element} :
    textNodes s ++ Node.ofElements es = textNodes s' ++ Node.ofElements es' ↔
      s = s' ∧ Node.ofElements es = Node.ofElements es' := by
  constructor
  · intro h
    cases s with
    | nil =>
        cases s' with
        | nil => exact ⟨rfl, h⟩
        | cons c s' => exact absurd h ofElements_ne_text
    | cons c s =>
        cases s' with
        | nil => exact absurd h.symm ofElements_ne_text
        | cons c' s' =>
            obtain ⟨hs, hes⟩ := List.cons.inj h
            exact ⟨Node.text.inj hs, hes⟩
  · rintro ⟨rfl, h⟩
    rw [h]

mutual

/-- An element is the same with normal line ends when no text in it has a carriage return. -/
theorem ofElement_normalized_eq_iff : ∀ e : Element,
    Node.ofElement e.normalized = Node.ofElement e ↔ ∀ s ∈ e.texts, '\r' ∉ s.toList
  | .mk name attributes text children => by
      rw [Element.normalized, Node.ofElement, Node.ofElement, Node.element.injEq,
        textNodes_append_inj, toList_normalized, Text.normalizeNewlines_eq_self_iff,
        ofElements_normalizedAll_eq_iff children, Element.texts, List.forall_mem_cons]
      simp

theorem ofElements_normalizedAll_eq_iff : ∀ es : List Element,
    Node.ofElements (Element.normalizedAll es) = Node.ofElements es ↔
      ∀ s ∈ Element.textsOf es, '\r' ∉ s.toList
  | [] => by simp [Element.normalizedAll, Element.textsOf]
  | e :: es => by
      rw [Element.normalizedAll, Node.ofElements, Node.ofElements, List.cons.injEq,
        ofElement_normalized_eq_iff e, ofElements_normalizedAll_eq_iff es, Element.textsOf,
        List.forall_mem_append]

end

/-! ## Elements side by side -/

theorem isPlain_of_names {name text : String} {attributes : List (String × String)}
    {children : List Element} (names : List String) (hattributes : attributes.map (·.1) = names)
    (hnames : (name :: names).all (fun n => isName n.toList) = true ∧
      (names.map String.toList).Nodup)
    (htext : children ≠ [] → text = "") (hchildren : Element.ArePlain children) :
    (Element.mk name attributes text children).IsPlain := by
  obtain ⟨hvalid, hnew⟩ := hnames
  rw [List.all_cons, Bool.and_eq_true] at hvalid
  subst hattributes
  rw [List.map_map] at hnew
  refine ⟨hvalid.1, fun a ha => ?_, hnew, htext, hchildren⟩
  exact List.all_eq_true.mp hvalid.2 a.1 (List.mem_map_of_mem ha)

theorem arePlain_map {α : Type} {f : α → Element} {l : List α} :
    Element.ArePlain (l.map f) ↔ ∀ a ∈ l, (f a).IsPlain := by
  induction l with
  | nil => simp [Element.ArePlain]
  | cons a l ih => rw [List.map_cons, Element.ArePlain, ih, List.forall_mem_cons]

theorem forall_mem_stringsOf_map {α : Type} {f : α → Element} {l : List α} {p : String → Prop} :
    (∀ s ∈ Element.stringsOf (l.map f), p s) ↔ ∀ a ∈ l, ∀ s ∈ (f a).strings, p s := by
  induction l with
  | nil => simp [Element.stringsOf]
  | cons a l ih =>
      rw [List.map_cons, Element.stringsOf, List.forall_mem_append, ih, List.forall_mem_cons]

theorem forall_mem_textsOf_map {α : Type} {f : α → Element} {l : List α} {p : String → Prop} :
    (∀ s ∈ Element.textsOf (l.map f), p s) ↔ ∀ a ∈ l, ∀ s ∈ (f a).texts, p s := by
  induction l with
  | nil => simp [Element.textsOf]
  | cons a l ih =>
      rw [List.map_cons, Element.textsOf, List.forall_mem_append, ih, List.forall_mem_cons]

end Xml

namespace Junit

open Xml (IsText)

/-- The code that the failure of a high issue shows. -/
def shownCode (f : Finding) : Option String := if f.severity = .high then f.code else none

/-- Whatever goes into the document from categories and findings is text that a document may
hold. -/
structure IsReadable (results : Results) (timestamp : String) : Prop where
  timestamp : IsText timestamp
  categories : ∀ r ∈ results, IsText r.1
  kinds : ∀ r ∈ results, ∀ f ∈ r.2.issues, IsText f.kind
  messages : ∀ r ∈ results, ∀ f ∈ r.2.issues, IsText f.message
  places : ∀ r ∈ results, ∀ f ∈ r.2.issues, ∀ place, f.location? = some place → IsText place
  codes : ∀ r ∈ results, ∀ f ∈ r.2.issues, ∀ code, shownCode f = some code → IsText code

/-- No failure shows code with a carriage return. -/
def KeepsLines (results : Results) : Prop :=
  ∀ r ∈ results, ∀ f ∈ r.2.issues, ∀ code, shownCode f = some code → '\r' ∉ code.toList

/-! ## The tree of test suites -/

theorem failures_eq (f : Finding) : failures f = if f.severity = .high then
    [.mk "failure" [("message", f.message), ("type", f.severity.name)] ((shownCode f).getD "") []]
    else [] := by
  unfold failures shownCode
  split <;> rfl

theorem isPlain_testCase (category : String) (f : Finding) : (testCase category f).IsPlain := by
  have hfailures : Xml.Element.ArePlain (failures f) := by
    unfold failures
    split
    · exact ⟨Xml.isPlain_of_names ["message", "type"] rfl
        (by decide) (fun h => absurd rfl h) trivial, trivial⟩
    · trivial
  exact Xml.isPlain_of_names ["name", "classname"] rfl (by decide) (fun _ => rfl) hfailures

theorem isPlain_suite (category : String) (r : AuditResult) : (suite category r).IsPlain :=
  Xml.isPlain_of_names ["name", "tests", "failures"] rfl (by decide) (fun _ => rfl)
    (Xml.arePlain_map.mpr fun f _ => isPlain_testCase category f)

theorem isPlain_suites (results : Results) (timestamp : String) :
    (suites results timestamp).IsPlain :=
  Xml.isPlain_of_names ["timestamp"] rfl (by decide) (fun _ => rfl)
    (Xml.arePlain_map.mpr fun r _ => isPlain_suite r.1 r.2)

/-! ## The strings of the tree -/

instance (s : String) : Decidable (IsText s) := inferInstanceAs (Decidable (_ = true))

theorem isChar_of_isDigit {c : Char} (h : c.isDigit = true) : Xml.isChar c = true := by
  have hrange : 48 ≤ c.toNat ∧ c.toNat ≤ 57 := by
    simpa [Char.isDigit, UInt32.le_iff_toNat_le] using h
  simp only [Xml.isChar, Xml.charRanges, List.any_cons, List.any_nil, Bool.or_eq_true,
    Text.CodeRange.holds_iff]
  omega

theorem isText_toString (n : Int) : IsText (toString n) := by
  have hnat : ∀ n : Nat, IsText n.repr := by
    intro n
    refine List.all_eq_true.mpr fun c hc => isChar_of_isDigit ?_
    rw [Nat.repr, String.toList_ofList] at hc
    exact Nat.isDigit_of_mem_toDigits (by decide) (by decide) hc
  cases n with
  | ofNat n => exact hnat n
  | negSucc n => exact Xml.isText_append.mpr ⟨by decide, hnat _⟩

/-- A place is written with its line behind it. -/
theorem isText_location (f : Finding) :
    IsText (location f) ↔ ∀ place, f.location? = some place → IsText place := by
  have hplace : IsText (f.location?.getD "") ↔ ∀ place, f.location? = some place →
      IsText place := by
    cases f.location? with
    | none => exact ⟨fun _ _ h => (nomatch h), fun _ => by decide⟩
    | some place => simp
  rw [← hplace]
  unfold location
  cases f.line with
  | none => exact Iff.rfl
  | some n =>
      by_cases hzero : n = 0
      · simp [hzero]
      · have hcolon : IsText ":" := by decide
        simp only [hzero, if_false, Xml.isText_append, isText_toString, hcolon, and_true]

/-- What is read of an issue's case. -/
theorem strings_testCase (category : String) (f : Finding) (hcategory : IsText category) :
    (∀ s ∈ (testCase category f).strings, IsText s) ↔ IsText f.kind ∧ IsText f.message ∧
      (∀ place, f.location? = some place → IsText place) ∧
      ∀ code, shownCode f = some code → IsText code := by
  have hclass : IsText (if (location f).isEmpty then category else category ++ "." ++ location f) ↔
      ∀ place, f.location? = some place → IsText place := by
    rw [← isText_location]
    by_cases hempty : (location f).isEmpty = true
    · -- then the class is the category alone
      have hlocation : location f = "" := by simpa using hempty
      rw [if_pos hempty, hlocation]
      exact iff_of_true hcategory (by decide)
    · rw [if_neg hempty, Xml.isText_append, Xml.isText_append]
      simp [hcategory, show IsText "." by decide]
  have hfailures : (∀ s ∈ Xml.Element.stringsOf (failures f), IsText s) ↔
      (f.severity = .high → IsText f.message) ∧ ∀ code, shownCode f = some code → IsText code := by
    rw [failures_eq]
    unfold shownCode
    split
    · next hhigh =>
        have hname : IsText Severity.high.name := by decide
        have hempty : IsText "" := by decide
        cases f.code <;> simp [Xml.Element.stringsOf, Xml.Element.strings, hname, hempty, hhigh]
    · next hlow => simp [Xml.Element.stringsOf, hlow]
  simp only [testCase, Xml.Element.strings, List.map_cons, List.map_nil, List.cons_append,
    List.nil_append, List.forall_mem_cons, hclass, hfailures, Xml.isText_append]
  have htexts : IsText ": " ∧ IsText "" := by decide
  simp only [htexts, true_and, and_true]
  constructor
  · -- the message is in the name of the case already, whatever the severity
    rintro ⟨⟨hkind, hmessage⟩, hplace, -, hcode⟩
    exact ⟨hkind, hmessage, hplace, hcode⟩
  · rintro ⟨hkind, hmessage, hplace, hcode⟩
    exact ⟨⟨hkind, hmessage⟩, hplace, fun _ => hmessage, hcode⟩

/-- The strings of the tree are text when what comes from categories and findings is. -/
theorem strings_suites (results : Results) (timestamp : String) :
    (∀ s ∈ (suites results timestamp).strings, IsText s) ↔ IsReadable results timestamp := by
  simp only [suites, suite, Xml.Element.strings, List.map_cons, List.map_nil, List.cons_append,
    List.nil_append, List.forall_mem_cons, Xml.forall_mem_stringsOf_map, isText_toString,
    show IsText "" by decide, true_and]
  constructor
  · rintro ⟨htimestamp, hresults⟩
    have hissues : ∀ r ∈ results, ∀ f ∈ r.2.issues, _ := fun r hr f hf =>
      (strings_testCase r.1 f (hresults r hr).1).mp ((hresults r hr).2 f hf)
    exact ⟨htimestamp, fun r hr => (hresults r hr).1, fun r hr f hf => (hissues r hr f hf).1,
      fun r hr f hf => (hissues r hr f hf).2.1, fun r hr f hf => (hissues r hr f hf).2.2.1,
      fun r hr f hf => (hissues r hr f hf).2.2.2⟩
  · intro h
    refine ⟨h.timestamp, fun r hr => ⟨h.categories r hr, fun f hf => ?_⟩⟩
    exact (strings_testCase r.1 f (h.categories r hr)).mpr ⟨h.kinds r hr f hf, h.messages r hr f hf,
      h.places r hr f hf, h.codes r hr f hf⟩

/-- The texts of the tree are the codes that failures show. -/
theorem texts_suites (results : Results) (timestamp : String) :
    (∀ s ∈ (suites results timestamp).texts, '\r' ∉ s.toList) ↔ KeepsLines results := by
  have hempty : '\r' ∉ "".toList := by decide
  have hfailures : ∀ f, (∀ s ∈ Xml.Element.textsOf (failures f), '\r' ∉ s.toList) ↔
      ∀ code, shownCode f = some code → '\r' ∉ code.toList := by
    intro f
    rw [failures_eq]
    unfold shownCode
    split
    · cases f.code <;> simp [Xml.Element.textsOf, Xml.Element.texts]
    · simp [Xml.Element.textsOf]
  simp only [suites, suite, testCase, Xml.Element.texts, List.forall_mem_cons,
    Xml.forall_mem_textsOf_map, hfailures, hempty, not_false_eq_true, true_and]
  exact Iff.rfl

/-! ## The document -/

/-- The document can be read when all that findings and categories give it is text, and it says what
was put into it when, besides, no failure shows code with a carriage return. -/
theorem junit_read_back_iff (directory : Path) (now : String) (results : Results)
    (gate : GateReport) :
    ∃ text, (Report.gateArtifacts directory now results gate).head? =
        some ⟨directory.child Report.junitName, text⟩ ∧
      ((Xml.read? text.toList).isSome = true ↔ IsReadable results now) ∧
      ((Xml.read? text.toList).map Xml.Node.unindented = some (.ofElement (suites results now)) ↔
        IsReadable results now ∧ KeepsLines results) := by
  refine ⟨(suites results now).document, rfl, ?_⟩
  have hall : (suites results now).strings.all (fun s => s.toList.all Xml.isChar) = true ↔
      IsReadable results now := by
    rw [List.all_eq_true]
    exact strings_suites results now
  have hread := Xml.read?_document (isPlain_suites results now)
  split at hread
  · next hchars =>
      obtain ⟨n, hn, hnode⟩ := hread
      rw [hn, Option.map_some, hnode, Option.some_inj, Xml.ofElement_normalized_eq_iff,
        texts_suites]
      have hreadable : IsReadable results now := hall.mp hchars
      exact ⟨iff_of_true rfl hreadable, (and_iff_right hreadable).symm⟩
  · next hchars =>
      rw [hread]
      have hunreadable : ¬ IsReadable results now := fun h => hchars (hall.mpr h)
      exact ⟨iff_of_false Bool.false_ne_true hunreadable,
        iff_of_false nofun fun h => hunreadable h.1⟩

/-- A result with one high issue. -/
def oneHigh (message code : String) : Results :=
  [("accessibility", summarize "t" [{
    kind := "missing_alt", severity := .high, message := message
    file := some "a.html", line := some 4, code := some code }])]

/-- A carriage return in the code of a high issue is not read back, and a document with a control
character in a message cannot be read at all. -/
theorem junit_not_read_back :
    (Xml.read? (suites (oneHigh "Image missing alt attribute" "a\rb") "t").document.toList).map
        Xml.Node.unindented ≠
      some (.ofElement (suites (oneHigh "Image missing alt attribute" "a\rb") "t")) ∧
    Xml.read? (suites (oneHigh "Image \x01 missing" "ab") "t").document.toList = none := by
  constructor
  · have hread := Xml.read?_document
      (isPlain_suites (oneHigh "Image missing alt attribute" "a\rb") "t")
    rw [if_pos (by decide +kernel)] at hread
    obtain ⟨n, hn, hnode⟩ := hread
    rw [hn, Option.map_some, hnode, ne_eq, Option.some_inj, Xml.ofElement_normalized_eq_iff]
    decide +kernel
  · have hread := Xml.read?_document (isPlain_suites (oneHigh "Image \x01 missing" "ab") "t")
    rwa [if_neg (by decide +kernel)] at hread

end Junit

end FrontendAudit
