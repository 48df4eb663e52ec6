import FrontendAudit.Proofs.Xml.Reader

/-!
# Reading back what was written

The machine that reads documents takes what is written for an element and has read that element,
with the indentation between its children (`Reader.run_print`). Elements are plain for this: their
names are names, no attribute is named twice, and only elements without children have a text.
-/

namespace FrontendAudit.Xml

mutual

/-- An element that can be written: names are names, each attribute has a name of its own, and there
is no text in front of children. -/
def Element.IsPlain : Element → Prop
  | .mk name attributes text children =>
    isName name.toList = true ∧ (∀ a ∈ attributes, isName a.1.toList = true) ∧
      (attributes.map (·.1.toList)).Nodup ∧ (children ≠ [] → text = "") ∧
      Element.ArePlain children

def Element.ArePlain : List Element → Prop
  | [] => True
  | e :: es => e.IsPlain ∧ Element.ArePlain es

end

/-! ## Characters of names -/

theorem isNameChar_of_isNameStart {c : Char} (h : isNameStart c = true) : isNameChar c = true := by
  rw [isNameChar, nameRanges, List.any_append, Bool.or_eq_true]
  exact .inl h

theorem not_isNameChar_of_mem {c : Char}
    (h : c ∈ [' ', '\n', '\t', '\r', '=', '>', '/', '<', '"', '&']) :
    isNameChar c = false := by
  simp only [List.mem_cons, List.not_mem_nil, or_false] at h
  rcases h with rfl | rfl | rfl | rfl | rfl | rfl | rfl | rfl | rfl | rfl <;> decide

theorem isName_cons {s : List Char} (h : isName s = true) :
    ∃ c cs, s = c :: cs ∧ isNameStart c = true ∧ cs.all isNameChar = true := by
  cases s with
  | nil => cases h
  | cons c cs =>
      rw [isName, Bool.and_eq_true] at h
      exact ⟨c, cs, rfl, h.1, h.2⟩

theorem not_isSpace_of_isNameChar {c : Char} (h : isNameChar c = true) : isSpace c = false := by
  cases hspace : isSpace c with
  | false => rfl
  | true =>
      have hmem : c ∈ [' ', '\n', '\t', '\r', '=', '>', '/', '<', '"', '&'] := by
        simp only [isSpace, Bool.or_eq_true, decide_eq_true_eq] at hspace
        rcases hspace with ((rfl | rfl) | rfl) | rfl <;> decide
      rw [not_isNameChar_of_mem hmem] at h
      cases h

namespace Reader

/-! ## Runs -/

theorem run_nil (r : Reader) : r.run [] = some r := rfl

theorem run_cons (r : Reader) (c : Char) (s : List Char) :
    r.run (c :: s) = (r.step c).bind (·.run s) := by
  rw [run, List.foldlM_cons]
  rfl

theorem run_append (r : Reader) (s s' : List Char) :
    r.run (s ++ s') = (r.run s).bind (·.run s') := by
  rw [run, List.foldlM_append]
  rfl

theorem run_append_of_eq {r r' : Reader} {s : List Char} (h : r.run s = some r') (s' : List Char) :
    r.run (s ++ s') = r'.run s' := by
  rw [run_append, h, Option.bind_some]

/-- A mode that takes the characters of a name one by one. -/
theorem run_all {p : Char → Bool} (mode : List Char → Mode) (r : Reader)
    (hstep : ∀ s c, p c = true → (r.go (mode s)).step c = some (r.go (mode (s ++ [c]))))
    (s s' : List Char) (hs' : s'.all p = true) :
    (r.go (mode s)).run s' = some (r.go (mode (s ++ s'))) := by
  induction s' generalizing s with
  | nil => rw [run_nil, List.append_nil]
  | cons c s' ih =>
      rw [List.all_cons, Bool.and_eq_true] at hs'
      rw [run_cons, hstep s c hs'.1, Option.bind_some, ih _ hs'.2, List.append_assoc]
      rfl

/-! ## Texts and values -/

theorem step_text {u : Unclosed} {us : List Unclosed} {root : Option Node} {c : Char}
    (h : c ∉ ['<', '&', '>']) :
    (Reader.mk .content (u :: us) root).step c =
      some ⟨.content, { u with text := u.text ++ [c] } :: us, root⟩ := by
  simp only [List.mem_cons, List.not_mem_nil, or_false, not_or] at h
  simp [step, h, addChar]

theorem run_textChar (u : Unclosed) (us : List Unclosed) (root : Option Node) (c : Char) :
    (Reader.mk .content (u :: us) root).run (textChar c) =
      some ⟨.content, { u with text := u.text ++ [c] } :: us, root⟩ := by
  unfold textChar
  split
  · rfl
  · rfl
  · rfl
  · next hamp hlt hgt =>
      rw [run_cons, step_text (by simpa using ⟨hlt, hamp, hgt⟩)]
      rfl

/-- A text is read back, whatever it holds. -/
theorem run_text (u : Unclosed) (us : List Unclosed) (root : Option Node) (s : List Char) :
    (Reader.mk .content (u :: us) root).run (s.flatMap textChar) =
      some ⟨.content, { u with text := u.text ++ s } :: us, root⟩ := by
  induction s generalizing u with
  | nil => rw [List.flatMap_nil, run_nil, List.append_nil]
  | cons c s ih =>
      rw [List.flatMap_cons, run_append_of_eq (run_textChar u us root c), ih]
      simp

theorem run_valueChar (r : Reader) (t : Tag) (name value : List Char) (c : Char) :
    (r.go (.value t name '"' value)).run (valueChar c) =
      some (r.go (.value t name '"' (value ++ [c]))) := by
  unfold valueChar
  split
  · rfl
  · rfl
  · rfl
  · rfl
  · next hquote hreturn hfeed htab =>
      unfold textChar
      split
      · rfl
      · rfl
      · rfl
      · next hamp hlt hgt =>
          -- of the white space only the space itself is left
          have hkept : (if isSpace c then ' ' else c) = c := by
            by_cases hspace : isSpace c = true
            · rw [if_pos hspace]
              simp only [isSpace, Bool.or_eq_true, decide_eq_true_eq] at hspace
              rcases hspace with ((rfl | rfl) | rfl) | rfl
              · rfl
              · exact absurd rfl htab
              · exact absurd rfl hfeed
              · exact absurd rfl hreturn
            · rw [if_neg hspace]
          rw [run_cons]
          simp only [step, go]
          rw [if_neg hquote, if_neg hamp, if_neg hlt, hkept]
          rfl

/-- A value is read back, whatever it holds. -/
theorem run_value (r : Reader) (t : Tag) (name value s : List Char) :
    (r.go (.value t name '"' value)).run (s.flatMap valueChar) =
      some (r.go (.value t name '"' (value ++ s))) := by
  induction s generalizing value with
  | nil => rw [List.flatMap_nil, run_nil, List.append_nil]
  | cons c s ih =>
      rw [List.flatMap_cons, run_append_of_eq (run_valueChar r t name value c), ih]
      simp

/-! ## Tags -/

/-- The machine has read a start tag so far, and whatever is no further character of its name goes
on from there. -/
structure AtTag (r : Reader) (t : Tag) (r' : Reader) : Prop where
  unclosed : r'.unclosed = r.unclosed
  root : r'.root = r.root
  step : ∀ c, isNameChar c = false → r'.step c = r.inTag t c

/-- An attribute as it is read. -/
def pair (a : String × String) : List Char × List Char := (a.1.toList, a.2.toList)

theorem add?_of_not_mem {t : Tag} {a : String × String} (h : a.1.toList ∉ t.attributes.map (·.1)) :
    t.add? a.1.toList a.2.toList = some { t with attributes := t.attributes ++ [pair a] } := by
  have hnone : t.attributes.any (·.1 = a.1.toList) = false := by
    rw [List.any_eq_false]
    intro b hb heq
    exact h (List.mem_map.mpr ⟨b, hb, of_decide_eq_true heq⟩)
  rw [Tag.add?, hnone]
  rfl

/-- A name that is followed by an equality sign is read as that of an attribute. -/
theorem run_attributeName (r : Reader) (t : Tag) {name : List Char} (h : isName name = true) :
    (r.go (.space t)).run (name ++ ['=', '"']) = some (r.go (.value t name '"' [])) := by
  obtain ⟨c, cs, rfl, hstart, hcs⟩ := isName_cons h
  have hspace := not_isSpace_of_isNameChar (isNameChar_of_isNameStart hstart)
  have hfirst : (r.go (.space t)).step c = some (r.go (.attribute t [c])) := by
    simp only [step, go, hspace, hstart, Bool.false_eq_true, if_false, if_true]
  have hrest : (r.go (.attribute t [c])).run cs = some (r.go (.attribute t (c :: cs))) :=
    run_all (.attribute t) r (fun s c hc => by simp only [step, go, hc, if_true]) [c] cs hcs
  rw [List.cons_append, run_cons, hfirst, Option.bind_some, run_append_of_eq hrest]
  rfl

/-- An attribute is read back. -/
theorem AtTag.run_attribute {r r' : Reader} {t : Tag} {a : String × String} (h : AtTag r t r')
    (hname : isName a.1.toList = true) (hnew : a.1.toList ∉ t.attributes.map (·.1)) :
    ∃ r'', r'.run (printAttribute a) = some r'' ∧
      AtTag r { t with attributes := t.attributes ++ [pair a] } r'' := by
  refine ⟨r.go (.attributes { t with attributes := t.attributes ++ [pair a] }), ?_, rfl, rfl,
    fun c _ => rfl⟩
  have hspace : r'.step ' ' = some (r.go (.space t)) := h.step ' ' (by decide)
  have htext : printAttribute a =
      ' ' :: (a.1.toList ++ ['=', '"'] ++ (a.2.toList.flatMap valueChar ++ ['"'])) := by
    simp [printAttribute]
  have hclose : (r.go (.value t a.1.toList '"' a.2.toList)).step '"' =
      (t.add? a.1.toList a.2.toList).map fun t => r.go (.attributes t) := rfl
  rw [htext, run_cons, hspace, Option.bind_some, run_append_of_eq (run_attributeName r t hname),
    run_append_of_eq (run_value r t _ [] a.2.toList), run_cons, List.nil_append, hclose,
    add?_of_not_mem hnew]
  rfl

/-- Attributes with different names are read back in order. -/
theorem AtTag.run_attributes {r r' : Reader} {t : Tag} {attributes : List (String × String)}
    (h : AtTag r t r') (hnames : ∀ a ∈ attributes, isName a.1.toList = true)
    (hnew : (t.attributes.map (·.1) ++ attributes.map (·.1.toList)).Nodup) :
    ∃ r'', r'.run (attributes.flatMap printAttribute) = some r'' ∧
      AtTag r { t with attributes := t.attributes ++ attributes.map pair } r'' := by
  induction attributes generalizing t r' with
  | nil => exact ⟨r', run_nil r', by rwa [List.map_nil, List.append_nil]⟩
  | cons a attributes ih =>
      rw [List.map_cons, List.nodup_append] at hnew
      have hfirst : a.1.toList ∉ t.attributes.map (·.1) :=
        fun hmem => hnew.2.2 _ hmem _ List.mem_cons_self rfl
      obtain ⟨r₁, hrun₁, hat₁⟩ := h.run_attribute (hnames a List.mem_cons_self) hfirst
      obtain ⟨r₂, hrun₂, hat₂⟩ := ih hat₁ (fun b hb => hnames b (List.mem_cons_of_mem a hb)) (by
        rw [List.map_append, List.append_assoc]
        exact List.nodup_append.mpr hnew)
      refine ⟨r₂, ?_, ?_⟩
      · rw [List.flatMap_cons, run_append_of_eq hrun₁, hrun₂]
      · rwa [List.append_assoc] at hat₂

/-- A start tag is read back up to its end. -/
theorem run_opening {r : Reader} (hmode : r.mode = .content) (hroot : r.root = none)
    {name : String} {attributes : List (String × String)} (hname : isName name.toList = true)
    (hnames : ∀ a ∈ attributes, isName a.1.toList = true)
    (hnew : (attributes.map (·.1.toList)).Nodup) :
    ∃ r', r.run ('<' :: (name.toList ++ attributes.flatMap printAttribute)) = some r' ∧
      AtTag r ⟨name.toList, attributes.map pair⟩ r' := by
  have hmarkup : r.step '<' = some (r.go .markup) := by
    unfold step
    rw [hmode]
    rfl
  obtain ⟨c, cs, htext, hstart, hcs⟩ := isName_cons hname
  have hfirst : (r.go .markup).step c = some (r.go (.name [c])) := by
    have hslash : c ≠ '/' := by
      rintro rfl
      cases hstart
    simp only [step, go, hroot, hstart, Option.isNone_none, Bool.and_true, if_neg hslash, if_true]
  have hrest : (r.go (.name [c])).run cs = some (r.go (.name (c :: cs))) :=
    run_all .name r (fun s c hc => by simp only [step, go, hc, if_true]) [c] cs hcs
  have hat : AtTag r ⟨name.toList, []⟩ (r.go (.name name.toList)) := by
    refine ⟨rfl, rfl, fun c hc => ?_⟩
    simp only [step, go, hc, Bool.false_eq_true, if_false]
    rfl
  obtain ⟨r', hrun, hat'⟩ := hat.run_attributes hnames hnew
  refine ⟨r', ?_, hat'⟩
  rw [run_cons, hmarkup, Option.bind_some, htext, List.cons_append, run_cons, hfirst,
    Option.bind_some, run_append_of_eq hrest, ← htext, hrun]

/-- An end tag closes the element. -/
theorem run_ending (u : Unclosed) (us : List Unclosed) {name : String}
    (hname : isName name.toList = true) (htag : u.tag.name = name.toList) (root : Option Node) :
    (Reader.mk .content (u :: us) root).run ('<' :: '/' :: (name.toList ++ ['>'])) =
      some (addNode ⟨.content, us, root⟩ u.node) := by
  obtain ⟨c, cs, htext, hstart, hcs⟩ := isName_cons hname
  have hfirst : (Reader.mk .markup (u :: us) root).step '/' = some ⟨.ending [], u :: us, root⟩ :=
    rfl
  have hsecond : (Reader.mk (.ending []) (u :: us) root).step c =
      some ⟨.ending [c], u :: us, root⟩ := by
    simp [step, go, hstart]
  have hrest : (Reader.mk (.ending [c]) (u :: us) root).run cs =
      some ⟨.ending (c :: cs), u :: us, root⟩ :=
    run_all (fun s => .ending (c :: s)) ⟨.content, u :: us, root⟩
      (fun s c hc => by simp [step, go, hc]) [] cs hcs
  have hclose : (Reader.mk (.ending (c :: cs)) (u :: us) root).step '>' =
      some (addNode ⟨.ending (c :: cs), us, root⟩ u.node) := if_pos (htag.trans htext)
  rw [run_cons, htext]
  show ((Reader.mk .markup (u :: us) root).run _) = _
  rw [run_cons, hfirst, Option.bind_some, List.cons_append, run_cons, hsecond, Option.bind_some,
    run_append_of_eq hrest, run_cons, hclose]
  cases us <;> rfl

end Reader

/-! ## Indentation -/

theorem lead_isSpace (indented : Bool) (depth : Nat) :
    (lead indented depth).all isSpace = true := by
  rw [List.all_eq_true]
  intro c hc
  unfold lead at hc
  split at hc
  · rcases List.mem_cons.mp hc with rfl | hc
    · rfl
    · rw [List.eq_of_mem_replicate hc]
      rfl
  · cases hc

namespace Node

theorem unindentedAll_append (apart : Bool) (ns ns' : List Node) :
    unindentedAll apart (ns ++ ns') = unindentedAll apart ns ++ unindentedAll apart ns' := by
  induction ns with
  | nil => rfl
  | cons n ns ih =>
      cases n with
      | text s =>
          rw [List.cons_append, unindentedAll, unindentedAll, ih]
          split <;> rfl
      | element name attributes content =>
          rw [List.cons_append, unindentedAll, unindentedAll, ih]
          all_goals first | rfl | exact fun s h => nomatch h

/-- White space between elements is no part of the document. -/
theorem unindentedAll_space {s : List Char} (h : s.all isSpace = true) :
    unindentedAll true (textNodes s) = [] := by
  unfold textNodes
  split
  · rfl
  · rw [unindentedAll, h]
    rfl

/-- The text of an element without children is kept. -/
theorem unindentedAll_text (s : List Char) : unindentedAll false (textNodes s) = textNodes s := by
  unfold textNodes
  split <;> rfl

theorem any_isElement_textNodes (s : List Char) : (textNodes s).any isElement = false := by
  unfold textNodes
  split <;> rfl

theorem unindentedAll_element {n : Node} (h : n.isElement = true) (apart : Bool) :
    unindentedAll apart [n] = [n.unindented] := by
  cases n with
  | text s => cases h
  | element name attributes content => rfl

end Node

namespace Reader

theorem run_lead (u : Unclosed) (us : List Unclosed) (root : Option Node) (indented : Bool)
    (depth : Nat) :
    (Reader.mk .content (u :: us) root).run (lead indented depth) =
      some ⟨.content, { u with text := u.text ++ lead indented depth } :: us, root⟩ := by
  have hspace := List.all_eq_true.mp (lead_isSpace indented depth)
  generalize lead indented depth = s at hspace
  induction s generalizing u with
  | nil => rw [run_nil, List.append_nil]
  | cons c s ih =>
      have hc : c ∉ ['<', '&', '>'] := by
        intro hmem
        have := hspace c List.mem_cons_self
        simp only [List.mem_cons, List.not_mem_nil, or_false] at hmem
        rcases hmem with rfl | rfl | rfl <;> cases this
      have hrest : ∀ c ∈ s, isSpace c = true := fun c' hc' => hspace c' (List.mem_cons_of_mem c hc')
      rw [run_cons, step_text hc, Option.bind_some, ih _ hrest]
      simp

theorem addNode_go (r : Reader) (mode : Mode) (n : Node) : (r.go mode).addNode n = r.addNode n := by
  cases hunclosed : r.unclosed <;> simp [addNode, go, hunclosed]

/-! ## Elements -/

/-- A start tag, what is read into its element, and the end tag. -/
theorem AtTag.run_element {r r' : Reader} {name : String}
    {attributes : List (List Char × List Char)} (h : AtTag r ⟨name.toList, attributes⟩ r')
    (hname : isName name.toList = true) {inside : List Char} {content : List Node}
    {text : List Char}
    (hinside : (Reader.mk .content (⟨⟨name.toList, attributes⟩, [], []⟩ :: r.unclosed) r.root).run
      inside = some ⟨.content, ⟨⟨name.toList, attributes⟩, content, text⟩ :: r.unclosed, r.root⟩) :
    r'.run ('>' :: (inside ++ '<' :: '/' :: (name.toList ++ ['>']))) =
      some (r.addNode (.element name.toList attributes (content ++ textNodes text))) := by
  have hopen : r'.step '>' =
      some ⟨.content, ⟨⟨name.toList, attributes⟩, [], []⟩ :: r.unclosed, r.root⟩ :=
    h.step '>' (by decide)
  rw [run_cons, hopen, Option.bind_some, run_append_of_eq hinside,
    run_ending _ r.unclosed hname rfl r.root]
  exact congrArg some (addNode_go r .content _)

mutual

/-- An element is read back, up to the indentation of its children. -/
theorem run_print (indented : Bool) : ∀ e : Element, e.IsPlain → ∀ (depth : Nat) (r : Reader),
    r.mode = .content → r.root = none →
    ∃ n, r.run (print indented depth e) = some (r.addNode n) ∧ n.isElement = true ∧
      n.unindented = .ofElement e
  | .mk name attributes text [], ⟨hname, hnames, hnew, _⟩, depth, r, hmode, hroot => by
      obtain ⟨r', hrun, hat⟩ := run_opening hmode hroot hname hnames hnew
      by_cases hempty : text.isEmpty = true
      · -- start and end are one tag
        obtain rfl : text = "" := by simpa using hempty
        refine ⟨.element name.toList (attributes.map pair) [], ?_, rfl, rfl⟩
        rw [print, if_pos hempty, run_append_of_eq hrun, run_cons, hat.step ' ' (by decide)]
        exact congrArg some (addNode_go r (.slash _) _)
      · have hinside := run_text ⟨⟨name.toList, attributes.map pair⟩, [], []⟩ r.unclosed r.root
          text.toList
        refine ⟨.element name.toList (attributes.map pair) (textNodes text.toList), ?_, rfl, ?_⟩
        · rw [print, if_neg hempty, run_append_of_eq hrun, hat.run_element hname hinside]
          rfl
        · simp [Node.unindented, Node.any_isElement_textNodes, Node.unindentedAll_text,
            Node.ofElement, Node.ofElements, pair]
  | .mk name attributes text (child :: children), ⟨hname, hnames, hnew, htext, hchildren⟩,
      depth, r, hmode, hroot => by
      obtain ⟨r', hrun, hat⟩ := run_opening hmode hroot hname hnames hnew
      obtain rfl : text = "" := htext (List.cons_ne_nil _ _)
      obtain ⟨ns, hns, hread, helement⟩ := run_printAll indented (child :: children) hchildren
        (depth + 1) ⟨⟨name.toList, attributes.map pair⟩, [], []⟩ r.unclosed rfl
      have hinside : (Reader.mk .content (⟨⟨name.toList, attributes.map pair⟩, [], []⟩ ::
          r.unclosed) r.root).run
            (printAll indented (depth + 1) (child :: children) ++ lead indented depth) =
          some ⟨.content, ⟨⟨name.toList, attributes.map pair⟩, ns, lead indented depth⟩ ::
            r.unclosed, r.root⟩ := by
        rw [hroot, run_append_of_eq hns, run_lead]
        rfl
      refine ⟨.element name.toList (attributes.map pair) (ns ++ textNodes (lead indented depth)),
        ?_, rfl, ?_⟩
      · rw [← hat.run_element hname hinside, ← run_append_of_eq hrun]
        simp [print]
      · -- among elements text of white space is indentation
        have hany : (ns ++ textNodes (lead indented depth)).any Node.isElement = true := by
          rw [List.any_append, helement (List.cons_ne_nil _ _), Bool.true_or]
        rw [Node.unindented, hany, Node.unindentedAll_append, hread,
          Node.unindentedAll_space (lead_isSpace indented depth), List.append_nil]
        rfl

/-- Children are read back into the innermost element. -/
theorem run_printAll (indented : Bool) : ∀ es : List Element, Element.ArePlain es →
    ∀ (depth : Nat) (u : Unclosed) (us : List Unclosed), u.text = [] →
    ∃ ns, (Reader.mk .content (u :: us) none).run (printAll indented depth es) =
        some ⟨.content, { u with content := u.content ++ ns } :: us, none⟩ ∧
      Node.unindentedAll true ns = Node.ofElements es ∧
      (es ≠ [] → ns.any Node.isElement = true)
  | [], _, _, u, us, _ =>
    ⟨[], by rw [printAll, run_nil, List.append_nil], rfl, fun h => absurd rfl h⟩
  | e :: es, ⟨he, hes⟩, depth, u, us, htext => by
      obtain ⟨n, hn, helement, hread⟩ := run_print indented e he depth
        ⟨.content, { u with text := lead indented depth } :: us, none⟩ rfl rfl
      obtain ⟨ns, hns, hreads, -⟩ := run_printAll indented es hes depth
        { u with content := u.content ++ textNodes (lead indented depth) ++ [n], text := [] } us rfl
      have hlead := run_lead u us none indented depth
      rw [htext, List.nil_append] at hlead
      refine ⟨textNodes (lead indented depth) ++ [n] ++ ns, ?_, ?_, fun _ => ?_⟩
      · rw [printAll, List.append_assoc, run_append_of_eq hlead, run_append_of_eq hn]
        refine hns.trans ?_
        simp only [List.append_assoc, htext]
      · rw [Node.unindentedAll_append, Node.unindentedAll_append,
          Node.unindentedAll_space (lead_isSpace indented depth),
            Node.unindentedAll_element helement,
          hread, hreads]
        rfl
      · simp [helement]

end

end Reader

end FrontendAudit.Xml
