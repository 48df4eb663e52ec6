import FrontendAudit.Report.Page

/-!
# What data can do to a page

Data is written so that no character of it could be taken for markup. Hence whatever the texts in a
response are, the angle brackets and quotes of its page are those of the markup between them, and
two responses of the same shape (`Response.shape`) have pages with the same markup around their data
and with the same tags, one after the other (`tags_eq_of_shape_eq`).
-/

namespace FrontendAudit

/-! ## Shapes and tags -/

/-- What a response has besides texts and counts. A project kind that is empty is not shown and
counts as absent. -/
structure PageShape where
  hasKind : Bool
  /-- Whether the gate was passed, if there was one. -/
  passed : Option Bool
  /-- The severities of the issues of each category. -/
  severities : List (List Severity)
  deriving DecidableEq, Repr

/-- The severities of the issues of a category. -/
def AuditResult.severities (r : AuditResult) : List Severity := r.issues.map (·.severity)

/-- The shape of a response. -/
def Response.shape (r : Response) : PageShape where
  hasKind := (nonempty? r.projectKind).isSome
  passed := r.gate.map (·.passed)
  severities := r.categories.map (·.2.severities)

namespace Report

/-- The tag that is open behind a character, as far as it was read. -/
def tagStep : Option (List Char) → Char → Option (List Char)
  | none, c => if c = '<' then some [c] else none
  | some read, c => if c = '>' then none else some (read ++ [c])

/-- The tag that is open behind a text. -/
def openTag (read : Option (List Char)) (s : List Char) : Option (List Char) := s.foldl tagStep read

/-- The tags of a text that goes on with a tag, or with none. -/
def tagsFrom : Option (List Char) → List Char → List String
  | _, [] => []
  | none, c :: s => tagsFrom (tagStep none c) s
  | some read, c :: s =>
    if c = '>' then String.ofList (read ++ [c]) :: tagsFrom none s
    else tagsFrom (tagStep (some read) c) s

/-- The tags of a text: all that stands from a left angle bracket to the next right one. -/
def tags (s : String) : List String := tagsFrom none s.toList

/-- The markup of a piece, if it is no data. -/
def Piece.markup? : Piece → Option String
  | markup s => some s
  | data _ => none

/-- The text of pieces. -/
def textOf (ps : List Piece) : List Char := ps.flatMap Piece.render

/-- Angle brackets and quotes. -/
def IsDelimiter (c : Char) : Prop := c = '<' ∨ c = '>' ∨ c = '"'

theorem toList_page (r : Response) : (page r).toList = textOf (pagePieces r) := String.toList_ofList

/-! ## Data -/

theorem not_isDelimiter_of_mem_dataChar {c d : Char} (h : d ∈ dataChar c) : ¬ IsDelimiter d := by
  unfold IsDelimiter
  have href : ∀ s : List Char, s.all (fun c => c ≠ '<' && c ≠ '>' && c ≠ '"') = true → d ∈ s →
      ¬ (d = '<' ∨ d = '>' ∨ d = '"') := by
    intro s hs hd
    simpa [and_assoc] using List.all_eq_true.mp hs d hd
  unfold dataChar at h
  split at h
  · exact href _ (by decide) h
  · exact href _ (by decide) h
  · exact href _ (by decide) h
  · exact href _ (by decide) h
  · exact href _ (by decide) h
  · next hless hgreater hquote _ =>
      obtain rfl := List.mem_singleton.mp h
      rintro (rfl | rfl | rfl)
      · exact hless rfl
      · exact hgreater rfl
      · exact hquote rfl

/-- Data is written without angle brackets and quotes. -/
theorem not_isDelimiter_of_mem_data {s : String} {c : Char} (h : c ∈ (Piece.data s).render) :
    ¬ IsDelimiter c := by
  obtain ⟨d, -, hd⟩ := List.mem_flatMap.mp h
  exact not_isDelimiter_of_mem_dataChar hd

/-- An element of two lists behind each other stands in the second or in the first. -/
theorem append_eq_append_cons {α : Type} {s t front back : List α} {a : α}
    (h : s ++ t = front ++ a :: back) :
    (∃ between, front = s ++ between ∧ t = between ++ a :: back) ∨
      ∃ between, s = front ++ a :: between ∧ back = between ++ t := by
  obtain ⟨between, hfront, ht⟩ | ⟨between, hs, hback⟩ := List.append_eq_append_iff.mp h
  · exact .inl ⟨between, hfront, ht⟩
  · cases between with
    | nil => exact .inl ⟨[], by simpa using hs.symm, by simpa using hback.symm⟩
    | cons b between =>
        obtain ⟨rfl, hrest⟩ := List.cons.inj hback
        exact .inr ⟨between, hs, hrest⟩

/-- An angle bracket or a quote of a text stands in the markup, at the same place. -/
theorem exists_markup {ps : List Piece} {front back : List Char} {c : Char}
    (htext : textOf ps = front ++ c :: back) (hc : IsDelimiter c) :
    ∃ before s inFront behind rest, ps = before ++ .markup s :: rest ∧
      s.toList = inFront ++ c :: behind ∧ front = textOf before ++ inFront ∧
      back = behind ++ textOf rest := by
  induction ps generalizing front with
  | nil => simp [textOf] at htext
  | cons p ps ih =>
      rw [textOf, List.flatMap_cons] at htext
      obtain ⟨between, rfl, hrest⟩ | ⟨between, hp, rfl⟩ := append_eq_append_cons htext
      · obtain ⟨before, s, inFront, behind, rest, rfl, hs, rfl, rfl⟩ := ih hrest
        exact ⟨p :: before, s, inFront, behind, rest, rfl, hs, by simp [textOf], rfl⟩
      · cases p with
        | markup s => exact ⟨[], s, front, between, ps, rfl, hp, rfl, rfl⟩
        | data s =>
            have hmem : c ∈ (Piece.data s).render := by
              rw [hp]
              exact List.mem_append_right _ List.mem_cons_self
            exact absurd hc (not_isDelimiter_of_mem_data hmem)

/-! ## Tags -/

theorem openTag_append (read : Option (List Char)) (s t : List Char) :
    openTag read (s ++ t) = openTag (openTag read s) t := List.foldl_append

/-- The tags of two texts behind each other, where the second goes on with the tag that the first
leaves open. -/
theorem tagsFrom_append (read : Option (List Char)) (s t : List Char) :
    tagsFrom read (s ++ t) = tagsFrom read s ++ tagsFrom (openTag read s) t := by
  induction s generalizing read with
  | nil => cases read <;> cases t <;> rfl
  | cons c s ih =>
      cases read with
      | none => exact ih (tagStep none c)
      | some read =>
          rw [List.cons_append, tagsFrom, tagsFrom]
          by_cases hclose : c = '>'
          · have hopen : openTag (some read) (c :: s) = openTag none s := by
              rw [openTag, List.foldl_cons, tagStep, if_pos hclose]
              rfl
            rw [if_pos hclose, if_pos hclose, hopen, ih, List.cons_append]
          · rw [if_neg hclose, if_neg hclose, ih]
            rfl

/-- A text without left angle brackets opens no tag and has none. -/
theorem tagsFrom_of_not_mem {s : List Char} (h : '<' ∉ s) :
    openTag none s = none ∧ tagsFrom none s = [] := by
  induction s with
  | nil => exact ⟨rfl, rfl⟩
  | cons c s ih =>
      rw [List.mem_cons, not_or] at h
      have hstep : tagStep none c = none := if_neg fun heq => h.1 heq.symm
      rw [openTag, List.foldl_cons, tagsFrom, hstep]
      exact ih h.2

/-- Behind the last right angle bracket of a text, where no left one follows, no tag is open. -/
theorem openTag_closing (read : Option (List Char)) (s : List Char) {t : List Char} (h : '<' ∉ t) :
    openTag read (s ++ '>' :: t) = none := by
  have hstep : tagStep (openTag read s) '>' = none := by cases openTag read s <;> rfl
  rw [openTag_append, openTag, List.foldl_cons, hstep]
  exact (tagsFrom_of_not_mem h).1

/-- No tag is open behind a piece of markup. -/
def Piece.closes : Piece → Bool
  | markup s => openTag none s.toList = none
  | data _ => true

/-- Pieces with the same markup around their data and with the same tags, behind which no tag is
open. -/
structure Alike (ps ps' : List Piece) : Prop where
  markup : ps.map Piece.markup? = ps'.map Piece.markup?
  tags : tagsFrom none (textOf ps) = tagsFrom none (textOf ps')
  closed : openTag none (textOf ps) = none
  closed' : openTag none (textOf ps') = none

namespace Alike

theorem refl {ps : List Piece} (h : openTag none (textOf ps) = none) :
    Alike ps ps := ⟨rfl, rfl, h, h⟩

theorem append {ps ps' qs qs' : List Piece} (hp : Alike ps ps') (hq : Alike qs qs') :
    Alike (ps ++ qs) (ps' ++ qs') := by
  have htext : ∀ ps qs : List Piece, textOf (ps ++ qs) = textOf ps ++ textOf qs :=
    fun _ _ => List.flatMap_append
  constructor
  · rw [List.map_append, List.map_append, hp.markup, hq.markup]
  · rw [htext, htext, tagsFrom_append, tagsFrom_append, hp.closed, hp.closed', hp.tags, hq.tags]
  · rw [htext, openTag_append, hp.closed, hq.closed]
  · rw [htext, openTag_append, hp.closed', hq.closed']

/-- One piece of data is like any other, and markup that leaves no tag open is like itself. -/
theorem piece {p p' : Piece} (hmarkup : p.markup? = p'.markup?) (hcloses : p.closes = true) :
    Alike [p] [p'] := by
  have htext : ∀ p : Piece, textOf [p] = p.render :=
    fun p => List.flatMap_singleton Piece.render p
  cases p with
  | markup s =>
      cases p' with
      | data s' => cases hmarkup
      | markup s' =>
          obtain rfl := Option.some.inj hmarkup
          refine refl ?_
          rw [htext]
          exact of_decide_eq_true hcloses
  | data s =>
      cases p' with
      | markup s' => cases hmarkup
      | data s' =>
          have hnone : ∀ s : String, '<' ∉ (Piece.data s).render :=
            fun s hmem => not_isDelimiter_of_mem_data hmem (.inl rfl)
          obtain ⟨hclosed, htags⟩ := tagsFrom_of_not_mem (hnone s)
          obtain ⟨hclosed', htags'⟩ := tagsFrom_of_not_mem (hnone s')
          rw [← htext] at hclosed htags hclosed' htags'
          exact ⟨rfl, htags.trans htags'.symm, hclosed, hclosed'⟩

/-- Pieces are alike that have the same markup, no part of which leaves a tag open. -/
theorem of_closes {ps ps' : List Piece} (hmarkup : ps.map Piece.markup? = ps'.map Piece.markup?)
    (hcloses : ps.all Piece.closes = true) : Alike ps ps' := by
  induction ps generalizing ps' with
  | nil =>
      obtain rfl := List.map_eq_nil_iff.mp hmarkup.symm
      exact refl rfl
  | cons p ps ih =>
      cases ps' with
      | nil => cases hmarkup
      | cons p' ps' =>
          obtain ⟨hp, hps⟩ := List.cons.inj hmarkup
          rw [List.all_cons, Bool.and_eq_true] at hcloses
          have hall : Alike ([p] ++ ps) ([p'] ++ ps') :=
            (piece hp hcloses.1).append (ih hps hcloses.2)
          exact hall

/-- Parts of a page for two lists are alike, one after the other, when those for entries of the same
key are, and the lists have the same keys. -/
theorem flatMap {α κ : Type} {key : α → κ} {f : α → List Piece}
    (h : ∀ a b, key a = key b → Alike (f a) (f b)) {as bs : List α}
    (hkeys : as.map key = bs.map key) : Alike (as.flatMap f) (bs.flatMap f) := by
  induction as generalizing bs with
  | nil =>
      obtain rfl := List.map_eq_nil_iff.mp hkeys.symm
      exact refl rfl
  | cons a as ih =>
      cases bs with
      | nil => cases hkeys
      | cons b bs =>
          obtain ⟨hfirst, hrest⟩ := List.cons.inj hkeys
          rw [List.flatMap_cons, List.flatMap_cons]
          exact (h a b hfirst).append (ih hrest)

end Alike

/-! ## The parts of a page -/

/-- Only what stands behind the last right angle bracket matters for what is open behind markup. -/
theorem closes_append {s t : String} {u v : List Char} (ht : t.toList = u ++ '>' :: v)
    (hv : '<' ∉ v) :
    (Piece.markup (s ++ t)).closes = true := by
  rw [Piece.closes, decide_eq_true_eq, String.toList_append, ht, ← List.append_assoc]
  exact openTag_closing none _ hv

theorem closes_pageHead : (Piece.markup pageHead).closes = true := by
  have hlast : "</style>\n</head>\n<body>\n<main>\n".toList =
      "</style>\n</head>\n<body>\n<main".toList ++ '>' :: ['\n'] := by
    simp only [String.reduceToList, List.cons_append, List.nil_append]
  exact closes_append hlast (by decide)

theorem title_alike {r r' : Response}
    (h : (nonempty? r.projectKind).isSome = (nonempty? r'.projectKind).isSome) :
    Alike (titlePieces r) (titlePieces r') := by
  unfold titlePieces
  cases hkind : nonempty? r.projectKind with
  | none =>
      cases hkind' : nonempty? r'.projectKind with
      | some kind' => simp [hkind, hkind'] at h
      | none =>
          refine .of_closes rfl ?_
          simp only [List.cons_append, List.all_cons, closes_pageHead]
          rfl
  | some kind =>
      cases hkind' : nonempty? r'.projectKind with
      | none => simp [hkind, hkind'] at h
      | some kind' =>
          refine .of_closes rfl ?_
          simp only [List.cons_append, List.all_cons, closes_pageHead]
          rfl

theorem summary_alike {r r' : Response}
    (h : r.categories.map (·.2.severities) = r'.categories.map (·.2.severities)) :
    Alike (summaryPieces r) (summaryPieces r') := by
  unfold summaryPieces
  refine .append (.append (.append (.append ?_ (.flatMap ?_ h)) ?_) ?_) ?_
  · exact .of_closes rfl rfl
  · intro a b _
    exact .of_closes rfl rfl
  · exact .of_closes rfl rfl
  · exact .of_closes rfl rfl
  · exact .of_closes rfl rfl

theorem gate_alike {r r' : Response} (h : r.gate.map (·.passed) = r'.gate.map (·.passed)) :
    Alike (gatePieces r) (gatePieces r') := by
  unfold gatePieces
  cases hgate : r.gate with
  | none =>
      cases hgate' : r'.gate with
      | some g' => simp [hgate, hgate'] at h
      | none => exact .refl rfl
  | some g =>
      cases hgate' : r'.gate with
      | none => simp [hgate, hgate'] at h
      | some g' =>
          simp only [hgate, hgate', Option.map_some, Option.some.injEq] at h
          simp only [h]
          cases g'.passed
          · exact .of_closes rfl rfl
          · exact .of_closes rfl rfl

/-- The severity is the one text that stands within a tag. -/
theorem row_alike {f f' : Finding} (h : f.severity = f'.severity) :
    Alike (rowPieces f) (rowPieces f') := by
  have hstart : Alike ((rowPieces f).take 3) ((rowPieces f').take 3) := by
    have hsame : (rowPieces f).take 3 = (rowPieces f').take 3 := by
      show [Piece.markup _, .data f.severity.name, .markup _] =
          [.markup _, .data f'.severity.name, .markup _]
      rw [h]
    rw [hsame]
    refine .refl ?_
    show openTag none (textOf [.markup _, .data f'.severity.name, .markup _]) = none
    cases f'.severity <;> decide
  have hrest : Alike ((rowPieces f).drop 3) ((rowPieces f').drop 3) := .of_closes rfl rfl
  rw [← List.take_append_drop 3 (rowPieces f), ← List.take_append_drop 3 (rowPieces f')]
  exact hstart.append hrest

theorem overflow_alike (category category' : String) (issues : Nat) :
    Alike (overflowPieces category issues) (overflowPieces category' issues) := by
  unfold overflowPieces
  split
  · exact .of_closes rfl rfl
  · exact .refl rfl

theorem category_alike (category category' : String) {result result' : AuditResult}
    (h : result.severities = result'.severities) :
    Alike (categoryPieces category result) (categoryPieces category' result') := by
  have hlength : result.issues.length = result'.issues.length := by
    simpa [AuditResult.severities] using congrArg List.length h
  have hempty : result.issues.isEmpty = result'.issues.isEmpty := by
    rw [Bool.eq_iff_iff, List.isEmpty_iff_length_eq_zero, List.isEmpty_iff_length_eq_zero, hlength]
  have hshown : (result.issues.take rowLimit).map (·.severity) =
      (result'.issues.take rowLimit).map (·.severity) := by
    rw [List.map_take, List.map_take]
    exact congrArg (List.take rowLimit) h
  unfold categoryPieces
  rw [hempty, hlength]
  refine .append (.of_closes rfl rfl) ?_
  split
  · exact .of_closes rfl rfl
  · refine .append (.append (.append ?_ (.flatMap ?_ hshown)) ?_) (overflow_alike _ _ _)
    · exact .of_closes rfl rfl
    · exact fun f f' => row_alike
    · exact .of_closes rfl rfl

/-- Pages of the same shape have the same markup around their data, and the same tags. -/
theorem page_alike {r r' : Response} (h : r.shape = r'.shape) :
    Alike (pagePieces r) (pagePieces r') := by
  have hseverities : r.categories.map (·.2.severities) = r'.categories.map (·.2.severities) :=
    congrArg PageShape.severities h
  unfold pagePieces
  refine .append (.append (.append (.append ?_ ?_) ?_) (.flatMap ?_ hseverities)) ?_
  · exact title_alike (congrArg PageShape.hasKind h)
  · exact summary_alike hseverities
  · exact gate_alike (congrArg PageShape.passed h)
  · exact fun c c' => category_alike c.1 c'.1
  · exact .of_closes rfl rfl

/-! ## Whole pages -/

/-- Responses of the same shape, whatever their texts and counts are, have pages with the same tags
and the same markup around the data; and each angle bracket and quote of a page is one of the
markup. -/
theorem tags_eq_of_shape_eq {r r' : Response} (h : r.shape = r'.shape) :
    tags (page r) = tags (page r') ∧
    (pagePieces r).map Piece.markup? = (pagePieces r').map Piece.markup? ∧
    ∀ front c back, (page r).toList = front ++ c :: back → IsDelimiter c →
      ∃ before s inFront behind rest, pagePieces r = before ++ .markup s :: rest ∧
        s.toList = inFront ++ c :: behind ∧ front = textOf before ++ inFront ∧
        back = behind ++ textOf rest := by
  refine ⟨?_, (page_alike h).markup, ?_⟩
  · rw [tags, tags, toList_page, toList_page]
    exact (page_alike h).tags
  · intro front c back htext hc
    rw [toList_page] at htext
    exact exists_markup htext hc

/-- A response with one issue in one category, and with a text in all places that take one. -/
def oneText (text : String) : Response where
  scanId := text
  projectKind := some text
  categories := [(text, summarize text [
    { kind := text, severity := .high, message := text, rule := some text, file := some text,
      line := some 4
      code := some text }])]
  summary := { high := 1, total := 1 }
  gate := some { platform := text, passed := false, summary := [], thresholds := [(text, 0)]
                 failures := [text], failOnHigh := true }

/-- A text that would close the cell it stands in and open a script has no effect on the tags. -/
theorem tags_eq_of_shape_eq_hostile :
    (oneText "</td><script title=\"").shape = (oneText "web").shape ∧
      tags (page (oneText "</td><script title=\"")) = tags (page (oneText "web")) := by
  have hshape : (oneText "</td><script title=\"").shape = (oneText "web").shape := by decide
  exact ⟨hshape, (tags_eq_of_shape_eq hshape).1⟩

end Report

end FrontendAudit
