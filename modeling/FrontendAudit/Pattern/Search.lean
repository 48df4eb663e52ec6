import FrontendAudit.Pattern.Basic

/-!
# Searching for patterns

`Pattern.first` tries the ends of a stretch one after the other and stops at the first that suits
what follows; it finds what a walk through the list of all ends finds (`first_eq_findSome?`). A
search takes the leftmost place where the pattern matches, and a search for all matches goes on
behind each of them.
-/

namespace FrontendAudit.Pattern

/-- Repeated stretches, tried in order of preference until one suits. -/
def starFirst (step : Cursor → (Cursor → Option α) → Option α) (greedy : Bool) :
    Nat → Cursor → (Cursor → Option α) → Option α
  | 0, c, k => k c
  | fuel + 1, c, k =>
    let more : Unit → Option α := fun _ =>
      step c fun c' =>
        if c'.rest.length < c.rest.length then starFirst step greedy fuel c' k else none
    if greedy then (more ()).orElse fun _ => k c else (k c).orElse more

/-- What `k` makes of the first end of a stretch that suits it. -/
def first : Pattern → Cursor → (Cursor → Option α) → Option α
  | .empty, c, k => k c
  | .chars s, c, k =>
    match c.rest with
    | [] => none
    | a :: rest => if s.has a then k { c with before := some a, rest } else none
  | .boundary, c, k => if Text.isBoundary c.before c.rest.head? then k c else none
  | .seq p q, c, k => first p c fun c' => first q c' k
  | .alt p q, c, k => (first p c k).orElse fun _ => first q c k
  | .star greedy p, c, k => starFirst (first p) greedy c.rest.length c k
  | .group i p, c, k => first p c fun c' => k (c'.remember i c)
  | .again i, c, k =>
    match c.group? i with
    | none => none
    | some stretch =>
      if stretch.isPrefixOf c.rest then k (c.advance stretch.length) else none

/-! ## Searching agrees with the list of ends -/

theorem findSome?_flatMap (f : α → List β) (k : β → Option γ) (xs : List α) :
    (xs.flatMap f).findSome? k = xs.findSome? fun x => (f x).findSome? k := by
  induction xs with
  | nil => rfl
  | cons x xs ih =>
    rw [List.flatMap_cons, List.findSome?_append, ih, List.findSome?_cons]
    cases (f x).findSome? k <;> rfl

theorem findSome?_singleton (k : α → Option β) (a : α) : [a].findSome? k = k a := by
  rw [List.findSome?_cons]
  cases k a <;> rfl

theorem starFirst_eq_findSome? {step : Cursor → (Cursor → Option α) → Option α}
    {steps : Cursor → List Cursor} (h : ∀ c k, step c k = (steps c).findSome? k)
    (greedy : Bool) (fuel : Nat) (c : Cursor) (k : Cursor → Option α) :
    starFirst step greedy fuel c k = (starEnds steps greedy fuel c).findSome? k := by
  induction fuel generalizing c with
  | zero => rw [starFirst, starEnds, findSome?_singleton]
  | succ fuel ih =>
    have hmore : (step c fun c' =>
        if c'.rest.length < c.rest.length then starFirst step greedy fuel c' k else none) =
        ((steps c).flatMap fun c' =>
          if c'.rest.length < c.rest.length then starEnds steps greedy fuel c'
          else []).findSome? k := by
      rw [h, findSome?_flatMap]
      congr 1
      funext c'
      split
      · exact ih c'
      · rfl
    cases greedy
    · simp only [starFirst, starEnds, Bool.false_eq_true, if_false, List.findSome?_cons]
      rw [hmore]
      cases k c <;> rfl
    · simp only [starFirst, starEnds, if_true, List.findSome?_append]
      rw [hmore, findSome?_singleton]
      cases (List.findSome? k _) <;> rfl

/-- Trying ends one by one finds what the list of all ends has first. -/
theorem first_eq_findSome? (p : Pattern) (c : Cursor) (k : Cursor → Option α) :
    first p c k = (ends p c).findSome? k := by
  induction p generalizing c k with
  | empty => rw [first, ends, findSome?_singleton]
  | chars s =>
    cases hr : c.rest with
    | nil => simp [first, ends, hr]
    | cons a rest =>
      by_cases ha : s.has a <;> simp [first, ends, hr, ha]
  | boundary =>
    simp only [first, ends]
    split
    · rw [findSome?_singleton]
    · rfl
  | seq p q ihp ihq =>
    simp only [first, ends]
    rw [ihp, findSome?_flatMap]
    congr 1
    funext c'
    exact ihq c' k
  | alt p q ihp ihq =>
    simp only [first, ends, List.findSome?_append, ihp, ihq]
    cases (List.findSome? k (ends p c)) <;> rfl
  | star greedy p ih => exact starFirst_eq_findSome? ih greedy _ c k
  | group i p ih =>
    simp only [first, ends]
    rw [ih, List.findSome?_map]
    rfl
  | again i =>
    cases hg : c.group? i with
    | none => simp [first, ends, hg]
    | some stretch =>
      by_cases hs : stretch.isPrefixOf c.rest = true
      · simp only [first, ends, hg, hs, if_true, findSome?_singleton]
      · simp only [first, ends, hg, hs]; rfl

/-! ## Matches -/

/-- A stretch of text that matches, with what was remembered in it. -/
structure Match where
  text : List Char
  groups : List (Nat × List Char)
  deriving DecidableEq, Repr

/-- The stretch remembered under a number; empty if there is none. -/
def Match.group (m : Match) (i : Nat) : List Char :=
  ((m.groups.find? (·.1 = i)).map (·.2)).getD []

/-- The preferred match that begins at a place. -/
def matchAt? (p : Pattern) (before : Option Char) (s : List Char) : Option Match :=
  let start : Cursor := ⟨before, s, []⟩
  p.first start fun c => some ⟨start.upTo c, c.groups⟩

/-- The leftmost match in what follows a place. -/
def searchFrom? (p : Pattern) (before : Option Char) : List Char → Option Match
  | [] => p.matchAt? before []
  | a :: s => (p.matchAt? before (a :: s)).orElse fun _ => p.searchFrom? (some a) s

/-- The leftmost match in a text. -/
def search? (p : Pattern) (s : List Char) : Option Match :=
  p.searchFrom? none s

/-- Whether the pattern matches somewhere in a text. -/
def occursIn (p : Pattern) (s : List Char) : Bool :=
  (p.search? s).isSome

/-- The matches in what follows a place, each behind the one before, where the first `skip`
characters belong to a match already found. -/
def matchesFrom (p : Pattern) (before : Option Char) (skip : Nat) : List Char → List Match
  | [] => if skip = 0 then (p.matchAt? before []).toList else []
  | a :: s =>
    match skip with
    | skip + 1 => p.matchesFrom (some a) skip s
    | 0 =>
      match p.matchAt? before (a :: s) with
      | some m => m :: p.matchesFrom (some a) (m.text.length - 1) s
      | none => p.matchesFrom (some a) 0 s

/-- All matches in a text, from left to right, without overlap. -/
def allMatches (p : Pattern) (s : List Char) : List Match :=
  p.matchesFrom none 0 s

end FrontendAudit.Pattern
