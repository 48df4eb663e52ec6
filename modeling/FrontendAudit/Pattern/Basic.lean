import FrontendAudit.Text.Blank
import FrontendAudit.Text.Word

/-!
# Text patterns

A pattern describes stretches of text. Where several ends are possible for a given start they are
listed in order of preference (`Pattern.ends`): a greedy repetition prefers to go on, a lazy one to
stop, and an alternative prefers its left side. The list is the meaning of a pattern; searching, in
the module beside this one, is proved to agree with it.
-/

namespace FrontendAudit

/-- A kind of character. -/
inductive CharKind where
  | one (c : Char)
  | range (lo hi : Char)
  | blank
  | word
  deriving DecidableEq, Repr

/-- Whether the character is of the kind. -/
def CharKind.holds : CharKind → Char → Bool
  | .one a, c => c = a
  | .range lo hi, c => lo ≤ c && c ≤ hi
  | .blank, c => Text.isBlank c
  | .word, c => Text.isWord c

/-- A set of characters: those of some kinds, or all others. -/
structure CharSet where
  negated : Bool
  kinds : List CharKind
  deriving DecidableEq, Repr

/-- Whether the set has the character. -/
def CharSet.has (s : CharSet) (c : Char) : Bool :=
  s.kinds.any (·.holds c) != s.negated

/-- A description of stretches of text. -/
inductive Pattern where
  /-- The empty stretch. -/
  | empty
  /-- One character of a set. -/
  | chars (s : CharSet)
  /-- The place between a word character and something else. -/
  | boundary
  /-- One pattern after the other. -/
  | seq (p q : Pattern)
  /-- Either pattern, the left one by preference. -/
  | alt (p q : Pattern)
  /-- Any number of stretches that are not empty. -/
  | star (greedy : Bool) (p : Pattern)
  /-- A stretch that is remembered under a number. -/
  | group (i : Nat) (p : Pattern)
  /-- The stretch that was remembered under a number, once more. -/
  | again (i : Nat)
  deriving DecidableEq, Repr

/-- A place in a text: the character before it, what follows it, and the stretches remembered on the
way, the latest first. -/
structure Cursor where
  before : Option Char
  rest : List Char
  groups : List (Nat × List Char)
  deriving DecidableEq, Repr

namespace Cursor

/-- The stretch remembered under a number. -/
def group? (c : Cursor) (i : Nat) : Option (List Char) :=
  (c.groups.find? (·.1 = i)).map (·.2)

/-- The place after `n` more characters. -/
def advance (c : Cursor) : Nat → Cursor
  | 0 => c
  | n + 1 =>
    match c.rest with
    | [] => c
    | a :: rest => advance { c with before := some a, rest } n

/-- The text between a place and a later one. -/
def upTo (c later : Cursor) : List Char :=
  c.rest.take (c.rest.length - later.rest.length)

/-- The place with a stretch remembered that began at `start`. -/
def remember (c : Cursor) (i : Nat) (start : Cursor) : Cursor :=
  { c with groups := (i, start.upTo c) :: c.groups }

end Cursor

namespace Pattern

/-- The ends of repeated stretches, in order of preference. Each stretch must consume something, so
the length of the text bounds their number. -/
def starEnds (step : Cursor → List Cursor) (greedy : Bool) : Nat → Cursor → List Cursor
  | 0, c => [c]
  | fuel + 1, c =>
    let more := (step c).flatMap fun c' =>
      if c'.rest.length < c.rest.length then starEnds step greedy fuel c' else []
    if greedy then more ++ [c] else c :: more

/-- The places where a stretch that begins at the given place may end, in order of preference. -/
def ends : Pattern → Cursor → List Cursor
  | .empty, c => [c]
  | .chars s, c =>
    match c.rest with
    | [] => []
    | a :: rest => if s.has a then [{ c with before := some a, rest }] else []
  | .boundary, c => if Text.isBoundary c.before c.rest.head? then [c] else []
  | .seq p q, c => (ends p c).flatMap (ends q)
  | .alt p q, c => ends p c ++ ends q c
  | .star greedy p, c => starEnds (ends p) greedy c.rest.length c
  | .group i p, c => (ends p c).map (·.remember i c)
  | .again i, c =>
    match c.group? i with
    | none => []
    | some stretch =>
      if stretch.isPrefixOf c.rest then [c.advance stretch.length] else []

end Pattern

end FrontendAudit
