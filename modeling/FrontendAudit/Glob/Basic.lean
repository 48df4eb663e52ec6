import FrontendAudit.Pattern.Basic

/-!
# Globs

A glob without braces is a sequence of tokens: `**/` for any number of directories, `**` for any
text within a line, `*` for a run inside one segment, `?` for one character of a segment, a set in
brackets, and characters that stand for themselves. A leading `./` does not count.

A set lists characters and ranges, and is negated by `!` or `^`. A set must list something: after an
empty pair of brackets the set runs on, takes the bracket and what follows as its characters, and
ends at the next bracket of a later token. A set without end and a range that runs backwards are
faults. A path matches when the glob describes the whole of it, where a line feed at its end does
not count.
-/

namespace FrontendAudit

namespace Glob

/-- A part of a glob as it is written. -/
inductive Token where
  | directories
  | anything
  | run
  | single
  | literal (c : Char)
  | set (body : List Char)
  deriving DecidableEq, Repr

/-- The token at the front of a glob, given its first character and the rest, and how many
characters of the rest belong to it. -/
def leading (c : Char) (rest : List Char) : Token × Nat :=
  if c = '*' then
    match rest with
    | '*' :: '/' :: _ => (.directories, 2)
    | '*' :: _ => (.anything, 1)
    | _ => (.run, 0)
  else if c = '?' then (.single, 0)
  else if c = '[' then
    if rest.contains ']' then
      let body := rest.takeWhile (· ≠ ']')
      (.set body, body.length + 1)
    else (.literal c, 0)
  else (.literal c, 0)

/-- The tokens of a glob whose first `skip` characters belong to a token before. -/
def tokensFrom (skip : Nat) : List Char → List Token
  | [] => []
  | c :: rest =>
    match skip with
    | skip + 1 => tokensFrom skip rest
    | 0 => (leading c rest).1 :: tokensFrom (leading c rest).2 rest

/-- The tokens of a glob. -/
def tokens : List Char → List Token
  | '.' :: '/' :: s => tokensFrom 0 s
  | s => tokensFrom 0 s

/-! ## Sets -/

/-- What is wrong with a glob. -/
inductive GlobFault where
  | unendedSet
  | backwardRange
  | strayQuantifier
  deriving DecidableEq, Repr

/-- An entry of a set as it is written: a dash may make a range, any other character stands for
itself. -/
inductive SetItem where
  | dash
  | char (c : Char)
  deriving DecidableEq, Repr

/-- The character of an entry. -/
def SetItem.toChar : SetItem → Char
  | .dash => '-'
  | .char c => c

/-- The entry of a character in brackets. -/
def SetItem.ofChar (c : Char) : SetItem := if c = '-' then .dash else .char c

/-- The kinds of characters that the entries of a set list. -/
def kindsOf : List SetItem → Except GlobFault (List CharKind)
  | [] => .ok []
  | [a] => .ok [.one a.toChar]
  | [a, .dash] => .ok [.one a.toChar, .one '-']
  | a :: .dash :: b :: items =>
    if b.toChar < a.toChar then .error .backwardRange
    else (kindsOf items).map (.range a.toChar b.toChar :: ·)
  | a :: items => (kindsOf items).map (.one a.toChar :: ·)

/-- Whether a set is negated, and the rest of its body. -/
def negation : List Char → Bool × List Char
  | '!' :: body => (true, body)
  | '^' :: body => (true, body)
  | body => (false, body)

/-- The set of some entries. -/
def setOf (negated : Bool) (items : List SetItem) : Except GlobFault CharSet :=
  (kindsOf items).map (⟨negated, ·⟩)

/-- The characters of a segment. -/
def segmentChars : CharSet := ⟨true, [.one '/']⟩

/-- The characters of a line. -/
def lineChars : CharSet := ⟨true, [.one '\n']⟩

/-! ## Globs and what they match -/

/-- A part of a glob as it matches. -/
inductive Piece where
  /-- One character of a set. -/
  | one (s : CharSet)
  /-- Any number of characters of a set. -/
  | run (s : CharSet)
  /-- Any number of segments that are not empty, each with a slash after it. -/
  | directories
  deriving DecidableEq, Repr

end Glob

/-- A glob that can be matched. -/
abbrev Glob := List Glob.Piece

namespace Glob

/-- The body of a set with its mark of negation in the one written form. -/
def writtenBody (body : List Char) : List Char :=
  match body with
  | '!' :: rest => '^' :: rest
  | body => body

/-- The pieces of tokens, where a set that lists nothing yet may be open: whether it is negated and
the entries it has taken so far. -/
def piecesFrom (current : Option (Bool × List SetItem)) : List Token → Except GlobFault Glob
  | [] => if current.isSome then .error .unendedSet else .ok []
  | token :: rest =>
    match current with
    | none =>
      match token with
      | .directories => (piecesFrom none rest).map (.directories :: ·)
      | .anything => (piecesFrom none rest).map (.run lineChars :: ·)
      | .run => (piecesFrom none rest).map (.run segmentChars :: ·)
      | .single => (piecesFrom none rest).map (.one segmentChars :: ·)
      | .literal c => (piecesFrom none rest).map (.one ⟨false, [.one c]⟩ :: ·)
      | .set body =>
        match negation body with
        | (negated, []) => piecesFrom (some (negated, [.char ']'])) rest
        | (negated, listed) => do
          let s ← setOf negated (listed.map .ofChar)
          let pieces ← piecesFrom none rest
          return .one s :: pieces
    | some (negated, items) =>
      let segment : List SetItem := [.char '[', .char '^', .char '/']
      match token with
      | .literal c => piecesFrom (some (negated, items ++ [.char c])) rest
      | .anything => piecesFrom (some (negated, items ++ [.char '.', .char '*'])) rest
      | .directories => .error .strayQuantifier
      | .run => do
        let s ← setOf negated (items ++ segment)
        let pieces ← piecesFrom none rest
        return .run s :: pieces
      | .single => do
        let s ← setOf negated (items ++ segment)
        let pieces ← piecesFrom none rest
        return .one s :: pieces
      | .set body => do
        let s ← setOf negated (items ++ .char '[' :: (writtenBody body).map .ofChar)
        let pieces ← piecesFrom none rest
        return .one s :: pieces

/-- The glob of a text. -/
def parse (s : List Char) : Except GlobFault Glob :=
  piecesFrom none (tokens s)

/-- What may be left of a text after a run of characters of a set. -/
def runTails (k : CharSet) : List Char → List (List Char)
  | [] => [[]]
  | c :: s => (c :: s) :: if k.has c then runTails k s else []

/-- What may be left of a text after directories, besides all of it. -/
def directoryTails (inSegment : Bool) : List Char → List (List Char)
  | [] => []
  | c :: s =>
    if c = '/' then if inSegment then s :: directoryTails false s else []
    else directoryTails true s

/-- Whether a glob describes the whole of a text. -/
def covers : Glob → List Char → Bool
  | [], s => s.isEmpty || s = ['\n']
  | .one k :: pieces, s =>
    match s with
    | [] => false
    | c :: s => k.has c && covers pieces s
  | .run k :: pieces, s => (runTails k s).any (covers pieces)
  | .directories :: pieces, s => (s :: directoryTails false s).any (covers pieces)

end Glob

end FrontendAudit
