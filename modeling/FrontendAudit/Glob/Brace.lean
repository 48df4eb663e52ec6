/-!
# Brace expansion

A group `{a,b}` without braces inside stands for its alternatives. The leftmost such group is
expanded first, and what comes out is expanded further, so that nested groups come apart from the
inside out. Every expansion removes an opening brace, which bounds their number.
-/

namespace FrontendAudit.Glob

/-- The character that opens a group. -/
def opening : Char := '\x7b'

/-- The character that closes a group. -/
def closing : Char := '\x7d'

/-- Whether a character is a brace. -/
def isBrace (c : Char) : Bool := c = opening || c = closing

/-- What stands before, in and after the leftmost group without braces inside. -/
def firstGroup? : List Char → Option (List Char × List Char × List Char)
  | [] => none
  | c :: s =>
    let further := (firstGroup? s).map fun (head, body, tail) => (c :: head, body, tail)
    if c = opening then
      match s.dropWhile fun d => !isBrace d with
      | d :: tail =>
        if d = closing then some ([], s.takeWhile fun d => !isBrace d, tail) else further
      | [] => further
    else further

/-- The alternatives of a group. -/
def alternatives (body : List Char) : List (List Char) :=
  body.foldr (fun c pieces =>
    if c = ',' then [] :: pieces
    else match pieces with
      | [] => [[c]]
      | piece :: pieces => (c :: piece) :: pieces) [[]]

/-- Expands groups as often as the fuel allows. -/
def expandWith : Nat → List Char → List (List Char)
  | 0, s => [s]
  | fuel + 1, s =>
    match firstGroup? s with
    | none => [s]
    | some (head, body, tail) =>
      (alternatives body).flatMap fun choice => expandWith fuel (head ++ choice ++ tail)

/-- All texts that a pattern with groups stands for. -/
def expandBraces (s : List Char) : List (List Char) :=
  expandWith (s.count opening) s

end FrontendAudit.Glob
