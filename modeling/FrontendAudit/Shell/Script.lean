/-!
# Scripts

A script is a list of simple commands, each with what joins it to the one before. A command has
words and redirections. A word is made of text and of references to values, which are looked up when
the command is run; quotes have no part in it any more.
-/

namespace FrontendAudit.Shell

/-- A part of a word. -/
inductive Part where
  | text (s : List Char)
  | value (name : List Char)
  deriving DecidableEq, Repr

/-- What joins a command to the one before. -/
inductive Joint where
  | always
  | onSuccess
  | onFailure
  deriving DecidableEq, Repr

/-- Sends the output or the errors of a command somewhere else, or nowhere. -/
structure Redirection where
  source : Nat
  target : Option Nat
  deriving DecidableEq, Repr

/-- A simple command. -/
structure Simple where
  joint : Joint := .always
  words : List (List Part) := []
  redirections : List Redirection := []
  deriving DecidableEq, Repr, Inhabited

/-- Whether a character separates words. -/
def isGap (c : Char) : Bool := c = ' ' || c = '\t'

/-- Whether a character ends a word. -/
def endsWord (c : Char) : Bool := isGap c || [';', '&', '|', '<', '>', '\n'].contains c

/-- Whether a character belongs to the name of a value. -/
def inName (c : Char) : Bool := c.isAlphanum || c = '_'

/-- The reference after a dollar sign, and what follows; a dollar sign alone is text. -/
def reference (s : List Char) : Part × List Char :=
  match s with
  | '\x7b' :: s => (.value (s.takeWhile (· ≠ '\x7d')), (s.dropWhile (· ≠ '\x7d')).drop 1)
  | '$' :: s => (.value ['$'], s)
  | '?' :: s => (.value ['?'], s)
  | s =>
    let name := s.takeWhile inName
    if name.isEmpty then (.text ['$'], s) else (.value name, s.drop name.length)

/-- The parts between double quotes, and what follows. -/
def quotedParts : Nat → List Char → List Part × List Char
  | 0, s => ([], s)
  | _ + 1, [] => ([], [])
  | _ + 1, '"' :: s => ([], s)
  | fuel + 1, '\\' :: c :: s =>
    let (parts, rest) := quotedParts fuel s
    (.text (if ['$', '\x60', '"', '\\'].contains c then [c] else ['\\', c]) :: parts, rest)
  | fuel + 1, '$' :: s =>
    let (part, s) := reference s
    let (parts, rest) := quotedParts fuel s
    (part :: parts, rest)
  | fuel + 1, c :: s =>
    let (parts, rest) := quotedParts fuel s
    (.text [c] :: parts, rest)

/-- The parts of a word, and what follows. -/
def word : Nat → List Char → List Part × List Char
  | 0, s => ([], s)
  | _ + 1, [] => ([], [])
  | fuel + 1, '\'' :: s =>
    let (parts, rest) := word fuel ((s.dropWhile (· ≠ '\'')).drop 1)
    (.text (s.takeWhile (· ≠ '\'')) :: parts, rest)
  | fuel + 1, '"' :: s =>
    let (quoted, s) := quotedParts (s.length + 1) s
    let (parts, rest) := word fuel s
    (.text [] :: (quoted ++ parts), rest)
  | fuel + 1, '\\' :: c :: s =>
    let (parts, rest) := word fuel s
    (.text [c] :: parts, rest)
  | fuel + 1, '$' :: s =>
    let (part, s) := reference s
    let (parts, rest) := word fuel s
    (part :: parts, rest)
  | fuel + 1, c :: s =>
    if endsWord c then ([], c :: s)
    else
      let (parts, rest) := word fuel s
      (.text [c] :: parts, rest)

/-- The number of a stream. -/
def streamOf (c : Char) : Nat := c.toNat - 48

/-- A redirection at the start of a text, and what follows. -/
def redirection? (s : List Char) : Option (Redirection × List Char) :=
  let (source, s) := match s with
    | '1' :: '>' :: s => (1, '>' :: s)
    | '2' :: '>' :: s => (2, '>' :: s)
    | s => (1, s)
  let void := "/dev/null".toList
  match s with
  | '>' :: '&' :: d :: s => if d.isDigit then some (⟨source, some (streamOf d)⟩, s) else none
  | '>' :: s =>
    let s := s.dropWhile isGap
    if void.isPrefixOf s then some (⟨source, none⟩, s.drop void.length) else none
  | _ => none

/-- The commands of a text, with the one that is being read; nothing for what is not understood. -/
def commands (current : Simple) : Nat → List Char → Option (List Simple)
  | 0, _ => none
  | _ + 1, [] => some [current]
  | fuel + 1, '&' :: '&' :: s => (commands { joint := .onSuccess } fuel s).map (current :: ·)
  | fuel + 1, '|' :: '|' :: s => (commands { joint := .onFailure } fuel s).map (current :: ·)
  | fuel + 1, c :: s =>
    if c = ';' || c = '\n' then (commands {} fuel s).map (current :: ·)
    else if isGap c then commands current fuel s
    else match redirection? (c :: s) with
      | some (r, rest) =>
        commands { current with redirections := current.redirections ++ [r] } fuel rest
      | none =>
        if endsWord c then none
        else
          let (parts, rest) := word (s.length + 1) (c :: s)
          commands { current with words := current.words ++ [parts] } fuel rest

/-- The commands of a script, if it is understood. -/
def parse (s : List Char) : Option (List Simple) :=
  (commands {} (s.length + 1) s).map (·.filter fun c => !c.words.isEmpty)

end FrontendAudit.Shell
