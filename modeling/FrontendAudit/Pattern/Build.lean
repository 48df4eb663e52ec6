import FrontendAudit.Pattern.Basic

/-!
# Building patterns

Words, sets of characters and counted repetitions. A word may be taken without regard to case; two
letters then also stand for characters beyond ASCII whose lower or upper case they are: the dotless
and the dotted i, the long s and the Kelvin sign.
-/

namespace FrontendAudit.Pattern

/-- One pattern after the other. -/
def seqs : List Pattern → Pattern
  | [] => .empty
  | [p] => p
  | p :: ps => .seq p (seqs ps)

/-- Any of the patterns, earlier ones by preference. -/
def oneOf : List Pattern → Pattern
  | [] => .chars ⟨false, []⟩
  | [p] => p
  | p :: ps => .alt p (oneOf ps)

/-- One of the listed characters. -/
def among (cs : String) : Pattern :=
  .chars ⟨false, cs.toList.map .one⟩

/-- Any character but the listed ones. -/
def except (cs : String) : Pattern :=
  .chars ⟨true, cs.toList.map .one⟩

/-- A character of some kinds. -/
def ofKinds (ks : List CharKind) : Pattern :=
  .chars ⟨false, ks⟩

/-- A blank. -/
def blank : Pattern := ofKinds [.blank]

/-- A word character. -/
def wordChar : Pattern := ofKinds [.word]

/-- Any character but a line feed. -/
def inLine : Pattern := except "\n"

/-- As many as possible, or none. -/
def many (p : Pattern) : Pattern := .star true p

/-- As few as possible, or none. -/
def few (p : Pattern) : Pattern := .star false p

/-- As many as possible, at least one. -/
def many1 (p : Pattern) : Pattern := .seq p (many p)

/-- One if possible. -/
def optional (p : Pattern) : Pattern := .alt p .empty

/-- As many blanks as there are. -/
def blanks : Pattern := many blank

/-- Up to `n` as many as possible. -/
def upTo : Nat → Pattern → Pattern
  | 0, _ => .empty
  | n + 1, p => optional (.seq p (upTo n p))

/-- Exactly `n`. -/
def times : Nat → Pattern → Pattern
  | 0, _ => .empty
  | n + 1, p => .seq p (times n p)

/-- A word as it is written. -/
def word (s : String) : Pattern :=
  seqs (s.toList.map fun c => .chars ⟨false, [.one c]⟩)

/-- The characters beyond ASCII that share a case with a small letter. -/
def caseRelatives (c : Char) : List Char :=
  if c = 'i' then ['\u0130', '\u0131']
  else if c = 's' then ['\u017f']
  else if c = 'k' then ['\u212a']
  else []

/-- The characters that are equal to `c` when case does not matter. -/
def caseVariants (c : Char) : List Char :=
  let small := c.toLower
  let capital := c.toUpper
  if small = capital then [c] else small :: capital :: caseRelatives small

/-- A word in any case. -/
def caseless (s : String) : Pattern :=
  seqs (s.toList.map fun c => .chars ⟨false, (caseVariants c).map .one⟩)

/-- Any of some words as they are written. -/
def anyWord (ss : List String) : Pattern := oneOf (ss.map word)

/-- Any of some words in any case. -/
def anyCaseless (ss : List String) : Pattern := oneOf (ss.map caseless)

end FrontendAudit.Pattern
