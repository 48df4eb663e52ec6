import FrontendAudit.Json.Basic
import FrontendAudit.Number.Decimal

/-!
# The journal of a run

What a run does that can be seen from outside, besides the files it writes, is noted in the order in
which it happens: complaints, pauses, progress, and every question put to a tool, a page, a service
or a repository.
-/

namespace FrontendAudit

/-!
## Lengths of time

A length of time is a number of seconds, whole and of any size or of double precision. Doubling it
keeps which of the two it is, and comes to an end where the numbers of double precision do: the
power of two that a length of double precision is multiplied by has to be one of them, and so does a
whole length that is doubled.
-/

open Number (Binary64)

/-- A length of time in seconds. -/
inductive Duration where
  | whole (seconds : Int)
  | measured (seconds : Binary64)
  deriving DecidableEq, Repr, Inhabited

namespace Duration

/-- The nearest number of double precision. -/
def toBinary64 : Duration → Binary64
  | .whole n => .ofInt n
  | .measured x => x

/-- The least number of doublings after which one second is past all numbers of double precision. -/
def doublingLimit : Nat := 1024

/-- The length doubled some times, if that can be told. -/
def doubled? (times : Nat) : Duration → Option Duration
  | .whole n =>
    let seconds := n * (Nat.pow 2 times : Nat)
    if (Binary64.ofInt seconds).isFinite then some (.whole seconds) else none
  | .measured x => if times < doublingLimit then some (.measured (x.scaleBy times)) else none

theorem isSome_doubled?_measured {x : Binary64} {times : Nat} :
    ((measured x).doubled? times).isSome = true ↔ times < doublingLimit := by
  unfold doubled?
  dsimp only
  split <;> simp_all

end Duration

/-! ## Notes -/

/-- A request to a service. -/
structure Post where
  url : String
  body : Json
  authorization : Option String
  deriving Repr, Inhabited

/-- Something that a run did. -/
inductive Note where
  | warning (text : String)
  | error (text : String)
  | pause (length : Duration)
  | progress (text : String)
  | linted (tool path : String)
  | fetched (url : String)
  | posted (request : Post)
  | cloned (url : String) (depth : Nat)
  deriving Repr, Inhabited

namespace Note

/-- The pauses among notes. -/
def pauses (notes : List Note) : List Duration :=
  notes.filterMap fun
    | .pause length => some length
    | _ => none

/-- The progress that was shown, text by text. -/
def progressTexts (notes : List Note) : List String :=
  notes.filterMap fun
    | .progress text => some text
    | _ => none

/-- The progress that was shown. -/
def progressText (notes : List Note) : String := String.join (progressTexts notes)

theorem pauses_append (notes more : List Note) :
    pauses (notes ++ more) = pauses notes ++ pauses more :=
  List.filterMap_append

theorem progressTexts_append (notes more : List Note) :
    progressTexts (notes ++ more) = progressTexts notes ++ progressTexts more :=
  List.filterMap_append

end Note

end FrontendAudit
