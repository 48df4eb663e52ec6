import FrontendAudit.Json.Basic
import FrontendAudit.Validation.Basic

/-!
# Data of the wrong shape

Data from tools, agents and manifests is taken apart with few checks. Where a value is not what the
program counts on, the reading stops with a misfit that says what was asked of the value.
-/

namespace FrontendAudit

/-- What could not be done with a value of the wrong shape. -/
inductive Misfit where
  /-- A member was asked of a value that is no object. -/
  | noMembers
  /-- A value that has no items was gone through. -/
  | noItems
  /-- The entries of a value that is no object were merged. -/
  | noEntries
  /-- A list or object was looked up in a set. -/
  | noKey
  /-- A value that is no whole number was used as the number of a line. -/
  | noLine
  /-- A member that has to be there is absent. -/
  | absent (key : String)
  /-- A record was not valid. -/
  | invalid (issues : List Issue)
  deriving DecidableEq, Repr

namespace Json

/-- The member of an object, which the value has to be. -/
def member (key : String) : Json → Except Misfit (Option Json)
  | .obj members => .ok (lookup? key members)
  | _ => .error .noMembers

/-- The member of an object, or null if it has none of that name. -/
def memberOrNull (key : String) (v : Json) : Except Misfit Json :=
  (v.member key).map (·.getD .null)

/-- The member of an object that has to be there. -/
def requiredMember (key : String) (v : Json) : Except Misfit Json := do
  match ← v.member key with
  | some value => .ok value
  | none => .error (.absent key)

/-- The items of a value: of a list its elements, of an object its keys, of a text its
characters. -/
def items : Json → Except Misfit (List Json)
  | .arr items => .ok items
  | .obj members => .ok (members.map fun m => .str m.1)
  | .str s => .ok (s.toList.map fun c => .str c.toString)
  | _ => .error .noItems

/-- The entries of an object; none of a value that says nothing. -/
def entries : Json → Except Misfit (List (String × Json))
  | .obj members => .ok members
  | v => if v.isVacant then .ok [] else .error .noEntries

end Json

/-- A checked value, where issues are a misfit. -/
def Checked.toExcept : Checked α → Except Misfit α
  | .ok a => .ok a
  | .bad issues => .error (.invalid issues)

end FrontendAudit
