import FrontendAudit.Json.Misfit
import FrontendAudit.Text.Blank

/-!
# Kinds of projects

The kind of a project selects the rules that its scripts are linted with. Names are understood in
any case and with spaces anywhere, and the kind for both has a short name besides its proper one.
-/

namespace FrontendAudit

/-- What a front-end project is made with. -/
inductive ProjectKind where
  | react
  | node
  | vanilla
  | typescript
  | typescriptReact
  deriving DecidableEq, Repr

namespace ProjectKind

/-- All kinds. -/
def all : List ProjectKind := [react, node, vanilla, typescript, typescriptReact]

/-- The proper name. -/
def name : ProjectKind → String
  | react => "react"
  | node => "node"
  | vanilla => "vanilla"
  | typescript => "typescript"
  | typescriptReact => "typescript+react"

/-- The kind of a name that a user gives. -/
def ofName? (s : String) : Option ProjectKind :=
  let folded := String.ofList (((Text.strip s.toList).map Char.toLower).filter (· ≠ ' '))
  if folded = "tsreact" then some typescriptReact else all.find? (·.name = folded)

/-- The kind that a value names; none for a value that says nothing. -/
def ofJson? : Json → Except Misfit (Option ProjectKind)
  | .str s => .ok (ofName? s)
  | v => if v.isVacant then .ok none else .error .noMembers

end ProjectKind

end FrontendAudit
