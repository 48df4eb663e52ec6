import FrontendAudit.Severity
import FrontendAudit.Snippet
import FrontendAudit.Validation.Basic

/-!
# Findings

A finding is one detected issue: what kind, how severe, where, and what to do about it. A finding is
accepted only with a location, a file or the address of a page, and its code and context are cut to
size on the way in (`Finding.accept`). Two findings are the same issue when location, line, kind and
message agree (`Finding.key`).
-/

namespace FrontendAudit

/-- One detected issue. -/
structure Finding where
  kind : String
  severity : Severity
  message : String
  file : Option String := none
  line : Option Int := none
  url : Option String := none
  code : Option String := none
  context : Option String := none
  recommendation : Option String := none
  source : String := "custom"
  wcag : Option String := none
  rule : Option String := none
  deriving DecidableEq, Repr, Inhabited

/-- A text that is there and not empty. -/
def nonempty? : Option String → Option String
  | some s => if s.isEmpty then none else some s
  | none => none

namespace Finding

/-- The file, or else the address, that the finding is about. -/
def location? (f : Finding) : Option String :=
  (nonempty? f.file).or (nonempty? f.url)

/-- What tells one issue from another. -/
structure Key where
  location : String
  line : Option Int
  kind : String
  message : String
  deriving DecidableEq, Repr

/-- What tells this issue from others. -/
def key (f : Finding) : Key :=
  ⟨f.location?.getD "", f.line, f.kind, f.message⟩

/-- The finding with its code and context cut to size. -/
def bounded (f : Finding) : Finding :=
  { f with
    code := f.code.map Snippet.bounded
    context := f.context.map Snippet.boundedLines }

/-- The finding cut to size, provided that it has a location. -/
def accept (f : Finding) : Checked Finding :=
  if f.location?.isSome then .ok f.bounded else Checked.reject .unlocated

/-- The findings cut to size, provided that each has a location; otherwise what is wrong with the
first that has none. -/
def acceptAll : List Finding → Checked (List Finding) := Checked.inTurn accept

theorem accept_eq_ok_iff {f g : Finding} :
    f.accept = .ok g ↔ f.location?.isSome ∧ g = f.bounded := by
  unfold accept
  split
  · next h => simp [h, eq_comm]
  · next h => simp [h, Checked.reject]

end Finding

end FrontendAudit
