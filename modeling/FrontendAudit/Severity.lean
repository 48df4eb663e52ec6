import FrontendAudit.Text.Blank

/-!
# Severities

Findings fall into three buckets, high above medium above low. Other tools report on wider scales;
`ofName?` folds their names onto the three after trimming blanks and ignoring case.
-/

namespace FrontendAudit

/-- How much a finding matters. -/
inductive Severity where
  | high
  | medium
  | low
  deriving DecidableEq, Repr, Inhabited

namespace Severity

/-- The name in records. -/
def name : Severity → String
  | .high => "high"
  | .medium => "medium"
  | .low => "low"

/-- The place in the order, highest first. -/
def rank : Severity → Nat
  | .high => 3
  | .medium => 2
  | .low => 1

/-- The severity of a name that is spelled exactly as in records. -/
def ofRecord? (s : String) : Option Severity :=
  [high, medium, low].find? (·.name = s)

/-- The names that tools use. -/
def aliases : List (String × Severity) :=
  [("critical", high), ("error", high), ("high", high), ("moderate", medium), ("warning", medium),
    ("medium", medium), ("low", low), ("info", low), ("note", low)]

/-- The severity of a name that some tool uses. Only ASCII letters can fold onto these names. -/
def ofName? (s : String) : Option Severity :=
  let folded := String.ofList ((Text.strip s.toList).map Char.toLower)
  (aliases.find? (·.1 = folded)).map (·.2)

theorem ofRecord?_name (s : Severity) : ofRecord? s.name = some s := by
  cases s <;> decide

end Severity

end FrontendAudit
