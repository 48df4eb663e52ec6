/-!
# Phases of an audit

An audit goes through its phases in one direction only.
-/

namespace FrontendAudit

/-- How far an audit has come. -/
inductive Phase where
  | idle
  | enumerating
  | scanning
  | closing
  | aggregating
  | emitting
  | done
  deriving DecidableEq, Repr, Inhabited

namespace Phase

/-- All phases, in order. -/
def all : List Phase := [idle, enumerating, scanning, closing, aggregating, emitting, done]

/-- The place of a phase in the order. -/
def rank : Phase → Nat
  | idle => 0
  | enumerating => 1
  | scanning => 2
  | closing => 3
  | aggregating => 4
  | emitting => 5
  | done => 6

/-- The name of a phase. -/
def name : Phase → String
  | idle => "idle"
  | enumerating => "enumerating"
  | scanning => "scanning"
  | closing => "closing"
  | aggregating => "aggregating"
  | emitting => "emitting"
  | done => "done"

/-- The phase of a name. -/
def ofName? (s : String) : Option Phase := all.find? (·.name = s)

theorem getElem?_all_rank (p : Phase) : all[p.rank]? = some p := by
  cases p <;> rfl

end Phase

end FrontendAudit
