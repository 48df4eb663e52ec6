import FrontendAudit.Json.Basic

/-!
# Checking records

Reading a record from untrusted data either gives a value or the list of everything that is wrong
with it, each issue with the place where it was found. Checks of several parts are combined by
`Checked.and`, which keeps the issues of both.
-/

namespace FrontendAudit

/-- A step down into a record. -/
inductive Step where
  | key (name : String)
  | index (i : Nat)
  deriving DecidableEq, Repr

/-- What is wrong with a part of a record. -/
inductive Fault where
  | missing
  | notText
  | notList
  | notMapping
  | notRecord
  | notChoice
  | notLiteral
  | notInteger
  | unreadableInteger
  | fractionalInteger
  | infiniteInteger
  | oversizedInteger
  | belowMinimum
  | notBoolean
  | unreadableBoolean
  | unlocated
  deriving DecidableEq, Repr

/-- A fault and the path to where it is. -/
structure Issue where
  path : List Step
  fault : Fault
  deriving DecidableEq, Repr

/-- A value, or all issues with it. -/
inductive Checked (α : Type) where
  | ok (a : α)
  | bad (issues : List Issue)
  deriving DecidableEq, Repr

namespace Checked

/-- A single issue at the place itself. -/
def reject (fault : Fault) : Checked α :=
  .bad [⟨[], fault⟩]

/-- Applies a function to a checked value. -/
def map (f : α → β) : Checked α → Checked β
  | .ok a => .ok (f a)
  | .bad es => .bad es

/-- Combines two checks; the issues of both are kept, in order. -/
def both (f : Checked (α → β)) (a : Checked α) : Checked β :=
  match f, a with
  | .ok f, .ok a => .ok (f a)
  | .ok _, .bad es => .bad es
  | .bad es, .ok _ => .bad es
  | .bad es, .bad es' => .bad (es ++ es')

instance : Applicative Checked where
  map := map
  pure := .ok
  seq f a := both f (a ())

/-- Goes on with a further check of the value. -/
def andThen (a : Checked α) (check : α → Checked β) : Checked β :=
  match a with
  | .ok a => check a
  | .bad es => .bad es

/-- The issues as seen from one step up. -/
def below (step : Step) : Checked α → Checked α
  | .ok a => .ok a
  | .bad es => .bad (es.map fun e => { e with path := step :: e.path })

/-- Checks the elements of a list from index `i` on. -/
def listFrom (check : α → Checked β) (i : Nat) : List α → Checked (List β)
  | [] => .ok []
  | a :: as => List.cons <$> below (.index i) (check a) <*> listFrom check (i + 1) as

/-- Checks the elements of a list in turn; the first that is not accepted decides. -/
def inTurn (check : α → Checked β) : List α → Checked (List β)
  | [] => .ok []
  | a :: as => (check a).andThen fun b => (inTurn check as).andThen fun bs => .ok (b :: bs)

@[simp] theorem map_ok (f : α → β) (a : α) : f <$> (.ok a : Checked α) = .ok (f a) := rfl

@[simp] theorem seq_ok (f : α → β) (a : α) : (.ok f : Checked (α → β)) <*> .ok a = .ok (f a) := rfl

@[simp] theorem below_ok (step : Step) (a : α) : below step (.ok a) = .ok a := rfl

/-- A list of values that are accepted one by one is accepted. -/
theorem listFrom_map {check : α → Checked β} {f : β → α} {bs : List β}
    (h : ∀ b ∈ bs, check (f b) = .ok b) (i : Nat) : listFrom check i (bs.map f) = .ok bs := by
  induction bs generalizing i with
  | nil => rfl
  | cons b bs ih =>
    rw [List.forall_mem_cons] at h
    simp [listFrom, h.1, ih h.2]

end Checked

/-!
## Issues as records

An issue is written with the path to where it is and the name of its fault.
-/

/-- The name of a fault. -/
def Fault.name : Fault → String
  | .missing => "missing"
  | .notText => "string_type"
  | .notList => "list_type"
  | .notMapping => "dict_type"
  | .notRecord => "model_type"
  | .notChoice => "enum"
  | .notLiteral => "literal_error"
  | .notInteger => "int_type"
  | .unreadableInteger => "int_parsing"
  | .fractionalInteger => "int_from_float"
  | .infiniteInteger => "finite_number"
  | .oversizedInteger => "int_parsing_size"
  | .belowMinimum => "greater_than_equal"
  | .notBoolean => "bool_type"
  | .unreadableBoolean => "bool_parsing"
  | .unlocated => "value_error"

/-- A step as it is written. -/
def Step.toJson : Step → Json
  | .key name => .str name
  | .index i => .int i

/-- An issue as it is written. -/
def Issue.toRecord (e : Issue) : Json :=
  .obj [("loc", .arr (e.path.map Step.toJson)), ("type", .str e.fault.name)]

end FrontendAudit
