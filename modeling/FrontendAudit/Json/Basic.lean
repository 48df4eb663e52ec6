import FrontendAudit.Number.Binary64

/-!
# JSON values

Whole numbers and floating-point numbers are kept apart, and an object keeps its members in the
order in which their keys first appeared; a later value for a key replaces the earlier one in its
place (`insertMember`).
-/

namespace FrontendAudit

open Number (Binary64)

/-- A JSON value. -/
inductive Json where
  | null
  | bool (b : Bool)
  | int (n : Int)
  | float (x : Binary64)
  | str (s : String)
  | arr (items : List Json)
  | obj (members : List (String × Json))
  deriving Repr, Inhabited

namespace Json

mutual

/-- Whether two values are the same, the members of objects in the same order. -/
def same : Json → Json → Bool
  | .null, .null => true
  | .bool a, .bool b => a = b
  | .int m, .int n => m = n
  | .float x, .float y => x = y
  | .str s, .str t => s = t
  | .arr items, .arr items' => sameItems items items'
  | .obj members, .obj members' => sameMembers members members'
  | _, _ => false

def sameItems : List Json → List Json → Bool
  | [], [] => true
  | v :: items, v' :: items' => same v v' && sameItems items items'
  | _, _ => false

def sameMembers : List (String × Json) → List (String × Json) → Bool
  | [], [] => true
  | (key, v) :: members, (key', v') :: members' =>
    key = key' && same v v' && sameMembers members members'
  | _, _ => false

end

instance : BEq Json := ⟨same⟩

mutual

theorem same_self : ∀ v : Json, same v v = true
  | .null => rfl
  | .bool _ | .int _ | .float _ | .str _ => by simp [same]
  | .arr items => by rw [same, sameItems_self items]
  | .obj members => by rw [same, sameMembers_self members]

theorem sameItems_self : ∀ items : List Json, sameItems items items = true
  | [] => rfl
  | v :: items => by rw [sameItems, same_self v, sameItems_self items]; rfl

theorem sameMembers_self : ∀ members : List (String × Json), sameMembers members members = true
  | [] => rfl
  | (_, v) :: members => by simp [sameMembers, same_self v, sameMembers_self members]

end

mutual

theorem eq_of_same : ∀ {v w : Json}, same v w = true → v = w
  | .arr items, w, h => by
      cases w with
      | arr items' => exact congrArg arr (eq_of_sameItems h)
      | _ => cases h
  | .obj members, w, h => by
      cases w with
      | obj members' => exact congrArg obj (eq_of_sameMembers h)
      | _ => cases h
  | .null, w, h | .bool _, w, h | .int _, w, h | .float _, w, h | .str _, w, h => by
      cases w <;> simp_all [same]

theorem eq_of_sameItems : ∀ {items items' : List Json}, sameItems items items' = true →
    items = items'
  | [], [], _ => rfl
  | v :: items, v' :: items', h => by
      rw [sameItems, Bool.and_eq_true] at h
      rw [eq_of_same h.1, eq_of_sameItems h.2]

theorem eq_of_sameMembers : ∀ {members members' : List (String × Json)},
    sameMembers members members' = true → members = members'
  | [], [], _ => rfl
  | (key, v) :: members, (key', v') :: members', h => by
      rw [sameMembers, Bool.and_eq_true, Bool.and_eq_true, decide_eq_true_iff] at h
      rw [h.1.1, eq_of_same h.1.2, eq_of_sameMembers h.2]

end

instance : LawfulBEq Json where
  rfl := same_self _
  eq_of_beq := eq_of_same

/-- The value of a key among members. -/
def lookup? (key : String) (members : List (String × α)) : Option α :=
  (members.find? (·.1 = key)).map (·.2)

/-- Sets a key: in place where it is present, at the end where it is not. -/
def insertMember (key : String) (value : α) : List (String × α) → List (String × α)
  | [] => [(key, value)]
  | m :: ms => if m.1 = key then (key, value) :: ms else m :: insertMember key value ms

/-- Members in order of first appearance, each with its last value. -/
def collect (members : List (String × α)) : List (String × α) :=
  members.foldl (fun ms m => insertMember m.1 m.2 ms) []

/-- The member of an object; nothing for any other value. -/
def get? (key : String) : Json → Option Json
  | .obj members => lookup? key members
  | _ => none

/-- Null, false, zero, and empty text, lists and objects say nothing. -/
def isVacant : Json → Bool
  | .null => true
  | .bool b => !b
  | .int n => n = 0
  | .float x => x.isZero
  | .str s => s.isEmpty
  | .arr items => items.isEmpty
  | .obj members => members.isEmpty

/-- Null for nothing. -/
def ofOption (f : α → Json) : Option α → Json
  | none => .null
  | some a => f a

theorem lookup?_insertMember_self (key : String) (value : α) (ms : List (String × α)) :
    lookup? key (insertMember key value ms) = some value := by
  induction ms with
  | nil => simp [insertMember, lookup?]
  | cons m ms ih =>
    by_cases h : m.1 = key
    · simp [insertMember, lookup?, h]
    · simpa [insertMember, lookup?, h] using ih

theorem lookup?_insertMember_of_ne {key other : String} (h : other ≠ key) (value : α)
    (ms : List (String × α)) :
    lookup? other (insertMember key value ms) = lookup? other ms := by
  induction ms with
  | nil => simp [insertMember, lookup?, Ne.symm h]
  | cons m ms ih =>
    by_cases hm : m.1 = key
    · simp [insertMember, lookup?, hm, Ne.symm h]
    · by_cases ho : m.1 = other
      · simp [insertMember, lookup?, ho, h]
      · simpa [insertMember, lookup?, hm, ho] using ih

end Json

end FrontendAudit
