import FrontendAudit.Json.Basic
import FrontendAudit.Text.Integer
import FrontendAudit.Validation.Basic

/-!
# Checking values

A text field takes only texts. Integers and booleans are read leniently: an integer may be written
as a boolean, as a float without fraction or as a text; a boolean as zero or one, or as one of a few
words in any case.
-/

namespace FrontendAudit.Checked

/-- A text. -/
def text : Json → Checked String
  | .str s => .ok s
  | _ => reject .notText

/-- Null, or what `check` accepts. -/
def optional (check : Json → Checked α) : Json → Checked (Option α)
  | .null => .ok none
  | v => (check v).map some

/-- A list of what `check` accepts. -/
def list (check : Json → Checked α) : Json → Checked (List α)
  | .arr items => listFrom check 0 items
  | _ => reject .notList

/-- An integer, read leniently. -/
def integer : Json → Checked Int
  | .int n => .ok n
  | .bool b => .ok (if b then 1 else 0)
  | .float (.infinite _) => reject .infiniteInteger
  | .float .nan => reject .infiniteInteger
  | .float x =>
    match x.toInt? with
    | none => reject .fractionalInteger
    | some n => if n.natAbs < Nat.pow 2 63 then .ok n else reject .oversizedInteger
  | .str s =>
    match Text.recordInt? s.toList with
    | some n => .ok n
    | none => reject .unreadableInteger
  | _ => reject .notInteger

/-- An integer of at least one. -/
def positive (v : Json) : Checked Nat :=
  match integer v with
  | .ok n => if 1 ≤ n then .ok n.toNat else reject .belowMinimum
  | .bad es => .bad es

/-- The words for yes. -/
def trueWords : List String := ["true", "t", "yes", "y", "on", "1"]

/-- The words for no. -/
def falseWords : List String := ["false", "f", "no", "n", "off", "0"]

/-- A boolean, read leniently. -/
def boolean : Json → Checked Bool
  | .bool b => .ok b
  | .int n => if n = 0 then .ok false else if n = 1 then .ok true else reject .unreadableBoolean
  | .float x =>
    match x.toInt? with
    | some n => if n = 0 then .ok false else if n = 1 then .ok true else reject .notBoolean
    | none => reject .notBoolean
  | .str s =>
    let word := String.ofList (s.toList.map Char.toLower)
    if trueWords.contains word then .ok true
    else if falseWords.contains word then .ok false
    else reject .unreadableBoolean
  | _ => reject .notBoolean

/-- Checks the values of a mapping in order. -/
def entries (check : Json → Checked α) : List (String × Json) → Checked (List (String × α))
  | [] => .ok []
  | (key, v) :: ms =>
    (fun a rest => (key, a) :: rest) <$> below (.key key) (check v) <*> entries check ms

/-- A mapping from texts to what `check` accepts. -/
def mapping (check : Json → Checked α) : Json → Checked (List (String × α))
  | .obj members => entries check members
  | _ => reject .notMapping

/-- A record that `check` reads from the members of an object. -/
def record (check : List (String × Json) → Checked α) : Json → Checked α
  | .obj members => check members
  | _ => reject .notRecord

/-- The value of the first of the names that is present, with that name. -/
def firstNamed? (names : List String) (members : List (String × Json)) : Option (String × Json) :=
  names.findSome? fun name => (Json.lookup? name members).map (name, ·)

/-- A field under one of its names, the first of which is its proper one. An absent field takes its
default, or is missing if it has none. -/
def field (names : List String) (default? : Option α) (check : Json → Checked α)
    (members : List (String × Json)) : Checked α :=
  match firstNamed? names members with
  | some (name, v) => below (.key name) (check v)
  | none =>
    match default? with
    | some a => .ok a
    | none => .bad [⟨(names.head?.map Step.key).toList, .missing⟩]

end FrontendAudit.Checked
