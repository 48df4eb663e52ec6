import FrontendAudit.Json.Basic
import FrontendAudit.Number.Decimal
import FrontendAudit.Text.Quoted

/-!
# Values inside messages

A message names a value of unknown kind: a text stands for itself, and everything else has the form
of a literal, with texts quoted inside lists and objects.
-/

namespace FrontendAudit.Json

mutual

/-- The literal form of a value. -/
def literal : Json → List Char
  | .null => "None".toList
  | .bool b => if b then "True".toList else "False".toList
  | .int n => Number.intText n
  | .float x => x.shortestText
  | .str s => Text.quoted s.toList
  | .arr [] => ['[', ']']
  | .arr (v :: vs) => '[' :: (literal v ++ literalItems vs ++ [']'])
  | .obj [] => ['{', '}']
  | .obj (m :: ms) => '{' :: (literalMember m ++ literalMembers ms ++ ['}'])

/-- The further items of a list. -/
def literalItems : List Json → List Char
  | [] => []
  | v :: vs => ',' :: ' ' :: (literal v ++ literalItems vs)

/-- A member of an object. -/
def literalMember : String × Json → List Char
  | (key, v) => Text.quoted key.toList ++ ':' :: ' ' :: literal v

/-- The further members of an object. -/
def literalMembers : List (String × Json) → List Char
  | [] => []
  | m :: ms => ',' :: ' ' :: (literalMember m ++ literalMembers ms)

end

/-- What a message shows for a value. -/
def display : Json → String
  | .str s => s
  | v => String.ofList (literal v)

end FrontendAudit.Json
