import FrontendAudit.Json.Reader
import FrontendAudit.Project.Audit
import FrontendAudit.Text.Utf8
import FrontendAudit.Validation.Basic

/-!
# The command

The command reads a request in JSON, in which the path may also be called a directory, and prints
one value: the response, or what is wrong. It ends with zero, or with one if something is wrong or
the gate is not passed. Input that is not in UTF-8, or JSON but no object, is not foreseen. Nor is
half of a surrogate pair in a member of the request: the request is rejected for it, but what is
wrong, which has the rejected value in it, cannot be written.
-/

namespace FrontendAudit

/-- How the command ends. -/
inductive CommandEnd where
  | printed (exit : Nat) (output : Json)
  | crashed (m : Misfit)
  /-- The input is not in UTF-8. -/
  | undecodable
  /-- What is wrong with the request cannot be written. -/
  | unwritable

namespace Command

/-- The error that nothing was asked for, with examples. -/
def missingInput : Json :=
  .obj [("error",
      .str "Missing required input. Provide either 'repo_url' or 'path'/'directory'."),
    ("examples", .obj
      [("remote", .obj [("repo_url", .str "https://github.com/user/repo")]),
       ("local", .obj [("path", .str "."),
         ("categories", .arr [.str "accessibility", .str "eslint"])])])]

/-- Whether a value, which has to hold others, holds a text. -/
def holds (text : String) : Json → Except Misfit Bool
  | .obj ms => .ok (ms.any (·.1 = text))
  | .arr items => .ok (items.any (· == .str text))
  | .str s => .ok (Text.occurs text.toList s.toList)
  | _ => .error .noItems

/-- The value without the other name of the path. -/
def renamed (v : Json) : Except Misfit Json := do
  if (← holds "directory" v) && !(← holds "path" v) then
    match v with
    | .obj ms =>
      let directory := (Json.lookup? "directory" ms).getD .null
      return .obj (ms.filter (·.1 ≠ "directory") ++ [("path", directory)])
    | .str _ => throw .noMembers
    | _ => throw .noKey
  else return v

/-- The members of the input, which have to be there. -/
def members : Json → Except Misfit (List (String × Json))
  | .obj ms => .ok ms
  | _ => .error .noMembers

/-- Whether a member says something. -/
def isGiven (key : String) (ms : List (String × Json)) : Bool :=
  !((Json.lookup? key ms).getD .null).isVacant

/-- Whether the command ends with one although there is a response. -/
def gateFails (r : Response) : Bool :=
  match r.gate with
  | some g => !g.passed && g.failOnHigh
  | none => false

/-- The command for the members of its input. -/
def runMembers (c : Project.Context) (ms : List (String × Json)) (w : World) :
    CommandEnd × World :=
  if !isGiven "path" ms && !isGiven "repo_url" ms then (.printed 1 missingInput, w)
  else match Request.check (.obj ms) with
    | .bad issues =>
      (.printed 1 (.obj [("error", .str "Invalid input"),
        ("details", .arr (issues.map Issue.toRecord))]), w)
    | .ok r =>
      match Project.audit c r w with
      | (.error e, w) => (.printed 1 (.obj [("error", .str e.message)]), w)
      | (.ok response, w) =>
        (.printed (if gateFails response then 1 else 0) response.toRecord, w)

/-- The command for a text, in which every half of a surrogate pair that stands alone is U+FFFD. -/
def run (c : Project.Context) (input : List Char) (w : World) : CommandEnd × World :=
  match Json.parse? input with
  | none => (.printed 1 (.obj [("error", .str "Invalid JSON input")]), w)
  | some v =>
    match (renamed v).bind members with
    | .error m => (.crashed m, w)
    | .ok ms => runMembers c ms w

/-- The members that are checked: those of an object in which something is asked for. -/
def asked? (v : Json) : Option (List (String × Json)) :=
  match (renamed v).bind members with
  | .ok ms => if isGiven "path" ms || isGiven "repo_url" ms then some ms else none
  | .error _ => none

/-- Whether a member of the request holds half of a surrogate pair that stands alone. Such a member
is read otherwise when more characters stand for such a half than the input has, for then it differs
from every text without one. -/
def isTorn (input : List Char) : Bool :=
  let half := List.replicate (input.length + 1) '\uFFFD'
  match (Json.parse? input).bind asked?, (Json.parseWith? half input).bind asked? with
  | some ms, some ms' =>
    Request.keys.any fun key => Json.lookup? key ms != Json.lookup? key ms'
  | _, _ => false

/-- The command for the bytes of its input. -/
def answer (c : Project.Context) (input : List UInt8) (w : World) : CommandEnd × World :=
  match Text.Utf8.strict? input with
  | none => (.undecodable, w)
  | some text => if isTorn text then (.unwritable, w) else run c text w

end Command

end FrontendAudit
