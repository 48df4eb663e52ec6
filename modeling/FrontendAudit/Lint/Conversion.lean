import FrontendAudit.Finding.Record
import FrontendAudit.Lint.Report
import FrontendAudit.Source.File

/-!
# Findings of linters

Every message becomes a finding, unless its rule is left out. Its kind is the rule, and where there
is none the linter itself is to blame. The code and its context are quoted from the line that the
message names, where the file has that line.
-/

namespace FrontendAudit.Lint

/-- Whether a message is about a rule that is left out. -/
def isExcluded (excluded : List String) (rule : Json) : Except Misfit Bool :=
  if rule.isVacant then .ok false
  else match rule with
    | .str name => .ok (excluded.contains name)
    | .arr _ | .obj _ => .error .noKey
    | _ => .ok false

/-- The excerpt around a line given as a value of any kind; nothing for a value that says
nothing. -/
def excerptAt (lines : List (List Char)) (line : Json) : Except Misfit Source.Excerpt :=
  if line.isVacant then .ok ⟨[], []⟩
  else match line with
    | .int n => .ok (Source.excerpt lines n)
    | .bool _ => .ok (Source.excerpt lines 1)
    | .float x => if x.isWithin 1 lines.length then .error .noLine else .ok ⟨[], []⟩
    | _ => .error .noLine

/-- Null for a value that says nothing. -/
def vacantAsNull (v : Json) : Json := if v.isVacant then .null else v

/-- The finding of a message about a file, given as the members of a record. -/
def finding (linter : Linter) (path : String) (lines : List (List Char)) (message : Json) :
    Except Misfit Finding := do
  let rule ← message.memberOrNull "rule"
  let line ← message.memberOrNull "line"
  let quoted ← excerptAt lines line
  let severity ← message.requiredMember "severity"
  let text ← message.requiredMember "message"
  (Finding.check (.obj
    [("type", if rule.isVacant then .str (linter.name ++ "_error") else rule),
     ("severity", severity),
     ("message", text),
     ("file", .str path),
     ("line", vacantAsNull line),
     ("code", Json.ofOption .str (Source.asText? quoted.code)),
     ("context", Json.ofOption .str (Source.asText? quoted.context)),
     ("source", .str linter.name),
     ("rule_id", rule)])).toExcept

/-- The findings of messages about a file, given as records. -/
def findings (linter : Linter) (excluded : List String) (path : String)
    (lines : List (List Char)) : List Json → Except Misfit (List Finding)
  | [] => .ok []
  | message :: messages => do
    let rule ← message.memberOrNull "rule"
    if ← isExcluded excluded rule then findings linter excluded path lines messages
    else
      let found ← finding linter path lines message
      return found :: (← findings linter excluded path lines messages)

/-- A message as a record. -/
def Message.toRecord (m : Message) : Json :=
  .obj [("rule", m.rule), ("severity", .str m.severity.name), ("line", m.line),
    ("message", m.text)]

end FrontendAudit.Lint
