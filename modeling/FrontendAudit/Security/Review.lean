import FrontendAudit.Finding.Record
import FrontendAudit.Json.Misfit

/-!
# Security reviews

A review names secrets, dependencies with known weaknesses, and patterns in three groups. Each entry
becomes a finding, unless the review itself says that a secret or a pattern is likely no problem.
Nothing about the shape of a review is certain: what cannot be read is a misfit.
-/

namespace FrontendAudit.Review

/-- Where the findings of a review come from. -/
def source : String := "security-review"

/-- The groups of patterns. -/
def patternGroups : List String := ["frontend_security", "api_security", "logging"]

/-- The members of an entry that may be missing or say nothing. -/
def optionalMember (key : String) (entry : Json) : Except Misfit Json :=
  (entry.memberOrNull key).map fun v => if v.isVacant then .null else v

/-- The place of an entry: its file, or the project as a whole. -/
def place (entry : Json) : Except Misfit Json :=
  (entry.memberOrNull "file").map fun v => if v.isVacant then .str "." else v

/-- The text of a member, or another text if there is no such member. -/
def shown (key otherwise : String) (entry : Json) : Except Misfit String :=
  (entry.member key).map fun v => (v.map Json.display).getD otherwise

/-- Whether an entry is likely no problem. -/
def isDoubtful (entry : Json) : Except Misfit Bool :=
  (entry.memberOrNull "likely_false_positive").map fun v => !v.isVacant

/-- The severity that an entry names. -/
def severity (usual : Severity) (entry : Json) : Except Misfit Json :=
  (entry.memberOrNull "severity").map fun v => .str (Severity.ofAny usual v).name

/-- The finding about a secret. -/
def secretFinding (entry : Json) : Except Misfit Finding := do
  let kind ← shown "type" "unknown" entry
  let severity ← severity .high entry
  let file ← place entry
  let line ← optionalMember "line" entry
  let code ← optionalMember "preview" entry
  let recommendation ← optionalMember "recommendation" entry
  (Finding.check (.obj
    [("type", .str ("secret_" ++ kind)),
     ("severity", severity),
     ("message", .str ("Possible exposed secret: " ++ kind)),
     ("file", file),
     ("line", line),
     ("code", code),
     ("recommendation", recommendation),
     ("source", .str source)])).toExcept

/-- The finding about a dependency. -/
def dependencyFinding (entry : Json) : Except Misfit Finding := do
  let package ← shown "package" "unknown" entry
  let rule ← optionalMember "cve" entry
  let version ← shown "version" "?" entry
  let title ← optionalMember "title" entry
  let severity ← severity .medium entry
  let recommendation ← optionalMember "recommendation" entry
  let message := package ++ "@" ++ version ++ " is vulnerable"
  (Finding.check (.obj
    [("type", .str "vulnerable_dependency"),
     ("severity", severity),
     ("message", .str (if title == .null then message else message ++ ": " ++ title.display)),
     ("file", .str "package.json"),
     ("recommendation", recommendation),
     ("source", .str source),
     ("rule_id", rule)])).toExcept

/-- The finding about a pattern of a group. -/
def patternFinding (group : String) (entry : Json) : Except Misfit Finding := do
  let severity ← severity .medium entry
  let message ← entry.member "pattern"
  let file ← place entry
  let line ← optionalMember "line" entry
  let code ← optionalMember "snippet" entry
  let recommendation ← optionalMember "recommendation" entry
  (Finding.check (.obj
    [("type", .str group),
     ("severity", severity),
     ("message", message.getD (.str group)),
     ("file", file),
     ("line", line),
     ("code", code),
     ("recommendation", recommendation),
     ("source", .str source)])).toExcept

/-- The entries of a group; none if there is no such group. -/
def entries (group : String) (groups : Json) : Except Misfit (List Json) := do
  ((← groups.member group).getD (.arr [])).items

/-- The findings about entries, without those that are likely no problem. -/
def credibleFindings (finding : Json → Except Misfit Finding) :
    List Json → Except Misfit (List Finding)
  | [] => .ok []
  | entry :: rest => do
    if ← isDoubtful entry then credibleFindings finding rest
    else
      let found ← finding entry
      return found :: (← credibleFindings finding rest)

/-- The groups of a review. -/
def groupsOf (review : Json) : Except Misfit Json :=
  (review.memberOrNull "findings").map fun v => if v.isVacant then .obj [] else v

/-- The findings of a review; none of a review that says nothing. -/
def findings (review : Json) : Except Misfit (List Finding) :=
  if review.isVacant then .ok []
  else do
    let groups ← groupsOf review
    let secrets ← credibleFindings secretFinding (← entries "secrets" groups)
    let dependencies ← (← entries "dependencies" groups).mapM dependencyFinding
    let patterns ← patternGroups.mapM fun group => do
      credibleFindings (patternFinding group) (← entries group groups)
    return secrets ++ dependencies ++ patterns.flatten

end FrontendAudit.Review
