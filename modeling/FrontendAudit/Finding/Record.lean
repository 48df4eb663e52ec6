import FrontendAudit.Finding.Basic
import FrontendAudit.Json.Display
import FrontendAudit.Validation.Scalar

/-!
# Findings as records

A finding is written as an object whose members stand in a fixed order and leave out what is absent.
Reading checks every field before it asks for a location. The rule of a finding is called `ruleId`
in records; `rule_id` is understood too, and gives way to the proper name when both are there.
-/

namespace FrontendAudit

namespace Severity

/-- A severity spelled as in records. -/
def check : Json → Checked Severity
  | .str s =>
    match ofRecord? s with
    | some severity => .ok severity
    | none => Checked.reject .notChoice
  | _ => Checked.reject .notChoice

/-- The severity that a value of any kind names, or the usual one if it says nothing or names
none. -/
def ofAny (usual : Severity) (v : Json) : Severity :=
  if v.isVacant then usual else (ofName? v.display).getD usual

end Severity

namespace Finding

open Checked (field text optional integer)

/-- Every member of the record of a finding, null where it is absent. -/
def fields (f : Finding) : List (String × Json) :=
  [("type", .str f.kind),
   ("severity", .str f.severity.name),
   ("message", .str f.message),
   ("file", Json.ofOption .str f.file),
   ("line", Json.ofOption .int f.line),
   ("url", Json.ofOption .str f.url),
   ("code", Json.ofOption .str f.code),
   ("context", Json.ofOption .str f.context),
   ("recommendation", Json.ofOption .str f.recommendation),
   ("source", .str f.source),
   ("wcag", Json.ofOption .str f.wcag),
   ("ruleId", Json.ofOption .str f.rule)]

/-- The record of a finding, without what is absent. -/
def toRecord (f : Finding) : Json :=
  .obj (f.fields.filter fun m => m.2 != .null)

/-- The record of a finding with null for what is absent. -/
def toFullRecord (f : Finding) : Json :=
  .obj f.fields

/-- The finding that the members of a record describe, not yet accepted. -/
def ofMembers (ms : List (String × Json)) : Checked Finding :=
  Finding.mk
    <$> field ["type"] none text ms
    <*> field ["severity"] none Severity.check ms
    <*> field ["message"] none text ms
    <*> field ["file"] (some none) (optional text) ms
    <*> field ["line"] (some none) (optional integer) ms
    <*> field ["url"] (some none) (optional text) ms
    <*> field ["code"] (some none) (optional text) ms
    <*> field ["context"] (some none) (optional text) ms
    <*> field ["recommendation"] (some none) (optional text) ms
    <*> field ["source"] (some "custom") text ms
    <*> field ["wcag"] (some none) (optional text) ms
    <*> field ["ruleId", "rule_id"] (some none) (optional text) ms

/-- Reads and accepts a finding. -/
def check : Json → Checked Finding :=
  Checked.record fun ms => (ofMembers ms).andThen accept

end Finding

end FrontendAudit
