import FrontendAudit.Lint.Report
import FrontendAudit.Proofs.Fallible
import FrontendAudit.Proofs.Json.RoundTrip
import FrontendAudit.World

/-!
# What is heard of a linter

A report is gone through result by result and message by message, and the first that is not of the
kind that is counted on has the last word (`reportFault?`). Without such a fault every message of
every result is read (`reportMessages_eq`). A value that has no items makes a run of the linter
count as failed, while a result or message that is no object does not (`heard`).
-/

namespace FrontendAudit

/-! ## Going through a list -/

section

variable {α β ε : Type}

/-- A value, unless there is a fault. -/
def valueUnless (fault? : Option ε) (value : α) : Except ε α :=
  match fault? with
  | some e => .error e
  | none => .ok value

/-- The first of a list with a fault decides; without faults each gives its value. -/
theorem mapM_valueUnless (fault? : α → Option ε) (value : α → β) (l : List α) :
    l.mapM (fun a => valueUnless (fault? a) (value a)) =
      valueUnless (l.findSome? fault?) (l.map value) := by
  induction l with
  | nil => rfl
  | cons a l ih =>
      rw [List.mapM_cons, ih, List.findSome?_cons]
      cases fault? a with
      | some e => rfl
      | none => cases l.findSome? fault? <;> rfl

end

namespace Lint

/-! ## Reports -/

/-- The name that a result has for its messages. -/
def messagesKey : Linter → String
  | .eslint => "messages"
  | .stylelint => "warnings"

/-- What a result gives for its messages, an empty list if it gives nothing. -/
def messagesOf (linter : Linter) (result : Json) : Json :=
  (result.get? (messagesKey linter)).getD (.arr [])

def isObject : Json → Bool
  | .obj _ => true
  | _ => false

/-- What is wrong with a message: it is no object. -/
def messageFault? (message : Json) : Option Misfit :=
  if isObject message then none else some .noMembers

/-- What is wrong with a result: it is no object, or its messages have no items, or one of them is
no object. -/
def resultFault? (linter : Linter) (result : Json) : Option Misfit :=
  if isObject result then
    match (messagesOf linter result).items with
    | .ok messages => messages.findSome? messageFault?
    | .error m => some m
  else some .noMembers

/-- What is wrong with a report: it has no items, or what is wrong with the first faulty result. -/
def reportFault? (linter : Linter) (report : Json) : Option Misfit :=
  match report.items with
  | .ok results => results.findSome? (resultFault? linter)
  | .error m => some m

/-- The message that an object is, with null for members that it does not have, and an empty
text. -/
def messageOf (linter : Linter) (message : Json) : Message :=
  let member (key : String) := (message.get? key).getD .null
  match linter with
  | .eslint =>
    { rule := member "ruleId"
      severity := gradeSeverity (member "severity") (member "fatal")
      line := member "line"
      text := (message.get? "message").getD (.str "") }
  | .stylelint =>
    { rule := member "rule"
      severity := wordSeverity (member "severity")
      line := member "line"
      text := (message.get? "text").getD (.str "") }

/-- The items of a value, none if it has no items. -/
def itemsIn (v : Json) : List Json := v.items.toOption.getD []

/-- The messages of a result. -/
def messagesIn (linter : Linter) (result : Json) : List Message :=
  (itemsIn (messagesOf linter result)).map (messageOf linter)

/-- How the messages of a linter are read. -/
def readMessage : Linter → Json → Except Misfit Message
  | .eslint => eslintMessage
  | .stylelint => stylelintMessage

/-- A message is read when it is an object. -/
theorem readMessage_eq (linter : Linter) (message : Json) : readMessage linter message =
    valueUnless (messageFault? message) (messageOf linter message) := by
  cases message <;> cases linter <;> rfl

theorem resultMessages_eq (linter : Linter) (result : Json) :
    resultMessages (messagesKey linter) (readMessage linter) result =
      valueUnless (resultFault? linter result) (messagesIn linter result) := by
  cases result with
  | obj members =>
      have hfault : resultFault? linter (.obj members) =
          match (messagesOf linter (.obj members)).items with
          | .ok messages => messages.findSome? messageFault?
          | .error m => some m := rfl
      show (messagesOf linter (.obj members)).items >>= List.mapM (readMessage linter) = _
      rw [hfault, messagesIn, itemsIn, funext (readMessage_eq linter)]
      cases (messagesOf linter (.obj members)).items with
      | error m => rfl
      | ok messages => exact mapM_valueUnless messageFault? (messageOf linter) messages
  | _ => rfl

/-- A report gives the messages of its results, if nothing is wrong with it. -/
theorem reportMessages_eq (linter : Linter) (report : Json) : reportMessages linter report =
    valueUnless (reportFault? linter report) ((itemsIn report).flatMap (messagesIn linter)) := by
  have hread : reportMessages linter report = report.items >>= fun results =>
      (results.mapM (resultMessages (messagesKey linter) (readMessage linter))).map
        List.flatten := by
    cases linter <;> exact bind_congr fun results => rfl
  rw [hread, reportFault?, itemsIn, funext (resultMessages_eq linter)]
  cases report.items with
  | error m => rfl
  | ok results =>
      show (results.mapM fun result => valueUnless _ (messagesIn linter result)).map List.flatten =
          _
      rw [mapM_valueUnless]
      show (valueUnless (results.findSome? (resultFault? linter)) _).map List.flatten =
        valueUnless (results.findSome? (resultFault? linter)) _
      cases results.findSome? (resultFault? linter) <;> rfl

/-! ## Runs -/

/-- What is heard of a run: its messages, or that members were asked of what is no object. Nothing
is heard of a run that counts as failed: it was not started, it ended with a code that announces no
report, or the report is no JSON or has something without items where a list is counted on. -/
def heard (linter : Linter) : ToolRun → Option (Except Misfit (List Message))
  | .notStarted => none
  | .exited code output errors =>
    let text := reportText linter output.toList errors.toList
    if code ∉ linter.reportCodes then none
    else if Text.isBlankText text then some (.ok [])
    else (Json.parse? text).bind fun report =>
      match reportFault? linter report with
      | none => some (.ok ((itemsIn report).flatMap (messagesIn linter)))
      | some .noMembers => some (.error .noMembers)
      | some _ => none

/-- What is heard of a run that ended is what reading its report comes to. -/
theorem heard_exited (linter : Linter) (code : Int) (output errors : String) :
    heard linter (.exited code output errors) =
      if linter.reportCodes.contains code then
        match parseReport linter output.toList errors.toList with
        | .ok messages => some (.ok messages)
        | .error (.misfit .noMembers) => some (.error .noMembers)
        | .error _ => none
      else none := by
  rw [heard, parseReport]
  by_cases hcode : linter.reportCodes.contains code = true
  · rw [if_pos hcode, if_neg (not_not.mpr (List.contains_iff_mem.mp hcode))]
    split
    · rfl
    · cases Json.parse? (reportText linter output.toList errors.toList) with
      | none => rfl
      | some report =>
          dsimp only [Option.bind_some]
          rw [reportMessages_eq]
          cases reportFault? linter report with
          | none => rfl
          | some m => cases m <;> rfl
  · rw [if_neg hcode, if_pos fun hmem => hcode (List.contains_iff_mem.mpr hmem)]

/-- What is heard of a run that wrote a list as its report. -/
theorem heard_compact {linter : Linter} {items : List Json} (hexact : (Json.arr items).IsExact)
    {code : Int} (hcode : code ∈ linter.reportCodes) (errors : String) :
    heard linter (.exited code (Json.arr items).compact errors) =
      match reportFault? linter (.arr items) with
      | none => some (.ok (items.flatMap (messagesIn linter)))
      | some .noMembers => some (.error .noMembers)
      | some _ => none := by
  have hstated : Text.isBlankText (Json.arr items).compact.toList = false := by
    rw [Json.compact, String.toList_ofList]
    cases items <;> rfl
  have htext : reportText linter (Json.arr items).compact.toList errors.toList =
      (Json.arr items).compact.toList := by
    cases linter with
    | eslint => rfl
    | stylelint => exact if_neg (by rw [hstated]; exact Bool.false_ne_true)
  rw [heard, if_neg (not_not.mpr hcode), htext, hstated, Json.parse?_compact hexact]
  rfl

end Lint

end FrontendAudit
