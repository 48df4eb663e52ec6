import FrontendAudit.Finding.Record
import FrontendAudit.Json.Printer
import FrontendAudit.Journal
import FrontendAudit.Path

/-!
# The log of issues

The log of a category keeps its findings in memory, up to a limit, and may write each of them to a
stream file as one line of JSON. Lines wait in a queue, from which a writer takes them one by one,
at any time (`IssueLog.write`); closing the log puts an end mark behind them and waits until the
writer has come to it. A write may fail: then either the one line is lost or the writer gives up on
the file.
-/

namespace FrontendAudit

/-- What waits to be written. -/
inductive QueueEntry where
  | line (text : String)
  | endMark
  deriving DecidableEq, Repr

/-- How a write may fail. -/
inductive WriteFault where
  /-- The text cannot be written; the file can still be. -/
  | unwritable (reason : String)
  /-- The file can no longer be written. -/
  | broken (reason : String)
  deriving DecidableEq, Repr

/-- The log of issues of a category. -/
structure IssueLog where
  category : String
  /-- The stream file, if there is to be one. -/
  path : Option Path
  limit : Int
  kept : List Finding := []
  dropped : Nat := 0
  opened : Bool := false
  closed : Bool := false
  queue : List QueueEntry := []
  /-- Whether the writer is at work. -/
  writing : Bool := false
  /-- Whether the stream file is open. -/
  handle : Bool := false
  /-- The lines that the stream file holds. -/
  written : List String := []
  /-- How many writes there were. -/
  writes : Nat := 0
  deriving DecidableEq, Repr, Inhabited

namespace IssueLog

/-- The stream file of a category. -/
def streamPath (directory : Path) (category : String) : Path :=
  directory.child (category ++ "-issues.jsonl")

/-- The line of a finding. -/
def lineOf (f : Finding) : String := f.toRecord.compact ++ "\n"

/-- A log that is not open yet. -/
def new (category : String) (directory : Option Path) (limit : Int) : IssueLog :=
  { category, path := directory.map (streamPath · category), limit }

/-- Why a log could not be opened. -/
inductive OpenFault where
  | openedBefore
  | noStream (path : Path)
  deriving DecidableEq, Repr

/-- Opens the log. The stream file is made anew, if that is possible; if it is not, the log
counts as opened all the same. -/
def start (log : IssueLog) (possible : Bool) : Except OpenFault Unit × IssueLog :=
  if log.opened then (.error .openedBefore, log)
  else
    let log := { log with opened := true }
    match log.path with
    | none => (.ok (), log)
    | some path =>
      if possible then (.ok (), { log with handle := true, writing := true })
      else (.error (.noStream path), log)

/-- Whether findings are taken. -/
def accepts (log : IssueLog) : Bool := log.opened && !log.closed

/-- What came of recording a finding. -/
inductive Recorded where
  | kept
  | dropped
  deriving DecidableEq, Repr

/-- The warning when the limit is first reached. -/
def limitText (log : IssueLog) : String :=
  "[" ++ log.category ++ "] reached max_issues=" ++ toString log.limit ++
    "; further findings are dropped"

/-- Records a finding: none while the log is not open, and no more than the limit. -/
def record (log : IssueLog) (f : Finding) : Option (Recorded × IssueLog × List Note) :=
  if !log.accepts then none
  else if log.limit ≤ log.kept.length then
    let notes := if log.dropped = 0 then [.warning log.limitText] else []
    some (.dropped, { log with dropped := log.dropped + 1 }, notes)
  else
    let queue := if log.writing then log.queue ++ [.line (lineOf f)] else log.queue
    some (.kept, { log with kept := log.kept ++ [f], queue }, [])

/-- Records findings in order; nothing, if one of them is not taken. -/
def recordAll (log : IssueLog) : List Finding → Option (IssueLog × List Note)
  | [] => some (log, [])
  | f :: fs =>
    match log.record f with
    | none => none
    | some (_, log, notes) => (log.recordAll fs).map fun (log, more) => (log, notes ++ more)

/-- The name of the stream file in messages. -/
def pathText (log : IssueLog) : String := (log.path.map Path.toString).getD ""

/-- One step of the writer: takes the first entry of the queue and writes it, where the fault that
the write meets with, if any, is given. -/
def write (log : IssueLog) (fault : Option WriteFault) : IssueLog × List Note :=
  match log.writing, log.queue with
  | true, .line text :: queue =>
    if !log.handle then ({ log with queue }, [])
    else
      let log := { log with queue, writes := log.writes + 1 }
      match fault with
      | none => ({ log with written := log.written ++ [text] }, [])
      | some (.unwritable reason) =>
        (log, [.warning ("Skipped a finding in " ++ log.pathText ++ ": " ++ reason)])
      | some (.broken reason) =>
        ({ log with handle := false },
          [.error ("Writing to " ++ log.pathText ++ " failed, mirror disabled: " ++ reason)])
  | true, .endMark :: queue => ({ log with queue, writing := false }, [])
  | _, _ => (log, [])

/-- Steps of the writer, as many as the fuel says. The faults are given by the number of the
write. -/
def drain (faults : Nat → Option WriteFault) : Nat → IssueLog → IssueLog × List Note
  | 0, log => (log, [])
  | fuel + 1, log =>
    let (log, notes) := log.write (faults (log.writes + 1))
    let (log, more) := drain faults fuel log
    (log, notes ++ more)

/-- Closes the log, once: the writer empties the queue and the stream file is released. -/
def close (log : IssueLog) (faults : Nat → Option WriteFault := fun _ => none) :
    IssueLog × List Note :=
  if log.closed then (log, [])
  else
    let log := { log with closed := true }
    let (log, notes) :=
      if log.writing then
        let log := { log with queue := log.queue ++ [.endMark] }
        drain faults log.queue.length log
      else (log, [])
    let dropped :=
      if log.dropped = 0 then []
      else [.warning ("[" ++ log.category ++ "] " ++ toString log.dropped ++
        " findings dropped past max_issues")]
    ({ log with handle := false }, notes ++ dropped)

/-- The content of the stream file. -/
def streamText (log : IssueLog) : String := String.join log.written

/-- Whether the log holds on to a writer or a file. -/
def holdsResources (log : IssueLog) : Bool := log.writing || log.handle

end IssueLog

end FrontendAudit
