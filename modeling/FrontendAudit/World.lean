import FrontendAudit.Disk.Tree
import FrontendAudit.Failure
import FrontendAudit.Http
import FrontendAudit.Retry

/-!
# What a run acts on

A run reads and writes one volume, keeps a journal, and asks the outside: linters, pages, a review
service and a repository. What the outside will answer is part of the world, as a script of answers
for each question; the last answer of a script is given again and again. A step of a run (`Run`) may
fail, and what it did to the world before stays done.
-/

namespace FrontendAudit

/-- What came of running a tool. -/
inductive ToolRun where
  | notStarted
  | exited (code : Int) (output errors : String)
  deriving DecidableEq, Repr, Inhabited

/-- The next answer of a script, and the script after it; the last answer stays. -/
def nextAnswer (otherwise : α) : List α → α × List α
  | [] => (otherwise, [])
  | [a] => (a, [a])
  | a :: as => (a, as)

/-- What a run acts on. -/
structure World where
  volume : Disk.Volume
  toolRuns : List ((String × String) × List ToolRun) := []
  toolOtherwise : ToolRun := .notStarted
  pages : List (String × List Http.Answer) := []
  service : List Http.Answer := []
  repository : Option Disk.Tree := none
  notes : List Note := []

namespace World

/-- Adds to the journal. -/
def note (w : World) (notes : List Note) : World :=
  { w with notes := w.notes ++ notes }

/-- The script of a key. -/
def scriptOf [DecidableEq κ] (key : κ) (scripts : List (κ × List α)) : List α :=
  ((scripts.find? (·.1 = key)).map (·.2)).getD []

/-- Replaces the script of a key. -/
def setScript [DecidableEq κ] (key : κ) (script : List α) (scripts : List (κ × List α)) :
    List (κ × List α) :=
  scripts.map fun s => if s.1 = key then (key, script) else s

/-- Runs a tool on a file. -/
def runTool (tool path : String) (w : World) : ToolRun × World :=
  let (run, script) := nextAnswer w.toolOtherwise (scriptOf (tool, path) w.toolRuns)
  (run, ({ w with toolRuns := setScript (tool, path) script w.toolRuns }).note [.linted tool path])

/-- Fetches a page. -/
def fetch (url : String) (w : World) : Http.Answer × World :=
  let (answer, script) := nextAnswer .unreachable (scriptOf url w.pages)
  (answer, ({ w with pages := setScript url script w.pages }).note [.fetched url])

/-- Sends a request to the review service. -/
def post (request : Post) (w : World) : Http.Answer × World :=
  let (answer, service) := nextAnswer .unreachable w.service
  (answer, ({ w with service }).note [.posted request])

end World

/-- A step of a run. -/
abbrev Run := ExceptT Failure (StateM World)

namespace Run

/-- Adds to the journal. -/
def note (n : Note) : Run Unit := modify (World.note · [n])

/-- A step that cannot fail. -/
def act (f : World → α × World) : Run α := ExceptT.lift f

/-- The value of a computation that may fail. -/
def ofExcept (fail : ε → Failure) : Except ε α → Run α
  | .ok a => pure a
  | .error e => throw (fail e)

/-- How an attempt at a step ended: what the outside failed to do may be tried again. -/
def attempt (step : Run α) (w : World) : Attempt Failure α × World :=
  match step w with
  | (.ok a, w) => (.value a, w)
  | (.error (.outside reason), w) => (.failure reason, w)
  | (.error e, w) => (.crash e, w)

instance : PauseError Failure := ⟨.pauseTooLong⟩

/-- Attempts a step as often as the policy allows; nothing, if the outside failed every time. -/
def retry (p : RetryPolicy) (description : String) (step : Run α) : Run (Option α) := fun w =>
  let (retried, w) := Retry.run p description (attempt step) w
  (retried.result, w.note retried.notes)

end Run

end FrontendAudit
