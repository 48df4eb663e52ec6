import FrontendAudit.Audit.Phase
import FrontendAudit.Config.Load
import FrontendAudit.Glob.Basic
import FrontendAudit.Json.Misfit
import FrontendAudit.Url

/-!
# Failures

Everything that can end a run, or one step of it, before its time. `Failure.message` is what the
user reads.
-/

namespace FrontendAudit

/-- Why a run, or one step of it, failed. -/
inductive Failure where
  /-- The configuration is not valid. -/
  | config (fault : ConfigFault)
  /-- A file that has to be text is none. -/
  | undecodable
  /-- A pattern of the settings is no glob. -/
  | badGlob
  /-- A file is not there. -/
  | noFile (path : Path)
  /-- The stream of issues could not be opened. -/
  | noStream (path : Path)
  /-- A tool, page or service did not do its part. -/
  | outside (reason : String)
  /-- The pause before another attempt is too long to be told. -/
  | pauseTooLong
  /-- There is nothing at the path of the project. -/
  | noProject (path : String)
  /-- The path of the project is no directory. -/
  | noDirectory (path : String)
  /-- The kind of project is unknown. -/
  | unknownKind (name : String)
  /-- Neither a path nor a repository is given. -/
  | noLocation
  /-- The repository could not be cloned. -/
  | noClone
  /-- No file may be scanned at a time. -/
  | badBatchSize (size : Int)
  /-- A log was opened again. -/
  | logOpened (category : String)
  /-- A log was written to while it was not open. -/
  | logNotOpen (category : String)
  /-- An audit was run again. -/
  | alreadyRun (category : String)
  /-- An audit was to go back to a phase. -/
  | cannotMove (category : String) (current next : Phase)
  /-- A service was called without a connection. -/
  | notConnected
  /-- The address of a page or a service is none. -/
  | badAddress (fault : Url.Fault)
  /-- A value has the wrong shape. -/
  | misfit (m : Misfit)
  deriving DecidableEq, Repr

namespace Failure

/-- What the user reads about a failure. -/
def message : Failure → String
  | config fault => fault.message
  | undecodable => "A file is not valid UTF-8"
  | badGlob => "A pattern is not valid"
  | noFile path => "No such file: " ++ path.toString
  | noStream path => "Cannot open issue stream " ++ path.toString
  | outside reason => reason
  | pauseTooLong => "A pause is too long"
  | noProject path => "Path does not exist: " ++ path
  | noDirectory path => "Path is not a directory: " ++ path
  | unknownKind name => "Invalid project_type '" ++ name ++
      "'. Valid types: react, node, vanilla, typescript, typescript+react"
  | noLocation => "Provide either 'path' or 'repo_url'"
  | noClone => "Failed to clone repository"
  | badBatchSize size => "batch_size must be at least 1, got " ++ toString size
  | logOpened category => "Issue log for " ++ category ++ " already opened"
  | logNotOpen category => "Issue log for " ++ category ++ " is not open"
  | alreadyRun category => category ++ " audit has already run"
  | cannotMove category current next =>
    category ++ " audit cannot move from " ++ current.name ++ " to " ++ next.name
  | notConnected => "AgentClient is not open; use it with 'async with'"
  | badAddress fault => fault.message
  | misfit _ => "A value has the wrong shape"

end Failure

end FrontendAudit
