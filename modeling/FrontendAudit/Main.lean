import FrontendAudit.Entry.Command

/-!
# The command line

The request comes on standard input, and the files of the project are named as arguments. Progress
and complaints go to the error stream, the response to the output, and the reports to the disk. No
tool, page or service is within reach, and neither time nor chance has a part in what is printed, so
that equal projects have equal reports.
-/

namespace FrontendAudit

/-- The time that every report bears. -/
def reportTime : String := "2000-01-01T00:00:00+00:00"

/-- The name of every run. -/
def reportRun : String := "00000000-0000-0000-0000-000000000000"

/-- The environment variables that have a meaning. -/
def knownVariables : List String :=
  [Config.batchVariable, Config.issuesVariable, Service.baseVariable, Service.keyVariable,
    "GITHUB_ACTIONS", "GITLAB_CI", "JENKINS_URL", "CIRCLECI", "TRAVIS"]

/-- The host on which the program runs. -/
def readHost : IO Host := do
  let cwd := Path.ofString (← IO.currentDir).toString
  let environment ← knownVariables.filterMapM fun key => do
    return (← IO.getEnv key).map ((key, ·))
  return { cwd, environment, now := reportTime, runId := reportRun
           rulesDir := cwd.child "configs", cloneDir := cwd.child ".clone" }

/-- The tree of the named files and of the current directory. -/
def readTree (host : Host) (names : List String) : IO Disk.Tree := do
  let empty := ((Disk.Tree.dir []).put? host.cwd.parts (.dir [])).getD (.dir [])
  names.foldlM (fun (tree : Disk.Tree) (name : String) => do
    let data ← IO.FS.readBinFile name
    let path := host.locate (.ofString name)
    return (tree.put? path (.file (.bytes data.toList))).getD tree) empty

/-- Writes the files that are new or have changed. -/
def writeChanges (before after : Disk.Tree) : IO Unit := do
  for (path, data) in after.files [] do
    if before.file? path ≠ some data then
      IO.FS.createDirAll (Path.absolute path.dropLast).toString
      IO.FS.writeFile (Path.absolute path).toString (String.ofList data.chars)

/-- Shows what the journal has for the user. -/
def showNotes (notes : List Note) : IO Unit := do
  for n in notes do
    match n with
    | .warning text | .error text => IO.eprintln text
    | .progress text => IO.eprint text
    | _ => pure ()

/-- Everything on standard input. -/
partial def readInput (input : IO.FS.Stream) (read : ByteArray) : IO ByteArray := do
  let more ← input.read 4096
  if more.isEmpty then return read else readInput input (read ++ more)

end FrontendAudit

open FrontendAudit in
/-- Reads a request, audits the project, and prints the response. -/
def main (names : List String) : IO UInt32 := do
  let host ← readHost
  let tree ← readTree host names
  let input ← readInput (← IO.getStdin) .empty
  let (result, w) :=
    Command.answer ⟨host, Service.ofHost host⟩ input.toList { volume := { tree } }
  showNotes w.notes
  writeChanges tree w.volume.tree
  match result with
  | .printed exit output =>
    IO.println output.compact
    return exit.toUInt32
  | .crashed _ =>
    IO.eprintln "The input is not an object"
    return 1
  | .undecodable =>
    IO.eprintln "The input is not valid UTF-8"
    return 1
  | .unwritable =>
    IO.eprintln "What is wrong with the request cannot be written"
    return 1
