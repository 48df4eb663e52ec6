import FrontendAudit.Rule.Performance.AsyncRegion
import FrontendAudit.Rule.Registry
import FrontendAudit.Source.File
import FrontendAudit.Text.Find

/-!
# Performance detectors

Detectors for wasteful operations, for listeners and timers that a file never releases, and for
blocking code inside asynchronous functions. A resource counts as released when the name of its
release call stands anywhere in the file.
-/

namespace FrontendAudit.Performance

open Pattern

/-- A wasteful operation, and what a finding says about it. -/
structure Operation where
  pattern : Pattern
  message : String
  severity : Severity

/-- A word character or a point. -/
def dotted : Pattern := ofKinds [.word, .one '.']

/-- A stretch of a line with any characters. -/
def anything : Pattern := many inLine

/-- The header of a loop that counts up to a length. -/
def countingLoop : Pattern :=
  seqs [word "for", blanks, word "(", blanks, word "let", many1 blank, many1 wordChar, blanks,
    word "=", blanks, word "0;", blanks, many1 wordChar, blanks, word "<", blanks, many1 dotted,
    word ".length;", blanks, many1 wordChar, word "++)"]

/-- Two chained calls of list methods. -/
def chained (one other : String) : Pattern :=
  seqs [word ("." ++ one ++ "("), anything, word (")." ++ other ++ "("), anything, word ")"]

/-- A deep copy by way of text. -/
def textualCopy : Pattern := seqs [word "JSON.parse(", blanks, word "JSON.stringify("]

/-- Plain text that is set as markup. -/
def plainInnerHtml : Pattern :=
  let quoteMark := among "'\"\x60"
  seqs [word ".innerHTML", blanks, word "=", blanks, quoteMark, many (except "'\"\x60<"), quoteMark]

/-- The wasteful operations. -/
def wastefulOperations : List Operation :=
  [⟨countingLoop, "Consider using forEach or for...of instead of traditional for loop", .low⟩,
   ⟨chained "map" "filter", "Consider combining map and filter operations", .low⟩,
   ⟨chained "filter" "map", "Consider combining filter and map operations", .low⟩,
   ⟨textualCopy, "Deep cloning with JSON.parse/stringify is inefficient", .medium⟩,
   ⟨plainInnerHtml, "Consider using textContent for text-only content", .low⟩]

/-- A resource that has to be released: how it is acquired, and the name of the call that releases
it. -/
structure Resource where
  acquire : Pattern
  release : String
  message : String
  severity : Severity

/-- A call of a function, from its name to the opening parenthesis. -/
def callOf (name : String) : Pattern := seqs [.boundary, word name, blanks, word "("]

/-- The resources that have to be released. -/
def resources : List Resource :=
  [⟨callOf "addEventListener", "removeEventListener",
    "Event listener added without removal - potential memory leak", .medium⟩,
   ⟨callOf "setInterval", "clearInterval",
    "setInterval used without clearInterval - potential memory leak", .high⟩,
   ⟨callOf "setTimeout", "clearTimeout",
    "setTimeout used without clearTimeout - potential memory leak", .medium⟩]

/-- A timer call with a delay of at least five characters. -/
def longTimer (name : String) : Pattern :=
  let argument := except ")"
  seqs [word name, blanks, word "(", anything, word ",", times 5 argument, many argument, word ")"]

/-- What blocks when it runs in asynchronous code. -/
def blockingPatterns : List Pattern :=
  [seqs [caseless "while", blanks, word "(", blanks, caseless "true", blanks, word ")"],
   seqs [word "for", blanks, word "(", anything, word ";", anything, word ";", anything, word ")"],
   longTimer "setTimeout",
   longTimer "setInterval"]

/-- A source with its asynchronous lines and the release calls that it names. -/
structure Source extends SourceFile where
  asyncLines : List Nat
  released : List String

/-- Whether a release call is named in some line. -/
def names (call : String) (lines : List (List Char)) : Bool :=
  Text.occurs call.toList (Text.joinWith ['\n'] lines)

/-- A source whose regions and release calls are found. -/
def Source.of (file : SourceFile) : Source :=
  { file with
    asyncLines := Performance.asyncLines file.lines
    released := (resources.map (·.release)).filter (names · file.lines) }

/-- A detector of this family. -/
abbrev LineDetector := Rule.Detector Source Finding

def detectInefficientOperation : LineDetector := fun line index source =>
  (wastefulOperations.filter (·.pattern.occursIn line)).map fun op =>
    source.findingAt index "inefficient_operation" op.severity op.message
      "Prefer a single pass or a cheaper built-in"

def detectMemoryLeak : LineDetector := fun line index source =>
  (resources.filter fun r => !source.released.contains r.release && r.acquire.occursIn line).map
    fun r =>
      source.findingAt index "memory_leak" r.severity r.message
        "Release the listener or timer when the owner is torn down"

def detectBlockingCode : LineDetector := fun line index source =>
  if source.asyncLines.contains index && blockingPatterns.any (·.occursIn line) then
    [source.findingAt index "blocking_code_in_async" .medium
      "Potential blocking code in async context"
      "Move long-running work out of the event loop or break it up with await"]
  else []

/-- All detectors of this family. -/
def detectors : Rule.Registry Source Finding where
  entries :=
    [("inefficient_operation", detectInefficientOperation),
     ("memory_leak", detectMemoryLeak),
     ("blocking_code_in_async", detectBlockingCode)]
  nodup := by decide

/-- What all detectors find in a file, every finding accepted. -/
def scan (path : String) (content : List Char) : Checked (List Finding) :=
  let source := Source.of (.ofContent path content)
  Finding.acceptAll (detectors.run source source.lines)

end FrontendAudit.Performance
