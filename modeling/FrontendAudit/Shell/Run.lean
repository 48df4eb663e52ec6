import FrontendAudit.Disk.Tree
import FrontendAudit.Path
import FrontendAudit.Shell.Script

/-!
# Running simple commands

What a few standard commands do: they write bytes to the output and to the errors, and end with a
code or by a signal. The shell among them runs a script of the others. A command of another name
cannot be started. What is written is read as text with every invalid part replaced.
-/

namespace FrontendAudit.Shell

/-- How a command ends. -/
inductive Ending where
  | exited (code : Nat)
  | killed (signal : Nat)
  deriving DecidableEq, Repr, Inhabited

/-- The code of an ending, negative for a signal. -/
def Ending.code : Ending → Int
  | exited code => code
  | killed signal => -signal

/-- What a command wrote and how it ended. -/
structure Result where
  output : List UInt8 := []
  errors : List UInt8 := []
  ending : Ending := .exited 0
  deriving DecidableEq, Repr, Inhabited

/-- Where a command runs. -/
structure Surroundings where
  directory : Path
  tree : Disk.Tree
  values : List (String × String)
  deriving Repr, Inhabited

/-- The bytes of a text. -/
def bytesOf (s : List Char) : List UInt8 := (String.ofList s).toUTF8.toList

/-- The bytes of the data of a file. -/
def fileBytes : Disk.FileData → List UInt8
  | .text s => s.toUTF8.toList
  | .bytes bs => bs
  | .zeros n => List.replicate n 0

/-- Signals by name. -/
def signals : List (String × Nat) :=
  [("HUP", 1), ("INT", 2), ("QUIT", 3), ("ABRT", 6), ("KILL", 9), ("USR1", 10), ("SEGV", 11),
    ("USR2", 12), ("PIPE", 13), ("ALRM", 14), ("TERM", 15)]

/-- The number that a text of digits stands for. -/
def number? (s : List Char) : Option Nat :=
  if s.isEmpty || !s.all Char.isDigit then none
  else some (s.foldl (fun n c => n * 10 + (c.toNat - 48)) 0)

/-- The signal that a text names. -/
def signal? (s : List Char) : Option Nat :=
  let name := String.ofList (s.map Char.toUpper)
  let name := if name.startsWith "SIG" then String.ofList (name.toList.drop 3) else name
  (number? s).or ((signals.find? (·.1 = name)).map (·.2))

/-- The value of digits in base eight. -/
def octal (digits : List Char) : UInt8 :=
  (digits.foldl (fun (n : Nat) (c : Char) => n * 8 + (c.toNat - 48)) 0).toUInt8

/-- The characters of simple escapes. -/
def escapes : List (Char × Nat) :=
  [('n', 10), ('t', 9), ('r', 13), ('a', 7), ('b', 8), ('f', 12), ('v', 11), ('\\', 92), ('"', 34)]

/-- The bytes of an escape after the backslash, and what follows. -/
def escape (s : List Char) : List UInt8 × List Char :=
  let digits := (s.take 3).takeWhile fun c => '0' ≤ c && c ≤ '7'
  if !digits.isEmpty then ([octal digits], s.drop digits.length)
  else match s with
    | c :: rest =>
      match escapes.find? (·.1 = c) with
      | some (_, n) => ([n.toUInt8], rest)
      | none => (92 :: bytesOf [c], rest)
    | [] => ([92], [])

/-- A format filled in once: the bytes, and the arguments that are left. -/
def fill : Nat → List Char → List (List Char) → List UInt8 × List (List Char)
  | 0, _, args => ([], args)
  | _ + 1, [], args => ([], args)
  | fuel + 1, '\\' :: s, args =>
    let (bytes, rest) := escape s
    let (more, args) := fill fuel rest args
    (bytes ++ more, args)
  | fuel + 1, '%' :: '%' :: s, args =>
    let (more, args) := fill fuel s args
    (37 :: more, args)
  | fuel + 1, '%' :: 's' :: s, args =>
    let (more, rest) := fill fuel s (args.drop 1)
    (bytesOf (args.headD []) ++ more, rest)
  | fuel + 1, '%' :: 'd' :: s, args =>
    let (more, rest) := fill fuel s (args.drop 1)
    let shown := if (args.headD []).isEmpty then ['0'] else args.headD []
    (bytesOf shown ++ more, rest)
  | fuel + 1, c :: s, args =>
    let (more, rest) := fill fuel s args
    (bytesOf [c] ++ more, rest)

/-- A format filled in until no argument is left. -/
def format : Nat → List Char → List (List Char) → List UInt8
  | 0, _, _ => []
  | fuel + 1, f, args =>
    let (bytes, rest) := fill (f.length + 1) f args
    if rest.isEmpty || rest.length = args.length then bytes else bytes ++ format fuel f rest

/-- Words with spaces between them. -/
def spaced (words : List (List Char)) : List Char :=
  (List.intersperse [' '] words).flatten

/-- The command that writes its words. -/
def echo (args : List (List Char)) : Result :=
  match args with
  | ['-', 'n'] :: args => { output := bytesOf (spaced args) }
  | args => { output := bytesOf (spaced args ++ ['\n']) }

/-- The command that writes files one after the other. -/
def cat (s : Surroundings) (args : List (List Char)) : Result :=
  args.foldl (fun r arg =>
    let path := (Path.ofString (String.ofList arg)).resolve s.directory
    match s.tree.at? path.parts with
    | some (.file data) => { r with output := r.output ++ fileBytes data }
    | some (.dir _) =>
      { r with
        errors := r.errors ++ bytesOf ("cat: ".toList ++ arg ++ ": Is a directory\n".toList)
        ending := .exited 1 }
    | none =>
      { r with
        errors := r.errors ++
          bytesOf ("cat: ".toList ++ arg ++ ": No such file or directory\n".toList)
        ending := .exited 1 }) {}

/-- The command that lists the names in a directory, those with a leading point left out. -/
def list (s : Surroundings) (args : List (List Char)) : Result :=
  let path := (Path.ofString (String.ofList (args.headD ['.']))).resolve s.directory
  match s.tree.at? path.parts with
  | some (.dir entries) =>
    let names := ((entries.map (·.1)).filter fun n => n.toList.head? ≠ some '.').mergeSort
      fun a b => decide (a ≤ b)
    { output := bytesOf (names.flatMap fun n => n.toList ++ ['\n']) }
  | some (.file _) => { output := bytesOf (args.headD [] ++ ['\n']) }
  | none =>
    { errors := bytesOf ("ls: cannot access '".toList ++ args.headD [] ++
        "': No such file or directory\n".toList)
      ending := .exited 2 }

/-- The command that writes the values of the environment, all of them or those named. -/
def printEnvironment (s : Surroundings) (names : List (List Char)) : Result :=
  if names.isEmpty then
    { output := s.values.flatMap fun (name, value) =>
        bytesOf (name.toList ++ '=' :: value.toList ++ ['\n']) }
  else
    let found := names.map fun name => (s.values.find? (·.1 = String.ofList name)).map (·.2)
    { output := found.flatMap fun value? =>
        (value?.map fun value => bytesOf (value.toList ++ ['\n'])).getD []
      ending := .exited (if found.all Option.isSome then 0 else 1) }

/-- A command that is no shell, if there is one of that name. -/
def plain? (s : Surroundings) (name : List Char) (args : List (List Char)) : Option Result :=
  match String.ofList name with
  | "true" | ":" | "sleep" => some {}
  | "false" => some { ending := .exited 1 }
  | "printf" => some { output := format (args.length + 1) (args.headD []) (args.drop 1) }
  | "echo" => some (echo args)
  | "cat" => some (cat s args)
  | "ls" => some (list s args)
  | "pwd" => some { output := bytesOf (s.directory.toString.toList ++ ['\n']) }
  | "printenv" => some (printEnvironment s args)
  | "env" => if args.isEmpty then some (printEnvironment s []) else none
  | _ => none

/-- The number by which a process is known to itself. -/
def ownNumber : List Char := ['1']

/-- The text of a word. -/
def expand (s : Surroundings) (status : Nat) (parts : List Part) : List Char :=
  parts.flatMap fun
    | .text t => t
    | .value ['?'] => (toString status).toList
    | .value ['$'] => ownNumber
    | .value name => (((s.values.find? (·.1 = String.ofList name)).map (·.2)).getD "").toList

/-- The code that a text means, as far as codes go. -/
def exitCode (status : Nat) (args : List (List Char)) : Nat :=
  match args.head? with
  | some arg => (number? arg).getD 2 % 256
  | none => status

/-- The signal that a process is to send to itself. -/
def ownSignal? : List (List Char) → Option Nat
  | [target] => if target = ownNumber then some 15 else none
  | [['-', 's'], name, target] => if target = ownNumber then signal? name else none
  | [option, target] =>
    if target = ownNumber && option.head? = some '-' then signal? (option.drop 1) else none
  | _ => none

/-- What a command of a script comes to, and whether the script ends with it. -/
def perform (s : Surroundings) (status : Nat) (words : List (List Char)) : Result × Bool :=
  match words with
  | [] => ({ ending := .exited status }, false)
  | name :: args =>
    if name = "exit".toList then ({ ending := .exited (exitCode status args) }, true)
    else if name = "kill".toList then
      match ownSignal? args with
      | some signal => ({ ending := .killed signal }, true)
      | none => ({ ending := .exited 1 }, false)
    else match plain? s name args with
      | some r => (r, false)
      | none =>
        ({ errors := bytesOf ("sh: 1: ".toList ++ name ++ ": not found\n".toList)
           ending := .exited 127 }, false)

/-- What was written, with the output or the errors sent somewhere else. -/
def redirect (r : Result) (sent : Redirection) : Result :=
  match sent.source, sent.target with
  | 1, some 2 => { r with output := [], errors := r.errors ++ r.output }
  | 2, some 1 => { r with output := r.output ++ r.errors, errors := [] }
  | 1, none => { r with output := [] }
  | 2, none => { r with errors := [] }
  | _, _ => r

/-- Runs the commands of a script, as far as it does not end before. -/
def runCommands (s : Surroundings) (status : Nat) : List Simple → Result
  | [] => { ending := .exited status }
  | c :: cs =>
    let skipped := match c.joint with
      | .always => false
      | .onSuccess => status != 0
      | .onFailure => status == 0
    if skipped then runCommands s status cs
    else
      let (r, ends) := perform s status (c.words.map (expand s status))
      let r := c.redirections.reverse.foldl redirect r
      if ends then r
      else
        let rest := runCommands s (r.ending.code.toNat % 256) cs
        { rest with output := r.output ++ rest.output, errors := r.errors ++ rest.errors }

/-- Runs a script. -/
def runScript (s : Surroundings) (script : List Char) : Result :=
  match parse script with
  | some commands => runCommands s 0 commands
  | none =>
    { errors := bytesOf "sh: 1: Syntax error\n".toList, ending := .exited 2 }

/-- The name of a command without the directories where commands are. -/
def commandName (name : List Char) : List Char :=
  let directories := ["/usr/bin/", "/bin/"].map String.toList
  match directories.find? (·.isPrefixOf name) with
  | some directory => name.drop directory.length
  | none => name

/-- The output of a command as text. -/
def Result.outputText (r : Result) : List Char := Text.Utf8.replacing r.output

/-- The errors of a command as text. -/
def Result.errorText (r : Result) : List Char := Text.Utf8.replacing r.errors

/-- The surroundings of a script whose arguments are known by their numbers, the first as zero. -/
def withArguments (s : Surroundings) (args : List (List Char)) : Surroundings :=
  let args := if args.isEmpty then ["sh".toList] else args
  { s with values :=
      (args.zipIdx.map fun (arg, i) => (toString i, String.ofList arg)) ++ s.values }

/-- Runs a command with its arguments; nothing if it cannot be started. -/
def run? (s : Surroundings) (name : String) (args : List String) : Option Result :=
  let args := args.map String.toList
  match String.ofList (commandName name.toList) with
  | "sh" =>
    match args with
    | ['-', 'c'] :: script :: args => some (runScript (withArguments s args) script)
    | _ => some {}
  | ":" => none
  | known => plain? s known.toList args

end FrontendAudit.Shell
