import FrontendAudit.Text.Lines
import FrontendAudit.Text.Utf8

/-!
# File trees

A tree is a file or a directory of named trees. The data of a file is text in UTF-8, a sequence of
any bytes, or a run of zero bytes. Text is read with invalid bytes dropped, or not at all if there
are any, and with every line end turned into a line feed.
-/

namespace FrontendAudit.Disk

/-- What a file holds. -/
inductive FileData where
  | text (s : String)
  | bytes (bs : List UInt8)
  | zeros (size : Nat)
  deriving DecidableEq, Repr, Inhabited

namespace FileData

/-- The size in bytes. -/
def size : FileData → Nat
  | .text s => s.utf8ByteSize
  | .bytes bs => bs.length
  | .zeros n => n

/-- The data with text behind it. -/
def append (d : FileData) (more : String) : FileData :=
  match d with
  | .text s => .text (s ++ more)
  | .bytes bs => .bytes (bs ++ more.toUTF8.toList)
  | .zeros n => .bytes (List.replicate n 0 ++ more.toUTF8.toList)

/-- The characters, invalid bytes dropped. -/
def chars : FileData → List Char
  | .text s => s.toList
  | .bytes bs => Text.Utf8.tolerant bs
  | .zeros n => List.replicate n (Char.ofNat 0)

/-- The characters, if no byte is invalid. -/
def validChars? : FileData → Option (List Char)
  | .bytes bs => Text.Utf8.strict? bs
  | d => some d.chars

/-- The text as sources are read. -/
def readTolerant (d : FileData) : List Char := Text.normalizeNewlines d.chars

/-- The text as settings are read. -/
def readStrict? (d : FileData) : Option (List Char) :=
  d.validChars?.map Text.normalizeNewlines

end FileData

/-- A file or a directory. -/
inductive Tree where
  | file (data : FileData)
  | dir (entries : List (String × Tree))
  deriving Repr, Inhabited

namespace Tree

/-- The entry of a name. -/
def named? (name : String) (entries : List (String × Tree)) : Option Tree :=
  (entries.find? (·.1 = name)).map (·.2)

/-- The tree below a path. -/
def at? : List String → Tree → Option Tree
  | [], t => some t
  | name :: path, .dir entries => (named? name entries).bind (at? path)
  | _ :: _, .file _ => none

/-- The data of the file at a path. -/
def file? (path : List String) (t : Tree) : Option FileData :=
  match t.at? path with
  | some (.file d) => some d
  | _ => none

/-- Whether a path leads to a file. -/
def isFile (path : List String) (t : Tree) : Bool := (t.file? path).isSome

/-- Whether a path leads to a directory. -/
def isDir (path : List String) (t : Tree) : Bool :=
  match t.at? path with
  | some (.dir _) => true
  | _ => false

/-- Replaces the entry of a name, or adds one. -/
def setEntry (name : String) (t : Tree) : List (String × Tree) → List (String × Tree)
  | [] => [(name, t)]
  | e :: es => if e.1 = name then (name, t) :: es else e :: setEntry name t es

/-- Puts a tree at a path, making directories on the way; nothing if a file is in the way. -/
def put? (t : Tree) (path : List String) (new : Tree) : Option Tree :=
  match path with
  | [] => some new
  | name :: path =>
    match t with
    | .file _ => none
    | .dir entries =>
      (put? ((named? name entries).getD (.dir [])) path new).map fun below =>
        .dir (setEntry name below entries)

/-- Removes what is at a path. -/
def remove : List String → Tree → Tree
  | [], t => t
  | _, .file d => .file d
  | [name], .dir entries => .dir (entries.filter (·.1 != name))
  | name :: path, .dir entries =>
    match named? name entries with
    | some t => .dir (setEntry name (remove path t) entries)
    | none => .dir entries

mutual

/-- The files of a tree with their paths below a given one. -/
def files (below : List String) : Tree → List (List String × FileData)
  | .file d => [(below, d)]
  | .dir entries => filesOf below entries

/-- The files of the entries of a directory with their paths. -/
def filesOf (below : List String) : List (String × Tree) → List (List String × FileData)
  | [] => []
  | (name, t) :: es => files (below ++ [name]) t ++ filesOf below es

end

end Tree

/-!
## Writable volumes

A volume is a tree of files together with the paths where nothing can be written. A write makes the
directories on the way; it fails where the volume refuses it, where a directory is in the place of
the file, and where a file is in the place of a directory.
-/

/-- A tree of files that can be written to. -/
structure Volume where
  tree : Tree
  refuses : List String → Bool := fun _ => false

instance : Inhabited Volume := ⟨{ tree := .dir [] }⟩

namespace Volume

/-- Writes a file, if that is possible. -/
def write? (v : Volume) (path : List String) (data : FileData) : Option Volume :=
  if v.refuses path || v.tree.isDir path then none
  else (v.tree.put? path (.file data)).map fun tree => { v with tree }

/-- Puts text behind what a file holds, if it is there and can be written. -/
def append? (v : Volume) (path : List String) (more : String) : Option Volume :=
  (v.tree.file? path).bind fun d => v.write? path (d.append more)

/-- Puts a tree at a path, if that is possible. -/
def mount? (v : Volume) (path : List String) (t : Tree) : Option Volume :=
  (v.tree.put? path t).map fun tree => { v with tree }

/-- Removes what is at a path. -/
def remove (v : Volume) (path : List String) : Volume :=
  { v with tree := v.tree.remove path }

end Volume

end FrontendAudit.Disk
