import FrontendAudit.Text.Integer
import FrontendAudit.Text.Quoted
import FrontendAudit.Url.HostName

/-!
# Addresses

An address has a scheme, a user, a host and a port, a path, a query and a fragment, of which all but
the path may be absent. Scheme and host are in lower case, a port that the scheme implies is left
out, and characters that cannot stand in an address are written as percent signs with the bytes in
hexadecimal. An address that names no host is relative: it is put behind the address of a service,
or seen from another address, with single and double points in its path taken away.
-/

namespace FrontendAudit

/-- An address. -/
structure Url where
  scheme : List Char := []
  user : List Char := []
  host : List Char := []
  port : Option Int := none
  path : List Char := []
  query : Option (List Char) := none
  fragment : Option (List Char) := none
  deriving DecidableEq, Repr, Inhabited

namespace Url

/-- Why a text is no address. -/
inductive Fault where
  | tooLong
  | control (c : Char) (position : Nat)
  | host (form : HostName.Form) (text : List Char)
  | port (text : List Char)
  | hostAndPath
  | slashes
  | colon
  deriving DecidableEq, Repr

/-- What is wrong with a text that is no address. -/
def Fault.message : Fault → String
  | tooLong => "URL too long"
  | control c position => "Invalid non-printable ASCII character in URL, " ++ quoted [c] ++
      " at position " ++ toString position ++ "."
  | host .numbers text => "Invalid IPv4 address: " ++ quoted text
  | host .groups text => "Invalid IPv6 address: " ++ quoted text
  | host _ text => "Invalid IDNA hostname: " ++ quoted text
  | port text => "Invalid port: " ++ quoted text
  | hostAndPath => "For absolute URLs, path must be empty or begin with '/'"
  | slashes => "Relative URLs cannot have a path starting with '//'"
  | colon => "Relative URLs cannot have a path starting with ':'"
where
  quoted (s : List Char) : String := String.ofList (Text.quoted s)

/-! ## Writing -/

/-- The user, the host and the port of an address. -/
def authority (u : Url) : List Char :=
  (if u.user.isEmpty then [] else u.user ++ ['@']) ++
    (if u.host.contains ':' then '[' :: u.host ++ [']'] else u.host) ++
    match u.port with
    | none => []
    | some port => ':' :: (toString port).toList

/-- A part with its mark, if it is there. -/
def withMark (mark : Char) : Option (List Char) → List Char
  | none => []
  | some part => mark :: part

/-- The text of an address. -/
def toChars (u : Url) : List Char :=
  (if u.scheme.isEmpty then [] else u.scheme ++ [':']) ++
    (if u.authority.isEmpty then [] else '/' :: '/' :: u.authority) ++
    u.path ++ withMark '?' u.query ++ withMark '#' u.fragment

/-- The text of an address. -/
def toString (u : Url) : String := String.ofList u.toChars

/-! ## Reading -/

/-- What stands before the first of some characters, and the rest from there on. -/
def upTo (stops : List Char) (s : List Char) : List Char × List Char :=
  (s.takeWhile fun c => !stops.contains c, s.dropWhile fun c => !stops.contains c)

/-- The part that a mark sets off from what follows. -/
def marked (mark : Char) (stops : List Char) : List Char → Option (List Char) × List Char
  | [] => (none, [])
  | c :: s =>
    if c = mark then
      let (part, rest) := upTo stops s
      (some part, rest)
    else (none, c :: s)

/-- Whether a text can be a scheme, which may be empty. -/
def isScheme : List Char → Bool
  | [] => true
  | c :: s => c.isAlpha && s.all fun c => c.isAlphanum || ['+', '-', '.'].contains c

/-- The scheme of a text, and what follows it. -/
def schemeOf (s : List Char) : List Char × List Char :=
  match upTo [':', '/', '?', '#'] s with
  | (scheme, ':' :: rest) =>
    if isScheme scheme then (scheme.map Char.toLower, rest) else ([], s)
  | _ => ([], s)

/-- The user of a text between the scheme and the path, up to the last `@`, and what follows it. -/
def userOf (s : List Char) : List Char × List Char :=
  if s.contains '@' then
    let host := (s.reverse.takeWhile (· ≠ '@')).reverse
    (s.take (s.length - host.length - 1), host)
  else ([], s)

/-- The host of a text after the user, and what follows it: a text in brackets, or all up to a
colon. -/
def hostOf (s : List Char) : List Char × List Char :=
  if s.head? = some '[' && s.contains ']' then
    let rest := (s.reverse.takeWhile (· ≠ ']')).reverse
    (s.take (s.length - rest.length), rest)
  else upTo [':'] s

/-- The port that a scheme implies. -/
def impliedPort? (scheme : List Char) : Option Int :=
  [("ftp", 21), ("http", 80), ("https", 443), ("ws", 80), ("wss", 443)].findSome?
    fun (name, port) =>
      if scheme = name.toList then some port else none

/-- The port of a text after the host; nothing if there is none or the scheme implies it. -/
def portOf (scheme s : List Char) : Except Fault (Option Int) :=
  let s := if s.head? = some ':' then s.drop 1 else s
  if s.isEmpty then .ok none
  else match Text.settingInt? s with
    | none => .error (.port s)
    | some port => .ok (if impliedPort? scheme = some port then none else some port)

/-- Whether a character stands for itself in the part of an address where some others do not. -/
def isPlain (others : List Char) (c : Char) : Bool :=
  0x20 < c.toNat && c.toNat < 0x7f && !(['"', '<', '>'] ++ others).contains c

/-- The characters that do not stand for themselves in a path. -/
def pathMarks : List Char := ['#', '?', '\x60', '\x7b', '\x7d']

/-- The characters that do not stand for themselves in the name of a user. -/
def userMarks : List Char := pathMarks ++ ['/', ';', '=', '@', '[', '\\', ']', '^', '|']

/-- The segments of a path without single and double points; a double point at the top goes up to
nowhere. -/
def plainSegments (segments : List (List Char)) : List (List Char) :=
  segments.foldl (fun done segment =>
    if segment = ['.'] then done
    else if segment = ['.', '.'] then if done = [[]] then done else done.dropLast
    else done ++ [segment]) []

/-- A path without single and double points. -/
def plainPath (path : List Char) : List Char :=
  Text.joinWith ['/'] (plainSegments (Text.splitOn '/' path))

/-- An address with another path, which is read as the path of an address. -/
def withPath (u : Url) (path : List Char) : Url :=
  let path := if u.scheme.isEmpty && u.authority.isEmpty then path else plainPath path
  { u with path := Text.Percent.encode (isPlain pathMarks) path }

/-- An address with another query, which is read as the query of an address. -/
def withQuery (u : Url) (query : Option (List Char)) : Url :=
  { u with query := query.map (Text.Percent.encode (isPlain ['#'])) }

/-- What is wrong with a path after what stands before it. -/
def pathFault? (u : Url) (path : List Char) : Option Fault :=
  if !u.authority.isEmpty then
    if path.isEmpty || path.head? = some '/' then none else some .hostAndPath
  else if !u.scheme.isEmpty then none
  else if ['/', '/'].isPrefixOf path then some .slashes
  else if path.head? = some ':' then some .colon
  else none

/-- How long an address may be. -/
def lengthLimit : Nat := 65536

/-- What is wrong with a text as a whole: its length, or a control character. -/
def textFault? (s : List Char) : Option Fault :=
  if lengthLimit < s.length then some .tooLong
  else
    let isControl (c : Char) : Bool := c.toNat < 0x20 || c.toNat = 0x7f
    (s.find? isControl).map fun c => .control c (s.takeWhile (!isControl ·)).length

/-- The address of a text. -/
def ofChars (s : List Char) : Except Fault Url := do
  if let some fault := textFault? s then throw fault
  let (scheme, s) := schemeOf s
  let (authority, s) := match s with
    | '/' :: '/' :: s => upTo ['/', '?', '#'] s
    | s => ([], s)
  let (path, s) := upTo ['?', '#'] s
  let (query, s) := marked '?' ['#'] s
  let (fragment, _) := marked '#' [] s
  let (user, place) := userOf authority
  let (name, place) := hostOf place
  let host ← (HostName.normalize name).mapError (.host · name)
  let port ← portOf scheme place
  let u : Url :=
    { scheme
      user := Text.Percent.encode (isPlain userMarks) user
      host
      port
      fragment := fragment.map (Text.Percent.encode (isPlain ['\x60'])) }
  if let some fault := u.pathFault? path then throw fault
  return (u.withPath path).withQuery query

/-- The address of a text. -/
def ofString (s : String) : Except Fault Url := ofChars s.toList

/-! ## Behind the address of a service -/

/-- Whether an address can do without another: it names a scheme and a host. -/
def isAbsolute (u : Url) : Bool := !u.scheme.isEmpty && !u.host.isEmpty

/-- The path and the query of an address, the path never empty. -/
def target (u : Url) : List Char :=
  (if u.path.isEmpty then ['/'] else u.path) ++ withMark '?' u.query

/-- An address with another path and query. -/
def withTarget (u : Url) (target : List Char) : Url :=
  let (path, rest) := upTo ['?'] target
  (u.withPath path).withQuery (if rest.isEmpty then none else some (rest.drop 1))

/-- An address whose path and query end with a slash. -/
def asDirectory (u : Url) : Url :=
  if u.target.getLast? = some '/' then u else u.withTarget (u.target ++ ['/'])

/-- A relative address behind the address of a service. -/
def behind (base u : Url) : Url :=
  if u.isAbsolute then u
  else
    let base := base.asDirectory
    base.withTarget (base.target ++ u.target.dropWhile (· = '/'))

/-! ## As seen from another address -/

/-- A part that says something. -/
def filled (part : Option (List Char)) : Option (List Char) := part.filter (!·.isEmpty)

/-- A list without the empty pieces that are neither its first nor its last. -/
def withoutInnerGaps (segments : List (List Char)) : List (List Char) :=
  segments.take 1 ++ ((segments.drop 1).dropLast.filter (!·.isEmpty)) ++
    (segments.drop 1).drop ((segments.drop 1).length - 1)

/-- The segments of a path as seen from another path. -/
def segmentsFrom (base path : List Char) : List (List Char) :=
  if path.head? = some '/' then Text.splitOn '/' path
  else
    let parts := Text.splitOn '/' base
    let directory := if parts.getLast? = some [] then parts else parts.dropLast
    withoutInnerGaps (directory ++ Text.splitOn '/' path)

/-- A path as seen from another path. -/
def pathFrom (base path : List Char) : List Char :=
  let segments := segmentsFrom base path
  let resolved := segments.foldl (fun done segment =>
    if segment = ['.', '.'] then done.dropLast
    else if segment = ['.'] then done
    else done ++ [segment]) []
  let open? := segments.getLast? = some ['.'] || segments.getLast? = some ['.', '.']
  let path := Text.joinWith ['/'] (if open? then resolved ++ [[]] else resolved)
  if path.head? = some '/' then path else '/' :: path

/-- A relative address as seen from another. -/
def seenFrom (base u : Url) : Url :=
  if u.toChars.isEmpty then base
  else
    let fragment := filled u.fragment
    if !u.authority.isEmpty then
      { u with
        scheme := base.scheme
        port := u.port.filter fun port => impliedPort? base.scheme ≠ some port
        query := filled u.query
        fragment }.withPath u.path
    else if u.path.isEmpty then
      { base with query := (filled u.query).or (filled base.query), fragment }
    else { base with query := filled u.query, fragment }.withPath (pathFrom base.path u.path)

/-- The address that a reply sends the client to. A location with a scheme but no host is on the
host of the page; the fragment stays unless the location has one. -/
def redirect (base u : Url) : Except Fault Url := do
  let u := if !u.scheme.isEmpty && u.host.isEmpty then { u with host := base.host } else u
  if let some fault := u.pathFault? u.path then throw fault
  let u := if u.isAbsolute then u else base.seenFrom u
  return if (filled u.fragment).isNone then
    { u with fragment := (filled base.fragment).or u.fragment }
    else u

end Url

end FrontendAudit
