import FrontendAudit.Json.Printer
import FrontendAudit.Json.Reader

/-!
# Answers of servers

A server that is reached replies with a status, a body and perhaps another location. Only a status
between 200 and 299 is a success.
-/

namespace FrontendAudit.Http

/-- The body of a reply. -/
inductive Body where
  | json (v : Json)
  | text (s : String)
  deriving Repr, Inhabited

namespace Body

/-- The body as text; nothing for null. -/
def toText : Body → String
  | json .null => ""
  | json v => v.compact
  | text s => s

/-- The body as data, if it is JSON; a mark of the byte order in front of it does not count. -/
def data? : Body → Option Json
  | json .null => none
  | json v => some v
  | text s =>
    match s.toList with
    | '\ufeff' :: s => Json.parse? s
    | s => Json.parse? s

end Body

/-- What comes of a request. -/
inductive Answer where
  | unreachable
  | reply (status : Int) (location : Option String) (body : Body)
  deriving Repr, Inhabited

/-- Whether a status is one of success. -/
def isSuccess (status : Int) : Bool := 200 ≤ status && status < 300

/-- Whether a status sends the client to another location. -/
def isRedirect (status : Int) : Bool := [301, 302, 303, 307, 308].contains status

end FrontendAudit.Http
