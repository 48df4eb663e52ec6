import FrontendAudit.Finding.Basic
import FrontendAudit.Host
import FrontendAudit.Text.Encoding
import FrontendAudit.World

/-!
# The review service

Security reviews come from a service, which is told the repository and answers with JSON. Address
and key of the service may be set by environment variables. A user named in the address goes before
the key.
-/

namespace FrontendAudit

/-- A service that is called with JSON, and whether there is a connection to it. -/
structure Service where
  base : String
  key : Option String
  connected : Bool := true
  deriving DecidableEq, Repr, Inhabited

namespace Service

/-- The address unless set otherwise. -/
def defaultBase : String := "http://localhost:8000"

/-- The variable that sets the address. -/
def baseVariable : String := "ORCHAGENT_API_URL"

/-- The variable that sets the key. -/
def keyVariable : String := "ORCHAGENT_SERVICE_KEY"

/-- The service of an address and a key, each taken from the environment if it is not given. -/
def ofHost (host : Host) (base key : Option String := none) : Service where
  base := (nonempty? base).getD ((host.valueOf? baseVariable).getD defaultBase)
  key := (nonempty? key).or (nonempty? (host.valueOf? keyVariable))

/-- The path of an endpoint, which ends with a slash so that nothing is redirected. -/
def endpointPath (agent endpoint : String) (version : String := "v1") : String :=
  "/" ++ agent ++ "/" ++ version ++ "/" ++ endpoint ++ "/"

/-- The address of a path of the service. -/
def address (s : Service) (path : String) : Except Url.Fault Url := do
  let base ← Url.ofString s.base
  return base.behind (← Url.ofString path)

/-- What a request to an address says about who sends it: the user of the address, or the key. -/
def authorization (s : Service) (u : Url) : Option String :=
  let name := Text.Percent.decode (u.user.takeWhile (· ≠ ':'))
  let password := Text.Percent.decode ((u.user.dropWhile (· ≠ ':')).drop 1)
  if name.isEmpty && password.isEmpty then s.key.map ("Bearer " ++ ·)
  else
    some ("Basic " ++ String.ofList (Text.Base64.encode (name ++ ':'.toNat.toUInt8 :: password)))

/-- Calls an endpoint. -/
def call (s : Service) (agent endpoint : String) (payload : Json) (version : String := "v1") :
    Run Json := do
  if !s.connected then throw .notConnected
  let u ← Run.ofExcept .badAddress (s.address (endpointPath agent endpoint version))
  let request : Post :=
    { url := u.toString
      body := payload
      authorization := s.authorization u }
  match ← Run.act (World.post request) with
  | .unreachable => throw (.outside (agent ++ " call failed"))
  | .reply status _ body =>
    if !Http.isSuccess status then throw (.outside (agent ++ " call failed"))
    match body.data? with
    | some v => return v
    | none => throw (.outside (agent ++ " returned invalid JSON"))

/-- Asks for the review of a repository. -/
def review (s : Service) (repository : String) (mode : String := "full") : Run Json :=
  s.call "security-review" "review"
    (.obj [("repo_url", .str repository), ("scan_mode", .str mode)])

end Service

end FrontendAudit
