import FrontendAudit.Project.Audit
import FrontendAudit.Validation.Basic

/-!
# The web interface

Two addresses: one says that the service is up, the other takes a request and answers with the
response. A request that is not valid, a fault of the request or of the settings, and everything
else that fails have different statuses.
-/

namespace FrontendAudit.Web

/-- A call of the interface. -/
structure Call where
  method : String
  path : String
  body : Option Json
  deriving Repr, Inhabited

/-- What the interface answers. -/
structure Reply where
  status : Nat
  body : Json
  deriving Repr, Inhabited

/-- A reply that says what is wrong. -/
def refusal (status : Nat) (detail : Json) : Reply := ⟨status, .obj [("detail", detail)]⟩

/-- A reply that says what is wrong in words. -/
def refusalText (status : Nat) (text : String) : Reply := refusal status (.str text)

/-- Whether a failure is the fault of whoever asked. -/
def isCallersFault : Failure → Bool
  | .config _ | .noProject _ | .noDirectory _ | .unknownKind _ | .noLocation | .undecodable
  | .badBatchSize _ | .misfit (.invalid _) => true
  | _ => false

/-- The reply about a failure. -/
def failureReply (e : Failure) : Reply :=
  if isCallersFault e then refusalText 400 e.message
  else refusalText 500 ("Audit failed: " ++ e.message)

/-- The request in a body; issues name the body as their place. -/
def request (body : Option Json) : Checked Request :=
  match body with
  | none | some .null => .bad [⟨[.key "body"], .missing⟩]
  | some (.obj ms) => (Request.check (.obj ms)).below (.key "body")
  | some _ => .bad [⟨[.key "body"], .notRecord⟩]

/-- An issue with a request as it is written. -/
def issueRecord (e : Issue) : Json :=
  if e = ⟨[.key "body"], .notRecord⟩ then
    .obj [("loc", .arr [.str "body"]), ("type", .str "model_attributes_type")]
  else e.toRecord

/-- The answer to a request. -/
def audit (c : Project.Context) (body : Option Json) (w : World) : Reply × World :=
  match request body with
  | .bad issues => (refusal 422 (.arr (issues.map issueRecord)), w)
  | .ok r =>
    match Project.audit c r w with
    | (.error e, w) => (failureReply e, w)
    | (.ok response, w) => (⟨200, response.toRecord⟩, w)

/-- The methods that an address takes. -/
def methodOf? : String → Option String
  | "/health" => some "GET"
  | "/audit" => some "POST"
  | _ => none

/-- The answer to a call. -/
def answer (c : Project.Context) (call : Call) (w : World) : Reply × World :=
  match methodOf? call.path with
  | none => (refusalText 404 "Not Found", w)
  | some method =>
    if call.method ≠ method then (refusalText 405 "Method Not Allowed", w)
    else if call.path = "/health" then (⟨200, .obj [("status", .str "ok")]⟩, w)
    else audit c call.body w

end FrontendAudit.Web
