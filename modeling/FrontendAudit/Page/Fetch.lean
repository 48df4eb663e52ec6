import FrontendAudit.Page.Check
import FrontendAudit.World

/-!
# Fetching pages

A page is fetched from its address; a reply may send the client on to another address, a limited
number of times. Pages that cannot be fetched are skipped with a warning, and the others are checked
in order; what is no address at all ends the run.
-/

namespace FrontendAudit.Page

/-- How often a client may be sent on. -/
def redirectLimit : Nat := 20

/-- The text that comes of following an address, sent on a limited number of times. -/
def follow : Nat → Url → Run (Option (List Char))
  | fuel, url => do
    match ← Run.act (World.fetch url.toString) with
    | .unreachable => return none
    | .reply status location body =>
      match location, Http.isRedirect status with
      | some location, true =>
        match fuel with
        | 0 => return none
        | fuel + 1 =>
          match Url.ofString location with
          | .error _ => return none
          | .ok u => follow fuel (← Run.ofExcept .badAddress (url.redirect u))
      | _, _ => return if Http.isSuccess status then some body.toText.toList else none

/-- The text of a page. -/
def fetch (address : String) : Run (List Char) := do
  let url ← Run.ofExcept .badAddress (Url.ofString address)
  match ← follow redirectLimit (Url.behind {} url) with
  | some text => return text
  | none => throw (.outside ("Could not fetch " ++ address))

/-- What is found on the page of an address. -/
def fetchedFindings (policy : RetryPolicy) (address : String) : Run (List Finding) := do
  match ← Run.retry policy ("Fetching " ++ address) (fetch address) with
  | none =>
    Run.note (.warning ("Skipping " ++ address ++ ": page could not be fetched"))
    return []
  | some text =>
    Run.ofExcept .misfit (Finding.acceptAll (findings address text)).toExcept

/-- What is found on the pages of some addresses, in order. -/
def checkAll (policy : RetryPolicy) : List String → Run (List Finding)
  | [] => return []
  | address :: addresses => do
    let found ← fetchedFindings policy address
    return found ++ (← checkAll policy addresses)

end FrontendAudit.Page
