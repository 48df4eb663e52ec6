import FrontendAudit.Finding.Basic
import FrontendAudit.Host

/-!
# Integration platforms

A platform makes itself known by an environment variable: some by the value "true", the others by
any value that is not empty.
-/

namespace FrontendAudit

/-- Where a run takes place. -/
inductive Platform where
  | githubActions
  | gitlab
  | jenkins
  | circle
  | travis
  | here
  deriving DecidableEq, Repr, Inhabited

namespace Platform

/-- The name of a platform. -/
def name : Platform → String
  | githubActions => "github-actions"
  | gitlab => "gitlab-ci"
  | jenkins => "jenkins"
  | circle => "circleci"
  | travis => "travis"
  | here => "local"

/-- The platform that the environment tells of, the first in order if there are several. -/
def ofHost (host : Host) : Platform :=
  let isTrue (key : String) : Bool := host.valueOf? key = some "true"
  let isSet (key : String) : Bool := (nonempty? (host.valueOf? key)).isSome
  if isTrue "GITHUB_ACTIONS" then githubActions
  else if isTrue "GITLAB_CI" then gitlab
  else if isSet "JENKINS_URL" then jenkins
  else if isSet "CIRCLECI" then circle
  else if isSet "TRAVIS" then travis
  else here

end Platform

end FrontendAudit
