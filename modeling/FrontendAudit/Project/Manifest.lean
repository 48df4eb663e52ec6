import FrontendAudit.Json.Misfit
import FrontendAudit.Rule.Performance.Asset

/-!
# Package manifests

A manifest declares packages in two sections. A section that says nothing counts as empty.
-/

namespace FrontendAudit.Manifest

/-- The names of the packages that a manifest declares. -/
def declaredPackages (manifest : Json) : Except Misfit (List String) := do
  let dependencies ← manifest.memberOrNull "dependencies"
  let development ← manifest.memberOrNull "devDependencies"
  let dependencies ← dependencies.entries
  let development ← development.entries
  return (dependencies ++ development).map (·.1)

/-- The heavy packages that a manifest declares. -/
def heavyDependencies (manifest : Json) : Except Misfit (List Finding) :=
  (declaredPackages manifest).map Performance.heavyDependencies

end FrontendAudit.Manifest
