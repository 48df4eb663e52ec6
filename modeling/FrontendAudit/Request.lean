import FrontendAudit.Disk.Category
import FrontendAudit.Finding.Basic
import FrontendAudit.Path
import FrontendAudit.Validation.Scalar

/-!
# Requests

A request says what is audited, a directory or a repository, and how: which categories, which pages,
where reports go. Everything but the categories is off or absent unless it is given.
-/

namespace FrontendAudit

/-- What is asked for. -/
structure Request where
  path : Option String := none
  repository : Option String := none
  projectKind : Option String := none
  categories : List Category := [.accessibility]
  urls : List String := []
  batchSize : Option Nat := none
  reportDir : Option String := none
  recommendedRules : Bool := false
  gate : Bool := false
  deriving DecidableEq, Repr, Inhabited

/-- Reads the name of a category. -/
def Category.check : Json → Checked Category
  | .str s =>
    match ofName? s with
    | some c => .ok c
    | none => Checked.reject .notLiteral
  | _ => Checked.reject .notLiteral

namespace Request

open Checked (field text optional list boolean positive record)

/-- The members of a request. -/
def keys : List String :=
  ["path", "repo_url", "project_type", "categories", "urls", "batch_size", "report_dir",
    "recommended_rules", "ci"]

/-- Reads a request. -/
def check : Json → Checked Request :=
  record fun ms =>
    Request.mk
      <$> field ["path"] (some none) (optional text) ms
      <*> field ["repo_url"] (some none) (optional text) ms
      <*> field ["project_type"] (some none) (optional text) ms
      <*> field ["categories"] (some [.accessibility]) (list Category.check) ms
      <*> field ["urls"] (some []) (list text) ms
      <*> field ["batch_size"] (some none) (optional positive) ms
      <*> field ["report_dir"] (some none) (optional text) ms
      <*> field ["recommended_rules"] (some false) boolean ms
      <*> field ["ci"] (some false) boolean ms

/-- The categories that are asked for, each once, in the order in which they are first named. -/
def distinctCategories (r : Request) : List Category := r.categories.eraseDups

/-- The directory for reports, if there are to be any. -/
def reportPath (r : Request) : Option Path := (nonempty? r.reportDir).map Path.ofString

end Request

end FrontendAudit
