import FrontendAudit.Gate.Format
import FrontendAudit.Proofs.Summary
import FrontendAudit.Validation.Basic

/-!
# What the outputs count

A result is counted once, when it is made, and its counts are shown in several places: in the
suites, where the cases and failures can be counted again, in the results for static analysis, where
the errors can, and in the counts of all categories together. They agree when every result was made
from findings that have a location (`outputs_agree`): each issue is one case and one result, each
high issue one failure and one error, and each result names the place of its issue.
-/

namespace FrontendAudit

/-! ## Reading the outputs -/

/-- The part of a value that a path leads to. -/
def Json.at? : List Step → Json → Option Json
  | [], v => some v
  | .key name :: path, v => (v.get? name).bind (Json.at? path)
  | .index i :: path, .arr items => items[i]?.bind (Json.at? path)
  | .index _ :: _, _ => none

namespace Xml.Element

/-- The name of an element. -/
def name : Element → String
  | .mk name _ _ _ => name

/-- The value of an attribute. -/
def attribute? (key : String) : Element → Option String
  | .mk _ attributes _ _ => Json.lookup? key attributes

/-- The children of a name. -/
def childrenNamed (name : String) : Element → List Element
  | .mk _ _ _ children => children.filter (·.name = name)

end Xml.Element

namespace Junit

/-- A suite tells of a result: it has a case for each issue and a failure for each high issue, and
says how many there are. -/
structure Shows (category : String) (r : AuditResult) (suite : Xml.Element) : Prop where
  name : suite.attribute? "name" = some category
  tests : suite.attribute? "tests" = some (toString r.counts.total)
  failures : suite.attribute? "failures" = some (toString r.counts.high)
  cases : (suite.childrenNamed "testcase").length = r.counts.total
  failed : ((suite.childrenNamed "testcase").flatMap (·.childrenNamed "failure")).length =
    r.counts.high

end Junit

namespace Sarif

/-- Where the results of all categories stand. -/
def resultsPath : List Step := [.key "runs", .index 0, .key "results"]

/-- Where a result says in what file the issue is, and where in the file. -/
def placePath : List Step := [.key "locations", .index 0, .key "physicalLocation"]

/-- Whether a result is an error. -/
def isError (result : Json) : Bool :=
  match result.at? [.key "level"] with
  | some (.str level) => level = "error"
  | _ => false

/-- A result tells of an issue: it is an error when the issue is high, names the place that the
issue has, and has a region when the issue has a line that is not zero. -/
structure Shows (category : String) (f : Finding) (result : Json) : Prop where
  rule : result.at? [.key "ruleId"] =
    some (.str (category ++ "-" ++ (nonempty? f.rule).getD f.kind))
  error : isError result = true ↔ f.severity = .high
  message : result.at? [.key "message", .key "text"] = some (.str f.message)
  place : ∃ place, f.location? = some place ∧
    result.at? (placePath ++ [.key "artifactLocation", .key "uri"]) = some (.str place)
  region : (result.at? (placePath ++ [.key "region"])).isSome = true ↔ ∃ n, f.line = some n ∧ n ≠ 0

/-- Results tell of the issues of a category, one of each in order, with an error for each high
issue. -/
structure ShowAll (category : String) (r : AuditResult) (results : List Json) : Prop where
  each : List.Forall₂ (Shows category) r.issues results
  errors : results.countP isError = r.counts.high

end Sarif

/-! ## Results and their issues -/

/-- A result counts its issues, each of which has a location. -/
structure AuditResult.Tallied (r : AuditResult) : Prop where
  counts : r.counts = .ofFindings r.issues
  located : ∀ f ∈ r.issues, f.location?.isSome = true

theorem tallied_summarize {now : String} {findings : List Finding} {time : Option String}
    (h : ∀ f ∈ findings, f.location?.isSome = true) : (summarize now findings time).Tallied where
  counts := rfl
  located := by
    intro f hf
    obtain ⟨before, after, rfl, -⟩ := mem_dedupe_iff.mp hf
    exact h f (List.mem_append_right _ List.mem_cons_self)

namespace AuditResult.Tallied

variable {r : AuditResult}

theorem total (h : r.Tallied) :
    r.counts.total = r.counts.high + r.counts.medium + r.counts.low := by
  rw [h.counts]
  rfl

theorem total_eq_length (h : r.Tallied) : r.counts.total = r.issues.length := by
  rw [h.counts, Counts.total_ofFindings]

theorem high (h : r.Tallied) : r.counts.high = r.issues.countP (·.severity = .high) := by
  rw [h.counts]
  rfl

end AuditResult.Tallied

/-- The columns of all categories together add up, as each row does. -/
theorem mergeCounts_total {results : Results}
    (h : ∀ r ∈ results, r.2.counts.total = r.2.counts.high + r.2.counts.medium + r.2.counts.low) :
    (mergeCounts results).total =
      (mergeCounts results).high + (mergeCounts results).medium + (mergeCounts results).low := by
  rw [mergeCounts_eq]
  induction results with
  | nil => rfl
  | cons r results ih =>
      rw [List.forall_mem_cons] at h
      have hfirst := h.1
      have hrest := ih h.2
      simp only [List.map_cons, List.sum_cons] at hrest ⊢
      omega

/-! ## The suites -/

namespace Junit

theorem childrenNamed_testCase (category : String) (f : Finding) :
    (testCase category f).childrenNamed "failure" = failures f := by
  unfold testCase failures
  by_cases hhigh : f.severity = .high
  · simp [hhigh, Xml.Element.childrenNamed, Xml.Element.name]
  · simp [hhigh, Xml.Element.childrenNamed]

theorem childrenNamed_suite (category : String) (r : AuditResult) :
    (suite category r).childrenNamed "testcase" = r.issues.map (testCase category) := by
  refine List.filter_eq_self.mpr ?_
  intro e he
  obtain ⟨f, -, rfl⟩ := List.mem_map.mp he
  rfl

theorem childrenNamed_suites (results : Results) (timestamp : String) :
    (suites results timestamp).childrenNamed "testsuite" =
      results.map fun r => suite r.1 r.2 := by
  refine List.filter_eq_self.mpr ?_
  intro e he
  obtain ⟨r, -, rfl⟩ := List.mem_map.mp he
  rfl

/-- Each high issue is one failure. -/
theorem length_failures (category : String) (issues : List Finding) :
    ((issues.map (testCase category)).flatMap (·.childrenNamed "failure")).length =
      issues.countP (·.severity = .high) := by
  induction issues with
  | nil => rfl
  | cons f issues ih =>
      rw [List.map_cons, List.flatMap_cons, List.length_append, ih, childrenNamed_testCase,
        List.countP_cons, failures]
      by_cases hhigh : f.severity = .high
      · simp [hhigh, Nat.add_comm]
      · simp [hhigh]

theorem shows_suite (category : String) {r : AuditResult} (h : r.Tallied) :
    Shows category r (suite category r) where
  name := rfl
  tests := rfl
  failures := rfl
  cases := by rw [childrenNamed_suite, List.length_map, h.total_eq_length]
  failed := by rw [childrenNamed_suite, length_failures, h.high]

end Junit

/-! ## The results for static analysis -/

namespace Sarif

theorem isError_result (category : String) (f : Finding) :
    isError (result category f) = true ↔ f.severity = .high := by
  have hlevel : (result category f).at? [.key "level"] = some (.str (level f.severity)) := rfl
  rw [isError, hlevel]
  cases f.severity <;> decide

theorem shows_result (category : String) {f : Finding} (h : f.location?.isSome = true) :
    Shows category f (result category f) where
  rule := rfl
  error := isError_result category f
  message := rfl
  place := by
    obtain ⟨place, hplace⟩ := Option.isSome_iff_exists.mp h
    refine ⟨place, hplace, ?_⟩
    have huri : (result category f).at? (placePath ++ [.key "artifactLocation", .key "uri"]) =
        some (.str (f.location?.getD "unknown")) := rfl
    rw [huri, hplace]
    rfl
  region := by
    have hregion : (result category f).at? (placePath ++ [.key "region"]) =
        (Json.lookup? "region" (region f)).bind some := rfl
    rw [hregion]
    unfold region
    cases f.line with
    | none => simp [Json.lookup?]
    | some n =>
        by_cases hzero : n = 0
        · simp [hzero, Json.lookup?]
        · simp [hzero, Json.lookup?]

/-- Each high issue is one error. -/
theorem countP_isError (category : String) (issues : List Finding) :
    (issues.map (result category)).countP isError = issues.countP (·.severity = .high) := by
  rw [List.countP_map]
  refine List.countP_congr ?_
  intro f _
  rw [Function.comp_apply, isError_result, decide_eq_true_eq]

theorem showAll_result (category : String) {r : AuditResult} (h : r.Tallied) :
    ShowAll category r (r.issues.map (result category)) where
  each := by
    rw [List.forall₂_map_right_iff, List.forall₂_same]
    intro f hf
    exact shows_result category (h.located f hf)
  errors := by rw [countP_isError, h.high]

end Sarif

/-! ## All outputs -/

/-- When every result was made from findings that have a location, then all outputs agree. Each
result has as many issues as its findings have keys, and counts them all. The suites tell of the
results in order; the results for static analysis tell of the issues of all categories in order, one
for each, with as many errors in a category as it has high issues; and the counts of all categories
are sums. -/
theorem outputs_agree (results : Results) (timestamp : String)
    (hmade : ∀ r ∈ results, ∃ now findings time, r.2 = summarize now findings time ∧
      ∀ f ∈ findings, f.location?.isSome = true) :
    (∀ r ∈ results, r.2.counts.total = r.2.counts.high + r.2.counts.medium + r.2.counts.low ∧
      r.2.counts.total = r.2.issues.length ∧
      ∀ now findings time, r.2 = summarize now findings time →
        r.2.counts.total = (findings.map Finding.key).toFinset.card) ∧
    List.Forall₂ (fun r suite => Junit.Shows r.1 r.2 suite) results
      ((Junit.suites results timestamp).childrenNamed "testsuite") ∧
    (∃ chunks : List (List Json),
      (Sarif.log results).at? Sarif.resultsPath = some (.arr chunks.flatten) ∧
      List.Forall₂ (fun r chunk => Sarif.ShowAll r.1 r.2 chunk) results chunks) ∧
    mergeCounts results =
      { high := (results.map (·.2.counts.high)).sum
        medium := (results.map (·.2.counts.medium)).sum
        low := (results.map (·.2.counts.low)).sum
        total := (results.map (·.2.counts.total)).sum } ∧
    (mergeCounts results).total =
      (mergeCounts results).high + (mergeCounts results).medium + (mergeCounts results).low := by
  have htallied : ∀ r ∈ results, r.2.Tallied := by
    intro r hr
    obtain ⟨now, findings, time, heq, hlocated⟩ := hmade r hr
    rw [heq]
    exact tallied_summarize hlocated
  refine ⟨?_, ?_, ?_, mergeCounts_eq results, mergeCounts_total fun r hr => (htallied r hr).total⟩
  · intro r hr
    refine ⟨(htallied r hr).total, (htallied r hr).total_eq_length, ?_⟩
    intro now findings time heq
    rw [(htallied r hr).total_eq_length, heq]
    exact congrArg Nat.cast (length_dedupe findings)
  · rw [Junit.childrenNamed_suites, List.forall₂_map_right_iff, List.forall₂_same]
    intro r hr
    exact Junit.shows_suite r.1 (htallied r hr)
  · refine ⟨results.map fun r => r.2.issues.map (Sarif.result r.1), rfl, ?_⟩
    rw [List.forall₂_map_right_iff, List.forall₂_same]
    intro r hr
    exact Sarif.showAll_result r.1 (htallied r hr)

/-- Two categories: an issue found twice, once high and once low, one without a line, and one on
line zero of a page. -/
def twoCategories : Results :=
  [("accessibility", summarize "t" [
      { kind := "missing_alt", severity := .high, message := "m", file := some "a.html",
        line := some 4 },
      { kind := "missing_alt", severity := .low, message := "m", file := some "a.html",
        line := some 4 },
      { kind := "missing_landmark", severity := .medium, message := "n", file := some "unknown" }]),
    ("security", summarize "t" [
      { kind := "exposed_secret", severity := .high, message := "o",
        url := some "https://site.test/"
        line := some 0 }] (some "earlier"))]

/-- Of the four findings three are issues, two of them high. -/
theorem outputs_agree_twoCategories :
    (∀ r ∈ twoCategories, ∃ now findings time, r.2 = summarize now findings time ∧
      ∀ f ∈ findings, f.location?.isSome = true) ∧
    mergeCounts twoCategories = { high := 2, medium := 1, low := 0, total := 3 } ∧
    (∃ first second, (Junit.suites twoCategories "t").childrenNamed "testsuite" = [first, second] ∧
      first.attribute? "tests" = some "2" ∧ first.attribute? "failures" = some "1" ∧
      (first.childrenNamed "testcase").length = 2 ∧ (second.childrenNamed "testcase").length = 1) ∧
    ∃ first second,
      (Sarif.log twoCategories).at? Sarif.resultsPath = some (.arr (first ++ second)) ∧
      first.countP Sarif.isError = 1 ∧ second.countP Sarif.isError = 1 := by
  have hmade : ∀ r ∈ twoCategories, ∃ now findings time, r.2 = summarize now findings time ∧
      ∀ f ∈ findings, f.location?.isSome = true := by
    intro r hr
    simp only [twoCategories, List.mem_cons, List.not_mem_nil, or_false] at hr
    rcases hr with rfl | rfl
    · exact ⟨_, _, none, rfl, by decide⟩
    · exact ⟨_, _, some "earlier", rfl, by decide⟩
  obtain ⟨-, hsuites, ⟨chunks, hresults, hchunks⟩, hmerged, -⟩ :=
    outputs_agree twoCategories "t" hmade
  refine ⟨hmade, hmerged.trans (by decide), ?_, ?_⟩
  · obtain ⟨first, rest, hfirst, hrest, hall⟩ := List.forall₂_cons_left_iff.mp hsuites
    obtain ⟨second, rest, hsecond, hnil, rfl⟩ := List.forall₂_cons_left_iff.mp hrest
    obtain rfl := List.forall₂_nil_left_iff.mp hnil
    refine ⟨first, second, hall, hfirst.tests, hfirst.failures, ?_, ?_⟩
    · exact Int.ofNat_inj.mp hfirst.cases
    · exact Int.ofNat_inj.mp hsecond.cases
  · obtain ⟨first, rest, hfirst, hrest, rfl⟩ := List.forall₂_cons_left_iff.mp hchunks
    obtain ⟨second, rest, hsecond, hnil, rfl⟩ := List.forall₂_cons_left_iff.mp hrest
    obtain rfl := List.forall₂_nil_left_iff.mp hnil
    refine ⟨first, second, by simpa using hresults, ?_, ?_⟩
    · exact Int.ofNat_inj.mp hfirst.errors
    · exact Int.ofNat_inj.mp hsecond.errors

end FrontendAudit
