import FrontendAudit.Proofs.Audit.Beside
import FrontendAudit.Proofs.Disk.Differing

/-!
# Audits whose reports are refused

A volume may refuse a report that another one takes. An audit that looks at no such report, written
by an audit before it, comes to the same result in both, or fails in the same way
(`Audit.run_refused`), and its own report is one more in which the volumes may differ. A report is
written exactly when the volume took it from the start (`Audit.report_of_run`).
-/

namespace FrontendAudit

open Disk (Volume Tree)

namespace AuditSetup

/-- The place of the report of a category, if there is to be one. -/
def reportPlaces (s : AuditSetup) (category : Category) : List (List String) :=
  ((s.reportFile? category.name).map s.host.locate).toList

/-- Streams and reports of some categories are written in some places. -/
structure WritesTo (s : AuditSetup) (places : List (List String))
    (categories : List Category) : Prop where
  apart : Disk.Apart places
  stream : ∀ category ∈ categories, ∀ path, s.streamFile? category.name = some path →
    s.host.locate path ∈ places
  report : ∀ category ∈ categories, ∀ place ∈ s.reportPlaces category, place ∈ places

/-- Two volumes have the same files, and both take the streams of some categories or both refuse
them. Streams and reports are written in places where nothing is read by its name. -/
structure Refusing (s : AuditSetup) (v₀ v₀' : Volume) (entries : List (String × Tree))
    (places : List (List String)) (categories : List Category) : Prop where
  resolved : ∃ p : Path, s.project = p.resolve s.host.cwd
  holds : s.Holds entries v₀
  tree : v₀'.tree = v₀.tree
  named : ∀ names ∈ (Tree.dir entries).paths, ∀ name ∈ names, IsFileName name
  placed : ∀ names, s.project.parts ++ names ∈ places → ∀ name ∈ names, IsFileName name
  unread : ∀ name ∈ [Disk.ignoreFileName, "package.json"], s.project.parts ++ [name] ∉ places
  writes : s.WritesTo places categories
  streams : ∀ category ∈ categories, ∀ path, s.streamFile? category.name = some path →
    v₀'.refuses (s.host.locate path) = v₀.refuses (s.host.locate path)

/-- A category looks at none of the places of reports. -/
def Unseen (s : AuditSetup) (entries : List (String × Tree)) (reports : List (List String))
    (category : Category) : Prop :=
  ∀ names, names ≠ [] → s.project.parts ++ names ∈ reports →
    ¬ category.LooksAt s.config (.dir entries) names

theorem Unseen.append {s : AuditSetup} {entries : List (String × Tree)}
    {reports more : List (List String)} {category : Category}
    (h : s.Unseen entries reports category) (hmore : s.Unseen entries more category) :
    s.Unseen entries (reports ++ more) category := by
  intro names hne hplace
  rcases List.mem_append.mp hplace with hplace | hplace
  · exact h names hne hplace
  · exact hmore names hne hplace

theorem mem_reportPlaces {s : AuditSetup} {category : Category} {path : Path}
    (h : s.reportFile? category.name = some path) :
    s.host.locate path ∈ s.reportPlaces category := by
  rw [reportPlaces, h]
  exact List.mem_singleton.mpr rfl

/-- All that is written goes to the places. -/
theorem WritesTo.keptByWrites {s : AuditSetup} {places : List (List String)}
    {categories : List Category} {category : Category} (h : s.WritesTo places categories)
    (hcategory : category ∈ categories) (v₀ : Volume) :
    s.KeptByWrites category (v₀.Filled places) := by
  intro path hpath v d hfilled
  refine hfilled.getD ?_ d
  rcases hpath with hpath | hpath
  · exact h.stream category hcategory path hpath
  · exact h.report category hcategory _ (mem_reportPlaces hpath)

namespace Refusing

variable {s : AuditSetup} {v₀ v₀' : Volume} {entries : List (String × Tree)}
  {places reports : List (List String)} {categories : List Category} {category : Category}

/-- What was written in the project has names that files may have, as what was there before. -/
theorem named_of_filled (h : s.Refusing v₀ v₀' entries places categories) {v : Volume}
    (hfilled : v₀.Filled places v) {entries' : List (String × Tree)} (hholds : s.Holds entries' v) :
    ∀ names ∈ (Tree.dir entries').paths, ∀ name ∈ names, IsFileName name := by
  intro names hnames
  rcases (hfilled.mem_paths_iff h.holds hholds names).mp hnames with hbefore | hfile
  · exact h.named names hbefore
  · by_cases hplace : s.project.parts ++ names ∈ places
    · exact h.placed names hplace
    · rw [hfilled.file?_eq hplace, ← Tree.file?_append h.holds] at hfile
      obtain ⟨d, hd⟩ := Option.isSome_iff_exists.mp hfile
      exact h.named names (Tree.mem_paths_of_file? hd)

/-- A category that looks at no report finds and reads the same in both volumes. -/
theorem sameFiles (h : s.Refusing v₀ v₀' entries places categories)
    (hreports : ∀ place ∈ reports, place ∈ places) (hunseen : s.Unseen entries reports category) :
    s.SameFiles category (Volume.SameBut v₀ v₀' places reports) := by
  have hholds' : s.Holds entries v₀' := by
    rw [Holds, h.tree]
    exact h.holds
  have hignore := h.unread _ List.mem_cons_self
  exact {
    resolved := h.resolved
    found := by
      intro v v' hv
      obtain ⟨entries₁, hat, -⟩ := hv.filled.directory h.holds
      obtain ⟨entries₁', hat', -⟩ := hv.filled'.directory hholds'
      exact ⟨entries₁, entries₁', hat, hat',
        Category.files_eq_of_sameBut hv h.tree h.holds hat hat' hignore hunseen⟩
    named := fun v v' hv _ hholds => h.named_of_filled hv.filled hholds
    read := by
      intro u u' hu entries₁ hholds names hne hlooks v v' hv
      have hpatterns := Category.ignorePatterns_of_filled hu.filled h.holds hholds hignore
      exact hv.files _ fun hmem =>
        hunseen names hne hmem ((Category.looksAt_congr hpatterns names).mp hlooks)
    manifest := by
      intro v v' hv _
      exact hv.files _ fun hmem => h.unread _ (by simp) (hreports _ hmem) }

/-- Streams are written to both volumes or to neither, and a report to whichever takes it. -/
theorem sameWrites (h : s.Refusing v₀ v₀' entries places categories)
    (hcategory : category ∈ categories) :
    s.SameWrites category (Volume.SameBut v₀ v₀' places reports)
      (Volume.SameBut v₀ v₀' places (reports ++ s.reportPlaces category)) where
  weaker v v' hv := hv.mono fun place hplace => List.mem_append_left _ hplace
  stream path hpath v v' hv d := by
    have hplace := h.writes.stream category hcategory path hpath
    exact hv.write h.tree h.writes.apart hplace (h.streams category hcategory path hpath) d
  appended path hpath v v' hv more := by
    have hplace := h.writes.stream category hcategory path hpath
    exact hv.append h.tree h.writes.apart hplace (h.streams category hcategory path hpath) more
  report path hpath v v' hv d d' := by
    have hreport := mem_reportPlaces hpath
    exact (hv.mono fun place hplace => List.mem_append_left _ hplace).write_report
      (h.writes.report category hcategory _ hreport) (List.mem_append_right _ hreport) d d'

end Refusing

end AuditSetup

namespace Audit

open AuditSetup World

variable {s : AuditSetup} {v₀ v₀' : Volume} {entries : List (String × Tree)}
  {places reports : List (List String)} {categories : List Category} {category : Category}
  {w w' : World} {a : Audit}

/-- Two runs of an audit that find the same come to the same result. -/
theorem result_eq_of_found
    (h :
      (a.run s {} w).result.map AuditResult.found = (a.run s {} w').result.map AuditResult.found) :
    (a.run s {} w).result = (a.run s {} w').result := by
  cases hresult : (a.run s {} w).result with
  | error e =>
      cases hresult' : (a.run s {} w').result with
      | error e' =>
          rw [hresult, hresult'] at h
          exact congrArg Except.error (Except.error.inj h)
      | ok result' =>
          rw [hresult, hresult'] at h
          cases h
  | ok result =>
      cases hresult' : (a.run s {} w').result with
      | error e' =>
          rw [hresult, hresult'] at h
          cases h
      | ok result' =>
          rw [hresult, hresult'] at h
          obtain ⟨-, hissues⟩ := Prod.mk.inj (Except.ok.inj h)
          rw [result_eq_of_run hresult, result_eq_of_run hresult', hissues]

/-- An audit that looks at no report comes to the same result, whatever becomes of the reports, and
adds its own to those in which the volumes differ. -/
theorem run_refused (h : s.Refusing v₀ v₀' entries places categories)
    (hcategory : category ∈ categories) (ha : a.IsOf s category)
    (hreports : ∀ place ∈ reports, place ∈ places) (hunseen : s.Unseen entries reports category)
    (hvolumes : Volume.SameBut v₀ v₀' places reports w.volume w'.volume)
    (hanswers : ∀ other, SameAnswers other w w') :
    (a.run s {} w).result = (a.run s {} w').result ∧
      Volume.SameBut v₀ v₀' places (reports ++ s.reportPlaces category)
        (a.run s {} w).world.volume (a.run s {} w').world.volume ∧
      ∀ other, SameAnswers other (a.run s {} w).world (a.run s {} w').world := by
  obtain ⟨hfound, hafter⟩ := run_beside ha ((h.sameFiles hreports hunseen).sight w w')
    (h.sameWrites hcategory) hvolumes (hanswers category)
  exact ⟨result_eq_of_found hfound, hafter.volumes, hafter.sameAnswers hanswers⟩

/-- A report is written exactly when the volume took it from the start. -/
theorem report_of_run (h : s.WritesTo places categories) (hcategory : category ∈ categories)
    (ha : a.IsOf s category) (hfilled : v₀.Filled places w.volume) :
    v₀.Filled places (a.run s {} w).world.volume ∧
      ∀ result, (a.run s {} w).result = .ok result → (a.run s {} w).state.report =
        (s.reportFile? category.name).filter (fun path => v₀.takes (s.host.locate path)) := by
  obtain ⟨hafter, -, hwritten⟩ := run_keeps (h.keptByWrites hcategory v₀) ha hfilled
  refine ⟨hafter, fun result hresult => ?_⟩
  obtain ⟨v, hv, heq⟩ := hwritten result hresult
  rw [heq]
  cases hpath : s.reportFile? category.name with
  | none => rfl
  | some path =>
      have hplace := h.report category hcategory _ (mem_reportPlaces hpath)
      have htakes : (v.write? (s.host.locate path) (.text result.toRecord.pretty)).isSome =
          v₀.takes (s.host.locate path) :=
        hv.isSome_write?_eq_takes h.apart hplace _
      simp only [Option.filter, htakes]

end Audit

end FrontendAudit
