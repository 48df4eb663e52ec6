import FrontendAudit.Gate.Evaluation
import FrontendAudit.Proofs.Security.Review
import FrontendAudit.Proofs.Summary

/-!
# What the gate sees of a review

Findings of a review that have the same key are one issue, with the severity of the first of them.
So the gate sees a high entry just when no credible entry before it has its key and a lower severity
(`high_counted_iff`). A dependency that is named twice, first as low and then as high, passes
(`high_entry_not_counted`).
-/

namespace FrontendAudit

/-! ## The gate -/

theorem GateReport.isSome_excess?_iff {results : Results} {category : String}
    {result : AuditResult} (h : Json.lookup? category results = some result) :
    (excess? results (category, 0)).isSome = true ↔ 1 ≤ result.counts.high := by
  simp only [excess?, h]
  by_cases hhigh : 0 < result.counts.high
  · rw [if_pos hhigh]
    exact iff_of_true rfl hhigh
  · rw [if_neg hhigh]
    exact iff_of_false Bool.false_ne_true hhigh

/-- A category in excess of its threshold fails the gate. -/
theorem GateReport.fails_of_excess {results : Results} {config : GateConfig} {platform : String}
    {threshold : String × Int} (hthreshold : threshold ∈ config.thresholds)
    (hexcess : (excess? results threshold).isSome = true) :
    threshold.1 ∈ (evaluate results config platform).failures ∧
      (evaluate results config platform).passed = false := by
  have hmem : threshold.1 ∈ failuresOf results config.thresholds :=
    List.mem_map.mpr ⟨threshold, List.mem_filter.mpr ⟨hthreshold, hexcess⟩, rfl⟩
  refine ⟨hmem, ?_⟩
  show (failuresOf results config.thresholds).isEmpty = false
  cases hfailures : failuresOf results config.thresholds with
  | nil =>
      rw [hfailures] at hmem
      cases hmem
  | cons failure failures => rfl

namespace Review

/-- Some high entry has no credible entry before it with its key and a lower severity. -/
def HighStands (review : Json) : Prop :=
  ∃ before e after, credible review = before ++ e :: after ∧ e.1.severity e.2 = .high ∧
    ∀ e' ∈ before, (e'.1.finding e'.2).key = (e.1.finding e.2).key → e'.1.severity e'.2 = .high

/-- A result of all findings of a review has a high issue just when some high entry stands. -/
theorem one_le_high_iff (review : Json) (now : String) :
    1 ≤ (summarize now ((credible review).map fun e => e.1.finding e.2)).counts.high ↔
      HighStands review := by
  rw [one_le_high_summarize_iff]
  constructor
  · rintro ⟨before, f, after, heq, hhigh, hbefore⟩
    obtain ⟨front, back, hsplit, rfl, hback⟩ := List.map_eq_append_iff.mp heq
    obtain ⟨e, rest, rfl, rfl, -⟩ := List.map_eq_cons_iff.mp hback
    exact ⟨front, e, rest, hsplit, hhigh, fun e' he' => hbefore _ (List.mem_map_of_mem he')⟩
  · rintro ⟨before, e, after, heq, hhigh, hbefore⟩
    refine ⟨before.map fun e => e.1.finding e.2, e.1.finding e.2,
      after.map fun e => e.1.finding e.2, ?_, hhigh, ?_⟩
    · rw [heq, List.map_append, List.map_cons]
    · intro g hg hkey
      obtain ⟨e', he', rfl⟩ := List.mem_map.mp hg
      exact hbefore e' he' hkey

/-- A well-formed review can be read, one finding for each credible entry. If none of them is
dropped, the result counts a high issue just when some high entry stands, and then the gate fails
where the threshold of security is zero. -/
theorem high_counted_iff (review : Json) (hwf : WellFormed review) :
    ∃ fs, findings review = .ok fs ∧ fs.length = (credible review).length ∧
      ∀ (limit : Nat) (now : String), fs.length ≤ limit →
        (1 ≤ (summarize now (fs.take limit)).counts.high ↔ HighStands review) ∧
        ∀ (results : Results) (config : GateConfig) (platform : String),
          Json.lookup? "security" results = some (summarize now (fs.take limit)) →
          ((GateReport.excess? results ("security", 0)).isSome = true ↔ HighStands review) ∧
          (("security", 0) ∈ config.thresholds → HighStands review →
            "security" ∈ (GateReport.evaluate results config platform).failures ∧
              (GateReport.evaluate results config platform).passed = false) := by
  refine ⟨_, findings_eq hwf, List.length_map _, ?_⟩
  intro limit now hlimit
  rw [List.take_of_length_le hlimit]
  refine ⟨one_le_high_iff review now, ?_⟩
  intro results config platform hresult
  have hexcess : (GateReport.excess? results ("security", 0)).isSome = true ↔
      HighStands review := by
    rw [GateReport.isSome_excess?_iff hresult, one_le_high_iff]
  exact ⟨hexcess, fun hthreshold hstands =>
    GateReport.fails_of_excess hthreshold (hexcess.mpr hstands)⟩

/-- A review that names one dependency again and again, with these severities. -/
def dependencyReview (severities : List String) : Json :=
  .obj [("findings", .obj [("dependencies", .arr (severities.map fun severity =>
    .obj [("package", .str "lodash"), ("version", .str "4.17.15"), ("severity", .str severity)]))])]

theorem wellFormed_dependencyReview (severities : List String) :
    WellFormed (dependencyReview severities) := by
  have hothers : ∀ o ∈ origins, o = .dependency ∨
      (groupsIn (dependencyReview severities)).get? o.group = none := by
    intro o ho
    simp only [origins, patternGroups, List.map_cons, List.map_nil, List.mem_cons,
      List.not_mem_nil, or_false] at ho
    rcases ho with rfl | rfl | rfl | rfl | rfl
    · exact .inr rfl
    · exact .inl rfl
    · exact .inr rfl
    · exact .inr rfl
    · exact .inr rfl
  constructor
  · exact .inr ⟨_, rfl⟩
  · exact ⟨_, rfl⟩
  · intro o ho
    rcases hothers o ho with rfl | hnone
    · exact .inr ⟨_, rfl⟩
    · exact .inl hnone
  · intro o ho entry hentry
    rcases hothers o ho with rfl | hnone
    · obtain ⟨severity, -, rfl⟩ := List.mem_map.mp hentry
      refine ⟨⟨_, rfl⟩, ?_, fun hne => absurd rfl hne, fun _ hgroup => Origin.noConfusion hgroup⟩
      intro key hkey
      simp only [Origin.texts, List.mem_cons, List.not_mem_nil, or_false] at hkey
      rcases hkey with rfl | rfl
      · exact .inl rfl
      · exact .inl rfl
    · rw [entriesOf, hnone] at hentry
      cases hentry

/-- Named as high first and then as low, the dependency is counted. -/
theorem high_counted_iff_highFirst :
    ∃ fs, findings (dependencyReview ["critical", "low"]) = .ok fs ∧ fs.length = 2 ∧
      1 ≤ (summarize "now" (fs.take 2)).counts.high := by
  obtain ⟨fs, hfs, hlength, h⟩ :=
    high_counted_iff (dependencyReview ["critical", "low"]) (wellFormed_dependencyReview _)
  refine ⟨fs, hfs, hlength, (h 2 "now" (Nat.le_of_eq hlength)).1.mpr ?_⟩
  exact ⟨[], _, _, rfl, by decide, fun _ h => by cases h⟩

/-- Named as low first and then as high, the dependency is not, although an entry of the review is
high; the gate is passed. -/
theorem high_entry_not_counted :
    WellFormed (dependencyReview ["low", "critical"]) ∧
      (∃ e ∈ credible (dependencyReview ["low", "critical"]), e.1.severity e.2 = .high) ∧
      ∃ fs, findings (dependencyReview ["low", "critical"]) = .ok fs ∧ fs.length = 2 ∧
        (summarize "now" (fs.take 2)).counts.high = 0 ∧
        (GateReport.evaluate [("security", summarize "now" (fs.take 2))] .default "local").passed =
          true := by
  refine ⟨wellFormed_dependencyReview _, ⟨_, List.mem_cons_of_mem _ List.mem_cons_self, by decide⟩,
    _, findings_eq (wellFormed_dependencyReview _), rfl, ?_, ?_⟩
  · decide
  · decide

end Review

end FrontendAudit
