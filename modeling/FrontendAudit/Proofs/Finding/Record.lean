import FrontendAudit.Finding.Record
import FrontendAudit.Proofs.Json.RoundTrip
import FrontendAudit.Proofs.Validation

/-!
# Records of findings

The record of a finding names each of its members once and holds texts and whole numbers only, so
that it can be read back from its text (`isExact_toRecord`). A record is read field by field, so
that it is accepted exactly when every field is (`ofMembers_eq_ok`) and there is a location
(`check_eq_ok`).
-/

namespace FrontendAudit

namespace Finding

theorem nodup_keys_fields (f : Finding) : (f.fields.map (·.1)).Nodup := by
  show ["type", "severity", "message", "file", "line", "url", "code", "context", "recommendation",
    "source", "wcag", "ruleId"].Nodup
  decide

theorem isExact_of_mem_fields (f : Finding) {m : String × Json} (h : m ∈ f.fields) :
    m.2.IsExact := by
  have htext : ∀ value : Option String, (Json.ofOption .str value).IsExact :=
    fun _ => Json.isExact_ofOption fun _ _ => trivial
  have hline : (Json.ofOption .int f.line).IsExact := Json.isExact_ofOption fun _ _ => trivial
  simp only [fields, List.mem_cons, List.not_mem_nil, or_false] at h
  rcases h with rfl | rfl | rfl | rfl | rfl | rfl | rfl | rfl | rfl | rfl | rfl | rfl
  · exact trivial
  · exact trivial
  · exact trivial
  · exact htext f.file
  · exact hline
  · exact htext f.url
  · exact htext f.code
  · exact htext f.context
  · exact htext f.recommendation
  · exact trivial
  · exact htext f.wcag
  · exact htext f.rule

/-- The record of a finding can be read back from its text. -/
theorem isExact_toRecord (f : Finding) : f.toRecord.IsExact := by
  refine ⟨?_, Json.membersExact_iff.mpr ?_⟩
  · exact f.nodup_keys_fields.sublist ((List.filter_sublist).map _)
  · intro m hm
    exact f.isExact_of_mem_fields (List.mem_filter.mp hm).1

/-! ## Reading a record -/

section

open Checked (field text optional integer)

variable {ms : List (String × Json)} {f : Finding}

/-- The fields of a record are read one by one. -/
theorem ofMembers_eq_ok : ofMembers ms = .ok f ↔
    field ["type"] none text ms = .ok f.kind ∧
    field ["severity"] none Severity.check ms = .ok f.severity ∧
    field ["message"] none text ms = .ok f.message ∧
    field ["file"] (some none) (optional text) ms = .ok f.file ∧
    field ["line"] (some none) (optional integer) ms = .ok f.line ∧
    field ["url"] (some none) (optional text) ms = .ok f.url ∧
    field ["code"] (some none) (optional text) ms = .ok f.code ∧
    field ["context"] (some none) (optional text) ms = .ok f.context ∧
    field ["recommendation"] (some none) (optional text) ms = .ok f.recommendation ∧
    field ["source"] (some "custom") text ms = .ok f.source ∧
    field ["wcag"] (some none) (optional text) ms = .ok f.wcag ∧
    field ["ruleId", "rule_id"] (some none) (optional text) ms = .ok f.rule := by
  constructor
  · intro h
    simp only [ofMembers, Checked.seq_eq_ok, Checked.map_eq_ok] at h
    obtain ⟨_, _, ⟨_, _, ⟨_, _, ⟨_, _, ⟨_, _, ⟨_, _, ⟨_, _, ⟨_, _, ⟨_, _, ⟨_, _, ⟨_, _, ⟨_,
      hkind, rfl⟩, hseverity, rfl⟩, hmessage, rfl⟩, hfile, rfl⟩, hline, rfl⟩, hurl, rfl⟩, hcode,
      rfl⟩, hcontext, rfl⟩, hrecommendation, rfl⟩, hsource, rfl⟩, hwcag, rfl⟩, hrule, rfl⟩ := h
    exact ⟨hkind, hseverity, hmessage, hfile, hline, hurl, hcode, hcontext,
      hrecommendation, hsource, hwcag, hrule⟩
  · rintro ⟨hkind, hseverity, hmessage, hfile, hline, hurl, hcode, hcontext,
      hrecommendation, hsource, hwcag, hrule⟩
    rw [ofMembers, hkind, hseverity, hmessage, hfile, hline, hurl, hcode, hcontext, hrecommendation,
      hsource, hwcag, hrule]
    rfl

/-- A record is accepted when all its fields are and it says where the finding is. -/
theorem check_eq_ok : (∃ g, check (.obj ms) = .ok g) ↔
    ∃ f, ofMembers ms = .ok f ∧ f.location?.isSome = true := by
  show (∃ g, (ofMembers ms).andThen accept = .ok g) ↔ _
  constructor
  · rintro ⟨g, hg⟩
    obtain ⟨f, hf, haccept⟩ := Checked.andThen_eq_ok.mp hg
    exact ⟨f, hf, (accept_eq_ok_iff.mp haccept).1⟩
  · rintro ⟨f, hf, hlocated⟩
    exact ⟨f.bounded, Checked.andThen_eq_ok.mpr ⟨f, hf, accept_eq_ok_iff.mpr ⟨hlocated, rfl⟩⟩⟩

end

end Finding

end FrontendAudit
