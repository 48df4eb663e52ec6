import FrontendAudit.Proofs.Security.Review

/-!
# One finding for each entry of a review

A well-formed review gives one finding for each dependency and for each entry of another group that
is not marked as likely no problem, in the order of the groups and then of the entries
(`findings_tell_entries`). Each says where it comes from and where it is, and has the severity that
the entry names. A severity is named by one of three words in any case, with blanks around it
(`Severity.IsNamedBy`, `Severity.Folds`).
-/

namespace FrontendAudit

namespace Severity

/-! ## Words for severities -/

/-- The words that stand for a severity. -/
def words : Severity → List String
  | .high => ["critical", "error", "high"]
  | .medium => ["moderate", "warning", "medium"]
  | .low => ["info", "note", "low"]

/-- A text names a severity: without the blanks around it and in small letters it is one of its
words. -/
def IsNamedBy (severity : Severity) (s : String) : Prop :=
  String.ofList ((Text.strip s.toList).map Char.toLower) ∈ severity.words

theorem ofName?_eq_some_iff {s : String} {severity : Severity} :
    ofName? s = some severity ↔ severity.IsNamedBy s := by
  have hword : ∀ a ∈ aliases, a.1 ∈ a.2.words := by decide
  have hfound : ∀ severity : Severity, ∀ word ∈ severity.words,
      (aliases.find? (·.1 = word)).map (·.2) = some severity := by
    intro severity
    cases severity <;> decide
  constructor
  · intro h
    obtain ⟨a, ha, rfl⟩ := Option.map_eq_some_iff.mp h
    have hfolded : a.1 = String.ofList ((Text.strip s.toList).map Char.toLower) := by
      simpa using List.find?_some ha
    rw [IsNamedBy, ← hfolded]
    exact hword a (List.mem_of_find?_eq_some ha)
  · exact hfound severity _

/-- What a severity that may be missing is taken for: a text is taken for the severity that it
names, and for the usual one if it names none. -/
inductive Folds (usual : Severity) : Option Json → Severity → Prop
  | missing {v? : Option Json} (h : (v?.getD .null).isVacant = true) : Folds usual v? usual
  | named {s : String} {severity : Severity} (h : severity.IsNamedBy s) :
      Folds usual (some (.str s)) severity
  | unknown {s : String} (h : ∀ severity : Severity, ¬ severity.IsNamedBy s) :
      Folds usual (some (.str s)) usual

theorem folds_ofAny (usual : Severity) {v? : Option Json}
    (h : (v?.getD .null).isVacant = true ∨ ∃ s, v? = some (.str s)) :
    Folds usual v? (ofAny usual (v?.getD .null)) := by
  by_cases hvacant : (v?.getD .null).isVacant = true
  · rw [ofAny, if_pos hvacant]
    exact .missing hvacant
  · obtain ⟨s, rfl⟩ := h.resolve_left hvacant
    rw [ofAny, if_neg hvacant, Option.getD_some, Json.display]
    cases hname : ofName? s with
    | some severity => exact .named (ofName?_eq_some_iff.mp hname)
    | none =>
        refine .unknown fun severity hnamed => ?_
        rw [ofName?_eq_some_iff.mpr hnamed] at hname
        cases hname

end Severity

namespace Review

/-! ## Entries that count -/

/-- An entry says itself that it is likely no problem. -/
def isMarked (entry : Json) : Bool := !((entry.get? "likely_false_positive").getD .null).isVacant

/-- The entries of a group in order, without those that are marked; of dependencies all. -/
def counted (review : Json) (o : Origin) : List (Origin × Json) :=
  ((entriesOf review o).filter fun entry => o = .dependency ∨ isMarked entry = false).map (o, ·)

theorem credible_eq (review : Json) :
    credible review =
      counted review .secret ++ counted review .dependency ++
        counted review (.pattern "frontend_security") ++ counted review (.pattern "api_security") ++
        counted review (.pattern "logging") := by
  have hcounted : ∀ o, ((entriesOf review o).filter o.counts).map (o, ·) = counted review o := by
    intro o
    refine congrArg (List.map _) (List.filter_congr fun entry _ => ?_)
    cases o <;> simp [Origin.counts, isMarked]
  simp only [credible, origins, patternGroups, hcounted, List.map_cons, List.map_nil,
    List.flatMap_cons, List.flatMap_nil, List.append_nil, List.append_assoc]

/-- A finding tells of an entry of a group: it says what the entry says and that it comes from a
review, is somewhere, and has the severity that the entry names; a secret is high and all else
medium if it names none. -/
structure Origin.ToldBy (o : Origin) (entry : Json) (f : Finding) : Prop where
  finding : f = o.finding entry
  source : f.source = "security-review"
  located : ∃ location, f.location? = some location ∧ location ≠ ""
  severity : IsTextField "severity" entry →
    Severity.Folds (if o = .secret then .high else .medium) (entry.get? "severity") f.severity

theorem Origin.file_ne_empty (o : Origin) (entry : Json) : o.file entry ≠ "" := by
  cases o with
  | dependency => exact (by decide : "package.json" ≠ "")
  | _ => exact textOf_getD_ne_empty "file" entry

theorem Origin.toldBy_finding (o : Origin) (entry : Json) : o.ToldBy entry (o.finding entry) where
  finding := rfl
  source := rfl
  located := by
    have hstated : (o.file entry).isEmpty = false := by
      simpa using o.file_ne_empty entry
    refine ⟨o.file entry, ?_, o.file_ne_empty entry⟩
    show (nonempty? (some (o.file entry))).or _ = _
    rw [nonempty?, hstated]
    rfl
  severity h := by
    have husual : o.usual = if o = .secret then .high else .medium := by
      cases o <;> rfl
    rw [← husual]
    exact Severity.folds_ofAny o.usual h

/-- A well-formed review gives one finding for each entry that counts: first the secrets, then the
dependencies, then the three groups of patterns, and those of a group in the order of its
entries. -/
theorem findings_tell_entries {review : Json} (h : WellFormed review) :
    ∃ found, findings review = .ok found ∧
      List.Forall₂ (fun (e : Origin × Json) f => e.1.ToldBy e.2 f)
        (counted review .secret ++ counted review .dependency ++
          counted review (.pattern "frontend_security") ++
            counted review (.pattern "api_security") ++
          counted review (.pattern "logging")) found := by
  refine ⟨_, findings_eq h, ?_⟩
  rw [← credible_eq, List.forall₂_map_right_iff]
  exact List.forall₂_same.mpr fun e _ => e.1.toldBy_finding e.2

/-- An entry with the number of a line, if it has one, and with texts. -/
def entryAt (line : Option Int) (texts : List (String × String)) : Json :=
  .obj (("line", Json.ofOption .int line) :: texts.map fun m => (m.1, .str m.2))

theorem get?_entryAt (line : Option Int) (texts : List (String × String)) {key : String}
    (hkey : key ≠ "line") :
    (entryAt line texts).get? key = none ∨ ∃ s, (entryAt line texts).get? key = some (.str s) := by
  have htexts : (entryAt line texts).get? key =
      ((texts.map fun m => (m.1, Json.str m.2)).find? (·.1 = key)).map (·.2) := by
    rw [entryAt, Json.get?, Json.lookup?, List.find?_cons_of_neg (by simpa using hkey.symm)]
  rw [htexts]
  cases hfound : (texts.map fun m => (m.1, Json.str m.2)).find? (·.1 = key) with
  | none => exact .inl rfl
  | some m =>
      obtain ⟨a, -, rfl⟩ := List.mem_map.mp (List.mem_of_find?_eq_some hfound)
      exact .inr ⟨a.2, rfl⟩

theorem reads_entryAt (o : Origin) (line : Option Int) (texts : List (String × String)) :
    o.Reads (entryAt line texts) where
  object := ⟨_, rfl⟩
  texts key hkey := by
    have hother : key ≠ "line" := by
      rintro rfl
      cases o <;> simp [Origin.texts] at hkey
    exact (get?_entryAt line texts hother).imp_left fun hnone => by rw [hnone]; rfl
  line _ := by
    cases line with
    | none => exact .inl rfl
    | some n => exact .inr ⟨n, rfl⟩
  pattern _ _ := get?_entryAt line texts (by decide)

/-- A review with entries in four groups, of which one is marked, two name no severity that is
known, and one names its line as zero. -/
def fourGroups : Json :=
  .obj [("findings", .obj
    [("logging", .arr [entryAt none [("severity", "severe")]]),
     ("secrets", .arr
       [entryAt (some 4) [("type", "token"), ("file", "a.js"), ("severity", " Critical\n")],
        entryAt none [("likely_false_positive", "yes")],
        entryAt (some 0) [("preview", "k")]]),
     ("frontend_security", .arr [entryAt (some 3) [("pattern", "eval"), ("severity", "note")]]),
     ("dependencies", .arr
       [entryAt none [("package", "lodash"), ("likely_false_positive", "yes"),
         ("severity", "ERROR")]])])]

theorem wellFormed_fourGroups : WellFormed fourGroups := by
  have hlists : ∀ o ∈ origins, (groupsIn fourGroups).get? o.group = none ∨
      ∃ parts : List (Option Int × List (String × String)),
        (groupsIn fourGroups).get? o.group = some (.arr (parts.map fun p => entryAt p.1 p.2)) := by
    intro o ho
    simp only [origins, patternGroups, List.map_cons, List.map_nil, List.mem_cons, List.not_mem_nil,
      or_false] at ho
    rcases ho with rfl | rfl | rfl | rfl | rfl
    · exact .inr ⟨[(_, _), (_, _), (_, _)], rfl⟩
    · exact .inr ⟨[(_, _)], rfl⟩
    · exact .inr ⟨[(_, _)], rfl⟩
    · exact .inl rfl
    · exact .inr ⟨[(_, _)], rfl⟩
  constructor
  · exact .inr ⟨_, rfl⟩
  · exact ⟨_, rfl⟩
  · intro o ho
    rcases hlists o ho with hnone | ⟨parts, hparts⟩
    · exact .inl hnone
    · exact .inr ⟨_, hparts⟩
  · intro o ho entry hentry
    rw [entriesOf] at hentry
    rcases hlists o ho with hnone | ⟨parts, hparts⟩
    · rw [hnone] at hentry
      cases hentry
    · rw [hparts] at hentry
      obtain ⟨p, -, rfl⟩ := List.mem_map.mp hentry
      exact reads_entryAt o p.1 p.2

theorem findings_tell_entries_fourGroups :
    ∃ found, findings fourGroups = .ok found ∧
      found.map (fun f => (f.kind, f.severity, f.line)) =
        [("secret_token", .high, some 4), ("secret_unknown", .high, none),
          ("vulnerable_dependency", .high, none), ("frontend_security", .low, some 3),
          ("logging", .medium, none)] ∧
      ∀ f ∈ found, f.source = "security-review" ∧ ∃ location, f.location? = some location ∧
      location ≠ "" := by
  obtain ⟨found, hfound, htold⟩ := findings_tell_entries wellFormed_fourGroups
  have hkinds : found.map (fun f => (f.kind, f.severity, f.line)) =
      ((findings fourGroups).toOption.getD []).map fun f => (f.kind, f.severity, f.line) := by
    rw [hfound]
    rfl
  refine ⟨found, hfound, hkinds.trans (by decide +kernel), fun f hf => ?_⟩
  obtain ⟨i, hi, rfl⟩ := List.mem_iff_getElem.mp hf
  have htells := htold.get (htold.length_eq ▸ hi) hi
  exact ⟨htells.source, htells.located⟩

end Review

end FrontendAudit
