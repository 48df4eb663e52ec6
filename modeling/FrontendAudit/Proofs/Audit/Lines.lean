import FrontendAudit.Proofs.Audit.Origins
import FrontendAudit.Proofs.Lint.Scan
import FrontendAudit.Proofs.Rule.Scans
import FrontendAudit.Proofs.Security.Audit

/-!
# Where the lines of findings come from

The detectors report lines of a file, and the checks of images, manifests, projects and pages no
lines at all. A linter and the review service name the lines of their findings themselves, with
whatever number they like (`Lint.exists_namesLine`, `Review.namesLine_of_findings`). So a finding of
an audit has no line, or one from the first on, or one that the source of the audit names among its
answers (`Audit.Gives.of_accessibility` and the like).
-/

namespace FrontendAudit

open World (AnswersAmong)
open Checked (integer optional)

/-- A finding has no line, or one from the first on, or one that is named. -/
def Finding.LineFrom (named : Int → Prop) (f : Finding) : Prop := ∀ n ∈ f.line, 1 ≤ n ∨ named n

/-- A value names a line: it says something, and is read as the number. -/
def Json.NamesLine (v : Json) (n : Int) : Prop := v.isVacant = false ∧ integer v = .ok n

/-- A value that says something is taken for a line when it names the line. -/
theorem Json.namesLine_of_optional {v : Json} {n : Int}
    (h : optional integer (if v.isVacant then .null else v) = .ok (some n)) : v.NamesLine n := by
  cases hvacant : v.isVacant with
  | true =>
      rw [hvacant] at h
      cases h
  | false =>
      have hnull : v ≠ .null := by
        rintro rfl
        cases hvacant
      rw [hvacant] at h
      obtain ⟨m, hm, hn⟩ := (Checked.optional_eq_ok_of_ne_null hnull).mp h
      exact ⟨hvacant, Option.some.inj hn ▸ hm⟩

/-! ## Findings without lines -/

/-- None of the findings has a line. -/
def Lineless (found : List Finding) : Prop := ∀ f ∈ found, f.line = none

namespace Lineless

variable {found found' : List Finding}

theorem nil : Lineless [] := fun _ hf => nomatch hf

theorem one {f : Finding} (h : f.line = none) : Lineless [f] := List.forall_mem_singleton.mpr h

theorem append (h : Lineless found) (h' : Lineless found') : Lineless (found ++ found') :=
  List.forall_mem_append.mpr ⟨h, h'⟩

theorem ite {p : Prop} [Decidable p] (h : Lineless found) (h' : Lineless found') :
    Lineless (if p then found else found') := by
  split
  · exact h
  · exact h'

theorem of_acceptAll (h : Lineless found) (haccepted : Finding.acceptAll found = .ok found') :
    Lineless found' := by
  obtain ⟨-, rfl⟩ := Finding.acceptAll_eq_ok_iff.mp haccepted
  exact List.forall_mem_map.mpr h

theorem lineFrom (h : Lineless found) (named : Int → Prop) : ∀ f ∈ found, f.LineFrom named := by
  intro f hf n hn
  rw [h f hf] at hn
  cases hn

end Lineless

/-! ## Linters -/

namespace Lint

variable {linter : Linter} {excluded : List String} {path : String} {lines : List (List Char)}

/-- A finding has the line that some message names. -/
theorem exists_namesLine {messages : List Message} {found : List Finding}
    (h : findings linter excluded path lines (messages.map Message.toRecord) = .ok found)
    {f : Finding} (hf : f ∈ found) {n : Int} (hn : f.line = some n) :
    ∃ m ∈ messages, m.line.NamesLine n := by
  have htells := forall₂_of_findings h
  obtain ⟨i, hi, rfl⟩ := List.mem_iff_getElem.mp hf
  have hlength := htells.length_eq
  have hi' : i < (messages.filter fun m => !m.isLeftOut excluded).length := hlength ▸ hi
  have hline := (htells.get hi' hi).line
  refine ⟨_, List.mem_of_mem_filter (List.getElem_mem hi'), Json.namesLine_of_optional ?_⟩
  exact hn ▸ hline

end Lint

/-- A linter names a line: some run of it that may come tells of a message about the line. -/
def World.LinterNames (w : World) (linter : Linter) (n : Int) : Prop :=
  ∃ path, ∃ run ∈ w.toolAnswers linter.name path, ∃ messages,
    Lint.heard linter run = some (.ok messages) ∧ ∃ m ∈ messages, m.line.NamesLine n

namespace LintSetup

variable {w₀ : World} (s : LintSetup) (file : Path)

/-- The messages about a file were heard of a run that might come. -/
theorem messages_gives : Run.Gives (AnswersAmong w₀)
    (fun messages => ∃ run ∈ w₀.toolAnswers s.linter.name (file.display s.project),
      Lint.heard s.linter run = some (.ok messages)) (s.messages file) := by
  intro w hw
  obtain ⟨hafter, hrun⟩ := hw.runTool s.linter.name (file.display s.project)
  obtain ⟨reason, hmessages⟩ := s.messages_eq file w
  rw [hmessages]
  refine ⟨hafter, fun messages hm => ⟨_, hrun, ?_⟩⟩
  rw [← World.toolRunAt_zero]
  change s.heardAt file w 0 = _
  rcases hheard : s.heardAt file w 0 with _ | m | heard <;> rw [hheard] at hm
  · cases hm
  · cases hm
  · rw [Except.ok.inj hm]

theorem readLines_leavesWorld (file : Path) : Run.LeavesWorld (readLines file) := by
  refine Run.LeavesWorld.get.bind fun w => ?_
  split
  · exact .pure _
  · exact .throw _

theorem findings_gives : Run.Gives (AnswersAmong w₀)
    (fun found => ∀ f ∈ found, ∀ n ∈ f.line, w₀.LinterNames s.linter n) (s.findings file) := by
  refine ((s.messages_gives file).retry AnswersAmong.note {} _).bind fun messages? hheard => ?_
  cases messages? with
  | none => exact .pure fun f hf => nomatch hf
  | some messages =>
      obtain ⟨run, hrun, hheard⟩ := hheard messages rfl
      cases messages with
      | nil => exact .pure fun f hf => nomatch hf
      | cons m messages =>
          refine (readLines_leavesWorld file).gives.bind fun lines _ =>
            .ofExcept fun found hfound f hf n hn => ?_
          exact ⟨_, run, hrun, _, hheard, Lint.exists_namesLine hfound hf hn⟩

end LintSetup

/-! ## Reviews -/

namespace Review

/-- A review names a line: some entry that counts and may have a line does. -/
def NamesLine (review : Json) (n : Int) : Prop :=
  ∃ o ∈ origins, o ≠ .dependency ∧ ∃ entry ∈ entriesOf review o, o.counts entry = true ∧
    ((entry.get? "line").getD .null).NamesLine n

section

variable {kind source : String} {severity : Severity}
  {message file line code recommendation rule : Json} {entry : Json} {f : Finding}

theorem line_of_check_located (h : Finding.check (.obj
      [("type", .str kind), ("severity", .str severity.name), ("message", message),
       ("file", file), ("line", line), ("code", code), ("recommendation", recommendation),
       ("source", .str source)]) = .ok f) : optional integer line = .ok f.line := by
  obtain ⟨g, hg, haccepted⟩ := Checked.andThen_eq_ok.mp h
  obtain ⟨-, rfl⟩ := Finding.accept_eq_ok_iff.mp haccepted
  obtain ⟨-, -, -, -, hline, -⟩ := ofMembers_located.mp hg
  exact hline

theorem namesLine_of_located (h : Finding.check (.obj
      [("type", .str kind), ("severity", .str severity.name), ("message", message),
       ("file", file), ("line", valueOf "line" entry), ("code", code),
         ("recommendation", recommendation),
       ("source", .str source)]) = .ok f) {n : Int} (hn : f.line = some n) :
    ((entry.get? "line").getD .null).NamesLine n :=
  Json.namesLine_of_optional (hn ▸ line_of_check_located h)

variable (hobject : ∃ members, entry = .obj members)

include hobject

theorem namesLine_of_secretFinding (h : secretFinding entry = .ok f) {n : Int}
    (hn : f.line = some n) :
    ((entry.get? "line").getD .null).NamesLine n := by
  obtain ⟨file, hplace, -⟩ := place_eq_ok hobject
  have hseverity : Review.severity .high entry = _ := severity_eq hobject .secret
  rw [secretFinding, shown_eq hobject, hseverity, hplace, optionalMember_eq hobject,
    optionalMember_eq hobject, optionalMember_eq hobject] at h
  exact namesLine_of_located (Checked.toExcept_eq_ok.mp h) hn

theorem namesLine_of_patternFinding {group : String}
    (h : patternFinding group entry = .ok f) {n : Int} (hn : f.line = some n) :
    ((entry.get? "line").getD .null).NamesLine n := by
  obtain ⟨file, hplace, -⟩ := place_eq_ok hobject
  have hseverity : Review.severity .medium entry = _ := severity_eq hobject (.pattern group)
  rw [patternFinding, hseverity, member_obj hobject, hplace, optionalMember_eq hobject,
    optionalMember_eq hobject, optionalMember_eq hobject] at h
  exact namesLine_of_located (Checked.toExcept_eq_ok.mp h) hn

theorem line_of_dependencyFinding (h : dependencyFinding entry = .ok f) : f.line = none := by
  have hseverity : Review.severity .medium entry = _ := severity_eq hobject .dependency
  rw [dependencyFinding, shown_eq hobject, shown_eq hobject, hseverity, optionalMember_eq hobject,
    optionalMember_eq hobject, optionalMember_eq hobject] at h
  obtain ⟨g, hg, haccepted⟩ := Checked.andThen_eq_ok.mp (Checked.toExcept_eq_ok.mp h)
  obtain ⟨-, rfl⟩ := Finding.accept_eq_ok_iff.mp haccepted
  obtain ⟨-, -, -, -, hline, -⟩ := ofMembers_ruled.mp hg
  exact hline.symm

end

/-- A finding of a group is that of an entry that counts. -/
theorem exists_of_mem_credibleFindings {finding : Json → Except Misfit Finding} {o : Origin}
    (ho : o ≠ .dependency) {entries : List Json} {found : List Finding}
    (h : credibleFindings finding entries = .ok found) {f : Finding} (hf : f ∈ found) :
    ∃ entry ∈ entries, (∃ members, entry = .obj members) ∧ o.counts entry = true ∧
    finding entry = .ok f := by
  induction entries generalizing found with
  | nil =>
      obtain rfl : [] = found := Except.ok.inj h
      cases hf
  | cons entry entries ih =>
      obtain ⟨doubtful, hdoubtful, h⟩ := bind_eq_ok.mp h
      have hobject : ∃ members, entry = .obj members := by
        cases entry with
        | obj members => exact ⟨members, rfl⟩
        | _ => cases hdoubtful
      have hcounts : o.counts entry = !doubtful := by
        rw [isDoubtful_eq hobject] at hdoubtful
        rw [← Except.ok.inj hdoubtful, Bool.not_not]
        cases o with
        | dependency => exact absurd rfl ho
        | _ => rfl
      have hlater : ∀ rest, credibleFindings finding entries = .ok rest → f ∈ rest →
          ∃ e ∈ entry :: entries,
          (∃ members, e = .obj members) ∧ o.counts e = true ∧ finding e = .ok f := by
        intro rest hrest hin
        obtain ⟨e, he, hfound⟩ := ih hrest hin
        exact ⟨e, List.mem_cons_of_mem _ he, hfound⟩
      cases doubtful with
      | true => exact hlater found h hf
      | false =>
          obtain ⟨first, hfirst, h⟩ := bind_eq_ok.mp h
          obtain ⟨rest, hrest, heq⟩ := bind_eq_ok.mp h
          obtain rfl : first :: rest = found := Except.ok.inj heq
          rcases List.mem_cons.mp hf with rfl | hf
          · exact ⟨entry, List.mem_cons_self, hobject, hcounts, hfirst⟩
          · exact hlater rest hrest hf

/-- The entries of a group of a review that can be read. -/
theorem Readable.entries_eq {review : Json} (h : Readable review) {o : Origin} (ho : o ∈ origins) :
    Review.entries o.group (groupsIn review) = .ok (entriesOf review o) := by
  rw [Review.entries, member_obj h.groups, entriesOf]
  cases hgroup : (groupsIn review).get? o.group with
  | none => rfl
  | some group =>
      rcases h.lists o ho group hgroup with ⟨entries, rfl⟩ | rfl | rfl <;> rfl

/-- A finding of a review has no line, or one that the review names. -/
theorem namesLine_of_findings {review : Json} {found : List Finding}
    (h : findings review = .ok found) {f : Finding} (hf : f ∈ found) {n : Int}
    (hn : f.line = some n) : NamesLine review n := by
  have hreadable : Readable review := (exists_findings_iff review).mp ⟨found, h⟩
  unfold findings at h
  split at h
  · obtain rfl : [] = found := Except.ok.inj h
    cases hf
  · next hstated =>
    have hobject := hreadable.object.resolve_left hstated
    have hgroups : groupsOf review = .ok (groupsIn review) := by
      rw [groupsOf, memberOrNull_obj hobject]
      rfl
    obtain ⟨groups, hgroupsIn, h⟩ := bind_eq_ok.mp h
    obtain rfl := Except.ok.inj (hgroups.symm.trans hgroupsIn)
    obtain ⟨secretList, hlist, h⟩ := bind_eq_ok.mp h
    obtain ⟨secrets, hsecrets, h⟩ := bind_eq_ok.mp h
    obtain ⟨dependencyList, -, h⟩ := bind_eq_ok.mp h
    obtain ⟨dependencies, hdependencies, h⟩ := bind_eq_ok.mp h
    obtain ⟨patterns, hpatterns, h⟩ := bind_eq_ok.mp h
    obtain rfl : secrets ++ dependencies ++ patterns.flatten = found := Except.ok.inj h
    rcases List.mem_append.mp hf with hf | hpattern
    rcases List.mem_append.mp hf with hsecret | hdependency
    · obtain ⟨entry, hentry, hobject, hcounts, hfinding⟩ :=
        exists_of_mem_credibleFindings (o := .secret) (by decide) hsecrets hsecret
      have hentries := hreadable.entries_eq (o := .secret) (by decide)
      obtain rfl := Except.ok.inj (hlist.symm.trans hentries)
      exact ⟨.secret, by decide, by decide, entry, hentry, hcounts,
        namesLine_of_secretFinding hobject hfinding hn⟩
    · -- dependencies have no lines
      obtain ⟨entry, -, hfinding⟩ := exists_of_mem_mapM hdependencies hdependency
      have hobject : ∃ members, entry = .obj members := by
        cases entry with
        | obj members => exact ⟨members, rfl⟩
        | _ => cases hfinding
      rw [line_of_dependencyFinding hobject hfinding] at hn
      cases hn
    · obtain ⟨of, hof, hin⟩ := List.mem_flatten.mp hpattern
      obtain ⟨group, hgroup, hfound⟩ := exists_of_mem_mapM hpatterns hof
      obtain ⟨entries, hlist, hfound⟩ := bind_eq_ok.mp hfound
      have ho : Origin.pattern group ∈ origins :=
        List.mem_cons_of_mem _ (List.mem_cons_of_mem _ (List.mem_map_of_mem hgroup))
      obtain ⟨entry, hentry, hobject, hcounts, hfinding⟩ :=
        exists_of_mem_credibleFindings (o := .pattern group) Origin.noConfusion hfound hin
      obtain rfl := Except.ok.inj (hlist.symm.trans (hreadable.entries_eq ho))
      exact ⟨.pattern group, ho, Origin.noConfusion, entry, hentry, hcounts,
        namesLine_of_patternFinding hobject hfinding hn⟩

end Review

/-- The review service names a line: some review that it may give does. -/
def World.ServiceNames (w : World) (n : Int) : Prop :=
  ∃ answer ∈ w.serviceAnswers, ∃ review, answer.data? = some review ∧ Review.NamesLine review n

/-- A review that is given was among the answers of the service. -/
theorem Service.review_gives {w₀ : World} (service : Service) (repository : String) :
    Run.Gives (AnswersAmong w₀) (fun review => ∃ answer ∈ w₀.serviceAnswers,
      answer.data? = some review)
      (service.review repository) := by
  unfold Service.review Service.call
  split
  · exact .throw .notConnected
  · refine (Run.Gives.ofExcept (P := fun _ => True) fun _ _ => trivial).bind fun u _ => ?_
    refine (Run.Gives.act fun w hw => hw.post _).bind fun answer hanswer => ?_
    cases answer with
    | unreachable => exact .throw (.outside _)
    | reply status location body =>
        dsimp only
        split
        · exact .throw (.outside _)
        · next hsuccess =>
            split
            · next v hv =>
                refine .pure ⟨_, hanswer, ?_⟩
                rw [Http.Answer.data?, if_pos (by simpa using hsuccess), hv]
            · exact .throw (.outside _)

/-! ## Pages -/

namespace Page

theorem fetch_gives {w₀ : World} (address : String) :
    Run.Gives (AnswersAmong w₀) (fun _ => True) (fetch address) := by
  -- worlds with the same pages stay such, so that the invariant of one of them is kept
  have hagrees :
      Run.Agrees (fun w w' => AnswersAmong w₀ w ∧ w.pages = w'.pages) (fetch address) := by
    refine fetch_agrees (fun url w w' h => ?_) address
    obtain ⟨hanswer, hpages⟩ := Run.fetch_pages url h.2
    exact ⟨congrArg Except.ok hanswer, h.1.fetch url, hpages⟩
  exact fun w hw => ⟨(hagrees w w ⟨hw, rfl⟩).2.1, fun _ _ => trivial⟩

/-- Findings on a page have no lines. -/
theorem lineless_findings (url : String) (content : List Char) :
    Lineless (findings url content) := by
  intro f hf
  obtain ⟨check, message, recommendation, code, rfl⟩ := exists_finding_of_mem hf
  rfl

theorem checkAll_gives {w₀ : World} (policy : RetryPolicy) (addresses : List String) :
    Run.Gives (AnswersAmong w₀) Lineless (checkAll policy addresses) := by
  induction addresses with
  | nil => exact .pure .nil
  | cons address addresses ih =>
      have hfetched : Run.Gives (AnswersAmong w₀) Lineless
          (fetchedFindings policy address) := by
        refine ((fetch_gives address).retry AnswersAmong.note policy _).bind fun text _ => ?_
        cases text with
        | none => exact (Run.Gives.note AnswersAmong.note _).bind fun _ _ => .pure .nil
        | some text =>
            exact .ofExcept fun found hfound =>
              (lineless_findings address text).of_acceptAll (Checked.toExcept_eq_ok.mp hfound)
      exact hfetched.bind fun found hfound => ih.bind fun more hmore => .pure (hfound.append hmore)

end Page

/-! ## The categories -/

namespace Audit

variable {w₀ : World} {named : Int → Prop}

theorem lineFrom_of_pointsTo {path : String} {lines : List (List Char)} {f : Finding}
    (h : ∃ n, f.PointsTo path lines n) : f.LineFrom named := by
  obtain ⟨m, hpoints⟩ := h
  intro n hn
  rw [hpoints.line] at hn
  obtain rfl := Option.some.inj hn
  exact .inl (by exact_mod_cast hpoints.first)

theorem accepted_gives {found : List Finding} (h : Lineless found) :
    Run.Gives (AnswersAmong w₀) Lineless (AuditSetup.accepted found) :=
  .ofExcept fun _ haccepted => h.of_acceptAll (Checked.toExcept_eq_ok.mp haccepted)

theorem Gives.of_accessibility (s : AuditSetup) (urls : List String) :
    (accessibility s urls).Gives (AnswersAmong w₀) (Finding.LineFrom named) where
  enumerate := (files_leavesWorld s .accessibility).gives
  scan file := by
    refine (data_leavesWorld s file).gives.bind fun data _ => ?_
    refine (Run.Gives.ofExcept (P := fun found => ∀ f ∈ found, f.LineFrom named)
      fun found hscan f hf => ?_).bind
      fun found hfound => .pure hfound
    have hraised := (Accessibility.scan_eq_ok_iff.mp (Checked.toExcept_eq_ok.mp hscan)).2
    exact lineFrom_of_pointsTo (Accessibility.reportsLines_detectors.exists_pointsTo
      Accessibility.passesOverBlanks_detectors (hraised ▸ hf)).2
  finalize tally := by
    have hmissing : Lineless (Accessibility.projectFindings tally.signals) :=
      .append (.ite .nil (.one rfl)) (.ite .nil (.one rfl))
    exact (accepted_gives (.ite .nil hmissing)).bind fun missing hmissing =>
      (Page.checkAll_gives {} urls).bind fun found hfound =>
        .pure ((hmissing.append hfound).lineFrom named)

theorem manifestFindings_gives (s : AuditSetup) :
    Run.Gives (AnswersAmong w₀) Lineless (manifestFindings s) := by
  refine Run.Gives.get.bind fun w _ => ?_
  split
  · exact .pure .nil
  · split
    · exact .throw .undecodable
    · split
      · exact (Run.Gives.note AnswersAmong.note _).bind fun _ _ => .pure .nil
      · refine (Run.Gives.ofExcept fun found hfound => ?_).bind fun _ => accepted_gives
        unfold Manifest.heavyDependencies at hfound
        cases hdeclared : Manifest.declaredPackages _ with
        | error m =>
            rw [hdeclared] at hfound
            cases hfound
        | ok declared =>
            rw [hdeclared] at hfound
            rw [← Except.ok.inj hfound]
            exact List.forall_mem_map.mpr fun _ _ => rfl
      · exact (Run.Gives.note AnswersAmong.note _).bind fun _ _ => .pure .nil

theorem Gives.of_performance (s : AuditSetup) :
    (performance s).Gives (AnswersAmong w₀) (Finding.LineFrom named) where
  enumerate := (files_leavesWorld s .performance).gives
  scan file := by
    refine (data_leavesWorld s file).gives.bind fun data _ => ?_
    refine (Run.Gives.ofExcept (P := fun found => ∀ f ∈ found, f.LineFrom named) fun found hscan =>
      ?_).bind
      fun found hfound => .pure hfound
    replace hscan := Checked.toExcept_eq_ok.mp hscan
    split at hscan
    · -- an image is weighed as a whole
      have hweighed : Lineless (Performance.checkAsset (file.display s.project)
          (Path.ofString (file.display s.project)).extension data.size) :=
        .append (.ite (.one rfl) .nil) (.ite (.one rfl) .nil)
      exact (hweighed.of_acceptAll hscan).lineFrom named
    · intro f hf
      have hraised := (Performance.scan_eq_ok_iff.mp hscan).2
      exact lineFrom_of_pointsTo (Performance.reportsLines_detectors.exists_pointsTo
        Performance.passesOverBlanks_detectors (hraised ▸ hf)).2
  finalize _ := (manifestFindings_gives s).mono fun _ h => h.lineFrom named

theorem Gives.of_lint (s : AuditSetup) (setup : LintSetup) :
    (lint s setup).Gives (AnswersAmong w₀) (Finding.LineFrom (w₀.LinterNames setup.linter)) where
  enumerate := (files_leavesWorld s setup.linter.category).gives
  scan file := (setup.findings_gives file).bind fun _ hfound => .pure fun f hf n hn =>
    .inr (hfound f hf n hn)
  finalize _ := .pure fun _ hf => nomatch hf

theorem Gives.of_security (s : AuditSetup) (repository : Option String) (service : Service) :
    (security s repository service).Gives (AnswersAmong w₀) (Finding.LineFrom w₀.ServiceNames) where
  enumerate := .pure trivial
  scan _ := .pure fun f hf => nomatch hf
  finalize _ := by
    show Run.Gives _ _ (reviewFindings s repository service)
    unfold reviewFindings
    split
    · exact (Run.Gives.note AnswersAmong.note _).bind fun _ _ => .pure fun f hf => nomatch hf
    · next repository _ =>
        refine ((service.review_gives repository).retry AnswersAmong.note {} _).bind
          fun review? hreview => ?_
        refine .ofExcept fun found hfound f hf n hn => .inr ?_
        cases review? with
        | none =>
            obtain rfl : [] = found := Except.ok.inj hfound
            cases hf
        | some review =>
            obtain ⟨answer, hanswer, hdata⟩ := hreview review rfl
            exact ⟨answer, hanswer, review, hdata, Review.namesLine_of_findings hfound hf hn⟩

end Audit

end FrontendAudit
