import FrontendAudit.Proofs.Audit.Issues
import FrontendAudit.Proofs.Retry
import FrontendAudit.Proofs.Security.Readable

/-!
# How an audit of security ends

The review service is asked up to three times, until it answers with data. If it never does, the
audit is done and has no issues. If it does, the audit is done exactly when the review can be read:
a review that cannot be read ends it with a misfit while its log is closed (`security_ends`), and is
not taken for a call that failed (`unreadable_review_ends_audit`).

Answers are read as in `Json.parse?`: without limits on depth and digits, and half of a surrogate
pair that stands alone as U+FFFD. A text with such a half counts as a text here.
-/

namespace FrontendAudit

/-! ## Answers of the service -/

/-- The data of an answer, if it is a success. -/
def Http.Answer.data? : Http.Answer → Option Json
  | .unreachable => none
  | .reply status _ body => if isSuccess status then body.data? else none

/-- The data that a service with a script of answers gives first when it is asked some times at
most. -/
def World.given? : Nat → List Http.Answer → Option Json
  | 0, _ => none
  | times + 1, answers =>
    let (answer, rest) := nextAnswer .unreachable answers
    match answer.data? with
    | some v => some v
    | none => given? times rest

section

variable {service : Service} {u : Url}

/-- A call gives the data of the next answer, or fails as the outside fails. -/
theorem review_eq (hconnected : service.connected = true)
    (haddress : service.address (Service.endpointPath "security-review" "review") = .ok u)
    (repository : String) (w : World) :
    ∃ w', w'.service = (nextAnswer .unreachable w.service).2 ∧
      match (nextAnswer .unreachable w.service).1.data? with
      | some v => service.review repository "full" w = (.ok v, w')
      | none => ∃ reason, service.review repository "full" w = (.error (.outside reason), w') := by
  let request : Post :=
    { url := u.toString
      body := .obj [("repo_url", .str repository), ("scan_mode", .str "full")]
      authorization := service.authorization u }
  refine ⟨(World.post request w).2, rfl, ?_⟩
  have hanswer : Run.act (World.post request) w =
      (.ok (nextAnswer .unreachable w.service).1, (World.post request w).2) := rfl
  rw [Service.review, Service.call, hconnected, haddress]
  simp only [Bool.not_true, Bool.false_eq_true, if_false, Run.ofExcept, pure_bind]
  rw [Run.bind_ok hanswer]
  cases (nextAnswer .unreachable w.service).1 with
  | unreachable => exact ⟨_, rfl⟩
  | reply status location body =>
      simp only [Http.Answer.data?]
      cases Http.isSuccess status with
      | false => exact ⟨_, rfl⟩
      | true =>
          simp only [if_true, Bool.not_true, Bool.false_eq_true, if_false]
          cases body.data? with
          | none => exact ⟨_, rfl⟩
          | some v => rfl

/-- Attempts end with the first data that is given, or with nothing. -/
theorem attemptFrom_review (hconnected : service.connected = true)
    (haddress : service.address (Service.endpointPath "security-review" "review") = .ok u)
    (repository : String) (p : RetryPolicy) (description : String) (left number : Nat) (w : World)
    (hpauses : ∀ i, i + 1 < left → (p.pauseAfter? (number + i)).isSome = true) :
    (Retry.attemptFrom p description (Run.attempt (service.review repository)) left number
      w).1.result =
      .ok (World.given? left w.service) := by
  induction left generalizing number w with
  | zero => rfl
  | succ left ih =>
      obtain ⟨w', hrest, hcall⟩ := review_eq hconnected haddress repository w
      rw [World.given?]
      cases hdata : (nextAnswer .unreachable w.service).1.data? with
      | some v =>
          simp only [hdata] at hcall ⊢
          have hending :
              Retry.endingAt? (Run.attempt (service.review repository)) 0 w = some (.ok v) := by
            show (Run.attempt (service.review repository) w).1.ending? = _
            rw [Run.attempt, hcall]
            rfl
          exact (Retry.attemptFrom_of_ending p description number hpauses left.succ_pos
            (fun _ h => nomatch h) hending).1
      | none =>
          simp only [hdata] at hcall ⊢
          obtain ⟨reason, hcall⟩ := hcall
          have hattempt : Run.attempt (service.review repository) w = (.failure reason, w') := by
            rw [Run.attempt, hcall]
          have hfailed : Retry.endingAt? (Run.attempt (service.review repository)) 0 w = none := by
            show (Run.attempt (service.review repository) w).1.ending? = _
            rw [hattempt]
            rfl
          rw [(Retry.attemptFrom_of_failure p description left number hfailed
            fun hleft => hpauses 0 (by omega)).1, hattempt, ← hrest]
          exact ih (number + 1) w' fun i hi => by
            rw [Nat.add_right_comm]
            exact hpauses (i + 1) (by omega)

/-- What is found about a repository: what the review says that the service gives first. -/
theorem reviewFindings_eq (hconnected : service.connected = true)
    (haddress : service.address (Service.endpointPath "security-review" "review") = .ok u)
    {repository : String} (hrepository : repository ≠ "") (s : AuditSetup) (w : World) :
    (Audit.reviewFindings s (some repository) service w).1 =
      match Review.findings ((World.given? 3 w.service).getD .null) with
      | .ok found => .ok found
      | .error m => .error (.misfit m) := by
  have hnonempty : nonempty? (some repository) = some repository := by
    rw [nonempty?, if_neg (by simpa using hrepository)]
  have hretried : (Run.retry {} "security-review agent" (service.review repository) w).1 =
      .ok (World.given? 3 w.service) :=
    attemptFrom_review hconnected haddress repository {} _ 3 1 w RetryPolicy.tellsPauses_default
  unfold Audit.reviewFindings
  rw [hnonempty]
  dsimp only
  rcases hretry : Run.retry {} "security-review agent" (service.review repository) w with ⟨x, w'⟩
  rw [hretry] at hretried
  obtain rfl : x = .ok (World.given? 3 w.service) := hretried
  rw [Run.bind_ok hretry]
  cases Review.findings ((World.given? 3 w.service).getD .null) <;> rfl

end

/-! ## The audit -/

namespace Audit

theorem openLog_service (s : AuditSetup) (category : String) (w : World) :
    (openLog s category w).2.service = w.service := by
  unfold openLog
  dsimp only
  split <;> rfl

section

variable {s : AuditSetup} {repository : String} {service : Service} {u : Url} {w opened : World}
  {log : IssueLog}

/-- An audit of security scans nothing. -/
theorem security_passage (hsize : 1 ≤ s.config.batchSize)
    (hopens : openLog s Category.security.name w = (.ok log, opened)) :
    ∃ p : (security s (some repository) service).Passage s (.together s.config.batchSize) w,
      p.scanned = [] ∧ p.after.service = w.service := by
  obtain ⟨p, hscanned⟩ := exists_passage_together (a := security s (some repository) service)
    hsize rfl hopens
  refine ⟨p, hscanned, ?_⟩
  have henumerates : (Except.ok p.files, p.found) = (.ok [], w) := p.enumerates.symm
  obtain ⟨hfiles, hfound⟩ := Prod.mk.inj henumerates
  have hscans := p.scansAll
  rw [Except.ok.inj hfiles] at hscans
  have hservice := openLog_service s Category.security.name p.found
  rw [show openLog s Category.security.name p.found = _ from p.opens, hfound] at hservice
  rw [← (Prod.mk.inj hscans).2]
  exact hservice

/-- The issues of an audit of security, or the misfit that the review is. -/
theorem Passage.security_issues
    (p : (security s (some repository) service).Passage s (.together s.config.batchSize) w)
    (hscanned : p.scanned = []) (hservice : p.after.service = w.service)
    (hsize : 1 ≤ s.config.batchSize) (hrepository : repository ≠ "")
    (hconnected : service.connected = true)
    (haddress : service.address (Service.endpointPath "security-review" "review") = .ok u) :
    ((security s (some repository) service).run s {} w).issues =
      match Review.findings ((World.given? 3 w.service).getD .null) with
      | .ok found => .ok (dedupe (found.take s.config.maxIssues))
      | .error m => .error (.misfit m) := by
  obtain ⟨notes, hissues⟩ := p.issues hsize
  have hfindings := reviewFindings_eq hconnected haddress hrepository s (p.after.note notes)
  rw [show (p.after.note notes).service = w.service from hservice] at hfindings
  rw [Audit.run, hissues, hscanned]
  show ((reviewFindings s (some repository) service (p.after.note notes)).1.map _) = _
  rw [hfindings]
  cases Review.findings ((World.given? 3 w.service).getD .null) <;> rfl

/-- However the service answers: if none of three calls gives data, the audit is done and has no
issues. If a call does, the audit is done and has the findings of the review, provided that the
review can be read; otherwise it has no result, and has come no further than to closing its log. -/
theorem security_ends (hsize : 1 ≤ s.config.batchSize)
    (hopens : openLog s Category.security.name w = (.ok log, opened))
    (hrepository : repository ≠ "") (hconnected : service.connected = true)
    (haddress : service.address (Service.endpointPath "security-review" "review") = .ok u) :
    (World.given? 3 w.service = none →
      ((security s (some repository) service).run s {} w).state.phase = .done ∧
      ((security s (some repository) service).run s {} w).issues = .ok []) ∧
    ∀ review, World.given? 3 w.service = some review →
      (Review.Readable review →
        ((security s (some repository) service).run s {} w).state.phase = .done ∧
        ∃ found, Review.findings review = .ok found ∧
          ((security s (some repository) service).run s {} w).issues =
            .ok (dedupe (found.take s.config.maxIssues))) ∧
      (¬ Review.Readable review →
        ((security s (some repository) service).run s {} w).state.phase = .closing ∧
        ∃ m, ((security s (some repository) service).run s {} w).result = .error (.misfit m)) := by
  obtain ⟨p, hscanned, hservice⟩ :
      ∃ p : (security s (some repository) service).Passage s (.together s.config.batchSize) w,
        p.scanned = [] ∧ p.after.service = w.service := security_passage hsize hopens
  have hissues := p.security_issues hscanned hservice hsize hrepository hconnected haddress
  refine ⟨fun hnone => ?_, fun review hreview => ⟨fun hreadable => ?_, fun hunreadable => ?_⟩⟩
  · -- without a review nothing is found
    have hnothing : ((security s (some repository) service).run s {} w).issues = .ok [] := by
      rw [hissues, hnone]
      show Except.ok (dedupe ([].take s.config.maxIssues)) = _
      rw [List.take_nil]
      rfl
    exact ⟨p.done_of_issues hnothing, hnothing⟩
  · -- what was read is recorded, up to the limit
    obtain ⟨found, hfound⟩ := (Review.exists_findings_iff review).mpr hreadable
    rw [hreview, Option.getD_some, hfound] at hissues
    exact ⟨p.done_of_issues hissues, found, hfound, hissues⟩
  · cases hfindings : Review.findings review with
    | ok found =>
        exact absurd ((Review.exists_findings_iff review).mp ⟨found, hfindings⟩) hunreadable
    | error m =>
        -- the misfit comes after the attempts, where nothing tries again
        rw [hreview, Option.getD_some, hfindings] at hissues
        obtain ⟨hphase, hresult⟩ := p.closing_of_issues hissues
        exact ⟨hphase, m, hresult⟩

end

/-- A project whose security is audited without a report. -/
def bareSetup : AuditSetup where
  host := (threeFileSetup 1 false).host
  project := .absolute ["project"]
  config := Config.default

/-- A service that answers with a value. -/
def answering (review : Json) : World :=
  { emptyWorld with service := [.reply 200 none (.json review)] }

def localService : Service := { base := Service.defaultBase, key := none }

/-- A review whose one secret names the line of its file as a text, and whose dependencies are an
empty text. -/
def lenientReview : Json :=
  .obj [("findings", .obj
    [("secrets", .arr [.obj [("type", .str "token"), ("file", .str "a.js"), ("line", .str "3")]]),
     ("dependencies", .str "")])]

theorem readable_lenientReview : Review.Readable lenientReview := by
  refine (Review.exists_findings_iff _).mp ⟨_, rfl⟩

def runReviewed (w : World) : AuditOutcome :=
  (security bareSetup (some "https://github.com/acme/web") localService).run bareSetup {} w

/-- One run for each way in which an audit of security ends. -/
theorem security_ends_threeAnswers :
    ((runReviewed emptyWorld).state.phase = .done ∧ (runReviewed emptyWorld).issues = .ok []) ∧
    (∃ found, Review.findings lenientReview = .ok found ∧ found.length = 1 ∧
      (runReviewed (answering lenientReview)).state.phase = .done ∧
      (runReviewed (answering lenientReview)).issues = .ok (dedupe (found.take 50000))) ∧
    (runReviewed (answering (.arr [.int 1]))).state.phase = .closing ∧
      ∃ m, (runReviewed (answering (.arr [.int 1]))).result = .error (.misfit m) := by
  have hsize : 1 ≤ bareSetup.config.batchSize := by decide
  have hrepository : "https://github.com/acme/web" ≠ "" := by decide
  obtain ⟨u, haddress⟩ : ∃ u, localService.address
      (Service.endpointPath "security-review" "review") = .ok u := ⟨_, rfl⟩
  refine ⟨?_, ?_, ?_⟩
  · exact (security_ends hsize rfl hrepository rfl haddress).1 rfl
  · obtain ⟨hphase, found, hfound, hissues⟩ :=
      ((security_ends (w := answering lenientReview) hsize rfl hrepository rfl haddress).2
        lenientReview rfl).1 readable_lenientReview
    refine ⟨found, hfound, ?_, hphase, hissues⟩
    rw [← Except.ok.inj hfound]
    rfl
  · refine ((security_ends (w := answering (.arr [.int 1])) hsize rfl hrepository rfl haddress).2
      (.arr [.int 1]) rfl).2 fun h => ?_
    rcases h.object with hvacant | ⟨members, hobject⟩
    · cases hvacant
    · cases hobject

/-- A review that is a list of something ends the audit, while three calls that fail do not. -/
theorem unreadable_review_ends_audit :
    (runReviewed (answering (.arr [.int 1]))).result.isOk = false ∧
      (runReviewed (answering (.arr [.int 1]))).state.phase ≠ .done ∧
      (runReviewed { emptyWorld with service := [.unreachable] }).result.isOk = true ∧
      (runReviewed { emptyWorld with service := [.unreachable] }).state.phase = .done := by
  refine ⟨rfl, ?_, rfl, rfl⟩
  show Phase.closing ≠ .done
  decide

end Audit

end FrontendAudit
