import FrontendAudit.Proofs.Number.Scaling
import FrontendAudit.Proofs.Retry
import FrontendAudit.World

/-!
# The calls of a run of attempts

A run of attempts is told by its last call. All calls before it failed and were followed by a pause
each, twice as long every time and otherwise exact (`Duration.Doubled`). The last call gives a
value, or crashes, or is the last that is allowed and fails, or fails where the pause after it could
not be told (`Settles`). These are all cases, and there is nothing else that is noted
(`run_settled`). The last case does occur: with a first pause of double precision it comes with the
1025th failure, whatever the pause (`calls_of_failures`).
-/

namespace FrontendAudit

namespace Duration

/-- The seconds as a rational number, if they are finite. -/
def seconds? : Duration → Option ℚ
  | .whole n => some n
  | .measured x => x.value?

/-- A length that is whole, or that double precision has. -/
def IsNumber (d : Duration) : Prop := ∀ x, d = .measured x → x.IsDouble

/-- A length that comes of doubling another some times: the exact product, or infinite when that is
past the numbers of double precision. A length that is not finite stays as it is. -/
inductive Doubled (times : ℕ) (d : Duration) : Duration → Prop
  | exact {q : ℚ} {d' : Duration} (h : d.seconds? = some q)
      (h' : d'.seconds? = some (q * 2 ^ times)) :
      Doubled times d d'
  | infinite {q : ℚ} (h : d.seconds? = some q) (hlarge : 2 ^ 1024 ≤ |q * 2 ^ times|) :
      Doubled times d (.measured (.infinite (q < 0)))
  | unchanged (h : d.seconds? = none) : Doubled times d d

theorem doubled_of_doubled? {d d' : Duration} {times : ℕ} (hd : d.IsNumber)
    (h : d.doubled? times = some d') :
    Doubled times d d' := by
  cases d with
  | whole n =>
      unfold doubled? at h
      dsimp only at h
      split at h
      · obtain rfl := Option.some.inj h
        exact .exact rfl (by simp [seconds?])
      · cases h
  | measured x =>
      unfold doubled? at h
      dsimp only at h
      split at h
      · obtain rfl := Option.some.inj h
        cases hx : x.value? with
        | none =>
            have hsame : x.scaleBy times = x := by
              cases x with
              | finite => cases hx
              | _ => rfl
            rw [hsame]
            exact .unchanged hx
        | some q =>
            rcases Number.Binary64.value?_scaleBy (hd x rfl) hx times with hexact |
              ⟨hlarge, hinfinite⟩
            · exact .exact hx hexact
            · rw [hinfinite]
              exact .infinite hx hlarge
      · cases h

end Duration

namespace Retry

variable {σ ε α : Type} {operation : σ → Attempt ε α × σ}

/-- How the call after some others ends. -/
def outcomeAt (operation : σ → Attempt ε α × σ) (times : Nat) (s : σ) : Attempt ε α :=
  (operation (after operation times s)).1

theorem outcomeAt_succ (times : Nat) (s : σ) :
    outcomeAt operation (times + 1) s = outcomeAt operation times (operation s).2 := rfl

/-- What is noted of a call that fails and is followed by another: a warning, and the pause between
them. -/
def followUp (p : RetryPolicy) (description : String) (number : Nat)
    (outcome : Attempt ε α) : List Note :=
  match outcome, p.pauseAfter? number with
  | .failure reason, some pause =>
    [.warning (retryText p description number reason pause), .pause pause]
  | _, _ => []

/-- A call that is followed by another. -/
structure GoesOn (p : RetryPolicy) (number : Nat) (outcome : Attempt ε α) : Prop where
  fails : ∃ reason, outcome = .failure reason
  pauses : (p.pauseAfter? number).isSome = true

theorem pauses_followUp {p : RetryPolicy} (description : String) {number : Nat}
    {outcome : Attempt ε α} (h : GoesOn p number outcome) :
    (Note.pauses (followUp p description number outcome)).map some = [p.pauseAfter? number] := by
  obtain ⟨⟨reason, rfl⟩, hpauses⟩ := h
  obtain ⟨pause, hpause⟩ := Option.isSome_iff_exists.mp hpauses
  simp only [followUp, hpause]
  rfl

/-- Each pause of a run lies between two of its calls. -/
theorem pauses_flatMap_followUp {p : RetryPolicy} (description : String)
    {outcome : Nat → Attempt ε α} {k : Nat} (h : ∀ i < k, GoesOn p (1 + i) (outcome i))
    {last : List Note} (hlast : Note.pauses last = []) :
    (Note.pauses ((List.range k).flatMap (fun i => followUp p description (1 + i) (outcome i)) ++
      last)).map some =
      (List.range k).map p.firstPause.doubled? := by
  have hcall :
      ∀ i ∈ List.range k, (Note.pauses (followUp p description (1 + i) (outcome i))).map some =
      [p.firstPause.doubled? i] := by
    intro i hi
    rw [pauses_followUp description (h i (List.mem_range.mp hi)), RetryPolicy.pauseAfter?,
      Nat.add_sub_cancel_left]
  rw [Note.pauses_append, hlast, List.append_nil, Note.pauses, List.filterMap_flatMap,
    List.map_flatMap, List.map_eq_flatMap]
  exact List.flatMap_congr hcall

variable [PauseError ε]

/-- What comes of the last call, and what is noted of it, when so many calls are left and the pause
after it would be so long. -/
inductive Settles (p : RetryPolicy) (description : String) (left : Nat) (pause? : Option Duration) :
    Attempt ε α → Except ε (Option α) → List Note → Prop
  | value (a : α) : Settles p description left pause? (.value a) (.ok (some a)) []
  | crash (e : ε) : Settles p description left pause? (.crash e) (.error e) []
  | exhausted (reason : String) (h : left = 0) :
      Settles p description left pause? (.failure reason)
        (.ok none) [.error (lastText p description reason)]
  | tooLong (reason : String) (h : 0 < left) (hpause : pause? = none) :
      Settles p description left pause? (.failure reason) (.error PauseError.tooLong) []

/-- A call that goes on comes first, and then the calls that are left. -/
theorem attemptFrom_of_pause (p : RetryPolicy) (description : String) {left number : Nat}
    (hleft : 0 < left) {s s' : σ} {reason : String} {pause : Duration}
    (hcall : operation s = (.failure reason, s')) (hpause : p.pauseAfter? number = some pause) :
    attemptFrom p description operation (left + 1) number s =
      let rest := attemptFrom p description operation left (number + 1) s'
      (⟨rest.1.result, rest.1.calls + 1,
        followUp p description number (Attempt.failure (ε := ε) (α := α) reason) ++ rest.1.notes⟩,
          rest.2) := by
  rw [attemptFrom, hcall]
  dsimp only
  rw [if_neg hleft.ne']
  simp only [followUp, hpause]
  rfl

/-- There is a last call: all before it went on, and it settles the run. -/
theorem exists_settles (p : RetryPolicy) (description : String) (operation : σ → Attempt ε α × σ)
    {left : Nat} (hleft : 0 < left) (number : Nat) (s : σ) :
    ∃ k < left, (∀ i < k, GoesOn p (number + i) (outcomeAt operation i s)) ∧
      ∃ result last, Settles p description (left - (k + 1)) (p.pauseAfter? (number + k))
        (outcomeAt operation k s) result last := by
  induction left generalizing number s with
  | zero => exact absurd hleft (Nat.lt_irrefl 0)
  | succ left ih =>
      cases hfirst : outcomeAt operation 0 s with
      | value a => exact ⟨0, left.succ_pos, nofun, .ok (some a), [], hfirst ▸ .value a⟩
      | crash e => exact ⟨0, left.succ_pos, nofun, .error e, [], hfirst ▸ .crash e⟩
      | failure reason =>
          by_cases hlast : left = 0
          · subst hlast
            exact ⟨0, Nat.one_pos, nofun, .ok none, [.error (lastText p description reason)],
              hfirst ▸ .exhausted reason rfl⟩
          · cases hpause : p.pauseAfter? number with
            | none =>
                exact ⟨0, left.succ_pos, nofun, .error PauseError.tooLong, [],
                  hfirst ▸ .tooLong reason (by omega) hpause⟩
            | some pause =>
                -- the call is followed by others, and the last of those is the last of all
                obtain ⟨k, hk, hbefore, result, last, hsettles⟩ :=
                  ih (Nat.pos_of_ne_zero hlast) (number + 1) (operation s).2
                have hnumber : ∀ i, number + 1 + i = number + (i + 1) := fun i => by omega
                refine ⟨k + 1, Nat.succ_lt_succ hk, fun i hi => ?_, result, last, ?_⟩
                · cases i with
                  | zero => exact ⟨⟨reason, hfirst⟩, by rw [Nat.add_zero, hpause]; rfl⟩
                  | succ i =>
                      rw [outcomeAt_succ, ← hnumber]
                      exact hbefore i (Nat.lt_of_succ_lt_succ hi)
                · rw [outcomeAt_succ, ← hnumber, Nat.succ_sub_succ]
                  exact hsettles

/-- A run of attempts is told by its last call, and by those before it that went on. -/
theorem attemptFrom_of_settles (p : RetryPolicy) (description : String)
    (operation : σ → Attempt ε α × σ) {left k : Nat} (hk : k < left) (number : Nat) (s : σ)
    (hbefore : ∀ i < k, GoesOn p (number + i) (outcomeAt operation i s))
    {result : Except ε (Option α)} {last : List Note}
    (hsettles : Settles p description (left - (k + 1)) (p.pauseAfter? (number + k))
      (outcomeAt operation k s) result last) :
    attemptFrom p description operation left number s =
      (⟨result, k + 1, (List.range k).flatMap (fun i =>
        followUp p description (number + i) (outcomeAt operation i s)) ++ last⟩,
        after operation (k + 1) s) := by
  obtain ⟨left, rfl⟩ := Nat.exists_eq_succ_of_ne_zero (Nat.ne_zero_of_lt hk)
  induction k generalizing left number s with
  | zero =>
      have hafter : after operation 1 s = (operation s).2 := rfl
      have hfirst : outcomeAt operation 0 s = (operation s).1 := rfl
      rw [attemptFrom, hafter]
      rw [hfirst] at hsettles
      rcases hcall : operation s with ⟨outcome, s'⟩
      rw [hcall] at hsettles
      cases hsettles with
      | value a => rfl
      | crash e => rfl
      | exhausted reason h =>
          dsimp only
          rw [if_pos (by omega)]
          rfl
      | tooLong reason h hpause =>
          dsimp only
          rw [if_neg (by omega), ← Nat.add_zero number, hpause]
          rfl
  | succ k ih =>
      obtain ⟨⟨reason, hfirst⟩, hpauses⟩ := hbefore 0 k.succ_pos
      obtain ⟨pause, hpause⟩ := Option.isSome_iff_exists.mp hpauses
      rw [Nat.add_zero] at hpause
      obtain ⟨left, rfl⟩ := Nat.exists_eq_succ_of_ne_zero (show left ≠ 0 by omega)
      have hnumber : ∀ i, number + 1 + i = number + (i + 1) := fun i => by omega
      have hrest := ih (number + 1) (operation s).2 (fun i hi => by
          rw [hnumber, ← outcomeAt_succ]
          exact hbefore (i + 1) (Nat.succ_lt_succ hi)) left (Nat.lt_of_succ_lt_succ hk) (by
          rw [hnumber, ← outcomeAt_succ, ← Nat.succ_sub_succ]
          exact hsettles)
      have hcall : operation s = (.failure reason, (operation s).2) := Prod.ext hfirst rfl
      rw [attemptFrom_of_pause p description left.succ_pos hcall hpause, hrest,
        List.range_succ_eq_map, List.flatMap_cons, List.flatMap_map, hfirst, List.append_assoc]
      simp only [hnumber, outcomeAt_succ, after_succ, Nat.succ_eq_add_one, Nat.add_zero]

theorem attemptFrom_settled (p : RetryPolicy) (description : String)
    (operation : σ → Attempt ε α × σ) {left : Nat} (hleft : 0 < left) (number : Nat) (s : σ) :
    ∃ k < left, (∀ i < k, GoesOn p (number + i) (outcomeAt operation i s)) ∧
      ∃ result last, Settles p description (left - (k + 1)) (p.pauseAfter? (number + k))
          (outcomeAt operation k s) result last ∧
        attemptFrom p description operation left number s =
          (⟨result, k + 1, (List.range k).flatMap (fun i =>
            followUp p description (number + i) (outcomeAt operation i s)) ++ last⟩,
            after operation (k + 1) s) := by
  obtain ⟨k, hk, hbefore, result, last, hsettles⟩ :=
    exists_settles p description operation hleft number s
  exact ⟨k, hk, hbefore, result, last, hsettles,
    attemptFrom_of_settles p description operation hk number s hbefore hsettles⟩

/-! ## Runs -/

theorem Settles.pauses_eq_nil {p : RetryPolicy} {description : String}
    {left : Nat} {pause? : Option Duration} {outcome : Attempt ε α} {result : Except ε (Option α)}
    {last : List Note} (h : Settles p description left pause? outcome result last) :
    Note.pauses last = [] := by
  cases h <;> rfl

/-- However often an operation may be called, and however its calls end: there is one last call.
Those before it failed, and each was followed by a warning and by a pause, which is the first one
exactly doubled as often as there were calls before. The last call is not followed by a pause. A
value of it is what comes of the run, a crash of it ends the run, and when it failed as the last
that is allowed, an error is noted once and nothing comes of the run. Otherwise it failed, and the
pause after it could not be told. -/
theorem run_settled (p : RetryPolicy) (description : String)
    (operation : σ → Attempt ε α × σ) (s : σ) (hattempts : 0 < p.attempts)
    (hfirst : p.firstPause.IsNumber) :
    ∃ k < p.attempts,
      (∀ i < k, (∃ reason, outcomeAt operation i s = .failure reason) ∧
        ∃ pause, p.firstPause.doubled? i = some pause ∧ Duration.Doubled i p.firstPause pause) ∧
      (Note.pauses (run p description operation s).1.notes).map some =
        (List.range k).map p.firstPause.doubled? ∧
      ∃ result last, Settles p description (p.attempts - (k + 1)) (p.firstPause.doubled? k)
          (outcomeAt operation k s) result last ∧
        run p description operation s =
          (⟨result, k + 1, (List.range k).flatMap (fun i =>
            followUp p description (1 + i) (outcomeAt operation i s)) ++ last⟩,
            after operation (k + 1) s) := by
  obtain ⟨k, hk, hbefore, result, last, hsettles, hrun⟩ :=
    attemptFrom_settled p description operation hattempts 1 s
  have hpause : ∀ i, p.pauseAfter? (1 + i) = p.firstPause.doubled? i := fun i => by
    rw [RetryPolicy.pauseAfter?, Nat.add_sub_cancel_left]
  refine ⟨k, hk, fun i hi => ⟨(hbefore i hi).fails, ?_⟩, ?_, result, last,
    hpause k ▸ hsettles, hrun⟩
  · obtain ⟨pause, hsome⟩ := Option.isSome_iff_exists.mp (hbefore i hi).pauses
    rw [hpause] at hsome
    exact ⟨pause, hsome, Duration.doubled_of_doubled? hfirst hsome⟩
  · rw [run, hrun]
    exact pauses_flatMap_followUp description hbefore hsettles.pauses_eq_nil

/-- An operation that fails once and then gives the number of its call. -/
def secondAnswer (calls : Nat) : Attempt Failure Nat × Nat :=
  (if calls = 0 then .failure "down" else .value (calls + 1), calls + 1)

/-- The usual policy on that operation: two calls, with a pause of one second between them. -/
theorem run_settled_secondAnswer :
    0 < ({} : RetryPolicy).attempts ∧ ({} : RetryPolicy).firstPause.IsNumber ∧
      (run {} "page" secondAnswer 0).1.calls = 2 ∧
      (run {} "page" secondAnswer 0).1.result = .ok (some 2) ∧
      (Note.pauses (run {} "page" secondAnswer 0).1.notes).map some =
        [({} : RetryPolicy).firstPause.doubled? 0] := by
  have hone : Number.Binary64.ofInt 1 = .finite false 4503599627370496 (-52) := by decide +kernel
  have hnumber : ({} : RetryPolicy).firstPause.IsNumber := by
    rintro x hx
    obtain rfl := Duration.measured.inj hx
    rintro negative m e hfinite
    rw [hone] at hfinite
    obtain ⟨-, rfl, rfl⟩ := Number.Binary64.finite.inj hfinite
    exact ⟨by decide, by decide⟩
  refine ⟨by decide, hnumber, ?_⟩
  obtain ⟨k, -, hbefore, hpauses, result, last, hsettles, hrun⟩ :=
    run_settled {} "page" secondAnswer 0 (by decide) hnumber
  have hfirst : outcomeAt secondAnswer 0 0 = .failure "down" := rfl
  have htold : (({} : RetryPolicy).firstPause.doubled? 0).isSome = true :=
    Duration.isSome_doubled?_measured.mpr (by decide)
  have hsecond : k = 1 := by
    rcases k with _ | _ | k
    · rw [hfirst] at hsettles
      cases hsettles with
      | exhausted _ h => exact absurd h (by decide)
      | tooLong _ _ hpause =>
          rw [hpause] at htold
          cases htold
    · rfl
    · obtain ⟨⟨reason, hreason⟩, -⟩ := hbefore 1 (by omega)
      cases hreason
  subst hsecond
  rw [hrun] at hpauses ⊢
  have hvalue : outcomeAt secondAnswer 1 0 = .value 2 := rfl
  rw [hvalue] at hsettles
  cases hsettles with
  | value => exact ⟨rfl, rfl, hpauses⟩

/-- Where every call fails and the first pause is of double precision, the run ends with the first
pause that cannot be told, even if more calls are allowed. -/
theorem calls_of_failures {p : RetryPolicy} (description : String) {x : Number.Binary64}
    (hfirst : p.firstPause = .measured x) (hmany : Duration.doublingLimit + 1 < p.attempts) {s : σ}
    (hfails : ∀ i, ∃ reason, outcomeAt operation i s = .failure reason) :
    (run p description operation s).1.calls = Duration.doublingLimit + 1 ∧
      (run p description operation s).1.result = .error PauseError.tooLong := by
  obtain ⟨k, hk, hbefore, result, last, hsettles, hrun⟩ :=
    attemptFrom_settled p description operation (Nat.zero_lt_of_lt hmany) 1 s
  have htold : ∀ i, (p.pauseAfter? (1 + i)).isSome = true ↔ i < Duration.doublingLimit :=
    fun i => by
    rw [RetryPolicy.pauseAfter?, hfirst, Nat.add_sub_cancel_left, Duration.isSome_doubled?_measured]
  have hle : k ≤ Duration.doublingLimit := by
    by_contra hlt
    have := (htold Duration.doublingLimit).mp (hbefore _ (by omega)).pauses
    omega
  obtain ⟨reason, hreason⟩ := hfails k
  rw [run, hrun]
  rw [hreason] at hsettles
  cases hsettles with
  | exhausted _ h => omega
  | tooLong _ h hpause =>
      have hnot := mt (htold k).mpr
      rw [hpause] at hnot
      have hge := hnot (by simp)
      exact ⟨congrArg (· + 1) (by omega), rfl⟩

/-- An operation that always fails. -/
def alwaysDown (s : Unit) : Attempt Failure Nat × Unit := (.failure "down", s)

/-- Many calls, and no time between them. -/
def hurried : RetryPolicy := ⟨1026, .measured (.ofInt 0)⟩

/-- With 1026 calls allowed and no time between them, an operation that always fails is called 1025
times, and then the run ends with an error instead of nothing. -/
theorem pause_ends_calls :
    (run hurried "page" alwaysDown ()).1.calls = 1025 ∧
      (run hurried "page" alwaysDown ()).1.result = .error .pauseTooLong :=
  calls_of_failures "page" rfl (by decide) fun _ => ⟨"down", rfl⟩

end Retry

end FrontendAudit
