import FrontendAudit.Retry
import Mathlib.Logic.Function.Iterate

/-!
# How attempts end

What comes of repeated attempts is settled by the first that is no failure. When all that are
allowed fail, nothing comes of them (`attemptFrom_of_failures`); otherwise the first that does not
fail gives its value or its crash, and is the last that is made (`attemptFrom_of_ending`). Both take
it that the pauses between the attempts can be told. A run of attempts is described in full by its
last call (`run_settles`).
-/

namespace FrontendAudit

variable {σ ε α : Type}

/-- The value or the crash that ends the attempts; nothing for a failure, after which there may be
another. -/
def Attempt.ending? : Attempt ε α → Option (Except ε α)
  | .value a => some (.ok a)
  | .failure _ => none
  | .crash e => some (.error e)

theorem Attempt.exists_reason {a : Attempt ε α} (h : a.ending? = none) :
    ∃ reason, a = .failure reason := by
  cases a with
  | failure reason => exact ⟨reason, rfl⟩
  | _ => cases h

/-- A policy by which each pause before another attempt can be told. -/
def RetryPolicy.TellsPauses (p : RetryPolicy) : Prop :=
  ∀ i, i + 1 < p.attempts → (p.pauseAfter? (1 + i)).isSome = true

/-- Pauses of double precision can be told as long as there are not too many. -/
theorem RetryPolicy.tellsPauses_of_measured {p : RetryPolicy} {x : Number.Binary64}
    (hfirst : p.firstPause = .measured x) (hfew : p.attempts ≤ Duration.doublingLimit + 1) :
    p.TellsPauses := by
  intro i hi
  rw [RetryPolicy.pauseAfter?, hfirst, Nat.add_sub_cancel_left, Duration.isSome_doubled?_measured]
  exact Nat.lt_of_succ_lt_succ (Nat.lt_of_lt_of_le hi hfew)

theorem RetryPolicy.tellsPauses_default : ({} : RetryPolicy).TellsPauses :=
  tellsPauses_of_measured rfl (by decide)

namespace Retry

variable {operation : σ → Attempt ε α × σ}

/-- The state after an operation was made some times. -/
def after (operation : σ → Attempt ε α × σ) (times : Nat) (s : σ) : σ :=
  (fun s => (operation s).2)^[times] s

/-- How the attempt after some others ends. -/
def endingAt? (operation : σ → Attempt ε α × σ) (times : Nat) (s : σ) : Option (Except ε α) :=
  (operation (after operation times s)).1.ending?

theorem after_succ (times : Nat) (s : σ) :
    after operation (times + 1) s = after operation times (operation s).2 := rfl

theorem endingAt?_succ (times : Nat) (s : σ) :
    endingAt? operation (times + 1) s = endingAt? operation times (operation s).2 := rfl

variable [PauseError ε]

/-- After a failure what comes of the attempts is what comes of those that are left. -/
theorem attemptFrom_of_failure (p : RetryPolicy) (description : String) (left number : Nat) {s : σ}
    (h : endingAt? operation 0 s = none)
    (hpause : 0 < left → (p.pauseAfter? number).isSome = true) :
    let ended := attemptFrom p description operation (left + 1) number s
    let rest := attemptFrom p description operation left (number + 1) (operation s).2
    ended.1.result = rest.1.result ∧ ended.1.calls = rest.1.calls + 1 ∧ ended.2 = rest.2 := by
  obtain ⟨reason, hreason⟩ := Attempt.exists_reason h
  have hfailed : operation s = (.failure reason, (operation s).2) := Prod.ext hreason rfl
  dsimp only
  rw [attemptFrom, hfailed]
  dsimp only
  by_cases hleft : left = 0
  · subst hleft
    exact ⟨rfl, rfl, rfl⟩
  · obtain ⟨pause, hpause⟩ := Option.isSome_iff_exists.mp (hpause (Nat.pos_of_ne_zero hleft))
    rw [if_neg hleft, hpause]
    exact ⟨rfl, rfl, rfl⟩

/-- What is noted of attempts are complaints and pauses. -/
theorem countP_notes_attemptFrom (p : RetryPolicy) (description : String) {q : Note → Bool}
    (hcomplaints : ∀ text, q (.warning text) = false ∧ q (.error text) = false)
    (hpauses : ∀ length, q (.pause length) = false) (left number : Nat) (s : σ) :
    (attemptFrom p description operation left number s).1.notes.countP q = 0 := by
  induction left generalizing number s with
  | zero => rfl
  | succ left ih =>
      rw [attemptFrom]
      rcases operation s with ⟨a | reason | e, s'⟩
      · rfl
      · dsimp only
        split
        · simp [(hcomplaints _).2]
        · split
          · rfl
          · simp [(hcomplaints _).1, hpauses, ih]
      · rfl

/-- What ends the attempts before their time is a crash of one of them, or a pause that is too
long. -/
theorem exists_crash_of_attemptFrom (p : RetryPolicy) (description : String) {left number : Nat}
    {s : σ} {e : ε} (hpauses : ∀ i, i + 1 < left → (p.pauseAfter? (number + i)).isSome = true)
    (h : (attemptFrom p description operation left number s).1.result = .error e) :
    ∃ s', (operation s').1 = .crash e := by
  induction left generalizing number s with
  | zero => cases h
  | succ left ih =>
      rw [attemptFrom] at h
      rcases hend : operation s with ⟨a | reason | e', s'⟩ <;> rw [hend] at h <;> dsimp only at h
      · cases h
      · split at h
        · cases h
        · split at h
          · next hleft hpause =>
              have hsome := hpauses 0 (by omega)
              rw [Nat.add_zero, hpause] at hsome
              cases hsome
          · refine ih (fun i hi => ?_) h
            rw [Nat.add_right_comm, Nat.add_assoc]
            exact hpauses (i + 1) (by omega)
      · obtain rfl := Except.error.inj h
        exact ⟨s, by rw [hend]⟩

/-- When every attempt fails, nothing comes of as many as are allowed. -/
theorem attemptFrom_of_failures (p : RetryPolicy) (description : String) {left : Nat}
    (number : Nat) {s : σ}
    (hpauses : ∀ i, i + 1 < left → (p.pauseAfter? (number + i)).isSome = true)
    (h : ∀ i < left, endingAt? operation i s = none) :
    let ended := attemptFrom p description operation left number s
    ended.1.result = .ok none ∧ ended.1.calls = left ∧ ended.2 = after operation left s := by
  induction left generalizing number s with
  | zero => exact ⟨rfl, rfl, rfl⟩
  | succ left ih =>
      obtain ⟨hresult, hcalls, hstate⟩ :=
        attemptFrom_of_failure p description left number (h 0 left.succ_pos)
          fun hleft => hpauses 0 (by omega)
      have hrest : ∀ i < left, endingAt? operation i (operation s).2 = none := by
        intro i hi
        rw [← endingAt?_succ]
        exact h (i + 1) (Nat.succ_lt_succ hi)
      obtain ⟨hresult', hcalls', hstate'⟩ := ih (number + 1)
        (fun i hi => by rw [Nat.add_right_comm]; exact hpauses (i + 1) (by omega)) hrest
      exact ⟨hresult.trans hresult', by rw [hcalls, hcalls'], hstate.trans hstate'⟩

/-- The first attempt that is no failure gives what comes of the attempts, and none is made after
it. -/
theorem attemptFrom_of_ending (p : RetryPolicy) (description : String) {left i : Nat}
    (number : Nat) {s : σ}
    (hpauses : ∀ j, j + 1 < left → (p.pauseAfter? (number + j)).isSome = true) (hi : i < left)
    (hbefore : ∀ j < i, endingAt? operation j s = none) {ending : Except ε α}
    (hending : endingAt? operation i s = some ending) :
    let ended := attemptFrom p description operation left number s
    ended.1.result = ending.map some ∧ ended.1.calls = i + 1 ∧
    ended.2 = after operation (i + 1) s := by
  induction i generalizing left number s with
  | zero =>
      obtain ⟨left, rfl⟩ := Nat.exists_eq_succ_of_ne_zero (Nat.ne_zero_of_lt hi)
      have hstep : after operation 1 s = (operation s).2 := rfl
      replace hending : (operation s).1.ending? = some ending := hending
      dsimp only
      rw [attemptFrom, hstep]
      revert hending
      rcases operation s with ⟨a | reason | e, s'⟩ <;> intro hending
      · obtain rfl : .ok a = ending := Option.some.inj hending
        exact ⟨rfl, rfl, rfl⟩
      · cases hending
      · obtain rfl : .error e = ending := Option.some.inj hending
        exact ⟨rfl, rfl, rfl⟩
  | succ i ih =>
      obtain ⟨left, rfl⟩ := Nat.exists_eq_succ_of_ne_zero (Nat.ne_zero_of_lt hi)
      obtain ⟨hresult, hcalls, hstate⟩ :=
        attemptFrom_of_failure p description left number (hbefore 0 i.succ_pos)
          fun hleft => hpauses 0 (by omega)
      obtain ⟨hresult', hcalls', hstate'⟩ := ih (number + 1)
        (fun j hj => by rw [Nat.add_right_comm]; exact hpauses (j + 1) (by omega))
        (Nat.lt_of_succ_lt_succ hi)
        (fun j hj => hbefore (j + 1) (Nat.succ_lt_succ hj)) hending
      exact ⟨hresult.trans hresult', by rw [hcalls, hcalls'], hstate.trans hstate'⟩

end Retry

end FrontendAudit
