import FrontendAudit.Proofs.Retry
import FrontendAudit.World

/-!
# What a step of a run depends on

Some steps leave the world as it is (`Run.LeavesWorld`). Others give the same in worlds that are
alike in some respect, and leave worlds that are still alike (`Run.Agrees`); where that respect is
the pages that the outside serves, what they give depends on nothing else (`Run.DependsOnPages`).
Others again only fail in some ways (`Run.FailsIn`), or keep to an invariant of the world and give
only what it admits (`Run.Gives`). These properties are kept when steps follow each other, so that
they hold of a whole computation when they hold of each of its steps.
-/

namespace FrontendAudit

namespace Run

section

variable {α β ε : Type}

theorem bind_ok {step : Run α} {k : α → Run β} {w w' : World} {a : α}
    (h : step w = (.ok a, w')) : (step >>= k) w = k a w' := by
  show ExceptT.bindCont k (step w).1 (step w).2 = _
  rw [h]
  rfl

theorem bind_error {step : Run α} {k : α → Run β} {w w' : World} {e : Failure}
    (h : step w = (.error e, w')) : (step >>= k) w = (.error e, w') := by
  show ExceptT.bindCont k (step w).1 (step w).2 = _
  rw [h]
  rfl

/-! ## Steps that leave the world as it is -/

/-- A step that leaves the world as it is. -/
def LeavesWorld (step : Run α) : Prop := ∀ w, (step w).2 = w

theorem LeavesWorld.pure (a : α) : LeavesWorld (Pure.pure a : Run α) := fun _ => rfl

theorem LeavesWorld.throw (e : Failure) : LeavesWorld (MonadExcept.throw e : Run α) := fun _ => rfl

theorem LeavesWorld.get : LeavesWorld (MonadState.get : Run World) := fun _ => rfl

theorem LeavesWorld.ofExcept (fail : ε → Failure) (value : Except ε α) :
    LeavesWorld (ofExcept fail value) := by
  cases value with
  | ok a => exact .pure a
  | error e => exact .throw (fail e)

theorem LeavesWorld.bind {step : Run α} {k : α → Run β} (h : LeavesWorld step)
    (hk : ∀ a, LeavesWorld (k a)) : LeavesWorld (step >>= k) := by
  intro w
  have hw := h w
  rcases hstep : step w with ⟨e | a, w'⟩
  · rw [hstep] at hw
    rw [bind_error hstep]
    exact hw
  · rw [hstep] at hw
    rw [bind_ok hstep, hk a w']
    exact hw

/-! ## Steps that give the same in worlds that are alike -/

/-- A step that gives the same in worlds that are alike, and leaves worlds that are alike. -/
def Agrees (R : World → World → Prop) (step : Run α) : Prop :=
  ∀ w w', R w w' → (step w).1 = (step w').1 ∧ R (step w).2 (step w').2

/-- Worlds stay alike whatever is noted in them. -/
def KeptByNotes (R : World → World → Prop) : Prop :=
  ∀ w w' notes notes', R w w' → R (w.note notes) (w'.note notes')

section

variable {R : World → World → Prop}

theorem Agrees.pure (a : α) : Agrees R (Pure.pure a : Run α) := fun _ _ h => ⟨rfl, h⟩

theorem Agrees.throw (e : Failure) : Agrees R (MonadExcept.throw e : Run α) :=
  fun _ _ h => ⟨rfl, h⟩

theorem Agrees.note (hnotes : KeptByNotes R) (n : Note) : Agrees R (note n) :=
  fun w w' h => ⟨rfl, hnotes w w' _ _ h⟩

theorem Agrees.ofExcept (fail : ε → Failure) (value : Except ε α) :
    Agrees R (ofExcept fail value) := by
  cases value with
  | ok a => exact .pure a
  | error e => exact .throw (fail e)

/-- A step that reads from the world what alike worlds have in common. -/
theorem Agrees.get {k : World → Run β} (hread : ∀ w w', R w w' → k w = k w')
    (hk : ∀ w, Agrees R (k w)) : Agrees R (MonadState.get >>= k) := by
  intro w w' h
  show (k w w).1 = (k w' w').1 ∧ R (k w w).2 (k w' w').2
  rw [hread w w' h]
  exact hk w' w w' h

theorem Agrees.bind {step : Run α} {k : α → Run β} (h : Agrees R step) (hk : ∀ a, Agrees R (k a)) :
    Agrees R (step >>= k) := by
  intro w w' hw
  obtain ⟨hresult, hafter⟩ := h w w' hw
  rcases hstep : step w with ⟨e | a, w₁⟩ <;> rcases hstep' : step w' with ⟨e' | a', w₁'⟩ <;>
    rw [hstep, hstep'] at hresult hafter
  · rw [bind_error hstep, bind_error hstep']
    exact ⟨by rw [Except.error.inj hresult], hafter⟩
  · cases hresult
  · cases hresult
  · rw [bind_ok hstep, bind_ok hstep', Except.ok.inj hresult]
    exact hk a' w₁ w₁' hafter

/-- Attempts at a step end in the same way, one like the other. -/
theorem Agrees.attempt {step : Run α} (h : Agrees R step) {w w' : World} (hw : R w w') :
    (attempt step w).1 = (attempt step w').1 ∧ R (attempt step w).2 (attempt step w').2 := by
  obtain ⟨hresult, hafter⟩ := h w w' hw
  unfold Run.attempt
  rcases hstep : step w with ⟨x, w₁⟩
  rcases hstep' : step w' with ⟨x', w₁'⟩
  rw [hstep, hstep'] at hresult hafter
  obtain rfl : x = x' := hresult
  cases x with
  | ok a => exact ⟨rfl, hafter⟩
  | error e => cases e <;> exact ⟨rfl, hafter⟩

theorem Agrees.attemptFrom {step : Run α} (h : Agrees R step) (p : RetryPolicy)
    (description : String) (left number : Nat) {w w' : World} (hw : R w w') :
    (Retry.attemptFrom p description (Run.attempt step) left number w).1 =
        (Retry.attemptFrom p description (Run.attempt step) left number w').1 ∧
      R (Retry.attemptFrom p description (Run.attempt step) left number w).2
        (Retry.attemptFrom p description (Run.attempt step) left number w').2 := by
  induction left generalizing number w w' with
  | zero => exact ⟨rfl, hw⟩
  | succ left ih =>
      obtain ⟨hresult, hafter⟩ := h.attempt hw
      unfold Retry.attemptFrom
      rcases hstep : Run.attempt step w with ⟨x, w₁⟩
      rcases hstep' : Run.attempt step w' with ⟨x', w₁'⟩
      rw [hstep, hstep'] at hresult hafter
      obtain rfl : x = x' := hresult
      cases x with
      | value a => exact ⟨rfl, hafter⟩
      | crash e => exact ⟨rfl, hafter⟩
      | failure reason =>
          -- only a failure is tried again, unless it was the last attempt
          by_cases hleft : left = 0
          · subst hleft
            exact ⟨rfl, hafter⟩
          · simp only [if_neg hleft]
            cases p.pauseAfter? number with
            | none => exact ⟨rfl, hafter⟩
            | some pause =>
                obtain ⟨hrest, hlast⟩ := ih (number + 1) hafter
                exact ⟨by rw [hrest], hlast⟩

/-- Trying again gives the same when each attempt does. -/
theorem Agrees.retry {step : Run α} (h : Agrees R step) (hnotes : KeptByNotes R) (p : RetryPolicy)
    (description : String) : Agrees R (retry p description step) := by
  intro w w' hw
  obtain ⟨hretried, hafter⟩ := h.attemptFrom p description p.attempts 1 hw
  constructor
  · show (Retry.run p description (Run.attempt step) w).1.result =
      (Retry.run p description (Run.attempt step) w').1.result
    exact congrArg Retried.result hretried
  · exact hnotes _ _ _ _ hafter

end

/-! ## How steps fail -/

/-- A step that only fails in some ways. -/
def FailsIn (P : Failure → Prop) (step : Run α) : Prop := ∀ w e, (step w).1 = .error e → P e

section

variable {P : Failure → Prop}

theorem FailsIn.pure (a : α) : FailsIn P (Pure.pure a : Run α) := fun _ _ h => by cases h

theorem FailsIn.throw {e : Failure} (h : P e) : FailsIn P (MonadExcept.throw e : Run α) := by
  intro _ _ he
  cases he
  exact h

theorem FailsIn.get : FailsIn P (MonadState.get : Run World) := fun _ _ h => by cases h

theorem FailsIn.note (n : Note) : FailsIn P (note n) := fun _ _ h => by cases h

theorem FailsIn.act (f : World → α × World) : FailsIn P (act f) := fun _ _ h => by cases h

theorem FailsIn.ofExcept {fail : ε → Failure} (h : ∀ e, P (fail e)) (value : Except ε α) :
    FailsIn P (ofExcept fail value) := by
  cases value with
  | ok a => exact .pure a
  | error e => exact .throw (h e)

theorem FailsIn.bind {step : Run α} {k : α → Run β} (h : FailsIn P step)
    (hk : ∀ a, FailsIn P (k a)) :
    FailsIn P (step >>= k) := by
  intro w e he
  rcases hstep : step w with ⟨e' | a, w'⟩
  · rw [bind_error hstep] at he
    obtain rfl := Except.error.inj he
    exact h w _ (by rw [hstep])
  · rw [bind_ok hstep] at he
    exact hk a w' e he

/-- Trying again adds no way to fail, as long as the pauses can be told. -/
theorem FailsIn.retry {step : Run α} (h : FailsIn P step) {p : RetryPolicy} (hp : p.TellsPauses)
    (description : String) : FailsIn P (retry p description step) := by
  intro w e he
  obtain ⟨w', hcrash⟩ := Retry.exists_crash_of_attemptFrom p description hp he
  unfold attempt at hcrash
  split at hcrash
  · cases hcrash
  · cases hcrash
  · next e' w'' _ hstep =>
      obtain rfl := Attempt.crash.inj hcrash
      exact h w' _ (by rw [hstep])

end

/-! ## What steps give -/

/-- A step that keeps to an invariant of the world, and of what it gives a property holds. -/
def Gives (I : World → Prop) (P : α → Prop) (step : Run α) : Prop :=
  ∀ w, I w → I (step w).2 ∧ ∀ a, (step w).1 = .ok a → P a

section

variable {I : World → Prop} {P : α → Prop} {Q : β → Prop}

theorem Gives.pure {a : α} (h : P a) : Gives I P (Pure.pure a : Run α) := by
  refine fun w hw => ⟨hw, fun b hb => ?_⟩
  obtain rfl := Except.ok.inj hb
  exact h

theorem Gives.throw (e : Failure) : Gives I P (MonadExcept.throw e : Run α) :=
  fun _ hw => ⟨hw, fun _ h => by cases h⟩

theorem Gives.get : Gives I I (MonadState.get : Run World) := by
  refine fun w hw => ⟨hw, fun v hv => ?_⟩
  obtain rfl := Except.ok.inj hv
  exact hw

theorem Gives.ofExcept {fail : ε → Failure} {value : Except ε α} (h : ∀ a, value = .ok a → P a) :
    Gives I P (ofExcept fail value) := by
  cases value with
  | ok a => exact .pure (h a rfl)
  | error e => exact .throw (fail e)

theorem Gives.act {f : World → α × World} (h : ∀ w, I w → I (f w).2 ∧ P (f w).1) :
    Gives I P (act f) := by
  refine fun w hw => ⟨(h w hw).1, fun a ha => ?_⟩
  obtain rfl := Except.ok.inj ha
  exact (h w hw).2

theorem Gives.note (hnotes : ∀ w notes, I w → I (w.note notes)) (n : Note) :
    Gives I (fun _ => True) (note n) :=
  fun w hw => ⟨hnotes w [n] hw, fun _ _ => trivial⟩

/-- A step that leaves the world as it is keeps to any invariant. -/
theorem LeavesWorld.gives {step : Run α} (h : LeavesWorld step) : Gives I (fun _ => True) step :=
  fun w hw => ⟨(h w).symm ▸ hw, fun _ _ => trivial⟩

theorem Gives.mono {P' : α → Prop} {step : Run α} (h : Gives I P step) (himp : ∀ a, P a → P' a) :
    Gives I P' step :=
  fun w hw => ⟨(h w hw).1, fun a ha => himp a ((h w hw).2 a ha)⟩

theorem Gives.bind {step : Run α} {k : α → Run β} (h : Gives I P step)
    (hk : ∀ a, P a → Gives I Q (k a)) :
    Gives I Q (step >>= k) := by
  intro w hw
  obtain ⟨hafter, hgiven⟩ := h w hw
  rcases hstep : step w with ⟨e | a, w'⟩
  · rw [hstep] at hafter
    rw [bind_error hstep]
    exact ⟨hafter, fun _ hb => by cases hb⟩
  · rw [hstep] at hafter hgiven
    rw [bind_ok hstep]
    exact hk a (hgiven a rfl) w' hafter

/-- An attempt gives what the step gives. -/
theorem Gives.attempt {step : Run α} (h : Gives I P step) {w : World} (hw : I w) :
    I (attempt step w).2 ∧ ∀ a, (attempt step w).1 = .value a → P a := by
  obtain ⟨hafter, hgiven⟩ := h w hw
  unfold Run.attempt
  rcases hstep : step w with ⟨e | a, w'⟩
  · rw [hstep] at hafter
    cases e <;> exact ⟨hafter, fun _ hb => by cases hb⟩
  · rw [hstep] at hafter hgiven
    refine ⟨hafter, fun b hb => ?_⟩
    obtain rfl := Attempt.value.inj hb
    exact hgiven a rfl

theorem Gives.attemptFrom {step : Run α} (h : Gives I P step) (p : RetryPolicy)
    (description : String) (left number : Nat) {w : World} (hw : I w) :
    I (Retry.attemptFrom p description (Run.attempt step) left number w).2 ∧
      ∀ a, (Retry.attemptFrom p description (Run.attempt step) left number w).1.result =
        .ok (some a) → P a := by
  induction left generalizing number w with
  | zero => exact ⟨hw, fun _ ha => by cases ha⟩
  | succ left ih =>
      obtain ⟨hafter, hgiven⟩ := h.attempt hw
      unfold Retry.attemptFrom
      rcases hstep : Run.attempt step w with ⟨x, w'⟩
      rw [hstep] at hafter hgiven
      cases x with
      | value a =>
          refine ⟨hafter, fun b hb => ?_⟩
          obtain rfl := Option.some.inj (Except.ok.inj hb)
          exact hgiven a rfl
      | crash e => exact ⟨hafter, fun _ hb => by cases hb⟩
      | failure reason =>
          by_cases hleft : left = 0
          · subst hleft
            exact ⟨hafter, fun _ hb => by cases hb⟩
          · simp only [if_neg hleft]
            cases p.pauseAfter? number with
            | none => exact ⟨hafter, fun _ hb => by cases hb⟩
            | some pause => exact ih (number + 1) hafter

/-- Trying again gives what the step gives, or nothing. -/
theorem Gives.retry {step : Run α} (h : Gives I P step) (hnotes : ∀ w notes, I w → I (w.note notes))
    (p : RetryPolicy) (description : String) :
    Gives I (fun a? => ∀ a, a? = some a → P a) (retry p description step) := by
  intro w hw
  obtain ⟨hafter, hgiven⟩ := h.attemptFrom p description p.attempts 1 hw
  refine ⟨hnotes _ _ hafter, ?_⟩
  rintro a? ha a rfl
  exact hgiven a ha

end

/-! ## Steps that depend on the pages only -/

/-- A step whose outcome depends on the pages that are served, and which leaves the same pages. -/
def DependsOnPages (step : Run α) : Prop :=
  ∀ w w', w.pages = w'.pages →
    (step w).1 = (step w').1 ∧ (step w).2.pages = (step w').2.pages

theorem fetch_pages (url : String) {w w' : World} (h : w.pages = w'.pages) :
    (World.fetch url w).1 = (World.fetch url w').1 ∧
      (World.fetch url w).2.pages = (World.fetch url w').2.pages := by
  simp only [World.fetch, World.note, h, and_self]

end

end Run

end FrontendAudit
