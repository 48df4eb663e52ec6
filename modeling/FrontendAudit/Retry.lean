import FrontendAudit.Journal

/-!
# Retrying

An operation that may fail is attempted a limited number of times. Before each further attempt there
is a pause, twice as long as the one before. A failure is noted; the last one is noted as an error,
and then nothing comes of the operation. A crash is no failure: it ends the attempts at once, and so
does a pause that is too long to be told.
-/

namespace FrontendAudit

/-- How an attempt ended. -/
inductive Attempt (ε α : Type) where
  | value (a : α)
  | failure (reason : String)
  | crash (e : ε)
  deriving Repr

/-- How often an operation is attempted, and how long the first pause is. -/
structure RetryPolicy where
  attempts : Nat := 3
  firstPause : Duration := .measured (.ofInt 1)
  deriving Repr, Inhabited

/-- The pause after the failure of an attempt, counted from one, if its length can be told. -/
def RetryPolicy.pauseAfter? (p : RetryPolicy) (attempt : Nat) : Option Duration :=
  p.firstPause.doubled? (attempt - 1)

/-- Errors one of which says that a pause is too long to be told. -/
class PauseError (ε : Type) where
  tooLong : ε

/-- What came of the attempts, how many there were, and what was noted. -/
structure Retried (ε α : Type) where
  result : Except ε (Option α)
  calls : Nat
  notes : List Note

namespace Retry

/-- The warning about a failure after which there is a pause and another attempt. -/
def retryText (p : RetryPolicy) (description : String) (attempt : Nat) (reason : String)
    (pause : Duration) : String :=
  description ++ " failed (attempt " ++ toString attempt ++ "/" ++ toString p.attempts ++ "): " ++
    reason ++ "; retrying in " ++ String.ofList (pause.toBinary64.fixedText 1) ++ "s"

/-- The error about the last failure. -/
def lastText (p : RetryPolicy) (description reason : String) : String :=
  description ++ " failed after " ++ toString p.attempts ++ " attempts: " ++ reason

section

variable [PauseError ε]

/-- Attempts an operation, `left` times at most, the next attempt being the one of the given
number. -/
def attemptFrom (p : RetryPolicy) (description : String) (operation : σ → Attempt ε α × σ) :
    Nat → Nat → σ → Retried ε α × σ
  | 0, _, s => (⟨.ok none, 0, []⟩, s)
  | left + 1, attempt, s =>
    match operation s with
    | (.value a, s) => (⟨.ok (some a), 1, []⟩, s)
    | (.crash e, s) => (⟨.error e, 1, []⟩, s)
    | (.failure reason, s) =>
      if left = 0 then (⟨.ok none, 1, [.error (lastText p description reason)]⟩, s)
      else
        match p.pauseAfter? attempt with
        | none => (⟨.error PauseError.tooLong, 1, []⟩, s)
        | some pause =>
          let (rest, s) := attemptFrom p description operation left (attempt + 1) s
          (⟨rest.result, rest.calls + 1,
            .warning (retryText p description attempt reason pause) :: .pause pause ::
              rest.notes⟩, s)

/-- Attempts an operation as often as the policy allows. -/
def run (p : RetryPolicy) (description : String) (operation : σ → Attempt ε α × σ) (s : σ) :
    Retried ε α × σ :=
  attemptFrom p description operation p.attempts 1 s

theorem calls_attemptFrom_le (p : RetryPolicy) (description : String)
    (operation : σ → Attempt ε α × σ) (left attempt : Nat) (s : σ) :
    (attemptFrom p description operation left attempt s).1.calls ≤ left := by
  induction left generalizing attempt s with
  | zero => simp [attemptFrom]
  | succ left ih =>
    rw [attemptFrom]
    split
    · simp
    · simp
    · split
      · simp
      · split
        · simp
        · exact Nat.succ_le_succ (ih _ _)

end

end Retry

end FrontendAudit
