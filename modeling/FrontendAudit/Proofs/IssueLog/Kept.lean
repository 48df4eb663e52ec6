import FrontendAudit.IssueLog

/-!
# What a log keeps

An open log keeps the first of the findings that it is given, as many as its limit allows, and drops
the others (`Took`). Recording goes on with this; the writer has no part in it, whatever its faults,
and neither has closing.
-/

namespace FrontendAudit

namespace IssueLog

/-- An open log keeps the first of the findings that it was given, up to its limit, and has dropped
the others. -/
structure Took (limit : Nat) (given : List Finding) (log : IssueLog) : Prop where
  accepts : log.accepts = true
  limit_eq : log.limit = limit
  kept : log.kept = given.take limit
  dropped : log.dropped = given.length - limit

/-! ## The writer -/

theorem write_kept (log : IssueLog) (fault : Option WriteFault) :
    (log.write fault).1.kept = log.kept := by
  unfold write
  split
  · split
    · rfl
    · cases fault with
      | none => rfl
      | some fault => cases fault <;> rfl
  · rfl
  · rfl

theorem Took.write {limit : Nat} {given : List Finding} {log : IssueLog}
    (h : Took limit given log) (fault : Option WriteFault) :
    Took limit given (log.write fault).1 := by
  have hkept := log.write_kept fault
  unfold IssueLog.write at hkept ⊢
  split
  · split
    · exact { h with }
    · cases fault with
      | none => exact { h with }
      | some fault => cases fault <;> exact { h with }
  · exact { h with }
  · exact h

theorem drain_kept (faults : Nat → Option WriteFault) (fuel : Nat) (log : IssueLog) :
    (drain faults fuel log).1.kept = log.kept := by
  induction fuel generalizing log with
  | zero => rfl
  | succ fuel ih => exact (ih _).trans (log.write_kept _)

theorem close_kept (log : IssueLog) (faults : Nat → Option WriteFault) :
    (log.close faults).1.kept = log.kept := by
  unfold close
  split
  · rfl
  · cases hwriting : log.writing with
    | true => exact drain_kept faults _ _
    | false => rfl

/-! ## Recording -/

section

variable {limit : Nat} {given : List Finding} {log : IssueLog}

theorem Took.length_kept (h : Took limit given log) : log.kept.length = min limit given.length := by
  rw [h.kept, List.length_take]

theorem Took.record (h : Took limit given log) (f : Finding) :
    ∃ recorded log' notes, log.record f = some (recorded, log', notes) ∧
      Took limit (given ++ [f]) log' := by
  have hlen := h.length_kept
  have hlength : (given ++ [f]).length = given.length + 1 := List.length_append
  have hopen : (!log.accepts) = false := by rw [h.accepts]; rfl
  by_cases hfull : limit ≤ given.length
  · have hle : log.limit ≤ log.kept.length := by rw [h.limit_eq]; omega
    refine ⟨.dropped, { log with dropped := log.dropped + 1 },
      if log.dropped = 0 then [.warning log.limitText] else [], ?_, ?_⟩
    · rw [IssueLog.record, hopen, if_neg Bool.false_ne_true, if_pos hle]
    · refine { h with kept := ?_, dropped := ?_ }
      · rw [List.take_append_of_le_length hfull]
        exact h.kept
      · show log.dropped + 1 = _
        have := h.dropped
        omega
  · have hlt : ¬ log.limit ≤ log.kept.length := by rw [h.limit_eq]; omega
    refine ⟨.kept, { log with
      kept := log.kept ++ [f]
      queue := if log.writing then log.queue ++ [.line (lineOf f)] else log.queue }, [], ?_, ?_⟩
    · rw [IssueLog.record, hopen, if_neg Bool.false_ne_true, if_neg hlt]
    · refine { h with kept := ?_, dropped := ?_ }
      · show log.kept ++ [f] = _
        rw [h.kept, List.take_of_length_le (by omega), List.take_of_length_le (by omega)]
      · show log.dropped = _
        have := h.dropped
        omega

theorem Took.recordAll (h : Took limit given log) (fs : List Finding) :
    ∃ log' notes, log.recordAll fs = some (log', notes) ∧ Took limit (given ++ fs) log' := by
  induction fs generalizing given log with
  | nil => exact ⟨log, [], rfl, by rwa [List.append_nil]⟩
  | cons f fs ih =>
      obtain ⟨recorded, log₁, notes, hrecord, htook⟩ := h.record f
      obtain ⟨log₂, more, hrest, htook₂⟩ := ih htook
      refine ⟨log₂, notes ++ more, ?_, by rwa [List.append_assoc] at htook₂⟩
      rw [IssueLog.recordAll, hrecord]
      simp only [hrest, Option.map_some]

/-- A log that could be opened takes findings, the limit being all that binds it. -/
theorem Took.start {category : String} {directory : Option Path} {possible : Bool}
    {log : IssueLog} (limit : Nat)
    (h : (new category directory limit).start possible = (.ok (), log)) : Took limit [] log := by
  unfold IssueLog.start at h
  simp only [new, Bool.false_eq_true, if_false] at h
  split at h
  · obtain ⟨-, rfl⟩ := Prod.mk.inj h
    exact ⟨rfl, rfl, List.take_nil.symm, (Nat.zero_sub limit).symm⟩
  · split at h
    · obtain ⟨-, rfl⟩ := Prod.mk.inj h
      exact ⟨rfl, rfl, List.take_nil.symm, (Nat.zero_sub limit).symm⟩
    · cases (Prod.mk.inj h).1

end

end IssueLog

end FrontendAudit
