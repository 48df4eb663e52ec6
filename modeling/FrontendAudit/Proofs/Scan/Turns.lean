import FrontendAudit.Proofs.Scan.History

/-!
# Every order of a batch leads to the next

The scans of a batch may start and end in any order in which each starts once and then ends once
(`Interleaves`): such events are all possible and lead to the next batch (`Interleaves.run`). What
remains of them after some events is what the stages of the slots say (`Remains`), which every event
keeps. So a run whose scans take any number of turns comes to its end (`run_ofBatches`).
-/

namespace FrontendAudit

namespace ScanEvent

theorem filter_place_cons {e : ScanEvent} {place : Nat} (h : e.place = place)
    (es : List ScanEvent) :
    (e :: es).filter (·.place = place) = e :: es.filter (·.place = place) :=
  List.filter_cons_of_pos (by simpa using h)

/-- Each of the given number of scans starts once, and ends once after that. -/
def Interleaves (scans : Nat) (events : List ScanEvent) : Prop :=
  ∀ place, events.filter (·.place = place) =
    if place < scans then [.start place, .finish place] else []

end ScanEvent

namespace Schedule

/-- The events that remain of a batch are, for each slot, those that its stage has not passed. -/
structure Remains (s : Schedule) (events : List ScanEvent) : Prop where
  slot : ∀ (place : Nat) (slot : Slot), s.current[place]? = some slot →
    slot.stage.passed place ++ events.filter (·.place = place) = [.start place, .finish place]
  beyond : ∀ e ∈ events, e.place < s.current.length

section

variable {s : Schedule} {e : ScanEvent} {es : List ScanEvent}

/-- The scans of a batch that waits are all still to come. -/
theorem Remains.beginBatch (s : Schedule)
    (h : ScanEvent.Interleaves s.beginBatch.current.length es) :
    s.beginBatch.Remains es := by
  constructor
  · intro place slot hslot
    obtain ⟨hlt, -⟩ := List.getElem?_eq_some_iff.mp hslot
    obtain ⟨file, -, rfl⟩ := List.mem_map.mp (List.mem_of_getElem? hslot)
    rw [h place, if_pos hlt]
    rfl
  · intro e he
    by_cases hlt : e.place < s.beginBatch.current.length
    · exact hlt
    · have hnone := h e.place
      rw [if_neg hlt] at hnone
      exact absurd (decide_eq_true rfl) (List.filter_eq_nil_iff.mp hnone e he)

/-- Passing one event of a slot leaves the events behind it. -/
theorem Remains.set {place : Nat} {file : ScannedFile} {stage stage' : ScanStage}
    (h : s.Remains (e :: es)) (hslot : s.current[place]? = some ⟨file, stage⟩)
    (hplace : e.place = place) (hpassed : stage'.passed place = stage.passed place ++ [e]) :
    Remains { s with current := s.current.set place ⟨file, stage'⟩ } es := by
  obtain ⟨hlt, -⟩ := List.getElem?_eq_some_iff.mp hslot
  constructor
  · intro i slot hi
    change (s.current.set place ⟨file, stage'⟩)[i]? = some slot at hi
    by_cases hip : place = i
    · subst hip
      rw [List.getElem?_set_self hlt] at hi
      have hold := h.slot place _ hslot
      rw [ScanEvent.filter_place_cons hplace] at hold
      rw [← Option.some.inj hi]
      show stage'.passed place ++ _ = _
      rw [hpassed, List.append_assoc]
      exact hold
    · rw [List.getElem?_set_ne hip] at hi
      have hold := h.slot i slot hi
      rwa [List.filter_cons_of_neg (by simpa [hplace] using hip)] at hold
  · intro e' he'
    show e'.place < (s.current.set place ⟨file, stage'⟩).length
    rw [List.length_set]
    exact h.beyond e' (List.mem_cons_of_mem _ he')

/-- When no event remains every scan has ended. -/
theorem Remains.isSettled (h : s.Remains []) : s.isSettled = true := by
  rw [Schedule.isSettled, List.all_eq_true]
  intro slot hmem
  obtain ⟨place, hslot⟩ := List.mem_iff_getElem?.mp hmem
  have hpassed := h.slot place slot hslot
  cases hstage : slot.stage with
  | ended => rfl
  | waiting | running => simp [hstage, ScanStage.passed] at hpassed

/-- When every scan has ended no event remains. -/
theorem Remains.eq_nil (h : s.Remains es) (hsettled : s.isSettled = true) : es = [] := by
  cases es with
  | nil => rfl
  | cons e es =>
      have hlt := h.beyond e List.mem_cons_self
      have hpassed := h.slot e.place _ (List.getElem?_eq_getElem hlt)
      have hended := List.all_eq_true.mp hsettled _ (List.getElem_mem hlt)
      simp only [decide_eq_true_eq] at hended
      rw [hended, ScanEvent.filter_place_cons rfl] at hpassed
      simp [ScanStage.passed] at hpassed

/-- The first event that remains is possible. -/
theorem Remains.first (h : s.Remains (e :: es)) :
    (∃ place file, e = .start place ∧ s.current[place]? = some ⟨file, .waiting⟩) ∨
    (∃ place file, e = .finish place ∧ s.current[place]? = some ⟨file, .running⟩) := by
  have hlt := h.beyond e List.mem_cons_self
  obtain ⟨⟨file, stage⟩, hslot⟩ : ∃ slot, s.current[e.place]? = some slot :=
    ⟨_, List.getElem?_eq_getElem hlt⟩
  have hpassed := h.slot e.place _ hslot
  rw [ScanEvent.filter_place_cons rfl] at hpassed
  cases stage with
  | waiting => exact .inl ⟨e.place, file, (List.cons.inj hpassed).1, hslot⟩
  | running =>
      exact .inr ⟨e.place, file, (List.cons.inj (List.cons.inj hpassed).2).1, hslot⟩
  | ended => simp [ScanStage.passed] at hpassed

theorem settle_of_isSettled (hsettled : s.isSettled = true) :
    ∃ s₁ : Schedule, s.settle = s₁.beginBatch ∧ s₁.pending = s.pending ∧
      s₁.batchSize = s.batchSize :=
  ⟨_, if_pos hsettled, rfl, rfl⟩

/-- The events that remain of a batch are possible and lead to the next batch. -/
theorem Remains.run (h : s.Remains es) (hne : s.current ≠ []) (hopen : s.UnderWay) :
    ∃ s₁ : Schedule, s.run es = some s₁.beginBatch ∧ s₁.pending = s.pending ∧
      s₁.batchSize = s.batchSize := by
  -- the events run out only with the last scan of the batch, whose end settles it
  induction es generalizing s with
  | nil =>
      have := hopen hne
      rw [h.isSettled] at this
      cases this
  | cons e es ih =>
      obtain ⟨place, file, rfl, hslot⟩ | ⟨place, file, rfl, hslot⟩ := h.first
      · have hnext : s.next (.start place) = some (s.started place file) := by
          simp [Schedule.next, hslot]
        have hset : Remains { s with current := s.current.set place ⟨file, .running⟩ } es :=
          h.set hslot rfl rfl
        have hrest : (s.started place file).Remains es := { hset with }
        have hne' : (s.started place file).current ≠ [] := by
          simpa [Schedule.started] using hne
        obtain ⟨s₁, hrun, hpending, hsize⟩ := ih hrest hne' (UnderWay.next hnext)
        exact ⟨s₁, run_cons_eq_some.mpr ⟨_, hnext, hrun⟩, hpending, hsize⟩
      · have hnext : s.next (.finish place) = some (s.finished place file).settle := by
          simp [Schedule.next, hslot]
        have hset : Remains { s with current := s.current.set place ⟨file, .ended⟩ } es :=
          h.set hslot rfl rfl
        have hrest : (s.finished place file).Remains es := { hset with }
        cases hsettled : (s.finished place file).isSettled with
        | true =>
            -- the batch was settled by its last event
            obtain rfl := hrest.eq_nil hsettled
            obtain ⟨s₁, hsettle, hpending, hsize⟩ := settle_of_isSettled hsettled
            rw [hsettle] at hnext
            exact ⟨s₁, run_cons_eq_some.mpr ⟨_, hnext, rfl⟩, hpending, hsize⟩
        | false =>
            have hsettle : (s.finished place file).settle = s.finished place file := by
              rw [Schedule.settle, hsettled, if_neg Bool.false_ne_true]
            rw [hsettle] at hnext
            have hne' : (s.finished place file).current ≠ [] := by
              simpa [Schedule.finished] using hne
            obtain ⟨s₁, hrun, hpending, hsize⟩ := ih hrest hne' (UnderWay.next hnext)
            exact ⟨s₁, run_cons_eq_some.mpr ⟨_, hnext, hrun⟩, hpending, hsize⟩

/-- A batch that waits can be gone through in every order of its scans. -/
theorem run_interleaves (s : Schedule) (hne : s.beginBatch.current ≠ [])
    (h : ScanEvent.Interleaves s.beginBatch.current.length es) :
    ∃ s₁ : Schedule, s.beginBatch.run es = some s₁.beginBatch ∧
      s₁.pending = s.pending.drop s.batchSize ∧ s₁.batchSize = s.batchSize :=
  (Remains.beginBatch s h).run hne (underWay_beginBatch s)

end

end Schedule

/-! ## Scans that take turns -/

namespace ScanEvent

/-- A scan's place stands once among places that are all places of a batch in some order. -/
theorem filter_eq_of_perm_range {places : List Nat} {scans : Nat}
    (h : places.Perm (List.range scans)) (place : Nat) :
    places.filter (· = place) = if place < scans then [place] else [] := by
  have hcount : places.count place = if place < scans then 1 else 0 := by
    rw [h.count_eq, List.nodup_range.count]
    simp only [List.mem_range]
  have hfilter : places.filter (· = place) = List.replicate (places.count place) place := by
    rw [← List.filter_eq]
  rw [hfilter, hcount]
  split <;> rfl

/-- The scans may start in any order and then end in any order. -/
theorem interleaves_of_perm {scans : Nat} {starts ends : List Nat}
    (hstarts : starts.Perm (List.range scans)) (hends : ends.Perm (List.range scans)) :
    Interleaves scans (starts.map .start ++ ends.map .finish) := by
  intro place
  have hstart : (starts.map start).filter (·.place = place) =
      (starts.filter (· = place)).map start := List.filter_map
  have hend : (ends.map finish).filter (·.place = place) =
      (ends.filter (· = place)).map finish := List.filter_map
  rw [List.filter_append, hstart, hend, filter_eq_of_perm_range hstarts,
    filter_eq_of_perm_range hends]
  split <;> rfl

/-- Scans that take a number of turns each are one of the orders of a batch. -/
theorem interleaves_ofTurns (turns : List Nat) : Interleaves turns.length (ofTurns turns) := by
  have hplaces : (turns.zipIdx.map (·.2)) = List.range turns.length := by
    rw [List.zipIdx_map_snd, List.range_eq_range']
  have hsorted := (List.mergeSort_perm turns.zipIdx fun a b => a.1 ≤ b.1).map (·.2)
  rw [hplaces] at hsorted
  have h := interleaves_of_perm (List.Perm.refl _) hsorted
  rw [← hplaces, List.map_map, List.map_map] at h
  exact h

end ScanEvent

namespace Schedule

/-- A run whose scans take any number of turns comes to its end, with fuel for its batches. -/
theorem run_ofBatches (s : Schedule) (hsize : 1 ≤ s.batchSize) (fuel : Nat) (turns : List Nat)
    (hturns : turns.length = s.pending.length) (hfuel : turns.length ≤ fuel) :
    ∃ s', s.beginBatch.run (ScanEvent.ofBatches s.batchSize fuel turns) = some s' ∧
      s'.isDone = true := by
  induction fuel generalizing s turns with
  | zero =>
      have hpending : s.pending = [] := List.eq_nil_of_length_eq_zero (by omega)
      refine ⟨_, rfl, ?_⟩
      simp [isDone, Schedule.beginBatch, hpending]
  | succ fuel ih =>
      rw [ScanEvent.ofBatches]
      split
      · next hnone =>
          have hpending : s.pending = [] := by
            refine List.eq_nil_of_length_eq_zero ?_
            have := congrArg List.length hnone
            rw [List.length_take, List.length_nil] at this
            omega
          refine ⟨_, rfl, ?_⟩
          simp [isDone, Schedule.beginBatch, hpending]
      · next hsome =>
          have hlen : (turns.take s.batchSize).length = s.beginBatch.current.length := by
            simp [Schedule.beginBatch, hturns]
          have hne : s.beginBatch.current ≠ [] := by
            intro hcurrent
            rw [hcurrent, List.length_nil] at hlen
            exact hsome (List.eq_nil_of_length_eq_zero hlen)
          have hpos : 0 < turns.length := by
            refine List.length_pos_iff.mpr fun hnil => hsome ?_
            rw [hnil, List.take_nil]
          have hbatch := ScanEvent.interleaves_ofTurns (turns.take s.batchSize)
          rw [hlen] at hbatch
          obtain ⟨s₁, hrun, hpending, hsame⟩ := run_interleaves s hne hbatch
          obtain ⟨s₂, hrest, hdone⟩ := ih s₁ (by omega) (turns.drop s.batchSize)
            (by rw [hpending, List.length_drop, List.length_drop, hturns])
            (by rw [List.length_drop]; omega)
          refine ⟨s₂, ?_, hdone⟩
          rw [run_append, hrun, Option.bind_some]
          rwa [hsame] at hrest

/-- A run whose scans take turns comes to its end. -/
theorem initial_run_ofBatches (label : Option String) (size : Nat)
    (signals : Accessibility.Signals) (files : List ScannedFile) (hsize : 1 ≤ size)
    (turns : List Nat) (hturns : turns.length = files.length) :
    ∃ s, (initial label size signals files).run (ScanEvent.ofBatches size files.length turns) =
      some s ∧ s.isDone = true :=
  run_ofBatches { label, batchSize := size, total := files.length, current := [], pending := files
                  tally := { signals } } hsize files.length turns hturns (Nat.le_of_eq hturns)

end Schedule

end FrontendAudit
