import Mathlib.Data.List.Forall2

/-!
# Computations that may fail

When computations follow each other, or one is done for each of a list, the whole succeeds exactly
when each of them does.
-/

namespace FrontendAudit

variable {α β ε : Type}

theorem bind_eq_ok {x : Except ε α} {k : α → Except ε β} {b : β} :
    x >>= k = .ok b ↔ ∃ a, x = .ok a ∧ k a = .ok b := by
  cases x <;> simp [bind, Except.bind]

theorem bind_eq_error {x : Except ε α} {k : α → Except ε β} {e : ε} :
    x >>= k = .error e ↔ x = .error e ∨ ∃ a, x = .ok a ∧ k a = .error e := by
  cases x <;> simp [bind, Except.bind]

theorem isOk_map (x : Except ε α) (f : α → β) : (x.map f).isOk = x.isOk := by
  cases x <;> rfl

theorem exists_bind_eq_ok {x : Except ε α} {k : α → Except ε β} :
    (∃ b, x >>= k = .ok b) ↔ ∃ a, x = .ok a ∧ ∃ b, k a = .ok b := by
  simp only [bind_eq_ok]
  constructor
  · rintro ⟨b, a, ha, hb⟩
    exact ⟨a, ha, b, hb⟩
  · rintro ⟨a, ha, b, hb⟩
    exact ⟨b, a, ha, hb⟩

/-! ## For each of a list -/

theorem mapM_congr {f g : α → Except ε β} {l : List α} (h : ∀ a ∈ l, f a = g a) :
    l.mapM f = l.mapM g := by
  induction l with
  | nil => rfl
  | cons a l ih =>
      rw [List.forall_mem_cons] at h
      rw [List.mapM_cons, List.mapM_cons, h.1, ih h.2]

theorem mapM_map {γ : Type} (f : α → Except ε β) (g : β → γ) (l : List α) :
    l.mapM (fun a => (f a).map g) = (l.mapM f).map (List.map g) := by
  induction l with
  | nil => rfl
  | cons a l ih =>
      rw [List.mapM_cons, List.mapM_cons, ih]
      cases f a with
      | error e => rfl
      | ok b => cases l.mapM f <;> rfl

/-- When the computations for each fail alike, so does the whole. -/
theorem mapM_eq_error_congr {f g : α → Except ε β}
    (h : ∀ a, (f a).map (fun _ => ()) = (g a).map fun _ => ()) {l : List α} {e : ε} :
    l.mapM f = .error e ↔ l.mapM g = .error e := by
  have hshape : (l.mapM f).map (List.map fun _ => ()) = (l.mapM g).map (List.map fun _ => ()) := by
    rw [← mapM_map, ← mapM_map, mapM_congr fun a _ => h a]
  have herror : ∀ x : Except ε (List β), x.map (List.map fun _ => ()) = .error e ↔
      x = .error e := fun x => by
    cases x <;> simp [Except.map]
  rw [← herror, hshape, herror]

theorem mapM_eq_ok {f : α → Except ε β} {g : α → β} {l : List α} (h : ∀ a ∈ l, f a = .ok (g a)) :
    l.mapM f = .ok (l.map g) := by
  induction l with
  | nil => rfl
  | cons a l ih =>
      rw [List.mapM_cons, h a List.mem_cons_self, ih fun b hb => h b (List.mem_cons_of_mem a hb)]
      rfl

theorem exists_mapM_eq_ok {f : α → Except ε β} {l : List α} :
    (∃ bs, l.mapM f = .ok bs) ↔ ∀ a ∈ l, ∃ b, f a = .ok b := by
  induction l with
  | nil => simp [pure, Except.pure]
  | cons a l ih =>
      rw [List.mapM_cons, exists_bind_eq_ok, List.forall_mem_cons, ← ih]
      constructor
      · rintro ⟨b, hb, hrest⟩
        obtain ⟨bs, hbs, -⟩ := exists_bind_eq_ok.mp hrest
        exact ⟨⟨b, hb⟩, bs, hbs⟩
      · rintro ⟨⟨b, hb⟩, bs, hbs⟩
        exact ⟨b, hb, exists_bind_eq_ok.mpr ⟨bs, hbs, _, rfl⟩⟩

/-- The computation fails when it fails for something in the list. -/
theorem exists_of_mapM_error {f : α → Except ε β} {l : List α} {e : ε} (h : l.mapM f = .error e) :
    ∃ a ∈ l, f a = .error e := by
  induction l with
  | nil => cases h
  | cons a l ih =>
      rw [List.mapM_cons] at h
      rcases bind_eq_error.mp h with hfirst | ⟨b, -, hrest⟩
      · exact ⟨a, List.mem_cons_self, hfirst⟩
      · rcases bind_eq_error.mp hrest with hrest | ⟨bs, -, hall⟩
        · obtain ⟨a', ha', hfails⟩ := ih hrest
          exact ⟨a', List.mem_cons_of_mem a ha', hfails⟩
        · cases hall

/-- The results follow each other as what they come from. -/
theorem forall₂_of_mapM {f : α → Except ε β} {l : List α} {bs : List β} (h : l.mapM f = .ok bs) :
    List.Forall₂ (fun a b => f a = .ok b) l bs := by
  induction l generalizing bs with
  | nil =>
      obtain rfl : [] = bs := Except.ok.inj h
      exact .nil
  | cons a l ih =>
      rw [List.mapM_cons] at h
      obtain ⟨first, hfirst, hfound⟩ := bind_eq_ok.mp h
      obtain ⟨rest, hrest, hall⟩ := bind_eq_ok.mp hfound
      obtain rfl : first :: rest = bs := Except.ok.inj hall
      exact .cons hfirst (ih hrest)

/-- Every result comes from something in the list. -/
theorem exists_of_mem_mapM {f : α → Except ε β} {l : List α} {bs : List β} (h : l.mapM f = .ok bs)
    {b : β} (hb : b ∈ bs) : ∃ a ∈ l, f a = .ok b := by
  replace h := forall₂_of_mapM h
  induction h with
  | nil => cases hb
  | @cons a first l rest hfirst hrest ih =>
      rcases List.mem_cons.mp hb with rfl | hb
      · exact ⟨a, List.mem_cons_self, hfirst⟩
      · obtain ⟨a', ha', hresult⟩ := ih hb
        exact ⟨a', List.mem_cons_of_mem _ ha', hresult⟩

/-- Everything in the list has its result among the results. -/
theorem exists_mem_of_mapM {f : α → Except ε β} {l : List α} {bs : List β} (h : l.mapM f = .ok bs)
    {a : α} (ha : a ∈ l) : ∃ b ∈ bs, f a = .ok b := by
  replace h := forall₂_of_mapM h
  induction h with
  | nil => cases ha
  | @cons first b l rest hfirst hrest ih =>
      rcases List.mem_cons.mp ha with rfl | ha
      · exact ⟨b, List.mem_cons_self, hfirst⟩
      · obtain ⟨b', hb', hresult⟩ := ih ha
        exact ⟨b', List.mem_cons_of_mem _ hb', hresult⟩

/-- What all results keep of what they come from, they keep one after the other. -/
theorem map_of_mapM {γ : Type} {f : α → Except ε β} {key : α → γ} {key' : β → γ}
    (hkey : ∀ a b, f a = .ok b → key' b = key a) {l : List α} {bs : List β}
    (h : l.mapM f = .ok bs) :
    bs.map key' = l.map key := by
  replace h := forall₂_of_mapM h
  induction h with
  | nil => rfl
  | cons hfirst hrest ih => rw [List.map_cons, List.map_cons, hkey _ _ hfirst, ih]

end FrontendAudit
