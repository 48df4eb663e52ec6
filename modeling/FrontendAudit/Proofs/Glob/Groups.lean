import FrontendAudit.Glob.Brace
import FrontendAudit.Proofs.Disk.Enumeration
import FrontendAudit.Proofs.Path

/-!
# The leftmost group

A group is complete when no brace stands between its two braces. The search finds the leftmost
complete group (`leftmost_of_firstGroup?`) and finds one whenever there is one
(`not_isGroup_of_firstGroup?`). Replacing it by an alternative takes an opening brace away, so that
the fuel of the expansion never runs out: the expansion is the recursion without fuel
(`expands_iff`), and what it gives has no complete group left (`not_isGroup_of_mem_expandBraces`).
-/

namespace FrontendAudit.Glob

variable {a b s head body tail : List Char}

/-! ## Braces -/

/-- A text without braces. -/
def BraceFree (s : List Char) : Prop := ∀ c ∈ s, isBrace c = false

theorem isBrace_closing : isBrace closing = true := by decide

theorem isBrace_eq_false_iff {c : Char} : isBrace c = false ↔ c ≠ opening ∧ c ≠ closing := by
  simp [isBrace]

theorem braceFree_nil : BraceFree [] := by
  simp [BraceFree]

theorem braceFree_cons {c : Char} : BraceFree (c :: s) ↔ isBrace c = false ∧ BraceFree s :=
  List.forall_mem_cons

theorem braceFree_append : BraceFree (a ++ b) ↔ BraceFree a ∧ BraceFree b :=
  List.forall_mem_append

theorem BraceFree.opening_not_mem (h : BraceFree s) : opening ∉ s := fun hmem =>
  absurd (h opening hmem) (by decide)

/-- What stands before the first brace of a text ends there. -/
theorem BraceFree.takeWhile_append {d : Char} (h : BraceFree a) (hd : isBrace d = true) :
    (a ++ d :: b).takeWhile (fun c => !isBrace c) = a := by
  rw [List.takeWhile_append_of_pos
    fun c hc => by simp [h c hc], List.takeWhile_cons_of_neg (by simp [hd]), List.append_nil]

theorem BraceFree.dropWhile_append {d : Char} (h : BraceFree a) (hd : isBrace d = true) :
    (a ++ d :: b).dropWhile (fun c => !isBrace c) = d :: b := by
  rw [List.dropWhile_append_of_pos
    fun c hc => by simp [h c hc], List.dropWhile_cons_of_neg (by simp [hd])]

/-! ## Groups -/

/-- A complete group without braces inside: what stands before, in and after it. -/
def IsGroup (s head body tail : List Char) : Prop :=
  s = head ++ opening :: (body ++ closing :: tail) ∧ BraceFree body

/-- The leftmost complete group of a text. -/
def Leftmost (s head body tail : List Char) : Prop :=
  IsGroup s head body tail ∧
    ∀ before inside after, IsGroup s before inside after → head.length ≤ before.length

theorem not_isGroup_of_not_mem (h : opening ∉ s) : ¬ IsGroup s head body tail := by
  rintro ⟨rfl, -⟩
  exact h (by simp)

theorem IsGroup.cons (h : IsGroup s head body tail) (c : Char) :
    IsGroup (c :: s) (c :: head) body tail :=
  ⟨congrArg (c :: ·) h.1, h.2⟩

/-- A group of a longer text starts at its first character or is a group of the rest. -/
theorem isGroup_cons {c : Char} (h : IsGroup (c :: s) head body tail) :
    (head = [] ∧ c = opening ∧ s = body ++ closing :: tail) ∨
      ∃ before, head = c :: before ∧ IsGroup s before body tail := by
  obtain ⟨hs, hbody⟩ := h
  cases head with
  | nil =>
      rw [List.nil_append, List.cons.injEq] at hs
      exact .inl ⟨rfl, hs.1, hs.2⟩
  | cons d before =>
      rw [List.cons_append, List.cons.injEq] at hs
      obtain ⟨rfl, hs⟩ := hs
      exact .inr ⟨before, rfl, hs, hbody⟩

/-- A group that starts with the text is the first one. -/
theorem firstGroup?_of_group (hbody : BraceFree body) :
    firstGroup? (opening :: (body ++ closing :: tail)) = some ([], body, tail) := by
  simp only [firstGroup?]
  rw [hbody.dropWhile_append isBrace_closing, hbody.takeWhile_append isBrace_closing]
  simp

/-- Where no group starts with the text, the search goes on behind the first character. -/
theorem firstGroup?_cons {c : Char}
    (h : ¬ ∃ body tail, c = opening ∧ s = body ++ closing :: tail ∧ BraceFree body) :
    firstGroup? (c :: s) = (firstGroup? s).map fun g => (c :: g.1, g.2) := by
  simp only [firstGroup?]
  split
  · next hc =>
      split
      · next d tail hdrop =>
          split
          · next hd =>
              refine absurd ⟨s.takeWhile fun d => !isBrace d, tail, hc, ?_, ?_⟩ h
              · rw [← hd, ← hdrop, List.takeWhile_append_dropWhile]
              · intro e he
                simpa using List.all_eq_true.mp List.all_takeWhile e he
          · rfl
      · rfl
  · rfl

/-! ## The search -/

/-- What the search finds is the leftmost group. -/
theorem leftmost_of_firstGroup? (h : firstGroup? s = some (head, body, tail)) :
    Leftmost s head body tail := by
  induction s generalizing head with
  | nil => cases h
  | cons c s ih =>
      by_cases hstart : ∃ body tail, c = opening ∧ s = body ++ closing :: tail ∧ BraceFree body
      · obtain ⟨inside, after, rfl, rfl, hfree⟩ := hstart
        rw [firstGroup?_of_group hfree] at h
        cases h
        exact ⟨⟨rfl, hfree⟩, fun before _ _ _ => Nat.zero_le before.length⟩
      · rw [firstGroup?_cons hstart] at h
        obtain ⟨⟨before, inside, after⟩, hs, heq⟩ := Option.map_eq_some_iff.mp h
        cases heq
        obtain ⟨hgroup, hleast⟩ := ih hs
        refine ⟨hgroup.cons c, ?_⟩
        intro before' inside' after' hgroup'
        rcases isGroup_cons hgroup' with ⟨-, hc, hs'⟩ | ⟨before'', rfl, hgroup''⟩
        · exact absurd ⟨inside', after', hc, hs', hgroup'.2⟩ hstart
        · exact Nat.succ_le_succ (hleast before'' inside' after' hgroup'')

/-- Where the search finds nothing, there is no group. -/
theorem not_isGroup_of_firstGroup? (h : firstGroup? s = none) (head body tail : List Char) :
    ¬ IsGroup s head body tail := by
  intro hgroup
  induction s generalizing head with
  | nil => exact absurd hgroup.1 (by simp)
  | cons c s ih =>
      rcases isGroup_cons hgroup with ⟨rfl, rfl, rfl⟩ | ⟨before, rfl, hbefore⟩
      · rw [firstGroup?_of_group hgroup.2] at h
        cases h
      · by_cases hstart : ∃ body tail, c = opening ∧ s = body ++ closing :: tail ∧ BraceFree body
        · obtain ⟨inside, after, rfl, rfl, hfree⟩ := hstart
          rw [firstGroup?_of_group hfree] at h
          cases h
        · rw [firstGroup?_cons hstart, Option.map_eq_none_iff] at h
          exact ih h before hbefore

/-- Two groups of a text that start at the same place are the same. -/
theorem IsGroup.unique {before inside after : List Char} (h : IsGroup s head body tail)
    (h' : IsGroup s before inside after) (hlength : head.length = before.length) :
    head = before ∧ body = inside ∧ tail = after := by
  obtain ⟨rfl, hrest⟩ := List.append_inj (h.1.symm.trans h'.1) hlength
  rw [List.cons.injEq] at hrest
  have hbody := congrArg (List.takeWhile fun c => !isBrace c) hrest.2
  rw [h.2.takeWhile_append isBrace_closing, h'.2.takeWhile_append isBrace_closing] at hbody
  subst hbody
  exact ⟨rfl, rfl, (List.cons.inj (List.append_cancel_left hrest.2)).2⟩

/-- A text has at most one leftmost group. -/
theorem Leftmost.unique {before inside after : List Char} (h : Leftmost s head body tail)
    (h' : Leftmost s before inside after) : head = before ∧ body = inside ∧ tail = after :=
  h.1.unique h'.1 (Nat.le_antisymm (h.2 before inside after h'.1) (h'.2 head body tail h.1))

/-- A group that starts behind another one starts behind its end. -/
theorem IsGroup.apart {before inside after : List Char} (h : IsGroup s head body tail)
    (h' : IsGroup s before inside after) (hlength : head.length < before.length) :
    ∃ between, before = head ++ opening :: (body ++ closing :: between) ∧
      tail = between ++ opening :: (inside ++ closing :: after) := by
  have hsplit := h.1.symm.trans h'.1
  rcases List.append_eq_append_iff.mp hsplit with ⟨further, rfl, hrest⟩ | ⟨further, rfl, -⟩
  · cases further with
    | nil => simp at hlength
    | cons c further =>
        rw [List.cons_append, List.cons.injEq] at hrest
        obtain ⟨rfl, hrest⟩ := hrest
        -- the second opening brace is not among the characters of the first group
        rcases List.append_eq_append_iff.mp hrest with ⟨between, rfl, hafter⟩ |
          ⟨between, rfl, hafter⟩
        · cases between with
          | nil => exact absurd (List.cons.inj hafter).1 (by decide)
          | cons d between =>
              rw [List.cons_append, List.cons.injEq] at hafter
              obtain ⟨rfl, hafter⟩ := hafter
              exact ⟨between, rfl, hafter⟩
        · cases between with
          | nil => exact absurd (List.cons.inj hafter).1 (by decide)
          | cons d between =>
              obtain ⟨rfl, -⟩ := List.cons.inj hafter
              exact absurd (by simp) h.2.opening_not_mem
  · rw [List.length_append] at hlength
    omega

/-- The first group of a text starts where the first brace does, when that brace is an opening one
and its partner follows. -/
theorem leftmost_of_opening_not_mem (hhead : opening ∉ head) (hbody : BraceFree body) :
    Leftmost (head ++ opening :: (body ++ closing :: tail)) head body tail := by
  refine ⟨⟨rfl, hbody⟩, ?_⟩
  intro before inside after hgroup
  by_contra hlt
  obtain ⟨between, rfl, -⟩ := hgroup.apart ⟨rfl, hbody⟩ (by omega)
  exact hhead (by simp)

/-! ## Alternatives -/

theorem alternatives_eq_splitOn (body : List Char) : alternatives body = Text.splitOn ',' body := by
  induction body with
  | nil => rfl
  | cons c body ih =>
      rw [Text.splitOn_cons, ← ih]
      rfl

/-- Putting an alternative in the place of a group takes an opening brace away. -/
theorem count_opening_lt {choice : List Char} (h : IsGroup s head body tail)
    (hchoice : choice ∈ alternatives body) :
    (head ++ choice ++ tail).count opening < s.count opening := by
  obtain ⟨rfl, hbody⟩ := h
  have hfree : opening ∉ choice :=
    fun hmem => hbody.opening_not_mem (mem_of_mem_alternatives hchoice hmem)
  have hclosing : (closing :: tail).count opening = tail.count opening :=
    List.count_cons_of_ne (by decide)
  simp only [List.count_append, List.count_cons_self, List.count_eq_zero_of_not_mem hfree, hclosing]
  omega

/-! ## The recursion without fuel -/

/-- The expansion of a text, with a finite tree of calls: a text without a group stands for itself,
and the leftmost group is replaced by each of its alternatives, in their order. -/
inductive Expands : List Char → List (List Char) → Prop
  | plain {s : List Char} (hnone : ∀ head body tail, ¬ IsGroup s head body tail) : Expands s [s]
  | group {s head body tail : List Char} {texts : List Char → List (List Char)}
      (hgroup : Leftmost s head body tail)
      (hchoices : ∀ choice ∈ alternatives body, Expands (head ++ choice ++ tail) (texts choice)) :
      Expands s ((alternatives body).flatMap texts)

/-- Fuel for every opening brace is enough. -/
theorem expands_expandWith {fuel : Nat} (h : s.count opening ≤ fuel) :
    Expands s (expandWith fuel s) := by
  induction fuel generalizing s with
  | zero =>
      have hfree : opening ∉ s := List.count_eq_zero.mp (Nat.le_zero.mp h)
      exact .plain fun _ _ _ => not_isGroup_of_not_mem hfree
  | succ fuel ih =>
      rw [expandWith]
      split
      · next hnone => exact .plain (not_isGroup_of_firstGroup? hnone)
      · next head body tail hsome =>
          have hgroup := leftmost_of_firstGroup? hsome
          refine .group hgroup ?_
          intro choice hchoice
          have hcount := count_opening_lt hgroup.1 hchoice
          exact ih (by omega)

theorem Expands.det {texts texts' : List (List Char)} (h : Expands s texts)
    (h' : Expands s texts') :
    texts = texts' := by
  induction h generalizing texts' with
  | plain hnone =>
      cases h' with
      | plain _ => rfl
      | group hgroup _ => exact absurd hgroup.1 (hnone _ _ _)
  | group hgroup _ ih =>
      cases h' with
      | plain hnone => exact absurd hgroup.1 (hnone _ _ _)
      | group hgroup' hchoices' =>
          obtain ⟨rfl, rfl, rfl⟩ := hgroup.unique hgroup'
          exact List.flatMap_congr fun choice hchoice =>
            ih choice hchoice (hchoices' choice hchoice)

/-- The expansion is what the recursion gives, on every text. -/
theorem expands_iff {texts : List (List Char)} : Expands s texts ↔ texts = expandBraces s := by
  have hexpands : Expands s (expandBraces s) := expands_expandWith (Nat.le_refl _)
  constructor
  · exact fun h => h.det hexpands
  · rintro rfl
    exact hexpands

theorem expandBraces_of_not_isGroup (h : ∀ head body tail, ¬ IsGroup s head body tail) :
    expandBraces s = [s] :=
  (expands_iff.mp (.plain h)).symm

theorem expandBraces_of_leftmost (h : Leftmost s head body tail) :
    expandBraces s = (alternatives body).flatMap fun choice =>
      expandBraces (head ++ choice ++ tail) :=
  (expands_iff.mp (.group h fun _ _ => expands_iff.mpr rfl)).symm

/-- No complete group is left in what a text expands to. -/
theorem Expands.not_isGroup {texts : List (List Char)} (h : Expands s texts) {text : List Char}
    (htext : text ∈ texts) (head body tail : List Char) : ¬ IsGroup text head body tail := by
  induction h with
  | plain hnone =>
      obtain rfl := List.mem_singleton.mp htext
      exact hnone head body tail
  | group _ _ ih =>
      obtain ⟨choice, hchoice, htext⟩ := List.mem_flatMap.mp htext
      exact ih choice hchoice htext

theorem not_isGroup_of_mem_expandBraces {text : List Char} (h : text ∈ expandBraces s)
    (head body tail : List Char) : ¬ IsGroup text head body tail :=
  (expands_iff.mpr rfl).not_isGroup h head body tail

end FrontendAudit.Glob
