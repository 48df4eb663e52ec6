import FrontendAudit.Json.Reader
import Mathlib.Data.List.Induction

/-!
# Keys of what was read

The reader puts the members of an object together key by key (`collect`), so that no object of a
value that was read names a key twice, however often the text does (`keyed_of_parse?`).
-/

namespace FrontendAudit.Json

mutual

/-- Each object in a value names each key once. -/
def Keyed : Json → Prop
  | .arr items => ItemsKeyed items
  | .obj members => (members.map (·.1)).Nodup ∧ MembersKeyed members
  | _ => True

def ItemsKeyed : List Json → Prop
  | [] => True
  | v :: vs => Keyed v ∧ ItemsKeyed vs

def MembersKeyed : List (String × Json) → Prop
  | [] => True
  | (_, v) :: ms => Keyed v ∧ MembersKeyed ms

end

theorem itemsKeyed_iff {vs : List Json} : ItemsKeyed vs ↔ ∀ v ∈ vs, Keyed v := by
  induction vs with
  | nil => simp [ItemsKeyed]
  | cons v vs ih => simp [ItemsKeyed, ih]

theorem membersKeyed_iff {ms : List (String × Json)} : MembersKeyed ms ↔ ∀ m ∈ ms, Keyed m.2 := by
  induction ms with
  | nil => simp [MembersKeyed]
  | cons m ms ih =>
      obtain ⟨key, v⟩ := m
      simp [MembersKeyed, ih]

theorem keyed_obj {ms : List (String × Json)} :
    Keyed (.obj ms) ↔ (ms.map (·.1)).Nodup ∧ ∀ m ∈ ms, Keyed m.2 := by
  rw [Keyed, membersKeyed_iff]

section

variable {α : Type} {key : String} {a : α} {ms : List (String × α)}

theorem lookup?_of_not_mem (h : key ∉ ms.map (·.1)) : lookup? key ms = none := by
  rw [lookup?, Option.map_eq_none_iff, List.find?_eq_none]
  intro m hm heq
  exact h (List.mem_map.mpr ⟨m, hm, of_decide_eq_true heq⟩)

/-- Where each key is named once, each member is the one that is found. -/
theorem lookup?_of_mem (hkeys : (ms.map (·.1)).Nodup) (h : (key, a) ∈ ms) :
    lookup? key ms = some a := by
  induction ms with
  | nil => cases h
  | cons m ms ih =>
      rw [List.map_cons, List.nodup_cons] at hkeys
      rcases List.mem_cons.mp h with rfl | h
      · simp [lookup?]
      · have hne : m.1 ≠ key := by
          rintro rfl
          exact hkeys.1 (List.mem_map.mpr ⟨_, h, rfl⟩)
        rw [lookup?, List.find?_cons_of_neg (by simpa using hne)]
        exact ih hkeys.2 h

/-- Members with the same distinct keys, and the same value for each, are the same. -/
theorem eq_of_lookup?_eq {ms' : List (String × α)} (hkeys : ms.map (·.1) = ms'.map (·.1))
    (hnodup : (ms.map (·.1)).Nodup) (h : ∀ key, lookup? key ms = lookup? key ms') : ms = ms' := by
  have hlength : ms.length = ms'.length := by simpa using congrArg List.length hkeys
  refine List.ext_getElem hlength fun i hi hi' => ?_
  have hkey : ms[i].1 = ms'[i].1 := by
    have hnames := List.getElem_of_eq hkeys (i := i) (by rwa [List.length_map])
    rwa [List.getElem_map, List.getElem_map] at hnames
  have hleft : lookup? ms[i].1 ms = some ms[i].2 :=
    lookup?_of_mem hnodup (List.getElem_mem hi)
  have hright : lookup? ms'[i].1 ms' = some ms'[i].2 :=
    lookup?_of_mem (hkeys ▸ hnodup) (List.getElem_mem hi')
  rw [h, hkey, hright] at hleft
  exact Prod.ext hkey (Option.some.inj hleft).symm

/-! ## Members that are put together -/

theorem mem_of_mem_insertMember {m : String × α} (h : m ∈ insertMember key a ms) :
    m = (key, a) ∨ m ∈ ms := by
  induction ms with
  | nil => exact .inl (List.mem_singleton.mp h)
  | cons first ms ih =>
      rw [insertMember] at h
      split at h
      · rcases List.mem_cons.mp h with rfl | h
        · exact .inl rfl
        · exact .inr (List.mem_cons_of_mem _ h)
      · rcases List.mem_cons.mp h with rfl | h
        · exact .inr List.mem_cons_self
        · exact (ih h).imp_right (List.mem_cons_of_mem _)

/-- A key that is not there goes behind the others. -/
theorem keys_insertMember (key : String) (a : α) (ms : List (String × α)) :
    (insertMember key a ms).map (·.1) =
      if key ∈ ms.map (·.1) then ms.map (·.1) else ms.map (·.1) ++ [key] := by
  induction ms with
  | nil => rfl
  | cons first ms ih =>
      rw [insertMember]
      by_cases hkey : first.1 = key
      · simp [hkey]
      · rw [if_neg hkey, List.map_cons, ih]
        by_cases hmem : key ∈ ms.map (·.1)
        · simp [hmem]
        · simp [hmem, Ne.symm hkey]

theorem collect_concat (ms : List (String × α)) (m : String × α) :
    collect (ms ++ [m]) = insertMember m.1 m.2 (collect ms) := by
  rw [collect, List.foldl_append]
  rfl

theorem mem_of_mem_collect {m : String × α} (h : m ∈ collect ms) : m ∈ ms := by
  induction ms using List.reverseRecOn with
  | nil => exact h
  | append_singleton ms last ih =>
      rw [collect_concat] at h
      rcases mem_of_mem_insertMember h with rfl | h
      · exact List.mem_concat_self
      · exact List.mem_append_left _ (ih h)

/-- The keys of members that are put together hang on their keys only. -/
theorem keys_collect (ms : List (String × α)) :
    (collect ms).map (·.1) =
      (ms.map (·.1)).foldl (fun keys key => if key ∈ keys then keys else keys ++ [key]) [] := by
  induction ms using List.reverseRecOn with
  | nil => rfl
  | append_singleton ms last ih =>
      rw [collect_concat, keys_insertMember, ih, List.map_append, List.foldl_append]
      rfl

theorem mem_keys_collect : key ∈ (collect ms).map (·.1) ↔ key ∈ ms.map (·.1) := by
  induction ms using List.reverseRecOn with
  | nil => rfl
  | append_singleton ms last ih =>
      rw [collect_concat, keys_insertMember, List.map_append, List.map_singleton, List.mem_append,
        ← ih, List.mem_singleton]
      split
      · next hlast =>
          refine ⟨.inl, ?_⟩
          intro hkey
          rcases hkey with hkey | rfl
          · exact hkey
          · exact hlast
      · rw [List.mem_append, List.mem_singleton]

theorem isEmpty_collect (ms : List (String × α)) : (collect ms).isEmpty = ms.isEmpty := by
  rw [Bool.eq_iff_iff, List.isEmpty_iff, List.isEmpty_iff]
  constructor
  · intro h
    cases ms with
    | nil => rfl
    | cons m ms =>
        have hkey : m.1 ∈ (collect (m :: ms)).map (·.1) := mem_keys_collect.mpr List.mem_cons_self
        rw [h] at hkey
        cases hkey
  · rintro rfl
    rfl

theorem nodup_keys_collect (ms : List (String × α)) : ((collect ms).map (·.1)).Nodup := by
  induction ms using List.reverseRecOn with
  | nil => exact List.nodup_nil
  | append_singleton ms last ih =>
      rw [collect_concat, keys_insertMember]
      split
      · exact ih
      · next hlast =>
          refine List.nodup_append.mpr ⟨ih, List.pairwise_singleton _ _, ?_⟩
          intro key hkey other hother
          rw [List.mem_singleton.mp hother]
          exact fun heq => hlast (heq ▸ hkey)

end

/-- Members that are put together name each key once, whatever they were before. -/
theorem keyed_collect {ms : List (String × Json)} (h : ∀ m ∈ ms, Keyed m.2) :
    Keyed (.obj (collect ms)) :=
  keyed_obj.mpr ⟨nodup_keys_collect ms, fun m hm => h m (mem_of_mem_collect hm)⟩

/-! ## The reader -/

theorem keyed_of_readNumber {negative : Bool} {s rest : List Char} {v : Json}
    (h : readNumber negative s = some (v, rest)) : Keyed v := by
  unfold readNumber at h
  obtain ⟨whole, -, h⟩ := Option.bind_eq_some_iff.mp h
  dsimp only at h
  split at h
  · obtain ⟨rfl, -⟩ := Prod.mk.inj (Option.some.inj h)
    trivial
  · obtain ⟨rfl, -⟩ := Prod.mk.inj (Option.some.inj h)
    trivial

theorem keyed_of_readWord {s rest : List Char} {v : Json} (h : readWord s = some (v, rest)) :
    Keyed v := by
  obtain ⟨word, hword, hv⟩ := List.exists_of_findSome?_eq_some h
  obtain ⟨_, -, heq⟩ := Option.map_eq_some_iff.mp hv
  obtain rfl : word.2 = v := (Prod.mk.inj heq).1
  simp only [words, List.mem_cons, List.not_mem_nil, or_false] at hword
  rcases hword with rfl | rfl | rfl | rfl | rfl | rfl <;> exact trivial

/-- What the reader gives with some fuel names each key once, with what was read before. -/
structure ReadsKeyed (half : List Char) (fuel : Nat) : Prop where
  value : ∀ {s v rest}, readValue half fuel s = some (v, rest) → Keyed v
  items : ∀ {read s vs rest}, (∀ v ∈ read, Keyed v) →
    readItems half fuel read s = some (vs, rest) → ∀ v ∈ vs, Keyed v
  members : ∀ {read s ms rest}, (∀ m ∈ read, Keyed m.2) →
    readMembers half fuel read s = some (ms, rest) → ∀ m ∈ ms, Keyed m.2

namespace ReadsKeyed

variable {half : List Char} {fuel : Nat} {s rest : List Char}

theorem value_succ (ih : ReadsKeyed half fuel) {v : Json}
    (h : readValue half (fuel + 1) s = some (v, rest)) : Keyed v := by
  unfold readValue at h
  split at h
  · obtain ⟨text, -, h⟩ := Option.bind_eq_some_iff.mp h
    obtain ⟨rfl, -⟩ := Prod.mk.inj (Option.some.inj h)
    trivial
  · split at h
    · obtain ⟨rfl, -⟩ := Prod.mk.inj (Option.some.inj h)
      trivial
    · obtain ⟨⟨items, rest⟩, hitems, h⟩ := Option.bind_eq_some_iff.mp h
      obtain ⟨rfl, -⟩ := Prod.mk.inj (Option.some.inj h)
      exact itemsKeyed_iff.mpr (ih.items (by simp) hitems)
  · split at h
    · obtain ⟨rfl, -⟩ := Prod.mk.inj (Option.some.inj h)
      exact keyed_obj.mpr ⟨List.nodup_nil, by simp⟩
    · obtain ⟨⟨members, rest⟩, hmembers, h⟩ := Option.bind_eq_some_iff.mp h
      obtain ⟨rfl, -⟩ := Prod.mk.inj (Option.some.inj h)
      exact keyed_collect (ih.members (by simp) hmembers)
  · split at h
    · next hword =>
        rw [h] at hword
        exact keyed_of_readWord hword
    · split at h
      · exact keyed_of_readNumber h
      · exact keyed_of_readNumber h

theorem items_succ (ih : ReadsKeyed half fuel) {read vs : List Json} (hread : ∀ v ∈ read, Keyed v)
    (h : readItems half (fuel + 1) read s = some (vs, rest)) : ∀ v ∈ vs, Keyed v := by
  unfold readItems at h
  obtain ⟨⟨value, behind⟩, hvalue, h⟩ := Option.bind_eq_some_iff.mp h
  have hmore : ∀ v ∈ value :: read, Keyed v := List.forall_mem_cons.mpr ⟨ih.value hvalue, hread⟩
  dsimp only at h
  split at h
  · exact ih.items hmore h
  · obtain ⟨rfl, -⟩ := Prod.mk.inj (Option.some.inj h)
    exact fun v hv => hmore v (List.mem_reverse.mp hv)
  · cases h

theorem members_succ (ih : ReadsKeyed half fuel) {read ms : List (String × Json)}
    (hread : ∀ m ∈ read, Keyed m.2) (h : readMembers half (fuel + 1) read s = some (ms, rest)) :
    ∀ m ∈ ms, Keyed m.2 := by
  unfold readMembers at h
  split at h
  · obtain ⟨⟨key, behind⟩, -, h⟩ := Option.bind_eq_some_iff.mp h
    dsimp only at h
    split at h
    · obtain ⟨⟨value, behind⟩, hvalue, h⟩ := Option.bind_eq_some_iff.mp h
      have hmore : ∀ m ∈ (String.ofList key, value) :: read, Keyed m.2 :=
        List.forall_mem_cons.mpr ⟨ih.value hvalue, hread⟩
      dsimp only at h
      split at h
      · exact ih.members hmore h
      · obtain ⟨rfl, -⟩ := Prod.mk.inj (Option.some.inj h)
        exact fun m hm => hmore m (List.mem_reverse.mp hm)
      · cases h
    · cases h
  · cases h

theorem all (half : List Char) : ∀ fuel, ReadsKeyed half fuel
  | 0 => ⟨fun h => by simp [readValue] at h, fun _ h => by simp [readItems] at h,
      fun _ h => by simp [readMembers] at h⟩
  | fuel + 1 =>
    ⟨value_succ (all half fuel), items_succ (all half fuel), members_succ (all half fuel)⟩

end ReadsKeyed

end FrontendAudit.Json
