import FrontendAudit.Proofs.Json.Keys
import Mathlib.Data.List.Basic

/-!
# Halves of surrogate pairs

Half of a surrogate pair that stands alone is no character, so that others have to stand for it when
a text is read (`parseWith?`). What stands for halves decides nothing else: a text cannot be read
whatever it is, or it is read as one value with places for it (`exists_reading`). Two readings show
whether a value has such places. If it is the same when each half is one character and when each is
more characters than the text has, then there are none, and it is always the same
(`Reading.eq_of_eq`). In an object this holds of every member whose key cannot be mistaken for one
with a place in it (`lookup?_collect_filled_of_not_mem`).
-/

namespace FrontendAudit.Json

/-! ## Texts with places -/

/-- The characters of a text with a place for each half, when something stands for them. -/
def fill (half : List Char) (text : List (Option Char)) : List Char :=
  text.flatMap fun c => c.elim half fun c => [c]

section

variable {half : List Char} {text text' : List (Option Char)} {c : Char} {n : Nat}

theorem length_fill_singleton (c : Char) (text : List (Option Char)) :
    (fill [c] text).length = text.length := by
  induction text with
  | nil => rfl
  | cons d text ih =>
      rw [fill, List.flatMap_cons, List.length_append, ← fill, ih, List.length_cons, Nat.add_comm]
      cases d <;> rfl

theorem length_le_length_fill (h : none ∈ text) : half.length ≤ (fill half text).length := by
  obtain ⟨front, back, rfl⟩ := List.append_of_mem h
  rw [fill, List.flatMap_append, List.flatMap_cons, List.length_append, List.length_append]
  show half.length ≤ _ + (half.length + _)
  omega

theorem mem_fill (h : none ∈ text) (hc : c ∈ half) : c ∈ fill half text :=
  List.mem_flatMap.mpr ⟨none, h, hc⟩

/-- A text without places is the same whatever stands for halves. -/
theorem fill_congr (h : none ∉ text) (half half' : List Char) :
    fill half text = fill half' text := by
  refine List.flatMap_congr fun c hc => ?_
  cases c with
  | none => exact absurd hc h
  | some c => rfl

theorem fill_eq_nil_iff (hne : half ≠ []) : fill half text = [] ↔ text = [] := by
  rw [fill, List.flatMap_eq_nil_iff, List.eq_nil_iff_forall_not_mem]
  refine forall_congr' fun c => imp_congr_right fun _ => ?_
  cases c <;> simp [hne]

/-- Many characters show that there is a place. -/
theorem not_mem_of_fill_eq (h : fill (List.replicate (n + 1) c) text = fill [c] text')
    (hlength : text'.length ≤ n) : none ∉ text := by
  intro hplace
  have hle : (List.replicate (n + 1) c).length ≤ _ := length_le_length_fill hplace
  rw [h, length_fill_singleton, List.length_replicate] at hle
  omega

end

variable {α : Type}

/-- The members of an object with places, when something stands for halves. -/
def filled (half : List Char) (ms : List (List (Option Char) × (List Char → α))) :
    List (String × α) :=
  ms.map fun m => (String.ofList (fill half m.1), m.2 half)

/-- A value with places for halves, none of whose texts has more characters and places than `n`. -/
inductive Reading (n : Nat) : (List Char → Json) → Prop
  | same (v : Json) : Reading n fun _ => v
  | str {text : List (Option Char)} (hlength : text.length ≤ n) :
      Reading n fun half => .str (String.ofList (fill half text))
  | arr {items : List (List Char → Json)} (hitems : ∀ f ∈ items, Reading n f) :
      Reading n fun half => .arr (items.map (· half))
  | obj {ms : List (List (Option Char) × (List Char → Json))}
      (hlengths : ∀ m ∈ ms, m.1.length ≤ n) (hmembers : ∀ m ∈ ms, Reading n m.2) :
      Reading n fun half => .obj (collect (filled half ms))

/-- A key is found in the same member whatever stands for halves, as long as that decides for no
member whether it has this key. -/
theorem lookup?_collect_filled {P : List Char → Prop} (key : String)
    (ms : List (List (Option Char) × (List Char → α))) (first : List Char)
    (hkey : ∀ half, P half → ∀ m ∈ ms,
      (String.ofList (fill half m.1) = key ↔ String.ofList (fill first m.1) = key)) :
    ∃ f? : Option (List Char → α), (∀ f ∈ f?, ∃ m ∈ ms, m.2 = f) ∧
      ∀ half, P half → lookup? key (collect (filled half ms)) = f?.map (· half) := by
  induction ms using List.reverseRecOn with
  | nil => exact ⟨none, nofun, fun _ _ => rfl⟩
  | append_singleton ms last ih =>
      have hcollect : ∀ half, collect (filled half (ms ++ [last])) =
          insertMember (String.ofList (fill half last.1)) (last.2 half)
            (collect (filled half ms)) := by
        intro half
        rw [filled, List.map_append]
        exact collect_concat _ _
      by_cases hlast : String.ofList (fill first last.1) = key
      · refine ⟨some last.2, fun f hf => ?_, fun half hhalf => ?_⟩
        · obtain rfl := Option.some.inj hf
          exact ⟨last, List.mem_concat_self, rfl⟩
        · rw [hcollect, (hkey half hhalf last List.mem_concat_self).mpr hlast,
            lookup?_insertMember_self]
          rfl
      · obtain ⟨f?, hmem, hlookup⟩ :=
          ih fun half hhalf m hm => hkey half hhalf m (List.mem_append_left _ hm)
        refine ⟨f?, fun f hf => ?_, fun half hhalf => ?_⟩
        · obtain ⟨m, hm, heq⟩ := hmem f hf
          exact ⟨m, List.mem_append_left _ hm, heq⟩
        · have hne := mt (hkey half hhalf last List.mem_concat_self).mp hlast
          rw [hcollect, lookup?_insertMember_of_ne (Ne.symm hne), hlookup half hhalf]

/-- A key without a character that stands for halves is no key with a place in it. -/
theorem lookup?_collect_filled_of_not_mem {ms : List (List (Option Char) × (List Char → α))}
    {key : String} {c : Char} (hc : c ∉ key.toList) :
    ∃ f? : Option (List Char → α), (∀ f ∈ f?, ∃ m ∈ ms, m.2 = f) ∧
      ∀ half, c ∈ half → lookup? key (collect (filled half ms)) = f?.map (· half) := by
  refine lookup?_collect_filled key ms [c] fun half hhalf m _ => ?_
  by_cases hplace : none ∈ m.1
  · have hne : ∀ half, c ∈ half → String.ofList (fill half m.1) ≠ key := by
      intro half hhalf heq
      rw [← heq, String.toList_ofList] at hc
      exact hc (mem_fill hplace hhalf)
    exact iff_of_false (hne half hhalf) (hne [c] List.mem_cons_self)
  · rw [fill_congr hplace half [c]]

namespace Reading

variable {n : Nat} {f : List Char → Json}

/-- A value that is read with many characters for each half as it is with one has no places. -/
theorem eq_of_eq (h : Reading n f) {c : Char} (heq : f (List.replicate (n + 1) c) = f [c])
    (half : List Char) : f half = f [c] := by
  induction h with
  | same v => rfl
  | @str text hlength =>
      have hfill := String.ofList_injective (Json.str.inj heq)
      show Json.str (String.ofList (fill half text)) = _
      rw [fill_congr (not_mem_of_fill_eq hfill hlength) half [c]]
  | @arr items hitems ih =>
      have hsame := List.map_inj_left.mp (Json.arr.inj heq)
      exact congrArg Json.arr (List.map_congr_left fun f hf => ih f hf (hsame f hf))
  | @obj ms hlengths hmembers ih =>
      have hcollect := Json.obj.inj heq
      -- a key with a place would be a key that is too long
      have hkeys : ∀ m ∈ ms, none ∉ m.1 := by
        intro m hm
        have hkey : String.ofList (fill (List.replicate (n + 1) c) m.1) ∈
            (collect (filled (List.replicate (n + 1) c) ms)).map (·.1) :=
          mem_keys_collect.mpr (List.mem_map_of_mem (List.mem_map_of_mem hm))
        rw [hcollect, mem_keys_collect, filled, List.map_map] at hkey
        obtain ⟨m', hm', hname⟩ := List.mem_map.mp hkey
        exact not_mem_of_fill_eq (String.ofList_injective hname).symm (hlengths m' hm')
      refine congrArg Json.obj (eq_of_lookup?_eq ?_ (nodup_keys_collect _) fun key => ?_)
      · have hnames : (filled half ms).map (·.1) = (filled [c] ms).map (·.1) := by
          rw [filled, filled, List.map_map, List.map_map]
          refine List.map_congr_left fun m hm => ?_
          exact congrArg String.ofList (fill_congr (hkeys m hm) half [c])
        rw [keys_collect, keys_collect, hnames]
      · obtain ⟨f?, hmem, hlookup⟩ := lookup?_collect_filled (P := fun _ => True) key ms [c]
          fun half _ m hm => by rw [fill_congr (hkeys m hm) half [c]]
        have hvalue := congrArg (lookup? key) hcollect
        rw [hlookup _ trivial, hlookup _ trivial] at hvalue
        rw [hlookup half trivial, hlookup [c] trivial]
        cases f? with
        | none => rfl
        | some f =>
            obtain ⟨m, hm, rfl⟩ := hmem f rfl
            exact congrArg some (ih m hm (Option.some.inj hvalue))

/-- Whether a value says something does not hang on what stands for halves, if something does. -/
theorem isVacant_eq (h : Reading n f) {half half' : List Char} (hne : half ≠ [])
    (hne' : half' ≠ []) : (f half).isVacant = (f half').isVacant := by
  cases h with
  | same v => rfl
  | @str text _ =>
      show (String.ofList (fill half text)).isEmpty = (String.ofList (fill half' text)).isEmpty
      rw [Bool.eq_iff_iff, String.isEmpty_iff, String.isEmpty_iff, String.ofList_eq_empty_iff,
        String.ofList_eq_empty_iff, fill_eq_nil_iff hne, fill_eq_nil_iff hne']
  | @arr items _ =>
      show (items.map (· half)).isEmpty = (items.map (· half')).isEmpty
      rw [List.isEmpty_map, List.isEmpty_map]
  | @obj ms _ _ =>
      show (collect (filled half ms)).isEmpty = (collect (filled half' ms)).isEmpty
      rw [isEmpty_collect, isEmpty_collect, filled, filled, List.isEmpty_map, List.isEmpty_map]

end Reading

/-- Nothing is found, or a value with places, as long as a character is among those that stand for
halves. -/
def IsFound (n : Nat) (c : Char) (f : List Char → Option Json) : Prop :=
  ∃ value? : Option (List Char → Json), (∀ g ∈ value?, Reading n g) ∧
    ∀ half, c ∈ half → f half = value?.map (· half)

section

variable {n : Nat} {c : Char} {f g : List Char → Option Json}

theorem isFound_const (value? : Option Json) : IsFound n c fun _ => value? := by
  refine ⟨value?.map fun v _ => v, fun g hg => ?_, fun half _ => ?_⟩
  · obtain ⟨v, -, rfl⟩ := Option.map_eq_some_iff.mp hg
    exact .same v
  · cases value? <;> rfl

theorem isFound_collect_filled {ms : List (List (Option Char) × (List Char → Json))} {key : String}
    (hmembers : ∀ m ∈ ms, Reading n m.2) (hc : c ∉ key.toList) :
    IsFound n c fun half => lookup? key (collect (filled half ms)) := by
  obtain ⟨value?, hmem, hlookup⟩ := lookup?_collect_filled_of_not_mem hc
  refine ⟨value?, fun g hg => ?_, hlookup⟩
  obtain ⟨m, hm, rfl⟩ := hmem g hg
  exact hmembers m hm

theorem IsFound.or (hf : IsFound n c f) (hg : IsFound n c g) :
    IsFound n c fun half => (f half).or (g half) := by
  obtain ⟨value?, hvalue, hfound⟩ := hf
  cases value? with
  | none =>
      obtain ⟨value?, hvalue, hfound'⟩ := hg
      refine ⟨value?, hvalue, fun half hhalf => ?_⟩
      show (f half).or (g half) = _
      rw [hfound half hhalf, Option.map_none, Option.none_or, hfound' half hhalf]
  | some v =>
      refine ⟨some v, hvalue, fun half hhalf => ?_⟩
      show (f half).or (g half) = _
      rw [hfound half hhalf, Option.map_some, Option.some_or]

theorem IsFound.eq_of_eq (h : IsFound n c f) (heq : f (List.replicate (n + 1) c) = f [c])
    {half : List Char} (hhalf : c ∈ half) : f half = f [c] := by
  obtain ⟨value?, hvalue, hfound⟩ := h
  have hmany : c ∈ List.replicate (n + 1) c := List.mem_replicate.mpr ⟨Nat.succ_ne_zero n, rfl⟩
  rw [hfound _ hmany, hfound [c] List.mem_cons_self] at heq
  rw [hfound half hhalf, hfound [c] List.mem_cons_self]
  cases value? with
  | none => rfl
  | some g => exact congrArg some ((hvalue g rfl).eq_of_eq (Option.some.inj heq) half)

/-- Whether what is found says something does not hang on what stands for halves. -/
theorem IsFound.isVacant_eq (h : IsFound n c f) {half : List Char} (hhalf : c ∈ half) :
    ((f half).getD .null).isVacant = ((f [c]).getD .null).isVacant := by
  obtain ⟨value?, hvalue, hfound⟩ := h
  rw [hfound half hhalf, hfound [c] List.mem_cons_self]
  cases value? with
  | none => rfl
  | some g =>
      exact (hvalue g rfl).isVacant_eq (List.ne_nil_of_mem hhalf) (List.cons_ne_nil c [])

end

/-! ## What is left -/

section

variable {s rest : List Char}

theorem length_skipSpace_le (s : List Char) : (skipSpace s).length ≤ s.length :=
  (List.dropWhile_sublist _).length_le

theorem length_of_spanDigits {ds : List Nat} (h : spanDigits s = (ds, rest)) :
    rest.length ≤ s.length := by
  obtain ⟨-, rfl⟩ := Prod.mk.inj h
  exact (List.dropWhile_sublist _).length_le

theorem length_of_hex4? {n : Nat} (h : hex4? s = some (n, rest)) : rest.length + 4 = s.length := by
  unfold hex4? at h
  split at h
  · obtain ⟨_, -, h⟩ := Option.bind_eq_some_iff.mp h
    obtain ⟨_, -, h⟩ := Option.bind_eq_some_iff.mp h
    obtain ⟨_, -, h⟩ := Option.bind_eq_some_iff.mp h
    obtain ⟨_, -, h⟩ := Option.bind_eq_some_iff.mp h
    obtain ⟨-, rfl⟩ := Prod.mk.inj (Option.some.inj h)
    rfl
  · cases h

theorem length_of_fraction? {ds : List Nat} (h : fraction? s = some (ds, rest)) :
    rest.length ≤ s.length := by
  unfold fraction? at h
  split at h
  · split at h
    · cases h
    · exact Nat.le_succ_of_le (length_of_spanDigits (Option.some.inj h))
  · cases h

theorem length_of_exponent? {e : Int} (h : exponent? s = some (e, rest)) :
    rest.length ≤ s.length := by
  unfold exponent? at h
  split at h
  · split at h
    · dsimp only at h
      split at h
      · cases h
      · next hdigits =>
          obtain ⟨-, rfl⟩ := Prod.mk.inj (Option.some.inj h)
          have hle := length_of_spanDigits hdigits
          -- the sign, if there is one, is taken as well
          split at hle <;> simp only [List.length_cons] at hle ⊢ <;> omega
    · cases h
  · cases h

theorem length_of_wholePart? {ds : List Nat} (h : wholePart? s = some (ds, rest)) :
    rest.length ≤ s.length := by
  unfold wholePart? at h
  split at h
  · obtain ⟨-, rfl⟩ := Prod.mk.inj (Option.some.inj h)
    exact Nat.le_succ _
  · split at h
    · cases h
    · exact length_of_spanDigits (Option.some.inj h)

theorem length_of_readNumber {negative : Bool} {v : Json}
    (h : readNumber negative s = some (v, rest)) : rest.length ≤ s.length := by
  unfold readNumber at h
  obtain ⟨⟨whole, behind⟩, hwhole, h⟩ := Option.bind_eq_some_iff.mp h
  have hle := length_of_wholePart? hwhole
  dsimp only at h
  have hfraction : ((fraction? behind).getD ([], behind)).2.length ≤ behind.length := by
    cases hfraction : fraction? behind with
    | none => exact Nat.le_refl _
    | some r => exact length_of_fraction? hfraction
  split at h
  · obtain ⟨-, rfl⟩ := Prod.mk.inj (Option.some.inj h)
    exact hle
  · obtain ⟨-, rfl⟩ := Prod.mk.inj (Option.some.inj h)
    cases hexponent : exponent? ((fraction? behind).getD ([], behind)).2 with
    | none => exact Nat.le_trans hfraction hle
    | some r =>
        have hlast := length_of_exponent? hexponent
        exact Nat.le_trans hlast (Nat.le_trans hfraction hle)

theorem length_of_readWord {v : Json} (h : readWord s = some (v, rest)) :
    rest.length ≤ s.length := by
  obtain ⟨⟨word, value⟩, -, h⟩ := List.exists_of_findSome?_eq_some h
  obtain ⟨behind, hafter, heq⟩ := Option.map_eq_some_iff.mp h
  obtain rfl := (Prod.mk.inj heq).2
  unfold after? at hafter
  split at hafter
  · obtain rfl := Option.some.inj hafter
    rw [List.length_drop]
    exact Nat.sub_le _ _
  · cases hafter

end

/-! ## The reader -/

/-- Whatever stands for halves, nothing is read, or one value with places for them, and what is left
is the same, and no longer than `n`. -/
def Uniform {β : Type} (n : Nat) (P : (List Char → β) → Prop)
    (read : List Char → Option (β × List Char)) : Prop :=
  (∀ half, read half = none) ∨
    ∃ f rest, rest.length ≤ n ∧ P f ∧ ∀ half, read half = some (f half, rest)

section

variable {n : Nat} {β γ : Type} {P : (List Char → β) → Prop} {Q : (List Char → γ) → Prop}
  {read : List Char → Option (β × List Char)}

theorem Uniform.pure {f : List Char → β} {rest : List Char} (hrest : rest.length ≤ n) (hf : P f) :
    Uniform n P fun half => some (f half, rest) :=
  .inr ⟨f, rest, hrest, hf, fun _ => rfl⟩

theorem Uniform.of_eq {read' : List Char → Option (β × List Char)}
    (heq : ∀ half, read half = read' half) (h : Uniform n P read') : Uniform n P read := by
  rwa [funext heq]

/-- What is read behind a value may have the value in it. -/
theorem Uniform.bind {next : List Char → β × List Char → Option (γ × List Char)}
    (h : Uniform n P read)
    (hnext : ∀ f rest, rest.length ≤ n → P f → Uniform n Q fun half => next half (f half, rest)) :
    Uniform n Q fun half => (read half).bind (next half) := by
  rcases h with hnone | ⟨f, rest, hrest, hf, hsome⟩
  · exact .inl fun half => by simp [hnone]
  · exact .of_eq (fun half => by simp [hsome]) (hnext f rest hrest hf)

end

/-- One character, or what stands for one half. -/
def IsCell (f : List Char → List Char) : Prop :=
  ∃ c : Option Char, f = (fill · [c])

/-- A text with no more characters and places than `n`. -/
def IsText (n : Nat) (f : List Char → List Char) : Prop :=
  ∃ text : List (Option Char), text.length ≤ n ∧ f = (fill · text)

section

variable {n : Nat} {s : List Char}

/-- The number of an escape is one character or a place. -/
theorem isCell_charsOf (number : Nat) : IsCell (charsOf · number) := by
  by_cases h : (isHighHalf number || isLowHalf number) = true
  · exact ⟨none, funext fun half => by simp [charsOf, h, fill]⟩
  · exact ⟨some (Char.ofNat number), funext fun half => by simp [charsOf, h, fill]⟩

theorem unicodeEscape?_uniform (s : List Char) :
    Uniform s.length IsCell (unicodeEscape? · s) := by
  cases hfirst : hex4? s with
  | none => exact .inl fun half => by simp [unicodeEscape?, hfirst]
  | some r =>
      obtain ⟨first, rest⟩ := r
      have hlength := length_of_hex4? hfirst
      have hle : rest.length ≤ s.length := by omega
      by_cases hpair : isHighHalf first = true ∧ ∃ more, rest = '\\' :: 'u' :: more
      · obtain ⟨hhigh, more, rfl⟩ := hpair
        cases hsecond : hex4? more with
        | none => exact .inl fun half => by simp [unicodeEscape?, hfirst, hhigh, hsecond]
        | some r =>
            obtain ⟨second, behind⟩ := r
            have hlength' := length_of_hex4? hsecond
            by_cases hlow : isLowHalf second = true
            · have hbehind : behind.length ≤ s.length := by
                rw [List.length_cons, List.length_cons] at hle
                omega
              refine .of_eq (fun half => ?_) (.pure hbehind ⟨some (Char.ofNat
                (0x10000 + (first - 0xd800) * 1024 + (second - 0xdc00))), rfl⟩)
              simp [unicodeEscape?, hfirst, hhigh, hsecond, hlow, fill]
            · refine .of_eq (fun half => ?_) (.pure hle (isCell_charsOf first))
              simp [unicodeEscape?, hfirst, hhigh, hsecond, hlow]
      · refine .of_eq (fun half => ?_) (.pure hle (isCell_charsOf first))
        simp only [unicodeEscape?, hfirst, Option.bind_eq_bind, Option.bind_some]
        split
        · next hhigh =>
            split
            · next more => exact absurd ⟨hhigh, more, rfl⟩ hpair
            · rfl
        · rfl

/-- Other escapes are one character, whatever stands for halves. -/
theorem escape?_uniform_of_ne {c : Char} (hc : c ≠ 'u') (rest : List Char) :
    Uniform rest.length IsCell (escape? · (c :: rest)) := by
  have hsame : ∀ half, escape? half (c :: rest) = escape? [] (c :: rest) := by
    intro half
    simp only [escape?]
    split
    case h_9 heq => exact absurd (List.cons.inj heq).1 hc
    all_goals rfl
  have hone : ∀ cs behind, escape? [] (c :: rest) = some (cs, behind) →
      behind = rest ∧ ∃ d, cs = [d] := by
    intro cs behind h
    simp only [escape?] at h
    split at h
    case h_9 heq => exact absurd (List.cons.inj heq).1 hc
    case h_10 => cases h
    all_goals
      obtain ⟨rfl, rfl⟩ := Prod.mk.inj (Option.some.inj h)
      exact ⟨by simp_all, _, rfl⟩
  cases hescape : escape? [] (c :: rest) with
  | none => exact .inl fun half => (hsame half).trans hescape
  | some r =>
      obtain ⟨cs, behind⟩ := r
      obtain ⟨rfl, d, rfl⟩ := hone cs behind hescape
      exact .of_eq (fun half => (hsame half).trans hescape) (.pure (Nat.le_refl _) ⟨some d, rfl⟩)

theorem escape?_uniform (c : Char) (rest : List Char) :
    Uniform rest.length IsCell (escape? · (c :: rest)) := by
  by_cases hc : c = 'u'
  · subst hc
    exact unicodeEscape?_uniform rest
  · exact escape?_uniform_of_ne hc rest

/-- A text has no more characters and places than are read for it. -/
theorem readText_uniform (fuel : Nat) (read : List (Option Char)) (s : List Char)
    (h : read.length + s.length ≤ n) :
    Uniform n (IsText n) fun half => readText half fuel (fill half read).reverse s := by
  induction fuel generalizing read s with
  | zero => exact .inl fun _ => rfl
  | succ fuel ih =>
      cases s with
      | nil => exact .inl fun _ => rfl
      | cons c rest =>
          rw [List.length_cons] at h
          have hmore : ∀ d half, (fill half [d]).reverse ++ (fill half read).reverse =
              (fill half (read ++ [d])).reverse := by
            intro d half
            rw [← List.reverse_append, fill, fill, fill, List.flatMap_append]
          by_cases hquote : c = '"'
          · have hrest : rest.length ≤ n := by omega
            refine .of_eq (fun half => ?_) (.pure hrest ⟨read, by omega, rfl⟩)
            simp [readText, hquote]
          by_cases hescape : c = '\\'
          · cases rest with
            | nil => exact .inl fun half => by simp [readText, hescape, escape?]
            | cons e rest =>
                rcases escape?_uniform e rest with hnone | ⟨f, behind, hle, ⟨d, rfl⟩, hsome⟩
                · exact .inl fun half => by simp [readText, hescape, hnone half]
                · refine .of_eq (fun half => ?_) (ih (read ++ [d]) behind ?_)
                  · simp [readText, hescape, hsome, hmore]
                  · rw [List.length_append, List.length_singleton]
                    rw [List.length_cons] at h
                    omega
          by_cases hcontrol : c.toNat < 32
          · exact .inl fun half => by simp [readText, hquote, hescape, hcontrol]
          · refine .of_eq (fun half => ?_) (ih (read ++ [some c]) rest ?_)
            · simp [readText, hquote, hescape, hcontrol, fill]
            · rw [List.length_append, List.length_singleton]
              omega

/-- So is what is read of a text in quotes. -/
theorem readText_nil_uniform (h : s.length ≤ n) :
    Uniform n (IsText n) fun half => readText half (s.length + 1) [] s :=
  readText_uniform (s.length + 1) [] s (by rwa [List.length_nil, Nat.zero_add])

end

/-- A list of which each item stems from one with a property. -/
def IsList {ι β : Type} (shown : List Char → ι → β) (P : ι → Prop)
    (f : List Char → List β) : Prop :=
  ∃ items : List ι, (∀ i ∈ items, P i) ∧ f = fun half => items.map (shown half)

section

variable {ι β : Type} {shown : List Char → ι → β} {P : ι → Prop} {f : List Char → List β}

theorem IsList.nil : IsList shown P fun _ => [] :=
  ⟨[], nofun, rfl⟩

theorem IsList.cons {i : ι} (hi : P i) (h : IsList shown P f) :
    IsList shown P fun half => shown half i :: f half := by
  obtain ⟨items, hitems, rfl⟩ := h
  exact ⟨i :: items, List.forall_mem_cons.mpr ⟨hi, hitems⟩, rfl⟩

theorem IsList.reverse (h : IsList shown P f) : IsList shown P fun half => (f half).reverse := by
  obtain ⟨items, hitems, rfl⟩ := h
  refine ⟨items.reverse, fun i hi => hitems i (List.mem_reverse.mp hi), funext fun half => ?_⟩
  exact List.map_reverse.symm

end

/-- Items with places. -/
def IsItems (n : Nat) : (List Char → List Json) → Prop :=
  IsList (fun half g => g half) (Reading n)

/-- Members with places. -/
def IsMembers (n : Nat) : (List Char → List (String × Json)) → Prop :=
  IsList (fun half m => (String.ofList (fill half m.1), m.2 half))
    fun m : List (Option Char) × (List Char → Json) => m.1.length ≤ n ∧ Reading n m.2

/-- What is read with some fuel of a text of limited length hangs on what stands for halves only in
its places. -/
structure ReadsUniformly (n fuel : Nat) : Prop where
  value : ∀ {s}, s.length ≤ n → Uniform n (Reading n) (readValue · fuel s)
  items : ∀ {read s}, IsItems n read → s.length ≤ n →
    Uniform n (IsItems n) fun half => readItems half fuel (read half) s
  members : ∀ {read s}, IsMembers n read → s.length ≤ n →
    Uniform n (IsMembers n) fun half => readMembers half fuel (read half) s

/-- A value that is no text, list or object. -/
theorem readValue_of_plain {c : Char} (hquote : c ≠ '"') (hlist : c ≠ '[') (hobject : c ≠ '{')
    (half : List Char) (fuel : Nat) (rest : List Char) :
    readValue half (fuel + 1) (c :: rest) =
      (readWord (c :: rest)).or
        (if c = '-' then readNumber true rest else readNumber false (c :: rest)) := by
  unfold readValue
  split
  · next heq => exact absurd (List.cons.inj heq).1 hquote
  · next heq => exact absurd (List.cons.inj heq).1 hlist
  · next heq => exact absurd (List.cons.inj heq).1 hobject
  · split
    · next hword => rw [hword, Option.some_or]
    · next hword =>
        rw [hword, Option.none_or]
        split
        · next heq =>
            obtain ⟨rfl, rfl⟩ := List.cons.inj heq
            rw [if_pos rfl]
        · next hne => rw [if_neg fun hc => hne rest (congrArg (· :: rest) hc)]

theorem uniform_const {n : Nat} {r? : Option (Json × List Char)}
    (h : ∀ r, r? = some r → r.2.length ≤ n) : Uniform n (Reading n) fun _ => r? := by
  cases r? with
  | none => exact .inl fun _ => rfl
  | some r => exact .pure (h r rfl) (.same r.1)

namespace ReadsUniformly

variable {n fuel : Nat} {s rest : List Char}

theorem value_text (h : rest.length ≤ n) :
    Uniform n (Reading n) (readValue · (fuel + 1) ('"' :: rest)) := by
  have hread : ∀ half, readValue half (fuel + 1) ('"' :: rest) =
      (readText half (rest.length + 1) [] rest).bind fun r =>
        some (.str (String.ofList r.1), r.2) := by
    intro half
    rw [readValue]
    rfl
  refine .of_eq hread ((readText_nil_uniform h).bind fun f behind hbehind hf => .pure hbehind ?_)
  obtain ⟨text, hlength, rfl⟩ := hf
  exact .str hlength

theorem value_list (ih : ReadsUniformly n fuel) (h : rest.length ≤ n) :
    Uniform n (Reading n) (readValue · (fuel + 1) ('[' :: rest)) := by
  have hle := length_skipSpace_le rest
  by_cases hempty : ∃ more, skipSpace rest = ']' :: more
  · obtain ⟨more, hmore⟩ := hempty
    rw [hmore, List.length_cons] at hle
    have hle : more.length ≤ n := by omega
    refine .of_eq (fun half => ?_) (.pure hle (.same (.arr [])))
    simp [readValue, hmore]
  · have hread : ∀ half, readValue half (fuel + 1) ('[' :: rest) =
        (readItems half fuel [] (skipSpace rest)).bind fun r => some (.arr r.1, r.2) := by
      intro half
      rw [readValue]
      split
      · next more heq => exact absurd ⟨more, heq⟩ hempty
      · rfl
    refine .of_eq hread ((ih.items .nil (Nat.le_trans hle h)).bind fun f behind hbehind hf =>
      .pure hbehind ?_)
    obtain ⟨items, hitems, rfl⟩ := hf
    exact .arr hitems

theorem value_object (ih : ReadsUniformly n fuel) (h : rest.length ≤ n) :
    Uniform n (Reading n) (readValue · (fuel + 1) ('{' :: rest)) := by
  have hle := length_skipSpace_le rest
  by_cases hempty : ∃ more, skipSpace rest = '}' :: more
  · obtain ⟨more, hmore⟩ := hempty
    rw [hmore, List.length_cons] at hle
    have hle : more.length ≤ n := by omega
    refine .of_eq (fun half => ?_) (.pure hle (.same (.obj [])))
    simp [readValue, hmore]
  · have hread : ∀ half, readValue half (fuel + 1) ('{' :: rest) =
        (readMembers half fuel [] (skipSpace rest)).bind fun r =>
          some (.obj (collect r.1), r.2) := by
      intro half
      rw [readValue]
      split
      · next more heq => exact absurd ⟨more, heq⟩ hempty
      · rfl
    refine .of_eq hread ((ih.members .nil (Nat.le_trans hle h)).bind fun f behind hbehind hf =>
      .pure hbehind ?_)
    obtain ⟨ms, hms, rfl⟩ := hf
    exact .obj (fun m hm => (hms m hm).1) fun m hm => (hms m hm).2

theorem value_succ (ih : ReadsUniformly n fuel) (h : s.length ≤ n) :
    Uniform n (Reading n) (readValue · (fuel + 1) s) := by
  cases s with
  | nil => exact .inl fun _ => rfl
  | cons c rest =>
      have hrest : rest.length ≤ n := Nat.le_of_succ_le h
      by_cases hquote : c = '"'
      · exact hquote ▸ value_text hrest
      by_cases hlist : c = '['
      · exact hlist ▸ value_list ih hrest
      by_cases hobject : c = '{'
      · exact hobject ▸ value_object ih hrest
      have hread := fun half => readValue_of_plain hquote hlist hobject half fuel rest
      refine .of_eq hread (uniform_const fun r hr => ?_)
      rcases Option.or_eq_some_iff.mp hr with hword | ⟨-, hnumber⟩
      · exact Nat.le_trans (length_of_readWord hword) h
      · split at hnumber
        · exact Nat.le_trans (length_of_readNumber hnumber) hrest
        · exact Nat.le_trans (length_of_readNumber hnumber) h

theorem items_succ (ih : ReadsUniformly n fuel) {read : List Char → List Json}
    (hread : IsItems n read) (h : s.length ≤ n) :
    Uniform n (IsItems n) fun half => readItems half (fuel + 1) (read half) s := by
  refine .of_eq (fun half => by rw [readItems]; rfl) ((ih.value h).bind fun f rest hrest hf => ?_)
  have hmore : IsItems n fun half => f half :: read half := hread.cons hf
  have hle := length_skipSpace_le rest
  by_cases hcomma : ∃ behind, skipSpace rest = ',' :: behind
  · obtain ⟨behind, hskip⟩ := hcomma
    rw [hskip, List.length_cons] at hle
    have hbehind := length_skipSpace_le behind
    simpa only [hskip] using ih.items hmore (by omega)
  by_cases hclosing : ∃ behind, skipSpace rest = ']' :: behind
  · obtain ⟨behind, hskip⟩ := hclosing
    rw [hskip, List.length_cons] at hle
    simpa only [hskip] using .pure (by omega) hmore.reverse
  · refine .inl fun half => ?_
    dsimp only
    split
    · next behind heq => exact absurd ⟨behind, heq⟩ hcomma
    · next behind heq => exact absurd ⟨behind, heq⟩ hclosing
    · rfl

theorem members_succ (ih : ReadsUniformly n fuel) {read : List Char → List (String × Json)}
    (hread : IsMembers n read) (h : s.length ≤ n) :
    Uniform n (IsMembers n) fun half => readMembers half (fuel + 1) (read half) s := by
  by_cases hquote : ∃ rest, s = '"' :: rest
  · obtain ⟨rest, rfl⟩ := hquote
    refine .of_eq (fun half => by rw [readMembers]; rfl)
      ((readText_nil_uniform (Nat.le_of_succ_le h)).bind fun key rest hrest hkey => ?_)
    obtain ⟨text, hlength, rfl⟩ := hkey
    have hle := length_skipSpace_le rest
    by_cases hcolon : ∃ behind, skipSpace rest = ':' :: behind
    · obtain ⟨behind, hskip⟩ := hcolon
      rw [hskip, List.length_cons] at hle
      simp only [hskip]
      have hbehind := length_skipSpace_le behind
      refine (ih.value (by omega)).bind fun f rest hrest hf => ?_
      have hmore : IsMembers n fun half =>
          (String.ofList (fill half text), f half) :: read half := hread.cons (i := (text, f))
            ⟨hlength, hf⟩
      have hle := length_skipSpace_le rest
      by_cases hcomma : ∃ behind, skipSpace rest = ',' :: behind
      · obtain ⟨behind, hskip⟩ := hcomma
        rw [hskip, List.length_cons] at hle
        have hbehind := length_skipSpace_le behind
        simpa only [hskip] using ih.members hmore (by omega)
      by_cases hclosing : ∃ behind, skipSpace rest = '}' :: behind
      · obtain ⟨behind, hskip⟩ := hclosing
        rw [hskip, List.length_cons] at hle
        simpa only [hskip] using .pure (by omega) hmore.reverse
      · refine .inl fun half => ?_
        dsimp only
        split
        · next behind heq => exact absurd ⟨behind, heq⟩ hcomma
        · next behind heq => exact absurd ⟨behind, heq⟩ hclosing
        · rfl
    · refine .inl fun half => ?_
      dsimp only
      split
      · next behind heq => exact absurd ⟨behind, heq⟩ hcolon
      · rfl
  · refine .inl fun half => ?_
    unfold readMembers
    split
    · next rest => exact absurd ⟨rest, rfl⟩ hquote
    · rfl

theorem all (n : Nat) : ∀ fuel, ReadsUniformly n fuel
  | 0 => ⟨fun _ => .inl fun _ => rfl, fun _ _ => .inl fun _ => rfl, fun _ _ => .inl fun _ => rfl⟩
  | fuel + 1 => ⟨value_succ (all n fuel), items_succ (all n fuel), members_succ (all n fuel)⟩

end ReadsUniformly

/-- Whatever stands for halves, a text is no JSON, or one value with places for them. -/
theorem exists_reading (s : List Char) :
    (∀ half, parseWith? half s = none) ∨
      ∃ f, Reading s.length f ∧ ∀ half, parseWith? half s = some (f half) := by
  have hvalue := (ReadsUniformly.all s.length (s.length + 1)).value (length_skipSpace_le s)
  rcases hvalue with hnone | ⟨f, rest, -, hf, hsome⟩
  · exact .inl fun half => by simp [parseWith?, hnone half]
  · by_cases hblank : skipSpace rest = []
    · exact .inr ⟨f, hf, fun half => by simp [parseWith?, hsome half, hblank]⟩
    · exact .inl fun half => by simp [parseWith?, hsome half, hblank]

end FrontendAudit.Json
