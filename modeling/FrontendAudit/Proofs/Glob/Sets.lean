import FrontendAudit.Glob.Basic
import FrontendAudit.Proofs.Fallible

/-!
# Which globs have a meaning

Only sets can keep a text from being a glob. A set that lists something ends at its own bracket. A
set that lists nothing runs on: it takes the literal characters and the `**` that follow as entries,
and it has to be ended by a `*`, a `?` or another set before the text is over and before any `**/`.
What a set has listed in the end must not contain a range that runs backwards. A text is a glob
exactly when all its sets are of this kind (`parse_succeeds_iff`); a text without an opening bracket
always is (`wellBracketed_of_not_mem`).
-/

namespace FrontendAudit.Glob

/-! ## The sets of a text -/

/-- The ranges among the entries of a set, from the left. -/
def ranges : List SetItem → List (Char × Char)
  | a :: .dash :: b :: items => (a.toChar, b.toChar) :: ranges items
  | _ :: items => ranges items
  | [] => []

/-- No range runs backwards. -/
def Forward (items : List SetItem) : Prop := ∀ r ∈ ranges items, r.1 ≤ r.2

/-- The entries that a token adds to a set that is still open; nothing for a token that does not go
into the set as a whole. -/
def addedBy? : Token → Option (List SetItem)
  | .literal c => some [.char c]
  | .anything => some [.char '.', .char '*']
  | _ => none

/-- The last entries of an open set, which a token brings in and ends; nothing for a token that
cannot end it. -/
def endedBy? : Token → Option (List SetItem)
  | .run => some [.char '[', .char '^', .char '/']
  | .single => some [.char '[', .char '^', .char '/']
  | .set body => some (.char '[' :: (writtenBody body).map .ofChar)
  | _ => none

/-- The sets among tokens, each with its entries. -/
inductive Sets : List Token → List (List SetItem) → Prop
  | nil : Sets [] []
  | plain {token : Token} {rest : List Token} {sets : List (List SetItem)}
      (hplain : ∀ body, token ≠ .set body) (hrest : Sets rest sets) : Sets (token :: rest) sets
  | listed {body : List Char} {rest : List Token} {sets : List (List SetItem)}
      (hbody : (negation body).2 ≠ []) (hrest : Sets rest sets) :
      Sets (.set body :: rest) ((negation body).2.map .ofChar :: sets)
  | runOn {body : List Char} {taken rest : List Token} {last : Token} {added : List (List SetItem)}
      {ended : List SetItem} {sets : List (List SetItem)} (hbody : (negation body).2 = [])
      (hadded : taken.map addedBy? = added.map some) (hended : endedBy? last = some ended)
      (hrest : Sets rest sets) :
      Sets (.set body :: (taken ++ last :: rest)) ((.char ']' :: added.flatten ++ ended) :: sets)

/-- Tokens whose sets all end and have no range that runs backwards. -/
def Sound (ts : List Token) : Prop := ∃ sets, Sets ts sets ∧ ∀ items ∈ sets, Forward items

/-- A text whose sets all end and have no range that runs backwards. -/
def WellBracketed (s : List Char) : Prop := Sound (tokens s)

/-- Tokens at whose front a set is open and has the given entries: it ends, without a range that
runs backwards, and what follows is sound. -/
def EndsSet (items : List SetItem) (ts : List Token) : Prop :=
  ∃ (taken rest : List Token) (last : Token) (added : List (List SetItem)) (ended : List SetItem),
    ts = taken ++ last :: rest ∧ taken.map addedBy? = added.map some ∧ endedBy? last = some ended ∧
      Forward (items ++ added.flatten ++ ended) ∧ Sound rest

/-! ## One token at a time -/

section

variable {token : Token} {ts : List Token} {body : List Char} {items : List SetItem}

theorem sound_nil : Sound [] := ⟨[], .nil, by simp⟩

theorem sound_plain_iff (hplain : ∀ body, token ≠ .set body) : Sound (token :: ts) ↔ Sound ts := by
  constructor
  · rintro ⟨sets, hsets, hforward⟩
    cases hsets with
    | plain _ hrest => exact ⟨sets, hrest, hforward⟩
    | listed _ _ => exact absurd rfl (hplain _)
    | runOn _ _ _ _ => exact absurd rfl (hplain _)
  · rintro ⟨sets, hsets, hforward⟩
    exact ⟨sets, .plain hplain hsets, hforward⟩

theorem sound_listed_iff (hbody : (negation body).2 ≠ []) :
    Sound (.set body :: ts) ↔ Forward ((negation body).2.map .ofChar) ∧ Sound ts := by
  constructor
  · rintro ⟨sets, hsets, hforward⟩
    cases hsets with
    | plain hplain _ => exact absurd rfl (hplain _)
    | listed _ hrest =>
        rw [List.forall_mem_cons] at hforward
        exact ⟨hforward.1, _, hrest, hforward.2⟩
    | runOn hempty _ _ _ => exact absurd hempty hbody
  · rintro ⟨hset, sets, hsets, hforward⟩
    exact ⟨_, .listed hbody hsets, List.forall_mem_cons.mpr ⟨hset, hforward⟩⟩

theorem sound_runOn_iff (hbody : (negation body).2 = []) :
    Sound (.set body :: ts) ↔ EndsSet [.char ']'] ts := by
  constructor
  · rintro ⟨sets, hsets, hforward⟩
    cases hsets with
    | plain hplain _ => exact absurd rfl (hplain _)
    | listed hlisted _ => exact absurd hbody hlisted
    | runOn _ hadded hended hrest =>
        rw [List.forall_mem_cons] at hforward
        exact ⟨_, _, _, _, _, rfl, hadded, hended, hforward.1, _, hrest, hforward.2⟩
  · rintro ⟨taken, rest, last, added, ended, rfl, hadded, hended, hset, sets, hsets, hforward⟩
    exact ⟨_, .runOn hbody hadded hended hsets, List.forall_mem_cons.mpr ⟨hset, hforward⟩⟩

theorem not_endsSet_nil : ¬ EndsSet items [] := by
  rintro ⟨taken, _, _, _, _, heq, -⟩
  cases taken <;> cases heq

/-- A token that goes into an open set leaves it open. -/
theorem endsSet_added_iff {more : List SetItem} (h : addedBy? token = some more) :
    EndsSet items (token :: ts) ↔ EndsSet (items ++ more) ts := by
  have hended : endedBy? token = none := by
    cases token with
    | literal c => rfl
    | anything => rfl
    | _ => cases h
  constructor
  · rintro ⟨taken, rest, last, added, ended, heq, hadded, hlast, hforward, hrest⟩
    cases taken with
    | nil =>
        obtain ⟨rfl, -⟩ := List.cons.inj heq
        rw [hended] at hlast
        cases hlast
    | cons first taken =>
        obtain ⟨rfl, rfl⟩ := List.cons.inj heq
        cases added with
        | nil => cases hadded
        | cons entries added =>
            obtain ⟨hfirst, htaken⟩ := List.cons.inj hadded
            rw [h] at hfirst
            obtain rfl := Option.some.inj hfirst
            refine ⟨taken, rest, last, added, ended, rfl, htaken, hlast, ?_, hrest⟩
            simpa [List.append_assoc] using hforward
  · rintro ⟨taken, rest, last, added, ended, rfl, hadded, hlast, hforward, hrest⟩
    refine ⟨token :: taken, rest, last, more :: added, ended, rfl, ?_, hlast, ?_, hrest⟩
    · rw [List.map_cons, List.map_cons, h, hadded]
    · simpa [List.append_assoc] using hforward

/-- A token that does not go into an open set has to end it. -/
theorem endsSet_ended_iff (h : addedBy? token = none) :
    EndsSet items (token :: ts) ↔
      ∃ ended, endedBy? token = some ended ∧ Forward (items ++ ended) ∧ Sound ts := by
  constructor
  · rintro ⟨taken, rest, last, added, ended, heq, hadded, hlast, hforward, hrest⟩
    cases taken with
    | nil =>
        obtain ⟨rfl, rfl⟩ := List.cons.inj heq
        obtain rfl : added = [] := List.map_eq_nil_iff.mp hadded.symm
        exact ⟨ended, hlast, by simpa using hforward, hrest⟩
    | cons first taken =>
        obtain ⟨rfl, -⟩ := List.cons.inj heq
        cases added with
        | nil => cases hadded
        | cons entries added =>
            rw [List.map_cons, List.map_cons, h] at hadded
            cases (List.cons.inj hadded).1
  · rintro ⟨ended, hended, hforward, hrest⟩
    exact ⟨[], ts, token, [], ended, rfl, rfl, hended, by simpa using hforward, hrest⟩

end

/-! ## Reading tokens -/

section

variable {ε α β : Type}

theorem exists_map_eq_ok {x : Except ε α} {f : α → β} :
    (∃ b, x.map f = .ok b) ↔ ∃ a, x = .ok a := by
  cases x <;> simp [Except.map]

end

/-- The entries of a set list kinds of characters when no range runs backwards. -/
theorem kindsOf_succeeds_iff (items : List SetItem) :
    (∃ kinds, kindsOf items = .ok kinds) ↔ Forward items := by
  induction items using kindsOf.induct with
  | case1 => simp [kindsOf, Forward, ranges]
  | case2 a => simp [kindsOf, Forward, ranges]
  | case3 a => simp [kindsOf, Forward, ranges]
  | case4 a b items hlt =>
      have hbackward : ¬ Forward (a :: .dash :: b :: items) := by
        intro h
        exact absurd hlt (Char.not_lt.mpr (h (a.toChar, b.toChar) List.mem_cons_self))
      simp [kindsOf, hlt, hbackward]
  | case5 a b items hle ih =>
      have hforward : Forward (a :: .dash :: b :: items) ↔ Forward items := by
        simp [Forward, ranges, Char.not_lt.mp hle]
      rw [kindsOf, if_neg hle, exists_map_eq_ok, ih, hforward]
  | case6 a items hne hdash hrange ih =>
      have hranges : ranges (a :: items) = ranges items := by
        rw [ranges]
        rintro b more rfl
        exact hrange b more rfl
      rw [kindsOf, exists_map_eq_ok, ih, Forward, Forward, hranges]
      · exact hne
      · exact hdash
      · exact hrange

theorem setOf_succeeds_iff (negated : Bool) (items : List SetItem) :
    (∃ set, setOf negated items = .ok set) ↔ Forward items := by
  rw [setOf, exists_map_eq_ok, kindsOf_succeeds_iff]

/-- What reads the tokens after a set succeeds when the set does and the rest does. -/
theorem exists_set_eq_ok {negated : Bool} {items : List SetItem} {read : Except GlobFault Glob}
    {piece : CharSet → Piece} :
    (∃ g, (do let s ← setOf negated items; let pieces ← read; return piece s :: pieces) = .ok g) ↔
      Forward items ∧ ∃ g, read = .ok g := by
  rw [exists_bind_eq_ok, ← setOf_succeeds_iff negated items]
  constructor
  · rintro ⟨set, hset, h⟩
    obtain ⟨pieces, hread, -⟩ := exists_bind_eq_ok.mp h
    exact ⟨⟨set, hset⟩, pieces, hread⟩
  · rintro ⟨⟨set, hset⟩, pieces, hread⟩
    exact ⟨set, hset, exists_bind_eq_ok.mpr ⟨pieces, hread, _, rfl⟩⟩

/-- Reading succeeds outside of sets when the tokens are sound, and inside of one when it ends. -/
structure ReadsSound (ts : List Token) : Prop where
  outside : (∃ g, piecesFrom none ts = .ok g) ↔ Sound ts
  inside : ∀ negated items, (∃ g, piecesFrom (some (negated, items)) ts = .ok g) ↔ EndsSet items ts

namespace ReadsSound

variable {ts : List Token}

theorem nil : ReadsSound [] where
  outside := by simp [piecesFrom, sound_nil]
  inside negated items := by simp [piecesFrom, not_endsSet_nil]

theorem outside_cons (ih : ReadsSound ts) (token : Token) :
    (∃ g, piecesFrom none (token :: ts) = .ok g) ↔ Sound (token :: ts) := by
  cases token with
  | set body =>
      rw [piecesFrom]
      split
      · next negated hbody =>
          rw [ih.inside, sound_runOn_iff (by rw [hbody])]
      · next negated listed hne hbody =>
          have hlisted : (negation body).2 ≠ [] := by
            rw [hbody]
            exact hne
          rw [exists_set_eq_ok, ih.outside, sound_listed_iff hlisted, hbody]
  | directories => rw [piecesFrom, exists_map_eq_ok, ih.outside, sound_plain_iff (by simp)]
  | anything => rw [piecesFrom, exists_map_eq_ok, ih.outside, sound_plain_iff (by simp)]
  | run => rw [piecesFrom, exists_map_eq_ok, ih.outside, sound_plain_iff (by simp)]
  | single => rw [piecesFrom, exists_map_eq_ok, ih.outside, sound_plain_iff (by simp)]
  | literal c => rw [piecesFrom, exists_map_eq_ok, ih.outside, sound_plain_iff (by simp)]

theorem inside_cons (ih : ReadsSound ts) (token : Token) (negated : Bool) (items : List SetItem) :
    (∃ g, piecesFrom (some (negated, items)) (token :: ts) = .ok g) ↔
      EndsSet items (token :: ts) := by
  cases token with
  | literal c => rw [piecesFrom, ih.inside, endsSet_added_iff rfl]
  | anything => rw [piecesFrom, ih.inside, endsSet_added_iff rfl]
  | directories =>
      rw [endsSet_ended_iff rfl]
      simp [piecesFrom, endedBy?]
  | run =>
      rw [piecesFrom, exists_set_eq_ok, ih.outside, endsSet_ended_iff rfl]
      simp [endedBy?]
  | single =>
      rw [piecesFrom, exists_set_eq_ok, ih.outside, endsSet_ended_iff rfl]
      simp [endedBy?]
  | set body =>
      rw [piecesFrom, exists_set_eq_ok, ih.outside, endsSet_ended_iff rfl]
      simp [endedBy?]

theorem all : ∀ ts, ReadsSound ts
  | [] => nil
  | token :: ts => ⟨outside_cons (all ts) token, inside_cons (all ts) token⟩

end ReadsSound

/-- A text is a glob when it is well bracketed. -/
theorem parse_succeeds_iff (s : List Char) : (∃ g, parse s = .ok g) ↔ WellBracketed s :=
  (ReadsSound.all (tokens s)).outside

/-! ## Texts without brackets -/

theorem sound_of_plain {ts : List Token} (h : ∀ token ∈ ts, ∀ body, token ≠ .set body) :
    Sound ts := by
  induction ts with
  | nil => exact sound_nil
  | cons token ts ih =>
      rw [List.forall_mem_cons] at h
      exact (sound_plain_iff h.1).mpr (ih h.2)

theorem plain_of_mem_tokensFrom {skip : Nat} {s : List Char} (h : '[' ∉ s) :
    ∀ token ∈ tokensFrom skip s, ∀ body, token ≠ .set body := by
  induction s generalizing skip with
  | nil => simp [tokensFrom]
  | cons c s ih =>
      rw [List.mem_cons, not_or] at h
      cases skip with
      | succ skip => exact ih h.2
      | zero =>
          rw [tokensFrom, List.forall_mem_cons]
          refine ⟨?_, ih h.2⟩
          intro body
          unfold leading
          split
          · split <;> simp
          · split
            · simp
            · rw [if_neg (Ne.symm h.1)]
              simp

/-- A text without an opening bracket is a glob. -/
theorem wellBracketed_of_not_mem {s : List Char} (h : '[' ∉ s) : WellBracketed s := by
  refine sound_of_plain ?_
  unfold tokens
  split
  · next s =>
      refine plain_of_mem_tokensFrom ?_
      intro hmem
      exact h (List.mem_cons_of_mem _ (List.mem_cons_of_mem _ hmem))
  · exact plain_of_mem_tokensFrom h

end FrontendAudit.Glob
