import FrontendAudit.Disk.Tree
import Mathlib.Data.List.Basic

/-!
# What the strict reader accepts

The strict reader of UTF-8 accepts the encodings of texts and nothing else, and gives the text
(`strict?_eq_some_iff`). So a file can be read as text by it exactly when its data are the encoding
of some text (`Disk.FileData.readStrict?_eq_none_iff`).
-/

namespace FrontendAudit

namespace Text.Utf8

/-! ## One sequence -/

section

variable {count lo hi bits : Nat} {byte : UInt8} {bytes rest : List UInt8} {c : Char}

theorem continuation_cons (hlo : lo ≤ byte.toNat) (hhi : byte.toNat ≤ hi) :
    continuation (count + 1) lo hi bits (byte :: bytes) =
      continuation count 0x80 0xbf (bits * 64 + (byte.toNat - 0x80)) bytes := by
  simp [continuation, hlo, hhi]

/-- A sequence that gives a character has the bytes that are asked for. -/
theorem exists_of_continuation (h : continuation (count + 1) lo hi bits bytes = (some c, rest)) :
    ∃ byte more, bytes = byte :: more ∧ lo ≤ byte.toNat ∧ byte.toNat ≤ hi ∧
      continuation count 0x80 0xbf (bits * 64 + (byte.toNat - 0x80)) more = (some c, rest) := by
  cases bytes with
  | nil => cases h
  | cons byte more =>
      rw [continuation] at h
      split at h
      · next hbyte =>
          simp only [Bool.and_eq_true, decide_eq_true_eq] at hbyte
          exact ⟨byte, more, rfl, hbyte.1, hbyte.2, h⟩
      · cases h

theorem decode_ascii (h : byte.toNat < 0x80) :
    decode (byte :: bytes) = some (Char.ofNat byte.toNat) :: decode bytes := by
  rw [decode, if_pos h]

theorem decode_lead (h : ¬ byte.toNat < 0x80)
    (hfollowing : following byte.toNat = some (count, lo, hi)) :
    decode (byte :: bytes) =
      (continuation count lo hi (leadBits count byte.toNat) bytes).1 ::
        decode (continuation count lo hi (leadBits count byte.toNat) bytes).2 := by
  rw [decode, if_neg h]
  simp only [hfollowing]

end

/-- The lead bytes, by the number of bytes that follow, and the range of the first of these. -/
theorem following_eq_some_iff {lead : Nat} {r : Nat × Nat × Nat} :
    following lead = some r ↔
      (0xc2 ≤ lead ∧ lead ≤ 0xdf ∧ r = (1, 0x80, 0xbf)) ∨
      (0xe0 ≤ lead ∧ lead ≤ 0xef ∧
        r = (2, if lead = 0xe0 then 0xa0 else 0x80, if lead = 0xed then 0x9f else 0xbf)) ∨
      (0xf0 ≤ lead ∧ lead ≤ 0xf4 ∧
        r = (3, if lead = 0xf0 then 0x90 else 0x80, if lead = 0xf4 then 0x8f else 0xbf)) := by
  obtain ⟨count, lo, hi⟩ := r
  unfold following
  simp only [Bool.and_eq_true, decide_eq_true_eq, Prod.mk.injEq]
  split_ifs <;> simp only [Option.some.injEq, Prod.mk.injEq, false_iff] <;> omega

/-! ## One character -/

theorem leadBits_one (lead : Nat) : leadBits 1 lead = lead % 32 := rfl

theorem leadBits_two (lead : Nat) : leadBits 2 lead = lead % 16 := rfl

theorem leadBits_three (lead : Nat) : leadBits 3 lead = lead % 8 := rfl

/-- The bytes of a character are those of its number. -/
theorem encode_ofNat {n : Nat} (h : n.isValidChar) :
    String.utf8EncodeChar (Char.ofNat n) =
      if n ≤ 0x7f then [UInt8.ofNat n]
      else if n ≤ 0x7ff then [UInt8.ofNat (n / 64 % 32 + 192), UInt8.ofNat (n % 64 + 128)]
      else if n ≤ 0xffff then
        [UInt8.ofNat (n / 4096 % 16 + 224), UInt8.ofNat (n / 64 % 64 + 128),
          UInt8.ofNat (n % 64 + 128)]
      else
        [UInt8.ofNat (n / 262144 % 8 + 240), UInt8.ofNat (n / 4096 % 64 + 128),
          UInt8.ofNat (n / 64 % 64 + 128), UInt8.ofNat (n % 64 + 128)] := by
  have hval : (Char.ofNat n).val.toNat = n := by
    rw [Char.ofNat, dif_pos h]
    rfl
  unfold String.utf8EncodeChar
  simp only [hval]

theorem toNat_ofNat {n : Nat} (h : n < 256) : (UInt8.ofNat n).toNat = n := by
  rw [UInt8.toNat_ofNat', Nat.mod_eq_of_lt h]

section

variable {count lo hi bits n lead : Nat} {bytes : List UInt8}

theorem continuation_ofNat (hn : n < 64) (hlo : lo ≤ n + 128) (hhi : n + 128 ≤ hi) :
    continuation (count + 1) lo hi bits (UInt8.ofNat (n + 128) :: bytes) =
      continuation count 0x80 0xbf (bits * 64 + n) bytes := by
  have hbyte := toNat_ofNat (n := n + 128) (by omega)
  rw [continuation_cons (by omega) (by omega), hbyte, Nat.add_sub_cancel]

theorem decode_ofNat (hlead : lead < 256) (hfollowing : following lead = some (count, lo, hi)) :
    decode (UInt8.ofNat lead :: bytes) =
      (continuation count lo hi (leadBits count lead) bytes).1 ::
        decode (continuation count lo hi (leadBits count lead) bytes).2 := by
  have hbyte := toNat_ofNat hlead
  rw [← hbyte] at hfollowing
  have hcases := following_eq_some_iff.mp hfollowing
  rw [decode_lead (by omega) hfollowing, hbyte]

end

/-- What is decoded first is the first character, and the rest follows. -/
theorem decode_encode (c : Char) (bytes : List UInt8) :
    decode (String.utf8EncodeChar c ++ bytes) = some c :: decode bytes := by
  obtain ⟨n, hn, rfl⟩ : ∃ n : Nat, n.isValidChar ∧ c = Char.ofNat n :=
    ⟨c.toNat, c.valid, (Char.ofNat_toNat c).symm⟩
  have hn' : n < 0xd800 ∨ 0xdfff < n ∧ n < 0x110000 := hn
  rw [encode_ofNat hn]
  split_ifs with h₁ h₂ h₃ <;> simp only [List.cons_append, List.nil_append]
  · have hbyte := toNat_ofNat (n := n) (by omega)
    rw [decode_ascii (by omega), hbyte]
  · rw [decode_ofNat (by omega) (following_eq_some_iff.mpr (.inl ⟨by omega, by omega, rfl⟩)),
      continuation_ofNat (by omega) (by omega) (by omega), continuation]
    have hbits : leadBits 1 (n / 64 % 32 + 192) * 64 + n % 64 = n := by
      rw [leadBits_one]
      omega
    rw [hbits]
  · rw [decode_ofNat (by omega) (following_eq_some_iff.mpr (.inr (.inl ⟨by omega, by omega, rfl⟩))),
      continuation_ofNat (by omega) (by split <;> omega) (by split <;> omega),
      continuation_ofNat (by omega) (by omega) (by omega), continuation]
    have hbits : (leadBits 2 (n / 4096 % 16 + 224) * 64 + n / 64 % 64) * 64 + n % 64 = n := by
      rw [leadBits_two]
      omega
    rw [hbits]
  · rw [decode_ofNat (by omega) (following_eq_some_iff.mpr (.inr (.inr ⟨by omega, by omega, rfl⟩))),
      continuation_ofNat (by omega) (by split <;> omega) (by split <;> omega),
      continuation_ofNat (by omega) (by omega) (by omega),
      continuation_ofNat (by omega) (by omega) (by omega), continuation]
    have hbits :
        ((leadBits 3 (n / 262144 % 8 + 240) * 64 + n / 4096 % 64) * 64 + n / 64 % 64) * 64 +
        n % 64 = n := by
      rw [leadBits_three]
      omega
    rw [hbits]

theorem ofNat_eq {n : Nat} (byte : UInt8) (h : n = byte.toNat) : UInt8.ofNat n = byte := by
  rw [h, UInt8.ofNat_toNat]

section

variable {lead b₁ b₂ b₃ : UInt8}

theorem encode_two (hmin : 0xc2 ≤ lead.toNat) (hmax : lead.toNat ≤ 0xdf)
    (hlo₁ : 0x80 ≤ b₁.toNat) (hhi₁ : b₁.toNat ≤ 0xbf) :
    String.utf8EncodeChar (Char.ofNat (leadBits 1 lead.toNat * 64 + (b₁.toNat - 0x80))) =
      [lead, b₁] := by
  rw [leadBits_one, encode_ofNat (.inl (by omega)), if_neg (by omega), if_pos (by omega),
    ofNat_eq lead (by omega), ofNat_eq b₁ (by omega)]

theorem encode_three (hmin : 0xe0 ≤ lead.toNat) (hmax : lead.toNat ≤ 0xef)
    (hlo₁ : (if lead.toNat = 0xe0 then 0xa0 else 0x80) ≤ b₁.toNat)
    (hhi₁ : b₁.toNat ≤ if lead.toNat = 0xed then 0x9f else 0xbf)
    (hlo₂ : 0x80 ≤ b₂.toNat) (hhi₂ : b₂.toNat ≤ 0xbf) :
    String.utf8EncodeChar (Char.ofNat
      ((leadBits 2 lead.toNat * 64 + (b₁.toNat - 0x80)) * 64 + (b₂.toNat - 0x80))) =
        [lead, b₁, b₂] := by
  -- the range of the first byte leaves out numbers that are too small, and the surrogates
  have hsmall : lead.toNat = 0xe0 → 0xa0 ≤ b₁.toNat := fun h => by rwa [if_pos h] at hlo₁
  have hsurrogate : lead.toNat = 0xed → b₁.toNat ≤ 0x9f := fun h => by rwa [if_pos h] at hhi₁
  have htail : 0x80 ≤ b₁.toNat ∧ b₁.toNat ≤ 0xbf := by
    split at hlo₁ <;> split at hhi₁ <;> omega
  have hvalid :
      ((leadBits 2 lead.toNat * 64 + (b₁.toNat - 0x80)) * 64 + (b₂.toNat - 0x80)).isValidChar := by
    rw [leadBits_two]
    unfold Nat.isValidChar
    omega
  rw [encode_ofNat hvalid, leadBits_two, if_neg (by omega), if_neg (by omega), if_pos (by omega),
    ofNat_eq lead (by omega), ofNat_eq b₁ (by omega), ofNat_eq b₂ (by omega)]

theorem encode_four (hmin : 0xf0 ≤ lead.toNat) (hmax : lead.toNat ≤ 0xf4)
    (hlo₁ : (if lead.toNat = 0xf0 then 0x90 else 0x80) ≤ b₁.toNat)
    (hhi₁ : b₁.toNat ≤ if lead.toNat = 0xf4 then 0x8f else 0xbf)
    (hlo₂ : 0x80 ≤ b₂.toNat) (hhi₂ : b₂.toNat ≤ 0xbf) (hlo₃ : 0x80 ≤ b₃.toNat)
    (hhi₃ : b₃.toNat ≤ 0xbf) :
    String.utf8EncodeChar (Char.ofNat
      (((leadBits 3 lead.toNat * 64 + (b₁.toNat - 0x80)) * 64 + (b₂.toNat - 0x80)) * 64 +
        (b₃.toNat - 0x80))) = [lead, b₁, b₂, b₃] := by
  -- the range of the first byte leaves out numbers that are too small or too large
  have hsmall : lead.toNat = 0xf0 → 0x90 ≤ b₁.toNat := fun h => by rwa [if_pos h] at hlo₁
  have hlarge : lead.toNat = 0xf4 → b₁.toNat ≤ 0x8f := fun h => by rwa [if_pos h] at hhi₁
  have htail : 0x80 ≤ b₁.toNat ∧ b₁.toNat ≤ 0xbf := by
    split at hlo₁ <;> split at hhi₁ <;> omega
  have hvalid : (((leadBits 3 lead.toNat * 64 + (b₁.toNat - 0x80)) * 64 + (b₂.toNat - 0x80)) * 64 +
      (b₃.toNat - 0x80)).isValidChar := by
    rw [leadBits_three]
    unfold Nat.isValidChar
    omega
  rw [encode_ofNat hvalid, leadBits_three, if_neg (by omega), if_neg (by omega), if_neg (by omega),
    ofNat_eq lead (by omega), ofNat_eq b₁ (by omega), ofNat_eq b₂ (by omega),
    ofNat_eq b₃ (by omega)]

end

/-- A sequence that gives a character is its encoding. -/
theorem encode_of_continuation {byte : UInt8} {bytes rest : List UInt8}
    {count lo hi : Nat} {c : Char} (hfollowing : following byte.toNat = some (count, lo, hi))
    (h : continuation count lo hi (leadBits count byte.toNat) bytes = (some c, rest)) :
    byte :: bytes = String.utf8EncodeChar c ++ rest := by
  rcases following_eq_some_iff.mp hfollowing with ⟨hmin, hmax, heq⟩ | ⟨hmin, hmax, heq⟩ |
    ⟨hmin, hmax, heq⟩ <;>
    cases heq <;> obtain ⟨b₁, bytes, rfl, hlo₁, hhi₁, h⟩ := exists_of_continuation h
  · obtain ⟨hc, rfl⟩ := Prod.mk.inj h
    rw [← Option.some.inj hc, encode_two hmin hmax hlo₁ hhi₁]
    rfl
  · obtain ⟨b₂, bytes, rfl, hlo₂, hhi₂, h⟩ := exists_of_continuation h
    obtain ⟨hc, rfl⟩ := Prod.mk.inj h
    rw [← Option.some.inj hc, encode_three hmin hmax hlo₁ hhi₁ hlo₂ hhi₂]
    rfl
  · obtain ⟨b₂, bytes, rfl, hlo₂, hhi₂, h⟩ := exists_of_continuation h
    obtain ⟨b₃, bytes, rfl, hlo₃, hhi₃, h⟩ := exists_of_continuation h
    obtain ⟨hc, rfl⟩ := Prod.mk.inj h
    rw [← Option.some.inj hc, encode_four hmin hmax hlo₁ hhi₁ hlo₂ hhi₂ hlo₃ hhi₃]
    rfl

/-- A character that is decoded first comes from its encoding. -/
theorem exists_of_decode {byte : UInt8} {bytes : List UInt8} {c : Char} {more : List (Option Char)}
    (h : decode (byte :: bytes) = some c :: more) :
    ∃ rest, byte :: bytes = String.utf8EncodeChar c ++ rest ∧ more = decode rest := by
  by_cases hascii : byte.toNat < 0x80
  · rw [decode_ascii hascii] at h
    cases h
    refine ⟨bytes, ?_, rfl⟩
    rw [encode_ofNat (.inl (by omega)), if_pos (by omega), ofNat_eq byte rfl]
    rfl
  cases hfollowing : following byte.toNat with
  | none =>
      rw [decode, if_neg hascii] at h
      simp only [hfollowing] at h
      cases (List.cons.inj h).1
  | some r =>
      rw [decode_lead hascii hfollowing] at h
      obtain ⟨hc, rfl⟩ := List.cons.inj h
      exact ⟨_, encode_of_continuation hfollowing (Prod.ext hc rfl), rfl⟩

/-! ## Texts -/

theorem decode_nil : decode [] = [] := by rw [decode]

/-- Whatever is decoded to characters only comes from their encodings. -/
theorem decode_eq_map_some_iff {bytes : List UInt8} {cs : List Char} :
    decode bytes = cs.map some ↔ bytes = cs.flatMap String.utf8EncodeChar := by
  constructor
  · intro h
    induction cs generalizing bytes with
    | nil =>
        cases bytes with
        | nil => rfl
        | cons byte bytes =>
            have hlength := congrArg List.length h
            rw [decode] at hlength
            split at hlength
            · cases hlength
            · split at hlength <;> cases hlength
    | cons c cs ih =>
        cases bytes with
        | nil =>
            rw [decode_nil] at h
            cases h
        | cons byte bytes =>
            obtain ⟨rest, hbytes, hrest⟩ := exists_of_decode h
            rw [hbytes, List.flatMap_cons, ih hrest.symm]
  · rintro rfl
    induction cs with
    | nil => exact decode_nil
    | cons c cs ih => rw [List.flatMap_cons, decode_encode, ih, List.map_cons]

theorem mapM_id_eq_some_iff {α : Type} {l : List (Option α)} {as : List α} :
    l.mapM id = some as ↔ l = as.map some := by
  induction l generalizing as with
  | nil => cases as <;> simp
  | cons a l ih =>
      rw [List.mapM_cons]
      cases as with
      | nil => simp [Option.bind_eq_some_iff]
      | cons a' as =>
          rw [List.map_cons, List.cons.injEq, ← ih]
          simp [Option.bind_eq_some_iff]

/-- The strict reader accepts the encodings of texts, and gives the text. -/
theorem strict?_eq_some_iff {bytes : List UInt8} {cs : List Char} :
    strict? bytes = some cs ↔ bytes = cs.flatMap String.utf8EncodeChar := by
  rw [strict?, mapM_id_eq_some_iff, decode_eq_map_some_iff]

end Text.Utf8

namespace Disk.FileData

/-- Data that are the encoding of a text. -/
def Encodes (d : FileData) (cs : List Char) : Prop :=
  match d with
  | .text s => cs = s.toList
  | .bytes bs => bs = cs.flatMap String.utf8EncodeChar
  | .zeros n => cs = List.replicate n (Char.ofNat 0)

theorem validChars?_eq_some_iff {d : FileData} {cs : List Char} :
    d.validChars? = some cs ↔ d.Encodes cs := by
  cases d with
  | text s => simp [validChars?, chars, Encodes, eq_comm]
  | bytes bs => exact Text.Utf8.strict?_eq_some_iff
  | zeros n => simp [validChars?, chars, Encodes, eq_comm]

/-- What cannot be read as text is the encoding of none. -/
theorem readStrict?_eq_none_iff {d : FileData} : d.readStrict? = none ↔ ∀ cs, ¬ d.Encodes cs := by
  rw [readStrict?, Option.map_eq_none_iff, Option.eq_none_iff_forall_ne_some]
  exact forall_congr' fun cs => not_congr validChars?_eq_some_iff

end Disk.FileData

end FrontendAudit
