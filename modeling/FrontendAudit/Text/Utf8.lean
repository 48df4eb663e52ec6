/-!
# Reading UTF-8

`decode` cuts a sequence of bytes into characters and maximal invalid parts: a lead byte with as
many continuation bytes as still could belong to it is one part. A strict reader fails on an
invalid part, a tolerant one drops it, a replacing one shows U+FFFD in its place.
-/

namespace FrontendAudit.Text.Utf8

/-- For the lead byte of a sequence of several bytes: how many bytes follow, and the range that
the first of them must lie in. -/
def following (lead : Nat) : Option (Nat × Nat × Nat) :=
  if 0xc2 ≤ lead && lead ≤ 0xdf then some (1, 0x80, 0xbf)
  else if lead = 0xe0 then some (2, 0xa0, 0xbf)
  else if lead = 0xed then some (2, 0x80, 0x9f)
  else if 0xe1 ≤ lead && lead ≤ 0xef then some (2, 0x80, 0xbf)
  else if lead = 0xf0 then some (3, 0x90, 0xbf)
  else if 0xf1 ≤ lead && lead ≤ 0xf3 then some (3, 0x80, 0xbf)
  else if lead = 0xf4 then some (3, 0x80, 0x8f)
  else none

/-- Reads up to `count` continuation bytes, the first of them in the given range, onto the bits
read so far. Gives the character, or nothing if a byte does not fit, and the bytes that follow. -/
def continuation : Nat → Nat → Nat → Nat → List UInt8 → Option Char × List UInt8
  | 0, _, _, bits, bytes => (some (Char.ofNat bits), bytes)
  | _ + 1, _, _, _, [] => (none, [])
  | count + 1, lo, hi, bits, byte :: bytes =>
    if lo ≤ byte.toNat && byte.toNat ≤ hi then
      continuation count 0x80 0xbf (bits * 64 + (byte.toNat - 0x80)) bytes
    else (none, byte :: bytes)

theorem length_continuation_le (count lo hi bits : Nat) (bytes : List UInt8) :
    (continuation count lo hi bits bytes).2.length ≤ bytes.length := by
  induction count generalizing lo hi bits bytes with
  | zero => simp [continuation]
  | succ n ih =>
    cases bytes with
    | nil => simp [continuation]
    | cons b bs =>
      simp only [continuation]
      split
      · exact Nat.le_succ_of_le (ih ..)
      · simp

/-- The payload bits of a lead byte that `count` bytes follow. -/
def leadBits (count lead : Nat) : Nat :=
  lead % (if count = 1 then 32 else if count = 2 then 16 else 8)

/-- The characters of a sequence of bytes, with `none` for each maximal invalid part. -/
def decode : List UInt8 → List (Option Char)
  | [] => []
  | byte :: bytes =>
    if byte.toNat < 0x80 then some (Char.ofNat byte.toNat) :: decode bytes
    else match following byte.toNat with
      | none => none :: decode bytes
      | some (count, lo, hi) =>
        let r := continuation count lo hi (leadBits count byte.toNat) bytes
        r.1 :: decode r.2
termination_by bytes => bytes.length
decreasing_by
  · exact Nat.lt_succ_self _
  · exact Nat.lt_succ_self _
  · exact Nat.lt_succ_of_le (length_continuation_le ..)

/-- All characters, if no part is invalid. -/
def strict? (bytes : List UInt8) : Option (List Char) :=
  (decode bytes).mapM id

/-- The characters, invalid parts dropped. -/
def tolerant (bytes : List UInt8) : List Char :=
  (decode bytes).filterMap id

/-- The characters, with U+FFFD for each invalid part. -/
def replacing (bytes : List UInt8) : List Char :=
  (decode bytes).map (·.getD '\uFFFD')

end FrontendAudit.Text.Utf8
