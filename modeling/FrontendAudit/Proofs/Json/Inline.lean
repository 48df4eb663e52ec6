import FrontendAudit.Proofs.Json.RoundTrip

/-!
# Values on one line

A value that is written on one line holds no line feed: in texts a line feed is escaped, and nothing
is put between the parts of lists and objects that would break the line (`newline_not_mem_compact`).
-/

namespace FrontendAudit.Json

theorem newline_not_mem_escaped (c : Char) : '\n' ∉ escaped c := by
  unfold escaped
  split
  · decide
  split
  · decide
  split
  · decide
  split
  · decide
  split
  · decide
  split
  · decide
  split
  · decide
  split
  · next hsmall =>
      have hdigits : ∀ n < 32, '\n' ∉ '\\' :: 'u' :: Text.hexDigits 4 n := by decide
      exact hdigits _ hsmall
  · next hne _ _ _ _ _ => exact fun h => hne (List.mem_singleton.mp h).symm

theorem newline_not_mem_textLiteral (s : List Char) : '\n' ∉ textLiteral s := by
  simp [textLiteral, newline_not_mem_escaped]

theorem newline_not_mem_intText (n : Int) : '\n' ∉ Number.intText n := by
  have hnat : ∀ n : Nat, '\n' ∉ Number.natText n := by
    intro n h
    cases isDigit_of_mem_natText h
  cases n with
  | ofNat n => exact hnat n
  | negSucc n => simp [Number.intText, hnat]

@[simp] theorem Layout.inline_opening (depth : Nat) : inline.opening depth = [] := rfl

@[simp] theorem Layout.inline_between (depth : Nat) : inline.between depth = [',', ' '] := rfl

@[simp] theorem Layout.inline_closing (depth : Nat) : inline.closing depth = [] := rfl

mutual

theorem newline_not_mem_print : ∀ v : Json, IsExact v → ∀ depth, '\n' ∉ print .inline depth v
  | .null, _, _ => by simp [print]
  | .bool b, _, _ => by cases b <;> simp [print]
  | .int n, _, _ => newline_not_mem_intText n
  | .float _, h, _ => h.elim
  | .str s, _, _ => newline_not_mem_textLiteral s.toList
  | .arr [], _, _ => by simp [print]
  | .arr (v :: vs), h, depth => by
      have hv := newline_not_mem_print v h.1 (depth + 1)
      have hvs := newline_not_mem_printItems vs h.2 depth
      simp [print, hv, hvs]
  | .obj [], _, _ => by simp [print]
  | .obj ((key, v) :: ms), h, depth => by
      have hv := newline_not_mem_print v h.2.1 (depth + 1)
      have hms := newline_not_mem_printMembers ms h.2.2 depth
      simp [print, printMember, newline_not_mem_textLiteral, hv, hms]

theorem newline_not_mem_printItems : ∀ vs : List Json, ItemsExact vs →
    ∀ depth, '\n' ∉ printItems .inline depth vs
  | [], _, _ => List.not_mem_nil
  | v :: vs, h, depth => by
      have hv := newline_not_mem_print v h.1 (depth + 1)
      have hvs := newline_not_mem_printItems vs h.2 depth
      simp [printItems, hv, hvs]

theorem newline_not_mem_printMembers : ∀ ms : List (String × Json), MembersExact ms →
    ∀ depth, '\n' ∉ printMembers .inline depth ms
  | [], _, _ => List.not_mem_nil
  | (key, v) :: ms, h, depth => by
      have hv := newline_not_mem_print v h.1 (depth + 1)
      have hms := newline_not_mem_printMembers ms h.2 depth
      simp [printMembers, printMember, newline_not_mem_textLiteral, hv, hms]

end

/-- What is written on one line is one line. -/
theorem newline_not_mem_compact {v : Json} (h : IsExact v) : '\n' ∉ v.compact.toList := by
  rw [compact, String.toList_ofList]
  exact newline_not_mem_print v h 0

end FrontendAudit.Json
