import FrontendAudit.Glob.Basic
import FrontendAudit.Proofs.Glob.Language

/-!
# Globs that close directories

A glob may cover a directory with a slash behind it and yet leave out what is below, as `build/*`
covers `build/` and not `build/sub/x.js`. A glob closes directories when this cannot happen: it ends
so that it never covers a slash at the end, or it ends in `**` or in `**/*` and goes on over
whatever follows the slash (`covers_below_of_closes`).
-/

namespace FrontendAudit.Glob

theorem segmentChars_has {c : Char} : segmentChars.has c = true ↔ c ≠ '/' := by
  simp [segmentChars, CharSet.has, CharKind.holds]

theorem lineChars_has {c : Char} : lineChars.has c = true ↔ c ≠ '\n' := by
  simp [lineChars, CharSet.has, CharKind.holds]

/-- What stands last stands in the last part, unless that is empty. -/
theorem eq_nil_or_mem_of_getLast? {a b : List Char} {c : Char}
    (h : (a ++ b).getLast? = some c) : b = [] ∨ c ∈ b := by
  rw [List.getLast?_append] at h
  cases hlast : b.getLast? with
  | none => exact .inl (List.getLast?_eq_none_iff.mp hlast)
  | some d =>
      rw [hlast] at h
      exact .inr (List.mem_of_getLast? (hlast.trans h))

/-- Whether the pieces at the end of a glob, the last one first, let no slash stand at the end. -/
def endsSealed : List Piece → Bool
  | [] => true
  | .one k :: _ => !k.has '/'
  | .run k :: pieces => !k.has '/' && endsSealed pieces
  | .directories :: _ => false

/-- Whether a glob that covers a directory with a slash behind it covers what is below. -/
def Closes (g : Glob) : Prop :=
  endsSealed g.reverse = true ∨ [.run lineChars] <:+ g ∨ [.directories, .run segmentChars] <:+ g

instance (g : Glob) : Decidable (Closes g) := inferInstanceAs (Decidable (_ ∨ _ ∨ _))

/-- A sealed glob describes no text with a slash at its end. -/
theorem getLast?_of_endsSealed {pieces : List Piece} {s : List Char}
    (hsealed : endsSealed pieces = true) (hs : Describes pieces.reverse s) :
    s.getLast? ≠ some '/' := by
  induction pieces generalizing s with
  | nil =>
      obtain rfl : s = [] := hs
      intro hslash
      cases hslash
  | cons piece pieces ih =>
      rw [List.reverse_cons] at hs
      obtain ⟨a, b, rfl, ha, hb⟩ := describes_append.mp hs
      cases piece with
      | one k =>
          obtain ⟨c, rest, rfl, hc, rfl⟩ := hb
          have hk : k.has '/' = false := by simpa [endsSealed] using hsealed
          rw [List.getLast?_concat]
          intro hslash
          rw [Option.some.inj hslash, hk] at hc
          cases hc
      | run k =>
          obtain ⟨run, rest, rfl, hrun, rfl⟩ := hb
          obtain ⟨hk, hpieces⟩ : k.has '/' = false ∧ endsSealed pieces = true := by
            simpa [endsSealed] using hsealed
          rw [List.append_nil]
          intro hslash
          rcases eq_nil_or_mem_of_getLast? hslash with rfl | hmem
          · rw [List.append_nil] at hslash
            exact ih hpieces ha hslash
          · rw [hrun '/' hmem] at hk
            cases hk
      | directories => cases hsealed

/-- A text that stands behind a slash: directories, then a last segment. -/
def IsBelow (s : List Char) : Prop :=
  ∃ directories last, s = directories ++ last ∧ DirectoryText directories ∧ '/' ∉ last

/-- A glob that closes directories and covers one with a slash behind it covers what is below it. -/
theorem covers_below_of_closes {g : Glob} {directory below : List Char} (hg : Closes g)
    (hdirectory : covers g (directory ++ ['/']) = true) (hbelow : IsBelow below)
    (hline : '\n' ∉ below) : covers g (directory ++ '/' :: below) = true := by
  have hdescribes : Describes g (directory ++ ['/']) := by
    obtain ⟨a, ha, rfl | heq⟩ := covers_iff.mp hdirectory
    · exact ha
    · -- a slash at the end is no line feed
      have hlast := congrArg List.getLast? heq
      rw [List.getLast?_concat, List.getLast?_concat] at hlast
      exact absurd (Option.some.inj hlast) (by decide)
  refine covers_iff.mpr ⟨directory ++ '/' :: below, ?_, .inl rfl⟩
  have hsplit : directory ++ '/' :: below = (directory ++ ['/']) ++ below := by simp
  rw [hsplit]
  rcases hg with hsealed | ⟨h, rfl⟩ | ⟨h, rfl⟩
  · have hend := getLast?_of_endsSealed hsealed (by rwa [List.reverse_reverse])
    exact absurd List.getLast?_concat hend
  · obtain ⟨a, b, heq, ha, run, rest, rfl, hrun, rfl⟩ := describes_append.mp hdescribes
    refine describes_append.mpr ⟨a, run ++ below, ?_, ha, run ++ below, [], ?_, ?_, rfl⟩
    · rw [heq]
      simp
    · rw [List.append_nil]
    · intro c hc
      rcases List.mem_append.mp hc with hc | hc
      · exact hrun c hc
      · refine lineChars_has.mpr ?_
        rintro rfl
        exact hline hc
  · obtain ⟨a, b, heq, ha, dirs, rest, rfl, hdirs, run, rest', rfl, hrun, rfl⟩ :=
      describes_append.mp hdescribes
    -- the slash at the end belongs to the directories, so that the last run is empty
    obtain rfl : run = [] := by
      have hlast := congrArg List.getLast? heq
      rw [List.append_nil, ← List.append_assoc, List.getLast?_concat] at hlast
      rcases eq_nil_or_mem_of_getLast? hlast.symm with hnil | hmem
      · exact hnil
      · exact absurd rfl (segmentChars_has.mp (hrun '/' hmem))
    obtain ⟨directories, last, rfl, hdirectories, hlast⟩ := hbelow
    refine describes_append.mpr ⟨a, dirs ++ directories ++ last, ?_, ha, dirs ++ directories, last,
      rfl, hdirs.append hdirectories, last, [], ?_, ?_, rfl⟩
    · rw [heq]
      simp
    · rw [List.append_nil]
    · intro c hc
      refine segmentChars_has.mpr ?_
      rintro rfl
      exact hlast hc

end FrontendAudit.Glob
