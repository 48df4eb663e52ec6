import FrontendAudit.Proofs.Glob.Closing
import FrontendAudit.Proofs.Glob.Sets

/-!
# Globs as they are written

A glob without sets is read from the left, each wildcard taken as long as it can be (`wildcards`).
Each wildcard stands for some texts, a plain character for itself, and a path belongs to the glob
when it falls into such texts one behind the other (`InLanguage`). Reading the glob always succeeds,
and what comes of it matches a path without line feeds exactly when the path belongs to the glob
(`covers_iff_inLanguage`).
-/

namespace FrontendAudit.Glob

/-- A part of a glob without sets. -/
inductive Wildcard where
  | directories
  | anything
  | run
  | single
  | char (c : Char)
  deriving DecidableEq, Repr

/-- The parts of a glob without sets, from the left. -/
def wildcards : List Char → List Wildcard
  | [] => []
  | '*' :: '*' :: '/' :: s => .directories :: wildcards s
  | '*' :: '*' :: s => .anything :: wildcards s
  | '*' :: s => .run :: wildcards s
  | '?' :: s => .single :: wildcards s
  | c :: s => .char c :: wildcards s

/-- A glob without the mark for the directory itself in front. -/
def withoutHere : List Char → List Char
  | '.' :: '/' :: s => s
  | s => s

namespace Wildcard

/-- The texts that a part of a glob stands for. -/
def Stands : Wildcard → List Char → Prop
  | directories, s => DirectoryText s
  | anything, _ => True
  | run, s => '/' ∉ s
  | single, s => ∃ c, s = [c] ∧ c ≠ '/'
  | char c, s => s = [c]

/-- A part of a glob as a token. -/
def token : Wildcard → Token
  | directories => .directories
  | anything => .anything
  | run => .run
  | single => .single
  | char c => .literal c

/-- A part of a glob as it matches. -/
def piece : Wildcard → Piece
  | directories => .directories
  | anything => .run lineChars
  | run => .run segmentChars
  | single => .one segmentChars
  | char c => .one ⟨false, [.one c]⟩

end Wildcard

/-- A path belongs to a glob when it consists of texts that the parts of the glob stand for. -/
def InLanguage (glob path : List Char) : Prop :=
  ∃ texts, List.Forall₂ Wildcard.Stands (wildcards (withoutHere glob)) texts ∧ path = texts.flatten

/-! ## Reading -/

/-- Without an opening bracket the tokens of a text are its wildcards. -/
theorem tokensFrom_eq_wildcards {s : List Char} (h : '[' ∉ s) :
    tokensFrom 0 s = (wildcards s).map Wildcard.token := by
  induction s using wildcards.induct with
  | case1 => rfl
  | case2 s ih =>
      simp only [List.mem_cons, not_or] at h
      exact congrArg (Token.directories :: ·) (ih h.2.2.2)
  | case3 s hslash ih =>
      simp only [List.mem_cons, not_or] at h
      have hleading : leading '*' ('*' :: s) = (.anything, 1) := by simp [leading]
      rw [wildcards, tokensFrom, hleading]
      · exact congrArg (Token.anything :: ·) (ih h.2.2)
      · exact hslash
  | case4 s hlong hstar ih =>
      rw [List.mem_cons, not_or] at h
      have hleading : leading '*' s = (.run, 0) := by simp [leading]
      rw [wildcards, tokensFrom, hleading]
      · exact congrArg (Token.run :: ·) (ih h.2)
      · exact hlong
      · exact hstar
  | case5 s ih =>
      rw [List.mem_cons, not_or] at h
      exact congrArg (Token.single :: ·) (ih h.2)
  | case6 c s hlong hstars hstar hsingle ih =>
      rw [List.mem_cons, not_or] at h
      have hleading : leading c s = (.literal c, 0) := by
        unfold leading
        rw [if_neg hstar, if_neg hsingle, if_neg (Ne.symm h.1)]
      rw [wildcards, tokensFrom, hleading]
      · exact congrArg (Token.literal c :: ·) (ih h.2)
      · exact hlong
      · exact hstars
      · exact hstar
      · exact hsingle

theorem tokens_eq_wildcards {s : List Char} (h : '[' ∉ s) :
    tokens s = (wildcards (withoutHere s)).map Wildcard.token := by
  have hrest : '[' ∉ withoutHere s := by
    unfold withoutHere
    split
    · simp only [List.mem_cons, not_or] at h
      exact h.2.2
    · exact h
  have htokens : tokens s = tokensFrom 0 (withoutHere s) := by
    unfold tokens
    split
    · rfl
    · next hother => rw [withoutHere]; exact hother
  rw [htokens, tokensFrom_eq_wildcards hrest]

/-- What a glob without sets matches is read part by part. -/
theorem piecesFrom_map_token (parts : List Wildcard) :
    piecesFrom none (parts.map Wildcard.token) = .ok (parts.map Wildcard.piece) := by
  induction parts with
  | nil => rfl
  | cons part parts ih =>
      cases part <;>
        simp only [List.map_cons, Wildcard.token, Wildcard.piece, piecesFrom, ih, Except.map]

/-! ## Matching -/

/-- A piece matches, in front of other pieces, the texts that its part of the glob stands for. -/
theorem describes_piece_cons {part : Wildcard} {g : Glob} {s : List Char} (hline : '\n' ∉ s) :
    Describes (part.piece :: g) s ↔ ∃ a b, s = a ++ b ∧ part.Stands a ∧ Describes g b := by
  cases part with
  | directories => rfl
  | anything =>
      refine exists_congr fun a => exists_congr fun b => and_congr_right fun hs =>
        and_congr_left' ?_
      refine iff_of_true (fun c hc => lineChars_has.mpr ?_) trivial
      rintro rfl
      exact hline (by rw [hs]; exact List.mem_append_left b hc)
  | run =>
      refine exists_congr fun a => exists_congr fun b => and_congr_right fun _ => and_congr_left' ?_
      simp only [segmentChars_has, Wildcard.Stands]
      exact ⟨fun h hslash => h '/' hslash rfl, fun h c hc hslash => h (hslash ▸ hc)⟩
  | single =>
      constructor
      · rintro ⟨c, rest, rfl, hc, hrest⟩
        exact ⟨[c], rest, rfl, ⟨c, rfl, segmentChars_has.mp hc⟩, hrest⟩
      · rintro ⟨a, rest, rfl, ⟨c, rfl, hc⟩, hrest⟩
        exact ⟨c, rest, rfl, segmentChars_has.mpr hc, hrest⟩
  | char d =>
      have hhas : ∀ c, CharSet.has ⟨false, [.one d]⟩ c = true ↔ c = d := by
        intro c
        simp [CharSet.has, CharKind.holds]
      constructor
      · rintro ⟨c, rest, rfl, hc, hrest⟩
        exact ⟨[c], rest, rfl, congrArg (fun c => [c]) ((hhas c).mp hc), hrest⟩
      · rintro ⟨a, rest, rfl, rfl, hrest⟩
        exact ⟨d, rest, rfl, (hhas d).mpr rfl, hrest⟩

theorem describes_map_piece_iff {parts : List Wildcard} {s : List Char} (hline : '\n' ∉ s) :
    Describes (parts.map Wildcard.piece) s ↔
      ∃ texts, List.Forall₂ Wildcard.Stands parts texts ∧ s = texts.flatten := by
  induction parts generalizing s with
  | nil =>
      constructor
      · rintro rfl
        exact ⟨[], .nil, rfl⟩
      · rintro ⟨texts, htexts, rfl⟩
        cases htexts
        rfl
  | cons part parts ih =>
      rw [List.map_cons, describes_piece_cons hline]
      constructor
      · rintro ⟨a, b, rfl, ha, hb⟩
        obtain ⟨texts, htexts, rfl⟩ := (ih fun h => hline (List.mem_append_right a h)).mp hb
        exact ⟨a :: texts, .cons ha htexts, rfl⟩
      · rintro ⟨texts, htexts, rfl⟩
        cases htexts with
        | @cons _ a _ texts ha htexts =>
            refine ⟨a, texts.flatten, rfl, ha, (ih fun h => hline ?_).mpr ⟨texts, htexts, rfl⟩⟩
            exact List.mem_append_right a h

/-- A glob without opening brackets can always be read, and matches a path without line feeds
exactly when the path belongs to its language. -/
theorem covers_iff_inLanguage {glob : List Char} (hglob : '[' ∉ glob) :
    ∃ g, parse glob = .ok g ∧
      ∀ path, '\n' ∉ path → (covers g path = true ↔ InLanguage glob path) := by
  refine ⟨(wildcards (withoutHere glob)).map Wildcard.piece, ?_, fun path hline => ?_⟩
  · rw [parse, tokens_eq_wildcards hglob, piecesFrom_map_token]
  · rw [covers_iff, InLanguage, ← describes_map_piece_iff hline]
    constructor
    · rintro ⟨a, ha, rfl | rfl⟩
      · exact ha
      · -- a line feed at the end would be one of the path
        exact absurd (List.mem_append_right a List.mem_cons_self) hline
    · intro h
      exact ⟨path, h, .inl rfl⟩

/-- Directories in the middle of a segment, three stars, and characters that mean nothing else than
themselves. -/
theorem covers_iff_inLanguage_stars :
    InLanguage "./a**/***/b?.(js+)".toList "ax/y/z/b1.(js+)".toList ∧
      ¬ InLanguage "./a**/***/b?.(js+)".toList "a/x//b1.(js+".toList := by
  have hplain : '[' ∉ "./a**/***/b?.(js+)".toList := by decide
  obtain ⟨g, hparse, hcovers⟩ := covers_iff_inLanguage hplain
  obtain rfl : _ = g := Except.ok.inj hparse
  constructor
  · exact (hcovers _ (by decide)).mp (by decide +kernel)
  · rw [← hcovers _ (by decide)]
    decide +kernel

end FrontendAudit.Glob
