/-!
# Lines

Splitting at one character and joining again are inverse (`joinWith_splitOn`). Source text is split
at line feeds only, so that line numbers are those an editor shows; text files are read with every
line end turned into a line feed (`normalizeNewlines`); reports of tools and ignore files are split
at every kind of line break (`breakLines`).
-/

namespace FrontendAudit.Text

/-- Puts a character in front of the first piece. -/
def consFirst (c : Char) : List (List Char) → List (List Char)
  | [] => [[c]]
  | piece :: pieces => (c :: piece) :: pieces

/-- The pieces between the occurrences of `sep`; always at least one. -/
def splitOn (sep : Char) (s : List Char) : List (List Char) :=
  s.foldr (fun c pieces => if c = sep then [] :: pieces else consFirst c pieces) [[]]

/-- The pieces with `sep` between neighbours. -/
def joinWith (sep : List Char) : List (List Char) → List Char
  | [] => []
  | [piece] => piece
  | piece :: pieces => piece ++ sep ++ joinWith sep pieces

theorem splitOn_nil (sep : Char) : splitOn sep [] = [[]] := rfl

theorem splitOn_cons (sep c : Char) (s : List Char) :
    splitOn sep (c :: s) =
      if c = sep then [] :: splitOn sep s else consFirst c (splitOn sep s) := rfl

theorem splitOn_ne_nil (sep : Char) (s : List Char) : splitOn sep s ≠ [] := by
  cases s with
  | nil => simp [splitOn_nil]
  | cons c s =>
    rw [splitOn_cons]
    split
    · simp
    · cases splitOn sep s <;> simp [consFirst]

theorem joinWith_cons {sep piece : List Char} {pieces : List (List Char)} (h : pieces ≠ []) :
    joinWith sep (piece :: pieces) = piece ++ sep ++ joinWith sep pieces := by
  cases pieces with
  | nil => exact absurd rfl h
  | cons _ _ => rfl

theorem joinWith_consFirst {sep : List Char} {c : Char} {pieces : List (List Char)}
    (h : pieces ≠ []) :
    joinWith sep (consFirst c pieces) = c :: joinWith sep pieces := by
  match pieces with
  | [] => exact absurd rfl h
  | [_] => rfl
  | _ :: _ :: _ => rfl

/-- Joining what was split gives the text back. -/
theorem joinWith_splitOn (sep : Char) (s : List Char) : joinWith [sep] (splitOn sep s) = s := by
  induction s with
  | nil => rfl
  | cons c s ih =>
    rw [splitOn_cons]
    split
    · next h => rw [joinWith_cons (splitOn_ne_nil sep s), ih, h]; rfl
    · rw [joinWith_consFirst (splitOn_ne_nil sep s), ih]

/-- No piece holds the separator. -/
theorem not_mem_of_mem_splitOn {sep : Char} {s piece : List Char} (h : piece ∈ splitOn sep s) :
    sep ∉ piece := by
  induction s generalizing piece with
  | nil => simp [splitOn_nil] at h; simp [h]
  | cons c s ih =>
    rw [splitOn_cons] at h
    split at h
    · rcases List.mem_cons.1 h with rfl | h
      · simp
      · exact ih h
    · next hc =>
      cases hs : splitOn sep s with
      | nil => exact absurd hs (splitOn_ne_nil sep s)
      | cons first others =>
        rw [hs] at h
        rcases List.mem_cons.1 h with rfl | h
        · have := @ih first (by simp [hs])
          simp [this, Ne.symm hc]
        · exact ih (by simp [hs, h])

/-! ## Line ends of files -/

/-- Each character with the one before it. -/
def withPrevious (s : List Char) : List (Option Char × Char) :=
  (none :: s.map some).zip s

/-- Turns a carriage return, alone or with the line feed after it, into one line feed. -/
def normalizeNewlines (s : List Char) : List Char :=
  (withPrevious s).filterMap fun (before, c) =>
    if c = '\n' ∧ before = some '\r' then none else some (if c = '\r' then '\n' else c)

/-- The characters that end a line in the widest sense. -/
def isLineBreak (c : Char) : Bool :=
  let n := c.toNat
  (10 ≤ n && n ≤ 13) || (28 ≤ n && n ≤ 30) || n = 0x85 || n = 0x2028 || n = 0x2029

/-- The lines of a text, where any line break ends a line and a last empty line does not count. -/
def breakLines (s : List Char) : List (List Char) :=
  let unified := (withPrevious s).filterMap fun (before, c) =>
    if c = '\n' ∧ before = some '\r' then none else some (if isLineBreak c then '\n' else c)
  let lines := splitOn '\n' unified
  if lines.getLast? = some [] then lines.dropLast else lines

/-! ## Source lines -/

/-- A source line without the carriage returns at its end. -/
def trimReturns (line : List Char) : List Char :=
  line.reverse.dropWhile (· = '\r') |>.reverse

/-- The lines of a source text: split at line feeds only, carriage returns at their ends removed. -/
def sourceLines (content : List Char) : List (List Char) :=
  (splitOn '\n' content).map trimReturns

end FrontendAudit.Text
