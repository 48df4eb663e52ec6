import FrontendAudit.Proofs.Rule.Performance.Scan

/-!
# Where asynchronous code goes on

A region of asynchronous code goes on while more braces are open than at its beginning, and ends
when an opening brace was seen and no more are. Read line by line, a region under way stands for the
line above at which it started (`Tracks`), so the lines that are found are those from a start to the
first line that closes it, where a start within a region starts none
(`mem_asyncLines_iff_inRegion`).

So a body that opens on the line below its header is within the region, provided that the header
itself has no braces: braces of a parameter that are closed again end the region on the line of the
header (`body_covered_iff`). What blocks is reported on the lines within regions and on no others
(`mem_scan_blockingAt_iff`).
-/

namespace FrontendAudit.Performance

open Pattern

variable {path : String} {content : List Char} {found : List Finding} {header first : List Char}
  {body rest lines : List (List Char)}

/-! ## Braces -/

/-- How many more braces open than close in some lines. -/
def netBraces (lines : List (List Char)) : Int :=
  (lines.map fun line => (line.count '\x7b' : Int) - (line.count '\x7d' : Int)).sum

@[simp] theorem netBraces_nil : netBraces [] = 0 := rfl

@[simp] theorem netBraces_cons (line : List Char) (lines : List (List Char)) :
    netBraces (line :: lines) =
      (line.count '\x7b' : Int) - (line.count '\x7d' : Int) + netBraces lines := rfl

/-- A header at which asynchronous code starts and whose braces balance, above a body that opens
with a brace and is not closed before the end of its last line. -/
structure BodyBelow (header : List Char) (body : List (List Char)) : Prop where
  starts : asyncStart.occursIn header = true
  balanced : header.count '\x7b' = header.count '\x7d'
  opens : ∃ first ∈ body.head?, (Text.strip first).head? = some '\x7b'
  goesOn : ∀ k, 0 < k → k < body.length → 0 < netBraces (body.take k)

/-! ## Regions under way -/

namespace Region

/-- The region after some more lines. -/
def extendAll (r : Region) (lines : List (List Char)) : Region := lines.foldl extend r

@[simp] theorem depth_extendAll (r : Region) (lines : List (List Char)) :
    (r.extendAll lines).depth = r.depth + netBraces lines := by
  induction lines generalizing r with
  | nil => exact (Int.add_zero _).symm
  | cons line lines ih =>
      have hstep : (r.extendAll (line :: lines)).depth =
          r.depth + (line.count '\x7b' : Int) - (line.count '\x7d' : Int) + netBraces lines := ih _
      rw [hstep, netBraces_cons]
      omega

theorem extendAll_append (r : Region) (lines more : List (List Char)) :
    r.extendAll (lines ++ more) = (r.extendAll lines).extendAll more := List.foldl_append

theorem opened_extendAll_iff {r : Region} :
    (r.extendAll lines).opened = true ↔ r.opened = true ∨ ∃ line ∈ lines, '\x7b' ∈ line := by
  induction lines generalizing r with
  | nil => simp [extendAll]
  | cons line lines ih =>
      have hstep :
          (r.extendAll (line :: lines)).opened = ((r.extend line).extendAll lines).opened := rfl
      rw [hstep, ih, List.exists_mem_cons_iff, ← or_assoc]
      simp [extend]

theorem closed_extend_eq_false {r : Region} {line : List Char}
    (h : 0 < r.depth + netBraces [line]) :
    (r.extend line).closed = false := by
  have hdepth : ¬(r.extend line).depth ≤ 0 := by
    simp only [extend]
    simp only [netBraces_cons, netBraces_nil] at h
    omega
  simp [closed, hdepth]

/-- What is left of the region after some lines. -/
def after (r : Region) (lines : List (List Char)) : Option Region :=
  if (r.extendAll lines).closed then none else some (r.extendAll lines)

end Region

/-- A line at which asynchronous code starts is the first one of a region. -/
theorem regionIndexes_of_start (h : asyncStart.occursIn header = true) (index : Nat)
    (lines : List (List Char)) :
    regionIndexes none index (header :: lines) =
      regionIndexes (some {}) index (header :: lines) := by
  simp [regionIndexes, h]

/-- A region takes in line after line as long as more braces are open than at its beginning, and the
line after which there are no more is the last one. -/
theorem regionIndexes_body {r : Region} {first : List Char} {body : List (List Char)}
    (hopen : ∀ k, 0 < k → k < body.length + 1 → 0 < r.depth + netBraces ((first :: body).take k))
    (index : Nat) (rest : List (List Char)) :
    regionIndexes (some r) index (first :: body ++ rest) =
      List.range' index (body.length + 1) ++
        regionIndexes (r.after (first :: body)) (index + (body.length + 1)) rest := by
  induction body generalizing r first index with
  | nil => rfl
  | cons second body ih =>
      have hgoesOn : (r.extend first).closed = false :=
        Region.closed_extend_eq_false (hopen 1 Nat.one_pos (Nat.succ_lt_succ (Nat.succ_pos _)))
      have hinside : ∀ k, 0 < k → k < body.length + 1 →
          0 < (r.extend first).depth + netBraces ((second :: body).take k) := by
        intro k hk hlt
        have hdepth := hopen (k + 1) (Nat.succ_pos k) (Nat.succ_lt_succ hlt)
        rw [List.take_succ_cons, netBraces_cons] at hdepth
        show 0 < r.depth + (first.count '\x7b' : Int) - (first.count '\x7d' : Int) + _
        omega
      have hindex : index + (body.length + 1 + 1) = index + 1 + (body.length + 1) := by omega
      show index ::
          regionIndexes (if (r.extend first).closed then none else some (r.extend first))
            (index + 1) (second :: body ++ rest) = _
      rw [hgoesOn, if_neg Bool.false_ne_true, ih hinside (index + 1), List.length_cons, hindex]
      rfl

/-- The region that starts at a header whose braces balance goes on below it only if it has none. -/
theorem asyncLines_header (hstarts : asyncStart.occursIn header = true)
    (hbalanced : header.count '\x7b' = header.count '\x7d') (lines : List (List Char)) :
    asyncLines (header :: lines) =
      0 :: regionIndexes (if '\x7b' ∈ header then none else some {}) 1 lines := by
  have hdepth : (({} : Region).extend header).depth = 0 := by
    simp [Region.extend, hbalanced]
  rw [asyncLines, regionIndexes_of_start hstarts, regionIndexes]
  by_cases hbrace : '\x7b' ∈ header
  · have hclosed : (({} : Region).extend header).closed = true := by
      rw [Region.closed, hdepth]
      simp [Region.extend, hbrace]
    rw [if_pos hbrace, hclosed, if_pos rfl]
  · have hregion : ({} : Region).extend header = {} := by
      simp [Region.extend, hbrace, ← hbalanced]
    rw [if_neg hbrace, hregion]
    rfl

theorem le_of_mem_regionIndexes {current : Option Region} {index i : Nat} {lines : List (List Char)}
    (h : i ∈ regionIndexes current index lines) : index ≤ i := by
  rw [← Nat.add_zero index, regionIndexes_shift] at h
  obtain ⟨j, -, rfl⟩ := List.mem_map.mp h
  exact Nat.le_add_right index j

/-- Outside a region the lines of a text are looked through as if it began there. -/
theorem regionIndexes_none (index : Nat) (lines : List (List Char)) :
    regionIndexes none index lines = (asyncLines lines).map (index + ·) :=
  regionIndexes_shift none index 0 lines

/-! ## Where regions lie -/

section

variable {current : Option Region} {i j k bound index : Nat}

/-- The lines from one index up to another, which is left out. -/
def between (lines : List (List Char)) (i j : Nat) : List (List Char) := (lines.drop i).take (j - i)

/-- Line `j` closes what starts at line `i`: there is an opening brace somewhere on the lines from
`i` to `j`, and no more braces are opened on them than closed. -/
def Closes (lines : List (List Char)) (i j : Nat) : Prop :=
  (∃ line ∈ between lines i (j + 1), '\x7b' ∈ line) ∧ netBraces (between lines i (j + 1)) ≤ 0

/-- What starts at line `i` goes on up to line `k`: it is closed by none of the lines from `i` on
before `k`. -/
def GoesOnTo (lines : List (List Char)) (i k : Nat) : Prop :=
  i ≤ k ∧ ∀ j, i ≤ j → j < k → ¬Closes lines i j

/-- A region starts at line `i`: asynchronous code starts there, and no region that starts further
up goes on up to there. -/
def StartsRegion (lines : List (List Char)) (i : Nat) : Prop :=
  (∃ line, lines[i]? = some line ∧ asyncStart.occursIn line = true) ∧
    ∀ h, h < i → StartsRegion lines h → ¬GoesOnTo lines h i
termination_by i

theorem startsRegion_iff : StartsRegion lines i ↔
    (∃ line, lines[i]? = some line ∧ asyncStart.occursIn line = true) ∧
      ∀ h < i, StartsRegion lines h → ¬GoesOnTo lines h i := by
  rw [StartsRegion]

/-- Line `k` lies in the region that starts at line `i`. -/
structure InRegion (lines : List (List Char)) (i k : Nat) : Prop where
  starts : StartsRegion lines i
  goesOn : GoesOnTo lines i k

theorem between_self (lines : List (List Char)) (i : Nat) : between lines i i = [] := by
  rw [between, Nat.sub_self, List.take_zero]

theorem between_succ {line : List Char} (hle : i ≤ j) (hline : lines[j]? = some line) :
    between lines i (j + 1) = between lines i j ++ [line] := by
  have hat : (lines.drop i)[j - i]? = some line := by
    rw [List.getElem?_drop, Nat.add_sub_cancel' hle, hline]
  rw [between, Nat.succ_sub hle, Nat.succ_eq_add_one, List.take_add_one, hat]
  rfl

theorem GoesOnTo.mono (h : GoesOnTo lines i k) (hle : i ≤ j) (hjk : j ≤ k) : GoesOnTo lines i j :=
  ⟨hle, fun l hil hlj => h.2 l hil (Nat.lt_of_lt_of_le hlj hjk)⟩

theorem goesOnTo_self (lines : List (List Char)) (i : Nat) : GoesOnTo lines i i :=
  ⟨Nat.le_refl i, fun _ hij hji => absurd hji (Nat.not_lt.mpr hij)⟩

theorem goesOnTo_succ_iff (hle : i ≤ k) :
    GoesOnTo lines i (k + 1) ↔ GoesOnTo lines i k ∧ ¬Closes lines i k := by
  constructor
  · exact fun h => ⟨h.mono hle (Nat.le_succ k), h.2 k hle (Nat.lt_succ_self k)⟩
  · rintro ⟨h, hopen⟩
    refine ⟨Nat.le_succ_of_le hle, fun j hij hjk => ?_⟩
    rcases Nat.lt_succ_iff_lt_or_eq.mp hjk with hlt | rfl
    · exact h.2 j hij hlt
    · exact hopen

/-- A region is closed by the line at which it ends. -/
theorem Region.closed_extendAll_iff :
    (({} : Region).extendAll (between lines i (j + 1))).closed = true ↔ Closes lines i j := by
  rw [Region.closed, Bool.and_eq_true, Region.opened_extendAll_iff, Region.depth_extendAll,
    decide_eq_true_eq, Int.zero_add, Closes]
  simp

/-- No line lies in two regions. -/
theorem InRegion.unique (hi : InRegion lines i k) (hj : InRegion lines j k) : i = j := by
  have hlt : ∀ {i j}, InRegion lines i k → InRegion lines j k → ¬i < j := fun hi hj hlt =>
    (startsRegion_iff.mp hj.starts).2 _ hlt hi.starts
      (hi.goesOn.mono (Nat.le_of_lt hlt) hj.goesOn.1)
  exact Nat.le_antisymm (Nat.le_of_not_lt (hlt hj hi)) (Nat.le_of_not_lt (hlt hi hj))

/-! ## Line by line -/

/-- What is under way on a line: the region under way before it, or else one that starts there. -/
def underWay (current : Option Region) (line : List Char) : Option Region :=
  current.or (if asyncStart.occursIn line then some {} else none)

theorem regionIndexes_cons (current : Option Region) (index : Nat) (line : List Char)
    (lines : List (List Char)) :
    regionIndexes current index (line :: lines) =
      (if (underWay current line).isSome then [index] else []) ++
        regionIndexes ((underWay current line).bind (·.after [line])) (index + 1) lines := by
  cases current with
  | some r => rfl
  | none =>
      rw [regionIndexes, underWay]
      dsimp only
      split <;> rfl

/-- What is under way at a line is the region in which the line lies, of those that start above the
bound. -/
inductive Tracks (lines : List (List Char)) (bound index : Nat) : Option Region → Prop
  | outside (h : ∀ i < bound, ¬InRegion lines i index) : Tracks lines bound index none
  | inside {i : Nat} (hi : i < bound) (h : InRegion lines i index) :
      Tracks lines bound index (some (({} : Region).extendAll (between lines i index)))

/-- On a line a region starts if none is under way. -/
theorem Tracks.underWay {line : List Char} (h : Tracks lines index index current)
    (hline : lines[index]? = some line) :
    Tracks lines (index + 1) index (underWay current line) := by
  cases h with
  | inside hi h => exact .inside (Nat.lt_succ_of_lt hi) h
  | outside hnone =>
      have hfree : ∀ h < index, StartsRegion lines h → ¬GoesOnTo lines h index :=
        fun h hlt hstarts hgoesOn => hnone h hlt ⟨hstarts, hgoesOn⟩
      cases hstart : asyncStart.occursIn line with
      | true =>
          have hin : InRegion lines index index :=
            ⟨startsRegion_iff.mpr ⟨⟨line, hline, hstart⟩, hfree⟩, goesOnTo_self lines index⟩
          have htracks := Tracks.inside (Nat.lt_succ_self index) hin
          rw [between_self] at htracks
          rw [Performance.underWay, hstart]
          exact htracks
      | false =>
          rw [Performance.underWay, hstart]
          refine .outside fun i hi hin => ?_
          rcases Nat.lt_succ_iff_lt_or_eq.mp hi with hlt | rfl
          · exact hnone i hlt hin
          · obtain ⟨⟨other, hother, hoccurs⟩, -⟩ := startsRegion_iff.mp hin.starts
            obtain rfl : line = other := Option.some.inj (hline.symm.trans hother)
            rw [hstart] at hoccurs
            cases hoccurs

/-- Behind a line the region is still under way, unless the line closes it. -/
theorem Tracks.after {line : List Char} (h : Tracks lines (index + 1) index current)
    (hline : lines[index]? = some line) :
    Tracks lines (index + 1) (index + 1) (current.bind (·.after [line])) := by
  have hback : ∀ {i}, i < index + 1 → InRegion lines i (index + 1) →
      InRegion lines i index ∧ ¬Closes lines i index := by
    intro i hi hin
    obtain ⟨hgoesOn, hopen⟩ := (goesOnTo_succ_iff (Nat.le_of_lt_succ hi)).mp hin.goesOn
    exact ⟨⟨hin.starts, hgoesOn⟩, hopen⟩
  cases h with
  | outside hnone => exact .outside fun i hi hin => hnone i hi (hback hi hin).1
  | @inside i hi hin =>
      have hle : i ≤ index := Nat.le_of_lt_succ hi
      have hextended : (({} : Region).extendAll (between lines i index)).extendAll [line] =
          ({} : Region).extendAll (between lines i (index + 1)) := by
        rw [between_succ hle hline, Region.extendAll_append]
      rw [Option.bind_some, Region.after, hextended]
      split
      · next hclosed =>
          refine .outside fun i' hi' hin' => ?_
          obtain ⟨hbefore, hopen⟩ := hback hi' hin'
          obtain rfl := hbefore.unique hin
          exact hopen (Region.closed_extendAll_iff.mp hclosed)
      · next hopen =>
          refine .inside hi ⟨hin.starts,
            (goesOnTo_succ_iff hle).mpr ⟨hin.goesOn, fun hcloses => ?_⟩⟩
          exact hopen (Region.closed_extendAll_iff.mpr hcloses)

theorem Tracks.isSome_iff (h : Tracks lines (index + 1) index current) :
    current.isSome = true ↔ ∃ i, InRegion lines i index := by
  cases h with
  | outside hnone =>
      refine ⟨nofun, fun ⟨i, hin⟩ => ?_⟩
      exact absurd hin (hnone i (Nat.lt_succ_of_le hin.goesOn.1))
  | inside hi hin => exact ⟨fun _ => ⟨_, hin⟩, fun _ => rfl⟩

/-! ## All lines -/

/-- From a line on, the indexes within regions are those of the lines that lie in a region. -/
theorem Tracks.mem_regionIndexes_iff {rest : List (List Char)}
    (h : Tracks lines index index current) (hrest : lines.drop index = rest) :
    k ∈ regionIndexes current index rest ↔ index ≤ k ∧ k < lines.length ∧ ∃ i,
      InRegion lines i k := by
  induction rest generalizing current index with
  | nil =>
      have hend : lines.length ≤ index := List.drop_eq_nil_iff.mp hrest
      refine ⟨fun hk => (List.not_mem_nil hk).elim, fun ⟨hle, hlt, _⟩ => ?_⟩
      exact absurd hlt (Nat.not_lt.mpr (Nat.le_trans hend hle))
  | cons line rest ih =>
      have hline : lines[index]? = some line := by
        rw [← List.head?_drop, hrest, List.head?_cons]
      have hlater : lines.drop (index + 1) = rest := by
        rw [← List.tail_drop, hrest, List.tail_cons]
      have hhere := h.underWay hline
      rw [regionIndexes_cons, List.mem_append, ih (hhere.after hline) hlater,
        List.mem_ite_nil_right, List.mem_singleton, hhere.isSome_iff]
      constructor
      · rintro (⟨hin, rfl⟩ | ⟨hle, hlt, hin⟩)
        · exact ⟨Nat.le_refl k, (List.getElem?_eq_some_iff.mp hline).1, hin⟩
        · exact ⟨Nat.le_of_succ_le hle, hlt, hin⟩
      · rintro ⟨hle, hlt, hin⟩
        rcases Nat.eq_or_lt_of_le hle with rfl | hlt'
        · exact .inl ⟨hin, rfl⟩
        · exact .inr ⟨hlt', hlt, hin⟩

theorem pairwise_regionIndexes (current : Option Region) (index : Nat) (lines : List (List Char)) :
    (regionIndexes current index lines).Pairwise (· < ·) := by
  induction lines generalizing current index with
  | nil => exact .nil
  | cons line lines ih =>
      rw [regionIndexes_cons, List.pairwise_append]
      refine ⟨by split <;> simp, ih _ _, fun i hi j hj => ?_⟩
      obtain ⟨-, hi⟩ := List.mem_ite_nil_right.mp hi
      exact List.mem_singleton.mp hi ▸ le_of_mem_regionIndexes hj

/-- The lines within asynchronous code, in order and each once, are those that lie in a region: from
a line at which asynchronous code starts, and up to which no region goes on that started further up,
to the first line that closes it. -/
theorem mem_asyncLines_iff_inRegion (lines : List (List Char)) :
    (asyncLines lines).Pairwise (· < ·) ∧ (∀ k ∈ asyncLines lines, k < lines.length) ∧
      ∀ k < lines.length, k ∈ asyncLines lines ↔
        ∃ i ≤ k, StartsRegion lines i ∧ ∀ j, i ≤ j → j < k → ¬Closes lines i j := by
  have hstart : Tracks lines 0 0 none := .outside fun i hi => absurd hi (Nat.not_lt_zero i)
  have hmem : ∀ k, k ∈ asyncLines lines ↔ k < lines.length ∧ ∃ i, InRegion lines i k := fun k => by
    rw [asyncLines, hstart.mem_regionIndexes_iff (List.drop_zero ..)]
    exact and_iff_right (Nat.zero_le k)
  refine ⟨pairwise_regionIndexes none 0 lines, fun k hk => ((hmem k).mp hk).1, fun k hk => ?_⟩
  rw [hmem, and_iff_right hk]
  constructor
  · rintro ⟨i, hstarts, hle, hopen⟩
    exact ⟨i, hle, hstarts, hopen⟩
  · rintro ⟨i, hle, hstarts, hopen⟩
    exact ⟨i, hstarts, hle, hopen⟩

/-- A start within a region is covered by it, and what is never closed goes on to the end. -/
example :
    asyncLines ["async () => \x7b".toList, "  async () => \x7b \x7d".toList, "\x7d".toList,
      "idle();".toList, "async () => \x7b".toList, "  wait();".toList] = [0, 1, 2, 4, 5] := by
  decide +kernel

end

/-! ## What blocks -/

/-- Whether something on a line blocks. -/
def blocks (line : List Char) : Bool := blockingPatterns.any (·.occursIn line)

/-- The finding about blocking code on a line, before it is accepted. -/
def blockingAt (path : String) (content : List Char) (index : Nat) : Finding :=
  (SourceFile.ofContent path content).findingAt index "blocking_code_in_async" .medium
    "Potential blocking code in async context"
    "Move long-running work out of the event loop or break it up with await"

/-- A scan reports what blocks on the lines within regions, and on no others. -/
theorem mem_scan_blockingAt_iff (hscan : scan path content = .ok found) (index : Nat) :
    (blockingAt path content index).bounded ∈ found ↔
      index ∈ asyncLines (Text.sourceLines content) ∧
        ∃ line, (Text.sourceLines content)[index]? = some line ∧ blocks line = true := by
  obtain ⟨-, rfl⟩ := scan_eq_ok_iff.mp hscan
  have hdetector : ("blocking_code_in_async", detectBlockingCode) ∈ detectors.entries := by
    simp [detectors]
  have hdetected : ∀ line i, blockingAt path content i ∈
      detectBlockingCode line i (Source.of (.ofContent path content)) ↔
        i ∈ asyncLines (Text.sourceLines content) ∧ blocks line = true := by
    intro line i
    show _ ∈ (if (asyncLines (Text.sourceLines content)).contains i && blocks line then
      [blockingAt path content i] else []) ↔ _
    rw [List.mem_ite_nil_right, Bool.and_eq_true, List.contains_iff_mem]
    simp
  constructor
  · intro hmem
    obtain ⟨f, hf, hsame⟩ := List.mem_map.mp hmem
    obtain ⟨line, i, hline, entry, hentry, hin⟩ := Rule.Registry.mem_run_iff.mp hf
    have hreports := reportsLines_detectors entry hentry line i _ f hin
    -- the name tells which detector has reported it, and the number on which line
    have hkind : entry.1 = "blocking_code_in_async" :=
      hreports.kind_eq.symm.trans (congrArg Finding.kind hsame)
    have hnumber : some ((i : Int) + 1) = some ((index : Int) + 1) :=
      hreports.line_eq.symm.trans (congrArg Finding.line hsame)
    obtain rfl : i = index := by simpa using hnumber
    obtain rfl : entry = ("blocking_code_in_async", detectBlockingCode) := by
      simp only [detectors, List.mem_cons, List.not_mem_nil, or_false] at hentry
      rcases hentry with rfl | rfl | rfl
      · exact absurd hkind (by decide)
      · exact absurd hkind (by decide)
      · rfl
    obtain ⟨hcovered, hfound⟩ := List.mem_ite_nil_right.mp hin
    obtain rfl := List.mem_singleton.mp hfound
    obtain ⟨hasync, hblocks⟩ := (hdetected line i).mp hin
    exact ⟨hasync, line, List.mk_mem_zipIdx_iff_getElem?.mp hline, hblocks⟩
  · rintro ⟨hasync, line, hline, hblocks⟩
    refine List.mem_map_of_mem (Rule.Registry.mem_run_iff.mpr ?_)
    exact ⟨line, index, List.mk_mem_zipIdx_iff_getElem?.mpr hline, _, hdetector,
      (hdetected line index).mpr ⟨hasync, hblocks⟩⟩

/-! ## Bodies below their header -/

theorem BodyBelow.exists_cons (h : BodyBelow header body) :
    ∃ first more, body = first :: more ∧ '\x7b' ∈ first := by
  obtain ⟨first, hfirst, hbrace⟩ := h.opens
  cases body with
  | nil => cases hfirst
  | cons line more =>
      obtain rfl : line = first := Option.some.inj hfirst
      exact ⟨line, more, rfl, Text.mem_of_mem_strip (List.mem_of_mem_head? hbrace)⟩

/-- A region that starts at the header, or else at the first line of the body, covers the body. -/
theorem BodyBelow.asyncLines_eq (h : BodyBelow header body)
    (hcovered : '\x7b' ∉ header ∨ ∃ first ∈ body.head?, asyncStart.occursIn first = true)
    (rest : List (List Char)) :
    asyncLines (header :: (body ++ rest)) =
      List.range (body.length + 1) ++
        regionIndexes (({} : Region).after body) (body.length + 1) rest := by
  obtain ⟨first, more, rfl, -⟩ := h.exists_cons
  have hgoesOn : ∀ k, 0 < k → k < more.length + 1 →
      0 < ({} : Region).depth + netBraces ((first :: more).take k) := by
    intro k hk hlt
    rw [Int.zero_add]
    exact h.goesOn k hk hlt
  have hbody : regionIndexes (if '\x7b' ∈ header then none else some {}) 1 (first :: more ++ rest) =
      regionIndexes (some {}) 1 (first :: more ++ rest) := by
    by_cases hbrace : '\x7b' ∈ header
    · obtain ⟨line, hline, hstarts⟩ := hcovered.resolve_left (not_not.mpr hbrace)
      obtain rfl : first = line := Option.some.inj hline
      rw [if_pos hbrace]
      exact regionIndexes_of_start hstarts 1 (more ++ rest)
    · rw [if_neg hbrace]
  rw [asyncLines_header h.starts h.balanced, hbody, regionIndexes_body hgoesOn, List.length_cons,
    Nat.add_comm 1, List.range_eq_range']
  rfl

/-- Below a header with braces the lines are looked through as if the text began there. -/
theorem BodyBelow.asyncLines_of_brace (h : BodyBelow header body) (hbrace : '\x7b' ∈ header)
    (lines : List (List Char)) :
    asyncLines (header :: lines) = 0 :: (asyncLines lines).map (1 + ·) := by
  rw [asyncLines_header h.starts h.balanced, if_pos hbrace, regionIndexes_none]

/-- The region ends with the body, if as many braces are closed in it as opened. -/
theorem BodyBelow.after_eq_none (h : BodyBelow header body) (hends : netBraces body ≤ 0) :
    ({} : Region).after body = none := by
  obtain ⟨first, more, rfl, hbrace⟩ := h.exists_cons
  have hclosed : (({} : Region).extendAll (first :: more)).closed = true := by
    have hdepth : ({} : Region).depth + netBraces (first :: more) ≤ 0 := by
      rwa [Int.zero_add]
    rw [Region.closed, Region.opened_extendAll_iff.mpr (.inr ⟨first, List.mem_cons_self, hbrace⟩),
      Region.depth_extendAll]
    simpa using hdepth
  rw [Region.after, if_pos hclosed]

/-- A body that opens on the line below its header is covered exactly when the header has no braces,
or the first line of the body starts asynchronous code of its own. Without braces in the header the
region ends where the body does; with braces that balance it is over on the line of the header, and
the body is looked through as if nothing stood above it. Of the lines of the body, those that are
covered are reported if something on them blocks, and the others never are. -/
theorem body_covered_iff (h : BodyBelow header body) (rest : List (List Char)) :
    ((∀ index ≤ body.length, index ∈ asyncLines (header :: (body ++ rest))) ↔
        '\x7b' ∉ header ∨ ∃ first ∈ body.head?, asyncStart.occursIn first = true) ∧
    ('\x7b' ∉ header → netBraces body ≤ 0 →
      asyncLines (header :: (body ++ rest)) =
        List.range (body.length + 1) ++ (asyncLines rest).map (body.length + 1 + ·)) ∧
    ('\x7b' ∈ header →
      asyncLines (header :: (body ++ rest)) = 0 :: (asyncLines (body ++ rest)).map (1 + ·)) ∧
    ∀ path content, path ≠ "" → Text.sourceLines content = header :: (body ++ rest) →
      ∃ found, scan path content = .ok found ∧
        ∀ index line, (header :: body)[index]? = some line →
          ((blockingAt path content index).bounded ∈ found ↔
            index ∈ asyncLines (header :: (body ++ rest)) ∧ blocks line = true) := by
  refine ⟨⟨fun hall => ?_, fun hcovered index hindex => ?_⟩, fun hnone hends => ?_,
    fun hbrace => h.asyncLines_of_brace hbrace _, fun path content hpath hlines => ?_⟩
  · -- a body of whose first line nothing starts is not covered there
    by_contra hnot
    obtain ⟨hbrace, hfirst⟩ := not_or.mp hnot
    obtain ⟨first, more, rfl, -⟩ := h.exists_cons
    have hstarts : asyncStart.occursIn first = false := by
      simpa using hfirst
    have hone := hall 1 (Nat.succ_le_succ (Nat.zero_le _))
    rw [asyncLines_header h.starts h.balanced, if_pos (not_not.mp hbrace), List.cons_append,
      regionIndexes, hstarts, if_neg Bool.false_ne_true] at hone
    rcases List.mem_cons.mp hone with hzero | hbelow
    · cases hzero
    · exact absurd (le_of_mem_regionIndexes hbelow) (by decide)
  · rw [h.asyncLines_eq hcovered]
    exact List.mem_append_left _ (List.mem_range.mpr (Nat.lt_succ_of_le hindex))
  · rw [h.asyncLines_eq (.inl hnone), h.after_eq_none hends, regionIndexes_none]
  · refine ⟨_, scan_eq_ok_iff.mpr ⟨.inl hpath, rfl⟩, fun index line hline => ?_⟩
    have hall : (header :: (body ++ rest))[index]? = some line := by
      obtain ⟨hlt, -⟩ := List.getElem?_eq_some_iff.mp hline
      rw [← List.cons_append, List.getElem?_append_left hlt, hline]
    rw [mem_scan_blockingAt_iff (scan_eq_ok_iff.mpr ⟨.inl hpath, rfl⟩), hlines]
    simp [hall]

/-- A loop without end, as a body that opens on a line of its own. -/
def loopBody : List (List Char) :=
  ["\x7b".toList, "  while (true) \x7b\x7d".toList, "\x7d".toList]

theorem bodyBelow_loopBody {header : List Char} (hstarts : asyncStart.occursIn header = true)
    (hbalanced : header.count '\x7b' = header.count '\x7d') : BodyBelow header loopBody where
  starts := hstarts
  balanced := hbalanced
  opens := ⟨_, rfl, by decide⟩
  goesOn k hk hlt := by
    have hlength : loopBody.length = 3 := rfl
    obtain rfl | rfl : k = 1 ∨ k = 2 := by omega
    · decide
    · decide

/-- The loop below a header without parameters, and below one with a parameter in braces. -/
theorem body_covered_iff_loopBody :
    asyncLines ("async function run()".toList :: (loopBody ++ ["after();".toList])) = [0, 1, 2, 3] ∧
      asyncLines ("async function run(\x7b id \x7d)".toList :: (loopBody ++ ["after();".toList])) =
        [0] ∧
      ∃ found,
        scan "run.js" "async function run()\n\x7b\n  while (true) \x7b\x7d\n\x7d".toList =
          .ok found ∧
        (blockingAt "run.js" "async function run()\n\x7b\n  while (true) \x7b\x7d\n\x7d".toList
          2).bounded ∈
          found := by
  have hplain : BodyBelow "async function run()".toList loopBody :=
    bodyBelow_loopBody (by decide +kernel) (by decide)
  have hbraces : BodyBelow "async function run(\x7b id \x7d)".toList loopBody :=
    bodyBelow_loopBody (by decide +kernel) (by decide)
  refine ⟨?_, ?_, ?_⟩
  · rw [(body_covered_iff hplain ["after();".toList]).2.1 (by decide) (by decide)]
    decide +kernel
  · rw [(body_covered_iff hbraces ["after();".toList]).2.2.1 (by decide)]
    decide +kernel
  · obtain ⟨found, hscan, hreported⟩ := (body_covered_iff hplain []).2.2.2 "run.js"
      "async function run()\n\x7b\n  while (true) \x7b\x7d\n\x7d".toList (by decide) (by decide)
    refine ⟨found, hscan, (hreported 2 _ rfl).mpr ⟨?_, by decide +kernel⟩⟩
    exact (body_covered_iff hplain []).1.mpr (.inl (by decide)) 2 (by decide)

/-- A parameter in braces ends the region on the line of the header: the body below it, in which as
many braces are closed as opened, is not covered, and the loop in it is not reported. -/
theorem body_below_braces_not_covered :
    BodyBelow "async function run(\x7b id \x7d)".toList loopBody ∧ netBraces loopBody = 0 ∧
      asyncLines ("async function run(\x7b id \x7d)".toList :: loopBody) = [0] ∧
      scan "run.js" "async function run(\x7b id \x7d)\n\x7b\n  while (true) \x7b\x7d\n\x7d".toList =
        .ok [] := by
  refine ⟨bodyBelow_loopBody (by decide +kernel) (by decide), by decide, ?_, ?_⟩
  · decide +kernel
  · decide +kernel

end FrontendAudit.Performance
