import FrontendAudit.Proofs.Glob.Braces

/-!
# What patterns with groups expand to

Complete groups can be expanded in any order: the texts that come out are the same
(`mem_expandBraces_of_isGroup`). So a pattern, wherever it stands in a text, gives way to its
meanings (`Braced.Written.mem_expandBraces`), and a pattern by itself expands to its meanings
exactly (`expandBraces_denotes`), without nested groups even in the order of the product.
-/

namespace FrontendAudit.Glob

/-! ## The order of expansions -/

/-- Whichever complete group gives way first, the same texts come out. -/
theorem mem_expandBraces_of_isGroup {t s head body tail : List Char}
    (h : IsGroup s head body tail) :
    t ∈ expandBraces s ↔ ∃ choice ∈ alternatives body,
      t ∈ expandBraces (head ++ choice ++ tail) := by
  -- by induction on the number of opening braces, which is smaller behind every choice
  induction hn : s.count opening using Nat.strongRecOn generalizing s head body tail with
  | ind n ih =>
      subst hn
      cases hfirst : firstGroup? s with
      | none => exact absurd h (not_isGroup_of_firstGroup? hfirst head body tail)
      | some group =>
          obtain ⟨before, inside, after⟩ := group
          have hleftmost := leftmost_of_firstGroup? hfirst
          rw [expandBraces_of_leftmost hleftmost, List.mem_flatMap]
          rcases Nat.eq_or_lt_of_le (hleftmost.2 head body tail h) with hlength | hlength
          · obtain ⟨rfl, rfl, rfl⟩ := hleftmost.1.unique h hlength
            rfl
          · obtain ⟨between, rfl, rfl⟩ := hleftmost.1.apart h hlength
            -- the other group is still there behind each choice for the first, and the first
            -- behind each choice for the other
            have hother : ∀ choice, IsGroup
                (before ++ choice ++ (between ++ opening :: (body ++ closing :: tail)))
                (before ++ choice ++ between) body tail := fun choice => ⟨by simp, h.2⟩
            have hfirst' : ∀ choice, IsGroup
                (before ++ opening :: (inside ++ closing :: between) ++ choice ++ tail)
                before inside (between ++ choice ++ tail) := fun choice => ⟨by simp, hleftmost.1.2⟩
            calc (∃ first ∈ alternatives inside,
                    t ∈
                      expandBraces (before ++ first ++
                        (between ++ opening :: (body ++ closing :: tail))))
                ↔ ∃ first ∈ alternatives inside, ∃ choice ∈ alternatives body,
                    t ∈ expandBraces (before ++ first ++ between ++ choice ++ tail) :=
                  exists_congr fun first => and_congr_right fun hmem =>
                    ih _ (count_opening_lt hleftmost.1 hmem) (hother first) rfl
              _ ↔ ∃ choice ∈ alternatives body, ∃ first ∈ alternatives inside,
                    t ∈ expandBraces (before ++ first ++ (between ++ choice ++ tail)) := by
                  simp only [List.append_assoc]
                  constructor
                  · rintro ⟨first, hfirst, choice, hchoice, ht⟩
                    exact ⟨choice, hchoice, first, hfirst, ht⟩
                  · rintro ⟨choice, hchoice, first, hfirst, ht⟩
                    exact ⟨first, hfirst, choice, hchoice, ht⟩
              _ ↔ ∃ choice ∈ alternatives body,
                    t ∈ expandBraces (before ++ opening :: (inside ++ closing :: between) ++
                      choice ++ tail) :=
                  exists_congr fun choice => and_congr_right fun hmem =>
                    (ih _ (count_opening_lt h hmem) (hfirst' choice) rfl).symm

/-- Alternatives that are written out, with a comma behind each, and one more. -/
theorem alternatives_flatMap_append {done : List (List Char)} {m : List Char}
    (hdone : ∀ d ∈ done, ',' ∉ d) (hm : ',' ∉ m) :
    alternatives (done.flatMap (· ++ [',']) ++ m) = done ++ [m] := by
  rw [alternatives_eq_splitOn]
  induction done with
  | nil => exact Text.splitOn_of_not_mem hm
  | cons d done ih =>
      rw [List.forall_mem_cons] at hdone
      rw [List.flatMap_cons, List.append_assoc, List.append_assoc, List.singleton_append,
        Text.splitOn_append_cons hdone.1, ih hdone.2, List.cons_append]

theorem braceFree_flatMap_append {done : List (List Char)} (hdone : ∀ d ∈ done, BraceFree d) :
    BraceFree (done.flatMap (· ++ [','])) := by
  intro c hc
  obtain ⟨d, hd, hc⟩ := List.mem_flatMap.mp hc
  rcases List.mem_append.mp hc with hc | hc
  · exact hdone d hd c hc
  · obtain rfl := List.mem_singleton.mp hc
    decide

/-- What holds of one of some alternatives, or of one that is put in their midst from a list with
something in it, holds of one of all of them. -/
theorem exists_mem_among {α : Type} {P : α → Prop} (before after : List α) {among : List α}
    (h : among ≠ []) :
    (∃ m ∈ among, ∃ c ∈ before ++ m :: after, P c) ↔ ∃ c ∈ before ++ (among ++ after), P c := by
  obtain ⟨m, hm⟩ := List.exists_mem_of_ne_nil among h
  simp only [List.mem_append, List.mem_cons]
  constructor
  · rintro ⟨m, hm, c, hc | rfl | hc, hP⟩
    · exact ⟨c, .inl hc, hP⟩
    · exact ⟨c, .inr (.inl hm), hP⟩
    · exact ⟨c, .inr (.inr hc), hP⟩
  · rintro ⟨c, hc | hc | hc, hP⟩
    · exact ⟨m, hm, c, .inl hc, hP⟩
    · exact ⟨c, hc, c, .inr (.inl rfl), hP⟩
    · exact ⟨m, hm, c, .inr (.inr hc), hP⟩

/-! ## Patterns inside texts -/

variable {t : List Char}

mutual

/-- A pattern inside a text gives way to its meanings. -/
theorem Braced.Written.mem_expandBraces {inside : Bool} (a z : List Char) :
    ∀ {p : Braced}, p.Written inside →
    (t ∈ expandBraces (a ++ p.text ++ z) ↔ ∃ m ∈ p.meanings, t ∈ expandBraces (a ++ m ++ z))
  | .empty, _ => by simp [Braced.text, Braced.meanings]
  | .char c rest, h => by
      have hrest := h.2.2.mem_expandBraces (a ++ [c]) z
      simpa [Braced.text, Braced.meanings] using hrest
  | .group choices rest, h => by
      have hrest := h.2.mem_expandBraces (a ++ opening :: (choices.text ++ [closing])) z
      have hchoices := fun m => h.1.mem_expandBraces [] a (m ++ z) (by simp)
      simp only [List.flatMap_nil, List.nil_append, List.append_assoc,
        List.cons_append] at hrest hchoices
      -- first the rest behind the group gives way, then the group
      calc t ∈ expandBraces (a ++ (Braced.group choices rest).text ++ z)
          ↔ t ∈ expandBraces (a ++ opening :: (choices.text ++ closing :: (rest.text ++ z))) := by
            simp [Braced.text]
        _ ↔ ∃ m ∈ rest.meanings,
              t ∈ expandBraces (a ++ opening :: (choices.text ++ closing :: (m ++ z))) := hrest
        _ ↔ ∃ m ∈ rest.meanings, ∃ c ∈ choices.meanings, t ∈ expandBraces (a ++ (c ++ (m ++ z))) :=
            exists_congr fun m => and_congr_right fun _ => hchoices m
        _ ↔ ∃ m ∈ (Braced.group choices rest).meanings, t ∈ expandBraces (a ++ m ++ z) := by
            simp only [Braced.meanings, List.mem_flatMap, List.mem_map]
            constructor
            · rintro ⟨m, hm, c, hc, ht⟩
              exact ⟨c ++ m, ⟨c, hc, m, hm, rfl⟩, by simpa using ht⟩
            · rintro ⟨_, ⟨c, hc, m, hm, rfl⟩, ht⟩
              exact ⟨m, hm, c, hc, by simpa using ht⟩

/-- Alternatives in a group, behind others that are written out, give way to their meanings. -/
theorem Choices.Written.mem_expandBraces (done : List (List Char)) (a z : List Char)
    (hdone : ∀ d ∈ done, BraceFree d ∧ ',' ∉ d) : ∀ {choices : Choices}, choices.Written →
    (t ∈
      expandBraces (a ++ opening :: (done.flatMap (· ++ [',']) ++ choices.text ++ closing :: z)) ↔
      ∃ m ∈ done ++ choices.meanings, t ∈ expandBraces (a ++ m ++ z))
  | .last p, h => by
      have hp := Braced.Written.mem_expandBraces (a ++ opening :: done.flatMap (· ++ [',']))
        (closing :: z) h
      simp only [List.append_assoc, List.cons_append] at hp
      -- with the last alternative written out, the group is complete
      have hgroup : ∀ m ∈ p.meanings,
          (t ∈ expandBraces (a ++ opening :: (done.flatMap (· ++ [',']) ++ (m ++ closing :: z))) ↔
            ∃ c ∈ done ++ [m], t ∈ expandBraces (a ++ c ++ z)) := by
        intro m hm
        obtain ⟨hfree, hcomma⟩ := Braced.Written.of_mem_meanings h hm
        rw [← alternatives_flatMap_append (fun d hd => (hdone d hd).2) (hcomma rfl)]
        refine mem_expandBraces_of_isGroup ⟨by simp, braceFree_append.mpr ⟨?_, hfree⟩⟩
        exact braceFree_flatMap_append fun d hd => (hdone d hd).1
      calc t ∈ expandBraces
            (a ++ opening :: (done.flatMap (· ++ [',']) ++ (Choices.last p).text ++ closing :: z))
          ↔ t ∈ expandBraces (a ++
            opening :: (done.flatMap (· ++ [',']) ++ (p.text ++ closing :: z))) := by
            rw [Choices.text, List.append_assoc]
        _ ↔ ∃ m ∈ p.meanings,
              t ∈
                expandBraces (a ++ opening :: (done.flatMap (· ++ [',']) ++ (m ++ closing :: z))) :=
                  hp
        _ ↔ ∃ m ∈ p.meanings, ∃ c ∈ done ++ [m], t ∈ expandBraces (a ++ c ++ z) :=
            exists_congr fun m => and_congr_right fun hm => hgroup m hm
        _ ↔ ∃ m ∈ done ++ (Choices.last p).meanings, t ∈ expandBraces (a ++ m ++ z) := by
            rw [exists_mem_among done [] p.meanings_ne_nil, List.append_nil, Choices.meanings]
  | .more p others, h => by
      have hp := Braced.Written.mem_expandBraces (a ++ opening :: done.flatMap (· ++ [',']))
        (',' :: (others.text ++ closing :: z)) h.1
      simp only [List.append_assoc, List.cons_append] at hp
      -- each of its meanings joins the alternatives that are written out
      have hothers : ∀ m ∈ p.meanings,
          (t ∈ expandBraces (a ++ opening ::
              (done.flatMap (· ++ [',']) ++ (m ++ ',' :: (others.text ++ closing :: z)))) ↔
            ∃ c ∈ done ++ m :: others.meanings, t ∈ expandBraces (a ++ c ++ z)) := by
        intro m hm
        obtain ⟨hfree, hcomma⟩ := h.1.of_mem_meanings hm
        have hdone' : ∀ d ∈ done ++ [m], BraceFree d ∧ ',' ∉ d := by
          intro d hd
          rcases List.mem_append.mp hd with hd | hd
          · exact hdone d hd
          · obtain rfl := List.mem_singleton.mp hd
            exact ⟨hfree, hcomma rfl⟩
        simpa using h.2.mem_expandBraces (done ++ [m]) a z hdone'
      calc t ∈ expandBraces
            (a ++ opening :: (done.flatMap (· ++ [',']) ++ (Choices.more p others).text ++
              closing :: z))
          ↔ t ∈ expandBraces (a ++ opening ::
              (done.flatMap (· ++ [',']) ++ (p.text ++ ',' :: (others.text ++ closing :: z)))) := by
            simp only [Choices.text, List.append_assoc, List.cons_append]
        _ ↔ ∃ m ∈ p.meanings, t ∈ expandBraces (a ++ opening ::
              (done.flatMap (· ++ [',']) ++ (m ++ ',' :: (others.text ++ closing :: z)))) := hp
        _ ↔ ∃ m ∈ p.meanings, ∃ c ∈ done ++ m :: others.meanings, t ∈ expandBraces (a ++ c ++ z) :=
            exists_congr fun m => and_congr_right fun hm => hothers m hm
        _ ↔ ∃ m ∈ done ++ (Choices.more p others).meanings, t ∈ expandBraces (a ++ m ++ z) := by
            rw [exists_mem_among done others.meanings p.meanings_ne_nil, Choices.meanings]

end

/-! ## Patterns by themselves -/

/-- A pattern expands to its meanings. -/
theorem Braced.Written.mem_expandBraces_text {inside : Bool} {p : Braced} (h : p.Written inside) :
    t ∈ expandBraces p.text ↔ t ∈ p.meanings := by
  have hself : ∀ m ∈ p.meanings, (t ∈ expandBraces m ↔ t = m) := by
    intro m hm
    have hfree := (h.of_mem_meanings hm).1
    rw [expandBraces_of_not_isGroup fun _ _ _ => not_isGroup_of_not_mem hfree.opening_not_mem,
      List.mem_singleton]
  have hcontext := h.mem_expandBraces (t := t) [] []
  simp only [List.nil_append, List.append_nil] at hcontext
  rw [hcontext]
  constructor
  · rintro ⟨m, hm, ht⟩
    rwa [(hself m hm).mp ht]
  · exact fun ht => ⟨t, ht, (hself t ht).mpr rfl⟩

/-- Behind a text without braces, a pattern without nested groups expands to its meanings in their
order. -/
theorem Braced.Written.expandBraces_of_isFlat {inside : Bool} :
    ∀ {p : Braced} {a : List Char}, opening ∉ a →
    p.Written inside → p.IsFlat → expandBraces (a ++ p.text) = p.meanings.map (a ++ ·)
  | .empty, a, ha, _, _ => by
      rw [Braced.text, List.append_nil, expandBraces_of_not_isGroup fun _ _ _ =>
        not_isGroup_of_not_mem ha]
      simp [Braced.meanings]
  | .char c rest, a, ha, h, hflat => by
      have hc : opening ∉ a ++ [c] := by
        rw [List.mem_append, List.mem_singleton, not_or]
        exact ⟨ha, (isBrace_eq_false_iff.mp h.1).1.symm⟩
      have hrest := h.2.2.expandBraces_of_isFlat hc hflat
      simpa [Braced.text, Braced.meanings, Function.comp_def] using hrest
  | .group choices rest, a, ha, h, hflat => by
      obtain ⟨hfree, htexts⟩ := Choices.alternatives_text h.1 hflat.1
      rw [Braced.text, expandBraces_of_leftmost (leftmost_of_opening_not_mem ha hfree), htexts,
        Braced.meanings, Choices.meanings_of_arePlain hflat.1, List.map_flatMap]
      refine List.flatMap_congr fun choice hchoice => ?_
      have hchoice' : choice ∈ choices.meanings := by rwa [Choices.meanings_of_arePlain hflat.1]
      have hahead : opening ∉ a ++ choice := by
        rw [List.mem_append, not_or]
        exact ⟨ha, (h.1.of_mem_meanings hchoice').1.opening_not_mem⟩
      rw [h.2.expandBraces_of_isFlat hahead hflat.2]
      simp

/-- Expanding ends on every text, and leaves no complete group without braces inside. A text with
balanced braces is the text of a pattern, and expands to what the pattern stands for; without nested
groups, it expands to the product of what can be chosen at each place, the leftmost place varying
slowest. -/
theorem expandBraces_denotes :
    (∀ s, (∀ texts, Expands s texts ↔ texts = expandBraces s) ∧
      ∀ text ∈ expandBraces s, ∀ head body tail,
        text = head ++ opening :: (body ++ closing :: tail) →
        ∃ c ∈ body, isBrace c = true) ∧
    (∀ s, Balanced s ↔ ∃ p : Braced, p.Written false ∧ p.text = s) ∧
    ∀ p : Braced, p.Written false →
      (∀ t, t ∈ expandBraces p.text ↔ t ∈ p.meanings) ∧
      (p.IsFlat → expandBraces p.text = product p.factors) := by
  refine ⟨fun s => ⟨fun texts => expands_iff, ?_⟩, fun s => balanced_iff, ?_⟩
  · intro text htext head body tail hsplit
    by_contra hfree
    push Not at hfree
    exact not_isGroup_of_mem_expandBraces htext head body tail
      ⟨hsplit, by simpa [BraceFree] using hfree⟩
  · intro p hp
    refine ⟨fun t => hp.mem_expandBraces_text, fun hflat => ?_⟩
    have hexpands := hp.expandBraces_of_isFlat List.not_mem_nil hflat
    rw [List.nil_append] at hexpands
    rw [hexpands, ← Braced.meanings_of_isFlat hflat]
    simp

/-- Two groups beside each other. -/
def twoGroups : Braced :=
  .group (.more (.char 'a' .empty) (.last (.char 'b' .empty)))
    (.char '/' (.group (.more (.char 'x' .empty) (.last (.char 'y' .empty))) .empty))

/-- A group inside a group, with an empty alternative. -/
def nestedGroups : Braced :=
  .group (.more (.char 'a' .empty)
    (.last (.group (.more (.char 'b' .empty) (.last .empty)) (.char 'c' .empty))))
      (.char ',' .empty)

theorem expandBraces_denotes_twoPatterns :
    nestedGroups.Written false ∧ nestedGroups.text = "\x7ba,\x7bb,\x7dc\x7d,".toList ∧
      (∀ t, t ∈ expandBraces nestedGroups.text ↔ t ∈ ["a,", "bc,", "c,"].map String.toList) ∧
    twoGroups.Written false ∧ twoGroups.IsFlat ∧
      expandBraces twoGroups.text = ["a/x", "a/y", "b/x", "b/y"].map String.toList := by
  have hnested : nestedGroups.Written false := by
    simp [nestedGroups, Braced.Written, Choices.Written, isBrace, opening, closing]
  have htwo : twoGroups.Written false := by
    simp [twoGroups, Braced.Written, Choices.Written, isBrace, opening, closing]
  have hflat : twoGroups.IsFlat := by
    simp [twoGroups, Braced.IsFlat, Choices.ArePlain, Braced.IsPlain]
  refine ⟨hnested, by decide, fun t => ?_, htwo, hflat, ?_⟩
  · exact (expandBraces_denotes.2.2 nestedGroups hnested).1 t
  · exact (expandBraces_denotes.2.2 twoGroups htwo).2 hflat

end FrontendAudit.Glob
