import FrontendAudit.Audit.Category
import FrontendAudit.Proofs.Glob.Sets
import FrontendAudit.Proofs.Run

/-!
# When the files of a category are found

The files of a category are found exactly when every text that its patterns and the ignore file
stand for is a glob (`files_found_iff`). Expanding braces and rewriting the lines of an ignore file
bring in no bracket, so that settings without opening brackets are safe. One bracket in an ignore
file can be enough to end an audit (`ignore_line_ends_enumeration`).
-/

namespace FrontendAudit

/-! ## Characters that are kept -/

namespace Text

variable {c : Char} {s : List Char}

theorem mem_of_mem_splitOn {sep : Char} {piece : List Char} (hpiece : piece ∈ splitOn sep s)
    (h : c ∈ piece) : c ∈ s := by
  induction s generalizing piece with
  | nil =>
      obtain rfl : piece = [] := by simpa [splitOn_nil] using hpiece
      cases h
  | cons d s ih =>
      rw [splitOn_cons] at hpiece
      split at hpiece
      · rcases List.mem_cons.mp hpiece with rfl | hpiece
        · cases h
        · exact List.mem_cons_of_mem _ (ih hpiece h)
      · cases hsplit : splitOn sep s with
        | nil => exact absurd hsplit (splitOn_ne_nil sep s)
        | cons first others =>
            rw [hsplit] at hpiece
            rcases List.mem_cons.mp hpiece with rfl | hpiece
            · rcases List.mem_cons.mp h with rfl | h
              · exact List.mem_cons_self
              · exact List.mem_cons_of_mem _ (ih (by rw [hsplit]; exact List.mem_cons_self) h)
            · exact List.mem_cons_of_mem _
                (ih (by rw [hsplit]; exact List.mem_cons_of_mem _ hpiece) h)

/-- A character in a line, other than a line feed, was in the text. -/
theorem mem_of_mem_breakLines {line : List Char} (hline : line ∈ breakLines s) (h : c ∈ line)
    (hc : c ≠ '\n') : c ∈ s := by
  unfold breakLines at hline
  dsimp only at hline
  generalize hunified : List.filterMap _ (withPrevious s) = unified at hline
  have hpiece : line ∈ splitOn '\n' unified := by
    split at hline
    · exact (List.dropLast_sublist _).subset hline
    · exact hline
  have hmem := mem_of_mem_splitOn hpiece h
  rw [← hunified] at hmem
  obtain ⟨⟨before, d⟩, hd, heq⟩ := List.mem_filterMap.mp hmem
  dsimp only at heq
  split at heq
  · cases heq
  · have hmem : d ∈ s := (List.of_mem_zip hd).2
    have hchar := Option.some.inj heq
    split at hchar
    · exact absurd hchar.symm hc
    · rw [← hchar]
      exact hmem

end Text

namespace Glob

variable {c : Char} {s : List Char}

theorem mem_of_mem_firstGroup? {head body tail : List Char}
    (h : firstGroup? s = some (head, body, tail)) (hc : c ∈ head ++ body ++ tail) : c ∈ s := by
  induction s generalizing head body tail with
  | nil => cases h
  | cons d s ih =>
      have hfurther :
          (∃ g, firstGroup? s = some g ∧ (d :: g.1, g.2.1, g.2.2) = (head, body, tail)) →
          c ∈ d :: s := by
        rintro ⟨⟨head', body', tail'⟩, hgroup, heq⟩
        obtain ⟨rfl, rfl, rfl⟩ :
            d :: head' = head ∧ body' = body ∧ tail' = tail := by simpa using heq
        rcases List.mem_cons.mp hc with rfl | hc
        · exact List.mem_cons_self
        · exact List.mem_cons_of_mem _ (ih hgroup hc)
      unfold firstGroup? at h
      dsimp only at h
      split at h
      · split at h
        · next e rest hrest =>
            split at h
            · obtain ⟨rfl, rfl, rfl⟩ : [] = head ∧ _ = body ∧ rest = tail := by simpa using h
              refine List.mem_cons_of_mem _ ?_
              rw [← List.takeWhile_append_dropWhile (p := fun d => !isBrace d) (l := s), hrest]
              rcases List.mem_append.mp hc with hc | hc
              · exact List.mem_append_left _ (by simpa using hc)
              · exact List.mem_append_right _ (List.mem_cons_of_mem _ hc)
            · exact hfurther (Option.map_eq_some_iff.mp h)
        · exact hfurther (Option.map_eq_some_iff.mp h)
      · exact hfurther (Option.map_eq_some_iff.mp h)

theorem mem_of_mem_alternatives {body choice : List Char} (hchoice : choice ∈ alternatives body)
    (h : c ∈ choice) : c ∈ body := by
  induction body generalizing choice with
  | nil =>
      obtain rfl : choice = [] := by simpa [alternatives] using hchoice
      cases h
  | cons d body ih =>
      unfold alternatives at hchoice ih
      rw [List.foldr_cons] at hchoice
      split at hchoice
      · rcases List.mem_cons.mp hchoice with rfl | hchoice
        · cases h
        · exact List.mem_cons_of_mem _ (ih hchoice h)
      · split at hchoice
        · next hnone =>
            obtain rfl := List.mem_singleton.mp hchoice
            obtain rfl := List.mem_singleton.mp h
            exact List.mem_cons_self
        · next first others hsome =>
            rw [hsome] at ih
            rcases List.mem_cons.mp hchoice with rfl | hchoice
            · rcases List.mem_cons.mp h with rfl | h
              · exact List.mem_cons_self
              · exact List.mem_cons_of_mem _ (ih List.mem_cons_self h)
            · exact List.mem_cons_of_mem _ (ih (List.mem_cons_of_mem _ hchoice) h)

theorem mem_of_mem_expandWith {fuel : Nat} {text : List Char} (htext : text ∈ expandWith fuel s)
    (h : c ∈ text) : c ∈ s := by
  induction fuel generalizing s with
  | zero =>
      obtain rfl := List.mem_singleton.mp htext
      exact h
  | succ fuel ih =>
      rw [expandWith] at htext
      split at htext
      · obtain rfl := List.mem_singleton.mp htext
        exact h
      · next head body tail hgroup =>
          obtain ⟨choice, hchoice, htext⟩ := List.mem_flatMap.mp htext
          refine mem_of_mem_firstGroup? hgroup ?_
          have hmem := ih htext
          simp only [List.mem_append] at hmem ⊢
          rcases hmem with (hmem | hmem) | hmem
          · exact .inl (.inl hmem)
          · exact .inl (.inr (mem_of_mem_alternatives hchoice hmem))
          · exact .inr hmem

end Glob

/-! ## Patterns -/

namespace Selection

/-- The texts that a pattern stands for, each of which has to be a glob. -/
def textsOf (pattern : String) : List (List Char) :=
  if Text.strip pattern.toList = [] then []
  else Glob.expandBraces ((Text.strip pattern.toList).dropWhile (· = '!'))

theorem mem_of_mem_textsOf {pattern : String} {text : List Char} {c : Char}
    (htext : text ∈ textsOf pattern) (h : c ∈ text) : c ∈ pattern.toList := by
  unfold textsOf at htext
  split at htext
  · cases htext
  · exact Text.mem_of_mem_strip
      ((List.dropWhile_sublist _).subset (Glob.mem_of_mem_expandWith htext h))

theorem globsOf_succeeds_iff {pattern : List Char} :
    (∃ globs, globsOf pattern = .ok globs) ↔
      ∀ text ∈ Glob.expandBraces pattern, Glob.WellBracketed text := by
  rw [globsOf, exists_mapM_eq_ok]
  simp only [Glob.parse_succeeds_iff]

/-- A pattern can be added to any selection when its texts are globs. -/
theorem add_succeeds_iff (s : Selection) (pattern : String) :
    (∃ s', s.add pattern = .ok s') ↔ ∀ text ∈ textsOf pattern, Glob.WellBracketed text := by
  have hread : ∀ (texts : List Char) (more : List Glob → Selection),
      (∃ s', (do let globs ← globsOf texts; return more globs) = .ok s') ↔
        ∀ text ∈ Glob.expandBraces texts, Glob.WellBracketed text := by
    intro texts more
    rw [exists_bind_eq_ok, ← globsOf_succeeds_iff]
    constructor
    · rintro ⟨globs, hglobs, -⟩
      exact ⟨globs, hglobs⟩
    · rintro ⟨globs, hglobs⟩
      exact ⟨globs, hglobs, _, rfl⟩
  unfold add textsOf
  split
  · next hblank => simp [hblank]
  · next rest hexcluded =>
      rw [hread, hexcluded, if_neg (List.cons_ne_nil _ _)]
      rfl
  · next hne hplain =>
      rw [hread, if_neg hne]
      have hfirst :
          (Text.strip pattern.toList).dropWhile (· = '!') = Text.strip pattern.toList := by
        cases hstrip : Text.strip pattern.toList with
        | nil => rfl
        | cons c rest =>
            rw [List.dropWhile_cons, if_neg]
            intro hc
            exact hplain rest (by rw [hstrip, of_decide_eq_true hc])
      rw [hfirst]

theorem ofPatterns_succeeds_iff (patterns : List String) :
    (∃ s, ofPatterns patterns = .ok s) ↔
      ∀ pattern ∈ patterns, ∀ text ∈ textsOf pattern, Glob.WellBracketed text := by
  have hgeneral : ∀ s : Selection, (∃ s', patterns.foldlM add s = .ok s') ↔
      ∀ pattern ∈ patterns, ∀ text ∈ textsOf pattern, Glob.WellBracketed text := by
    induction patterns with
    | nil => simp [pure, Except.pure]
    | cons pattern patterns ih =>
        intro s
        rw [List.foldlM_cons, exists_bind_eq_ok, List.forall_mem_cons, ← add_succeeds_iff s]
        constructor
        · rintro ⟨s', hs', hrest⟩
          exact ⟨⟨s', hs'⟩, (ih s').mp hrest⟩
        · rintro ⟨⟨s', hs'⟩, hrest⟩
          exact ⟨s', hs', (ih s').mpr hrest⟩
  exact hgeneral ⟨[], []⟩

end Selection

/-! ## Ignore files -/

namespace Disk

variable {c : Char}

theorem mem_of_mem_entryGlobs {entry glob : List Char} (hglob : glob ∈ entryGlobs entry)
    (h : c ∈ glob) (hstar : c ≠ '*') (hslash : c ≠ '/') : c ∈ entry := by
  unfold entryGlobs at hglob
  dsimp only at hglob
  split at hglob
  · obtain rfl := List.mem_singleton.mp hglob
    split at h
    · exact h
    · simpa [hstar, hslash] using h
  · split at hglob
    · obtain rfl := List.mem_singleton.mp hglob
      simpa [hstar, hslash] using h
    · rcases List.mem_cons.mp hglob with rfl | hglob
      · simpa [hstar, hslash] using h
      · obtain rfl := List.mem_singleton.mp hglob
        simpa [hstar, hslash] using h

/-- Of an opening bracket in an excluding pattern the line had one. -/
theorem bracket_mem_of_mem_ignoreLine {line : List Char} {pattern : String}
    (hpattern : pattern ∈ ignoreLine line) (h : '[' ∈ pattern.toList) : '[' ∈ line := by
  unfold ignoreLine at hpattern
  split at hpattern
  · cases hpattern
  · cases hpattern
  · cases hpattern
  · obtain ⟨glob, hglob, rfl⟩ := List.mem_map.mp hpattern
    rw [String.toList_ofList, List.mem_cons] at h
    have hentry := mem_of_mem_entryGlobs hglob (h.resolve_left (by decide)) (by decide) (by decide)
    exact Text.mem_of_mem_strip ((List.dropWhile_sublist _).subset hentry)

theorem bracket_mem_of_mem_ignorePatterns {content : List Char} {pattern : String}
    (hpattern : pattern ∈ ignorePatterns content) (h : '[' ∈ pattern.toList) : '[' ∈ content := by
  obtain ⟨line, hline, hpattern⟩ := List.mem_flatMap.mp hpattern
  exact Text.mem_of_mem_breakLines hline (bracket_mem_of_mem_ignoreLine hpattern h) (by decide)

end Disk

/-! ## Files of a category -/

namespace Category

variable {c : Config} {entries : List (String × Disk.Tree)} {category : Category}

theorem files_succeeds_iff : (∃ files, category.files c (.dir entries) = .ok files) ↔
    ∀ patterns ∈ category.patternGroups c (.dir entries), ∀ pattern ∈ patterns,
      ∀ text ∈ Selection.textsOf pattern, Glob.WellBracketed text := by
  have hgroup : ∀ patterns : List String,
      (∃ found, Disk.filesMatching patterns (some (.dir entries)) = .ok found) ↔
        ∀ pattern ∈ patterns, ∀ text ∈ Selection.textsOf pattern, Glob.WellBracketed text := by
    intro patterns
    rw [Disk.filesMatching, Glob.exists_map_eq_ok, Selection.ofPatterns_succeeds_iff]
  simp only [← hgroup]
  rw [← exists_mapM_eq_ok, files, exists_bind_eq_ok]
  constructor
  · rintro ⟨groups, hgroups, -⟩
    exact ⟨groups, hgroups⟩
  · rintro ⟨groups, hgroups⟩
    exact ⟨groups, hgroups, _, rfl⟩

/-- Whether an opening bracket stands in a pattern of the category, or in the ignore file if it is
read. -/
def Bracketed (c : Config) (project : Disk.Tree) (category : Category) : Prop :=
  (∃ patterns ∈ category.patterns c, ∃ pattern ∈ patterns, '[' ∈ pattern.toList) ∨
    c.ignoreFile = true ∧ ∃ data ∈ project.file? [Disk.ignoreFileName], '[' ∈ data.readTolerant

theorem bracketed_of_mem_patternGroups {project : Disk.Tree} {patterns : List String}
    {pattern : String} (hpatterns : patterns ∈ category.patternGroups c project)
    (hpattern : pattern ∈ patterns) (h : '[' ∈ pattern.toList) : Bracketed c project category := by
  obtain ⟨own, hown, rfl⟩ := List.mem_map.mp hpatterns
  rcases List.mem_append.mp hpattern with hpattern | hpattern
  · exact .inl ⟨own, hown, pattern, hpattern, h⟩
  · split at hpattern
    · next hread =>
        unfold Disk.projectIgnorePatterns at hpattern
        split at hpattern
        · next data hdata =>
            exact .inr ⟨hread, data, hdata, Disk.bracket_mem_of_mem_ignorePatterns hpattern h⟩
        · cases hpattern
    · cases hpattern

end Category

/-- A run that does not find the files of a category ends for a pattern that is no glob. -/
theorem AuditSetup.files_of_error {s : AuditSetup} {category : Category} {w : World}
    {fault : Glob.GlobFault} (h : category.files s.config (s.projectTree w) = .error fault) :
    s.files category w = (.error .badGlob, w) := by
  have hget : (get : Run World) w = (.ok w, w) := rfl
  refine (Run.bind_ok hget).trans (Run.bind_error ?_)
  rw [h]
  rfl

/-- The files of a category are found exactly when each text that its patterns and the ignore file
stand for is a glob, and always when no opening bracket stands in them. Where they are not found, a
run ends for a pattern that is no glob: this is not taken as a fault of the settings. -/
theorem files_found_iff (s : AuditSetup) (category : Category) {w : World}
    {entries : List (String × Disk.Tree)} (hproject : s.projectTree w = .dir entries) :
    ((∃ files, category.files s.config (s.projectTree w) = .ok files) ↔
      ∀ patterns ∈ category.patternGroups s.config (s.projectTree w), ∀ pattern ∈ patterns,
        ∀ text ∈ Selection.textsOf pattern, Glob.WellBracketed text) ∧
    (¬ category.Bracketed s.config (s.projectTree w) →
      ∃ files, category.files s.config (s.projectTree w) = .ok files) ∧
    ∀ fault, category.files s.config (s.projectTree w) = .error fault →
      s.files category w = (.error .badGlob, w) := by
  refine ⟨?_, ?_, fun fault => AuditSetup.files_of_error⟩
  · rw [hproject]
    exact Category.files_succeeds_iff
  · rw [hproject]
    intro hplain
    refine Category.files_succeeds_iff.mpr ?_
    intro patterns hpatterns pattern hpattern text htext
    refine Glob.wellBracketed_of_not_mem ?_
    intro hbracket
    exact hplain (Category.bracketed_of_mem_patternGroups hpatterns hpattern
      (Selection.mem_of_mem_textsOf htext hbracket))

namespace Disk

/-- A site in the current directory, and its audit with given settings. -/
def siteSetup (config : Config) : AuditSetup where
  host :=
    { cwd := .absolute ["work"], environment := [], now := "now", runId := "1"
      rulesDir := .absolute ["rules"], cloneDir := .absolute ["clone"] }
  project := .absolute ["work", "site"]
  config

/-- A site with a script and an ignore file. -/
def ignoringSite (ignored : String) : List (String × Tree) :=
  [("a.ts", .file (.text "")), (ignoreFileName, .file (.text ignored))]

def ignoringWorld (ignored : String) : World where
  volume := { tree := .dir [("work", .dir [("site", .dir (ignoringSite ignored))])] }

/-- Settings with a set in the pattern of scripts. -/
def setsConfig : Config := { Config.default with scripts := ["**/[a-c].\x7bjs,ts\x7d"] }

/-- A pattern with a set in it and a line with another are well bracketed, with the braces expanded
and with stars behind the line. -/
theorem files_found_iff_sets :
    (Category.eslint.files setsConfig (.dir (ignoringSite "[!a-z]x/\n"))).toOption = some ["a.ts"] ∧
      Glob.WellBracketed "**/[a-c].ts".toList ∧ Glob.WellBracketed "**/[!a-z]x/".toList := by
  have hfound : (Category.eslint.files setsConfig (.dir (ignoringSite "[!a-z]x/\n"))).toOption =
      some ["a.ts"] := by decide +kernel
  have hfiles : ∃ files, Category.eslint.files setsConfig (.dir (ignoringSite "[!a-z]x/\n")) =
      .ok files := by
    cases hresult : Category.eslint.files setsConfig (.dir (ignoringSite "[!a-z]x/\n")) with
    | ok files => exact ⟨files, rfl⟩
    | error fault =>
        rw [hresult] at hfound
        cases hfound
  have hglobs :=
    (files_found_iff (siteSetup setsConfig) .eslint (w := ignoringWorld "[!a-z]x/\n") rfl).1.mp
    hfiles
  have hgroup : ["**/[a-c].\x7bjs,ts\x7d", "!**/[!a-z]x/"] ∈
      Category.eslint.patternGroups setsConfig (.dir (ignoringSite "[!a-z]x/\n")) := by
        decide +kernel
  exact ⟨hfound, hglobs _ hgroup "**/[a-c].\x7bjs,ts\x7d" (by decide) _ (by decide +kernel),
    hglobs _ hgroup "!**/[!a-z]x/" (by decide) _ (by decide +kernel)⟩

theorem files_of_badLine {line : String}
    (h : (Category.eslint.files Config.default (.dir (ignoringSite line))).toOption = none) :
    (siteSetup Config.default).files .eslint (ignoringWorld line) =
      (.error .badGlob, ignoringWorld line) := by
  cases hfiles : Category.eslint.files Config.default (.dir (ignoringSite line)) with
  | ok files =>
      rw [hfiles] at h
      cases h
  | error fault => exact AuditSetup.files_of_error (s := siteSetup Config.default) hfiles

/-- With the default settings one line of an ignore file is enough: a range that runs backwards, a
set that is never ended, or one that is cut short by directories. The audit ends, and not for its
settings. -/
theorem ignore_line_ends_enumeration :
    (siteSetup Config.default).files .eslint (ignoringWorld "[z-a]") =
        (.error .badGlob, ignoringWorld "[z-a]") ∧
      (siteSetup Config.default).files .eslint (ignoringWorld "[]") =
        (.error .badGlob, ignoringWorld "[]") ∧
      (siteSetup Config.default).files .eslint (ignoringWorld "[!]**/x") =
        (.error .badGlob, ignoringWorld "[!]**/x") := by
  refine ⟨files_of_badLine ?_, files_of_badLine ?_, files_of_badLine ?_⟩
  · decide +kernel
  · decide +kernel
  · decide +kernel

end Disk

end FrontendAudit
