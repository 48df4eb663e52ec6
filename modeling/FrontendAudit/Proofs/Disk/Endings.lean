import FrontendAudit.Proofs.Disk.Filled
import FrontendAudit.Proofs.Glob.Language
import FrontendAudit.Report.Name

/-!
# Files that end otherwise than patterns

A glob whose last piece is a character of some set covers no text that ends in another one
(`Glob.not_covers_of_endsOtherThan`). The patterns that include files by default all end so, and an
ignore file includes nothing. So by default no category looks at the report of a category, wherever
it lies in the project (`Category.not_looksAt_report_of_default`).
-/

namespace FrontendAudit

/-! ## Globs -/

namespace Glob

/-- Whether the last piece of a glob is for one character, but not for a certain one. -/
def endsOtherThan (last : Char) (g : Glob) : Bool :=
  match g.getLast? with
  | some (.one k) => !k.has last
  | _ => false

theorem not_describes_of_endsOtherThan {g : Glob} {last : Char} (h : endsOtherThan last g = true)
    (s : List Char) : ¬ Describes g (s ++ [last]) := by
  unfold endsOtherThan at h
  split at h
  · next k hlast =>
      obtain ⟨front, rfl⟩ := List.getLast?_eq_some_iff.mp hlast
      intro hs
      obtain ⟨a, b, heq, -, c, rest, rfl, hc, rfl⟩ := describes_append.mp hs
      -- the last piece has taken the last character
      obtain ⟨-, hcs⟩ := List.append_inj' heq rfl
      obtain rfl : last = c := List.singleton_inj.mp hcs
      rw [hc] at h
      cases h
  · cases h

theorem not_covers_of_endsOtherThan {g : Glob} {last : Char} (h : endsOtherThan last g = true)
    (hlast : last ≠ '\n') (s : List Char) : covers g (s ++ [last]) = false := by
  rw [Bool.eq_false_iff, ne_eq, covers_iff]
  rintro ⟨a, ha, rfl | heq⟩
  · exact not_describes_of_endsOtherThan h s ha
  · obtain ⟨-, hcs⟩ := List.append_inj' heq rfl
    exact hlast (List.singleton_inj.mp hcs)

end Glob

/-! ## Patterns -/

namespace Selection

variable {s s' : Selection} {patterns : List String} {pattern : String} {g : Glob}

/-- A glob that adding a pattern includes is one of the pattern's, which then is not marked. -/
theorem mem_includes_add (h : s.add pattern = .ok s') (hg : g ∈ s'.includes) :
    g ∈ s.includes ∨ (Text.strip pattern.toList).head? ≠ some '!' ∧
      ∃ globs, globsOf (Text.strip pattern.toList) = .ok globs ∧ g ∈ globs := by
  unfold add at h
  split at h
  · obtain rfl := Except.ok.inj h
    exact .inl hg
  · obtain ⟨globs, -, hadded⟩ := bind_eq_ok.mp h
    obtain rfl := Except.ok.inj hadded
    exact .inl hg
  · next hplain =>
      obtain ⟨globs, hglobs, hadded⟩ := bind_eq_ok.mp h
      obtain rfl := Except.ok.inj hadded
      rcases List.mem_append.mp hg with hg | hg
      · exact .inl hg
      · refine .inr ⟨fun hhead => ?_, globs, hglobs, hg⟩
        obtain ⟨rest, hstrip⟩ := List.head?_eq_some_iff.mp hhead
        exact hplain rest hstrip

/-- An included glob is one of a pattern that is not marked. -/
theorem exists_of_mem_includes (h : ofPatterns patterns = .ok s) (hg : g ∈ s.includes) :
    ∃ pattern ∈ patterns, (Text.strip pattern.toList).head? ≠ some '!' ∧
      ∃ globs, globsOf (Text.strip pattern.toList) = .ok globs ∧ g ∈ globs := by
  -- in general they are added to a selection that includes something already
  have hfrom : ∀ start : Selection, patterns.foldlM add start = .ok s → g ∈ start.includes ∨
      ∃ pattern ∈ patterns, (Text.strip pattern.toList).head? ≠ some '!' ∧
        ∃ globs, globsOf (Text.strip pattern.toList) = .ok globs ∧ g ∈ globs := by
    clear h
    induction patterns with
    | nil =>
        intro start hs
        obtain rfl : start = s := Except.ok.inj hs
        exact .inl hg
    | cons pattern patterns ih =>
        intro start hs
        rw [List.foldlM_cons] at hs
        obtain ⟨next, hnext, hrest⟩ := bind_eq_ok.mp hs
        rcases ih next hrest with hmem | ⟨other, hother, hincludes⟩
        · rcases mem_includes_add hnext hmem with hmem | hincludes
          · exact .inl hmem
          · exact .inr ⟨pattern, List.mem_cons_self, hincludes⟩
        · exact .inr ⟨other, List.mem_cons_of_mem pattern hother, hincludes⟩
  rcases hfrom ⟨[], []⟩ h with hmem | hfound
  · cases hmem
  · exact hfound

/-- Whether all patterns that include files end otherwise than in a certain character. -/
def endOtherThan (last : Char) (patterns : List String) : Bool :=
  patterns.all fun pattern => (Text.strip pattern.toList).head? = some '!' ||
    (globsOf (Text.strip pattern.toList)).toOption.all (·.all (Glob.endsOtherThan last))

theorem endsOtherThan_of_mem_includes {last : Char} (hpatterns : endOtherThan last patterns = true)
    {ignored : List String}
    (hignored : ∀ pattern ∈ ignored, (Text.strip pattern.toList).head? = some '!')
    (h : ofPatterns (patterns ++ ignored) = .ok s) (hg : g ∈ s.includes) :
    Glob.endsOtherThan last g = true := by
  obtain ⟨pattern, hpattern, hplain, globs, hglobs, hmem⟩ := exists_of_mem_includes h hg
  rcases List.mem_append.mp hpattern with hpattern | hpattern
  · have hends := List.all_eq_true.mp hpatterns pattern hpattern
    rw [Bool.or_eq_true, decide_eq_true_eq, hglobs] at hends
    exact List.all_eq_true.mp (hends.resolve_left hplain) g hmem
  · exact absurd (hignored pattern hpattern) hplain

end Selection

/-! ## Ignore files -/

namespace Disk

theorem head?_strip_cons {c : Char} (hc : Text.isBlank c = false) (s : List Char) :
    (Text.strip (c :: s)).head? = some c := by
  rw [Text.strip, List.dropWhile_cons_of_neg (by simp [hc]), Text.trimEnd_cons, hc, Bool.and_false]
  rfl

/-- All that an ignore file says is marked as excluding. -/
theorem head?_of_mem_ignorePatterns {content : List Char} :
    ∀ pattern ∈ ignorePatterns content, (Text.strip pattern.toList).head? = some '!' := by
  intro pattern hpattern
  obtain ⟨line, -, hpattern⟩ := List.mem_flatMap.mp hpattern
  unfold ignoreLine at hpattern
  split at hpattern
  · cases hpattern
  · cases hpattern
  · cases hpattern
  · obtain ⟨glob, -, rfl⟩ := List.mem_map.mp hpattern
    rw [String.toList_ofList]
    exact head?_strip_cons (by decide) glob

theorem toList_relativePath_concat (names : List String) (name : String) :
    ∃ front, (relativePath (names ++ [name])).toList = front ++ name.toList := by
  rw [relativePath, List.foldl_append]
  show ∃ front, (pathBelow (names.foldl pathBelow "") name).toList = _
  unfold pathBelow
  split
  · exact ⟨[], rfl⟩
  · exact ⟨(names.foldl pathBelow "" ++ "/").toList, String.toList_append⟩

end Disk

/-! ## Files of a category -/

open Disk (Tree)

/-- The settings have the default patterns. -/
structure Config.DefaultPatterns (c : Config) : Prop where
  scripts : c.scripts = defaultScripts
  pages : c.pages = defaultPages
  styles : c.styles = defaultStyles
  assets : c.assets = defaultAssets

namespace Category

variable {c : Config} {category : Category}

/-- A category does not look at files that end otherwise than its patterns, whatever the ignore file
says. -/
theorem not_looksAt_of_endOtherThan {last : Char} (hlast : last ≠ '\n')
    (h : ∀ patterns ∈ category.patterns c, Selection.endOtherThan last patterns = true)
    (project : Tree) (names : List String) {name : String}
    (hname : name.toList.getLast? = some last) :
    ¬ category.LooksAt c project (names ++ [name]) := by
  rintro ⟨group, hgroup, s, hselection, hfinds⟩
  obtain ⟨patterns, hpatterns, rfl⟩ := List.mem_map.mp hgroup
  have hselects : s.selects (Disk.relativePath (names ++ [name])) = true := by
    simp only [Selection.finds, Bool.and_eq_true] at hfinds
    exact hfinds.2
  rw [Selection.selects, Bool.and_eq_true, List.any_eq_true] at hselects
  obtain ⟨⟨g, hg, hcovers⟩, -⟩ := hselects
  -- the glob that covers the file is included, so it is not one of the ignore file
  have hends : Glob.endsOtherThan last g = true := by
    refine Selection.endsOtherThan_of_mem_includes (h patterns hpatterns) ?_ hselection hg
    intro pattern hpattern
    split at hpattern
    · unfold Disk.projectIgnorePatterns at hpattern
      split at hpattern
      · exact Disk.head?_of_mem_ignorePatterns pattern hpattern
      · cases hpattern
    · cases hpattern
  obtain ⟨front, hfront⟩ := Disk.toList_relativePath_concat names name
  obtain ⟨init, hinit⟩ := List.getLast?_eq_some_iff.mp hname
  rw [hfront, hinit, ← List.append_assoc, Glob.not_covers_of_endsOtherThan hends hlast] at hcovers
  cases hcovers

/-- By default no category looks at the report of a category. -/
theorem not_looksAt_report_of_default (h : c.DefaultPatterns) (project : Tree) (names : List String)
    (other : Category) : ¬ category.LooksAt c project (names ++ [Report.nameOf other.name]) := by
  have hlast : (Report.nameOf other.name).toList.getLast? = some 'n' := by
    cases other <;> decide +kernel
  refine not_looksAt_of_endOtherThan (by decide) ?_ project names hlast
  have hdefault : ∀ patterns ∈ [Config.defaultScripts, Config.defaultPages, Config.defaultStyles,
      Config.defaultAssets], Selection.endOtherThan 'n' patterns = true := by
    decide +kernel
  intro patterns hpatterns
  refine hdefault patterns ?_
  cases category with
  | accessibility | eslint | stylelint | security | performance =>
      simp only [Category.patterns, h.scripts, h.pages, h.styles, h.assets] at hpatterns
      grind

end Category

end FrontendAudit
