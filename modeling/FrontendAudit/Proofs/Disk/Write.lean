import FrontendAudit.Disk.Tree

/-!
# What a write changes

A file that was written is there, and no other file has changed: not those beside it, for which the
directories on the way are the same (`Volume.file?_write?_of_ne`), and a directory stays one.
Whether a file can be written depends on the volume, on what is in its place and on the files in the
place of directories (`Volume.isSome_write?_iff`); so a write does not keep another from being
possible, unless one lies below the other (`Volume.isSome_write?_after`). Whatever writing keeps, so
does putting text behind a file (`Volume.append?_induction`).
-/

namespace FrontendAudit.Disk

namespace Tree

theorem named?_setEntry_self (name : String) (t : Tree) (entries : List (String × Tree)) :
    named? name (setEntry name t entries) = some t := by
  induction entries with
  | nil => simp [setEntry, named?]
  | cons e entries ih =>
      by_cases h : e.1 = name
      · simp [setEntry, named?, h]
      · simpa [setEntry, named?, h] using ih

theorem named?_setEntry_of_ne {name other : String} (h : other ≠ name) (t : Tree)
    (entries : List (String × Tree)) :
    named? other (setEntry name t entries) = named? other entries := by
  induction entries with
  | nil => simp [setEntry, named?, Ne.symm h]
  | cons e entries ih =>
      by_cases he : e.1 = name
      · simp [setEntry, named?, he, Ne.symm h]
      · by_cases ho : e.1 = other
        · simp [setEntry, named?, ho, h]
        · simpa [setEntry, named?, he, ho] using ih

/-- What is below a path is found step by step. -/
theorem at?_append (path below : List String) (t : Tree) :
    t.at? (path ++ below) = (t.at? path).bind (at? below) := by
  induction path generalizing t with
  | nil => rfl
  | cons name path ih =>
      cases t with
      | file d => rfl
      | dir entries =>
          show (named? name entries).bind (at? (path ++ below)) =
            ((named? name entries).bind (at? path)).bind (at? below)
          rw [Option.bind_assoc]
          congr 1
          funext t
          exact ih t

theorem at?_file_of_ne_nil {d : FileData} {path : List String} (h : path ≠ []) :
    (Tree.file d).at? path = none := by
  cases path with
  | nil => exact absurd rfl h
  | cons name path => rfl

theorem file?_eq_none {t : Tree} {path : List String} (h : ∀ d, t.at? path ≠ some (.file d)) :
    t.file? path = none := by
  rw [file?]
  split
  · next d hd => exact absurd hd (h d)
  · rfl

theorem put?_cons_eq_some {t t' new : Tree} {name : String} {path : List String} :
    t.put? (name :: path) new = some t' ↔ ∃ entries below, t = .dir entries ∧
      ((named? name entries).getD (.dir [])).put? path new = some below ∧
      t' = .dir (setEntry name below entries) := by
  cases t with
  | file d =>
      constructor
      · intro h
        cases h
      · rintro ⟨_, _, h, -⟩
        cases h
  | dir entries =>
      rw [put?, Option.map_eq_some_iff]
      constructor
      · rintro ⟨below, hbelow, rfl⟩
        exact ⟨entries, below, rfl, hbelow, rfl⟩
      · rintro ⟨_, below, hentries, hbelow, rfl⟩
        obtain rfl := Tree.dir.inj hentries
        exact ⟨below, hbelow, rfl⟩

section

variable {t t' new : Tree} {path : List String}

/-- What was put at a path is there, with all that is below it. -/
theorem at?_put?_append (h : t.put? path new = some t') (below : List String) :
    t'.at? (path ++ below) = new.at? below := by
  induction path generalizing t t' with
  | nil =>
      obtain rfl : new = t' := Option.some.inj h
      rfl
  | cons name path ih =>
      obtain ⟨entries, t₁, rfl, hput, rfl⟩ := put?_cons_eq_some.mp h
      show (named? name (setEntry name t₁ entries)).bind (at? (path ++ below)) = _
      rw [named?_setEntry_self]
      exact ih hput

/-- On the way to what was put there are directories; before there was nothing but directories,
either. -/
theorem at?_put?_above {front back : List String} (h : t.put? (front ++ back) new = some t')
    (hback : back ≠ []) :
    (∃ entries, t'.at? front = some (.dir entries)) ∧ ∀ d, t.at? front ≠ some (.file d) := by
  induction front generalizing t t' with
  | nil =>
      obtain ⟨name, back, rfl⟩ := List.exists_cons_of_ne_nil hback
      obtain ⟨entries, t₁, rfl, -, rfl⟩ := put?_cons_eq_some.mp h
      refine ⟨⟨_, rfl⟩, ?_⟩
      intro d hd
      cases hd
  | cons name front ih =>
      obtain ⟨entries, t₁, rfl, hput, rfl⟩ := put?_cons_eq_some.mp h
      obtain ⟨hafter, hbefore⟩ := ih hput
      constructor
      · show ∃ entries', (named? name (setEntry name t₁ entries)).bind (at? front) = _
        rw [named?_setEntry_self]
        exact hafter
      · intro d hd
        cases hnamed : named? name entries with
        | none =>
            rw [at?, hnamed] at hd
            cases hd
        | some t₂ =>
            rw [at?, hnamed] at hd
            rw [hnamed] at hbefore
            exact hbefore d hd

/-- What lies neither above nor below a path has not changed. -/
theorem at?_put?_of_apart (h : t.put? path new = some t') {other : List String}
    (habove : ¬ other <+: path) (hbelow : ¬ path <+: other) : t'.at? other = t.at? other := by
  induction path generalizing t t' other with
  | nil => exact absurd List.nil_prefix hbelow
  | cons name path ih =>
      obtain ⟨entries, t₁, rfl, hput, rfl⟩ := put?_cons_eq_some.mp h
      cases other with
      | nil => exact absurd List.nil_prefix habove
      | cons name' other =>
          show (named? name' (setEntry name t₁ entries)).bind (at? other) =
            (named? name' entries).bind (at? other)
          by_cases hname : name' = name
          · subst hname
            rw [List.cons_prefix_cons, not_and] at habove hbelow
            rw [named?_setEntry_self]
            have hrest := ih hput (habove rfl) (hbelow rfl)
            cases hnamed : named? name' entries with
            | none =>
                -- a directory was made, in which there is nothing but the way to what was put
                rw [hnamed] at hrest
                obtain ⟨next, other, rfl⟩ := List.exists_cons_of_ne_nil
                  (show other ≠ [] by rintro rfl; exact habove rfl List.nil_prefix)
                exact hrest
            | some t₂ =>
                rw [hnamed] at hrest
                exact hrest
          · rw [named?_setEntry_of_ne hname]

/-- Something can be put at a path when no file is in the place of a directory. -/
theorem isSome_put?_iff : (t.put? path new).isSome = true ↔
    ∀ front back, path = front ++ back → back ≠ [] → t.isFile front = false := by
  constructor
  · intro h front back hpath hback
    obtain ⟨t', hput⟩ := Option.isSome_iff_exists.mp h
    subst hpath
    rw [isFile, file?_eq_none (at?_put?_above hput hback).2]
    rfl
  · intro h
    induction path generalizing t with
    | nil => rfl
    | cons name path ih =>
        cases t with
        | file d => exact Bool.noConfusion (h [] (name :: path) rfl (List.cons_ne_nil _ _))
        | dir entries =>
            rw [put?, Option.isSome_map]
            refine ih fun front back hpath hback => ?_
            have hfile := h (name :: front) back (by rw [hpath]; rfl) hback
            cases hnamed : named? name entries with
            | none =>
                -- an empty directory is made
                rw [Option.getD_none]
                cases front <;> rfl
            | some t₂ =>
                rw [isFile, file?, at?, hnamed] at hfile
                exact hfile

end

end Tree

namespace Volume

variable {v v' : Volume} {path : List String} {d : FileData}

theorem write?_eq_some_iff :
    v.write? path d = some v' ↔ v.refuses path = false ∧ v.tree.isDir path = false ∧
      ∃ tree, v.tree.put? path (.file d) = some tree ∧ v' = { v with tree } := by
  rw [write?]
  constructor
  · intro h
    split at h
    · cases h
    · next hcond =>
        rw [Bool.not_eq_true, Bool.or_eq_false_iff] at hcond
        obtain ⟨tree, hput, rfl⟩ := Option.map_eq_some_iff.mp h
        exact ⟨hcond.1, hcond.2, tree, hput, rfl⟩
  · rintro ⟨hrefuses, hdir, tree, hput, rfl⟩
    rw [hrefuses, hdir, hput]
    rfl

/-- A file can be written unless the volume refuses it, a directory is in its place, or a file in
the place of a directory. -/
theorem isSome_write?_iff :
    (v.write? path d).isSome = true ↔ v.refuses path = false ∧ v.tree.isDir path = false ∧
      ∀ front back, path = front ++ back → back ≠ [] → v.tree.isFile front = false := by
  rw [← @Tree.isSome_put?_iff v.tree (.file d) path, Option.isSome_iff_exists,
    Option.isSome_iff_exists]
  simp only [write?_eq_some_iff]
  constructor
  · rintro ⟨_, hrefuses, hdir, tree, hput, -⟩
    exact ⟨hrefuses, hdir, tree, hput⟩
  · rintro ⟨hrefuses, hdir, tree, hput⟩
    exact ⟨_, hrefuses, hdir, tree, hput, rfl⟩

theorem refuses_write? (h : v.write? path d = some v') : v'.refuses = v.refuses := by
  obtain ⟨-, -, tree, -, rfl⟩ := write?_eq_some_iff.mp h
  rfl

theorem file?_write?_self (h : v.write? path d = some v') : v'.tree.file? path = some d := by
  obtain ⟨-, -, tree, hput, rfl⟩ := write?_eq_some_iff.mp h
  have hat := Tree.at?_put?_append hput []
  rw [List.append_nil] at hat
  rw [Tree.file?, hat]
  rfl

/-- There was no directory where a file is written, and so nothing below. -/
theorem at?_below_write? (h : v.write? path d = some v') {below : List String} (hne : below ≠ []) :
    v.tree.at? (path ++ below) = none := by
  obtain ⟨-, hdir, -⟩ := write?_eq_some_iff.mp h
  rw [Tree.at?_append]
  cases hat : v.tree.at? path with
  | none => rfl
  | some t =>
      cases t with
      | file d' => exact Tree.at?_file_of_ne_nil hne
      | dir entries =>
          rw [Tree.isDir, hat] at hdir
          cases hdir

/-- A write changes no other file. -/
theorem file?_write?_of_ne (h : v.write? path d = some v') {other : List String}
    (hne : other ≠ path) : v'.tree.file? other = v.tree.file? other := by
  have hwrite := write?_eq_some_iff.mp h
  obtain ⟨-, -, tree, hput, rfl⟩ := hwrite
  by_cases habove : other <+: path
  · -- on the way to the file there are only directories
    obtain ⟨back, rfl⟩ := habove
    have hback : back ≠ [] := by
      rintro rfl
      exact hne (List.append_nil other).symm
    obtain ⟨⟨entries, hafter⟩, hbefore⟩ := Tree.at?_put?_above hput hback
    rw [Tree.file?_eq_none hbefore, Tree.file?, hafter]
  by_cases hbelow : path <+: other
  · -- below the file there is nothing
    obtain ⟨below, rfl⟩ := hbelow
    have hbelow : below ≠ [] := by
      rintro rfl
      exact hne (List.append_nil path)
    rw [Tree.file?, Tree.file?, Tree.at?_put?_append hput, at?_below_write? h hbelow,
      Tree.at?_file_of_ne_nil hbelow]
  · rw [Tree.file?, Tree.file?, Tree.at?_put?_of_apart hput habove hbelow]

/-- A directory that a write does not make is one before and after. -/
theorem isDir_write? (h : v.write? path d = some v') {other : List String}
    (habove : other <+: path → other = path) : v'.tree.isDir other = v.tree.isDir other := by
  have hwrite := write?_eq_some_iff.mp h
  obtain ⟨-, hdir, tree, hput, rfl⟩ := hwrite
  by_cases hbelow : path <+: other
  · obtain ⟨below, rfl⟩ := hbelow
    rw [Tree.isDir, Tree.at?_put?_append hput]
    cases below with
    | nil => rw [List.append_nil, hdir]; rfl
    | cons name below => rw [Tree.isDir, at?_below_write? h (List.cons_ne_nil _ _)]; rfl
  · have hnot : ¬ other <+: path := fun hp => hbelow (habove hp ▸ List.prefix_refl _)
    rw [Tree.isDir, Tree.isDir, Tree.at?_put?_of_apart hput hnot hbelow]

/-- A directory in which a write puts nothing is as it was. -/
theorem at?_write?_of_outside (h : v.write? path d = some v') {directory : List String}
    {entries : List (String × Tree)} (hdirectory : v.tree.at? directory = some (.dir entries))
    (houtside : ¬ directory <+: path) : v'.tree.at? directory = some (.dir entries) := by
  have hwrite := write?_eq_some_iff.mp h
  obtain ⟨-, -, tree, hput, rfl⟩ := hwrite
  by_cases habove : path <+: directory
  · -- below a file there is no directory
    obtain ⟨back, rfl⟩ := habove
    have hback : back ≠ [] := by
      rintro rfl
      exact houtside ⟨[], by rw [List.append_nil, List.append_nil]⟩
    rw [at?_below_write? h hback] at hdirectory
    cases hdirectory
  · exact (Tree.at?_put?_of_apart hput houtside habove).trans hdirectory

/-- A write does not keep a file from being written, unless one lies below the other. -/
theorem isSome_write?_after (h : v.write? path d = some v') {other : List String} {d' : FileData}
    (habove : other <+: path → other = path) (hbelow : path <+: other → other = path) :
    (v'.write? other d').isSome = (v.write? other d').isSome := by
  rw [Bool.eq_iff_iff, isSome_write?_iff, isSome_write?_iff, refuses_write? h,
    isDir_write? h habove]
  have hfiles : ∀ front back, other = front ++ back → back ≠ [] →
      v'.tree.isFile front = v.tree.isFile front := by
    intro front back hother hback
    have hne : front ≠ path := by
      rintro rfl
      have := hbelow ⟨back, hother.symm⟩
      rw [hother] at this
      exact hback (List.append_right_eq_self.mp this)
    rw [Tree.isFile, Tree.isFile, file?_write?_of_ne h hne]
  constructor <;> rintro ⟨hrefuses, hdir, hfile⟩ <;>
    refine ⟨hrefuses, hdir, fun front back hother hback => ?_⟩
  · rw [← hfiles front back hother hback]
    exact hfile front back hother hback
  · rw [hfiles front back hother hback]
    exact hfile front back hother hback

/-! ## Appending -/

/-- Text is put behind what a file holds by writing the file. -/
theorem append?_of_file? (h : v.tree.file? path = some d) (more : String) :
    v.append? path more = v.write? path (d.append more) := by
  rw [append?, h, Option.bind_some]

/-- What writing keeps is kept when text is put behind a file, whether it can be or not. -/
theorem append?_induction {P : Volume → Prop} (hv : P v)
    (hwrite : ∀ d, P ((v.write? path d).getD v)) (more : String) :
    P ((v.append? path more).getD v) := by
  rw [append?]
  cases v.tree.file? path with
  | none => exact hv
  | some d => exact hwrite (d.append more)

end Volume

end FrontendAudit.Disk
