import FrontendAudit.Proofs.Audit.Steps

/-!
# Audits in worlds that are alike

Two worlds are alike when the outside answers the same in both and their volumes differ at most in
the files at some places, where reports are written (`World.Alike`). An audit that looks at none of
these places (`AuditSetup.Undisturbed`) finds the same in both, or fails in both in the same way,
and leaves worlds that are alike (`Audit.run_alike`); when it is run has no part in that.
-/

namespace FrontendAudit

open Disk (Tree Volume)
open Run (Agrees KeptByNotes)

/-- Worlds whose outside gives the same answers, and whose volumes come from one by writing files in
some places. -/
structure World.Alike (v : Volume) (places : List (List String)) (w w' : World) : Prop where
  filled : v.Filled places w.volume
  filled' : v.Filled places w'.volume
  toolRuns : w.toolRuns = w'.toolRuns
  toolOtherwise : w.toolOtherwise = w'.toolOtherwise
  pages : w.pages = w'.pages
  service : w.service = w'.service

namespace World.Alike

variable {v : Volume} {places : List (List String)}

/-! ## The outside -/

theorem keptByNotes : KeptByNotes (Alike v places) :=
  fun _ _ _ _ h => ⟨h.filled, h.filled', h.toolRuns, h.toolOtherwise, h.pages, h.service⟩

theorem fetch (url : String) : Agrees (Alike v places) (Run.act (World.fetch url)) := by
  intro w w' h
  obtain ⟨hanswer, hpages⟩ := Run.fetch_pages url h.pages
  exact ⟨congrArg Except.ok hanswer, h.filled, h.filled', h.toolRuns, h.toolOtherwise, hpages,
    h.service⟩

theorem runTool (tool path : String) :
    Agrees (Alike v places) (Run.act (World.runTool tool path)) := by
  intro w w' h
  constructor
  · show Except.ok (World.runTool tool path w).1 = Except.ok (World.runTool tool path w').1
    simp only [World.runTool, h.toolRuns, h.toolOtherwise]
  · refine ⟨h.filled, h.filled', ?_, h.toolOtherwise, h.pages, h.service⟩
    show (World.runTool tool path w).2.toolRuns = (World.runTool tool path w').2.toolRuns
    simp only [World.runTool, World.note, h.toolRuns, h.toolOtherwise]

theorem post (request : Post) : Agrees (Alike v places) (Run.act (World.post request)) := by
  intro w w' h
  constructor
  · show Except.ok (World.post request w).1 = Except.ok (World.post request w').1
    simp only [World.post, h.service]
  · refine ⟨h.filled, h.filled', h.toolRuns, h.toolOtherwise, h.pages, ?_⟩
    show (World.post request w).2.service = (World.post request w').2.service
    simp only [World.post, World.note, h.service]

/-! ## Files -/

variable {w w' : World}

theorem file?_eq (h : Alike v places w w') {path : List String} (hpath : path ∉ places) :
    w.volume.tree.file? path = w'.volume.tree.file? path :=
  (h.filled.file?_eq hpath).trans (h.filled'.file?_eq hpath).symm

/-- Worlds stay alike whatever is written in one of the places, and it can be written in both or in
neither. -/
theorem write (h : Alike v places w w') (hapart : Disk.Apart places) {place : List String}
    (hplace : place ∈ places) (d d' : Disk.FileData) :
    (w.volume.write? place d).isSome = (w'.volume.write? place d').isSome ∧
      Alike v places { w with volume := (w.volume.write? place d).getD w.volume }
        { w' with volume := (w'.volume.write? place d').getD w'.volume } := by
  refine ⟨?_, h.filled.getD hplace d, h.filled'.getD hplace d', h.toolRuns,
    h.toolOtherwise, h.pages, h.service⟩
  rw [h.filled.isSome_write?_eq hapart hplace, h.filled'.isSome_write?_eq hapart hplace,
    Bool.eq_iff_iff, Disk.Volume.isSome_write?_iff, Disk.Volume.isSome_write?_iff]

/-- Worlds stay alike whatever is put behind the files in one of the places. -/
theorem append (h : Alike v places w w') {place : List String} (hplace : place ∈ places)
    (more : String) :
    Alike v places { w with volume := (w.volume.append? place more).getD w.volume }
      { w' with volume := (w'.volume.append? place more).getD w'.volume } :=
  ⟨h.filled.append hplace more, h.filled'.append hplace more, h.toolRuns, h.toolOtherwise, h.pages,
    h.service⟩

end World.Alike

/-- An audit of a category looks at none of the places where reports are written, and writes nowhere
else. -/
structure AuditSetup.Undisturbed (s : AuditSetup) (v : Volume) (entries : List (String × Tree))
    (places : List (List String)) (category : Category) : Prop where
  resolved : ∃ p : Path, s.project = p.resolve s.host.cwd
  directory : v.tree.at? s.project.parts = some (.dir entries)
  named : ∀ names ∈ (Tree.dir entries).paths, ∀ name ∈ names, IsFileName name
  unseen : ∀ names, names ≠ [] → s.project.parts ++ names ∈ places →
    ¬ category.LooksAt s.config (.dir entries) names
  unread : ∀ name ∈ [Disk.ignoreFileName, "package.json"], s.project.parts ++ [name] ∉ places
  apart : Disk.Apart places
  stream : ∀ directory, s.config.streamIssues = true → s.reportDir = some directory →
    s.host.locate (IssueLog.streamPath directory category.name) ∈ places
  report : ∀ directory, s.reportDir = some directory →
    s.host.locate (Report.categoryPath directory category.name) ∈ places

namespace AuditSetup

variable {s : AuditSetup} {v : Volume} {entries : List (String × Tree)}
  {places : List (List String)} {category : Category} {w w' : World}

open World (Alike)

theorem Undisturbed.locate_project (h : s.Undisturbed v entries places category) :
    s.host.locate s.project = s.project.parts := by
  obtain ⟨p, hp⟩ := h.resolved
  rw [hp]
  exact s.host.locate_resolve p

/-! ## Finding and reading files -/

/-- A category finds the same files, whatever has been written. -/
theorem Undisturbed.files_eq (h : s.Undisturbed v entries places category)
    (hfilled : v.Filled places w.volume) :
    category.files s.config (s.projectTree w) = category.files s.config (.dir entries) := by
  obtain ⟨entries', hdirectory, -⟩ := hfilled.directory h.directory
  have hignore := h.unread _ List.mem_cons_self
  rw [projectTree, h.locate_project, hdirectory, Option.getD_some,
    Category.files_eq_of_filled hfilled h.directory hdirectory hignore h.unseen]

theorem Undisturbed.files_agrees (h : s.Undisturbed v entries places category) :
    Agrees (Alike v places) (s.files category) := by
  refine Agrees.get (fun w w' hw => ?_) fun w => (Agrees.ofExcept _ _).bind fun _ => .pure _
  rw [h.files_eq hw.filled, h.files_eq hw.filled']

/-- The files that a category finds lie elsewhere. -/
theorem Undisturbed.found_elsewhere (h : s.Undisturbed v entries places category)
    (hfilled : v.Filled places w.volume) {files : List Path} {w₁ : World}
    (hfiles : s.files category w = (.ok files, w₁)) :
    ∀ file ∈ files, s.host.locate file ∉ places ∧ file.parts ∉ places := by
  intro file hfile
  obtain ⟨names, hne, hlooks, hlocate, hparts⟩ :=
    exists_of_found h.resolved h.named (h.files_eq hfilled) hfiles file hfile
  have hout : s.project.parts ++ names ∉ places := fun hmem => h.unseen names hne hmem hlooks
  rw [hparts, hlocate]
  exact ⟨hout, hout⟩

theorem Alike.readsAlike {path : List String} (h : path ∉ places) :
    World.ReadsAlike (Alike v places) path := fun _ _ hw => hw.file?_eq h

/-- An audit that looks at none of the places sees the same in worlds that are alike. -/
theorem Undisturbed.sight (h : s.Undisturbed v entries places category) :
    s.Sight category (Alike v places) where
  notes := Alike.keptByNotes
  files := h.files_agrees
  located _ _ hw _ _ hfiles file hfile :=
    Alike.readsAlike (h.found_elsewhere hw.filled hfiles file hfile).1
  placed _ _ hw _ _ hfiles file hfile :=
    Alike.readsAlike (h.found_elsewhere hw.filled hfiles file hfile).2
  manifest _ := by
    refine Alike.readsAlike ?_
    rw [s.host.locate_child _ (by decide), h.locate_project]
    exact h.unread _ (by simp)
  fetch _ := Alike.fetch
  runTool _ _ _ := Alike.runTool _ _
  post _ := Alike.post

end AuditSetup

/-! ## Logs and reports -/

namespace Audit

open World (Alike)

variable {s : AuditSetup} {v : Volume} {entries : List (String × Tree)}
  {places : List (List String)} {category : Category} {w w' : World} {a : Audit}

/-- A log can be opened in both worlds or in neither. -/
theorem openLog_alike (h : s.Undisturbed v entries places category) (hw : Alike v places w w') :
    (openLog s category.name w).1 = (openLog s category.name w').1 ∧
      Alike v places (openLog s category.name w).2 (openLog s category.name w').2 := by
  unfold openLog
  cases hdirectory : (if s.config.streamIssues then s.reportDir else none) with
  | none => exact ⟨rfl, hw⟩
  | some directory =>
      have hstream : s.config.streamIssues = true ∧ s.reportDir = some directory := by
        split at hdirectory
        · next hstreams => exact ⟨hstreams, hdirectory⟩
        · cases hdirectory
      obtain ⟨hsame, halike⟩ := hw.write h.apart (h.stream directory hstream.1 hstream.2) (.text "")
        (.text "")
      simp only [IssueLog.new, Option.map_some, Option.bind_some, hsame]
      split
      · exact ⟨rfl, halike⟩
      · exact ⟨rfl, hw⟩
      · exact ⟨rfl, hw⟩

/-- The stream file of a category is one of the places. -/
theorem locate_stream (h : s.Undisturbed v entries places category) {path : Path}
    (hpath : s.streamFile? category.name = some path) : s.host.locate path ∈ places := by
  obtain ⟨directory, hdirectory, rfl⟩ := Option.map_eq_some_iff.mp hpath
  split at hdirectory
  · next hstreams => exact h.stream directory hstreams hdirectory
  · cases hdirectory

theorem closeLog_alike (h : s.Undisturbed v entries places category) (hw : Alike v places w w')
    (faults : Nat → Option WriteFault) {log : IssueLog}
    (hlog : log.path = s.streamFile? category.name) :
    Alike v places (closeLog s faults log w).2 (closeLog s faults log w').2 := by
  unfold closeLog
  refine World.Alike.keptByNotes _ _ _ _ ?_
  cases log.closed with
  | true => exact hw
  | false =>
      cases hpath : log.path with
      | none => exact hw
      | some path => exact hw.append (locate_stream h (hlog.symm.trans hpath)) _

/-- Reports leave worlds alike, whatever they say. -/
theorem write_alike {host : Host} {path : Path} (hplace : host.locate path ∈ places)
    (hapart : Disk.Apart places) (text text' : String) (hw : Alike v places w w') :
    Alike v places (Report.write host ⟨path, text⟩ w).2 (Report.write host ⟨path, text'⟩ w').2 := by
  obtain ⟨hsame, halike⟩ := hw.write hapart hplace (.text text) (.text text')
  unfold Report.write
  cases hwrite : w.volume.write? (host.locate path) (.text text) with
  | none =>
      -- then the other cannot be written either
      rw [hwrite, Option.isSome_none] at hsame
      have hwrite' : w'.volume.write? (host.locate path) (.text text') = none :=
        Option.isNone_iff_eq_none.mp (Option.isSome_eq_false_iff.mp hsame.symm)
      rw [hwrite']
      exact World.Alike.keptByNotes _ _ _ _ hw
  | some volume =>
      rw [hwrite, Option.isSome_some] at hsame
      obtain ⟨volume', hwrite'⟩ := Option.isSome_iff_exists.mp hsame.symm
      rw [hwrite, hwrite'] at halike
      rw [hwrite']
      exact halike

theorem emit_alike (h : s.Undisturbed v entries places category)
    (hname : a.category = category.name) (now runId : String) (result result' : AuditResult)
    (hw : Alike v places w w') :
    Alike v places (a.emit s result w).2 (a.emit (s.later now runId) result' w').2 := by
  unfold emit
  rw [show (s.later now runId).reportDir = s.reportDir from rfl]
  cases hdirectory : s.reportDir with
  | none => exact hw
  | some directory =>
      have hplace := h.report directory hdirectory
      rw [← hname] at hplace
      exact write_alike hplace h.apart _ _ hw

/-- Neither opening and closing a log nor writing a report asks for the time. -/
theorem logs_later (h : s.Undisturbed v entries places category) (now runId : String) :
    s.Logs (s.later now runId) category.name (Alike v places) (Alike v places) where
  batchSize := rfl
  weaker _ _ hw := hw
  opened _ _ hw := openLog_alike h hw
  closed _ faults hlog _ _ hw := closeLog_alike h hw faults hlog
  emitted _ hname _ _ _ _ hw := emit_alike h hname now runId _ _ hw

/-- An audit that looks at none of the places finds the same in worlds that are alike, also when it
is run again later, and leaves worlds that are alike. -/
theorem run_alike (h : s.Undisturbed v entries places category) (hname : a.category = category.name)
    (ha : a.Agrees (Alike v places)) (now runId : String) (hw : Alike v places w w') :
    (a.run s {} w).result.map AuditResult.found =
        (a.run (s.later now runId) {} w').result.map AuditResult.found ∧
      Alike v places (a.run s {} w).world (a.run (s.later now runId) {} w').world :=
  run_agrees ha World.Alike.keptByNotes (hname ▸ logs_later h now runId) hw

end Audit

end FrontendAudit
