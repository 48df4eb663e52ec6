import FrontendAudit.Audit.Category
import FrontendAudit.Proofs.Disk.Filled
import FrontendAudit.Proofs.Page.Fetch
import FrontendAudit.Proofs.Path

/-!
# What an audit sees of the world

An audit reads the files that its category finds, the manifest of the project, and what the outside
answers to the questions of its category. Where two worlds are the same in these respects, and what
the outside is asked keeps them so (`AuditSetup.Sight`), the audit finds the same in both
(`Audit.accessibility_agrees` and its siblings). How worlds may differ otherwise is left open: in
reports that were written, in what other tools will answer.
-/

namespace FrontendAudit

open Run (KeptByNotes)

/-- Two worlds have the same file at a path, or none. -/
def World.ReadsAlike (R : World → World → Prop) (path : List String) : Prop :=
  ∀ w w', R w w' → w.volume.tree.file? path = w'.volume.tree.file? path

/-- An audit that finds the same in worlds that are alike. -/
structure Audit.Agrees (R : World → World → Prop) (a : Audit) : Prop where
  enumerate : Run.Agrees R a.enumerate
  scan : ∀ w w', R w w' → ∀ files w₁, a.enumerate w = (.ok files, w₁) →
    ∀ file ∈ files, Run.Agrees R (a.scan file)
  finalize : ∀ tally, Run.Agrees R (a.finalize tally)

/-- In worlds that are alike a category finds the same files and reads the same in them, and the
outside answers its questions in the same way. -/
structure AuditSetup.Sight (s : AuditSetup) (category : Category) (R : World → World → Prop) :
    Prop where
  notes : KeptByNotes R
  files : Run.Agrees R (s.files category)
  located : ∀ w w', R w w' → ∀ files w₁, s.files category w = (.ok files, w₁) → ∀ file ∈ files,
    World.ReadsAlike R (s.host.locate file)
  placed : ∀ w w', R w w' → ∀ files w₁, s.files category w = (.ok files, w₁) → ∀ file ∈ files,
    World.ReadsAlike R file.parts
  manifest : category = .performance →
    World.ReadsAlike R (s.host.locate (s.project.child "package.json"))
  fetch : category = .accessibility → ∀ url, Run.Agrees R (Run.act (World.fetch url))
  runTool : ∀ linter : Linter, linter.category = category → ∀ path,
    Run.Agrees R (Run.act (World.runTool linter.name path))
  post : category = .security → ∀ request, Run.Agrees R (Run.act (World.post request))

section

variable {R : World → World → Prop} {s : AuditSetup}

/-- Each file that a category finds lies below the project, under the names on the way to it. -/
theorem AuditSetup.exists_of_found {category : Category} {w w₁ : World} {files : List Path}
    {entries : List (String × Disk.Tree)} (hresolved : ∃ p : Path, s.project = p.resolve s.host.cwd)
    (hnamed : ∀ names ∈ (Disk.Tree.dir entries).paths, ∀ name ∈ names, IsFileName name)
    (hsame : category.files s.config (s.projectTree w) = category.files s.config (.dir entries))
    (hfiles : s.files category w = (.ok files, w₁)) :
    ∀ file ∈ files, ∃ names, names ≠ [] ∧ category.LooksAt s.config (.dir entries) names ∧
      s.host.locate file = s.project.parts ++ names ∧ file.parts = s.project.parts ++ names := by
  have hresult : (s.files category w).1 =
      ((category.files s.config (.dir entries)).mapError fun _ => Failure.badGlob).map
        fun files => files.map fun file => s.project.join (.ofString file) := by
    rw [← hsame]
    show ((Run.ofExcept (fun _ => Failure.badGlob)
      (category.files s.config (s.projectTree w)) >>= fun files => pure _ : Run _) w).1 = _
    cases category.files s.config (s.projectTree w) <;> rfl
  rw [hfiles] at hresult
  cases hfound : category.files s.config (.dir entries) with
  | error e =>
      rw [hfound] at hresult
      cases hresult
  | ok found =>
      rw [hfound] at hresult
      obtain rfl := Except.ok.inj hresult
      intro file hfile
      -- the names on the way to the file are read back from its text
      obtain ⟨text, htext, rfl⟩ := List.mem_map.mp hfile
      obtain ⟨names, hnames, rfl, hlooks⟩ := Category.exists_of_mem_files hfound htext
      have hne : names ≠ [] := Disk.Tree.ne_nil_of_mem_paths hnames
      obtain ⟨p, hp⟩ := hresolved
      obtain ⟨hparts, hlocate⟩ := s.host.locate_below p hne (hnamed names hnames)
      rw [← hp] at hparts hlocate
      exact ⟨names, hne, hlooks, hlocate, hparts⟩

theorem AuditSetup.data_agrees {file : Path} (h : World.ReadsAlike R (s.host.locate file)) :
    Run.Agrees R (s.data file) := by
  refine Run.Agrees.get (fun w w' hw => ?_) fun w => ?_
  · rw [h w w' hw]
  · split
    · exact .pure _
    · exact .throw _

namespace Audit

/-! ## Sources and pages -/

theorem accessibility_agrees (h : s.Sight .accessibility R) (urls : List String) :
    Agrees R (accessibility s urls) where
  enumerate := h.files
  scan w w' hw files w₁ hfiles file hfile :=
    (AuditSetup.data_agrees (h.located w w' hw files w₁ hfiles file hfile)).bind fun _ =>
      (Run.Agrees.ofExcept _ _).bind fun _ => .pure _
  finalize _ :=
    (Run.Agrees.ofExcept _ _).bind fun _ =>
      (Page.checkAll_agrees h.notes {} fun address _ =>
        Page.fetch_agrees (h.fetch rfl) address).bind fun _ =>
        .pure _

theorem manifestFindings_agrees (h : s.Sight .performance R) :
    Run.Agrees R (manifestFindings s) := by
  refine Run.Agrees.get (fun w w' hw => ?_) fun w => ?_
  · rw [h.manifest rfl w w' hw]
  · split
    · exact .pure []
    · split
      · exact .throw _
      · split
        · exact (Run.Agrees.note h.notes _).bind fun _ => .pure []
        · exact (Run.Agrees.ofExcept _ _).bind fun _ => .ofExcept _ _
        · exact (Run.Agrees.note h.notes _).bind fun _ => .pure []

theorem performance_agrees (h : s.Sight .performance R) : Agrees R (performance s) where
  enumerate := h.files
  scan w w' hw files w₁ hfiles file hfile :=
    (AuditSetup.data_agrees (h.located w w' hw files w₁ hfiles file hfile)).bind fun _ =>
      (Run.Agrees.ofExcept _ _).bind fun _ => .pure _
  finalize _ := manifestFindings_agrees h

/-! ## Linters -/

theorem messages_agrees {setup : LintSetup} (h : s.Sight setup.linter.category R) (file : Path) :
    Run.Agrees R (setup.messages file) := by
  refine (h.runTool setup.linter rfl _).bind fun run => ?_
  cases run with
  | notStarted => exact .throw _
  | exited code output errors =>
      dsimp only
      split
      · split
        · exact .pure _
        · exact .throw _
        · exact .throw _
      · exact .throw _

theorem lintFindings_agrees {setup : LintSetup} (h : s.Sight setup.linter.category R) {file : Path}
    (hfile : World.ReadsAlike R file.parts) : Run.Agrees R (setup.findings file) := by
  refine ((messages_agrees h file).retry h.notes {} _).bind fun messages => ?_
  cases messages.getD [] with
  | nil => exact .pure []
  | cons message messages =>
      have hread : Run.Agrees R (LintSetup.readLines file) := by
        refine Run.Agrees.get (fun w w' hw => ?_) fun w => ?_
        · rw [hfile w w' hw]
        · split
          · exact .pure _
          · exact .throw _
      exact hread.bind fun lines => .ofExcept _ _

theorem lint_agrees {setup : LintSetup} (h : s.Sight setup.linter.category R) :
    Agrees R (lint s setup) where
  enumerate := h.files
  scan w w' hw files w₁ hfiles file hfile :=
    (lintFindings_agrees h (h.placed w w' hw files w₁ hfiles file hfile)).bind fun _ => .pure _
  finalize _ := .pure []

/-! ## The review service -/

theorem review_agrees (hpost : ∀ request, Run.Agrees R (Run.act (World.post request)))
    (service : Service) (repository : String) : Run.Agrees R (service.review repository) := by
  unfold Service.review Service.call
  split
  · exact .throw _
  · refine (Run.Agrees.ofExcept _ _).bind fun u => (hpost _).bind fun answer => ?_
    cases answer with
    | unreachable => exact .throw _
    | reply status _ body =>
        dsimp only
        split
        · exact .throw _
        · split
          · exact .pure _
          · exact .throw _

theorem security_agrees (h : s.Sight .security R) (repository : Option String) (service : Service) :
    Agrees R (security s repository service) where
  enumerate := .pure []
  scan _ _ _ _ _ _ _ _ := .pure _
  finalize _ := by
    show Run.Agrees _ (reviewFindings s repository service)
    unfold reviewFindings
    split
    · exact (Run.Agrees.note h.notes _).bind fun _ => .pure []
    · exact ((review_agrees (h.post rfl) service _).retry h.notes {} _).bind fun _ => .ofExcept _ _

end Audit

end

end FrontendAudit
