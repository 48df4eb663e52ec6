import FrontendAudit.Lint.Scan
import FrontendAudit.Proofs.Audit.Answers
import FrontendAudit.Proofs.Lint.Conversion
import FrontendAudit.Proofs.Lint.Report
import FrontendAudit.Proofs.Path
import FrontendAudit.Proofs.Retry

/-!
# How linting a file ends

A linter is run on a file up to three times, until something is heard of it. If nothing is, the file
has no findings. The first run of which something is heard is the last one: its messages become the
findings of the file when all that are not left out are usable, and otherwise, or when its report
has something without members where an object is counted on, linting ends with a misfit that nothing
tries again (`lint_ends`, `misfit_ends_linting`).

Reports are read as in `Json.parse?`: without limits on depth and digits, and half of a surrogate
pair that stands alone as U+FFFD. A message with such a half counts as usable here.
-/

namespace FrontendAudit

/-! ## Runs of a linter -/

/-- Whether a linter was run. -/
def Note.isRun : Note → Bool
  | .linted _ _ => true
  | _ => false

namespace World

/-- What comes of running a tool on a file after it was run some times. -/
def toolRunAt (w : World) (tool path : String) (i : Nat) : ToolRun :=
  answerAt w.toolOtherwise (scriptOf (tool, path) w.toolRuns) i

variable (w : World) (tool path : String)

theorem toolRunAt_zero : w.toolRunAt tool path 0 = (runTool tool path w).1 := answerAt_zero

theorem toolRunAt_succ (i : Nat) :
    w.toolRunAt tool path (i + 1) = (runTool tool path w).2.toolRunAt tool path i := by
  have hscript : scriptOf (tool, path) (runTool tool path w).2.toolRuns =
      (nextAnswer w.toolOtherwise (scriptOf (tool, path) w.toolRuns)).2 :=
    scriptOf_setScript_next w.toolRuns _ _
  rw [toolRunAt, toolRunAt, hscript, answerAt_succ]
  rfl

/-- How often a linter was run. -/
def lintings : Nat := w.notes.countP Note.isRun

theorem lintings_runTool : (runTool tool path w).2.lintings = w.lintings + 1 := by
  show (w.notes ++ [Note.linted tool path]).countP Note.isRun = _
  rw [List.countP_append]
  rfl

end World

namespace LintSetup

variable (s : LintSetup) (file : Path)

/-- What is heard of a run of the linter on a file, after some others. -/
def heardAt (w : World) (i : Nat) : Option (Except Misfit (List Lint.Message)) :=
  Lint.heard s.linter (w.toolRunAt s.linter.name (file.display s.project) i)

/-! ## One run -/

/-- A run gives its messages, or the misfit that ends it, or fails as the outside fails. -/
theorem messages_eq (w : World) : ∃ reason, s.messages file w =
    (match s.heardAt file w 0 with
      | some (.ok messages) => .ok messages
      | some (.error m) => .error (.misfit m)
      | none => .error (.outside reason),
    (World.runTool s.linter.name (file.display s.project) w).2) := by
  have hrun : Run.act (World.runTool s.linter.name (file.display s.project)) w =
      (.ok (w.toolRunAt s.linter.name (file.display s.project) 0),
        (World.runTool s.linter.name (file.display s.project) w).2) := by
    rw [World.toolRunAt_zero]
    rfl
  rw [heardAt, messages, Run.bind_ok hrun]
  cases w.toolRunAt s.linter.name (file.display s.project) 0 with
  | notStarted => exact ⟨_, rfl⟩
  | exited code output errors =>
      rw [Lint.heard_exited]
      dsimp only
      cases s.linter.reportCodes.contains code with
      | false => exact ⟨_, rfl⟩
      | true =>
          cases Lint.parseReport s.linter output.toList errors.toList with
          | ok messages => exact ⟨"", rfl⟩
          | error fault =>
              cases fault with
              | notJson => exact ⟨_, rfl⟩
              | misfit m =>
                  cases m with
                  | noMembers => exact ⟨"", rfl⟩
                  | _ => exact ⟨_, rfl⟩

theorem attempt_messages (w : World) :
    (Run.attempt (s.messages file) w).1.ending? = (s.heardAt file w 0).map (·.mapError .misfit) ∧
      (Run.attempt (s.messages file) w).2 =
        (World.runTool s.linter.name (file.display s.project) w).2 := by
  obtain ⟨reason, hmessages⟩ := s.messages_eq file w
  rw [Run.attempt, hmessages]
  rcases s.heardAt file w 0 with _ | m | messages <;> exact ⟨rfl, rfl⟩

/-! ## Attempts -/

theorem heardAt_succ (w : World) (i : Nat) : s.heardAt file w (i + 1) =
    s.heardAt file (World.runTool s.linter.name (file.display s.project) w).2 i := by
  rw [heardAt, heardAt, World.toolRunAt_succ]

theorem endingAt?_messages (w : World) (i : Nat) :
    Retry.endingAt? (Run.attempt (s.messages file)) i w =
      (s.heardAt file w i).map (·.mapError .misfit) := by
  induction i generalizing w with
  | zero => exact (s.attempt_messages file w).1
  | succ i ih => rw [Retry.endingAt?_succ, ih, (s.attempt_messages file w).2, heardAt_succ]

/-- Attempts run the linter once each, and leave the files as they are. -/
theorem after_messages (w : World) (i : Nat) :
    (Retry.after (Run.attempt (s.messages file)) i w).volume = w.volume ∧
      (Retry.after (Run.attempt (s.messages file)) i w).lintings = w.lintings + i := by
  induction i generalizing w with
  | zero => exact ⟨rfl, rfl⟩
  | succ i ih =>
      rw [Retry.after_succ, (s.attempt_messages file w).2, (ih _).1, (ih _).2,
        World.lintings_runTool]
      exact ⟨rfl, by omega⟩

/-- The attempts on a file. -/
def attempts (w : World) : Retried Failure (List Lint.Message) × World :=
  Retry.run {} (s.linter.name ++ " on " ++ file.display s.project) (Run.attempt (s.messages file)) w

theorem lintings_attempts (w : World) :
    ((s.attempts file w).2.note (s.attempts file w).1.notes).lintings =
      (s.attempts file w).2.lintings := by
  have hnotes : (s.attempts file w).1.notes.countP Note.isRun = 0 :=
    Retry.countP_notes_attemptFrom {} _ (fun _ => ⟨rfl, rfl⟩) (fun _ => rfl) 3 1 w
  show ((s.attempts file w).2.notes ++ (s.attempts file w).1.notes).countP Note.isRun = _
  rw [List.countP_append, hnotes]
  rfl

theorem readLines_eq {w : World} {data : Disk.FileData}
    (hfile : w.volume.tree.file? file.parts = some data) :
    readLines file w = (.ok (Text.sourceLines data.readTolerant), w) := by
  have hget : (get : Run World) w = (.ok w, w) := rfl
  rw [readLines, Run.bind_ok hget, hfile]
  rfl

/-- What linting makes of what came of the attempts: messages are turned into findings. -/
def conclude (data : Disk.FileData) :
    Except Failure (Option (List Lint.Message)) → Except Failure (List Finding)
  | .error e => .error e
  | .ok messages => (Lint.findings s.linter s.excluded (file.display s.project)
      (Text.sourceLines data.readTolerant)
        ((messages.getD []).map Lint.Message.toRecord)).mapError .misfit

theorem findings_eq {w : World} {data : Disk.FileData}
    (hfile : (s.attempts file w).2.volume.tree.file? file.parts = some data) : s.findings file w =
    (s.conclude file data (s.attempts file w).1.result,
      (s.attempts file w).2.note (s.attempts file w).1.notes) := by
  have hretry :
      Run.retry {} (s.linter.name ++ " on " ++ file.display s.project) (s.messages file) w =
      ((s.attempts file w).1.result, (s.attempts file w).2.note (s.attempts file w).1.notes) := rfl
  rw [findings]
  cases hresult : (s.attempts file w).1.result with
  | error e =>
      rw [hresult] at hretry
      rw [Run.bind_error hretry]
      rfl
  | ok messages =>
      rw [hresult] at hretry
      have hread := readLines_eq file
        (w := (s.attempts file w).2.note (s.attempts file w).1.notes) hfile
      rw [Run.bind_ok hretry, conclude]
      cases messages.getD [] with
      | nil => rfl
      | cons m messages =>
          dsimp only
          rw [Run.bind_ok hread]
          cases Lint.findings s.linter s.excluded (file.display s.project)
            (Text.sourceLines data.readTolerant) ((m :: messages).map Lint.Message.toRecord) <;> rfl

/-! ## Linting -/

section

variable {s file} {w : World} {data : Disk.FileData}
  (hfile : w.volume.tree.file? file.parts = some data)

include hfile

/-- Linting gives what comes of the attempts, of which each is a run of the linter. -/
theorem findings_of_attempts {result : Except Failure (Option (List Lint.Message))} {runs : Nat}
    (hresult : (s.attempts file w).1.result = result)
    (hafter : (s.attempts file w).2 = Retry.after (Run.attempt (s.messages file)) runs w) :
    (s.findings file w).1 = s.conclude file data result ∧
      (s.findings file w).2.lintings = w.lintings + runs := by
  obtain ⟨hvolume, hruns⟩ := s.after_messages file w runs
  rw [← hafter] at hvolume hruns
  rw [s.findings_eq file (by rw [hvolume]; exact hfile), hresult]
  exact ⟨rfl, (s.lintings_attempts file w).trans hruns⟩

/-- A file of which nothing is heard has no findings. -/
theorem findings_of_silence (hsilence : ∀ i < 3, s.heardAt file w i = none) :
    (s.findings file w).1 = .ok [] ∧ (s.findings file w).2.lintings = w.lintings + 3 := by
  have hfailed : ∀ i < 3, Retry.endingAt? (Run.attempt (s.messages file)) i w = none := by
    intro i hi
    rw [endingAt?_messages, hsilence i hi]
    rfl
  obtain ⟨hresult, -, hafter⟩ :=
    Retry.attemptFrom_of_failures {} _ 1 RetryPolicy.tellsPauses_default hfailed
  exact findings_of_attempts hfile hresult hafter

/-- The first run of which something is heard is the last one. -/
theorem findings_of_heard {i : Nat} (hi : i < 3) (hbefore : ∀ j < i, s.heardAt file w j = none)
    {ending : Except Misfit (List Lint.Message)} (hheard : s.heardAt file w i = some ending) :
    (s.findings file w).1 = s.conclude file data ((ending.mapError .misfit).map some) ∧
      (s.findings file w).2.lintings = w.lintings + (i + 1) := by
  have hfailed : ∀ j < i, Retry.endingAt? (Run.attempt (s.messages file)) j w = none := by
    intro j hj
    rw [endingAt?_messages, hbefore j hj]
    rfl
  have hending : Retry.endingAt? (Run.attempt (s.messages file)) i w =
      some (ending.mapError .misfit) := by
    rw [endingAt?_messages, hheard]
    rfl
  obtain ⟨hresult, -, hafter⟩ :=
    Retry.attemptFrom_of_ending {} _ 1 RetryPolicy.tellsPauses_default hi hfailed hending
  exact findings_of_attempts hfile hresult hafter

/-- However the linter is run: if nothing is heard of three runs, the file has no findings.
Otherwise the first run of which something is heard is the last one. If members were asked there of
what is no object, linting ends with a misfit. If there are messages, each that is not left out
becomes a finding that tells of it, provided that all of them are usable; if one is not, linting
ends with a misfit too. -/
theorem lint_ends (hnames : "" ∉ file.parts) :
    ((∀ i < 3, s.heardAt file w i = none) →
      (s.findings file w).1 = .ok [] ∧ (s.findings file w).2.lintings = w.lintings + 3) ∧
    ∀ i < 3, (∀ j < i, s.heardAt file w j = none) →
      (∀ m, s.heardAt file w i = some (.error m) →
        (s.findings file w).1 = .error (.misfit m) ∧
          (s.findings file w).2.lintings = w.lintings + (i + 1)) ∧
      ∀ messages, s.heardAt file w i = some (.ok messages) →
        (s.findings file w).2.lintings = w.lintings + (i + 1) ∧
        ((∀ m ∈ messages, m.isLeftOut s.excluded = true ∨
            m.Usable (Text.sourceLines data.readTolerant)) →
          ∃ found, (s.findings file w).1 = .ok found ∧
            List.Forall₂ (Lint.Tells s.linter (file.display s.project))
              (messages.filter fun m => !m.isLeftOut s.excluded) found) ∧
        ((∃ m ∈ messages, m.isLeftOut s.excluded = false ∧
            ¬ m.Usable (Text.sourceLines data.readTolerant)) →
          ∃ misfit, (s.findings file w).1 = .error (.misfit misfit)) := by
  refine ⟨findings_of_silence hfile, fun i hi hbefore =>
    ⟨fun m hm => ?_, fun messages hmessages => ?_⟩⟩
  · exact findings_of_heard hfile hi hbefore hm
  · obtain ⟨hfindings, hruns⟩ := findings_of_heard hfile hi hbefore hmessages
    have hpath : file.display s.project ≠ "" := Path.display_ne_empty hnames s.project
    have hconcluded :
        (s.findings file w).1 = (Lint.findings s.linter s.excluded (file.display s.project)
        (Text.sourceLines data.readTolerant)
          (messages.map Lint.Message.toRecord)).mapError .misfit :=
      hfindings
    have hiff :=
      Lint.exists_findings_iff s.linter s.excluded (Text.sourceLines data.readTolerant) hpath
      messages
    refine ⟨hruns, fun husable => ?_, fun ⟨m, hm, hkept, hunusable⟩ => ?_⟩
    · obtain ⟨found, hfound⟩ := hiff.mpr husable
      rw [hfound] at hconcluded
      exact ⟨found, hconcluded, Lint.forall₂_of_findings hfound⟩
    · -- the messages are converted when no attempt is left that could fail
      cases hresult : Lint.findings s.linter s.excluded (file.display s.project)
          (Text.sourceLines data.readTolerant) (messages.map Lint.Message.toRecord) with
      | error misfit =>
          rw [hresult] at hconcluded
          exact ⟨misfit, hconcluded⟩
      | ok found =>
          rcases hiff.mp ⟨found, hresult⟩ m hm with hleftOut | husable
          · rw [hkept] at hleftOut
            cases hleftOut
          · exact absurd husable hunusable

end

/-- ESLint with one rule left out. -/
def scriptSetup : LintSetup where
  linter := .eslint
  project := .absolute ["project"]
  settings := .absolute ["rules.json"]
  excluded := ["no-console"]

def scriptFile : Path := .absolute ["project", "a.js"]

/-- A project with one script, and what will come of running the linter on it. -/
def scriptWorld (runs : List ToolRun) : World where
  volume := { tree := .dir [("project", .dir [("a.js", .file (.text "a == 1\n"))])] }
  toolRuns := [(("eslint", "a.js"), runs)]

/-- The results of a report with a message about a line, and one of the rule that is left out. -/
def resultsAt (line : Json) : List Json :=
  [.obj [("messages", .arr
    [.obj [("ruleId", .str "eqeqeq"), ("severity", .int 2), ("line", line),
      ("message", .str "Use ===")],
     .obj [("ruleId", .str "no-console"), ("message", .int 0)]])]]

def messageAt (line : Json) : Lint.Message := ⟨.str "eqeqeq", .high, line, .str "Use ==="⟩

def consoleMessage : Lint.Message := ⟨.str "no-console", .low, .null, .int 0⟩

theorem heard_resultsAt {line : Json} (h : line.IsExact) :
    Lint.heard .eslint (.exited 1 (Json.arr (resultsAt line)).compact "") =
      some (.ok [messageAt line, consoleMessage]) := by
  have hexact : (Json.arr (resultsAt line)).IsExact := by
    simp [resultsAt, Json.IsExact, Json.ItemsExact, Json.MembersExact, h]
  rw [Lint.heard_compact hexact (by decide)]
  rfl

/-- One script for each way in which linting ends. -/
theorem lint_ends_scripts :
    ((scriptSetup.findings scriptFile (scriptWorld [.notStarted])).1 = .ok [] ∧
      (scriptSetup.findings scriptFile (scriptWorld [.notStarted])).2.lintings = 3) ∧
    (scriptSetup.findings scriptFile (scriptWorld [.exited 0 "[1]" ""])).1 =
      .error (.misfit .noMembers) ∧
    (∃ f, (scriptSetup.findings scriptFile
        (scriptWorld [.exited 2 "" "crash",
          .exited 1 (Json.arr (resultsAt (.int 1))).compact ""])).1 =
          .ok [f] ∧ f.severity = .high ∧ f.line = some 1) ∧
    ∃ misfit, (scriptSetup.findings scriptFile
      (scriptWorld [.exited 1 (Json.arr (resultsAt (.str "1"))).compact ""])).1 =
        .error (.misfit misfit) := by
  have hnames : "" ∉ scriptFile.parts := by decide
  have hfile (runs : List ToolRun) : (scriptWorld runs).volume.tree.file? scriptFile.parts =
      some (.text "a == 1\n") := rfl
  refine ⟨(lint_ends (hfile _) hnames).1 ?_, ?_, ?_, ?_⟩
  · intro i hi
    match i, hi with
    | 0, _ => rfl
    | 1, _ => rfl
    | 2, _ => rfl
  · exact (((lint_ends (hfile _) hnames).2 0 (by decide) (fun _ h => nomatch h)).1 _ rfl).1
  · have hbefore : ∀ j < 1, scriptSetup.heardAt scriptFile
        (scriptWorld [.exited 2 "" "crash", .exited 1 (Json.arr (resultsAt (.int 1))).compact ""])
          j =
          none := by
      intro j hj
      obtain rfl : j = 0 := by omega
      rfl
    obtain ⟨-, hfound, -⟩ := ((lint_ends (hfile _) hnames).2 1 (by decide) hbefore).2 _
      (heard_resultsAt trivial)
    have husable : ∀ m ∈ [messageAt (.int 1), consoleMessage],
        m.isLeftOut scriptSetup.excluded = true ∨
        m.Usable (Text.sourceLines "a == 1\n".toList) := by
      rw [List.forall_mem_cons, List.forall_mem_singleton]
      exact ⟨.inr ⟨⟨some "eqeqeq", rfl⟩, ⟨_, rfl⟩, .inr (.inl ⟨1, rfl⟩)⟩, .inl rfl⟩
    obtain ⟨found, hfound, htold⟩ := hfound husable
    rw [show [messageAt (.int 1), consoleMessage].filter
      (fun m => !m.isLeftOut scriptSetup.excluded) =
      [messageAt (.int 1)] from rfl] at htold
    obtain ⟨f, _, htells, hnone, rfl⟩ := List.forall₂_cons_left_iff.mp htold
    rw [List.forall₂_nil_left_iff] at hnone
    rw [hnone] at hfound
    exact ⟨f, hfound, htells.severity, (Checked.ok.inj htells.line).symm⟩
  · have hheard : scriptSetup.heardAt scriptFile
        (scriptWorld [.exited 1 (Json.arr (resultsAt (.str "1"))).compact ""]) 0 =
          some (.ok [messageAt (.str "1"), consoleMessage]) := heard_resultsAt trivial
    have hunusable : ¬ (messageAt (.str "1")).Usable (Text.sourceLines "a == 1\n".toList) := by
      intro h
      rcases h.line with hvacant | ⟨_, hline⟩ | hline | ⟨_, _, hline, -⟩
      · exact absurd hvacant (by decide)
      all_goals exact Json.noConfusion hline
    exact (((lint_ends (hfile _) hnames).2 0 (by decide) (fun _ h => nomatch h)).2 _ hheard).2.2
      ⟨_, List.mem_cons_self, rfl, hunusable⟩

/-- A report that is a list of a number ends linting after one run, while a report that is a number
counts as a failure, is asked for three times, and leaves the file without findings. -/
theorem misfit_ends_linting :
    (scriptSetup.findings scriptFile (scriptWorld [.exited 0 "[1]" ""])).1.isOk = false ∧
      (scriptSetup.findings scriptFile (scriptWorld [.exited 0 "[1]" ""])).2.lintings = 1 ∧
      (scriptSetup.findings scriptFile (scriptWorld [.exited 0 "1" ""])).1 = .ok [] ∧
      (scriptSetup.findings scriptFile (scriptWorld [.exited 0 "1" ""])).2.lintings = 3 :=
  ⟨rfl, rfl, rfl, rfl⟩

end LintSetup

end FrontendAudit
