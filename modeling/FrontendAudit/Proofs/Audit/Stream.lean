import FrontendAudit.Proofs.Audit.Issues
import FrontendAudit.Proofs.Disk.Write
import FrontendAudit.Proofs.IssueLog.Stream

/-!
# The stream file of an audit

Between the opening of a log and its end, findings may be recorded and lines written in any
interleaving. The log keeps the first findings up to the limit of the configuration, answers each
recording accordingly and warns once; and when it is closed, the stream file holds these findings
and nothing else, a line for each (`stream_holds_kept`).
-/

namespace FrontendAudit

namespace Audit

open IssueLog (streamPath)
open LogEvent (recorded)

section

variable {s : AuditSetup} {category : String} {w opened : World} {log : IssueLog}

/-- A log that was opened has an empty stream file, if there is a directory for it. -/
theorem openLog_eq_ok (h : openLog s category w = (.ok log, opened)) :
    log.Streams ∧ log.category = category ∧
      log.path = (if s.config.streamIssues then s.reportDir else none).map (streamPath · category) ∧
      ∀ path, log.path = some path →
        w.volume.write? (s.host.locate path) (.text "") = some opened.volume := by
  cases hdirectory : (if s.config.streamIssues then s.reportDir else none) with
  | none =>
      simp only [openLog, IssueLog.start, IssueLog.new, hdirectory, Option.map_none,
        Bool.false_eq_true, if_false] at h
      obtain ⟨hlog, -⟩ := Prod.mk.inj h
      obtain rfl := Except.ok.inj hlog
      refine ⟨⟨rfl, rfl, fun hsome => Bool.noConfusion hsome⟩, rfl, rfl, ?_⟩
      intro path hpath
      cases hpath
  | some directory =>
      simp only [openLog, IssueLog.start, IssueLog.new, hdirectory, Option.map_some,
        Option.bind_some, Bool.false_eq_true, if_false] at h
      cases hwrite : w.volume.write? (s.host.locate (streamPath directory category))
          (.text "") with
      | none =>
          simp only [hwrite, Option.isSome_none, Bool.false_eq_true, if_false] at h
          cases (Prod.mk.inj h).1
      | some volume =>
          simp only [hwrite, Option.isSome_some, if_true] at h
          obtain ⟨hlog, rfl⟩ := Prod.mk.inj h
          obtain rfl := Except.ok.inj hlog
          refine ⟨⟨rfl, rfl, fun _ => ⟨[], rfl, rfl⟩⟩, rfl, rfl, ?_⟩
          intro path hpath
          obtain rfl := Option.some.inj hpath
          exact hwrite

/-- The stream file that was made when the log was opened is empty, so in the end it holds what the
writer wrote. -/
theorem file?_closeLog {closed : IssueLog} {meanwhile : World} {path : Path}
    (hopens : openLog s category w = (.ok log, opened)) (hlog : log.path = some path)
    (hpath : closed.path = log.path) (hopen : closed.closed = false)
    (hvolume : meanwhile.volume = opened.volume) :
    (closeLog s (fun _ => none) closed meanwhile).2.volume.tree.file? (s.host.locate path) =
      some (.text closed.close.1.streamText) := by
  have hmade := (openLog_eq_ok hopens).2.2.2 path hlog
  have hempty : meanwhile.volume.tree.file? (s.host.locate path) = some (.text "") := by
    rw [hvolume]
    exact Disk.Volume.file?_write?_self hmade
  have hdata : (Disk.FileData.text "").append closed.close.1.streamText =
      .text closed.close.1.streamText :=
    congrArg Disk.FileData.text (String.empty_append (s := _))
  have hpossible : (meanwhile.volume.write? (s.host.locate path)
      (.text closed.close.1.streamText)).isSome = true := by
    rw [hvolume, Disk.Volume.isSome_write?_after hmade (fun _ => rfl) (fun _ => rfl),
      Disk.Volume.isSome_write?_iff, ← @Disk.Volume.isSome_write?_iff _ _ (.text ""), hmade]
    rfl
  obtain ⟨volume, hwrite⟩ := Option.isSome_iff_exists.mp hpossible
  have happend : meanwhile.volume.append? (s.host.locate path) closed.close.1.streamText =
      some volume := by
    rw [Disk.Volume.append?_of_file? hempty, hdata, hwrite]
  unfold closeLog
  rw [hopen, hpath, hlog]
  simp only [Bool.false_eq_true, if_false, Option.bind_some, happend, Option.getD_some]
  exact Disk.Volume.file?_write?_self hwrite

/-- However recording and writing take turns, the log keeps the first findings up to the limit, says
so of each, and warns of the limit once, with the first finding past it. When the log is closed it
holds on to nothing, and its stream file, if there is to be one, has one line for each kept finding
in order, from which the record of the finding is read back, and nothing else. -/
theorem stream_holds_kept (hopens : openLog s category w = (.ok log, opened))
    (events : List LogEvent) :
    ∃ p, log.play events = some p ∧
      p.log.kept = (recorded events).take s.config.maxIssues ∧
      p.answers = (List.range (recorded events).length).map
        (fun i => if i < s.config.maxIssues then .kept else .dropped) ∧
      p.log.dropped = (recorded events).length - s.config.maxIssues ∧
      p.notes = (if s.config.maxIssues < (recorded events).length
        then [.warning log.limitText] else []) ∧
      ∀ meanwhile closed after, meanwhile.volume = opened.volume →
        closeLog s (fun _ => none) p.log meanwhile = (closed, after) →
        closed.kept = p.log.kept ∧ closed.dropped = p.log.dropped ∧
          closed.holdsResources = false ∧
          after.notes = meanwhile.notes ++ p.log.closingNotes ∧
          ∀ directory, s.config.streamIssues = true → s.reportDir = some directory →
            ∃ text lines,
              after.volume.tree.file? (s.host.locate (streamPath directory category)) =
                some (.text text) ∧
              text.toList.splitOn '\n' = lines ++ [[]] ∧
              lines.map Json.parse? = p.log.kept.map fun f => some f.toRecord := by
  obtain ⟨hstreams, hcategory, hpath, -⟩ := openLog_eq_ok hopens
  obtain ⟨p, hplay, hthrough⟩ := IssueLog.play_comesThrough events (openLog_took hopens) hstreams
  have htook := hthrough.took
  rw [List.nil_append] at htook
  obtain ⟨hreleased, hkept, hdropped, hnotes, hwritten⟩ := hthrough.streams.close htook.accepts
  refine ⟨p, hplay, htook.kept, ?_, htook.dropped, ?_, ?_⟩
  · rw [hthrough.answers, List.range_eq_range']
    rfl
  · rw [hthrough.notes, List.length_nil, Nat.zero_add]
    simp only [Nat.zero_le, true_and]
  -- the world may have gone on since the log was opened, but not its volume
  intro meanwhile closed after hvolume hclose
  have hclosed : p.log.close.1 = closed := congrArg Prod.fst hclose
  have hafter : (closeLog s (fun _ => none) p.log meanwhile).2.notes =
      meanwhile.notes ++ p.log.close.2 := rfl
  rw [hclose] at hafter
  refine ⟨hclosed ▸ hkept, hclosed ▸ hdropped, hclosed ▸ hreleased, hnotes ▸ hafter, ?_⟩
  intro directory hstream hdirectory
  rw [hstream, hdirectory] at hpath
  have hopen := IssueLog.closed_of_accepts htook.accepts
  have hfile := file?_closeLog hopens hpath hthrough.path hopen hvolume
  rw [hclose, IssueLog.streamText, hwritten (by rw [hthrough.path, hpath]; rfl)] at hfile
  obtain ⟨lines, hsplit, hlines⟩ := IssueLog.lines_of_written p.log.kept
  exact ⟨_, lines, hfile, hsplit, hlines⟩

end

/-- A report directory in which an earlier run has left a stream file. -/
def staleWorld : World where
  volume :=
    { tree :=
      .dir [("reports", .dir [("styles-issues.jsonl", .file (.text "of an earlier run\n"))])] }

/-- Four findings, one of two lines; the writer takes a step after the second and after the last. -/
def fourRecordings : List LogEvent :=
  [.record (plainFinding "color" "a.css"),
    .record { plainFinding "color" "b.css" with code := some "color:\n\"red\"" }, .write,
    .record (plainFinding "color" "c.css"), .record (plainFinding "color" "d.css"), .write]

/-- Of four findings three are kept, and of the earlier stream file nothing is left. -/
theorem stream_holds_kept_fourRecordings :
    ∃ log opened, openLog (threeFileSetup 2 true) "styles" staleWorld = (.ok log, opened) ∧
      ∃ p, log.play fourRecordings = some p ∧ p.answers = [.kept, .kept, .kept, .dropped] ∧
        p.notes = [.warning log.limitText] ∧
        ∃ text lines,
          (closeLog (threeFileSetup 2 true) (fun _ => none) p.log opened).2.volume.tree.file?
            ["reports", "styles-issues.jsonl"] = some (.text text) ∧
          text.toList.splitOn '\n' = lines ++ [[]] ∧ lines.length = 3 := by
  refine ⟨_, _, rfl, ?_⟩
  obtain ⟨p, hplay, hkept, hanswers, -, hnotes, hclose⟩ :=
    stream_holds_kept
      (rfl : openLog (threeFileSetup 2 true) "styles" staleWorld = (.ok _, _)) fourRecordings
  refine ⟨p, hplay, hanswers, hnotes, ?_⟩
  obtain ⟨-, -, -, -, hfile⟩ := hclose _ _ _ rfl rfl
  obtain ⟨text, lines, htext, hsplit, hlines⟩ := hfile (.absolute ["reports"]) rfl rfl
  refine ⟨text, lines, htext, hsplit, ?_⟩
  have hlength := congrArg List.length hlines
  rwa [List.length_map, List.length_map, hkept] at hlength

end Audit

end FrontendAudit
