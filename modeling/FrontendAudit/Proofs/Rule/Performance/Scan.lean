import FrontendAudit.Proofs.Pattern.Blank
import FrontendAudit.Proofs.Rule.Registry
import FrontendAudit.Rule.Performance.Detectors

/-!
# What a performance scan finds

Every detector reports under its name about the line that it looks at, and nothing about a blank
line, so that all findings are accepted if the file has a path (`scan_eq_ok_iff`). Of the rest of
the source a detector knows only which release calls are named, and the one for blocking code which
lines are asynchronous (`map_detector_eq`). Empty lines in front of a text move the asynchronous
lines and name no release call (`contains_asyncLines_below`, `looksAlike_below`).

The name of a release call has no line feed in it, so that it stands on some line or nowhere
(`names_iff`). So it does not matter in which order the lines stand for what is told of wasteful
operations and of resources, and a resource that a line acquires is reported there unless some line
of the file names what releases it (`scan_perm`).
-/

namespace FrontendAudit.Performance

open Pattern

variable {path : String} {content : List Char} {found : List Finding}
  {above lines : List (List Char)}

/-! ## The findings of a scan -/

theorem reportsLines_detectors : detectors.ReportsLines Source.toSourceFile := by
  intro entry hentry line index source f hf
  simp only [detectors, List.mem_cons, List.not_mem_nil, or_false] at hentry
  rcases hentry with rfl | rfl | rfl
  · obtain ⟨op, -, rfl⟩ := List.mem_map.mp hf
    exact ⟨_, _, _, _, rfl⟩
  · obtain ⟨resource, -, rfl⟩ := List.mem_map.mp hf
    exact ⟨_, _, _, _, rfl⟩
  · obtain ⟨-, hf⟩ := List.mem_ite_nil_right.mp hf
    exact ⟨_, _, _, _, List.mem_singleton.mp hf⟩

/-- What the detectors find in a file before it is accepted. -/
def raised (path : String) (content : List Char) : List Finding :=
  let source := Source.of (.ofContent path content)
  detectors.run source source.lines

/-- A scan succeeds if the file has a path, and without one as long as nothing is found. -/
theorem scan_eq_ok_iff :
    scan path content = .ok found ↔
      (path ≠ "" ∨ raised path content = []) ∧
      found = (raised path content).map Finding.bounded := by
  have hscan : scan path content = Finding.acceptAll (raised path content) := rfl
  rw [hscan]
  exact reportsLines_detectors.acceptAll_run_eq_ok_iff

/-! ## Blank lines -/

theorem needsText_asyncStart : asyncStart.needsText = true := by
  decide +kernel

/-- What the detectors look for on a line has text. -/
theorem needsText_of_mem :
    ∀ p ∈ wastefulOperations.map (·.pattern) ++ resources.map (·.acquire) ++ blockingPatterns,
      p.needsText = true := by
  decide +kernel

theorem passesOverBlanks_detectors : detectors.PassesOverBlanks := by
  intro entry hentry line index source hblank
  have hoccurs :
      ∀ p ∈ wastefulOperations.map (·.pattern) ++ resources.map (·.acquire) ++ blockingPatterns,
      p.occursIn line = false :=
    fun p hp => occursIn_eq_false_of_blank (needsText_of_mem p hp) hblank
  simp only [List.forall_mem_append, List.forall_mem_map] at hoccurs
  obtain ⟨⟨hwasteful, hacquire⟩, hblocking⟩ := hoccurs
  simp only [detectors, List.mem_cons, List.not_mem_nil, or_false] at hentry
  rcases hentry with rfl | rfl | rfl
  · simpa [detectInefficientOperation] using hwasteful
  · simpa [detectMemoryLeak] using fun r hr _ => hacquire r hr
  · simpa [detectBlockingCode] using fun _ => hblocking

/-! ## What a detector looks at -/

/-- For the detector of a name two places look alike if the same release calls are named around them
and, where it looks for blocking code, the line is at both in asynchronous code or at neither. -/
structure LooksAlike (name : String) (source : Source) (index : Nat) (source' : Source)
    (index' : Nat) : Prop where
  async : name = "blocking_code_in_async" →
    source'.asyncLines.contains index' = source.asyncLines.contains index
  released : source'.released = source.released

/-- Where places look alike the detectors report alike: their findings are seen as the same,
whenever reports under their names about the two places are. -/
theorem map_detector_eq {β : Type} {entry : String × LineDetector} {line : List Char}
    {source source' : Source} {index index' : Nat} {view view' : Finding → β}
    (hentry : entry ∈ detectors.entries) (halike : LooksAlike entry.1 source index source' index')
    (hview : ∀ severity message recommendation,
      view' (source'.findingAt index' entry.1 severity message recommendation) =
        view (source.findingAt index entry.1 severity message recommendation)) :
    (entry.2 line index' source').map view' = (entry.2 line index source).map view := by
  simp only [detectors, List.mem_cons, List.not_mem_nil, or_false] at hentry
  rcases hentry with rfl | rfl | rfl
  · simp only [detectInefficientOperation, List.map_map]
    exact List.map_congr_left fun op _ => hview _ _ _
  · simp only [detectMemoryLeak, halike.released, List.map_map]
    exact List.map_congr_left fun resource _ => hview _ _ _
  · simp only [detectBlockingCode, halike.async rfl]
    split
    · rw [List.map_singleton, List.map_singleton, hview]
    · rfl

/-! ## Calls and their names -/

/-- A line calls a function: its name stands on the line, no word character before it, and behind it
only blanks before an opening parenthesis. -/
def Calls (name : String) (line : List Char) : Prop :=
  ∃ before gap after, line = before ++ (name.toList ++ (gap ++ '(' :: after)) ∧
    before.getLast?.any Text.isWord = false ∧ ∀ c ∈ gap, Text.isBlank c = true

theorem recalls_callOf (name : String) : (callOf name).recalls = false := by
  have hword : ∀ w, (word w).recalls = false := fun w => recalls_seqs_chars w.toList fun c =>
    ⟨false, [.one c]⟩
  rw [callOf, recalls_seqs]
  simp only [List.any_cons, List.any_nil, hword]
  rfl

theorem occursIn_callOf_iff {name : String} {line : List Char} {c : Char} {letters : List Char}
    (hname : name.toList = c :: letters) (hc : Text.isWord c = true) :
    (callOf name).occursIn line = true ↔ Calls name line := by
  have hboundary : ∀ before gap after : List Char,
      Text.isBoundary (behind none before) (name.toList ++ (gap ++ '(' :: after)).head? = true ↔
        before.getLast?.any Text.isWord = false := by
    intro before gap after
    rw [hname, List.cons_append, List.head?_cons, isBoundary_word hc, behind, Option.or_none]
  rw [occursIn_iff (recalls_callOf name)]
  simp only [callOf, covers_seqs_cons, covers_seqs_nil, covers_word_iff, covers_blanks_iff, Covers]
  constructor
  · rintro ⟨before, _, after, rfl, _, _, rfl, ⟨rfl, hbefore⟩, _, _, rfl, rfl, gap, _, rfl, hgap, _,
      _, rfl, rfl, rfl⟩
    refine ⟨before, gap, after, by simp, (hboundary before gap after).mp ?_, hgap⟩
    simpa using hbefore
  · rintro ⟨before, gap, after, rfl, hbefore, hgap⟩
    refine ⟨before, name.toList ++ (gap ++ ['(']), after, by simp, [], _, rfl, ⟨rfl, ?_⟩,
      name.toList, _, rfl, rfl, gap, _, rfl, hgap, ['('], [], rfl, rfl, rfl⟩
    simpa using (hboundary before gap after).mpr hbefore

/-- What has no line feed in it stands in a text before a line feed or behind it. -/
theorem infix_append_feed_iff {needle above below : List Char} (hneedle : '\n' ∉ needle) :
    needle <:+: above ++ '\n' :: below ↔ needle <:+: above ∨ needle <:+: below := by
  have hbehind : needle <:+: '\n' :: below → needle <:+: below := by
    rw [List.infix_cons_iff]
    rintro (hhead | hinside)
    · cases needle with
      | nil => exact List.nil_infix
      | cons c needle =>
          exact absurd ((List.cons_prefix_cons.mp hhead).1 ▸ List.mem_cons_self) hneedle
    · exact hinside
  rw [List.infix_append_iff]
  constructor
  · rintro (habove | hbelow | ⟨first, last, rfl, hfirst, hlast⟩)
    · exact .inl habove
    · exact .inr (hbehind hbelow)
    · cases last with
      | nil => exact .inl (by simpa using hfirst.isInfix)
      | cons c last =>
          refine absurd (List.mem_append_right _ ?_) hneedle
          exact (List.cons_prefix_cons.mp hlast).1 ▸ List.mem_cons_self
  · rintro (habove | hbelow)
    · exact .inl habove
    · exact .inr (.inl (List.infix_cons hbelow))

theorem infix_joinWith_iff {needle : List Char} (hne : needle ≠ []) (hneedle : '\n' ∉ needle) :
    needle <:+: Text.joinWith ['\n'] lines ↔ ∃ line ∈ lines, needle <:+: line := by
  induction lines with
  | nil => simpa [Text.joinWith] using hne
  | cons line lines ih =>
      by_cases hlines : lines = []
      · subst hlines
        simp [Text.joinWith]
      · rw [Text.joinWith_cons hlines, List.append_assoc, List.singleton_append,
          infix_append_feed_iff hneedle, List.exists_mem_cons_iff]
        exact or_congr_right ih

/-- A text without line feeds is named by lines if it stands on one of them. -/
theorem names_iff {call : String} (hne : call.toList ≠ []) (hfeed : '\n' ∉ call.toList) :
    names call lines = true ↔ ∃ line ∈ lines, call.toList <:+: line := by
  rw [← infix_joinWith_iff hne hfeed, names, Text.occurs_iff]
  exact exists_congr fun before => exists_congr fun after => eq_comm

theorem release_ne_nil : ∀ resource ∈ resources, resource.release.toList ≠ [] := by decide

theorem feed_not_mem_release : ∀ resource ∈ resources, '\n' ∉ resource.release.toList := by decide

theorem names_release_iff {resource : Resource} (hresource : resource ∈ resources) :
    names resource.release lines = true ↔ ∃ line ∈ lines, resource.release.toList <:+: line :=
  names_iff (release_ne_nil resource hresource) (feed_not_mem_release resource hresource)

/-- Lines that name the same release calls release the same. -/
theorem released_congr {lines' : List (List Char)}
    (h : ∀ resource ∈ resources, (∃ line ∈ lines', resource.release.toList <:+: line) ↔
      ∃ line ∈ lines, resource.release.toList <:+: line) (path : String) :
    (Source.of ⟨path, lines'⟩).released = (Source.of ⟨path, lines⟩).released := by
  have hnames : ∀ call ∈ resources.map (·.release), names call lines' = names call lines := by
    refine List.forall_mem_map.mpr fun resource hresource => ?_
    rw [Bool.eq_iff_iff, names_release_iff hresource, names_release_iff hresource]
    exact h resource hresource
  exact List.filter_congr hnames

/-! ## Lines in front of a text -/

/-- Regions do not depend on where the lines are counted from. -/
theorem regionIndexes_shift (current : Option Region) (k index : Nat) (lines : List (List Char)) :
    regionIndexes current (k + index) lines = (regionIndexes current index lines).map (k + ·) := by
  induction lines generalizing current index with
  | nil => rfl
  | cons line lines ih =>
      cases current with
      | some region => simp only [regionIndexes, Nat.add_assoc, ih, List.map_cons]
      | none =>
          simp only [regionIndexes, Nat.add_assoc, ih]
          split
          · rw [List.map_cons]
          · rfl

/-- No region is under way behind lines in which none starts. -/
theorem regionIndexes_below (habove : ∀ line ∈ above, asyncStart.occursIn line = false)
    (index : Nat) :
    regionIndexes none index (above ++ lines) =
      regionIndexes none (index + above.length) lines := by
  induction above generalizing index with
  | nil => rfl
  | cons line above ih =>
      obtain ⟨hline, habove⟩ := List.forall_mem_cons.mp habove
      rw [List.cons_append, regionIndexes, hline, if_neg Bool.false_ne_true, ih habove,
        List.length_cons, Nat.add_right_comm, Nat.add_assoc]

/-- Below lines without text the asynchronous lines are the same lines. -/
theorem contains_asyncLines_below (habove : ∀ line ∈ above, Text.isBlankText line = true)
    (lines : List (List Char)) (index : Nat) :
    (asyncLines (above ++ lines)).contains (above.length + index) =
      (asyncLines lines).contains index := by
  have hasync : asyncLines (above ++ lines) = (asyncLines lines).map (above.length + ·) := by
    rw [asyncLines, asyncLines,
      regionIndexes_below fun line hline =>
        occursIn_eq_false_of_blank needsText_asyncStart (habove line hline),
      Nat.zero_add, ← regionIndexes_shift, Nat.add_zero]
  rw [hasync, Bool.eq_iff_iff]
  simp

/-- Below empty lines a line looks as it does in the text. -/
theorem looksAlike_below (name : String) (lines : List (List Char)) (path : String)
    (k index : Nat) :
    LooksAlike name (Source.of ⟨path, lines⟩) index (Source.of ⟨path, List.replicate k [] ++ lines⟩)
      (k + index) where
  async _ := by
    have habove : ∀ line ∈ List.replicate k ([] : List Char), Text.isBlankText line = true :=
      fun line hline => List.eq_of_mem_replicate hline ▸ rfl
    have hasync := contains_asyncLines_below habove lines index
    rwa [List.length_replicate] at hasync
  released := by
    refine released_congr (fun resource hresource => ?_) path
    simp [or_and_right, exists_or, release_ne_nil resource hresource]

/-- Below line feeds the detectors find what they find in the text, on lines further down. -/
theorem raised_below (path : String) (content : List Char) (k : Nat) :
    (raised path (List.replicate k '\n' ++ content)).map (·.bounded.withoutContext) =
      (raised path content).map (·.bounded.withoutContext.lowered k) := by
  refine passesOverBlanks_detectors.map_run_below Source.of path content k ?_
  intro entry hentry line index
  exact map_detector_eq hentry (looksAlike_below entry.1 _ path k index)
    fun severity message recommendation =>
      SourceFile.findingAt_below List.length_replicate path _ index entry.1 severity message
        recommendation none

/-! ## The order of the lines -/

/-- What a finding tells, apart from where: its name, how severe it is, its message and the line it
quotes. -/
def told (f : Finding) : String × Severity × String × Option String :=
  (f.kind, f.severity, f.message, f.code)

theorem told_findingAt {file : SourceFile} {index : Nat} {line : List Char}
    (hline : file.lines[index]? = some line) (kind : String) (severity : Severity)
    (message recommendation : String) :
    told (file.findingAt index kind severity message recommendation).bounded =
      (kind, severity, message, Source.asText? (Snippet.truncate (Text.strip line))) := by
  rw [← Source.quoted_of_getElem? hline,
    ← SourceFile.code_findingAt file index kind severity message recommendation none]
  rfl

/-- What a detector tells of a line on its own, with some release calls named around it. -/
def toldAlone (detector : LineDetector) (released : List String) (line : List Char) :
    List (String × Severity × String × Option String) :=
  (detector line 0 { path := "", lines := [line], asyncLines := [], released }).map fun f =>
    told f.bounded

/-- A detector that does not look for blocking code tells of each line what it tells of the line on
its own. -/
theorem map_told_filter_raised {entry : String × LineDetector} (hentry : entry ∈ detectors.entries)
    (hname : entry.1 ≠ "blocking_code_in_async") (path : String) (content : List Char) :
    ((raised path content).filter (·.kind = entry.1)).map (fun f => told f.bounded) =
      (Text.sourceLines content).flatMap
        (toldAlone entry.2 (Source.of (.ofContent path content)).released) := by
  have hline : ∀ numbered ∈ (Text.sourceLines content).zipIdx,
      (entry.2 numbered.1 numbered.2 (Source.of (.ofContent path content))).map
        (fun f => told f.bounded) =
        toldAlone entry.2 (Source.of (.ofContent path content)).released numbered.1 := by
    rintro ⟨line, index⟩ hline
    refine map_detector_eq hentry ⟨fun h => absurd h hname, rfl⟩
      fun severity message recommendation => ?_
    have halone : (⟨"", [line]⟩ : SourceFile).lines[0]? = some line := rfl
    rw [told_findingAt (List.mk_mem_zipIdx_iff_getElem?.mp hline)]
    exact (told_findingAt halone ..).symm
  have hfiltered : (raised path content).filter (·.kind = entry.1) =
      (Text.sourceLines content).zipIdx.flatMap fun numbered =>
        entry.2 numbered.1 numbered.2 (Source.of (.ofContent path content)) :=
    Rule.Registry.filter_run reportsLines_detectors.labelled hentry _ _
  have hnumbers :=
    List.flatMap_map Prod.fst (toldAlone entry.2 (Source.of (.ofContent path content)).released)
    (Text.sourceLines content).zipIdx
  rw [List.zipIdx_map_fst] at hnumbers
  rw [hfiltered, List.map_flatMap, List.flatMap_congr hline, hnumbers]

theorem eq_of_message_eq {resource other : Resource} (hresource : resource ∈ resources)
    (hother : other ∈ resources) (h : other.message = resource.message) : other = resource := by
  have hnodup : (resources.map (·.message)).Nodup := by decide
  exact List.inj_on_of_nodup_map hnodup hother hresource h

/-- A scan reports on a line that a resource is not released if the line acquires it and nothing in
the file names what releases it. -/
theorem exists_mem_raised_leak_iff {resource : Resource} (hresource : resource ∈ resources)
    (path : String) (content : List Char) (index : Nat) :
    (∃ f ∈ raised path content, f.kind = "memory_leak" ∧ f.message = resource.message ∧
        f.line = some ((index : Int) + 1)) ↔
      ∃ line, (Text.sourceLines content)[index]? = some line ∧
      resource.acquire.occursIn line = true ∧
        ∀ other ∈ Text.sourceLines content, ¬resource.release.toList <:+: other := by
  have hentry : ("memory_leak", detectMemoryLeak) ∈ detectors.entries := by
    simp [detectors]
  have hreleased :
      (!(Source.of (.ofContent path content)).released.contains resource.release) = true ↔
      ∀ other ∈ Text.sourceLines content, ¬resource.release.toList <:+: other := by
    rw [Bool.not_eq_true', Bool.eq_false_iff, ne_eq, List.contains_iff_mem, Source.of,
      List.mem_filter, SourceFile.ofContent, names_release_iff hresource,
        and_iff_right (List.mem_map_of_mem hresource)]
    push Not
    rfl
  constructor
  · rintro ⟨f, hf, hkind, hmessage, hnumber⟩
    have hmem : f ∈ (raised path content).filter (·.kind = "memory_leak") :=
      List.mem_filter.mpr ⟨hf, decide_eq_true hkind⟩
    rw [raised, Rule.Registry.filter_run reportsLines_detectors.labelled hentry] at hmem
    obtain ⟨⟨line, i⟩, hline, hdetected⟩ := List.mem_flatMap.mp hmem
    obtain ⟨other, hother, rfl⟩ := List.mem_map.mp hdetected
    obtain ⟨hother, hleaks⟩ := List.mem_filter.mp hother
    obtain rfl := eq_of_message_eq hresource hother hmessage
    obtain rfl : i = index := by
      have hsame : (i : Int) + 1 = (index : Int) + 1 := Option.some.inj hnumber
      omega
    obtain ⟨hunreleased, hacquired⟩ := Bool.and_eq_true_iff.mp hleaks
    exact ⟨line, List.mk_mem_zipIdx_iff_getElem?.mp hline, hacquired, hreleased.mp hunreleased⟩
  · rintro ⟨line, hline, hacquired, hunreleased⟩
    refine ⟨_,
      Rule.Registry.mem_run_iff.mpr ⟨line, index, List.mk_mem_zipIdx_iff_getElem?.mpr hline, _,
        hentry, List.mem_map_of_mem (List.mem_filter.mpr ⟨hresource, ?_⟩)⟩, rfl, rfl, rfl⟩
    rw [hreleased.mpr hunreleased, hacquired]
    rfl

/-- The order of the lines does not matter for what is told of wasteful operations and of resources
that are not released, and how often. On a line stands a finding about a resource exactly when the
line acquires it and no line of the file, above or below, has the name of what releases it in it. -/
theorem scan_perm {content content' : List Char} (hpath : path ≠ "")
    (hperm : (Text.sourceLines content').Perm (Text.sourceLines content)) :
    ∃ found found', scan path content = .ok found ∧ scan path content' = .ok found' ∧
      (∀ name ∈ ["inefficient_operation", "memory_leak"],
        ((found'.filter (·.kind = name)).map told).Perm ((found.filter (·.kind = name)).map told)) ∧
      ∀ call resource,
        (call, resource) ∈ ["addEventListener", "setInterval", "setTimeout"].zip resources →
        ∀ index : Nat,
          (∃ f ∈ found, f.kind = "memory_leak" ∧ f.message = resource.message ∧
              f.line = some ((index : Int) + 1)) ↔
            ∃ line, (Text.sourceLines content)[index]? = some line ∧ Calls call line ∧
              ∀ other ∈ Text.sourceLines content, ¬resource.release.toList <:+: other := by
  refine ⟨_, _, scan_eq_ok_iff.mpr ⟨.inl hpath, rfl⟩, scan_eq_ok_iff.mpr ⟨.inl hpath, rfl⟩,
    fun name hname => ?_, fun call resource hcall index => ?_⟩
  · have hreleased : (Source.of (.ofContent path content')).released =
        (Source.of (.ofContent path content)).released :=
      released_congr (fun resource _ => by simp only [hperm.mem_iff]) path
    have htold :
        ∀ content, (((raised path content).map Finding.bounded).filter (·.kind = name)).map told =
          ((raised path content).filter (·.kind = name)).map fun f => told f.bounded := by
      intro content
      rw [List.filter_map, List.map_map]
      rfl
    obtain ⟨detector, hentry, hother⟩ : ∃ detector, (name, detector) ∈ detectors.entries ∧
        name ≠ "blocking_code_in_async" := by
      simp only [List.mem_cons, List.not_mem_nil, or_false] at hname
      rcases hname with rfl | rfl
      · exact ⟨detectInefficientOperation, by simp [detectors], by decide⟩
      · exact ⟨detectMemoryLeak, by simp [detectors], by decide⟩
    rw [htold, htold, map_told_filter_raised hentry hother,
      map_told_filter_raised hentry hother, hreleased]
    exact hperm.flatMap_right _
  · have hacquires : resource ∈ resources ∧ ∀ line, resource.acquire.occursIn line = true ↔
        Calls call line := by
      simp only [resources, List.zip_cons_cons, List.zip_nil_right, List.mem_cons,
        List.not_mem_nil, or_false, Prod.mk.injEq] at hcall
      rcases hcall with ⟨rfl, rfl⟩ | ⟨rfl, rfl⟩ | ⟨rfl, rfl⟩
      · exact ⟨by simp [resources], fun line => occursIn_callOf_iff rfl (by decide)⟩
      · exact ⟨by simp [resources], fun line => occursIn_callOf_iff rfl (by decide)⟩
      · exact ⟨by simp [resources], fun line => occursIn_callOf_iff rfl (by decide)⟩
    have hraised := exists_mem_raised_leak_iff hacquires.1 path content index
    simp only [hacquires.2] at hraised
    rw [← hraised]
    simp only [List.mem_map, exists_exists_and_eq_and]
    rfl

/-- Two timers, of which one is released on the last line, and on the first line when the lines are
turned around: either way only the other one is reported. -/
theorem scan_perm_timers :
    ∃ found found',
      scan "timers.js" "setInterval(tick);\nsetTimeout(stop);\nclearInterval(t);".toList =
        .ok found ∧
      scan "timers.js" "clearInterval(t);\nsetTimeout(stop);\nsetInterval(tick);".toList =
        .ok found' ∧
      ((found'.filter (·.kind = "memory_leak")).map told).Perm
        ((found.filter (·.kind = "memory_leak")).map told) ∧
      (∃ f ∈ found, f.kind = "memory_leak" ∧
        f.message = "setTimeout used without clearTimeout - potential memory leak" ∧
        f.line = some 2) ∧
      ¬∃ f ∈ found, f.kind = "memory_leak" ∧
        f.message = "setInterval used without clearInterval - potential memory leak" ∧
        f.line = some 1 := by
  have hpath : "timers.js" ≠ "" := by decide
  have hperm :
      (Text.sourceLines "clearInterval(t);\nsetTimeout(stop);\nsetInterval(tick);".toList).Perm
      (Text.sourceLines "setInterval(tick);\nsetTimeout(stop);\nclearInterval(t);".toList) := by
    decide +kernel
  obtain ⟨found, found', hscan, hscan', htold, hleak⟩ := scan_perm hpath hperm
  refine ⟨found, found', hscan, hscan', htold _ (by decide), ?_, ?_⟩
  · refine (hleak "setTimeout" _ (.tail _ (.tail _ (.head _))) 1).mpr
      ⟨"setTimeout(stop);".toList, by decide +kernel, ?_, by decide +kernel⟩
    exact ⟨[], [], "stop);".toList, rfl, rfl, nofun⟩
  · rw [show some (1 : Int) = some ((0 : Nat) + 1 : Int) from rfl,
      hleak "setInterval" _ (.tail _ (.head _)) 0]
    rintro ⟨-, -, -, hunreleased⟩
    exact hunreleased "clearInterval(t);".toList (by decide +kernel) (by decide +kernel)

end FrontendAudit.Performance
