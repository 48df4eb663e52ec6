import FrontendAudit.Proofs.Audit.Answers
import FrontendAudit.Proofs.Page.Fetch
import FrontendAudit.Proofs.Retry.Calls

/-!
# Visits to pages

Addresses are visited one after the other. A visit (`Visit`) calls its address until a page is
fetched, as often as is allowed, and what is found on that page is what it contributes; of a page
that is not fetched there is a warning, and nothing is found. All that was found is what the visits
have found, in order (`InTurn.checkAll`), unless one address ends the run: a call of it crashes, or
the pause after a failed call could not be told (`StopsAt`).

Where no answer sends the client on, a call asks for one page, so that each visit can be told which
answers it gets (`InTurn.askedFor`), and an address whose page is not fetched takes nothing away
from the others (`InTurn.checkAll_without`).
-/

namespace FrontendAudit

/-! ## Requests and their answers -/

/-- The value that an attempt gives, if it does. -/
def Attempt.value? {ε α : Type} : Attempt ε α → Option α
  | .value a => some a
  | _ => none

/-- The reason for which an attempt fails, if it does. -/
def Attempt.reason? {ε α : Type} : Attempt ε α → Option String
  | .failure reason => some reason
  | _ => none

/-- The page that is asked for, if one is. -/
def Note.fetched? : Note → Option String
  | .fetched url => some url
  | _ => none

/-- The warning that a page is skipped, if it is one. -/
def Note.skipped? : Note → Option String
  | .warning text => if "Skipping ".toList.isPrefixOf text.toList then some text else none
  | _ => none

/-- Whether an answer sends the client on to another address. -/
def Http.Answer.sendsOn : Answer → Bool
  | .reply status (some _) _ => isRedirect status
  | _ => false

/-- The page that an answer gives. -/
def Http.Answer.page? : Answer → Option (List Char)
  | .reply status _ body => if isSuccess status then some body.toText.toList else none
  | .unreachable => none

namespace World

/-- The pages that were asked for, in order. -/
def asked (w : World) : List String := w.notes.filterMap Note.fetched?

/-- The warnings that pages are skipped. -/
def skipped (w : World) : List String := w.notes.filterMap Note.skipped?

/-- The answer that asking for a page gets when it was asked for some times. -/
def pageAt (w : World) (url : String) (i : Nat) : Http.Answer :=
  answerAt .unreachable (scriptOf url w.pages) i

/-- No answer sends the client on. -/
def StaysPut (w : World) : Prop := ∀ url i, (w.pageAt url i).sendsOn = false

/-- What becomes of a world when pages are asked for: the requests are noted, and their answers are
used up. -/
structure AskedFor (w : World) (urls : List String) (w' : World) : Prop where
  asked : w'.asked = w.asked ++ urls
  pageAt : ∀ url i, w'.pageAt url i = w.pageAt url (urls.count url + i)

variable {w w' w'' : World} {urls more : List String}

theorem staysPut_of_pages (h : ∀ script ∈ w.pages, ∀ answer ∈ script.2, answer.sendsOn = false) :
    w.StaysPut := by
  have hscript : ∀ url, ∀ answer ∈ scriptOf url w.pages, answer.sendsOn = false := by
    intro url answer hanswer
    rw [scriptOf] at hanswer
    cases hfind : w.pages.find? (·.1 = url) with
    | none =>
        rw [hfind] at hanswer
        cases hanswer
    | some script =>
        rw [hfind] at hanswer
        exact h script (List.mem_of_find?_eq_some hfind) answer hanswer
  intro url i
  have hanswer : w.pageAt url i ∈ .unreachable :: scriptOf url w.pages := answerAt_mem _ i
  rcases List.mem_cons.mp hanswer with hnone | hmem
  · rw [hnone]
    rfl
  · exact hscript url _ hmem

theorem pageAt_zero (url : String) : w.pageAt url 0 = (fetch url w).1 := answerAt_zero

namespace AskedFor

theorem refl (w : World) : AskedFor w [] w where
  asked := (List.append_nil _).symm
  pageAt url i := by rw [List.count_nil, Nat.zero_add]

theorem trans (h : AskedFor w urls w') (h' : AskedFor w' more w'') :
    AskedFor w (urls ++ more) w'' where
  asked := by rw [h'.asked, h.asked, List.append_assoc]
  pageAt url i := by rw [h'.pageAt, h.pageAt, List.count_append, Nat.add_assoc]

theorem fetch (url : String) (w : World) : AskedFor w [url] (World.fetch url w).2 where
  asked := List.filterMap_append
  pageAt other i := by
    by_cases hother : other = url
    · subst hother
      have hscript : scriptOf other (World.fetch other w).2.pages =
          (nextAnswer .unreachable (scriptOf other w.pages)).2 :=
            scriptOf_setScript_next w.pages _ _
      rw [World.pageAt, World.pageAt, hscript, List.count_singleton_self, Nat.add_comm 1,
        answerAt_succ]
    · have hscript : scriptOf other (World.fetch url w).2.pages = scriptOf other w.pages :=
        scriptOf_setScript_of_ne w.pages hother _
      rw [World.pageAt, World.pageAt, hscript, List.count_eq_zero.mpr (by simpa using hother),
        Nat.zero_add]

/-- Notes other than requests change nothing. -/
theorem note (h : AskedFor w urls w') {notes : List Note}
    (hnotes : notes.filterMap Note.fetched? = []) :
    AskedFor w urls (w'.note notes) where
  asked := by rw [World.asked, World.note, List.filterMap_append, hnotes,
    List.append_nil]; exact h.asked
  pageAt := h.pageAt

theorem staysPut (h : AskedFor w urls w') (hw : w.StaysPut) : w'.StaysPut := fun url i => by
  rw [h.pageAt]
  exact hw url _

end AskedFor

end World

namespace Page

open Retry (GoesOn Settles after followUp outcomeAt)

/-- One call of an address: an attempt to fetch its page. -/
def call (address : String) : World → Attempt Failure (List Char) × World :=
  Run.attempt (fetch address)

/-- A visit to an address in a world, whose calls all fail but perhaps the last one. -/
structure Visit where
  address : String
  start : World
  failed : Nat

namespace Visit

variable (p : RetryPolicy) (v : Visit)

/-- How often the address is called. -/
def calls : Nat := v.failed + 1

/-- How a call of the visit ends, counted from zero. -/
def outcome (i : Nat) : Attempt Failure (List Char) := outcomeAt (call v.address) i v.start

/-- The page that the last call fetches, if it does. -/
def page? : Option (List Char) := (v.outcome v.failed).value?

/-- What is found: what the checks find on the page, and nothing where none is fetched. -/
def found : List Finding :=
  v.page?.elim [] fun text => (findings v.address text).map Finding.bounded

/-- The warning that the page is skipped. -/
def skipText : String := "Skipping " ++ v.address ++ ": page could not be fetched"

/-- What is noted last: of a page that is not fetched an error, and a warning that it is skipped. -/
def lastNotes : List Note :=
  (v.outcome v.failed).reason?.elim [] fun reason =>
    [.error (Retry.lastText p ("Fetching " ++ v.address) reason), .warning v.skipText]

/-- What is noted: each failure that is followed by another call with the pause between them, and
what is noted last. -/
def notes : List Note :=
  ((List.range v.failed).flatMap fun i =>
    followUp p ("Fetching " ++ v.address) (1 + i) (v.outcome i)) ++
    v.lastNotes p

/-- The world that the visit leaves. -/
def left : World := (after (call v.address) v.calls v.start).note (v.notes p)

/-- The visit is made: there are as many calls as are allowed at most. All before the last one fail,
and the pauses after them can be told. The last one fetches a page, whose findings are accepted, or
fails as the last one that is allowed. -/
structure Made : Prop where
  allowed : v.calls ≤ p.attempts
  before : ∀ i < v.failed, GoesOn p (1 + i) (v.outcome i)
  ends : (∃ text, v.outcome v.failed = .value text) ∨
    v.calls = p.attempts ∧ ∃ reason, v.outcome v.failed = .failure reason
  accepted : ∀ text, v.page? = some text → Finding.acceptAll (findings v.address text) = .ok v.found

end Visit

/-- Some calls of an address fail and are followed by another, and the call after them ends so. -/
structure Reaches (p : RetryPolicy) (address : String) (w : World) (failed : Nat)
    (outcome : Attempt Failure (List Char)) : Prop where
  allowed : failed < p.attempts
  before : ∀ i < failed, GoesOn p (1 + i) (outcomeAt (call address) i w)
  last : outcomeAt (call address) failed w = outcome

/-- An address ends the run: after calls that failed one crashes, or fails where the pause after it
cannot be told, or fetches a page about which findings are not accepted, since the address is
empty. -/
inductive StopsAt (p : RetryPolicy) (address : String) (w : World) : Failure → Prop
  | crash {failed : Nat} {e : Failure} (h : Reaches p address w failed (.crash e)) :
      StopsAt p address w e
  | tooLong {failed : Nat} {reason : String} (h : Reaches p address w failed (.failure reason))
      (hleft : failed + 1 < p.attempts) (hpause : p.pauseAfter? (1 + failed) = none) :
      StopsAt p address w .pauseTooLong
  | unlocated {failed : Nat} {text : List Char} {m : Misfit}
      (h : Reaches p address w failed (.value text)) (haddress : address = "")
      (hmisfit : (Finding.acceptAll (findings address text)).toExcept = .error m) :
      StopsAt p address w (.misfit m)

/-- Visits that follow each other: each starts in the world that the one before has left. -/
inductive InTurn (p : RetryPolicy) : World → List Visit → World → Prop
  | nil (w : World) : InTurn p w [] w
  | cons {v : Visit} {visits : List Visit} {last : World} (made : v.Made p)
      (rest : InTurn p (v.left p) visits last) :
      InTurn p v.start (v :: visits) last

variable {p : RetryPolicy} {address : String} {addresses rest : List String} {v : Visit}
  {visits : List Visit} {found : List Finding} {w w' last : World} {e : Failure}

/-! ## One address -/

theorem Visit.found_of_page {text : List Char} (h : v.page? = some text) :
    v.found = (findings v.address text).map Finding.bounded := by
  rw [found, h, Option.elim_some]

theorem Visit.found_of_none (h : v.page? = none) : v.found = [] := by
  rw [found, h, Option.elim_none]

theorem note_note (w : World) (notes more : List Note) :
    (w.note notes).note more = w.note (notes ++ more) := by
  rw [World.note, World.note, List.append_assoc]
  rfl

/-- What comes of trying to fetch a page is told by the last call. -/
theorem retry_fetch {failed : Nat} {outcome : Attempt Failure (List Char)}
    (h : Reaches p address w failed outcome) {result : Except Failure (Option (List Char))}
    {last : List Note}
    (hsettles :
      Settles p ("Fetching " ++ address) (p.attempts - (failed + 1))
        (p.pauseAfter? (1 + failed)) outcome
      result last) :
    Run.retry p ("Fetching " ++ address) (fetch address) w =
      (result, (after (call address) (failed + 1) w).note
        (((List.range failed).flatMap fun i =>
          followUp p ("Fetching " ++ address) (1 + i) (outcomeAt (call address) i w)) ++
            last)) := by
  have hretry : Run.retry p ("Fetching " ++ address) (fetch address) w =
      let (retried, w') :=
        Retry.attemptFrom p ("Fetching " ++ address) (call address) p.attempts 1 w
      (retried.result, w'.note retried.notes) := rfl
  rw [hretry, Retry.attemptFrom_of_settles p _ (call address) h.allowed 1 w h.before
    (h.last ▸ hsettles)]

/-- A visit that is made gives what it finds, and leaves its world behind. -/
theorem Visit.Made.fetchedFindings (h : v.Made p) :
    fetchedFindings p v.address v.start = (.ok v.found, v.left p) := by
  rcases h.ends with ⟨text, htext⟩ | ⟨hlast, reason, hreason⟩
  · have hpage : v.page? = some text := congrArg Attempt.value? htext
    rw [Page.fetchedFindings, Run.bind_ok (retry_fetch ⟨h.allowed, h.before, htext⟩ (.value text))]
    dsimp only
    rw [h.accepted text hpage, Visit.left, Visit.notes, Visit.lastNotes, htext]
    rfl
  · have hpage : v.page? = none := congrArg Attempt.value? hreason
    have hnone : p.attempts - (v.failed + 1) = 0 := by
      rw [← hlast]
      exact Nat.sub_self _
    have hskipped : ∀ w : World, (do
        Run.note (.warning ("Skipping " ++ v.address ++ ": page could not be fetched"))
        return [] : Run (List Finding)) w = (.ok [], w.note [.warning v.skipText]) := fun _ => rfl
    rw [Page.fetchedFindings,
      Run.bind_ok (retry_fetch ⟨h.allowed, h.before, hreason⟩ (.exhausted reason hnone))]
    dsimp only
    rw [hskipped, note_note, Visit.found_of_none hpage, Visit.left, Visit.notes,
      Visit.lastNotes, hreason, List.append_assoc]
    rfl

theorem StopsAt.fetchedFindings (h : StopsAt p address w e) :
    (fetchedFindings p address w).1 = .error e := by
  cases h with
  | crash h => rw [Page.fetchedFindings, Run.bind_error (retry_fetch h (.crash e))]
  | tooLong h hleft hpause =>
      rw [Page.fetchedFindings,
        Run.bind_error (retry_fetch h (.tooLong _ (Nat.sub_pos_of_lt hleft) hpause))]
      rfl
  | unlocated h haddress hmisfit =>
      rw [Page.fetchedFindings, Run.bind_ok (retry_fetch h (.value _))]
      dsimp only
      rw [hmisfit]
      rfl

/-- An address is visited, or else ends the run. -/
theorem exists_made_or_stopsAt (hattempts : 0 < p.attempts) (address : String) (w : World) :
    (∃ failed, Visit.Made p ⟨address, w, failed⟩) ∨ ∃ e, StopsAt p address w e := by
  obtain ⟨k, hk, hbefore, result, last, hsettles⟩ :=
    Retry.exists_settles p ("Fetching " ++ address) (call address) hattempts 1 w
  cases hend : outcomeAt (call address) k w with
  | crash e => exact .inr ⟨e, .crash ⟨hk, hbefore, hend⟩⟩
  | failure reason =>
      rw [hend] at hsettles
      cases hsettles with
      | tooLong _ hleft hpause => exact .inr ⟨_, .tooLong ⟨hk, hbefore, hend⟩ (by omega) hpause⟩
      | exhausted _ hleft =>
          have hpage : (⟨address, w, k⟩ : Visit).page? = none := congrArg Attempt.value? hend
          have hlast : (⟨address, w, k⟩ : Visit).calls = p.attempts := by
            have hcalls : (⟨address, w, k⟩ : Visit).calls = k + 1 := rfl
            omega
          refine .inl ⟨k, hk, hbefore, .inr ⟨hlast, reason, hend⟩, fun text htext => ?_⟩
          rw [hpage] at htext
          cases htext
  | value text =>
      have hpage : (⟨address, w, k⟩ : Visit).page? = some text := congrArg Attempt.value? hend
      cases haccepted : Finding.acceptAll (findings address text) with
      | ok found =>
          refine .inl ⟨k, hk, hbefore, .inl ⟨text, hend⟩, fun text' htext' => ?_⟩
          obtain rfl : text = text' := Option.some.inj (hpage.symm.trans htext')
          rw [haccepted, Visit.found_of_page hpage, (acceptAll_findings_eq_ok_iff.mp haccepted).2]
      | bad issues =>
          have haddress : address = "" := by
            by_contra hne
            rw [acceptAll_findings_eq_ok_iff.mpr ⟨.inl hne, rfl⟩] at haccepted
            cases haccepted
          exact .inr ⟨_, .unlocated ⟨hk, hbefore, hend⟩ haddress (by rw [haccepted]; rfl)⟩

/-! ## One address after the other -/

theorem checkAll_cons (h : fetchedFindings p address w = (.ok found, w'))
    (addresses : List String) :
    checkAll p (address :: addresses) w =
      Prod.map (Except.map (found ++ ·)) id (checkAll p addresses w') := by
  rw [checkAll, Run.bind_ok h]
  rcases hrest : checkAll p addresses w' with ⟨e | more, w''⟩
  · exact Run.bind_error hrest
  · exact Run.bind_ok hrest

theorem checkAll_cons_error (h : (fetchedFindings p address w).1 = .error e)
    (addresses : List String) :
    (checkAll p (address :: addresses) w).1 = .error e := by
  have hfetched : fetchedFindings p address w = (.error e, (fetchedFindings p address w).2) :=
    Prod.ext h rfl
  rw [checkAll, Run.bind_error hfetched]

/-- Visits in turn give what they find, one after the other, in front of what is found on the pages
behind. -/
theorem InTurn.checkAll (h : InTurn p w visits last) (addresses : List String) :
    checkAll p (visits.map Visit.address ++ addresses) w =
      Prod.map (Except.map (visits.flatMap Visit.found ++ ·)) id
        (Page.checkAll p addresses last) := by
  induction h with
  | nil w =>
      rw [List.map_nil, List.nil_append]
      rcases Page.checkAll p addresses w with ⟨e | found, w'⟩ <;> rfl
  | @cons v visits last made rest ih =>
      rw [List.map_cons, List.cons_append, checkAll_cons made.fetchedFindings, ih,
        List.flatMap_cons]
      rcases Page.checkAll p addresses last with ⟨e | found, w'⟩
      · rfl
      · simp [Except.map]

/-- Addresses are visited in turn, up to the first that ends the run. -/
theorem exists_inTurn (hattempts : 0 < p.attempts) (addresses : List String) (w : World) :
    ∃ visits rest last, addresses = visits.map Visit.address ++ rest ∧ InTurn p w visits last ∧
      (rest = [] ∨ ∃ address more e, rest = address :: more ∧ StopsAt p address last e) := by
  induction addresses generalizing w with
  | nil => exact ⟨[], [], w, rfl, .nil w, .inl rfl⟩
  | cons address addresses ih =>
      rcases exists_made_or_stopsAt hattempts address w with ⟨failed, hmade⟩ | ⟨e, hstops⟩
      · obtain ⟨visits, rest, last, rfl, hturn, hrest⟩ := ih (Visit.left p ⟨address, w, failed⟩)
        exact ⟨⟨address, w, failed⟩ :: visits, rest, last, rfl, .cons hmade hturn, hrest⟩
      · exact ⟨[], address :: addresses, w, rfl, .nil w, .inr ⟨address, addresses, e, rfl, hstops⟩⟩

/-! ## Warnings -/

/-- What is noted between two calls does not matter to what does not look at it. -/
theorem Visit.filterMap_notes {look : Note → Option String}
    (hlook : ∀ number outcome,
      (followUp (ε := Failure) (α := List Char) p ("Fetching " ++ v.address) number
      outcome).filterMap look = []) :
    (v.notes p).filterMap look = (v.lastNotes p).filterMap look := by
  have hbetween : ((List.range v.failed).flatMap fun i =>
      (followUp p ("Fetching " ++ v.address) (1 + i) (v.outcome i)).filterMap look) = [] :=
    List.flatMap_eq_nil_iff.mpr fun i _ => hlook (1 + i) (v.outcome i)
  rw [Visit.notes, List.filterMap_append, List.filterMap_flatMap, hbetween, List.nil_append]

/-- Fetching a page warns of nothing. -/
theorem skipped_fetch (address : String) (w : World) : (fetch address w).2.skipped = w.skipped := by
  -- worlds with the same pages stay such, so that what is kept of one of them is kept
  have hagrees :
      Run.Agrees (fun v v' => v.skipped = w.skipped ∧ v.pages = v'.pages) (fetch address) := by
    refine fetch_agrees (fun url v v' h => ?_) address
    obtain ⟨hanswer, hpages⟩ := Run.fetch_pages url h.2
    have hskipped : (World.fetch url v).2.skipped = v.skipped :=
      List.filterMap_append.trans (List.append_nil _)
    exact ⟨congrArg Except.ok hanswer, hskipped.trans h.1, hpages⟩
  exact (hagrees w w ⟨rfl, rfl⟩).2.1

theorem snd_call (address : String) (w : World) : (call address w).2 = (fetch address w).2 := by
  rw [call, Run.attempt]
  rcases fetch address w with ⟨e | text, w'⟩
  · cases e <;> rfl
  · rfl

theorem skipped_after (address : String) (k : Nat) (w : World) :
    (after (call address) k w).skipped = w.skipped := by
  induction k generalizing w with
  | zero => rfl
  | succ k ih => rw [Retry.after_succ, ih, snd_call, skipped_fetch]

theorem skipped?_fetching (rest : String) :
    (Note.warning ("Fetching " ++ rest)).skipped? = none := by
  have hnot : "Skipping ".toList.isPrefixOf ("Fetching ".toList ++ rest.toList) = false := rfl
  rw [Note.skipped?, String.toList_append, hnot]
  rfl

theorem Visit.skipped?_skipText (v : Visit) :
    (Note.warning v.skipText).skipped? = some v.skipText := by
  have hskip : "Skipping ".toList.isPrefixOf v.skipText.toList = true := by
    rw [Visit.skipText, String.append_assoc, String.toList_append, List.isPrefixOf_iff_prefix]
    exact List.prefix_append _ _
  rw [Note.skipped?, if_pos hskip]

/-- A failure that is followed by another call is warned of, which is no warning that a page is
skipped. -/
theorem skipped_followUp (p : RetryPolicy) (address : String) (number : Nat)
    (outcome : Attempt Failure (List Char)) :
    (followUp p ("Fetching " ++ address) number outcome).filterMap Note.skipped? = [] := by
  unfold followUp
  split
  · next reason pause _ _ =>
      rw [List.filterMap_cons_none]
      · rfl
      · simp only [Retry.retryText, String.append_assoc]
        exact skipped?_fetching _
  · rfl

/-- A visit warns that its page is skipped if it does not fetch it, and once. -/
theorem Visit.Made.skipped_left (h : v.Made p) :
    (v.left p).skipped = v.start.skipped ++ if v.page?.isNone then [v.skipText] else [] := by
  have hlast :
      (v.lastNotes p).filterMap Note.skipped? = if v.page?.isNone then [v.skipText] else [] := by
    rcases h.ends with ⟨text, htext⟩ | ⟨-, reason, hreason⟩
    · rw [Visit.lastNotes, Visit.page?, htext]
      rfl
    · rw [Visit.lastNotes, Visit.page?, hreason]
      exact List.filterMap_cons_some v.skipped?_skipText
  rw [Visit.left, World.skipped, World.note, List.filterMap_append,
    Visit.filterMap_notes (skipped_followUp p v.address), hlast]
  exact congrArg (· ++ _) (skipped_after v.address v.calls v.start)

/-- Visits in turn warn that the pages are skipped that they do not fetch, one after the other. -/
theorem InTurn.skipped (h : InTurn p w visits last) :
    last.skipped = w.skipped ++ (visits.filter fun v => v.page?.isNone).map Visit.skipText := by
  induction h with
  | nil w => exact (List.append_nil _).symm
  | @cons v visits last made rest ih =>
      rw [ih, made.skipped_left, List.filter_cons, List.append_assoc]
      cases v.page?.isNone <;> rfl

/-! ## What is asked for -/

/-- An address of a page: it is not empty, and an address. -/
def IsAddress (address : String) : Prop := address ≠ "" ∧ (Url.ofString address).isOk = true

instance (address : String) : Decidable (IsAddress address) := inferInstanceAs (Decidable (_ ∧ _))

/-- The page that an address asks for. -/
def target (address : String) : String :=
  match Url.ofString address with
  | .ok u => (Url.behind {} u).toString
  | .error _ => ""

/-- How a call ends when its request is answered. -/
def ending (address : String) (answer : Http.Answer) : Attempt Failure (List Char) :=
  match answer.page? with
  | some text => .value text
  | none => .failure ("Could not fetch " ++ address)

/-- Without being sent on a client follows an address by asking for it once. -/
theorem follow_of_stays (fuel : Nat) (url : Url)
    (hstays : (w.pageAt url.toString 0).sendsOn = false) :
    follow fuel url w = (.ok (w.pageAt url.toString 0).page?, (World.fetch url.toString w).2) := by
  have hasked : Run.act (World.fetch url.toString) w =
      (.ok (w.pageAt url.toString 0), (World.fetch url.toString w).2) := by
    rw [World.pageAt_zero]
    rfl
  rw [follow.eq_def]
  dsimp only
  rw [Run.bind_ok hasked]
  revert hstays
  cases w.pageAt url.toString 0 with
  | unreachable => exact fun _ => rfl
  | reply status location body =>
      cases location with
      | none => exact fun _ => rfl
      | some location =>
          -- the reply names another address, but its status sends nobody there
          intro hstays
          have hstatus : Http.isRedirect status = false := hstays
          dsimp only
          rw [hstatus]
          rfl

/-- Fetching a page asks for it once, and gives what its answer has. -/
theorem fetch_of_staysPut (hw : w.StaysPut) (haddress : IsAddress address) :
    fetch address w =
      (match (w.pageAt (target address) 0).page? with
        | some text => .ok text
        | none => .error (.outside ("Could not fetch " ++ address)),
      (World.fetch (target address) w).2) := by
  obtain ⟨u, hu⟩ : ∃ u, Url.ofString address = .ok u := by
    have hread := haddress.2
    cases hu : Url.ofString address with
    | ok u => exact ⟨u, rfl⟩
    | error fault =>
        rw [hu] at hread
        cases hread
  have htarget : target address = (Url.behind {} u).toString := by rw [target, hu]
  have hread : (Run.ofExcept Failure.badAddress (Url.ofString address) : Run Url) w =
      (.ok u, w) := by
    rw [hu]
    rfl
  rw [fetch, Run.bind_ok hread, Run.bind_ok (follow_of_stays redirectLimit _ (hw _ 0)), htarget]
  cases (w.pageAt (Url.behind {} u).toString 0).page? <;> rfl

theorem call_of_staysPut (hw : w.StaysPut) (haddress : IsAddress address) :
    call address w =
      (ending address (w.pageAt (target address) 0), (World.fetch (target address) w).2) := by
  rw [call, Run.attempt, fetch_of_staysPut hw haddress, ending]
  cases (w.pageAt (target address) 0).page? <;> rfl

theorem askedFor_after (hw : w.StaysPut) (haddress : IsAddress address) (k : Nat) :
    w.AskedFor (List.replicate k (target address)) (after (call address) k w) := by
  induction k generalizing w with
  | zero => exact .refl w
  | succ k ih =>
      have hfirst := World.AskedFor.fetch (target address) w
      rw [Retry.after_succ, call_of_staysPut hw haddress]
      exact hfirst.trans (ih (hfirst.staysPut hw))

/-- The calls of an address end as its answers have it, one after the other. -/
theorem outcomeAt_of_staysPut (hw : w.StaysPut) (haddress : IsAddress address) (i : Nat) :
    outcomeAt (call address) i w = ending address (w.pageAt (target address) i) := by
  have hasked := askedFor_after hw haddress i
  rw [outcomeAt, call_of_staysPut (hasked.staysPut hw) haddress, hasked.pageAt,
    List.count_replicate_self, Nat.add_zero]

theorem fetched_followUp (p : RetryPolicy) (description : String) (number : Nat)
    (outcome : Attempt Failure (List Char)) :
    (followUp p description number outcome).filterMap Note.fetched? = [] := by
  unfold followUp
  split <;> rfl

theorem Visit.fetched_notes (p : RetryPolicy) (v : Visit) :
    (v.notes p).filterMap Note.fetched? = [] := by
  rw [Visit.filterMap_notes (fetched_followUp p _), Visit.lastNotes]
  cases (v.outcome v.failed).reason? <;> rfl

/-- The pages that a visit asks for where no answer sends the client on: one and the same, call by
call. -/
def Visit.requests (v : Visit) : List String := List.replicate v.calls (target v.address)

theorem Visit.askedFor_left (hw : v.start.StaysPut) (haddress : IsAddress v.address)
    (p : RetryPolicy) :
    v.start.AskedFor v.requests (v.left p) :=
  (askedFor_after hw haddress v.calls).note (v.fetched_notes p)

/-- Visits in turn ask for the pages of their addresses, one after the other. -/
theorem InTurn.askedFor (h : InTurn p w visits last) (hw : w.StaysPut)
    (haddresses : ∀ v ∈ visits, IsAddress v.address) :
    w.AskedFor (visits.flatMap Visit.requests) last := by
  induction h with
  | nil w => exact .refl w
  | @cons v visits last made rest ih =>
      obtain ⟨haddress, haddresses⟩ := List.forall_mem_cons.mp haddresses
      have hfirst := Visit.askedFor_left hw haddress p
      rw [List.flatMap_cons]
      exact hfirst.trans (ih (hfirst.staysPut hw) haddresses)

/-- Where no answer sends the client on, an address ends the run only by a pause that could not be
told. -/
theorem StopsAt.tooLong_of_staysPut (h : StopsAt p address w e) (hw : w.StaysPut)
    (haddress : IsAddress address) :
    e = .pauseTooLong ∧ ¬p.TellsPauses := by
  cases h with
  | crash h =>
      have hcrash := h.last
      rw [outcomeAt_of_staysPut hw haddress, ending] at hcrash
      split at hcrash <;> cases hcrash
  | tooLong h hleft hpause =>
      refine ⟨rfl, fun htells => ?_⟩
      have hsome := htells _ hleft
      rw [hpause] at hsome
      cases hsome
  | unlocated h hempty hmisfit => exact absurd hempty haddress.1

/-- What is no address ends the run. -/
theorem stopsAt_of_fault {fault : Url.Fault} (hfault : Url.ofString address = .error fault)
    (hattempts : 0 < p.attempts) (w : World) : StopsAt p address w (.badAddress fault) := by
  have hread : (Run.ofExcept Failure.badAddress (Url.ofString address) : Run Url) w =
      (.error (.badAddress fault), w) := by
    rw [hfault]
    rfl
  have hfetch : fetch address w = (.error (.badAddress fault), w) := by
    rw [fetch, Run.bind_error hread]
  have hfirst : outcomeAt (call address) 0 w = (call address w).1 := rfl
  refine .crash ⟨hattempts, nofun, ?_⟩
  rw [hfirst, call, Run.attempt, hfetch]

/-- Visits in turn, split where one of them starts. -/
theorem InTurn.split {above below : List Visit} (h : InTurn p w (above ++ v :: below) last) :
    InTurn p w above v.start ∧ v.Made p ∧ InTurn p (v.left p) below last := by
  induction above generalizing w with
  | nil =>
      cases h with
      | cons made rest => exact ⟨.nil _, made, rest⟩
  | cons first above ih =>
      cases h with
      | cons made rest =>
          obtain ⟨habove, hmade, hbelow⟩ := ih rest
          exact ⟨.cons made habove, hmade, hbelow⟩

/-! ## Addresses without each other -/

/-- Two worlds in which no answer sends the client on, and which have the same answers but for one
page. -/
structure AlikeBut (url : String) (w w' : World) : Prop where
  staysPut : w.StaysPut
  staysPut' : w'.StaysPut
  pageAt : ∀ other ≠ url, ∀ i, w'.pageAt other i = w.pageAt other i

/-- The page of another address is fetched alike. -/
theorem fetch_agrees_alikeBut {url : String} (haddress : IsAddress address)
    (hother : target address ≠ url) :
    Run.Agrees (AlikeBut url) (fetch address) := by
  intro w w' h
  have hfirst := World.AskedFor.fetch (target address) w
  have hfirst' := World.AskedFor.fetch (target address) w'
  rw [fetch_of_staysPut h.staysPut haddress, fetch_of_staysPut h.staysPut' haddress,
    h.pageAt _ hother]
  refine ⟨rfl, hfirst.staysPut h.staysPut, hfirst'.staysPut h.staysPut', fun other hne i => ?_⟩
  rw [hfirst.pageAt, hfirst'.pageAt, h.pageAt other hne]

/-- Without a visit that finds nothing, and whose page no later visit asks for, the same is
found. -/
theorem InTurn.checkAll_without {above below : List Visit}
    (h : InTurn p w (above ++ v :: below) last) (hw : w.StaysPut)
    (haddresses : ∀ u ∈ above ++ v :: below, IsAddress u.address)
    (hothers : ∀ u ∈ below, target u.address ≠ target v.address) :
    (Page.checkAll p ((above ++ below).map Visit.address) w).1 =
      .ok ((above ++ below).flatMap Visit.found) := by
  obtain ⟨habove, -, hbelow⟩ := h.split
  obtain ⟨habove', hv, hbelow'⟩ : (∀ u ∈ above, IsAddress u.address) ∧ IsAddress v.address ∧
      ∀ u ∈ below, IsAddress u.address := by
    simpa [or_imp, forall_and] using haddresses
  have hstart : v.start.StaysPut := (habove.askedFor hw habove').staysPut hw
  have hleft := Visit.askedFor_left hstart hv p
  have halike : AlikeBut (target v.address) v.start (v.left p) := by
    refine ⟨hstart, hleft.staysPut hstart, fun other hne i => ?_⟩
    rw [hleft.pageAt, List.count_eq_zero.mpr, Nat.zero_add]
    exact fun hmem => hne (List.eq_of_mem_replicate hmem)
  have hagrees :
      Run.Agrees (AlikeBut (target v.address)) (Page.checkAll p (below.map Visit.address)) := by
    refine checkAll_agrees (fun w w' _ _ h => ⟨h.staysPut, h.staysPut', h.pageAt⟩) p ?_
    refine List.forall_mem_map.mpr fun u hu => ?_
    exact fetch_agrees_alikeBut (hbelow' u hu) (hothers u hu)
  have hfound :
      (Page.checkAll p (below.map Visit.address) v.start).1 = .ok (below.flatMap Visit.found) := by
    have hrest := hbelow.checkAll []
    rw [List.append_nil] at hrest
    rw [(hagrees _ _ halike).1, hrest]
    exact congrArg Except.ok (List.append_nil _)
  rw [List.map_append, habove.checkAll, List.flatMap_append]
  exact congrArg (Except.map _) hfound

/-! ## All addresses -/

/-- What comes of visiting addresses: which visits there are, and what is left of the addresses. -/
structure Account (p : RetryPolicy) (addresses : List String) (w : World) (visits : List Visit)
    (rest : List String) (last : World) : Prop where
  /-- The addresses are visited in their order, repeated ones as often as they stand there. -/
  visited : addresses = visits.map Visit.address ++ rest
  inTurn : InTurn p w visits last
  /-- All of them are visited, and what the visits have found is found, or else one ends the run. -/
  result : rest = [] ∧ checkAll p addresses w = (.ok (visits.flatMap Visit.found), last) ∨
    ∃ address more e, rest = address :: more ∧ StopsAt p address last e ∧
    (checkAll p addresses w).1 = .error e
  /-- There is a warning for each page that is not fetched. -/
  skipped : last.skipped = w.skipped ++ (visits.filter fun v => v.page?.isNone).map Visit.skipText

/-- Which answer each call of the visits gets, where no answer sends the client on. -/
structure Attribution (p : RetryPolicy) (w : World) (visits : List Visit) (rest : List String)
    (last : World) :
    Prop where
  /-- Where all pauses can be told, all addresses are visited. -/
  finished : p.TellsPauses → rest = []
  asked : last.asked = w.asked ++ visits.flatMap Visit.requests
  /-- A call gets the next answer of the page of its own address. -/
  answered : ∀ above v below, visits = above ++ v :: below → ∀ i, v.outcome i =
    ending v.address
      (w.pageAt (target v.address) ((above.flatMap Visit.requests).count (target v.address) + i))
  /-- Without an address whose page is not fetched, and not asked for later on, the same is
  found. -/
  undisturbed : ∀ above v below, visits = above ++ v :: below → v.page? = none →
    (∀ u ∈ below, target u.address ≠ target v.address) →
    (checkAll p ((above ++ below).map Visit.address) w).1 = .ok (visits.flatMap Visit.found)

theorem InTurn.attribution (h : InTurn p w visits last) (hw : w.StaysPut)
    (haddresses : ∀ address ∈ visits.map Visit.address ++ rest, IsAddress address)
    (hrest : rest = [] ∨ ∃ address more e, rest = address :: more ∧ StopsAt p address last e) :
    Attribution p w visits rest last := by
  have hvisited : ∀ v ∈ visits, IsAddress v.address := fun v hv =>
    haddresses _ (List.mem_append_left _ (List.mem_map_of_mem hv))
  have hasked := h.askedFor hw hvisited
  refine ⟨fun htells => ?_, hasked.asked, ?_, ?_⟩
  · rcases hrest with hnone | ⟨address, more, e, rfl, hstops⟩
    · exact hnone
    · have haddress : IsAddress address := haddresses _ (List.mem_append_right _ List.mem_cons_self)
      exact absurd htells (hstops.tooLong_of_staysPut (hasked.staysPut hw) haddress).2
  · rintro above v below rfl i
    have hv : IsAddress v.address := hvisited v (List.mem_append_right _ List.mem_cons_self)
    have habove : w.AskedFor (above.flatMap Visit.requests) v.start :=
      h.split.1.askedFor hw fun u hu => hvisited u (List.mem_append_left _ hu)
    rw [Visit.outcome, outcomeAt_of_staysPut (habove.staysPut hw) hv, habove.pageAt]
  · rintro above v below rfl hpage hothers
    rw [h.checkAll_without hw hvisited hothers, List.flatMap_append, List.flatMap_append,
      List.flatMap_cons, Visit.found_of_none hpage, List.nil_append]

/-- What comes of visiting addresses, as often as each may be called. -/
theorem checkAll_visits (p : RetryPolicy) (hattempts : 0 < p.attempts) (addresses : List String)
    (w : World) :
    ∃ visits rest last, Account p addresses w visits rest last ∧
      (w.StaysPut → (∀ address ∈ addresses, IsAddress address) →
        Attribution p w visits rest last) := by
  obtain ⟨visits, rest, last, rfl, hturn, hrest⟩ := exists_inTurn hattempts addresses w
  refine ⟨visits, rest, last, ⟨rfl, hturn, ?_, hturn.skipped⟩, fun hw haddresses =>
    hturn.attribution hw haddresses hrest⟩
  rcases hrest with rfl | ⟨address, more, e, rfl, hstops⟩
  · refine .inl ⟨rfl, ?_⟩
    rw [hturn.checkAll]
    exact congrArg (fun found => (Except.ok found, last)) (List.append_nil _)
  · refine .inr ⟨address, more, e, rfl, hstops, ?_⟩
    rw [hturn.checkAll]
    exact congrArg (Except.map _) (checkAll_cons_error hstops.fetchedFindings more)

/-- A site of which one page is reached the second time only, and another never. -/
def shakySite : World where
  volume := { tree := .dir [] }
  pages :=
    [("https://site.test/page", [.unreachable, .reply 200 none (.text "<img>")]),
     ("https://site.test/gone", [.reply 404 none (.text "gone")])]

/-- Two calls at most, for three addresses. -/
theorem checkAll_visits_shakySite : ∃ visits last,
    Account { attempts := 2 } ["https://site.test/gone", "https://site.test/page",
      "https://site.test/page"] shakySite
        visits [] last ∧
      Attribution { attempts := 2 } shakySite visits [] last ∧
      last.asked = ["https://site.test/gone", "https://site.test/gone", "https://site.test/page",
        "https://site.test/page", "https://site.test/page"] ∧
      last.skipped = ["Skipping https://site.test/gone: page could not be fetched"] := by
  have hpages : shakySite.StaysPut :=
    World.staysPut_of_pages (by simp [shakySite, Http.Answer.sendsOn])
  have haddresses :
      ∀ address ∈ ["https://site.test/gone", "https://site.test/page", "https://site.test/page"],
      IsAddress address := by
    decide +kernel
  obtain ⟨visits, rest, last, haccount, hstays⟩ := checkAll_visits { attempts := 2 } (by decide)
    ["https://site.test/gone", "https://site.test/page", "https://site.test/page"] shakySite
  have hattribution := hstays hpages haddresses
  obtain rfl := hattribution.finished (RetryPolicy.tellsPauses_of_measured rfl (by decide))
  have hlast : (checkAll { attempts := 2 }
      ["https://site.test/gone", "https://site.test/page", "https://site.test/page"] shakySite).2 =
        last := by
    obtain ⟨-, hall⟩ | ⟨_, _, _, hnot, -⟩ := haccount.result
    · exact congrArg Prod.snd hall
    · cases hnot
  refine ⟨visits, last, haccount, hattribution, ?_, ?_⟩ <;> rw [← hlast]
  · decide +kernel
  · decide +kernel

/-- A page that is never reached. -/
def unreachedSite : World where
  volume := { tree := .dir [] }

/-- With 1026 calls allowed and no time between them, a page that is never reached ends the run
instead of being skipped. What is no address does so with its first call. -/
theorem unreached_page_ends_run :
    (∀ i, outcomeAt (call "https://site.test/") i unreachedSite =
        .failure "Could not fetch https://site.test/") ∧
      (checkAll Retry.hurried ["https://site.test/"] unreachedSite).1 = .error .pauseTooLong ∧
      (checkAll { attempts := 1 } ["https://site.test:x/"] unreachedSite).1 =
        .error (.badAddress (.port ['x'])) := by
  have hstays : unreachedSite.StaysPut := World.staysPut_of_pages nofun
  have haddress : IsAddress "https://site.test/" := by decide +kernel
  have hfails : ∀ i, outcomeAt (call "https://site.test/") i unreachedSite =
      .failure "Could not fetch https://site.test/" := fun i => by
    rw [outcomeAt_of_staysPut hstays haddress]
    rfl
  have htold : ∀ i, (Retry.hurried.pauseAfter? (1 + i)).isSome = true ↔
      i < Duration.doublingLimit := fun i => by
    rw [RetryPolicy.pauseAfter?, Nat.add_sub_cancel_left]
    exact Duration.isSome_doubled?_measured
  have hstops : StopsAt Retry.hurried "https://site.test/" unreachedSite .pauseTooLong := by
    refine .tooLong ⟨by decide, fun i hi => ⟨⟨_, hfails i⟩, (htold i).mpr hi⟩,
      hfails Duration.doublingLimit⟩
      (by decide) ?_
    exact Option.not_isSome_iff_eq_none.mp fun hsome =>
      absurd ((htold _).mp hsome) (Nat.lt_irrefl _)
  have hfault : Url.ofString "https://site.test:x/" = .error (.port ['x']) := by decide +kernel
  exact ⟨hfails, checkAll_cons_error hstops.fetchedFindings [],
    checkAll_cons_error (stopsAt_of_fault hfault Nat.one_pos unreachedSite).fetchedFindings []⟩

end Page

end FrontendAudit
