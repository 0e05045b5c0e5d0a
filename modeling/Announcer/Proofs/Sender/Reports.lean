import Mathlib.Data.List.Induction
import Announcer.Proofs.Sender.Call
/-!
# What an observer is told

Someone who observes a sender from the call on, while nobody stops it, hears of each attempt
that failed, and with which status (`failures`), and then of the completion, or of the failure
that was final. `Tells` says what it was told, phase by phase: each attempt was accepted, was
told as a failure, or is under way.

There is no last report when the sender gives up without a usable token, or with an event
that cannot be built (`GivesUp`): then the call returns false, and the observer
never hears of it. And when the transport cancels an attempt of a sender that was not stopped,
that is told as a failure and the event is tried again, though `canceled` is not among the
statuses to be retried.

Results: `telling_step`, `reported_run`; `unreported_ends` has a run for each exception.
-/
namespace Announcer

open Journal

variable {ω : Type}

/-- What an observer can be told. -/
inductive Notice where
  | failure (status : Status)
  | completion (batch : Batch)
  deriving DecidableEq

/-- What an attempt has failed with that was not accepted: the answer, or that it was not
acknowledged in time. -/
def Attempt.failure (a : Attempt ω) : Status :=
  match a.answer? with
  | some .successAccepted => .timeout
  | some status => status
  | none => .canceled

namespace Journal

/-- The observers that were told something, and what, the newest first. -/
def notices : Journal ω → List (ω × Notice)
  | [] => []
  | .did (.reportFailure who status) :: log => (who, .failure status) :: notices log
  | .did (.reportCompleted who batch) :: log => (who, .completion batch) :: notices log
  | _ :: log => notices log

/-- Since the call `who` was attached all the time. -/
def attended [DecidableEq ω] (who : ω) : Journal ω → Bool
  | [] => true
  | e :: log => (!asked (e :: log) || watcher (e :: log) = some who) && attended who log

variable {log : Journal ω} {w : Bool}

/-- What the attempts that were not accepted failed with, the newest first. -/
def failures (w : Bool) (attempts : List (Attempt ω)) : List Status :=
  (attempts.filter fun a => !a.isAccepted w).map Attempt.failure

theorem failures_cons_of_accepted {a : Attempt ω} (earlier : List (Attempt ω))
    (h : a.isAccepted w = true) : failures w (a :: earlier) = failures w earlier := by
  simp [failures, h]

theorem failures_cons_of_failed {a : Attempt ω} (earlier : List (Attempt ω))
    (h : a.isAccepted w = false) : failures w (a :: earlier) = a.failure :: failures w earlier := by
  simp [failures, h]

/-- What is heard from now on decides about no attempt, if nothing it can decide is open. -/
theorem failures_heard (h : Shut w log) (x : Stimulus ω) :
    failures w (attempts (.heard x :: log)) = failures w (attempts log) := by
  rw [attempts]
  cases hlog : attempts log with
  | nil => rfl
  | cons a earlier =>
    rw [List.modifyHead_cons]
    rcases h a (by simp [hlog]) with hclosed | hacc
    · rw [Attempt.hear_of_closed hclosed]
    · rw [failures_cons_of_accepted earlier hacc,
        failures_cons_of_accepted earlier (Attempt.isAccepted_hear hacc)]

theorem failures_did {a : Action ω} (h : ∀ event, a ≠ .transmit event) :
    failures w (attempts (.did a :: log)) = failures w (attempts log) := by
  rw [attempts_did h]
  cases attempts log with
  | nil => rfl
  | cons b earlier =>
    rw [List.modifyHead_cons]
    cases hb : b.isAccepted w with
    | true =>
      rw [failures_cons_of_accepted earlier hb,
        failures_cons_of_accepted earlier (by rw [Attempt.isAccepted_close, hb])]
    | false =>
      rw [failures_cons_of_failed earlier hb,
        failures_cons_of_failed earlier (by rw [Attempt.isAccepted_close, hb])]
      rfl

section Attended
variable [DecidableEq ω] {who : ω}

theorem watcher_of_attended (h : attended who log = true) (ha : asked log = true) :
    watcher log = some who := by
  cases log with
  | nil => cases ha
  | cons e log =>
    simp only [attended, ha, Bool.not_true, Bool.false_or, Bool.and_eq_true,
      decide_eq_true_eq] at h
    exact h.1

theorem attended_of_cons {e : Remark ω} (h : attended who (e :: log) = true) :
    attended who log = true := by
  rw [attended, Bool.and_eq_true] at h
  exact h.2

theorem attended_of_note {actions : List (Action ω)} (h : attended who (note log actions) = true) :
    attended who log = true := by
  induction actions generalizing log with
  | nil => exact h
  | cons a actions ih => exact attended_of_cons (ih h)

end Attended

end Journal

namespace Delivery
variable {batch : Batch} {w : Bool} {who : ω} {log : Journal ω} {s : Sender ω}

/-! ## What was told in each phase -/

/-- A failure after which the event is tried again. -/
def Passing (status : Status) : Prop := status.isRetryable = true ∨ status = .canceled

theorem passing_iff {status : Status} :
    Passing status ↔ status ≠ .successAccepted ∧ ¬ status.isFinal := by
  cases status <;> simp [Passing, Status.isRetryable, Status.isFinal]

/-- The newest failure; after each of the earlier ones the event was tried again. -/
def LastFailed (status : Status) (failed : List Status) : Prop :=
  ∃ earlier, failed = status :: earlier ∧ ∀ st ∈ earlier, Passing st

theorem LastFailed.passing {status : Status} {failed : List Status} (h : LastFailed status failed)
    (hs : Passing status) : ∀ st ∈ failed, Passing st := by
  obtain ⟨earlier, rfl, hearlier⟩ := h
  intro st hst
  rcases List.mem_cons.mp hst with rfl | hst
  · exact hs
  · exact hearlier st hst

/-- That attempts have failed, as it is told. -/
def told (who : ω) (failed : List Status) : List (ω × Notice) :=
  failed.map fun status => (who, .failure status)

/-- How a call ended that returned false: with a failure that was final, or the sender gave
up. -/
def EndsFailed (gaveUp : Prop) (failed : List Status) : Prop :=
  (∃ status, status.isFinal ∧ LastFailed status failed) ∨
    gaveUp ∧ ∀ st ∈ failed, Passing st

/-- What `who` was told: that each attempt has failed that was not accepted and is not under
way, and in the end the completion. -/
def Tells (who : ω) (batch : Batch) (w : Bool) (gaveUp : Prop) (log : Journal ω)
    (s : Sender ω) : Prop :=
  match s.phase with
  | .idle => notices log = [] ∧ attempts log = []
  | .token | .backoff _ => notices log = told who (failures w (attempts log)) ∧
      ∀ st ∈ failures w (attempts log), Passing st
  | .transport _ _ | .acknowledgement _ =>
      notices log = told who (failures w (attempts log).tail) ∧
        ∀ st ∈ failures w (attempts log).tail, Passing st
  | .reporting status _ => status ≠ .successAccepted ∧
      notices log = told who (failures w (attempts log)) ∧
        LastFailed status (failures w (attempts log))
  | .completing _ | .done true =>
      notices log = (who, .completion batch) :: told who (failures w (attempts log)) ∧
        ∀ st ∈ failures w (attempts log), Passing st
  | .done false => notices log = told who (failures w (attempts log)) ∧
      EndsFailed gaveUp (failures w (attempts log))

/-! ## What comes from outside -/

section Steps
variable {gaveUp : Prop}

theorem tells_receive [DecidableEq ω] (h : Tells who batch w gaveUp log s)
    (hs : Stands batch w log s) (x : Stimulus ω) :
    Tells who batch w gaveUp (.heard x :: log) (s.receive x) := by
  have htail : (attempts (.heard x :: log)).tail = (attempts log).tail := by
    rw [attempts]
    cases attempts log <;> rfl
  have hnotices : notices (.heard x :: log) = notices log := rfl
  unfold Tells at h ⊢
  unfold Stands at hs
  rw [Sender.phase_receive]
  cases hp : s.phase with
  | idle =>
    simp only [hp] at h
    exact ⟨h.1, by rw [attempts, h.2]; rfl⟩
  | token =>
    simp only [hp] at h hs
    simpa only [Phase.hear, hnotices, failures_heard hs.2.1] using h
  | backoff deadline =>
    simp only [hp] at h hs
    simpa only [Phase.hear, hnotices, failures_heard hs.2.1] using h
  | transport bearer answer =>
    simp only [hp] at h
    simpa only [Phase.hear, hnotices, htail] using h
  | acknowledgement deadline =>
    simp only [hp] at h
    simpa only [Phase.hear, hnotices, htail] using h
  | reporting status told =>
    simp only [hp] at h hs
    simpa only [Phase.hear, hnotices, failures_heard hs.2.1] using h
  | completing told =>
    simp only [hp] at h hs
    simpa only [Phase.hear, hnotices, failures_heard hs.1] using h
  | done success =>
    simp only [hp] at h hs
    cases success <;> simpa only [Phase.hear, hnotices, failures_heard hs.1] using h

/-! ## What the sender does by itself -/

/-- What a turn leaves of what was told. -/
abbrev TellsAfter (who : ω) (batch : Batch) (w : Bool) (gaveUp : Prop) (log : Journal ω)
    (p : Sender.Progress ω) : Prop :=
  Tells who batch w gaveUp (note log p.2) p.1

/-- While an event is under way, the attempts before it were told. -/
theorem Tells.awaiting {a : Attempt ω} {earlier : List (Attempt ω)}
    (h : Tells who batch w gaveUp log s) (hs : s.isAwaiting = true)
    (hcurrent : attempts log = a :: earlier) :
    notices log = told who (failures w earlier) ∧ ∀ st ∈ failures w earlier, Passing st := by
  unfold Tells at h
  unfold Sender.isAwaiting at hs
  cases hp : s.phase with
  | transport bearer answer =>
    simp only [hp, hcurrent] at h
    exact h
  | acknowledgement deadline =>
    simp only [hp, hcurrent] at h
    exact h
  | _ => simp [hp] at hs

/-- The part that was accepted is left behind. -/
theorem Awaits.tells_nextPart {a : Attempt ω} {earlier : List (Attempt ω)}
    (h : Awaits batch w log s a earlier) (ha : a.isAccepted w = true) (hb : s.batch = batch)
    (hwho : s.observer = some who) (hrun : s.stopping = false)
    (htold : notices log = told who (failures w earlier))
    (hpassing : ∀ st ∈ failures w earlier, Passing st) :
    TellsAfter who batch w gaveUp log { s with ack := .none }.nextPart := by
  have hsame : failures w (attempts log) = failures w earlier := by
    rw [h.current, failures_cons_of_accepted earlier ha]
  rw [← hsame] at htold hpassing
  unfold Sender.nextPart
  dsimp only
  split
  · next other _ hother =>
    obtain rfl : who = other := Option.some.inj (hwho.symm.trans hother)
    have hafter : failures w (attempts (.did (.reportCompleted who s.batch) :: log)) =
        failures w (attempts log) := failures_did (by simp)
    show notices (.did (.reportCompleted who s.batch) :: log) = _ ∧ _
    rw [notices, hb, htold]
    rw [hb] at hafter
    exact ⟨by rw [← hafter]; rfl, by rw [← hafter] at hpassing; exact hpassing⟩
  · next hnone => cases hwho.symm.trans hnone
  · rw [hrun]
    exact ⟨htold, hpassing⟩

/-- The attempt that failed is told. -/
theorem Awaits.tells_failure {a : Attempt ω} {earlier : List (Attempt ω)} {status : Status}
    {before : List (Action ω)} (h : Awaits batch w log s a earlier) (ha : a.isAccepted w = false)
    (hfailure : a.failure = status) (hs : status ≠ .successAccepted)
    (htold : notices log = told who (failures w earlier))
    (hpassing : ∀ st ∈ failures w earlier, Passing st)
    (hbefore : before = [] ∨ ∃ bearer, before = [.rejectToken bearer]) :
    TellsAfter who batch w gaveUp log ({ s with ack := .none, phase := .reporting status false },
      before ++ [.reportFailure who status]) := by
  have hlast : failures w (attempts log) = status :: failures w earlier := by
    rw [h.current, failures_cons_of_failed earlier ha, hfailure]
  have hone : ∀ log' : Journal ω, notices log' = notices log →
      failures w (attempts log') = failures w (attempts log) →
      TellsAfter who batch w gaveUp log' ({ s with ack := .none, phase := .reporting status false },
        [.reportFailure who status]) := by
    intro log' hnotices hfailures
    have hafter : failures w (attempts (.did (.reportFailure who status) :: log')) =
        status :: failures w earlier := by
      rw [failures_did (by simp), hfailures, hlast]
    refine ⟨hs, ?_, failures w earlier, hafter, hpassing⟩
    show (who, .failure status) :: notices log' = _
    rw [hnotices, htold]
    exact (congrArg (told who) hafter).symm
  rcases hbefore with rfl | ⟨bearer, rfl⟩
  · exact hone log rfl rfl
  · exact hone (.did (.rejectToken bearer) :: log) rfl (failures_did (by simp))

theorem tells_finish {success : Bool}
    (h : Tells who batch w gaveUp log { s with phase := .done success }) :
    TellsAfter who batch w gaveUp log (s.finish success) := by
  have hsame : failures w (attempts (.did (.finish success) :: log)) = failures w (attempts log) :=
    failures_did (by simp)
  cases success <;>
    simpa only [TellsAfter, Tells, Sender.finish, note, List.foldl_cons, List.foldl_nil, notices,
      hsame] using h

/-- What follows when the report of a failure was taken. -/
theorem tells_afterReport {status : Status} {now : Nat} (hs : status ≠ .successAccepted)
    (htold : notices log = told who (failures w (attempts log)))
    (hlast : LastFailed status (failures w (attempts log))) :
    TellsAfter who batch w gaveUp log (s.afterReport now status) := by
  unfold Sender.afterReport
  split
  · next hfinal => exact tells_finish ⟨htold, .inl ⟨status, hfinal, hlast⟩⟩
  · next hagain =>
    have hsame : failures w (attempts (.did (.pause s.retry.current) :: log)) =
        failures w (attempts log) := failures_did (by simp)
    rw [← hsame] at htold hlast
    exact ⟨htold, hlast.passing (passing_iff.mpr ⟨hs, hagain⟩)⟩

/-- The attempt that is under way fails as the journal tells. -/
theorem Stands.failure_eq {now : Nat} {status : Status} {before : List (Action ω)}
    {a : Attempt ω} {earlier : List (Attempt ω)} (h : Stands batch w log s)
    (hwhy : s.Failure now status before) (hrun : s.stopping = false)
    (hcurrent : attempts log = a :: earlier) : a.failure = status := by
  unfold Stands at h
  cases hwhy with
  | answered hphase hfailed =>
    simp only [hphase] at h
    obtain ⟨b, others, hawaits, hanswer⟩ := h
    obtain ⟨rfl, rfl⟩ := List.cons.inj (hcurrent.symm.trans hawaits.current)
    rw [Attempt.failure, hanswer]
    cases status <;> first | rfl | exact absurd rfl hfailed
  | stopped hstop => cases hrun.symm.trans hstop
  | late _ hphase =>
    simp only [hphase] at h
    obtain ⟨b, others, hawaits, hanswer, -⟩ := h
    obtain ⟨rfl, rfl⟩ := List.cons.inj (hcurrent.symm.trans hawaits.current)
    rw [Attempt.failure, hanswer]

theorem Tells.mono {gaveUp' : Prop} (hg : gaveUp → gaveUp')
    (h : Tells who batch w gaveUp log s) : Tells who batch w gaveUp' log s := by
  unfold Tells at h ⊢
  cases hp : s.phase with
  | done success =>
    simp only [hp] at h
    cases success with
    | true => exact h
    | false => exact ⟨h.1, h.2.imp_right fun ⟨hgave, hpassing⟩ => ⟨hg hgave, hpassing⟩⟩
  | _ => simpa only [hp] using h

variable [DecidableEq ω]

/-- The call ends without a report: there is no token, or the event cannot be built. -/
def GivesUp (x : Logged ω) : Cue ω → Prop
  | .resume _ credentials ids => x.sender.phase = .token ∧ credentials.state = .refreshed ∧
      (credentials.token.isEmpty = true ∨ ∀ part ∈ x.sender.parts.head?,
        (Event.build part.kind part.configs credentials.token ids).toOption = none)
  | _ => False

theorem tells_turn {x : Logged ω} {now : Nat} {credentials : Credentials} {ids : EventIds}
    {p : Sender.Progress ω} (hinv : Inv batch w x)
    (h : Tells who batch w gaveUp x.journal x.sender) (hwho : x.sender.observer = some who)
    (hrun : x.sender.stopping = false) (hgive : GivesUp x (.resume now credentials ids) → gaveUp)
    (hp : x.sender.Turn now credentials ids p) : TellsAfter who batch w gaveUp x.journal p := by
  have hstands := hinv.stands
  cases hp with
  | transmits hphase =>
    simp only [Tells, hphase] at h
    exact h
  | waits hphase =>
    simp only [Tells, hphase] at h
    exact h
  | passes haccepted =>
    have hawaiting := Sender.isAwaiting_of_accepted haccepted
    obtain ⟨a, earlier, hawaits, ha, -⟩ := hstands.awaits hawaiting
    obtain ⟨htold, hpassing⟩ := h.awaiting hawaiting hawaits.current
    exact hawaits.tells_nextPart (ha.trans haccepted) hinv.carried hwho hrun htold hpassing
  | fails hwhy hrejected _ htells =>
    obtain ⟨a, earlier, hawaits, ha, -⟩ := hstands.awaits hwhy.isAwaiting
    obtain ⟨htold, hpassing⟩ := h.awaiting hwhy.isAwaiting hawaits.current
    rw [htells hrun who hwho]
    exact hawaits.tells_failure (ha.trans hrejected)
      (hstands.failure_eq hwhy hrun hawaits.current) hwhy.ne_success htold hpassing hwhy.rejects
  | goesOn hphase _ hbehind =>
    simp only [Tells, hphase] at h
    rw [hbehind]
    exact tells_afterReport h.1 h.2.1 h.2.2
  | wakes _ hphase =>
    simp only [Tells, hphase] at h
    exact h
  | stops hstop => cases hrun.symm.trans hstop
  | abandons hphase hrefreshed hwhy =>
    simp only [Tells, hphase] at h
    exact tells_finish ⟨h.1, .inr ⟨hgive ⟨hphase, hrefreshed, hwhy⟩, h.2⟩⟩
  | returns hphase =>
    simp only [Tells, hphase] at h
    exact tells_finish h

/-! ## Runs -/

/-- What is known of an observed run. -/
structure Telling (who : ω) (batch : Batch) (w : Bool) (gaveUp : Prop) (x : Logged ω) : Prop where
  inv : Inv batch w x
  called : asked x.journal = true ↔ x.sender.phase ≠ .idle
  tells : stopped x.journal = false → attended who x.journal = true →
    Tells who batch w gaveUp x.journal x.sender

theorem telling_call {x : Logged ω} (h : Telling who batch w gaveUp x) :
    Telling who batch w gaveUp (x.step .call) := by
  have hinv := inv_step h.inv .call
  have hattended : ∀ {e : Remark ω}, attended who (e :: x.journal) = true →
      attended who x.journal = true := attended_of_cons
  by_cases hidle : x.sender.phase = .idle
  · have hcalled := asked_iff_step h.called .call
    rw [Logged.step, Sender.call?, if_pos hidle] at hinv hcalled ⊢
    refine ⟨hinv, hcalled, fun hs ha => ?_⟩
    have htells := h.tells hs (hattended ha)
    simp only [Tells, hidle] at htells
    obtain ⟨hnotices, hattempts⟩ := htells
    have hjournal : notices (.called :: x.journal) = [] ∧ attempts (.called :: x.journal) = [] :=
      ⟨hnotices, hattempts⟩
    simp [Tells, told, failures, hjournal]
  · rw [refused_of_asked hidle] at hinv ⊢
    exact ⟨hinv, h.called, fun hs ha => h.tells hs (hattended ha)⟩

theorem telling_step {x : Logged ω} (h : Telling who batch w gaveUp x) (c : Cue ω) :
    Telling who batch w (gaveUp ∨ GivesUp x c) (x.step c) := by
  have hinv := inv_step h.inv c
  cases c with
  | call =>
    have hcall := telling_call h
    exact ⟨hcall.inv, hcall.called, fun hs ha => (hcall.tells hs ha).mono .inl⟩
  | receive e =>
    refine ⟨hinv, asked_iff_step h.called (.receive e), fun hs ha => ?_⟩
    have hstopped : stopped x.journal = false := by
      rw [Logged.step, stopped, Bool.or_eq_false_iff] at hs
      exact hs.2
    exact (tells_receive (h.tells hstopped (attended_of_cons ha)) h.inv.stands e).mono .inl
  | resume now credentials ids =>
    have hcalled := asked_iff_step h.called (.resume now credentials ids)
    cases hresume : x.sender.resume now credentials ids with
    | none =>
      simp only [Logged.step, hresume] at hinv hcalled ⊢
      exact ⟨hinv, hcalled, fun hs ha => (h.tells hs ha).mono .inl⟩
    | some p =>
      simp only [Logged.step, hresume] at hinv hcalled ⊢
      refine ⟨hinv, hcalled, fun hs ha => ?_⟩
      have hasked : asked x.journal = true :=
        h.called.mpr (Sender.phase_ne_idle_of_resume hresume)
      have hattended := attended_of_note ha
      rw [stopped_note] at hs
      refine tells_turn h.inv ((h.tells hs hattended).mono .inl) ?_ ?_ .inr
        (Sender.turn_resume hresume)
      · rw [← h.inv.watcher, watcher_of_attended hattended hasked]
      · rw [← h.inv.stopped, hs]

/-- At one of the cues the sender gave up. -/
def GaveUp (s : Sender ω) (cues : List (Cue ω)) : Prop :=
  ∃ before c after, cues = before ++ c :: after ∧ GivesUp ((Logged.start s).run before) c

theorem telling_run {awaitAck : Bool} {ackTimeout : Nat} {retry : Backoff}
    (h : Sender.ofBatch? batch awaitAck ackTimeout retry = some s) (who : ω) (cues : List (Cue ω)) :
    Telling who batch awaitAck (GaveUp s cues) ((Logged.start s).run cues) := by
  induction cues using List.reverseRecOn with
  | nil =>
    have hidle : s.phase = .idle := Sender.idle_of_ofBatch? h
    refine ⟨inv_start h, by simp [Logged.run, Logged.start, asked, hidle], fun _ _ => ?_⟩
    simp [Tells, Logged.run, Logged.start, hidle, notices, attempts]
  | append_singleton cues c ih =>
    have hstep := telling_step ih c
    rw [Logged.run_append]
    refine ⟨hstep.inv, hstep.called, fun hs ha => (hstep.tells hs ha).mono ?_⟩
    rintro (⟨before, d, after, rfl, hd⟩ | hc)
    · exact ⟨before, d, after ++ [c], by simp, hd⟩
    · exact ⟨cues, c, [], rfl, hc⟩

/-- **An observer is told how a call ended.** Let `who` be attached from the call on, and the
sender not be stopped. If the call returned true, `who` was told so once and last, and before that
of each attempt that had failed, which then was tried again. If it returned false, `who`
was told of each attempt that had failed, and either the last one was final and all others were
tried again, or the sender gave up. -/
theorem reported_run {awaitAck : Bool} {ackTimeout : Nat} {retry : Backoff}
    (h : Sender.ofBatch? batch awaitAck ackTimeout retry = some s) (who : ω)
    (cues : List (Cue ω)) (hrun : stopped ((Logged.start s).run cues).journal = false)
    (hwho : attended who ((Logged.start s).run cues).journal = true) :
    let log := ((Logged.start s).run cues).journal
    (returned log = [true] →
      notices log = (who, .completion batch) :: told who (failures awaitAck (attempts log)) ∧
      ∀ status ∈ failures awaitAck (attempts log), Passing status) ∧
    (returned log = [false] →
      notices log = told who (failures awaitAck (attempts log)) ∧
      EndsFailed (GaveUp s cues) (failures awaitAck (attempts log))) := by
  intro log
  have htelling := telling_run h who cues
  have htells := htelling.tells hrun hwho
  have hstands := htelling.inv.stands
  constructor
  · intro hreturned
    have hphase := hstands.done_of_returned hreturned
    simpa only [Tells, hphase] using htells
  · intro hreturned
    have hphase := hstands.done_of_returned hreturned
    simpa only [Tells, hphase] using htells

end Steps

/-! ## Two calls that were heard of, and three that were not -/

/-- The run of two parts to its end. -/
def wholeRun : List (Cue String) := twoPartRun ++ [goOn "", .receive .told, goOn ""]

/-- The announcement is throttled at first, and then refused. -/
def refusedRun : List (Cue String) :=
  [.receive (.observe "panel"), .call, goOn "c1", .receive (.answer .throttled), goOn "",
    .receive .told, goOn "", goOn "", goOn "c2", .receive (.answer .badRequest), goOn "",
    .receive .told, goOn ""]

/-- A completion behind one failure, and a final failure behind one. -/
theorem reported_twoParts :
    (notices ((Logged.start twoPartSender).run wholeRun).journal =
        [("panel", .completion twoParts), ("panel", .failure .throttled)] ∧
      Passing .throttled) ∧
    notices ((Logged.start twoPartSender).run refusedRun).journal =
        [("panel", .failure .badRequest), ("panel", .failure .throttled)] ∧
      EndsFailed (GaveUp twoPartSender refusedRun) [.badRequest, .throttled] := by
  have hmade : Sender.ofBatch? twoParts true 2000 ⟨fun _ => 0⟩ = some twoPartSender := rfl
  have hwhole : failures true
      (attempts ((Logged.start twoPartSender).run wholeRun).journal) = [.throttled] := by
    decide +kernel
  have hrefused : failures true
      (attempts ((Logged.start twoPartSender).run refusedRun).journal) =
        [.badRequest, .throttled] := by
    decide +kernel
  obtain ⟨hcompleted, hpassing⟩ :=
    (reported_run hmade "panel" wholeRun (by decide +kernel) (by decide +kernel)).1
      (by decide +kernel)
  obtain ⟨hfailed, hends⟩ :=
    (reported_run hmade "panel" refusedRun (by decide +kernel) (by decide +kernel)).2
      (by decide +kernel)
  rw [hwhole] at hcompleted hpassing
  rw [hrefused] at hfailed hends
  exact ⟨⟨hcompleted, hpassing _ List.mem_cons_self⟩, hfailed, hends⟩

/-- A sender of one announcement, without acknowledgements. -/
def soleSender (config : String) : Sender String :=
  let batch : Batch := ⟨.ofList [("a", ⟨config⟩)], .empty⟩
  ⟨batch, false, 2000, ⟨fun _ => 0⟩, .idle, batch.parts, .none, false, none⟩

/-- The token is there, but empty. -/
def emptyToken : List (Cue String) :=
  [.receive (.observe "panel"), .call, .resume 0 ⟨"", .refreshed, 0, 0⟩ ⟨"m", "c"⟩]

/-- The sender goes on with a token. -/
def plainRun : List (Cue String) := [.receive (.observe "panel"), .call, goOn "c"]

/-- The transport cancels the first attempt, and accepts the second. -/
def canceledRun : List (Cue String) :=
  plainRun ++ [.receive (.answer .canceled), goOn "", .receive .told, goOn "", goOn "",
    goOn "c", .receive (.answer .successAccepted), goOn "", .receive .told, goOn ""]

/-- Not every call is heard of as it should be, though an observer is attached all the time
and nobody stops the sender. Without a usable token, and with a config that cannot be read,
the call returns false and nothing was told. And `canceled` is told and tried again
although it is not to be retried. -/
theorem unreported_ends :
    (attended "panel" ((Logged.start (soleSender "1")).run emptyToken).journal = true ∧
      stopped ((Logged.start (soleSender "1")).run emptyToken).journal = false ∧
      returned ((Logged.start (soleSender "1")).run emptyToken).journal = [false] ∧
      notices ((Logged.start (soleSender "1")).run emptyToken).journal = []) ∧
    (attended "panel" ((Logged.start (soleSender "x")).run plainRun).journal = true ∧
      stopped ((Logged.start (soleSender "x")).run plainRun).journal = false ∧
      returned ((Logged.start (soleSender "x")).run plainRun).journal = [false] ∧
      notices ((Logged.start (soleSender "x")).run plainRun).journal = []) ∧
    attended "panel" ((Logged.start (soleSender "1")).run canceledRun).journal = true ∧
      stopped ((Logged.start (soleSender "1")).run canceledRun).journal = false ∧
      returned ((Logged.start (soleSender "1")).run canceledRun).journal = [true] ∧
      notices ((Logged.start (soleSender "1")).run canceledRun).journal =
        [("panel", .completion (soleSender "1").batch), ("panel", .failure .canceled)] ∧
      Status.canceled.isRetryable = false := by
  decide +kernel

end Delivery

end Announcer
