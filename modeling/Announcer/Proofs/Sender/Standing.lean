import Announcer.Proofs.Event
import Announcer.Proofs.Sender.Justified
import Announcer.Proofs.Sender.Progress
/-!
# Where a sender stands

`Stands` says what the journal holds in each phase of the sender: what is left to be sent, that
nothing heard from now on can decide about an event that was left behind (`Shut`), and whether
an event was refused. While an event is with the transport, or waits for its acknowledgement, the
journal also tells what the sender knows of it (`Awaits`). `Inv` adds that every action
so far was justified. It is kept by what comes from outside, and by every turn.

Results: `inv_receive`, `inv_turn`, `inv_step`, `inv_run`.
-/
namespace Announcer

open Journal

variable {ω : Type}

theorem ReportKind.name_inj {k k' : ReportKind} : k.name = k'.name ↔ k = k' := by
  cases k <;> cases k' <;> decide

theorem Sender.idle_of_ofBatch? {batch : Batch} {awaitAck : Bool} {ackTimeout : Nat}
    {retry : Backoff} {s : Sender ω} (h : ofBatch? batch awaitAck ackTimeout retry = some s) :
    s.phase = .idle := by
  unfold ofBatch? at h
  split at h <;> cases h
  rfl

theorem Sender.parts_ne_nil_of_ofBatch? {batch : Batch} {awaitAck : Bool} {ackTimeout : Nat}
    {retry : Backoff} {s : Sender ω} (h : ofBatch? batch awaitAck ackTimeout retry = some s) :
    batch.parts ≠ [] := by
  unfold ofBatch? at h
  split at h
  · cases h
  · next hne => exact Batch.parts_ne_nil (by simpa using hne)

/-- The acknowledgement as the sender keeps it. -/
def Attempt.ack (w : Bool) (a : Attempt ω) : Ack :=
  if a.needsAck w then
    if a.isAcknowledged then .received
    else if a.heard.any Stimulus.isStop then .none
    else .awaited a.event.header.ids.correlation
  else .none

namespace Delivery
variable {batch : Batch} {w : Bool} {log : Journal ω} {s : Sender ω}

/-! ## The journal and the phase -/

/-- The call goes on, with parts that were not accepted. -/
@[mk_iff]
structure Ongoing (batch : Batch) (w : Bool) (log : Journal ω) (parts : List Part) : Prop where
  returned : returned log = []
  completed : completed log = []
  remaining : parts = batch.parts.drop (accepted w log)
  left : parts ≠ []

/-- An event is with the transport, or waits for its acknowledgement. -/
@[mk_iff]
structure Awaits (batch : Batch) (w : Bool) (log : Journal ω) (s : Sender ω) (a : Attempt ω)
    (earlier : List (Attempt ω)) : Prop where
  returned : returned log = []
  completed : completed log = []
  current : attempts log = a :: earlier
  isOpen : a.isOpen = true
  calm : ∀ q ∈ earlier, q.isRefused = false
  remaining : s.parts = batch.parts.drop (earlier.countP (Attempt.isAccepted w))
  left : s.parts ≠ []
  needs : a.needsAck w = s.needsAck
  stop : a.heard.any Stimulus.isStop = s.stopping
  ack : s.ack = a.ack w

/-- What the journal holds in each phase. -/
def Stands (batch : Batch) (w : Bool) (log : Journal ω) (s : Sender ω) : Prop :=
  match s.phase with
  | .idle | .token | .backoff _ => Ongoing batch w log s.parts ∧ Shut w log ∧ Calm log
  | .reporting status _ =>
    Ongoing batch w log s.parts ∧ Shut w log ∧ (¬ status.isFinal → Calm log)
  | .transport _ answer => ∃ a earlier, Awaits batch w log s a earlier ∧ a.answer? = answer
  | .acknowledgement _ => ∃ a earlier, Awaits batch w log s a earlier ∧
      a.answer? = some .successAccepted ∧ s.needsAck = true
  | .completing _ => Shut w log ∧ accepted w log = batch.parts.length ∧
      returned log = [] ∧ completed log ≠ []
  | .done success => Shut w log ∧ (success = true ↔ accepted w log = batch.parts.length) ∧
      returned log = [success]

/-- Only the attempts, and what was returned and completed, matter. -/
theorem Stands.congr {log' : Journal ω} (h : Stands batch w log s)
    (ha : attempts log' = attempts log) (hr : returned log' = returned log)
    (hc : completed log' = completed log) : Stands batch w log' s := by
  simp only [Stands, ongoing_iff, awaits_iff, Shut, Calm, accepted, ha, hr, hc] at h ⊢
  exact h

theorem Ongoing.lt {parts : List Part} (h : Ongoing batch w log parts) :
    accepted w log < batch.parts.length := by
  have hne := h.left
  rw [h.remaining, ne_eq, List.drop_eq_nil_iff] at hne
  omega

/-- Only a sender that is done has returned anything. -/
theorem Stands.done_of_returned {success : Bool} (h : Stands batch w log s)
    (hr : returned log = [success]) : s.phase = .done success := by
  unfold Stands at h
  cases hp : s.phase with
  | done other =>
    simp only [hp] at h
    rw [List.singleton_inj.mp (h.2.2.symm.trans hr)]
  | transport bearer answer =>
    simp only [hp] at h
    obtain ⟨a, earlier, hawaits, -⟩ := h
    cases hawaits.returned.symm.trans hr
  | acknowledgement deadline =>
    simp only [hp] at h
    obtain ⟨a, earlier, hawaits, -⟩ := h
    cases hawaits.returned.symm.trans hr
  | completing told =>
    simp only [hp] at h
    cases h.2.2.1.symm.trans hr
  | _ =>
    simp only [hp] at h
    cases h.1.returned.symm.trans hr

theorem Ongoing.heard {parts : List Part} (h : Ongoing batch w log parts) (hs : Shut w log)
    (x : Stimulus ω) : Ongoing batch w (.heard x :: log) parts :=
  ⟨h.returned, h.completed, by rw [accepted_heard hs]; exact h.remaining, h.left⟩

theorem Ongoing.setback {parts : List Part} (h : Ongoing batch w log parts) {a : Action ω}
    (ha : a.isSetback = true) : Ongoing batch w (.did a :: log) parts where
  returned := by rw [returned_setback ha]; exact h.returned
  completed := by rw [completed_setback ha]; exact h.completed
  remaining := by rw [accepted_did (ne_transmit_of_isSetback ha)]; exact h.remaining
  left := h.left

section Awaiting
variable {a : Attempt ω} {earlier : List (Attempt ω)}

theorem Awaits.received (h : Awaits batch w log s a earlier) :
    s.ack = .received ↔ s.needsAck = true ∧ a.isAcknowledged = true := by
  rw [h.ack, Attempt.ack, h.needs]
  cases s.needsAck <;> cases a.isAcknowledged <;> cases a.heard.any Stimulus.isStop <;> simp

/-- While it waits, the journal tells whether the event was accepted. -/
theorem Stands.awaits (h : Stands batch w log s) (hs : s.isAwaiting = true) :
    ∃ a earlier, Awaits batch w log s a earlier ∧ a.isAccepted w = s.accepted ∧
      (a.isRefused = true →
        ∃ bearer status, s.phase = .transport bearer (some status) ∧ status.isFinal) := by
  unfold Stands at h
  unfold Sender.isAwaiting at hs
  cases hp : s.phase with
  | transport bearer answer =>
    simp only [hp] at h
    obtain ⟨a, earlier, hawaits, rfl⟩ := h
    refine ⟨a, earlier, hawaits, ?_, fun hr => ?_⟩
    · rw [Attempt.isAccepted, hawaits.needs, Sender.accepted, hp]
      cases hans : a.answer? with
      | none => rfl
      | some status =>
        cases status with
        | successAccepted => cases hn : s.needsAck <;> simp [hawaits.received, hn]
        | _ => rfl
    · rcases Attempt.isRefused_iff.mp hr with he | he
      · exact ⟨bearer, .badRequest, by rw [he], .inr rfl⟩
      · exact ⟨bearer, .invalidAuth, by rw [he], .inl rfl⟩
  | acknowledgement deadline =>
    simp only [hp] at h
    obtain ⟨a, earlier, hawaits, hanswer, hneeds⟩ := h
    refine ⟨a, earlier, hawaits, ?_, fun hr => ?_⟩
    · rw [Attempt.isAccepted, hawaits.needs, Sender.accepted, hp, hanswer, hneeds]
      simp [hawaits.received, hneeds]
    · rw [Attempt.isRefused, hanswer] at hr
      cases hr
  | _ => simp [hp] at hs

theorem Awaits.lt (h : Awaits batch w log s a earlier) :
    earlier.countP (Attempt.isAccepted w) < batch.parts.length := by
  have hne := h.left
  rw [h.remaining, ne_eq, List.drop_eq_nil_iff] at hne
  omega

theorem Awaits.accepted_eq (h : Awaits batch w log s a earlier) : accepted w log =
    earlier.countP (Attempt.isAccepted w) + if a.isAccepted w then 1 else 0 := by
  rw [accepted, h.current, List.countP_cons]

/-- What was not accepted is still the current part. -/
theorem Awaits.ongoing (h : Awaits batch w log s a earlier) (ha : a.isAccepted w = false) :
    Ongoing batch w log s.parts where
  returned := h.returned
  completed := h.completed
  remaining := by
    rw [h.accepted_eq, ha, if_neg Bool.false_ne_true]
    exact h.remaining
  left := h.left

theorem Awaits.allCalm (h : Awaits batch w log s a earlier) (ha : a.isRefused = false) :
    Calm log := by
  intro q hq
  rw [h.current, List.mem_cons] at hq
  rcases hq with rfl | hq
  · exact ha
  · exact h.calm q hq

end Awaiting

/-! ## The invariant -/

variable [DecidableEq ω]

/-- How a sender and its journal fit. -/
structure Inv (batch : Batch) (w : Bool) (x : Logged ω) : Prop where
  carried : x.sender.batch = batch
  awaitAck : x.sender.awaitAck = w
  watcher : watcher x.journal = x.sender.observer
  stopped : stopped x.journal = x.sender.stopping
  honest : Honest batch w x.journal
  stands : Stands batch w x.journal x.sender

/-! ## What comes from outside -/

theorem watcher_receive (x : Stimulus ω) (hw : watcher log = s.observer)
    (hs : stopped log = s.stopping) : watcher (.heard x :: log) = (s.receive x).observer := by
  cases x with
  | stop =>
    rw [watcher, hw, hs, Sender.receive]
    split <;> rfl
  | observe who => rfl
  | unobserve who =>
    rw [watcher, hw, Sender.receive]
    split <;> rfl
  | acknowledge correlation =>
    rw [Sender.receive]
    split <;> exact hw
  | answer status => rw [Sender.receive_answer]; exact hw
  | told => rw [Sender.receive_told]; exact hw

/-- The journal tells which acknowledgement the sender waits for. -/
theorem ack_receive {a : Attempt ω} (x : Stimulus ω) (hopen : a.isOpen = true)
    (hstop : a.heard.any Stimulus.isStop = s.stopping) (hack : s.ack = a.ack w) :
    (s.receive x).ack = (a.hear x).ack w := by
  rw [Attempt.hear_of_open hopen]
  cases x with
  | answer status => rw [Sender.receive_answer]; exact hack
  | told => rw [Sender.receive_told]; exact hack
  | observe who => exact hack
  | unobserve who => rw [Sender.receive]; split <;> exact hack
  | stop =>
    have hstopped : Attempt.ack w { a with heard := .stop :: a.heard } =
        if s.ack = .received then .received else .none := by
      show (if a.needsAck w then if a.isAcknowledged then Ack.received else .none else .none) = _
      rw [hack, Attempt.ack]
      cases a.needsAck w <;> cases a.isAcknowledged <;> cases a.heard.any Stimulus.isStop <;> simp
    rw [hstopped, Sender.receive]
    split
    · next hs =>
      rw [hs] at hstop
      rw [hack, Attempt.ack, hstop]
      cases a.needsAck w <;> cases a.isAcknowledged <;> simp
    · rfl
  | acknowledge correlation =>
    have hheard : Attempt.ack w { a with heard := .acknowledge correlation :: a.heard } =
        if s.ack = .awaited correlation then .received else s.ack := by
      show (if a.needsAck w then
        if a.isAcknowledged || (correlation = a.event.header.ids.correlation &&
            !a.heard.any Stimulus.isStop) then Ack.received
        else if a.heard.any Stimulus.isStop then .none
        else .awaited a.event.header.ids.correlation else .none) = _
      rw [hack, Attempt.ack]
      cases a.needsAck w <;> cases a.isAcknowledged <;> cases a.heard.any Stimulus.isStop <;>
        simp [eq_comm]
    rw [hheard, Sender.receive]
    split <;> rfl

theorem Awaits.heard {a : Attempt ω} {earlier : List (Attempt ω)}
    (h : Awaits batch w log s a earlier) (x : Stimulus ω) :
    Awaits batch w (.heard x :: log) (s.receive x) (a.hear x) earlier where
  returned := h.returned
  completed := h.completed
  current := by rw [Journal.attempts, h.current]; rfl
  isOpen := by rw [Attempt.isOpen_hear, h.isOpen]
  calm := h.calm
  remaining := by rw [(s.receive_frame x).2.1]; exact h.remaining
  left := by rw [(s.receive_frame x).2.1]; exact h.left
  needs := by rw [Sender.needsAck_receive, ← h.needs, Attempt.needsAck, Attempt.event_hear]; rfl
  stop := by
    rw [Sender.stopping_receive, ← h.stop, Attempt.hear_of_open h.isOpen, List.any_cons]
  ack := ack_receive x h.isOpen h.stop h.ack

theorem stands_receive (h : Stands batch w log s) (x : Stimulus ω) :
    Stands batch w (.heard x :: log) (s.receive x) := by
  have hparts : (s.receive x).parts = s.parts := (s.receive_frame x).2.1
  have hongoing : Ongoing batch w log s.parts ∧ Shut w log ∧ Calm log →
      Ongoing batch w (.heard x :: log) s.parts ∧ Shut w (.heard x :: log) ∧
        Calm (.heard x :: log) := fun ⟨hon, hshut, hcalm⟩ =>
    ⟨hon.heard hshut x, shut_heard hshut x, calm_heard hshut hcalm x⟩
  unfold Stands at h ⊢
  rw [Sender.phase_receive, hparts]
  cases hp : s.phase with
  | idle =>
    simp only [hp] at h
    exact hongoing h
  | token =>
    simp only [hp] at h
    exact hongoing h
  | backoff deadline =>
    simp only [hp] at h
    exact hongoing h
  | transport bearer answer =>
    simp only [hp] at h
    obtain ⟨a, earlier, hawaits, hanswer⟩ := h
    refine ⟨a.hear x, earlier, hawaits.heard x, ?_⟩
    rw [Attempt.hear_of_open hawaits.isOpen, ← hanswer]
    rfl
  | acknowledgement deadline =>
    simp only [hp] at h
    obtain ⟨a, earlier, hawaits, hanswer, hneeds⟩ := h
    refine ⟨a.hear x, earlier, hawaits.heard x, Attempt.answer?_hear hanswer, ?_⟩
    rw [Sender.needsAck_receive]
    exact hneeds
  | reporting status told =>
    simp only [hp] at h
    obtain ⟨hon, hshut, hcalm⟩ := h
    exact ⟨hon.heard hshut x, shut_heard hshut x, fun hs => calm_heard hshut (hcalm hs) x⟩
  | completing told =>
    simp only [hp] at h
    obtain ⟨hshut, hacc, hret, hcomp⟩ := h
    exact ⟨shut_heard hshut x, by rw [accepted_heard hshut]; exact hacc, hret, hcomp⟩
  | done success =>
    simp only [hp] at h
    obtain ⟨hshut, hacc, hret⟩ := h
    exact ⟨shut_heard hshut x, by rw [accepted_heard hshut]; exact hacc, hret⟩

theorem inv_receive {x : Logged ω} (h : Inv batch w x) (e : Stimulus ω) :
    Inv batch w ⟨x.sender.receive e, .heard e :: x.journal⟩ where
  carried := by rw [(x.sender.receive_frame e).1]; exact h.carried
  awaitAck := by rw [(x.sender.receive_frame e).2.2]; exact h.awaitAck
  watcher := watcher_receive e h.watcher h.stopped
  stopped := by rw [Sender.stopping_receive, ← h.stopped]; rfl
  honest := h.honest
  stands := stands_receive h.stands e

/-! ## What the sender does by itself -/

theorem Honest.setback (h : Honest batch w log) {a : Action ω} (ha : a.isSetback = true) :
    Honest batch w (.did a :: log) := by
  cases a <;> first | exact ⟨trivial, h⟩ | cases ha

/-- A call that ends with parts left returns false, and has reported nothing. -/
theorem Ongoing.mayReturn {parts : List Part} (h : Ongoing batch w log parts) :
    MayReturn batch w log false where
  first := h.returned
  accepted := by
    have hlt := h.lt
    simp
    omega
  told := by simp
  untold := fun _ => h.completed

/-- What the journal and the sender are after a turn. -/
structure Kept (batch : Batch) (w : Bool) (log : Journal ω) (p : Sender.Progress ω) : Prop where
  honest : Honest batch w (note log p.2)
  stands : Stands batch w (note log p.2) p.1

theorem kept_finish {success : Bool} (h : MayReturn batch w log success)
    (hh : Honest batch w log) : Kept batch w log (s.finish success) where
  honest := ⟨h, hh⟩
  stands := by
    have hret := h.accepted
    rw [← accepted_did (a := .finish success) (w := w) (by simp)] at hret
    exact ⟨shut_did (by simp), hret, by rw [← h.first]; rfl⟩

/-- A failure is told, waited over or final; none of it changes what was accepted. -/
theorem Ongoing.setbacks {now : Nat} {status : Status} {p : Sender.Progress ω}
    (h : Ongoing batch w log s.parts) (hh : Honest batch w log)
    (hcalm : ¬ status.isFinal → Calm log) (hp : s.Setback now status p) :
    Kept batch w log p := by
  cases hp with
  | @tells who hattached =>
    have ha : (Action.reportFailure who status).isSetback = true := rfl
    exact ⟨hh.setback ha, h.setback ha, shut_did (by simp), fun hs => calm_did (by simp) (hcalm hs)⟩
  | pauses hs =>
    have ha : (Action.pause s.retry.current : Action ω).isSetback = true := rfl
    exact ⟨hh.setback ha, h.setback ha, shut_did (by simp), calm_did (by simp) (hcalm hs)⟩
  | ends => exact kept_finish h.mayReturn hh

/-- A setback may come with others ahead of it. -/
theorem kept_setbacks {now : Nat} {status : Status} {before : List (Action ω)}
    {p : Sender.Progress ω} (h : Ongoing batch w log s.parts) (hh : Honest batch w log)
    (hcalm : ¬ status.isFinal → Calm log) (hbefore : ∀ a ∈ before, a.isSetback = true)
    (hp : Sender.Setback { s with ack := .none } now status p) :
    Kept batch w log (p.1, before ++ p.2) := by
  induction before generalizing log with
  | nil => exact Ongoing.setbacks (s := { s with ack := .none }) h hh hcalm hp
  | cons a before ih =>
    have ha := hbefore a List.mem_cons_self
    have hkept := ih (h.setback ha) (hh.setback ha)
      (fun hs => calm_did (ne_transmit_of_isSetback ha) (hcalm hs))
      fun b hb => hbefore b (List.mem_cons_of_mem a hb)
    exact ⟨hkept.honest, hkept.stands⟩

/-- The part that was accepted is left behind. -/
theorem Awaits.passes {a : Attempt ω} {earlier : List (Attempt ω)}
    (h : Awaits batch w log s a earlier) (ha : a.isAccepted w = true)
    (hb : s.batch = batch) (hw : watcher log = s.observer) (hh : Honest batch w log) :
    Kept batch w log { s with ack := .none }.nextPart := by
  have hshut : Shut w log := by
    intro q hq
    obtain rfl : a = q := by simpa [h.current] using hq
    exact .inr ha
  have hcalm : Calm log := h.allCalm (Attempt.isRefused_of_isAccepted ha)
  have hacc : accepted w log = earlier.countP (Attempt.isAccepted w) + 1 := by
    rw [h.accepted_eq, if_pos ha]
  have htail : s.parts.tail = batch.parts.drop (accepted w log) := by
    rw [h.remaining, List.tail_drop, hacc]
  have hlt := h.lt
  have hall : s.parts.tail = [] → accepted w log = batch.parts.length := by
    intro he
    rw [htail, List.drop_eq_nil_iff] at he
    omega
  unfold Sender.nextPart
  dsimp only
  split
  · next who hparts hobs =>
    have hacc' := hall hparts
    have hafter : accepted w (.did (.reportCompleted who s.batch) :: log) = batch.parts.length := by
      rw [accepted_did (by simp), hacc']
    exact ⟨⟨⟨hb, hacc', hw.trans hobs, h.completed, h.returned⟩, hh⟩,
      shut_did (by simp), hafter, h.returned, List.cons_ne_nil _ _⟩
  · next hparts hobs =>
    have hacc' := hall hparts
    exact kept_finish ⟨h.returned, by simp [hacc'], fun _ _ => hw.trans hobs, by simp⟩ hh
  · next hparts =>
    have hon : Ongoing batch w log s.parts.tail :=
      ⟨h.returned, h.completed, htail, by rw [hparts]; exact List.cons_ne_nil _ _⟩
    split
    · exact kept_finish hon.mayReturn hh
    · exact ⟨hh, hon, hshut, hcalm⟩

/-- The current part is handed to the transport. -/
theorem Ongoing.transmit {part : Part} {rest : List Part} {bearer : String} {ids : EventIds}
    {event : Event} (h : Ongoing batch w log s.parts) (hcalm : Calm log)
    (hh : Honest batch w log) (haw : s.awaitAck = w) (hrun : s.stopping = false)
    (hparts : s.parts = part :: rest)
    (hbuilt : Event.build part.kind part.configs bearer ids = .ok event) :
    Kept batch w log ({ s with
      phase := .transport bearer none
      ack := if s.needsAck then .awaited ids.correlation else .none }, [.transmit event]) := by
  have hcurrent : batch.parts[accepted w log]? = some part := by
    have hdrop := h.remaining
    rw [hparts] at hdrop
    have hhead := congrArg (fun l : List Part => l[0]?) hdrop
    simpa using hhead.symm
  obtain ⟨endpoints, -, hevent⟩ := Event.build_eq_ok_iff.mp hbuilt
  have hneeds : Attempt.needsAck w ⟨event, ([] : List (Stimulus ω)), true⟩ = s.needsAck := by
    rw [← hevent, Attempt.needsAck, Sender.needsAck, haw, hparts]
    simp [Event.around, ReportKind.name_inj]
  have hmay : MayTransmit batch w log event :=
    ⟨⟨part, hcurrent, bearer, ids, hbuilt⟩, hcalm, h.returned⟩
  refine ⟨⟨hmay, hh⟩, ⟨event, [], true⟩, attempts log, ?_, rfl⟩
  exact {
    returned := h.returned
    completed := h.completed
    current := rfl
    isOpen := rfl
    calm := hcalm
    remaining := h.remaining
    left := h.left
    needs := hneeds
    stop := hrun.symm
    ack := by
      rw [Attempt.ack, hneeds, ← hevent]
      rfl }

section Turns
variable {x : Logged ω} {now : Nat} {credentials : Credentials} {ids : EventIds}
  {p : Sender.Progress ω}

theorem kept_turn (h : Inv batch w x) (hp : x.sender.Turn now credentials ids p) :
    Kept batch w x.journal p := by
  have hstands := h.stands
  have hh := h.honest
  cases hp with
  | transmits hphase hrun _ _ hparts hbuilt =>
    simp only [Stands, hphase] at hstands
    exact hstands.1.transmit hstands.2.2 hh h.awaitAck hrun hparts hbuilt
  | waits hphase hneeds =>
    simp only [Stands, hphase] at hstands
    obtain ⟨a, earlier, hawaits, hanswer⟩ := hstands
    exact ⟨hh, a, earlier, { hawaits with }, hanswer, hneeds⟩
  | passes haccepted =>
    obtain ⟨a, earlier, hawaits, ha, -⟩ :=
      hstands.awaits (Sender.isAwaiting_of_accepted haccepted)
    exact hawaits.passes (ha.trans haccepted) h.carried h.watcher hh
  | fails hwhy hrejected hset =>
    obtain ⟨a, earlier, hawaits, ha, hrefused⟩ := hstands.awaits hwhy.isAwaiting
    refine kept_setbacks (hawaits.ongoing (ha.trans hrejected)) hh (fun hs => ?_)
      hwhy.isSetback hset
    refine hawaits.allCalm (Bool.eq_false_iff.mpr fun hr => hs ?_)
    obtain ⟨bearer, status, hphase, hfinal⟩ := hrefused hr
    rwa [hwhy.status_eq hphase]
  | goesOn hphase hset =>
    simp only [Stands, hphase] at hstands
    exact hstands.1.setbacks hh hstands.2.2 hset
  | wakes _ hphase =>
    simp only [Stands, hphase] at hstands
    exact ⟨hh, hstands⟩
  | stops _ hphase =>
    have hon : Ongoing batch w x.journal x.sender.parts := by
      rcases hphase with hphase | ⟨deadline, hphase⟩
      · simp only [Stands, hphase] at hstands
        exact hstands.1
      · simp only [Stands, hphase] at hstands
        exact hstands.1
    exact kept_finish hon.mayReturn hh
  | abandons hphase =>
    simp only [Stands, hphase] at hstands
    exact kept_finish hstands.1.mayReturn hh
  | returns hphase =>
    simp only [Stands, hphase] at hstands
    obtain ⟨-, hacc, hret, hcomp⟩ := hstands
    exact kept_finish ⟨hret, by simp [hacc], fun _ he => absurd he hcomp, by simp⟩ hh

theorem inv_turn (h : Inv batch w x) (hp : x.sender.Turn now credentials ids p) :
    Inv batch w ⟨p.1, note x.journal p.2⟩ := by
  have hkept := kept_turn h hp
  obtain ⟨hb, haw, hobs, hstop⟩ := hp.frame
  exact {
    carried := hb.trans h.carried
    awaitAck := haw.trans h.awaitAck
    watcher := by rw [watcher_note, hobs]; exact h.watcher
    stopped := by rw [stopped_note, hstop]; exact h.stopped
    honest := hkept.honest
    stands := hkept.stands }

end Turns

/-! ## Runs -/

theorem inv_step {x : Logged ω} (h : Inv batch w x) (c : Cue ω) : Inv batch w (x.step c) := by
  have hmoves := x.moves_step c
  generalize x.step c = y at hmoves ⊢
  cases hmoves with
  | asked idle =>
    have hstands := h.stands
    simp only [Stands, idle] at hstands
    have hnext : Stands batch w x.journal { x.sender with phase := .token } := hstands
    exact ⟨h.carried, h.awaitAck, h.watcher, h.stopped, h.honest, hnext.congr rfl rfl rfl⟩
  | refused =>
    exact ⟨h.carried, h.awaitAck, h.watcher, h.stopped, h.honest, h.stands.congr rfl rfl rfl⟩
  | hears e => exact inv_receive h e
  | turns _ turn => exact inv_turn h turn
  | stays => exact h

theorem inv_start {ackTimeout : Nat} {retry : Backoff}
    (h : Sender.ofBatch? batch w ackTimeout retry = some s) : Inv batch w (.start s) := by
  have hleft := Sender.parts_ne_nil_of_ofBatch? h
  unfold Sender.ofBatch? at h
  split at h
  · cases h
  · cases h
    have hshut : Shut w ([] : Journal ω) := by simp [Shut, attempts]
    have hcalm : Calm ([] : Journal ω) := by simp [Calm, attempts]
    exact ⟨rfl, rfl, rfl, rfl, trivial, ⟨rfl, rfl, rfl, hleft⟩, hshut, hcalm⟩

theorem inv_run {x : Logged ω} (h : Inv batch w x) (cues : List (Cue ω)) :
    Inv batch w (x.run cues) :=
  Logged.run_induction h (fun _ c hx => inv_step hx c) cues

end Delivery

end Announcer
