import Announcer.Proofs.Sender.Ending
/-!
# Stopping is final

From the first stop on nothing is handed to the transport, and nobody is told anything who
was not attached since. The call returns. It returns true only if every part was accepted
when the sender went on behind the stop, that is, when it next did something by itself
(`acceptedBehind`). What was accepted by the time of the stop counts, and one part more if the
transport accepts it just then (`accepted_le_succ`); an acknowledgement that comes behind the stop
is too late (`acceptedBehind_eq`).

This holds whichever is found first, the stop or an answer that is there too, and whoever
stops the sender: its owner, or a publisher that is aborted, or dropped when it performs no
longer.

Results: `acceptedBehind_eq`, `accepted_untilActed`, `observed_since`; `stopped_run`,
`answered_behindStop`.
-/
namespace Announcer

open Journal

variable {ω : Type}

/-! ## What was there when the sender went on -/

/-- The sender did it. -/
def Remark.isDeed : Remark ω → Bool
  | .did _ => true
  | .quit => true
  | _ => false

namespace Journal
variable {log rest : Journal ω} {w : Bool}

/-- A journal up to the first thing that the sender did. -/
def untilActed : Journal ω → Journal ω
  | [] => []
  | e :: log =>
    if log.any Remark.isDeed then untilActed log
    else if e.isDeed then log else e :: log

/-- How many parts were accepted when the sender went on behind a stop. -/
def acceptedBehind (w : Bool) (later earlier : Journal ω) : Nat :=
  accepted w (untilActed later ++ .heard .stop :: earlier)

theorem untilActed_idle (log : Journal ω) : (untilActed log).any Remark.isDeed = false := by
  induction log with
  | nil => rfl
  | cons e log ih =>
    unfold untilActed
    split
    · exact ih
    · next hlog =>
      have hlog : log.any Remark.isDeed = false := by simpa using hlog
      split
      · exact hlog
      · next he => rw [List.any_cons, hlog, Bool.or_false, Bool.eq_false_iff]; exact he

/-- The sender was stopped while it waited for the service, or it does not wait. -/
def Late (log : Journal ω) : Prop :=
  ∀ a ∈ (attempts log).head?, a.isOpen = true → a.heard.any Stimulus.isStop = true

theorem late_heard {x : Stimulus ω} (h : Late log ∨ x.isStop = true) : Late (.heard x :: log) := by
  intro a ha hopen
  rw [attempts, List.head?_modifyHead, Option.mem_def, Option.map_eq_some_iff] at ha
  obtain ⟨b, hb, rfl⟩ := ha
  rw [Attempt.isOpen_hear] at hopen
  rw [Attempt.hear_of_open hopen, List.any_cons, Bool.or_eq_true]
  exact h.symm.imp_right fun hlate => hlate b hb hopen

/-- An acknowledgement comes too late, so only a success of the transport is accepted. -/
theorem isAccepted_hear_late {a : Attempt ω} {x : Stimulus ω}
    (hx : x.answer? ≠ some .successAccepted)
    (h : a.isOpen = true → a.heard.any Stimulus.isStop = true ∨ x.isStop = true) :
    (a.hear x).isAccepted w = a.isAccepted w := by
  cases hopen : a.isOpen with
  | false => rw [Attempt.hear_of_closed hopen]
  | true =>
    have hanswer : Attempt.answer? { a with heard := x :: a.heard } = some .successAccepted ↔
        a.answer? = some .successAccepted := by
      show a.answer?.or x.answer? = _ ↔ _
      cases a.answer? with
      | none => exact iff_of_false hx (by simp)
      | some status => exact Iff.rfl
    have hack : Attempt.isAcknowledged { a with heard := x :: a.heard } = a.isAcknowledged := by
      unfold Attempt.isAcknowledged
      cases x with
      | acknowledge c =>
        have hstop : a.heard.any Stimulus.isStop = true := by
          simpa [Stimulus.isStop] using h hopen
        simp [Attempt.ackIn, hstop]
      | _ => rfl
    rw [Attempt.hear_of_open hopen, Attempt.isAccepted, decide_eq_decide.mpr hanswer, hack]
    rfl

theorem accepted_late {x : Stimulus ω} (hx : x.answer? ≠ some .successAccepted)
    (h : Late log ∨ x.isStop = true) : accepted w (.heard x :: log) = accepted w log :=
  countP_modifyHead fun a ha =>
    isAccepted_hear_late hx fun hopen => h.imp_left fun hlate => hlate a ha hopen

theorem accepted_stop : accepted w (.heard .stop :: log) = accepted w log :=
  accepted_late (by simp [Stimulus.answer?]) (.inr rfl)

theorem accepted_unanswered {earlier : Journal ω} (hidle : log.any Remark.isDeed = false)
    (hanswer : .heard (.answer .successAccepted) ∉ log) :
    accepted w (log ++ .heard .stop :: earlier) = accepted w earlier := by
  have hall : Late (log ++ .heard .stop :: earlier) ∧
      accepted w (log ++ .heard .stop :: earlier) = accepted w earlier := by
    induction log with
    | nil => exact ⟨late_heard (.inr rfl), accepted_stop⟩
    | cons e log ih =>
      rw [List.any_cons, Bool.or_eq_false_iff] at hidle
      obtain ⟨hlate, hsame⟩ :=
        ih hidle.2 fun hmem => hanswer (List.mem_cons_of_mem e hmem)
      cases e with
      | did a => cases hidle.1
      | quit => cases hidle.1
      | heard x =>
        have hx : x.answer? ≠ some .successAccepted := by
          rintro hsuccess
          cases x with
          | answer status =>
            cases hsuccess
            exact hanswer List.mem_cons_self
          | _ => cases hsuccess
        exact ⟨late_heard (.inl hlate), (accepted_late hx (.inl hlate)).trans hsame⟩
      | called => exact ⟨hlate, hsame⟩
      | refused => exact ⟨hlate, hsame⟩
  exact hall.2

/-- Unless the transport accepts an event between the stop and when the sender goes on, nothing
more is accepted. -/
theorem acceptedBehind_eq {later earlier : Journal ω}
    (hanswer : .heard (.answer .successAccepted) ∉ untilActed later) :
    acceptedBehind w later earlier = accepted w earlier :=
  accepted_unanswered (untilActed_idle later) hanswer

/-- What is heard is heard of the last attempt only. -/
theorem tail_attempts (hidle : log.any Remark.isDeed = false) :
    (attempts (log ++ rest)).tail = (attempts rest).tail := by
  induction log with
  | nil => rfl
  | cons e log ih =>
    rw [List.any_cons, Bool.or_eq_false_iff] at hidle
    cases e with
    | did a => cases hidle.1
    | quit => cases hidle.1
    | heard x => rw [List.cons_append, attempts, List.tail_modifyHead, ih hidle.2]
    | called => exact ih hidle.2
    | refused => exact ih hidle.2

theorem accepted_le_succ (hidle : log.any Remark.isDeed = false) :
    accepted w (log ++ rest) ≤ accepted w rest + 1 := by
  have htail : (attempts (log ++ rest)).tail = (attempts rest).tail := tail_attempts hidle
  have hsub : ((attempts rest).tail).countP (Attempt.isAccepted w) ≤ accepted w rest :=
    (List.tail_sublist _).countP_le
  unfold accepted at hsub ⊢
  cases hlog : attempts (log ++ rest) with
  | nil => exact Nat.zero_le _
  | cons a earlier =>
    rw [hlog, List.tail_cons] at htail
    rw [List.countP_cons, htail]
    split <;> omega

/-- Behind an action that was no transmission, nothing that is heard decides about an event. -/
theorem shut_of_acted (hsent : ∀ event, .did (.transmit event) ∉ log)
    (hacted : log.any Remark.isDeed = true) : Shut w (log ++ rest) := by
  induction log with
  | nil => cases hacted
  | cons e log ih =>
    have hsent' : ∀ event, .did (.transmit event) ∉ log :=
      fun event he => hsent event (List.mem_cons_of_mem e he)
    cases e with
    | did a =>
      refine shut_did fun event he => hsent event ?_
      rw [he]
      exact List.mem_cons_self
    | quit => exact shut_quit
    | heard x => exact shut_heard (ih hsent' hacted) x
    | called => exact ih hsent' hacted
    | refused => exact ih hsent' hacted

/-- What counts as accepted later on was accepted when the sender went on. -/
theorem accepted_untilActed (hsent : ∀ event, .did (.transmit event) ∉ log) :
    accepted w (log ++ rest) ≤ accepted w (untilActed log ++ rest) := by
  induction log with
  | nil => exact Nat.le_refl _
  | cons e log ih =>
    have hsent' : ∀ event, .did (.transmit event) ∉ log :=
      fun event he => hsent event (List.mem_cons_of_mem e he)
    have hdid : ∀ a, e = .did a → ∀ event, a ≠ .transmit event := by
      rintro a rfl event rfl
      exact hsent event List.mem_cons_self
    unfold untilActed
    split
    · next hacted =>
      refine Nat.le_trans ?_ (ih hsent')
      cases e with
      | did a => exact (accepted_did (hdid a rfl)).le
      | quit => exact accepted_quit_le
      | heard x => exact (accepted_heard (shut_of_acted hsent' hacted) x).le
      | called => exact Nat.le_refl _
      | refused => exact Nat.le_refl _
    · cases e with
      | did a => exact (accepted_did (hdid a rfl)).le
      | quit => exact accepted_quit_le
      | _ => exact Nat.le_refl _

theorem attempts_eq_nil_iff : attempts log = [] ↔ ∀ event, .did (.transmit event) ∉ log := by
  induction log with
  | nil => simp [attempts]
  | cons e log ih =>
    cases e with
    | did a =>
      cases a with
      | transmit event =>
        exact iff_of_false (List.cons_ne_nil _ _) fun h => h event List.mem_cons_self
      | _ => simp [attempts, ih]
    | _ => simp [attempts, ih]

theorem attempts_of_unsent (hsent : ∀ event, .did (.transmit event) ∉ log)
    (hrest : attempts rest = []) : attempts (log ++ rest) = [] :=
  attempts_eq_nil_iff.mpr fun event he =>
    (List.mem_append.mp he).elim (hsent event) (attempts_eq_nil_iff.mp hrest event)

theorem unsent_untilActed {event : Event} (hsent : .did (.transmit event) ∉ log) :
    .did (.transmit event) ∉ untilActed log := by
  induction log with
  | nil => exact hsent
  | cons e log ih =>
    have hlog := fun he => hsent (List.mem_cons_of_mem e he)
    unfold untilActed
    split
    · exact ih hlog
    · split
      · exact hlog
      · exact hsent

theorem stopped_of_stop (later earlier : Journal ω) :
    stopped (later ++ .heard .stop :: earlier) = true := by
  induction later with
  | nil => rfl
  | cons e later ih =>
    cases e with
    | heard x => rw [List.cons_append, stopped, ih, Bool.or_true]
    | _ => exact ih

/-- Who is attached behind the first stop came after it. -/
theorem observed_since [DecidableEq ω] {who : ω} {later earlier : Journal ω}
    (hfirst : stopped earlier = false)
    (h : watcher (later ++ .heard .stop :: earlier) = some who) :
    .heard (.observe who) ∈ later := by
  induction later with
  | nil =>
    rw [List.nil_append, watcher, hfirst] at h
    cases h
  | cons e later ih =>
    cases e with
    | heard x =>
      rw [List.cons_append] at h
      cases x with
      | observe other =>
        rw [watcher, Option.some.injEq] at h
        rw [h]
        exact List.mem_cons_self
      | unobserve other =>
        rw [watcher] at h
        split at h
        · cases h
        · exact List.mem_cons_of_mem _ (ih h)
      | stop =>
        rw [watcher, if_pos (stopped_of_stop later earlier)] at h
        exact List.mem_cons_of_mem _ (ih h)
      | _ => exact List.mem_cons_of_mem _ (ih h)
    | _ => exact List.mem_cons_of_mem _ (ih h)

end Journal

namespace Delivery
variable {batch : Batch} {w : Bool} [DecidableEq ω]

theorem Sound.returned_of_done {x : Logged ω} (h : Sound batch w x) {success : Bool}
    (hp : x.sender.phase = .done success) : returned x.journal = [success] := by
  have hstands := h.stands
  simp only [Stands, hp] at hstands
  exact hstands.2.2

/-- What a stopped sender has returned was decided when it went on. -/
theorem Sound.not_returned {x : Logged ω} (h : Sound batch w x) {later rest : Journal ω}
    (hjournal : x.journal = later ++ rest)
    (hsent : ∀ event, .did (.transmit event) ∉ later)
    (hleft : accepted w (untilActed later ++ rest) < batch.parts.length) :
    returned x.journal ≠ [true] := by
  intro hreturned
  have hstands := h.stands
  have hdone := hstands.done_of_returned hreturned
  simp only [Stands, hdone] at hstands
  have hall := hstands.2.1.mp trivial
  rw [hjournal] at hall
  have hle : accepted w (later ++ rest) ≤ accepted w (untilActed later ++ rest) :=
    accepted_untilActed hsent
  omega

theorem untransmitted_of_stopped {x : Logged ω} {later earlier : Journal ω}
    (h : Sound batch w x) (hjournal : x.journal = later ++ .heard .stop :: earlier)
    (event : Event) : .did (.transmit event) ∉ later := by
  intro hmem
  obtain ⟨newer, older, rfl⟩ := List.append_of_mem hmem
  have hrestrained := h.restrained
  rw [hjournal, List.append_assoc] at hrestrained
  have hrun := hrestrained.of_append.1.running event rfl
  cases (stopped_of_stop older earlier).symm.trans hrun

/-- A call that was made, and stopped, returns within four rounds. -/
theorem returned_rounds {x : Managed ω} (h : Sound batch w x.logged)
    (hasked : asked x.logged.journal = true) (hstopped : stopped x.logged.journal = true)
    {turns : List (Nat × Credentials × EventIds)} {more : List (Managed.Move ω)}
    (hturns : 4 ≤ turns.length) (hsub : (turns.flatMap round).Sublist more) :
    ∃ success, returned (x.run more).logged.journal = [success] := by
  have hnear : Near turns.length x.logged := by
    refine ⟨h.stopped.symm.trans hstopped, h.asked.mp hasked, ?_⟩
    have hphase := h.asked.mp hasked
    cases hp : x.logged.sender.phase <;> simp_all [Phase.rank] <;> omega
  obtain ⟨success, hdone⟩ := ((near_run x more turns).1 hnear hsub).done
  have hsound : Sound batch w (x.run more).logged := Managed.run_induction sound_change h more
  exact ⟨success, hsound.returned_of_done hdone⟩

/-- What is so from the first stop on. -/
structure Halted (batch : Batch) (w : Bool) (later earlier : Journal ω) : Prop where
  /-- No event is handed to the transport. -/
  sent : ∀ event, .did (.transmit event) ∉ later
  /-- Nobody is told anything who was not attached since. -/
  told : ∀ newer a older, later = newer ++ .did a :: older → ∀ who ∈ a.tells?,
    .heard (.observe who) ∈ older
  /-- The call does not return true when some part was not accepted as the sender went on. -/
  unfinished : acceptedBehind w later earlier < batch.parts.length →
    returned (later ++ .heard .stop :: earlier) ≠ [true]
  /-- Between the stop and then, one part at most is accepted, and only by the transport. -/
  atMostOne : acceptedBehind w later earlier ≤ accepted w earlier + 1
  unanswered : .heard (.answer .successAccepted) ∉ untilActed later →
    acceptedBehind w later earlier = accepted w earlier
  /-- A call that was made behind the stop sends nothing, and does not return true. -/
  unasked : asked earlier = false → attempts (later ++ .heard .stop :: earlier) = [] ∧
    returned (later ++ .heard .stop :: earlier) ≠ [true]

theorem halted_of_sound {x : Logged ω} {later earlier : Journal ω} (h : Sound batch w x)
    (hparts : batch.parts ≠ []) (hjournal : x.journal = later ++ .heard .stop :: earlier)
    (hfirst : stopped earlier = false) : Halted batch w later earlier := by
  have hsent := untransmitted_of_stopped h hjournal
  have hrestrained := h.restrained
  have hreturned := h.not_returned hjournal hsent
  rw [hjournal] at hrestrained hreturned
  refine ⟨hsent, ?told, hreturned, ?atMostOne, acceptedBehind_eq, ?unasked⟩
  case told =>
    rintro newer a older rfl who hwho
    rw [List.append_assoc] at hrestrained
    exact observed_since hfirst (hrestrained.of_append.1.attached who hwho)
  case atMostOne =>
    rw [← accepted_stop]
    exact accepted_le_succ (untilActed_idle later)
  case unasked =>
    intro hasked
    have hearlier : attempts (.heard .stop :: earlier) = [] :=
      hrestrained.of_append.attempts_eq_nil hasked
    have hnone := attempts_of_unsent hsent hearlier
    have hidle : attempts (untilActed later ++ .heard .stop :: earlier) = [] :=
      attempts_of_unsent (fun event => unsent_untilActed (hsent event)) hearlier
    refine ⟨hnone, hreturned ?_⟩
    rw [accepted, hidle]
    exact List.length_pos_of_ne_nil hparts

/-- **Stopping is final.** Whatever was done with a sender and its publisher: from the first
stop on no event is handed over, and nobody is told anything who was not attached since. The call
does not return true unless every part was accepted when the sender went on behind the stop; by
then, one part at most was accepted that was not accepted at the stop, and only by an answer of
the transport. And a call that was made returns within four rounds, in each of which a report is
taken and the sender goes on, whatever happens between them. -/
theorem stopped_run {awaitAck : Bool} {ackTimeout : Nat} {retry : Backoff} {s : Sender ω}
    (h : Sender.ofBatch? batch awaitAck ackTimeout retry = some s)
    (moves : List (Managed.Move ω)) {later earlier : Journal ω}
    (hjournal : ((Managed.start s).run moves).logged.journal = later ++ .heard .stop :: earlier)
    (hfirst : stopped earlier = false) :
    Halted batch awaitAck later earlier ∧
    (asked (later ++ .heard .stop :: earlier) = true →
      ∀ (turns : List (Nat × Credentials × EventIds)) (more : List (Managed.Move ω)),
        4 ≤ turns.length → (turns.flatMap round).Sublist more →
          ∃ newest success,
            ((Managed.start s).run (moves ++ more)).logged.journal =
              newest ++ later ++ .heard .stop :: earlier ∧
            returned (newest ++ later ++ .heard .stop :: earlier) = [success] ∧
            Halted batch awaitAck (newest ++ later) earlier) := by
  have hsound := sound_run h moves
  have hparts := Sender.parts_ne_nil_of_ofBatch? h
  refine ⟨halted_of_sound hsound hparts hjournal hfirst, fun hasked turns more hturns hsub => ?_⟩
  obtain ⟨newest, hnewest⟩ := Managed.journal_run ((Managed.start s).run moves) more
  rw [← Managed.run_append, hjournal, ← List.append_assoc] at hnewest
  obtain ⟨success, hsuccess⟩ := returned_rounds hsound (by rw [hjournal, hasked])
    (by rw [hjournal, stopped_of_stop]) hturns hsub
  rw [← Managed.run_append, hnewest] at hsuccess
  exact ⟨newest, success, hnewest, hsuccess,
    halted_of_sound (sound_run h (moves ++ more)) hparts hnewest hfirst⟩

/-- Through its publisher, a sender of two parts is throttled, and waits for its second
attempt. -/
def pausing : List (Managed.Move String) :=
  [.cue (.receive (.observe "panel")), .publisher .perform, .cue (goOn "c1"),
    .cue (.receive (.answer .throttled)), .cue (goOn ""), .cue (.receive .told), .cue (goOn "")]

/-- Then the publisher is aborted, and someone else is attached. -/
def aborted : List (Managed.Move String) :=
  pausing ++ [.publisher .abort, .cue (.receive (.observe "visitor"))]

/-- Reports are taken, and the sender goes on. -/
def turns : List (Nat × Credentials × EventIds) :=
  List.replicate 4 (0, ⟨"token", .refreshed, 0, 0⟩, ⟨"m", "c2"⟩)

/-- Aborted while it waits for its second attempt, the call returns false, and nothing more
is sent. -/
theorem stopped_pausing :
    let earlier := ((Managed.start twoPartSender).run pausing).logged.journal
    (attempts earlier).length = 1 ∧
    ((Managed.start twoPartSender).run aborted).logged.journal =
      [.heard (.observe "visitor")] ++ .heard .stop :: earlier ∧
    ∃ newest, ((Managed.start twoPartSender).run (aborted ++ turns.flatMap round)).logged.journal =
        newest ++ [.heard (.observe "visitor")] ++ .heard .stop :: earlier ∧
      (∀ event, .did (.transmit event) ∉ newest ++ [.heard (.observe "visitor")]) ∧
      returned (newest ++ [.heard (.observe "visitor")] ++ .heard .stop :: earlier) = [false] := by
  intro earlier
  have hmade : Sender.ofBatch? twoParts true 2000 ⟨fun _ => 0⟩ = some twoPartSender := rfl
  have hfirst : stopped earlier = false := by decide +kernel
  have hasked : asked ([.heard (.observe "visitor")] ++ .heard .stop :: earlier) = true := by
    decide +kernel
  have hjournal : ((Managed.start twoPartSender).run aborted).logged.journal =
      [.heard (.observe "visitor")] ++ .heard .stop :: earlier := rfl
  obtain ⟨newest, success, hnewest, hreturned, hhalted⟩ :=
    (stopped_run hmade aborted hjournal hfirst).2 hasked turns (turns.flatMap round)
      (by decide) (List.Sublist.refl _)
  have hnone : accepted true earlier + 1 < twoParts.parts.length := by decide +kernel
  have hleft : acceptedBehind true (newest ++ [.heard (.observe "visitor")]) earlier <
      twoParts.parts.length := Nat.lt_of_le_of_lt hhalted.atMostOne hnone
  have hnot := hhalted.unfinished hleft
  rw [hreturned] at hnot
  obtain rfl : success = false := by simpa using hnot
  exact ⟨by decide +kernel, hjournal, newest, hnewest, hhalted.sent, hreturned⟩

/-- Through its publisher, the announcement was acknowledged, and the withdrawal is with the
transport. -/
def performing : List (Managed.Move String) :=
  [.publisher .perform, .cue (goOn "c1"), .cue (.receive (.answer .successAccepted)),
    .cue (goOn ""), .cue (.receive (.acknowledge "c1")), .cue (goOn ""), .cue (goOn "c2")]

/-- Then the transport accepts the withdrawal, and the sender goes on. -/
def answered : List (Managed.Move String) :=
  [.cue (.receive (.answer .successAccepted)), .cue (goOn "")]

/-- A call that is stopped with a part that was not accepted, and no answer there, may still
return true: the transport accepts the part before the sender goes on. Nor does it return false
when its publisher is let go of meanwhile, because that does not stop it. -/
theorem answered_behindStop :
    let x := (Managed.start twoPartSender).run performing
    x.logged.sender.phase = .transport "token" none ∧
    accepted true x.logged.journal < twoParts.parts.length ∧
    returned (x.run (.cue (.receive .stop) :: answered)).logged.journal = [true] ∧
    stopped (x.run [.publisher .release, .publisher .expire]).logged.journal = false ∧
    returned (x.run (.publisher .release :: .publisher .expire :: answered)).logged.journal =
      [true] := by
  decide +kernel

end Delivery

end Announcer
