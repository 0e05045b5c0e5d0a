import Announcer.Proofs.Sender.Managed
/-!
# A batch is delivered in order

What a call has done, in every run of a sender and its publisher: its actions were justified, and
its events have tried the parts in order. What counts as accepted is what the sender takes up: an
attempt that it leaves for a stop was not accepted, whatever else was there.

Results: `delivery_run`.
-/
namespace Announcer

open Journal

variable {ω : Type}

namespace Delivery
variable {batch : Batch} {s : Sender ω} [DecidableEq ω]

/-- **A batch is delivered in order.** Whatever is done with a sender and its publisher, and
whichever the sender finds first, a stop or what else is there: its actions are justified, and its
events try the parts in order. Once it was asked to send, whoever asks again is refused, and
nothing else happens. And when every part was accepted, and the sender takes up what is there, the
call returns true once its report is taken. -/
theorem delivery_run {awaitAck : Bool} {ackTimeout : Nat} {retry : Backoff}
    (h : Sender.ofBatch? batch awaitAck ackTimeout retry = some s)
    (moves : List (Managed.Move ω)) :
    Delivers batch awaitAck ((Managed.start s).run moves).logged.journal ∧
    (asked ((Managed.start s).run moves).logged.journal = true →
      ((Managed.start s).run (moves ++ [.cue .call])).logged =
        ⟨((Managed.start s).run moves).logged.sender,
          .refused :: ((Managed.start s).run moves).logged.journal⟩) ∧
    (accepted awaitAck ((Managed.start s).run moves).logged.journal = batch.parts.length →
      ∀ now credentials ids, returned ((Managed.start s).run
        (moves ++ (closing now credentials ids).map .cue)).logged.journal = [true]) := by
  have hsound := sound_run h moves
  refine ⟨hsound.honest.delivers, fun hasked => ?_, fun hall now credentials ids => ?_⟩
  · rw [Managed.run_append]
    exact (Managed.logged_cue _ _).trans (refused_of_asked (hsound.asked.mp hasked))
  · rw [Managed.run_append, Managed.logged_cues]
    exact returned_closing hsound.toInv hall now credentials ids

/-- All three parts of the result, on the run of two parts. -/
theorem delivery_twoParts :
    (attempts ((Managed.start twoPartSender).run (twoPartRun.map .cue)).logged.journal).map
        (Attempt.isAccepted true) = [true, true, false] ∧
    Delivers twoParts true
      ((Managed.start twoPartSender).run (twoPartRun.map .cue)).logged.journal ∧
    ((Managed.start twoPartSender).run (twoPartRun.map .cue ++ [.cue .call])).logged =
      ⟨((Managed.start twoPartSender).run (twoPartRun.map .cue)).logged.sender,
        .refused :: ((Managed.start twoPartSender).run (twoPartRun.map .cue)).logged.journal⟩ ∧
    returned ((Managed.start twoPartSender).run (twoPartRun.map .cue ++
      (closing 0 Credentials.none ⟨"", ""⟩).map .cue)).logged.journal = [true] := by
  have hmade : Sender.ofBatch? twoParts true 2000 ⟨fun _ => 0⟩ = some twoPartSender := rfl
  obtain ⟨hdelivers, hrefused, hreturned⟩ := delivery_run hmade (twoPartRun.map .cue)
  exact ⟨by decide +kernel, hdelivers, hrefused (by decide +kernel),
    hreturned (by decide +kernel) 0 _ _⟩

/-- The answer to the last event and a stop are both there, and the sender finds the stop first:
that event was not accepted, and the call returns false. -/
example :
    let journal := ((Managed.start twoPartSender).run
      (twoPartRun.map .cue ++ [.cue (.receive .stop), .yield 0])).logged.journal
    (attempts journal).map (Attempt.isAccepted true) = [false, true, false] ∧
      returned journal = [false] := by decide +kernel

end Delivery

end Announcer
