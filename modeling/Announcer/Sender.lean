import Announcer.Credentials
import Announcer.Event
import Announcer.Settings
import Announcer.Status
import Announcer.SubBatch
import Announcer.Table
/-!
# Sending one batch

A sender carries one batch to the service and is used once (specification, 4.2).
It works through its parts in order, the announcements before the withdrawals;
each part is one event. An attempt is

* `token`: wait for a usable token, then hand the event to the transport,
* `transport`: wait for the transport's answer,
* `acknowledgement`: for announcements, when asked for, wait for the service to
  acknowledge the event by its correlation token,
* `reporting`: tell the observer of a failure, and
* `backoff`: wait before the next attempt.

What happens to a sender from outside is a `Stimulus` and only leaves a mark in
its state. `resume` is what the sender does by itself: from one wait to the
next, with the actions it takes on the way. Every wait also ends when the
sender is stopped.
-/
namespace Announcer

structure Part where
  kind : ReportKind
  configs : List Config
  deriving DecidableEq, Repr, Inhabited

/-- The parts of a batch in the order they are sent (specification, 4.2 and 5). Only
announcements are limited in number. -/
def Batch.parts (b : Batch) : List Part :=
  (subBatches (some maxEndpointsPerReport) maxConfigBytesPerEvent b.announced.values).map
      (Part.mk .addOrUpdate)
    ++ (subBatches none maxConfigBytesPerEvent b.withdrawn.values).map (Part.mk .delete)

/-- Where a sender stands. Times are in milliseconds. -/
inductive Phase where
  | idle
  | token
  /-- The event was sent with `token`; `answer` is what the transport said. -/
  | transport (token : String) (answer : Option Status)
  /-- It waits for an acknowledgement, until `deadline` at the latest. -/
  | acknowledgement (deadline : Nat)
  | reporting (status : Status) (told : Bool)
  | backoff (deadline : Nat)
  | completing (told : Bool)
  | done (success : Bool)
  deriving DecidableEq, Repr, Inhabited

inductive Ack where
  | none
  | awaited (correlation : String)
  /-- It is there and was not picked up yet. -/
  | received
  deriving DecidableEq, Repr, Inhabited

structure Sender (ω : Type) where
  batch : Batch
  awaitAck : Bool
  ackTimeout : Nat
  retry : Backoff
  phase : Phase
  /-- What the service has not accepted yet, the current part first. -/
  parts : List Part
  ack : Ack
  stopping : Bool
  observer : Option ω

/-- What happens to a sender from outside. -/
inductive Stimulus (ω : Type) where
  | stop
  | observe (who : ω)
  | unobserve (who : ω)
  | acknowledge (correlation : String)
  | answer (status : Status)
  | told

/-- What a sender does on the way from one wait to the next. -/
inductive Action (ω : Type) where
  | transmit (event : Event)
  | rejectToken (token : String)
  | reportFailure (who : ω) (status : Status)
  | reportCompleted (who : ω) (batch : Batch)
  /-- Begins to wait, for so many nanoseconds. -/
  | pause (delay : Nat)
  | finish (success : Bool)

/-- The milliseconds after which a timer of so many nanoseconds rings. -/
def ringAfter (ns : Nat) : Nat := (ns + (nanosPerMilli - 1)) / nanosPerMilli

namespace Sender

variable {ω : Type}

/-- None when there is nothing to send (specification, 12.6). -/
def ofBatch? (batch : Batch) (awaitAck : Bool) (ackTimeout : Nat) (retry : Backoff) :
    Option (Sender ω) :=
  if batch.isEmpty then none
  else some {
    batch, awaitAck, ackTimeout, retry
    phase := .idle
    parts := batch.parts
    ack := .none
    stopping := false
    observer := none }

def ofSettings? (settings : SenderSettings) (growth : Growth) (batch : Batch) (awaitAck : Bool) :
    Option (Sender ω) :=
  ofBatch? batch awaitAck settings.ackTimeout (settings.retryPolicy.backoffBy growth)

def isFinished (s : Sender ω) : Bool :=
  match s.phase with
  | .done _ => true
  | _ => false

/-- True once the call has returned, or once it cannot be made with any effect. -/
def isSettled (s : Sender ω) : Bool :=
  s.isFinished || (s.stopping && s.phase = .idle)

/-- Asks the sender to send (`sendAll`; specification, 4.2). None when it was asked before: that
call fails at once and changes nothing. -/
def call? (s : Sender ω) : Option (Sender ω) :=
  if s.phase = .idle then some { s with phase := .token } else none

/-- Marks what happened from outside. Only the acknowledgement that is awaited
counts. Stopping detaches the observer and gives up the acknowledgement, the
first time. -/
def receive [DecidableEq ω] (s : Sender ω) : Stimulus ω → Sender ω
  | .stop =>
    if s.stopping then s
    else { s with
      stopping := true
      observer := none
      ack := if s.ack = .received then .received else .none }
  | .observe who => { s with observer := some who }
  | .unobserve who => if s.observer = some who then { s with observer := none } else s
  | .acknowledge correlation =>
    if s.ack = .awaited correlation then { s with ack := .received } else s
  | .answer status =>
    match s.phase with
    | .transport token none => { s with phase := .transport token (some status) }
    | _ => s
  | .told =>
    match s.phase with
    | .reporting status _ => { s with phase := .reporting status true }
    | .completing _ => { s with phase := .completing true }
    | _ => s

abbrev Progress (ω : Type) := Sender ω × List (Action ω)

def finish (s : Sender ω) (success : Bool) : Progress ω :=
  ({ s with phase := .done success, ack := .none }, [.finish success])

/-- Goes on after a failure was reported (specification, 4.2): no more attempts when it was final,
and otherwise the next delay. -/
def afterReport (s : Sender ω) (now : Nat) (status : Status) : Progress ω :=
  if status = .invalidAuth ∨ status = .badRequest then s.finish false
  else
    ({ s with phase := .backoff (now + ringAfter s.retry.current), retry := s.retry.next },
      [.pause s.retry.current])

def report (s : Sender ω) (now : Nat) (status : Status) : Progress ω :=
  match s.observer with
  | some who => ({ s with phase := .reporting status false }, [.reportFailure who status])
  | none => s.afterReport now status

def nextPart (s : Sender ω) : Progress ω :=
  let s := { s with parts := s.parts.tail }
  match s.parts, s.observer with
  | [], some who => ({ s with phase := .completing false }, [.reportCompleted who s.batch])
  | [], none => s.finish true
  | _ :: _, _ => if s.stopping then s.finish false else ({ s with phase := .token }, [])

/-- Goes on by the status of an attempt (specification, 4.2). -/
def conclude (s : Sender ω) (now : Nat) (token : String) (status : Status) : Progress ω :=
  let s := { s with ack := .none }
  match status with
  | .successAccepted => s.nextPart
  | .invalidAuth =>
    let r := s.report now .invalidAuth
    (r.1, .rejectToken token :: r.2)
  | .canceled => if s.stopping then s.finish false else s.report now .canceled
  | status => s.report now status

/-- Only announcements are acknowledged (specification, 6). -/
def needsAck (s : Sender ω) : Bool :=
  s.awaitAck && s.parts.head?.any (fun part => part.kind = .addOrUpdate)

/-- Goes on by the transport's answer: a success may still need its
acknowledgement. -/
def answered (s : Sender ω) (now : Nat) (token : String) (status : Status) : Progress ω :=
  if status.isSuccess && s.needsAck then
    ({ s with phase := .acknowledgement (now + s.ackTimeout) }, [])
  else s.conclude now token status

def transmit (s : Sender ω) (token : String) (ids : EventIds) : Progress ω :=
  match s.parts with
  | [] => s.finish false
  | part :: _ =>
    match Event.build part.kind part.configs token ids with
    | .error _ => s.finish false
    | .ok event =>
      let ack := if s.needsAck then .awaited ids.correlation else .none
      ({ s with phase := .transport token none, ack }, [.transmit event])

/-- What the sender does by itself at the time `now`, none while it waits. An
event is formatted with the identifiers `ids`. -/
def resume (s : Sender ω) (now : Nat) (credentials : Credentials) (ids : EventIds) :
    Option (Progress ω) :=
  match s.phase with
  | .idle => none
  | .token =>
    if s.stopping then some (s.finish false)
    else if credentials.state ≠ .refreshed then none
    else if credentials.token.isEmpty then some (s.finish false)
    else some (s.transmit credentials.token ids)
  | .transport token (some status) => some (s.answered now token status)
  | .transport token none => if s.stopping then some (s.conclude now token .canceled) else none
  | .acknowledgement deadline =>
    if s.ack = .received then some (s.conclude now "" .successAccepted)
    else if s.stopping then some (s.conclude now "" .canceled)
    else if deadline ≤ now then some (s.conclude now "" .timeout)
    else none
  | .reporting status true => some (s.afterReport now status)
  | .reporting _ false => none
  | .backoff deadline =>
    if s.stopping then some (s.finish false)
    else if deadline ≤ now then some ({ s with phase := .token }, [])
    else none
  | .completing true => some (s.finish true)
  | .completing false => none
  | .done _ => none

def deadline? (s : Sender ω) : Option Nat :=
  match s.phase with
  | .acknowledgement deadline => some deadline
  | .backoff deadline => some deadline
  | _ => none

end Sender

end Announcer
