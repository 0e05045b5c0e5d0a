import Announcer.Simulation.Publisher
import Announcer.Simulation.Service
/-!
# One sender on a timeline

A sender, its credentials and a scripted service, driven by a list of things to
do at given moments. The sender may be wrapped in a publisher, as the bootstrap
of a connection does: a publisher performs once, and when it is given up and no
performance is under way, it stops its sender.
-/
namespace Announcer.Simulation

inductive SenderStep where
  | send
  | perform
  | abort
  | dropPublisher
  | stop
  | setToken (token : String)
  | revoke (state : AuthState)
  | ack (token : String)
  | ackBack (back : Nat)
  | observe (who : String)
  | unobserve (who : String)
  | check
  deriving Repr

inductive Observation where
  | sent (t : Transmission)
  | failure (who : String) (status : Status)
  | completed (who : String) (announced withdrawn : List String)
  | returned (success : Bool)
  | checked (stopping finished : Bool)
  deriving Repr

structure SenderRun where
  now : Nat
  sender : Sender String
  credentials : Credentials
  service : Service
  /-- The event that the transport has and not answered yet: its correlation
  token, and how it will be answered. -/
  inTransit : Option (String × Receipt)
  minted : Nat
  publisher : Option Publisher
  settledAt : Option Nat
  /-- What was seen, the last first, each with its moment. -/
  log : List (Nat × Observation)

namespace SenderRun

def note (r : SenderRun) (o : Observation) : SenderRun := { r with log := (r.now, o) :: r.log }

def stimulate (r : SenderRun) (x : Stimulus String) : SenderRun :=
  { r with sender := r.sender.receive x }

/-- The transport comes to its answer: the acknowledgements that come at once
are delivered before it. -/
def deliver (r : SenderRun) (correlation : String) (receipt : Receipt) : SenderRun :=
  let (service, atOnce) := r.service.acknowledge r.now correlation receipt.acks
  let r := { r with service, inTransit := none }
  (atOnce.foldl (fun r token => r.stimulate (.acknowledge token)) r).stimulate
    (.answer receipt.status)

def act (r : SenderRun) : Action String → SenderRun
  | .transmit event =>
    let (service, receipt) := r.service.take r.now event
    let r := { r with service, minted := r.minted + 1 }
    let r := match service.sent with
      | t :: _ => r.note (.sent t)
      | [] => r
    match receipt.due with
    | none => r.deliver event.header.ids.correlation receipt
    | some _ => { r with inTransit := some (event.header.ids.correlation, receipt) }
  | .rejectToken token => { r with credentials := r.credentials.reportFailure token }
  | .reportFailure who status => (r.note (.failure who status)).stimulate .told
  | .reportCompleted who batch =>
    (r.note (.completed who batch.announced.keys batch.withdrawn.keys)).stimulate .told
  | .pause _ => r
  | .finish success =>
    { r.note (.returned success) with
      publisher := r.publisher.map Publisher.finish }

/-- Asks the sender to send; a call that comes too late fails at once. -/
def call (r : SenderRun) : SenderRun :=
  match r.sender.call? with
  | some sender => { r with sender }
  | none => r.note (.returned false)

def publish (r : SenderRun) (h : Handling) : SenderRun :=
  match r.publisher with
  | none => r
  | some p =>
    let (p, order) := p.handle (r.sender.phase = .idle) h
    let r := { r with publisher := some p }
    match order with
    | .nothing => r
    | .refuse => r.note (.returned false)
    | .call => r.call
    | .stop => r.stimulate .stop

def isCut (r : SenderRun) : Bool :=
  match r.sender.phase with
  | .transport _ none => r.sender.stopping
  | _ => true

/-- One thing that happens now. -/
def work (r : SenderRun) : Option SenderRun :=
  if r.settledAt.isNone && r.sender.isSettled then some { r with settledAt := some r.now }
  else
    match r.inTransit with
    | some (correlation, receipt) =>
      if r.isCut then some { r with inTransit := none }
      else if receipt.due.all (· ≤ r.now) then some (r.deliver correlation receipt)
      else go
    | none => go
where
  go : Option SenderRun :=
    match r.service.dueAck? r.now with
    | some (token, service) => some ({ r with service }.stimulate (.acknowledge token))
    | none =>
      match r.sender.resume r.now r.credentials (Uuid.eventIds r.minted) with
      | some (sender, actions) => some (actions.foldl act { r with sender })
      | none =>
        if r.publisher.any Publisher.isLoose then some (r.publish .expire) else none

def due (r : SenderRun) : Option Nat :=
  earliest ((r.inTransit.bind fun t => t.2.due).toList ++ r.service.pendingAcks.map Prod.fst
    ++ r.sender.deadline?.toList)

def timeline : Timeline SenderRun where
  work := work
  due := due
  now := (·.now)
  moveTo := fun now r => { r with now }

def step (r : SenderRun) (s : SenderStep) : SenderRun :=
  let r := match s with
    | .send => r.call
    | .perform => r.publish .perform
    | .abort => r.publish .abort
    | .dropPublisher => r.publish .release
    | .stop => r.stimulate .stop
    | .setToken token => { r with credentials := r.credentials.setToken token }
    | .revoke state => { r with credentials := r.credentials.revoke state }
    | .ack token => r.stimulate (.acknowledge token)
    | .ackBack back =>
      match r.service.correlation? back with
      | some token => r.stimulate (.acknowledge token)
      | none => r
    | .observe who => r.stimulate (.observe who)
    | .unobserve who => r.stimulate (.unobserve who)
    | .check => r.note (.checked r.sender.stopping r.sender.isFinished)
  timeline.settle budget r

/-- Does everything in the given order, each thing at its moment or, when that
is past, at once, and then lets time pass up to `limit`. -/
def rehearse (r : SenderRun) (steps : List (Nat × SenderStep)) (limit : Nat) : SenderRun :=
  let r := steps.foldl (fun r (at_, s) => (timeline.runTo budget (max at_ r.now) r).step s)
    (timeline.settle budget r)
  timeline.runTo budget (max limit r.now) r

end SenderRun

end Announcer.Simulation
