import Announcer.Fault
import Announcer.Registry
import Announcer.Settings
import Announcer.Simulation.Publisher
import Announcer.Simulation.Service
import Announcer.Simulation.Shelf
/-!
# A registry on a timeline

A registry with its store, its senders, their credentials and the service. Its
commands wait in one queue, strictly in the order in which they came. Only so
many of them are taken up; whoever comes with another one waits until there is
room. Callers wait for their answers, and a sender waits until its report is
taken up.

All that can happen at one moment happens in rounds: first the registry works
off what was taken up, then the queue takes up what waits, then each sender goes
on until it waits, and then the acknowledgements arrive that are due.
-/
namespace Announcer.Simulation

/-- Who waits for a command. -/
inductive Origin where
  | caller
  /-- A caller on its own, since a step. -/
  | aside (step : Nat)
  /-- The sender of a batch, until its report is taken up. -/
  | sender (batch : Nat)
  | nobody
  deriving DecidableEq, Repr, Inhabited

def Origin.isAside : Origin → Bool
  | .aside _ => true
  | _ => false

inductive Outcome where
  | nothing
  | success (yes : Bool)
  | operation (ids : Option (List String × List String))
  | parts (snapshot : Snapshot)
  | refused (fault : Fault)
  | stored (configs : Configs)
  deriving Repr, Inhabited

structure Queued where
  command : Command
  origin : Origin
  deriving Repr

/-- A sender at work. -/
structure Courier where
  number : Nat
  sender : Sender Unit
  /-- The event that the transport has and not answered yet: its correlation
  token, and how it will be answered. -/
  inTransit : Option (String × Receipt)
  publisher : Option Publisher
  performer : Option Nat
  reported : Bool

structure RegistryRun where
  now : Nat
  settings : Settings
  registry : Registry String
  queue : List Queued
  /-- How many commands were taken up, from the first one on. -/
  taken : Nat
  current : Origin
  signal : Bool
  ended : Bool
  /-- What the store is at work on, and until when. -/
  asked : Option (StoreCall × Nat)
  shelf : Shelf
  credentials : Credentials
  service : Service
  /-- How many events were formatted. -/
  minted : Nat
  couriers : List Courier
  operation : Option Nat
  answer : Option Outcome
  /-- What others learned: since which step, what, and when. -/
  results : List (Nat × Outcome × Nat)
  notes : List (Note String)
  reachable : Bool

namespace RegistryRun

/-! ## Callers -/

def refusal (fault : Fault) : Command → Outcome
  | .announce .. | .withdraw .. | .clearStore => .success false
  | .bootstrap => .operation none
  | .snapshot => .refused fault
  | _ => .nothing

def outcome : Reply → Outcome
  | .accepted => .success true
  | .rejected _ => .success false
  | .operation offer => .operation (offer.map fun (_, b) => (b.announced.keys, b.withdrawn.keys))
  | .cleared success => .success success
  | .parts snapshot => .parts snapshot

def withCourier (r : RegistryRun) (number : Nat) (f : Courier → Courier) : RegistryRun :=
  { r with couriers := r.couriers.map fun c => if c.number = number then f c else c }

def courier? (r : RegistryRun) (number : Nat) : Option Courier :=
  r.couriers.find? (fun c => c.number = number)

def stimulate (r : RegistryRun) (number : Nat) (x : Stimulus Unit) : RegistryRun :=
  r.withCourier number fun c => { c with sender := c.sender.receive x }

def replaceOperation (r : RegistryRun) (operation : Option Nat) : RegistryRun :=
  let r := match r.operation with
    | some before =>
      r.withCourier before fun c =>
        { c with publisher := c.publisher.map Publisher.release }
    | none => r
  { r with operation }

def tell (r : RegistryRun) (o : Outcome) : Origin → RegistryRun
  | .caller => { r with answer := some o }
  | .aside step => { r with results := r.results ++ [(step, o, r.now)] }
  | _ => r

/-- Tells a caller of a bootstrap what it learns, together with the operation. -/
def tellOperation (r : RegistryRun) (o : Outcome) (operation : Option Nat) (origin : Origin) :
    RegistryRun :=
  (r.replaceOperation operation).tell o origin

def refuse (r : RegistryRun) (fault : Fault) (q : Queued) : RegistryRun :=
  let o := refusal fault q.command
  match q.origin, o with
  | .sender number, _ => r.stimulate number .told
  | origin, .operation _ => r.tellOperation o none origin
  | origin, _ => r.tell o origin

/-- Takes up as many commands as there is room for. Who comes with the state of
the connection does not wait any longer then, nor does a sender. -/
def takeUp (r : RegistryRun) : RegistryRun :=
  let taken := min (max r.settings.registry.commandBuffer 1) r.queue.length
  let fresh := (r.queue.take taken).drop r.taken
  fresh.foldl (fun r q =>
    match q.origin, q.command with
    | .sender number, _ => r.stimulate number .told
    | origin, .connection _ => r.tell .nothing origin
    | _, _ => r) { r with taken := max taken r.taken }

def hasCallers (r : RegistryRun) : Bool :=
  r.reachable || (r.asked.isSome && r.current.isAside) || r.queue.any (fun q => q.origin.isAside)

def enqueue (r : RegistryRun) (q : Queued) : RegistryRun :=
  if r.ended then r.refuse .shuttingDown q
  else if !r.hasCallers then r.refuse .shuttingDown q
  else { r with queue := r.queue ++ [q] }.takeUp

def request (r : RegistryRun) (command : Command) (origin : Origin) : RegistryRun :=
  match command with
  | .connection _ => r.enqueue ⟨command, origin⟩
  | _ =>
    if r.registry.shuttingDown then r.refuse .shuttingDown ⟨command, origin⟩
    else r.enqueue ⟨command, origin⟩

/-! ## The registry at work -/

def engage (r : RegistryRun) (number : Nat) (batch : Batch) (awaitAck : Bool)
    (prepare : Courier → Courier) : RegistryRun :=
  match Sender.ofSettings? r.settings.sender Backoff.exponential batch awaitAck with
  | none => r
  | some sender =>
    let courier : Courier := {
      number, sender := sender.receive (.observe ())
      inTransit := none, publisher := none, performer := none, reported := false }
    { r with couriers := r.couriers ++ [prepare courier] }

def carry (r : RegistryRun) : Effect String → RegistryRun
  | .reply reply =>
    match reply with
    | .operation offer => r.tellOperation (outcome reply) (offer.map Prod.fst) r.current
    | _ => r.tell (outcome reply) r.current
  | .notify note => { r with notes := note :: r.notes }
  | .dispatch number batch awaitAck =>
    r.engage number batch awaitAck fun c => { c with sender := c.sender.call?.getD c.sender }
  | .offer number batch =>
    r.engage number batch true fun c => { c with publisher := some .fresh }
  | .stop number => r.stimulate number .stop
  | .store call => { r with asked := some (call, r.now + r.shelf.delay (.ofCall call)) }

def apply (r : RegistryRun) (o : Registry.Outcome String) : RegistryRun :=
  o.2.foldl carry { r with registry := o.1 }

/-- Comes to the end: what was taken up is dropped, and what waited is refused. -/
def endWork (r : RegistryRun) : RegistryRun :=
  let dropped := r.queue.take r.taken
  let refused := r.queue.drop r.taken
  let r := { r with ended := true, queue := [], taken := 0 }.apply r.registry.stop
  let r := dropped.foldl (fun r q =>
    match q.origin, q.command with
    | .sender _, _ => r
    | _, .connection _ => r
    | _, _ => r.refuse (.channel "Registry dropped the request") q) r
  refused.foldl (refuse · .shuttingDown ·) r

def work? (r : RegistryRun) : Option RegistryRun :=
  if r.ended then none
  else
    match r.asked with
    | some (call, due) =>
      if r.now < due then none
      else
        let (reply, shelf) := r.shelf.serve call
        some ({ r with asked := none, shelf }.apply (r.registry.resume reply))
    | none =>
      if r.signal then some r.endWork
      else
        match r.taken, r.queue with
        | taken + 1, q :: queue =>
          some ({ r with queue, taken, current := q.origin }.apply (r.registry.handle q.command))
        | _, _ => if r.hasCallers then none else some r.endWork

def whileSome (step : RegistryRun → Option RegistryRun) : Nat → Bool → RegistryRun → Bool × RegistryRun
  | 0, moved, r => (moved, r)
  | fuel + 1, moved, r =>
    match step r with
    | some r => whileSome step fuel true r
    | none => (moved, r)

/-! ## The senders at work -/

/-- An acknowledgement arrives: it is for the batch that is outstanding. -/
def acknowledge (r : RegistryRun) (correlation : String) : RegistryRun :=
  match r.registry.active with
  | some active => if r.reachable then r.stimulate active.number (.acknowledge correlation) else r
  | none => r

/-- The transport comes to its answer: the acknowledgements that come at once
are delivered before it. -/
def deliver (r : RegistryRun) (number : Nat) (correlation : String) (receipt : Receipt) :
    RegistryRun :=
  let (service, atOnce) := r.service.acknowledge r.now correlation receipt.acks
  let r := { r with service }.withCourier number fun c => { c with inTransit := none }
  (atOnce.foldl acknowledge r).stimulate number (.answer receipt.status)

def act (number : Nat) (r : RegistryRun) : Action Unit → RegistryRun
  | .transmit event =>
    let (service, receipt) := r.service.take r.now event
    let r := { r with service, minted := r.minted + 1 }
    let correlation := event.header.ids.correlation
    match receipt.due with
    | none => r.deliver number correlation receipt
    | some _ => r.withCourier number fun c => { c with inTransit := some (correlation, receipt) }
  | .rejectToken token => { r with credentials := r.credentials.reportFailure token }
  | .reportFailure _ status => r.enqueue ⟨.failed number status, .sender number⟩
  | .reportCompleted _ batch =>
    r.enqueue ⟨.completed number batch.announced batch.withdrawn, .sender number⟩
  | .pause _ => r
  | .finish success =>
    let performer := (r.courier? number).bind Courier.performer
    let r := match performer with
      | some step => r.tell (.success success) (.aside step)
      | none => r
    r.withCourier number fun c =>
      { c with
        performer := none
        publisher := c.publisher.map Publisher.finish }

def send? (number : Nat) (r : RegistryRun) : Option RegistryRun :=
  match r.courier? number with
  | none => none
  | some c =>
    let cut := match c.sender.phase with
      | .transport _ none => c.sender.stopping
      | _ => true
    match c.inTransit, cut with
    | some _, true => some (r.withCourier number fun c => { c with inTransit := none })
    | some (correlation, receipt), false =>
      if receipt.due.all (· ≤ r.now) then some (r.deliver number correlation receipt) else none
    | none, _ =>
      match c.sender.resume r.now r.credentials (Uuid.eventIds r.minted) with
      | some (sender, actions) =>
        some (actions.foldl (act number) (r.withCourier number fun c => { c with sender }))
      | none =>
        if c.publisher.any Publisher.isLoose then
          some ((r.withCourier number fun c =>
            { c with publisher := c.publisher.map Publisher.drop }).stimulate
              number .stop)
        else if c.sender.isSettled && !c.reported then
          some ((r.withCourier number fun c => { c with reported := true }).enqueue
            ⟨.ended number, .nobody⟩)
        else none

/-- True when nothing can come of a courier any more. -/
def Courier.isSpent (c : Courier) : Bool :=
  c.reported && c.inTransit.isNone && c.publisher.all (·.dropped) && c.performer.isNone
    && c.sender.isFinished

def arrival? (r : RegistryRun) : Option RegistryRun :=
  (r.service.dueAck? r.now).map fun (token, service) => { r with service }.acknowledge token

def round? (r : RegistryRun) : Option RegistryRun :=
  let (worked, r) := whileSome work? budget false r
  let r := r.takeUp
  let (sent, r) := (r.couriers.map Courier.number).foldl (fun (moved, r) number =>
    whileSome (send? number) budget moved r) (false, r)
  let (arrived, r) := whileSome arrival? budget false r
  if worked || sent || arrived then
    some { r with couriers := r.couriers.filter fun c => !Courier.isSpent c }
  else none

def due (r : RegistryRun) : Option Nat :=
  earliest ((r.asked.map Prod.snd).toList ++ r.service.pendingAcks.map Prod.fst
    ++ r.couriers.flatMap fun c =>
      (c.inTransit.bind fun t => t.2.due).toList ++ c.sender.deadline?.toList)

def timeline : Timeline RegistryRun where
  work := round?
  due := due
  now := (·.now)
  moveTo := fun now r => { r with now }

end RegistryRun

end Announcer.Simulation
