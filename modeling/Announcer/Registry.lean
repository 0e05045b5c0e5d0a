import Announcer.Hub
import Announcer.Status
import Announcer.Table
/-!
# The registry

The registry owns the endpoint table and decides when which batch is sent. It
takes one command after the other; some of them need the store, and then it
waits for the store's reply before the next command (specification, 4.1 and 5).
At most one batch is outstanding, the `active` one, and what is on its way in
the table is exactly that batch.

`handle` begins a command and `resume` goes on after a reply of the store. Both
result in the effects to carry out, in order. `shutdown` may come at any moment,
also while the store is at work.
-/
namespace Announcer

inductive Command where
  | announce (id : String) (registration : Option Registration) (config : Config)
  | withdraw (id : String) (registration : Option Registration)
  | connection (state : Connection)
  /-- The connection is being set up, and what is to be published then is asked for. -/
  | bootstrap
  | completed (batch : Nat) (announced withdrawn : Configs)
  | failed (batch : Nat) (status : Status)
  /-- The sender of a batch has come to its end. -/
  | ended (batch : Nat)
  | clearStore
  | snapshot
  deriving DecidableEq, Repr

inductive StoreCall where
  | storeAll (configs : Configs)
  | eraseAll (ids : List String)
  | loadAll
  | clear
  deriving DecidableEq, Repr

inductive StoreReply where
  | done
  | loaded (configs : Configs)
  | failed
  deriving DecidableEq, Repr

inductive Reply where
  | accepted
  | rejected (reason : Rejection)
  | operation (offer : Option (Nat × Batch))
  | cleared (success : Bool)
  | parts (snapshot : Snapshot)
  deriving DecidableEq, Repr

/-- What the registry has to see done. -/
inductive Effect (ω : Type) where
  | reply (r : Reply)
  | notify (n : Note ω)
  /-- A sender is made for a batch and sends at once. -/
  | dispatch (number : Nat) (batch : Batch) (awaitAck : Bool)
  /-- A sender is made for a batch and waits to be used. -/
  | offer (number : Nat) (batch : Batch)
  | stop (number : Nat)
  | store (call : StoreCall)
  deriving DecidableEq, Repr

/-- What the store is at work on. -/
inductive StoreWait where
  | storing (batch : Nat) (withdrawn : List String)
  | erasing (batch : Nat)
  | loading
  | clearing
  deriving DecidableEq, Repr

structure Active where
  number : Nat
  batch : Batch
  deriving DecidableEq, Repr, Inhabited

structure Registry (ω : Type) where
  /-- Whether announcements count only once they are acknowledged. A bootstrap
  always asks for it. -/
  awaitAck : Bool
  table : Table
  connection : Connection
  active : Option Active
  hub : Hub ω
  shuttingDown : Bool
  issued : Nat
  waiting : Option StoreWait
  deriving DecidableEq, Repr, Inhabited

namespace Registry

variable {ω : Type}

def start (awaitAck : Bool) : Registry ω where
  awaitAck
  table := .empty
  connection := .disconnected
  active := none
  hub := .empty
  shuttingDown := false
  issued := 0
  waiting := none

abbrev Outcome (ω : Type) := Registry ω × List (Effect ω)

def andThen (o : Outcome ω) (f : Registry ω → Outcome ω) : Outcome ω :=
  let next := f o.1
  (next.1, o.2 ++ next.2)

def answer (r : Registry ω) (reply : Reply) : Outcome ω := (r, [.reply reply])

def publish (r : Registry ω) (state : SyncState) (cause : SyncCause)
    (announced withdrawn : List String) : Outcome ω :=
  let (hub, notes) := r.hub.set state cause announced withdrawn
  ({ r with hub }, notes.map .notify)

def isActive (r : Registry ω) (batch : Nat) : Bool :=
  r.active.any (fun a => a.number = batch)

/-- Gives up the outstanding batch, whatever became of it. -/
def detach (r : Registry ω) : Outcome ω :=
  ({ r with active := none }, (r.active.map fun a => Effect.stop a.number).toList)

def release (r : Registry ω) (batch : Nat) : Outcome ω :=
  if r.isActive batch then r.detach else (r, [])

/-- Makes `batch` the outstanding one. -/
def activate (r : Registry ω) (batch : Batch) (effect : Nat → Effect ω) : Outcome ω :=
  let number := r.issued + 1
  ({ r with issued := number, active := some ⟨number, batch⟩ }, [effect number])

/-- Sends the next batch, when there is a connection and no batch outstanding (the dispatch pass;
specification, 4.1). -/
def dispatch (r : Registry ω) : Outcome ω :=
  if r.shuttingDown || r.connection ≠ .connected || r.active.isSome then (r, [])
  else
    match r.table.reclaim.1.selectBatch with
    | (table, none) => ({ r with table }, [])
    | (table, some batch) =>
      { r with table }.activate batch fun number => .dispatch number batch r.awaitAck

/-- What a failure means for the state (`onDiscoveryFailed`; specification, 4.1). -/
def failure : Status → SyncState × SyncCause
  | .invalidAuth => (.fatalError, .forbidden)
  | .badRequest => (.fatalError, .badRequest)
  | .serverInternalError => (.retriableError, .serverInternalError)
  | _ => (.retriableError, .unknown)

def ask (r : Registry ω) (call : StoreCall) (wait : StoreWait) : Outcome ω :=
  ({ r with waiting := some wait }, [.store call])

/-- Begins a command (specification, 4.1 and 12.4). -/
def handle (r : Registry ω) : Command → Outcome ω
  | .announce id registration config =>
    match r.table.announce id registration config with
    | .ok (table, _) => andThen ({ r with table }.answer .accepted) dispatch
    | .error reason => r.answer (.rejected reason)
  | .withdraw id registration =>
    match r.table.withdraw id registration with
    | .ok table => andThen ({ r with table }.answer .accepted) dispatch
    | .error reason => r.answer (.rejected reason)
  | .connection .connected => { r with connection := .connected }.dispatch
  | .connection .disconnected => { r with connection := .disconnected }.detach
  | .bootstrap =>
    andThen r.detach fun r => { r with table := r.table.reclaim.1 }.ask .loadAll .loading
  | .completed batch announced withdrawn =>
    if r.isActive batch then r.ask (.storeAll announced) (.storing batch withdrawn.keys)
    else (r, [])
  | .failed batch status =>
    if !r.isActive batch || status.isSuccess then (r, [])
    else
      let (state, cause) := failure status
      let dropped :=
        if state = .fatalError then { r with table := r.table.abandon.1 }.release batch else (r, [])
      andThen dropped fun r => r.publish state cause [] []
  | .ended batch =>
    if r.isActive batch then
      andThen (r.release batch) fun r => if r.table.hasPending then r.dispatch else (r, [])
    else (r, [])
  | .clearStore => r.ask .clear .clearing
  | .snapshot => r.answer (.parts r.table.snapshot)

/-- Goes on when what was accepted is stored (`onDiscoveryCompleted`; specification, 4.1). -/
def confirm (r : Registry ω) (batch : Nat) : Outcome ω :=
  let (table, announced, withdrawn) := r.table.complete
  andThen ({ r with table }.release batch) fun r =>
    andThen (r.publish .success .success announced withdrawn) dispatch

/-- Goes on with a bootstrap (`createPostConnectOperation`; specification, 4.1): what is stored
already need not be sent, and all else that is pending is offered as one batch. -/
def offerBatch (r : Registry ω) (stored : Configs) : Outcome ω :=
  let (table, unchanged) := r.table.reconcile stored
  let told :=
    if unchanged.isEmpty then ({ r with table }, [])
    else { r with table }.publish .success .success unchanged []
  andThen told fun r =>
    match r.table.takeAll with
    | (table, none) => { r with table }.answer (.operation none)
    | (table, some batch) =>
      andThen ({ r with table }.activate batch fun number => .offer number batch) fun r =>
        r.answer (.operation (some (r.issued, batch)))

def resume (r : Registry ω) (reply : StoreReply) : Outcome ω :=
  let r' := { r with waiting := none }
  match r.waiting, reply with
  | none, _ => (r, [])
  | some (.storing batch withdrawn), .done => r'.ask (.eraseAll withdrawn) (.erasing batch)
  | some (.erasing batch), .done => r'.confirm batch
  | some (.storing _ _), _ => r'.publish .fatalError .unknown [] []
  | some (.erasing _), _ => r'.publish .fatalError .unknown [] []
  | some .loading, .loaded stored => r'.offerBatch stored
  | some .loading, _ => r'.answer (.operation none)
  | some .clearing, .done => r'.answer (.cleared true)
  | some .clearing, _ => r'.answer (.cleared false)

/-- Shuts the registry down, the first time (specification, 12.4): nobody is told any more, and the
outstanding batch is given up. -/
def shutdown (r : Registry ω) : Outcome ω :=
  if r.shuttingDown then (r, [])
  else { r with shuttingDown := true, hub := r.hub.clear }.detach

def stop (r : Registry ω) : Outcome ω := { r with shuttingDown := true }.detach

end Registry

end Announcer
