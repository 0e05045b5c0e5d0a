import Announcer.Config.Build
import Announcer.Simulation.RegistryRun
/-!
# Rehearsals of a registry

A registry is put together from its parts and led through a list of steps. A
step that asks the registry for something waits for the answer, or else leaves
that to a caller on its own. After each step everything happens that needs no
time, and then a report says what can be seen from outside.
-/
namespace Announcer.Simulation

structure Parts where
  settings : Settings
  store : Option Shelf
  credentials : Option Credentials
  service : Option Service
  observers : List String

/-- Puts a registry together: the settings have to make sense, no part may be
missing, and the store has to be there or to be made. -/
def Parts.build (p : Parts) : Except Fault RegistryRun := do
  p.settings.check
  let shelf ← part p.store "Endpoint store required"
  let credentials ← part p.credentials "Credential provider required"
  let service ← part p.service "Transport required"
  let shelf ← match shelf.prepare with
    | .ok shelf => .ok shelf
    | .error e => .error (.storage e)
  let registry : Registry String := .start p.settings.sender.awaitAck
  let hub := p.observers.foldl (fun h who => (h.add who).1) registry.hub
  return {
    now := 0
    settings := p.settings
    registry := { registry with hub }
    queue := []
    taken := 0
    current := .nobody
    signal := false
    ended := false
    asked := none
    shelf
    credentials
    service
    minted := 0
    couriers := []
    operation := none
    answer := none
    results := []
    notes := []
    reachable := true }
where
  part {α : Type} (o : Option α) (reason : String) : Except Fault α :=
    match o with
    | some x => .ok x
    | none => .error (.invalidSettings reason)

inductive Ask where
  | announce (attributes : Attributes) (capabilities : List Capability)
  | withdraw (attributes : Attributes) (capabilities : List Capability)
  | connection (state : Connection)
  | clear
  | bootstrap
  | snapshot
  | shutdown

inductive RegistryStep where
  | ask (what : Ask) (aside : Bool)
  | advance (ms : Nat)
  | perform
  | abort
  | dropOperation
  | ack (token : String)
  /-- Acknowledges the event `back` before the last one. -/
  | ackBack (back : Nat)
  | observe (who : String)
  | unobserve (who : String)
  | script (answers : List Answer)
  | setToken (token : String)
  | revoke (state : AuthState)
  | fail (op : StoreOp) (on : Bool)
  | slow (op : StoreOp) (delay : Nat)
  | put (id : String) (config : Config)
  | dump
  | leave

structure Report where
  state : SyncState
  cause : SyncCause
  snapshot : Option Snapshot
  sent : List Transmission
  results : List (Nat × Outcome × Nat)
  notes : List (Note String)
  stored : List String
  ended : Bool

namespace RegistryRun

/-- Comes to the registry with what a caller wants. A descriptor that is not
right never gets there. -/
def issue (r : RegistryRun) (what : Ask) (origin : Origin) : RegistryRun :=
  match what with
  | .announce a capabilities =>
    match Config.prepare r.settings.registry.maxCapabilities a capabilities with
    | .ok config => r.request (.announce a.endpointId a.registration? config) origin
    | .error _ => r.tell (.success false) origin
  | .withdraw a capabilities =>
    match Config.prepare r.settings.registry.maxCapabilities a capabilities with
    | .ok _ => r.request (.withdraw a.endpointId a.registration?) origin
    | .error _ => r.tell (.success false) origin
  | .connection state => r.request (.connection state) origin
  | .clear => r.request .clearStore origin
  | .bootstrap => r.request .bootstrap origin
  | .snapshot => r.request .snapshot origin
  | .shutdown =>
    let signal := r.signal || !r.registry.shuttingDown
    ({ r with signal }.apply r.registry.shutdown).tell .nothing origin

def consult (r : RegistryRun) (what : Ask) : RegistryRun × Outcome :=
  let r := timeline.runUntil (·.answer.isSome) budget ({ r with answer := none }.issue what .caller)
  (r, r.answer.getD .nothing)

/-- Lets the current operation perform, if there is one. It performs once. -/
def perform (r : RegistryRun) (index : Nat) : RegistryRun × Outcome :=
  match r.operation.bind r.courier? with
  | none => (r, .success false)
  | some c =>
    match c.publisher.any (·.performed), c.sender.call? with
    | false, some sender =>
      (r.withCourier c.number fun c =>
        { c with
          sender
          performer := some index
          publisher := c.publisher.map Publisher.perform }, .success true)
    | _, _ => (r.tell (.success false) (.aside index), .success true)

def step (r : RegistryRun) (index : Nat) : RegistryStep → RegistryRun × Outcome
  | .ask what false => r.consult what
  | .ask what true => (r.issue what (.aside index), .nothing)
  | .advance ms => (timeline.runTo budget (r.now + ms) r, .nothing)
  | .perform => r.perform index
  | .abort =>
    (match r.operation with
      | some number => r.stimulate number .stop
      | none => r, .nothing)
  | .dropOperation => (r.replaceOperation none, .nothing)
  | .ack token => (r.acknowledge token, .nothing)
  | .ackBack back =>
    (match r.service.correlation? back with
      | some token => r.acknowledge token
      | none => r, .nothing)
  | .observe who =>
    let (hub, notes) := r.registry.hub.add who
    ({ r with registry := { r.registry with hub }, notes := notes.reverse ++ r.notes }, .nothing)
  | .unobserve who =>
    ({ r with registry := { r.registry with hub := r.registry.hub.remove who } }, .nothing)
  | .script answers =>
    ({ r with service := { r.service with script := r.service.script ++ answers } }, .nothing)
  | .setToken token => ({ r with credentials := r.credentials.setToken token }, .nothing)
  | .revoke state => ({ r with credentials := r.credentials.revoke state }, .nothing)
  | .fail op on => ({ r with shelf := r.shelf.fail op on }, .nothing)
  | .slow op delay => ({ r with shelf := r.shelf.slow op delay }, .nothing)
  | .put id config => ({ r with shelf := r.shelf.put id config }, .nothing)
  | .dump => (r, .stored r.shelf.configs)
  | .leave => ({ r with reachable := false }, .nothing)

/-- Looks at everything from outside, past the events that were seen before, and
forgets what was told. -/
def view (r : RegistryRun) (seen : Nat) : RegistryRun × Report :=
  let (state, cause) := (r.registry.hub.state, r.registry.hub.cause)
  let (r, snapshot) :=
    if r.reachable then
      match r.consult .snapshot with
      | (r, .parts snapshot) => (r, some snapshot)
      | (r, _) => (r, none)
    else (r, none)
  ({ r with results := [], notes := [] },
    { state, cause, snapshot
      sent := r.service.sent.reverse.drop seen
      results := r.results.mergeSort fun a b => a.1 ≤ b.1
      notes := r.notes.reverse
      stored := r.shelf.configs.keys
      ended := r.ended })

/-- Does one step after the other, and looks at what came of those that are not
quiet. `index` is the number of the next step, and `seen` that of the events
that were seen. -/
def rehearse (index seen : Nat) (r : RegistryRun) :
    List (Bool × RegistryStep) → RegistryRun × List (Outcome × Option Report)
  | [] => (r, [])
  | (quiet, s) :: rest =>
    let (r, outcome) := r.step index s
    let r := timeline.settle budget r
    let (r, report) :=
      if quiet then (r, none)
      else let (r, report) := r.view seen; (r, some report)
    let seen := if quiet then seen else r.service.sent.length
    let (r, more) := if r.reachable then rehearse (index + 1) seen r rest else (r, [])
    (r, (outcome, report) :: more)

end RegistryRun

end Announcer.Simulation
