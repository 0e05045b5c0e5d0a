import Announcer.Sender
import Announcer.Simulation.Timeline
import Announcer.Uuid
/-!
# A scripted service

The far end of a simulation: a transport that answers by a script, one entry
for each event, and a service that acknowledges events now or later.
-/
namespace Announcer.Simulation

inductive AckToken where
  | same
  | previous
  /-- A token of its own. -/
  | literal (token : String)
  deriving DecidableEq, Repr, Inhabited

structure Answer where
  status : Status
  /-- How long the answer takes, when it takes any time. -/
  delay : Option Nat
  /-- The acknowledgements, each at once or after a time of its own. -/
  acks : List (AckToken × Option Nat)
  deriving Repr, Inhabited

structure Transmission where
  name : String
  endpointIds : List String
  endpoints : Nat
  token : String
  bytes : Nat
  /-- Whether both identifiers are version-4 UUIDs that were never seen before. -/
  fresh : Bool
  correlation : String
  at_ : Nat
  deriving Repr, Inhabited

structure Service where
  script : List Answer
  otherwise : Answer
  /-- The events so far, the last one first. -/
  sent : List Transmission
  seen : List String
  /-- The acknowledgements to come: when, and with which token. -/
  pendingAcks : List (Nat × String)
  deriving Repr, Inhabited

structure Receipt where
  status : Status
  due : Option Nat
  acks : List (AckToken × Option Nat)
  deriving Repr, Inhabited

namespace Service

def scripted (script : List Answer) (otherwise : Answer) : Service :=
  ⟨script, otherwise, [], [], []⟩

def take (s : Service) (now : Nat) (e : Event) : Service × Receipt :=
  let (answer, script) := match s.script with
    | answer :: script => (answer, script)
    | [] => (s.otherwise, [])
  let ids := [e.header.ids.message, e.header.ids.correlation]
  let fresh := ids.all (fun id => Uuid.isVersion4 id && !s.seen.contains id)
    && e.header.ids.message ≠ e.header.ids.correlation
  let seen : Transmission := {
    name := e.header.name
    endpointIds := e.endpointIds
    endpoints := e.endpoints.length
    token := e.scope.token
    bytes := e.text.utf8ByteSize
    fresh
    correlation := e.header.ids.correlation
    at_ := now }
  ({ s with script, sent := seen :: s.sent, seen := ids ++ s.seen },
    ⟨answer.status, answer.delay.map (now + ·), answer.acks⟩)

def correlation? (s : Service) (back : Nat) : Option String :=
  (s.sent[back]?).map Transmission.correlation

/-- Handles the acknowledgements of the event that was sent with `correlation`:
those that come at once, in order, and the service that will deliver the rest. -/
def acknowledge (s : Service) (now : Nat) (correlation : String)
    (acks : List (AckToken × Option Nat)) : Service × List String :=
  let index := s.sent.findIdx (fun t => t.correlation = correlation)
  let token? : AckToken → Option String
    | .same => some correlation
    | .previous => s.correlation? (index + 1)
    | .literal token => some token
  let known := acks.filterMap fun (kind, delay) => (token? kind).map (·, delay)
  let atOnce := known.filterMap fun (token, delay) => if delay.isNone then some token else none
  let later := known.filterMap fun (token, delay) => delay.map fun d => (now + d, token)
  ({ s with pendingAcks := s.pendingAcks ++ later }, atOnce)

/-- The acknowledgement that is due at `now` and was due first. -/
def dueAck? (s : Service) (now : Nat) : Option (String × Service) :=
  match earliest (s.pendingAcks.map Prod.fst) with
  | none => none
  | some due =>
    if now < due then none
    else
      match s.pendingAcks.find? (fun a => a.1 = due) with
      | none => none
      | some a => some (a.2, { s with pendingAcks := s.pendingAcks.erase a })

end Service

end Announcer.Simulation
