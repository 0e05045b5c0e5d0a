import Announcer.Config
import Announcer.Descriptor
import Announcer.Limits
/-!
# The endpoint table

What is known of every endpoint: what the service has confirmed, what is on its
way, and what was asked for since (specification, 3 and 4.1). An operation moves
from `pending` to `inFlight` when a batch is taken, and from there to `confirmed`
when the service accepts the batch, or back to `pending` when the batch is given
up.

The records with a registration form the deduplication group. It must fit into
one event, and it is announced as a whole: admitting a member queues all the
others again.
-/
namespace Announcer

inductive Operation where
  | announce (config : Config)
  | withdraw (config : Config)
  deriving DecidableEq, Repr, Inhabited

namespace Operation

def announced? : Operation → Option Config
  | .announce c => some c
  | .withdraw _ => none

def withdrawn? : Operation → Option Config
  | .announce _ => none
  | .withdraw c => some c

def isWithdrawal (op : Operation) : Bool := op.withdrawn?.isSome

end Operation

structure Record where
  /-- Never changes while the record exists. -/
  registration : Option Registration
  confirmed : Option Config
  /-- What was accepted and not yet sent. -/
  pending : Option Operation
  /-- What the outstanding batch carries. -/
  inFlight : Option Operation
  deriving DecidableEq, Repr, Inhabited

namespace Record

def blank : Record := ⟨none, none, none, none⟩

def isVacant (r : Record) : Bool :=
  r.confirmed.isNone && r.pending.isNone && r.inFlight.isNone

def pendingConfig (r : Record) : Option Config := r.pending.bind Operation.announced?

def inFlightConfig (r : Record) : Option Config := r.inFlight.bind Operation.announced?

def sentConfig (r : Record) : Option Config := r.inFlightConfig <|> r.confirmed

/-- The newest config: pending, else on its way, else confirmed. -/
def latestConfig (r : Record) : Option Config := r.pendingConfig <|> r.sentConfig

def hasWithdrawal (r : Record) : Bool :=
  r.pending.any Operation.isWithdrawal || r.inFlight.any Operation.isWithdrawal

def isMember (r : Record) : Bool := r.registration.isSome && r.latestConfig.isSome

/-- The config that is queued again when another member is admitted; none when
the record is no member or something is pending already. -/
def requeueConfig (r : Record) : Option Config :=
  if r.registration.isSome && r.pending.isNone then r.sentConfig else none

def launch (r : Record) : Record := { r with pending := none, inFlight := r.pending }

end Record

inductive Rejection where
  | pendingDeletion (id : String)
  | pendingAddOrUpdate (id : String)
  | registrationChanged (id : String)
  | notRegistered (id : String)
  | dedupMember (id : String)
  | secondDedupGroup (id : String)
  | dedupGroupFull (max : Nat)
  | dedupDeletionCollision (id : String)
  | dedupGroupTooLarge (size max : Nat)
  deriving DecidableEq, Repr

def Rejection.message : Rejection → String
  | .pendingDeletion id => "endpoint " ++ id ++ " is pending deletion"
  | .pendingAddOrUpdate id => "endpoint " ++ id ++ " is already pending add or update"
  | .registrationChanged id => "registration of endpoint " ++ id ++ " cannot change"
  | .notRegistered id => "endpoint " ++ id ++ " is not registered"
  | .dedupMember id =>
    "endpoint " ++ id ++ " belongs to the deduplication group and cannot be deleted"
  | .secondDedupGroup id => "endpoint " ++ id ++ " would start a second deduplication group"
  | .dedupGroupFull max => "deduplication group would exceed " ++ toString max ++ " endpoints"
  | .dedupDeletionCollision id =>
    "endpoint " ++ id ++ " collides with a deduplicated endpoint pending deletion"
  | .dedupGroupTooLarge size max =>
    "deduplication group would be " ++ toString size ++ " bytes, maximum is " ++ toString max

structure Batch where
  announced : Configs
  withdrawn : Configs
  deriving DecidableEq, Repr, Inhabited

def Batch.isEmpty (b : Batch) : Bool := b.announced.isEmpty && b.withdrawn.isEmpty

/-- The ids in each part of the table, in ascending order. -/
structure Snapshot where
  pendingAnnounced : List String
  pendingWithdrawn : List String
  inFlightAnnounced : List String
  inFlightWithdrawn : List String
  confirmed : List String
  group : List String
  deriving DecidableEq, Repr, Inhabited

structure Table where
  records : StringMap Record
  deriving DecidableEq, Repr, Inhabited

namespace Table

def empty : Table := ⟨.empty⟩

def record (t : Table) (id : String) : Record := (t.records.get? id).getD .blank

def idsWhere (t : Table) (p : Record → Bool) : List String :=
  (t.records.filter fun _ r => p r).keys

def prune (t : Table) : Table := ⟨t.records.filter fun _ r => !r.isVacant⟩

/-! ## Requests -/

def otherMembers (t : Table) (id : String) : StringMap Record :=
  t.records.filter fun j r => j ≠ id && r.isMember

/-- Checks that an endpoint with a registration can join the group (the Dedup Group;
specification, 3): there is one group, it has room, nobody is about to leave it, and it still fits
one event. -/
def checkGroup (t : Table) (id : String) (registration : Registration) (config : Config) :
    Except Rejection Unit :=
  let members := t.otherMembers id
  let leaving := t.records.filter fun j r =>
    j ≠ id && r.registration.isSome && r.hasWithdrawal
  let size := config.size + totalSize (members.values.filterMap Record.latestConfig)
  if members.values.any (fun r => r.registration ≠ some registration) then
    .error (.secondDedupGroup id)
  else if maxGroupMembers < members.size + 1 then .error (.dedupGroupFull maxGroupMembers)
  else if (t.record id).hasWithdrawal then .error (.dedupDeletionCollision id)
  else
    match leaving.keys with
    | j :: _ => .error (.dedupDeletionCollision j)
    | [] =>
      if maxConfigBytesPerEvent < size then
        .error (.dedupGroupTooLarge size maxConfigBytesPerEvent)
      else .ok ()

/-- Checks a request to announce against the endpoint's own record. -/
def checkRecord (t : Table) (id : String) (registration : Option Registration) :
    Except Rejection Unit :=
  match t.records.get? id with
  | none => .ok ()
  | some r =>
    if r.pending.any Operation.isWithdrawal then .error (.pendingDeletion id)
    else if r.registration ≠ registration then .error (.registrationChanged id)
    else if r.pending.isSome then .error (.pendingAddOrUpdate id)
    else .ok ()

def requeueOthers (t : Table) (id : String) : Table :=
  ⟨t.records.map fun j r =>
    match r.requeueConfig with
    | some c => if j = id then r else { r with pending := some (.announce c) }
    | none => r⟩

/-- Accepts an announcement (`registerOrUpdate`; specification, 4.1). Results in the table and
the ids of the other members that were queued again with it. -/
def announce (t : Table) (id : String) (registration : Option Registration) (config : Config) :
    Except Rejection (Table × List String) := do
  t.checkRecord id registration
  match registration with
  | some r => t.checkGroup id r config
  | none => pure ()
  let record := { t.record id with registration, pending := some (.announce config) }
  let admitted : Table := ⟨t.records.insert id record⟩
  match registration with
  | some _ =>
    let requeued := admitted.records.filter fun j r => j ≠ id && r.requeueConfig.isSome
    return (admitted.requeueOthers id, requeued.keys)
  | none => return (admitted, [])

/-- Accepts a withdrawal (`deregister`; specification, 4.1). -/
def withdraw (t : Table) (id : String) (registration : Option Registration) :
    Except Rejection Table :=
  match t.records.get? id with
  | none => .error (.notRegistered id)
  | some r =>
    if r.pendingConfig.isSome then .error (.pendingAddOrUpdate id)
    else if r.confirmed.isNone then .error (.notRegistered id)
    else if r.registration ≠ registration then .error (.registrationChanged id)
    else if r.registration.isSome then .error (.dedupMember id)
    else if r.pending.isSome then .error (.pendingDeletion id)
    else .ok ⟨t.records.insert id { r with pending := some (.withdraw (.withdrawal id)) }⟩

/-! ## Batches -/

/-- Takes back what is on its way, unless something newer is pending. Results in
the table and the number of operations that became pending again. -/
def reclaim (t : Table) : Table × Nat :=
  let again := t.idsWhere fun r => r.inFlight.isSome && r.pending.isNone
  (⟨t.records.map fun _ r => { r with pending := r.pending <|> r.inFlight, inFlight := none }⟩,
    again.length)

/-- Puts on its way what is pending in the records that `select` takes. -/
def take (t : Table) (select : Record → Bool) : Table × Batch :=
  let moves (r : Record) : Bool := r.pending.isSome && r.inFlight.isNone && select r
  let moved := t.records.filter fun _ r => moves r
  (⟨t.records.map fun _ r => if moves r then r.launch else r⟩,
    { announced := moved.filterMap fun _ r => r.pendingConfig
      withdrawn := moved.filterMap fun _ r => r.pending.bind Operation.withdrawn? })

def batch? (r : Table × Batch) : Table × Option Batch :=
  (r.1, if r.2.isEmpty then none else some r.2)

def fitsOneEvent (t : Table) : Bool :=
  let configs := t.records.values.filterMap Record.pendingConfig
  configs.length ≤ maxEndpointsPerReport
    && totalSize configs ≤ maxConfigBytesPerEvent

/-- Takes the next batch (specification, 4.1): all that is pending when the announcements fit one
event. Otherwise the announcements of the group stay for a batch of their own, which is taken when
nothing else is left. -/
def selectBatch (t : Table) : Table × Option Batch :=
  if t.fitsOneEvent then batch? (t.take fun _ => true)
  else
    let first := t.take fun r => r.registration.isNone || r.pending.any Operation.isWithdrawal
    if first.2.isEmpty then batch? (first.1.take fun _ => true) else batch? first

def takeAll (t : Table) : Table × Option Batch := batch? (t.take fun _ => true)

/-- Applies a batch that the service accepted (`onDiscoveryCompleted`; specification, 4.1).
Results in the table, the ids that are confirmed by it and those that are gone. -/
def complete (t : Table) : Table × List String × List String :=
  let landed (r : Record) : Record :=
    match r.inFlight with
    | some (.announce c) => { r with confirmed := some c, inFlight := none }
    | some (.withdraw _) => { r with confirmed := none, inFlight := none }
    | none => r
  (prune ⟨t.records.map fun _ r => landed r⟩,
    t.idsWhere fun r => r.inFlightConfig.isSome,
    t.idsWhere fun r => r.inFlight.any Operation.isWithdrawal)

/-- Forgets a batch that the service refused for good (`onDiscoveryFailed`; specification, 4.1).
Results in the table and the number of operations that were dropped. -/
def abandon (t : Table) : Table × Nat :=
  (prune ⟨t.records.map fun _ r => { r with inFlight := none }⟩,
    (t.idsWhere fun r => r.inFlight.isSome).length)

/-! ## Bootstrap -/

/-- Queues every confirmed endpoint of which nothing is pending. -/
def republish (t : Table) : Table :=
  ⟨t.records.map fun _ r =>
    match r.pending, r.confirmed with
    | none, some c => { r with pending := some (.announce c) }
    | _, _ => r⟩

/-- True when what waits to be announced is stored already. -/
def isStored (stored : Configs) (id : String) (r : Record) : Bool :=
  match r.pendingConfig, stored.get? id with
  | some c, some s => c.equivalent s
  | _, _ => false

def confirmStored (t : Table) (stored : Configs) : Table :=
  ⟨t.records.map fun id r =>
    if isStored stored id r then { r with pending := none, confirmed := r.pendingConfig } else r⟩

/-- True when a stored endpoint is to be withdrawn: nobody asked for it since,
and it was not published with a registration. -/
def isStale (t : Table) (id : String) (stored : Config) : Bool :=
  let r := t.record id
  r.pending.isNone && r.confirmed.isNone && !stored.carriesRegistration

/-- Queues the withdrawal of every stale endpoint. -/
def withdrawStale (t : Table) (stored : Configs) : Table :=
  (stored.filter fun id c => t.isStale id c).keys.foldl
    (fun t id =>
      ⟨t.records.insert id { t.record id with pending := some (.withdraw (.withdrawal id)) }⟩) t

/-- Compares what is pending with what is stored (`createPostConnectOperation`; specification,
4.1). An empty store publishes every confirmed endpoint again. Results in the table and the ids
that need not be sent. -/
def reconcile (t : Table) (stored : Configs) : Table × List String :=
  if stored.isEmpty then (t.republish, [])
  else
    ((t.confirmStored stored).withdrawStale stored,
      (t.records.filter fun id r => isStored stored id r).keys)

/-! ## Views -/

def hasPending (t : Table) : Bool := t.records.values.any fun r => r.pending.isSome

def snapshot (t : Table) : Snapshot where
  pendingAnnounced := t.idsWhere fun r => r.pendingConfig.isSome
  pendingWithdrawn := t.idsWhere fun r => r.pending.any Operation.isWithdrawal
  inFlightAnnounced := t.idsWhere fun r => r.inFlightConfig.isSome
  inFlightWithdrawn := t.idsWhere fun r => r.inFlight.any Operation.isWithdrawal
  confirmed := t.idsWhere fun r => r.confirmed.isSome
  group := t.idsWhere Record.isMember

end Table

end Announcer
