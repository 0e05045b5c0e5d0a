/-!
# Observers of the registry

Whoever is attached to the hub knows its state: it is told on being attached,
and again whenever the state changes or endpoints are affected (specification,
12.4).
-/
namespace Announcer

inductive SyncState where
  | uninitialized
  | success
  /-- Not tried again without a new request. -/
  | fatalError
  /-- Tried again. -/
  | retriableError
  deriving DecidableEq, Repr, Inhabited

def SyncState.name : SyncState → String
  | .uninitialized => "uninitialized"
  | .success => "success"
  | .fatalError => "fatal_error"
  | .retriableError => "retriable_error"

def SyncState.all : List SyncState := [.uninitialized, .success, .fatalError, .retriableError]

inductive SyncCause where
  | uninitialized
  | success
  | forbidden
  | badRequest
  | serverInternalError
  | unknown
  deriving DecidableEq, Repr, Inhabited

def SyncCause.name : SyncCause → String
  | .uninitialized => "uninitialized"
  | .success => "success"
  | .forbidden => "forbidden"
  | .badRequest => "bad_request"
  | .serverInternalError => "server_internal_error"
  | .unknown => "unknown"

def SyncCause.all : List SyncCause :=
  [.uninitialized, .success, .forbidden, .badRequest, .serverInternalError, .unknown]

structure Note (ω : Type) where
  who : ω
  state : SyncState
  cause : SyncCause
  announced : List String
  withdrawn : List String
  deriving DecidableEq, Repr

/-- The observers, in the order they were attached, and the current state. -/
structure Hub (ω : Type) where
  observers : List ω
  state : SyncState
  cause : SyncCause
  deriving DecidableEq, Repr

namespace Hub

variable {ω : Type}

def empty : Hub ω := ⟨[], .uninitialized, .uninitialized⟩

instance : Inhabited (Hub ω) := ⟨empty⟩

/-- Attaches an observer and tells it the state, unless it is attached already. -/
def add [DecidableEq ω] (h : Hub ω) (who : ω) : Hub ω × List (Note ω) :=
  if who ∈ h.observers then (h, [])
  else ({ h with observers := h.observers ++ [who] }, [⟨who, h.state, h.cause, [], []⟩])

def remove [DecidableEq ω] (h : Hub ω) (who : ω) : Hub ω :=
  { h with observers := h.observers.filter (· ≠ who) }

def clear (h : Hub ω) : Hub ω := { h with observers := [] }

/-- Records a state. Everyone is told when it is new or endpoints are affected. -/
def set (h : Hub ω) (state : SyncState) (cause : SyncCause) (announced withdrawn : List String) :
    Hub ω × List (Note ω) :=
  let told := h.state ≠ state || h.cause ≠ cause || !announced.isEmpty || !withdrawn.isEmpty
  ({ h with state, cause },
    if told then h.observers.map fun who => ⟨who, state, cause, announced, withdrawn⟩ else [])

end Hub

end Announcer
