import Announcer.Registry
import Announcer.Store.Database
/-!
# A scripted store

The store of a simulation: a map whose operations can be made slow or made to
fail, each kind for itself.
-/
namespace Announcer.Simulation

inductive StoreOp where
  | opening
  | creating
  | loading
  | storing
  | erasing
  | clearing
  deriving DecidableEq, Repr, Inhabited

namespace StoreOp

def all : List StoreOp := [.opening, .creating, .loading, .storing, .erasing, .clearing]

def name : StoreOp → String
  | .opening => "open"
  | .creating => "create"
  | .loading => "load"
  | .storing => "store"
  | .erasing => "erase"
  | .clearing => "clear"

def ofName? (s : String) : Option StoreOp := all.find? (fun op => op.name = s)

def ofCall : StoreCall → StoreOp
  | .storeAll _ => .storing
  | .eraseAll _ => .erasing
  | .loadAll => .loading
  | .clear => .clearing

end StoreOp

/-- The state of a scripted store. -/
structure Shelf where
  ready : Bool
  configs : Configs
  failing : List StoreOp
  /-- How long the operations take, where that is any time at all. -/
  delays : List (StoreOp × Nat)
  deriving Repr, Inhabited

namespace Shelf

def delay (s : Shelf) (op : StoreOp) : Nat :=
  ((s.delays.find? (fun e => e.1 = op)).map Prod.snd).getD 0

/-- Lets an operation take some time from now on. -/
def slow (s : Shelf) (op : StoreOp) (delay : Nat) : Shelf :=
  { s with delays := (op, delay) :: s.delays.filter (fun e => e.1 ≠ op) }

def fail (s : Shelf) (op : StoreOp) (on : Bool) : Shelf :=
  let others := s.failing.filter (· ≠ op)
  { s with failing := if on then op :: others else others }

/-- Puts a config there, past all operations. -/
def put (s : Shelf) (id : String) (config : Config) : Shelf :=
  { s with configs := s.configs.insert id config }

def refusal (op : StoreOp) : StoreError := .queryFailed (op.name ++ " refused")

/-- Opens the store if it was created, and creates it otherwise. -/
def prepare (s : Shelf) : Except StoreError Shelf :=
  if s.ready && !s.failing.contains .opening then .ok s
  else if s.failing.contains .creating then .error (refusal .creating)
  else .ok { s with ready := true, configs := .empty }

def serve (s : Shelf) (call : StoreCall) : StoreReply × Shelf :=
  if s.failing.contains (.ofCall call) then (.failed, s)
  else
    match call with
    | .storeAll configs =>
      let all := configs.entries.foldl (fun m (id, c) => m.insert id c) s.configs
      (.done, { s with configs := all })
    | .eraseAll ids => (.done, { s with configs := ids.foldl (fun m id => m.erase id) s.configs })
    | .loadAll => (.loaded s.configs, s)
    | .clear => (.done, { s with configs := .empty })

end Shelf

end Announcer.Simulation
