import Announcer.Store.Database
/-!
# The store of configs

The configs that the service has accepted, kept across restarts (specification, 3
and 6). A store is created once and opened from then on; on one that is closed
every operation on the configs fails.
-/
namespace Announcer

/-- Where a store keeps its database. -/
inductive Medium where
  /-- In memory: every connection has a new database of its own. -/
  | volatile
  | file
  /-- At a place where no file can be made. -/
  | unreachable
  deriving DecidableEq, Repr, Inhabited

structure Store where
  medium : Medium
  database : Option Database
  isOpen : Bool
  deriving DecidableEq, Repr, Inhabited

namespace Store

def start (medium : Medium) : Store := ⟨medium, none, false⟩

/-- What an operation results in: an answer and the store behind it, or an error
that changes nothing. -/
abbrev Result (α : Type) := Except StoreError (α × Store)

def noFile : StoreError :=
  .connectionFailed "error returned from database: (code: 14) unable to open database file"

def noTable : StoreError := .schemaMissing configTable

def connect (s : Store) : Except StoreError Database :=
  match s.medium with
  | .volatile => .ok .empty
  | .file => .ok (s.database.getD .empty)
  | .unreachable => .error noFile

/-- Makes the store exist and opens it. What a file holds stays there. -/
def create (s : Store) : Result Unit :=
  s.connect.map fun d => ((), { s with database := some d.migrate, isOpen := true })

def openExisting (s : Store) : Result Unit :=
  match s.medium, s.database with
  | .volatile, _ => .error noTable
  | .unreachable, _ => .error noFile
  | .file, none => .error noFile
  | .file, some d =>
    if d.table.isSome then .ok ((), { s with database := some d.migrate, isOpen := true })
    else .error noTable

/-- Makes the database without its table, beside the store. -/
def prepareFile (s : Store) : Result Unit :=
  s.connect.map fun d => ((), if s.medium = .file then { s with database := some d } else s)

/-- Closes the store. Only what is in a file stays. -/
def close (s : Store) : Store :=
  { s with isOpen := false, database := if s.medium = .file then s.database else none }

def use {α : Type} (s : Store) (ask : Connected → Connected.Result α) : Result α :=
  match s.isOpen, s.database with
  | true, some d => (ask ⟨d, true⟩).map fun (answer, c) => (answer, { s with database := c.database })
  | _, _ => .error .notOpen

def store (s : Store) (id : String) (config : Config) : Result Unit :=
  s.use fun c => c.upsert id config

def storeAll (s : Store) (configs : Configs) : Result Unit :=
  s.use fun c => c.upsertAll configs

def load (s : Store) (id : String) : Result (Option Config) :=
  s.use fun c => c.get? id

def loadAll (s : Store) : Result Configs :=
  s.use fun c => c.getAll

def erase (s : Store) (id : String) : Result Unit :=
  s.use fun c => (c.delete id).map fun (_, c) => ((), c)

def eraseAll (s : Store) (ids : List String) : Result Unit :=
  s.use fun c => (c.deleteAll ids).map fun (_, c) => ((), c)

def clear (s : Store) : Result Unit :=
  s.use fun c => c.clear.map fun (_, c) => ((), c)

end Store

end Announcer
