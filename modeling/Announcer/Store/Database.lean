import Announcer.Store.Rows
/-!
# Database of stored configs

A database holds the table of configs once the one migration there is was
applied. It is used through a connection; behind a closed one nothing can be
asked any more.
-/
namespace Announcer

inductive StoreError where
  | notOpen
  | schemaMissing (table : String)
  | connectionFailed (reason : String)
  | migrationFailed (reason : String)
  | queryFailed (reason : String)
  | internal (reason : String)
  deriving DecidableEq, Repr, Inhabited

def StoreError.message : StoreError → String
  | .notOpen => "Endpoint config store is not open"
  | .schemaMissing table => "Endpoint config schema missing: " ++ table
  | .connectionFailed reason => "Connection failed: " ++ reason
  | .migrationFailed reason => "Migration failed: " ++ reason
  | .queryFailed reason => "Query failed: " ++ reason
  | .internal reason => "Internal database error: " ++ reason

def configTable : String := "endpoint_configs"

/-- A database, with its table of configs if it was migrated. -/
structure Database where
  table : Option Rows
  deriving DecidableEq, Repr, Inhabited

namespace Database

def empty : Database := ⟨none⟩

def migrations : Nat := 1

/-- Applies the migrations that were not applied before. -/
def migrate (d : Database) : Database := ⟨some (d.table.getD [])⟩

/-- How many migrations were applied. -/
def applied (d : Database) : Nat := if d.table.isSome then migrations else 0

end Database

structure Connected where
  database : Database
  isOpen : Bool
  deriving DecidableEq, Repr, Inhabited

namespace Connected

/-- What an operation results in: an answer and the connection behind it, or an
error that changes nothing. -/
abbrev Result (α : Type) := Except StoreError (α × Connected)

def toNew : Connected := ⟨.empty, true⟩

def query {α : Type} (c : Connected) (ask : Rows → α × Rows) : Result α :=
  if !c.isOpen then .error .notOpen
  else
    match c.database.table with
    | none => .error (.queryFailed ("no such table: " ++ configTable))
    | some rows => let (answer, rows) := ask rows; .ok (answer, { c with database := ⟨some rows⟩ })

def migrate (c : Connected) : Result Unit :=
  if c.isOpen then .ok ((), { c with database := c.database.migrate })
  else
    .error (.migrationFailed
      "while executing migrations: attempted to acquire a connection on a closed pool")

/-- How many migrations were applied, as far as that can be seen. -/
def applied (c : Connected) : Nat := if c.isOpen then c.database.applied else 0

def tableExists (c : Connected) : Except StoreError Bool :=
  if c.isOpen then .ok c.database.table.isSome else .error .notOpen

def close (c : Connected) : Connected := { c with isOpen := false }

def upsert (c : Connected) (id : String) (config : Config) : Result Unit :=
  c.query fun rows => ((), rows.upsert id config)

/-- Stores all configs or none. Without any there is nothing to be asked. -/
def upsertAll (c : Connected) (configs : Configs) : Result Unit :=
  if configs.isEmpty then .ok ((), c)
  else c.query fun rows => ((), rows.upsertAll configs)

def get? (c : Connected) (id : String) : Result (Option Config) :=
  c.query fun rows => (rows.config? id, rows)

def getAll (c : Connected) : Result Configs :=
  c.query fun rows => (rows.configs, rows)

def delete (c : Connected) (id : String) : Result Bool :=
  c.query fun rows => let (n, rows) := rows.delete id; (0 < n, rows)

/-- Takes all listed endpoints out, or none, and counts those that were stored.
Without any there is nothing to be asked. -/
def deleteAll (c : Connected) (ids : List String) : Result Nat :=
  if ids.isEmpty then .ok (0, c) else c.query (Rows.deleteAll ids)

def clear (c : Connected) : Result Nat :=
  c.query fun rows => (rows.length, [])

def count (c : Connected) : Result Nat :=
  c.query fun rows => (rows.length, rows)

end Connected

end Announcer
