import Announcer.Config
/-!
# Rows of stored configs

A table keeps one row for each endpoint, in the order in which the rows were
first put there. Reading the whole table sorts it by id.

Results: `config?_upsert` and `config?_delete` say what one change does to the row
of every endpoint.
-/
namespace Announcer

structure Row where
  id : String
  config : Config
  deriving DecidableEq, Repr, Inhabited

abbrev Rows := List Row

namespace Rows

def config? (id : String) (rows : Rows) : Option Config :=
  (rows.find? (fun row => row.id = id)).map Row.config

/-- Puts a config in the row of its endpoint, which is made when there is none. -/
def upsert (id : String) (config : Config) : Rows → Rows
  | [] => [⟨id, config⟩]
  | row :: rows => if row.id = id then ⟨id, config⟩ :: rows else row :: upsert id config rows

def upsertAll (configs : Configs) (rows : Rows) : Rows :=
  configs.entries.foldl (fun rows (id, config) => upsert id config rows) rows

/-- Takes the row of an endpoint out, and says how many rows that were. -/
def delete (id : String) (rows : Rows) : Nat × Rows :=
  let left := rows.filter fun row => row.id ≠ id
  (rows.length - left.length, left)

/-- Takes the rows of all listed endpoints out, one after the other. -/
def deleteAll (ids : List String) (rows : Rows) : Nat × Rows :=
  ids.foldl (fun (n, rows) id => let (k, rows) := delete id rows; (n + k, rows)) (0, rows)

def configs (rows : Rows) : Configs :=
  StringMap.ofList (rows.map fun row => (row.id, row.config))

theorem config?_upsert (id : String) (config : Config) (rows : Rows) (other : String) :
    (upsert id config rows).config? other
      = if other = id then some config else rows.config? other := by
  induction rows with
  | nil => grind [upsert, config?]
  | cons row rows ih => grind [upsert, config?]

theorem config?_delete (id : String) (rows : Rows) (other : String) :
    (delete id rows).2.config? other = if other = id then none else rows.config? other := by
  induction rows with
  | nil => simp [delete, config?]
  | cons row rows ih => grind [delete, config?]

end Rows

end Announcer
