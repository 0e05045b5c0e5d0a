import Announcer.Json.Reader
/-!
# Canonical JSON

Two values mean the same when they differ only in the order of the items of
some arrays: those that stand directly under one of the keys in
`unorderedKeys`, at any depth. The canonical form sorts exactly these, by
printed text, and every object by key (specification, 12.2). An array directly
inside an array keeps its order, whatever key stands above.
-/
namespace Announcer.Json

/-- The keys whose arrays have no order. -/
def unorderedKeys : List String := ["displayCategories", "connections", "capabilities"]

/-- Sorts items by printed text; items with one text keep their order. -/
def sortByText (items : List Value) : List Value :=
  ((items.map (fun v => (v.text, v))).mergeSort (fun a b => decide (a.1 ≤ b.1))).map (·.2)

namespace Value

mutual

/-- The canonical form of a value that stands under `key`, if under any. -/
def canonicalUnder (key : Option String) : Value → Value
  | .array items =>
    let items := canonicalItems items
    match key with
    | some k => .array (if unorderedKeys.contains k then sortByText items else items)
    | none => .array items
  | .object members => .object (Entries.ofList (canonicalMembers members))
  | v => v

def canonicalItems : List Value → List Value
  | [] => []
  | v :: rest => canonicalUnder none v :: canonicalItems rest

def canonicalMembers : List (String × Value) → List (String × Value)
  | [] => []
  | (k, v) :: rest => (k, canonicalUnder (some k) v) :: canonicalMembers rest

end

def canonical (v : Value) : Value := v.canonicalUnder none

end Value

def equivalent (a b : String) : Bool :=
  match parse a, parse b with
  | .ok a, .ok b => a.canonical.same b.canonical
  | _, _ => false

end Announcer.Json
