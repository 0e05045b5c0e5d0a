/-!
# TOML documents

A document is a table. Tables come into being in four ways, and it hangs on that
how they may grow later: by a header of their own, by the header of a table
inside them, by a dotted key, or written out in braces. `assign`, `openTable`
and `openElement` are the three ways in which a document grows.
-/
namespace Announcer.Toml

inductive Origin where
  | header
  /-- The header of a table inside it was there. -/
  | implied
  /-- A dotted key went through it. -/
  | dotted
  /-- It was written out in braces, and stays as it is. -/
  | braces
  deriving DecidableEq, Repr, Inhabited

inductive Value where
  | string (s : String)
  | integer (i : Int)
  | real (x : Float)
  | boolean (b : Bool)
  | moment
  | array (items : List Value)
  | table (origin : Origin) (members : List (String × Value))
  | tables (elements : List (List (String × Value)))
  deriving Repr, Inhabited

abbrev Members := List (String × Value)

namespace Members

def get? (m : Members) (key : String) : Option Value :=
  (m.find? (fun e => e.1 = key)).map Prod.snd

def put (m : Members) (key : String) (v : Value) : Members :=
  (m.filter fun e => e.1 ≠ key) ++ [(key, v)]

end Members

/-- Goes from table to table along a path, makes those that are missing, and
changes the last one. A path of a header leads through the last element of an
array of tables; that of a dotted key does not lead into a table that has a
header. None when the path is blocked. -/
def descend (dotted : Bool) (change : Origin → Members → Option Members) :
    List String → Origin → Members → Option Members
  | [], origin, m => change origin m
  | key :: path, _, m =>
    match m.get? key with
    | none =>
      let origin := if dotted then .dotted else .implied
      (descend dotted change path origin []).map fun inner => m.put key (.table origin inner)
    | some (.table .braces _) => none
    | some (.table origin inner) =>
      if dotted && origin = .header then none
      else (descend dotted change path origin inner).map fun inner => m.put key (.table origin inner)
    | some (.tables elements) =>
      match elements.reverse with
      | [] => none
      | last :: before =>
        (descend dotted change path .header last).map fun last =>
          m.put key (.tables (last :: before).reverse)
    | some _ => none

/-- Gives a key of a table its value, by a dotted path when `path` is not empty.
A dotted path ends in a table made by dotted keys, any other in a table that was
not. -/
def assignIn (path : List String) (key : String) (v : Value) (origin : Origin) (m : Members) :
    Option Members :=
  descend true (fun origin m =>
    if (origin = .dotted) = path.isEmpty then none
    else if (m.get? key).isSome then none
    else some (m.put key v)) path origin m

def assign (header path : List String) (key : String) (v : Value) (document : Members) :
    Option Members :=
  descend false (assignIn path key v) header .header document

/-- Opens the table of a header. It may be there because of a header inside it,
but not in any other way. -/
def openTable (path : List String) (key : String) (document : Members) : Option Members :=
  descend false (fun _ m =>
    match m.get? key with
    | none => some (m.put key (.table .header []))
    | some (.table .implied inner) => some (m.put key (.table .header inner))
    | some _ => none) path .header document

def openElement (path : List String) (key : String) (document : Members) : Option Members :=
  descend false (fun _ m =>
    match m.get? key with
    | none => some (m.put key (.tables [[]]))
    | some (.tables elements) => some (m.put key (.tables (elements ++ [[]])))
    | some _ => none) path .header document

end Announcer.Toml
