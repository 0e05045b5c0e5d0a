import Announcer.Decimal.Layout
import Announcer.StringMap
/-!
# JSON values

A number is an integer or a float, and the two are never equal: `1` and `1.0`
are different values. The members of an object stand in ascending key order
when they were put there by `Entries.insert`, as the reader and every builder
of this library do.
-/
namespace Announcer.Json

/-- A number: integers of 64 bits, of either sign, apart from all others. -/
inductive Number where
  | integer (i : Int)
  | real (x : Float)
  deriving Inhabited

/-- Equal integers, or floats that compare equal; the two zeros do. -/
def Number.same : Number → Number → Bool
  | .integer i, .integer j => i == j
  | .real x, .real y => x == y
  | _, _ => false

inductive Value where
  | null
  | bool (b : Bool)
  | number (n : Number)
  | string (s : String)
  | array (items : List Value)
  | object (members : List (String × Value))
  deriving Inhabited

namespace Value

mutual

def same : Value → Value → Bool
  | .null, .null => true
  | .bool a, .bool b => a == b
  | .number a, .number b => a.same b
  | .string a, .string b => a == b
  | .array a, .array b => sameItems a b
  | .object a, .object b => sameMembers a b
  | _, _ => false

def sameItems : List Value → List Value → Bool
  | [], [] => true
  | a :: as, b :: bs => a.same b && sameItems as bs
  | _, _ => false

def sameMembers : List (String × Value) → List (String × Value) → Bool
  | [], [] => true
  | (k, a) :: as, (j, b) :: bs => k == j && a.same b && sameMembers as bs
  | _, _ => false

end

/-- The object of the given members; of several under one key the last counts. -/
def ofMembers (l : List (String × Value)) : Value :=
  .object (Entries.ofList l)

def ofTexts (l : List String) : Value := .array (l.map .string)

def ofTextMap (m : StringMap String) : Value :=
  .object (m.entries.map fun e => (e.1, .string e.2))

def member? (k : String) : Value → Option Value
  | .object members => Entries.get? k members
  | _ => none

def string? : Value → Option String
  | .string s => some s
  | _ => none

def members? : Value → Option (List (String × Value))
  | .object members => some members
  | _ => none

end Value

/-- JSON writes a float plainly when its leading digit stands at `1e-5` up to
`1e15`, always with a fraction, and otherwise with a signed exponent. -/
def floatLayout : Decimal.Layout where
  positional := some (-5, 16)
  keepsFraction := true
  nan := "NaN"
  infinity := "inf"

end Announcer.Json
