import Announcer.Json.Error
/-!
# Reading numbers

A literal without point and exponent that fits 64 bits is an integer; `-0` is
not. Every other literal is a float, computed from a 64-bit significand and a
power of ten. The result is not always the float nearest to the literal: digits
that no longer fit the significand are dropped, and the scaling is one rounded
product or quotient.
-/
namespace Announcer.Json

abbrev Reading (α : Type) := Except Failure (α × List Char)

/-- The digits read so far, as `significand * 10 ^ exponent`. -/
structure Scan where
  significand : Nat
  exponent : Int
  /-- A digit did not fit, and no later one is taken up. -/
  full : Bool
  deriving Repr

def digitValue (c : Char) : Nat := c.toNat - 48

def grown? (significand : Nat) (c : Char) : Option Nat :=
  let grown := significand * 10 + digitValue c
  if grown < UInt64.size then some grown else none

/-- Takes a digit before the point: one that does not fit raises the exponent. -/
def Scan.integerDigit (s : Scan) (c : Char) : Scan :=
  match s.full, grown? s.significand c with
  | false, some grown => { s with significand := grown }
  | _, _ => { s with exponent := s.exponent + 1, full := true }

/-- Takes a digit behind the point: one that does not fit is dropped. -/
def Scan.fractionDigit (s : Scan) (c : Char) : Scan :=
  match s.full, grown? s.significand c with
  | false, some grown => { s with significand := grown, exponent := s.exponent - 1 }
  | _, _ => { s with full := true }

def exponentLimit : Int := 2147483648

def clampExponent (e : Int) : Int :=
  max (-exponentLimit) (min (exponentLimit - 1) e)

def powerOfTen (n : Nat) : Float := Float.ofScientific 1 false n

/-- Scales by a power of ten in one operation, after as many quotients by
`1e308` as bring the exponent into reach; none when the result is too large. -/
def scale? : Nat → Float → Int → Option Float
  | 0, x, _ => some x
  | fuel + 1, x, e =>
    if e.natAbs ≤ 308 then
      if 0 ≤ e then
        let y := x * powerOfTen e.natAbs
        if y.isInf then none else some y
      else some (x / powerOfTen e.natAbs)
    else if x == 0 then some x
    else if 0 ≤ e then none
    else scale? fuel (x / powerOfTen 308) (e + 308)

/-- The float of a finished scan; three quotients by `1e308` make any
significand zero. -/
def Scan.float (s : Scan) (positive : Bool) (rest : List Char) : Reading Number :=
  match scale? 5 (UInt64.ofNat s.significand).toFloat s.exponent with
  | some x => .ok (.real (if positive then x else -x), rest)
  | none => .error (.behind .numberOutOfRange rest 0)

/-- Reads the digits of an exponent; none once they pass 31 bits, with what is
left behind the digit that did it. -/
def exponentDigits (e : Nat) : List Char → Option Nat × List Char
  | [] => (some e, [])
  | c :: rest =>
    if c.isDigit then
      let grown := e * 10 + digitValue c
      if grown < exponentLimit then exponentDigits grown rest else (none, rest)
    else (some e, c :: rest)

def exponent (s : Scan) (positive : Bool) (cs : List Char) : Reading Number :=
  let (raises, cs) := match cs with
    | '+' :: rest => (true, rest)
    | '-' :: rest => (false, rest)
    | cs => (true, cs)
  match cs with
  | [] => .error (.behind .eofValue [] 0)
  | c :: rest =>
    if c.isDigit then
      match exponentDigits (digitValue c) rest with
      | (some e, rest) =>
        let sum := if raises then s.exponent + e else s.exponent - e
        { s with exponent := clampExponent sum }.float positive rest
      | (none, rest) =>
        if s.significand ≠ 0 ∧ raises then .error (.behind .numberOutOfRange rest 0)
        else .ok (.real (if positive then 0.0 else -0.0), rest.dropWhile Char.isDigit)
    else .error (.behind .invalidNumber (c :: rest) 1)

def fraction (s : Scan) (positive : Bool) (cs : List Char) : Reading Number :=
  match cs.takeWhile Char.isDigit, cs.dropWhile Char.isDigit with
  | [], [] => .error (.next .eofValue [])
  | [], rest => .error (.next .invalidNumber rest)
  | digits, rest =>
    let s := digits.foldl Scan.fractionDigit { s with full := false }
    match rest with
    | 'e' :: rest => exponent s positive rest
    | 'E' :: rest => exponent s positive rest
    | rest => s.float positive rest

def number (positive : Bool) (cs : List Char) : Reading Number :=
  match cs with
  | [] => .error (.behind .eofValue [] 0)
  | '0' :: c :: rest =>
    if c.isDigit then .error (.next .invalidNumber (c :: rest))
    else tail ⟨0, 0, false⟩ (c :: rest)
  | c :: rest =>
    if c.isDigit then
      let digits := rest.takeWhile Char.isDigit
      tail (digits.foldl Scan.integerDigit ⟨digitValue c, 0, false⟩) (rest.dropWhile Char.isDigit)
    else .error (.behind .invalidNumber (c :: rest) 1)
where
  tail (s : Scan) : List Char → Reading Number
    | '.' :: rest => fraction s positive rest
    | 'e' :: rest => exponent s positive rest
    | 'E' :: rest => exponent s positive rest
    | rest =>
      if s.full then s.float positive rest
      else if positive then .ok (.integer s.significand, rest)
      else if s.significand ≠ 0 ∧ Int64.minValue.toInt ≤ -s.significand then
        .ok (.integer (-s.significand), rest)
      else s.float positive rest

end Announcer.Json
