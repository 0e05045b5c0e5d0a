import Announcer.Decimal.Shortest
/-!
# Written floats

How the shortest digits of a float are laid out: where a plain decimal gives
way to an exponent, whether a whole number keeps its fraction, and what stands
for a value that is no number. Each text format of the library fixes one
`Layout` beside its writer.
-/
namespace Announcer.Decimal

structure Layout where
  /-- The exponents of the leading digit, from and below, that are written
  without an exponent mark; every one when absent. -/
  positional : Option (Int × Int)
  /-- Whether a whole number is written with `.0`. -/
  keepsFraction : Bool
  nan : String
  infinity : String
  deriving Repr

def digitsOf (n : Nat) : List Char := Nat.toDigits 10 n

def Layout.plain (l : Layout) (d : Scaled) : List Char :=
  let ds := digitsOf d.digits
  if 0 ≤ d.exponent then
    ds ++ List.replicate d.exponent.toNat '0' ++ (if l.keepsFraction then ['.', '0'] else [])
  else
    let places := (-d.exponent).toNat
    if ds.length ≤ places then
      ['0', '.'] ++ List.replicate (places - ds.length) '0' ++ ds
    else
      ds.take (ds.length - places) ++ '.' :: ds.drop (ds.length - places)

def Layout.scientific (_ : Layout) (d : Scaled) : List Char :=
  let ds := digitsOf d.digits
  let exponent := d.exponent + (ds.length - 1 : Nat)
  let mantissa := match ds with
    | c :: c' :: rest => c :: '.' :: c' :: rest
    | short => short
  mantissa ++ 'e' :: (if exponent < 0 then '-' else '+') :: digitsOf exponent.natAbs

/-- The text of a float. The sign of zero is written, that of a NaN is not. -/
def Layout.write (l : Layout) (x : Float) : String :=
  if x.isNaN then l.nan
  else
    let negative := x.toBits.toNat >>> 63 = 1
    let body :=
      if x.isInf then l.infinity.toList
      else
        let d := ofFloat x
        let leading := d.exponent + ((digitsOf d.digits).length - 1 : Nat)
        let positional := match l.positional with
          | none => true
          | some (lowest, limit) => d.digits = 0 ∨ (lowest ≤ leading ∧ leading < limit)
        if positional then l.plain d else l.scientific d
    String.ofList (if negative then '-' :: body else body)

end Announcer.Decimal
