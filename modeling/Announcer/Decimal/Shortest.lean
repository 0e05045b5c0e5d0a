/-!
# Shortest decimals

A binary floating-point number stands for every real that rounds to it. Among
the decimals in that interval this module picks one with the fewest digits, and
of those the nearest to the number itself; an exact tie goes to the even digit.

Everything is exact arithmetic on natural numbers: the number is `m * 2 ^ q`,
and a decimal grid `10 ^ e` is searched at the number's two neighbours on it.
-/
namespace Announcer.Decimal

structure Scaled where
  digits : Nat
  exponent : Int
  deriving DecidableEq, Repr

/-- A positive binary number with the interval of reals that round to it, all
three over one denominator. The ends belong to the interval when `closed`. -/
structure Rounded where
  value : Nat
  low : Nat
  high : Nat
  denominator : Nat
  closed : Bool
  deriving Repr

namespace Rounded

/-- The interval around `m * 2 ^ q`. Below a power of two the neighbours are
half as far apart, save at the smallest exponent, where `tight` is false. -/
def ofBinary (m : Nat) (q : Int) (tight : Bool) : Rounded :=
  let scale := Nat.pow 2 (q - 2).toNat
  { value := 4 * m * scale
    low := (4 * m - (if tight then 1 else 2)) * scale
    high := (4 * m + 2) * scale
    denominator := Nat.pow 2 (2 - q).toNat
    closed := m % 2 = 0 }

/-- The decimal grid `10 ^ e` in the units of `r`: a step `d` of the grid
stands at `d * r.step e`, and the numbers of `r` at `x * r.stretch e`. -/
def step (r : Rounded) (e : Int) : Nat := r.denominator * Nat.pow 10 e.toNat

def stretch (_ : Rounded) (e : Int) : Nat := Nat.pow 10 (-e).toNat

def holds (r : Rounded) (e : Int) (d : Nat) : Bool :=
  let at_ := d * r.step e
  let low := r.low * r.stretch e
  let high := r.high * r.stretch e
  if r.closed then low ≤ at_ && at_ ≤ high else low < at_ && at_ < high

/-- The point of the grid `10 ^ e` that rounds to the number, if there is one:
the nearer of the two around it, the even one when both are as near. -/
def onGrid? (r : Rounded) (e : Int) : Option Scaled :=
  let value := r.value * r.stretch e
  let below := value / r.step e
  let above := below + 1
  let downBy := value - below * r.step e
  let upBy := above * r.step e - value
  match r.holds e below, r.holds e above with
  | false, false => none
  | true, false => some ⟨below, e⟩
  | false, true => some ⟨above, e⟩
  | true, true =>
    if downBy < upBy then some ⟨below, e⟩
    else if upBy < downBy then some ⟨above, e⟩
    else some ⟨if below % 2 = 0 then below else above, e⟩

def magnitude (r : Rounded) : Int :=
  let log2 : Int := (Nat.log2 r.value : Int) - (Nat.log2 r.denominator : Int)
  let guess := log2 * 30103 / 100000
  if r.step (guess + 1) ≤ r.value * r.stretch (guess + 1) then guess + 1 else guess

end Rounded

def trimZeros : Nat → Scaled → Scaled
  | 0, d => d
  | fuel + 1, d =>
    if d.digits ≠ 0 ∧ d.digits % 10 = 0 then trimZeros fuel ⟨d.digits / 10, d.exponent + 1⟩ else d

/-- The shortest decimal that rounds to the number: grids from coarse to fine,
seventeen digits at most. -/
def Rounded.shortest (r : Rounded) : Scaled :=
  let top := r.magnitude
  let found := (List.range 17).findSome? (fun (n : Nat) => r.onGrid? (top - (n : Int)))
  trimZeros 20 (found.getD ⟨r.value / r.denominator, 0⟩)

def ofFloat (x : Float) : Scaled :=
  let bits : Nat := x.toBits.toNat
  let biased : Nat := (bits >>> 52) % 2048
  let fraction : Nat := bits % (1 <<< 52)
  if biased = 0 then
    if fraction = 0 then ⟨0, 0⟩ else (Rounded.ofBinary fraction (-1074) false).shortest
  else
    (Rounded.ofBinary ((1 <<< 52) + fraction) ((biased : Int) - 1075)
      (fraction = 0 && biased ≠ 1)).shortest

end Announcer.Decimal
