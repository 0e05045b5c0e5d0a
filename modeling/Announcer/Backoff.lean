/-!
# Retry delays

Delays grow by a factor up to a ceiling and are never random. They are counted
in whole nanoseconds (specification, 12.6).

What a sequence of delays grows like is up to whoever makes it (`Growth`), and a
policy says from what it is made. `exponential` is the one that runs; its factor
is a float, and a product is cut down.
-/
namespace Announcer

/-- How long to wait before a repeated attempt, in nanoseconds. -/
structure RetryPolicy where
  initial : Nat
  max : Nat
  multiplier : Float
  deriving Inhabited

def nanosPerSecond : Nat := 1000000000

def nanosPerMilli : Nat := 1000000

/-- The delays that are left for one call: `delay k` is the one behind `k` others. -/
structure Backoff where
  delay : Nat → Nat

/-- What makes a fresh sequence from the first delay, the ceiling and the factor. -/
abbrev Growth := Nat → Nat → Float → Backoff

namespace Backoff

def current (b : Backoff) : Nat := b.delay 0

def next (b : Backoff) : Backoff := ⟨fun k => b.delay (k + 1)⟩

def delays (b : Backoff) (n : Nat) : List Nat := (List.range n).map b.delay

def toFloat (ns : Nat) : Float :=
  (UInt64.ofNat (ns / nanosPerSecond)).toFloat * 1000000000.0
    + (UInt64.ofNat (ns % nanosPerSecond)).toFloat

/-- A float as a delay. The whole seconds and what is below a second are cut
apart; what is no number counts as zero, and what is too large as the largest. -/
def ofFloat (x : Float) : Nat :=
  (x / 1000000000.0).toUInt64.toNat * nanosPerSecond + x.toUInt64.toNat % nanosPerSecond

/-- The delay behind `current`: the ceiling as soon as the product would reach
it. -/
def grow (max : Nat) (multiplier : Float) (current : Nat) : Nat :=
  if toFloat max / multiplier ≤ toFloat current then max
  else ofFloat (toFloat current * multiplier)

def grown (initial max : Nat) (multiplier : Float) : Nat → Nat
  | 0 => initial
  | k + 1 => grow max multiplier (grown initial max multiplier k)

def exponential : Growth := fun initial max multiplier => ⟨grown initial max multiplier⟩

end Backoff

namespace RetryPolicy

def backoffBy (growth : Growth) (p : RetryPolicy) : Backoff :=
  growth p.initial p.max p.multiplier

def backoff (p : RetryPolicy) : Backoff := p.backoffBy Backoff.exponential

/-- What holds when nothing is said (specification, 12.6). -/
def standard : RetryPolicy where
  initial := 1000 * nanosPerMilli
  max := 256000 * nanosPerMilli
  multiplier := 2.0

end RetryPolicy

end Announcer
