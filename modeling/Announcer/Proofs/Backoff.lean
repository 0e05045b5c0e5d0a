import Mathlib
import Announcer.Settings
/-!
# Delays without rounding

Delays grow exactly when every interval is the one before times the multiplier, or the ceiling once
that would be reached (`interval`). A delay is such an interval cut to whole nanoseconds
(`Growth.Exact`). So the interval behind `k` others is the first one times the `k`-th power of the
multiplier, or the ceiling if that is less (`interval_eq`); the delays never shrink, and stay
between the first one and the ceiling.

A multiplier is a float, and what it stands for is its `magnitude`; it may be infinite. For the
settings when nothing is said, the delays that run are exact (`exact_standard`).

Results: `one_le_magnitude`, `interval_eq`, `interval_milli`, `Growth.Exact.monotone_delay`,
`Growth.Exact.delay_bounds`, `exact_standard`.
-/
namespace Announcer

open scoped ENNReal
open Float.Model (UnpackedFloat)

/-! ## Multipliers -/

/-- The number that a float stands for. What is no number, or negative, counts as zero. -/
noncomputable def magnitude (x : Float) : ℝ≥0∞ :=
  match x.toModel.unpack with
  | .infinity .positive => ⊤
  | .finite .positive mantissa exponent _ => mantissa * 2 ^ exponent
  | _ => 0

/-- But for the smallest exponent, the mantissa of a float has 53 bits. -/
theorem le_mantissa {x : Float.Model} {sign : UnpackedFloat.Sign} {mantissa : Nat} {exponent : Int}
    {hpos : 0 < mantissa} (h : x.unpack = .finite sign mantissa exponent hpos)
    (he : -1074 < exponent) : 2 ^ 52 ≤ mantissa := by
  unfold Float.Model.unpack UnpackedFloat.unpack at h
  dsimp only at h
  split at h
  · split at h <;> cases h
  · split at h
    · next hzero =>
      split at h
      · cases h
      · cases h
        -- a subnormal float has the smallest exponent
        rw [hzero] at he
        exact absurd he (by decide)
    · cases h
      rw [BitVec.toNat_append]
      exact Nat.left_le_or

theorem one_le_magnitude {x : Float} (h : 1.0 ≤ x) : 1 ≤ magnitude x := by
  have hmodel : (1.0 : Float).toModel ≤ x.toModel := of_decide_eq_true h
  have hle : UnpackedFloat.le (.finite .positive (2 ^ 52) (-52) (by decide))
      x.toModel.unpack = true := hmodel
  unfold magnitude
  cases hx : x.toModel.unpack with
  | notANumber => rw [hx] at hle; cases hle
  | zero sign => rw [hx] at hle; cases hle
  | infinity sign =>
    cases sign with
    | positive => exact le_top
    | negative => rw [hx] at hle; cases hle
  | finite sign mantissa exponent hpos =>
    cases sign with
    | negative => rw [hx] at hle; cases hle
    | positive =>
      rw [hx] at hle
      have hcompare : ((compare (-52) exponent).then (compare (2 ^ 52) mantissa)).isLE = true := hle
      have hexponent : -52 ≤ exponent := by
        by_contra hlt
        rw [Int.compare_eq_gt.mpr (by omega)] at hcompare
        cases hcompare
      have hmantissa : 2 ^ 52 ≤ mantissa := le_mantissa hx (by omega)
      calc (1 : ℝ≥0∞)
        _ = 2 ^ (52 : ℤ) * 2 ^ (-52 : ℤ) := by
          rw [← ENNReal.zpow_add (by simp) (by simp)]
          simp
        _ = ((2 ^ 52 : Nat) : ℝ≥0∞) * 2 ^ (-52 : ℤ) := by norm_num
        _ ≤ mantissa * 2 ^ exponent := by
          gcongr
          exact one_le_two

theorem magnitude_two : magnitude 2.0 = 2 := by
  have hunpack : (2.0 : Float).toModel.unpack = .finite .positive (2 ^ 52) (-51) (by decide) := rfl
  rw [magnitude, hunpack]
  calc (((2 ^ 52 : Nat) : ℝ≥0∞) * 2 ^ (-51 : ℤ))
    _ = 2 ^ (52 : ℤ) * 2 ^ (-51 : ℤ) := by norm_num
    _ = 2 := by
      rw [← ENNReal.zpow_add (by simp) (by simp)]
      norm_num

/-! ## Delays -/

/-- Settings that pass the checks have a first delay, and it does not shrink, nor exceed the
ceiling. -/
theorem Settings.retry_of_check {s : Settings} (h : s.check = .ok ()) :
    1 ≤ magnitude s.sender.retryMultiplier ∧ 0 < s.sender.retryInitial ∧
      s.sender.retryInitial ≤ s.sender.retryMax := by
  unfold check at h
  dsimp only at h
  split at h
  · cases h
  · next hmultiplier =>
    split at h
    · cases h
    · next hdelays => exact ⟨one_le_magnitude (by simpa using hmultiplier), by omega, by omega⟩

/-- The intervals from the first one on, in nanoseconds and without rounding. -/
noncomputable def interval (initial max : Nat) (m : ℝ≥0∞) : Nat → ℝ≥0∞
  | 0 => initial
  | k + 1 => if max ≤ interval initial max m k * m then max else interval initial max m k * m

section Interval
variable {m : ℝ≥0∞} (hgrows : 1 ≤ m)
include hgrows

/-- A capped power times the multiplier, capped again, is the next one. -/
theorem capped_succ (initial max : ℝ≥0∞) (k : Nat) :
    min max (min (initial * m ^ k) max * m) = min (initial * m ^ (k + 1)) max :=
  calc min max (min (initial * m ^ k) max * m)
    _ = min max (min (initial * m ^ k * m) (max * m)) := by rw [min_mul_mul_right]
    _ = min (min max (max * m)) (initial * m ^ k * m) := by
      rw [min_comm (initial * m ^ k * m), min_assoc]
    _ = min max (initial * m ^ (k + 1)) := by
      rw [min_eq_left (le_mul_of_one_le_right' hgrows), mul_assoc, ← pow_succ]
    _ = min (initial * m ^ (k + 1)) max := min_comm _ _

variable {initial max : Nat} (hle : initial ≤ max)
include hle

/-- The interval behind `k` others. -/
theorem interval_eq (k : Nat) : interval initial max m k = min (initial * m ^ k) max := by
  induction k with
  | zero => rw [interval, pow_zero, mul_one, min_eq_left (Nat.cast_le.mpr hle)]
  | succ k ih => rw [interval, ← min_def, ih, capped_succ hgrows]

theorem monotone_interval : Monotone (interval initial max m) := by
  intro j k hjk
  rw [interval_eq hgrows hle, interval_eq hgrows hle]
  gcongr

theorem interval_bounds (k : Nat) :
    initial ≤ interval initial max m k ∧ interval initial max m k ≤ max := by
  refine ⟨monotone_interval hgrows hle (Nat.zero_le k), ?_⟩
  rw [interval_eq hgrows hle]
  exact min_le_right _ _

end Interval

/-- The interval behind `k` others, from parameters in milliseconds. -/
theorem interval_milli {m : ℝ≥0∞} (hgrows : 1 ≤ m) {initial max : Nat} (hle : initial ≤ max)
    (k : Nat) : interval (initial * nanosPerMilli) (max * nanosPerMilli) m k =
      nanosPerMilli * min (initial * m ^ k) max := by
  rw [interval_eq hgrows (Nat.mul_le_mul_right _ hle), ← min_mul_mul_left]
  push_cast
  ring_nf

/-- The delay is the interval, cut to whole nanoseconds. -/
def IsCut (interval : ℝ≥0∞) (delay : Nat) : Prop := delay ≤ interval ∧ interval < delay + 1

namespace Growth

/-- For these parameters, the delays are made without rounding. -/
def Exact (growth : Growth) (initial max : Nat) (multiplier : Float) : Prop :=
  ∀ k, IsCut (interval initial max (magnitude multiplier) k)
    ((growth initial max multiplier).delay k)

section Exact
variable {growth : Growth} {initial max : Nat} {multiplier : Float}
  (h : growth.Exact initial max multiplier) (hgrows : 1 ≤ magnitude multiplier)
  (hle : initial ≤ max)
include h hgrows hle

/-- No delay is shorter than the one before. -/
theorem Exact.monotone_delay : Monotone (growth initial max multiplier).delay := by
  intro j k hjk
  have hlt : ((growth initial max multiplier).delay j : ℝ≥0∞) <
      (growth initial max multiplier).delay k + 1 :=
    ((h j).1.trans (monotone_interval hgrows hle hjk)).trans_lt (h k).2
  exact Nat.lt_succ_iff.mp (by exact_mod_cast hlt)

theorem Exact.delay_bounds (k : Nat) : initial ≤ (growth initial max multiplier).delay k ∧
    (growth initial max multiplier).delay k ≤ max := by
  obtain ⟨hfirst, hceiling⟩ := interval_bounds hgrows hle k
  have hlt : (initial : ℝ≥0∞) < (growth initial max multiplier).delay k + 1 :=
    hfirst.trans_lt (h k).2
  have hmax : ((growth initial max multiplier).delay k : ℝ≥0∞) ≤ max := (h k).1.trans hceiling
  exact ⟨Nat.lt_succ_iff.mp (by exact_mod_cast hlt), by exact_mod_cast hmax⟩

end Exact

end Growth

/-- When nothing is said, nothing is rounded: the delays are those of one second, doubled up to 256
seconds. -/
theorem exact_standard :
    Growth.Exact Backoff.exponential (1000 * nanosPerMilli) (256000 * nanosPerMilli) 2.0 := by
  set b := Backoff.exponential (1000 * nanosPerMilli) (256000 * nanosPerMilli) 2.0 with hb
  have hgrowing : ∀ k < 8, b.delay k * 2 ≤ 256000 * nanosPerMilli ∧
      b.delay (k + 1) = b.delay k * 2 := by decide +kernel
  have hceiling : ∀ k, 8 ≤ k → b.delay k = 256000 * nanosPerMilli := by
    intro k hk
    induction k, hk using Nat.le_induction with
    | base => decide +kernel
    | succ k _ ih =>
      have hsucc : b.delay (k + 1) = Backoff.grow (256000 * nanosPerMilli) 2.0 (b.delay k) := rfl
      rw [hsucc, ih]
      decide +kernel
  have hnext : ∀ k, b.delay (k + 1) = min (256000 * nanosPerMilli) (b.delay k * 2) := by
    intro k
    rcases Nat.lt_or_ge k 8 with hk | hk
    · obtain ⟨hle, hdouble⟩ := hgrowing k hk
      rw [hdouble, min_eq_right hle]
    · rw [hceiling k hk, hceiling (k + 1) (by omega)]
      rfl
  have hsame : ∀ k, interval (1000 * nanosPerMilli) (256000 * nanosPerMilli) (magnitude 2.0) k =
      b.delay k := by
    intro k
    induction k with
    | zero => rfl
    | succ k ih =>
      rw [interval, ← min_def, ih, magnitude_two, hnext, Nat.mono_cast.map_min]
      push_cast
      rfl
  intro k
  rw [hsame]
  exact ⟨le_rfl, ENNReal.lt_add_right (ENNReal.natCast_ne_top _) one_ne_zero⟩

end Announcer
