import Announcer.Json.Number
import Announcer.Proofs.Decimal
/-!
# Numbers read back

What the reader makes of a numeral does not depend on what stands behind it, as
long as that ends the value: nothing, a comma or a closing bracket. `Finds read cs o`
says so of a part of a text. An integer that fits 64 bits is read back as
itself. About floats nothing is known but that: the text of one may be read back as
another, or be out of range.

Results: `finds_numeral`, `finds_natural`, `finds_negative`.
-/
namespace Announcer.Json

open Decimal (Digits Whole Fraction Exponent Numeral digitsOf)

/-! ## What stands behind a value -/

/-- Nothing, a comma or a closing bracket. -/
def Ends (rest : List Char) : Prop := ∀ c ∈ rest.head?, c = ',' ∨ c = ']' ∨ c = '\x7d'

theorem ends_nil : Ends [] := by simp [Ends]

theorem ends_cons {c : Char} {rest : List Char} :
    Ends (c :: rest) ↔ c = ',' ∨ c = ']' ∨ c = '\x7d' := by simp [Ends]

/-- No digit comes next. -/
def StopsDigits (rest : List Char) : Prop := ∀ c ∈ rest.head?, c.isDigit = false

theorem Ends.stopsDigits {rest : List Char} (h : Ends rest) : StopsDigits rest := by
  intro c hc
  rcases h c hc with rfl | rfl | rfl <;> decide

theorem stopsDigits_exponent {cs rest : List Char} (h : Exponent cs) (hr : Ends rest) :
    StopsDigits (cs ++ rest) := by
  cases h with
  | none => exact hr.stopsDigits
  | some => intro c hc; cases hc; decide

theorem stopsDigits_fraction {cs rest : List Char} (h : Fraction cs) (hr : StopsDigits rest) :
    StopsDigits (cs ++ rest) := by
  cases h with
  | none => exact hr
  | some => intro c hc; cases hc; decide

theorem takeWhile_digits {ds rest : List Char} (h : Digits ds) (hr : StopsDigits rest) :
    (ds ++ rest).takeWhile Char.isDigit = ds := by
  rw [List.takeWhile_append_of_pos h]
  cases rest with
  | nil => simp
  | cons c rest => simp [hr c rfl]

theorem dropWhile_digits {ds rest : List Char} (h : Digits ds) (hr : StopsDigits rest) :
    (ds ++ rest).dropWhile Char.isDigit = rest := by
  rw [List.dropWhile_append_of_pos h]
  cases rest with
  | nil => simp
  | cons c rest => simp [hr c rfl]

/-- `read` finds `o` in `cs` and stops behind it, whatever it is that ends the value. -/
def Finds {α : Type} (read : List Char → Reading α) (cs : List Char) (o : Option α) : Prop :=
  ∀ rest, Ends rest → (read (cs ++ rest)).toOption = o.map (·, rest)

/-! ## Floats -/

/-- The number of a finished scan, when it is in range. -/
def Scan.value? (s : Scan) (positive : Bool) : Option Number :=
  (scale? 5 (UInt64.ofNat s.significand).toFloat s.exponent).map fun x =>
    .real (if positive then x else -x)

theorem toOption_float (s : Scan) (positive : Bool) (rest : List Char) :
    (s.float positive rest).toOption = (s.value? positive).map (·, rest) := by
  unfold Scan.float Scan.value?
  cases scale? 5 (UInt64.ofNat s.significand).toFloat s.exponent <;> rfl

/-- The digits of an exponent are read to their end, or one of them is too many. -/
theorem exponentDigits_append {ds rest : List Char} (h : Digits ds) (hr : StopsDigits rest)
    (e : Nat) :
    ∃ o left, Digits left ∧ (o.isSome → left = []) ∧ exponentDigits e ds = (o, left) ∧
      exponentDigits e (ds ++ rest) = (o, left ++ rest) := by
  induction ds generalizing e with
  | nil =>
    refine ⟨some e, [], h, fun _ => rfl, rfl, ?_⟩
    cases rest with
    | nil => rfl
    | cons c rest => simp [exponentDigits, hr c rfl]
  | cons c ds ih =>
    have hc : c.isDigit = true := h c List.mem_cons_self
    have hds : Digits ds := fun d hd => h d (List.mem_cons_of_mem c hd)
    by_cases hlarge : ((e * 10 + digitValue c : Nat) : Int) < exponentLimit
    · obtain ⟨o, left, hleft, ho, h1, h2⟩ := ih hds (e * 10 + digitValue c)
      refine ⟨o, left, hleft, ho, ?_, ?_⟩
      · simp only [exponentDigits, hc, if_true, if_pos hlarge, h1]
      · simp only [List.cons_append, exponentDigits, hc, if_true, if_pos hlarge, h2]
    · refine ⟨none, ds, hds, by simp, ?_, ?_⟩
      · simp only [exponentDigits, hc, if_true, if_neg hlarge]
      · simp only [List.cons_append, exponentDigits, hc, if_true, if_neg hlarge]

theorem finds_exponent (s : Scan) (positive : Bool) {sign : Char} {ds : List Char}
    (hsign : sign = '+' ∨ sign = '-') (hne : ds ≠ []) (hds : Digits ds) :
    ∃ o, Finds (exponent s positive) (sign :: ds) o := by
  obtain ⟨c, ds, rfl⟩ := List.exists_cons_of_ne_nil hne
  have hc : c.isDigit = true := hds c List.mem_cons_self
  have htail : Digits ds := fun d hd => hds d (List.mem_cons_of_mem c hd)
  obtain ⟨o, left, hleft, ho, hdigits, -⟩ :=
    exponentDigits_append htail ends_nil.stopsDigits (digitValue c)
  have happend : ∀ rest, Ends rest →
      exponentDigits (digitValue c) (ds ++ rest) = (o, left ++ rest) := by
    intro rest hr
    obtain ⟨o', left', -, -, h1, h2⟩ := exponentDigits_append htail hr.stopsDigits (digitValue c)
    cases h1.symm.trans hdigits
    exact h2
  cases o with
  | some e =>
    -- the exponent is known, and the scan decides
    obtain rfl := ho rfl
    let sum := if sign = '+' then s.exponent + e else s.exponent - e
    refine ⟨{ s with exponent := clampExponent sum : Scan }.value? positive, ?_⟩
    intro rest hr
    rcases hsign with rfl | rfl
    · simp [exponent, hc, happend rest hr, toOption_float, sum]
    · simp [exponent, hc, happend rest hr, toOption_float, sum]
  | none =>
    -- the exponent is too large: out of range, or zero
    refine ⟨if s.significand ≠ 0 ∧ sign = '+' then none else
      some (.real (if positive then 0.0 else -0.0)), ?_⟩
    intro rest hr
    have hdrop := dropWhile_digits hleft hr.stopsDigits
    rcases hsign with rfl | rfl
    · by_cases hz : s.significand = 0
      · simp [exponent, hc, happend rest hr, hz, hdrop, Except.toOption]
      · simp [exponent, hc, happend rest hr, hz, Except.toOption]
    · simp [exponent, hc, happend rest hr, hdrop, Except.toOption]

/-- What the reader does behind the digits of a fraction. -/
def behindFraction (s : Scan) (positive : Bool) : List Char → Reading Number
  | 'e' :: rest => exponent s positive rest
  | 'E' :: rest => exponent s positive rest
  | rest => s.float positive rest

theorem behindFraction_of_ends (s : Scan) (positive : Bool) {rest : List Char} (hr : Ends rest) :
    behindFraction s positive rest = s.float positive rest := by
  unfold behindFraction
  split
  · simp [ends_cons] at hr
  · simp [ends_cons] at hr
  · rfl

theorem fraction_append (s : Scan) (positive : Bool) {ds rest : List Char} (hne : ds ≠ [])
    (hds : Digits ds) (hr : StopsDigits rest) :
    fraction s positive (ds ++ rest) =
      behindFraction (ds.foldl Scan.fractionDigit { s with full := false }) positive rest := by
  unfold fraction
  rw [takeWhile_digits hds hr, dropWhile_digits hds hr]
  obtain ⟨c, ds, rfl⟩ := List.exists_cons_of_ne_nil hne
  cases rest <;> rfl

theorem finds_fraction (s : Scan) (positive : Bool) {ds tail : List Char} (hne : ds ≠ [])
    (hds : Digits ds) (htail : Exponent tail) :
    ∃ o, Finds (fraction s positive) (ds ++ tail) o := by
  have hread : ∀ rest, Ends rest → fraction s positive (ds ++ tail ++ rest) =
      behindFraction (ds.foldl Scan.fractionDigit { s with full := false }) positive
        (tail ++ rest) := by
    intro rest hr
    rw [List.append_assoc, fraction_append s positive hne hds (stopsDigits_exponent htail hr)]
  cases htail with
  | none =>
    refine ⟨(ds.foldl Scan.fractionDigit { s with full := false }).value? positive, ?_⟩
    intro rest hr
    rw [hread rest hr, List.nil_append, behindFraction_of_ends _ positive hr, toOption_float]
  | some hsign hes hexponent =>
    obtain ⟨o, ho⟩ := finds_exponent (ds.foldl Scan.fractionDigit { s with full := false })
      positive hsign hes hexponent
    refine ⟨o, fun rest hr => ?_⟩
    rw [hread rest hr, ← ho rest hr]
    rfl

/-! ## Digits before the point -/

/-- The scan of the digits before the point. -/
def Scan.ofWhole : List Char → Scan
  | [] => ⟨0, 0, false⟩
  | c :: ds => ds.foldl Scan.integerDigit ⟨digitValue c, 0, false⟩

theorem number_append (positive : Bool) {whole rest : List Char} (hw : Whole whole)
    (hr : StopsDigits rest) :
    number positive (whole ++ rest) = number.tail positive (.ofWhole whole) rest := by
  cases hw with
  | zero =>
    cases rest with
    | nil => rfl
    | cons c rest =>
      have hc : c.isDigit = false := hr c rfl
      show (if c.isDigit then _ else _) = _
      rw [hc, if_neg Bool.false_ne_true]
      rfl
  | positive hne hc hds =>
    rw [List.cons_append, number]
    · rw [if_pos hc, takeWhile_digits hds hr, dropWhile_digits hds hr]
      rfl
    · intro _ _ h _
      exact absurd h hne

/-- The number of the digits before the point, when nothing else belongs to it. -/
def Scan.integer? (s : Scan) (positive : Bool) : Option Number :=
  if s.full then s.value? positive
  else if positive then some (.integer s.significand)
  else if s.significand ≠ 0 ∧ Int64.minValue.toInt ≤ -s.significand then
    some (.integer (-s.significand))
  else s.value? positive

theorem finds_tail (s : Scan) (positive : Bool) :
    Finds (number.tail positive s) [] (s.integer? positive) := by
  intro rest hr
  rw [List.nil_append, number.tail, Scan.integer?]
  · split
    · exact toOption_float s positive rest
    · split
      · rfl
      · split
        · rfl
        · exact toOption_float s positive rest
  all_goals
    intro _ h
    simp [h, ends_cons] at hr

theorem finds_whole (positive : Bool) {cs : List Char} (h : Whole cs) :
    Finds (number positive) cs ((Scan.ofWhole cs).integer? positive) := by
  intro rest hr
  rw [number_append positive h hr.stopsDigits]
  exact finds_tail (.ofWhole cs) positive rest hr

/-! ## Numerals -/

theorem finds_numeral (positive : Bool) {cs : List Char} (h : Numeral cs) :
    ∃ o, Finds (number positive) cs o := by
  obtain @⟨whole, fraction, tail, hw, hf, he⟩ := h
  have hread : ∀ rest, Ends rest → number positive (whole ++ (fraction ++ tail) ++ rest) =
      number.tail positive (.ofWhole whole) (fraction ++ (tail ++ rest)) := by
    intro rest hr
    have hstop := stopsDigits_fraction hf (stopsDigits_exponent he hr)
    rw [List.append_assoc, List.append_assoc, number_append positive hw hstop]
  cases hf with
  | some hne hds =>
    obtain ⟨o, ho⟩ := finds_fraction (.ofWhole whole) positive hne hds he
    refine ⟨o, fun rest hr => ?_⟩
    rw [hread rest hr, ← ho rest hr, List.append_assoc]
    rfl
  | none =>
    cases he with
    | some hsign hne hds =>
      obtain ⟨o, ho⟩ := finds_exponent (.ofWhole whole) positive hsign hne hds
      refine ⟨o, fun rest hr => ?_⟩
      rw [hread rest hr, ← ho rest hr]
      rfl
    | none =>
      rw [List.append_nil, List.append_nil]
      exact ⟨_, finds_whole positive hw⟩

/-! ## Integers -/

/-- Digits add up as long as their number fits 64 bits. -/
theorem foldl_integerDigit {ds : List Char} {n : Nat}
    (h : Nat.ofDigitChars 10 ds n < UInt64.size) :
    ds.foldl Scan.integerDigit ⟨n, 0, false⟩ = ⟨Nat.ofDigitChars 10 ds n, 0, false⟩ := by
  induction ds generalizing n with
  | nil => rfl
  | cons c ds ih =>
    rw [Nat.ofDigitChars_cons] at h ⊢
    have hstep : 10 * n + (c.toNat - '0'.toNat) = n * 10 + digitValue c := by
      rw [Nat.mul_comm]
      rfl
    have hle : n * 10 + digitValue c ≤ Nat.ofDigitChars 10 ds (10 * n + (c.toNat - '0'.toNat)) := by
      rw [Nat.ofDigitChars_eq_ofDigitChars_zero, hstep]
      have := Nat.le_mul_of_pos_left (n * 10 + digitValue c) (Nat.pow_pos (n := ds.length)
        (show 0 < 10 by decide))
      omega
    rw [List.foldl_cons, ← ih h, hstep]
    simp [Scan.integerDigit, grown?, Nat.lt_of_le_of_lt hle h]

theorem ofWhole_digitsOf {n : Nat} (h : n < UInt64.size) :
    Scan.ofWhole (digitsOf n) = ⟨n, 0, false⟩ := by
  have hvalue : Nat.ofDigitChars 10 (digitsOf n) 0 = n := Nat.ofDigitChars_ten_toDigits
  obtain ⟨c, ds, he⟩ := List.exists_cons_of_ne_nil (Decimal.digitsOf_ne_nil n)
  rw [he, Nat.ofDigitChars_cons] at hvalue
  have hfirst : 10 * 0 + (c.toNat - '0'.toNat) = digitValue c := by
    rw [Nat.mul_zero, Nat.zero_add]
    rfl
  rw [hfirst] at hvalue
  rw [he, Scan.ofWhole, foldl_integerDigit (by rw [hvalue]; exact h), hvalue]

theorem finds_natural {n : Nat} (h : n < UInt64.size) :
    Finds (number true) (digitsOf n) (some (.integer n)) := by
  have hfinds := finds_whole true (Decimal.whole_digitsOf n)
  rwa [ofWhole_digitsOf h] at hfinds

theorem finds_negative {n : Nat} (hpos : 0 < n) (h : Int64.minValue.toInt ≤ -(n : Int)) :
    Finds (number false) (digitsOf n) (some (.integer (-n))) := by
  have hsize : n < UInt64.size := by
    have hmin : Int64.minValue.toInt = -9223372036854775808 := by decide
    have hmax : UInt64.size = 18446744073709551616 := rfl
    omega
  have hfinds := finds_whole false (Decimal.whole_digitsOf n)
  rw [ofWhole_digitsOf hsize] at hfinds
  have hvalue : Scan.integer? ⟨n, 0, false⟩ false = some (.integer (-n)) := by
    have hne : n ≠ 0 := by omega
    rw [Scan.integer?, if_neg Bool.false_ne_true, if_neg Bool.false_ne_true, if_pos ⟨hne, h⟩]
  rwa [hvalue] at hfinds

end Announcer.Json
