import Announcer.Decimal.Layout
/-!
# The shape of written numbers

Whatever a float is, its text is a `Numeral`, apart from the names of what is no
number: digits that do not begin with a zero unless it is the only one, then
perhaps a fraction, then perhaps a signed exponent. The one thing to check is
that the shortest decimal of a float has the digit zero only as plain zero: the
interval around a number never reaches down to zero (`Rounded.Positive`).

Results: `ofFloat_normal`, `toList_write`.
-/
namespace Announcer.Decimal

/-! ## Digits -/

/-- Every character is a decimal digit. -/
def Digits (ds : List Char) : Prop := ∀ c ∈ ds, c.isDigit = true

theorem Digits.append {ds es : List Char} (h : Digits ds) (h' : Digits es) : Digits (ds ++ es) := by
  intro c hc
  rcases List.mem_append.mp hc with hc | hc
  · exact h c hc
  · exact h' c hc

theorem Digits.cons {c : Char} {ds : List Char} (hc : c.isDigit = true) (h : Digits ds) :
    Digits (c :: ds) := by
  intro d hd
  rcases List.mem_cons.mp hd with rfl | hd
  · exact hc
  · exact h d hd

theorem Digits.of_sublist {ds es : List Char} (h : ds.Sublist es) (hes : Digits es) : Digits ds :=
  fun c hc => hes c (h.subset hc)

theorem digits_zeros (n : Nat) : Digits (List.replicate n '0') := by
  intro c hc
  rw [List.eq_of_mem_replicate hc]
  decide

theorem digits_digitsOf (n : Nat) : Digits (digitsOf n) :=
  fun _ hc => Nat.isDigit_of_mem_toDigits (by decide) (by decide) hc

theorem digitsOf_ne_nil (n : Nat) : digitsOf n ≠ [] := Nat.toDigits_ne_nil

/-- A number above zero has no zero in front. -/
theorem digitsOf_eq_cons {n : Nat} (h : 0 < n) :
    ∃ c ds, digitsOf n = c :: ds ∧ c ≠ '0' ∧ c.isDigit = true ∧ Digits ds := by
  induction n using Nat.strongRecOn with
  | ind n ih =>
    rw [digitsOf, Nat.toDigits_eq_if (by decide)]
    by_cases hn : n < 10
    · rw [if_pos hn]
      have small : ∀ n : Fin 10, 0 < n.val →
          Nat.digitChar n.val ≠ '0' ∧ (Nat.digitChar n.val).isDigit = true := by decide
      obtain ⟨hne, hdigit⟩ := small ⟨n, hn⟩ h
      exact ⟨_, [], rfl, hne, hdigit, by simp [Digits]⟩
    · rw [if_neg hn]
      obtain ⟨c, ds, he, hne, hdigit, hds⟩ := ih (n / 10) (by omega) (by omega)
      have hlast := digits_digitsOf (n % 10)
      rw [digitsOf, Nat.toDigits_of_lt_base (Nat.mod_lt n (by decide))] at hlast
      exact ⟨c, ds ++ [(n % 10).digitChar], by rw [← digitsOf, he]; rfl, hne, hdigit,
        hds.append hlast⟩

/-! ## Numerals -/

/-- The digits before the point. -/
inductive Whole : List Char → Prop where
  | zero : Whole ['0']
  | positive {c : Char} {ds : List Char} (hne : c ≠ '0') (hc : c.isDigit = true)
    (hds : Digits ds) : Whole (c :: ds)

/-- The point and the digits behind it, when there are any. -/
inductive Fraction : List Char → Prop where
  | none : Fraction []
  | some {ds : List Char} (hne : ds ≠ []) (hds : Digits ds) : Fraction ('.' :: ds)

/-- The exponent with its sign, when there is one. -/
inductive Exponent : List Char → Prop where
  | none : Exponent []
  | some {sign : Char} {ds : List Char} (hsign : sign = '+' ∨ sign = '-') (hne : ds ≠ [])
    (hds : Digits ds) : Exponent ('e' :: sign :: ds)

/-- A number without its sign. -/
inductive Numeral : List Char → Prop where
  | mk {whole fraction exponent : List Char} (hw : Whole whole) (hf : Fraction fraction)
    (he : Exponent exponent) : Numeral (whole ++ (fraction ++ exponent))

theorem whole_digitsOf (n : Nat) : Whole (digitsOf n) := by
  rcases Nat.eq_zero_or_pos n with rfl | h
  · exact .zero
  · obtain ⟨c, ds, he, hne, hc, hds⟩ := digitsOf_eq_cons h
    rw [he]
    exact .positive hne hc hds

theorem Whole.append {ds es : List Char} (h : Whole ds) (hne : ds ≠ ['0']) (hes : Digits es) :
    Whole (ds ++ es) := by
  cases h with
  | zero => exact absurd rfl hne
  | positive hc hd hds => exact .positive hc hd (hds.append hes)

/-- Digits in front of a number do not begin with its zero either. -/
theorem Whole.take {ds : List Char} (h : Whole ds) (hne : ds ≠ ['0']) {n : Nat} (hn : 0 < n) :
    Whole (ds.take n) := by
  obtain ⟨n, rfl⟩ := Nat.exists_eq_add_of_lt hn
  cases h with
  | zero => exact absurd rfl hne
  | positive hc hd hds =>
    rw [Nat.zero_add, List.take_succ_cons]
    exact .positive hc hd (.of_sublist (List.take_sublist n _) hds)

theorem digitsOf_ne_zero {n : Nat} (h : 0 < n) : digitsOf n ≠ ['0'] := by
  obtain ⟨c, ds, he, hne, -, -⟩ := digitsOf_eq_cons h
  rw [he]
  intro h
  exact hne (List.cons.inj h).1

/-! ## Shortest decimals -/

namespace Rounded

/-- The interval around the number stays above zero. -/
def Positive (r : Rounded) : Prop := 0 < r.low

theorem positive_ofBinary {m : Nat} (h : 0 < m) (q : Int) (tight : Bool) :
    (ofBinary m q tight).Positive := by
  have hscale : 0 < Nat.pow 2 (q - 2).toNat := Nat.pow_pos (by decide)
  have hfactor : 0 < 4 * m - (if tight then 1 else 2) := by split <;> omega
  exact Nat.mul_pos hfactor hscale

theorem Positive.digits_pos {r : Rounded} (h : r.Positive) {e : Int} {d : Nat}
    (hd : r.holds e d = true) : 0 < d := by
  rcases Nat.eq_zero_or_pos d with rfl | hpos
  · have hlow : 0 < r.low * r.stretch e := Nat.mul_pos h (Nat.pow_pos (by decide))
    simp only [holds, Nat.zero_mul] at hd
    split at hd
    · simp only [Bool.and_eq_true, decide_eq_true_eq] at hd
      omega
    · simp only [Bool.and_eq_true, decide_eq_true_eq] at hd
      omega
  · exact hpos

theorem Positive.onGrid? {r : Rounded} (h : r.Positive) {e : Int} {d : Scaled}
    (hd : r.onGrid? e = some d) : 0 < d.digits := by
  unfold Rounded.onGrid? at hd
  dsimp only at hd
  split at hd
  · cases hd
  · next hbelow _ =>
    cases hd
    exact h.digits_pos hbelow
  · next _ habove =>
    cases hd
    exact h.digits_pos habove
  · next hbelow habove =>
    have hb := h.digits_pos hbelow
    split at hd
    · cases hd
      exact hb
    · split at hd
      · cases hd
        exact h.digits_pos habove
      · cases hd
        dsimp only
        split
        · exact hb
        · exact h.digits_pos habove

end Rounded

/-- A decimal has the digit zero only as plain zero. -/
def Scaled.Normal (d : Scaled) : Prop := d.digits = 0 → d.exponent = 0

theorem trimZeros_normal (fuel : Nat) {d : Scaled} (h : d.Normal) : (trimZeros fuel d).Normal := by
  induction fuel generalizing d with
  | zero => exact h
  | succ fuel ih =>
    unfold trimZeros
    split
    · next hz =>
      apply ih
      intro hdiv
      exfalso
      simp only at hdiv
      omega
    · exact h

theorem Rounded.Positive.shortest_normal {r : Rounded} (h : r.Positive) : r.shortest.Normal := by
  apply trimZeros_normal
  cases hfound : (List.range 17).findSome? (fun (n : Nat) => r.onGrid? (r.magnitude - (n : Int)))
    with
  | none => exact fun _ => rfl
  | some d =>
    obtain ⟨n, -, hd⟩ := List.exists_of_findSome?_eq_some hfound
    have := h.onGrid? hd
    intro hz
    rw [Option.getD_some] at hz
    omega

theorem ofFloat_normal (x : Float) : (ofFloat x).Normal := by
  unfold ofFloat
  dsimp only
  split
  · split
    · exact fun _ => rfl
    · next h => exact (Rounded.positive_ofBinary (Nat.pos_of_ne_zero h) _ _).shortest_normal
  · exact (Rounded.positive_ofBinary (by omega) _ _).shortest_normal

/-! ## Written floats -/

theorem numeral_plain {l : Layout} (hl : l.keepsFraction = true) {d : Scaled} (h : d.Normal) :
    Numeral (l.plain d) := by
  unfold Layout.plain
  dsimp only
  have hwhole := whole_digitsOf d.digits
  split
  · next hexp =>
    -- zeros stand behind the digits only when these are not zero
    have hdigits : Whole (digitsOf d.digits ++ List.replicate d.exponent.toNat '0') := by
      rcases Nat.eq_zero_or_pos d.digits with hz | hpos
      · rw [h hz]
        simpa using hwhole
      · exact hwhole.append (digitsOf_ne_zero hpos) (digits_zeros _)
    have := Numeral.mk hdigits (.some (by simp) (digits_zeros 1)) .none
    simpa [hl] using this
  · next hexp =>
    have hpos : 0 < d.digits := by
      rcases Nat.eq_zero_or_pos d.digits with hz | hpos
      · have := h hz
        omega
      · exact hpos
    split
    · have hne : List.replicate ((-d.exponent).toNat - (digitsOf d.digits).length) '0'
          ++ digitsOf d.digits ≠ [] := by simp [digitsOf_ne_nil]
      have := Numeral.mk .zero (.some hne ((digits_zeros _).append (digits_digitsOf _))) .none
      simpa using this
    · next hlen =>
      have hne :
          (digitsOf d.digits).drop ((digitsOf d.digits).length - (-d.exponent).toNat) ≠ [] := by
        rw [ne_eq, List.drop_eq_nil_iff]
        omega
      have hplaces : 0 < (digitsOf d.digits).length - (-d.exponent).toNat := by omega
      have := Numeral.mk (hwhole.take (digitsOf_ne_zero hpos) hplaces)
        (.some hne (.of_sublist (List.drop_sublist _ _) (digits_digitsOf _))) .none
      simpa using this

theorem numeral_scientific (l : Layout) {d : Scaled} (h : 0 < d.digits) :
    Numeral (l.scientific d) := by
  unfold Layout.scientific
  dsimp only
  obtain ⟨c, ds, he, hne, hc, hds⟩ := digitsOf_eq_cons h
  have hexponent (e : Int) :
      Exponent ('e' :: (if e < 0 then '-' else '+') :: digitsOf e.natAbs) := by
    refine .some ?_ (digitsOf_ne_nil _) (digits_digitsOf _)
    split
    · exact .inr rfl
    · exact .inl rfl
  rw [he]
  cases ds with
  | nil => exact .mk (.positive hne hc hds) .none (hexponent _)
  | cons c' rest =>
    have hlead : Whole [c] := .positive hne hc fun _ hd => absurd hd List.not_mem_nil
    exact .mk hlead (.some (by simp) hds) (hexponent _)

/-- The text of a float without its sign. -/
def Layout.body (l : Layout) (x : Float) : List Char :=
  if x.isInf then l.infinity.toList
  else
    let d := ofFloat x
    let leading := d.exponent + ((digitsOf d.digits).length - 1 : Nat)
    let positional := match l.positional with
      | none => true
      | some (lowest, limit) => d.digits = 0 ∨ (lowest ≤ leading ∧ leading < limit)
    if positional then l.plain d else l.scientific d

theorem write_eq (l : Layout) (x : Float) :
    l.write x = if x.isNaN then l.nan else
      String.ofList (if x.toBits.toNat >>> 63 = 1 then '-' :: l.body x else l.body x) := rfl

theorem numeral_body {l : Layout} (hl : l.keepsFraction = true) (x : Float) :
    Numeral (l.body x) ∨ l.body x = l.infinity.toList := by
  unfold Layout.body
  split
  · exact .inr rfl
  · left
    cases l.positional with
    | none => exact numeral_plain hl (ofFloat_normal x)
    | some range =>
      dsimp only
      split
      · exact numeral_plain hl (ofFloat_normal x)
      · next hpos =>
        simp only [decide_eq_true_eq, not_or] at hpos
        exact numeral_scientific l (by omega)

/-- The text of a float is a numeral, perhaps behind a sign, or a name. -/
theorem toList_write {l : Layout} (hl : l.keepsFraction = true) (x : Float) :
    (l.write x).toList = l.nan.toList ∨ ∃ body, (Numeral body ∨ body = l.infinity.toList) ∧
      ((l.write x).toList = body ∨ (l.write x).toList = '-' :: body) := by
  rw [write_eq]
  split
  · exact .inl rfl
  · refine .inr ⟨l.body x, numeral_body hl x, ?_⟩
    rw [String.toList_ofList]
    split
    · exact .inr rfl
    · exact .inl rfl

end Announcer.Decimal
