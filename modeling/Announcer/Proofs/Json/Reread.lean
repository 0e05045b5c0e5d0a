import Announcer.Proofs.Json.Numbers
import Announcer.Proofs.Json.Shape
/-!
# What printed JSON is read back as

`Value.reread?` says what the reader makes of a printed value, with so many brackets
allowed around what it holds: nothing when it is nested too deep or the text
of a float is out of range, and otherwise the value, only that the text of a float
may be read back as another float.

Results: `numberText`, `isSome_reread?_iff`, `reread?_of_stable`.
-/
namespace Announcer.Json

open Decimal (Numeral digitsOf)

/-! ## Numbers -/

/-- The number that a whole text is read as. -/
def numberOf? : List Char → Option Number
  | '-' :: cs => (number false cs).toOption.map Prod.fst
  | cs => (number true cs).toOption.map Prod.fst

/-- What the text of a number is read back as, when it is read at all. -/
def Number.reread? (n : Number) : Option Number := numberOf? n.text.toList

theorem Finds.alone {cs : List Char} {positive : Bool} {o : Option Number}
    (h : Finds (number positive) cs o) : (number positive cs).toOption.map Prod.fst = o := by
  have := h [] ends_nil
  rw [List.append_nil] at this
  rw [this]
  cases o <;> rfl

theorem numberOf?_digit {c : Char} {cs : List Char} (hc : c.isDigit = true) :
    numberOf? (c :: cs) = (number true (c :: cs)).toOption.map Prod.fst := by
  rw [numberOf?]
  rintro _ h
  cases h
  simp at hc

theorem numeral_head {cs : List Char} (h : Numeral cs) :
    ∃ c rest, cs = c :: rest ∧ c.isDigit = true := by
  obtain @⟨whole, fraction, tail, hw, -, -⟩ := h
  cases hw with
  | zero => exact ⟨'0', _, rfl, by decide⟩
  | positive _ hc _ => exact ⟨_, _, rfl, hc⟩

/-- The text of a number: a numeral, perhaps behind a sign, or the name of no number. -/
inductive NumberText : List Char → Prop where
  | numeral {cs : List Char} (h : Numeral cs) : NumberText cs
  | negative {cs : List Char} (h : Numeral cs) : NumberText ('-' :: cs)
  | nan : NumberText ['N', 'a', 'N']
  | infinity : NumberText ['i', 'n', 'f']
  | negativeInfinity : NumberText ['-', 'i', 'n', 'f']

theorem numeral_digitsOf (n : Nat) : Numeral (digitsOf n) := by
  have := Numeral.mk (Decimal.whole_digitsOf n) .none .none
  simpa using this

theorem numberText (n : Number) : NumberText n.text.toList := by
  cases n with
  | integer i =>
    rw [Number.text, integerText, String.toList_ofList]
    split
    · exact .negative (numeral_digitsOf _)
    · exact .numeral (numeral_digitsOf _)
  | real x =>
    rw [Number.text]
    rcases Decimal.toList_write (l := floatLayout) rfl x with h | ⟨body, hbody, h⟩
    · rw [h]
      exact .nan
    · rcases hbody with hbody | rfl <;> rcases h with h | h <;> rw [h]
      · exact .numeral hbody
      · exact .negative hbody
      · exact .infinity
      · exact .negativeInfinity

/-! ## What becomes of a value -/

namespace Value

mutual

/-- What the printed form of a value is read back as, with `depth` more brackets
allowed around what it holds. -/
def reread? : Nat → Value → Option Value
  | _, .null => some .null
  | _, .bool b => some (.bool b)
  | _, .number n => n.reread?.map .number
  | _, .string s => some (.string s)
  | 0, .array _ => none
  | depth + 1, .array items => (rereadItems? depth items).map .array
  | 0, .object _ => none
  | depth + 1, .object members => (rereadMembers? depth members).map .object

/-- What the printed items are read back as. -/
def rereadItems? : Nat → List Value → Option (List Value)
  | _, [] => some []
  | depth, v :: rest => do
    let v ← reread? depth v
    let rest ← rereadItems? depth rest
    return v :: rest

/-- What the printed members are read back as. -/
def rereadMembers? : Nat → List (String × Value) → Option (List (String × Value))
  | _, [] => some []
  | depth, (k, v) :: rest => do
    let v ← reread? depth v
    let rest ← rereadMembers? depth rest
    return (k, v) :: rest

end

end Value

/-! ## What is read back at all, and what unchanged -/

/-- The text of the number is read as some number. -/
def Number.Legible (n : Number) : Prop := n.reread?.isSome = true

/-- The text of the number is read as the same number. -/
def Number.Stable (n : Number) : Prop := n.reread? = some n

/-- An integer of 64 bits, of either sign. -/
def Number.Exact : Number → Prop
  | .integer i => Int64.minValue.toInt ≤ i ∧ i < UInt64.size
  | .real _ => False

/-- Only the text of a float can be read back as another number. -/
theorem Number.Exact.stable {n : Number} (h : n.Exact) : n.Stable := by
  cases n with
  | real x => exact h.elim
  | integer i =>
    obtain ⟨hmin, hmax⟩ := h
    rw [Number.Stable, Number.reread?, Number.text, integerText, String.toList_ofList]
    by_cases hneg : i < 0
    · have habs : i = -(i.natAbs : Int) := by omega
      rw [if_pos hneg, numberOf?,
        (finds_negative (n := i.natAbs) (by omega) (by omega)).alone, ← habs]
    · have habs : i = (i.natAbs : Int) := by omega
      obtain ⟨c, cs, hc, hdigit⟩ := numeral_head (numeral_digitsOf i.natAbs)
      have hfinds := (finds_natural (n := i.natAbs) (by omega)).alone
      rw [if_neg hneg, hc, numberOf?_digit hdigit, ← hc, hfinds, ← habs]

theorem Number.Stable.legible {n : Number} (h : n.Stable) : n.Legible := by
  rw [Number.Legible, h]
  rfl

namespace Value

mutual

/-- A printed value is read again exactly when it nests no deeper than the reader
allows and every number is legible. -/
theorem isSome_reread?_iff (depth : Nat) (v : Value) :
    (v.reread? depth).isSome = true ↔ v.Fits Number.Legible depth := by
  match depth, v with
  | _, .null | _, .bool _ | _, .string _ => simp [reread?]
  | _, .number n => rw [reread?, Option.isSome_map, fits_number, Number.Legible]
  | 0, .array _ | 0, .object _ => simp [reread?]
  | depth + 1, .array items =>
    rw [reread?, Option.isSome_map, isSome_rereadItems?_iff depth items, Fits]
  | depth + 1, .object members =>
    rw [reread?, Option.isSome_map, isSome_rereadMembers?_iff depth members, Fits]

theorem isSome_rereadItems?_iff (depth : Nat) (items : List Value) :
    (rereadItems? depth items).isSome = true ↔ FitsItems Number.Legible depth items := by
  match items with
  | [] => simp [rereadItems?, FitsItems]
  | v :: items =>
    rw [FitsItems, ← isSome_reread?_iff depth v, ← isSome_rereadItems?_iff depth items,
      rereadItems?]
    cases v.reread? depth <;> cases rereadItems? depth items <;> simp

theorem isSome_rereadMembers?_iff (depth : Nat) (members : List (String × Value)) :
    (rereadMembers? depth members).isSome = true ↔ FitsMembers Number.Legible depth members := by
  match members with
  | [] => simp [rereadMembers?, FitsMembers]
  | (k, v) :: members =>
    rw [FitsMembers, ← isSome_reread?_iff depth v, ← isSome_rereadMembers?_iff depth members,
      rereadMembers?]
    cases v.reread? depth <;> cases rereadMembers? depth members <;> simp

end

mutual

/-- A value whose numbers are read back as they were is itself read back as it was. -/
theorem reread?_of_stable {depth : Nat} {v : Value} (h : v.Fits Number.Stable depth) :
    v.reread? depth = some v := by
  match depth, v, h with
  | _, .null, _ | _, .bool _, _ | _, .string _, _ => simp [reread?]
  | _, .number n, h => rw [reread?, show n.reread? = some n from fits_number.mp h, Option.map_some]
  | 0, .array _, h => exact absurd h not_fits_array_zero
  | 0, .object _, h => exact absurd h not_fits_object_zero
  | depth + 1, .array items, h => rw [reread?, rereadItems?_of_stable h, Option.map_some]
  | depth + 1, .object members, h => rw [reread?, rereadMembers?_of_stable h, Option.map_some]

theorem rereadItems?_of_stable {depth : Nat} {items : List Value}
    (h : FitsItems Number.Stable depth items) : rereadItems? depth items = some items := by
  match items, h with
  | [], _ => rfl
  | v :: items, h =>
    rw [rereadItems?, reread?_of_stable h.1, rereadItems?_of_stable h.2]
    rfl

theorem rereadMembers?_of_stable {depth : Nat} {members : List (String × Value)}
    (h : FitsMembers Number.Stable depth members) :
    rereadMembers? depth members = some members := by
  match members, h with
  | [], _ => rfl
  | (k, v) :: members, h =>
    rw [rereadMembers?, reread?_of_stable h.1, rereadMembers?_of_stable h.2]
    rfl

end

end Value

end Announcer.Json
