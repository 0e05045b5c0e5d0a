import Announcer.Json.Reader
import Announcer.Proofs.Json.Printed
/-!
# Strings read back

A character is printed as itself, behind a backslash by letter, or by its number
in four digits (`escape_cases`). The reader undoes each of the three, so it reads
a quoted string back whatever characters it has and whatever stands behind it.

Results: `stringTail_escaped`, `stringTail_quoted`.
-/
namespace Announcer.Json

/-! ## Characters -/

theorem hexValue?_hexDigit {n : Nat} (h : n < 16) : hexValue? (hexDigit n) = some n := by
  have all : ∀ n : Fin 16, hexValue? (hexDigit n) = some n.val := by decide
  exact all ⟨n, h⟩

theorem hex4?_hexDigits {n : Nat} (h : n < 256) :
    hex4? '0' '0' (hexDigit (n / 16)) (hexDigit (n % 16)) = some n := by
  have hzero : hexValue? '0' = some 0 := by decide
  have hhigh := hexValue?_hexDigit (show n / 16 < 16 by omega)
  have hlow := hexValue?_hexDigit (Nat.mod_lt n (show 16 > 0 by omega))
  simp only [hex4?, hzero, hhigh, hlow, Option.bind_eq_bind, Option.bind_some, Option.pure_def,
    Option.some.injEq]
  omega

/-- The three forms of a character inside a string. -/
theorem escape_cases (c : Char) :
    (escape c = [c] ∧ c ≠ '"' ∧ c ≠ '\\' ∧ 0x20 ≤ c.toNat) ∨
      (∃ letter, letter ≠ 'u' ∧ escape c = ['\\', letter] ∧ letterEscape? letter = some c) ∨
      ∃ a b, escape c = ['\\', 'u', '0', '0', a, b] ∧ hex4? '0' '0' a b = some c.toNat ∧
        c.toNat < 0x20 := by
  have hchar : ∀ n, c.toNat = n → c = Char.ofNat n := by
    intro n h
    rw [← h, Char.ofNat_toNat]
  by_cases hquote : c = '"'
  · exact .inr (.inl ⟨'"', by decide, by rw [hquote]; rfl, by rw [hquote]; rfl⟩)
  by_cases hslash : c = '\\'
  · exact .inr (.inl ⟨'\\', by decide, by rw [hslash]; rfl, by rw [hslash]; rfl⟩)
  by_cases hlow : 0x20 ≤ c.toNat
  · exact .inl ⟨by rw [escape, if_neg hquote, if_neg hslash, if_pos hlow], hquote, hslash, hlow⟩
  -- Five control characters have a letter of their own.
  by_cases hb : c.toNat = 0x08
  · exact .inr (.inl ⟨'b', by decide, by rw [hchar _ hb]; rfl, by rw [hchar _ hb]; rfl⟩)
  by_cases ht : c.toNat = 0x09
  · exact .inr (.inl ⟨'t', by decide, by rw [hchar _ ht]; rfl, by rw [hchar _ ht]; rfl⟩)
  by_cases hn : c.toNat = 0x0A
  · exact .inr (.inl ⟨'n', by decide, by rw [hchar _ hn]; rfl, by rw [hchar _ hn]; rfl⟩)
  by_cases hf : c.toNat = 0x0C
  · exact .inr (.inl ⟨'f', by decide, by rw [hchar _ hf]; rfl, by rw [hchar _ hf]; rfl⟩)
  by_cases hr : c.toNat = 0x0D
  · exact .inr (.inl ⟨'r', by decide, by rw [hchar _ hr]; rfl, by rw [hchar _ hr]; rfl⟩)
  have hescape : escape c =
      ['\\', 'u', '0', '0', hexDigit (c.toNat / 16), hexDigit (c.toNat % 16)] := by
    rw [escape, if_neg hquote, if_neg hslash, if_neg hlow, if_neg hb, if_neg ht, if_neg hn,
      if_neg hf, if_neg hr]
  exact .inr (.inr ⟨_, _, hescape, hex4?_hexDigits (by omega), by omega⟩)

/-! ## One step of the reader -/

theorem stringTail_letter {letter c : Char} (acc rest : List Char) (hu : letter ≠ 'u')
    (h : letterEscape? letter = some c) :
    stringTail acc ('\\' :: letter :: rest) = stringTail (c :: acc) rest := by
  rw [stringTail]
  · rw [h]
  all_goals simp_all

theorem stringTail_number {a b c d : Char} {n : Nat} (acc rest : List Char)
    (h : hex4? a b c d = some n) (hn : n < 0x20) :
    stringTail acc ('\\' :: 'u' :: a :: b :: c :: d :: rest) =
      stringTail (Char.ofNat n :: acc) rest := by
  have htrailing : isTrailing n = false := by simp [isTrailing]; omega
  have hleading : isLeading n = false := by simp [isLeading]; omega
  rw [stringTail, h]
  simp [htrailing, hleading]

theorem stringTail_plain {c : Char} (acc rest : List Char) (hquote : c ≠ '"') (hslash : c ≠ '\\')
    (h : 0x20 ≤ c.toNat) : stringTail acc (c :: rest) = stringTail (c :: acc) rest := by
  rw [stringTail]
  · rw [if_neg (by omega)]
  all_goals simp_all

theorem stringTail_escape (acc rest : List Char) (c : Char) :
    stringTail acc (escape c ++ rest) = stringTail (c :: acc) rest := by
  rcases escape_cases c with ⟨he, hquote, hslash, hc⟩ | ⟨letter, hu, he, hc⟩ | ⟨a, b, he, hc, hlow⟩
  · rw [he]
    exact stringTail_plain acc rest hquote hslash hc
  · rw [he]
    exact stringTail_letter acc rest hu hc
  · rw [he]
    have h := stringTail_number acc rest hc hlow
    rwa [Char.ofNat_toNat] at h

/-! ## Whole strings -/

theorem stringTail_escaped (acc cs rest : List Char) :
    stringTail acc (cs.flatMap escape ++ '"' :: rest) =
      .ok (String.ofList (acc.reverse ++ cs), rest) := by
  induction cs generalizing acc with
  | nil => simp [stringTail]
  | cons c cs ih =>
    rw [List.flatMap_cons, List.append_assoc, stringTail_escape, ih]
    simp

/-- A quoted string is read back, behind its opening quote. -/
theorem stringTail_quoted (s : String) (rest : List Char) :
    stringTail [] (s.toList.flatMap escape ++ '"' :: rest) = .ok (s, rest) := by
  rw [stringTail_escaped, List.reverse_nil, List.nil_append, String.ofList_toList]

end Announcer.Json
