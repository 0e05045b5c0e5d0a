import Announcer.Proofs.Json.Reader
/-!
# What the reader yields

Every value that is read is ordered, nests no deeper than the reader allows, and its
integers are of 64 bits. One lemma says what every list holds of its items and one what
every object keeps as its members are put in; `value_sound` puts them
together by induction on the brackets that are left.

Results: `value_sound`, `parse_sound`.
-/
namespace Announcer.Json

/-! ## Numbers -/

/-- An integer is one of 64 bits, of either sign. -/
def Number.InRange (n : Number) : Prop := ∀ i, n = .integer i → n.Exact

theorem inRange_real (x : Float) : (Number.real x).InRange := by
  intro i h
  cases h

theorem inRange_integer {i : Int} (h : Int64.minValue.toInt ≤ i ∧ i < UInt64.size) :
    (Number.integer i).InRange := fun _ _ => h

/-- The digits read so far fit 64 bits. -/
def Scan.Fits (s : Scan) : Prop := s.significand < UInt64.size

theorem digitValue_lt {c : Char} (hc : c.isDigit = true) : digitValue c < 10 := by
  have h := Char.isDigit_iff_toNat.mp hc
  have hzero : '0'.toNat = 48 := rfl
  have hnine : '9'.toNat = 57 := rfl
  unfold digitValue
  omega

theorem Scan.Fits.integerDigit {s : Scan} (h : s.Fits) (c : Char) : (s.integerDigit c).Fits := by
  unfold Scan.integerDigit
  split
  · next grown _ hgrown =>
    unfold grown? at hgrown
    simp only at hgrown
    split at hgrown
    · next hlt =>
      cases hgrown
      exact hlt
    · cases hgrown
  · exact h

theorem Scan.Fits.foldl {s : Scan} (h : s.Fits) (digits : List Char) :
    (digits.foldl Scan.integerDigit s).Fits := by
  induction digits generalizing s with
  | nil => exact h
  | cons c digits ih => exact ih (h.integerDigit c)

theorem inRange_float {s : Scan} {positive : Bool} {cs rest : List Char} {n : Number}
    (h : s.float positive cs = .ok (n, rest)) : n.InRange := by
  unfold Scan.float at h
  split at h
  · cases h
    exact inRange_real _
  · cases h

theorem ok_of_ite {ε α : Type} {c : Prop} [Decidable c] {e : ε} {x y : α}
    (h : (if c then Except.error e else .ok x) = .ok y) : x = y := by
  split at h
  · cases h
  · cases h
    rfl

theorem inRange_exponent {s : Scan} {positive : Bool} {cs rest : List Char} {n : Number}
    (h : exponent s positive cs = .ok (n, rest)) : n.InRange := by
  unfold exponent at h
  simp only at h
  split at h
  · cases h
  · split at h
    · split at h
      · exact inRange_float h
      · cases ok_of_ite h
        exact inRange_real _
    · cases h

theorem inRange_fraction {s : Scan} {positive : Bool} {cs rest : List Char} {n : Number}
    (h : fraction s positive cs = .ok (n, rest)) : n.InRange := by
  rw [fraction] at h
  split at h
  · cases h
  · cases h
  · simp only at h
    split at h
    · exact inRange_exponent h
    · exact inRange_exponent h
    · exact inRange_float h

theorem inRange_tail {s : Scan} (hs : s.Fits) {positive : Bool} {cs rest : List Char}
    {n : Number} (h : number.tail positive s cs = .ok (n, rest)) : n.InRange := by
  have hmin : Int64.minValue.toInt = -9223372036854775808 := by decide
  unfold number.tail at h
  split at h
  · exact inRange_fraction h
  · exact inRange_exponent h
  · exact inRange_exponent h
  · split at h
    · exact inRange_float h
    · split at h
      · cases h
        have hsize : s.significand < UInt64.size := hs
        exact inRange_integer ⟨by omega, by omega⟩
      · split at h
        · next hneg =>
          cases h
          have hsize : s.significand < UInt64.size := hs
          exact inRange_integer ⟨hneg.2, by omega⟩
        · exact inRange_float h

theorem inRange_number {positive : Bool} {cs rest : List Char} {n : Number}
    (h : number positive cs = .ok (n, rest)) : n.InRange := by
  unfold number at h
  split at h
  · cases h
  · split at h
    · cases h
    · have hzero : Scan.Fits ⟨0, 0, false⟩ := show 0 < UInt64.size by decide
      exact inRange_tail hzero h
  · split at h
    · next c _ _ hc =>
      have hfirst : Scan.Fits ⟨digitValue c, 0, false⟩ :=
        Nat.lt_trans (digitValue_lt hc) (by decide)
      exact inRange_tail (hfirst.foldl _) h
    · cases h

/-! ## Lists and objects -/

theorem forall_mem_of_listTail {α : Type} {item : List Char → Reading α} {P : α → Prop}
    (hitem : ∀ cs x rest, item cs = .ok (x, rest) → P x) {n : Nat} {acc l : List α}
    {cs rest : List Char} (hacc : ∀ x ∈ acc, P x)
    (h : listTail item n acc cs = .ok (l, rest)) : ∀ x ∈ l, P x := by
  induction n generalizing acc cs with
  | zero => cases h
  | succ n ih =>
    rw [listTail] at h
    split at h
    · cases h
    · cases h
      simpa using hacc
    · split at h
      · cases h
      · cases h
      · split at h
        · cases h
        · next hread => exact ih (List.forall_mem_cons.mpr ⟨hitem _ _ _ hread, hacc⟩) h
    · cases h

/-- What holds of every item that can be read holds of the items of every list. -/
theorem forall_mem_of_list {α : Type} {item : List Char → Reading α} {P : α → Prop}
    (hitem : ∀ cs x rest, item cs = .ok (x, rest) → P x) {n : Nat} {l : List α}
    {cs rest : List Char} (h : list item n cs = .ok (l, rest)) : ∀ x ∈ l, P x := by
  rw [list] at h
  split at h
  · cases h
  · cases h
    simp
  · split at h
    · cases h
    · next hread =>
      exact forall_mem_of_listTail hitem (List.forall_mem_singleton.mpr (hitem _ _ _ hread)) h

section Members
variable {σ : Type} {member : σ → String → List Char → Reading σ} {P : σ → Prop}

theorem keyed_keeps (hmember : ∀ acc k cs acc' rest, P acc → member acc k cs = .ok (acc', rest) →
    P acc') {acc acc' : σ} {cs rest : List Char} (hacc : P acc)
    (h : keyed member acc cs = .ok (acc', rest)) : P acc' := by
  rw [keyed] at h
  split at h
  · cases h
  · exact hmember _ _ _ _ _ hacc h

theorem membersTail_keeps (hmember : ∀ acc k cs acc' rest, P acc →
    member acc k cs = .ok (acc', rest) → P acc') {n : Nat} {acc acc' : σ} {cs rest : List Char}
    (hacc : P acc) (h : membersTail member n acc cs = .ok (acc', rest)) : P acc' := by
  induction n generalizing acc cs with
  | zero => cases h
  | succ n ih =>
    rw [membersTail] at h
    split at h
    · cases h
    · cases h
      exact hacc
    · split at h
      · cases h
      · split at h
        · cases h
        · next hread => exact ih (keyed_keeps hmember hacc hread) h
      · cases h
      · cases h
    · cases h

/-- What every member keeps is kept by the whole object. -/
theorem members_keeps (hmember : ∀ acc k cs acc' rest, P acc →
    member acc k cs = .ok (acc', rest) → P acc') {n : Nat} {start acc : σ} {cs rest : List Char}
    (hstart : P start) (h : members member n start cs = .ok (acc, rest)) : P acc := by
  rw [members] at h
  split at h
  · cases h
  · cases h
    exact hstart
  · split at h
    · cases h
    · next hread => exact membersTail_keeps hmember (keyed_keeps hmember hstart hread) h
  · cases h

end Members

/-! ## Values -/

/-- What is known of every value that is read with so many brackets left. -/
abbrev Value.Sound (depth : Nat) (v : Value) : Prop := v.Ordered ∧ v.Fits Number.InRange depth

theorem map_eq_ok {ε α β : Type} {f : α → β} {e : Except ε α} {y : β} (h : e.map f = .ok y) :
    ∃ x, e = .ok x ∧ f x = y := by
  cases e with
  | error => cases h
  | ok x =>
    cases h
    exact ⟨x, rfl, rfl⟩

/-- What was read with so many brackets left: a value without parts, or a list or an object
of values that were read with one bracket less. -/
inductive Yield (budget : Nat) : Nat → Value → Prop where
  | null {depth : Nat} : Yield budget depth .null
  | bool {depth : Nat} (b : Bool) : Yield budget depth (.bool b)
  | string {depth : Nat} (s : String) : Yield budget depth (.string s)
  | number {depth : Nat} {n : Number} (h : n.InRange) : Yield budget depth (.number n)
  | array {depth : Nat} {items : List Value} {cs rest : List Char}
      (h : list (value budget depth) budget cs = .ok (items, rest)) :
      Yield budget (depth + 1) (.array items)
  | object {depth : Nat} {l : List (String × Value)} {cs rest : List Char}
      (h : members (readMember (value budget depth)) budget [] cs = .ok (l, rest)) :
      Yield budget (depth + 1) (.object l)

theorem yield {budget depth : Nat} {cs rest : List Char} {v : Value}
    (h : value budget depth cs = .ok (v, rest)) : Yield budget depth v := by
  unfold value at h
  split at h
  · cases h
  · obtain ⟨r, -, he⟩ := map_eq_ok h
    cases he
    exact .null
  · obtain ⟨r, -, he⟩ := map_eq_ok h
    cases he
    exact .bool true
  · obtain ⟨r, -, he⟩ := map_eq_ok h
    cases he
    exact .bool false
  · obtain ⟨r, hr, he⟩ := map_eq_ok h
    cases he
    exact .number (inRange_number hr)
  · obtain ⟨r, -, he⟩ := map_eq_ok h
    cases he
    exact .string r.1
  · cases depth with
    | zero => cases h
    | succ depth =>
      obtain ⟨r, hr, he⟩ := map_eq_ok h
      cases he
      exact .array hr
  · cases depth with
    | zero => cases h
    | succ depth =>
      obtain ⟨r, hr, he⟩ := map_eq_ok h
      cases he
      exact .object hr
  · split at h
    · obtain ⟨r, hr, he⟩ := map_eq_ok h
      cases he
      exact .number (inRange_number hr)
    · cases h

theorem readMember_keeps {item : List Char → Reading Value} {P : Value → Prop}
    (hitem : ∀ cs v rest, item cs = .ok (v, rest) → P v) (acc : List (String × Value))
    (k : String) (cs : List Char) (acc' : List (String × Value)) (rest : List Char)
    (hacc : Entries.Ascending acc ∧ ∀ e ∈ acc, P e.2)
    (h : readMember item acc k cs = .ok (acc', rest)) :
    Entries.Ascending acc' ∧ ∀ e ∈ acc', P e.2 := by
  rw [readMember] at h
  split at h
  · cases h
  · obtain ⟨r, hr, he⟩ := map_eq_ok h
    cases he
    refine ⟨Entries.ascending_insert k r.1 hacc.1, fun e he => ?_⟩
    rcases Entries.mem_of_mem_insert he with rfl | he
    · exact hitem _ _ _ hr
    · exact hacc.2 e he

theorem Yield.sound {budget depth : Nat} {v : Value} (h : Yield budget depth v)
    (hparts : ∀ less, depth = less + 1 → ∀ cs v rest, value budget less cs = .ok (v, rest) →
      v.Sound less) : v.Sound depth := by
  cases h with
  | null => exact ⟨trivial, Value.fits_null⟩
  | bool b => exact ⟨trivial, Value.fits_bool b⟩
  | string s => exact ⟨trivial, Value.fits_string s⟩
  | number hn => exact ⟨trivial, Value.fits_number.mpr hn⟩
  | array hl =>
    have hall := forall_mem_of_list (hparts _ rfl) hl
    exact ⟨Value.ordered_array.mpr fun v hv => (hall v hv).1,
      Value.fits_array_succ.mpr fun v hv => (hall v hv).2⟩
  | object hl =>
    obtain ⟨hasc, hall⟩ :=
      members_keeps (readMember_keeps (hparts _ rfl)) ⟨List.Pairwise.nil, by simp⟩ hl
    exact ⟨Value.ordered_object.mpr ⟨hasc, fun e he => (hall e he).1⟩,
      Value.fits_object_succ.mpr fun e he => (hall e he).2⟩

theorem value_sound {budget depth : Nat} {cs rest : List Char} {v : Value}
    (h : value budget depth cs = .ok (v, rest)) : v.Sound depth := by
  induction depth generalizing cs v rest with
  | zero =>
    apply (yield h).sound
    intro less hless
    omega
  | succ depth ih =>
    apply (yield h).sound
    intro less hless cs v rest hread
    cases hless
    exact ih hread

/-- A value that a text holds is ordered, nests no deeper than the reader allows, and its
integers are of 64 bits. -/
theorem parse_sound {text : String} {v : Value} (h : parse text = .ok v) :
    v.Ordered ∧ v.Fits Number.InRange maxDepth := by
  unfold parse at h
  simp only at h
  split at h
  · cases h
  · next r hread =>
    unfold ended at h
    split at h
    · cases h
      exact value_sound hread
    · cases h

/-- The number is an integer. -/
def Number.IsInteger (n : Number) : Prop := ∃ i, n = .integer i

/-- The integers of a text are read back as they were. -/
theorem fits_stable_of_parse {text : String} {v : Value} {depth : Nat} (h : parse text = .ok v)
    (hv : v.Fits Number.IsInteger depth) : v.Fits Number.Stable depth := by
  refine hv.both (fun n hn hrange => ?_) (parse_sound h).2
  obtain ⟨i, hi⟩ := hn
  exact (hrange i hi).stable

end Announcer.Json
