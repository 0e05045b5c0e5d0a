import Announcer.Json.Canonical
import Announcer.Proofs.StringMap
/-!
# The shape of a value

Two properties that hold of a value when they hold of all its parts. In an
ordered value the members of every object ascend (`Value.Ordered`). A value fits into so
many brackets when it nests no deeper, and `p` holds of its numbers
(`Value.Fits p`). The canonical form of a value is ordered, and fits
exactly where the value did: it moves items and members about and loses none.

Results:
* `ordered_canonicalUnder`: every canonical form is ordered.
* `fits_canonicalUnder`: the canonical form of an ordered value nests as deep as the value
  and has its numbers.
-/
namespace Announcer.Json.Value

/-! ## Order -/

mutual

/-- The members of every object ascend. -/
def Ordered : Value → Prop
  | .array items => OrderedItems items
  | .object members => Entries.Ascending members ∧ OrderedMembers members
  | _ => True

/-- The members of every object in the items ascend. -/
def OrderedItems : List Value → Prop
  | [] => True
  | v :: rest => v.Ordered ∧ OrderedItems rest

/-- The members of every object in the values ascend. -/
def OrderedMembers : List (String × Value) → Prop
  | [] => True
  | (_, v) :: rest => v.Ordered ∧ OrderedMembers rest

end

theorem orderedItems_iff {items : List Value} : OrderedItems items ↔ ∀ v ∈ items, v.Ordered := by
  induction items with
  | nil => simp [OrderedItems]
  | cons v items ih => simp [OrderedItems, ih]

theorem orderedMembers_iff {members : List (String × Value)} :
    OrderedMembers members ↔ ∀ e ∈ members, e.2.Ordered := by
  induction members with
  | nil => simp [OrderedMembers]
  | cons e members ih =>
    obtain ⟨k, v⟩ := e
    simp only [OrderedMembers, ih, List.forall_mem_cons]

@[simp] theorem ordered_string (s : String) : (Value.string s).Ordered := trivial

@[simp] theorem ordered_bool (b : Bool) : (Value.bool b).Ordered := trivial

@[simp] theorem ordered_number (n : Number) : (Value.number n).Ordered := trivial

@[simp] theorem ordered_array {items : List Value} :
    (Value.array items).Ordered ↔ ∀ v ∈ items, v.Ordered := orderedItems_iff

theorem ordered_object {members : List (String × Value)} :
    (Value.object members).Ordered ↔
      Entries.Ascending members ∧ ∀ e ∈ members, e.2.Ordered :=
  and_congr_right fun _ => orderedMembers_iff

theorem ordered_ofMembers {l : List (String × Value)} (h : ∀ e ∈ l, e.2.Ordered) :
    (Value.ofMembers l).Ordered :=
  ordered_object.mpr ⟨Entries.ascending_ofList l,
    fun e he => h e (Entries.mem_of_mem_ofList he)⟩

/-! ## Depth and numbers -/

section Fits
variable (p : Number → Prop)

mutual

/-- At most so many brackets stand around anything inside, and `p` holds of every number. -/
def Fits : Nat → Value → Prop
  | _, .number n => p n
  | 0, .array _ => False
  | depth + 1, .array items => FitsItems depth items
  | 0, .object _ => False
  | depth + 1, .object members => FitsMembers depth members
  | _, _ => True

/-- Every item fits. -/
def FitsItems : Nat → List Value → Prop
  | _, [] => True
  | depth, v :: rest => Fits depth v ∧ FitsItems depth rest

/-- The value of every member fits. -/
def FitsMembers : Nat → List (String × Value) → Prop
  | _, [] => True
  | depth, (_, v) :: rest => Fits depth v ∧ FitsMembers depth rest

end

variable {p} {depth : Nat}

theorem fitsItems_iff {items : List Value} :
    FitsItems p depth items ↔ ∀ v ∈ items, v.Fits p depth := by
  induction items with
  | nil => simp [FitsItems]
  | cons v items ih => simp [FitsItems, ih]

theorem fitsMembers_iff {members : List (String × Value)} :
    FitsMembers p depth members ↔ ∀ e ∈ members, e.2.Fits p depth := by
  induction members with
  | nil => simp [FitsMembers]
  | cons e members ih =>
    obtain ⟨k, v⟩ := e
    simp only [FitsMembers, ih, List.forall_mem_cons]

@[simp] theorem fits_null : Value.null.Fits p depth := trivial

@[simp] theorem fits_bool (b : Bool) : (Value.bool b).Fits p depth := trivial

@[simp] theorem fits_string (s : String) : (Value.string s).Fits p depth := trivial

@[simp] theorem fits_number {n : Number} : (Value.number n).Fits p depth ↔ p n := Iff.rfl

@[simp] theorem fits_array_succ {items : List Value} :
    (Value.array items).Fits p (depth + 1) ↔ ∀ v ∈ items, v.Fits p depth := fitsItems_iff

@[simp] theorem fits_object_succ {members : List (String × Value)} :
    (Value.object members).Fits p (depth + 1) ↔ ∀ e ∈ members, e.2.Fits p depth :=
  fitsMembers_iff

@[simp] theorem not_fits_array_zero {items : List Value} : ¬ (Value.array items).Fits p 0 := id

@[simp] theorem not_fits_object_zero {members : List (String × Value)} :
    ¬ (Value.object members).Fits p 0 := id

theorem fits_ofMembers {l : List (String × Value)} (h : ∀ e ∈ l, e.2.Fits p depth) :
    (Value.ofMembers l).Fits p (depth + 1) :=
  fits_object_succ.mpr fun e he => h e (Entries.mem_of_mem_ofList he)

end Fits

mutual

/-- What is known of the numbers from two sides, at the depth known from the first. -/
theorem Fits.both {p q r : Number → Prop} (hboth : ∀ n, p n → q n → r n) {depth more : Nat}
    {v : Value} (h : v.Fits p depth) (h' : v.Fits q more) : v.Fits r depth := by
  match depth, more, v, h, h' with
  | _, _, .null, _, _ => exact fits_null
  | _, _, .bool b, _, _ => exact fits_bool b
  | _, _, .string s, _, _ => exact fits_string s
  | _, _, .number n, h, h' =>
    exact fits_number.mpr (hboth n (fits_number.mp h) (fits_number.mp h'))
  | depth + 1, more + 1, .array items, h, h' => exact FitsItems.both hboth h h'
  | depth + 1, more + 1, .object members, h, h' => exact FitsMembers.both hboth h h'
  | 0, _, .array items, h, _ => exact absurd h not_fits_array_zero
  | 0, _, .object members, h, _ => exact absurd h not_fits_object_zero
  | _, 0, .array items, _, h' => exact absurd h' not_fits_array_zero
  | _, 0, .object members, _, h' => exact absurd h' not_fits_object_zero

theorem FitsItems.both {p q r : Number → Prop} (hboth : ∀ n, p n → q n → r n)
    {depth more : Nat} {items : List Value} (h : FitsItems p depth items)
    (h' : FitsItems q more items) : FitsItems r depth items := by
  match items, h, h' with
  | [], _, _ => trivial
  | v :: items, h, h' => exact ⟨Fits.both hboth h.1 h'.1, FitsItems.both hboth h.2 h'.2⟩

theorem FitsMembers.both {p q r : Number → Prop} (hboth : ∀ n, p n → q n → r n)
    {depth more : Nat} {members : List (String × Value)} (h : FitsMembers p depth members)
    (h' : FitsMembers q more members) : FitsMembers r depth members := by
  match members, h, h' with
  | [], _, _ => trivial
  | (k, v) :: members, h, h' =>
    exact ⟨Fits.both hboth h.1 h'.1, FitsMembers.both hboth h.2 h'.2⟩

end

/-! ## The canonical form -/

theorem canonicalItems_eq (items : List Value) :
    canonicalItems items = items.map (canonicalUnder none) := by
  induction items with
  | nil => rfl
  | cons v items ih => rw [canonicalItems, ih, List.map_cons]

theorem canonicalMembers_eq (members : List (String × Value)) :
    canonicalMembers members = members.map fun e => (e.1, e.2.canonicalUnder (some e.1)) := by
  induction members with
  | nil => rfl
  | cons e members ih => rw [canonicalMembers, ih, List.map_cons]

theorem perm_sortByText (items : List Value) : (sortByText items).Perm items := by
  have h := (List.mergeSort_perm (items.map fun v => (v.text, v))
    fun a b => decide (a.1 ≤ b.1)).map Prod.snd
  simpa [sortByText, Function.comp_def] using h

theorem mem_sortByText {items : List Value} {v : Value} : v ∈ sortByText items ↔ v ∈ items :=
  (perm_sortByText items).mem_iff

/-- The items of a canonical array are those of the array, each canonical, perhaps sorted. -/
theorem canonicalUnder_array (key : Option String) (items : List Value) :
    ∃ sorted, (Value.array items).canonicalUnder key = .array sorted ∧
      ∀ v, v ∈ sorted ↔ ∃ w ∈ items, w.canonicalUnder none = v := by
  cases key with
  | none => exact ⟨_, rfl, fun v => by rw [canonicalItems_eq, List.mem_map]⟩
  | some k =>
    refine ⟨_, rfl, fun v => ?_⟩
    split
    · rw [mem_sortByText, canonicalItems_eq, List.mem_map]
    · rw [canonicalItems_eq, List.mem_map]

theorem canonicalUnder_object (key : Option String) (members : List (String × Value)) :
    (Value.object members).canonicalUnder key =
      .ofMembers (members.map fun e => (e.1, e.2.canonicalUnder (some e.1))) := by
  rw [canonicalUnder, canonicalMembers_eq, ofMembers]

/-- Members that ascend are only made canonical, each in its place. -/
theorem canonicalUnder_object_of_ascending (key : Option String)
    {members : List (String × Value)} (h : Entries.Ascending members) :
    (Value.object members).canonicalUnder key =
      .object (members.map fun e => (e.1, e.2.canonicalUnder (some e.1))) := by
  have hmap : Entries.Ascending
      (members.map fun e => (e.1, e.2.canonicalUnder (some e.1))) := List.pairwise_map.mpr h
  rw [canonicalUnder_object, ofMembers, Entries.ofList_eq_self hmap]

mutual

/-- A canonical form is ordered, whatever the value was. -/
theorem ordered_canonicalUnder (key : Option String) (v : Value) :
    (v.canonicalUnder key).Ordered := by
  match v with
  | .null | .bool _ | .number _ | .string _ => trivial
  | .array items =>
    obtain ⟨sorted, he, hmem⟩ := canonicalUnder_array key items
    rw [he, ordered_array]
    intro w hw
    obtain ⟨v, hv, rfl⟩ := (hmem w).mp hw
    exact ordered_items items v hv
  | .object members =>
    rw [canonicalUnder_object]
    refine ordered_ofMembers fun e he => ?_
    obtain ⟨member, hmember, rfl⟩ := List.mem_map.mp he
    exact ordered_members members member hmember

theorem ordered_items (items : List Value) : ∀ v ∈ items, (v.canonicalUnder none).Ordered := by
  match items with
  | [] => simp
  | v :: items =>
    exact List.forall_mem_cons.mpr ⟨ordered_canonicalUnder none v, ordered_items items⟩

theorem ordered_members (members : List (String × Value)) :
    ∀ e ∈ members, (e.2.canonicalUnder (some e.1)).Ordered := by
  match members with
  | [] => simp
  | (k, v) :: members =>
    exact List.forall_mem_cons.mpr ⟨ordered_canonicalUnder (some k) v, ordered_members members⟩

end

section Fits
variable {p : Number → Prop}

mutual

/-- The canonical form of an ordered value nests as deep as the value and has its numbers. -/
theorem fits_canonicalUnder (key : Option String) (depth : Nat) (v : Value) (hv : v.Ordered) :
    (v.canonicalUnder key).Fits p depth ↔ v.Fits p depth := by
  match depth, v with
  | _, .null | _, .bool _ | _, .number _ | _, .string _ => exact Iff.rfl
  | 0, .array items =>
    obtain ⟨sorted, he, -⟩ := canonicalUnder_array key items
    rw [he]
    simp
  | depth + 1, .array items =>
    obtain ⟨sorted, he, hmem⟩ := canonicalUnder_array key items
    have hitems := fits_items depth items hv
    rw [he, fits_array_succ, fits_array_succ]
    constructor
    · intro h v hin
      exact (hitems v hin).mp (h _ ((hmem _).mpr ⟨v, hin, rfl⟩))
    · intro h w hw
      obtain ⟨v, hin, rfl⟩ := (hmem w).mp hw
      exact (hitems v hin).mpr (h v hin)
  | 0, .object members =>
    rw [canonicalUnder_object_of_ascending key hv.1]
    simp
  | depth + 1, .object members =>
    have hmembers := fits_members depth members hv.2
    rw [canonicalUnder_object_of_ascending key hv.1, fits_object_succ, fits_object_succ,
      List.forall_mem_map]
    exact forall₂_congr hmembers

theorem fits_items (depth : Nat) (items : List Value) (hv : OrderedItems items) :
    ∀ v ∈ items, (v.canonicalUnder none).Fits p depth ↔ v.Fits p depth := by
  match items, hv with
  | [], _ => simp
  | v :: items, hv =>
    exact List.forall_mem_cons.mpr
      ⟨fits_canonicalUnder none depth v hv.1, fits_items depth items hv.2⟩

theorem fits_members (depth : Nat) (members : List (String × Value))
    (hv : OrderedMembers members) :
    ∀ e ∈ members, (e.2.canonicalUnder (some e.1)).Fits p depth ↔ e.2.Fits p depth := by
  match members, hv with
  | [], _ => simp
  | (k, v) :: members, hv =>
    exact List.forall_mem_cons.mpr
      ⟨fits_canonicalUnder (some k) depth v hv.1, fits_members depth members hv.2⟩

end

end Fits

end Announcer.Json.Value
