import Mathlib.Data.List.Perm.Basic
import Mathlib.Tactic.TFAE
import Announcer.Proofs.Json.Sound
/-!
# What canonical forms decide

Two values are `Alike` when they differ only in the order of the items of unordered
arrays. Such values have canonical forms that are printed alike, whatever numbers they hold:
the texts of the items, and so their order, do not depend on where the items stood. And
values that are read from a text have the same canonical form only if they are alike.

Between the two stands the printed form: a value without floats is read again as it was
printed, so of such values equal texts mean equal canonical forms.

Results:
* `canonicalUnder_canonicalUnder`: canonical forms are their own;
* `text_canonicalUnder`, `alike_of_canonicalUnder_eq`: likeness and canonical forms;
* `canonical_decides`: likeness, equal texts and `equivalent` are the same.
-/
namespace Announcer

/-! ## Entries, one by one -/

namespace Entries

variable {α β : Type} {R : String → α → β → Prop}

/-- The same keys in the same order, with related values. -/
abbrev Linked (R : String → α → β → Prop) : List (String × α) → List (String × β) → Prop :=
  List.Forall₂ fun e m => e.1 = m.1 ∧ R e.1 e.2 m.2

theorem linked_insert {e : String × α} {f : String × β} (hef : e.1 = f.1 ∧ R e.1 e.2 f.2)
    {l : List (String × α)} {m : List (String × β)} (h : Linked R l m) :
    Linked R (insert e.1 e.2 l) (insert f.1 f.2 m) := by
  induction h with
  | nil => exact .cons hef .nil
  | cons hhead hrest ih =>
    simp only [insert, ← hef.1, ← hhead.1]
    split
    · exact .cons ⟨rfl, hef.2⟩ (.cons ⟨rfl, hhead.2⟩ hrest)
    · split
      · exact .cons ⟨rfl, hef.2⟩ hrest
      · exact .cons ⟨rfl, hhead.2⟩ (hef.1 ▸ ih)

theorem linked_ofList {l : List (String × α)} {m : List (String × β)} (h : Linked R l m) :
    Linked R (ofList l) (ofList m) := by
  have hfold : ∀ {l m}, Linked R l m → ∀ {acc acc'}, Linked R acc acc' →
      Linked R (l.foldl (fun acc e => insert e.1 e.2 acc) acc)
        (m.foldl (fun acc e => insert e.1 e.2 acc) acc') := by
    intro l m h
    induction h with
    | nil => exact id
    | cons hhead _ ih => exact fun hacc => ih (linked_insert hhead hacc)
  exact hfold h .nil

end Entries

namespace Json

theorem Number.Exact.isInteger {n : Number} (h : n.Exact) : n.IsInteger := by
  cases n with
  | integer i => exact ⟨i, rfl⟩
  | real x => exact h.elim

namespace Value

/-! ## Sorting by text -/

theorem pairwise_sortByText (items : List Value) :
    (sortByText items).Pairwise fun v w => v.text ≤ w.text := by
  have hsorted := @List.pairwise_mergeSort _ (fun a b : String × Value => decide (a.1 ≤ b.1))
    (fun a b c hab hbc => by simpa using String.le_trans (by simpa using hab) (by simpa using hbc))
    (fun a b => by simpa using String.le_total a.1 b.1) (items.map fun v => (v.text, v))
  refine List.pairwise_map.mpr (hsorted.imp_of_mem fun {a b} ha hb hab => ?_)
  obtain ⟨v, -, rfl⟩ := List.mem_map.mp (List.mem_mergeSort.mp ha)
  obtain ⟨w, -, rfl⟩ := List.mem_map.mp (List.mem_mergeSort.mp hb)
  simpa using hab

/-- Items that are sorted are left as they are. -/
theorem sortByText_eq_self {items : List Value}
    (h : items.Pairwise fun v w => v.text ≤ w.text) : sortByText items = items := by
  have hpairs : (items.map fun v => (v.text, v)).Pairwise
      fun a b => decide (a.1 ≤ b.1) = true := List.pairwise_map.mpr (by simpa using h)
  rw [sortByText, List.mergeSort_of_pairwise hpairs, List.map_map]
  exact List.map_id _

/-- The texts of sorted items do not depend on the order of the items. -/
theorem map_text_sortByText {items items' : List Value}
    (h : (items.map text).Perm (items'.map text)) :
    (sortByText items).map text = (sortByText items').map text := by
  have hsorted : ∀ l, ((sortByText l).map text).Pairwise (· ≤ ·) := fun l =>
    List.pairwise_map.mpr (pairwise_sortByText l)
  exact List.Perm.eq_of_pairwise (fun _ _ _ _ => String.le_antisymm) (hsorted items)
    (hsorted items') ((((perm_sortByText items).map text).trans h).trans
      ((perm_sortByText items').map text).symm)

/-! ## Printing, part by part -/

/-- An array is printed from the texts of its items. -/
theorem text_array_congr {items items' : List Value} (h : items.map text = items'.map text) :
    (Value.array items).text = (Value.array items').text := by
  rw [text_array, text_array, h]

/-- Members with the same keys and texts. -/
abbrev SameTexts : List (String × Value) → List (String × Value) → Prop :=
  Entries.Linked fun _ v w => v.text = w.text

/-- An object is printed from its keys and the texts of its values. -/
theorem text_object_congr {members members' : List (String × Value)}
    (h : SameTexts members members') :
    (Value.object members).text = (Value.object members').text := by
  have hparts : members.map (fun e => quote e.1 ++ ":" ++ e.2.text) =
      members'.map fun e => quote e.1 ++ ":" ++ e.2.text := by
    induction h with
    | nil => rfl
    | cons hhead _ ih => rw [List.map_cons, List.map_cons, ih, hhead.1, hhead.2]
  rw [text_object, text_object, hparts]

/-! ## Canonical arrays -/

/-- The key stands above an array without an order. -/
def Loose (key : Option String) : Prop := ∃ k ∈ key, k ∈ unorderedKeys

theorem canonicalUnder_array_of_loose {key : Option String} (h : Loose key)
    (items : List Value) :
    (Value.array items).canonicalUnder key = .array (sortByText (items.map canonical)) := by
  obtain ⟨k, rfl, hk⟩ := h
  rw [canonicalUnder, if_pos (by simpa using hk), canonicalItems_eq]
  rfl

theorem canonicalUnder_array_of_not_loose {key : Option String} (h : ¬ Loose key)
    (items : List Value) :
    (Value.array items).canonicalUnder key = .array (items.map canonical) := by
  cases key with
  | none => rw [canonicalUnder, canonicalItems_eq]; rfl
  | some k =>
    have hk : ¬ unorderedKeys.contains k = true := fun hk => h ⟨k, rfl, by simpa using hk⟩
    rw [canonicalUnder, if_neg hk, canonicalItems_eq]
    rfl

mutual

/-- The canonical form of a canonical form is itself. -/
theorem canonicalUnder_canonicalUnder (key : Option String) (v : Value) :
    (v.canonicalUnder key).canonicalUnder key = v.canonicalUnder key := by
  match v with
  | .null | .bool _ | .number _ | .string _ => rfl
  | .array items =>
    have hitems := canonical_items items
    by_cases hkey : Loose key
    · have hfixed : ∀ w ∈ sortByText (items.map canonical), w.canonical = w := by
        intro w hw
        obtain ⟨v, hv, rfl⟩ := List.mem_map.mp (mem_sortByText.mp hw)
        exact hitems v hv
      rw [canonicalUnder_array_of_loose hkey, canonicalUnder_array_of_loose hkey,
        List.map_congr_left hfixed, List.map_id', sortByText_eq_self (pairwise_sortByText _)]
    · rw [canonicalUnder_array_of_not_loose hkey, canonicalUnder_array_of_not_loose hkey,
        List.map_map]
      exact congrArg Value.array (List.map_congr_left hitems)
  | .object members =>
    have hmembers := canonical_members members
    have hfixed : ∀ e ∈ Entries.ofList
        (members.map fun e => (e.1, e.2.canonicalUnder (some e.1))),
        (e.1, e.2.canonicalUnder (some e.1)) = e := by
      intro e he
      obtain ⟨m, hm, rfl⟩ := List.mem_map.mp (Entries.mem_of_mem_ofList he)
      exact Prod.ext rfl (hmembers m hm)
    rw [canonicalUnder_object, ofMembers,
      canonicalUnder_object_of_ascending key (Entries.ascending_ofList _),
      List.map_congr_left hfixed, List.map_id']

theorem canonical_items (items : List Value) :
    ∀ v ∈ items, v.canonical.canonical = v.canonical := by
  match items with
  | [] => simp
  | v :: items =>
    exact List.forall_mem_cons.mpr ⟨canonicalUnder_canonicalUnder none v, canonical_items items⟩

theorem canonical_members (members : List (String × Value)) :
    ∀ e ∈ members, (e.2.canonicalUnder (some e.1)).canonicalUnder (some e.1) =
      e.2.canonicalUnder (some e.1) := by
  match members with
  | [] => simp
  | (k, v) :: members =>
    exact List.forall_mem_cons.mpr
      ⟨canonicalUnder_canonicalUnder (some k) v, canonical_members members⟩

end

/-! ## Likeness -/

mutual

/-- Two values under a key differ only in the order of the items of unordered arrays. -/
inductive Alike : Option String → Value → Value → Prop where
  | null {key : Option String} : Alike key .null .null
  | bool {key : Option String} (b : Bool) : Alike key (.bool b) (.bool b)
  | number {key : Option String} (n : Number) : Alike key (.number n) (.number n)
  | string {key : Option String} (s : String) : Alike key (.string s) (.string s)
  | array {key : Option String} {items items' : List Value} (h : AlikeItems items items') :
      Alike key (.array items) (.array items')
  | unordered {k : String} {items order items' : List Value} (hk : k ∈ unorderedKeys)
      (h : AlikeItems items order) (horder : order.Perm items') :
      Alike (some k) (.array items) (.array items')
  | object {key : Option String} {members members' : List (String × Value)}
      (h : AlikeMembers members members') : Alike key (.object members) (.object members')

/-- The items are alike one by one, and no key stands right above them. -/
inductive AlikeItems : List Value → List Value → Prop where
  | nil : AlikeItems [] []
  | cons {v w : Value} {items items' : List Value} (h : Alike none v w)
      (hrest : AlikeItems items items') : AlikeItems (v :: items) (w :: items')

/-- The members have the same keys, and their values are alike one by one. -/
inductive AlikeMembers : List (String × Value) → List (String × Value) → Prop where
  | nil : AlikeMembers [] []
  | cons {k : String} {v w : Value} {members members' : List (String × Value)}
      (h : Alike (some k) v w) (hrest : AlikeMembers members members') :
      AlikeMembers ((k, v) :: members) ((k, w) :: members')

end

mutual

theorem alike_refl (key : Option String) (v : Value) : Alike key v v := by
  match v with
  | .null => exact .null
  | .bool b => exact .bool b
  | .number n => exact .number n
  | .string s => exact .string s
  | .array items => exact .array (alikeItems_refl items)
  | .object members => exact .object (alikeMembers_refl members)

theorem alikeItems_refl (items : List Value) : AlikeItems items items := by
  match items with
  | [] => exact .nil
  | v :: items => exact .cons (alike_refl none v) (alikeItems_refl items)

theorem alikeMembers_refl (members : List (String × Value)) : AlikeMembers members members := by
  match members with
  | [] => exact .nil
  | (k, v) :: members => exact .cons (alike_refl (some k) v) (alikeMembers_refl members)

end

/-- The items of an unordered array may be put into any order. -/
theorem alike_of_perm {k : String} (hk : k ∈ unorderedKeys) {items items' : List Value}
    (h : items.Perm items') : Alike (some k) (.array items) (.array items') :=
  .unordered hk (alikeItems_refl items) h

theorem alikeMembers_iff {members members' : List (String × Value)} :
    AlikeMembers members members' ↔
      Entries.Linked (fun k => Alike (some k)) members members' := by
  constructor
  · intro h
    induction members generalizing members' with
    | nil =>
      cases h
      exact .nil
    | cons e members ih =>
      cases h with
      | cons h hrest => exact .cons ⟨rfl, h⟩ (ih hrest)
  · intro h
    induction h with
    | nil => exact .nil
    | @cons e f _ _ hhead _ ih =>
      obtain ⟨k, v⟩ := e
      obtain ⟨j, w⟩ := f
      obtain ⟨rfl, hvw⟩ := hhead
      exact .cons hvw ih

/-- Objects of members that are alike are alike, also when some replace others. -/
theorem alike_ofMembers {key : Option String} {l m : List (String × Value)}
    (h : Entries.Linked (fun k => Alike (some k)) l m) : Alike key (ofMembers l) (ofMembers m) :=
  .object (alikeMembers_iff.mpr (Entries.linked_ofList h))

mutual

/-- Values that are alike have canonical forms that are printed alike. -/
theorem text_canonicalUnder {key : Option String} {v w : Value} (h : Alike key v w) :
    (v.canonicalUnder key).text = (w.canonicalUnder key).text := by
  cases h with
  | null => rfl
  | bool b => rfl
  | number n => rfl
  | string s => rfl
  | array h =>
    have hitems := map_text_canonical h
    by_cases hkey : Loose key
    · rw [canonicalUnder_array_of_loose hkey, canonicalUnder_array_of_loose hkey]
      exact text_array_congr (map_text_sortByText (.of_eq hitems))
    · rw [canonicalUnder_array_of_not_loose hkey, canonicalUnder_array_of_not_loose hkey]
      exact text_array_congr hitems
  | @unordered k _ _ _ hk h horder =>
    have hitems := map_text_canonical h
    have hkey : Loose (some k) := ⟨k, rfl, hk⟩
    rw [canonicalUnder_array_of_loose hkey, canonicalUnder_array_of_loose hkey]
    refine text_array_congr (map_text_sortByText ?_)
    rw [hitems]
    exact (horder.map canonical).map text
  | object h =>
    rw [canonicalUnder_object, canonicalUnder_object]
    exact text_object_congr (Entries.linked_ofList (sameTexts_canonical h))

theorem map_text_canonical {items items' : List Value} (h : AlikeItems items items') :
    (items.map canonical).map text = (items'.map canonical).map text := by
  cases h with
  | nil => rfl
  | cons h hrest =>
    exact congrArg₂ List.cons (text_canonicalUnder h) (map_text_canonical hrest)

theorem sameTexts_canonical {members members' : List (String × Value)}
    (h : AlikeMembers members members') :
    SameTexts (members.map fun e => (e.1, e.2.canonicalUnder (some e.1)))
      (members'.map fun e => (e.1, e.2.canonicalUnder (some e.1))) := by
  cases h with
  | nil => exact .nil
  | cons h hrest => exact .cons ⟨rfl, text_canonicalUnder h⟩ (sameTexts_canonical hrest)

end

/-! ## From canonical forms back -/

/-- A value without parts. -/
inductive Atom : Value → Prop where
  | null : Atom .null
  | bool (b : Bool) : Atom (.bool b)
  | number (n : Number) : Atom (.number n)
  | string (s : String) : Atom (.string s)

/-- A value and its canonical form are of one kind. -/
inductive Kindred : Value → Value → Prop where
  | atom {v : Value} (h : Atom v) : Kindred v v
  | array (items sorted : List Value) : Kindred (.array items) (.array sorted)
  | object (members sorted : List (String × Value)) : Kindred (.object members) (.object sorted)

theorem kindred_canonicalUnder (key : Option String) (v : Value) :
    Kindred v (v.canonicalUnder key) := by
  cases v with
  | null => exact .atom .null
  | bool b => exact .atom (.bool b)
  | number n => exact .atom (.number n)
  | string s => exact .atom (.string s)
  | array items =>
    obtain ⟨sorted, h, -⟩ := canonicalUnder_array key items
    rw [h]
    exact .array items sorted
  | object members => exact .object members _

section Back
variable {key : Option String} {v w : Value}

theorem Atom.eq_of_canonicalUnder (hv : Atom v)
    (h : v.canonicalUnder key = w.canonicalUnder key) : v = w := by
  have hw := kindred_canonicalUnder key w
  rw [← h, show v.canonicalUnder key = v by cases hv <;> rfl] at hw
  cases hw with
  | atom => rfl
  | array => cases hv
  | object => cases hv

theorem array_of_canonicalUnder {items : List Value}
    (h : (Value.array items).canonicalUnder key = w.canonicalUnder key) :
    ∃ items', w = .array items' := by
  have hw := kindred_canonicalUnder key w
  obtain ⟨sorted, hsorted, -⟩ := canonicalUnder_array key items
  rw [← h, hsorted] at hw
  cases hw with
  | atom h => cases h
  | array items' => exact ⟨items', rfl⟩

theorem object_of_canonicalUnder {members : List (String × Value)}
    (h : (Value.object members).canonicalUnder key = w.canonicalUnder key) :
    ∃ members', w = .object members' := by
  have hw := kindred_canonicalUnder key w
  rw [← h, canonicalUnder_object, ofMembers] at hw
  cases hw with
  | atom h => cases h
  | object members' => exact ⟨members', rfl⟩

end Back

/-- Lists with the same values, where one is given by a function, have an order in common. -/
theorem exists_order_of_perm_map {α β : Type} {f : α → β} {l m : List α}
    (h : (l.map f).Perm (m.map f)) : ∃ order : List α, l.map f = order.map f ∧ order.Perm m := by
  have hcomp := congrFun₂ (List.eq_map_comp_perm f) (l.map f) m
  exact hcomp.mpr h

mutual

/-- Ordered values with one canonical form are alike. -/
theorem alike_of_canonicalUnder_eq (key : Option String) (v w : Value) (hv : v.Ordered)
    (hw : w.Ordered) (h : v.canonicalUnder key = w.canonicalUnder key) : Alike key v w := by
  match v, hv with
  | .null, _ => exact Atom.null.eq_of_canonicalUnder h ▸ alike_refl key _
  | .bool b, _ => exact (Atom.bool b).eq_of_canonicalUnder h ▸ alike_refl key _
  | .number n, _ => exact (Atom.number n).eq_of_canonicalUnder h ▸ alike_refl key _
  | .string s, _ => exact (Atom.string s).eq_of_canonicalUnder h ▸ alike_refl key _
  | .array items, hv =>
    obtain ⟨items', rfl⟩ := array_of_canonicalUnder h
    rw [ordered_array] at hw
    by_cases hkey : Loose key
    · rw [canonicalUnder_array_of_loose hkey, canonicalUnder_array_of_loose hkey,
        Value.array.injEq] at h
      -- the sorted items are those of either array, so the second can be put in the order
      -- of the first
      obtain ⟨order, hsame, horder⟩ := exists_order_of_perm_map
        ((perm_sortByText (items.map canonical)).symm.trans
          (h ▸ perm_sortByText (items'.map canonical)))
      obtain ⟨k, rfl, hk⟩ := hkey
      exact .unordered hk
        (alikeItems_of_eq items order hv (fun w hin => hw w (horder.mem_iff.mp hin)) hsame) horder
    · rw [canonicalUnder_array_of_not_loose hkey, canonicalUnder_array_of_not_loose hkey,
        Value.array.injEq] at h
      exact .array (alikeItems_of_eq items items' hv hw h)
  | .object members, hv =>
    obtain ⟨members', rfl⟩ := object_of_canonicalUnder h
    rw [ordered_object] at hw
    rw [canonicalUnder_object_of_ascending key hv.1,
      canonicalUnder_object_of_ascending key hw.1, Value.object.injEq] at h
    exact .object (alikeMembers_of_eq members members' hv.2 hw.2 h)

theorem alikeItems_of_eq (items items' : List Value) (hv : OrderedItems items)
    (hw : ∀ w ∈ items', w.Ordered) (h : items.map canonical = items'.map canonical) :
    AlikeItems items items' := by
  match items, hv with
  | [], _ =>
    rw [List.map_eq_nil_iff.mp h.symm]
    exact .nil
  | v :: items, hv =>
    obtain ⟨w, rest, rfl, hsame, hrest⟩ := List.map_eq_cons_iff.mp h.symm
    obtain ⟨hw, hrests⟩ := List.forall_mem_cons.mp hw
    exact .cons (alike_of_canonicalUnder_eq none v w hv.1 hw hsame.symm)
      (alikeItems_of_eq items rest hv.2 hrests hrest.symm)

theorem alikeMembers_of_eq (members members' : List (String × Value))
    (hv : OrderedMembers members) (hw : ∀ e ∈ members', e.2.Ordered)
    (h : (members.map fun e => (e.1, e.2.canonicalUnder (some e.1))) =
      members'.map fun e => (e.1, e.2.canonicalUnder (some e.1))) :
    AlikeMembers members members' := by
  match members, hv with
  | [], _ =>
    rw [List.map_eq_nil_iff.mp h.symm]
    exact .nil
  | (k, v) :: members, hv =>
    obtain ⟨⟨j, w⟩, rest, rfl, hsame, hrest⟩ := List.map_eq_cons_iff.mp h.symm
    obtain ⟨hw, hrests⟩ := List.forall_mem_cons.mp hw
    obtain ⟨rfl, hsame⟩ := Prod.mk.injEq .. ▸ hsame
    exact .cons (alike_of_canonicalUnder_eq (some j) v w hv.1 hw hsame.symm)
      (alikeMembers_of_eq members rest hv.2 hrests hrest.symm)

end

/-! ## Values without floats -/

mutual

/-- Without floats, a value is the same as itself. -/
theorem same_self {depth : Nat} {v : Value} (hv : v.Fits Number.IsInteger depth) :
    v.same v = true := by
  match depth, v, hv with
  | _, .null, _ => rfl
  | _, .bool b, _ => simp [same]
  | _, .string s, _ => simp [same]
  | _, .number n, hv =>
    obtain ⟨i, rfl⟩ := fits_number.mp hv
    simp [same, Number.same]
  | 0, .array _, hv => exact absurd hv not_fits_array_zero
  | 0, .object _, hv => exact absurd hv not_fits_object_zero
  | depth + 1, .array items, hv => rw [same]; exact sameItems_self hv
  | depth + 1, .object members, hv => rw [same]; exact sameMembers_self hv

theorem sameItems_self {depth : Nat} {items : List Value}
    (hv : FitsItems Number.IsInteger depth items) : sameItems items items = true := by
  match items, hv with
  | [], _ => rfl
  | v :: items, hv => rw [sameItems, same_self hv.1, sameItems_self hv.2]; rfl

theorem sameMembers_self {depth : Nat} {members : List (String × Value)}
    (hv : FitsMembers Number.IsInteger depth members) : sameMembers members members = true := by
  match members, hv with
  | [], _ => rfl
  | (k, v) :: members, hv =>
    rw [sameMembers, same_self hv.1, sameMembers_self hv.2, beq_self_eq_true]
    rfl

end

mutual

/-- And the same as nothing else. -/
theorem eq_of_same {depth : Nat} {v w : Value} (hv : v.Fits Number.IsInteger depth)
    (h : v.same w = true) : v = w := by
  match depth, v, hv with
  | _, .null, _ => cases w <;> simp_all [same]
  | _, .bool b, _ => cases w <;> simp_all [same]
  | _, .string s, _ => cases w <;> simp_all [same]
  | _, .number n, hv =>
    obtain ⟨i, rfl⟩ := fits_number.mp hv
    cases w with
    | number m => cases m <;> simp_all [same, Number.same]
    | _ => simp [same] at h
  | 0, .array _, hv => exact absurd hv not_fits_array_zero
  | 0, .object _, hv => exact absurd hv not_fits_object_zero
  | depth + 1, .array items, hv =>
    cases w with
    | array items' => rw [same] at h; rw [eq_of_sameItems hv h]
    | _ => simp [same] at h
  | depth + 1, .object members, hv =>
    cases w with
    | object members' => rw [same] at h; rw [eq_of_sameMembers hv h]
    | _ => simp [same] at h

theorem eq_of_sameItems {depth : Nat} {items items' : List Value}
    (hv : FitsItems Number.IsInteger depth items) (h : sameItems items items' = true) :
    items = items' := by
  match items, items', hv with
  | [], [], _ => rfl
  | [], _ :: _, _ => simp [sameItems] at h
  | _ :: _, [], _ => simp [sameItems] at h
  | v :: items, w :: items', hv =>
    rw [sameItems, Bool.and_eq_true] at h
    rw [eq_of_same hv.1 h.1, eq_of_sameItems hv.2 h.2]

theorem eq_of_sameMembers {depth : Nat} {members members' : List (String × Value)}
    (hv : FitsMembers Number.IsInteger depth members)
    (h : sameMembers members members' = true) : members = members' := by
  match members, members', hv with
  | [], [], _ => rfl
  | [], _ :: _, _ => simp [sameMembers] at h
  | _ :: _, [], _ => simp [sameMembers] at h
  | (k, v) :: members, (j, w) :: members', hv =>
    rw [sameMembers, Bool.and_eq_true, Bool.and_eq_true, beq_iff_eq] at h
    rw [h.1.1, eq_of_same hv.1 h.1.2, eq_of_sameMembers hv.2 h.2]

end

theorem same_iff {depth : Nat} {v w : Value} (hv : v.Fits Number.IsInteger depth) :
    v.same w = true ↔ v = w :=
  ⟨eq_of_same hv, fun h => h ▸ same_self hv⟩

/-! ## Texts and what they mean -/

/-- No two ordered values whose numbers are read back as they were have one text. -/
theorem eq_of_text_eq {v w : Value} (hv : v.Ordered) (hw : w.Ordered)
    (hfit : v.Fits Number.Stable maxDepth) (hfit' : w.Fits Number.Stable maxDepth)
    (h : v.text = w.text) : v = w := by
  have hread := parse_text_of_stable hv hfit
  rw [h, parse_text_of_stable hw hfit'] at hread
  exact (Except.ok.inj hread).symm

/-- The canonical form of what a text without floats holds is read back as it is. -/
theorem canonical_of_parse {text : String} {v : Value} {depth : Nat} (h : parse text = .ok v)
    (hv : v.Fits Number.IsInteger depth) :
    v.canonical.Fits Number.IsInteger maxDepth ∧ v.canonical.Fits Number.Stable maxDepth := by
  obtain ⟨hordered, hrange⟩ := parse_sound h
  have hinteger : v.Fits Number.IsInteger maxDepth := hrange.both (fun _ _ hn => hn) hv
  exact ⟨(fits_canonicalUnder none maxDepth v hordered).mpr hinteger,
    (fits_canonicalUnder none maxDepth v hordered).mpr (fits_stable_of_parse h hinteger)⟩

end Value

open Value

/-- **Canonical forms decide what texts mean.** A canonical form is its own; only the arrays
right under an unordered key are sorted, and the items of every array are made canonical on their
own. Two texts that hold values without floats hold values that are alike just when the canonical
forms of these are printed alike, and just when the texts are found to be equivalent. -/
theorem canonical_decides :
    (∀ v : Value, v.canonical.canonical = v.canonical) ∧
    (∀ key items,
      (Loose key → (Value.array items).canonicalUnder key =
        .array (sortByText (items.map canonical))) ∧
      (¬ Loose key → (Value.array items).canonicalUnder key = .array (items.map canonical))) ∧
    ∀ a b v w depth depth', parse a = .ok v → parse b = .ok w →
      v.Fits Number.IsInteger depth → w.Fits Number.IsInteger depth' →
      List.TFAE [Alike none v w, v.canonical.text = w.canonical.text, equivalent a b = true] := by
  refine ⟨canonicalUnder_canonicalUnder none, fun key items =>
    ⟨fun h => canonicalUnder_array_of_loose h items,
      fun h => canonicalUnder_array_of_not_loose h items⟩, ?_⟩
  intro a b v w depth depth' ha hb hv hw
  obtain ⟨hinteger, hstable⟩ := canonical_of_parse ha hv
  obtain ⟨-, hstable'⟩ := canonical_of_parse hb hw
  have hequal : v.canonical.text = w.canonical.text → v.canonical = w.canonical :=
    eq_of_text_eq (ordered_canonicalUnder none v) (ordered_canonicalUnder none w) hstable hstable'
  have hequivalent : equivalent a b = v.canonical.same w.canonical := by
    rw [equivalent, ha, hb]
  tfae_have 1 → 2 := text_canonicalUnder
  tfae_have 2 → 3 := fun h => by rw [hequivalent, same_iff hinteger, hequal h]
  tfae_have 3 → 1 := fun h => alike_of_canonicalUnder_eq none v w (parse_sound ha).1
    (parse_sound hb).1 ((same_iff hinteger).mp (hequivalent ▸ h))
  tfae_finish

/-- An object with an unordered array, and in that a second one beside an array that has
an order. -/
def layered (outer : List Value → List Value) (inner : List Value) : Value :=
  .object [("capabilities", .array (outer [.object [("connections", .array inner)],
    .array [.number (.integer 4), .number (.integer 3)]]))]

/-- Both unordered arrays may be turned around. -/
theorem alike_layered :
    let v := layered id [.string "a", .number (.integer 1)]
    let w := layered List.reverse [.number (.integer 1), .string "a"]
    parse v.text = .ok v ∧ parse w.text = .ok w ∧ v.Fits Number.IsInteger maxDepth ∧
      w.Fits Number.IsInteger maxDepth ∧ Alike none v w ∧
      v.canonical.text = w.canonical.text ∧ equivalent v.text w.text = true := by
  intro v w
  have hread : ∀ u : Value, u.Ordered → u.Fits Number.Exact maxDepth →
      parse u.text = .ok u ∧ u.Fits Number.IsInteger maxDepth := fun u hu hfit =>
    ⟨parse_text_of_stable hu (hfit.both (fun _ h _ => h.stable) hfit),
      hfit.both (fun _ h _ => h.isInteger) hfit⟩
  have hone : (Number.integer 1).Exact := ⟨by decide, by decide⟩
  have hthree : (Number.integer 3).Exact := ⟨by decide, by decide⟩
  have hfour : (Number.integer 4).Exact := ⟨by decide, by decide⟩
  have hdepth : maxDepth = 123 + 1 + 1 + 1 + 1 := rfl
  obtain ⟨hv, hvint⟩ := hread v (by simp [v, layered, ordered_object])
    (by rw [hdepth]; simp [v, layered, hone, hthree, hfour])
  obtain ⟨hw, hwint⟩ := hread w (by simp [w, layered, ordered_object])
    (by rw [hdepth]; simp [w, layered, hone, hthree, hfour])
  have hpair : ∀ x y : Value, [x, y].Perm [y, x] := fun x y => .swap y x []
  -- the inner array is turned in its place, and then the outer one as a whole
  have hinner : Alike none (.object [("connections", .array [.string "a", .number (.integer 1)])])
      (.object [("connections", .array [.number (.integer 1), .string "a"])]) :=
    .object (.cons (.unordered (by decide)
      (.cons (.string "a") (.cons (.number _) .nil)) (hpair _ _)) .nil)
  have hranked : Alike none (.array [.number (.integer 4), .number (.integer 3)])
      (.array [.number (.integer 4), .number (.integer 3)]) :=
    .array (.cons (.number _) (.cons (.number _) .nil))
  have halike : Alike none v w := .object (.cons (.unordered (by decide)
    (.cons hinner (.cons hranked .nil)) (hpair _ _)) .nil)
  have hsame := canonical_decides.2.2 _ _ v w _ _ hv hw hvint hwint
  exact ⟨hv, hw, hvint, hwint, halike, (hsame.out 0 1).mp halike, (hsame.out 0 2).mp halike⟩

end Json

end Announcer
