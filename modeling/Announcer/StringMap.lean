/-!
# Maps keyed by strings

A finite map is kept as its entries in strictly ascending key order, so two
maps with the same contents are the same value and listing one needs no sort.
Keys compare by code point, which is also the byte order of their UTF-8.

`Entries` works on bare lists, for data whose type cannot carry a proof;
`StringMap` is a list together with the proof that it ascends.

Results: `Entries.get?_insert`, `Entries.get?_erase` say what an update does to
every key; `StringMap.ext_get?` says that the look-ups determine the map.
-/
namespace Announcer

universe u v

/-! ## Bare entry lists -/
namespace Entries

variable {α : Type u} {β : Type v}

/-- Every key is smaller than the keys behind it. -/
abbrev Ascending (l : List (String × α)) : Prop :=
  l.Pairwise (fun a b => a.1 < b.1)

def get? (k : String) : List (String × α) → Option α
  | [] => none
  | (k', x) :: rest => if k = k' then some x else get? k rest

def insert (k : String) (x : α) : List (String × α) → List (String × α)
  | [] => [(k, x)]
  | (k', x') :: rest =>
    if k < k' then (k, x) :: (k', x') :: rest
    else if k = k' then (k, x) :: rest
    else (k', x') :: insert k x rest

def erase (k : String) (l : List (String × α)) : List (String × α) :=
  l.filter (fun e => e.1 ≠ k)

/-- The entries of `l` in ascending order; of several under one key the last counts. -/
def ofList (l : List (String × α)) : List (String × α) :=
  l.foldl (fun acc e => insert e.1 e.2 acc) []

theorem lt_of_not_lt_of_ne {a b : String} (h : ¬ a < b) (hne : a ≠ b) : b < a :=
  Std.lt_of_le_of_ne (String.not_lt.mp h) (Ne.symm hne)

theorem mem_of_mem_insert {k : String} {x : α} {e : String × α} {l : List (String × α)}
    (h : e ∈ insert k x l) : e = (k, x) ∨ e ∈ l := by
  induction l with
  | nil => simpa [insert] using h
  | cons hd tl ih =>
    simp only [insert] at h
    split at h
    · simpa using h
    · split at h
      · rcases List.mem_cons.mp h with h | h
        · exact .inl h
        · exact .inr (List.mem_cons_of_mem _ h)
      · rcases List.mem_cons.mp h with h | h
        · exact .inr (h ▸ List.mem_cons_self)
        · exact (ih h).imp_right (List.mem_cons_of_mem _)

theorem ascending_insert (k : String) (x : α) {l : List (String × α)} (h : Ascending l) :
    Ascending (insert k x l) := by
  induction l with
  | nil => simp [insert, Ascending]
  | cons hd tl ih =>
    obtain ⟨hhd, htl⟩ := List.pairwise_cons.mp h
    simp only [insert]
    split
    · next hlt =>
      refine List.pairwise_cons.mpr ⟨fun e he => ?_, h⟩
      rcases List.mem_cons.mp he with rfl | he
      · exact hlt
      · exact String.lt_trans hlt (hhd e he)
    · split
      · next heq => exact List.pairwise_cons.mpr ⟨fun e he => heq ▸ hhd e he, htl⟩
      · next hnlt hne =>
        refine List.pairwise_cons.mpr ⟨fun e he => ?_, ih htl⟩
        rcases mem_of_mem_insert he with rfl | he
        · exact lt_of_not_lt_of_ne hnlt hne
        · exact hhd e he

theorem ascending_erase (k : String) {l : List (String × α)} (h : Ascending l) :
    Ascending (erase k l) :=
  h.sublist List.filter_sublist

theorem get?_insert (k : String) (x : α) (j : String) (l : List (String × α)) :
    get? j (insert k x l) = if j = k then some x else get? j l := by
  induction l with
  | nil => simp [insert, get?]
  | cons hd tl ih => simp only [insert]; grind [get?]

theorem get?_erase (k j : String) (l : List (String × α)) :
    get? j (erase k l) = if j = k then none else get? j l := by
  induction l with
  | nil => simp [erase, get?]
  | cons hd tl ih => simp only [erase] at ih ⊢; grind [get?]

theorem mem_of_get? {k : String} {x : α} {l : List (String × α)} (h : get? k l = some x) :
    (k, x) ∈ l := by
  induction l with
  | nil => simp [get?] at h
  | cons hd tl ih => grind [get?]

theorem get?_of_mem {k : String} {x : α} {l : List (String × α)} (hl : Ascending l)
    (h : (k, x) ∈ l) : get? k l = some x := by
  induction l with
  | nil => simp at h
  | cons hd tl ih =>
    obtain ⟨hhd, htl⟩ := List.pairwise_cons.mp hl
    rcases List.mem_cons.mp h with rfl | h
    · simp [get?]
    · have hne : k ≠ hd.1 := fun e => String.lt_irrefl _ (e ▸ hhd _ h)
      simp [get?, hne, ih htl h]

end Entries

/-! ## Maps -/

/-- A finite map from strings, its entries in ascending key order. -/
structure StringMap (α : Type u) where
  entries : List (String × α)
  ascending : Entries.Ascending entries

namespace StringMap

variable {α : Type u} {β : Type v}

instance [DecidableEq α] : DecidableEq (StringMap α) := fun m n =>
  if h : m.entries = n.entries then
    .isTrue (by cases m; cases n; cases h; rfl)
  else .isFalse (fun e => h (e ▸ rfl))

instance [Repr α] : Repr (StringMap α) where
  reprPrec m p := reprPrec m.entries p

def empty : StringMap α := ⟨[], List.Pairwise.nil⟩

instance : EmptyCollection (StringMap α) := ⟨empty⟩

instance : Inhabited (StringMap α) := ⟨empty⟩

def get? (m : StringMap α) (k : String) : Option α :=
  Entries.get? k m.entries

def insert (m : StringMap α) (k : String) (x : α) : StringMap α :=
  ⟨Entries.insert k x m.entries, Entries.ascending_insert k x m.ascending⟩

def erase (m : StringMap α) (k : String) : StringMap α :=
  ⟨Entries.erase k m.entries, Entries.ascending_erase k m.ascending⟩

def ofList (l : List (String × α)) : StringMap α :=
  l.foldl (fun m e => m.insert e.1 e.2) empty

def keys (m : StringMap α) : List String :=
  m.entries.map (·.1)

def values (m : StringMap α) : List α :=
  m.entries.map (·.2)

def size (m : StringMap α) : Nat :=
  m.entries.length

def isEmpty (m : StringMap α) : Bool :=
  m.entries.isEmpty

def contains (m : StringMap α) (k : String) : Bool :=
  (m.get? k).isSome

/-- Replaces every value by what `f` makes of it and its key. -/
def map (f : String → α → β) (m : StringMap α) : StringMap β :=
  ⟨m.entries.map (fun e => (e.1, f e.1 e.2)), List.pairwise_map.mpr m.ascending⟩

def filter (p : String → α → Bool) (m : StringMap α) : StringMap α :=
  ⟨m.entries.filter (fun e => p e.1 e.2), m.ascending.sublist List.filter_sublist⟩

/-- Keeps and replaces the values for which `f` has a result. -/
def filterMap (f : String → α → Option β) (m : StringMap α) : StringMap β :=
  ⟨m.entries.filterMap (fun e => (f e.1 e.2).map (e.1, ·)), by
    refine List.pairwise_filterMap.mpr (m.ascending.imp fun h b hb c hc => ?_)
    obtain ⟨_, _, rfl⟩ := Option.map_eq_some_iff.mp hb
    obtain ⟨_, _, rfl⟩ := Option.map_eq_some_iff.mp hc
    exact h⟩

@[simp] theorem get?_empty (k : String) : (empty : StringMap α).get? k = none := rfl

theorem get?_insert (m : StringMap α) (k : String) (x : α) (j : String) :
    (m.insert k x).get? j = if j = k then some x else m.get? j :=
  Entries.get?_insert k x j m.entries

theorem get?_erase (m : StringMap α) (k j : String) :
    (m.erase k).get? j = if j = k then none else m.get? j :=
  Entries.get?_erase k j m.entries

theorem mem_entries_iff {m : StringMap α} {k : String} {x : α} :
    (k, x) ∈ m.entries ↔ m.get? k = some x :=
  ⟨Entries.get?_of_mem m.ascending, Entries.mem_of_get?⟩

theorem get?_map (f : String → α → β) (m : StringMap α) (k : String) :
    (m.map f).get? k = (m.get? k).map (f k) := by
  obtain ⟨l, hl⟩ := m
  simp only [get?, map]
  clear hl
  induction l with
  | nil => rfl
  | cons hd tl ih => grind [Entries.get?]

theorem ext_get? {m n : StringMap α} (h : ∀ k, m.get? k = n.get? k) : m = n := by
  have key : ∀ {l l' : List (String × α)}, Entries.Ascending l → Entries.Ascending l' →
      (∀ k, Entries.get? k l = Entries.get? k l') → l = l' := by
    intro l
    induction l with
    | nil =>
      intro l' _ _ h
      cases l' with
      | nil => rfl
      | cons hd tl => have := h hd.1; simp [Entries.get?] at this
    | cons hd tl ih =>
      intro l' hl hl' h
      cases l' with
      | nil => have := h hd.1; simp [Entries.get?] at this
      | cons hd' tl' =>
        obtain ⟨h1, h2⟩ := List.pairwise_cons.mp hl
        obtain ⟨h1', h2'⟩ := List.pairwise_cons.mp hl'
        have hkey : hd.1 = hd'.1 := by
          by_cases hlt : hd.1 < hd'.1
          · exfalso
            have := h hd.1
            rw [show Entries.get? hd.1 (hd :: tl) = some hd.2 by simp [Entries.get?]] at this
            have hm := Entries.mem_of_get? this.symm
            rcases List.mem_cons.mp hm with e | hm
            · exact String.lt_irrefl _ (by rw [← e] at hlt; exact hlt)
            · exact String.lt_asymm hlt (h1' _ hm)
          · by_cases hgt : hd'.1 < hd.1
            · exfalso
              have := h hd'.1
              rw [show Entries.get? hd'.1 (hd' :: tl') = some hd'.2 by simp [Entries.get?]] at this
              have hm := Entries.mem_of_get? this
              rcases List.mem_cons.mp hm with e | hm
              · exact String.lt_irrefl _ (by rw [← e] at hgt; exact hgt)
              · exact String.lt_asymm hgt (h1 _ hm)
            · exact String.le_antisymm (String.not_lt.mp hgt) (String.not_lt.mp hlt)
        have hval : hd.2 = hd'.2 := by
          have := h hd.1
          simpa [Entries.get?, hkey] using this
        have hrest : tl = tl' := by
          refine ih h2 h2' fun k => ?_
          by_cases hk : k = hd.1
          · have hno : ∀ {t : List (String × α)}, (∀ e ∈ t, hd.1 < e.1) →
                Entries.get? hd.1 t = none := by
              intro t ht
              cases hg : Entries.get? hd.1 t with
              | none => rfl
              | some x => exact absurd (ht _ (Entries.mem_of_get? hg)) (String.lt_irrefl _)
            rw [hk, hno h1, hno (fun e he => hkey ▸ h1' e he)]
          · have := h k
            simpa [Entries.get?, hk, hkey ▸ hk] using this
        rw [hrest, show hd = hd' from Prod.ext hkey hval]
  have := key m.ascending n.ascending h
  cases m; cases n; cases this; rfl

end StringMap

end Announcer
