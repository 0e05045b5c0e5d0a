import Announcer.StringMap
/-!
# Looking into maps

What every operation on a `StringMap` does to one look-up. The table keeps its
records in such a map and its batches are made by `filterMap`, so a proof about
the table speaks of one key at a time and never of the entry list.
-/
namespace Announcer

universe u v

variable {α : Type u} {β : Type v}

/-! ## Entry lists -/

theorem Entries.get?_eq_none_iff {k : String} {l : List (String × α)} :
    Entries.get? k l = none ↔ k ∉ l.map Prod.fst := by
  induction l with
  | nil => simp [Entries.get?]
  | cons hd tl ih =>
    obtain ⟨k', x⟩ := hd
    by_cases h : k = k' <;> simp [Entries.get?, h, ih]

/-- A new key comes on top of the others. -/
theorem Entries.perm_insert {k : String} (x : α) {l : List (String × α)}
    (h : Entries.get? k l = none) : (Entries.insert k x l).Perm ((k, x) :: l) := by
  induction l with
  | nil => exact .refl _
  | cons e l ih =>
    obtain ⟨j, y⟩ := e
    simp only [Entries.get?] at h
    split at h
    · cases h
    · next hj =>
      simp only [Entries.insert, if_neg hj]
      split
      · exact .refl _
      · exact ((ih h).cons _).trans (.swap _ _ _)

/-- A key above all others goes to the end. -/
theorem Entries.insert_eq_append {k : String} {x : α} {l : List (String × α)}
    (h : ∀ e ∈ l, e.1 < k) : Entries.insert k x l = l ++ [(k, x)] := by
  induction l with
  | nil => rfl
  | cons hd tl ih =>
    have hlt : hd.1 < k := h hd List.mem_cons_self
    have hnlt : ¬ k < hd.1 := fun hk => String.lt_asymm hk hlt
    have hne : k ≠ hd.1 := fun he => String.lt_irrefl _ (he ▸ hlt)
    rw [Entries.insert, if_neg hnlt, if_neg hne, ih fun e he => h e (List.mem_cons_of_mem _ he)]
    rfl

theorem Entries.ofList_concat (l : List (String × α)) (e : String × α) :
    Entries.ofList (l ++ [e]) = Entries.insert e.1 e.2 (Entries.ofList l) := by
  simp [Entries.ofList]

/-- Of several entries under one key the last counts. -/
theorem Entries.get?_ofList_reverse (k : String) (l : List (String × α)) :
    Entries.get? k (Entries.ofList l.reverse) = Entries.get? k l := by
  induction l with
  | nil => rfl
  | cons e l ih => simp [Entries.ofList_concat, Entries.get?_insert, Entries.get?, ih]

theorem Entries.get?_append (k : String) (l m : List (String × α)) :
    Entries.get? k (l ++ m) = (Entries.get? k l).or (Entries.get? k m) := by
  induction l with
  | nil => rfl
  | cons e l ih =>
    by_cases h : k = e.1
    · simp [Entries.get?, h]
    · simp [Entries.get?, h, ih]

theorem Entries.get?_ofList_append (k : String) (l m : List (String × α)) :
    Entries.get? k (Entries.ofList (l ++ m)) =
      (Entries.get? k (Entries.ofList m)).or (Entries.get? k (Entries.ofList l)) := by
  have h := Entries.get?_ofList_reverse k (m.reverse ++ l.reverse)
  rw [Entries.get?_append, ← Entries.get?_ofList_reverse k m.reverse,
    ← Entries.get?_ofList_reverse k l.reverse] at h
  simpa using h

theorem Entries.ascending_ofList (l : List (String × α)) :
    Entries.Ascending (Entries.ofList l) := by
  rw [← l.reverse_reverse]
  induction l.reverse with
  | nil => exact List.Pairwise.nil
  | cons e l ih =>
    rw [List.reverse_cons, Entries.ofList_concat]
    exact Entries.ascending_insert e.1 e.2 ih

theorem Entries.mem_of_mem_ofList {e : String × α} {l : List (String × α)}
    (h : e ∈ Entries.ofList l) : e ∈ l := by
  have hget := Entries.get?_of_mem (Entries.ascending_ofList l) (show (e.1, e.2) ∈ _ from h)
  rw [← l.reverse_reverse, Entries.get?_ofList_reverse] at hget
  exact List.mem_reverse.mp (Entries.mem_of_get? hget)

/-- Entries that ascend are kept as they are. -/
theorem Entries.ofList_eq_self {l : List (String × α)} (h : Entries.Ascending l) :
    Entries.ofList l = l := by
  rw [← l.reverse_reverse] at h ⊢
  generalize l.reverse = l at h ⊢
  induction l with
  | nil => rfl
  | cons e l ih =>
    rw [List.reverse_cons] at h ⊢
    obtain ⟨hl, -, hlast⟩ := List.pairwise_append.mp h
    rw [Entries.ofList_concat, ih hl,
      Entries.insert_eq_append fun a ha => hlast a ha e (List.mem_singleton.mpr rfl)]

namespace StringMap

/-! ## Look-ups -/

theorem get?_filter (p : String → α → Bool) (m : StringMap α) (k : String) :
    (m.filter p).get? k = (m.get? k).filter (p k) := by
  ext x
  rw [← mem_entries_iff, Option.filter_eq_some_iff, ← mem_entries_iff]
  simp [filter]

theorem get?_filterMap (f : String → α → Option β) (m : StringMap α) (k : String) :
    (m.filterMap f).get? k = (m.get? k).bind (f k) := by
  ext y
  rw [← mem_entries_iff, Option.bind_eq_some_iff]
  simp only [filterMap, List.mem_filterMap, Option.map_eq_some_iff]
  constructor
  · rintro ⟨⟨j, x⟩, hmem, y', hy, he⟩
    cases he
    exact ⟨x, mem_entries_iff.mp hmem, hy⟩
  · rintro ⟨x, hx, hy⟩
    exact ⟨(k, x), mem_entries_iff.mpr hx, y, hy, rfl⟩

/-! ## Keys and values -/

theorem mem_keys_iff {m : StringMap α} {k : String} : k ∈ m.keys ↔ (m.get? k).isSome := by
  rw [Option.isSome_iff_ne_none, ne_eq, get?, Entries.get?_eq_none_iff, Classical.not_not, keys]

theorem mem_values_iff {m : StringMap α} {x : α} : x ∈ m.values ↔ ∃ k, m.get? k = some x := by
  simp [values, ← mem_entries_iff]

theorem nodup_keys (m : StringMap α) : m.keys.Nodup := by
  refine List.pairwise_map.mpr (m.ascending.imp ?_)
  intro a b hlt heq
  exact String.lt_irrefl _ (heq ▸ hlt)

theorem isEmpty_iff {m : StringMap α} : m.isEmpty = true ↔ ∀ k, m.get? k = none := by
  obtain ⟨l, hl⟩ := m
  cases l with
  | nil => simp [isEmpty, get?, Entries.get?]
  | cons hd tl =>
    simp only [isEmpty, List.isEmpty_cons, Bool.false_eq_true, false_iff]
    intro h
    have := h hd.1
    simp [get?, Entries.get?] at this

/-- The keys that `filterMap` keeps, in their order. -/
theorem keys_filterMap (f : String → α → Option β) (m : StringMap α) :
    (m.filterMap f).keys = (m.filter fun k x => (f k x).isSome).keys := by
  obtain ⟨l, hl⟩ := m
  simp only [keys, filterMap, filter]
  clear hl
  induction l with
  | nil => rfl
  | cons hd tl ih => cases h : f hd.1 hd.2 <;> simp [h, ih]

/-! ## Many updates -/

/-- Putting all entries of `n` into `m`: what `n` has is replaced, all else stays. -/
theorem get?_foldl_insert (m n : StringMap α) (k : String) :
    (n.entries.foldl (fun m e => m.insert e.1 e.2) m).get? k = (n.get? k <|> m.get? k) := by
  obtain ⟨l, hl⟩ := n
  show _ = (Entries.get? k l <|> m.get? k)
  induction l generalizing m with
  | nil => simp [Entries.get?]
  | cons hd tl ih =>
    obtain ⟨hhd, htl⟩ := List.pairwise_cons.mp hl
    rw [List.foldl_cons, ih _ htl, get?_insert]
    by_cases h : k = hd.1
    · -- a later entry cannot be under the same key
      subst h
      have hno : Entries.get? hd.1 tl = none := by
        rw [Entries.get?_eq_none_iff]
        intro hmem
        obtain ⟨e, he, hk⟩ := List.mem_map.mp hmem
        exact String.lt_irrefl _ (hk ▸ hhd e he)
      simp [hno, Entries.get?]
    · simp [Entries.get?, h]

/-- Taking a list of keys out of `m`. -/
theorem get?_foldl_erase (m : StringMap α) (ids : List String) (k : String) :
    (ids.foldl (fun m id => m.erase id) m).get? k = if k ∈ ids then none else m.get? k := by
  induction ids generalizing m with
  | nil => simp
  | cons id ids ih =>
    rw [List.foldl_cons, ih, get?_erase]
    by_cases h : k = id <;> simp [h]

end StringMap

end Announcer
