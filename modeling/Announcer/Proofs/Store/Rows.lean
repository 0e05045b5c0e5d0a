import Announcer.Proofs.StringMap
import Announcer.Store.Rows
/-!
# Rows as a map

A table that has one row for each endpoint holds a map (`Rows.configs`), and a change of
the rows is a change of the map. The table is keyed by the id, so no change makes a
second row for an endpoint.

Results: `get?_configs`; `configs_upsert`, `upsertAll_spec`, `configs_deleteAll`, each with the
lemma that the rows stay keyed; `fst_deleteAll` counts the rows that are gone.
-/
namespace Announcer.Rows

variable {rows : Rows} {id : String} {config : Config}

/-- One row for each endpoint. -/
def Keyed (rows : Rows) : Prop := (rows.map Row.id).Nodup

theorem keyed_nil : Keyed [] := List.nodup_nil

/-! ## Reading -/

theorem config?_eq_none_iff : rows.config? id = none ↔ id ∉ rows.map Row.id := by
  simp [config?]

theorem config?_filter (p : String → Bool) (rows : Rows) (id : String) :
    config? id (rows.filter fun row => p row.id) = (rows.config? id).filter fun _ => p id := by
  have hsame : (fun row : Row => decide (p row.id = true ∧ decide (row.id = id) = true)) =
      fun row => p id && decide (row.id = id) := by
    funext row
    by_cases hid : row.id = id <;> simp [hid]
  have hnone : rows.find? (fun _ => false) = none := List.find?_eq_none.mpr (by simp)
  rw [config?, config?, List.find?_filter, hsame]
  cases p id with
  | true =>
    simp only [Bool.true_and]
    cases rows.find? fun row => decide (row.id = id) <;> rfl
  | false =>
    simp only [Bool.false_and, hnone, Option.map_none]
    cases rows.find? fun row => decide (row.id = id) <;> rfl

theorem get?_foldl_insert (h : rows.Keyed) (m : Configs) (id : String) :
    ((rows.map fun row => (row.id, row.config)).foldl (fun m e => m.insert e.1 e.2) m).get? id =
      (rows.config? id <|> m.get? id) := by
  induction rows generalizing m with
  | nil => rfl
  | cons row rows ih =>
    obtain ⟨hrow, hrows⟩ := List.nodup_cons.mp h
    rw [List.map_cons, List.foldl_cons, ih hrows, StringMap.get?_insert]
    by_cases hid : row.id = id
    · subst hid
      rw [config?_eq_none_iff.mpr hrow]
      simp [config?]
    · simp [config?, hid, Ne.symm hid]

theorem get?_configs (h : rows.Keyed) (id : String) : rows.configs.get? id = rows.config? id := by
  rw [configs, StringMap.ofList, get?_foldl_insert h]
  simp

/-- The map has as many entries as there are rows. -/
theorem size_configs (h : rows.Keyed) : rows.configs.size = rows.length := by
  have hall : ∀ m : Configs, (∀ row ∈ rows, m.get? row.id = none) →
      ((rows.map fun row => (row.id, row.config)).foldl (fun m e => m.insert e.1 e.2) m).size =
        m.size + rows.length := by
    induction rows with
    | nil => intro m _; rfl
    | cons row rows ih =>
      intro m hm
      obtain ⟨hrow, hrows⟩ := List.nodup_cons.mp h
      have hsize : (m.insert row.id row.config).size = m.size + 1 :=
        (Entries.perm_insert row.config (hm row List.mem_cons_self)).length_eq
      rw [List.map_cons, List.foldl_cons, ih hrows, hsize, List.length_cons]
      · omega
      · intro other hother
        have hne : other.id ≠ row.id := fun he => hrow (he ▸ List.mem_map_of_mem hother)
        rw [StringMap.get?_insert, if_neg hne]
        exact hm other (List.mem_cons_of_mem row hother)
  rw [configs, StringMap.ofList, hall .empty fun _ _ => rfl]
  exact Nat.zero_add _

/-! ## Putting rows -/

theorem ids_upsert (id : String) (config : Config) (rows : Rows) :
    (rows.upsert id config).map Row.id =
      if id ∈ rows.map Row.id then rows.map Row.id else rows.map Row.id ++ [id] := by
  induction rows with
  | nil => rfl
  | cons row rows ih =>
    unfold upsert
    by_cases hid : row.id = id
    · simp [hid]
    · rw [if_neg hid, List.map_cons, ih]
      by_cases hmem : id ∈ rows.map Row.id
      · rw [if_pos hmem, List.map_cons, if_pos (List.mem_cons_of_mem _ hmem)]
      · rw [if_neg hmem, List.map_cons, if_neg, List.cons_append]
        exact fun h => (List.mem_cons.mp h).elim (Ne.symm hid) hmem

theorem keyed_upsert (h : rows.Keyed) (id : String) (config : Config) :
    (rows.upsert id config).Keyed := by
  unfold Keyed at h ⊢
  rw [ids_upsert]
  split
  · exact h
  · next hid => exact List.nodup_append.mpr ⟨h, List.pairwise_singleton _ id, by
      rintro other hother _ hsame rfl
      cases List.mem_singleton.mp hsame
      exact hid hother⟩

theorem configs_upsert (h : rows.Keyed) (id : String) (config : Config) :
    (rows.upsert id config).configs = rows.configs.insert id config := by
  refine StringMap.ext_get? fun other => ?_
  rw [get?_configs (keyed_upsert h id config), config?_upsert, StringMap.get?_insert,
    get?_configs h]

/-- Putting many rows puts their entries into the map. -/
theorem upsertAll_spec (h : rows.Keyed) (configs : Configs) :
    (rows.upsertAll configs).Keyed ∧ (rows.upsertAll configs).configs =
      configs.entries.foldl (fun m e => m.insert e.1 e.2) rows.configs := by
  unfold upsertAll
  induction configs.entries generalizing rows with
  | nil => exact ⟨h, rfl⟩
  | cons e entries ih =>
    have hnext := ih (keyed_upsert h e.1 e.2)
    rw [configs_upsert h] at hnext
    exact hnext

/-! ## Taking rows out -/

theorem keyed_filter (h : rows.Keyed) (p : Row → Bool) : Keyed (rows.filter p) :=
  h.sublist (List.filter_sublist.map Row.id)

theorem delete_eq (id : String) (rows : Rows) :
    rows.delete id =
      (rows.countP (fun row => row.id = id), rows.filter fun row => row.id ≠ id) := by
  have hlength := List.length_eq_countP_add_countP (fun row : Row => decide (row.id = id))
    (l := rows)
  refine Prod.ext ?_ rfl
  simp only [delete, List.countP_eq_length_filter, decide_not, ne_eq, decide_eq_true_eq]
    at hlength ⊢
  omega

/-- Listed are the rows of the first id, and of the others those under another id. -/
theorem countP_listed (id : String) (ids : List String) (rows : Rows) :
    (rows.countP fun row => row.id = id) +
        rows.countP (fun row => row.id ∈ ids && row.id ≠ id) =
      rows.countP fun row => row.id ∈ id :: ids := by
  induction rows with
  | nil => rfl
  | cons row rows ih =>
    simp only [List.countP_cons, ← ih]
    by_cases hid : row.id = id
    · simp [hid]
      omega
    · simp [hid]
      omega

/-- Taking listed rows out: what is gone is what was listed, each row counted once. -/
theorem deleteAll_eq (ids : List String) (rows : Rows) :
    rows.deleteAll ids =
      (rows.countP (fun row => row.id ∈ ids), rows.filter fun row => row.id ∉ ids) := by
  have hall : ∀ n, ids.foldl
      (fun (p : Nat × Rows) id => (p.1 + (p.2.delete id).1, (p.2.delete id).2)) (n, rows) =
        (n + rows.countP (fun row => row.id ∈ ids), rows.filter fun row => row.id ∉ ids) := by
    induction ids generalizing rows with
    | nil =>
      intro n
      rw [List.filter_eq_self.mpr (by simp)]
      simp
    | cons id ids ih =>
      intro n
      rw [List.foldl_cons, delete_eq, ih, List.filter_filter, List.countP_filter, Nat.add_assoc,
        countP_listed]
      refine Prod.ext rfl (List.filter_congr fun row _ => ?_)
      simp [Bool.and_comm]
  exact (hall 0).trans (by rw [Nat.zero_add])

theorem keyed_deleteAll (h : rows.Keyed) (ids : List String) : Keyed (rows.deleteAll ids).2 := by
  rw [deleteAll_eq]
  exact keyed_filter h _

theorem configs_deleteAll (h : rows.Keyed) (ids : List String) :
    configs (rows.deleteAll ids).2 = rows.configs.filter fun id _ => id ∉ ids := by
  refine StringMap.ext_get? fun id => ?_
  rw [get?_configs (keyed_deleteAll h ids), deleteAll_eq, StringMap.get?_filter, get?_configs h]
  exact config?_filter (fun id => id ∉ ids) rows id

/-- As many rows are taken out as there are listed endpoints in the map. -/
theorem fst_deleteAll (h : rows.Keyed) (ids : List String) :
    (rows.deleteAll ids).1 = (rows.configs.filter fun id _ => id ∈ ids).size := by
  have hlisted : (rows.configs.filter fun id _ => id ∈ ids) =
      configs (rows.filter fun row => row.id ∈ ids) := by
    refine StringMap.ext_get? fun id => ?_
    rw [get?_configs (keyed_filter h _), StringMap.get?_filter, get?_configs h]
    exact (config?_filter (fun id => id ∈ ids) rows id).symm
  rw [hlisted, size_configs (keyed_filter h _), deleteAll_eq, List.countP_eq_length_filter]

theorem keyed_delete (h : rows.Keyed) (id : String) : Keyed (rows.delete id).2 :=
  keyed_filter h _

theorem configs_delete (h : rows.Keyed) (id : String) :
    configs (rows.delete id).2 = rows.configs.erase id := by
  refine StringMap.ext_get? fun other => ?_
  rw [get?_configs (keyed_delete h id), config?_delete, StringMap.get?_erase, get?_configs h]

end Announcer.Rows
