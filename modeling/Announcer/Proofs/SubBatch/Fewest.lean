import Mathlib.Data.List.Chain
import Announcer.Proofs.SubBatch
/-!
# The fewest events

A list of configs can be cut, in order, into parts of which each may travel in one event
(`Within`): several configs need both limits, and one alone always may travel. The
sub-batches are such a partition, each goes on for as long as the next config fits, and no
partition has fewer parts. For the last, compare two open runs in front of the same
configs: the lighter one leads to no more sub-batches, and any one to at most one more than
another, because both start afresh with the same config once they are closed
(`length_cut`).

Results: `within_of_mem_cut`, `tight_cut`, `length_cut`; `optimal_subBatches`.
-/
namespace Announcer

namespace SubBatch

variable {maxCount : Option Nat} {maxBytes : Nat}

/-! ## What may travel together -/

/-- Some configs may travel in one event. One alone always may, however large it is and
whatever the limit on their number is. -/
structure Within (maxCount : Option Nat) (maxBytes : Nat) (part : List Config) : Prop where
  count : ∀ limit ∈ maxCount, part.length ≤ max limit 1
  bytes : 1 < part.length → totalSize part ≤ maxBytes

/-- A list of configs cut in order into parts that may travel. -/
structure Partition (maxCount : Option Nat) (maxBytes : Nat) (configs : List Config)
    (parts : List (List Config)) : Prop where
  whole : parts.flatten = configs
  within : ∀ part ∈ parts, Within maxCount maxBytes part

theorem within_singleton (c : Config) : Within maxCount maxBytes [c] where
  count limit _ := Nat.le_max_right limit 1
  bytes h := absurd h (by simp)

theorem Within.perm {part part' : List Config} (hperm : part.Perm part')
    (h : Within maxCount maxBytes part) : Within maxCount maxBytes part' where
  count limit hlimit := hperm.length_eq ▸ h.count limit hlimit
  bytes hlength := totalSize_perm hperm ▸ h.bytes (hperm.length_eq ▸ hlength)

/-- Several configs may travel together when there is room for all of them. -/
theorem within_cons_iff {c : Config} {run : List Config} (hrun : run ≠ []) :
    Within maxCount maxBytes (c :: run) ↔
      Room maxCount maxBytes (run.length + 1) (totalSize run + c.size) := by
  have hpos : 0 < run.length := List.length_pos_iff.mpr hrun
  have hsize : totalSize (c :: run) = totalSize run + c.size := Nat.add_comm _ _
  constructor
  · intro h
    refine ⟨fun limit hlimit => ?_, ?_⟩
    · have := h.count limit hlimit
      rw [List.length_cons] at this
      omega
    · rw [← hsize]
      exact h.bytes (by rw [List.length_cons]; omega)
  · intro h
    refine ⟨fun limit hlimit => ?_, fun _ => ?_⟩
    · exact Nat.le_trans (h.count limit hlimit) (Nat.le_max_left limit 1)
    · rw [hsize]
      exact h.bytes

/-- An open run is full when it may not travel with the next config. -/
theorem full_iff {c : Config} {run : List Config} (hrun : run ≠ []) :
    full maxCount maxBytes run.length (totalSize run) c = true ↔
      ¬ Within maxCount maxBytes (c :: run) := by
  rw [within_cons_iff hrun, ← full_eq_false_iff, Bool.not_eq_false]

/-! ## The parts of a cut -/

/-- Every part may travel, and none is empty. -/
theorem within_of_mem_cut {run part : List Config} {rest : List Config} (hrun : run ≠ [])
    (hwithin : Within maxCount maxBytes run)
    (h : part ∈ cut maxCount maxBytes run run.length (totalSize run) rest) :
    part ≠ [] ∧ Within maxCount maxBytes part := by
  have hclosed : run.reverse ≠ [] ∧ Within maxCount maxBytes run.reverse :=
    ⟨by simpa using hrun, hwithin.perm run.reverse_perm.symm⟩
  induction rest generalizing run with
  | nil =>
    rw [List.mem_singleton.mp h]
    exact hclosed
  | cons c rest ih =>
    rw [cut] at h
    split at h
    · rcases List.mem_cons.mp h with rfl | h
      · exact hclosed
      · have hc : Within maxCount maxBytes [c] := within_singleton c
        exact ih (by simp) hc h ⟨by simp, hc⟩
    · next hfull =>
      have hroom : Within maxCount maxBytes (c :: run) := by
        rwa [full_iff hrun, not_not] at hfull
      rw [Nat.add_comm (totalSize run)] at h
      exact ih (by simp) hroom h ⟨by simp, hroom.perm (c :: run).reverse_perm.symm⟩

/-- A part may not travel with the first config of the next. -/
def Tight (maxCount : Option Nat) (maxBytes : Nat) (part next : List Config) : Prop :=
  ∀ c ∈ next.head?, ¬ Within maxCount maxBytes (part ++ [c])

theorem tight_cut {run : List Config} (hrun : run ≠ []) (rest : List Config) :
    (cut maxCount maxBytes run run.length (totalSize run) rest).IsChain
      (Tight maxCount maxBytes) := by
  induction rest generalizing run with
  | nil => exact .singleton _
  | cons c rest ih =>
    rw [cut]
    split
    · next hfull =>
      obtain ⟨more, later, hcut⟩ := cut_eq_cons maxCount maxBytes [c] 1 c.size rest
      have hrest := ih (List.cons_ne_nil c [])
      rw [show totalSize [c] = c.size from rfl, List.length_singleton, hcut] at hrest
      rw [hcut]
      refine .cons_cons (fun d hd hwithin => ?_) hrest
      obtain rfl : c = d := by simpa using hd
      have hperm : (run.reverse ++ [c]).Perm (c :: run) :=
        (List.perm_append_singleton c run.reverse).trans (run.reverse_perm.cons c)
      exact (full_iff hrun).mp hfull (hwithin.perm hperm)
    · rw [Nat.add_comm (totalSize run)]
      exact ih (by simp)

/-! ## How many parts there are -/

/-- In front of the same configs a lighter open run leads to no more parts, and any two
open runs to numbers of parts that differ by one at most. -/
theorem length_cut (rest : List Config) :
    (∀ {run run' : List Config} {count count' bytes bytes' : Nat},
      count ≤ count' → bytes ≤ bytes' →
        (cut maxCount maxBytes run count bytes rest).length ≤
          (cut maxCount maxBytes run' count' bytes' rest).length) ∧
    ∀ (run run' : List Config) (count count' bytes bytes' : Nat),
      (cut maxCount maxBytes run count bytes rest).length ≤
        (cut maxCount maxBytes run' count' bytes' rest).length + 1 := by
  induction rest with
  | nil => exact ⟨fun _ _ => Nat.le_refl _, fun _ _ _ _ _ _ => Nat.le_succ _⟩
  | cons c rest ih =>
    obtain ⟨hlighter, hany⟩ := ih
    constructor
    · intro run run' count count' bytes bytes' hcount hbytes
      rw [cut, cut]
      split
      · next hfull =>
        -- where the lighter run is full, so is the other
        have hfull' : full maxCount maxBytes count' bytes' c = true := by
          rw [← Bool.not_eq_false, full_eq_false_iff] at hfull ⊢
          exact fun hroom => hfull (hroom.mono (by omega) (by omega))
        rw [if_pos hfull']
        exact Nat.le_refl _
      · split
        · exact hany _ _ _ _ _ _
        · exact hlighter (by omega) (by omega)
    · intro run run' count count' bytes bytes'
      rw [cut, cut]
      split <;> split
      · exact Nat.le_succ _
      · exact Nat.succ_le_succ (hlighter (by omega) (by omega))
      · exact Nat.le_trans (hany _ _ _ _ _ _) (Nat.le_succ _)
      · exact hany _ _ _ _ _ _

theorem length_cut_le (run : List Config) (count bytes : Nat) (rest : List Config) :
    (cut maxCount maxBytes run count bytes rest).length ≤
      (subBatches maxCount maxBytes rest).length + 1 := by
  cases rest with
  | nil => exact Nat.le_refl 1
  | cons c rest =>
    rw [cut]
    split
    · exact Nat.le_refl _
    · exact (length_cut rest).2 _ _ _ _ _ _

/-- An open run takes in what may travel with its first config. -/
theorem cut_append_of_within {c : Config} {part : List Config}
    (h : Within maxCount maxBytes (c :: part)) (rest : List Config) :
    ∃ run count bytes, cut maxCount maxBytes [c] 1 c.size (part ++ rest) =
      cut maxCount maxBytes run count bytes rest := by
  by_cases hpart : part = []
  · exact ⟨[c], 1, c.size, by rw [hpart, List.nil_append]⟩
  · have hroom := (within_cons_iff hpart).mp h
    rw [Nat.add_comm, Nat.add_comm (totalSize part)] at hroom
    exact ⟨_, _, _, cut_append_of_room rest hroom⟩

/-- Nobody needs fewer parts. -/
theorem length_subBatches_le {parts : List (List Config)}
    (h : ∀ part ∈ parts, Within maxCount maxBytes part) :
    (subBatches maxCount maxBytes parts.flatten).length ≤ parts.length := by
  induction parts with
  | nil => exact Nat.le_refl 0
  | cons part parts ih =>
    obtain ⟨hpart, hparts⟩ := List.forall_mem_cons.mp h
    rw [List.flatten_cons, List.length_cons]
    cases part with
    | nil => exact Nat.le_trans (ih hparts) (Nat.le_succ _)
    | cons c part =>
      obtain ⟨run, count, bytes, hcut⟩ := cut_append_of_within hpart parts.flatten
      rw [List.cons_append, subBatches, hcut]
      exact Nat.le_trans (length_cut_le run count bytes parts.flatten)
        (Nat.succ_le_succ (ih hparts))

end SubBatch

open SubBatch (Partition Tight Within)

/-- **The sub-batches are the fewest parts that may travel.** Joined in order they are the
configs again, none is empty, and each may travel in one event: within the limit
on the number, but for one config alone, and within the size limit, but for one alone. None
could have taken the first config of the next. And no list of parts that may travel and
together are the configs is shorter. -/
theorem optimal_subBatches (maxCount : Option Nat) (maxBytes : Nat) (configs : List Config) :
    Partition maxCount maxBytes configs (subBatches maxCount maxBytes configs) ∧
    (∀ part ∈ subBatches maxCount maxBytes configs, part ≠ []) ∧
    (subBatches maxCount maxBytes configs).IsChain (Tight maxCount maxBytes) ∧
    ∀ parts, Partition maxCount maxBytes configs parts →
      (subBatches maxCount maxBytes configs).length ≤ parts.length := by
  have hparts : ∀ part ∈ subBatches maxCount maxBytes configs,
      part ≠ [] ∧ Within maxCount maxBytes part := by
    intro part hpart
    cases configs with
    | nil => cases hpart
    | cons c rest =>
      exact SubBatch.within_of_mem_cut (by simp) (SubBatch.within_singleton c) hpart
  refine ⟨⟨flatten_subBatches maxCount maxBytes configs, fun part hpart => (hparts part hpart).2⟩,
    fun part hpart => (hparts part hpart).1, ?_, fun parts hparts => ?_⟩
  · cases configs with
    | nil => exact .nil
    | cons c rest => exact SubBatch.tight_cut (List.cons_ne_nil c []) rest
  · rw [← hparts.whole]
    exact SubBatch.length_subBatches_le hparts.within

end Announcer
