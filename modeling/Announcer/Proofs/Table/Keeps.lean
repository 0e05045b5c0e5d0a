import Announcer.Proofs.Table.Batches
/-!
# Operations that only move things about

A request, a selection and a bootstrap leave what is confirmed as it is, except
that a bootstrap confirms what it finds stored, and an endpoint of which
something is pending or on its way stays so (`Record.Keeps`). Only landing or
dropping a batch does more, and that to the endpoints it carries.
-/
namespace Announcer

namespace Record

/-- True when something is pending or on its way. -/
def isBusy (r : Record) : Bool := r.pending.isSome || r.inFlight.isSome

/-- What is confirmed stays, and what is busy stays busy. -/
structure Keeps (r r' : Record) : Prop where
  confirmed : r'.confirmed = r.confirmed
  busy : r.isBusy = true → r'.isBusy = true

namespace Keeps

variable {r r' r'' : Record}

theorem refl (r : Record) : r.Keeps r := ⟨rfl, id⟩

theorem trans (h : r.Keeps r') (h' : r'.Keeps r'') : r.Keeps r'' :=
  ⟨h'.confirmed.trans h.confirmed, h'.busy ∘ h.busy⟩

/-- Whatever is pending, the record is busy. -/
theorem of_pending (hc : r'.confirmed = r.confirmed) (hp : r'.pending.isSome) : r.Keeps r' :=
  ⟨hc, fun _ => by rw [isBusy, hp]; rfl⟩

end Keeps

theorem keeps_requeue (r : Record) : r.Keeps r.requeue := by
  unfold requeue
  split
  · exact .of_pending rfl rfl
  · exact .refl r

theorem keeps_regain (r : Record) : r.Keeps r.regain := by
  refine ⟨rfl, fun h => ?_⟩
  unfold isBusy at h
  unfold isBusy regain
  cases hp : r.pending with
  | some op => rfl
  | none => simpa [hp] using h

theorem keeps_renew (r : Record) : r.Keeps r.renew := by
  unfold renew
  split
  · exact .of_pending rfl rfl
  · exact .refl r

theorem keeps_launch {r : Record} (h : r.inFlight = none) : r.Keeps r.launch := by
  refine ⟨rfl, fun hb => ?_⟩
  simpa [isBusy, launch, h] using hb

end Record

open Record (Keeps)

namespace Table

variable {t t' : Table} {id : String}

theorem keeps_announce {registration : Option Registration} {config : Config} {ids : List String}
    (h : t.announce id registration config = .ok (t', ids)) (j : String) :
    Keeps (t.record j) (t'.record j) := by
  rw [record_announce h]
  split
  · next hj => subst hj; exact .of_pending rfl rfl
  · split
    · exact Record.keeps_requeue _
    · exact .refl _

theorem keeps_withdraw {registration : Option Registration}
    (h : t.withdraw id registration = .ok t') (j : String) :
    Keeps (t.record j) (t'.record j) := by
  obtain ⟨-, -, -, -, hrec⟩ := withdraw_eq_ok h
  rw [hrec]
  split
  · next hj => subst hj; exact .of_pending rfl rfl
  · exact .refl _

theorem keeps_reclaim (t : Table) (j : String) : Keeps (t.record j) (t.reclaim.1.record j) := by
  rw [record_reclaim]
  exact Record.keeps_regain _

theorem keeps_take (t : Table) (select : Record → Bool) (j : String) :
    Keeps (t.record j) ((t.take select).1.record j) := by
  rw [record_take]
  split
  · next h =>
    simp only [Record.moves, Bool.and_eq_true, Option.isNone_iff_eq_none] at h
    exact Record.keeps_launch h.1.2
  · exact .refl _

theorem keeps_selectBatch (t : Table) (j : String) :
    Keeps (t.record j) (t.selectBatch.1.record j) :=
  selectBatch_of_take (P := fun t' => Keeps (t.record j) (t'.record j)) fun select =>
    keeps_take t select j

theorem mem_reconcile_ids {stored : Configs} (he : stored.isEmpty = false) :
    id ∈ (t.reconcile stored).2 ↔ isStored stored id (t.record id) = true := by
  unfold reconcile
  rw [if_neg (by simp [he]), StringMap.mem_keys_iff, StringMap.get?_filter, record]
  cases t.records.get? id with
  | none => simp [isStored, Record.blank, Record.pendingConfig]
  | some r => simp [Option.isSome_filter]

theorem keeps_withdrawStale (t : Table) (stored : Configs) (j : String) :
    Keeps (t.record j) ((t.withdrawStale stored).record j) := by
  rw [record_withdrawStale]
  split
  · exact .of_pending rfl rfl
  · exact .refl _

/-- What a bootstrap does to an endpoint: it finds it stored and confirms it, or
keeps it as it is. -/
theorem reconcile_record (t : Table) (stored : Configs) (j : String) :
    (j ∉ (t.reconcile stored).2 → Keeps (t.record j) ((t.reconcile stored).1.record j)) ∧
      (j ∈ (t.reconcile stored).2 → (stored.get? j).isSome ∧
        ((t.reconcile stored).1.record j).confirmed.isSome) := by
  cases he : stored.isEmpty with
  | true =>
    have hids : (t.reconcile stored).2 = [] := by rw [reconcile, if_pos he]
    refine ⟨fun _ => ?_, fun h => ?_⟩
    · rw [reconcile, if_pos he, record_republish]
      exact Record.keeps_renew _
    · rw [hids] at h
      cases h
  | false =>
    have htable : (t.reconcile stored).1 = (t.confirmStored stored).withdrawStale stored := by
      rw [reconcile, if_neg (by simp [he])]
    have hstale := (t.confirmStored stored).keeps_withdrawStale stored j
    rw [mem_reconcile_ids he, htable]
    rw [record_confirmStored] at hstale
    refine ⟨fun hno => ?_, fun hyes => ?_⟩
    · rwa [if_neg hno] at hstale
    · rw [if_pos hyes] at hstale
      obtain ⟨c, s, hc, hs, -⟩ := isStored_iff.mp hyes
      rw [hstale.confirmed]
      exact ⟨by rw [hs]; rfl, by rw [hc]; rfl⟩

/-- Landing a batch leaves the endpoints alone that it does not carry. -/
theorem busy_complete {j : String} (hj : (t.record j).inFlight = none)
    (h : (t.record j).isBusy = true) : (t.complete.1.record j).isBusy = true := by
  rw [record_complete]
  simpa [Record.isBusy, hj] using h

theorem busy_abandon {j : String} (hj : (t.record j).inFlight = none)
    (h : (t.record j).isBusy = true) : (t.abandon.1.record j).isBusy = true := by
  rw [record_abandon]
  simpa [Record.isBusy, hj] using h

end Table

end Announcer
