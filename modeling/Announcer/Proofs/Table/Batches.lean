import Announcer.Proofs.Table.Records
/-!
# Batches of the table

`Table.inFlight` is what is on its way, as the batch that carries it. Taking a
batch from an idle table puts exactly that batch on its way (`inFlight_take`),
and a selection always is such a taking (`selectBatch_eq_take`), of whichever
records it chose.
-/
namespace Announcer

/-! ## Batches as a pair of maps -/
namespace Batch

/-- Batches with the same configs under every id are the same. -/
theorem ext_get? {a b : Batch} (ha : ∀ id, a.announced.get? id = b.announced.get? id)
    (hw : ∀ id, a.withdrawn.get? id = b.withdrawn.get? id) : a = b := by
  cases a
  cases b
  congr
  · exact StringMap.ext_get? ha
  · exact StringMap.ext_get? hw

theorem isEmpty_iff {b : Batch} : b.isEmpty = true ↔
    ∀ id, b.announced.get? id = none ∧ b.withdrawn.get? id = none := by
  rw [isEmpty, Bool.and_eq_true, StringMap.isEmpty_iff, StringMap.isEmpty_iff, forall_and]

end Batch

theorem Operation.announced?_or_withdrawn? (op : Operation) :
    op.announced?.isSome ∨ op.withdrawn?.isSome := by
  cases op
  · exact .inl rfl
  · exact .inr rfl

namespace Table

variable {t t' : Table} {id : String} {select : Record → Bool}

/-! ## What is on its way -/

/-- What is on its way. -/
def inFlight (t : Table) : Batch where
  announced := t.records.filterMap fun _ r => r.inFlightConfig
  withdrawn := t.records.filterMap fun _ r => r.inFlight.bind Operation.withdrawn?

theorem get?_filterMap_records {α : Type} {f : Record → Option α} (hf : f .blank = none)
    (t : Table) (id : String) :
    (t.records.filterMap fun _ r => f r).get? id = f (t.record id) := by
  rw [StringMap.get?_filterMap, record]
  cases t.records.get? id with
  | none => exact hf.symm
  | some r => rfl

theorem inFlight_announced (t : Table) (id : String) :
    t.inFlight.announced.get? id = (t.record id).inFlightConfig :=
  get?_filterMap_records rfl t id

theorem inFlight_withdrawn (t : Table) (id : String) :
    t.inFlight.withdrawn.get? id = (t.record id).inFlight.bind Operation.withdrawn? :=
  get?_filterMap_records rfl t id

/-- Tables with the same operations on their way carry the same batch. -/
theorem inFlight_congr (h : ∀ id, (t.record id).inFlight = (t'.record id).inFlight) :
    t.inFlight = t'.inFlight := by
  refine Batch.ext_get? (fun id => ?_) (fun id => ?_)
  · rw [inFlight_announced, inFlight_announced, Record.inFlightConfig, Record.inFlightConfig, h]
  · rw [inFlight_withdrawn, inFlight_withdrawn, h]

/-- An endpoint is on its way exactly when the batch has it. -/
theorem isSome_inFlight (t : Table) (id : String) : (t.record id).inFlight.isSome ↔
    id ∈ t.inFlight.announced.keys ∨ id ∈ t.inFlight.withdrawn.keys := by
  rw [StringMap.mem_keys_iff, StringMap.mem_keys_iff, inFlight_announced, inFlight_withdrawn,
    Record.inFlightConfig]
  cases h : (t.record id).inFlight with
  | none => simp
  | some op => simpa using op.announced?_or_withdrawn?

/-! ## Taking a batch -/

theorem get?_moved {α : Type} (f : Record → Option α) (t : Table) (select : Record → Bool)
    (id : String) :
    ((t.records.filter fun _ r => r.moves select).filterMap fun _ r => f r).get? id =
      if (t.record id).moves select then f (t.record id) else none := by
  rw [StringMap.get?_filterMap, StringMap.get?_filter]
  cases e : t.records.get? id with
  | none => simp [record, e, Record.moves, Record.blank]
  | some r =>
    rw [record_eq_get t id e]
    cases h : r.moves select with
    | true => simp [Option.filter, h]
    | false => simp [Option.filter, h]

theorem take_announced (t : Table) (select : Record → Bool) (id : String) :
    (t.take select).2.announced.get? id =
      if (t.record id).moves select then (t.record id).pendingConfig else none :=
  get?_moved Record.pendingConfig t select id

theorem take_withdrawn (t : Table) (select : Record → Bool) (id : String) :
    (t.take select).2.withdrawn.get? id =
      if (t.record id).moves select then (t.record id).pending.bind Operation.withdrawn?
      else none :=
  get?_moved (fun r => r.pending.bind Operation.withdrawn?) t select id

/-- From an idle table, all that waits to be announced is taken. -/
theorem takeAll_announced (ht : t.isIdle = true) {b : Batch} (h : t.takeAll.2 = some b)
    (id : String) : b.announced.get? id = (t.record id).pendingConfig := by
  have hbatch : (t.take fun _ => true).2 = b := by
    unfold takeAll batch? at h
    dsimp only at h
    split at h
    · cases h
    · cases h
      rfl
  rw [← hbatch, take_announced]
  split
  · rfl
  · next hm =>
    have hp : (t.record id).pending = none := by
      simpa [Record.moves, isIdle_iff.mp ht id] using hm
    rw [Record.pendingConfig, hp]
    rfl

/-- From an idle table, what is taken is what is then on its way. -/
theorem inFlight_take (h : t.isIdle = true) (select : Record → Bool) :
    (t.take select).1.inFlight = (t.take select).2 := by
  rw [isIdle_iff] at h
  refine Batch.ext_get? (fun id => ?_) (fun id => ?_)
  · rw [inFlight_announced, take_announced, record_take]
    split
    · rfl
    · simp [Record.inFlightConfig, h id]
  · rw [inFlight_withdrawn, take_withdrawn, record_take]
    split
    · rfl
    · simp [h id]

/-- An empty batch was taken only when no record was to move. -/
theorem moves_eq_false_of_take (h : (t.take select).2.isEmpty = true) (id : String) :
    (t.record id).moves select = false := by
  refine Bool.eq_false_iff.mpr fun hm => ?_
  have hnone := Batch.isEmpty_iff.mp h id
  rw [take_announced, take_withdrawn, if_pos hm, if_pos hm] at hnone
  simp only [Record.moves, Bool.and_eq_true] at hm
  obtain ⟨op, hop⟩ := Option.isSome_iff_exists.mp hm.1.1
  rw [Record.pendingConfig, hop, Option.bind_some, Option.bind_some] at hnone
  rcases op.announced?_or_withdrawn? with hs | hs
  · rw [hnone.1] at hs
    cases hs
  · rw [hnone.2] at hs
    cases hs

/-- Taking nothing changes nothing. -/
theorem take_of_isEmpty (h : (t.take select).2.isEmpty = true) : (t.take select).1 = t := by
  obtain ⟨records⟩ := t
  refine congrArg Table.mk (StringMap.ext_get? fun id => ?_)
  rw [StringMap.get?_map]
  cases e : records.get? id with
  | none => rfl
  | some r =>
    have hm := moves_eq_false_of_take h id
    rw [record_eq_get ⟨records⟩ id e] at hm
    unfold Record.moves at hm
    simp only [Option.map_some, hm, Bool.false_eq_true, if_false]

/-- Each selection takes a batch of the records that it chose. -/
theorem selectBatch_eq_take (t : Table) : ∃ select, t.selectBatch = batch? (t.take select) := by
  unfold selectBatch
  split
  · exact ⟨_, rfl⟩
  · dsimp only
    split
    · -- the first choice took nothing, so the second one sees the same table
      next h => exact ⟨_, by rw [take_of_isEmpty h]⟩
    · exact ⟨_, rfl⟩

/-- What every taking leaves, a selection leaves. -/
theorem selectBatch_of_take {P : Table → Prop} (h : ∀ select, P (t.take select).1) :
    P t.selectBatch.1 := by
  obtain ⟨select, hs⟩ := selectBatch_eq_take t
  rw [hs]
  exact h select

/-- An idle table of which nothing can be taken has nothing pending. -/
theorem hasPending_of_take (ht : t.isIdle = true) (h : (t.take fun _ => true).2.isEmpty = true) :
    t.hasPending = false := by
  refine hasPending_eq_false_iff.mpr fun id => ?_
  have hm := moves_eq_false_of_take h id
  simpa [Record.moves, isIdle_iff.mp ht id] using hm

theorem takeAll_none (ht : t.isIdle = true) (h : t.takeAll.2 = none) :
    t.takeAll.1 = t ∧ t.hasPending = false := by
  have he : (t.take fun _ => true).2.isEmpty = true := by simpa [takeAll, batch?] using h
  exact ⟨take_of_isEmpty he, hasPending_of_take ht he⟩

/-- A selection comes to nothing only when nothing is pending: what the first
choice leaves out, the second one takes. -/
theorem selectBatch_none (ht : t.isIdle = true) (h : t.selectBatch.2 = none) :
    t.selectBatch.1 = t ∧ t.hasPending = false := by
  unfold selectBatch at h ⊢
  split at h
  · next hf =>
    rw [if_pos hf]
    exact takeAll_none ht h
  · next hf =>
    rw [if_neg hf]
    dsimp only at h ⊢
    split at h
    · next hfirst =>
      rw [if_pos hfirst]
      rw [take_of_isEmpty hfirst] at h ⊢
      exact takeAll_none ht h
    · next hfirst => simp [batch?, hfirst] at h

/-- The batch that a selection hands out is what is then on its way. -/
theorem inFlight_batch? {b : Batch} (ht : t.isIdle = true)
    (h : (batch? (t.take select)).2 = some b) :
    (batch? (t.take select)).1.inFlight = b ∧ b.isEmpty = false := by
  simp only [batch?] at h ⊢
  split at h
  · cases h
  · next he =>
    cases h
    exact ⟨inFlight_take ht select, by simpa using he⟩

theorem inFlight_selectBatch {b : Batch} (ht : t.isIdle = true) (h : t.selectBatch.2 = some b) :
    t.selectBatch.1.inFlight = b ∧ b.isEmpty = false := by
  obtain ⟨select, hs⟩ := selectBatch_eq_take t
  rw [hs] at h ⊢
  exact inFlight_batch? ht h

theorem inFlight_takeAll {b : Batch} (ht : t.isIdle = true) (h : t.takeAll.2 = some b) :
    t.takeAll.1.inFlight = b ∧ b.isEmpty = false :=
  inFlight_batch? ht h

/-! ## Operations that leave nothing on its way -/

theorem isIdle_reclaim (t : Table) : t.reclaim.1.isIdle = true :=
  isIdle_iff.mpr fun id => by rw [record_reclaim]; rfl

theorem isIdle_complete (t : Table) : t.complete.1.isIdle = true :=
  isIdle_iff.mpr fun id => by rw [record_complete]; simp

theorem isIdle_abandon (t : Table) : t.abandon.1.isIdle = true :=
  isIdle_iff.mpr fun id => by rw [record_abandon]; simp

theorem isIdle_iff_inFlight : t.isIdle = true ↔ t.inFlight.isEmpty = true := by
  rw [isIdle_iff, Batch.isEmpty_iff]
  refine forall_congr' fun id => ?_
  rw [inFlight_announced, inFlight_withdrawn, Record.inFlightConfig]
  cases (t.record id).inFlight with
  | none => simp
  | some op => cases op <;> simp [Operation.announced?, Operation.withdrawn?]

/-! ## Operations that leave what is on its way -/

theorem isIdle_of_inFlight_eq (h : t'.inFlight = t.inFlight) (ht : t.isIdle = true) :
    t'.isIdle = true := by
  rw [isIdle_iff_inFlight] at ht ⊢
  rwa [h]

theorem inFlight_announce {registration : Option Registration} {config : Config}
    {ids : List String} (h : t.announce id registration config = .ok (t', ids)) :
    t'.inFlight = t.inFlight := by
  refine inFlight_congr fun j => ?_
  rw [record_announce h]
  split
  · next hj => rw [hj]
  · split
    · exact Record.requeue_inFlight _
    · rfl

theorem inFlight_withdraw {registration : Option Registration}
    (h : t.withdraw id registration = .ok t') : t'.inFlight = t.inFlight := by
  obtain ⟨-, -, -, -, hrec⟩ := withdraw_eq_ok h
  refine inFlight_congr fun j => ?_
  rw [hrec]
  split
  · next hj => rw [hj]
  · rfl

theorem inFlight_confirmStored (t : Table) (stored : Configs) :
    (t.confirmStored stored).inFlight = t.inFlight := by
  refine inFlight_congr fun j => ?_
  rw [record_confirmStored]
  split <;> rfl

theorem inFlight_withdrawStale (t : Table) (stored : Configs) :
    (t.withdrawStale stored).inFlight = t.inFlight := by
  refine inFlight_congr fun j => ?_
  rw [record_withdrawStale]
  split <;> rfl

theorem inFlight_reconcile (t : Table) (stored : Configs) :
    (t.reconcile stored).1.inFlight = t.inFlight := by
  unfold reconcile
  split
  · refine inFlight_congr fun j => ?_
    rw [record_republish, Record.renew_inFlight]
  · rw [inFlight_withdrawStale, inFlight_confirmStored]

/-! ## Landing -/

/-- The ids that landing reports are those of the batch. -/
theorem complete_ids (t : Table) :
    t.complete.2 = (t.inFlight.announced.keys, t.inFlight.withdrawn.keys) := by
  rw [inFlight, StringMap.keys_filterMap, StringMap.keys_filterMap]
  show (t.idsWhere _, t.idsWhere _) = (t.idsWhere _, t.idsWhere _)
  congr
  funext r
  cases r.inFlight <;> rfl

/-- Landing confirms what the batch announces, forgets what it withdraws, and
leaves the rest. -/
theorem confirmed_complete (t : Table) (id : String) : (t.complete.1.record id).confirmed =
    if id ∈ t.inFlight.withdrawn.keys then none
    else t.inFlight.announced.get? id <|> (t.record id).confirmed := by
  rw [record_complete, Record.kept_confirmed, Record.land_confirmed]
  simp only [StringMap.mem_keys_iff, inFlight_announced, inFlight_withdrawn, Record.inFlightConfig]
  cases (t.record id).inFlight with
  | none => rfl
  | some op => cases op <;> simp [Operation.announced?, Operation.withdrawn?]

end Table

end Announcer
