import Mathlib
import Announcer.Proofs.Table.Admission
/-!
# Selecting a batch

A selection has three ways. While all that waits to be announced fits into one event,
everything goes. Otherwise what is `Record.isFree` goes first, that is withdrawals and what has no
registration, and the announcements of the group stay; and when nothing is free, the group
goes. In the first way nothing of the group can be cut, in the second there is nothing of it,
and in the third the group alone was too much already.

So whatever is free is gone after one batch, and everything is gone after two.

Results: `selected_selectBatch` says this of every idle table, whatever run led to it.
-/
namespace Announcer

open SubBatch (Fits)

/-! ## What a batch carries -/

/-- The operation that a batch carries for an endpoint. -/
def Batch.operation? (b : Batch) (id : String) : Option Operation :=
  (b.announced.get? id).map .announce <|> (b.withdrawn.get? id).map .withdraw

/-- True for a record whose operation does not wait for the group. -/
def Record.isFree (r : Record) : Bool :=
  r.registration.isNone || r.pending.any Operation.isWithdrawal

namespace Table

variable {t : Table} {id : String} {select : Record → Bool}

/-! ## Taking, endpoint by endpoint -/

/-- What is taken of an endpoint is what was pending of it. -/
theorem operation?_take (t : Table) (select : Record → Bool) (id : String) :
    (t.take select).2.operation? id =
      if (t.record id).moves select then (t.record id).pending else none := by
  rw [Batch.operation?, take_announced, take_withdrawn]
  split
  · rw [Record.pendingConfig]
    cases (t.record id).pending with
    | none => rfl
    | some op => cases op <;> rfl
  · rfl

/-- From an idle table, the selected records with something pending move. -/
theorem moves_of_isIdle (ht : t.isIdle = true) (select : Record → Bool) (id : String) :
    (t.record id).moves select = ((t.record id).pending.isSome && select (t.record id)) := by
  rw [Record.moves, isIdle_iff.mp ht id, Option.isNone_none, Bool.and_true]

/-- `b` carries just the operations that moved between two tables, and nothing else changed. -/
structure Moved (t : Table) (b : Batch) (t' : Table) : Prop where
  /-- What is carried was pending, and is on its way. -/
  carried : ∀ id op, b.operation? id = some op → (t.record id).pending = some op ∧
    t'.records.get? id = some { t.record id with pending := none, inFlight := some op }
  rest : ∀ id, b.operation? id = none → t'.records.get? id = t.records.get? id
  /-- Nobody is announced and withdrawn at once. -/
  exclusive : ∀ id, b.announced.get? id = none ∨ b.withdrawn.get? id = none

/-- A record has one operation pending, so it is not announced and withdrawn at once. -/
theorem exclusive_take (t : Table) (select : Record → Bool) (id : String) :
    (t.take select).2.announced.get? id = none ∨ (t.take select).2.withdrawn.get? id = none := by
  rw [take_announced, take_withdrawn]
  split
  · rw [Record.pendingConfig]
    cases (t.record id).pending with
    | none => exact .inl rfl
    | some op =>
      cases op with
      | announce c => exact .inr rfl
      | withdraw c => exact .inl rfl
  · exact .inl rfl

theorem moved_take (t : Table) (select : Record → Bool) :
    Moved t (t.take select).2 (t.take select).1 := by
  have hget : ∀ id, (t.take select).1.records.get? id =
      (t.records.get? id).map fun r => if r.moves select then r.launch else r :=
    fun id => StringMap.get?_map _ t.records id
  refine ⟨fun id op hop => ?_, fun id hno => ?_, exclusive_take t select⟩
  · rw [operation?_take] at hop
    split at hop
    · next hm =>
      refine ⟨hop, ?_⟩
      rw [hget]
      cases e : t.records.get? id with
      | none => simp [record, e, Record.blank] at hop
      | some r =>
        rw [record_eq_get t id e] at hm hop ⊢
        rw [Option.map_some, if_pos hm, Record.launch, hop]
    · cases hop
  · rw [operation?_take] at hno
    rw [hget]
    cases e : t.records.get? id with
    | none => rfl
    | some r =>
      rw [record_eq_get t id e] at hno
      have hm : r.moves select = false := by
        refine Bool.eq_false_iff.mpr fun hm => ?_
        rw [if_pos hm] at hno
        simp [Record.moves, hno] at hm
      rw [Option.map_some, hm, if_neg Bool.false_ne_true]

/-- What a taking hands out is what it took. -/
theorem batch?_eq_some {r : Table × Batch} {b : Batch} (h : (batch? r).2 = some b) :
    r.2 = b ∧ b.isEmpty = false := by
  unfold batch? at h
  dsimp only at h
  split at h
  · cases h
  · next he =>
    cases h
    exact ⟨rfl, by simpa using he⟩

/-! ## The three ways -/

theorem selectBatch_eq (t : Table) : t.selectBatch =
    if t.fitsOneEvent then t.takeAll
    else if (t.take Record.isFree).2.isEmpty then t.takeAll
    else batch? (t.take Record.isFree) := by
  unfold selectBatch
  split
  · rfl
  · show (if (t.take Record.isFree).2.isEmpty then
      batch? ((t.take Record.isFree).1.take fun _ => true) else _) = _
    split
    · next he => rw [take_of_isEmpty he, takeAll]
    · rfl

/-- Everything goes together, or what is free goes first, or nothing is free and
the group goes. -/
inductive Way (t : Table) : Prop where
  | together (fits : t.fitsOneEvent = true) (all : t.selectBatch = t.takeAll)
  | free (some : t.selectBatch = batch? (t.take Record.isFree))
  | group (none : ∀ id, (t.record id).moves Record.isFree = false)
      (all : t.selectBatch = t.takeAll)

theorem way (t : Table) : t.Way := by
  have heq := t.selectBatch_eq
  split at heq
  · next hf => exact .together hf heq
  · split at heq
    · next he => exact .group (moves_eq_false_of_take he) heq
    · exact .free heq

/-- When nothing is free, everything is taken. -/
theorem selectBatch_of_none_free (h : ∀ id, (t.record id).moves Record.isFree = false) :
    t.selectBatch = t.takeAll := by
  have hempty : (t.take Record.isFree).2.isEmpty = true := by
    refine Batch.isEmpty_iff.mpr fun id => ?_
    rw [take_announced, take_withdrawn, h id]
    exact ⟨rfl, rfl⟩
  rw [selectBatch_eq, if_pos hempty, ite_self]

/-! ## The group -/

/-- The configs that wait to be announced. -/
def waiting (t : Table) : Configs := t.records.filterMap fun _ r => r.pendingConfig

theorem fitsOneEvent_iff (t : Table) : t.fitsOneEvent = true ↔
    Fits (some maxEndpointsPerReport) maxConfigBytesPerEvent t.waiting.values := by
  have hvalues : t.waiting.values = t.records.values.filterMap Record.pendingConfig := by
    simp only [waiting, StringMap.values, StringMap.filterMap, List.map_filterMap,
      List.filterMap_map]
    refine List.filterMap_congr fun e _ => ?_
    cases h : e.2.pendingConfig <;> simp [h]
  rw [hvalues, fitsOneEvent, Bool.and_eq_true, decide_eq_true_eq, decide_eq_true_eq]
  constructor
  · rintro ⟨hcount, hbytes⟩
    exact ⟨fun max hmax => Option.some.inj hmax ▸ hcount, hbytes⟩
  · rintro ⟨hcount, hbytes⟩
    exact ⟨hcount _ rfl, hbytes⟩

theorem announced_takeAll (ht : t.isIdle = true) {b : Batch} (h : t.takeAll.2 = some b) :
    b.announced = t.waiting := by
  refine StringMap.ext_get? fun id => ?_
  rw [takeAll_announced ht h, waiting, get?_filterMap_records rfl]

/-- When nothing is free, the group is all that waits. -/
theorem enrolledConfigs_of_none_free (ht : t.isIdle = true)
    (h : ∀ id, (t.record id).moves Record.isFree = false) :
    t.enrolledConfigs Record.pendingConfig = t.waiting := by
  refine StringMap.ext_get? fun id => ?_
  rw [get?_enrolledConfigs, waiting, get?_filterMap_records rfl]
  split
  · rfl
  · next hreg =>
    have hm := h id
    rw [moves_of_isIdle ht, Record.isFree, Option.not_isSome_iff_eq_none.mp hreg] at hm
    have hp : (t.record id).pending = none := by simpa using hm
    rw [Record.pendingConfig, hp]
    rfl

/-- **What a selection hands out.** The batch is not empty and is what moved; it withdraws
all that is to be withdrawn; and if it announces somebody with a registration, it announces all
of them, and does not cut them if together they fit into one event. -/
structure Selected (t : Table) (b : Batch) (t' : Table) : Prop extends Moved t b t' where
  nonempty : b.isEmpty = false
  withdrawals : ∀ id c, (t.record id).pending = some (.withdraw c) →
    b.withdrawn.get? id = some c
  whole : ∀ id, (t.record id).registration.isSome → (b.announced.get? id).isSome →
    ∀ j c, (t.record j).registration.isSome → (t.record j).pending = some (.announce c) →
      b.announced.get? j = some c
  uncut : ∀ id, (t.record id).registration.isSome → (b.announced.get? id).isSome →
    Fits (some maxEndpointsPerReport) maxConfigBytesPerEvent
      (t.enrolledConfigs Record.pendingConfig).values →
    subBatches (some maxEndpointsPerReport) maxConfigBytesPerEvent b.announced.values =
      [b.announced.values]

theorem selected_takeAll (ht : t.isIdle = true) {b : Batch} (hb : t.takeAll.2 = some b)
    (hfits : Fits (some maxEndpointsPerReport) maxConfigBytesPerEvent
      (t.enrolledConfigs Record.pendingConfig).values →
      Fits (some maxEndpointsPerReport) maxConfigBytesPerEvent t.waiting.values) :
    Selected t b t.takeAll.1 := by
  obtain ⟨htake, hnonempty⟩ := batch?_eq_some hb
  have hannounced := takeAll_announced ht hb
  refine ⟨htake ▸ moved_take t _, hnonempty, fun id c hc => ?_, fun _ _ _ j c _ hc => ?_,
    fun id _ hid hgroup => ?_⟩
  · rw [← htake, take_withdrawn, moves_of_isIdle ht, hc]
    rfl
  · rw [hannounced, Record.pendingConfig, hc]
    rfl
  · refine subBatches_of_fits (fun hnil => ?_) (announced_takeAll ht hb ▸ hfits hgroup)
    obtain ⟨c, hc⟩ := Option.isSome_iff_exists.mp hid
    have hmem : c ∈ b.announced.values := StringMap.mem_values_iff.mpr ⟨id, hc⟩
    rw [hnil] at hmem
    cases hmem

/-- What is free of an endpoint with a registration is its withdrawal. -/
theorem announced_take_isFree (hreg : (t.record id).registration.isSome) :
    (t.take Record.isFree).2.announced.get? id = none := by
  obtain ⟨r, hr⟩ := Option.isSome_iff_exists.mp hreg
  rw [take_announced, Record.moves, Record.isFree, hr, Record.pendingConfig]
  cases (t.record id).pending with
  | none => rfl
  | some op =>
    cases op with
    | announce c => simp [Operation.isWithdrawal, Operation.withdrawn?]
    | withdraw c => simp [Operation.announced?]

theorem selected_free (ht : t.isIdle = true) {b : Batch}
    (hb : (batch? (t.take Record.isFree)).2 = some b) :
    Selected t b (t.take Record.isFree).1 := by
  obtain ⟨rfl, hnonempty⟩ := batch?_eq_some hb
  have hnobody : ∀ {id}, (t.record id).registration.isSome →
      ¬ ((t.take Record.isFree).2.announced.get? id).isSome := by
    intro id hreg
    simp [announced_take_isFree hreg]
  refine ⟨moved_take t _, hnonempty, fun id c hc => ?_,
    fun id hreg hid => absurd hid (hnobody hreg), fun id hreg hid => absurd hid (hnobody hreg)⟩
  rw [take_withdrawn, moves_of_isIdle ht, Record.isFree, hc]
  simp [Operation.isWithdrawal, Operation.withdrawn?]

theorem selected_of_some (ht : t.isIdle = true) {b : Batch} (hb : t.selectBatch.2 = some b) :
    Selected t b t.selectBatch.1 := by
  cases t.way with
  | together hf hall =>
    rw [hall] at hb ⊢
    exact selected_takeAll ht hb fun _ => t.fitsOneEvent_iff.mp hf
  | free hfree =>
    rw [hfree] at hb ⊢
    exact selected_free ht hb
  | group hnone hall =>
    rw [hall] at hb ⊢
    exact selected_takeAll ht hb fun hgroup => enrolledConfigs_of_none_free ht hnone ▸ hgroup

/-! ## Two batches -/

theorem pending_takeAll (ht : t.isIdle = true) (id : String) :
    (t.takeAll.1.record id).pending = none := by
  rw [record_takeAll ht]
  rfl

/-- What is still pending after a selection is not free. -/
theorem isFree_eq_false_of_selectBatch (ht : t.isIdle = true) (id : String)
    (hp : (t.selectBatch.1.record id).pending.isSome) :
    (t.selectBatch.1.record id).isFree = false := by
  have hall : t.selectBatch = t.takeAll → (t.selectBatch.1.record id).isFree = false := by
    intro hall
    rw [hall, pending_takeAll ht] at hp
    cases hp
  cases t.way with
  | together _ h => exact hall h
  | group _ h => exact hall h
  | free hfree =>
    rw [hfree] at hp ⊢
    rw [show (batch? (t.take Record.isFree)).1 = (t.take Record.isFree).1 from rfl, record_take]
      at hp ⊢
    split at hp
    · cases hp
    · next hm =>
      rw [if_neg hm]
      rw [moves_of_isIdle ht, hp, Bool.true_and] at hm
      simpa using hm

/-- Landing leaves a record with something pending, but for what was on its way. -/
theorem isFree_complete (t : Table) (id : String) (hp : (t.record id).pending.isSome) :
    (t.complete.1.record id).isFree = (t.record id).isFree := by
  have hkept : (t.record id).land.kept = (t.record id).land := by
    rw [Record.kept, Record.isVacant, Record.land_pending, Option.isNone_eq_false_iff.mpr hp,
      Bool.and_false, Bool.false_and, if_neg Bool.false_ne_true]
  rw [record_complete, hkept, Record.isFree, Record.isFree, Record.land_registration,
    Record.land_pending]

theorem pending_complete (t : Table) (id : String) :
    (t.complete.1.record id).pending = (t.record id).pending := by
  rw [record_complete, Record.kept_pending, Record.land_pending]

/-- The second batch takes what the first one left. -/
theorem hasPending_two_batches (ht : t.isIdle = true) :
    (t.run [.select, .complete, .select, .complete]).hasPending = false := by
  have hidle : t.selectBatch.1.complete.1.isIdle = true := isIdle_complete _
  have hnone : ∀ id, (t.selectBatch.1.complete.1.record id).moves Record.isFree = false := by
    intro id
    rw [moves_of_isIdle hidle, pending_complete]
    cases hp : (t.selectBatch.1.record id).pending.isSome with
    | false => rfl
    | true => rw [isFree_complete _ id hp, isFree_eq_false_of_selectBatch ht id hp, Bool.and_false]
  refine hasPending_eq_false_iff.mpr fun id => ?_
  show (t.selectBatch.1.complete.1.selectBatch.1.complete.1.record id).pending = none
  rw [pending_complete, selectBatch_of_none_free hnone, pending_takeAll hidle]

/-- **Selection loses nothing and comes to an end.** From a table with nothing on its way, a
selection comes to nothing just when nothing is pending, and then changes nothing; else it
hands out a batch as `Selected` says. After two batches that land nothing is pending. -/
theorem selected_selectBatch (t : Table) (ht : t.isIdle = true) :
    (t.selectBatch.2 = none ↔ t.hasPending = false) ∧
    (t.selectBatch.2 = none → t.selectBatch.1 = t) ∧
    (∀ b, t.selectBatch.2 = some b → Selected t b t.selectBatch.1) ∧
    (t.run [.select, .complete, .select, .complete]).hasPending = false := by
  refine ⟨⟨fun h => (selectBatch_none ht h).2, fun h => ?_⟩, fun h => (selectBatch_none ht h).1,
    fun b hb => selected_of_some ht hb, hasPending_two_batches ht⟩
  by_contra hne
  obtain ⟨b, hb⟩ := Option.ne_none_iff_exists'.mp hne
  have hsel := selected_of_some ht hb
  have hempty : b.isEmpty = true := by
    refine Batch.isEmpty_iff.mpr fun id => ?_
    have hno : b.operation? id = none := by
      cases hop : b.operation? id with
      | none => rfl
      | some op =>
        have hp := (hsel.carried id op hop).1
        rw [hasPending_eq_false_iff.mp h id] at hp
        cases hp
    simpa [Batch.operation?] using hno
  rw [hsel.nonempty] at hempty
  cases hempty

/-- A member of the group waits, and an endpoint without a registration. -/
def crowded (config : Config) : Table :=
  Table.empty.run [.announce "a" (some groupKey) ⟨"1"⟩, .announce "plain" none config]

theorem isIdle_crowded (config : Config) : (crowded config).isIdle = true := by cbv

/-- When the two do not go together, the member stays. -/
theorem selectBatch_crowded {config : Config} (h : maxConfigBytesPerEvent ≤ config.size) :
    (crowded config).selectBatch.2 = some ⟨.insert .empty "plain" config, .empty⟩ := by
  have hwaiting : (crowded config).waiting.values = [⟨"1"⟩, config] := by cbv
  have hfits : (crowded config).fitsOneEvent = false := by
    refine Bool.eq_false_iff.mpr fun hf => ?_
    have hbytes := ((fitsOneEvent_iff _).mp hf).bytes
    rw [hwaiting, totalSize, totalSize, show Config.size ⟨"1"⟩ = 1 from rfl] at hbytes
    omega
  have hfirst : ((crowded config).take Record.isFree).2 =
      ⟨.insert .empty "plain" config, .empty⟩ := by cbv
  rw [selectBatch_eq, hfits, if_neg Bool.false_ne_true, batch?, hfirst]
  rfl

/-- The endpoint that fills the event goes first, and the member with the second batch. -/
theorem selected_crowded :
    let t := crowded (.ofSize maxConfigBytesPerEvent)
    t.isIdle = true ∧
      Selected t ⟨.insert .empty "plain" (.ofSize maxConfigBytesPerEvent), .empty⟩
        t.selectBatch.1 ∧
      (t.run [.select, .complete, .select, .complete]).hasPending = false := by
  have hidle := isIdle_crowded (.ofSize maxConfigBytesPerEvent)
  have hbatch := selectBatch_crowded (Nat.le_of_eq (Config.size_ofSize _).symm)
  obtain ⟨-, -, hselected, hboth⟩ := selected_selectBatch _ hidle
  exact ⟨hidle, hselected _ hbatch, hboth⟩

end Table

end Announcer
