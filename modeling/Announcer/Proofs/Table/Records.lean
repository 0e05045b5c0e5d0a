import Announcer.Proofs.StringMap
import Announcer.Table
/-!
# The table, one record at a time

Each operation of the endpoint table changes every record by a function of that
record alone (a request changes one record and queues the group again). The
`record_…` theorems state these functions; all other proofs about the table
start from them and do not open the operations.

A table says the same of an endpoint that it has no record of as of a `blank`
one, so pruning shows only as `Record.kept`.
-/
namespace Announcer

/-! ## Records -/
namespace Record

/-- What pruning leaves of a record. -/
def kept (r : Record) : Record := if r.isVacant then .blank else r

/-- The record after its operation was accepted. -/
def land (r : Record) : Record :=
  match r.inFlight with
  | some (.announce c) => { r with confirmed := some c, inFlight := none }
  | some (.withdraw _) => { r with confirmed := none, inFlight := none }
  | none => r

/-- The record after its operation was taken back. -/
def regain (r : Record) : Record := { r with pending := r.pending <|> r.inFlight, inFlight := none }

/-- The record after the group was queued again. -/
def requeue (r : Record) : Record :=
  match r.requeueConfig with
  | some c => { r with pending := some (.announce c) }
  | none => r

/-- The record after everything confirmed was queued again. -/
def renew (r : Record) : Record :=
  match r.pending, r.confirmed with
  | none, some c => { r with pending := some (.announce c) }
  | _, _ => r

/-- True when a selection takes the record's operation. -/
def moves (select : Record → Bool) (r : Record) : Bool :=
  r.pending.isSome && r.inFlight.isNone && select r

theorem isVacant_iff {r : Record} :
    r.isVacant = true ↔ r.confirmed = none ∧ r.pending = none ∧ r.inFlight = none := by
  simp [isVacant, and_assoc]

@[simp] theorem kept_confirmed (r : Record) : r.kept.confirmed = r.confirmed := by
  unfold kept; split
  · next h => exact (isVacant_iff.mp h).1.symm
  · rfl

@[simp] theorem kept_pending (r : Record) : r.kept.pending = r.pending := by
  unfold kept; split
  · next h => exact (isVacant_iff.mp h).2.1.symm
  · rfl

@[simp] theorem kept_inFlight (r : Record) : r.kept.inFlight = r.inFlight := by
  unfold kept; split
  · next h => exact (isVacant_iff.mp h).2.2.symm
  · rfl

@[simp] theorem land_pending (r : Record) : r.land.pending = r.pending := by
  unfold land; split <;> rfl

@[simp] theorem land_inFlight (r : Record) : r.land.inFlight = none := by
  unfold land; split
  · rfl
  · rfl
  · assumption

theorem land_confirmed (r : Record) : r.land.confirmed =
    match r.inFlight with
    | some op => op.announced?
    | none => r.confirmed := by
  unfold land; split <;> simp_all [Operation.announced?]

@[simp] theorem requeue_inFlight (r : Record) : r.requeue.inFlight = r.inFlight := by
  unfold requeue; split <;> rfl

@[simp] theorem requeue_confirmed (r : Record) : r.requeue.confirmed = r.confirmed := by
  unfold requeue; split <;> rfl

@[simp] theorem renew_inFlight (r : Record) : r.renew.inFlight = r.inFlight := by
  unfold renew; split <;> rfl

@[simp] theorem renew_confirmed (r : Record) : r.renew.confirmed = r.confirmed := by
  unfold renew; split <;> rfl

theorem requeueConfig_eq_some {r : Record} {c : Config} : r.requeueConfig = some c ↔
    r.registration.isSome ∧ r.pending = none ∧ r.sentConfig = some c := by
  simp [requeueConfig, and_assoc]

@[simp] theorem land_registration (r : Record) : r.land.registration = r.registration := by
  unfold land; split <;> rfl

@[simp] theorem requeue_registration (r : Record) : r.requeue.registration = r.registration := by
  unfold requeue; split <;> rfl

@[simp] theorem renew_registration (r : Record) : r.renew.registration = r.registration := by
  unfold renew; split <;> rfl

/-- Pruning takes a record away or leaves it alone. -/
theorem kept_cases (r : Record) : r.kept = .blank ∨ r.kept = r := by
  unfold kept; split
  · exact .inl rfl
  · exact .inr rfl

theorem kept_of_registration {r : Record} (h : r.kept.registration.isSome) : r.kept = r := by
  rcases r.kept_cases with hk | hk
  · rw [hk] at h
    cases h
  · exact hk

/-- A record of which something is known has a config, unless it is being withdrawn. -/
theorem latestConfig_isSome {r : Record} (hv : r.isVacant = false) (hw : r.hasWithdrawal = false) :
    r.latestConfig.isSome := by
  obtain ⟨registration, confirmed, pending, inFlight⟩ := r
  have hannounced : ∀ op : Operation, op.isWithdrawal = false → op.announced?.isSome := by
    intro op hop
    cases op with
    | announce c => rfl
    | withdraw c => cases hop
  simp only [hasWithdrawal, Bool.or_eq_false_iff] at hw
  unfold latestConfig sentConfig pendingConfig inFlightConfig
  cases pending with
  | some op => simp [Option.isSome_or, hannounced op hw.1]
  | none =>
    cases inFlight with
    | some op => simp [Option.isSome_or, hannounced op hw.2]
    | none => simpa [isVacant] using hv

end Record

namespace Table

variable {t t' : Table} {id j : String}

/-! ## Views of a table -/

theorem record_eq_get (t : Table) (id : String) {r : Record} (h : t.records.get? id = some r) :
    t.record id = r := by
  simp [record, h]

theorem record_map {f : String → Record → Record} (hf : ∀ id, f id .blank = .blank)
    (t : Table) (id : String) : (⟨t.records.map f⟩ : Table).record id = f id (t.record id) := by
  simp only [record, StringMap.get?_map]
  cases t.records.get? id with
  | none => exact (hf id).symm
  | some r => rfl

theorem record_insert (t : Table) (id : String) (r : Record) (j : String) :
    (⟨t.records.insert id r⟩ : Table).record j = if j = id then r else t.record j := by
  simp only [record, StringMap.get?_insert]
  split <;> rfl

theorem record_prune (t : Table) (id : String) : t.prune.record id = (t.record id).kept := by
  simp only [record, prune, StringMap.get?_filter]
  cases t.records.get? id with
  | none => rfl
  | some r =>
    cases h : r.isVacant with
    | true => simp [Record.kept, Option.filter, h]
    | false => simp [Record.kept, Option.filter, h]

@[simp] theorem record_empty (id : String) : Table.empty.record id = .blank := rfl

theorem mem_idsWhere {p : Record → Bool} (hp : p .blank = false) :
    id ∈ t.idsWhere p ↔ p (t.record id) = true := by
  rw [idsWhere, StringMap.mem_keys_iff, StringMap.get?_filter, record]
  cases t.records.get? id with
  | none => simp [hp]
  | some r => simp [Option.isSome_filter]

theorem hasPending_eq_false_iff : t.hasPending = false ↔ ∀ id, (t.record id).pending = none := by
  simp only [hasPending, List.any_eq_false, StringMap.mem_values_iff, record]
  constructor
  · intro h id
    cases e : t.records.get? id with
    | none => rfl
    | some r => simpa using h r ⟨id, e⟩
  · rintro h r ⟨id, e⟩
    have := h id
    rw [e] at this
    simpa using this

/-- Nothing is on its way. -/
def isIdle (t : Table) : Bool := t.records.values.all fun r => r.inFlight.isNone

theorem isIdle_iff : t.isIdle = true ↔ ∀ id, (t.record id).inFlight = none := by
  simp only [isIdle, List.all_eq_true, StringMap.mem_values_iff, record]
  constructor
  · intro h id
    cases e : t.records.get? id with
    | none => rfl
    | some r => simpa using h r ⟨id, e⟩
  · rintro h r ⟨id, e⟩
    have := h id
    rw [e] at this
    simpa using this

/-! ## Requests -/

/-- What lets an endpoint with a registration into the group. -/
structure Admits (t : Table) (id : String) (registration : Registration) (config : Config) :
    Prop where
  same : ∀ r ∈ (t.otherMembers id).values, r.registration = some registration
  room : (t.otherMembers id).size + 1 ≤ maxGroupMembers
  own : (t.record id).hasWithdrawal = false
  others : ∀ j, j ≠ id → (t.record j).registration.isSome → (t.record j).hasWithdrawal = false
  fits : config.size + totalSize ((t.otherMembers id).values.filterMap Record.latestConfig) ≤
    maxConfigBytesPerEvent

theorem checkGroup_eq_ok {registration : Registration} {config : Config}
    (h : t.checkGroup id registration config = .ok ()) : t.Admits id registration config := by
  unfold checkGroup at h
  dsimp only at h
  split at h; · cases h
  rename_i hsame
  split at h; · cases h
  rename_i hroom
  split at h; · cases h
  rename_i hown
  split at h; · cases h
  rename_i hleaving
  split at h; · cases h
  rename_i hfits
  refine ⟨?_, Nat.not_lt.mp hroom, by simpa using hown, ?_, Nat.not_lt.mp hfits⟩
  · intro r hr
    simp only [List.any_eq_true, decide_eq_true_eq, not_exists, not_and] at hsame
    exact Classical.not_not.mp (hsame r hr)
  · intro k hk hreg
    refine Bool.eq_false_iff.mpr fun hw => ?_
    have : k ∈ (t.records.filter fun j r =>
        j ≠ id && r.registration.isSome && r.hasWithdrawal).keys := by
      rw [StringMap.mem_keys_iff, StringMap.get?_filter]
      unfold record at hreg hw
      cases e : t.records.get? k with
      | none => simp [e, Record.blank] at hreg
      | some r => simp_all
    rw [hleaving] at this
    cases this

theorem checkRecord_eq_ok {registration : Option Registration}
    (h : t.checkRecord id registration = .ok ()) :
    (t.record id).pending = none ∧
      ∀ r, t.records.get? id = some r → r.registration = registration := by
  unfold checkRecord at h
  unfold record
  split at h
  · next e => simp [e, Record.blank]
  · next r e =>
    split at h; · cases h
    split at h; · cases h
    rename_i hreg
    split at h; · cases h
    rename_i hpend
    refine ⟨by simpa [e] using hpend, ?_⟩
    intro r' hr'
    cases e.symm.trans hr'
    exact Classical.not_not.mp hreg

theorem record_requeueOthers (t : Table) (id j : String) :
    (t.requeueOthers id).record j = if j = id then t.record j else (t.record j).requeue := by
  rw [requeueOthers, record_map (fun k => by rfl)]
  cases h : (t.record j).requeueConfig with
  | none => simp [Record.requeue, h]
  | some c => simp [Record.requeue, h]

section Announce
variable {registration : Option Registration} {config : Config} {ids : List String}

theorem announce_eq_ok (h : t.announce id registration config = .ok (t', ids)) :
    t.checkRecord id registration = .ok () ∧
      (∀ r, registration = some r → t.checkGroup id r config = .ok ()) ∧
      t' = (let admitted : Table := ⟨t.records.insert id
              { t.record id with registration, pending := some (.announce config) }⟩
            if registration.isSome then admitted.requeueOthers id else admitted) := by
  unfold announce at h
  cases hc : t.checkRecord id registration with
  | error e => rw [hc] at h; cases h
  | ok u =>
    rw [hc] at h
    cases registration with
    | none =>
      simp only [bind, Except.bind, pure, Except.pure, Except.ok.injEq, Prod.mk.injEq] at h
      refine ⟨rfl, ?_, h.1.symm⟩
      intro r e
      cases e
    | some r =>
      cases hg : t.checkGroup id r config with
      | error e => simp only [hg, bind, Except.bind] at h; cases h
      | ok u =>
        simp only [hg, bind, Except.bind, pure, Except.pure, Except.ok.injEq, Prod.mk.injEq] at h
        refine ⟨rfl, ?_, h.1.symm⟩
        intro r' hr'
        cases hr'
        exact hg

theorem record_announce (h : t.announce id registration config = .ok (t', ids)) (j : String) :
    t'.record j =
      if j = id then { t.record id with registration, pending := some (.announce config) }
      else if registration.isSome then (t.record j).requeue else t.record j := by
  obtain ⟨-, -, rfl⟩ := announce_eq_ok h
  dsimp only
  split
  · rw [record_requeueOthers, record_insert]
    split <;> rfl
  · rw [record_insert]

end Announce

theorem withdraw_eq_ok {registration : Option Registration}
    (h : t.withdraw id registration = .ok t') :
    (t.record id).pending = none ∧ (t.record id).confirmed.isSome ∧
      registration = none ∧ (t.record id).registration = none ∧
      ∀ j, t'.record j =
        if j = id then { t.record id with pending := some (.withdraw (.withdrawal id)) }
        else t.record j := by
  unfold withdraw at h
  split at h; · cases h
  rename_i r e
  have hr := record_eq_get t id e
  split at h; · cases h
  split at h; · cases h
  rename_i hconf
  split at h; · cases h
  rename_i hreg
  split at h; · cases h
  rename_i hnone
  split at h; · cases h
  rename_i hpend
  cases h
  have hregNone : r.registration = none := by simpa using hnone
  rw [hr]
  refine ⟨by simpa using hpend, by simpa [Option.isSome_iff_ne_none] using hconf, ?_, hregNone,
    record_insert t id _⟩
  rw [← hregNone]
  exact (Classical.not_not.mp hreg).symm

/-! ## Batches -/

theorem record_reclaim (t : Table) (id : String) : t.reclaim.1.record id = (t.record id).regain :=
  record_map (fun _ => rfl) t id

theorem record_take (t : Table) (select : Record → Bool) (id : String) :
    (t.take select).1.record id =
      if (t.record id).moves select then (t.record id).launch else t.record id :=
  record_map (fun _ => rfl) t id

theorem record_complete (t : Table) (id : String) :
    t.complete.1.record id = (t.record id).land.kept := by
  unfold complete
  rw [record_prune, record_map (fun _ => rfl)]
  rfl

theorem record_abandon (t : Table) (id : String) :
    t.abandon.1.record id = { t.record id with inFlight := none : Record }.kept := by
  unfold abandon
  rw [record_prune, record_map (fun _ => rfl)]

/-! ## Bootstrap -/

theorem record_republish (t : Table) (id : String) : t.republish.record id = (t.record id).renew :=
  record_map (fun _ => rfl) t id

theorem isStored_iff {stored : Configs} {r : Record} : isStored stored id r = true ↔
    ∃ c s, r.pendingConfig = some c ∧ stored.get? id = some s ∧ c.equivalent s = true := by
  unfold isStored
  split
  · next c s hc hs => simp [hc, hs]
  · next h =>
    simp only [Bool.false_eq_true, false_iff]
    rintro ⟨c, s, hc, hs, -⟩
    exact h c s hc hs

theorem record_confirmStored (t : Table) (stored : Configs) (id : String) :
    (t.confirmStored stored).record id =
      if isStored stored id (t.record id) then
        { t.record id with pending := none, confirmed := (t.record id).pendingConfig }
      else t.record id :=
  record_map (fun _ => rfl) t id

/-- Queueing withdrawals of endpoints that are not repeated. -/
theorem record_foldl_withdraw (ids : List String) (hids : ids.Nodup) (t : Table) (j : String) :
    (ids.foldl (fun t id => (⟨t.records.insert id
        { t.record id with pending := some (.withdraw (.withdrawal id)) }⟩ : Table)) t).record j =
      if j ∈ ids then { t.record j with pending := some (.withdraw (.withdrawal j)) }
      else t.record j := by
  induction ids generalizing t with
  | nil => simp
  | cons id ids ih =>
    obtain ⟨hid, hids⟩ := List.nodup_cons.mp hids
    rw [List.foldl_cons, ih hids, record_insert]
    by_cases h : j = id
    · subst h; simp [hid]
    · simp [h]

theorem record_withdrawStale (t : Table) (stored : Configs) (id : String) :
    (t.withdrawStale stored).record id =
      if (stored.get? id).any (t.isStale id) then
        { t.record id with pending := some (.withdraw (.withdrawal id)) }
      else t.record id := by
  unfold withdrawStale
  rw [record_foldl_withdraw _ (StringMap.nodup_keys _)]
  simp only [StringMap.mem_keys_iff, StringMap.get?_filter]
  cases stored.get? id with
  | none => simp
  | some c => simp [Option.isSome_filter]

end Table

end Announcer
