import Announcer.Proofs.Table.Target
import Announcer.Proofs.Table.Together
/-!
# What a bootstrap leaves behind

A bootstrap compares an idle table with what is stored, takes all that is still
pending, and once the service has accepted the batch, stores and erases what it
carries. If everything confirmed was stored before, table and store agree
afterwards: nothing is left to be sent, and a second bootstrap finds nothing to
do. Only a stored endpoint that nobody asked for and that was published with a
registration stays stored without being confirmed, because a bootstrap does not
withdraw such endpoints.

Equality is equality of meaning: an announcement that is found stored is confirmed
as it was asked for, while the store keeps its own text.

Results:
* `persisted_reconcile`: comparing with a store keeps what is confirmed stored;
* `synced_bootstrap`: what holds after a bootstrap.
-/
namespace Announcer

/-- The stored config `s` is `c`, or it means the same. -/
def Config.KeptAs (s c : Config) : Prop := s = c ∨ c.equivalent s = true

instance (s c : Config) : Decidable (s.KeptAs c) := inferInstanceAs (Decidable (_ ∨ _))

theorem Config.KeptAs.refl (c : Config) : c.KeptAs c := .inl rfl

/-- What is stored once the batch is: its announcements are put there, then its
withdrawals are taken out. -/
def Batch.persist (b : Batch) (stored : Configs) : Configs :=
  b.withdrawn.keys.foldl (fun m id => m.erase id)
    (b.announced.entries.foldl (fun m e => m.insert e.1 e.2) stored)

theorem Batch.get?_persist (b : Batch) (stored : Configs) (id : String) :
    (b.persist stored).get? id =
      if id ∈ b.withdrawn.keys then none else b.announced.get? id <|> stored.get? id := by
  rw [persist, StringMap.get?_foldl_erase, StringMap.get?_foldl_insert]

namespace Table

variable {t t' : Table} {stored : Configs} {id : String}

/-! ## What is confirmed is stored -/

/-- Whatever is confirmed is stored, as it is confirmed or meaning the same. -/
def Persisted (t : Table) (stored : Configs) : Prop :=
  ∀ id c, (t.record id).confirmed = some c → ∃ s, stored.get? id = some s ∧ s.KeptAs c

/-- It is enough to look at the records that there are. -/
theorem persisted_iff : t.Persisted stored ↔ ∀ e ∈ t.records.entries, ∀ c ∈ e.2.confirmed,
    ∃ s ∈ stored.get? e.1, s.KeptAs c := by
  constructor
  · rintro h ⟨id, r⟩ he c hc
    refine h id c ?_
    rw [record_eq_get t id (StringMap.mem_entries_iff.mp he)]
    exact hc
  · intro h id c hc
    cases hr : t.records.get? id with
    | none =>
      rw [record, hr] at hc
      cases hc
    | some r =>
      rw [record_eq_get t id hr] at hc
      exact h (id, r) (StringMap.mem_entries_iff.mpr hr) c hc

instance (t : Table) (stored : Configs) : Decidable (t.Persisted stored) :=
  decidable_of_iff _ persisted_iff.symm

/-- Only what is confirmed counts. -/
theorem Persisted.of_confirmed (h : t.Persisted stored)
    (hc : ∀ id, (t'.record id).confirmed = (t.record id).confirmed) : t'.Persisted stored := by
  intro id c hid
  rw [hc] at hid
  exact h id c hid

theorem persisted_confirmStored (h : t.Persisted stored) :
    (t.confirmStored stored).Persisted stored := by
  intro id c hc
  rw [record_confirmStored] at hc
  split at hc
  · next hs =>
    -- what was pending is confirmed because the same is stored
    obtain ⟨c', s, hp, hget, heq⟩ := isStored_iff.mp hs
    obtain rfl : c' = c := Option.some.inj (hp.symm.trans hc)
    exact ⟨s, hget, .inr heq⟩
  · exact h id c hc

theorem persisted_reconcile (h : t.Persisted stored) :
    (t.reconcile stored).1.Persisted stored := by
  unfold reconcile
  split
  · refine h.of_confirmed fun id => ?_
    rw [record_republish, Record.renew_confirmed]
  · exact (persisted_confirmStored h).of_confirmed fun id =>
      ((t.confirmStored stored).keeps_withdrawStale stored id).confirmed

/-! ## Comparing -/

/-- What comparing with the store makes of a record, where everything confirmed is
stored; `s?` is the stored config of the endpoint. -/
inductive Compared (id : String) (s? : Option Config) (r : Record) : Record → Prop where
  /-- It is stored as it was to be announced. -/
  | found {c s} (asked : r.pending = some (.announce c)) (kept : s? = some s)
      (same : c.equivalent s = true) :
      Compared id s? r { r with pending := none, confirmed := some c }
  /-- It is stored, and nobody wants it. -/
  | stale {s} (kept : s? = some s) (unasked : r.pending = none) (unconfirmed : r.confirmed = none)
      (plain : s.carriesRegistration = false) :
      Compared id s? r { r with pending := some (.withdraw (.withdrawal id)) }
  /-- Nothing is stored of it, or something is pending or confirmed, or it was
  published with a registration. -/
  | left (spared : ∀ s, s? = some s → r.pending = none → r.confirmed = none →
      s.carriesRegistration = true) : Compared id s? r r

/-- An empty store has nothing queued again where everything confirmed is stored. -/
theorem compared_republish (h : t.Persisted stored) (he : stored.isEmpty = true) (id : String) :
    Compared id (stored.get? id) (t.record id) (t.republish.record id) := by
  have hempty := StringMap.isEmpty_iff.mp he id
  have hnone : (t.record id).confirmed = none := by
    refine Option.eq_none_iff_forall_ne_some.mpr fun c hc => ?_
    obtain ⟨s, hs, -⟩ := h id c hc
    cases hempty.symm.trans hs
  have hsame : (t.record id).renew = t.record id := by
    unfold Record.renew
    split
    · next hc => cases hnone.symm.trans hc
    · rfl
  rw [record_republish, hsame, hempty]
  exact .left fun s hs => by cases hs

/-- An endpoint that is found stored is confirmed, and then it is not stale. -/
theorem compared_found (hs : isStored stored id (t.record id) = true) :
    Compared id (stored.get? id) (t.record id)
      (((t.confirmStored stored).withdrawStale stored).record id) := by
  have hconfirmed := record_confirmStored t stored id
  rw [if_pos hs] at hconfirmed
  obtain ⟨c, s, hc, hget, heq⟩ := isStored_iff.mp hs
  obtain ⟨op, hop, hann⟩ := Option.bind_eq_some_iff.mp hc
  obtain rfl : op = .announce c := by
    cases op with
    | announce c' => cases hann; rfl
    | withdraw c' => cases hann
  have hstale : (stored.get? id).any ((t.confirmStored stored).isStale id) = false := by
    simp [hget, isStale, hconfirmed, hc]
  rw [record_withdrawStale, hstale, if_neg Bool.false_ne_true, hconfirmed, hc]
  exact .found hop hget heq

/-- An endpoint that is not found stored is stale, or it is left alone. -/
theorem compared_missed (hs : isStored stored id (t.record id) = false) :
    Compared id (stored.get? id) (t.record id)
      (((t.confirmStored stored).withdrawStale stored).record id) := by
  have hconfirmed := record_confirmStored t stored id
  rw [hs, if_neg Bool.false_ne_true] at hconfirmed
  rw [record_withdrawStale, hconfirmed]
  cases hget : stored.get? id with
  | none => exact .left fun s hs => by cases hs
  | some s =>
    rw [Option.any_some, isStale, hconfirmed]
    split
    · next hst =>
      simp only [Bool.and_eq_true, Option.isNone_iff_eq_none, Bool.not_eq_true'] at hst
      exact .stale rfl hst.1.1 hst.1.2 hst.2
    · next hst =>
      refine .left fun s' hs' hp hc => ?_
      cases hs'
      simpa [hp, hc] using hst

theorem compared_reconcile (h : t.Persisted stored) (id : String) :
    Compared id (stored.get? id) (t.record id) ((t.reconcile stored).1.record id) := by
  unfold reconcile
  split
  · next he => exact compared_republish h he id
  · cases hs : isStored stored id (t.record id) with
    | true => exact compared_found hs
    | false => exact compared_missed hs

/-! ## Taking and landing -/

/-- From an idle table, all that waits to be withdrawn is taken. -/
theorem takeAll_withdrawn (ht : t.isIdle = true) {b : Batch} (h : t.takeAll.2 = some b)
    (id : String) : b.withdrawn.get? id = (t.record id).pending.bind Operation.withdrawn? := by
  rw [← (inFlight_takeAll ht h).1, inFlight_withdrawn, record_takeAll ht]
  rfl

/-- Nothing is taken where nothing is pending. -/
theorem takeAll_of_hasPending (h : t.hasPending = false) : t.takeAll = (t, none) := by
  have hempty : (t.take fun _ => true).2.isEmpty = true := by
    refine Batch.isEmpty_iff.mpr fun id => ?_
    have hno : (t.record id).moves (fun _ => true) = false := by
      simp [Record.moves, hasPending_eq_false_iff.mp h id]
    rw [take_announced, take_withdrawn, hno]
    exact ⟨rfl, rfl⟩
  rw [takeAll, batch?, if_pos hempty, take_of_isEmpty hempty]

/-- The table and the store after a bootstrap whose batch was accepted. -/
def bootstrap (t : Table) (stored : Configs) : Table × Configs :=
  let (compared, _) := t.reconcile stored
  let (sent, batch?) := compared.takeAll
  (sent.complete.1, batch?.elim stored fun b => b.persist stored)

theorem record_bootstrap (ht : t.isIdle = true) (stored : Configs) (id : String) :
    (t.bootstrap stored).1.record id =
      ((t.reconcile stored).1.record id).launch.land.kept := by
  have hidle := isIdle_of_inFlight_eq (inFlight_reconcile t stored) ht
  show (t.reconcile stored).1.takeAll.1.complete.1.record id = _
  rw [record_complete, record_takeAll hidle]

theorem stored_bootstrap (ht : t.isIdle = true) (stored : Configs) (id : String) :
    (t.bootstrap stored).2.get? id =
      match ((t.reconcile stored).1.record id).pending with
      | some op => op.announced?
      | none => stored.get? id := by
  have hidle := isIdle_of_inFlight_eq (inFlight_reconcile t stored) ht
  show ((t.reconcile stored).1.takeAll.2.elim stored fun b => b.persist stored).get? id = _
  cases hb : (t.reconcile stored).1.takeAll.2 with
  | none =>
    rw [hasPending_eq_false_iff.mp (takeAll_none hidle hb).2 id]
    rfl
  | some b =>
    simp only [Option.elim_some, Batch.get?_persist, StringMap.mem_keys_iff,
      takeAll_announced hidle hb, takeAll_withdrawn hidle hb, Record.pendingConfig]
    cases ((t.reconcile stored).1.record id).pending with
    | none => rfl
    | some op => cases op <;> rfl

/-- What is confirmed and what is stored of an endpoint after a bootstrap: it was
pending after the comparison and both are as it was asked, or both are as they
were compared. -/
theorem agreement_bootstrap (ht : t.isIdle = true) (stored : Configs) (id : String) :
    let compared := (t.reconcile stored).1.record id
    (∃ op, compared.pending = some op ∧
      ((t.bootstrap stored).1.record id).confirmed = op.announced? ∧
      (t.bootstrap stored).2.get? id = op.announced?) ∨
    (compared.pending = none ∧
      ((t.bootstrap stored).1.record id).confirmed = compared.confirmed ∧
      (t.bootstrap stored).2.get? id = stored.get? id) := by
  rw [stored_bootstrap ht, record_bootstrap ht, Record.kept_confirmed, Record.land_confirmed]
  dsimp only
  cases hp : ((t.reconcile stored).1.record id).pending with
  | some op => exact .inl ⟨op, rfl, by rw [Record.launch, hp], rfl⟩
  | none => exact .inr ⟨rfl, by rw [Record.launch, hp], rfl⟩

/-! ## What a second bootstrap finds -/

/-- Nothing is to be done about a store: nothing waits, all that is confirmed is
stored, and whatever else is stored was published with a registration. -/
structure AtRest (t : Table) (stored : Configs) : Prop where
  quiet : t.hasPending = false
  persisted : t.Persisted stored
  known : ∀ id s, stored.get? id = some s →
    (t.record id).confirmed.isSome ∨ s.carriesRegistration = true

/-- Comparing with a store about which nothing is to be done finds nothing and
leaves nothing to be sent. -/
theorem reconcile_of_atRest (h : t.AtRest stored) :
    (t.reconcile stored).2 = [] ∧ (t.reconcile stored).1.hasPending = false := by
  have hpending := hasPending_eq_false_iff.mp h.quiet
  constructor
  · cases he : stored.isEmpty with
    | true => rw [reconcile, if_pos he]
    | false =>
      refine List.eq_nil_iff_forall_not_mem.mpr fun id hid => ?_
      -- what is found stored would have been pending
      obtain ⟨c, -, hc, -, -⟩ := isStored_iff.mp ((mem_reconcile_ids he).mp hid)
      rw [Record.pendingConfig, hpending id] at hc
      cases hc
  · refine hasPending_eq_false_iff.mpr fun id => ?_
    have hcompared := compared_reconcile h.persisted id
    generalize (t.reconcile stored).1.record id = r at hcompared ⊢
    cases hcompared with
    | found => rfl
    | @stale s hkept _ hno hplain =>
      rcases h.known id s hkept with hc | hreg
      · rw [hno] at hc
        cases hc
      · cases hplain.symm.trans hreg
    | left => exact hpending id

/-! ## The result -/

/-- The table `t'` and the store `stored'` agree, where they were `t` and `stored`
before a bootstrap. -/
structure Synced (t : Table) (stored : Configs) (t' : Table) (stored' : Configs) : Prop where
  /-- Nothing is pending or on its way. -/
  quiet : t'.hasPending = false
  idle : t'.isIdle = true
  /-- Every endpoint has become what was wanted of it. -/
  target : ∀ id, (t'.record id).confirmed = t.target id
  persisted : t'.Persisted stored'
  /-- What is stored is confirmed, but for stored endpoints with a registration
  that nobody had asked for. -/
  confirmed : ∀ id s, stored'.get? id = some s → (t'.record id).confirmed.isSome ∨
    (stored.get? id = some s ∧ s.carriesRegistration = true ∧
      (t.record id).pending = none ∧ (t.record id).confirmed = none)
  /-- A second bootstrap finds nothing and sends nothing. -/
  again : (t'.reconcile stored').2 = [] ∧ (t'.reconcile stored').1.takeAll.2 = none

theorem quiet_bootstrap (ht : t.isIdle = true) (stored : Configs) :
    (t.bootstrap stored).1.hasPending = false ∧ (t.bootstrap stored).1.isIdle = true := by
  refine ⟨hasPending_eq_false_iff.mpr fun id => ?_, isIdle_complete _⟩
  rw [record_bootstrap ht, Record.kept_pending, Record.land_pending]
  rfl

theorem target_bootstrap (ht : t.isIdle = true) (stored : Configs) (id : String) :
    ((t.bootstrap stored).1.record id).confirmed = t.target id := by
  obtain ⟨hquiet, hidle⟩ := quiet_bootstrap ht stored
  rw [← target_reconcile ht stored, ← target_take _ fun _ => true,
    ← Record.target_of_idle (hasPending_eq_false_iff.mp hquiet id) (isIdle_iff.mp hidle id)]
  show ((t.reconcile stored).1.takeAll.1.complete.1.record id).target = _
  rw [record_complete, Record.target_kept, Record.target_land]
  rfl

theorem persisted_bootstrap (ht : t.isIdle = true) (h : t.Persisted stored) :
    (t.bootstrap stored).1.Persisted (t.bootstrap stored).2 := by
  intro id c hc
  rcases agreement_bootstrap ht stored id with ⟨op, -, hconf, hstored⟩ | ⟨-, hconf, hstored⟩
  · -- it is stored just as it is confirmed
    exact ⟨c, by rw [hstored, ← hconf, hc], .refl c⟩
  · rw [hstored]
    rw [hconf] at hc
    exact persisted_reconcile h id c hc

theorem confirmed_bootstrap (ht : t.isIdle = true) (h : t.Persisted stored) {id : String}
    {s : Config} (hs : (t.bootstrap stored).2.get? id = some s) :
    ((t.bootstrap stored).1.record id).confirmed.isSome ∨
      (stored.get? id = some s ∧ s.carriesRegistration = true ∧
        (t.record id).pending = none ∧ (t.record id).confirmed = none) := by
  rcases agreement_bootstrap ht stored id with ⟨op, -, hconf, hstored⟩ | ⟨hp, hconf, hstored⟩
  · rw [hconf, ← hstored, hs]
    exact .inl rfl
  · rw [hstored] at hs
    rw [hconf]
    have hcompared := compared_reconcile h id
    generalize (t.reconcile stored).1.record id = r at hcompared hp
    cases hcompared with
    | found => exact .inl rfl
    | stale => cases hp
    | left hspared =>
      cases hc : (t.record id).confirmed with
      | some c => exact .inl rfl
      | none => exact .inr ⟨hs, hspared s hs hp hc, hp, rfl⟩

/-- **A bootstrap brings table and store into agreement.** From any idle table
and any store that has all that is confirmed, once the batch of the bootstrap is
accepted and stored, nothing waits, what is confirmed is what was wanted and is
stored, what is stored is confirmed but for spared endpoints with a
registration, and a second bootstrap has nothing to do. -/
theorem synced_bootstrap (t : Table) (stored : Configs) (ht : t.isIdle = true)
    (h : t.Persisted stored) :
    Synced t stored (t.bootstrap stored).1 (t.bootstrap stored).2 := by
  obtain ⟨hquiet, hidle⟩ := quiet_bootstrap ht stored
  have hpersisted := persisted_bootstrap ht h
  have hconfirmed : ∀ id s, (t.bootstrap stored).2.get? id = some s → _ :=
    fun id s hs => confirmed_bootstrap ht h hs
  have hrest : (t.bootstrap stored).1.AtRest (t.bootstrap stored).2 := by
    refine ⟨hquiet, hpersisted, fun id s hs => ?_⟩
    exact (hconfirmed id s hs).imp_right fun hspared => hspared.2.1
  obtain ⟨hids, hnothing⟩ := reconcile_of_atRest hrest
  exact ⟨hquiet, hidle, target_bootstrap ht stored, hpersisted, hconfirmed, hids,
    congrArg Prod.snd (takeAll_of_hasPending hnothing)⟩

/-- One endpoint is confirmed, another one is to go, and three are asked for: one
is stored with the same meaning, one with another one, and one not at all. -/
def mixedTable : Table :=
  Table.empty.run [.announce "kept" none ⟨"1"⟩, .announce "going" none ⟨"2"⟩, .takeAll, .complete,
    .withdraw "going" none, .announce "same" none ⟨"[3, 4]"⟩, .announce "other" none ⟨"5"⟩,
    .announce "new" none ⟨"6"⟩]

/-- The store that it meets has two more endpoints that nobody asked for, one of
them published with a registration. -/
def mixedStore : Configs :=
  .ofList [("kept", ⟨"1"⟩), ("going", ⟨"2"⟩), ("same", ⟨"[3,4]"⟩), ("other", ⟨"0"⟩),
    ("stale", ⟨"7"⟩), ("spared", ⟨"\x7b\"acme\":\x7b\"deviceSerialNumber\":\"serial\"\x7d\x7d"⟩)]

/-- After the bootstrap the store has the four that are wanted, as they mean, and
the one that was spared. -/
theorem synced_mixedTable : mixedTable.isIdle = true ∧ mixedTable.Persisted mixedStore ∧
    (mixedTable.bootstrap mixedStore).2.keys = ["kept", "new", "other", "same", "spared"] ∧
    ((mixedTable.bootstrap mixedStore).1.reconcile (mixedTable.bootstrap mixedStore).2).2 = [] :=
  have hidle : mixedTable.isIdle = true := by decide +kernel
  have hpersisted : mixedTable.Persisted mixedStore := by decide +kernel
  ⟨hidle, hpersisted, by decide +kernel, (synced_bootstrap _ _ hidle hpersisted).again.1⟩

end Table

end Announcer
