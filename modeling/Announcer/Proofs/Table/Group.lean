import Announcer.Proofs.Table.Runs
import Announcer.Proofs.Table.Batches
import Mathlib.Data.List.Perm.Subperm
/-!
# One deduplication group

Admission compares a newcomer with the members of the group, and a member has a
registration *and* a config. What keeps the limits for all records with a
registration is that there is no third kind: a record of which something is
known has a config unless it is being withdrawn, and while one with a
registration is being withdrawn nobody is admitted.

This needs no order of the operations: a bootstrap may compare the table with
any store at any time.

Results:
* `occupied_step`: no step leaves a record of which nothing is known;
* `registration_step`: a step keeps the registration of an endpoint, takes its
  record away, or makes a record for a request;
* `grouped_step`, `grouped_run`: one registration, and no more records with it
  than one event takes.
-/
namespace Announcer.Table

variable {t t' : Table} {id : String}

/-! ## Nothing is remembered in vain -/

/-- Something is known of every endpoint that has a record. -/
def Occupied (t : Table) : Prop := ∀ id r, t.records.get? id = some r → r.isVacant = false

theorem occupied_empty : Occupied .empty := by
  intro id r hr
  cases hr

theorem occupied_map {f : String → Record → Record}
    (hf : ∀ id r, r.isVacant = false → (f id r).isVacant = false) (h : t.Occupied) :
    Occupied ⟨t.records.map f⟩ := by
  intro id r hr
  rw [StringMap.get?_map] at hr
  obtain ⟨s, hs, rfl⟩ := Option.map_eq_some_iff.mp hr
  exact hf id s (h id s hs)

theorem occupied_insert {r : Record} (hr : r.isVacant = false) (h : t.Occupied) (id : String) :
    Occupied ⟨t.records.insert id r⟩ := by
  intro j s hs
  rw [StringMap.get?_insert] at hs
  split at hs
  · cases hs
    exact hr
  · exact h j s hs

theorem occupied_prune (t : Table) : t.prune.Occupied := by
  intro id r hr
  rw [prune, StringMap.get?_filter] at hr
  simpa using (Option.filter_eq_some_iff.mp hr).2

theorem occupied_announce {registration : Option Registration} {config : Config}
    {ids : List String} (h : t.Occupied)
    (he : t.announce id registration config = .ok (t', ids)) : t'.Occupied := by
  obtain ⟨-, -, rfl⟩ := announce_eq_ok he
  have hadmitted : Occupied ⟨t.records.insert id
      { t.record id with registration, pending := some (.announce config) }⟩ :=
    occupied_insert (by simp [Record.isVacant]) h id
  dsimp only
  split
  · refine occupied_map ?_ hadmitted
    intro j r hr
    split
    · split
      · exact hr
      · simp [Record.isVacant]
    · exact hr
  · exact hadmitted

theorem occupied_withdraw {registration : Option Registration} (h : t.Occupied)
    (he : t.withdraw id registration = .ok t') : t'.Occupied := by
  have hinsert : ∀ r : Record, Occupied ⟨t.records.insert id
      { r with pending := some (.withdraw (.withdrawal id)) }⟩ := by
    intro r
    exact occupied_insert (by simp [Record.isVacant]) h id
  unfold withdraw at he
  split at he
  · cases he
  · next r hr =>
    split at he; · cases he
    split at he; · cases he
    split at he; · cases he
    split at he; · cases he
    split at he; · cases he
    cases he
    exact hinsert r

theorem occupied_take (h : t.Occupied) (select : Record → Bool) : (t.take select).1.Occupied := by
  refine occupied_map ?_ h
  intro id r hr
  dsimp only
  split
  · next hm =>
    simp only [Bool.and_eq_true] at hm
    obtain ⟨op, hop⟩ := Option.isSome_iff_exists.mp hm.1.1
    simp [Record.isVacant, Record.launch, hop]
  · exact hr

theorem occupied_withdrawStale (h : t.Occupied) (stored : Configs) :
    (t.withdrawStale stored).Occupied := by
  unfold withdrawStale
  generalize (stored.filter fun id c => t.isStale id c).keys = ids
  induction ids generalizing t with
  | nil => exact h
  | cons id ids ih =>
    rw [List.foldl_cons]
    exact ih (occupied_insert (by simp [Record.isVacant]) h id)

theorem occupied_confirmStored (h : t.Occupied) (stored : Configs) :
    (t.confirmStored stored).Occupied := by
  refine occupied_map ?_ h
  intro id r hr
  split
  · next hs =>
    -- what is stored already was pending, and it becomes what is confirmed
    obtain ⟨c, s, hc, -, -⟩ := isStored_iff.mp hs
    simp [Record.isVacant, hc]
  · exact hr

theorem occupied_reconcile (h : t.Occupied) (stored : Configs) :
    (t.reconcile stored).1.Occupied := by
  unfold reconcile
  split
  · refine occupied_map ?_ h
    intro id r hr
    split
    · simp [Record.isVacant]
    · exact hr
  · exact occupied_withdrawStale (occupied_confirmStored h stored) stored

theorem occupied_step (h : t.Occupied) (op : Op) : (t.step op).Occupied := by
  cases op with
  | announce id registration config =>
    exact step_announce_induction h fun _ _ he => occupied_announce h he
  | withdraw id registration =>
    exact step_withdraw_induction h fun _ he => occupied_withdraw h he
  | reclaim =>
    refine occupied_map ?_ h
    intro id r hr
    obtain ⟨registration, confirmed, pending, inFlight⟩ := r
    cases pending <;> simp_all [Record.isVacant]
  | select => exact selectBatch_of_take (occupied_take h)
  | takeAll => exact occupied_take h _
  | complete => exact occupied_prune _
  | abandon => exact occupied_prune _
  | reconcile stored => exact occupied_reconcile h stored

theorem isVacant_of_registration (h : t.Occupied) (hr : (t.record id).registration.isSome) :
    (t.record id).isVacant = false := by
  unfold record at hr ⊢
  cases he : t.records.get? id with
  | none => rw [he] at hr; cases hr
  | some s => exact h id s he

/-- A record with a registration that is not being withdrawn is that of a member. -/
theorem isMember_of_registration (h : t.Occupied) (hr : (t.record id).registration.isSome)
    (hw : (t.record id).hasWithdrawal = false) : (t.record id).isMember = true := by
  rw [Record.isMember, hr, Record.latestConfig_isSome (isVacant_of_registration h hr) hw]
  rfl

/-! ## Where registrations come from -/

theorem registration_announce {registration : Option Registration} {config : Config}
    {ids : List String} (he : t.announce id registration config = .ok (t', ids)) (j : String) :
    (t'.record j).registration = if j = id then registration else (t.record j).registration := by
  rw [record_announce he]
  split
  · rfl
  · split
    · exact Record.requeue_registration _
    · rfl

/-- What an operation can do to the registration of an endpoint. -/
inductive Enrols (t : Table) (op : Op) (id : String) : Prop where
  | kept (same : ((t.step op).record id).registration = (t.record id).registration)
  | removed (gone : (t.step op).record id = .blank)
  | created {registration : Option Registration} {config : Config} {ids : List String}
      (fresh : t.records.get? id = none) (asked : op = .announce id registration config)
      (taken : t.announce id registration config = .ok (t.step op, ids))

/-- A pruned record is gone or was not touched. -/
theorem Enrols.of_kept {op : Op} {r : Record} (hr : (t.step op).record id = r.kept)
    (hsame : r.registration = (t.record id).registration) : Enrols t op id := by
  rcases r.kept_cases with hk | hk
  · exact .removed (hr.trans hk)
  · exact .kept (by rw [hr, hk, hsame])

theorem registration_take (t : Table) (select : Record → Bool) (id : String) :
    ((t.take select).1.record id).registration = (t.record id).registration := by
  rw [record_take]
  split <;> rfl

theorem registration_selectBatch (t : Table) (id : String) :
    (t.selectBatch.1.record id).registration = (t.record id).registration :=
  selectBatch_of_take (P := fun t' => (t'.record id).registration = (t.record id).registration)
    fun select => registration_take t select id

theorem registration_reconcile (t : Table) (stored : Configs) (id : String) :
    ((t.reconcile stored).1.record id).registration = (t.record id).registration := by
  unfold reconcile
  split
  · rw [record_republish, Record.renew_registration]
  · have hconfirmed : ((t.confirmStored stored).record id).registration =
        (t.record id).registration := by
      rw [record_confirmStored]
      split <;> rfl
    rw [record_withdrawStale]
    split
    · exact hconfirmed
    · exact hconfirmed

theorem registration_step (t : Table) (op : Op) (id : String) : Enrols t op id := by
  cases op with
  | announce j registration config =>
    cases he : t.announce j registration config with
    | error reason => exact .kept (by rw [step_announce_refused he])
    | ok r =>
      obtain ⟨t', ids⟩ := r
      have hstep := step_announce he
      have hreg := registration_announce he id
      by_cases hj : id = j
      · subst hj
        cases hget : t.records.get? id with
        | none => exact .created hget rfl (hstep ▸ he)
        | some r =>
          -- the record is there, so the request repeats its registration
          have hsame := (checkRecord_eq_ok (announce_eq_ok he).1).2 r hget
          rw [if_pos rfl, ← hsame] at hreg
          exact .kept (by rw [hstep, hreg, record_eq_get t id hget])
      · rw [if_neg hj] at hreg
        exact .kept (hstep ▸ hreg)
  | withdraw j registration =>
    refine .kept ?_
    cases he : t.withdraw j registration with
    | error reason => rw [step_withdraw_refused he]
    | ok t' =>
      obtain ⟨-, -, -, -, hrec⟩ := withdraw_eq_ok he
      rw [step_withdraw he, hrec]
      split
      · next hj => rw [hj]
      · rfl
  | reclaim =>
    refine .kept ?_
    show (t.reclaim.1.record id).registration = _
    rw [record_reclaim]
    rfl
  | select => exact .kept (registration_selectBatch t id)
  | takeAll => exact .kept (registration_take t _ id)
  | complete => exact .of_kept (record_complete t id) (Record.land_registration _)
  | abandon => exact .of_kept (record_abandon t id) rfl
  | reconcile stored => exact .kept (registration_reconcile t stored id)

/-! ## The group -/

/-- The ids of the records with a registration. -/
def enrolled (t : Table) : List String := t.idsWhere fun r => r.registration.isSome

theorem mem_enrolled : id ∈ t.enrolled ↔ (t.record id).registration.isSome :=
  mem_idsWhere rfl

theorem nodup_idsWhere (t : Table) (p : Record → Bool) : (t.idsWhere p).Nodup :=
  StringMap.nodup_keys _

/-- One group: nothing is remembered in vain, all registrations are the same, and
one event has room for all that have one. -/
structure Grouped (t : Table) : Prop where
  occupied : t.Occupied
  single : ∀ i j r s, (t.record i).registration = some r → (t.record j).registration = some s →
    r = s
  room : t.enrolled.length ≤ maxGroupMembers

theorem grouped_empty : Grouped .empty where
  occupied := occupied_empty
  single := by intro i j r s hr; cases hr
  room := Nat.zero_le _

/-- Operations that enrol nobody. -/
theorem Grouped.of_enrolled (h : Grouped t) (hocc : t'.Occupied)
    (hsub : ∀ id r, (t'.record id).registration = some r → (t.record id).registration = some r) :
    Grouped t' where
  occupied := hocc
  single := by
    intro i j r s hr hs
    exact h.single i j r s (hsub i r hr) (hsub j s hs)
  room := by
    have hids : t'.enrolled ⊆ t.enrolled := by
      intro id hid
      rw [mem_enrolled] at hid ⊢
      obtain ⟨r, hr⟩ := Option.isSome_iff_exists.mp hid
      rw [hsub id r hr]
      rfl
    exact Nat.le_trans ((nodup_idsWhere t' _).subperm hids).length_le h.room

/-- All others with a registration are members, and admission has seen them. -/
theorem Admits.get?_otherMembers {r : Registration} {config : Config} (h : t.Admits id r config)
    (hocc : t.Occupied) {j : String} (hj : j ≠ id) {s : Registration}
    (hs : (t.record j).registration = some s) :
    (t.otherMembers id).get? j = some (t.record j) := by
  have hreg : (t.record j).registration.isSome := by rw [hs]; rfl
  have hm := isMember_of_registration hocc hreg (h.others j hj hreg)
  rw [otherMembers, StringMap.get?_filter]
  unfold record at hreg hm ⊢
  cases he : t.records.get? j with
  | none => rw [he] at hreg; cases hreg
  | some q =>
    rw [he] at hm
    simpa [Option.filter, hj] using hm

theorem grouped_announce {registration : Option Registration} {config : Config}
    {ids : List String} (h : Grouped t)
    (he : t.announce id registration config = .ok (t', ids)) : Grouped t' := by
  have hocc := occupied_announce h.occupied he
  have hreg := registration_announce he
  cases registration with
  | none =>
    refine h.of_enrolled hocc ?_
    intro j s hs
    rw [hreg] at hs
    split at hs
    · cases hs
    · exact hs
  | some r =>
    have hadmits := checkGroup_eq_ok ((announce_eq_ok he).2.1 r rfl)
    have hmembers := fun j hj s => hadmits.get?_otherMembers h.occupied (j := j) hj (s := s)
    -- whoever has a registration has the newcomer's
    have hsame : ∀ j s, (t'.record j).registration = some s → s = r := by
      intro j s hs
      rw [hreg] at hs
      split at hs
      · cases hs
        rfl
      · next hj =>
        have := hadmits.same _ (StringMap.mem_values_iff.mpr ⟨j, hmembers j hj s hs⟩)
        exact Option.some.inj (hs.symm.trans this)
    refine ⟨hocc, ?_, ?_⟩
    · intro i j s s' hs hs'
      rw [hsame i s hs, hsame j s' hs']
    · have hids : t'.enrolled ⊆ id :: (t.otherMembers id).keys := by
        intro j hj
        rw [mem_enrolled] at hj
        obtain ⟨s, hs⟩ := Option.isSome_iff_exists.mp hj
        rw [hreg] at hs
        split at hs
        · next hj => exact hj ▸ List.mem_cons_self
        · next hj =>
          refine List.mem_cons_of_mem _ (StringMap.mem_keys_iff.mpr ?_)
          rw [hmembers j hj s hs]
          rfl
      have hlength := ((nodup_idsWhere t' _).subperm hids).length_le
      have hroom := hadmits.room
      rw [List.length_cons, StringMap.keys, List.length_map] at hlength
      exact Nat.le_trans hlength hroom

theorem grouped_step (h : Grouped t) (op : Op) : Grouped (t.step op) := by
  by_cases hop : ∃ id registration config r, op = .announce id registration config ∧
      t.announce id registration config = .ok r
  · obtain ⟨id, registration, config, ⟨t', ids⟩, rfl, he⟩ := hop
    rw [step_announce he]
    exact grouped_announce h he
  · refine h.of_enrolled (occupied_step h.occupied op) ?_
    intro id r hr
    cases registration_step t op id with
    | kept hsame => rwa [hsame] at hr
    | removed hgone => rw [hgone] at hr; cases hr
    | created _ hasked htaken => exact absurd ⟨_, _, _, _, hasked, htaken⟩ hop

/-- **One group, within its limits.** After every run from the empty table,
whatever the operations and their order, something is known of every endpoint
that has a record, and the records with a registration have the same one and
fit into one event in number. -/
theorem grouped_run (ops : List Op) : Grouped (Table.empty.run ops) :=
  run_keeps (P := Grouped) (fun _ op h => grouped_step h op) ops .empty grouped_empty

end Announcer.Table
