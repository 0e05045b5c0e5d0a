import Announcer.Proofs.Table.Group
import Announcer.Proofs.Table.Keeps
/-!
# What has a registration stays

A caller cannot have an endpoint with a registration withdrawn, so what is left
is the bootstrap, which withdraws what is stored and not wanted. It spares every
endpoint of which something is pending or confirmed. An endpoint whose
announcement is on its way has neither, and this is why a bootstrap first takes
back what is on its way: from an idle table the only records it could withdraw
are those of which nothing is known, and there are none (`Table.Occupied`).

Results:
* `secure_step`: no orderly step starts to withdraw an endpoint with a registration;
* `published_step`: then what is confirmed under a registration stays so;
* `permanent_run`: both, and unchanging registrations, for every orderly run.
-/
namespace Announcer

namespace Record

theorem hasWithdrawal_eq_false {r : Record} : r.hasWithdrawal = false ↔
    r.pending.any Operation.isWithdrawal = false ∧ r.inFlight.any Operation.isWithdrawal = false := by
  rw [hasWithdrawal, Bool.or_eq_false_iff]

theorem hasWithdrawal_requeue {r : Record} (h : r.hasWithdrawal = false) :
    r.requeue.hasWithdrawal = false := by
  unfold requeue
  split
  · exact hasWithdrawal_eq_false.mpr ⟨rfl, (hasWithdrawal_eq_false.mp h).2⟩
  · exact h

theorem hasWithdrawal_regain {r : Record} (h : r.hasWithdrawal = false) :
    r.regain.hasWithdrawal = false := by
  obtain ⟨hp, hf⟩ := hasWithdrawal_eq_false.mp h
  refine hasWithdrawal_eq_false.mpr ⟨?_, rfl⟩
  unfold regain
  cases hpend : r.pending with
  | some op => rwa [hpend] at hp
  | none => exact hf

theorem hasWithdrawal_launch {r : Record} (h : r.hasWithdrawal = false) :
    r.launch.hasWithdrawal = false :=
  hasWithdrawal_eq_false.mpr ⟨rfl, (hasWithdrawal_eq_false.mp h).1⟩

theorem hasWithdrawal_renew {r : Record} (h : r.hasWithdrawal = false) :
    r.renew.hasWithdrawal = false := by
  unfold renew
  split
  · exact hasWithdrawal_eq_false.mpr ⟨rfl, (hasWithdrawal_eq_false.mp h).2⟩
  · exact h

/-- Without what is on its way, a record is withdrawn at most by what is pending. -/
theorem hasWithdrawal_idle {r s : Record} (h : r.hasWithdrawal = false)
    (hp : s.pending = r.pending) (hf : s.inFlight = none) : s.hasWithdrawal = false := by
  rw [hasWithdrawal_eq_false, hp, hf]
  exact ⟨(hasWithdrawal_eq_false.mp h).1, rfl⟩

/-- Landing a batch that does not withdraw the endpoint leaves it confirmed. -/
theorem land_confirmed_isSome {r : Record} (h : r.hasWithdrawal = false)
    (hc : r.confirmed.isSome) : r.land.confirmed.isSome := by
  have hf := (hasWithdrawal_eq_false.mp h).2
  rw [land_confirmed]
  cases hop : r.inFlight with
  | none => exact hc
  | some op =>
    cases op with
    | announce c => rfl
    | withdraw c => rw [hop] at hf; cases hf

end Record

namespace Table

variable {t t' : Table} {id : String}

/-! ## No withdrawal of what has a registration -/

/-- Nothing is remembered in vain, and nothing with a registration is being withdrawn. -/
structure Secure (t : Table) : Prop where
  occupied : t.Occupied
  unwithdrawn : ∀ id, (t.record id).registration.isSome → (t.record id).hasWithdrawal = false

theorem secure_empty : Secure .empty where
  occupied := occupied_empty
  unwithdrawn := by intro id h; cases h

/-- Operations that change every record by itself. -/
theorem Secure.of_records (h : Secure t) (hocc : t'.Occupied)
    (hrec : ∀ id, (t'.record id).registration.isSome → (t.record id).registration.isSome ∧
      ((t.record id).hasWithdrawal = false → (t'.record id).hasWithdrawal = false)) :
    Secure t' where
  occupied := hocc
  unwithdrawn := by
    intro id hreg
    obtain ⟨hbefore, hw⟩ := hrec id hreg
    exact hw (h.unwithdrawn id hbefore)

theorem secure_announce {registration : Option Registration} {config : Config}
    {ids : List String} (h : Secure t)
    (he : t.announce id registration config = .ok (t', ids)) : Secure t' := by
  refine ⟨occupied_announce h.occupied he, fun j hreg => ?_⟩
  have hrec := record_announce he j
  by_cases hj : j = id
  · rw [if_pos hj] at hrec
    rw [hrec] at hreg ⊢
    obtain ⟨r, hr⟩ := Option.isSome_iff_exists.mp hreg
    -- admission has seen that the newcomer itself is not on its way out
    have hown := (checkGroup_eq_ok ((announce_eq_ok he).2.1 r hr)).own
    exact Record.hasWithdrawal_eq_false.mpr ⟨rfl, (Record.hasWithdrawal_eq_false.mp hown).2⟩
  · have hsame := registration_announce he j
    rw [if_neg hj] at hrec hsame
    rw [hsame] at hreg
    have hw := h.unwithdrawn j hreg
    rw [hrec]
    split
    · exact Record.hasWithdrawal_requeue hw
    · exact hw

theorem secure_withdraw {registration : Option Registration} (h : Secure t)
    (he : t.withdraw id registration = .ok t') : Secure t' := by
  obtain ⟨-, -, -, hnone, hrec⟩ := withdraw_eq_ok he
  refine h.of_records (occupied_withdraw h.occupied he) fun j hreg => ?_
  rw [hrec] at hreg ⊢
  by_cases hj : j = id
  · rw [if_pos hj] at hreg
    rw [show (t.record id).registration = none from hnone] at hreg
    cases hreg
  · rw [if_neg hj] at hreg ⊢
    exact ⟨hreg, fun hw => hw⟩

theorem secure_take (h : Secure t) (select : Record → Bool) : Secure (t.take select).1 := by
  refine h.of_records (occupied_take h.occupied select) fun id hreg => ?_
  rw [registration_take] at hreg
  refine ⟨hreg, fun hw => ?_⟩
  rw [record_take]
  split
  · exact Record.hasWithdrawal_launch hw
  · exact hw

theorem secure_complete (h : Secure t) : Secure t.complete.1 := by
  refine h.of_records (occupied_prune _) fun id hreg => ?_
  rw [record_complete] at hreg ⊢
  have hkept := Record.kept_of_registration hreg
  rw [hkept] at hreg ⊢
  rw [Record.land_registration] at hreg
  exact ⟨hreg, fun hw =>
    Record.hasWithdrawal_idle hw (Record.land_pending _) (Record.land_inFlight _)⟩

theorem secure_abandon (h : Secure t) : Secure t.abandon.1 := by
  refine h.of_records (occupied_prune _) fun id hreg => ?_
  rw [record_abandon] at hreg ⊢
  have hkept := Record.kept_of_registration hreg
  rw [hkept] at hreg ⊢
  exact ⟨hreg, fun hw => Record.hasWithdrawal_idle hw rfl rfl⟩

/-- A bootstrap finds nothing stale that has a registration. -/
theorem isStale_eq_false (h : t.Occupied) (ht : t.isIdle = true)
    (hreg : (t.record id).registration.isSome) (c : Config) : t.isStale id c = false := by
  have hv := isVacant_of_registration h hreg
  have hf := isIdle_iff.mp ht id
  unfold isStale
  simp only [Record.isVacant, hf, Option.isNone_none, Bool.and_true] at hv
  simp only [Bool.and_comm (t.record id).pending.isNone, hv, Bool.false_and]

/-- So it at most confirms what has a registration. -/
theorem record_reconcile (h : t.Occupied) (ht : t.isIdle = true) {stored : Configs}
    (he : stored.isEmpty = false) (hreg : (t.record id).registration.isSome) :
    (t.reconcile stored).1.record id = (t.confirmStored stored).record id := by
  have hidle := isIdle_of_inFlight_eq (inFlight_confirmStored t stored) ht
  have hreg' : ((t.confirmStored stored).record id).registration.isSome := by
    rw [record_confirmStored]
    split
    · exact hreg
    · exact hreg
  rw [reconcile, if_neg (by simp [he]), record_withdrawStale]
  refine if_neg fun hstale => ?_
  obtain ⟨c, -, hc⟩ := (Option.any_eq_true ..).mp hstale
  rw [isStale_eq_false (occupied_confirmStored h stored) hidle hreg'] at hc
  cases hc

theorem secure_reconcile (h : Secure t) (ht : t.isIdle = true) (stored : Configs) :
    Secure (t.reconcile stored).1 := by
  refine h.of_records (occupied_reconcile h.occupied stored) fun id hreg => ?_
  rw [registration_reconcile] at hreg
  refine ⟨hreg, fun hw => ?_⟩
  cases he : stored.isEmpty with
  | true =>
    rw [reconcile, if_pos he, record_republish]
    exact Record.hasWithdrawal_renew hw
  | false =>
    rw [record_reconcile h.occupied ht he hreg, record_confirmStored]
    split
    · exact Record.hasWithdrawal_eq_false.mpr ⟨rfl, (Record.hasWithdrawal_eq_false.mp hw).2⟩
    · exact hw

theorem secure_step (h : Secure t) (op : Op) (ho : op.isOrderly t = true) :
    Secure (t.step op) := by
  cases op with
  | announce id registration config =>
    exact step_announce_induction h fun _ _ he => secure_announce h he
  | withdraw id registration =>
    exact step_withdraw_induction h fun _ he => secure_withdraw h he
  | reclaim =>
    refine h.of_records (occupied_step h.occupied .reclaim) fun id hreg => ?_
    rw [show (t.step .reclaim).record id = (t.record id).regain from record_reclaim t id] at hreg ⊢
    exact ⟨hreg, Record.hasWithdrawal_regain⟩
  | select => exact selectBatch_of_take (secure_take h)
  | takeAll => exact secure_take h _
  | complete => exact secure_complete h
  | abandon => exact secure_abandon h
  | reconcile stored => exact secure_reconcile h ho stored

theorem secure_run (ops : List Op) (h : orderly .empty ops = true) :
    Secure (Table.empty.run ops) :=
  run_induction (fun _ op hs ho => secure_step hs op ho) ops .empty secure_empty h

/-! ## What is confirmed under a registration -/

/-- The service has accepted the endpoint under the registration `r`. -/
structure Published (t : Table) (id : String) (r : Registration) : Prop where
  registration : (t.record id).registration = some r
  confirmed : (t.record id).confirmed.isSome

/-- Only a batch that withdraws an endpoint takes back that it is confirmed. -/
theorem confirmed_step (hw : (t.record id).hasWithdrawal = false)
    (hc : (t.record id).confirmed.isSome) (op : Op) :
    ((t.step op).record id).confirmed.isSome := by
  have hkeeps : ∀ r : Record, Record.Keeps (t.record id) r → r.confirmed.isSome := by
    intro r hr
    rwa [hr.confirmed]
  cases op with
  | announce j registration config =>
    exact step_announce_induction (P := fun t' => (t'.record id).confirmed.isSome) hc
      fun _ _ he => hkeeps _ (keeps_announce he id)
  | withdraw j registration =>
    exact step_withdraw_induction (P := fun t' => (t'.record id).confirmed.isSome) hc
      fun _ he => hkeeps _ (keeps_withdraw he id)
  | reclaim => exact hkeeps _ (keeps_reclaim t id)
  | select => exact hkeeps _ (keeps_selectBatch t id)
  | takeAll => exact hkeeps _ (keeps_take t _ id)
  | complete =>
    show (t.complete.1.record id).confirmed.isSome
    rw [record_complete, Record.kept_confirmed]
    exact Record.land_confirmed_isSome hw hc
  | abandon =>
    show (t.abandon.1.record id).confirmed.isSome
    rwa [record_abandon, Record.kept_confirmed]
  | reconcile stored =>
    by_cases hfound : id ∈ (t.reconcile stored).2
    · exact ((reconcile_record t stored id).2 hfound).2
    · exact hkeeps _ ((reconcile_record t stored id).1 hfound)

theorem published_step (h : Secure t) {r : Registration} (hp : t.Published id r) (op : Op) :
    (t.step op).Published id r := by
  have hw := h.unwithdrawn id (by rw [hp.registration]; rfl)
  have hc := confirmed_step hw hp.confirmed op
  refine ⟨?_, hc⟩
  cases registration_step t op id with
  | kept hsame => exact hsame.trans hp.registration
  | removed hgone => rw [hgone] at hc; cases hc
  | created hfresh =>
    have hreg := hp.registration
    rw [record, hfresh] at hreg
    cases hreg

theorem published_run (h : Secure t) {r : Registration} (hp : t.Published id r) (ops : List Op)
    (ho : orderly t ops = true) : (t.run ops).Published id r := by
  refine (run_induction (P := fun t => Secure t ∧ t.Published id r) ?_ ops t ⟨h, hp⟩ ho).2
  intro t op ⟨h, hp⟩ ho
  exact ⟨secure_step h op ho, published_step h hp op⟩

/-! ## Registrations -/

/-- While an endpoint has a record, its registration is the same. -/
theorem registration_run (h : t.Occupied) (ops : List Op)
    (hrec : ∀ mid, mid <+: ops → ((t.run mid).records.get? id).isSome) :
    ((t.run ops).record id).registration = (t.record id).registration := by
  induction ops generalizing t with
  | nil => rfl
  | cons op ops ih =>
    have hocc := occupied_step h op
    have hrest : ∀ mid, mid <+: ops → (((t.step op).run mid).records.get? id).isSome := by
      intro mid hmid
      exact hrec (op :: mid) (List.cons_prefix_cons.mpr ⟨rfl, hmid⟩)
    refine (ih hocc hrest).trans ?_
    cases registration_step t op id with
    | kept hsame => exact hsame
    | removed hgone =>
      -- a record of which nothing is known would be there
      obtain ⟨r, hr⟩ := Option.isSome_iff_exists.mp (hrest [] List.nil_prefix)
      have hv := hocc id r hr
      rw [← record_eq_get (t.step op) id hr, hgone] at hv
      cases hv
    | created hfresh =>
      have hthere := hrec [] List.nil_prefix
      rw [show (t.run []).records.get? id = none from hfresh] at hthere
      cases hthere

/-- What has a registration stays, at the end of a run from `t` and since any
state before. -/
structure Permanent (t : Table) (ops : List Op) : Prop where
  /-- Nothing with a registration is being withdrawn. -/
  unwithdrawn : ∀ id r, (t.run ops).records.get? id = some r → r.registration.isSome →
    r.hasWithdrawal = false
  /-- An endpoint that had a record all the time has the same registration. -/
  registration : ∀ before after, ops = before ++ after → ∀ id,
    (∀ mid, mid <+: after → ((t.run (before ++ mid)).records.get? id).isSome) →
    ((t.run ops).record id).registration = ((t.run before).record id).registration
  /-- What was confirmed under a registration still is. -/
  published : ∀ before after, ops = before ++ after → ∀ id r, (t.run before).Published id r →
    (t.run ops).Published id r

/-- **What has a registration stays.** After every orderly run from the empty
table, no endpoint with a registration is being withdrawn, none has got another
one while it had a record, and none that was confirmed before is not confirmed
any more. -/
theorem permanent_run (ops : List Op) (h : orderly .empty ops = true) :
    Permanent .empty ops where
  unwithdrawn := by
    intro id r hr hreg
    have hw := (secure_run ops h).unwithdrawn id
    rw [record_eq_get _ id hr] at hw
    exact hw hreg
  registration := by
    rintro before after rfl id hrec
    rw [orderly_append, Bool.and_eq_true] at h
    rw [run_append]
    refine registration_run (secure_run before h.1).occupied after fun mid hmid => ?_
    rw [← run_append]
    exact hrec mid hmid
  published := by
    rintro before after rfl id r hp
    rw [orderly_append, Bool.and_eq_true] at h
    rw [run_append]
    exact published_run (secure_run before h.1) hp after h.2

/-- Two members of the group are confirmed. Then one of them is asked to go, the
other one to change, and this change is refused for good; a bootstrap finds a
store that knows only of somebody else. -/
def lastingGroup : List Op × List Op :=
  let r : Registration := ⟨"product", "serial", "acme", "id"⟩
  ([.announce "a" (some r) ⟨"1"⟩, .announce "b" (some r) ⟨"2"⟩, .takeAll, .complete],
    [.withdraw "a" (some r), .announce "b" (some r) ⟨"3"⟩, .select, .abandon,
      .reconcile (.ofList [("z", ⟨"4"⟩)]), .takeAll, .complete])

theorem permanent_lastingGroup :
    orderly .empty (lastingGroup.1 ++ lastingGroup.2) = true ∧
    (Table.empty.run (lastingGroup.1 ++ lastingGroup.2)).Published "a"
      ⟨"product", "serial", "acme", "id"⟩ :=
  have h : orderly .empty (lastingGroup.1 ++ lastingGroup.2) = true := by decide +kernel
  ⟨h, (permanent_run _ h).published lastingGroup.1 lastingGroup.2 rfl "a" _
    ⟨by decide +kernel, by decide +kernel⟩⟩

end Table

end Announcer
