import Announcer.Proofs.Table.Permanence
/-!
# The group is announced together

Admitting a member queues all the others again, and from then on what is to be
sent of the group moves through the slots together: it is pending, or it is on
its way, or there is nothing of it (`Whole`). This holds as long as batches are
only taken while nothing is on its way, as the registry does (`isSerial`).

One operation breaks it up. A bootstrap settles endpoints one at a time: a member
that is stored as it is to be announced is confirmed and no longer pending,
whatever becomes of the others. `settled` follows these endpoints until the
group is queued as a whole again.

Results:
* `whole_step`: all members but the settled ones stay together;
* `whole_batch`: a batch that announces a member announces every member that is
  not settled.
-/
namespace Announcer.Table

variable {t t' : Table} {id j : String} {done : List String}

/-! ## Runs of a registry -/

/-- False for taking a batch, or comparing with the store, while something is on its way. -/
def Op.isSerial (t : Table) : Op → Bool
  | .select => t.isIdle
  | .takeAll => t.isIdle
  | .reconcile _ => t.isIdle
  | _ => true

/-- Every operation is serial where it is done. -/
def serial : Table → List Op → Bool
  | _, [] => true
  | t, op :: ops => op.isSerial t && serial (t.step op) ops

theorem isOrderly_of_isSerial {op : Op} (h : op.isSerial t = true) : op.isOrderly t = true := by
  cases op with
  | reconcile stored => exact h
  | _ => rfl

theorem serial_append (t : Table) (before after : List Op) :
    serial t (before ++ after) = (serial t before && serial (t.run before) after) := by
  induction before generalizing t with
  | nil => rfl
  | cons op before ih =>
    rw [List.cons_append, serial, serial, ih, Bool.and_assoc]
    rfl

/-- The batch that an operation hands out. -/
def Op.batch? (t : Table) : Op → Option Batch
  | .select => t.selectBatch.2
  | .takeAll => t.takeAll.2
  | _ => none

/-- Handing out a batch enrols nobody and strikes nobody off. -/
theorem registration_of_batch? {op : Op} {b : Batch} (hb : op.batch? t = some b) (id : String) :
    ((t.step op).record id).registration = (t.record id).registration := by
  cases op with
  | select => exact registration_selectBatch t id
  | takeAll => exact registration_take t _ id
  | _ => cases hb

/-! ## What bootstraps have settled -/

/-- The endpoints that bootstraps have settled since the group was queued as a
whole, by a new or changed member or by a bootstrap that found nothing stored. -/
def Op.settle (t : Table) (done : List String) : Op → List String
  | .announce id registration config =>
    if registration.isSome && (t.announce id registration config).isOk then [] else done
  | .reconcile stored => if stored.isEmpty then [] else (t.reconcile stored).2 ++ done
  | _ => done

theorem settle_of_batch? {op : Op} {b : Batch} (hb : op.batch? t = some b) :
    op.settle t done = done := by
  cases op with
  | select => rfl
  | takeAll => rfl
  | _ => cases hb

/-- What is settled after a run, with `done` before it. -/
def settled (t : Table) (done : List String) : List Op → List String
  | [] => done
  | op :: ops => settled (t.step op) (op.settle t done) ops

theorem settled_append (t : Table) (done : List String) (before after : List Op) :
    settled t done (before ++ after) = settled (t.run before) (settled t done before) after := by
  induction before generalizing t done with
  | nil => rfl
  | cons op before ih => exact ih (t.step op) (op.settle t done)

/-! ## One group, one slot -/

/-- The endpoints with a registration, the ones in `done` apart, are all pending,
or they are all on their way; and in the second case, or when there is nothing to
be sent of them, none with a registration is pending. -/
inductive Whole (t : Table) (done : List String) : Prop where
  | queued (all : ∀ id, (t.record id).registration.isSome → id ∉ done →
      (t.record id).pending.isSome)
  | sent (rest : ∀ id, (t.record id).registration.isSome → (t.record id).pending = none)
      (all : ∀ id, (t.record id).registration.isSome → id ∉ done →
        (t.record id).inFlight.isSome)
  | quiet (rest : ∀ id, (t.record id).registration.isSome → (t.record id).pending = none)
      (idle : ∀ id, (t.record id).registration.isSome → (t.record id).inFlight = none)

theorem whole_empty : Whole .empty [] :=
  .quiet (fun _ _ => rfl) (fun _ _ => rfl)

/-- Operations that only concern endpoints without a registration. -/
theorem Whole.congr (h : Whole t done)
    (hrec : ∀ id, (t'.record id).registration.isSome → t'.record id = t.record id) :
    Whole t' done := by
  cases h with
  | queued all =>
    refine .queued fun id hreg hid => ?_
    have hid' := hrec id hreg
    rw [hid'] at hreg ⊢
    exact all id hreg hid
  | sent rest all =>
    refine .sent (fun id hreg => ?_) (fun id hreg hid => ?_)
    all_goals have hid' := hrec id hreg; rw [hid'] at hreg ⊢
    · exact rest id hreg
    · exact all id hreg hid
  | quiet rest idle =>
    refine .quiet (fun id hreg => ?_) (fun id hreg => ?_)
    all_goals have hid' := hrec id hreg; rw [hid'] at hreg ⊢
    · exact rest id hreg
    · exact idle id hreg

/-- Operations after which nothing is on its way and the same is pending. -/
theorem Whole.of_landed (h : Whole t done)
    (hrec : ∀ id, (t'.record id).registration.isSome → (t.record id).registration.isSome ∧
      (t'.record id).pending = (t.record id).pending ∧ (t'.record id).inFlight = none) :
    Whole t' done := by
  have hquiet : (∀ id, (t.record id).registration.isSome → (t.record id).pending = none) →
      Whole t' done := by
    intro rest
    refine .quiet (fun id hreg => ?_) (fun id hreg => (hrec id hreg).2.2)
    obtain ⟨hbefore, hp, -⟩ := hrec id hreg
    rw [hp]
    exact rest id hbefore
  cases h with
  | queued all =>
    refine .queued fun id hreg hid => ?_
    obtain ⟨hbefore, hp, -⟩ := hrec id hreg
    rw [hp]
    exact all id hbefore hid
  | sent rest => exact hquiet rest
  | quiet rest => exact hquiet rest

/-! ## Requests -/

/-- Queueing the group again leaves no member out. -/
theorem requeue_pending_isSome {r : Record} (hreg : r.registration.isSome)
    (hv : r.isVacant = false) (hw : r.hasWithdrawal = false) : r.requeue.pending.isSome := by
  have hlatest := Record.latestConfig_isSome hv hw
  unfold Record.requeue
  split
  · rfl
  · next hc =>
    -- nothing was queued, so something is pending already
    cases hp : r.pending with
    | some op => rfl
    | none =>
      have hsent : r.latestConfig = r.sentConfig := by
        simp [Record.latestConfig, Record.pendingConfig, hp]
      rw [Record.requeueConfig, hreg, hp, hsent.symm] at hc
      rw [show r.latestConfig = none from hc] at hlatest
      cases hlatest

/-- A request for an endpoint without a registration leaves those with one alone. -/
theorem record_announce_plain {config : Config} {ids : List String}
    (he : t.announce id none config = .ok (t', ids)) (hreg : (t'.record j).registration.isSome) :
    t'.record j = t.record j := by
  rw [record_announce he] at hreg ⊢
  by_cases hj : j = id
  · rw [if_pos hj] at hreg
    cases hreg
  · rw [if_neg hj]
    rfl

/-- So does a withdrawal. -/
theorem record_withdraw_plain {registration : Option Registration}
    (he : t.withdraw id registration = .ok t') (hreg : (t'.record j).registration.isSome) :
    t'.record j = t.record j := by
  obtain ⟨-, -, -, hnone, hrec⟩ := withdraw_eq_ok he
  rw [hrec] at hreg ⊢
  by_cases hj : j = id
  · rw [if_pos hj] at hreg
    rw [show (t.record id).registration = none from hnone] at hreg
    cases hreg
  · rw [if_neg hj]

/-- Admission queues the whole group. -/
theorem pending_announce {r : Registration} {config : Config} {ids : List String} (hs : Secure t)
    (he : t.announce id (some r) config = .ok (t', ids))
    (hreg : (t'.record j).registration.isSome) : (t'.record j).pending.isSome := by
  have hadmits := checkGroup_eq_ok ((announce_eq_ok he).2.1 r rfl)
  have hsame := registration_announce he j
  rw [record_announce he]
  by_cases hj : j = id
  · rw [if_pos hj]
    rfl
  · rw [if_neg hj] at hsame ⊢
    rw [hsame] at hreg
    exact requeue_pending_isSome hreg (isVacant_of_registration hs.occupied hreg)
      (hadmits.others j hj hreg)

theorem whole_announce {registration : Option Registration} {config : Config}
    {ids : List String} (hs : Secure t) (h : Whole t done)
    (he : t.announce id registration config = .ok (t', ids)) :
    Whole t' (if registration.isSome then [] else done) := by
  cases registration with
  | none => exact h.congr fun j hreg => record_announce_plain he hreg
  | some r => exact .queued fun j hreg _ => pending_announce hs he hreg

theorem whole_withdraw {registration : Option Registration} (h : Whole t done)
    (he : t.withdraw id registration = .ok t') : Whole t' done :=
  h.congr fun _ hreg => record_withdraw_plain he hreg

/-! ## Batches -/

theorem isSome_regain (r : Record) :
    r.regain.pending.isSome = (r.pending.isSome || r.inFlight.isSome) := by
  unfold Record.regain
  cases r.pending <;> rfl

theorem whole_reclaim (h : Whole t done) : Whole t.reclaim.1 done := by
  cases h with
  | queued all =>
    refine .queued fun id hreg hid => ?_
    rw [record_reclaim] at hreg ⊢
    rw [isSome_regain, all id hreg hid, Bool.true_or]
  | sent rest all =>
    refine .queued fun id hreg hid => ?_
    rw [record_reclaim] at hreg ⊢
    rw [isSome_regain, all id hreg hid, Bool.or_true]
  | quiet rest idle =>
    refine .quiet (fun id hreg => ?_) (fun id hreg => ?_)
    all_goals rw [record_reclaim] at hreg ⊢
    · have hp := rest id hreg
      have hf := idle id hreg
      rw [Record.regain, hp, hf]
      rfl
    · rfl

/-- From an idle table, all that is pending can be taken. -/
theorem record_takeAll (ht : t.isIdle = true) (id : String) :
    t.takeAll.1.record id = (t.record id).launch := by
  show (t.take fun _ => true).1.record id = _
  rw [record_take]
  have hf := isIdle_iff.mp ht id
  generalize t.record id = r at hf ⊢
  obtain ⟨registration, confirmed, pending, inFlight⟩ := r
  subst hf
  cases pending <;> rfl

theorem whole_takeAll (ht : t.isIdle = true) (h : Whole t done) : Whole t.takeAll.1 done := by
  have hrec := fun id => record_takeAll ht id
  have hquiet : (∀ id, (t.record id).registration.isSome → (t.record id).pending = none) →
      Whole t.takeAll.1 done := by
    intro rest
    refine .quiet (fun id hreg => ?_) (fun id hreg => ?_)
    all_goals rw [hrec] at hreg ⊢
    · rfl
    · exact rest id hreg
  cases h with
  | queued all =>
    refine .sent (fun id hreg => ?_) (fun id hreg hid => ?_)
    all_goals rw [hrec] at hreg ⊢
    · rfl
    · exact all id hreg hid
  | sent rest => exact hquiet rest
  | quiet rest => exact hquiet rest

/-- A selection takes all that is pending, or announces nobody of the group and
leaves the group alone. -/
theorem selectBatch_cases (hs : Secure t) : t.selectBatch = t.takeAll ∨
    ∃ select, t.selectBatch = batch? (t.take select) ∧
      ∀ id, (t.record id).registration.isSome → (t.record id).moves select = false := by
  unfold selectBatch
  split
  · exact .inl rfl
  · dsimp only
    split
    · next hempty => exact .inl (by rw [take_of_isEmpty hempty]; rfl)
    · refine .inr ⟨_, rfl, fun id hreg => ?_⟩
      obtain ⟨hw, -⟩ := Record.hasWithdrawal_eq_false.mp (hs.unwithdrawn id hreg)
      obtain ⟨r, hr⟩ := Option.isSome_iff_exists.mp hreg
      simp [Record.moves, hr, hw]

/-- Seen from the group, a selection takes all that is pending, or nothing. -/
theorem record_selectBatch_cases (hs : Secure t) : t.selectBatch.1 = t.takeAll.1 ∨
    ∀ id, (t.selectBatch.1.record id).registration.isSome →
      t.selectBatch.1.record id = t.record id := by
  rcases selectBatch_cases hs with hall | ⟨select, hsel, hno⟩
  · exact .inl (by rw [hall])
  · refine .inr fun id hreg => ?_
    rw [hsel] at hreg ⊢
    show (t.take select).1.record id = _
    rw [show (batch? (t.take select)).1 = (t.take select).1 from rfl, registration_take] at hreg
    rw [record_take, hno id hreg]
    rfl

theorem whole_selectBatch (ht : t.isIdle = true) (hs : Secure t) (h : Whole t done) :
    Whole t.selectBatch.1 done := by
  rcases record_selectBatch_cases hs with hall | hsame
  · rw [hall]
    exact whole_takeAll ht h
  · exact h.congr hsame

theorem whole_complete (h : Whole t done) : Whole t.complete.1 done := by
  refine h.of_landed fun id hreg => ?_
  rw [record_complete] at hreg ⊢
  have hkept := Record.kept_of_registration hreg
  rw [hkept] at hreg ⊢
  rw [Record.land_registration] at hreg
  exact ⟨hreg, Record.land_pending _, Record.land_inFlight _⟩

theorem whole_abandon (h : Whole t done) : Whole t.abandon.1 done := by
  refine h.of_landed fun id hreg => ?_
  rw [record_abandon] at hreg ⊢
  have hkept := Record.kept_of_registration hreg
  rw [hkept] at hreg ⊢
  exact ⟨hreg, rfl, rfl⟩

/-! ## Bootstrap -/

/-- A bootstrap that finds nothing stored queues the whole group. -/
theorem whole_republish (ht : t.isIdle = true) (hs : Secure t) : Whole t.republish [] := by
  refine .queued fun id hreg _ => ?_
  rw [record_republish] at hreg ⊢
  rw [Record.renew_registration] at hreg
  have hv := isVacant_of_registration hs.occupied hreg
  have hf := isIdle_iff.mp ht id
  unfold Record.renew
  split
  · rfl
  · next hno =>
    cases hp : (t.record id).pending with
    | some op => rfl
    | none =>
      cases hc : (t.record id).confirmed with
      | some c => exact absurd hc (hno c hp)
      | none => simp [Record.isVacant, hp, hc, hf] at hv

/-- A bootstrap takes from what is pending in the group just what it settles. -/
theorem pending_reconcile (ht : t.isIdle = true) (hs : Secure t) {stored : Configs}
    (he : stored.isEmpty = false) (hreg : (t.record id).registration.isSome) :
    ((t.reconcile stored).1.record id).pending =
      if id ∈ (t.reconcile stored).2 then none else (t.record id).pending := by
  rw [record_reconcile hs.occupied ht he hreg, record_confirmStored]
  simp only [mem_reconcile_ids he]
  split
  · rfl
  · rfl

theorem whole_reconcile (ht : t.isIdle = true) (hs : Secure t) (h : Whole t done)
    (stored : Configs) : Whole (t.reconcile stored).1
      (if stored.isEmpty then [] else (t.reconcile stored).2 ++ done) := by
  cases he : stored.isEmpty with
  | true =>
    rw [reconcile, if_pos he]
    exact whole_republish ht hs
  | false =>
    rw [if_neg Bool.false_ne_true]
    have hidle := isIdle_of_inFlight_eq (inFlight_reconcile t stored) ht
    have hquiet : (∀ id, (t.record id).registration.isSome → (t.record id).pending = none) →
        Whole (t.reconcile stored).1 ((t.reconcile stored).2 ++ done) := by
      intro rest
      refine .quiet (fun id hreg => ?_) (fun id _ => isIdle_iff.mp hidle id)
      rw [registration_reconcile] at hreg
      rw [pending_reconcile ht hs he hreg]
      split
      · rfl
      · exact rest id hreg
    cases h with
    | queued all =>
      refine .queued fun id hreg hid => ?_
      rw [registration_reconcile] at hreg
      obtain ⟨hfound, hdone⟩ := not_or.mp (mt List.mem_append.mpr hid)
      rw [pending_reconcile ht hs he hreg, if_neg hfound]
      exact all id hreg hdone
    | sent rest => exact hquiet rest
    | quiet rest => exact hquiet rest

/-! ## Steps and runs -/

theorem whole_step (hs : Secure t) (h : Whole t done) {op : Op} (ho : op.isSerial t = true) :
    Whole (t.step op) (op.settle t done) := by
  cases op with
  | announce id registration config =>
    cases he : t.announce id registration config with
    | error reason =>
      rw [step_announce_refused he]
      simpa [Op.settle, he, Except.isOk, Except.toBool] using h
    | ok r =>
      rw [step_announce he]
      simpa [Op.settle, he, Except.isOk, Except.toBool] using whole_announce hs h he
  | withdraw id registration =>
    exact step_withdraw_induction (P := fun t' => Whole t' done) h fun _ he => whole_withdraw h he
  | reclaim => exact whole_reclaim h
  | select => exact whole_selectBatch ho hs h
  | takeAll => exact whole_takeAll ho h
  | complete => exact whole_complete h
  | abandon => exact whole_abandon h
  | reconcile stored => exact whole_reconcile ho hs h stored

theorem whole_run (ops : List Op) (t : Table) (hs : Secure t) (h : Whole t done)
    (ho : serial t ops = true) : Secure (t.run ops) ∧ Whole (t.run ops) (settled t done ops) := by
  induction ops generalizing t done with
  | nil => exact ⟨hs, h⟩
  | cons op ops ih =>
    simp only [serial, Bool.and_eq_true] at ho
    exact ih (t.step op) (secure_step hs op (isOrderly_of_isSerial ho.1)) (whole_step hs h ho.1)
      ho.2

/-- A batch that announces somebody of the group announces everybody of it who
is not settled. -/
theorem whole_batch (hs : Secure t) (h : Whole t done) {op : Op} (ho : op.isSerial t = true)
    {b : Batch} (hb : op.batch? t = some b) (hid : (t.record id).registration.isSome)
    (hsent : (b.announced.get? id).isSome) (hj : (t.record j).registration.isSome)
    (hdone : j ∉ done) : (b.announced.get? j).isSome := by
  -- what is announced of the group was taken with all that was pending
  have hall : t.isIdle = true → t.takeAll.2 = some b → (b.announced.get? j).isSome := by
    intro ht htake
    have hget := takeAll_announced ht htake
    rw [hget] at hsent ⊢
    cases h with
    | queued all =>
      obtain ⟨op, hop⟩ := Option.isSome_iff_exists.mp (all j hj hdone)
      obtain ⟨hw, -⟩ := Record.hasWithdrawal_eq_false.mp (hs.unwithdrawn j hj)
      rw [Record.pendingConfig, hop]
      rw [hop] at hw
      cases op with
      | announce c => rfl
      | withdraw c => cases hw
    | sent rest => rw [Record.pendingConfig, rest id hid] at hsent; cases hsent
    | quiet rest => rw [Record.pendingConfig, rest id hid] at hsent; cases hsent
  cases op with
  | takeAll => exact hall ho hb
  | select =>
    rcases selectBatch_cases hs with hsel | ⟨select, hsel, hno⟩
    · rw [Op.batch?, hsel] at hb
      exact hall ho hb
    · rw [Op.batch?, hsel] at hb
      unfold batch? at hb
      dsimp only at hb
      split at hb
      · cases hb
      · cases hb
        rw [take_announced, hno id hid] at hsent
        cases hsent
  | _ => cases hb

end Announcer.Table
