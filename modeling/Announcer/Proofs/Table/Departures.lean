import Announcer.Proofs.Table.Permanence
import Mathlib.Data.List.Induction
/-!
# Endpoints that are asked to leave twice

A withdrawal is refused while one is pending. While one is on its way it is not: the
endpoint is confirmed until the batch lands, so asking again is accepted, and the second
withdrawal waits behind the first. This is the only way to two withdrawals of one
endpoint, and it takes two accepted requests: no other operation queues a withdrawal
behind another, and what a bootstrap withdraws is not confirmed and cannot be asked for
again.

Results:
* `turns_step`: what one orderly operation does to the slots of an endpoint;
* `leavesTwice_step`: when there are two withdrawals after it;
* `departures_run`: which requests an endpoint with two withdrawals has seen, after every
  orderly run.
-/
namespace Announcer

namespace Record

/-- A withdrawal is pending, and another one is on its way. -/
def leavesTwice (r : Record) : Bool :=
  r.pending.any Operation.isWithdrawal && r.inFlight.any Operation.isWithdrawal

/-- A withdrawal is on its way, nothing is pending, and the endpoint is still confirmed. -/
def mayLeaveAgain (r : Record) : Bool :=
  r.inFlight.any Operation.isWithdrawal && r.pending.isNone && r.confirmed.isSome

theorem leavesTwice_iff {r : Record} : r.leavesTwice = true ↔
    r.pending.any Operation.isWithdrawal = true ∧ r.inFlight.any Operation.isWithdrawal = true := by
  rw [leavesTwice, Bool.and_eq_true]

theorem mayLeaveAgain_iff {r : Record} : r.mayLeaveAgain = true ↔
    r.inFlight.any Operation.isWithdrawal = true ∧ r.pending = none ∧ r.confirmed.isSome := by
  simp [mayLeaveAgain, and_assoc]

theorem hasWithdrawal_iff {r : Record} : r.hasWithdrawal = true ↔
    r.pending.any Operation.isWithdrawal = true ∨ r.inFlight.any Operation.isWithdrawal = true := by
  rw [hasWithdrawal, Bool.or_eq_true]

end Record

namespace Table

variable {t t' : Table} {id : String} {op : Op}

/-! ## Asking -/

theorem withdraw_isOk_iff {registration : Option Registration} :
    (t.withdraw id registration).isOk = true ↔
      (t.record id).pending = none ∧ (t.record id).confirmed.isSome ∧
        (t.record id).registration = none ∧ registration = none := by
  constructor
  · intro h
    cases he : t.withdraw id registration with
    | error reason => rw [he] at h; cases h
    | ok t' =>
      obtain ⟨hp, hc, hasked, hreg, -⟩ := withdraw_eq_ok he
      exact ⟨hp, hc, hreg, hasked⟩
  · rintro ⟨hp, hc, hreg, rfl⟩
    unfold withdraw
    cases hget : t.records.get? id with
    | none =>
      rw [record, hget] at hc
      cases hc
    | some r =>
      rw [record_eq_get t id hget] at hp hc hreg
      simp [hp, hreg, Option.isSome_iff_ne_none.mp hc, Record.pendingConfig, Except.isOk,
        Except.toBool]

/-- An endpoint that is leaving may be asked to leave again only while nothing is pending and
it is still confirmed. -/
theorem withdraw_isOk_iff_mayLeaveAgain (h : Secure t) {registration : Option Registration}
    (hw : (t.record id).hasWithdrawal = true) :
    (t.withdraw id registration).isOk = true ↔
      (t.record id).mayLeaveAgain = true ∧ registration = none := by
  have hplain : (t.record id).registration = none := by
    refine Option.not_isSome_iff_eq_none.mp fun hreg => ?_
    rw [h.unwithdrawn id hreg] at hw
    cases hw
  rw [withdraw_isOk_iff, Record.mayLeaveAgain_iff]
  constructor
  · rintro ⟨hp, hc, -, hasked⟩
    rw [Record.hasWithdrawal_iff, hp] at hw
    exact ⟨⟨hw.resolve_left nofun, hp, hc⟩, hasked⟩
  · rintro ⟨⟨-, hp, hc⟩, hasked⟩
    exact ⟨hp, hc, hplain, hasked⟩

/-- The second withdrawal waits behind the first. -/
theorem leavesTwice_withdraw (h : Secure t) (hagain : (t.record id).mayLeaveAgain = true) :
    ((t.step (.withdraw id none)).record id).leavesTwice = true := by
  obtain ⟨hf, -, -⟩ := Record.mayLeaveAgain_iff.mp hagain
  have hok := (withdraw_isOk_iff_mayLeaveAgain h (Record.hasWithdrawal_iff.mpr (.inr hf))).mpr
    ⟨hagain, rfl⟩
  cases he : t.withdraw id none with
  | error reason => rw [he] at hok; cases hok
  | ok t' =>
    obtain ⟨-, -, -, -, hrec⟩ := withdraw_eq_ok he
    rw [step_withdraw he, hrec, if_pos rfl]
    exact Record.leavesTwice_iff.mpr ⟨rfl, hf⟩

/-! ## One operation -/

/-- What lands, drops or takes back the batch that is on its way. -/
def Op.endsBatch : Op → Bool
  | .reclaim | .complete | .abandon => true
  | _ => false

/-- What one orderly operation makes of the slots of an endpoint. -/
inductive Turns (id : String) (op : Op) (r r' : Record) : Prop where
  | rests (goes : op.endsBatch = false) (pending : r'.pending = r.pending)
      (inFlight : r'.inFlight = r.inFlight) (confirmed : r'.confirmed = r.confirmed)
  /-- An announcement is queued. -/
  | queued {c : Config} (goes : op.endsBatch = false) (free : r.pending = none)
      (pending : r'.pending = some (.announce c)) (inFlight : r'.inFlight = r.inFlight)
      (confirmed : r'.confirmed = r.confirmed)
  /-- A withdrawal is asked for. -/
  | asked (request : op = .withdraw id none) (plain : r.registration = none)
      (free : r.pending = none) (known : r.confirmed.isSome)
      (pending : r'.pending = some (.withdraw (.withdrawal id)))
      (inFlight : r'.inFlight = r.inFlight) (confirmed : r'.confirmed = r.confirmed)
  | launched (goes : op.endsBatch = false) (idle : r.inFlight = none) (pending : r'.pending = none)
      (inFlight : r'.inFlight = r.pending) (confirmed : r'.confirmed = r.confirmed)
  | regained (ends : op.endsBatch = true) (pending : r'.pending = (r.pending <|> r.inFlight))
      (inFlight : r'.inFlight = none) (confirmed : r'.confirmed = r.confirmed)
  /-- The batch lands, or is dropped. -/
  | settled (ends : op.endsBatch = true) (pending : r'.pending = r.pending)
      (inFlight : r'.inFlight = none) (confirmed : r.inFlight = none → r'.confirmed = r.confirmed)
  /-- A bootstrap compares the endpoint with the store. It withdraws nothing that is confirmed. -/
  | compared (goes : op.endsBatch = false) (idle : r.inFlight = none) (inFlight : r'.inFlight = none)
      (leaves : r'.pending.any Operation.isWithdrawal = true → r'.confirmed.isSome →
        r.pending.any Operation.isWithdrawal = true ∧ r.confirmed.isSome)

theorem turns_announce {registration : Option Registration} {config : Config} {ids : List String}
    {j : String} (h : t.announce j registration config = .ok (t', ids)) :
    Turns id (.announce j registration config) (t.record id) (t'.record id) := by
  have hrec := record_announce h id
  by_cases hj : id = j
  · subst hj
    have hfree := (checkRecord_eq_ok (announce_eq_ok h).1).1
    rw [hrec, if_pos rfl]
    exact .queued rfl hfree rfl rfl rfl
  · rw [hrec, if_neg hj]
    split
    · unfold Record.requeue
      split
      · next hc => exact .queued rfl (Record.requeueConfig_eq_some.mp hc).2.1 rfl rfl rfl
      · exact .rests rfl rfl rfl rfl
    · exact .rests rfl rfl rfl rfl

theorem turns_withdraw {registration : Option Registration} {j : String}
    (h : t.withdraw j registration = .ok t') :
    Turns id (.withdraw j registration) (t.record id) (t'.record id) := by
  obtain ⟨hfree, hknown, rfl, hplain, hrec⟩ := withdraw_eq_ok h
  rw [hrec]
  by_cases hj : id = j
  · subst hj
    rw [if_pos rfl]
    exact .asked rfl hplain hfree hknown rfl rfl rfl
  · rw [if_neg hj]
    exact .rests rfl rfl rfl rfl

theorem turns_take (goes : op.endsBatch = false) (select : Record → Bool) :
    Turns id op (t.record id) ((t.take select).1.record id) := by
  rw [record_take]
  split
  · next hm =>
    simp only [Record.moves, Bool.and_eq_true, Option.isNone_iff_eq_none] at hm
    exact .launched goes hm.1.2 rfl rfl rfl
  · exact .rests goes rfl rfl rfl

theorem turns_reconcile (ht : t.isIdle = true) (stored : Configs) :
    Turns id (.reconcile stored) (t.record id) ((t.reconcile stored).1.record id) := by
  have hidle := isIdle_iff.mp ht id
  have hidle' := isIdle_iff.mp (isIdle_of_inFlight_eq (inFlight_reconcile t stored) ht) id
  refine .compared rfl hidle hidle' fun hw hc => ?_
  cases he : stored.isEmpty with
  | true =>
    rw [reconcile, if_pos he, record_republish] at hw hc
    rw [Record.renew_confirmed] at hc
    unfold Record.renew at hw
    split at hw
    · cases hw
    · exact ⟨hw, hc⟩
  | false =>
    rw [reconcile, if_neg (by simp [he]), record_withdrawStale] at hw hc
    split at hc
    · next hs =>
      -- what is stale is not confirmed
      obtain ⟨c, -, hstale⟩ := (Option.any_eq_true ..).mp hs
      simp only [isStale, Bool.and_eq_true, Option.isNone_iff_eq_none] at hstale
      rw [show ((t.confirmStored stored).record id).confirmed = none from hstale.1.2] at hc
      cases hc
    · next hs =>
      rw [if_neg hs] at hw
      rw [record_confirmStored] at hw hc
      split at hw
      · cases hw
      · next hunstored =>
        rw [if_neg hunstored] at hc
        exact ⟨hw, hc⟩

theorem turns_step (t : Table) (op : Op) (ho : op.isOrderly t = true) (id : String) :
    Turns id op (t.record id) ((t.step op).record id) := by
  cases op with
  | announce j registration config =>
    exact step_announce_induction (P := fun t' => Turns id _ (t.record id) (t'.record id))
      (.rests rfl rfl rfl rfl) fun _ _ he => turns_announce he
  | withdraw j registration =>
    exact step_withdraw_induction (P := fun t' => Turns id _ (t.record id) (t'.record id))
      (.rests rfl rfl rfl rfl) fun _ he => turns_withdraw he
  | reclaim =>
    show Turns id .reclaim (t.record id) (t.reclaim.1.record id)
    rw [record_reclaim]
    exact .regained rfl rfl rfl rfl
  | select =>
    exact selectBatch_of_take (P := fun t' => Turns id _ (t.record id) (t'.record id))
      (turns_take rfl)
  | takeAll => exact turns_take rfl _
  | complete =>
    show Turns id .complete (t.record id) (t.complete.1.record id)
    rw [record_complete]
    refine .settled rfl ?_ ?_ fun hf => ?_
    · rw [Record.kept_pending, Record.land_pending]
    · rw [Record.kept_inFlight, Record.land_inFlight]
    · rw [Record.kept_confirmed, Record.land_confirmed, hf]
  | abandon =>
    show Turns id .abandon (t.record id) (t.abandon.1.record id)
    rw [record_abandon]
    exact .settled rfl (Record.kept_pending _) (Record.kept_inFlight _)
      fun _ => Record.kept_confirmed _
  | reconcile stored => exact turns_reconcile ho stored

/-- A withdrawal that waits behind something that is on its way is one of a confirmed
endpoint. -/
def Grounded (t : Table) : Prop := ∀ id, (t.record id).pending.any Operation.isWithdrawal = true →
  (t.record id).inFlight.isSome → (t.record id).confirmed.isSome

theorem grounded_empty : Grounded .empty := by
  intro id hw
  cases hw

theorem grounded_step (h : Grounded t) (ho : op.isOrderly t = true) : Grounded (t.step op) := by
  intro id hw hf
  cases turns_step t op ho id with
  | rests _ hp hf' hc =>
    rw [hp] at hw
    rw [hf'] at hf
    rw [hc]
    exact h id hw hf
  | queued _ _ hp => rw [hp] at hw; cases hw
  | asked _ _ _ hknown _ _ hc => rwa [hc]
  | launched _ _ hp => rw [hp] at hw; cases hw
  | regained _ _ hf' => rw [hf'] at hf; cases hf
  | settled _ _ hf' => rw [hf'] at hf; cases hf
  | compared _ _ hf' => rw [hf'] at hf; cases hf

/-- The withdrawal of a confirmed endpoint was asked for. -/
theorem leaving_step (h : Grounded t) (ho : op.isOrderly t = true)
    (hw : ((t.step op).record id).hasWithdrawal = true)
    (hc : ((t.step op).record id).confirmed.isSome) :
    ((t.record id).hasWithdrawal = true ∧ (t.record id).confirmed.isSome) ∨
      (op = .withdraw id none ∧ (t.withdraw id none).isOk = true) := by
  rw [Record.hasWithdrawal_iff] at hw ⊢
  cases turns_step t op ho id with
  | rests _ hp hf hc' =>
    rw [hp, hf] at hw
    rw [hc'] at hc
    exact .inl ⟨hw, hc⟩
  | queued _ _ hp hf hc' =>
    rw [hp, hf] at hw
    rw [hc'] at hc
    exact .inl ⟨.inr (hw.resolve_left nofun), hc⟩
  | asked hop hplain hfree hknown =>
    exact .inr ⟨hop, withdraw_isOk_iff.mpr ⟨hfree, hknown, hplain, rfl⟩⟩
  | launched _ _ hp hf hc' =>
    rw [hp, hf] at hw
    rw [hc'] at hc
    exact .inl ⟨.inl (hw.resolve_left nofun), hc⟩
  | regained _ hp hf hc' =>
    rw [hp, hf] at hw
    rw [hc'] at hc
    have hw := hw.resolve_right nofun
    refine .inl ⟨?_, hc⟩
    cases hpend : (t.record id).pending with
    | none => exact .inr (by simpa [hpend] using hw)
    | some op' => exact .inl (by simpa [hpend] using hw)
  | settled _ hp hf hc' =>
    rw [hp, hf] at hw
    have hw := hw.resolve_right nofun
    refine .inl ⟨.inl hw, ?_⟩
    cases hflight : (t.record id).inFlight with
    | none => rwa [← hc' hflight]
    | some op' => exact h id hw (by rw [hflight]; rfl)
  | compared _ _ hf hleaves =>
    rw [hf] at hw
    obtain ⟨hw, hc⟩ := hleaves (hw.resolve_right nofun) hc
    exact .inl ⟨.inl hw, hc⟩

/-- Two withdrawals are there while the batch with the first one is on its way, and they
come to be when the second one is asked for. -/
theorem leavesTwice_step (h : Secure t) (ho : op.isOrderly t = true) :
    ((t.step op).record id).leavesTwice = true ↔
      ((t.record id).leavesTwice = true ∧ op.endsBatch = false) ∨
        (op = .withdraw id none ∧ (t.record id).mayLeaveAgain = true) := by
  have hturn := turns_step t op ho id
  constructor
  · intro hw
    rw [Record.leavesTwice_iff] at hw ⊢
    cases hturn with
    | rests hgoes hp hf =>
      rw [hp, hf] at hw
      exact .inl ⟨hw, hgoes⟩
    | queued _ _ hp => rw [hp] at hw; cases hw.1
    | asked hop _ hfree hknown _ hf =>
      rw [hf] at hw
      exact .inr ⟨hop, Record.mayLeaveAgain_iff.mpr ⟨hw.2, hfree, hknown⟩⟩
    | launched _ _ hp => rw [hp] at hw; cases hw.1
    | regained _ _ hf => rw [hf] at hw; cases hw.2
    | settled _ _ hf => rw [hf] at hw; cases hw.2
    | compared _ _ hf => rw [hf] at hw; cases hw.2
  · rintro (⟨hw, hgoes⟩ | ⟨rfl, hagain⟩)
    · rw [Record.leavesTwice_iff] at hw ⊢
      cases hturn with
      | rests _ hp hf => rwa [hp, hf]
      | queued _ hfree => rw [hfree] at hw; cases hw.1
      | asked _ _ hfree => rw [hfree] at hw; cases hw.1
      | launched _ hidle => rw [hidle] at hw; cases hw.2
      | regained hends => rw [hends] at hgoes; cases hgoes
      | settled hends => rw [hends] at hgoes; cases hgoes
      | compared _ hidle => rw [hidle] at hw; cases hw.2
    · exact leavesTwice_withdraw h hagain

/-! ## Runs -/

theorem grounded_run (ops : List Op) (h : orderly .empty ops = true) :
    Grounded (Table.empty.run ops) :=
  run_induction (fun _ _ hg ho => grounded_step hg ho) ops .empty grounded_empty h

/-- `t` accepts the withdrawal of `id`, and while `ops` is done then, the endpoint does not
cease to be leaving and no other request is accepted. -/
structure Leaves (t : Table) (id : String) (ops : List Op) : Prop where
  accepted : (t.withdraw id none).isOk = true
  since : ∀ mid, mid <+: ops →
    ((t.run (.withdraw id none :: mid)).record id).hasWithdrawal = true
  latest : ∀ mid, mid ++ [.withdraw id none] <+: ops →
    ((t.run (.withdraw id none :: mid)).withdraw id none).isOk = false

/-- A confirmed endpoint that is leaving was asked to, and has been leaving since the last
request that was accepted. -/
theorem leaves_of_hasWithdrawal {ops : List Op} (ho : orderly .empty ops = true)
    (hw : ((Table.empty.run ops).record id).hasWithdrawal = true)
    (hc : ((Table.empty.run ops).record id).confirmed.isSome) :
    ∃ before after, ops = before ++ .withdraw id none :: after ∧
      (Table.empty.run before).Leaves id after := by
  induction ops using List.reverseRecOn with
  | nil => cases hw
  | append_singleton ops op ih =>
    simp only [orderly_append, orderly, Bool.and_true, Bool.and_eq_true] at ho
    have hlast : Table.empty.run (ops ++ [op]) = (Table.empty.run ops).step op := run_append ..
    rw [hlast] at hw hc
    by_cases hasked : op = .withdraw id none ∧ ((Table.empty.run ops).withdraw id none).isOk = true
    · -- this is the last request that was accepted
      obtain ⟨rfl, hok⟩ := hasked
      refine ⟨ops, [], rfl, hok, fun mid hmid => ?_, fun mid hmid => ?_⟩
      · rw [List.prefix_nil.mp hmid]
        exact hw
      · simp at hmid
    · obtain ⟨hwas, hknown⟩ := (leaving_step (grounded_run ops ho.1) ho.2 hw hc).resolve_right hasked
      obtain ⟨before, after, rfl, hleaves⟩ := ih ho.1 hwas hknown
      have hafter : (Table.empty.run before).run (.withdraw id none :: after) =
        Table.empty.run (before ++ .withdraw id none :: after) := (run_append ..).symm
      refine ⟨before, after ++ [op], by simp, hleaves.accepted, fun mid hmid => ?_,
        fun mid hmid => ?_⟩
      · rcases List.prefix_concat_iff.mp hmid with rfl | hmid
        · rw [← List.cons_append, run_append, hafter]
          exact hw
        · exact hleaves.since mid hmid
      · rcases List.prefix_concat_iff.mp hmid with heq | hmid
        · obtain ⟨rfl, hop⟩ := List.append_inj' heq rfl
          rw [hafter]
          exact Bool.eq_false_iff.mpr fun hok => hasked ⟨(List.singleton_inj.mp hop).symm, hok⟩
        · exact hleaves.latest mid hmid

/-- Two withdrawals are there from the second request on until the batch ends. -/
theorem leavesTwice_run {ops : List Op} (ho : orderly .empty ops = true) :
    ((Table.empty.run ops).record id).leavesTwice = true ↔
      ∃ before after, ops = before ++ .withdraw id none :: after ∧
        ((Table.empty.run before).record id).mayLeaveAgain = true ∧
        ∀ op ∈ after, op.endsBatch = false := by
  induction ops using List.reverseRecOn with
  | nil => simp [run, Record.leavesTwice, Record.blank]
  | append_singleton ops op ih =>
    simp only [orderly_append, orderly, Bool.and_true, Bool.and_eq_true] at ho
    have hlast : Table.empty.run (ops ++ [op]) = (Table.empty.run ops).step op := run_append ..
    rw [hlast, leavesTwice_step (secure_run ops ho.1) ho.2, ih ho.1]
    constructor
    · rintro (⟨⟨before, after, rfl, hagain, hgoes⟩, hop⟩ | ⟨rfl, hagain⟩)
      · refine ⟨before, after ++ [op], by simp, hagain, ?_⟩
        simpa [or_imp, forall_and] using ⟨hgoes, hop⟩
      · exact ⟨ops, [], rfl, hagain, List.forall_mem_nil _⟩
    · rintro ⟨before, after, heq, hagain, hgoes⟩
      rcases List.eq_nil_or_concat after with rfl | ⟨after, last, rfl⟩
      · obtain ⟨rfl, hop⟩ := List.append_inj' heq rfl
        exact .inr ⟨List.singleton_inj.mp hop, hagain⟩
      · rw [List.concat_eq_append] at heq hgoes
        rw [← List.cons_append, ← List.append_assoc] at heq
        obtain ⟨rfl, hop⟩ := List.append_inj' heq rfl
        obtain rfl := List.singleton_inj.mp hop
        exact .inl ⟨⟨before, after, rfl, hagain, fun op' hop' =>
          hgoes op' (List.mem_append_left _ hop')⟩, hgoes op List.mem_concat_self⟩

/-- The requests to leave that an endpoint has seen, and those that it may still see, after
a run from the empty table. -/
structure Departures (ops : List Op) (id : String) : Prop where
  /-- While it is leaving, another request is accepted only if nothing is pending and the
  endpoint is still confirmed. -/
  accepted_iff : ∀ registration, ((Table.empty.run ops).record id).hasWithdrawal = true →
    (((Table.empty.run ops).withdraw id registration).isOk = true ↔
      ((Table.empty.run ops).record id).mayLeaveAgain = true ∧ registration = none)
  /-- There are two withdrawals exactly if two requests were accepted, one after the other, the
  second one while the withdrawal of the first was on its way, and no batch ended since. -/
  twice_iff : ((Table.empty.run ops).record id).leavesTwice = true ↔
    ∃ first between after,
      ops = first ++ .withdraw id none :: (between ++ .withdraw id none :: after) ∧
      (Table.empty.run first).Leaves id between ∧
      ((Table.empty.run (first ++ .withdraw id none :: between)).record id).mayLeaveAgain = true ∧
      ∀ op ∈ after, op.endsBatch = false

/-- **One withdrawal for each request.** After every orderly run from the empty table, a
withdrawal waits behind another one only where the endpoint was asked to leave again while the
first was on its way, and until the batch ends; and this is the only request that is accepted
while an endpoint is leaving. -/
theorem departures_run (ops : List Op) (h : orderly .empty ops = true) (id : String) :
    Departures ops id := by
  refine ⟨fun registration hw => withdraw_isOk_iff_mayLeaveAgain (secure_run ops h) hw, ?_⟩
  rw [leavesTwice_run h]
  constructor
  · rintro ⟨before, after, rfl, hagain, hgoes⟩
    rw [orderly_append, Bool.and_eq_true] at h
    obtain ⟨hf, -, hc⟩ := Record.mayLeaveAgain_iff.mp hagain
    obtain ⟨first, between, rfl, hleaves⟩ :=
      leaves_of_hasWithdrawal h.1 (Record.hasWithdrawal_iff.mpr (.inr hf)) hc
    exact ⟨first, between, after, by simp, hleaves, hagain, hgoes⟩
  · rintro ⟨first, between, after, rfl, -, hagain, hgoes⟩
    exact ⟨first ++ .withdraw id none :: between, after, by simp, hagain, hgoes⟩

/-- An endpoint is confirmed and asked to leave, and again while its withdrawal is on its way. -/
def askedAgain : List Op :=
  [.announce "a" none ⟨"1"⟩, .takeAll, .complete, .withdraw "a" none, .takeAll, .withdraw "a" none]

/-- Both requests are accepted, and a third one is refused. -/
theorem departures_askedAgain : orderly .empty askedAgain = true ∧
    ((Table.empty.run askedAgain).withdraw "a" none).isOk = false ∧
    ∃ first between after,
      askedAgain = first ++ .withdraw "a" none :: (between ++ .withdraw "a" none :: after) ∧
      (Table.empty.run first).Leaves "a" between := by
  have h : orderly .empty askedAgain = true := by decide +kernel
  have hd := departures_run askedAgain h "a"
  refine ⟨h, ?_, ?_⟩
  · refine Bool.eq_false_iff.mpr fun hok => ?_
    have hagain := ((hd.accepted_iff none (by decide +kernel)).mp hok).1
    revert hagain
    decide +kernel
  · obtain ⟨first, between, after, hops, hleaves, -⟩ := hd.twice_iff.mp (by decide +kernel)
    exact ⟨first, between, after, hops, hleaves⟩

/-- Then two withdrawals of one endpoint go out, one after the other. -/
theorem leavesTwice_askedAgain : orderly .empty askedAgain = true ∧
    ((Table.empty.run (askedAgain.take 5)).withdraw "a" none).isOk = true ∧
    ((Table.empty.run askedAgain).record "a").leavesTwice = true ∧
    ((Table.empty.run (askedAgain.take 4)).takeAll.2.any fun b => b.withdrawn.keys = ["a"]) ∧
    ((Table.empty.run (askedAgain ++ [.complete])).takeAll.2.any fun b =>
      b.withdrawn.keys = ["a"]) := by
  decide +kernel

end Table

end Announcer
