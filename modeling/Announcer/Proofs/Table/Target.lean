import Announcer.Proofs.Table.Batches
import Announcer.Proofs.Table.Runs
/-!
# What callers want of every endpoint

`target` reads off a record what its endpoint is to become: the newest operation
decides, pending before on its way, and else what is confirmed. `revise` says
how one operation may change these wishes. An accepted request sets the wish of
its own endpoint; giving a batch up for good returns the endpoints of which
nothing newer is pending to what is confirmed; no other operation changes any
wish, although all of them move operations between the slots.

Results:
* `target_step`: each step changes the targets as `revise` says;
* `target_run`: so after every orderly run from the empty table the targets are
  the wishes that `desired` has followed.
-/
namespace Announcer

/-- What an endpoint is to become: announced with a config, or not announced. -/
def Record.target (r : Record) : Option Config :=
  match r.pending, r.inFlight with
  | some op, _ => op.announced?
  | none, some op => op.announced?
  | none, none => r.confirmed

namespace Record

theorem target_of_pending {r : Record} {op : Operation} (h : r.pending = some op) :
    r.target = op.announced? := by
  simp [target, h]

theorem target_of_idle {r : Record} (hp : r.pending = none) (hf : r.inFlight = none) :
    r.target = r.confirmed := by
  simp [target, hp, hf]

/-- The target is read from the three slots. -/
theorem target_congr {r s : Record} (hp : r.pending = s.pending) (hf : r.inFlight = s.inFlight)
    (hc : r.confirmed = s.confirmed) : r.target = s.target := by
  simp only [target, hp, hf, hc]

@[simp] theorem target_kept (r : Record) : r.kept.target = r.target :=
  target_congr (kept_pending r) (kept_inFlight r) (kept_confirmed r)

theorem target_regain (r : Record) : r.regain.target = r.target := by
  unfold target regain
  cases r.pending with
  | some op => rfl
  | none => cases r.inFlight <;> rfl

theorem target_launch {r : Record} {op : Operation} (h : r.pending = some op) :
    r.launch.target = r.target := by
  simp [target, launch, h]

theorem target_land (r : Record) : r.land.target = r.target := by
  unfold target
  rw [land_pending, land_inFlight]
  cases r.pending with
  | some op => rfl
  | none => rw [land_confirmed]; cases r.inFlight <;> rfl

/-- Queueing a member again repeats its newest config. This fails for a member
whose withdrawal is on its way, and admission sees to it that there is none. -/
theorem target_requeue {r : Record} (h : r.registration.isSome → r.hasWithdrawal = false) :
    r.requeue.target = r.target := by
  unfold requeue
  split
  · next c hc =>
    obtain ⟨hreg, hp, hsent⟩ := requeueConfig_eq_some.mp hc
    have hw := h hreg
    unfold target
    cases hf : r.inFlight with
    | none =>
      have : r.confirmed = some c := by simpa [sentConfig, inFlightConfig, hf] using hsent
      simp [hp, this, Operation.announced?]
    | some op =>
      cases op with
      | announce c' =>
        simpa [hp, sentConfig, inFlightConfig, hf, Operation.announced?] using hsent.symm
      | withdraw c' => simp [hasWithdrawal, hf, Operation.isWithdrawal, Operation.withdrawn?] at hw
  · rfl

theorem target_renew {r : Record} (h : r.inFlight = none) : r.renew.target = r.target := by
  unfold renew
  split
  · next c hp hc => simp [target, hp, hc, h, Operation.announced?]
  · rfl

end Record

namespace Table

variable {t t' : Table} {id : String}

/-- What the endpoint `id` is to become. -/
def target (t : Table) (id : String) : Option Config := (t.record id).target

/-- What callers want: for every endpoint a config, or none. -/
abbrev Wishes := String → Option Config

/-- How an operation changes what callers want. -/
def Op.revise (t : Table) (want : Wishes) : Op → Wishes
  | .announce id registration config =>
    if (t.announce id registration config).isOk then fun j => if j = id then some config else want j
    else want
  | .withdraw id registration =>
    if (t.withdraw id registration).isOk then fun j => if j = id then none else want j
    else want
  | .abandon => fun id =>
    if (t.record id).inFlight.isSome && (t.record id).pending.isNone then (t.record id).confirmed
    else want id
  | _ => want

/-- What callers want after a run, with `want` before it. -/
def desired (t : Table) (want : Wishes) : List Op → Wishes
  | [] => want
  | op :: ops => desired (t.step op) (op.revise t want) ops

/-! ## One operation -/

theorem target_announce {registration : Option Registration} {config : Config}
    {ids : List String} (h : t.announce id registration config = .ok (t', ids)) (j : String) :
    t'.target j = if j = id then some config else t.target j := by
  unfold target
  rw [record_announce h]
  split
  · rfl
  · next hj =>
    split
    · next hreg =>
      obtain ⟨r, hr⟩ := Option.isSome_iff_exists.mp hreg
      have hadmits := checkGroup_eq_ok ((announce_eq_ok h).2.1 r hr)
      exact Record.target_requeue (hadmits.others j hj)
    · rfl

theorem target_withdraw {registration : Option Registration}
    (h : t.withdraw id registration = .ok t') (j : String) :
    t'.target j = if j = id then none else t.target j := by
  obtain ⟨-, -, -, -, hrec⟩ := withdraw_eq_ok h
  unfold target
  rw [hrec]
  split
  · rfl
  · rfl

theorem target_take (t : Table) (select : Record → Bool) (j : String) :
    (t.take select).1.target j = t.target j := by
  unfold target
  rw [record_take]
  split
  · next h =>
    simp only [Record.moves, Bool.and_eq_true] at h
    obtain ⟨op, hop⟩ := Option.isSome_iff_exists.mp h.1.1
    exact Record.target_launch hop
  · rfl

theorem target_selectBatch (t : Table) (j : String) : t.selectBatch.1.target j = t.target j := by
  obtain ⟨select, hs⟩ := selectBatch_eq_take t
  rw [hs]
  exact target_take t select j

theorem target_abandon (t : Table) (j : String) :
    t.abandon.1.target j =
      if (t.record j).inFlight.isSome && (t.record j).pending.isNone then (t.record j).confirmed
      else t.target j := by
  unfold target
  rw [record_abandon, Record.target_kept]
  unfold Record.target
  cases (t.record j).pending with
  | some op => simp
  | none => cases (t.record j).inFlight <;> simp

/-- What is stored already is confirmed with the very config that was pending. -/
theorem target_confirmStored (ht : t.isIdle = true) (stored : Configs) (j : String) :
    (t.confirmStored stored).target j = t.target j := by
  unfold target
  rw [record_confirmStored]
  split
  · next hs =>
    obtain ⟨c, s, hc, -, -⟩ := isStored_iff.mp hs
    -- a config is pending, so the pending operation is its announcement
    obtain ⟨op, hop, hann⟩ := Option.bind_eq_some_iff.mp hc
    rw [Record.target_of_pending hop, hann, ← hc]
    exact Record.target_of_idle rfl (isIdle_iff.mp ht j)
  · rfl

/-- An endpoint is withdrawn as stale only when nobody wants it. -/
theorem target_withdrawStale (ht : t.isIdle = true) (stored : Configs) (j : String) :
    (t.withdrawStale stored).target j = t.target j := by
  unfold target
  rw [record_withdrawStale]
  split
  · next hs =>
    obtain ⟨c, -, hstale⟩ := (Option.any_eq_true ..).mp hs
    simp only [isStale, Bool.and_eq_true, Option.isNone_iff_eq_none] at hstale
    rw [Record.target_of_idle hstale.1.1 (isIdle_iff.mp ht j), hstale.1.2]
    rfl
  · rfl

theorem target_reconcile (ht : t.isIdle = true) (stored : Configs) (j : String) :
    (t.reconcile stored).1.target j = t.target j := by
  unfold reconcile
  split
  · show (t.republish.record j).target = _
    rw [record_republish]
    exact Record.target_renew (isIdle_iff.mp ht j)
  · show ((t.confirmStored stored).withdrawStale stored).target j = _
    have hc := isIdle_of_inFlight_eq (inFlight_confirmStored t stored) ht
    rw [target_withdrawStale hc, target_confirmStored ht]

/-! ## Runs -/

/-- Each step changes the targets as the wishes are revised. -/
theorem target_step (t : Table) (op : Op) (h : op.isOrderly t = true) (j : String) :
    (t.step op).target j = op.revise t t.target j := by
  cases op with
  | announce id registration config =>
    simp only [step, Op.revise]
    cases e : t.announce id registration config with
    | error reason => rfl
    | ok r => exact target_announce e j
  | withdraw id registration =>
    simp only [step, Op.revise]
    cases e : t.withdraw id registration with
    | error reason => rfl
    | ok t' => exact target_withdraw e j
  | reclaim =>
    show (t.reclaim.1.record j).target = _
    rw [record_reclaim]
    exact Record.target_regain _
  | select => exact target_selectBatch t j
  | takeAll => exact target_take t _ j
  | complete =>
    show (t.complete.1.record j).target = _
    rw [record_complete, Record.target_kept]
    exact Record.target_land _
  | abandon => exact target_abandon t j
  | reconcile stored => exact target_reconcile h stored j

theorem desired_congr (ops : List Op) (t : Table) {want want' : Wishes}
    (h : ∀ j, want j = want' j) : t.desired want ops = t.desired want' ops :=
  congrArg (t.desired · ops) (funext h)

theorem target_run_from (ops : List Op) (t : Table) (h : orderly t ops = true) (j : String) :
    (t.run ops).target j = t.desired t.target ops j := by
  induction ops generalizing t with
  | nil => rfl
  | cons op ops ih =>
    simp only [orderly, Bool.and_eq_true] at h
    show ((t.step op).run ops).target j = (t.step op).desired (op.revise t t.target) ops j
    rw [ih (t.step op) h.2, desired_congr ops _ (target_step t op h.1)]

/-- **The table keeps the wishes.** After every orderly run from the empty
table, each endpoint is to become what callers want of it. -/
theorem target_run (ops : List Op) (h : orderly .empty ops = true) (id : String) :
    (Table.empty.run ops).target id = Table.empty.desired (fun _ => none) ops id :=
  target_run_from ops .empty h id

/-- Two members of the group and a third endpoint: one batch is given up while
something newer is pending, the next one is refused for good, and a bootstrap
finds the rest stored. -/
def mixedRun : List Op :=
  let r : Registration := ⟨"product", "serial", "acme", "id"⟩
  [.announce "a" (some r) ⟨"1"⟩, .announce "c" none ⟨"3"⟩, .select,
    .announce "b" (some r) ⟨"2"⟩, .announce "c" none ⟨"4"⟩, .complete, .select, .reclaim,
    .takeAll, .abandon, .withdraw "c" none, .select, .announce "c" none ⟨"5"⟩, .reclaim,
    .reconcile (.ofList [("c", ⟨"5"⟩), ("z", ⟨"6"⟩)])]

theorem target_mixedRun : orderly .empty mixedRun = true ∧
    (Table.empty.run mixedRun).target "c" = some ⟨"5"⟩ ∧
    (Table.empty.run mixedRun).target "b" = none :=
  have h : orderly .empty mixedRun = true := by decide +kernel
  ⟨h, (target_run mixedRun h "c").trans (by decide +kernel),
    (target_run mixedRun h "b").trans (by decide +kernel)⟩

end Table

end Announcer
