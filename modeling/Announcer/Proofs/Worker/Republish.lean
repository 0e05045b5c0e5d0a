import Announcer.Proofs.Worker.Deeds
/-!
# Republishing after the store was emptied

A bootstrap that finds the store empty queues everything confirmed, whatever the
service has already. So emptying the store makes the next bootstrap announce
every endpoint again that was confirmed and is not to be withdrawn
(`republished_run`). A withdrawal that was accepted before stays in its place: its
endpoint is confirmed still, and is withdrawn and not announced.

What carries the result over everything that happens in between is that nothing
but a withdrawal of an endpoint takes back that it is confirmed (`stays_step`),
and that nothing but a batch with announcements puts something into the store
(`isEmpty_step`).

Results: `stays_step`, `announced_offerBatch`, and `republished_run`;
`overlooked_afterClear` has the runs in which a confirmed endpoint is not announced.
-/
namespace Announcer

/-! ## Endpoints that stay -/
namespace Table

variable {t t' : Table} {id : String}

/-- The endpoint is confirmed and nothing withdraws it. -/
structure Stays (t : Table) (id : String) : Prop where
  confirmed : (t.record id).confirmed.isSome
  unwithdrawn : (t.record id).hasWithdrawal = false

instance (t : Table) (id : String) : Decidable (t.Stays id) :=
  decidable_of_iff ((t.record id).confirmed.isSome ∧ (t.record id).hasWithdrawal = false)
    ⟨fun h => ⟨h.1, h.2⟩, fun h => ⟨h.1, h.2⟩⟩

/-- True for a withdrawal of the endpoint that is accepted. -/
def Op.withdraws (t : Table) (id : String) : Op → Bool
  | .withdraw j registration => j = id && (t.withdraw j registration).isOk
  | _ => false

theorem hasWithdrawal_announce {j : String} {registration : Option Registration}
    {config : Config} {ids : List String} (hw : (t.record id).hasWithdrawal = false)
    (he : t.announce j registration config = .ok (t', ids)) :
    (t'.record id).hasWithdrawal = false := by
  rw [record_announce he]
  split
  · next hj =>
    subst hj
    exact Record.hasWithdrawal_eq_false.mpr ⟨rfl, (Record.hasWithdrawal_eq_false.mp hw).2⟩
  · split
    · exact Record.hasWithdrawal_requeue hw
    · exact hw

theorem hasWithdrawal_take (hw : (t.record id).hasWithdrawal = false) (select : Record → Bool) :
    ((t.take select).1.record id).hasWithdrawal = false := by
  rw [record_take]
  split
  · exact Record.hasWithdrawal_launch hw
  · exact hw

/-- A bootstrap withdraws nothing that is confirmed. -/
theorem hasWithdrawal_reconcile (h : t.Stays id) (stored : Configs) :
    ((t.reconcile stored).1.record id).hasWithdrawal = false := by
  unfold reconcile
  split
  · rw [record_republish]
    exact Record.hasWithdrawal_renew h.unwithdrawn
  · have hconfirmed : ((t.confirmStored stored).record id).hasWithdrawal = false ∧
        ((t.confirmStored stored).record id).confirmed.isSome := by
      rw [record_confirmStored]
      split
      · next hs =>
        obtain ⟨c, s, hc, -, -⟩ := isStored_iff.mp hs
        exact ⟨Record.hasWithdrawal_eq_false.mpr
          ⟨rfl, (Record.hasWithdrawal_eq_false.mp h.unwithdrawn).2⟩, by rw [hc]; rfl⟩
      · exact ⟨h.unwithdrawn, h.confirmed⟩
    have hspared : (stored.get? id).any ((t.confirmStored stored).isStale id) = false := by
      cases stored.get? id with
      | none => rfl
      | some s => simp [isStale, Option.isNone_eq_false_iff.mpr hconfirmed.2]
    show (((t.confirmStored stored).withdrawStale stored).record id).hasWithdrawal = false
    rw [record_withdrawStale, hspared, if_neg Bool.false_ne_true]
    exact hconfirmed.1

/-- Only a withdrawal keeps an endpoint from staying. -/
theorem stays_step (h : t.Stays id) {op : Op} (hno : op.withdraws t id = false) :
    (t.step op).Stays id := by
  refine ⟨confirmed_step h.unwithdrawn h.confirmed op, ?_⟩
  have hw := h.unwithdrawn
  cases op with
  | announce j registration config =>
    exact step_announce_induction (P := fun t' => (t'.record id).hasWithdrawal = false) hw
      fun _ _ he => hasWithdrawal_announce hw he
  | withdraw j registration =>
    cases he : t.withdraw j registration with
    | error reason => rwa [step_withdraw_refused he]
    | ok t' =>
      have hj : j ≠ id := by simpa [Op.withdraws, he, Except.isOk, Except.toBool] using hno
      obtain ⟨-, -, -, -, hrec⟩ := withdraw_eq_ok he
      rwa [step_withdraw he, hrec, if_neg hj.symm]
  | reclaim =>
    show (t.reclaim.1.record id).hasWithdrawal = false
    rw [record_reclaim]
    exact Record.hasWithdrawal_regain hw
  | select =>
    exact selectBatch_of_take (P := fun t' => (t'.record id).hasWithdrawal = false)
      (hasWithdrawal_take hw)
  | takeAll => exact hasWithdrawal_take hw _
  | complete =>
    refine Record.hasWithdrawal_idle hw (s := t.complete.1.record id) ?_ ?_
    · rw [record_complete, Record.kept_pending, Record.land_pending]
    · exact isIdle_iff.mp t.isIdle_complete id
  | abandon =>
    refine Record.hasWithdrawal_idle hw (s := t.abandon.1.record id) ?_ ?_
    · rw [record_abandon, Record.kept_pending]
    · exact isIdle_iff.mp t.isIdle_abandon id
  | reconcile stored => exact hasWithdrawal_reconcile h stored

/-- True for what a caller asks to have an endpoint withdrawn. -/
def Op.isWithdraw : Op → Bool
  | .withdraw _ _ => true
  | _ => false

theorem stays_run {ops : List Op} (h : t.Stays id) (hno : ∀ op ∈ ops, op.isWithdraw = false) :
    (t.run ops).Stays id := by
  induction ops generalizing t with
  | nil => exact h
  | cons op ops ih =>
    obtain ⟨hop, hops⟩ := List.forall_mem_cons.mp hno
    refine ih (stays_step h ?_) hops
    cases op with
    | withdraw => cases hop
    | _ => rfl

/-- An empty store has every endpoint announced that stays. -/
theorem pendingConfig_republish (h : t.Stays id) :
    (t.republish.record id).pendingConfig.isSome := by
  rw [record_republish, Record.renew, Record.pendingConfig]
  obtain ⟨c, hc⟩ := Option.isSome_iff_exists.mp h.confirmed
  have hw := (Record.hasWithdrawal_eq_false.mp h.unwithdrawn).1
  cases hp : (t.record id).pending with
  | none =>
    rw [hc]
    rfl
  | some op =>
    rw [hp] at hw
    cases op with
    | announce c' =>
      dsimp only
      rw [hp]
      rfl
    | withdraw c' => cases hw

end Table

/-- The batch that the caller of a bootstrap is given. -/
def Effect.answered? {ω : Type} : Effect ω → Option Batch
  | .reply (.operation (some (_, batch))) => some batch
  | _ => none

/-! ## What a bootstrap offers -/
namespace Registry

variable {ω : Type}

/-- The batch that a bootstrap offers announces all that waits to be announced. -/
theorem announced_offerBatch (r : Registry ω) (ht : r.table.isIdle = true) (stored : Configs)
    {id : String} (hp : ((r.table.reconcile stored).1.record id).pendingConfig.isSome) :
    ∃ n b, .reply (.operation (some (n, b))) ∈ (r.offerBatch stored).2 ∧
      id ∈ b.announced.keys := by
  obtain ⟨hub, heq⟩ := r.compare_frame stored
  have htable : (r.compare stored).1.table = (r.table.reconcile stored).1 := by rw [heq]
  have hidle := Table.isIdle_of_inFlight_eq (Table.inFlight_reconcile r.table stored) ht
  rw [offerBatch_eq]
  show ∃ n b, _ ∈ (r.compare stored).2 ++ (r.compare stored).1.offer.2 ∧ _
  unfold offer
  rw [htable]
  split
  · next t hsel =>
    -- something waits, so the batch cannot be empty
    have hnone := (Table.takeAll_none hidle (by rw [hsel])).2
    rw [Record.pendingConfig, Table.hasPending_eq_false_iff.mp hnone id] at hp
    cases hp
  · next t b hsel =>
    have hget := Table.takeAll_announced hidle (b := b) (by rw [hsel]) id
    refine ⟨_, b, List.mem_append_right _ (List.mem_append_right _ List.mem_cons_self), ?_⟩
    rw [StringMap.mem_keys_iff, hget]
    exact hp

/-- An attempt to send withdraws nothing that nobody asked to have withdrawn. -/
theorem isWithdraw_sendDeeds (r : Registry ω) : ∀ op ∈ r.sendDeeds, op.isWithdraw = false := by
  intro op hop
  unfold sendDeeds at hop
  split at hop
  · cases hop
  · simp only [List.mem_cons, List.not_mem_nil, or_false] at hop
    rcases hop with rfl | rfl <;> rfl

/-- Nor does any command but a request for it. -/
theorem isWithdraw_deeds (r : Registry ω) {c : Command}
    (hc : ∀ id registration, c ≠ .withdraw id registration) :
    ∀ op ∈ r.deeds c, op.isWithdraw = false := by
  have hsome : ∀ (p : Prop) [Decidable p] (ops : List Table.Op),
      (∀ op ∈ ops, op.isWithdraw = false) →
        ∀ op ∈ (if p then ops else []), op.isWithdraw = false := by
    intro p _ ops hops op hop
    split at hop
    · exact hops op hop
    · cases hop
  cases c with
  | announce id registration config =>
    exact List.forall_mem_cons.mpr ⟨rfl, hsome _ _ r.isWithdraw_sendDeeds⟩
  | withdraw id registration => exact absurd rfl (hc id registration)
  | connection state =>
    cases state with
    | connected => exact isWithdraw_sendDeeds _
    | disconnected => simp [deeds]
  | bootstrap => simp [deeds, Table.Op.isWithdraw]
  | completed => simp [deeds]
  | failed n status => exact hsome _ _ (by simp [Table.Op.isWithdraw])
  | ended n => exact hsome _ _ (isWithdraw_sendDeeds _)
  | clearStore => simp [deeds]
  | snapshot => simp [deeds]

end Registry

/-! ## Runs -/
namespace Worker

variable {ω : Type} {w : Worker ω} {id : String}

/-- True for a request to withdraw the endpoint that is accepted. -/
def withdraws (w : Worker ω) (id : String) : Input ω → Bool
  | .command (.withdraw j registration) =>
    Table.Op.withdraws w.registry.table id (.withdraw j registration)
  | _ => false

/-- True for a reply with which the store has stored announcements. -/
def stores (w : Worker ω) : Input ω → Bool
  | .reply =>
    match w.asked with
    | some (.storeAll configs) => !configs.isEmpty && !w.shelf.failing.contains .storing
    | _ => false
  | _ => false

theorem isWithdraw_deeds {i : Input ω}
    (hi : ∀ j registration, i ≠ .command (.withdraw j registration)) :
    ∀ op ∈ w.deeds i, op.isWithdraw = false := by
  cases i with
  | command c => exact w.registry.isWithdraw_deeds fun j r e => hi j r (by rw [e])
  | reply =>
    unfold deeds
    dsimp only
    split
    · split
      · simp
      · exact List.forall_mem_cons.mpr ⟨rfl, Registry.isWithdraw_sendDeeds _⟩
    · split
      · simp
      · simp [Table.Op.isWithdraw]
    · simp
  | _ => simp [deeds]

section Runs
variable [DecidableEq ω]

/-- An endpoint stays until it is withdrawn at somebody's request. -/
theorem stays_input (h : Inv w) {i : Input ω} (hi : w.allows i = true)
    (hs : w.registry.table.Stays id) (hno : w.withdraws id i = false) :
    (w.step i).registry.table.Stays id := by
  rw [step, become_registry, (performs_step h hi).table]
  by_cases hwithdraw : ∃ j registration, i = .command (.withdraw j registration)
  · obtain ⟨j, registration, rfl⟩ := hwithdraw
    show ((w.registry.table.step (.withdraw j registration)).run _).Stays id
    refine Table.stays_run (Table.stays_step hs hno) ?_
    split
    · exact w.registry.isWithdraw_sendDeeds
    · simp
  · exact Table.stays_run hs (isWithdraw_deeds fun j r e => hwithdraw ⟨j, r, e⟩)

/-- An empty store stays empty until announcements are stored. -/
theorem isEmpty_step (he : w.shelf.configs.isEmpty = true) {i : Input ω}
    (hno : w.stores i = false) : (w.step i).shelf.configs.isEmpty = true := by
  rw [step, become_shelf]
  unfold serve
  split
  · split
    · next call hc =>
      unfold Simulation.Shelf.serve
      split
      · exact he
      · next hworks =>
        cases call with
        | storeAll configs =>
          have hnothing : configs.isEmpty = true := by
            have hstoring : w.shelf.failing.contains .storing = false := Bool.eq_false_iff.mpr hworks
            simpa only [stores, hc, hstoring, Bool.not_false, Bool.and_true,
              Bool.not_eq_false'] using hno
          refine StringMap.isEmpty_iff.mpr fun id => ?_
          show StringMap.get? (configs.entries.foldl _ w.shelf.configs) id = none
          rw [StringMap.get?_foldl_insert, StringMap.isEmpty_iff.mp hnothing id,
            StringMap.isEmpty_iff.mp he id]
          rfl
        | eraseAll ids =>
          refine StringMap.isEmpty_iff.mpr fun id => ?_
          show StringMap.get? (ids.foldl _ w.shelf.configs) id = none
          rw [StringMap.get?_foldl_erase, StringMap.isEmpty_iff.mp he id, ite_self]
        | loadAll => exact he
        | clear => rfl
    · exact he
  · exact he
  · exact he

/-- True when the store is about to reply that it is emptied. -/
def clears (w : Worker ω) : Bool :=
  w.registry.waiting = some .clearing && !w.shelf.failing.contains .clearing

/-- True when the store is about to reply with all that it has, for a bootstrap. -/
def loads (w : Worker ω) : Bool :=
  w.registry.waiting = some .loading && !w.shelf.failing.contains .loading

/-- Emptying the store empties it and leaves the table as it is. -/
theorem reply_of_clears (h : Inv w) (hc : w.clears = true) :
    (w.step .reply).shelf.configs.isEmpty = true ∧
      (w.step .reply).registry.table = w.registry.table := by
  simp only [clears, Bool.and_eq_true, decide_eq_true_eq, Bool.not_eq_true'] at hc
  have hasked : w.asked = some .clear := by
    have hat := h.atWork
    rwa [hc.1] at hat
  have hserve : w.shelf.serve .clear = (.done, { w.shelf with configs := .empty }) := by
    unfold Simulation.Shelf.serve
    rw [if_neg (by rw [Simulation.StoreOp.ofCall, hc.2]; exact Bool.false_ne_true)]
  constructor
  · rw [step, become_shelf, serve, hasked]
    dsimp only
    rw [hserve]
    rfl
  · rw [step, become_registry, outcome, hasked]
    simp only [hserve, Registry.resume, hc.1]
    rfl

/-- The reply to a bootstrap goes on with what is stored. -/
theorem outcome_of_loads (h : Inv w) (hl : w.loads = true) :
    w.registry.table.isIdle = true ∧
      w.outcome .reply = { w.registry with waiting := none }.offerBatch w.shelf.configs := by
  simp only [loads, Bool.and_eq_true, decide_eq_true_eq, Bool.not_eq_true'] at hl
  have hat := h.atWork
  rw [hl.1] at hat
  obtain ⟨-, hidle, hasked⟩ := hat
  have hserve : w.shelf.serve .loadAll = (.loaded w.shelf.configs, w.shelf) := by
    unfold Simulation.Shelf.serve
    rw [if_neg (by rw [Simulation.StoreOp.ofCall, hl.2]; exact Bool.false_ne_true)]
  refine ⟨hidle, ?_⟩
  rw [outcome, hasked]
  simp only [hserve, Registry.resume, hl.1]

/-- A bootstrap that finds the store empty announces every endpoint that stays. -/
theorem announced_of_isEmpty (h : Inv w) (hl : w.loads = true)
    (he : w.shelf.configs.isEmpty = true) (hs : w.registry.table.Stays id) :
    ∃ n b, .reply (.operation (some (n, b))) ∈ (w.outcome .reply).2 ∧ id ∈ b.announced.keys := by
  obtain ⟨hidle, hout⟩ := outcome_of_loads h hl
  rw [hout]
  refine Registry.announced_offerBatch { w.registry with waiting := none } hidle _ ?_
  show ((w.registry.table.reconcile w.shelf.configs).1.record id).pendingConfig.isSome
  rw [Table.reconcile, if_pos he]
  exact Table.pendingConfig_republish hs

/-- After the store was emptied: it is still empty, and the endpoint stays. -/
structure Emptied (w : Worker ω) (id : String) : Prop where
  inv : Inv w
  empty : w.shelf.configs.isEmpty = true
  stays : w.registry.table.Stays id

theorem emptied_reply (h : Inv w) (hr : w.allows .reply = true) (hc : w.clears = true)
    (hs : w.registry.table.Stays id) : (w.step .reply).Emptied id := by
  obtain ⟨hempty, htable⟩ := reply_of_clears h hc
  exact ⟨inv_step h hr, hempty, htable ▸ hs⟩

/-- Only withdrawals and stored announcements change that. -/
theorem emptied_step (h : w.Emptied id) {i : Input ω} (hi : w.allows i = true)
    (hno : (!w.withdraws id i && !w.stores i) = true) : (w.step i).Emptied id := by
  simp only [Bool.and_eq_true, Bool.not_eq_true'] at hno
  exact ⟨inv_step h.inv hi, isEmpty_step h.empty hno.2, stays_input h.inv hi h.stays hno.1⟩

/-- **Emptying the store has the next bootstrap announce everything.** The store
is emptied after `before`, and a bootstrap has its reply after `mid`. If no
announcements were stored meanwhile, the batch that it answers announces every
endpoint that was confirmed when the store was emptied, unless its withdrawal
was accepted before or meanwhile. -/
theorem republished_run (awaitAck : Bool) (shelf : Simulation.Shelf)
    (before mid : List (Input ω)) (id : String)
    (h : (start awaitAck shelf).possible (before ++ .reply :: mid ++ [.reply]) = true)
    (hclears : ((start awaitAck shelf).run before).clears = true)
    (hstays : ((start awaitAck shelf).run before).registry.table.Stays id)
    (hmid : ((start awaitAck shelf).run (before ++ [.reply])).always
      (fun w i => !w.withdraws id i && !w.stores i) mid = true)
    (hloads : ((start awaitAck shelf).run (before ++ .reply :: mid)).loads = true) :
    ∃ n b, .reply (.operation (some (n, b))) ∈
        (((start awaitAck shelf).run (before ++ .reply :: mid)).outcome .reply).2 ∧
      id ∈ b.announced.keys := by
  rw [possible_append, Bool.and_eq_true, possible_append, Bool.and_eq_true, possible,
    Bool.and_eq_true] at h
  obtain ⟨⟨hbefore, hreply, hpossible⟩, -⟩ := h
  have hinv := inv_run awaitAck shelf before hbefore
  rw [run_append] at hmid hloads ⊢
  have hfirst := emptied_reply hinv hreply hclears hstays
  have hlast := run_always (P := fun v => v.Emptied id)
    (fun _ _ hv hi hp => emptied_step hv hi hp) hfirst hpossible hmid
  exact announced_of_isEmpty hlast.inv hloads hlast.empty hlast.stays

/-! ## What is not announced -/

/-- True for an accepted request about the endpoint, and for what hands a batch
to a sender that carries it. -/
def concerns (w : Worker ω) (id : String) (i : Input ω) : Bool :=
  let asked := match i with
    | .command (.announce j registration config) =>
      j = id && (w.registry.table.announce j registration config).isOk
    | .command (.withdraw j registration) =>
      j = id && (w.registry.table.withdraw j registration).isOk
    | _ => false
  asked || (w.outcome i).2.any fun e =>
    e.batch?.any fun b => b.announced.contains id || b.withdrawn.contains id

/-- The endpoint was confirmed when the store was emptied and still is, nothing was
accepted or sent for it since, and the bootstrap does not announce it. -/
structure Overlooked (w : Worker ω) (before mid : List (Input ω)) (id : String) : Prop where
  possible : w.possible (before ++ .reply :: mid ++ [.reply]) = true
  clears : (w.run before).clears = true
  confirmed : ((w.run before).registry.table.record id).confirmed.isSome
  alone : (w.run (before ++ [.reply])).always (fun w i => !w.concerns id i) mid = true
  loads : (w.run (before ++ .reply :: mid)).loads = true
  still : ((w.run (before ++ .reply :: mid)).registry.table.record id).confirmed.isSome
  overlooked : ∀ e ∈ ((w.run (before ++ .reply :: mid)).outcome .reply).2,
    ∀ b ∈ e.answered?, id ∉ b.announced.keys

end Runs

/-- An endpoint is announced, accepted and stored. -/
def firstStored : List (Input String) :=
  [.command (.connection .connected), .command (.announce "a" none ⟨"1"⟩),
    .command (.completed 1 (.ofList [("a", ⟨"1"⟩)]) .empty), .reply, .reply]

/-- The connection is lost and the store is to be emptied. -/
def emptiedOffline : List (Input String) :=
  firstStored ++ [.command (.connection .disconnected), .command .clearStore]

/-- One bootstrap cannot load, another endpoint is asked for, and the next bootstrap can. -/
def secondAttempt : List (Input String) :=
  [.fail .loading true, .command .bootstrap, .reply, .fail .loading false,
    .command (.announce "b" none ⟨"2"⟩), .command .bootstrap]

theorem republished_secondAttempt :
    (start true ⟨true, .empty, [], []⟩).possible
      (emptiedOffline ++ .reply :: secondAttempt ++ [.reply]) = true ∧
    ∃ n b, .reply (.operation (some (n, b))) ∈
        (((start true ⟨true, .empty, [], []⟩).run
          (emptiedOffline ++ .reply :: secondAttempt)).outcome .reply).2 ∧
      "a" ∈ b.announced.keys := by
  have hpossible : (start true ⟨true, .empty, [], []⟩).possible
      (emptiedOffline ++ .reply :: secondAttempt ++ [.reply]) = true := by decide +kernel
  exact ⟨hpossible, republished_run true ⟨true, .empty, [], []⟩ emptiedOffline secondAttempt "a"
    hpossible (by decide +kernel) (by decide +kernel) (by decide +kernel) (by decide +kernel)⟩

/-- The endpoint is asked to go before the store is emptied. -/
def withdrawnOffline : List (Input String) :=
  firstStored ++ [.command (.connection .disconnected), .command (.withdraw "a" none),
    .command .clearStore]

/-- The store is emptied while there is a connection. -/
def emptiedOnline : List (Input String) := firstStored ++ [.command .clearStore]

/-- Another endpoint is announced, accepted and stored before the bootstrap. -/
def overtaken : List (Input String) :=
  [.command (.announce "b" none ⟨"2"⟩), .command (.completed 2 (.ofList [("b", ⟨"2"⟩)]) .empty),
    .reply, .reply, .command .bootstrap]

/-- An endpoint whose withdrawal waits is confirmed and not announced again; nor is an
endpoint when another one was stored before the bootstrap. -/
theorem overlooked_afterClear :
    Overlooked (start true ⟨true, .empty, [], []⟩) withdrawnOffline [.command .bootstrap] "a" ∧
      Overlooked (start true ⟨true, .empty, [], []⟩) emptiedOnline overtaken "a" := by
  constructor
  · constructor <;> decide +kernel
  · constructor <;> decide +kernel

end Worker

end Announcer
