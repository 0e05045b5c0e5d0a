import Announcer.Proofs.Table.Batches
import Announcer.Proofs.Worker
/-!
# What the worker keeps

The registry applies an outcome to whatever is on its way in the table, not to
the batch that the outcome names. `Inv` is what makes this right: while a batch
is outstanding, what is on its way is that batch. The store's replies come later than the
outcome they belong to, so the invariant also says what each of the waits is
about; `replies` reads off it all that a reply can come to.

Results: `inv_step` and `inv_run`.
-/
namespace Announcer.Worker

variable {ω : Type}

/-- The batch `a` is on its way, and it is outstanding unless the worker is
coming to its end. -/
structure Holds (w : Worker ω) (a : Active) : Prop where
  issued : (a.number, a.batch) ∈ w.issued
  inFlight : w.registry.table.inFlight = a.batch
  active : w.registry.active = some a ∨
    (w.registry.active = none ∧ w.registry.shuttingDown = true)

/-- What the store is at work on, by what the registry waits for. -/
def AtWork (w : Worker ω) : Option StoreWait → Prop
  | none => w.asked = none
  | some (.storing n withdrawn) => ∃ b, w.Holds ⟨n, b⟩ ∧ withdrawn = b.withdrawn.keys ∧
      w.asked = some (.storeAll b.announced)
  | some (.erasing n) => ∃ b, w.Holds ⟨n, b⟩ ∧ w.asked = some (.eraseAll b.withdrawn.keys)
  | some .loading => w.registry.active = none ∧ w.registry.table.isIdle = true ∧
      w.asked = some .loadAll
  | some .clearing => w.asked = some .clear

/-- What holds of a worker between two inputs. -/
structure Inv (w : Worker ω) : Prop where
  inFlight : ∀ a, w.registry.active = some a → w.registry.table.inFlight = a.batch
  active : ∀ a, w.registry.active = some a → (a.number, a.batch) ∈ w.issued
  live : w.live = (w.registry.active.map Active.number).toList
  bound : ∀ e ∈ w.issued, e.1 ≤ w.registry.issued
  distinct : (w.issued.map Prod.fst).Nodup
  nonempty : ∀ e ∈ w.issued, e.2.isEmpty = false
  atWork : w.AtWork w.registry.waiting

/-- All that a reply of the store can come to: what is stored afterwards, and what the
registry makes of the reply. -/
inductive Replies (w : Worker ω) : Simulation.Shelf → Registry.Outcome ω → Prop where
  | stored {n b} (holds : w.Holds ⟨n, b⟩) (asked : w.asked = some (.storeAll b.announced))
      (waiting : w.registry.waiting = some (.storing n b.withdrawn.keys))
      (works : ¬ w.shelf.failing.contains .storing = true) :
      Replies w
        { w.shelf with configs :=
          b.announced.entries.foldl (fun m e => m.insert e.1 e.2) w.shelf.configs }
        ({ w.registry with waiting := none }.ask (.eraseAll b.withdrawn.keys) (.erasing n))
  | erased {n b} (holds : w.Holds ⟨n, b⟩) (asked : w.asked = some (.eraseAll b.withdrawn.keys))
      (waiting : w.registry.waiting = some (.erasing n))
      (works : ¬ w.shelf.failing.contains .erasing = true) :
      Replies w
        { w.shelf with configs := b.withdrawn.keys.foldl (fun m id => m.erase id) w.shelf.configs }
        ({ w.registry with waiting := none }.confirm n)
  /-- The outstanding batch cannot be stored, or not erased. -/
  | unstored {n b} (holds : w.Holds ⟨n, b⟩)
      (fails : w.registry.waiting = some (.storing n b.withdrawn.keys) ∧
          w.shelf.failing.contains .storing = true ∨
        w.registry.waiting = some (.erasing n) ∧ w.shelf.failing.contains .erasing = true) :
      Replies w w.shelf
        ({ w.registry with waiting := none }.publish .fatalError .unknown [] [])
  | loaded (asked : w.asked = some .loadAll) (waiting : w.registry.waiting = some .loading)
      (free : w.registry.active = none) (idle : w.registry.table.isIdle = true)
      (works : ¬ w.shelf.failing.contains .loading = true) :
      Replies w w.shelf ({ w.registry with waiting := none }.offerBatch w.shelf.configs)
  | unread (waiting : w.registry.waiting = some .loading)
      (fails : w.shelf.failing.contains .loading = true) :
      Replies w w.shelf ({ w.registry with waiting := none }.answer (.operation none))
  | cleared (waiting : w.registry.waiting = some .clearing)
      (works : ¬ w.shelf.failing.contains .clearing = true) :
      Replies w { w.shelf with configs := .empty }
        ({ w.registry with waiting := none }.answer (.cleared true))
  | uncleared (waiting : w.registry.waiting = some .clearing)
      (fails : w.shelf.failing.contains .clearing = true) :
      Replies w w.shelf ({ w.registry with waiting := none }.answer (.cleared false))

theorem inv_start (awaitAck : Bool) (shelf : Simulation.Shelf) :
    Inv (.start awaitAck shelf : Worker ω) where
  inFlight := by intro a h; cases h
  active := by intro a h; cases h
  live := rfl
  bound := by intro e h; cases h
  distinct := List.nodup_nil
  nonempty := by intro e h; cases h
  atWork := rfl

namespace Inv

variable {w : Worker ω}

/-- A number is given to one batch only. -/
theorem issued_unique (h : Inv w) {n : Nat} {b b' : Batch} (hb : (n, b) ∈ w.issued)
    (hb' : (n, b') ∈ w.issued) : b = b' := by
  have hd := h.distinct
  generalize w.issued = l at hd hb hb'
  induction l with
  | nil => cases hb
  | cons e l ih =>
    simp only [List.map_cons, List.nodup_cons] at hd
    have hout : ∀ c, (n, c) ∈ l → e.1 ≠ n := by
      intro c hc hn
      exact hd.1 (hn ▸ List.mem_map_of_mem hc)
    rcases List.mem_cons.mp hb with rfl | hin
    · rcases List.mem_cons.mp hb' with he | hin'
      · exact (congrArg Prod.snd he).symm
      · exact absurd rfl (hout b' hin')
    · rcases List.mem_cons.mp hb' with rfl | hin'
      · exact absurd rfl (hout b hin)
      · exact ih hd.2 hin hin'

/-- The outstanding batch is on its way. -/
theorem holds (h : Inv w) {a : Active} (ha : w.registry.active = some a) : w.Holds a :=
  ⟨h.active a ha, h.inFlight a ha, .inl ha⟩

/-- While the store is not asked, the registry waits for nothing. -/
theorem waiting_eq_none (h : Inv w) (hw : w.asked = none) : w.registry.waiting = none := by
  have := h.atWork
  cases e : w.registry.waiting with
  | none => rfl
  | some wait =>
    rw [e] at this
    cases wait with
    | storing n ids => obtain ⟨b, -, -, hb⟩ := this; rw [hw] at hb; cases hb
    | erasing n => obtain ⟨b, -, hb⟩ := this; rw [hw] at hb; cases hb
    | loading => have hb := this.2.2; rw [hw] at hb; cases hb
    | clearing => rw [AtWork, hw] at this; cases this

/-- What the registry waits for is what the store was asked. -/
theorem replies (h : Inv w) {call : StoreCall} (hc : w.asked = some call) :
    w.Replies (w.shelf.serve call).2 (w.registry.resume (w.shelf.serve call).1) := by
  have hat := h.atWork
  unfold Simulation.Shelf.serve Registry.resume
  cases e : w.registry.waiting with
  | none =>
    rw [e, AtWork, hc] at hat
    cases hat
  | some wait =>
    rw [e] at hat
    cases wait with
    | storing n ids =>
      obtain ⟨b, hb, rfl, hasked⟩ := hat
      cases hc.symm.trans hasked
      split
      · next hfail => exact .unstored hb (.inl ⟨e, hfail⟩)
      · next hok => exact .stored hb hasked e hok
    | erasing n =>
      obtain ⟨b, hb, hasked⟩ := hat
      cases hc.symm.trans hasked
      split
      · next hfail => exact .unstored hb (.inr ⟨e, hfail⟩)
      · next hok => exact .erased hb hasked e hok
    | loading =>
      obtain ⟨hactive, hidle, hasked⟩ := hat
      cases hc.symm.trans hasked
      split
      · next hfail => exact .unread e hfail
      · next hok => exact .loaded hasked e hactive hidle hok
    | clearing =>
      cases hc.symm.trans hat
      split
      · next hfail => exact .uncleared e hfail
      · next hok => exact .cleared e hok

/-- Changes that the invariant does not look at. -/
theorem frame (h : Inv w) {r : Registry ω} (shelf : Simulation.Shelf)
    (ht : r.table.inFlight = w.registry.table.inFlight)
    (ha : r.active = w.registry.active) (hi : r.issued = w.registry.issued)
    (hw : r.waiting = w.registry.waiting)
    (hs : w.registry.shuttingDown = true → r.shuttingDown = true) :
    Inv { w with registry := r, shelf } := by
  have hold : ∀ a, w.Holds a → Holds { w with registry := r, shelf } a := by
    intro a ⟨h1, h2, h3⟩
    exact ⟨h1, ht.trans h2, by rw [ha]; exact h3.imp_right fun h => ⟨h.1, hs h.2⟩⟩
  refine ⟨?_, ?_, ?_, ?_, h.distinct, h.nonempty, ?_⟩
  · intro a hr
    exact ht.trans (h.inFlight a (ha ▸ hr))
  · intro a hr
    exact h.active a (ha ▸ hr)
  · rw [ha]
    exact h.live
  · rw [hi]
    exact h.bound
  · have hat := h.atWork
    show AtWork _ r.waiting
    rw [hw]
    cases e : w.registry.waiting with
    | none => rw [e] at hat; exact hat
    | some wait =>
      rw [e] at hat
      cases wait with
      | storing n ids => obtain ⟨b, hb, hrest⟩ := hat; exact ⟨b, hold _ hb, hrest⟩
      | erasing n => obtain ⟨b, hb, hrest⟩ := hat; exact ⟨b, hold _ hb, hrest⟩
      | loading =>
        exact ⟨ha.trans hat.1, Table.isIdle_of_inFlight_eq ht hat.2.1, hat.2.2⟩
      | clearing => exact hat

/-! ## Pieces of a command -/

/-- Nothing is known of the table while no batch is outstanding. -/
theorem setTable (h : Inv w) (ha : w.registry.active = none) (hw : w.registry.waiting = none)
    (t : Table) : Inv { w with registry := { w.registry with table := t } } := by
  refine ⟨?_, h.active, h.live, h.bound, h.distinct, h.nonempty, ?_⟩
  · intro a hr
    rw [ha] at hr
    cases hr
  · have hat := h.atWork
    show AtWork _ w.registry.waiting
    rw [hw] at hat ⊢
    exact hat

/-- A wait ends. -/
theorem rest (h : Inv w) :
    Inv { w with registry := { w.registry with waiting := none }, asked := none } :=
  ⟨h.inFlight, h.active, h.live, h.bound, h.distinct, h.nonempty, rfl⟩

/-- A wait begins. -/
theorem ask (h : Inv w) {call : StoreCall} {wait : StoreWait}
    (hat : AtWork { w with
      registry := { w.registry with waiting := some wait }, asked := some call } (some wait)) :
    Inv (w.become (w.registry.ask call wait)) :=
  ⟨h.inFlight, h.active, h.live, h.bound, h.distinct, h.nonempty, hat⟩

theorem detach (h : Inv w) (hw : w.registry.waiting = none ∨ w.registry.shuttingDown = true) :
    Inv (w.become w.registry.detach) := by
  rw [become_detach]
  refine ⟨?_, ?_, ?_, h.bound, h.distinct, h.nonempty, ?_⟩
  · intro a hr; cases hr
  · intro a hr; cases hr
  · rw [h.live]
    cases w.registry.active <;> simp
  · have hat := h.atWork
    show AtWork _ w.registry.waiting
    rcases hw with hw | hs
    · rw [hw] at hat ⊢
      exact hat
    · have hold : ∀ (v : Worker ω) (a : Active), v.registry.active = none →
          v.registry.shuttingDown = true → v.issued = w.issued →
          v.registry.table = w.registry.table → w.Holds a → v.Holds a := by
        intro v a ha hs hi ht ⟨h1, h2, _⟩
        exact ⟨hi ▸ h1, ht ▸ h2, .inr ⟨ha, hs⟩⟩
      cases e : w.registry.waiting with
      | none => rw [e] at hat; exact hat
      | some wait =>
        rw [e] at hat
        cases wait with
        | storing n ids =>
          obtain ⟨b, hb, hrest⟩ := hat
          exact ⟨b, hold _ _ rfl hs rfl rfl hb, hrest⟩
        | erasing n =>
          obtain ⟨b, hb, hrest⟩ := hat
          exact ⟨b, hold _ _ rfl hs rfl rfl hb, hrest⟩
        | loading => exact ⟨rfl, hat.2⟩
        | clearing => exact hat

theorem release_of_isActive {r : Registry ω} {n : Nat} (h : r.isActive n = true) :
    r.release n = r.detach := if_pos h

theorem release (h : Inv w) (hw : w.registry.waiting = none) (n : Nat) :
    Inv (w.become (w.registry.release n)) := by
  unfold Registry.release
  split
  · exact h.detach (.inl hw)
  · exact h

theorem publish (h : Inv w) (state : SyncState) (cause : SyncCause)
    (announced withdrawn : List String) :
    Inv (w.become (w.registry.publish state cause announced withdrawn)) := by
  rw [become_publish]
  exact h.frame w.shelf rfl rfl rfl rfl id

/-- A batch becomes outstanding with the next number. -/
theorem activate (h : Inv w) (ha : w.registry.active = none) (hw : w.registry.waiting = none)
    {b : Batch} (ht : w.registry.table.inFlight = b) (hb : b.isEmpty = false)
    (effect : Nat → Effect ω)
    (he : ∀ (v : Worker ω) n, v.carry (effect n) =
      { v with issued := (n, b) :: v.issued, live := n :: v.live }) :
    Inv (w.become (w.registry.activate b effect)) := by
  have hbecome : w.become (w.registry.activate b effect) = { w with
      registry := { w.registry with
        issued := w.registry.issued + 1, active := some ⟨w.registry.issued + 1, b⟩ }
      issued := (w.registry.issued + 1, b) :: w.issued
      live := (w.registry.issued + 1) :: w.live } := he _ _
  rw [hbecome]
  refine ⟨?_, ?_, ?_, ?_, ?_, ?_, ?_⟩
  · rintro a ⟨⟩
    exact ht
  · rintro a ⟨⟩
    exact List.mem_cons_self
  · rw [h.live, ha]
    rfl
  · intro e hmem
    rcases List.mem_cons.mp hmem with rfl | hmem
    · exact Nat.le_refl _
    · exact Nat.le_succ_of_le (h.bound e hmem)
  · refine List.nodup_cons.mpr ⟨fun hmem => ?_, h.distinct⟩
    obtain ⟨e, he, hn⟩ := List.mem_map.mp hmem
    have := h.bound e he
    simp only at hn
    omega
  · intro e hmem
    rcases List.mem_cons.mp hmem with rfl | hmem
    · exact hb
    · exact h.nonempty e hmem
  · have hat := h.atWork
    show AtWork _ w.registry.waiting
    rw [hw] at hat ⊢
    exact hat

theorem dispatch (h : Inv w) (hw : w.registry.waiting = none) :
    Inv (w.become w.registry.dispatch) := by
  unfold Registry.dispatch
  split
  · exact h
  · next hfree =>
    have ha : w.registry.active = none := by simp_all
    have hidle := w.registry.table.isIdle_reclaim
    split
    · next t hsel =>
      exact h.setTable ha hw t
    · next t b hsel =>
      have hb := Table.inFlight_selectBatch (b := b) hidle (by rw [hsel])
      rw [hsel] at hb
      exact (h.setTable ha hw t).activate ha hw hb.1 hb.2
        (.dispatch · b w.registry.awaitAck) fun _ _ => rfl

/-! ## Commands and replies -/

/-- A command that only changes the table, and then sends what it can. -/
theorem setTable_dispatch (h : Inv w) (hw : w.registry.waiting = none) {t : Table}
    (ht : t.inFlight = w.registry.table.inFlight) :
    Inv (w.become (Registry.andThen ({ w.registry with table := t }.answer .accepted)
      Registry.dispatch)) := by
  rw [become_andThen, become_answer]
  exact (h.frame w.shelf (r := { w.registry with table := t }) ht rfl rfl rfl id).dispatch hw

theorem handle (h : Inv w) (hw : w.asked = none) {c : Command} (hc : w.vouchesFor c = true) :
    Inv (w.become (w.registry.handle c)) := by
  have hwait := h.waiting_eq_none hw
  have hhandles := w.registry.handles c
  generalize w.registry.handle c = o at hhandles ⊢
  cases hhandles with
  | announces he => exact h.setTable_dispatch hwait (Table.inFlight_announce he)
  | withdraws he => exact h.setTable_dispatch hwait (Table.inFlight_withdraw he)
  | refusesAnnounce => exact h
  | refusesWithdraw => exact h
  | connects =>
    exact (h.frame w.shelf (r := { w.registry with connection := .connected })
      rfl rfl rfl rfl id).dispatch hwait
  | disconnects =>
    exact (h.frame w.shelf (r := { w.registry with connection := .disconnected })
      rfl rfl rfl rfl id).detach (.inl hwait)
  | bootstraps =>
    rw [become_andThen]
    have hd := h.detach (.inl hwait)
    generalize hv : w.become w.registry.detach = v at hd
    have ha : v.registry.active = none := by rw [← hv, become_detach]
    have hvwait : v.registry.waiting = none := by rw [← hv, become_detach]; exact hwait
    exact (hd.setTable ha hvwait v.registry.table.reclaim.1).ask
      ⟨ha, Table.isIdle_reclaim _, rfl⟩
  | @stores n announced withdrawn hact =>
    obtain ⟨a, ha, hn⟩ := (Option.any_eq_true ..).mp hact
    obtain rfl : a.number = n := by simpa using hn
    -- the message names the batch that the number was given to
    have hnamed : (a.number, (⟨announced, withdrawn⟩ : Batch)) ∈ w.issued := by
      simpa [vouchesFor] using hc
    have hbatch := h.issued_unique hnamed (h.active a ha)
    exact h.ask ⟨⟨announced, withdrawn⟩, ⟨hnamed, hbatch ▸ h.inFlight a ha,
      .inl (by rw [hbatch]; exact ha)⟩, rfl, rfl⟩
  | drops hact =>
    rw [become_andThen,
      release_of_isActive (r := { w.registry with table := w.registry.table.abandon.1 }) hact]
    -- the batch is given up and its operations are forgotten with it
    have hd := (h.detach (.inl hwait)).setTable (by rw [become_detach])
      (by rw [become_detach]; exact hwait) w.registry.table.abandon.1
    have hdropped : Inv (w.become
        (Registry.detach { w.registry with table := w.registry.table.abandon.1 })) := by
      rw [become_detach] at hd ⊢
      exact hd
    exact hdropped.publish _ _ _ _
  | awaits => exact h.publish _ _ _ _
  | @goesOn n =>
    rw [become_andThen]
    have hvwait : (w.become (w.registry.release n)).registry.waiting = none := by
      rw [become_registry]
      unfold Registry.release
      split <;> exact hwait
    exact (h.release hwait n).dispatch hvwait
  | @rests n => exact h.release hwait n
  | ignores => exact h
  | clears => exact h.ask rfl
  | looks => exact h

/-- The batch that the store has taken is applied. -/
theorem confirm (h : Inv w) (hw : w.registry.waiting = none) (n : Nat)
    (ha : ∀ a, w.registry.active = some a → a.number = n) :
    Inv (w.become (w.registry.confirm n)) := by
  unfold Registry.confirm
  dsimp only
  rw [become_andThen]
  generalize ht : w.registry.table.complete.1 = t
  -- whether the batch is still outstanding or given up already, it is not afterwards
  have hr : Inv (w.become ({ w.registry with table := t }.release n)) ∧
      (w.become ({ w.registry with table := t }.release n)).registry.waiting = none := by
    cases e : w.registry.active with
    | none =>
      have hno : ({ w.registry with table := t } : Registry ω).isActive n = false := by
        simp [Registry.isActive, e]
      rw [Registry.release, hno]
      exact ⟨h.setTable e hw t, hw⟩
    | some a =>
      have hyes : ({ w.registry with table := t } : Registry ω).isActive n = true := by
        simp [Registry.isActive, e, ha a e]
      have hd := (h.detach (.inl hw)).setTable (by rw [become_detach])
        (by rw [become_detach]; exact hw) t
      rw [release_of_isActive hyes]
      rw [become_detach] at hd ⊢
      exact ⟨hd, hw⟩
  rw [become_andThen]
  exact (hr.1.publish _ _ _ _).dispatch (by rw [become_publish]; exact hr.2)

/-- All that is pending is offered. -/
theorem offer (h : Inv w) (hw : w.registry.waiting = none) (ha : w.registry.active = none)
    (ht : w.registry.table.isIdle = true) : Inv (w.become w.registry.offer) := by
  unfold Registry.offer
  split
  · next t hsel => exact h.setTable ha hw t
  · next t b hsel =>
    have hb := Table.inFlight_takeAll (b := b) ht (by rw [hsel])
    rw [hsel] at hb
    rw [become_andThen, become_answer]
    exact (h.setTable ha hw t).activate ha hw hb.1 hb.2 (.offer · b) fun _ _ => rfl

/-- What is stored is compared with an idle table, and the rest is offered. -/
theorem offerBatch (h : Inv w) (hw : w.registry.waiting = none) (ha : w.registry.active = none)
    (ht : w.registry.table.isIdle = true) (stored : Configs) :
    Inv (w.become (w.registry.offerBatch stored)) := by
  have hidle := Table.isIdle_of_inFlight_eq (Table.inFlight_reconcile w.registry.table stored) ht
  obtain ⟨hub, heq⟩ := w.registry.compare_frame stored
  have hcompare := (h.setTable ha hw (w.registry.table.reconcile stored).1).frame w.shelf
    (r := (w.registry.compare stored).1)
    (by rw [heq]) (by rw [heq]) (by rw [heq]) (by rw [heq]) (by rw [heq]; exact id)
  rw [Registry.offerBatch_eq, become_andThen, become_compare]
  exact hcompare.offer (by rw [heq]; exact hw) (by rw [heq]; exact ha) (by rw [heq]; exact hidle)

theorem resume (h : Inv w) {call : StoreCall} (hc : w.asked = some call) :
    Inv ({ w with shelf := (w.shelf.serve call).2, asked := none }.become
      (w.registry.resume (w.shelf.serve call).1)) := by
  have hreplies := h.replies hc
  generalize (w.shelf.serve call).2 = shelf, w.registry.resume (w.shelf.serve call).1 = o
    at hreplies ⊢
  have hrest : Inv { w with
      registry := { w.registry with waiting := none }, shelf, asked := none } :=
    h.rest.frame shelf rfl rfl rfl rfl id
  cases hreplies with
  | @stored n b hb => exact hrest.ask ⟨b, ⟨hb.issued, hb.inFlight, hb.active⟩, rfl⟩
  | @erased n b hb =>
    refine hrest.confirm rfl n ?_
    intro a ha
    rcases hb.active with hact | hact
    · cases ha.symm.trans hact
      rfl
    · cases ha.symm.trans hact.1
  | unstored => exact hrest.publish _ _ _ _
  | loaded _ _ hfree hidle => exact hrest.offerBatch rfl hfree hidle _
  | unread => exact hrest
  | cleared => exact hrest
  | uncleared => exact hrest

end Inv

/-! ## Steps and runs -/

section Runs
variable [DecidableEq ω] {w : Worker ω}

theorem inv_step (h : Inv w) {i : Input ω} (hi : w.allows i = true) : Inv (w.step i) := by
  cases i with
  | command c =>
    simp only [allows, Bool.and_eq_true, Option.isNone_iff_eq_none] at hi
    exact h.handle hi.1 hi.2
  | reply =>
    unfold step serve outcome
    dsimp only
    split
    · next call hc => exact h.resume hc
    · exact h
  | fail op on => exact h.frame _ rfl rfl rfl rfl id
  | observe who =>
    show Inv (w.become (_, _))
    rw [become_notify]
    exact h.frame w.shelf rfl rfl rfl rfl id
  | unobserve who => exact h.frame w.shelf rfl rfl rfl rfl id
  | shutdown =>
    show Inv (w.become w.registry.shutdown)
    unfold Registry.shutdown
    split
    · exact h
    · exact (h.frame w.shelf
        (r := { w.registry with shuttingDown := true, hub := w.registry.hub.clear })
        rfl rfl rfl rfl fun _ => rfl).detach (.inr rfl)
  | stop =>
    exact (h.frame w.shelf (r := { w.registry with shuttingDown := true })
      rfl rfl rfl rfl fun _ => rfl).detach (.inr rfl)

theorem inv_run (awaitAck : Bool) (shelf : Simulation.Shelf) (inputs : List (Input ω))
    (h : (start awaitAck shelf).possible inputs = true) :
    Inv ((start awaitAck shelf).run inputs) :=
  run_induction (P := fun _ v => Inv v) (inv_start awaitAck shelf)
    (fun _ _ _ hv hi => inv_step hv hi) inputs h

end Runs

end Announcer.Worker
