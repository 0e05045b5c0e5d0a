import Announcer.Proofs.Table.Together
import Announcer.Proofs.Worker.Invariant
/-!
# What the worker does to its table

Whatever happens to the worker, its table changes by the operations of a run
(`Table.step`), and in good order: a batch is taken, and the store is compared,
only while nothing is on its way. So what every serial run of the table keeps
holds of the table of every registry.

`deeds` lists the operations of an input. `Performs` says that an outcome comes
of doing them, and that a batch which it hands to a sender was taken by the last
of them; it is put together along `Registry.andThen` like the outcome itself.

Results: `performs_step` for one input, `table_run` for a run.
-/
namespace Announcer

/-- The batch that an effect hands to a sender. -/
def Effect.batch? {ω : Type} : Effect ω → Option Batch
  | .dispatch _ batch _ => some batch
  | .offer _ batch => some batch
  | _ => none

namespace Registry

variable {ω : Type} {r : Registry ω}

/-- What an attempt to send does to the table. -/
def sendDeeds (r : Registry ω) : List Table.Op :=
  if r.shuttingDown || r.connection ≠ .connected || r.active.isSome then []
  else [.reclaim, .select]

/-- What a command does to the table. -/
def deeds (r : Registry ω) : Command → List Table.Op
  | .announce id registration config =>
    .announce id registration config ::
      if (r.table.announce id registration config).isOk then r.sendDeeds else []
  | .withdraw id registration =>
    .withdraw id registration ::
      if (r.table.withdraw id registration).isOk then r.sendDeeds else []
  | .connection .connected => { r with connection := .connected }.sendDeeds
  | .bootstrap => [.reclaim]
  | .failed n status =>
    if r.isActive n && (failure status).1 = .fatalError then [.abandon] else []
  | .ended n =>
    if r.isActive n && r.table.hasPending then (r.release n).1.sendDeeds else []
  | _ => []

/-- What applying a batch does to the table. -/
def confirmDeeds (r : Registry ω) (n : Nat) : List Table.Op := .complete :: (r.release n).1.sendDeeds

/-! ## Outcomes -/

/-- The outcome `o` comes of doing `ops` to the table `t`, and what it hands to a
sender was taken last. -/
structure Performs (t : Table) (o : Outcome ω) (ops : List Table.Op) : Prop where
  table : o.1.table = t.run ops
  serial : t.serial ops = true
  handed : ∀ e ∈ o.2, ∀ b, e.batch? = some b →
    ∃ before op, ops = before ++ [op] ∧ op.batch? (t.run before) = some b

namespace Performs

variable {t : Table} {o : Outcome ω} {ops ops' : List Table.Op}

/-- Outcomes that hand out no batch. -/
theorem quiet (ht : o.1.table = t.run ops) (hs : t.serial ops = true)
    (hno : ∀ e ∈ o.2, e.batch? = none) : Performs t o ops where
  table := ht
  serial := hs
  handed := by
    intro e he b hb
    cases (hno e he).symm.trans hb

/-- Outcomes that leave the table as it is. -/
theorem still (ht : o.1.table = t) (hno : ∀ e ∈ o.2, e.batch? = none) : Performs t o [] :=
  .quiet ht rfl hno

theorem andThen (h : Performs t o ops) (hno : ∀ e ∈ o.2, e.batch? = none)
    {f : Registry ω → Outcome ω} (h' : Performs o.1.table (f o.1) ops') :
    Performs t (andThen o f) (ops ++ ops') where
  table := by
    rw [Table.run_append, ← h.table]
    exact h'.table
  serial := by
    rw [Table.serial_append, h.serial, ← h.table, h'.serial]
    rfl
  handed := by
    intro e he b hb
    rcases List.mem_append.mp he with he | he
    · cases (hno e he).symm.trans hb
    · obtain ⟨before, op, rfl, hop⟩ := h'.handed e he b hb
      refine ⟨ops ++ before, op, by rw [List.append_assoc], ?_⟩
      rwa [Table.run_append, ← h.table]

end Performs

/-! ## Pieces -/

theorem batch?_answer (reply : Reply) : ∀ e ∈ (r.answer reply).2, e.batch? = none := by
  intro e he
  cases List.mem_singleton.mp he
  rfl

theorem batch?_ask (call : StoreCall) (wait : StoreWait) :
    ∀ e ∈ (r.ask call wait).2, e.batch? = none := by
  intro e he
  cases List.mem_singleton.mp he
  rfl

theorem batch?_publish (state : SyncState) (cause : SyncCause) (announced withdrawn : List String) :
    ∀ e ∈ (r.publish state cause announced withdrawn).2, e.batch? = none := by
  intro e he
  obtain ⟨n, -, rfl⟩ := List.mem_map.mp he
  rfl

theorem batch?_detach : ∀ e ∈ r.detach.2, e.batch? = none := by
  intro e he
  obtain ⟨a, -, rfl⟩ := Option.map_eq_some_iff.mp (Option.mem_toList.mp he)
  rfl

theorem batch?_release (n : Nat) : ∀ e ∈ (r.release n).2, e.batch? = none := by
  unfold release
  split
  · exact batch?_detach
  · intro e he
    cases he

theorem table_release (r : Registry ω) (n : Nat) : (r.release n).1.table = r.table := by
  unfold release
  split <;> rfl

theorem performs_dispatch (r : Registry ω) : Performs r.table r.dispatch r.sendDeeds := by
  unfold dispatch sendDeeds
  split
  · exact .still rfl (by simp)
  · have hidle := r.table.isIdle_reclaim
    have hserial : r.table.serial [.reclaim, .select] = true := by
      simp only [Table.serial, Table.Op.isSerial, Bool.true_and, Bool.and_true]
      exact hidle
    split
    · next t hsel =>
      refine .quiet ?_ hserial (by simp)
      show t = r.table.reclaim.1.selectBatch.1
      rw [hsel]
    · next t b hsel =>
      refine ⟨?_, hserial, ?_⟩
      · show t = r.table.reclaim.1.selectBatch.1
        rw [hsel]
      · intro e he b' hb'
        cases List.mem_singleton.mp he
        cases hb'
        refine ⟨[.reclaim], .select, rfl, ?_⟩
        show r.table.reclaim.1.selectBatch.2 = some b
        rw [hsel]

theorem performs_offer (ht : r.table.isIdle = true) : Performs r.table r.offer [.takeAll] := by
  have hserial : r.table.serial [.takeAll] = true := by
    simpa only [Table.serial, Table.Op.isSerial, Bool.and_true] using ht
  unfold offer
  split
  · next t hsel =>
    refine .quiet ?_ hserial (batch?_answer _)
    show t = r.table.takeAll.1
    rw [hsel]
  · next t b hsel =>
    refine ⟨?_, hserial, ?_⟩
    · show t = r.table.takeAll.1
      rw [hsel]
    · intro e he b' hb'
      rcases List.mem_append.mp he with he | he
      · cases List.mem_singleton.mp he
        cases hb'
        refine ⟨[], .takeAll, rfl, ?_⟩
        show r.table.takeAll.2 = some b
        rw [hsel]
      · cases (batch?_answer _ e he).symm.trans hb'

theorem performs_offerBatch (ht : r.table.isIdle = true) (stored : Configs) :
    Performs r.table (r.offerBatch stored) [.reconcile stored, .takeAll] := by
  obtain ⟨hub, heq⟩ := r.compare_frame stored
  have hno : ∀ e ∈ (r.compare stored).2, e.batch? = none := by
    unfold compare
    dsimp only
    split
    · intro e he
      cases he
    · exact batch?_publish _ _ _ _
  have hcompare : Performs r.table (r.compare stored) [.reconcile stored] := by
    refine .quiet (by rw [heq]; rfl) ?_ hno
    simpa only [Table.serial, Table.Op.isSerial, Bool.and_true] using ht
  rw [offerBatch_eq]
  refine hcompare.andThen hno (performs_offer ?_)
  rw [heq]
  exact Table.isIdle_of_inFlight_eq (Table.inFlight_reconcile r.table stored) ht

/-- What is sent after a batch was applied does not hang on the table, nor on the store. -/
theorem confirmDeeds_frame (r : Registry ω) (t : Table) (wait : Option StoreWait) (n : Nat) :
    confirmDeeds { r with table := t, waiting := wait } n = r.confirmDeeds n := by
  unfold confirmDeeds release
  rw [show ({ r with table := t, waiting := wait } : Registry ω).isActive n = r.isActive n from rfl]
  split
  · rfl
  · rfl

theorem performs_confirm (r : Registry ω) (n : Nat) :
    Performs r.table (r.confirm n) (r.confirmDeeds n) := by
  obtain ⟨landed, announced, withdrawn, hcomplete⟩ :
      ∃ landed announced withdrawn, r.table.complete = (landed, announced, withdrawn) :=
    ⟨_, _, _, rfl⟩
  have hrelease : Performs r.table ({ r with table := landed }.release n) [.complete] := by
    refine .quiet ?_ rfl (batch?_release n)
    rw [table_release]
    exact (congrArg Prod.fst hcomplete).symm
  have hsend : ∀ v : Registry ω, Performs v.table
      (andThen (v.publish .success .success announced withdrawn) dispatch) v.sendDeeds := by
    intro v
    have htold : Performs v.table (v.publish .success .success announced withdrawn) [] :=
      .still rfl (batch?_publish _ _ _ _)
    exact htold.andThen (batch?_publish _ _ _ _) (performs_dispatch _)
  have hdeeds : confirmDeeds { r with table := landed } n = r.confirmDeeds n :=
    r.confirmDeeds_frame landed r.waiting n
  rw [← hdeeds]
  unfold confirm
  rw [hcomplete]
  exact hrelease.andThen (batch?_release n) (hsend _)

/-! ## Commands -/

theorem performs_handle (r : Registry ω) (c : Command) :
    Performs r.table (r.handle c) (r.deeds c) := by
  have hhandles := r.handles c
  generalize r.handle c = o at hhandles ⊢
  cases hhandles with
  | @announces id registration config t ids he =>
    have hanswer : Performs r.table ({ r with table := t }.answer .accepted)
        [.announce id registration config] :=
      .quiet (Table.step_announce he).symm rfl (batch?_answer _)
    have hdeeds : r.deeds (.announce id registration config) =
        [.announce id registration config] ++ r.sendDeeds := by
      simp [deeds, he, Except.isOk, Except.toBool]
    rw [hdeeds]
    exact hanswer.andThen (batch?_answer _) (performs_dispatch { r with table := t })
  | @withdraws id registration t he =>
    have hanswer : Performs r.table ({ r with table := t }.answer .accepted)
        [.withdraw id registration] :=
      .quiet (Table.step_withdraw he).symm rfl (batch?_answer _)
    have hdeeds : r.deeds (.withdraw id registration) =
        [.withdraw id registration] ++ r.sendDeeds := by
      simp [deeds, he, Except.isOk, Except.toBool]
    rw [hdeeds]
    exact hanswer.andThen (batch?_answer _) (performs_dispatch { r with table := t })
  | @refusesAnnounce id registration config reason he =>
    have hdeeds : r.deeds (.announce id registration config) =
        [.announce id registration config] := by
      simp [deeds, he, Except.isOk, Except.toBool]
    rw [hdeeds]
    exact .quiet (Table.step_announce_refused he).symm rfl (batch?_answer _)
  | @refusesWithdraw id registration reason he =>
    have hdeeds : r.deeds (.withdraw id registration) = [.withdraw id registration] := by
      simp [deeds, he, Except.isOk, Except.toBool]
    rw [hdeeds]
    exact .quiet (Table.step_withdraw_refused he).symm rfl (batch?_answer _)
  | connects => exact performs_dispatch { r with connection := .connected }
  | disconnects => exact .still rfl batch?_detach
  | bootstraps =>
    have hdetach : Performs r.table r.detach [] := .still rfl batch?_detach
    have hask : Performs r.table
        ({ r.detach.1 with table := r.table.reclaim.1 }.ask .loadAll .loading) [.reclaim] :=
      .quiet rfl rfl (batch?_ask _ _)
    exact hdetach.andThen batch?_detach hask
  | stores => exact .still rfl (batch?_ask _ _)
  | @drops n status hact hfatal =>
    have hrelease : Performs r.table ({ r with table := r.table.abandon.1 }.release n) [.abandon] :=
      .quiet (table_release _ n) rfl (batch?_release n)
    have hdeeds : r.deeds (.failed n status) = [.abandon] ++ [] := by
      simp [deeds, hact, hfatal]
    rw [hdeeds]
    exact hrelease.andThen (batch?_release n) (.still rfl (batch?_publish _ _ _ _))
  | awaits _ _ hpassing =>
    rw [show r.deeds (.failed _ _) = [] by simp [deeds, hpassing]]
    exact .still rfl (batch?_publish _ _ _ _)
  | @goesOn n hact hpending =>
    rw [table_release] at hpending
    have hrelease : Performs r.table (r.release n) [] :=
      .still (table_release r n) (batch?_release n)
    simpa [deeds, hact, hpending] using
      hrelease.andThen (batch?_release n) (performs_dispatch (r.release n).1)
  | @rests n hact hdone =>
    rw [table_release] at hdone
    rw [show r.deeds (.ended n) = [] by simp [deeds, hdone]]
    exact .still (table_release r n) (batch?_release n)
  | @ignores _ n hc hother =>
    have hnone : r.deeds c = [] := by
      rcases hother with hn | rfl
      · cases c <;> simp_all [deeds, Command.batch?]
      · simp [deeds, failure]
    rw [hnone]
    exact .still rfl (by simp)
  | clears => exact .still rfl (batch?_ask _ _)
  | looks => exact .still rfl (batch?_answer _)

end Registry

/-! ## Inputs and runs -/
namespace Worker

variable {ω : Type} {w : Worker ω}

open Registry (Performs)

/-- What an input does to the table. -/
def deeds (w : Worker ω) : Input ω → List Table.Op
  | .command c => w.registry.deeds c
  | .reply =>
    match w.registry.waiting with
    | some (.erasing n) =>
      if w.shelf.failing.contains .erasing then [] else w.registry.confirmDeeds n
    | some .loading =>
      if w.shelf.failing.contains .loading then [] else [.reconcile w.shelf.configs, .takeAll]
    | _ => []
  | _ => []

theorem performs_resume (h : Inv w) {call : StoreCall} (hc : w.asked = some call) :
    Performs w.registry.table (w.registry.resume (w.shelf.serve call).1) (w.deeds .reply) := by
  have hreplies := h.replies hc
  generalize (w.shelf.serve call).2 = shelf, w.registry.resume (w.shelf.serve call).1 = o
    at hreplies ⊢
  cases hreplies with
  | stored _ _ hwait =>
    rw [deeds, hwait]
    exact .still rfl (Registry.batch?_ask _ _)
  | @erased n b _ _ hwait hok =>
    rw [deeds, hwait]
    dsimp only
    have hdeeds : Registry.confirmDeeds { w.registry with waiting := none } n =
        w.registry.confirmDeeds n := w.registry.confirmDeeds_frame w.registry.table none n
    rw [if_neg hok, ← hdeeds]
    exact Registry.performs_confirm { w.registry with waiting := none } n
  | unstored _ hfails =>
    have hnone : w.deeds .reply = [] := by
      rcases hfails with ⟨hwait, -⟩ | ⟨hwait, hfail⟩
      · rw [deeds, hwait]
      · rw [deeds, hwait]
        exact if_pos hfail
    rw [hnone]
    exact .still rfl (Registry.batch?_publish _ _ _ _)
  | loaded _ hwait _ hidle hok =>
    rw [deeds, hwait]
    dsimp only
    rw [if_neg hok]
    exact Registry.performs_offerBatch (r := { w.registry with waiting := none }) hidle _
  | unread hwait hfail =>
    rw [deeds, hwait]
    dsimp only
    rw [if_pos hfail]
    exact .still rfl (Registry.batch?_answer _)
  | cleared hwait =>
    rw [deeds, hwait]
    exact .still rfl (Registry.batch?_answer _)
  | uncleared hwait =>
    rw [deeds, hwait]
    exact .still rfl (Registry.batch?_answer _)

section Runs
variable [DecidableEq ω]

theorem performs_step (h : Inv w) {i : Input ω} (hi : w.allows i = true) :
    Performs w.registry.table (w.outcome i) (w.deeds i) := by
  cases i with
  | command c => exact Registry.performs_handle w.registry c
  | reply =>
    obtain ⟨call, hc⟩ := Option.isSome_iff_exists.mp hi
    unfold outcome
    dsimp only
    rw [hc]
    exact performs_resume h hc
  | fail op on => exact .still rfl (by simp [outcome])
  | observe who =>
    refine .still rfl ?_
    intro e he
    obtain ⟨n, -, rfl⟩ := List.mem_map.mp he
    rfl
  | unobserve who => exact .still rfl (by simp [outcome])
  | shutdown =>
    show Performs _ w.registry.shutdown []
    unfold Registry.shutdown
    split
    · exact .still rfl (by simp)
    · exact .still rfl Registry.batch?_detach
  | stop => exact .still rfl Registry.batch?_detach

/-- What a run does to the table. -/
def ops (w : Worker ω) : List (Input ω) → List Table.Op
  | [] => []
  | i :: inputs => w.deeds i ++ ops (w.step i) inputs

theorem ops_append (w : Worker ω) (before after : List (Input ω)) :
    w.ops (before ++ after) = w.ops before ++ (w.run before).ops after := by
  induction before generalizing w with
  | nil => rfl
  | cons i before ih =>
    rw [List.cons_append, ops, ops, ih, List.append_assoc]
    rfl

/-- The table of a worker is the table after a serial run. -/
theorem table_run (h : Inv w) (inputs : List (Input ω)) (hp : w.possible inputs = true) :
    (w.run inputs).registry.table = w.registry.table.run (w.ops inputs) ∧
      w.registry.table.serial (w.ops inputs) = true := by
  induction inputs generalizing w with
  | nil => exact ⟨rfl, rfl⟩
  | cons i inputs ih =>
    simp only [possible, Bool.and_eq_true] at hp
    have hstep := performs_step h hp.1
    have htable : (w.step i).registry.table = w.registry.table.run (w.deeds i) := by
      rw [step, become_registry]
      exact hstep.table
    obtain ⟨hrun, hserial⟩ := ih (inv_step h hp.1) hp.2
    rw [htable] at hrun hserial
    rw [ops, Table.run_append, Table.serial_append, hstep.serial, hserial]
    exact ⟨hrun, rfl⟩

end Runs

end Worker

end Announcer
