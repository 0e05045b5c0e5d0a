import Announcer.Proofs.Worker.Invariant
/-!
# One outstanding batch, and its outcome

At most one batch has a sender that was not stopped. While it is outstanding it is
what is on its way, so applying what is on its way applies that batch: the table, the
store and the observers see the same ids. An outcome of any other batch does
nothing.

A completion takes three inputs, the message and two replies of the store.
Between them only what is `Alike` can happen.

Results: `exclusive_of_inv`, `completed_of_inv`, `stale_outcome`, and all of it
for every run, `outstanding_run`.
-/
namespace Announcer

/-- What an observer is told by an effect. -/
def Effect.note? {ω : Type} : Effect ω → Option (Note ω)
  | .notify n => some n
  | _ => none

/-! ## What the pieces do to what is confirmed -/
namespace Table

theorem confirmed_reclaim (t : Table) (id : String) :
    (t.reclaim.1.record id).confirmed = (t.record id).confirmed := by
  rw [record_reclaim]
  rfl

theorem confirmed_selectBatch (t : Table) (id : String) :
    (t.selectBatch.1.record id).confirmed = (t.record id).confirmed := by
  obtain ⟨select, hs⟩ := t.selectBatch_eq_take
  rw [hs]
  show ((t.take select).1.record id).confirmed = _
  rw [record_take]
  split <;> rfl

end Table

namespace Registry

variable {ω : Type} (r : Registry ω)

theorem confirmed_dispatch (id : String) :
    (r.dispatch.1.table.record id).confirmed = (r.table.record id).confirmed := by
  have hsel := r.table.reclaim.1.confirmed_selectBatch id
  rw [Table.confirmed_reclaim] at hsel
  unfold dispatch
  split
  · rfl
  · split
    · next t he => rw [he] at hsel; exact hsel
    · next t b he => rw [he] at hsel; exact hsel

theorem notes_dispatch : r.dispatch.2.filterMap Effect.note? = [] := by
  unfold dispatch
  split
  · rfl
  · split <;> rfl

theorem release_frame (n : Nat) : (r.release n).1.table = r.table ∧ (r.release n).1.hub = r.hub ∧
    (r.release n).2.filterMap Effect.note? = [] := by
  unfold release
  split
  · refine ⟨rfl, rfl, ?_⟩
    unfold detach
    cases r.active <;> rfl
  · exact ⟨rfl, rfl, rfl⟩

theorem confirmed_confirm (n : Nat) (id : String) :
    ((r.confirm n).1.table.record id).confirmed = (r.table.complete.1.record id).confirmed := by
  unfold confirm andThen publish
  dsimp only
  rw [confirmed_dispatch]
  simp only [release_frame]

/-- Landing a batch tells every observer its ids. -/
theorem notes_confirm (n : Nat) {b : Batch} (hb : r.table.inFlight = b)
    (hne : b.isEmpty = false) :
    (r.confirm n).2.filterMap Effect.note? = r.hub.observers.map fun who =>
      ⟨who, .success, .success, b.announced.keys, b.withdrawn.keys⟩ := by
  have hids := r.table.complete_ids
  rw [hb] at hids
  have hsome : (!b.announced.keys.isEmpty || !b.withdrawn.keys.isEmpty) = true := by
    simpa [Batch.isEmpty, StringMap.isEmpty, StringMap.keys, Classical.or_iff_not_imp_left]
      using hne
  unfold confirm andThen publish
  dsimp only
  simp only [List.filterMap_append, notes_dispatch, release_frame, List.filterMap_map,
    List.nil_append, List.append_nil, hids, Hub.set, Bool.or_assoc, hsome, Bool.or_true, if_true]
  show List.filterMap (some ∘ _) _ = _
  rw [List.filterMap_eq_map]

end Registry

namespace Worker

variable {ω : Type} {w u v : Worker ω}

/-! ## What is outstanding -/

/-- At most one batch has a sender that was not stopped, and it is what is on
its way. Its number names no other batch. -/
structure Exclusive (w : Worker ω) : Prop where
  live : w.live = (w.registry.active.map Active.number).toList
  inFlight : ∀ a, w.registry.active = some a → w.registry.table.inFlight = a.batch
  named : ∀ a, w.registry.active = some a → ∀ b, (a.number, b) ∈ w.issued ↔ b = a.batch

theorem exclusive_of_inv (h : Inv w) : Exclusive w where
  live := h.live
  inFlight := h.inFlight
  named := by
    intro a ha b
    constructor
    · intro hb
      exact h.issued_unique hb (h.active a ha)
    · rintro rfl
      exact h.active a ha

section Steps
variable [DecidableEq ω]

/-- The outcome of a batch that is not outstanding does nothing. -/
theorem stale_outcome {c : Command} {n : Nat} (hc : c.batch? = some n)
    (hn : w.registry.isActive n = false) :
    w.step (.command c) = w ∧ (w.outcome (.command c)).2 = [] := by
  have hnil := Registry.handle_of_batch? hc hn
  refine ⟨?_, by rw [outcome, hnil]⟩
  show w.become (w.registry.handle c) = w
  rw [hnil]
  rfl

/-! ## While the store is at work -/

/-- Nothing that matters for a completion differs. -/
structure Alike (w v : Worker ω) : Prop where
  asked : v.asked = w.asked
  waiting : v.registry.waiting = w.registry.waiting
  table : v.registry.table = w.registry.table
  configs : v.shelf.configs = w.shelf.configs
  issued : v.issued = w.issued

omit [DecidableEq ω] in
theorem alike_detach (r : Registry ω) (hw : r.waiting = w.registry.waiting)
    (ht : r.table = w.registry.table) : Alike w (w.become r.detach) := by
  rw [become_detach]
  exact ⟨rfl, hw, ht, rfl, rfl⟩

/-- What is neither a command nor a reply of the store leaves things alike. -/
theorem alike_aside {i : Input ω} (hc : ∀ c, i ≠ .command c) (hr : i ≠ .reply) :
    Alike w (w.step i) := by
  cases i with
  | command c => exact absurd rfl (hc c)
  | reply => exact absurd rfl hr
  | fail op on => exact ⟨rfl, rfl, rfl, rfl, rfl⟩
  | observe who =>
    show Alike w (w.become (_, _))
    rw [become_notify]
    exact ⟨rfl, rfl, rfl, rfl, rfl⟩
  | unobserve who => exact ⟨rfl, rfl, rfl, rfl, rfl⟩
  | shutdown =>
    show Alike w (w.become w.registry.shutdown)
    unfold Registry.shutdown
    split
    · exact ⟨rfl, rfl, rfl, rfl, rfl⟩
    · exact alike_detach _ rfl rfl
  | stop => exact alike_detach _ rfl rfl

/-- While the store is at work, all but its reply leaves things alike. -/
theorem alike_step (hw : w.asked.isSome) {i : Input ω} (hi : w.allows i = true)
    (hr : i ≠ .reply) : Alike w (w.step i) := by
  have hbusy : w.asked.isNone = false := by simpa using hw
  refine alike_aside ?_ hr
  rintro c rfl
  simp [allows, hbusy] at hi

theorem alike_run (hw : w.asked.isSome) {inputs : List (Input ω)}
    (hi : w.possible inputs = true) (hr : .reply ∉ inputs) : Alike w (w.run inputs) := by
  induction inputs generalizing w with
  | nil => exact ⟨rfl, rfl, rfl, rfl, rfl⟩
  | cons i inputs ih =>
    simp only [possible, Bool.and_eq_true] at hi
    obtain ⟨hne, hr⟩ := not_or.mp (mt List.mem_cons.mpr hr)
    have h1 := alike_step hw hi.1 (Ne.symm hne)
    have h2 := ih (by rw [h1.asked]; exact hw) hi.2 hr
    exact ⟨h2.asked.trans h1.asked, h2.waiting.trans h1.waiting, h2.table.trans h1.table,
      h2.configs.trans h1.configs, h2.issued.trans h1.issued⟩

/-! ## A completion -/

theorem step_storing (announced : Configs) (n : Nat) (ids : List String)
    (hasked : w.asked = some (.storeAll announced))
    (hwait : w.registry.waiting = some (.storing n ids))
    (hok : w.shelf.failing.contains .storing = false) :
    w.step .reply = { w with
      registry := { w.registry with waiting := some (.erasing n) }
      shelf := { w.shelf with
        configs := announced.entries.foldl (fun m e => m.insert e.1 e.2) w.shelf.configs }
      asked := some (.eraseAll ids) } := by
  have hserve : w.shelf.serve (.storeAll announced) = (.done, { w.shelf with
      configs := announced.entries.foldl (fun m e => m.insert e.1 e.2) w.shelf.configs }) := by
    unfold Simulation.Shelf.serve
    rw [if_neg (by rw [Simulation.StoreOp.ofCall, hok]; exact Bool.false_ne_true)]
  simp only [step, serve, outcome, hasked, hserve, Registry.resume, hwait, become_ask]

theorem step_erasing (n : Nat) (ids : List String)
    (hasked : w.asked = some (.eraseAll ids))
    (hwait : w.registry.waiting = some (.erasing n))
    (hok : w.shelf.failing.contains .erasing = false) :
    w.outcome .reply = { w.registry with waiting := none }.confirm n ∧
      w.step .reply = { w with
        shelf := { w.shelf with configs := ids.foldl (fun m id => m.erase id) w.shelf.configs }
        asked := none }.become ({ w.registry with waiting := none }.confirm n) := by
  have hserve : w.shelf.serve (.eraseAll ids) = (.done, { w.shelf with
      configs := ids.foldl (fun m id => m.erase id) w.shelf.configs }) := by
    unfold Simulation.Shelf.serve
    rw [if_neg (by rw [Simulation.StoreOp.ofCall, hok]; exact Bool.false_ne_true)]
  simp only [step, serve, outcome, hasked, hserve, Registry.resume, hwait, and_self]

/-- A completion: the message that names the batch, what else happens until the
store has stored, and what happens until it has erased. -/
structure Completion (ω : Type) where
  number : Nat
  batch : Batch
  first : List (Input ω)
  second : List (Input ω)

namespace Completion

/-- All up to the store's first reply. -/
def toStored (c : Completion ω) : List (Input ω) :=
  .command (.completed c.number c.batch.announced c.batch.withdrawn) :: c.first

/-- All up to the store's second reply. -/
def toErased (c : Completion ω) : List (Input ω) := c.toStored ++ .reply :: c.second

/-- The whole of it. -/
def inputs (c : Completion ω) : List (Input ω) := c.toErased ++ [.reply]

/-- The completion can happen, and both times the store does what it is asked. -/
structure Succeeds (c : Completion ω) (w : Worker ω) : Prop where
  possible : w.possible c.inputs = true
  first : .reply ∉ c.first
  second : .reply ∉ c.second
  storing : (w.run c.toStored).shelf.failing.contains .storing = false
  erasing : (w.run c.toErased).shelf.failing.contains .erasing = false

end Completion

/-- What the table has confirmed and what is stored differ by the batch: what it
announces is there, what it withdraws is gone, and the rest is as it was. -/
structure Landed (b : Batch) (w v : Worker ω) : Prop where
  confirmed : ∀ id, (v.registry.table.record id).confirmed =
    if id ∈ b.withdrawn.keys then none
    else b.announced.get? id <|> (w.registry.table.record id).confirmed
  stored : ∀ id, v.shelf.configs.get? id =
    if id ∈ b.withdrawn.keys then none else b.announced.get? id <|> w.shelf.configs.get? id

/-- The message of the outstanding batch has the store asked to store it. -/
theorem step_completed {n : Nat} (hn : w.registry.isActive n = true) (announced withdrawn : Configs) :
    w.step (.command (.completed n announced withdrawn)) = { w with
      registry := { w.registry with waiting := some (.storing n withdrawn.keys) }
      asked := some (.storeAll announced) } := by
  show w.become (w.registry.handle _) = _
  rw [Registry.handle, if_pos hn, become_ask]

/-- Before the store's last reply, it has stored the batch and is to erase, and the
table is as it was. -/
structure Erasing (c : Completion ω) (w v : Worker ω) : Prop where
  asked : v.asked = some (.eraseAll c.batch.withdrawn.keys)
  waiting : v.registry.waiting = some (.erasing c.number)
  table : v.registry.table = w.registry.table
  configs : v.shelf.configs =
    c.batch.announced.entries.foldl (fun m e => m.insert e.1 e.2) w.shelf.configs

theorem erasing_of_succeeds {c : Completion ω} (hn : w.registry.isActive c.number = true)
    (hc : c.Succeeds w) : Erasing c w (w.run c.toErased) := by
  obtain ⟨n, b, first, second⟩ := c
  obtain ⟨hp, hfirst, hsecond, hstoring, -⟩ := hc
  simp only [Completion.inputs, Completion.toErased, Completion.toStored, possible_append, possible,
    Bool.and_eq_true, and_true, List.cons_append] at hp
  obtain ⟨-, ⟨hp₁, -, hp₂⟩, -⟩ := hp
  -- the message is taken up, and the store is asked to store
  have hstep := step_completed hn b.announced b.withdrawn
  have h₁ := alike_run (by rw [hstep]; rfl) hp₁ hfirst
  simp only [Completion.toErased, Completion.toStored, run, List.foldl_append, List.foldl_cons,
    List.cons_append] at *
  generalize w.step (.command (.completed n b.announced b.withdrawn)) = w₁ at *
  generalize first.foldl step w₁ = w₂ at *
  -- it has stored, and is asked to erase
  have hstored := step_storing (w := w₂) b.announced n b.withdrawn.keys
    (by rw [h₁.asked, hstep]) (by rw [h₁.waiting, hstep]) hstoring
  have h₂ := alike_run (w := w₂.step .reply) (by rw [hstored]; rfl) hp₂ hsecond
  simp only [run] at h₂
  refine ⟨by rw [h₂.asked, hstored], by rw [h₂.waiting, hstored], ?_, ?_⟩
  · rw [h₂.table, hstored]
    show w₂.registry.table = _
    rw [h₁.table, hstep]
  · rw [h₂.configs, hstored]
    show List.foldl _ w₂.shelf.configs _ = _
    rw [h₁.configs, hstep]

/-- A completion that succeeds is that of the outstanding batch. It lands this
batch and tells every observer its ids. -/
theorem completed_of_inv (h : Inv w) {c : Completion ω}
    (hn : w.registry.isActive c.number = true) (hc : c.Succeeds w) :
    w.registry.active = some ⟨c.number, c.batch⟩ ∧ Landed c.batch w (w.run c.inputs) ∧
      ((w.run c.toErased).outcome .reply).2.filterMap Effect.note? =
        (w.run c.toErased).registry.hub.observers.map fun who =>
          ⟨who, .success, .success, c.batch.announced.keys, c.batch.withdrawn.keys⟩ := by
  obtain ⟨a, ha, he⟩ := (Option.any_eq_true ..).mp hn
  have hnumber : a.number = c.number := by simpa using he
  -- the message names the batch that its number was given to
  have hvouch : (c.number, c.batch) ∈ w.issued := by
    have hmessage := (Bool.and_eq_true ..|>.mp hc.possible).1
    simp only [allows, Bool.and_eq_true, vouchesFor] at hmessage
    simpa using hmessage.2
  have hbatch : c.batch = a.batch := h.issued_unique hvouch (hnumber ▸ h.active a ha)
  have hflight : w.registry.table.inFlight = c.batch := (h.inFlight a ha).trans hbatch.symm
  refine ⟨by rw [ha, ← hnumber, hbatch], ?_⟩
  obtain ⟨hasked, hwait, htable, hconfigs⟩ := erasing_of_succeeds hn hc
  obtain ⟨hout, hlast⟩ := step_erasing c.number c.batch.withdrawn.keys hasked hwait hc.erasing
  have hrun : w.run c.inputs = (w.run c.toErased).step .reply := run_append ..
  -- the store has erased, and the batch lands
  rw [hrun]
  refine ⟨⟨fun id => ?_, fun id => ?_⟩, ?_⟩
  · rw [hlast, become_registry, Registry.confirmed_confirm]
    show ((w.run c.toErased).registry.table.complete.1.record id).confirmed = _
    rw [Table.confirmed_complete, htable, hflight]
  · rw [hlast, become_shelf]
    show StringMap.get? (List.foldl _ (w.run c.toErased).shelf.configs _) id = _
    rw [StringMap.get?_foldl_erase, hconfigs, StringMap.get?_foldl_insert]
  · rw [hout]
    exact Registry.notes_confirm _ _ (htable ▸ hflight) (h.nonempty _ hvouch)

/-- An outcome reaches the batch that it names and no other. A completion that
succeeds is that of the outstanding batch, lands it and tells every observer its
ids; the outcome of any other batch does nothing. -/
structure Accountable (w : Worker ω) : Prop where
  completed : ∀ c : Completion ω, w.registry.isActive c.number = true → c.Succeeds w →
    w.registry.active = some ⟨c.number, c.batch⟩ ∧ Landed c.batch w (w.run c.inputs) ∧
      ((w.run c.toErased).outcome .reply).2.filterMap Effect.note? =
        (w.run c.toErased).registry.hub.observers.map fun who =>
          ⟨who, .success, .success, c.batch.announced.keys, c.batch.withdrawn.keys⟩
  stale : ∀ (c : Command) (n : Nat), c.batch? = some n → w.registry.isActive n = false →
    w.step (.command c) = w ∧ (w.outcome (.command c)).2 = []

/-- **One batch at a time, and its own outcome.** After every run the
outstanding batch is what is on its way, and outcomes are applied to the batch
that they name. -/
theorem outstanding_run (awaitAck : Bool) (shelf : Simulation.Shelf) (inputs : List (Input ω))
    (h : (start awaitAck shelf).possible inputs = true) :
    Exclusive ((start awaitAck shelf).run inputs) ∧
      Accountable ((start awaitAck shelf).run inputs) :=
  have hinv := inv_run awaitAck shelf inputs h
  ⟨exclusive_of_inv hinv, fun _ hn hc => completed_of_inv hinv hn hc,
    fun _ _ hc hn => stale_outcome hc hn⟩

end Steps

/-- An observer, a connection, and two endpoints of which the second one comes
while the first one is outstanding. -/
def twoRequests : List (Input String) :=
  [.observe "o", .command (.connection .connected), .command (.announce "a" none ⟨"1"⟩),
    .command (.announce "b" none ⟨"2"⟩)]

/-- The first of them is accepted, while loading begins to fail. -/
def firstAccepted : Completion String where
  number := 1
  batch := ⟨.ofList [("a", ⟨"1"⟩)], .empty⟩
  first := [.fail .loading true]
  second := []

theorem outstanding_twoRequests :
    ((start true ⟨true, .empty, [], []⟩).run twoRequests).live = [1] ∧
    (((start true ⟨true, .empty, [], []⟩).run twoRequests).run
      firstAccepted.inputs).shelf.configs.get? "a" = some ⟨"1"⟩ ∧
    ((start true ⟨true, .empty, [], []⟩).run twoRequests).step (.command (.ended 2)) =
      (start true ⟨true, .empty, [], []⟩).run twoRequests :=
  have h := outstanding_run true ⟨true, .empty, [], []⟩ twoRequests (by decide +kernel)
  have hc := h.2.completed firstAccepted (by decide +kernel)
    ⟨by decide +kernel, by decide, by decide, by decide +kernel, by decide +kernel⟩
  ⟨h.1.live.trans (by decide +kernel), (hc.2.1.stored "a").trans (by decide +kernel),
    (h.2.stale (.ended 2) 2 rfl (by decide +kernel)).1⟩

end Worker

end Announcer
