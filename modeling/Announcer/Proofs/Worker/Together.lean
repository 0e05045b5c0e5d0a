import Announcer.Proofs.Worker.Deeds
/-!
# The group is announced together

What holds of the batches of a table (`Table.whole_batch`) holds of every batch
that a registry hands to a sender, at a dispatch and at a bootstrap: if it announces a
member of the group, it announces all members at that moment but those that a
bootstrap has settled since the group was queued as a whole.

The exception is needed. A new member makes the registry queue the others again,
and if the connection is set up before they are sent, the bootstrap compares each
of them with the store, finds it stored as it is to be announced, and takes it
out again: the newcomer is announced alone.

Results: `together_run`, and `apart_newcomer` for the exception.
-/
namespace Announcer.Worker

variable {ω : Type} [DecidableEq ω] {w : Worker ω}

/-- The endpoints that bootstraps of a run have settled since the group was queued
as a whole. -/
def settled (w : Worker ω) (inputs : List (Input ω)) : List String :=
  Table.settled w.registry.table [] (w.ops inputs)

theorem together_step (h : Inv w) {i : Input ω} (hi : w.allows i = true) {done : List String}
    (hs : Table.Secure w.registry.table) (hw : Table.Whole w.registry.table done)
    {e : Effect ω} (he : e ∈ (w.outcome i).2) {b : Batch} (hb : e.batch? = some b)
    {id j : String} (hid : ((w.step i).registry.table.record id).registration.isSome)
    (hj : ((w.step i).registry.table.record j).registration.isSome)
    (hsent : (b.announced.get? id).isSome)
    (hdone : j ∉ Table.settled w.registry.table done (w.deeds i)) :
    (b.announced.get? j).isSome := by
  have hperforms := performs_step h hi
  obtain ⟨before, op, hdeeds, hop⟩ := hperforms.handed e he b hb
  have htable := hperforms.table
  have hserial := hperforms.serial
  rw [hdeeds, Table.run_append] at htable
  rw [hdeeds, Table.serial_append, Bool.and_eq_true] at hserial
  rw [hdeeds, Table.settled_append] at hdone
  obtain ⟨hbefore, hlast⟩ := hserial
  have hlast : op.isSerial (w.registry.table.run before) = true := by
    simpa only [Table.serial, Bool.and_true] using hlast
  -- the batch is taken from the table `before` leads to
  obtain ⟨hsecure, hwhole⟩ := Table.whole_run before w.registry.table hs hw hbefore
  have hreg : ∀ k, ((w.step i).registry.table.record k).registration =
      ((w.registry.table.run before).record k).registration := by
    intro k
    rw [step, become_registry, htable]
    exact Table.registration_of_batch? hop k
  rw [hreg] at hid hj
  refine Table.whole_batch hsecure hwhole hlast hop hid hsent hj ?_
  rwa [show Table.settled (w.registry.table.run before)
    (Table.settled w.registry.table done before) [op] = Table.settled w.registry.table done before
    from Table.settle_of_batch? hop] at hdone

theorem settled_append (h : Inv w) (inputs : List (Input ω)) (i : Input ω)
    (hp : w.possible inputs = true) :
    w.settled (inputs ++ [i]) =
      Table.settled (w.run inputs).registry.table (w.settled inputs) ((w.run inputs).deeds i) := by
  obtain ⟨htable, -⟩ := table_run h inputs hp
  rw [settled, ops_append, Table.settled_append, ← htable, ops, ops, List.append_nil]
  rfl

/-- In every run, all members but the settled ones stay together. -/
theorem whole_run (awaitAck : Bool) (shelf : Simulation.Shelf) (inputs : List (Input ω))
    (h : (start awaitAck shelf).possible inputs = true) :
    Table.Secure ((start awaitAck shelf).run inputs).registry.table ∧
      Table.Whole ((start awaitAck shelf).run inputs).registry.table
        ((start awaitAck shelf).settled inputs) := by
  obtain ⟨htable, hserial⟩ := table_run (inv_start awaitAck shelf) inputs h
  rw [htable]
  exact Table.whole_run _ _ Table.secure_empty Table.whole_empty hserial

/-- **The group is announced together.** Whatever a registry hands to a sender
in a run, if it announces one member of the group, it announces every endpoint
that is a member then, or a bootstrap has settled it. -/
theorem together_run (awaitAck : Bool) (shelf : Simulation.Shelf) (inputs : List (Input ω))
    (i : Input ω) (h : (start awaitAck shelf).possible (inputs ++ [i]) = true)
    {e : Effect ω} (he : e ∈ (((start awaitAck shelf).run inputs).outcome i).2)
    {b : Batch} (hb : e.batch? = some b) {id j : String}
    (hid : (((start awaitAck shelf).run (inputs ++ [i])).registry.table.record id).isMember = true)
    (hj : (((start awaitAck shelf).run (inputs ++ [i])).registry.table.record j).isMember = true)
    (hsent : id ∈ b.announced.keys) :
    j ∈ b.announced.keys ∨ j ∈ (start awaitAck shelf).settled (inputs ++ [i]) := by
  rw [possible_append, Bool.and_eq_true] at h
  obtain ⟨hbefore, hi⟩ := h
  simp only [possible, Bool.and_true] at hi
  rw [run_append] at hid hj
  simp only [Record.isMember, Bool.and_eq_true] at hid hj
  rw [StringMap.mem_keys_iff] at hsent ⊢
  have hinv := inv_run awaitAck shelf inputs hbefore
  obtain ⟨hsecure, hwhole⟩ := whole_run awaitAck shelf inputs hbefore
  have hstep := together_step hinv hi hsecure hwhole he hb hid.1 hj.1 hsent
  rw [settled_append (inv_start awaitAck shelf) inputs i hbefore]
  by_cases hdone : j ∈ Table.settled ((start awaitAck shelf).run inputs).registry.table
      ((start awaitAck shelf).settled inputs) (((start awaitAck shelf).run inputs).deeds i)
  · exact .inr hdone
  · exact .inl (hstep hdone)

/-! ## Two members -/

/-- The registration of the members below. -/
def acme : Registration := ⟨"product", "serial", "acme", "id"⟩

/-- One member of the group is announced, accepted and stored. -/
def firstMember : List (Input String) :=
  [.command (.connection .connected), .command (.announce "a" (some acme) ⟨"1"⟩),
    .command (.completed 1 (.ofList [("a", ⟨"1"⟩)]) .empty), .reply, .reply]

/-- Another endpoint becomes a member. -/
def newcomer : Input String := .command (.announce "b" (some acme) ⟨"2"⟩)

/-- Both members. -/
def bothMembers : Batch := ⟨.ofList [("a", ⟨"1"⟩), ("b", ⟨"2"⟩)], .empty⟩

/-- While there is a connection, the newcomer is announced with the first member. -/
theorem together_newcomer :
    .dispatch 2 bothMembers true ∈
      (((start true ⟨true, .empty, [], []⟩).run firstMember).outcome newcomer).2 ∧
    "a" ∈ bothMembers.announced.keys := by
  have hhanded : .dispatch 2 bothMembers true ∈
      (((start true ⟨true, .empty, [], []⟩).run firstMember).outcome newcomer).2 := by
    decide +kernel
  have hnew : "b" ∈ bothMembers.announced.keys := by decide +kernel
  have htogether := together_run true ⟨true, .empty, [], []⟩ firstMember newcomer
    (by decide +kernel) hhanded rfl (j := "a") (by decide +kernel) (by decide +kernel) hnew
  exact ⟨hhanded, htogether.resolve_right (by decide +kernel)⟩

/-- The newcomer comes while there is no connection, and is announced when it is
set up again. -/
def newcomerOffline : List (Input String) :=
  firstMember ++ [.command (.connection .disconnected), newcomer, .command .bootstrap]

/-- The newcomer alone. -/
def newcomerOnly : Batch := ⟨.ofList [("b", ⟨"2"⟩)], .empty⟩

/-- The members of the group are not always announced together: the bootstrap
finds the first member stored, and offers the newcomer alone. -/
theorem apart_newcomer :
    (start true ⟨true, .empty, [], []⟩).possible (newcomerOffline ++ [.reply]) = true ∧
    .offer 2 newcomerOnly ∈
      (((start true ⟨true, .empty, [], []⟩).run newcomerOffline).outcome .reply).2 ∧
    (((start true ⟨true, .empty, [], []⟩).run
      (newcomerOffline ++ [.reply])).registry.table.record "a").isMember = true ∧
    (((start true ⟨true, .empty, [], []⟩).run
      (newcomerOffline ++ [.reply])).registry.table.record "b").isMember = true ∧
    "b" ∈ newcomerOnly.announced.keys ∧ "a" ∉ newcomerOnly.announced.keys :=
  ⟨by decide +kernel, by decide +kernel, by decide +kernel, by decide +kernel,
    by decide +kernel, by decide +kernel⟩

end Announcer.Worker
