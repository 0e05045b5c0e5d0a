import Announcer.Proofs.Exchange.Ripples
import Announcer.Proofs.Table.Bootstrap
import Announcer.Proofs.Worker.Outstanding
/-!
# Whatever is confirmed is stored

Three things make an endpoint confirmed or stored: the store is told the announced
configs of a batch, then the withdrawn ids, and then what is on its way in the table
lands; and a bootstrap confirms what it finds stored. No command changes what is
confirmed, not even the one that drops a batch for good (`confirmed_handle`).

Between the two replies of the store a batch is stored and not yet landed. What is
`held` then is what will be confirmed when it does, so that one statement goes
through all the states of a landing.

Results: `stored_step`, and `durable_run` for every run in which the store does
what it is asked and is not emptied.
-/
namespace Announcer

/-! ## Commands -/
namespace Worker

variable {ω : Type} {w : Worker ω}

/-- No command changes what is confirmed. -/
theorem confirmed_handle (w : Worker ω) (c : Command) (id : String) :
    ((w.registry.handle c).1.table.record id).confirmed =
      (w.registry.table.record id).confirmed := by
  obtain ⟨t, hripples, hsmooth⟩ := w.ripples_handle c
  refine (hsmooth.keeps id).confirmed.trans ?_
  show (t.record id).confirmed = _
  generalize w.news (.command c) = news at hripples
  cases hripples with
  | still => rfl
  | applied _ hinput => cases hinput
  | dropped => rw [Table.record_abandon, Record.kept_confirmed]
  | found hinput => cases hinput

/-! ## What is held -/

/-- What is confirmed of an endpoint, or will be as soon as the store has erased what
the landing batch withdraws. -/
def held (w : Worker ω) (id : String) : Option Config :=
  match w.registry.waiting with
  | some (.erasing _) =>
    w.registry.table.inFlight.announced.get? id <|> (w.registry.table.record id).confirmed
  | _ => (w.registry.table.record id).confirmed

/-- Whatever is held is stored. -/
def Stored (w : Worker ω) : Prop :=
  ∀ id c, w.held id = some c → ∃ s, w.shelf.configs.get? id = some s ∧ s.KeptAs c

/-- Whatever is held is stored, and the store is not being emptied. -/
structure Keeping (w : Worker ω) : Prop where
  stored : w.Stored
  spared : w.registry.waiting ≠ some .clearing

theorem held_of_waiting (hw : ∀ n, w.registry.waiting ≠ some (.erasing n)) (id : String) :
    w.held id = (w.registry.table.record id).confirmed := by
  unfold held
  split
  · next n he => exact absurd he (hw n)
  · rfl

theorem held_of_erasing {n : Nat} (hw : w.registry.waiting = some (.erasing n)) (id : String) :
    w.held id =
      (w.registry.table.inFlight.announced.get? id <|>
        (w.registry.table.record id).confirmed) := by
  rw [held, hw]

theorem persisted_iff_stored (hw : ∀ n, w.registry.waiting ≠ some (.erasing n)) :
    w.registry.table.Persisted w.shelf.configs ↔ w.Stored := by
  unfold Stored Table.Persisted
  simp only [held_of_waiting hw]

namespace Stored

variable {v : Worker ω}

/-- The same is held, and the same is stored. -/
theorem of_eq (h : w.Stored) (hheld : ∀ id, v.held id = w.held id)
    (hconfigs : v.shelf.configs = w.shelf.configs) : v.Stored := by
  intro id c hc
  rw [hheld] at hc
  rw [hconfigs]
  exact h id c hc

/-- Some configs come to be held, and to be stored. -/
theorem insert (h : w.Stored) (configs : Configs)
    (hheld : ∀ id, v.held id = (configs.get? id <|> w.held id))
    (hconfigs : ∀ id, v.shelf.configs.get? id =
      (configs.get? id <|> w.shelf.configs.get? id)) : v.Stored := by
  intro id c hc
  rw [hheld] at hc
  rw [hconfigs]
  cases hget : configs.get? id with
  | some c' =>
    rw [hget] at hc
    cases hc
    exact ⟨c, rfl, .refl c⟩
  | none =>
    rw [hget] at hc
    exact h id c hc

/-- Some endpoints are no longer held, and no longer stored. -/
theorem erase (h : w.Stored) (ids : List String)
    (hheld : ∀ id, v.held id = if id ∈ ids then none else w.held id)
    (hconfigs : ∀ id, v.shelf.configs.get? id =
      if id ∈ ids then none else w.shelf.configs.get? id) : v.Stored := by
  intro id c hc
  rw [hheld] at hc
  rw [hconfigs]
  split at hc
  · cases hc
  · next hid =>
    rw [if_neg hid]
    exact h id c hc

end Stored

/-! ## Steps and runs -/

theorem keeping_start (awaitAck : Bool) (shelf : Simulation.Shelf) :
    Keeping (start awaitAck shelf : Worker ω) where
  stored := by intro id c hc; cases hc
  spared := by simp [start, Registry.start]

section Steps
variable [DecidableEq ω]

/-- False for a call of the store that fails, and for asking that it be emptied. -/
def spares (w : Worker ω) : Input ω → Bool
  | .command .clearStore => false
  | .reply => w.asked.all fun call => !w.shelf.failing.contains (.ofCall call)
  | _ => true

theorem keeping_command (h : Inv w) (hk : w.Keeping) (hw : w.asked = none) {c : Command}
    (hs : w.spares (.command c) = true) : (w.step (.command c)).Keeping := by
  have hwait := h.waiting_eq_none hw
  have hregistry : (w.step (.command c)).registry = (w.registry.handle c).1 := become_registry _ _
  have hshelf : (w.step (.command c)).shelf.configs = w.shelf.configs :=
    congrArg Simulation.Shelf.configs (become_shelf _ _)
  -- a command lets the registry wait for a first reply, and not that the store be emptied
  have hnext : (∀ n, (w.step (.command c)).registry.waiting ≠ some (.erasing n)) ∧
      (w.step (.command c)).registry.waiting ≠ some .clearing := by
    rw [hregistry]
    rcases w.registry.waiting_handle hwait c with hn | hn | ⟨rfl, -⟩ | ⟨n, a, d, -, -, -, hn⟩
    · simp [hn]
    · simp [hn]
    · cases hs
    · simp [hn]
  refine ⟨hk.stored.of_eq (fun id => ?_) hshelf, hnext.2⟩
  rw [held_of_waiting hnext.1, held_of_waiting (by simp [hwait]), hregistry, confirmed_handle]

theorem keeping_reply (h : Inv w) (hk : w.Keeping) {call : StoreCall} (hc : w.asked = some call)
    (hs : w.spares .reply = true) : (w.step .reply).Keeping := by
  have hregistry : (w.step .reply).registry = (w.registry.resume (w.shelf.serve call).1).1 := by
    rw [step, become_registry, outcome, hc]
  have hshelf : (w.step .reply).shelf = (w.shelf.serve call).2 := by
    rw [step, become_shelf, serve, hc]
  have hworks : ¬ w.shelf.failing.contains (.ofCall call) = true := by
    simpa [spares, hc] using hs
  have hreplies := h.replies hc
  generalize (w.shelf.serve call).2 = shelf, w.registry.resume (w.shelf.serve call).1 = o
    at hreplies hregistry hshelf
  cases hreplies with
  | @stored n b hb _ hwait =>
    have hnext : (w.step .reply).registry.waiting = some (.erasing n) := by rw [hregistry]; rfl
    refine ⟨hk.stored.insert b.announced (fun id => ?_) (fun id => ?_), by simp [hnext]⟩
    · rw [held_of_erasing hnext, held_of_waiting (by simp [hwait]), hregistry]
      show (w.registry.table.inFlight.announced.get? id <|> _) = _
      rw [hb.inFlight]
      rfl
    · rw [hshelf]
      exact StringMap.get?_foldl_insert _ _ _
  | @erased n b hb _ hwait =>
    have hnext : (w.step .reply).registry.waiting = none := by
      rw [hregistry]
      exact Registry.waiting_confirm _ n
    refine ⟨hk.stored.erase b.withdrawn.keys (fun id => ?_) (fun id => ?_), by simp [hnext]⟩
    · rw [held_of_waiting (by simp [hnext]), held_of_erasing hwait, hregistry,
        Registry.confirmed_confirm]
      show (w.registry.table.complete.1.record id).confirmed = _
      rw [Table.confirmed_complete, hb.inFlight]
    · rw [hshelf]
      exact StringMap.get?_foldl_erase _ _ _
  | @loaded hasked hwait =>
    have hnext : (w.step .reply).registry.waiting = none := by
      rw [hregistry]
      exact Registry.waiting_offerBatch _ _
    refine ⟨(persisted_iff_stored (by simp [hnext])).mp ?_, by simp [hnext]⟩
    have hbefore := (persisted_iff_stored (by simp [hwait])).mpr hk.stored
    rw [hregistry, hshelf]
    refine (Table.persisted_reconcile hbefore).of_confirmed fun id => ?_
    exact ((Registry.smooth_offerBatch _ _).keeps id).confirmed
  | unstored _ hfails =>
    have hat := h.atWork
    rcases hfails with ⟨hwait, hfail⟩ | ⟨hwait, hfail⟩
    · rw [hwait] at hat
      obtain ⟨b, -, -, hasked⟩ := hat
      cases hc.symm.trans hasked
      exact absurd hfail hworks
    · rw [hwait] at hat
      obtain ⟨b, -, hasked⟩ := hat
      cases hc.symm.trans hasked
      exact absurd hfail hworks
  | unread hwait hfail =>
    have hat := h.atWork
    rw [hwait] at hat
    cases hc.symm.trans hat.2.2
    exact absurd hfail hworks
  | cleared hwait => exact absurd hwait hk.spared
  | uncleared hwait => exact absurd hwait hk.spared

/-- Every input but a failing call of the store, or an order to empty it, keeps
whatever is held stored. -/
theorem stored_step (h : Inv w) (hk : w.Keeping) {i : Input ω} (hi : w.allows i = true)
    (hs : w.spares i = true) : (w.step i).Keeping := by
  have haside : (∀ c, i ≠ .command c) → i ≠ .reply → (w.step i).Keeping := by
    intro hc hr
    have halike := alike_aside (w := w) hc hr
    refine ⟨hk.stored.of_eq (fun id => ?_) halike.configs, by rw [halike.waiting]; exact hk.spared⟩
    rw [held, held, halike.waiting, halike.table]
  cases i with
  | command c =>
    simp only [allows, Bool.and_eq_true, Option.isNone_iff_eq_none] at hi
    exact keeping_command h hk hi.1 hs
  | reply =>
    obtain ⟨call, hc⟩ := Option.isSome_iff_exists.mp hi
    exact keeping_reply h hk hc hs
  | _ => exact haside (by simp) (by simp)

/-- What is confirmed in the table survives in the store. -/
structure Durable (w : Worker ω) : Prop where
  /-- Whatever is held is stored, also while the store is at work. -/
  stored : w.Stored
  /-- Whatever is confirmed is stored, unless a batch is about to land. -/
  persisted : (∀ n, w.registry.waiting ≠ some (.erasing n)) →
    w.registry.table.Persisted w.shelf.configs
  /-- So it is between two commands. -/
  between : w.asked = none → w.registry.table.Persisted w.shelf.configs

/-- **Whatever is confirmed is stored.** Whatever the store has at the start and
whatever happens then, as long as the store does what it is asked and nobody has
it emptied. -/
theorem durable_run (awaitAck : Bool) (shelf : Simulation.Shelf) (inputs : List (Input ω))
    (h : (start awaitAck shelf).possible inputs = true)
    (hs : (start awaitAck shelf).always spares inputs = true) :
    ((start awaitAck shelf).run inputs).Durable := by
  obtain ⟨hinv, hkeeping⟩ := run_always (P := fun v => Inv v ∧ v.Keeping)
    (fun v i hv hi hp => ⟨inv_step hv.1 hi, stored_step hv.1 hv.2 hi hp⟩)
    ⟨inv_start awaitAck shelf, keeping_start awaitAck shelf⟩ h hs
  have hpersisted := fun hw => (persisted_iff_stored hw).mpr hkeeping.stored
  refine ⟨hkeeping.stored, hpersisted, fun hasked => hpersisted ?_⟩
  simp [hinv.waiting_eq_none hasked]

end Steps

/-- The store has two endpoints at the start, and one of them is found stored by a
bootstrap while the other one is withdrawn. What is asked for then is accepted,
replaced while it is outstanding, refused for good, and given up at a disconnect; the
outcome of the first batch comes late once more. -/
def eventfulRun : List (Input String) :=
  [.command (.announce "a" none ⟨"[1]"⟩), .command .bootstrap, .reply,
    .command (.completed 1 .empty (.ofList [("z", .withdrawal "z")])), .reply, .reply,
    .command (.connection .connected), .command (.announce "b" none ⟨"2"⟩),
    .command (.announce "b" none ⟨"3"⟩),
    .command (.completed 2 (.ofList [("b", ⟨"2"⟩)]) .empty), .reply, .reply,
    .command (.failed 3 .badRequest), .command (.withdraw "a" none),
    .command (.completed 1 .empty (.ofList [("z", .withdrawal "z")])),
    .command (.connection .disconnected)]

/-- A store that has the first endpoint with the same meaning. -/
def eventfulShelf : Simulation.Shelf :=
  ⟨true, .ofList [("a", ⟨"[ 1 ]"⟩), ("z", ⟨"0"⟩)], [], []⟩

theorem durable_eventfulRun :
    (start true eventfulShelf).possible eventfulRun = true ∧
    (start true eventfulShelf).always spares eventfulRun = true ∧
    (((start true eventfulShelf).run eventfulRun).registry.table.record "a").confirmed =
      some ⟨"[1]"⟩ ∧
    ∃ s, ((start true eventfulShelf).run eventfulRun).shelf.configs.get? "a" = some s ∧
      s.KeptAs ⟨"[1]"⟩ := by
  have hpossible : (start true eventfulShelf).possible eventfulRun = true := by decide +kernel
  have hspares : (start true eventfulShelf).always spares eventfulRun = true := by decide +kernel
  have hconfirmed : (((start true eventfulShelf).run eventfulRun).registry.table.record
      "a").confirmed = some ⟨"[1]"⟩ := by decide +kernel
  have hdurable := durable_run true eventfulShelf eventfulRun hpossible hspares
  exact ⟨hpossible, hspares, hconfirmed,
    hdurable.between (by decide +kernel) "a" ⟨"[1]"⟩ hconfirmed⟩

end Worker

end Announcer
