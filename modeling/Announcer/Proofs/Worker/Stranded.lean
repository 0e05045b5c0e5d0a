import Announcer.Proofs.Worker.Invariant
/-!
# What is left pending

A registry that is connected and has nothing outstanding sends what is pending
as soon as it gets to it: a request, a new connection, a completion and the end of a
batch all try to send. Two events do not: a batch is refused for good, and the
store cannot be loaded for a bootstrap. What is pending then waits for the next
event that tries, and until then the table stays as it is.

Results:
* `stalled_step`: a registry comes to be `Stalled` only through a `Setback`;
* `stalled_run`: in every run, what is pending while nothing keeps the registry
  from sending was left there by a setback;
* `stalled_afterSetbacks`: both setbacks do leave something there.
-/
namespace Announcer

/-- Nothing keeps the registry from sending, and yet something is pending. -/
structure Registry.Stalled {ω : Type} (r : Registry ω) : Prop where
  connected : r.connection = .connected
  running : r.shuttingDown = false
  free : r.active = none
  loaded : r.waiting ≠ some .loading
  pending : r.table.hasPending = true

namespace Registry

variable {ω : Type} {r : Registry ω}

/-- Whoever tries to send does not stall. -/
theorem not_stalled_dispatch (r : Registry ω) : ¬ r.dispatch.1.Stalled := by
  intro hs
  unfold dispatch at hs
  split at hs
  · next hblocked =>
    have hc : r.connection = .connected := hs.connected
    have hr : r.shuttingDown = false := hs.running
    have ha : r.active = none := hs.free
    simp [hc, hr, ha] at hblocked
  · split at hs
    · next t hsel =>
      obtain ⟨hsame, hnone⟩ := Table.selectBatch_none r.table.isIdle_reclaim (by rw [hsel])
      rw [hsel] at hsame
      have hp : t.hasPending = true := hs.pending
      rw [← show t = r.table.reclaim.1 from hsame, hp] at hnone
      cases hnone
    · next t b hsel => cases hs.free

end Registry

namespace Worker

variable {ω : Type} {w : Worker ω}

/-- The inputs that give something up and do not try to send. -/
inductive Setback (w : Worker ω) : Input ω → Prop where
  /-- The outstanding batch is refused for good. -/
  | refused (n : Nat) (status : Status) (outstanding : w.registry.isActive n = true)
      (final : status = .invalidAuth ∨ status = .badRequest) :
      Setback w (.command (.failed n status))
  /-- The store cannot be loaded for a bootstrap. -/
  | unread (waiting : w.registry.waiting = some .loading)
      (refuses : w.shelf.failing.contains .loading = true) : Setback w .reply

/-- What a step leaves that no setback made: it was there before. -/
def Kept (w : Worker ω) (r : Registry ω) : Prop :=
  w.registry.Stalled ∧ r.table = w.registry.table

/-- Everything but a setback tries to send, keeps the registry from sending, or
changes nothing about it. -/
theorem stalled_handle (hw : w.registry.waiting = none) (c : Command)
    (hs : (w.registry.handle c).1.Stalled) :
    Setback w (.command c) ∨ Kept w (w.registry.handle c).1 := by
  have hhandles := w.registry.handles c
  generalize w.registry.handle c = o at hhandles hs ⊢
  cases hhandles with
  | announces => exact absurd hs (Registry.not_stalled_dispatch _)
  | withdraws => exact absurd hs (Registry.not_stalled_dispatch _)
  | refusesAnnounce => exact .inr ⟨hs, rfl⟩
  | refusesWithdraw => exact .inr ⟨hs, rfl⟩
  | connects => exact absurd hs (Registry.not_stalled_dispatch _)
  | disconnects => cases hs.connected
  | bootstraps => exact absurd rfl hs.loaded
  | stores hact =>
    have ha : w.registry.active = none := hs.free
    simp [Registry.isActive, ha] at hact
  | drops hact hfatal => exact .inl (.refused _ _ hact (Registry.failure_fatal hfatal))
  | awaits =>
    exact .inr ⟨⟨hs.connected, hs.running, hs.free, hs.loaded, hs.pending⟩, rfl⟩
  | goesOn => exact absurd hs (Registry.not_stalled_dispatch _)
  | rests _ hdone =>
    have hpending := hs.pending
    rw [hdone] at hpending
    cases hpending
  | ignores => exact .inr ⟨hs, rfl⟩
  | clears =>
    refine .inr ⟨⟨hs.connected, hs.running, hs.free, ?_, hs.pending⟩, rfl⟩
    simp [hw]
  | looks => exact .inr ⟨hs, rfl⟩

/-- An offer takes all that is pending. -/
theorem not_stalled_offer {r : Registry ω} (ht : r.table.isIdle = true) :
    ¬ r.offer.1.Stalled := by
  intro hs
  unfold Registry.offer at hs
  split at hs
  · next t hsel =>
    obtain ⟨hsame, hnone⟩ := Table.takeAll_none ht (by rw [hsel])
    rw [hsel] at hsame
    have hp : t.hasPending = true := hs.pending
    rw [← show t = r.table from hsame, hp] at hnone
    cases hnone
  · cases hs.free

theorem not_stalled_offerBatch {r : Registry ω} (ht : r.table.isIdle = true) (stored : Configs) :
    ¬ (r.offerBatch stored).1.Stalled := by
  obtain ⟨hub, heq⟩ := r.compare_frame stored
  have hidle := Table.isIdle_of_inFlight_eq (Table.inFlight_reconcile r.table stored) ht
  rw [Registry.offerBatch_eq]
  exact not_stalled_offer (by rw [heq]; exact hidle)

theorem stalled_resume (h : Inv w) {call : StoreCall} (hc : w.asked = some call)
    (hs : (w.registry.resume (w.shelf.serve call).1).1.Stalled) :
    Setback w .reply ∨ Kept w (w.registry.resume (w.shelf.serve call).1).1 := by
  -- a batch whose configs are being stored is outstanding, or this is the end
  have hbusy : ∀ a, w.Holds a → w.registry.active = none → w.registry.shuttingDown = false →
      False := by
    intro a ha hnone hrun
    rcases ha.active with hact | ⟨-, hend⟩
    · cases hnone.symm.trans hact
    · cases hrun.symm.trans hend
  have hreplies := h.replies hc
  generalize (w.shelf.serve call).2 = shelf, w.registry.resume (w.shelf.serve call).1 = o
    at hreplies hs ⊢
  cases hreplies with
  | stored hb => exact (hbusy _ hb hs.free hs.running).elim
  | erased => exact absurd hs (Registry.not_stalled_dispatch _)
  | unstored hb => exact (hbusy _ hb hs.free hs.running).elim
  | loaded _ _ _ hidle =>
    exact absurd hs (not_stalled_offerBatch (r := { w.registry with waiting := none }) hidle _)
  | unread hwait hfail => exact .inl (.unread hwait hfail)
  | cleared hwait =>
    exact .inr ⟨⟨hs.connected, hs.running, hs.free, by simp [hwait], hs.pending⟩, rfl⟩
  | uncleared hwait =>
    exact .inr ⟨⟨hs.connected, hs.running, hs.free, by simp [hwait], hs.pending⟩, rfl⟩

section Runs
variable [DecidableEq ω]

theorem stalled_step (h : Inv w) {i : Input ω} (hi : w.allows i = true)
    (hs : (w.step i).registry.Stalled) :
    Setback w i ∨ Kept w (w.step i).registry := by
  rw [step, become_registry] at hs ⊢
  cases i with
  | command c =>
    simp only [allows, Bool.and_eq_true, Option.isNone_iff_eq_none] at hi
    exact stalled_handle (h.waiting_eq_none hi.1) c hs
  | reply =>
    unfold outcome at hs ⊢
    dsimp only at hs ⊢
    split at hs
    · next call hc => exact stalled_resume h hc hs
    · exact .inr ⟨hs, rfl⟩
  | fail op on => exact .inr ⟨hs, rfl⟩
  | observe who =>
    exact .inr ⟨⟨hs.connected, hs.running, hs.free, hs.loaded, hs.pending⟩, rfl⟩
  | unobserve who =>
    exact .inr ⟨⟨hs.connected, hs.running, hs.free, hs.loaded, hs.pending⟩, rfl⟩
  | shutdown =>
    unfold outcome Registry.shutdown at hs ⊢
    dsimp only at hs ⊢
    split at hs
    · next hend => rw [if_pos hend]; exact .inr ⟨hs, rfl⟩
    · cases hs.running
  | stop => cases hs.running

/-- A setback is behind what is left pending: it came somewhere in the run, and the
table is still as it left it. -/
def LeftBySetback (w : Worker ω) (inputs : List (Input ω)) : Prop :=
  ∃ before i after, inputs = before ++ i :: after ∧ Setback (w.run before) i ∧
    (w.run inputs).registry.table = (w.run (before ++ [i])).registry.table

theorem left_of_stalled (awaitAck : Bool) (shelf : Simulation.Shelf) (inputs : List (Input ω))
    (h : (start awaitAck shelf).possible inputs = true)
    (hs : ((start awaitAck shelf).run inputs).registry.Stalled) :
    LeftBySetback (start awaitAck shelf) inputs := by
  have key := run_induction (w := (start awaitAck shelf : Worker ω))
    (P := fun before v => v = (start awaitAck shelf).run before ∧ Inv v ∧
      (v.registry.Stalled → LeftBySetback (start awaitAck shelf) before)) ?first ?next inputs h
  · exact key.2.2 hs
  case first =>
    -- there is no connection yet
    exact ⟨rfl, inv_start awaitAck shelf, fun hs => nomatch hs.connected⟩
  case next =>
    rintro before v i ⟨rfl, hinv, hleft⟩ hi
    have hrun := run_append (start awaitAck shelf : Worker ω) before [i]
    refine ⟨hrun.symm, inv_step hinv hi, fun hs => ?_⟩
    rcases stalled_step hinv hi hs with hset | ⟨hbefore, hsame⟩
    · exact ⟨before, i, [], rfl, hset, rfl⟩
    · obtain ⟨b, j, after, rfl, hset, htable⟩ := hleft hbefore
      refine ⟨b, j, after ++ [i], by simp, hset, ?_⟩
      rw [hrun]
      exact hsame.trans htable

/-- **Nothing accepted is left behind but by a setback.** After every run, when
the command at hand is dealt with, the connection stands, the registry goes on
and no batch is outstanding, then nothing is pending, or else a setback left
the table as it is. -/
theorem stalled_run (awaitAck : Bool) (shelf : Simulation.Shelf) (inputs : List (Input ω))
    (h : (start awaitAck shelf).possible inputs = true)
    (hrest : ((start awaitAck shelf).run inputs).asked = none)
    (hconnected : ((start awaitAck shelf).run inputs).registry.connection = .connected)
    (hrunning : ((start awaitAck shelf).run inputs).registry.shuttingDown = false)
    (hfree : ((start awaitAck shelf).run inputs).registry.active = none) :
    ((start awaitAck shelf).run inputs).registry.table.hasPending = false ∨
      LeftBySetback (start awaitAck shelf) inputs := by
  cases hp : ((start awaitAck shelf).run inputs).registry.table.hasPending with
  | false => exact .inl rfl
  | true =>
    have hwait := (inv_run awaitAck shelf inputs h).waiting_eq_none hrest
    refine .inr (left_of_stalled awaitAck shelf inputs h
      ⟨hconnected, hrunning, hfree, ?_, hp⟩)
    rw [hwait]
    exact nofun

end Runs

/-- Two endpoints, of which the second one waits until the batch of the first
one is refused for good. -/
def refusedBatch : List (Input String) :=
  [.command (.connection .connected), .command (.announce "a" none ⟨"1"⟩),
    .command (.announce "b" none ⟨"2"⟩), .command (.failed 1 .badRequest)]

/-- A bootstrap takes back what is outstanding, and then the store cannot be loaded. -/
def unreadStore : List (Input String) :=
  [.command (.connection .connected), .command (.announce "a" none ⟨"1"⟩), .fail .loading true,
    .command .bootstrap, .reply]

/-- After `refusedBatch` the first endpoint's batch is behind what is pending. -/
theorem stalled_refusedBatch :
    LeftBySetback (start true ⟨true, .empty, [], []⟩) refusedBatch :=
  (stalled_run true ⟨true, .empty, [], []⟩ refusedBatch (by decide +kernel) (by decide +kernel)
    (by decide +kernel) (by decide +kernel) (by decide +kernel)).resolve_left (by decide +kernel)

/-- Both setbacks leave something pending while the registry has nothing to wait for. -/
theorem stalled_afterSetbacks :
    ((start true ⟨true, .empty, [], []⟩).possible refusedBatch = true ∧
      ((start true ⟨true, .empty, [], []⟩).run refusedBatch).asked = none ∧
      ((start true ⟨true, .empty, [], []⟩).run refusedBatch).registry.Stalled) ∧
    ((start true ⟨true, .empty, [], []⟩).possible unreadStore = true ∧
      ((start true ⟨true, .empty, [], []⟩).run unreadStore).asked = none ∧
      ((start true ⟨true, .empty, [], []⟩).run unreadStore).registry.Stalled) :=
  ⟨⟨by decide +kernel, by decide +kernel, by decide +kernel, by decide +kernel,
      by decide +kernel, by decide +kernel, by decide +kernel⟩,
    ⟨by decide +kernel, by decide +kernel, by decide +kernel, by decide +kernel,
      by decide +kernel, by decide +kernel, by decide +kernel⟩⟩

end Worker

end Announcer
