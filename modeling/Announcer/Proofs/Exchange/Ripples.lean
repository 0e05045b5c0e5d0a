import Announcer.Proofs.Exchange
import Announcer.Proofs.Table.Keeps
import Announcer.Proofs.Worker.Invariant
/-!
# What an input does to the table

Most inputs leave what is confirmed and only move operations about, so that an
endpoint of which something is pending or on its way stays so (`Record.Keeps`).
What does more is in the `news`: landing a batch, dropping one, or finding
announcements stored. `ripples_outcome` says that an input does what its news
say and nothing else.
-/
namespace Announcer

open Record (Keeps)

/-! ## The registry -/
namespace Registry

variable {ω : Type} {r r' r'' : Registry ω}

/-- Nothing is confirmed or forgotten, and no earlier batch becomes outstanding. -/
structure Smooth (r r' : Registry ω) : Prop where
  issued : r.issued ≤ r'.issued
  active : ∀ a, r'.active = some a → r.active = some a ∨ r.issued < a.number
  keeps : ∀ id, Keeps (r.table.record id) (r'.table.record id)

namespace Smooth

theorem refl (r : Registry ω) : r.Smooth r := ⟨Nat.le_refl _, fun _ => .inl, fun _ => .refl _⟩

theorem trans (h : r.Smooth r') (h' : r'.Smooth r'') : r.Smooth r'' := by
  refine ⟨Nat.le_trans h.issued h'.issued, fun a ha => ?_, fun id =>
    (h.keeps id).trans (h'.keeps id)⟩
  rcases h'.active a ha with ha | ha
  · exact h.active a ha
  · exact .inr (Nat.lt_of_le_of_lt h.issued ha)

/-- Only the batches and the table count. -/
theorem of_eq (hi : r'.issued = r.issued) (ha : r'.active = r.active)
    (ht : ∀ id, Keeps (r.table.record id) (r'.table.record id)) : r.Smooth r' :=
  ⟨Nat.le_of_eq hi.symm, fun _ h => .inl (ha ▸ h), ht⟩

/-- Giving the outstanding batch up. -/
theorem of_detached (hi : r'.issued = r.issued) (ha : r'.active = none)
    (ht : ∀ id, Keeps (r.table.record id) (r'.table.record id)) : r.Smooth r' :=
  ⟨Nat.le_of_eq hi.symm, fun a h => (by cases ha.symm.trans h), ht⟩

end Smooth

theorem smooth_dispatch (r : Registry ω) : r.Smooth r.dispatch.1 := by
  have hkeep : ∀ id, Keeps (r.table.record id) (r.table.reclaim.1.selectBatch.1.record id) :=
    fun id => (r.table.keeps_reclaim id).trans (r.table.reclaim.1.keeps_selectBatch id)
  unfold dispatch
  split
  · exact .refl r
  · split
    · next t hsel =>
      rw [hsel] at hkeep
      exact .of_eq rfl rfl hkeep
    · next t b hsel =>
      rw [hsel] at hkeep
      refine ⟨Nat.le_succ _, ?_, hkeep⟩
      rintro a ⟨⟩
      exact .inr (Nat.lt_succ_self _)

theorem smooth_release (r : Registry ω) (n : Nat) : r.Smooth (r.release n).1 := by
  unfold release
  split
  · exact .of_detached rfl rfl fun _ => .refl _
  · exact .refl r

theorem smooth_publish (r : Registry ω) (state : SyncState) (cause : SyncCause)
    (announced withdrawn : List String) : r.Smooth (r.publish state cause announced withdrawn).1 :=
  .of_eq rfl rfl fun _ => .refl _

theorem smooth_offer (r : Registry ω) : r.Smooth r.offer.1 := by
  have hkeep : ∀ id, Keeps (r.table.record id) (r.table.takeAll.1.record id) :=
    fun id => r.table.keeps_take _ id
  unfold offer
  split
  · next t hsel =>
    rw [hsel] at hkeep
    exact .of_eq rfl rfl hkeep
  · next t b hsel =>
    rw [hsel] at hkeep
    refine ⟨Nat.le_succ _, ?_, hkeep⟩
    rintro a ⟨⟩
    exact .inr (Nat.lt_succ_self _)

theorem smooth_confirm (r : Registry ω) (n : Nat) :
    Smooth { r with table := r.table.complete.1 } (r.confirm n).1 := by
  have hrelease := smooth_release { r with table := r.table.complete.1 } n
  exact (hrelease.trans (smooth_publish _ _ _ _ _)).trans (smooth_dispatch _)

theorem smooth_offerBatch (r : Registry ω) (stored : Configs) :
    Smooth { r with table := (r.table.reconcile stored).1 } (r.offerBatch stored).1 := by
  obtain ⟨hub, heq⟩ := r.compare_frame stored
  have hcompare : Smooth { r with table := (r.table.reconcile stored).1 } (r.compare stored).1 := by
    rw [heq]
    exact .of_eq rfl rfl fun _ => .refl _
  rw [offerBatch_eq]
  exact hcompare.trans (smooth_offer _)

end Registry

/-! ## Inputs -/
namespace Worker

variable {ω : Type} {w : Worker ω}

open Registry (Smooth)

/-- What the news of an input say of the table. -/
inductive Ripples (w : Worker ω) (i : Input ω) : Table → List Happening → Prop where
  | still : Ripples w i w.registry.table []
  | applied (n : Nat) (input : i = .reply) (waiting : w.registry.waiting = some (.erasing n)) :
    Ripples w i w.registry.table.complete.1 [.applied w.registry.table.inFlight]
  | dropped (outstanding : w.registry.active.isSome) :
    Ripples w i w.registry.table.abandon.1 [.dropped w.registry.table.inFlight]
  | found (input : i = .reply) (waiting : w.registry.waiting = some .loading) :
    Ripples w i (w.registry.table.reconcile w.shelf.configs).1
      [.found (w.registry.table.reconcile w.shelf.configs).2]

theorem ripples_handle (c : Command) : ∃ t, Ripples w (.command c) t (w.news (.command c)) ∧
    Smooth { w.registry with table := t } (w.registry.handle c).1 := by
  have hstill : w.news (.command c) = [] →
      Ripples w (.command c) w.registry.table (w.news (.command c)) := fun h => h ▸ .still
  have hpublish := fun (r : Registry ω) state cause => Registry.smooth_publish r state cause [] []
  have hhandles := w.registry.handles c
  generalize w.registry.handle c = o at hhandles ⊢
  cases hhandles with
  | @announces id registration config t ids he =>
    have htable : w.registry.Smooth { w.registry with table := t } :=
      .of_eq rfl rfl (Table.keeps_announce he)
    exact ⟨_, hstill rfl, htable.trans (Registry.smooth_dispatch _)⟩
  | @withdraws id registration t he =>
    have htable : w.registry.Smooth { w.registry with table := t } :=
      .of_eq rfl rfl (Table.keeps_withdraw he)
    exact ⟨_, hstill rfl, htable.trans (Registry.smooth_dispatch _)⟩
  | refusesAnnounce => exact ⟨_, hstill rfl, .refl _⟩
  | refusesWithdraw => exact ⟨_, hstill rfl, .refl _⟩
  | connects =>
    have hconn : w.registry.Smooth { w.registry with connection := .connected } :=
      .of_eq rfl rfl fun _ => .refl _
    exact ⟨_, hstill rfl, hconn.trans (Registry.smooth_dispatch _)⟩
  | disconnects => exact ⟨_, hstill rfl, .of_detached rfl rfl fun _ => .refl _⟩
  | bootstraps => exact ⟨_, hstill rfl, .of_detached rfl rfl fun id => Table.keeps_reclaim _ id⟩
  | stores => exact ⟨_, hstill rfl, .of_eq rfl rfl fun _ => .refl _⟩
  | @drops n status hact hfatal =>
    have hsome : w.registry.active.isSome := by
      obtain ⟨a, ha, -⟩ := (Option.any_eq_true ..).mp hact
      rw [ha]
      rfl
    have hnews : w.news (.command (.failed n status)) = [.dropped w.registry.table.inFlight] := by
      rcases Registry.failure_fatal hfatal with rfl | rfl <;> simp [news, hact]
    rw [hnews]
    exact ⟨_, .dropped hsome, (Registry.smooth_release _ n).trans (hpublish _ _ _)⟩
  | @awaits n status _ _ hpassing =>
    have hnews : w.news (.command (.failed n status)) = [] := by
      cases status <;> simp_all [news, Registry.failure]
    exact ⟨_, hstill hnews, hpublish _ _ _⟩
  | @goesOn n =>
    exact ⟨_, hstill rfl, (Registry.smooth_release w.registry n).trans (Registry.smooth_dispatch _)⟩
  | @rests n => exact ⟨_, hstill rfl, Registry.smooth_release w.registry n⟩
  | @ignores _ n hc hother =>
    have hnews : w.news (.command c) = [] := by
      rcases hother with hn | rfl
      · cases c <;> simp_all [news, Command.batch?]
      · simp [news]
    exact ⟨_, hstill hnews, .refl _⟩
  | clears => exact ⟨_, hstill rfl, .of_eq rfl rfl fun _ => .refl _⟩
  | looks => exact ⟨_, hstill rfl, .refl _⟩

theorem ripples_resume (h : Inv w) {call : StoreCall} (hc : w.asked = some call)
    (hok : w.shelf.failing = []) : ∃ t, Ripples w .reply t (w.news .reply) ∧
      Smooth { w.registry with table := t } (w.registry.resume (w.shelf.serve call).1).1 := by
  have hreplies := h.replies hc
  generalize (w.shelf.serve call).2 = shelf, w.registry.resume (w.shelf.serve call).1 = o
    at hreplies ⊢
  have hworks : ∀ op, ¬ w.shelf.failing.contains op = true := by simp [hok]
  cases hreplies with
  | stored _ hasked hwait =>
    have hnews : w.news .reply = [] := by simp [news, hwait]
    rw [hnews]
    exact ⟨_, .still, .of_eq rfl rfl fun _ => .refl _⟩
  | @erased n b _ hasked hwait =>
    have hnews : w.news .reply = [.applied w.registry.table.inFlight] := by
      simp [news, hwait, hasked, Simulation.Shelf.serve, hok]
    rw [hnews]
    have hland := Registry.smooth_confirm { w.registry with waiting := none } n
    exact ⟨_, .applied n rfl hwait, hland.issued, hland.active, hland.keeps⟩
  | unstored _ hfails =>
    rcases hfails with ⟨-, hfail⟩ | ⟨-, hfail⟩ <;> exact absurd hfail (hworks _)
  | loaded hasked hwait =>
    have hnews : w.news .reply = [.found (w.registry.table.reconcile w.shelf.configs).2] := by
      simp [news, hwait, hasked, Simulation.Shelf.serve, hok]
    rw [hnews]
    have hoffer := Registry.smooth_offerBatch { w.registry with waiting := none } w.shelf.configs
    exact ⟨_, .found rfl hwait, hoffer.issued, hoffer.active, hoffer.keeps⟩
  | unread _ hfail => exact absurd hfail (hworks _)
  | cleared hwait =>
    have hnews : w.news .reply = [] := by simp [news, hwait]
    rw [hnews]
    exact ⟨_, .still, .of_eq rfl rfl fun _ => .refl _⟩
  | uncleared _ hfail => exact absurd hfail (hworks _)

/-- **An input does what its news say.** What else it does to the table is smooth. -/
theorem ripples_outcome [DecidableEq ω] (h : Inv w) (hok : w.shelf.failing = []) (i : Input ω) :
    ∃ t, Ripples w i t (w.news i) ∧ Smooth { w.registry with table := t } (w.outcome i).1 := by
  cases i with
  | command c => exact ripples_handle c
  | reply =>
    unfold outcome
    dsimp only
    split
    · next call hc => exact ripples_resume h hc hok
    · next hc =>
      refine ⟨_, ?_, .refl _⟩
      unfold news
      rw [hc]
      split <;> simp_all [Ripples.still]
  | fail op on => exact ⟨_, .still, .refl _⟩
  | observe who => exact ⟨_, .still, .of_eq rfl rfl fun _ => .refl _⟩
  | unobserve who => exact ⟨_, .still, .of_eq rfl rfl fun _ => .refl _⟩
  | shutdown =>
    refine ⟨_, .still, ?_⟩
    unfold outcome Registry.shutdown
    dsimp only
    split
    · exact .refl _
    · exact .of_detached rfl rfl fun _ => .refl _
  | stop => exact ⟨_, .still, .of_detached rfl rfl fun _ => .refl _⟩

end Worker

/-! ## Waits -/
namespace Registry

variable {ω : Type} (r : Registry ω)

theorem waiting_dispatch : r.dispatch.1.waiting = r.waiting := by
  unfold dispatch
  split
  · rfl
  · split <;> rfl

theorem waiting_release (n : Nat) : (r.release n).1.waiting = r.waiting := by
  unfold release
  split <;> rfl

theorem waiting_confirm (n : Nat) : (r.confirm n).1.waiting = r.waiting := by
  unfold confirm andThen publish
  dsimp only
  rw [waiting_dispatch]
  exact waiting_release _ n

theorem waiting_offerBatch (stored : Configs) : (r.offerBatch stored).1.waiting = r.waiting := by
  obtain ⟨hub, heq⟩ := r.compare_frame stored
  have hoffer : ∀ r' : Registry ω, r'.offer.1.waiting = r'.waiting := by
    intro r'
    unfold offer
    split <;> rfl
  rw [offerBatch_eq]
  show (r.compare stored).1.offer.1.waiting = _
  rw [hoffer, heq]

/-- A command lets the registry wait for a load, a clearing, or for the configs of the
outstanding batch to be stored. -/
theorem waiting_handle (hw : r.waiting = none) (c : Command) :
    (r.handle c).1.waiting = none ∨ (r.handle c).1.waiting = some .loading ∨
      (c = .clearStore ∧ (r.handle c).1.waiting = some .clearing) ∨
      ∃ n announced withdrawn, c = .completed n announced withdrawn ∧ r.isActive n = true ∧
        (r.handle c).1.table = r.table ∧
        (r.handle c).1.waiting = some (.storing n withdrawn.keys) := by
  have hhandles := r.handles c
  generalize r.handle c = o at hhandles ⊢
  cases hhandles with
  | announces => exact .inl ((waiting_dispatch _).trans hw)
  | withdraws => exact .inl ((waiting_dispatch _).trans hw)
  | refusesAnnounce => exact .inl hw
  | refusesWithdraw => exact .inl hw
  | connects => exact .inl ((waiting_dispatch _).trans hw)
  | disconnects => exact .inl hw
  | bootstraps => exact .inr (.inl rfl)
  | @stores n announced withdrawn hact =>
    exact .inr (.inr (.inr ⟨n, announced, withdrawn, rfl, hact, rfl, rfl⟩))
  | @drops n => exact .inl ((waiting_release _ n).trans hw)
  | awaits => exact .inl hw
  | @goesOn n => exact .inl ((waiting_dispatch _).trans ((waiting_release r n).trans hw))
  | @rests n => exact .inl ((waiting_release r n).trans hw)
  | ignores => exact .inl hw
  | clears => exact .inr (.inr (.inl ⟨rfl, rfl⟩))
  | looks => exact .inl hw

end Registry

namespace Worker

variable {ω : Type} {w : Worker ω} [DecidableEq ω]

/-- What an input does to the store and to the wait for it, when no operation
of the store fails and none empties it. -/
inductive Proceeds (w : Worker ω) (i : Input ω) : Prop where
  /-- Nothing happens there. -/
  | stays (waiting : (w.step i).registry.waiting = w.registry.waiting)
      (table : (w.step i).registry.table = w.registry.table)
      (configs : (w.step i).shelf.configs = w.shelf.configs)
  /-- A command is dealt with at once or asks for a load, or a load is there. -/
  | rests (before : w.registry.waiting = none ∨ w.registry.waiting = some .loading)
      (waiting : (w.step i).registry.waiting = none ∨
        (w.step i).registry.waiting = some .loading)
      (configs : (w.step i).shelf.configs = w.shelf.configs)
  /-- The outstanding batch is said to be completed. -/
  | stores (n : Nat) (announced withdrawn : Configs)
      (input : i = .command (.completed n announced withdrawn))
      (outstanding : w.registry.isActive n = true)
      (before : w.registry.waiting = none)
      (waiting : (w.step i).registry.waiting = some (.storing n withdrawn.keys))
      (table : (w.step i).registry.table = w.registry.table)
      (configs : (w.step i).shelf.configs = w.shelf.configs)
  /-- Its configs are stored. -/
  | stored (n : Nat) (ids : List String) (before : w.registry.waiting = some (.storing n ids))
      (waiting : (w.step i).registry.waiting = some (.erasing n))
      (table : (w.step i).registry.table = w.registry.table)
      (configs : ∀ id, (w.step i).shelf.configs.get? id =
        (w.registry.table.inFlight.announced.get? id <|> w.shelf.configs.get? id))
  /-- Its ids are erased. -/
  | erased (n : Nat) (before : w.registry.waiting = some (.erasing n))
      (news : w.news i = [.applied w.registry.table.inFlight])
      (waiting : (w.step i).registry.waiting = none)
      (configs : ∀ id, (w.step i).shelf.configs.get? id =
        if id ∈ w.registry.table.inFlight.withdrawn.keys then none else w.shelf.configs.get? id)

theorem proceeds_reply (h : Inv w) {call : StoreCall} (hc : w.asked = some call)
    (hok : w.shelf.failing = []) (hspared : w.registry.waiting ≠ some .clearing) :
    Proceeds w .reply := by
  have hregistry : (w.step .reply).registry = (w.registry.resume (w.shelf.serve call).1).1 := by
    rw [step, become_registry, outcome, hc]
  have hshelf : (w.step .reply).shelf = (w.shelf.serve call).2 := by
    rw [step, become_shelf, serve, hc]
  have hreplies := h.replies hc
  generalize (w.shelf.serve call).2 = shelf, w.registry.resume (w.shelf.serve call).1 = o
    at hreplies hregistry hshelf
  have hworks : ∀ op, ¬ w.shelf.failing.contains op = true := by simp [hok]
  cases hreplies with
  | @stored n b hb _ hwait =>
    refine .stored n _ hwait (by rw [hregistry]; rfl) (by rw [hregistry]; rfl) fun id => ?_
    rw [hshelf, hb.inFlight]
    exact StringMap.get?_foldl_insert w.shelf.configs b.announced id
  | @erased n b hb hasked hwait =>
    refine .erased n hwait ?_ (by rw [hregistry]; exact Registry.waiting_confirm _ n) fun id => ?_
    · simp [news, hwait, hasked, Simulation.Shelf.serve, hok]
    · rw [hshelf, hb.inFlight]
      exact StringMap.get?_foldl_erase w.shelf.configs b.withdrawn.keys id
  | unstored _ hfails =>
    rcases hfails with ⟨-, hfail⟩ | ⟨-, hfail⟩ <;> exact absurd hfail (hworks _)
  | loaded _ hwait =>
    exact .rests (.inr hwait) (.inl (by rw [hregistry]; exact Registry.waiting_offerBatch _ _))
      (by rw [hshelf])
  | unread _ hfail => exact absurd hfail (hworks _)
  | cleared hwait => exact absurd hwait hspared
  | uncleared hwait => exact absurd hwait hspared

theorem proceeds_step (h : Inv w) (hok : w.shelf.failing = [])
    (hspared : w.registry.waiting ≠ some .clearing) {i : Input ω} (hi : w.allows i = true)
    (hs : (Move.worker i).sparesStore = true) : Proceeds w i := by
  cases i with
  | command c =>
    simp only [allows, Bool.and_eq_true, Option.isNone_iff_eq_none] at hi
    have hw := h.waiting_eq_none hi.1
    have hregistry : (w.step (.command c)).registry = (w.registry.handle c).1 := by
      rw [step, become_registry]
      rfl
    have hshelf : (w.step (.command c)).shelf = w.shelf := by
      rw [step, become_shelf]
      rfl
    rcases w.registry.waiting_handle hw c with hn | hl | ⟨rfl, -⟩ | ⟨n, a, d, rfl, hact, ht, hst⟩
    · exact .rests (.inl hw) (.inl (by rw [hregistry, hn])) (by rw [hshelf])
    · exact .rests (.inl hw) (.inr (by rw [hregistry, hl])) (by rw [hshelf])
    · cases hs
    · exact .stores n a d rfl hact hw (by rw [hregistry, hst]) (by rw [hregistry, ht])
        (by rw [hshelf])
  | reply =>
    cases hc : w.asked with
    | none =>
      rw [allows, hc] at hi
      cases hi
    | some call => exact proceeds_reply h hc hok hspared
  | fail op on => exact .stays rfl rfl rfl
  | observe who =>
    refine .stays ?_ ?_ ?_
    · rw [step, become_registry]; rfl
    · rw [step, become_registry]; rfl
    · rw [step, become_shelf]; rfl
  | unobserve who => exact .stays rfl rfl rfl
  | shutdown =>
    refine .stays ?_ ?_ ?_
    · rw [step, become_registry, outcome, Registry.shutdown]; split <;> rfl
    · rw [step, become_registry, outcome, Registry.shutdown]; split <;> rfl
    · rw [step, become_shelf]; rfl
  | stop =>
    refine .stays ?_ ?_ ?_
    · rw [step, become_registry]; rfl
    · rw [step, become_registry]; rfl
    · rw [step, become_shelf]; rfl

/-- No operation of the store comes to fail. -/
theorem failing_step (hok : w.shelf.failing = []) {i : Input ω}
    (hs : (Move.worker i).sparesStore = true) : (w.step i).shelf.failing = [] := by
  rw [step, become_shelf]
  unfold serve
  split
  · split
    · next call _ =>
      unfold Simulation.Shelf.serve
      split
      · exact hok
      · cases call <;> exact hok
    · exact hok
  · next op on =>
    have hoff : on = false := by simpa [Move.sparesStore] using hs
    simp [Simulation.Shelf.fail, hok, hoff]
  · exact hok

end Worker

end Announcer
