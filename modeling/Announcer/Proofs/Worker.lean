import Announcer.Registry
import Announcer.Simulation.Shelf
/-!
# The registry at work

A `Worker` is a registry with its store and a record of what it handed to
senders. Its surroundings decide what comes next and in which order: commands
of callers, changes of the connection, the outcome of any batch made so far (late, or
more than once), replies of the store, operations of the store that begin to
fail, observers, and the end. Only two things are certain: while the store is at
work no other command is taken up, and a batch that is said to be completed is
named with the configs it was made of.

`Handles` lists all that a command can come to, and `become_andThen` takes the
effects apart, so that a proof about the worker goes through a command one piece at a
time and never opens the registry's own functions.
-/
namespace Announcer

open Simulation (Shelf StoreOp)

/-- The batch whose outcome a command is. -/
def Command.batch? : Command → Option Nat
  | .completed n _ _ => some n
  | .failed n _ => some n
  | .ended n => some n
  | _ => none

/-! ## The two halves of a bootstrap -/
namespace Registry

variable {ω : Type}

/-- Compares the table with what is stored, and tells the observers what need not be
sent. -/
def compare (r : Registry ω) (stored : Configs) : Outcome ω :=
  let (table, unchanged) := r.table.reconcile stored
  if unchanged.isEmpty then ({ r with table }, [])
  else { r with table }.publish .success .success unchanged []

/-- Offers all that is pending as one batch. -/
def offer (r : Registry ω) : Outcome ω :=
  match r.table.takeAll with
  | (table, none) => { r with table }.answer (.operation none)
  | (table, some batch) =>
    andThen ({ r with table }.activate batch fun number => .offer number batch) fun r =>
      r.answer (.operation (some (r.issued, batch)))

theorem offerBatch_eq (r : Registry ω) (stored : Configs) :
    r.offerBatch stored = andThen (r.compare stored) offer := rfl

theorem compare_frame (r : Registry ω) (stored : Configs) :
    ∃ hub, (r.compare stored).1 = { r with table := (r.table.reconcile stored).1, hub } := by
  unfold compare
  dsimp only
  split
  · exact ⟨r.hub, rfl⟩
  · exact ⟨_, rfl⟩

/-! ## What a command does -/

/-- All that a command can come to. -/
inductive Handles (r : Registry ω) : Command → Outcome ω → Prop where
  | announces {id registration config t ids}
      (taken : r.table.announce id registration config = .ok (t, ids)) :
      Handles r (.announce id registration config)
        (andThen ({ r with table := t }.answer .accepted) dispatch)
  | withdraws {id registration t} (taken : r.table.withdraw id registration = .ok t) :
      Handles r (.withdraw id registration)
        (andThen ({ r with table := t }.answer .accepted) dispatch)
  | refusesAnnounce {id registration config reason}
      (refused : r.table.announce id registration config = .error reason) :
      Handles r (.announce id registration config) (r.answer (.rejected reason))
  | refusesWithdraw {id registration reason}
      (refused : r.table.withdraw id registration = .error reason) :
      Handles r (.withdraw id registration) (r.answer (.rejected reason))
  | connects : Handles r (.connection .connected) { r with connection := .connected }.dispatch
  | disconnects :
      Handles r (.connection .disconnected) { r with connection := .disconnected }.detach
  | bootstraps : Handles r .bootstrap
      (andThen r.detach fun r => { r with table := r.table.reclaim.1 }.ask .loadAll .loading)
  | stores {n announced withdrawn} (current : r.isActive n = true) :
      Handles r (.completed n announced withdrawn)
        (r.ask (.storeAll announced) (.storing n withdrawn.keys))
  /-- The outstanding batch is refused for good. -/
  | drops {n status} (current : r.isActive n = true) (final : (failure status).1 = .fatalError) :
      Handles r (.failed n status)
        (andThen ({ r with table := r.table.abandon.1 }.release n) fun r =>
          r.publish (failure status).1 (failure status).2 [] [])
  /-- The outstanding batch is refused for now. -/
  | awaits {n status} (current : r.isActive n = true) (failed : status ≠ .successAccepted)
      (passing : (failure status).1 ≠ .fatalError) :
      Handles r (.failed n status) (r.publish (failure status).1 (failure status).2 [] [])
  | goesOn {n} (current : r.isActive n = true) (pending : (r.release n).1.table.hasPending = true) :
      Handles r (.ended n) (andThen (r.release n) dispatch)
  | rests {n} (current : r.isActive n = true) (done : (r.release n).1.table.hasPending = false) :
      Handles r (.ended n) (r.release n)
  /-- An outcome that says nothing of the outstanding batch. -/
  | ignores {c n} (outcome : c.batch? = some n)
      (other : r.isActive n = false ∨ c = .failed n .successAccepted) : Handles r c (r, [])
  | clears : Handles r .clearStore (r.ask .clear .clearing)
  | looks : Handles r .snapshot (r.answer (.parts r.table.snapshot))

/-- The outcome of a batch that is not outstanding does nothing. -/
theorem handle_of_batch? {r : Registry ω} {c : Command} {n : Nat} (hc : c.batch? = some n)
    (hn : r.isActive n = false) : r.handle c = (r, []) := by
  cases c with
  | completed n' announced withdrawn =>
    cases hc
    simp [handle, hn]
  | failed n' status =>
    cases hc
    simp [handle, hn]
  | ended n' =>
    cases hc
    simp [handle, hn]
  | announce => cases hc
  | withdraw => cases hc
  | connection => cases hc
  | bootstrap => cases hc
  | clearStore => cases hc
  | snapshot => cases hc

theorem handles (r : Registry ω) (c : Command) : r.Handles c (r.handle c) := by
  by_cases hstale : ∃ n, c.batch? = some n ∧ r.isActive n = false
  · obtain ⟨n, hc, hn⟩ := hstale
    rw [handle_of_batch? hc hn]
    exact .ignores hc (.inl hn)
  have hactive : ∀ n, c.batch? = some n → r.isActive n = true := by simpa using hstale
  cases c with
  | announce id registration config =>
    unfold handle
    dsimp only
    split
    · next t ids he => exact .announces he
    · next reason he => exact .refusesAnnounce he
  | withdraw id registration =>
    unfold handle
    dsimp only
    split
    · next t he => exact .withdraws he
    · next reason he => exact .refusesWithdraw he
  | connection state =>
    cases state with
    | connected => exact .connects
    | disconnected => exact .disconnects
  | bootstrap => exact .bootstraps
  | completed n announced withdrawn =>
    have hn := hactive n rfl
    rw [handle, if_pos hn]
    exact .stores hn
  | failed n status =>
    have hn := hactive n rfl
    by_cases hs : status = .successAccepted
    · subst hs
      rw [handle, if_pos (by simp [Status.isSuccess])]
      exact .ignores rfl (.inr rfl)
    · rw [handle, if_neg (by simp [hn, hs, Status.isSuccess])]
      dsimp only
      split
      · next hf => exact .drops hn hf
      · next hf => exact .awaits hn hs hf
  | ended n =>
    have hn := hactive n rfl
    rw [handle, if_pos hn]
    cases hp : (r.release n).1.table.hasPending with
    | true =>
      have : r.Handles (.ended n) (andThen (r.release n) dispatch) := .goesOn hn hp
      simpa [andThen, hp] using this
    | false =>
      have : r.Handles (.ended n) (r.release n) := .rests hn hp
      simpa [andThen, hp] using this
  | clearStore => exact .clears
  | snapshot => exact .looks

/-- A refusal for good is one of two. -/
theorem failure_fatal {status : Status} (h : (failure status).1 = .fatalError) :
    status = .invalidAuth ∨ status = .badRequest := by
  cases status <;> simp_all [failure]

end Registry

/-! ## Workers -/

/-- A registry, its store, and what became of its effects. -/
structure Worker (ω : Type) where
  registry : Registry ω
  shelf : Shelf
  /-- What the store is at work on. -/
  asked : Option StoreCall
  /-- Every batch that a sender was made for, with its number. -/
  issued : List (Nat × Batch)
  /-- The numbers of the batches whose sender was not stopped. -/
  live : List Nat

/-- What can happen to a worker. -/
inductive Input (ω : Type) where
  | command (c : Command)
  /-- The store comes to its reply. -/
  | reply
  /-- An operation of the store fails from now on, or no longer. -/
  | fail (op : StoreOp) (on : Bool)
  | observe (who : ω)
  | unobserve (who : ω)
  | shutdown
  | stop
  deriving DecidableEq, Repr

namespace Worker

variable {ω : Type}

/-- A worker that has done nothing yet. -/
def start (awaitAck : Bool) (shelf : Shelf) : Worker ω where
  registry := .start awaitAck
  shelf
  asked := none
  issued := []
  live := []

/-- Sees to an effect. -/
def carry (w : Worker ω) : Effect ω → Worker ω
  | .dispatch number batch _ =>
    { w with issued := (number, batch) :: w.issued, live := number :: w.live }
  | .offer number batch =>
    { w with issued := (number, batch) :: w.issued, live := number :: w.live }
  | .stop number => { w with live := w.live.filter (· ≠ number) }
  | .store call => { w with asked := some call }
  | .reply _ => w
  | .notify _ => w

/-- Lets the registry become something, and sees to the effects. -/
def become (w : Worker ω) (o : Registry.Outcome ω) : Worker ω :=
  o.2.foldl carry { w with registry := o.1 }

/-- What the registry makes of an input. -/
def outcome [DecidableEq ω] (w : Worker ω) : Input ω → Registry.Outcome ω
  | .command c => w.registry.handle c
  | .reply =>
    match w.asked with
    | some call => w.registry.resume (w.shelf.serve call).1
    | none => (w.registry, [])
  | .fail _ _ => (w.registry, [])
  | .observe who =>
    ({ w.registry with hub := (w.registry.hub.add who).1 },
      (w.registry.hub.add who).2.map .notify)
  | .unobserve who => ({ w.registry with hub := w.registry.hub.remove who }, [])
  | .shutdown => w.registry.shutdown
  | .stop => w.registry.stop

/-- What an input does to the store. -/
def serve (w : Worker ω) : Input ω → Worker ω
  | .reply =>
    match w.asked with
    | some call => { w with shelf := (w.shelf.serve call).2, asked := none }
    | none => w
  | .fail op on => { w with shelf := w.shelf.fail op on }
  | _ => w

/-- Takes one input. -/
def step [DecidableEq ω] (w : Worker ω) (i : Input ω) : Worker ω :=
  (w.serve i).become (w.outcome i)

/-- True when a command says nothing wrong about a batch. -/
def vouchesFor (w : Worker ω) : Command → Bool
  | .completed batch announced withdrawn => w.issued.contains (batch, ⟨announced, withdrawn⟩)
  | _ => true

/-- True for what can come next. -/
def allows (w : Worker ω) : Input ω → Bool
  | .command c => w.asked.isNone && w.vouchesFor c
  | .reply => w.asked.isSome
  | .stop => w.asked.isNone
  | _ => true

/-- Takes one input after the other. -/
def run [DecidableEq ω] (w : Worker ω) (inputs : List (Input ω)) : Worker ω := inputs.foldl step w

/-- Every input can come where it comes. -/
def possible [DecidableEq ω] : Worker ω → List (Input ω) → Bool
  | _, [] => true
  | w, i :: inputs => w.allows i && possible (w.step i) inputs

/-- Every input satisfies `p` where it comes. -/
def always [DecidableEq ω] (p : Worker ω → Input ω → Bool) : Worker ω → List (Input ω) → Bool
  | _, [] => true
  | w, i :: inputs => p w i && always p (w.step i) inputs

/-! ## Runs -/

section Runs
variable [DecidableEq ω]

theorem run_append (w : Worker ω) (before after : List (Input ω)) :
    w.run (before ++ after) = (w.run before).run after :=
  List.foldl_append

theorem possible_append (w : Worker ω) (before after : List (Input ω)) :
    w.possible (before ++ after) = (w.possible before && (w.run before).possible after) := by
  induction before generalizing w with
  | nil => rfl
  | cons i before ih =>
    rw [List.cons_append, possible, possible, ih, Bool.and_assoc]
    rfl

/-- What holds at the start and is kept by every step, the inputs so far being
known, holds after every run. -/
theorem run_induction {P : List (Input ω) → Worker ω → Prop} {w : Worker ω} (hstart : P [] w)
    (hstep : ∀ before v i, P before v → v.allows i = true → P (before ++ [i]) (v.step i))
    (inputs : List (Input ω)) (h : w.possible inputs = true) : P inputs (w.run inputs) := by
  -- the inputs taken already are what the induction is over
  suffices ∀ rest before v, P before v → v.possible rest = true →
      P (before ++ rest) (v.run rest) from this inputs [] w hstart h
  intro rest
  induction rest with
  | nil =>
    intro before v hv _
    rw [List.append_nil]
    exact hv
  | cons i rest ih =>
    intro before v hv hp
    simp only [possible, Bool.and_eq_true] at hp
    have := ih (before ++ [i]) (v.step i) (hstep before v i hv hp.1) hp.2
    rwa [List.append_assoc] at this

/-- What every possible step with an input that satisfies `p` keeps holds after a
run of such inputs. -/
theorem run_always {P : Worker ω → Prop} {p : Worker ω → Input ω → Bool}
    (hstep : ∀ v i, P v → v.allows i = true → p v i = true → P (v.step i))
    {w : Worker ω} (hstart : P w) {inputs : List (Input ω)} (hp : w.possible inputs = true)
    (ha : w.always p inputs = true) : P (w.run inputs) := by
  induction inputs generalizing w with
  | nil => exact hstart
  | cons i inputs ih =>
    simp only [possible, always, Bool.and_eq_true] at hp ha
    exact ih (hstep w i hstart hp.1 ha.1) hp.2 ha.2

end Runs

/-! ## Effects, piece by piece -/

theorem foldl_carry_registry (w : Worker ω) (effects : List (Effect ω)) :
    (effects.foldl carry w).registry = w.registry := by
  induction effects generalizing w with
  | nil => rfl
  | cons e effects ih =>
    rw [List.foldl_cons, ih]
    cases e <;> rfl

theorem foldl_carry_setRegistry (w : Worker ω) (effects : List (Effect ω)) (r : Registry ω) :
    { effects.foldl carry w with registry := r } =
      effects.foldl carry { w with registry := r } := by
  induction effects generalizing w with
  | nil => rfl
  | cons e effects ih =>
    rw [List.foldl_cons, List.foldl_cons, ih]
    cases e <;> rfl

@[simp] theorem become_registry (w : Worker ω) (o : Registry.Outcome ω) :
    (w.become o).registry = o.1 :=
  foldl_carry_registry _ _

@[simp] theorem become_shelf (w : Worker ω) (o : Registry.Outcome ω) :
    (w.become o).shelf = w.shelf := by
  unfold become
  generalize hv : { w with registry := o.1 } = v
  rw [show w.shelf = v.shelf from hv ▸ rfl]
  clear hv
  induction o.2 generalizing v with
  | nil => rfl
  | cons e effects ih =>
    rw [List.foldl_cons, ih]
    cases e <;> rfl

/-- Two things that are done one after the other. -/
theorem become_andThen (w : Worker ω) (o : Registry.Outcome ω)
    (f : Registry ω → Registry.Outcome ω) :
    w.become (Registry.andThen o f) = (w.become o).become (f (w.become o).registry) := by
  rw [become_registry]
  simp only [become, Registry.andThen, List.foldl_append]
  rw [foldl_carry_setRegistry]

@[simp] theorem become_answer (w : Worker ω) (r : Registry ω) (reply : Reply) :
    w.become (r.answer reply) = { w with registry := r } := rfl

theorem foldl_carry_notify (w : Worker ω) (ns : List (Note ω)) :
    (ns.map Effect.notify).foldl carry w = w := by
  induction ns with
  | nil => rfl
  | cons n ns ih => exact ih

@[simp] theorem become_notify (w : Worker ω) (r : Registry ω) (ns : List (Note ω)) :
    w.become (r, ns.map Effect.notify) = { w with registry := r } :=
  foldl_carry_notify _ _

@[simp] theorem become_publish (w : Worker ω) (r : Registry ω) (state : SyncState)
    (cause : SyncCause) (announced withdrawn : List String) :
    w.become (r.publish state cause announced withdrawn) =
      { w with registry := { r with hub := (r.hub.set state cause announced withdrawn).1 } } :=
  foldl_carry_notify _ _

@[simp] theorem become_compare (w : Worker ω) (r : Registry ω) (stored : Configs) :
    w.become (r.compare stored) = { w with registry := (r.compare stored).1 } := by
  unfold Registry.compare
  dsimp only
  split
  · rfl
  · rw [become_publish]
    rfl

@[simp] theorem become_ask (w : Worker ω) (r : Registry ω) (call : StoreCall) (wait : StoreWait) :
    w.become (r.ask call wait) =
      { w with registry := { r with waiting := some wait }, asked := some call } := rfl

theorem become_detach (w : Worker ω) (r : Registry ω) :
    w.become r.detach =
      { w with
        registry := { r with active := none }
        live := w.live.filter fun n => r.active.all (·.number ≠ n) } := by
  unfold Registry.detach become
  cases h : r.active with
  | none => simp [List.filter_eq_self.mpr]
  | some a =>
    simp only [Option.map_some, Option.toList_some, List.foldl_cons, List.foldl_nil, carry]
    simp [eq_comm]

end Worker

end Announcer
