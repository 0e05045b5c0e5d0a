import Announcer.Proofs.Sender.Progress
import Announcer.Proofs.Table.Batches
import Announcer.Proofs.Worker
/-!
# A registry with its senders

An `Exchange` is a worker with the senders that it made, and the outcomes that
these have posted. Nothing is assumed of the order in which things
happen: the transport answers when it likes, acknowledgements come at any time,
a sender goes on when it gets to it, and the registry takes up what was posted
late, in any order and more than once. A sender that was stopped may still find an answer.

The `history` is what matters for the service's view and the registry's: which events
were accepted, and which batches the registry has applied, dropped, or found
to be stored already. It is the newest first.
-/
namespace Announcer

/-- What decides whether registry and service agree. -/
inductive Happening where
  /-- An event was accepted; `late` when its batch had been given up before. -/
  | accepted (late : Bool) (parcel : Parcel)
  /-- The registry applied a batch. -/
  | applied (batch : Batch)
  /-- The registry dropped a batch that was refused for good. -/
  | dropped (batch : Batch)
  /-- A bootstrap found announcements stored already and did not send them. -/
  | found (ids : List String)
  deriving DecidableEq, Repr

structure Exchange (ω : Type) where
  /-- How long senders wait for an acknowledgement. -/
  ackTimeout : Nat
  /-- How senders wait between attempts. -/
  retry : Backoff
  worker : Worker ω
  /-- The sender of every batch. -/
  senders : Nat → Option (Sender Unit)
  /-- The outcomes that senders have reported. -/
  posted : List Command
  history : List Happening

/-- What can happen next. -/
inductive Move (ω : Type) where
  | worker (i : Input ω)
  /-- A sender that was offered is asked to send. -/
  | call (n : Nat)
  | receive (n : Nat) (x : Stimulus Unit)
  | resume (n : Nat) (now : Nat) (credentials : Credentials) (ids : EventIds)
  /-- The registry is told that a sender has come to its end. -/
  | report (n : Nat)

/-- True for what comes from outside of the registry. -/
def Stimulus.isOutside {ω : Type} : Stimulus ω → Bool
  | .observe _ => false
  | .unobserve _ => false
  | _ => true

/-- The outcome that a sender reports by an action. -/
def Action.outcome? {ω : Type} (n : Nat) : Action ω → Option Command
  | .reportFailure _ status => some (.failed n status)
  | .reportCompleted _ batch => some (.completed n batch.announced batch.withdrawn)
  | _ => none

/-- What an input makes of the batch that is on its way, or of what is stored. -/
def Worker.news {ω : Type} (w : Worker ω) : Input ω → List Happening
  | .command (.failed n status) =>
    if w.registry.isActive n && (status = .invalidAuth || status = .badRequest) then
      [.dropped w.registry.table.inFlight]
    else []
  | .reply =>
    match w.registry.waiting, w.asked.map fun call => (w.shelf.serve call).1 with
    | some (.erasing _), some .done => [.applied w.registry.table.inFlight]
    | some .loading, some (.loaded stored) => [.found (w.registry.table.reconcile stored).2]
    | _, _ => []
  | _ => []

namespace Exchange

variable {ω : Type}

/-- An exchange in which nothing has happened, with an empty store. -/
def start (awaitAck : Bool) (ackTimeout : Nat) (retry : Backoff) : Exchange ω where
  ackTimeout
  retry
  worker := .start awaitAck ⟨true, .empty, [], []⟩
  senders := fun _ => none
  posted := []
  history := []

/-- Puts a sender in the place of the one for its batch. -/
def setSender (x : Exchange ω) (n : Nat) (s : Sender Unit) : Exchange ω :=
  { x with senders := fun m => if m = n then some s else x.senders m }

/-- Makes the sender of a batch. The registry observes it. -/
def hire (x : Exchange ω) (n : Nat) (batch : Batch) (awaitAck : Bool)
    (prepare : Sender Unit → Sender Unit) : Exchange ω :=
  match Sender.ofBatch? batch awaitAck x.ackTimeout x.retry with
  | some s => x.setSender n (prepare (s.receive (.observe ())))
  | none => x

/-- Sees to an effect on senders. -/
def engage (x : Exchange ω) : Effect ω → Exchange ω
  | .dispatch n batch awaitAck => x.hire n batch awaitAck fun s => s.call?.getD s
  | .offer n batch => x.hire n batch true id
  | .stop n =>
    match x.senders n with
    | some s => x.setSender n (s.receive .stop)
    | none => x
  | _ => x

/-- The event that was accepted when the sender of batch `n` became `s'`. -/
def acceptance (x : Exchange ω) (n : Nat) (s s' : Sender Unit) : List Happening :=
  if !s.accepted && s'.accepted then
    (s.current?.map (.accepted (!x.worker.registry.isActive n))).toList
  else []

def step [DecidableEq ω] (x : Exchange ω) : Move ω → Exchange ω
  | .worker i =>
    (x.worker.outcome i).2.foldl engage { x with
      worker := x.worker.step i
      history := x.worker.news i ++ x.history }
  | .call n =>
    match x.senders n with
    | some s => x.setSender n (s.call?.getD s)
    | none => x
  | .receive n stimulus =>
    match x.senders n with
    | some s => { x.setSender n (s.receive stimulus) with
        history := x.acceptance n s (s.receive stimulus) ++ x.history }
    | none => x
  | .resume n now credentials ids =>
    match (x.senders n).bind fun s => s.resume now credentials ids with
    | some (s, actions) => { x.setSender n s with
        posted := actions.filterMap (Action.outcome? n) ++ x.posted }
    | none => x
  | .report n => { x with posted := .ended n :: x.posted }

/-- True for what can come next: an outcome was posted before, and a sender whose
end is reported has come to it. -/
def allows (x : Exchange ω) : Move ω → Bool
  | .worker (.command c) =>
    x.worker.asked.isNone && (c.batch?.isNone || x.posted.contains c)
  | .worker i => x.worker.allows i
  | .receive _ stimulus => stimulus.isOutside
  | .report n => (x.senders n).any Sender.isSettled
  | _ => true

def run [DecidableEq ω] (x : Exchange ω) (moves : List (Move ω)) : Exchange ω := moves.foldl step x

def possible [DecidableEq ω] : Exchange ω → List (Move ω) → Bool
  | _, [] => true
  | x, m :: moves => x.allows m && possible (x.step m) moves

end Exchange

/-- False for what makes the store fail or empties it. -/
def Move.sparesStore {ω : Type} : Move ω → Bool
  | .worker (.fail _ on) => !on
  | .worker (.command .clearStore) => false
  | _ => true

namespace Exchange

variable {ω : Type} [DecidableEq ω]

theorem run_induction {P : Exchange ω → Prop}
    (hstep : ∀ x m, P x → x.allows m = true → m.sparesStore = true → P (x.step m)) :
    ∀ (moves : List (Move ω)) (x : Exchange ω), P x → x.possible moves = true →
      (∀ m ∈ moves, m.sparesStore = true) → P (x.run moves) := by
  intro moves
  induction moves with
  | nil => intro x h _ _; exact h
  | cons m moves ih =>
    intro x h hp hm
    simp only [possible, Bool.and_eq_true] at hp
    exact ih (x.step m) (hstep x m h hp.1 (hm m List.mem_cons_self)) hp.2
      fun m' h' => hm m' (List.mem_cons_of_mem m h')

end Exchange

end Announcer
