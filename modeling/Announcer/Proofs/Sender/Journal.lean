import Announcer.Proofs.Sender.Turn
/-!
# The journal of a sender

A `Journal` holds what can be seen of a sender from outside: that it was asked to
send, what reached it, and what it did. It is the newest first. What a run has
achieved is read off the journal and not off the sender's state:

* `attempts` are the events that were handed to the transport, each with what
  the sender heard from then on until it did something else. What it had heard
  counts for nothing when it finds first that it was stopped (`quit`),
* `accepted` counts those that were accepted: the first answer is a success,
  and where an acknowledgement is needed, one with the event's correlation
  token came before the sender was stopped. It may come before the answer; the
  sender looks for it only behind the answer,
* `returned` is what the call has returned, and `completed` are the
  completions that were reported,
* `watcher` is the observer that is attached.

Results: `moves_step`, `accepted_heard`.
-/
namespace Announcer

variable {ω : Type}

/-- What can be done with a sender, and what it can be left to do. -/
inductive Cue (ω : Type) where
  /-- It is asked to send. -/
  | call
  | receive (x : Stimulus ω)
  /-- It does what it does by itself, if it does not wait. -/
  | resume (now : Nat) (credentials : Credentials) (ids : EventIds)

/-- What can be seen of a sender. -/
inductive Remark (ω : Type) where
  /-- It was asked to send. -/
  | called
  /-- It was asked again, and returned false at once. -/
  | refused
  | heard (x : Stimulus ω)
  | did (a : Action ω)
  /-- While it waited for the service it found that it was stopped, whatever else was there. -/
  | quit

abbrev Journal (ω : Type) := List (Remark ω)

/-- Writes down what was done, the first action first. -/
def note (log : Journal ω) (actions : List (Action ω)) : Journal ω :=
  actions.foldl (fun log a => .did a :: log) log

theorem note_eq (log : Journal ω) (actions : List (Action ω)) :
    note log actions = (actions.map .did).reverse ++ log := by
  induction actions generalizing log with
  | nil => rfl
  | cons a actions ih =>
    rw [List.map_cons, List.reverse_cons, List.append_assoc]
    exact ih (.did a :: log)

/-- A sender and its journal. -/
structure Logged (ω : Type) where
  sender : Sender ω
  journal : Journal ω

namespace Logged
variable [DecidableEq ω]

/-- A sender that nothing was done with. -/
def start (s : Sender ω) : Logged ω := ⟨s, []⟩

def step (x : Logged ω) : Cue ω → Logged ω
  | .call =>
    match x.sender.call? with
    | some s => ⟨s, .called :: x.journal⟩
    | none => ⟨x.sender, .refused :: x.journal⟩
  | .receive e => ⟨x.sender.receive e, .heard e :: x.journal⟩
  | .resume now credentials ids =>
    match x.sender.resume now credentials ids with
    | some (s, actions) => ⟨s, note x.journal actions⟩
    | none => x

def run (x : Logged ω) (cues : List (Cue ω)) : Logged ω := cues.foldl step x

theorem run_append (x : Logged ω) (before after : List (Cue ω)) :
    x.run (before ++ after) = (x.run before).run after :=
  List.foldl_append

/-- What holds at the start and is kept by every step holds after every run. -/
theorem run_induction {P : Logged ω → Prop} {x : Logged ω} (start : P x)
    (step : ∀ x c, P x → P (step x c)) (cues : List (Cue ω)) : P (x.run cues) := by
  induction cues generalizing x with
  | nil => exact start
  | cons c cues ih => exact ih (step x c start)

/-- What a cue can make of a sender and its journal. -/
inductive Moves (x : Logged ω) : Cue ω → Logged ω → Prop
  | asked (idle : x.sender.phase = .idle) :
    Moves x .call ⟨{ x.sender with phase := .token }, .called :: x.journal⟩
  | refused (busy : x.sender.phase ≠ .idle) : Moves x .call ⟨x.sender, .refused :: x.journal⟩
  | hears (e : Stimulus ω) : Moves x (.receive e) ⟨x.sender.receive e, .heard e :: x.journal⟩
  | turns {now : Nat} {credentials : Credentials} {ids : EventIds} {p : Sender.Progress ω}
      (resume : x.sender.resume now credentials ids = some p)
      (turn : x.sender.Turn now credentials ids p) :
    Moves x (.resume now credentials ids) ⟨p.1, note x.journal p.2⟩
  | stays {now : Nat} {credentials : Credentials} {ids : EventIds}
      (waits : x.sender.resume now credentials ids = none) : Moves x (.resume now credentials ids) x

theorem moves_step (x : Logged ω) (c : Cue ω) : x.Moves c (x.step c) := by
  unfold step
  cases c with
  | call =>
    unfold Sender.call?
    by_cases hidle : x.sender.phase = .idle
    · rw [if_pos hidle]
      exact .asked hidle
    · rw [if_neg hidle]
      exact .refused hidle
  | receive e => exact .hears e
  | resume now credentials ids =>
    dsimp only
    split
    · next hresume => exact .turns hresume (Sender.turn_resume hresume)
    · next hresume => exact .stays hresume

end Logged

/-! ## Attempts -/

/-- An event that was handed to the transport, with what followed. -/
structure Attempt (ω : Type) where
  event : Event
  /-- What the sender heard since then, the newest first, unless it quit. -/
  heard : List (Stimulus ω)
  /-- The sender has done nothing since then. -/
  isOpen : Bool

namespace Attempt

/-- The first answer. -/
def answerIn : List (Stimulus ω) → Option Status
  | [] => none
  | x :: earlier => (answerIn earlier).or x.answer?

/-- The acknowledgement came, and the sender was not stopped before. -/
def ackIn (correlation : String) : List (Stimulus ω) → Bool
  | [] => false
  | .acknowledge c :: earlier =>
    ackIn correlation earlier || (c = correlation && !earlier.any Stimulus.isStop)
  | _ :: earlier => ackIn correlation earlier

/-- What the transport answered. -/
def answer? (a : Attempt ω) : Option Status := answerIn a.heard

/-- The service has acknowledged the event. -/
def isAcknowledged (a : Attempt ω) : Bool := ackIn a.event.header.ids.correlation a.heard

/-- The event counts only once it is acknowledged. -/
def needsAck (awaitAck : Bool) (a : Attempt ω) : Bool :=
  awaitAck && a.event.header.name = ReportKind.addOrUpdate.name

/-- The attempt ended with success. -/
def isAccepted (awaitAck : Bool) (a : Attempt ω) : Bool :=
  a.answer? = some .successAccepted && (!a.needsAck awaitAck || a.isAcknowledged)

/-- The event was refused for good. -/
def isRefused (a : Attempt ω) : Bool :=
  a.answer? = some .badRequest || a.answer? = some .invalidAuth

def hear (x : Stimulus ω) (a : Attempt ω) : Attempt ω :=
  if a.isOpen then { a with heard := x :: a.heard } else a

def close (a : Attempt ω) : Attempt ω := { a with isOpen := false }

/-- The sender takes up nothing of what it heard. -/
def quit (a : Attempt ω) : Attempt ω := { a with heard := [], isOpen := false }

variable {a : Attempt ω} {w : Bool} {x : Stimulus ω}

@[simp] theorem event_close : a.close.event = a.event := rfl
@[simp] theorem isOpen_close : a.close.isOpen = false := rfl
@[simp] theorem isAccepted_close : a.close.isAccepted w = a.isAccepted w := rfl
@[simp] theorem isRefused_close : a.close.isRefused = a.isRefused := rfl

@[simp] theorem event_quit : a.quit.event = a.event := rfl
@[simp] theorem isAccepted_quit : a.quit.isAccepted w = false := rfl

@[simp] theorem event_hear : (a.hear x).event = a.event := by
  unfold hear
  split <;> rfl

@[simp] theorem isOpen_hear : (a.hear x).isOpen = a.isOpen := by
  unfold hear
  split <;> rfl

theorem hear_of_closed (h : a.isOpen = false) : a.hear x = a := by
  rw [hear, h]
  rfl

theorem hear_of_open (h : a.isOpen = true) : a.hear x = { a with heard := x :: a.heard } := by
  rw [hear, if_pos h]

/-- The first answer stands. -/
theorem answer?_hear {status : Status} (h : a.answer? = some status) :
    (a.hear x).answer? = some status := by
  unfold hear
  split
  · unfold answer? at h ⊢
    simp [answerIn, h]
  · exact h

theorem isAcknowledged_hear (h : a.isAcknowledged = true) : (a.hear x).isAcknowledged = true := by
  unfold hear
  split
  · unfold isAcknowledged at h ⊢
    cases x <;> simp [ackIn, h]
  · exact h

theorem isAccepted_iff : a.isAccepted w = true ↔
    a.answer? = some .successAccepted ∧ (a.needsAck w = true → a.isAcknowledged = true) := by
  cases hn : a.needsAck w <;> simp [isAccepted, hn]

theorem isRefused_iff : a.isRefused = true ↔
    a.answer? = some .badRequest ∨ a.answer? = some .invalidAuth := by
  simp [isRefused]

/-- What was accepted stays so. -/
theorem isAccepted_hear (h : a.isAccepted w = true) : (a.hear x).isAccepted w = true := by
  obtain ⟨hanswer, hack⟩ := isAccepted_iff.mp h
  refine isAccepted_iff.mpr ⟨answer?_hear hanswer, fun hn => isAcknowledged_hear (hack ?_)⟩
  rw [← hn, needsAck, needsAck, event_hear]

theorem isRefused_of_isAccepted (h : a.isAccepted w = true) : a.isRefused = false := by
  simp [isRefused, (isAccepted_iff.mp h).1]

end Attempt

/-! ## What a journal tells -/
namespace Journal

/-- The events that were handed to the transport. -/
def attempts : Journal ω → List (Attempt ω)
  | [] => []
  | .did (.transmit event) :: log => ⟨event, [], true⟩ :: attempts log
  | .did _ :: log => (attempts log).modifyHead Attempt.close
  | .heard x :: log => (attempts log).modifyHead (Attempt.hear x)
  | .quit :: log => (attempts log).modifyHead Attempt.quit
  | _ :: log => attempts log

/-- How many events were accepted. -/
def accepted (awaitAck : Bool) (log : Journal ω) : Nat :=
  (attempts log).countP (Attempt.isAccepted awaitAck)

/-- What the call has returned, if it has. -/
def returned : Journal ω → List Bool
  | [] => []
  | .did (.finish success) :: log => success :: returned log
  | _ :: log => returned log

/-- The completions that were reported: to whom, and of what. -/
def completed : Journal ω → List (ω × Batch)
  | [] => []
  | .did (.reportCompleted who batch) :: log => (who, batch) :: completed log
  | _ :: log => completed log

/-- The sender was asked to send. -/
def asked : Journal ω → Bool
  | [] => false
  | .called :: _ => true
  | _ :: log => asked log

/-- The sender was stopped. -/
def stopped : Journal ω → Bool
  | [] => false
  | .heard x :: log => x.isStop || stopped log
  | _ :: log => stopped log

/-- The observer that is attached. Stopping detaches it, the first time. -/
def watcher [DecidableEq ω] : Journal ω → Option ω
  | [] => none
  | .heard (.observe who) :: _ => some who
  | .heard (.unobserve who) :: log => if watcher log = some who then none else watcher log
  | .heard .stop :: log => if stopped log then watcher log else none
  | _ :: log => watcher log

variable {log : Journal ω} {w : Bool}

/-! ## What becomes of the last attempt -/
section ModifyHead
variable {α : Type} {l : List α} {f : α → α}

theorem forall_modifyHead {p : α → Prop} (hl : ∀ a ∈ l, p a)
    (hf : ∀ a ∈ l.head?, p a → p (f a)) : ∀ a ∈ l.modifyHead f, p a := by
  cases l with
  | nil => simp
  | cons b l =>
    rw [List.modifyHead_cons, List.forall_mem_cons]
    rw [List.forall_mem_cons] at hl
    exact ⟨hf b rfl hl.1, hl.2⟩

theorem countP_modifyHead {p : α → Bool} (h : ∀ a ∈ l.head?, p (f a) = p a) :
    (l.modifyHead f).countP p = l.countP p := by
  cases l with
  | nil => rfl
  | cons a l => rw [List.modifyHead_cons, List.countP_cons, List.countP_cons, h a rfl]

end ModifyHead

/-! ## Hearing -/

/-- Nothing that is heard from now on decides about an event. -/
def Shut (w : Bool) (log : Journal ω) : Prop :=
  ∀ a ∈ (attempts log).head?, a.isOpen = false ∨ a.isAccepted w = true

/-- No event was refused. -/
def Calm (log : Journal ω) : Prop := ∀ a ∈ attempts log, a.isRefused = false

theorem shut_heard (h : Shut w log) (x : Stimulus ω) : Shut w (.heard x :: log) := by
  intro a ha
  rw [attempts, List.head?_modifyHead, Option.mem_def, Option.map_eq_some_iff] at ha
  obtain ⟨b, hb, rfl⟩ := ha
  rw [Attempt.isOpen_hear]
  exact (h b hb).imp_right Attempt.isAccepted_hear

theorem isAccepted_heard (h : Shut w log) (x : Stimulus ω) {a : Attempt ω}
    (ha : a ∈ (attempts log).head?) : (a.hear x).isAccepted w = a.isAccepted w := by
  rcases h a ha with hclosed | hacc
  · rw [Attempt.hear_of_closed hclosed]
  · rw [hacc, Attempt.isAccepted_hear hacc]

theorem accepted_heard (h : Shut w log) (x : Stimulus ω) :
    accepted w (.heard x :: log) = accepted w log :=
  countP_modifyHead fun _ => isAccepted_heard h x

theorem calm_heard (h : Shut w log) (hc : Calm log) (x : Stimulus ω) : Calm (.heard x :: log) := by
  refine forall_modifyHead hc fun a ha hcalm => ?_
  rcases h a ha with hclosed | hacc
  · rw [Attempt.hear_of_closed hclosed]
    exact hcalm
  · exact Attempt.isRefused_of_isAccepted (Attempt.isAccepted_hear hacc)

/-! ## Acting -/

/-- Whatever a sender does, but for a next attempt, closes the last one. -/
theorem attempts_did {a : Action ω} (h : ∀ event, a ≠ .transmit event) :
    attempts (.did a :: log) = (attempts log).modifyHead Attempt.close := by
  cases a with
  | transmit event => exact absurd rfl (h event)
  | _ => rfl

theorem shut_did {a : Action ω} (h : ∀ event, a ≠ .transmit event) : Shut w (.did a :: log) := by
  intro q hq
  rw [attempts_did h, List.head?_modifyHead, Option.mem_def, Option.map_eq_some_iff] at hq
  obtain ⟨b, -, rfl⟩ := hq
  exact .inl rfl

theorem accepted_did {a : Action ω} (h : ∀ event, a ≠ .transmit event) :
    accepted w (.did a :: log) = accepted w log := by
  rw [accepted, attempts_did h]
  exact countP_modifyHead fun _ _ => Attempt.isAccepted_close

theorem calm_did {a : Action ω} (h : ∀ event, a ≠ .transmit event) (hc : Calm log) :
    Calm (.did a :: log) := by
  rw [Calm, attempts_did h]
  exact forall_modifyHead hc fun _ _ hcalm => hcalm

/-- Nothing counts as accepted only because the sender quits. -/
theorem accepted_quit_le : accepted w (.quit :: log) ≤ accepted w log := by
  unfold accepted
  rw [attempts]
  cases attempts log with
  | nil => exact Nat.le_refl _
  | cons a rest =>
    rw [List.modifyHead_cons, List.countP_cons, List.countP_cons, Attempt.isAccepted_quit]
    exact Nat.add_le_add_left (Nat.zero_le _) _

theorem shut_quit : Shut w (.quit :: log) := by
  intro q hq
  rw [attempts, List.head?_modifyHead, Option.mem_def, Option.map_eq_some_iff] at hq
  obtain ⟨b, -, rfl⟩ := hq
  exact .inl rfl

theorem returned_setback {a : Action ω} (h : a.isSetback = true) :
    returned (.did a :: log) = returned log := by
  cases a <;> first | rfl | cases h

theorem completed_setback {a : Action ω} (h : a.isSetback = true) :
    completed (.did a :: log) = completed log := by
  cases a <;> first | rfl | cases h

theorem ne_transmit_of_isSetback {a : Action ω} (h : a.isSetback = true) (event : Event) :
    a ≠ .transmit event := by
  rintro rfl
  cases h

theorem stopped_note (actions : List (Action ω)) : stopped (note log actions) = stopped log := by
  induction actions generalizing log with
  | nil => rfl
  | cons a actions ih => exact ih

theorem asked_note (actions : List (Action ω)) : asked (note log actions) = asked log := by
  induction actions generalizing log with
  | nil => rfl
  | cons a actions ih => exact ih

theorem watcher_note [DecidableEq ω] (actions : List (Action ω)) :
    watcher (note log actions) = watcher log := by
  induction actions generalizing log with
  | nil => rfl
  | cons a actions ih => exact ih

end Journal

end Announcer
