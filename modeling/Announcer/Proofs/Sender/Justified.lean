import Announcer.Proofs.Sender.Journal
/-!
# What justifies the actions of a sender

A sender hands the parts of its batch to the transport in order, each as often as
it takes to get it accepted, and never again after that. `Justified` says what
must have happened before each of its actions:

* before an event of a part, exactly the parts ahead of it were accepted, none was refused
  for good, and the call has not returned,
* before a completion is reported, every part was accepted, and no completion was reported,
* when the call returns, it returns true exactly when every part was accepted; by then the
  completion was reported, unless nobody was there to be told.

An attempt that the sender leaves for a stop was not accepted, and only a sender that was
stopped leaves one.

Results: `Honest.of_append`, `tries_of_ordered`, `Honest.delivers`.
-/
namespace Announcer

open Journal

variable {ω : Type}

/-- An event that carries the part, under some token and identifiers. -/
def Part.Makes (part : Part) (event : Event) : Prop :=
  ∃ token ids, Event.build part.kind part.configs token ids = .ok event

namespace Delivery

/-! ## What is claimed of a journal -/

/-- An event is handed to the transport. -/
structure MayTransmit (batch : Batch) (awaitAck : Bool) (earlier : Journal ω) (event : Event) :
    Prop where
  /-- It carries the part behind those that were accepted. -/
  current : ∃ part, batch.parts[accepted awaitAck earlier]? = some part ∧ part.Makes event
  calm : Calm earlier
  returned : returned earlier = []

/-- The completion is reported. -/
structure MayComplete [DecidableEq ω] (batch : Batch) (awaitAck : Bool) (earlier : Journal ω)
    (who : ω) (reported : Batch) : Prop where
  whole : reported = batch
  accepted : accepted awaitAck earlier = batch.parts.length
  attached : watcher earlier = some who
  first : completed earlier = []
  returned : returned earlier = []

/-- The call returns. -/
structure MayReturn [DecidableEq ω] (batch : Batch) (awaitAck : Bool) (earlier : Journal ω)
    (success : Bool) : Prop where
  first : returned earlier = []
  accepted : success = true ↔ accepted awaitAck earlier = batch.parts.length
  /-- A success was reported, if there was someone to tell. -/
  told : success = true → completed earlier = [] → watcher earlier = none
  untold : success = false → completed earlier = []

/-- What has happened before an action. -/
def Justified [DecidableEq ω] (batch : Batch) (awaitAck : Bool) (earlier : Journal ω) :
    Action ω → Prop
  | .transmit event => MayTransmit batch awaitAck earlier event
  | .reportCompleted who reported => MayComplete batch awaitAck earlier who reported
  | .finish success => MayReturn batch awaitAck earlier success
  | _ => True

/-- Events that try some parts in order, the newest first: each part at least once, up
to the one at `n`. -/
inductive Tries (parts : List Part) : Nat → List Event → Prop
  | none : Tries parts 0 []
  /-- The same part once more, or the first one. -/
  | again {n : Nat} {part : Part} {event : Event} {events : List Event} (h : Tries parts n events)
      (current : parts[n]? = some part) (makes : part.Makes event) : Tries parts n (event :: events)
  /-- The part behind. -/
  | next {n : Nat} {part : Part} {event last : Event} {events : List Event}
      (h : Tries parts n (last :: events)) (current : parts[n + 1]? = some part)
      (makes : part.Makes event) : Tries parts (n + 1) (event :: last :: events)

/-- What a sender of `batch` has done, as far as its journal tells. -/
structure Delivers [DecidableEq ω] (batch : Batch) (awaitAck : Bool) (log : Journal ω) : Prop where
  justified : ∀ later a earlier, log = later ++ .did a :: earlier →
    Justified batch awaitAck earlier a
  quits : ∀ later earlier, log = later ++ .quit :: earlier → stopped earlier = true
  inOrder : ∃ n, Tries batch.parts n ((attempts log).map Attempt.event)

/-! ## From event to event -/

variable {batch : Batch} {w : Bool} {log : Journal ω}

/-- Every event carries the part behind those that were accepted before it. -/
def Ordered (parts : List Part) (w : Bool) : List (Attempt ω) → Prop
  | [] => True
  | a :: earlier =>
    (∃ part, parts[earlier.countP (Attempt.isAccepted w)]? = some part ∧ part.Makes a.event) ∧
      Ordered parts w earlier

theorem Ordered.modifyHead {parts : List Part} {attempts : List (Attempt ω)}
    {f : Attempt ω → Attempt ω} (hf : ∀ a, (f a).event = a.event) (h : Ordered parts w attempts) :
    Ordered parts w (attempts.modifyHead f) := by
  cases attempts with
  | nil => trivial
  | cons a earlier =>
    refine ⟨?_, h.2⟩
    rw [hf]
    exact h.1

/-- When every event carries the part behind those accepted before it, the parts are
tried in order: the next one follows as soon as one is accepted, and not before. -/
theorem tries_of_ordered {parts : List Part} (a : Attempt ω) (earlier : List (Attempt ω))
    (h : Ordered parts w (a :: earlier)) :
    Tries parts (earlier.countP (Attempt.isAccepted w)) ((a :: earlier).map Attempt.event) := by
  induction earlier generalizing a with
  | nil =>
    obtain ⟨⟨part, hpart, hmakes⟩, -⟩ := h
    exact .again .none hpart hmakes
  | cons b earlier ih =>
    obtain ⟨⟨part, hpart, hmakes⟩, hrest⟩ := h
    have hb := ih b hrest
    rw [List.countP_cons] at hpart ⊢
    cases hacc : b.isAccepted w with
    | true =>
      rw [hacc, if_pos rfl] at hpart
      exact .next hb hpart hmakes
    | false =>
      rw [hacc, if_neg Bool.false_ne_true] at hpart
      exact .again hb hpart hmakes

/-! ## From action to action -/

variable [DecidableEq ω]

/-- Every action was justified, and no attempt was left without a stop. -/
def Honest (batch : Batch) (w : Bool) : Journal ω → Prop
  | [] => True
  | .did a :: earlier => Justified batch w earlier a ∧ Honest batch w earlier
  | .quit :: earlier => stopped earlier = true ∧ Honest batch w earlier
  | _ :: earlier => Honest batch w earlier

theorem Honest.of_append {later earlier : Journal ω} (h : Honest batch w (later ++ earlier)) :
    Honest batch w earlier := by
  induction later with
  | nil => exact h
  | cons e later ih =>
    cases e with
    | did a => exact ih h.2
    | quit => exact ih h.2
    | _ => exact ih h

theorem Honest.ordered {log : Journal ω} (h : Honest batch w log) :
    Ordered batch.parts w (attempts log) := by
  induction log with
  | nil => trivial
  | cons e log ih =>
    cases e with
    | did a =>
      cases a with
      | transmit event => exact ⟨h.1.current, ih h.2⟩
      | _ => exact (ih h.2).modifyHead fun _ => Attempt.event_close
    | quit => exact (ih h.2).modifyHead fun _ => Attempt.event_quit
    | heard x => exact (ih h).modifyHead fun _ => Attempt.event_hear
    | called => exact ih h
    | refused => exact ih h

theorem Honest.delivers (h : Honest batch w log) : Delivers batch w log := by
  refine ⟨fun later a earlier he => ?_, fun later earlier he => ?_, ?_⟩
  · rw [he] at h
    exact h.of_append.1
  · rw [he] at h
    exact h.of_append.1
  have hordered := h.ordered
  cases hlog : attempts log with
  | nil => exact ⟨0, .none⟩
  | cons a earlier => exact ⟨_, tries_of_ordered a earlier (hlog ▸ hordered)⟩

end Delivery

end Announcer
