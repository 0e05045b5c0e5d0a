import Announcer.Proofs.Sender.Call
import Announcer.Simulation.Publisher
/-!
# A sender and its publisher

A `Managed` sender is one with a publisher: besides what can be done with the
sender itself, the publisher can be asked to perform, can be given up, and goes when nobody holds
it. And where a stop and something else are there for a sender that waits for the service, it may
find either first: `resume` takes up what else is there, and `yield?` the stop.

Whatever happens is one of a few changes of the sender and its journal (`Change`), so what
every change keeps holds in every run. The journal tells when the sender found the stop
(`Remark.quit`), and then the attempt under way was not accepted (`inv_yield`).

Results: `change_step`, `inv_yield`, `sound_change`, `sound_run`.
-/
namespace Announcer

open Journal Simulation

variable {ω : Type}

/-- Whom an action tells something. -/
def Action.tells? : Action ω → Option ω
  | .reportFailure who _ => some who
  | .reportCompleted who _ => some who
  | _ => none

namespace Sender
variable {s : Sender ω} {now : Nat}

/-- A stopped sender that waits for the service finds that it was stopped, whatever else
is there. -/
def yield? (s : Sender ω) (now : Nat) : Option (Progress ω) :=
  if s.stopping && s.isAwaiting then some (s.conclude now "" .canceled) else none

/-- It ends the call. -/
theorem yield_cases {p : Progress ω} (h : s.yield? now = some p) :
    s.stopping = true ∧ s.isAwaiting = true ∧ p = { s with ack := .none }.finish false := by
  unfold yield? at h
  split at h
  · next hboth =>
    rw [Bool.and_eq_true] at hboth
    refine ⟨hboth.1, hboth.2, ?_⟩
    cases h
    simp [conclude, hboth.1]
  · cases h

/-- Only a sender that was not stopped hands over an event, and only who is attached is told. -/
structure Proper (s : Sender ω) (a : Action ω) : Prop where
  running : ∀ event, a = .transmit event → s.stopping = false
  attached : ∀ who ∈ a.tells?, s.observer = some who

theorem proper_of_silent {a : Action ω} (hsent : ∀ event, a ≠ .transmit event)
    (htold : a.tells? = none) : s.Proper a :=
  ⟨fun event he => absurd he (hsent event), by simp [htold]⟩

theorem proper_finish {success : Bool} {a : Action ω} (ha : a ∈ (s.finish success).2) :
    s.Proper a := by
  cases List.mem_singleton.mp ha
  exact proper_of_silent (by simp) rfl

theorem Setback.proper {status : Status} {p : Progress ω} (h : Setback s now status p)
    {a : Action ω} (ha : a ∈ p.2) : s.Proper a := by
  cases h with
  | tells hattached =>
    cases List.mem_singleton.mp ha
    refine ⟨by simp, ?_⟩
    rintro _ ⟨⟩
    exact hattached
  | pauses =>
    cases List.mem_singleton.mp ha
    exact proper_of_silent (by simp) rfl
  | ends => exact proper_finish ha

theorem proper_nextPart {a : Action ω} (ha : a ∈ s.nextPart.2) : s.Proper a := by
  unfold nextPart at ha
  dsimp only at ha
  split at ha
  · next who _ hattached =>
    cases List.mem_singleton.mp ha
    refine ⟨by simp, ?_⟩
    rintro _ ⟨⟩
    exact hattached
  · cases List.mem_singleton.mp ha
    exact proper_of_silent (by simp) rfl
  · split at ha
    · cases List.mem_singleton.mp ha
      exact proper_of_silent (by simp) rfl
    · cases ha

theorem Turn.proper {credentials : Credentials} {ids : EventIds} {p : Progress ω}
    (h : Turn s now credentials ids p) {a : Action ω} (ha : a ∈ p.2) : s.Proper a := by
  cases h with
  | transmits _ hrun =>
    cases List.mem_singleton.mp ha
    exact ⟨fun _ _ => hrun, by simp [Action.tells?]⟩
  | waits => cases ha
  | passes => exact { proper_nextPart ha with }
  | fails hwhy _ hset =>
    rcases List.mem_append.mp ha with ha | ha
    · rcases hwhy.rejects with rfl | ⟨bearer, rfl⟩
      · cases ha
      · cases List.mem_singleton.mp ha
        exact proper_of_silent (by simp) rfl
    · exact { hset.proper ha with }
  | goesOn _ hset => exact hset.proper ha
  | wakes => cases ha
  | stops => exact proper_finish ha
  | abandons => exact proper_finish ha
  | returns => exact proper_finish ha

end Sender

/-! ## Changes -/

theorem journal_note (log : Journal ω) (actions : List (Action ω)) :
    ∃ newest, note log actions = newest ++ log :=
  ⟨_, note_eq log actions⟩

/-- What can become of a sender and its journal. -/
inductive Change [DecidableEq ω] (x : Logged ω) : Logged ω → Prop
  | still : Change x x
  | cue (c : Cue ω) : Change x (x.step c)
  /-- A publisher that was asked to perform before refuses to. -/
  | refuses : Change x ⟨x.sender, .refused :: x.journal⟩
  | yields {now : Nat} {p : Sender.Progress ω} (h : x.sender.yield? now = some p) :
    Change x ⟨p.1, note (.quit :: x.journal) p.2⟩

/-- A sender and its publisher. -/
structure Managed (ω : Type) where
  publisher : Publisher
  logged : Logged ω

namespace Managed

/-- What can be done with a sender and its publisher, and what they can be left to do. -/
inductive Move (ω : Type) where
  | cue (c : Cue ω)
  | yield (now : Nat)
  | publisher (h : Handling)

variable [DecidableEq ω]

/-- A fresh publisher of a sender that nothing was done with. -/
def start (s : Sender ω) : Managed ω := ⟨.fresh, .start s⟩

/-- Carries out what the publisher does with its sender. -/
def order (x : Logged ω) : Order → Logged ω
  | .nothing => x
  | .refuse => ⟨x.sender, .refused :: x.journal⟩
  | .call => x.step .call
  | .stop => x.step (.receive .stop)

/-- What happens to the sender, and then the publisher performs no longer if the call has
returned. -/
def step (x : Managed ω) : Move ω → Managed ω
  | .cue c => settle ⟨x.publisher, x.logged.step c⟩
  | .yield now =>
    match x.logged.sender.yield? now with
    | some (s, actions) => settle ⟨x.publisher, s, note (.quit :: x.logged.journal) actions⟩
    | none => x
  | .publisher h =>
    let (p, o) := x.publisher.handle (x.logged.sender.phase = .idle) h
    ⟨p, order x.logged o⟩
where
  /-- Sees whether the call has returned. -/
  settle (x : Managed ω) : Managed ω :=
    if x.logged.sender.isFinished then { x with publisher := x.publisher.finish } else x

def run (x : Managed ω) (moves : List (Move ω)) : Managed ω := moves.foldl step x

theorem run_append (x : Managed ω) (before after : List (Move ω)) :
    x.run (before ++ after) = (x.run before).run after :=
  List.foldl_append

omit [DecidableEq ω] in
theorem logged_settle (x : Managed ω) : (step.settle x).logged = x.logged := by
  unfold step.settle
  split <;> rfl

theorem logged_cue (x : Managed ω) (c : Cue ω) : (x.step (.cue c)).logged = x.logged.step c :=
  logged_settle _

theorem logged_cues (x : Managed ω) (cues : List (Cue ω)) :
    (x.run (cues.map .cue)).logged = x.logged.run cues := by
  induction cues generalizing x with
  | nil => rfl
  | cons c cues ih =>
    calc (x.run ((c :: cues).map .cue)).logged
      _ = (x.step (.cue c)).logged.run cues := ih (x.step (.cue c))
      _ = x.logged.run (c :: cues) := by rw [logged_cue]; rfl

theorem logged_yield (x : Managed ω) {now : Nat} {p : Sender.Progress ω}
    (h : x.logged.sender.yield? now = some p) :
    (x.step (.yield now)).logged = ⟨p.1, note (.quit :: x.logged.journal) p.2⟩ := by
  simp only [step, h, logged_settle]

theorem logged_unyielding (x : Managed ω) {now : Nat} (h : x.logged.sender.yield? now = none) :
    (x.step (.yield now)).logged = x.logged := by
  simp only [step, h]

theorem logged_publisher (x : Managed ω) (h : Handling) : (x.step (.publisher h)).logged =
    order x.logged (x.publisher.handle (x.logged.sender.phase = .idle) h).2 := rfl

/-- Whatever is done is one of the changes. -/
theorem change_step (x : Managed ω) (m : Move ω) : Change x.logged (x.step m).logged := by
  cases m with
  | cue c =>
    rw [logged_cue]
    exact .cue c
  | yield now =>
    cases hyield : x.logged.sender.yield? now with
    | some p =>
      rw [logged_yield x hyield]
      exact .yields hyield
    | none =>
      rw [logged_unyielding x hyield]
      exact .still
  | publisher h =>
    rw [logged_publisher]
    cases (x.publisher.handle (x.logged.sender.phase = .idle) h).2 with
    | nothing => exact .still
    | refuse => exact .refuses
    | call => exact .cue .call
    | stop => exact .cue (.receive .stop)

/-- A journal only grows. -/
theorem journal_change {x y : Logged ω} (h : Change x y) :
    ∃ newest, y.journal = newest ++ x.journal := by
  cases h with
  | still => exact ⟨[], rfl⟩
  | cue c =>
    cases c with
    | call =>
      unfold Logged.step
      dsimp only
      split
      · exact ⟨[.called], rfl⟩
      · exact ⟨[.refused], rfl⟩
    | receive e => exact ⟨[.heard e], rfl⟩
    | resume now credentials ids =>
      unfold Logged.step
      dsimp only
      split
      · exact journal_note _ _
      · exact ⟨[], rfl⟩
  | refuses => exact ⟨[.refused], rfl⟩
  | yields =>
    obtain ⟨newest, hnewest⟩ := journal_note (.quit :: x.journal) _
    exact ⟨newest ++ [.quit], by rw [hnewest, List.append_cons]⟩

/-- What every change keeps is kept by every run. -/
theorem run_induction {P : Logged ω → Prop} (hkeep : ∀ {x y : Logged ω}, Change x y → P x → P y)
    {x : Managed ω} (h : P x.logged) (moves : List (Move ω)) : P (x.run moves).logged := by
  induction moves generalizing x with
  | nil => exact h
  | cons m moves ih => exact ih (hkeep (x.change_step m) h)

theorem journal_run (x : Managed ω) (moves : List (Move ω)) :
    ∃ newest, (x.run moves).logged.journal = newest ++ x.logged.journal := by
  refine run_induction (P := fun y => ∃ newest, y.journal = newest ++ x.logged.journal)
    ?_ ⟨[], rfl⟩ moves
  rintro y z hchange ⟨newest, hnewest⟩
  obtain ⟨newer, hnewer⟩ := journal_change hchange
  exact ⟨newer ++ newest, by rw [hnewer, hnewest, List.append_assoc]⟩

end Managed

/-! ## What every change keeps -/

namespace Delivery
variable {batch : Batch} {w : Bool} {log : Journal ω} {s : Sender ω} [DecidableEq ω]

/-- What was so before an action. -/
structure Restraint (earlier : Journal ω) (a : Action ω) : Prop where
  /-- Nothing is handed over after a stop. -/
  running : ∀ event, a = .transmit event → stopped earlier = false
  /-- Only who is attached is told. -/
  attached : ∀ who ∈ a.tells?, watcher earlier = some who
  asked : asked earlier = true

/-- Every action was restrained. -/
def Restrained : Journal ω → Prop
  | [] => True
  | .did a :: earlier => Restraint earlier a ∧ Restrained earlier
  | _ :: earlier => Restrained earlier

theorem Restrained.of_append {later earlier : Journal ω} (h : Restrained (later ++ earlier)) :
    Restrained earlier := by
  induction later with
  | nil => exact h
  | cons e later ih =>
    cases e with
    | did a => exact ih h.2
    | _ => exact ih h

/-- Before the call nothing was sent. -/
theorem Restrained.attempts_eq_nil (h : Restrained log) (ha : asked log = false) :
    attempts log = [] := by
  induction log with
  | nil => rfl
  | cons e log ih =>
    cases e with
    | did a => cases h.1.asked.symm.trans ha
    | heard x => rw [attempts, ih h ha, List.modifyHead_nil]
    | quit => rw [attempts, ih h ha, List.modifyHead_nil]
    | called => cases ha
    | refused => exact ih h ha

theorem restrained_note {actions : List (Action ω)} (h : Restrained log)
    (hw : watcher log = s.observer) (hs : stopped log = s.stopping) (ha : asked log = true)
    (hproper : ∀ a ∈ actions, s.Proper a) : Restrained (note log actions) := by
  induction actions generalizing log with
  | nil => exact h
  | cons a actions ih =>
    have hfirst := hproper a List.mem_cons_self
    refine ih ⟨⟨fun event he => ?_, fun who hwho => ?_, ha⟩, h⟩ hw hs ha
      fun b hb => hproper b (List.mem_cons_of_mem a hb)
    · rw [hs, hfirst.running event he]
    · rw [hw, hfirst.attached who hwho]

/-- How a sender and its journal fit, and that every action was restrained. -/
structure Sound (batch : Batch) (w : Bool) (x : Logged ω) : Prop extends Inv batch w x where
  asked : asked x.journal = true ↔ x.sender.phase ≠ .idle
  restrained : Restrained x.journal

theorem sound_step {x : Logged ω} (h : Sound batch w x) (c : Cue ω) :
    Sound batch w (x.step c) := by
  refine ⟨inv_step h.toInv c, asked_iff_step h.asked c, ?_⟩
  have hmoves := x.moves_step c
  generalize x.step c = y at hmoves ⊢
  cases hmoves with
  | asked => exact h.restrained
  | refused => exact h.restrained
  | hears e => exact h.restrained
  | turns hresume turn =>
    have hasked : asked x.journal = true :=
      h.asked.mpr (Sender.phase_ne_idle_of_resume hresume)
    exact restrained_note h.restrained h.watcher h.stopped hasked fun a ha => turn.proper ha
  | stays => exact h.restrained

/-- An attempt that is left for a stop is not accepted, and the call ends. -/
theorem inv_yield {x : Logged ω} (h : Inv batch w x) {now : Nat} {p : Sender.Progress ω}
    (hp : x.sender.yield? now = some p) : Inv batch w ⟨p.1, note (.quit :: x.journal) p.2⟩ := by
  obtain ⟨hstopping, hawaiting, rfl⟩ := Sender.yield_cases hp
  obtain ⟨a, earlier, hawaits, -⟩ := h.stands.awaits hawaiting
  have hquit : attempts (.quit :: x.journal) = a.quit :: earlier := by
    rw [attempts, hawaits.current, List.modifyHead_cons]
  have hongoing : Ongoing batch w (.quit :: x.journal) x.sender.parts := {
    returned := hawaits.returned
    completed := hawaits.completed
    remaining := by
      rw [accepted, hquit, List.countP_cons, Attempt.isAccepted_quit]
      exact hawaits.remaining
    left := hawaits.left }
  have hhonest : Honest batch w (.quit :: x.journal) := ⟨h.stopped.trans hstopping, h.honest⟩
  have hkept := kept_finish (s := { x.sender with ack := .none }) hongoing.mayReturn hhonest
  exact ⟨h.carried, h.awaitAck, h.watcher, h.stopped, hkept.honest, hkept.stands⟩

theorem sound_yield {x : Logged ω} (h : Sound batch w x) {now : Nat} {p : Sender.Progress ω}
    (hp : x.sender.yield? now = some p) : Sound batch w ⟨p.1, note (.quit :: x.journal) p.2⟩ := by
  have hinv := inv_yield h.toInv hp
  obtain ⟨-, hawaiting, rfl⟩ := Sender.yield_cases hp
  have hphase : x.sender.phase ≠ .idle := fun hidle => by
    rw [Sender.isAwaiting, hidle] at hawaiting
    cases hawaiting
  have hasked : asked (.quit :: x.journal) = true := h.asked.mpr hphase
  have hrestrained : Restrained (.quit :: x.journal) := h.restrained
  exact {
    hinv with
    asked := ⟨fun _ => Phase.noConfusion, fun _ => hasked⟩
    restrained := restrained_note hrestrained h.watcher h.stopped hasked
      fun a ha => { Sender.proper_finish ha with } }

/-- Whatever happens, the sender and its journal fit. -/
theorem sound_change {x y : Logged ω} (hc : Change x y) (h : Sound batch w x) :
    Sound batch w y := by
  cases hc with
  | still => exact h
  | cue c => exact sound_step h c
  | refuses => exact { h with stands := h.stands.congr rfl rfl rfl }
  | yields hp => exact sound_yield h hp

theorem sound_run {awaitAck : Bool} {ackTimeout : Nat} {retry : Backoff}
    (h : Sender.ofBatch? batch awaitAck ackTimeout retry = some s) (moves : List (Managed.Move ω)) :
    Sound batch awaitAck ((Managed.start s).run moves).logged := by
  refine Managed.run_induction sound_change ?_ moves
  exact {
    inv_start h with
    asked := by simp [Managed.start, Logged.start, asked, Sender.idle_of_ofBatch? h]
    restrained := trivial }

end Delivery

end Announcer
