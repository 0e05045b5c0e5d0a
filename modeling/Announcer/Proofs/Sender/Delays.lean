import Announcer.Proofs.Backoff
import Announcer.Proofs.Sender.Clock
/-!
# Delays between attempts

The delays of a call are those of one sequence, whatever is accepted in between: no delay is
skipped, and none is taken twice (`Drawn`). Between two events there is one delay exactly when the
former was not accepted, and the latter carries the same part (`Follows`). The delay is over when
that event is handed over: the sender goes on as soon as it is, and not before, and then waits for
nothing but a token.

The sequence is the one that the settings ask for, as long as whoever makes sequences does not round
(`Growth.Exact`); the settings are those that pass the checks, and time does not go back.

Results: `Wait.isOver_iff`, `pacing_step`, `timed_run`; `growing_run`.
-/
namespace Announcer

open Journal
open scoped ENNReal

variable {ω : Type}

/-! ## Waiting -/

/-- A delay, and the time at which it was begun. -/
structure Wait where
  since : Nat
  delay : Nat
  deriving DecidableEq, Repr

namespace Wait
variable {x : Wait} {now later : Nat}

def IsOver (x : Wait) (now : Nat) : Prop := x.since * nanosPerMilli + x.delay ≤ now * nanosPerMilli

/-- A timer rings in the first millisecond in which the delay is over. -/
theorem isOver_iff : x.IsOver now ↔ x.since + ringAfter x.delay ≤ now := by
  unfold IsOver ringAfter nanosPerMilli
  omega

theorem IsOver.mono (h : x.IsOver now) (hle : now ≤ later) : x.IsOver later := by
  rw [isOver_iff] at h ⊢
  exact h.trans hle

end Wait

/-! ## What a journal tells of delays -/
namespace Journal
variable {log : Journal ω} {w : Bool}

/-- The delays that were begun, the newest first. -/
def pauses : Journal ω → List Nat
  | [] => []
  | .did (.pause delay) :: log => delay :: pauses log
  | _ :: log => pauses log

/-- How many delays there are to be ahead of the next event: one if the last one was not
accepted. -/
def due (w : Bool) (log : Journal ω) : Nat :=
  if (attempts log).head?.any (fun a => !a.isAccepted w) then 1 else 0

theorem due_of_head {a : Attempt ω} {earlier : List (Attempt ω)} (h : attempts log = a :: earlier) :
    due w log = if a.isAccepted w then 0 else 1 := by
  rw [due, h]
  cases ha : a.isAccepted w <;> simp [ha]

/-- Nothing that is heard behind an attempt changes what is due. -/
theorem due_heard (h : Shut w log) (x : Stimulus ω) : due w (.heard x :: log) = due w log := by
  have hsame : (attempts (.heard x :: log)).head?.any (fun a => !a.isAccepted w) =
      (attempts log).head?.any (fun a => !a.isAccepted w) := by
    rw [attempts, List.head?_modifyHead]
    cases hlog : (attempts log).head? with
    | none => rfl
    | some a =>
      rw [Option.map_some, Option.any_some, Option.any_some, isAccepted_heard h x hlog]
  rw [due, due, hsame]

theorem due_did {a : Action ω} (h : ∀ event, a ≠ .transmit event) :
    due w (.did a :: log) = due w log := by
  rw [due, due, attempts_did h, List.head?_modifyHead, Option.any_map]
  rfl

end Journal

namespace Diary
variable {diary : Diary ω} {w : Bool} {now later : Nat}

/-- The delays that were begun since the last event was handed over. -/
def begun : Diary ω → List Wait
  | [] => []
  | (_, .did (.transmit _)) :: _ => []
  | (since, .did (.pause delay)) :: diary => ⟨since, delay⟩ :: begun diary
  | _ :: diary => begun diary

/-- There were as many delays as there are to be ahead of the next event, and they are over. -/
@[mk_iff]
structure Ahead (w : Bool) (diary : Diary ω) (now : Nat) : Prop where
  count : diary.begun.length = due w diary.journal
  isOver : ∀ x ∈ diary.begun, x.IsOver now

theorem Ahead.mono (h : Ahead w diary now) (hle : now ≤ later) : Ahead w diary later :=
  ⟨h.count, fun x hx => (h.isOver x hx).mono hle⟩

/-- So it was whenever an event was handed over. -/
def Paced (w : Bool) : Diary ω → Prop
  | [] => True
  | (now, .did (.transmit _)) :: diary => Ahead w diary now ∧ Paced w diary
  | _ :: diary => Paced w diary

theorem Paced.of_append {newer earlier : Diary ω} {event : Event}
    (h : Paced w (newer ++ (now, .did (.transmit event)) :: earlier)) : Ahead w earlier now := by
  induction newer with
  | nil => exact h.1
  | cons e newer ih =>
    obtain ⟨t, e⟩ := e
    cases e with
    | did a =>
      cases a with
      | transmit event => exact ih h.2
      | _ => exact ih h
    | _ => exact ih h

end Diary

namespace Delivery
variable {batch : Batch} {w : Bool} {log : Journal ω} {diary : Diary ω} {s : Sender ω}
  {fresh : Backoff} {clock now : Nat}

open Diary

/-! ## The sender and its delays -/

/-- The delays since the last event, phase by phase. -/
def Spaced (w : Bool) (clock : Nat) (diary : Diary ω) (s : Sender ω) : Prop :=
  match s.phase with
  | .idle | .token => Ahead w diary clock
  | .transport _ _ | .acknowledgement _ => diary.begun = []
  | .reporting _ _ => diary.begun = [] ∧ due w diary.journal = 1
  | .backoff deadline => due w diary.journal = 1 ∧
      ∃ x : Wait, diary.begun = [x] ∧ deadline = x.since + ringAfter x.delay
  | .completing _ | .done _ => diary.begun.length ≤ 1

theorem Spaced.le_one (h : Spaced w clock diary s) : diary.begun.length ≤ 1 := by
  unfold Spaced at h
  have hahead : Ahead w diary clock → diary.begun.length ≤ 1 := fun h => by
    rw [h.count, due]
    split <;> decide
  cases hp : s.phase with
  | idle => simp only [hp] at h; exact hahead h
  | token => simp only [hp] at h; exact hahead h
  | transport bearer answer => simp only [hp] at h; simp [h]
  | acknowledgement deadline => simp only [hp] at h; simp [h]
  | reporting status told => simp only [hp] at h; simp [h.1]
  | backoff deadline =>
    simp only [hp] at h
    obtain ⟨-, x, hx, -⟩ := h
    simp [hx]
  | completing told => simp only [hp] at h; exact h
  | done success => simp only [hp] at h; exact h

theorem Spaced.of_isAwaiting (h : Spaced w clock diary s) (hs : s.isAwaiting = true) :
    diary.begun = [] := by
  unfold Spaced at h
  unfold Sender.isAwaiting at hs
  cases hp : s.phase with
  | transport bearer answer => simpa only [hp] using h
  | acknowledgement deadline => simpa only [hp] using h
  | _ => simp [hp] at hs

theorem Spaced.mono (h : Spaced w clock diary s) (hle : clock ≤ now) : Spaced w now diary s := by
  unfold Spaced at h ⊢
  cases hp : s.phase with
  | idle => simp only [hp] at h; exact h.mono hle
  | token => simp only [hp] at h; exact h.mono hle
  | _ => simpa only [hp] using h

theorem Spaced.congr {diary' : Diary ω} (h : Spaced w clock diary s)
    (hb : diary'.begun = diary.begun) (hd : due w diary'.journal = due w diary.journal) :
    Spaced w clock diary' s := by
  simp only [Spaced, ahead_iff, hb, hd] at h ⊢
  exact h

/-- The delays so far are the first ones of a sequence, and `retry` is the rest of it. -/
structure Drawn (fresh : Backoff) (log : Journal ω) (retry : Backoff) : Prop where
  rest : ∀ k, retry.delay k = fresh.delay ((pauses log).length + k)
  delays : (pauses log).reverse = fresh.delays (pauses log).length

theorem Drawn.congr {log' : Journal ω} {retry : Backoff} (h : Drawn fresh log retry)
    (hp : pauses log' = pauses log) : Drawn fresh log' retry where
  rest := by rw [hp]; exact h.rest
  delays := by rw [hp]; exact h.delays

theorem Drawn.pause {retry : Backoff} (h : Drawn fresh log retry) :
    Drawn fresh (.did (.pause retry.current) :: log) retry.next where
  rest k := by
    rw [pauses, List.length_cons, Nat.add_assoc, Nat.add_comm 1 k]
    exact h.rest (k + 1)
  delays := by
    have hcurrent : retry.current = fresh.delay (pauses log).length := h.rest 0
    rw [pauses, List.reverse_cons, List.length_cons, h.delays, hcurrent, Backoff.delays,
      Backoff.delays, List.range_succ, List.map_append, List.map_singleton]

/-- The delays of a call come from one sequence, one between two attempts at one part. -/
structure Pacing (w : Bool) (fresh : Backoff) (clock : Nat) (diary : Diary ω) (s : Sender ω) :
    Prop where
  drawn : Drawn fresh diary.journal s.retry
  paced : Paced w diary
  spaced : Spaced w clock diary s

/-! ## What the sender does by itself -/

section Turns
variable {credentials : Credentials} {ids : EventIds} {p : Sender.Progress ω}

theorem pacing_finish (success : Bool) (hdrawn : Drawn fresh diary.journal s.retry)
    (hpaced : Paced w diary) (hle : diary.begun.length ≤ 1) :
    Pacing w fresh now (diary.note now (s.finish success).2) (s.finish success).1 where
  drawn := hdrawn.congr rfl
  paced := hpaced
  spaced := hle

/-- A failure is followed by one delay, if the call goes on at all. -/
theorem pacing_setback {status : Status} (hdrawn : Drawn fresh diary.journal s.retry)
    (hpaced : Paced w diary) (hbegun : diary.begun = []) (hdue : due w diary.journal = 1)
    (h : s.Setback now status p) : Pacing w fresh now (diary.note now p.2) p.1 := by
  cases h with
  | tells =>
    exact {
      drawn := hdrawn.congr rfl
      paced := hpaced
      spaced := ⟨hbegun, (due_did (by simp)).trans hdue⟩ }
  | pauses =>
    have hnew : begun ((now, .did (.pause s.retry.current)) :: diary) =
        [⟨now, s.retry.current⟩] := by
      rw [begun, hbegun]
    exact {
      drawn := hdrawn.pause
      paced := hpaced
      spaced := ⟨(due_did (by simp)).trans hdue, _, hnew, rfl⟩ }
  | ends => exact pacing_finish false hdrawn hpaced (by simp [hbegun])

/-- A success is followed by the next part without a delay. -/
theorem pacing_nextPart (hdrawn : Drawn fresh diary.journal s.retry) (hpaced : Paced w diary)
    (hbegun : diary.begun = []) (hdue : due w diary.journal = 0) :
    Pacing w fresh now (diary.note now s.nextPart.2) s.nextPart.1 := by
  have hle : diary.begun.length ≤ 1 := by simp [hbegun]
  unfold Sender.nextPart
  dsimp only
  split
  · exact ⟨hdrawn.congr rfl, hpaced, hle⟩
  · exact pacing_finish true hdrawn hpaced hle
  · split
    · exact pacing_finish false hdrawn hpaced hle
    · have hahead : Ahead w diary now := ⟨by rw [hbegun, hdue]; rfl, by simp [hbegun]⟩
      exact ⟨hdrawn, hpaced, hahead⟩

variable [DecidableEq ω]

theorem pacing_turn (hinv : Inv batch w ⟨s, diary.journal⟩) (h : Pacing w fresh clock diary s)
    (hclock : clock ≤ now) (hp : s.Turn now credentials ids p) :
    Pacing w fresh now (diary.note now p.2) p.1 := by
  obtain ⟨hdrawn, hpaced, hspaced⟩ := h
  have hle := hspaced.le_one
  cases hp with
  | transmits hphase =>
    simp only [Spaced, hphase] at hspaced
    exact ⟨hdrawn.congr rfl, ⟨hspaced.mono hclock, hpaced⟩, rfl⟩
  | waits hphase =>
    simp only [Spaced, hphase] at hspaced
    exact ⟨hdrawn, hpaced, hspaced⟩
  | passes haccepted =>
    have hawaiting := Sender.isAwaiting_of_accepted haccepted
    obtain ⟨a, earlier, hawaits, ha, -⟩ := hinv.stands.awaits hawaiting
    have hdue : due w diary.journal = 0 := by
      rw [due_of_head hawaits.current, ha, haccepted, if_pos rfl]
    exact pacing_nextPart (s := { s with ack := .none }) hdrawn hpaced
      (hspaced.of_isAwaiting hawaiting) hdue
  | @fails status _ q hwhy hrejected hset =>
    have hawaiting := hwhy.isAwaiting
    obtain ⟨a, earlier, hawaits, ha, -⟩ := hinv.stands.awaits hawaiting
    have hdue : due w diary.journal = 1 := by
      rw [due_of_head hawaits.current, ha, hrejected, if_neg Bool.false_ne_true]
    have hbegun := hspaced.of_isAwaiting hawaiting
    rcases hwhy.rejects with rfl | ⟨bearer, rfl⟩
    · exact pacing_setback (s := { s with ack := .none }) hdrawn hpaced hbegun hdue hset
    · have hdue' : due w (.did (.rejectToken bearer) :: diary.journal) = 1 :=
        (due_did (by simp)).trans hdue
      have hnext : Pacing w fresh now
          (Diary.note now ((now, .did (.rejectToken bearer)) :: diary) q.2) q.1 :=
        pacing_setback (s := { s with ack := .none }) (hdrawn.congr rfl) hpaced hbegun hdue' hset
      exact hnext
  | goesOn hphase hset =>
    simp only [Spaced, hphase] at hspaced
    exact pacing_setback hdrawn hpaced hspaced.1 hspaced.2 hset
  | wakes _ hphase hrings =>
    simp only [Spaced, hphase] at hspaced
    obtain ⟨hdue, x, hx, rfl⟩ := hspaced
    have hahead : Ahead w diary now := by
      refine ⟨by rw [hx, hdue]; rfl, fun y hy => ?_⟩
      rw [hx, List.mem_singleton] at hy
      rw [hy]
      exact Wait.isOver_iff.mpr hrings
    exact ⟨hdrawn, hpaced, hahead⟩
  | stops => exact pacing_finish false hdrawn hpaced hle
  | abandons => exact pacing_finish false hdrawn hpaced hle
  | returns => exact pacing_finish true hdrawn hpaced hle

end Turns

/-! ## Runs -/

section Runs
variable [DecidableEq ω]

theorem spaced_receive (hstands : Stands batch w diary.journal s) (h : Spaced w clock diary s)
    (e : Stimulus ω) : Spaced w clock ((clock, .heard e) :: diary) (s.receive e) := by
  have hbegun : begun ((clock, .heard e) :: diary) = diary.begun := rfl
  have hdue : Shut w diary.journal →
      due w (journal ((clock, .heard e) :: diary)) = due w diary.journal :=
    fun hshut => due_heard hshut e
  unfold Spaced at h ⊢
  unfold Stands at hstands
  rw [Sender.phase_receive, hbegun]
  have hahead : Shut w diary.journal → Ahead w diary clock →
      Ahead w ((clock, .heard e) :: diary) clock :=
    fun hshut h => ⟨by rw [hbegun, hdue hshut, h.count], h.isOver⟩
  cases hp : s.phase with
  | idle =>
    simp only [hp] at h hstands
    exact hahead hstands.2.1 h
  | token =>
    simp only [hp] at h hstands
    exact hahead hstands.2.1 h
  | reporting status told =>
    simp only [hp] at h hstands
    exact ⟨h.1, (hdue hstands.2.1).trans h.2⟩
  | backoff deadline =>
    simp only [hp] at h hstands
    exact ⟨(hdue hstands.2.1).trans h.1, h.2⟩
  | _ =>
    simp only [hp] at h
    exact h

/-- What a cue adds to the journal, and that the delays stay in step with it. -/
theorem pacing_cue (hinv : Inv batch w ⟨s, diary.journal⟩) (h : Pacing w fresh clock diary s)
    (c : Cue ω) (hclock : ∀ now ∈ c.now?, clock ≤ now) :
    ∃ newest, (Logged.step ⟨s, diary.journal⟩ c).journal = newest ++ diary.journal ∧
      Pacing w fresh (c.now?.getD clock) (newest.map (fun e => (c.now?.getD clock, e)) ++ diary)
        (Logged.step ⟨s, diary.journal⟩ c).sender := by
  have hmoves := Logged.moves_step ⟨s, diary.journal⟩ c
  generalize Logged.step ⟨s, diary.journal⟩ c = y at hmoves ⊢
  cases hmoves with
  | asked idle =>
    have hahead := h.spaced
    change s.phase = .idle at idle
    simp only [Spaced, idle] at hahead
    exact ⟨[.called], rfl, h.drawn.congr rfl, h.paced, hahead.count, hahead.isOver⟩
  | refused => exact ⟨[.refused], rfl, h.drawn.congr rfl, h.paced, h.spaced.congr rfl rfl⟩
  | hears e =>
    have hretry : (s.receive e).retry = s.retry := (s.receive_limits e).2
    have hdrawn : Drawn fresh (.heard e :: diary.journal) (s.receive e).retry := by
      rw [hretry]
      exact h.drawn.congr rfl
    exact ⟨[.heard e], rfl, hdrawn, h.paced, spaced_receive hinv.stands h.spaced e⟩
  | @turns now _ _ p _ turn =>
    have hpacing := pacing_turn hinv h (hclock now rfl) turn
    rw [Diary.note_eq] at hpacing
    exact ⟨_, note_eq _ _, hpacing⟩
  | @stays now =>
    exact ⟨[], rfl, h.drawn, h.paced, h.spaced.mono (hclock now rfl)⟩

/-- A move adds the same to the journal and to the diary. -/
theorem pacing_of_step {x : Clocked ω} {m : Managed.Move ω} {y : Logged ω} (newest : Journal ω)
    (hy : (x.managed.step m).logged = y)
    (hnewest : y.journal = newest ++ x.managed.logged.journal)
    (h : Pacing w fresh (m.now?.getD x.clock)
      (newest.map (fun e => (m.now?.getD x.clock, e)) ++ x.diary) y.sender) :
    Pacing w fresh (x.step m).clock (x.step m).diary (x.step m).managed.logged.sender := by
  subst hy
  rw [Clocked.diary_step x m hnewest]
  exact h

theorem pacing_step {x : Clocked ω} (hinv : Inv batch w x.managed.logged)
    (hjournal : x.diary.journal = x.managed.logged.journal)
    (h : Pacing w fresh x.clock x.diary x.managed.logged.sender) (m : Managed.Move ω)
    (hclock : ∀ now ∈ m.now?, x.clock ≤ now) :
    Pacing w fresh (x.step m).clock (x.step m).diary (x.step m).managed.logged.sender := by
  have hsame : x.managed.logged = ⟨x.managed.logged.sender, x.diary.journal⟩ := by rw [hjournal]
  have hcue : ∀ c : Cue ω, c.now? = m.now? → (x.managed.step m).logged = x.managed.logged.step c →
      Pacing w fresh (x.step m).clock (x.step m).diary (x.step m).managed.logged.sender := by
    intro c hc hstep
    rw [hsame] at hinv hstep
    obtain ⟨newest, hnewest, hpacing⟩ := pacing_cue hinv h c (by rwa [hc])
    rw [hc] at hpacing
    exact pacing_of_step newest hstep (by rw [hnewest, hjournal]) hpacing
  cases m with
  | cue c => exact hcue c rfl (Managed.logged_cue _ c)
  | yield now =>
    cases hyield : x.managed.logged.sender.yield? now with
    | none =>
      exact pacing_of_step [] (Managed.logged_unyielding _ hyield) rfl
        ⟨h.drawn, h.paced, h.spaced.mono (hclock now rfl)⟩
    | some p =>
      have hstep := Managed.logged_yield _ hyield
      obtain ⟨-, -, rfl⟩ := Sender.yield_cases hyield
      have hdrawn : Drawn fresh (Diary.journal ((now, .quit) :: x.diary))
          x.managed.logged.sender.retry := h.drawn.congr rfl
      exact pacing_of_step [.did (.finish false), .quit] hstep rfl
        (pacing_finish (s := { x.managed.logged.sender with ack := .none }) false hdrawn h.paced
          h.spaced.le_one)
  | publisher handling =>
    have hstep := Managed.logged_publisher x.managed handling
    cases ho : (x.managed.publisher.handle (x.managed.logged.sender.phase = .idle) handling).2 with
    | nothing =>
      rw [ho] at hstep
      exact pacing_of_step [] hstep rfl h
    | refuse =>
      rw [ho] at hstep
      exact pacing_of_step [.refused] hstep rfl
        ⟨h.drawn.congr rfl, h.paced, h.spaced.congr rfl rfl⟩
    | call =>
      rw [ho] at hstep
      exact hcue .call rfl hstep
    | stop =>
      rw [ho] at hstep
      exact hcue (.receive .stop) rfl hstep

/-- What is kept by every move that does not set the clock back. -/
structure Timed (batch : Batch) (w : Bool) (fresh : Backoff) (x : Clocked ω) : Prop where
  sound : Sound batch w x.managed.logged
  journal : x.diary.journal = x.managed.logged.journal
  dated : x.Dated
  pacing : Pacing w fresh x.clock x.diary x.managed.logged.sender

theorem timed_run {ackTimeout : Nat} (h : Sender.ofBatch? batch w ackTimeout fresh = some s)
    {moves : List (Managed.Move ω)} (htime : Managed.InTime moves) :
    Timed batch w fresh ((Clocked.start s).run moves) := by
  refine Clocked.run_induction (P := Timed batch w fresh) ?_ (fun x m hclock hx => ?_)
    (fun now _ => Nat.zero_le now) htime
  · have hsound := sound_run h []
    unfold Sender.ofBatch? at h
    split at h <;> cases h
    have hdrawn : Drawn fresh ([] : Journal ω) fresh :=
      ⟨fun k => congrArg fresh.delay (Nat.zero_add k).symm, rfl⟩
    exact {
      sound := hsound
      journal := rfl
      dated := ⟨List.forall_mem_nil _, List.Pairwise.nil⟩
      pacing := ⟨hdrawn, trivial, rfl, List.forall_mem_nil _⟩ }
  · exact {
      sound := sound_change (x.managed.change_step m) hx.sound
      journal := Clocked.journal_run hx.journal [m]
      dated := Clocked.dated_step hx.dated m hclock
      pacing := pacing_step hx.sound.toInv hx.journal hx.pacing m hclock }

/-- What is ahead of an event that is handed over: a failed attempt at the same part, and one
delay, which is over; or no delay. -/
def Follows (w : Bool) (earlier : Diary ω) (now : Nat) (event : Event) : Prop :=
  match attempts earlier.journal with
  | [] => earlier.begun = []
  | a :: _ =>
    if a.isAccepted w then earlier.begun = []
    else (∃ x : Wait, earlier.begun = [x] ∧ x.IsOver now) ∧
      ∃ part : Part, part.Makes a.event ∧ part.Makes event

/-- An event behind one that was not accepted carries the same part. -/
theorem Honest.same_part {earlier : Journal ω} {event : Event}
    (h : Honest batch w (.did (.transmit event) :: earlier)) {a : Attempt ω}
    {rest : List (Attempt ω)} (hlast : attempts earlier = a :: rest)
    (ha : a.isAccepted w = false) : ∃ part : Part, part.Makes a.event ∧ part.Makes event := by
  have hordered := h.ordered
  rw [attempts, hlast] at hordered
  obtain ⟨⟨part, hpart, hmakes⟩, ⟨⟨part', hpart', hmakes'⟩, -⟩⟩ := hordered
  rw [List.countP_cons, ha, if_neg Bool.false_ne_true, Nat.add_zero, hpart'] at hpart
  cases hpart
  exact ⟨part, hmakes', hmakes⟩

theorem Timed.follows {x : Clocked ω} (h : Timed batch w fresh x) {later earlier : Diary ω}
    {event : Event} (hdiary : x.diary = later ++ (now, .did (.transmit event)) :: earlier) :
    Follows w earlier now event := by
  have hpaced := h.pacing.paced
  rw [hdiary] at hpaced
  obtain ⟨hcount, hover⟩ := hpaced.of_append
  have hhonest := h.sound.honest
  rw [← h.journal, hdiary, Diary.journal, List.map_append] at hhonest
  unfold Follows
  cases hlast : attempts earlier.journal with
  | nil =>
    rw [due, hlast] at hcount
    exact List.length_eq_zero_iff.mp hcount
  | cons a rest =>
    rw [due_of_head hlast] at hcount
    dsimp only
    split
    · next ha =>
      rw [if_pos ha] at hcount
      exact List.length_eq_zero_iff.mp hcount
    · next ha =>
      rw [if_neg ha] at hcount
      obtain ⟨x, hx⟩ := List.length_eq_one_iff.mp hcount
      exact ⟨⟨x, hx, hover x (by simp [hx])⟩,
        hhonest.of_append.same_part hlast (by simpa using ha)⟩

/-- A sender that waits for a delay goes on as soon as it is over, and not before. -/
theorem Timed.waits {x : Clocked ω} (h : Timed batch w fresh x) {deadline : Nat}
    (hp : x.managed.logged.sender.phase = .backoff deadline)
    (hrun : x.managed.logged.sender.stopping = false) :
    ∃ wait : Wait, x.diary.begun = [wait] ∧ ∀ now credentials ids,
      (x.managed.logged.sender.resume now credentials ids).isSome = true ↔ wait.IsOver now := by
  have hspaced := h.pacing.spaced
  simp only [Spaced, hp] at hspaced
  obtain ⟨-, wait, hwait, rfl⟩ := hspaced
  refine ⟨wait, hwait, fun now credentials ids => ?_⟩
  rw [Wait.isOver_iff, Sender.resume, hp]
  simp [hrun]

/-- How the delays of a call grow under some settings. -/
structure Grows (settings : SenderSettings) (w : Bool) (x : Clocked ω) : Prop where
  diary : x.diary.journal = x.managed.logged.journal
  dated : x.Dated
  /-- The delay behind `k` others, in nanoseconds. -/
  delay : ∀ (k delay : Nat), (pauses x.diary.journal).reverse[k]? = some delay →
    IsCut (nanosPerMilli * min (settings.retryInitial * magnitude settings.retryMultiplier ^ k)
      settings.retryMax) delay
  ordered : (pauses x.diary.journal).reverse.Pairwise (· ≤ ·)
  bounds : ∀ delay ∈ pauses x.diary.journal, settings.retryInitial * nanosPerMilli ≤ delay ∧
    delay ≤ settings.retryMax * nanosPerMilli
  follows : ∀ later now event earlier,
    x.diary = later ++ (now, .did (.transmit event)) :: earlier → Follows w earlier now event
  atMostOne : x.diary.begun.length ≤ 1
  /-- While the sender waits between two attempts, it goes on as soon as the delay is over, and not
  before. -/
  waits : ∀ deadline, x.managed.logged.sender.phase = .backoff deadline →
    x.managed.logged.sender.stopping = false → ∃ wait : Wait, x.diary.begun = [wait] ∧
      ∀ now credentials ids,
        (x.managed.logged.sender.resume now credentials ids).isSome = true ↔ wait.IsOver now

/-- **Delays grow over a whole call, up to the ceiling.** Under all settings that pass the checks,
for every batch, and whatever is done with the sender and its publisher while time does not go
back: the delay behind `k` others, counted over all parts of both kinds, is the first one times the
`k`-th power of the multiplier, or the ceiling if that is less. So the delays never shrink, and
stay between the first one and the ceiling, however much is accepted in between. Ahead of each
event that repeats an attempt there is one delay, which was begun behind that attempt and is over,
and ahead of any other event there is none. The times are those at which all this was done, in
order: so the event is not handed over before the delay has passed since the attempt failed. -/
theorem growing_run {settings : Settings} (hcheck : settings.check = .ok ()) {growth : Growth}
    (hexact : growth.Exact (settings.sender.retryInitial * nanosPerMilli)
      (settings.sender.retryMax * nanosPerMilli) settings.sender.retryMultiplier)
    {awaitAck : Bool} (h : Sender.ofSettings? settings.sender growth batch awaitAck = some s)
    {moves : List (Managed.Move ω)} (htime : Managed.InTime moves) :
    Grows settings.sender awaitAck ((Clocked.start s).run moves) := by
  obtain ⟨hgrows, -, hle⟩ := Settings.retry_of_check hcheck
  have hnanos : settings.sender.retryInitial * nanosPerMilli ≤
      settings.sender.retryMax * nanosPerMilli := Nat.mul_le_mul_right _ hle
  have htimed := timed_run h htime
  have hdelays := htimed.pacing.drawn.delays
  refine {
    diary := htimed.journal
    dated := htimed.dated
    delay := fun k delay hk => ?delay
    ordered := ?ordered
    bounds := fun delay hmem => ?bounds
    follows := fun later now event earlier hdiary => htimed.follows hdiary
    atMostOne := htimed.pacing.spaced.le_one
    waits := fun deadline hp hrun => htimed.waits hp hrun }
  case delay =>
    rw [hdelays, Backoff.delays, List.getElem?_map, Option.map_eq_some_iff] at hk
    obtain ⟨n, hn, rfl⟩ := hk
    obtain ⟨hlt, rfl⟩ := List.getElem?_eq_some_iff.mp hn
    rw [List.getElem_range, ← interval_milli hgrows hle]
    exact hexact k
  case ordered =>
    rw [hdelays, Backoff.delays, List.pairwise_map]
    exact List.pairwise_le_range.imp fun hjk => hexact.monotone_delay hgrows hnanos hjk
  case bounds =>
    rw [← List.mem_reverse, hdelays, Backoff.delays, List.mem_map] at hmem
    obtain ⟨k, -, rfl⟩ := hmem
    exact hexact.delay_bounds hgrows hnanos k

end Runs

/-- A sender under the settings when nothing is said, which waits for no acknowledgements. -/
def patientSender : Sender String :=
  ⟨twoParts, false, 2000, SenderSettings.standard.retryPolicy.backoff, .idle, twoParts.parts, .none,
    false, none⟩

/-- The sender goes on by itself at this time. -/
def goOnAt (now : Nat) : Managed.Move String :=
  .cue (.resume now ⟨"token", .refreshed, 0, 0⟩ ⟨"m", "c"⟩)

def answerWith (status : Status) : Managed.Move String := .cue (.receive (.answer status))

/-- The announcement is throttled, then times out, then is accepted; the withdrawal is
throttled once. -/
def patientRun : List (Managed.Move String) :=
  [.publisher .perform, goOnAt 0, answerWith .throttled, goOnAt 100, goOnAt 1000, goOnAt 1100,
    goOnAt 1100, answerWith .timeout, goOnAt 1500, goOnAt 3500, goOnAt 3500,
    answerWith .successAccepted, goOnAt 3600, goOnAt 3600, answerWith .throttled, goOnAt 4000,
    goOnAt 8000, goOnAt 8000]

/-- Five events, and delays of one second, two seconds, and four: the acceptance between the last
two changes nothing. -/
theorem growing_patientRun :
    Settings.standard.check = .ok () ∧ Managed.InTime patientRun ∧
    (attempts ((Clocked.start patientSender).run patientRun).diary.journal).map
        (Attempt.isAccepted false) = [false, false, true, false, false] ∧
    (pauses ((Clocked.start patientSender).run patientRun).diary.journal).reverse =
      [1000000000, 2000000000, 4000000000] ∧
    Grows .standard false ((Clocked.start patientSender).run patientRun) := by
  have hmade : Sender.ofSettings? SenderSettings.standard Backoff.exponential twoParts false =
      some patientSender := rfl
  have hcheck : Settings.standard.check = .ok () := rfl
  have htime : Managed.InTime patientRun := by
    unfold Managed.InTime
    decide
  exact ⟨hcheck, htime, by decide +kernel, by decide +kernel,
    growing_run hcheck exact_standard hmade htime⟩

end Delivery

end Announcer
