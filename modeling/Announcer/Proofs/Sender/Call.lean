import Announcer.Proofs.Sender.Standing
/-!
# How a call ends

When every part was accepted, a sender that is left to itself returns true, once its report is
taken (`returned_closing`). Whoever asks a sender again is refused at once (`refused_of_asked`).

Results: `returned_closing`, `refused_of_asked`, `asked_iff_step`.
-/
namespace Announcer

open Journal

variable {ω : Type}

/-! ## The end of a call -/
namespace Sender
variable {s : Sender ω} {now : Nat} {credentials : Credentials} {ids : EventIds}

/-- What a sender becomes when it is left to itself. -/
def resumed (s : Sender ω) (now : Nat) (credentials : Credentials) (ids : EventIds) : Sender ω :=
  ((s.resume now credentials ids).map Prod.fst).getD s

/-- The call is about to return true, or has done so. -/
def IsEnding (s : Sender ω) : Prop := (∃ told, s.phase = .completing told) ∨ s.phase = .done true

theorem isEnding_nextPart (h : s.parts.tail = []) : s.nextPart.1.IsEnding := by
  unfold nextPart
  dsimp only
  split
  · exact .inl ⟨false, rfl⟩
  · exact .inr rfl
  · next hparts =>
    rw [h] at hparts
    cases hparts

theorem IsEnding.resumed (h : s.IsEnding) : (s.resumed now credentials ids).IsEnding := by
  rcases h with ⟨told, hp⟩ | hp
  · cases told with
    | true => exact .inr (by simp [Sender.resumed, resume, hp, finish])
    | false => exact .inl ⟨false, by simp [Sender.resumed, resume, hp]⟩
  · exact .inr (by simp [Sender.resumed, resume, hp])

/-- The last part was acknowledged. -/
theorem isEnding_of_acknowledged {deadline : Nat} (hp : s.phase = .acknowledgement deadline)
    (ha : s.accepted = true) (ht : s.parts.tail = []) :
    (s.resumed now credentials ids).IsEnding := by
  have hack : s.ack = .received := by simpa [accepted, hp] using ha
  have hnext : s.resumed now credentials ids = { s with ack := .none }.nextPart.1 := by
    simp [resumed, resume, hp, hack, conclude]
  rw [hnext]
  exact isEnding_nextPart ht

/-- A sender whose last part was accepted notices in two steps: it takes up the answer, and
then the acknowledgement. -/
theorem isEnding_of_accepted (ha : s.accepted = true) (ht : s.parts.tail = []) :
    ((s.resumed now credentials ids).resumed now credentials ids).IsEnding := by
  cases hp : s.phase with
  | acknowledgement deadline => exact (isEnding_of_acknowledged hp ha ht).resumed
  | transport bearer answer =>
    have hanswer : answer = some .successAccepted := by
      unfold accepted at ha
      rw [hp] at ha
      cases answer with
      | none => cases ha
      | some status => cases status <;> first | rfl | cases ha
    subst hanswer
    cases hn : s.needsAck with
    | false =>
      have hnext : s.resumed now credentials ids = { s with ack := .none }.nextPart.1 := by
        simp [resumed, resume, hp, hn, answered, conclude]
      have hend : { s with ack := .none }.nextPart.1.IsEnding := isEnding_nextPart ht
      rw [hnext]
      exact hend.resumed
    | true =>
      have hnext : s.resumed now credentials ids =
          { s with phase := .acknowledgement (now + s.ackTimeout) } := by
        simp [resumed, resume, hp, hn, answered, Status.isSuccess]
      have hack : s.ack = .received := by simpa [accepted, hp, hn] using ha
      rw [hnext]
      exact isEnding_of_acknowledged rfl (by simp [accepted, hack]) ht
  | _ => simp [accepted, hp] at ha

/-- Once its report is taken, the call returns. -/
theorem IsEnding.returns [DecidableEq ω] (h : s.IsEnding) :
    ((s.receive .told).resumed now credentials ids).phase = .done true := by
  rw [receive_told]
  rcases h with ⟨told, hp⟩ | hp
  · simp [Sender.resumed, resume, hp, Phase.hear, Stimulus.isTold, finish]
  · simp [Sender.resumed, resume, hp, Phase.hear]

end Sender

namespace Logged
variable [DecidableEq ω]

theorem sender_resume (x : Logged ω) (now : Nat) (credentials : Credentials) (ids : EventIds) :
    (x.step (.resume now credentials ids)).sender = x.sender.resumed now credentials ids := by
  rw [step, Sender.resumed]
  cases x.sender.resume now credentials ids <;> rfl

theorem sender_receive (x : Logged ω) (e : Stimulus ω) :
    (x.step (.receive e)).sender = x.sender.receive e := rfl

end Logged

namespace Delivery

/-- What a sender is left to do when everything was accepted: to notice, and to be told
that its report was taken. -/
def closing (now : Nat) (credentials : Credentials) (ids : EventIds) : List (Cue ω) :=
  [.resume now credentials ids, .resume now credentials ids, .receive .told,
    .resume now credentials ids]

variable {batch : Batch} {w : Bool} {log : Journal ω} {s : Sender ω}

/-- Once every part was accepted, the sender is one that notices, or is about to return. -/
theorem Stands.ending (h : Stands batch w log s) (ha : accepted w log = batch.parts.length) :
    (s.accepted = true ∧ s.parts.tail = []) ∨ s.IsEnding := by
  have hcontra : ∀ {p : Prop}, Ongoing batch w log s.parts ∧ p → False := fun hon => by
    have hlt := hon.1.lt
    omega
  have hwaits : s.isAwaiting = true → s.accepted = true ∧ s.parts.tail = [] := by
    intro hs
    obtain ⟨a, earlier, hawaits, hacc, -⟩ := h.awaits hs
    rw [hawaits.accepted_eq] at ha
    have hlt := hawaits.lt
    by_cases hyes : a.isAccepted w = true
    · rw [if_pos hyes] at ha
      refine ⟨hacc.symm.trans hyes, ?_⟩
      rw [hawaits.remaining, List.tail_drop, List.drop_eq_nil_iff]
      omega
    · rw [if_neg hyes] at ha
      omega
  unfold Stands at h
  cases hp : s.phase with
  | transport bearer answer => exact .inl (hwaits (by simp [Sender.isAwaiting, hp]))
  | acknowledgement deadline => exact .inl (hwaits (by simp [Sender.isAwaiting, hp]))
  | completing told => exact .inr (.inl ⟨told, hp⟩)
  | done success =>
    simp only [hp] at h
    exact .inr (.inr (by rw [hp, h.2.1.mpr ha]))
  | _ =>
    simp only [hp] at h
    exact (hcontra h).elim

variable [DecidableEq ω]

/-- When every part was accepted, and the sender takes up what is there, the call returns true once
its report is taken. -/
theorem returned_closing {x : Logged ω} (h : Inv batch w x)
    (ha : accepted w x.journal = batch.parts.length) (now : Nat) (credentials : Credentials)
    (ids : EventIds) : returned (x.run (closing now credentials ids)).journal = [true] := by
  have hend : (x.run (closing now credentials ids)).sender.phase = .done true := by
    have htwice :
        ((x.sender.resumed now credentials ids).resumed now credentials ids).IsEnding := by
      rcases h.stands.ending ha with ⟨hacc, htail⟩ | hend
      · exact Sender.isEnding_of_accepted hacc htail
      · exact hend.resumed.resumed
    simp only [closing, Logged.run, List.foldl_cons, List.foldl_nil, Logged.sender_resume,
      Logged.sender_receive]
    exact htwice.returns
  have hinv := (inv_run h (closing now credentials ids)).stands
  simp only [Stands, hend] at hinv
  exact hinv.2.2

/-! ## Further calls -/

theorem refused_of_asked {x : Logged ω} (h : x.sender.phase ≠ .idle) :
    x.step .call = ⟨x.sender, .refused :: x.journal⟩ := by
  rw [Logged.step, Sender.call?, if_neg h]

/-- The journal tells whether the sender was asked to send. -/
theorem asked_iff_step {x : Logged ω} (hx : asked x.journal = true ↔ x.sender.phase ≠ .idle)
    (c : Cue ω) : asked (x.step c).journal = true ↔ (x.step c).sender.phase ≠ .idle := by
  have h := x.moves_step c
  generalize x.step c = y at h ⊢
  cases h with
  | asked => exact iff_of_true rfl Phase.noConfusion
  | refused => exact hx
  | hears e =>
    have hheard : (x.sender.phase.hear e ≠ .idle) ↔ x.sender.phase ≠ .idle := by
      cases hp : x.sender.phase <;> simp [Phase.hear]
    rw [Sender.phase_receive, hheard]
    exact hx
  | turns hresume turn =>
    rw [asked_note]
    exact iff_of_true (hx.mpr (Sender.phase_ne_idle_of_resume hresume)) turn.phase_ne_idle
  | stays => exact hx

/-! ## A sender of two parts -/

/-- An announcement and a withdrawal: two parts. -/
def twoParts : Batch := ⟨.ofList [("a", ⟨"1"⟩)], .ofList [("b", .withdrawal "b")]⟩

/-- A sender that waits for acknowledgements, two seconds each. -/
def twoPartSender : Sender String :=
  ⟨twoParts, true, 2000, ⟨fun _ => 0⟩, .idle, twoParts.parts, .none, false, none⟩

/-- The sender goes on by itself; an event has the correlation token `correlation`. -/
def goOn (correlation : String) : Cue String :=
  .resume 0 ⟨"token", .refreshed, 0, 0⟩ ⟨"m", correlation⟩

/-- The announcement is throttled at first, and acknowledged at the second attempt; then the
withdrawal is accepted. -/
def twoPartRun : List (Cue String) :=
  [.receive (.observe "panel"), .call, goOn "c1", .receive (.answer .throttled), goOn "",
    .receive .told, goOn "", goOn "", goOn "c2", .receive (.answer .successAccepted), goOn "",
    .receive (.acknowledge "c2"), goOn "", goOn "c3", .receive (.answer .successAccepted)]

end Delivery

end Announcer
