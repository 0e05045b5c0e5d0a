import Announcer.Sender
/-!
# What a sender does by itself

`Turn` lists what `resume` can do: under which condition, what becomes of the
sender, and what it does on the way. What is proved of a sender that goes on is
proved by these cases, without opening `resume` again. What comes from outside
is told apart by what it does to the phase (`Phase.hear`).

Results: `turn_resume`, `phase_receive`, `stopping_receive`.
-/
namespace Announcer

variable {ω : Type}

/-- An action on the way from a failure to the next attempt. -/
def Action.isSetback : Action ω → Bool
  | .rejectToken _ => true
  | .reportFailure _ _ => true
  | .pause _ => true
  | _ => false

/-- A status after which nothing is sent any more. -/
def Status.isFinal (status : Status) : Prop := status = .invalidAuth ∨ status = .badRequest

/-- The answer that a stimulus brings. -/
def Stimulus.answer? : Stimulus ω → Option Status
  | .answer status => some status
  | _ => none

/-- The observer has taken a report. -/
def Stimulus.isTold : Stimulus ω → Bool
  | .told => true
  | _ => false

/-- The sender is stopped. -/
def Stimulus.isStop : Stimulus ω → Bool
  | .stop => true
  | _ => false

/-- What a stimulus makes of a phase. The first answer stands. -/
def Phase.hear (x : Stimulus ω) : Phase → Phase
  | .transport bearer answer => .transport bearer (answer.or x.answer?)
  | .reporting status told => .reporting status (told || x.isTold)
  | .completing told => .completing (told || x.isTold)
  | phase => phase

namespace Sender

variable {s : Sender ω}

/-- The service has accepted the current part, whether or not the sender knows. -/
def accepted (s : Sender ω) : Bool :=
  match s.phase with
  | .transport _ (some .successAccepted) => !s.needsAck || s.ack = .received
  | .acknowledgement _ => s.ack = .received
  | _ => false

/-- An event is with the transport, or waits for its acknowledgement. -/
def isAwaiting (s : Sender ω) : Bool :=
  match s.phase with
  | .transport _ _ => true
  | .acknowledgement _ => true
  | _ => false

theorem isAwaiting_of_accepted (h : s.accepted = true) : s.isAwaiting = true := by
  unfold accepted at h
  unfold isAwaiting
  cases hp : s.phase <;> simp_all

/-! ## Turns -/

/-- What follows a failure. -/
inductive Setback (s : Sender ω) (now : Nat) (status : Status) : Progress ω → Prop
  /-- The observer is told. -/
  | tells {who : ω} (attached : s.observer = some who) :
    Setback s now status ({ s with phase := .reporting status false }, [.reportFailure who status])
  /-- The next attempt is waited for. -/
  | pauses (again : ¬ status.isFinal) :
    Setback s now status ({ s with
      phase := .backoff (now + ringAfter s.retry.current)
      retry := s.retry.next }, [.pause s.retry.current])
  /-- No more attempts. -/
  | ends (final : status.isFinal ∨ (status = .canceled ∧ s.stopping = true)) :
    Setback s now status (s.finish false)

/-- Why an attempt fails, and what is done about it first. -/
inductive Failure (s : Sender ω) (now : Nat) : Status → List (Action ω) → Prop
  /-- The transport says so. A token that was rejected is reported. -/
  | answered {bearer : String} {status : Status}
      (phase : s.phase = .transport bearer (some status)) (failed : status ≠ .successAccepted) :
    Failure s now status (if status = .invalidAuth then [.rejectToken bearer] else [])
  /-- The sender was stopped. -/
  | stopped (stopping : s.stopping = true)
      (phase : (∃ bearer, s.phase = .transport bearer none) ∨
        ∃ deadline, s.phase = .acknowledgement deadline) : Failure s now .canceled []
  /-- There was no acknowledgement in time. -/
  | late {deadline : Nat} (running : s.stopping = false)
      (phase : s.phase = .acknowledgement deadline) (rings : deadline ≤ now) :
    Failure s now .timeout []

/-- What `resume` can do. -/
inductive Turn (s : Sender ω) (now : Nat) (credentials : Credentials) (ids : EventIds) :
    Progress ω → Prop
  /-- The current part is handed to the transport. -/
  | transmits {part : Part} {rest : List Part} {event : Event}
      (phase : s.phase = .token) (running : s.stopping = false)
      (refreshed : credentials.state = .refreshed) (usable : credentials.token.isEmpty = false)
      (parts : s.parts = part :: rest)
      (built : Event.build part.kind part.configs credentials.token ids = .ok event) :
    Turn s now credentials ids ({ s with
      phase := .transport credentials.token none
      ack := if s.needsAck then .awaited ids.correlation else .none }, [.transmit event])
  /-- The transport has succeeded, and the acknowledgement is waited for. -/
  | waits {bearer : String} (phase : s.phase = .transport bearer (some .successAccepted))
      (needs : s.needsAck = true) :
    Turn s now credentials ids ({ s with phase := .acknowledgement (now + s.ackTimeout) }, [])
  /-- The current part was accepted. -/
  | passes (accepted : s.accepted = true) :
    Turn s now credentials ids { s with ack := .none }.nextPart
  /-- The attempt has failed. Unless the sender was stopped, whoever is attached is told. -/
  | fails {status : Status} {before : List (Action ω)} {p : Progress ω}
      (why : Failure s now status before) (rejected : s.accepted = false)
      (h : Setback { s with ack := .none } now status p)
      (told : s.stopping = false → ∀ who ∈ s.observer,
        p = ({ s with ack := .none, phase := .reporting status false },
          [.reportFailure who status])) :
    Turn s now credentials ids (p.1, before ++ p.2)
  /-- A failure was reported. -/
  | goesOn {status : Status} {p : Progress ω} (phase : s.phase = .reporting status true)
      (h : Setback s now status p) (behind : p = s.afterReport now status) :
    Turn s now credentials ids p
  /-- The delay is over. -/
  | wakes {deadline : Nat} (running : s.stopping = false) (phase : s.phase = .backoff deadline)
      (rings : deadline ≤ now) : Turn s now credentials ids ({ s with phase := .token }, [])
  /-- The sender was stopped between two attempts. -/
  | stops (stopping : s.stopping = true)
      (phase : s.phase = .token ∨ ∃ deadline, s.phase = .backoff deadline) :
    Turn s now credentials ids (s.finish false)
  /-- There is no token, or the event cannot be built. -/
  | abandons (phase : s.phase = .token) (refreshed : credentials.state = .refreshed)
      (why : credentials.token.isEmpty = true ∨ ∀ part ∈ s.parts.head?,
        (Event.build part.kind part.configs credentials.token ids).toOption = none) :
    Turn s now credentials ids (s.finish false)
  /-- The completion was reported. -/
  | returns (phase : s.phase = .completing true) : Turn s now credentials ids (s.finish true)

variable {now : Nat} {credentials : Credentials} {ids : EventIds}

theorem setback_afterReport (s : Sender ω) (now : Nat) (status : Status) :
    Setback s now status (s.afterReport now status) := by
  unfold afterReport
  split
  · next h => exact .ends (.inl h)
  · next h => exact .pauses h

theorem setback_report (s : Sender ω) (now : Nat) (status : Status) :
    Setback s now status (s.report now status) := by
  unfold report
  split
  · next hobs => exact .tells hobs
  · exact setback_afterReport s now status

/-- What a failure is reported as when there is someone to tell. -/
theorem report_of_observer {who : ω} (h : s.observer = some who) (status : Status) :
    s.report now status = ({ s with phase := .reporting status false },
      [.reportFailure who status]) := by
  rw [report, h]

theorem Failure.ne_success {status : Status} {before : List (Action ω)}
    (h : Failure s now status before) : status ≠ .successAccepted := by
  cases h with
  | answered _ failed => exact failed
  | stopped => decide
  | late => decide

/-- A rejected token is all that is reported before the failure is. -/
theorem Failure.rejects {status : Status} {before : List (Action ω)}
    (h : Failure s now status before) :
    before = [] ∨ ∃ bearer, before = [.rejectToken bearer] := by
  cases h with
  | @answered bearer =>
    split
    · exact .inr ⟨bearer, rfl⟩
    · exact .inl rfl
  | stopped => exact .inl rfl
  | late => exact .inl rfl

/-- Reports of rejected tokens, of failures, and waiting are all that a failure leads to. -/
theorem Failure.isSetback {status : Status} {before : List (Action ω)}
    (h : Failure s now status before) : ∀ a ∈ before, a.isSetback = true := by
  intro a ha
  rcases h.rejects with rfl | ⟨bearer, rfl⟩
  · cases ha
  · cases List.mem_singleton.mp ha
    rfl

theorem Failure.isAwaiting {status : Status} {before : List (Action ω)}
    (h : Failure s now status before) : s.isAwaiting = true := by
  cases h with
  | answered phase => simp [Sender.isAwaiting, phase]
  | stopped _ phase =>
    rcases phase with ⟨bearer, hp⟩ | ⟨deadline, hp⟩ <;> simp [Sender.isAwaiting, hp]
  | late _ phase => simp [Sender.isAwaiting, phase]

/-- An answer of the transport is what the attempt fails with. -/
theorem Failure.status_eq {status st : Status} {before : List (Action ω)} {bearer : String}
    (h : Failure s now status before) (hp : s.phase = .transport bearer (some st)) :
    status = st := by
  cases h with
  | answered phase =>
    rw [phase] at hp
    cases hp
    rfl
  | stopped _ phase => simp [hp] at phase
  | late _ phase => simp [hp] at phase

/-- A setback changes neither what is sent nor for whom. -/
theorem Setback.frame {status : Status} {p : Progress ω} (h : Setback s now status p) :
    p.1.batch = s.batch ∧ p.1.awaitAck = s.awaitAck ∧ p.1.observer = s.observer ∧
      p.1.stopping = s.stopping := by
  cases h <;> exact ⟨rfl, rfl, rfl, rfl⟩

theorem nextPart_frame (s : Sender ω) : s.nextPart.1.batch = s.batch ∧
    s.nextPart.1.awaitAck = s.awaitAck ∧ s.nextPart.1.observer = s.observer ∧
      s.nextPart.1.stopping = s.stopping := by
  unfold nextPart
  dsimp only
  split
  · exact ⟨rfl, rfl, rfl, rfl⟩
  · exact ⟨rfl, rfl, rfl, rfl⟩
  · split <;> exact ⟨rfl, rfl, rfl, rfl⟩

/-- No turn changes what is sent, or for whom. -/
theorem Turn.frame {p : Progress ω} (h : Turn s now credentials ids p) :
    p.1.batch = s.batch ∧ p.1.awaitAck = s.awaitAck ∧ p.1.observer = s.observer ∧
      p.1.stopping = s.stopping := by
  cases h with
  | passes => exact nextPart_frame _
  | fails _ _ h => exact h.frame
  | goesOn _ h => exact h.frame
  | transmits => exact ⟨rfl, rfl, rfl, rfl⟩
  | waits => exact ⟨rfl, rfl, rfl, rfl⟩
  | wakes => exact ⟨rfl, rfl, rfl, rfl⟩
  | stops => exact ⟨rfl, rfl, rfl, rfl⟩
  | abandons => exact ⟨rfl, rfl, rfl, rfl⟩
  | returns => exact ⟨rfl, rfl, rfl, rfl⟩

/-- A sender that was asked never waits to be asked again. -/
theorem Turn.phase_ne_idle {p : Progress ω} (h : Turn s now credentials ids p) :
    p.1.phase ≠ .idle := by
  cases h with
  | passes =>
    unfold nextPart
    dsimp only
    split
    · exact Phase.noConfusion
    · exact Phase.noConfusion
    · split <;> exact Phase.noConfusion
  | fails _ _ h => cases h <;> exact Phase.noConfusion
  | goesOn _ h => cases h <;> exact Phase.noConfusion
  | transmits => exact Phase.noConfusion
  | waits => exact Phase.noConfusion
  | wakes => exact Phase.noConfusion
  | stops => exact Phase.noConfusion
  | abandons => exact Phase.noConfusion
  | returns => exact Phase.noConfusion

/-! ## Every step is a turn -/

theorem turn_conclude {bearer : String} {status : Status} {before : List (Action ω)}
    (hwhy : Failure s now status before) (ha : s.accepted = false)
    (hb : before = if status = .invalidAuth then [.rejectToken bearer] else []) :
    Turn s now credentials ids (s.conclude now bearer status) := by
  subst hb
  have hreport := setback_report { s with ack := .none } now status
  have htold : s.stopping = false → ∀ who ∈ s.observer,
      { s with ack := .none }.report now status =
        ({ s with ack := .none, phase := .reporting status false },
          [.reportFailure who status]) :=
    fun _ who hwho => report_of_observer (s := { s with ack := .none }) hwho status
  cases status with
  | successAccepted => exact absurd rfl hwhy.ne_success
  | canceled =>
    unfold conclude
    dsimp only
    split
    · next hstop =>
      refine .fails hwhy ha (.ends (.inr ⟨rfl, hstop⟩)) fun hrun => ?_
      cases hstop.symm.trans hrun
    · exact .fails hwhy ha hreport htold
  | _ => exact .fails hwhy ha hreport htold

theorem turn_answered {bearer : String} {status : Status}
    (h : s.phase = .transport bearer (some status)) :
    Turn s now credentials ids (s.answered now bearer status) := by
  unfold answered
  split
  · next hwait =>
    simp only [Bool.and_eq_true, Status.isSuccess, decide_eq_true_eq] at hwait
    obtain ⟨rfl, hneeds⟩ := hwait
    exact .waits h hneeds
  · next hgo =>
    by_cases hok : status = .successAccepted
    · subst hok
      have hneeds : s.needsAck = false := by simpa [Status.isSuccess] using hgo
      exact .passes (by simp [accepted, h, hneeds])
    · have ha : s.accepted = false := by
        unfold accepted
        rw [h]
        cases status <;> first | rfl | exact absurd rfl hok
      exact turn_conclude (.answered h hok) ha rfl

theorem turn_transmit (hp : s.phase = .token) (hrun : s.stopping = false)
    (href : credentials.state = .refreshed) (huse : credentials.token.isEmpty = false) :
    Turn s now credentials ids (s.transmit credentials.token ids) := by
  unfold transmit
  split
  · next hparts => exact .abandons hp href (.inr (by simp [hparts]))
  · next part rest hparts =>
    split
    · next hbuilt =>
      refine .abandons hp href (.inr fun q hq => ?_)
      obtain rfl : part = q := by simpa [hparts] using hq
      rw [hbuilt]
      rfl
    · next event hbuilt => exact .transmits hp hrun href huse hparts hbuilt

/-- What a sender does by itself is one of the turns. -/
theorem turn_resume {p : Progress ω} (h : s.resume now credentials ids = some p) :
    Turn s now credentials ids p := by
  unfold resume at h
  split at h
  · cases h
  · next hphase =>
    split at h
    · next hstop =>
      cases h
      exact .stops hstop (.inl hphase)
    · next hrun =>
      split at h
      · cases h
      · next href =>
        have href : credentials.state = .refreshed := by simpa using href
        split at h
        · next hempty =>
          cases h
          exact .abandons hphase href (.inl hempty)
        · next huse =>
          cases h
          exact turn_transmit hphase (by simpa using hrun) href (by simpa using huse)
  · next hphase =>
    cases h
    exact turn_answered hphase
  · next bearer hphase =>
    split at h
    · next hstop =>
      cases h
      exact turn_conclude (.stopped hstop (.inl ⟨bearer, hphase⟩)) (by simp [accepted, hphase]) rfl
    · cases h
  · next deadline hphase =>
    split at h
    · next hack =>
      cases h
      exact .passes (by simp [accepted, hphase, hack])
    · next hack =>
      have hnone : s.accepted = false := by simp [accepted, hphase, hack]
      split at h
      · next hstop =>
        cases h
        exact turn_conclude (.stopped hstop (.inr ⟨deadline, hphase⟩)) hnone rfl
      · next hrun =>
        split at h
        · next hlate =>
          cases h
          exact turn_conclude (.late (by simpa using hrun) hphase hlate) hnone rfl
        · cases h
  · next hphase =>
    cases h
    exact .goesOn hphase (setback_afterReport s now _) rfl
  · cases h
  · next deadline hphase =>
    split at h
    · next hstop =>
      cases h
      exact .stops hstop (.inr ⟨deadline, hphase⟩)
    · next hrun =>
      split at h
      · next hrings =>
        cases h
        exact .wakes (by simpa using hrun) hphase hrings
      · cases h
  · next hphase =>
    cases h
    exact .returns hphase
  · cases h
  · cases h

/-- A sender that was not asked does nothing. -/
theorem phase_ne_idle_of_resume {p : Progress ω} (h : s.resume now credentials ids = some p) :
    s.phase ≠ .idle := by
  intro hidle
  rw [resume, hidle] at h
  cases h

/-! ## Stimuli -/

section Stimuli
variable [DecidableEq ω]

theorem receive_frame (s : Sender ω) (x : Stimulus ω) :
    (s.receive x).batch = s.batch ∧ (s.receive x).parts = s.parts ∧
      (s.receive x).awaitAck = s.awaitAck := by
  cases x with
  | stop => unfold receive; dsimp only; split <;> exact ⟨rfl, rfl, rfl⟩
  | observe who => exact ⟨rfl, rfl, rfl⟩
  | unobserve who => unfold receive; dsimp only; split <;> exact ⟨rfl, rfl, rfl⟩
  | acknowledge correlation => unfold receive; dsimp only; split <;> exact ⟨rfl, rfl, rfl⟩
  | answer status => unfold receive; dsimp only; split <;> exact ⟨rfl, rfl, rfl⟩
  | told => unfold receive; dsimp only; split <;> exact ⟨rfl, rfl, rfl⟩

theorem needsAck_receive (s : Sender ω) (x : Stimulus ω) :
    (s.receive x).needsAck = s.needsAck := by
  obtain ⟨-, hp, ha⟩ := s.receive_frame x
  rw [needsAck, needsAck, hp, ha]

theorem receive_answer (s : Sender ω) (status : Status) :
    s.receive (.answer status) =
      { s with phase := s.phase.hear (.answer status : Stimulus ω) } := by
  obtain ⟨batch, awaitAck, ackTimeout, retry, phase, parts, ack, stopping, observer⟩ := s
  cases phase with
  | transport bearer answer => cases answer <;> rfl
  | reporting status told => cases told <;> rfl
  | completing told => cases told <;> rfl
  | _ => rfl

theorem receive_told (s : Sender ω) :
    s.receive .told = { s with phase := s.phase.hear (.told : Stimulus ω) } := by
  obtain ⟨batch, awaitAck, ackTimeout, retry, phase, parts, ack, stopping, observer⟩ := s
  cases phase with
  | transport bearer answer => cases answer <;> rfl
  | reporting status told => cases told <;> rfl
  | completing told => cases told <;> rfl
  | _ => rfl

/-- Nothing from outside changes the time limit or the delays. -/
theorem receive_limits (s : Sender ω) (x : Stimulus ω) :
    (s.receive x).ackTimeout = s.ackTimeout ∧ (s.receive x).retry = s.retry := by
  cases x with
  | answer status => rw [receive_answer]; exact ⟨rfl, rfl⟩
  | told => rw [receive_told]; exact ⟨rfl, rfl⟩
  | observe who => exact ⟨rfl, rfl⟩
  | _ => rw [receive]; split <;> exact ⟨rfl, rfl⟩

/-- What comes from outside changes the phase only by an answer, or by taking a
report. -/
theorem phase_receive (s : Sender ω) (x : Stimulus ω) :
    (s.receive x).phase = s.phase.hear x := by
  have hother : x.answer? = none → x.isTold = false → s.phase.hear x = s.phase := by
    intro ha ht
    cases hp : s.phase <;> simp [Phase.hear, ha, ht]
  cases x with
  | answer status => rw [receive_answer]
  | told => rw [receive_told]
  | stop => rw [hother rfl rfl, receive]; split <;> rfl
  | observe who => rw [hother rfl rfl]; rfl
  | unobserve who => rw [hother rfl rfl, receive]; split <;> rfl
  | acknowledge correlation => rw [hother rfl rfl, receive]; split <;> rfl

theorem stopping_receive (s : Sender ω) (x : Stimulus ω) :
    (s.receive x).stopping = (x.isStop || s.stopping) := by
  cases x with
  | answer status => rw [receive_answer]; rfl
  | told => rw [receive_told]; rfl
  | stop =>
    rw [receive]
    split
    · next h => exact h
    · rfl
  | observe who => rfl
  | unobserve who => rw [receive]; split <;> rfl
  | acknowledge correlation => rw [receive]; split <;> rfl

end Stimuli

end Sender

end Announcer
