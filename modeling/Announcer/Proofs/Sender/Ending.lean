import Announcer.Proofs.Sender.Managed
/-!
# A stopped sender comes to its end

Each step brings a stopped sender nearer to its end (`Phase.rank`), and it waits for nothing
but its reports to be taken. So after a few rounds, in each of which a report is taken and the
sender goes on, it is done, whatever else happens between them.

Results: `Turn.rank_lt`, `near_change`, `near_run`.
-/
namespace Announcer

open Journal

variable {ω : Type}

/-! ## How far it is to the end -/

/-- How many steps a stopped sender is from its end at most. -/
def Phase.rank : Phase → Nat
  | .done _ => 0
  | .token | .backoff _ | .completing _ => 1
  | .reporting _ _ => 2
  | .acknowledgement _ => 3
  | .transport _ _ => 4
  | .idle => 5

/-- A report is not taken yet. -/
def Phase.isTelling : Phase → Bool
  | .reporting _ told | .completing told => !told
  | _ => false

theorem Phase.rank_hear (x : Stimulus ω) (p : Phase) : (p.hear x).rank = p.rank := by
  cases p <;> rfl

theorem Phase.isTelling_hear (x : Stimulus ω) {p : Phase} (h : p.isTelling = false) :
    (p.hear x).isTelling = false := by
  cases p with
  | reporting status told => simp_all [Phase.hear, isTelling]
  | completing told => simp_all [Phase.hear, isTelling]
  | _ => rfl

theorem Phase.isTelling_told (p : Phase) : (p.hear (.told : Stimulus ω)).isTelling = false := by
  cases p <;> simp [Phase.hear, isTelling, Stimulus.isTold]

theorem Phase.hear_eq_idle (x : Stimulus ω) {p : Phase} : p.hear x = .idle ↔ p = .idle := by
  cases p <;> simp [Phase.hear]

namespace Sender
variable {s : Sender ω} {now : Nat} {credentials : Credentials} {ids : EventIds}

theorem Setback.rank_le {status : Status} {p : Progress ω} (h : Setback s now status p) :
    p.1.phase.rank ≤ 2 := by
  cases h <;> simp [Phase.rank, finish]

theorem rank_nextPart (h : s.stopping = true) : s.nextPart.1.phase.rank ≤ 1 := by
  unfold nextPart
  dsimp only
  split
  · exact Nat.le_refl _
  · exact Nat.zero_le _
  · rw [if_pos h]
    exact Nat.zero_le _

theorem rank_of_isAwaiting (h : s.isAwaiting = true) : 3 ≤ s.phase.rank := by
  unfold isAwaiting at h
  cases hp : s.phase <;> simp_all [Phase.rank]

/-- Every step brings a stopped sender nearer to its end. -/
theorem Turn.rank_lt {p : Progress ω} (h : Turn s now credentials ids p) (hs : s.stopping = true) :
    p.1.phase.rank < s.phase.rank := by
  cases h with
  | transmits _ hrun => cases hs.symm.trans hrun
  | waits hphase => simp [Phase.rank, hphase]
  | passes haccepted =>
    have hrank := rank_of_isAwaiting (isAwaiting_of_accepted haccepted)
    have hnext := rank_nextPart (s := { s with ack := .none }) hs
    omega
  | fails hwhy _ hset =>
    exact Nat.lt_of_le_of_lt hset.rank_le (rank_of_isAwaiting hwhy.isAwaiting)
  | goesOn hphase _ hbehind =>
    rw [hbehind, hphase, afterReport]
    split <;> simp [Phase.rank, finish]
  | wakes hrun => cases hs.symm.trans hrun
  | stops _ hphase => rcases hphase with hp | ⟨deadline, hp⟩ <;> simp [Phase.rank, finish, hp]
  | abandons hphase => simp [Phase.rank, finish, hphase]
  | returns hphase => simp [Phase.rank, finish, hphase]

/-- A stopped sender waits for nothing but its reports to be taken. -/
theorem resume_isSome (hs : s.stopping = true) (hi : s.phase ≠ .idle)
    (ht : s.phase.isTelling = false) (hd : 0 < s.phase.rank) :
    (s.resume now credentials ids).isSome = true := by
  unfold resume
  cases hp : s.phase with
  | idle => exact absurd hp hi
  | token => simp [hs]
  | transport bearer answer =>
    cases answer with
    | none => simp [hs]
    | some status => rfl
  | acknowledgement deadline =>
    dsimp only
    rw [if_pos hs]
    split <;> rfl
  | reporting status told => simp_all [Phase.isTelling]
  | backoff deadline => simp [hs]
  | completing told => simp_all [Phase.isTelling]
  | done success => simp [hp, Phase.rank] at hd

end Sender

/-! ## Coming to the end -/

namespace Delivery
variable {batch : Batch} {w : Bool} [DecidableEq ω]

/-- The sender was asked and stopped, and is at most so many steps from its end. -/
structure Near (r : Nat) (x : Logged ω) : Prop where
  stopping : x.sender.stopping = true
  asked : x.sender.phase ≠ .idle
  rank : x.sender.phase.rank ≤ r

/-- It is also ready for its next step, if it did not come nearer before. -/
structure Ready (r : Nat) (x : Logged ω) : Prop extends Near r x where
  ready : x.sender.phase.rank = r → x.sender.phase.isTelling = false

omit [DecidableEq ω] in
theorem near_turn {r : Nat} {x : Logged ω} (h : Near r x) {now : Nat} {credentials : Credentials}
    {ids : EventIds} {p : Sender.Progress ω} (hp : x.sender.Turn now credentials ids p) :
    Near r ⟨p.1, note x.journal p.2⟩ ∧ p.1.phase.rank < x.sender.phase.rank := by
  have hlt := hp.rank_lt h.stopping
  have hle := h.rank
  refine ⟨⟨hp.frame.2.2.2.trans h.stopping, hp.phase_ne_idle, ?_⟩, hlt⟩
  show p.1.phase.rank ≤ r
  omega

theorem near_receive {r : Nat} {x : Logged ω} (h : Near r x) (e : Stimulus ω) :
    Near r (x.step (.receive e)) where
  stopping := by
    show (x.sender.receive e).stopping = true
    rw [Sender.stopping_receive, h.stopping, Bool.or_true]
  asked := by
    show (x.sender.receive e).phase ≠ .idle
    rw [Sender.phase_receive, ne_eq, Phase.hear_eq_idle]
    exact h.asked
  rank := by
    show (x.sender.receive e).phase.rank ≤ r
    rw [Sender.phase_receive, Phase.rank_hear]
    exact h.rank

/-- Nothing that happens leads away from the end. -/
theorem near_change {r : Nat} {x y : Logged ω} (hc : Change x y) (h : Near r x) : Near r y := by
  cases hc with
  | still => exact h
  | cue c =>
    cases c with
    | call =>
      rw [refused_of_asked h.asked]
      exact { h with }
    | receive e => exact near_receive h e
    | resume now credentials ids =>
      unfold Logged.step
      dsimp only
      split
      · next hresume => exact (near_turn h (Sender.turn_resume hresume)).1
      · exact h
  | refuses => exact { h with }
  | yields hp =>
    obtain ⟨hstopping, -, rfl⟩ := Sender.yield_cases hp
    exact ⟨hstopping, Phase.noConfusion, Nat.zero_le _⟩

theorem ready_change {r : Nat} {x y : Logged ω} (hc : Change x y) (h : Ready r x) :
    Ready r y := by
  have hnear := near_change hc h.toNear
  refine { hnear with ready := fun he => ?_ }
  cases hc with
  | still => exact h.ready he
  | cue c =>
    cases c with
    | call =>
      rw [refused_of_asked h.asked] at he ⊢
      exact h.ready he
    | receive e =>
      change (x.sender.receive e).phase.rank = r at he
      show (x.sender.receive e).phase.isTelling = false
      rw [Sender.phase_receive, Phase.rank_hear] at he
      rw [Sender.phase_receive]
      exact Phase.isTelling_hear e (h.ready he)
    | resume now credentials ids =>
      unfold Logged.step at he ⊢
      dsimp only at he ⊢
      cases hresume : x.sender.resume now credentials ids with
      | none =>
        simp only [hresume] at he ⊢
        exact h.ready he
      | some p =>
        simp only [hresume] at he
        have hlt := (near_turn h.toNear (Sender.turn_resume hresume)).2
        have hle := h.rank
        omega
  | refuses => exact h.ready he
  | yields hp =>
    obtain ⟨-, hawaiting, rfl⟩ := Sender.yield_cases hp
    rfl

/-- Once its report is taken, the sender is ready. -/
theorem ready_told {r : Nat} {x : Logged ω} (h : Near r x) :
    Ready r (x.step (.receive .told)) := by
  refine { near_receive h .told with ready := fun _ => ?_ }
  show (x.sender.receive .told).phase.isTelling = false
  rw [Sender.phase_receive]
  exact Phase.isTelling_told _

/-- A sender that is ready comes nearer when it goes on. -/
theorem near_resume {r : Nat} {x : Logged ω} (h : Ready (r + 1) x) (now : Nat)
    (credentials : Credentials) (ids : EventIds) :
    Near r (x.step (.resume now credentials ids)) := by
  have hnear := near_change (.cue (.resume now credentials ids)) h.toNear
  have hle := h.rank
  refine { hnear with rank := ?_ }
  by_cases hrank : x.sender.phase.rank = r + 1
  · have hgoes : (x.sender.resume now credentials ids).isSome = true :=
      Sender.resume_isSome h.stopping h.asked (h.ready hrank) (by omega)
    obtain ⟨p, hp⟩ := Option.isSome_iff_exists.mp hgoes
    have hlt := (near_turn h.toNear (Sender.turn_resume hp)).2
    rw [Logged.step, hp]
    show p.1.phase.rank ≤ r
    omega
  · have hless : Near r x := { h.toNear with rank := by omega }
    exact (near_change (.cue (.resume now credentials ids)) hless).rank

/-- A report is taken, and then the sender goes on. -/
def round (turn : Nat × Credentials × EventIds) : List (Managed.Move ω) :=
  [.cue (.receive .told), .cue (.resume turn.1 turn.2.1 turn.2.2)]

/-- Each round brings the sender one step nearer to its end, whatever happens between them. -/
theorem near_run (x : Managed ω) (moves : List (Managed.Move ω))
    (turns : List (Nat × Credentials × EventIds)) :
    (Near turns.length x.logged → (turns.flatMap round).Sublist moves →
      Near 0 (x.run moves).logged) ∧
    ∀ turn : Nat × Credentials × EventIds, Ready (turns.length + 1) x.logged →
      (.cue (.resume turn.1 turn.2.1 turn.2.2) :: turns.flatMap round).Sublist moves →
        Near 0 (x.run moves).logged := by
  induction moves generalizing x turns with
  | nil =>
    constructor
    · intro h hsub
      cases turns with
      | nil => exact h
      | cons turn turns => cases hsub
    · intro turn _ hsub
      cases hsub
  | cons m moves ih =>
    have hchange := x.change_step m
    constructor
    · intro h hsub
      cases turns with
      | nil => exact (ih (x.step m) []).1 (near_change hchange h) (List.nil_sublist _)
      | cons turn turns =>
        cases hsub with
        | cons _ hsub => exact (ih (x.step m) (turn :: turns)).1 (near_change hchange h) hsub
        | cons_cons _ hsub =>
          refine (ih _ turns).2 turn ?_ hsub
          rw [Managed.logged_cue]
          exact ready_told h
    · intro turn h hsub
      cases hsub with
      | cons _ hsub => exact (ih (x.step m) turns).2 turn (ready_change hchange h) hsub
      | cons_cons _ hsub =>
        refine (ih _ turns).1 ?_ hsub
        rw [Managed.logged_cue]
        exact near_resume h _ _ _

omit [DecidableEq ω] in
theorem Near.done {x : Logged ω} (h : Near 0 x) : ∃ success, x.sender.phase = .done success := by
  have hrank := h.rank
  cases hp : x.sender.phase with
  | done success => exact ⟨success, rfl⟩
  | _ => simp [hp, Phase.rank] at hrank

end Delivery

end Announcer
