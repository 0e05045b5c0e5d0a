import Announcer.Proofs.Sender.Managed
/-!
# A sender on a clock

A sender is told the time when it goes on by itself, and only then. A `Clocked` run remembers the
time that was told last, and keeps a diary: the journal, each remark with its time. Nothing in the
run depends on the clock (`managed_run`, `journal_run`), so what holds of every run holds here.

Time does not go back (`InTime`); that is asked of the runs, and not built into them.

Results: `diary_step`, `managed_run`, `journal_run`, `run_induction`, `dated_step`.
-/
namespace Announcer

open Journal

variable {ω : Type}

/-- A journal with the time of each remark, the newest first. -/
abbrev Diary (ω : Type) := List (Nat × Remark ω)

namespace Diary

def journal (diary : Diary ω) : Journal ω := diary.map Prod.snd

/-- Writes down what was done at a time, the first action first. -/
def note (now : Nat) (diary : Diary ω) (actions : List (Action ω)) : Diary ω :=
  actions.foldl (fun diary a => (now, .did a) :: diary) diary

theorem note_eq (now : Nat) (diary : Diary ω) (actions : List (Action ω)) :
    note now diary actions = ((actions.map .did).reverse.map fun e => (now, e)) ++ diary := by
  induction actions generalizing diary with
  | nil => rfl
  | cons a actions ih =>
    rw [List.map_cons, List.reverse_cons, List.map_append, List.append_assoc]
    exact ih ((now, .did a) :: diary)

end Diary

/-- The time that a cue tells. -/
def Cue.now? : Cue ω → Option Nat
  | .resume now _ _ => some now
  | _ => none

namespace Managed

/-- The time that a move tells. -/
def Move.now? : Move ω → Option Nat
  | .cue c => c.now?
  | .yield now => some now
  | .publisher _ => none

/-- Time does not go back. -/
def InTime (moves : List (Move ω)) : Prop := (moves.filterMap Move.now?).Pairwise (· ≤ ·)

end Managed

/-- A sender and its publisher, with the time that was told last. -/
structure Clocked (ω : Type) where
  managed : Managed ω
  clock : Nat
  diary : Diary ω

namespace Clocked
variable [DecidableEq ω]

def start (s : Sender ω) : Clocked ω := ⟨.start s, 0, []⟩

/-- What a move adds to the journal, it adds to the diary at the time it tells, or else at the one
that was told last. -/
def step (x : Clocked ω) (m : Managed.Move ω) : Clocked ω :=
  let before := x.managed.logged.journal
  let after := (x.managed.step m).logged.journal
  let clock := m.now?.getD x.clock
  ⟨x.managed.step m, clock,
    (after.take (after.length - before.length)).map (fun e => (clock, e)) ++ x.diary⟩

def run (x : Clocked ω) (moves : List (Managed.Move ω)) : Clocked ω := moves.foldl step x

theorem managed_run (x : Clocked ω) (moves : List (Managed.Move ω)) :
    (x.run moves).managed = x.managed.run moves := by
  induction moves generalizing x with
  | nil => rfl
  | cons m moves ih => exact ih (x.step m)

theorem diary_step (x : Clocked ω) (m : Managed.Move ω) {newest : Journal ω}
    (h : (x.managed.step m).logged.journal = newest ++ x.managed.logged.journal) :
    (x.step m).diary = newest.map (fun e => (m.now?.getD x.clock, e)) ++ x.diary := by
  simp only [step, h, List.length_append, Nat.add_sub_cancel, List.take_left']

/-- The diary is the journal, but for the times. -/
theorem journal_run {x : Clocked ω} (h : x.diary.journal = x.managed.logged.journal)
    (moves : List (Managed.Move ω)) :
    (x.run moves).diary.journal = (x.managed.run moves).logged.journal := by
  rw [← managed_run]
  induction moves generalizing x with
  | nil => exact h
  | cons m moves ih =>
    obtain ⟨newest, hnewest⟩ := Managed.journal_change (x.managed.change_step m)
    refine ih (x := x.step m) ?_
    calc (x.step m).diary.journal
      _ = newest ++ x.diary.journal := by
        rw [diary_step x m hnewest]
        simp [Diary.journal, Function.comp_def]
      _ = (x.step m).managed.logged.journal := by rw [h]; exact hnewest.symm

/-- What holds at the start, and is kept by every move that does not set the clock back, holds after
every run in time. -/
theorem run_induction {P : Clocked ω → Prop} {x : Clocked ω} (start : P x)
    (step : ∀ x m, (∀ now ∈ m.now?, x.clock ≤ now) → P x → P (step x m))
    {moves : List (Managed.Move ω)}
    (hlater : ∀ now ∈ moves.filterMap Managed.Move.now?, x.clock ≤ now)
    (htime : Managed.InTime moves) : P (x.run moves) := by
  induction moves generalizing x with
  | nil => exact start
  | cons m moves ih =>
    unfold Managed.InTime at htime
    cases hm : m.now? with
    | none =>
      rw [List.filterMap_cons_none hm] at htime hlater
      have hclock : (x.step m).clock = x.clock := by simp [Clocked.step, hm]
      exact ih (step x m (by simp [hm]) start) (by rwa [hclock]) htime
    | some now =>
      rw [List.filterMap_cons_some hm] at htime hlater
      have hclock : (x.step m).clock = now := by simp [Clocked.step, hm]
      have hle : ∀ t ∈ m.now?, x.clock ≤ t := by
        rw [hm]
        rintro t ⟨⟩
        exact hlater now List.mem_cons_self
      exact ih (step x m hle start) (by rw [hclock]; exact (List.pairwise_cons.mp htime).1)
        (List.pairwise_cons.mp htime).2

/-- The diary is in the order of time, up to now. -/
structure Dated (x : Clocked ω) : Prop where
  past : ∀ e ∈ x.diary, e.1 ≤ x.clock
  inOrder : x.diary.Pairwise fun later earlier => earlier.1 ≤ later.1

theorem dated_step {x : Clocked ω} (h : x.Dated) (m : Managed.Move ω)
    (hclock : ∀ now ∈ m.now?, x.clock ≤ now) : (x.step m).Dated := by
  have hle : x.clock ≤ (x.step m).clock := by
    show x.clock ≤ m.now?.getD x.clock
    cases hm : m.now? with
    | none => exact Nat.le_refl _
    | some now => exact hclock now hm
  obtain ⟨newest, hnewest⟩ := Managed.journal_change (x.managed.change_step m)
  have hdiary : (x.step m).diary = newest.map (fun e => ((x.step m).clock, e)) ++ x.diary :=
    diary_step x m hnewest
  have hnew : ∀ e ∈ newest.map (fun e => ((x.step m).clock, e)), e.1 = (x.step m).clock := by
    simp
  have hold : ∀ e ∈ x.diary, e.1 ≤ (x.step m).clock := fun e he => (h.past e he).trans hle
  constructor
  · intro e he
    rw [hdiary, List.mem_append] at he
    exact he.elim (fun he => (hnew e he).le) (hold e)
  · rw [hdiary, List.pairwise_append]
    refine ⟨?_, h.inOrder, fun a ha b hb => (hold b hb).trans (hnew a ha).ge⟩
    rw [List.pairwise_map]
    exact List.pairwise_of_forall fun _ _ => Nat.le_refl _

end Clocked

end Announcer
