import Announcer.Hub
import Mathlib.Data.List.Induction
import Mathlib.Data.List.Nodup
/-!
# What observers know

The four operations of a hub as one `step`, and runs as lists of operations, each
of them over before the next one begins. Every operation results in notes, and
what one observer receives in a run is its share of them.

A hub records every state but tells it only when it is new or endpoints are
affected, and an observer may be attached long after the last change. So what an
observer was told last need not come from the state that was recorded last. That
it is the current state all the same is kept by every step while the observer
stays (`informs_step`).

Results:
* `mem_observers_step`: who is attached after a step;
* `received_set`, `received_add`: what is told, to whom, and how often;
* `informs_run`: an observer that stays was told the current state last;
* `informed_run`: all of this for every run.
-/
namespace Announcer.Hub

/-- What can be done to a hub. -/
inductive Op (ω : Type) where
  | add (who : ω)
  | remove (who : ω)
  | clear
  | set (state : SyncState) (cause : SyncCause) (announced withdrawn : List String)
  deriving DecidableEq, Repr

/-- What an operation records. -/
def Op.pair? {ω : Type} : Op ω → Option (SyncState × SyncCause)
  | .set state cause _ _ => some (state, cause)
  | _ => none

variable {ω : Type} [DecidableEq ω]

/-- The current state with its cause. -/
def pair (h : Hub ω) : SyncState × SyncCause := (h.state, h.cause)

/-- Does one operation. Results in the hub and the notes that go out. -/
def step (h : Hub ω) : Op ω → Hub ω × List (Note ω)
  | .add who => h.add who
  | .remove who => (h.remove who, [])
  | .clear => (h.clear, [])
  | .set state cause announced withdrawn => h.set state cause announced withdrawn

/-- Does one operation after the other. -/
def run (h : Hub ω) (ops : List (Op ω)) : Hub ω := ops.foldl (fun h op => (h.step op).1) h

/-- The notes that go out in a run. -/
def sent (h : Hub ω) : List (Op ω) → List (Note ω)
  | [] => []
  | op :: ops => (h.step op).2 ++ (h.step op).1.sent ops

/-- What `who` receives in a run. -/
def received (h : Hub ω) (ops : List (Op ω)) (who : ω) : List (Note ω) :=
  (h.sent ops).filter (·.who = who)

/-- `who` is attached by being added to `h`, and `ops`, which is done then, leaves it so. -/
structure Attends (h : Hub ω) (who : ω) (ops : List (Op ω)) : Prop where
  fresh : who ∉ h.observers
  kept : .remove who ∉ ops
  uncleared : .clear ∉ ops

variable {h : Hub ω} {who : ω} {op : Op ω} {ops : List (Op ω)}

theorem run_append (h : Hub ω) (before after : List (Op ω)) :
    h.run (before ++ after) = (h.run before).run after :=
  List.foldl_append

theorem run_cons (h : Hub ω) (op : Op ω) (ops : List (Op ω)) :
    h.run (op :: ops) = (h.step op).1.run ops :=
  rfl

theorem received_cons (h : Hub ω) (op : Op ω) (ops : List (Op ω)) (who : ω) :
    h.received (op :: ops) who = h.received [op] who ++ (h.step op).1.received ops who := by
  simp [received, sent]

/-! ## The current state -/

theorem pair_step (h : Hub ω) (op : Op ω) : (h.step op).1.pair = op.pair?.getD h.pair := by
  cases op with
  | add who =>
    simp only [step, add]
    split <;> rfl
  | remove who => rfl
  | clear => rfl
  | set state cause announced withdrawn => rfl

/-- The current state is the one that was recorded last. -/
theorem pair_run (h : Hub ω) (ops : List (Op ω)) :
    (h.run ops).pair = (ops.filterMap Op.pair?).getLast?.getD h.pair := by
  induction ops using List.reverseRecOn with
  | nil => rfl
  | append_singleton ops op ih =>
    rw [run_append, run_cons, run, List.foldl_nil, pair_step, ih, List.filterMap_append]
    cases hp : op.pair? <;> simp [hp]

/-! ## Who is attached -/

theorem mem_observers_step : who ∈ (h.step op).1.observers ↔
    op = .add who ∨ (who ∈ h.observers ∧ op ≠ .remove who ∧ op ≠ .clear) := by
  cases op with
  | add w =>
    simp only [step, add]
    split
    · next hw =>
      constructor
      · intro hmem
        exact .inr ⟨hmem, nofun, nofun⟩
      · rintro (heq | hmem)
        · cases heq
          exact hw
        · exact hmem.1
    · simp only [List.mem_append, List.mem_singleton, ne_eq, reduceCtorEq, not_false_eq_true,
        and_true, Op.add.injEq]
      exact or_comm.trans (or_congr_left eq_comm)
  | remove w =>
    have hother : ¬who = w ↔ ¬w = who := not_congr eq_comm
    simp [step, remove, hother]
  | clear => simp [step, clear]
  | set state cause announced withdrawn => simp [step, set]

theorem nodup_step (hn : h.observers.Nodup) (op : Op ω) : (h.step op).1.observers.Nodup := by
  cases op with
  | add w =>
    simp only [step, add]
    split
    · exact hn
    · next hw => exact hn.append (List.nodup_singleton w) (List.disjoint_singleton.mpr hw)
  | remove w => exact hn.filter _
  | clear => exact List.nodup_nil
  | set state cause announced withdrawn => exact hn

theorem nodup_run (hn : h.observers.Nodup) (ops : List (Op ω)) : (h.run ops).observers.Nodup := by
  induction ops generalizing h with
  | nil => exact hn
  | cons op ops ih => exact ih (nodup_step hn op)

/-- Whoever is not removed stays. -/
theorem mem_observers_run (hw : who ∈ h.observers) (hkept : .remove who ∉ ops)
    (hclear : .clear ∉ ops) : who ∈ (h.run ops).observers := by
  induction ops generalizing h with
  | nil => exact hw
  | cons op ops ih =>
    rw [List.mem_cons, not_or] at hkept hclear
    have hstep : who ∈ (h.step op).1.observers :=
      mem_observers_step.mpr (.inr ⟨hw, Ne.symm hkept.1, Ne.symm hclear.1⟩)
    exact ih hstep hkept.2 hclear.2

/-- Attached are those that were added and not removed since. -/
theorem mem_observers_iff : who ∈ ((empty : Hub ω).run ops).observers ↔
    ∃ before after, ops = before ++ .add who :: after ∧
      (empty.run before).Attends who after := by
  constructor
  · intro hw
    induction ops using List.reverseRecOn with
    | nil => cases hw
    | append_singleton ops op ih =>
      rw [run_append] at hw
      by_cases hbefore : who ∈ ((empty : Hub ω).run ops).observers
      · obtain ⟨before, after, rfl, hattends⟩ := ih hbefore
        -- either `op` attaches `who`, which is attached already, or it leaves it attached
        have hop : op ≠ .remove who ∧ op ≠ .clear := by
          rcases mem_observers_step.mp hw with rfl | hold
          · exact ⟨nofun, nofun⟩
          · exact hold.2
        refine ⟨before, after ++ [op], by simp, hattends.fresh, ?_, ?_⟩
        · simpa using ⟨hattends.kept, hop.1.symm⟩
        · simpa using ⟨hattends.uncleared, hop.2.symm⟩
      · rcases mem_observers_step.mp hw with rfl | hold
        · exact ⟨ops, [], rfl, hbefore, List.not_mem_nil, List.not_mem_nil⟩
        · exact absurd hold.1 hbefore
  · rintro ⟨before, after, rfl, hattends⟩
    rw [run_append, run_cons]
    exact mem_observers_run (mem_observers_step.mpr (.inl rfl)) hattends.kept hattends.uncleared

/-! ## What goes out -/

/-- Each observer finds the one note that is addressed to it. -/
theorem filter_notes {observers : List ω} (hn : observers.Nodup) (state : SyncState)
    (cause : SyncCause) (announced withdrawn : List String) (who : ω) :
    (observers.map fun w => (⟨w, state, cause, announced, withdrawn⟩ : Note ω)).filter
        (·.who = who) =
      if who ∈ observers then [⟨who, state, cause, announced, withdrawn⟩] else [] := by
  rw [List.filter_map]
  have hown : observers.filter ((fun n : Note ω => decide (n.who = who)) ∘ fun w =>
      (⟨w, state, cause, announced, withdrawn⟩ : Note ω)) =
      List.replicate (observers.count who) who := by
    rw [← List.filter_beq]
    rfl
  rw [hown]
  split
  · next hw => rw [List.count_eq_one_of_mem hn hw]; rfl
  · next hw => rw [List.count_eq_zero_of_not_mem hw]; rfl

/-- An attached observer is told of a state once, if it is new or endpoints are affected;
nobody else is told of it. -/
theorem received_set (hn : h.observers.Nodup) (state : SyncState) (cause : SyncCause)
    (announced withdrawn : List String) (who : ω) :
    h.received [.set state cause announced withdrawn] who =
      if who ∈ h.observers ∧ (h.pair ≠ (state, cause) ∨ announced ≠ [] ∨ withdrawn ≠ []) then
        [⟨who, state, cause, announced, withdrawn⟩]
      else [] := by
  have htold : (h.state ≠ state || h.cause ≠ cause || !announced.isEmpty || !withdrawn.isEmpty) =
      true ↔ h.pair ≠ (state, cause) ∨ announced ≠ [] ∨ withdrawn ≠ [] := by
    simp only [pair, Bool.or_eq_true, decide_eq_true_eq, Bool.not_eq_true',
      List.isEmpty_eq_false_iff, ne_eq, Prod.mk.injEq, not_and_or, or_assoc]
  simp only [received, sent, step, set, List.append_nil]
  by_cases hnew : h.pair ≠ (state, cause) ∨ announced ≠ [] ∨ withdrawn ≠ []
  · rw [if_pos (htold.mpr hnew), filter_notes hn]
    simp only [hnew, and_true]
  · rw [if_neg (htold.not.mpr hnew), if_neg fun hw => hnew hw.2]
    rfl

/-- Whoever is added is told the state, unless it is attached already. -/
theorem received_add (h : Hub ω) (w who : ω) :
    h.received [.add w] who =
      if w = who ∧ who ∉ h.observers then [⟨who, h.state, h.cause, [], []⟩] else [] := by
  simp only [received, sent, step, add, List.append_nil]
  by_cases hmem : w ∈ h.observers
  · have hold : ¬(w = who ∧ who ∉ h.observers) := fun hnew => hnew.2 (hnew.1 ▸ hmem)
    rw [if_pos hmem, if_neg hold]
    rfl
  · by_cases hw : w = who
    · subst hw
      simp [hmem]
    · simp [hw, hmem]

/-- Whoever is not attached receives nothing, unless it is being added. -/
theorem received_of_not_mem (hn : h.observers.Nodup) (hw : who ∉ h.observers)
    (hop : op ≠ .add who) : h.received [op] who = [] := by
  cases op with
  | add w =>
    rw [received_add, if_neg]
    rintro ⟨rfl, -⟩
    exact hop rfl
  | remove w => rfl
  | clear => rfl
  | set state cause announced withdrawn =>
    rw [received_set hn, if_neg]
    exact fun hmem => hw hmem.1

theorem received_of_detached (hn : h.observers.Nodup) (hw : who ∉ h.observers)
    (hadd : .add who ∉ ops) : h.received ops who = [] := by
  induction ops generalizing h with
  | nil => rfl
  | cons op ops ih =>
    rw [List.mem_cons, not_or] at hadd
    have hop : op ≠ .add who := Ne.symm hadd.1
    have hafter : who ∉ (h.step op).1.observers := fun hmem =>
      (mem_observers_step.mp hmem).elim hop fun hold => hw hold.1
    rw [received_cons, received_of_not_mem hn hw hop, ih (nodup_step hn op) hafter hadd.2]
    rfl

/-! ## What was told last -/

/-- The last of these notes tells the current state. -/
def Informs (h : Hub ω) (notes : List (Note ω)) : Prop :=
  ∃ n, notes.getLast? = some n ∧ (n.state, n.cause) = h.pair

/-- What an attached observer was told last is the state after each step as it was before. -/
theorem informs_step (hn : h.observers.Nodup) (hw : who ∈ h.observers) {notes : List (Note ω)}
    (hi : h.Informs notes) (op : Op ω) :
    (h.step op).1.Informs (notes ++ h.received [op] who) := by
  -- where nothing is received, the state is to be the same
  have hquiet : h.received [op] who = [] → (h.step op).1.pair = h.pair →
      (h.step op).1.Informs (notes ++ h.received [op] who) := by
    intro hnone hpair
    rw [hnone, List.append_nil, Informs, hpair]
    exact hi
  cases op with
  | add w => exact hquiet (by rw [received_add, if_neg fun hnew => hnew.2 hw]) (pair_step h _)
  | remove w => exact hquiet rfl (pair_step h _)
  | clear => exact hquiet rfl (pair_step h _)
  | set state cause announced withdrawn =>
    have hset := received_set hn state cause announced withdrawn who
    by_cases hnew : h.pair ≠ (state, cause) ∨ announced ≠ [] ∨ withdrawn ≠ []
    · rw [hset, if_pos ⟨hw, hnew⟩]
      exact ⟨_, List.getLast?_concat, rfl⟩
    · rw [if_neg fun htold => hnew htold.2] at hset
      have hsame : h.pair = (state, cause) := Classical.not_not.mp (not_or.mp hnew).1
      exact hquiet hset hsame.symm

theorem informs_run (hn : h.observers.Nodup) (hw : who ∈ h.observers) {notes : List (Note ω)}
    (hi : h.Informs notes) (hkept : .remove who ∉ ops) (hclear : .clear ∉ ops) :
    (h.run ops).Informs (notes ++ h.received ops who) := by
  induction ops generalizing h notes with
  | nil => simpa [received, sent, run] using hi
  | cons op ops ih =>
    rw [List.mem_cons, not_or] at hkept hclear
    have hstays : who ∈ (h.step op).1.observers :=
      mem_observers_step.mpr (.inr ⟨hw, Ne.symm hkept.1, Ne.symm hclear.1⟩)
    have hnext := informs_step hn hw hi op
    rw [received_cons, ← List.append_assoc]
    exact ih (nodup_step hn op) hstays hnext hkept.2 hclear.2

/-- Whoever was added and not removed since was told the current state last. -/
theorem Attends.informs (hn : h.observers.Nodup) (ha : h.Attends who ops) :
    (h.run (.add who :: ops)).Informs (h.received (.add who :: ops) who) := by
  have hadded : who ∈ (h.step (.add who)).1.observers := mem_observers_step.mpr (.inl rfl)
  have hfirst : (h.step (.add who)).1.Informs (h.received [.add who] who) := by
    rw [received_add, if_pos ⟨rfl, ha.fresh⟩]
    exact ⟨_, rfl, (pair_step h (.add who)).symm⟩
  rw [received_cons]
  exact informs_run (nodup_step hn _) hadded hfirst ha.kept ha.uncleared

/-! ## Runs -/

/-- What the observers know after a run from the hub without observers, and what they
receive next. -/
structure Informed (ops : List (Op ω)) : Prop where
  /-- Nobody is attached twice. -/
  once : ((empty : Hub ω).run ops).observers.Nodup
  /-- Attached are those that were added and not removed since. -/
  attached : ∀ who, who ∈ ((empty : Hub ω).run ops).observers ↔
    ∃ before after, ops = before ++ .add who :: after ∧ (empty.run before).Attends who after
  /-- The current state is the one that was recorded last. -/
  recorded : ((empty : Hub ω).run ops).pair =
    (ops.filterMap Op.pair?).getLast?.getD (.uninitialized, .uninitialized)
  /-- Of all that an attached observer received since it was added, the last is the current
  state. -/
  current : ∀ before who after, ops = before ++ .add who :: after →
    (empty.run before).Attends who after →
    (empty.run ops).Informs ((empty.run before).received (.add who :: after) who)
  /-- The next state that is recorded is told once to each attached observer, if it is new or
  endpoints are affected, and otherwise to nobody. -/
  told : ∀ state cause announced withdrawn who,
    ((empty : Hub ω).run ops).received [.set state cause announced withdrawn] who =
      if who ∈ ((empty : Hub ω).run ops).observers ∧
          (((empty : Hub ω).run ops).pair ≠ (state, cause) ∨ announced ≠ [] ∨ withdrawn ≠ []) then
        [⟨who, state, cause, announced, withdrawn⟩]
      else []
  /-- Whoever is not attached receives nothing until it is added. -/
  silent : ∀ who, who ∉ ((empty : Hub ω).run ops).observers → ∀ after, .add who ∉ after →
    ((empty : Hub ω).run ops).received after who = []

/-- **Every attached observer knows the current state**, whoever is added, removed and added
again in between: it was told it last, and what is told reaches everyone attached once and
nobody else. -/
theorem informed_run (ops : List (Op ω)) : Informed ops := by
  have hn : ∀ ops : List (Op ω), (empty.run ops).observers.Nodup := nodup_run List.nodup_nil
  refine ⟨hn ops, fun who => mem_observers_iff, pair_run empty ops, ?_, received_set (hn ops), ?_⟩
  · rintro before who after rfl ha
    rw [run_append]
    exact ha.informs (hn before)
  · intro who hw after hadd
    exact received_of_detached (hn ops) hw hadd

/-- An observer that is added twice is told once, and one that was removed is told what it
missed when it is added again. -/
example : (empty : Hub Nat).received
    [.add 1, .add 1, .set .success .success [] [], .set .success .success [] [], .remove 1,
      .set .fatalError .badRequest [] [], .add 1] 1 =
    [⟨1, .uninitialized, .uninitialized, [], []⟩, ⟨1, .success, .success, [], []⟩,
      ⟨1, .fatalError, .badRequest, [], []⟩] := by
  decide

end Announcer.Hub
