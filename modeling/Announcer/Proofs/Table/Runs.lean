import Announcer.Proofs.Table.Records
/-!
# Runs of the table

The eight operations of the endpoint table as one `step`, and runs as lists of
operations. A request that is refused leaves the table as it is.

A bootstrap takes back what is on its way before it compares the table with the
store, so a `reconcile` is `isOrderly` only while nothing is on its way. Runs
without that restriction are plain `run`s.
-/
namespace Announcer.Table

/-- What can be done to a table. -/
inductive Op where
  | announce (id : String) (registration : Option Registration) (config : Config)
  | withdraw (id : String) (registration : Option Registration)
  | reclaim
  | select
  | takeAll
  | complete
  | abandon
  | reconcile (stored : Configs)
  deriving DecidableEq, Repr

/-- Does one operation. -/
def step (t : Table) : Op → Table
  | .announce id registration config =>
    match t.announce id registration config with
    | .ok (t', _) => t'
    | .error _ => t
  | .withdraw id registration =>
    match t.withdraw id registration with
    | .ok t' => t'
    | .error _ => t
  | .reclaim => t.reclaim.1
  | .select => t.selectBatch.1
  | .takeAll => t.takeAll.1
  | .complete => t.complete.1
  | .abandon => t.abandon.1
  | .reconcile stored => (t.reconcile stored).1

section Requests
variable {t t' : Table} {id : String} {registration : Option Registration} {reason : Rejection}

theorem step_announce {config : Config} {ids : List String}
    (h : t.announce id registration config = .ok (t', ids)) :
    t.step (.announce id registration config) = t' := by
  simp only [step, h]

theorem step_announce_refused {config : Config}
    (h : t.announce id registration config = .error reason) :
    t.step (.announce id registration config) = t := by
  simp only [step, h]

theorem step_withdraw (h : t.withdraw id registration = .ok t') :
    t.step (.withdraw id registration) = t' := by
  simp only [step, h]

theorem step_withdraw_refused (h : t.withdraw id registration = .error reason) :
    t.step (.withdraw id registration) = t := by
  simp only [step, h]

/-- What holds of the table and of whatever an announcement makes of it. -/
theorem step_announce_induction {P : Table → Prop} (hsame : P t)
    (htaken : ∀ t' ids, t.announce id registration config = .ok (t', ids) → P t') :
    P (t.step (.announce id registration config)) := by
  cases he : t.announce id registration config with
  | error reason => rwa [step_announce_refused he]
  | ok r =>
    rw [step_announce he]
    exact htaken _ _ he

/-- What holds of the table and of whatever a withdrawal makes of it. -/
theorem step_withdraw_induction {P : Table → Prop} (hsame : P t)
    (htaken : ∀ t', t.withdraw id registration = .ok t' → P t') :
    P (t.step (.withdraw id registration)) := by
  cases he : t.withdraw id registration with
  | error reason => rwa [step_withdraw_refused he]
  | ok t' =>
    rw [step_withdraw he]
    exact htaken t' he

end Requests

/-- Does one operation after the other. -/
def run (t : Table) (ops : List Op) : Table := ops.foldl step t

/-- False for a comparison with the store while something is on its way. -/
def Op.isOrderly (t : Table) : Op → Bool
  | .reconcile _ => t.isIdle
  | _ => true

/-- Every operation is orderly where it is done. -/
def orderly : Table → List Op → Bool
  | _, [] => true
  | t, op :: ops => op.isOrderly t && orderly (t.step op) ops

theorem run_append (t : Table) (before after : List Op) :
    t.run (before ++ after) = (t.run before).run after :=
  List.foldl_append

theorem orderly_append (t : Table) (before after : List Op) :
    orderly t (before ++ after) = (orderly t before && orderly (t.run before) after) := by
  induction before generalizing t with
  | nil => rfl
  | cons op before ih =>
    rw [List.cons_append, orderly, orderly, ih, Bool.and_assoc]
    rfl

/-- What every step keeps holds after every run. -/
theorem run_keeps {P : Table → Prop} (hstep : ∀ t op, P t → P (t.step op)) (ops : List Op)
    (t : Table) (h : P t) : P (t.run ops) := by
  induction ops generalizing t with
  | nil => exact h
  | cons op ops ih => exact ih (t.step op) (hstep t op h)

/-- What every orderly step keeps holds after an orderly run. -/
theorem run_induction {P : Table → Prop}
    (hstep : ∀ t op, P t → op.isOrderly t = true → P (t.step op)) :
    ∀ (ops : List Op) (t : Table), P t → orderly t ops = true → P (t.run ops) := by
  intro ops
  induction ops with
  | nil => intro t h _; exact h
  | cons op ops ih =>
    intro t h ho
    simp only [orderly, Bool.and_eq_true] at ho
    exact ih (t.step op) (hstep t op h ho.1) ho.2

end Announcer.Table
