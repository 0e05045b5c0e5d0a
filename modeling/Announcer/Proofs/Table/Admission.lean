import Announcer.Proofs.Table.Budget
/-!
# Admission

Admission adds up the newest configs of the members, and the group is queued
again with what was sent or confirmed last. The two agree: while one with a registration
is being withdrawn nobody is admitted, so what is known of the others is what
waits, what is on its way, or what is confirmed, and the newest of these is queued.

This holds of every table that a run comes to, whatever the operations and their order,
and also for a member that asks to be announced with another config.

Results:
* `pendingConfigs_announce`: what waits of the group after an admission;
* `admitted_announce`, `admission_run`: what an admission changes and what it leaves, and
  that a request that is refused leaves everything.
-/
namespace Announcer

/-- The group is queued again with the newest configs. -/
theorem Record.pending_requeue {r : Record} (hreg : r.registration.isSome)
    (hv : r.isVacant = false) (hw : r.hasWithdrawal = false) :
    r.requeue.pending = r.latestConfig.map .announce := by
  cases hp : r.pending with
  | some op =>
    have hwaits : r.requeueConfig = none := by simp [requeueConfig, hp]
    have hannounce := (hasWithdrawal_eq_false.mp hw).1
    rw [requeue, hwaits, latestConfig, pendingConfig]
    rw [hp] at hannounce ⊢
    cases op with
    | announce c => rfl
    | withdraw c => cases hannounce
  | none =>
    have hsent : r.latestConfig = r.sentConfig := by
      simp [latestConfig, pendingConfig, hp]
    obtain ⟨c, hc⟩ := Option.isSome_iff_exists.mp (latestConfig_isSome hv hw)
    have hagain : r.requeueConfig = some c :=
      requeueConfig_eq_some.mpr ⟨hreg, hp, hsent ▸ hc⟩
    rw [requeue, hagain, hc]
    rfl

namespace Table

variable {t t' : Table} {id j : String} {registration : Registration} {config : Config}
  {ids : List String}

/-! ## What is queued -/

/-- Nobody with a registration is left without a config, and nobody is being withdrawn. -/
theorem pending_announce_other (h : t.Occupied)
    (he : t.announce id (some registration) config = .ok (t', ids)) (hj : j ≠ id)
    (hreg : (t.record j).registration.isSome) :
    (t'.record j).pending = (t.record j).latestConfig.map .announce := by
  have hadmits := checkGroup_eq_ok ((announce_eq_ok he).2.1 registration rfl)
  rw [record_announce he, if_neg hj, Option.isSome_some, if_pos rfl]
  exact Record.pending_requeue hreg (isVacant_of_registration h hreg) (hadmits.others j hj hreg)

theorem registration_announce_other
    (he : t.announce id (some registration) config = .ok (t', ids)) (hj : j ≠ id) :
    (t'.record j).registration = (t.record j).registration := by
  rw [registration_announce he, if_neg hj]

/-- What waits of the group after an admission: the newcomer's config, and the newest
config of every other member. -/
theorem pendingConfigs_announce (h : t.Occupied)
    (he : t.announce id (some registration) config = .ok (t', ids)) :
    t'.enrolledConfigs Record.pendingConfig =
      ((t.enrolledConfigs Record.latestConfig).filter fun j _ => j ≠ id).insert id config := by
  refine StringMap.ext_get? fun j => ?_
  rw [StringMap.get?_insert, StringMap.get?_filter, get?_enrolledConfigs, get?_enrolledConfigs]
  by_cases hj : j = id
  · rw [if_pos hj, record_announce he, if_pos hj]
    rfl
  · rw [if_neg hj, registration_announce_other he hj]
    by_cases hreg : (t.record j).registration.isSome = true
    · rw [if_pos hreg, if_pos hreg, Record.pendingConfig, pending_announce_other h he hj hreg]
      cases (t.record j).latestConfig <;> simp [Option.filter, hj, Operation.announced?]
    · simp [hreg]

/-- Queued again are those of which nothing was pending and something was sent or confirmed. -/
theorem ids_announce (he : t.announce id (some registration) config = .ok (t', ids)) :
    ids = (StringMap.filter (fun j r => j ≠ id && r.requeueConfig.isSome) (t.records.insert id
      { t.record id with
        registration := some registration, pending := some (.announce config) })).keys := by
  obtain ⟨hrecord, hgroup, -⟩ := announce_eq_ok he
  unfold announce at he
  simp only [hrecord, hgroup registration rfl, bind, Except.bind, pure, Except.pure,
    Except.ok.injEq, Prod.mk.injEq] at he
  exact he.2.symm

theorem mem_ids_announce (h : t.Occupied)
    (he : t.announce id (some registration) config = .ok (t', ids)) :
    j ∈ ids ↔ j ≠ id ∧ (t.record j).registration.isSome ∧ (t.record j).pending = none := by
  rw [ids_announce he, StringMap.mem_keys_iff, StringMap.get?_filter, StringMap.get?_insert]
  by_cases hj : j = id
  · simp [hj, Option.filter]
  · have hadmits := checkGroup_eq_ok ((announce_eq_ok he).2.1 registration rfl)
    have hagain : (t.record j).requeueConfig.isSome ↔
        (t.record j).registration.isSome ∧ (t.record j).pending = none := by
      constructor
      · intro hc
        obtain ⟨c, hc⟩ := Option.isSome_iff_exists.mp hc
        obtain ⟨hreg, hp, -⟩ := Record.requeueConfig_eq_some.mp hc
        exact ⟨hreg, hp⟩
      · rintro ⟨hreg, hp⟩
        have hlatest := Record.latestConfig_isSome (isVacant_of_registration h hreg)
          (hadmits.others j hj hreg)
        simpa [Record.requeueConfig, hreg, hp, Record.latestConfig, Record.pendingConfig]
          using hlatest
    have hget : (((t.records.get? j).filter fun r => r.requeueConfig.isSome)).isSome ↔
        (t.record j).requeueConfig.isSome := by
      rw [record]
      cases t.records.get? j with
      | none => simp [Record.blank, Record.requeueConfig]
      | some r => simp
    simp only [hj, if_false, ne_eq, not_false_eq_true, true_and, decide_true, Bool.true_and]
    rw [hget, hagain]

theorem requeue_of_registration {r : Record} (h : r.registration = none) : r.requeue = r := by
  rw [Record.requeue, Record.requeueConfig, h]
  rfl

theorem get?_announce_other (he : t.announce id (some registration) config = .ok (t', ids))
    (hj : j ≠ id) : t'.records.get? j = (t.records.get? j).map Record.requeue := by
  obtain ⟨-, -, rfl⟩ := announce_eq_ok he
  rw [Option.isSome_some, if_pos rfl, requeueOthers, StringMap.get?_map, StringMap.get?_insert,
    if_neg hj]
  congr 1
  funext r
  cases hc : r.requeueConfig <;> simp [Record.requeue, hc, hj]

/-! ## What an admission is -/

/-- The endpoint was let into the group: what is left of the table. -/
structure Admitted (t : Table) (id : String) (registration : Registration) (config : Config)
    (t' : Table) (ids : List String) : Prop where
  /-- It waits to be announced with its config. -/
  newcomer : (t'.record id).registration = some registration ∧
    (t'.record id).pending = some (.announce config)
  /-- Whoever else has a registration waits with the newest config it had. -/
  others : ∀ j, j ≠ id → (t'.record j).registration.isSome → ∃ c,
    (t.record j).latestConfig = some c ∧ (t'.record j).pending = some (.announce c)
  /-- What waits of the group is not too much for one event. -/
  room : (t'.enrolledConfigs Record.pendingConfig).size ≤ maxGroupMembers
  fits : totalSize (t'.enrolledConfigs Record.pendingConfig).values ≤ maxConfigBytesPerEvent
  /-- Queued again are the others of which nothing was pending. -/
  again : ∀ j, j ∈ ids ↔
    j ≠ id ∧ (t.record j).registration.isSome ∧ (t.record j).pending = none
  ascending : ids.Pairwise (· < ·)
  /-- Nothing that is confirmed or on its way is touched. -/
  landed : ∀ j, (t'.record j).confirmed = (t.record j).confirmed ∧
    (t'.record j).inFlight = (t.record j).inFlight
  /-- Nor is anyone without a registration. -/
  plain : ∀ j, (t'.record j).registration = none → t'.records.get? j = t.records.get? j
  /-- Nobody gets a registration, or another one, but the newcomer that had no record. -/
  enrolled : ∀ j r, t.records.get? j = some r → (t'.record j).registration = r.registration

theorem admitted_announce (h : t.Occupied)
    (he : t.announce id (some registration) config = .ok (t', ids)) :
    Admitted t id registration config t' ids := by
  have hlimits := (checkGroup_eq_ok ((announce_eq_ok he).2.1 registration rfl)).limits
  rw [← pendingConfigs_announce h he] at hlimits
  have hown : t'.record id = { t.record id with
      registration := some registration, pending := some (.announce config) } := by
    rw [record_announce he, if_pos rfl]
  have hother : ∀ j, j ≠ id → t'.record j = (t.record j).requeue := by
    intro j hj
    rw [record_announce he, if_neg hj]
    rfl
  refine ⟨?_, ?_, hlimits.1, hlimits.2, fun j => mem_ids_announce h he, ?_, ?_, ?_, ?_⟩
  · rw [hown]
    exact ⟨rfl, rfl⟩
  · intro j hj hreg
    rw [registration_announce_other he hj] at hreg
    have hadmits := checkGroup_eq_ok ((announce_eq_ok he).2.1 registration rfl)
    obtain ⟨c, hc⟩ := Option.isSome_iff_exists.mp (Record.latestConfig_isSome
      (isVacant_of_registration h hreg) (hadmits.others j hj hreg))
    exact ⟨c, hc, by rw [pending_announce_other h he hj hreg, hc]; rfl⟩
  · rw [ids_announce he]
    exact List.pairwise_map.mpr (StringMap.ascending _)
  · intro j
    by_cases hj : j = id
    · rw [hj, hown]
      exact ⟨rfl, rfl⟩
    · rw [hother j hj]
      exact ⟨Record.requeue_confirmed _, Record.requeue_inFlight _⟩
  · intro j hreg
    by_cases hj : j = id
    · rw [hj, hown] at hreg
      cases hreg
    · rw [registration_announce_other he hj] at hreg
      rw [get?_announce_other he hj]
      cases hget : t.records.get? j with
      | none => rfl
      | some r =>
        rw [record_eq_get t j hget] at hreg
        rw [Option.map_some, requeue_of_registration hreg]
  · intro j r hget
    by_cases hj : j = id
    · subst hj
      rw [hown, (checkRecord_eq_ok (announce_eq_ok he).1).2 r hget]
    · rw [registration_announce_other he hj, record_eq_get t j hget]

/-- **An admission queues the whole group, and a refusal changes nothing.** After every run
from the empty table, whatever the operations and their order: a request that is refused
leaves the table as it is, and one that is let into the group queues every member with its
newest config, within the limits of one event, and touches nothing else. -/
theorem admission_run (ops : List Op) (id : String) (registration : Option Registration)
    (config : Config) :
    (∀ reason, (Table.empty.run ops).announce id registration config = .error reason →
      (Table.empty.run ops).step (.announce id registration config) = Table.empty.run ops) ∧
    (∀ reason, (Table.empty.run ops).withdraw id registration = .error reason →
      (Table.empty.run ops).step (.withdraw id registration) = Table.empty.run ops) ∧
    ∀ r t' ids, registration = some r →
      (Table.empty.run ops).announce id registration config = .ok (t', ids) →
      (Table.empty.run ops).step (.announce id registration config) = t' ∧
        Admitted (Table.empty.run ops) id r config t' ids := by
  have hocc : (Table.empty.run ops).Occupied :=
    run_keeps (P := Occupied) (fun _ op h => occupied_step h op) ops .empty occupied_empty
  refine ⟨fun reason he => step_announce_refused he, fun reason he => step_withdraw_refused he, ?_⟩
  rintro r t' ids rfl he
  exact ⟨step_announce he, admitted_announce hocc he⟩

/-- The registration of a group. -/
def groupKey : Registration := ⟨"product", "serial", "acme", "id"⟩

/-- One member is confirmed, and its update is on its way with a second member; an endpoint
without a registration waits. -/
def groupOnItsWay : List Op :=
  [.announce "a" (some groupKey) ⟨"1"⟩, .takeAll, .complete, .announce "a" (some groupKey) ⟨"[1]"⟩,
    .announce "b" (some groupKey) ⟨"2"⟩, .takeAll, .announce "plain" none ⟨"3"⟩]

/-- The table after it, and with a third member. -/
def groupWaiting : Table := Table.empty.run groupOnItsWay

def groupOfThree : Table := groupWaiting.step (.announce "c" (some groupKey) ⟨"4"⟩)

/-- A third member is let in, and two requests are refused. -/
theorem admission_groupOnItsWay :
    (groupWaiting.announce "plain" (some groupKey) ⟨"4"⟩ = .error (.registrationChanged "plain") ∧
      groupWaiting.step (.announce "plain" (some groupKey) ⟨"4"⟩) = groupWaiting) ∧
    (groupWaiting.withdraw "a" (some groupKey) = .error (.dedupMember "a") ∧
      groupWaiting.step (.withdraw "a" (some groupKey)) = groupWaiting) ∧
    groupWaiting.announce "c" (some groupKey) ⟨"4"⟩ = .ok (groupOfThree, ["a", "b"]) ∧
      Admitted groupWaiting "c" groupKey ⟨"4"⟩ groupOfThree ["a", "b"] := by
  have hplain : groupWaiting.announce "plain" (some groupKey) ⟨"4"⟩ =
      .error (.registrationChanged "plain") := by decide +kernel
  have hmember : groupWaiting.withdraw "a" (some groupKey) = .error (.dedupMember "a") := by
    decide +kernel
  have hlet : groupWaiting.announce "c" (some groupKey) ⟨"4"⟩ =
      .ok (groupOfThree, ["a", "b"]) := by decide +kernel
  exact ⟨⟨hplain, (admission_run groupOnItsWay "plain" (some groupKey) ⟨"4"⟩).1 _ hplain⟩,
    ⟨hmember, (admission_run groupOnItsWay "a" (some groupKey) ⟨"4"⟩).2.1 _ hmember⟩,
    hlet, ((admission_run groupOnItsWay "c" (some groupKey) ⟨"4"⟩).2.2 groupKey _ _ rfl hlet).2⟩

end Table

end Announcer
