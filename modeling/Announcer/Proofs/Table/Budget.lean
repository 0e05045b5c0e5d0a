import Mathlib
import Announcer.Proofs.SubBatch
import Announcer.Proofs.Table.Target
import Announcer.Proofs.Table.Together
/-!
# The bytes of the group

Admission adds up the newest configs of all members and refuses what would be
too much for one event, so after an admission the group fits. Of a member that
nobody withdraws the newest config is what it is to become (`Record.target`), so
only one other operation changes the sum: dropping a batch returns members to
what is confirmed of them, and what is confirmed was never added up.

A registry takes batches only from an idle table, and then the whole group is
dropped or nothing of it, so every member falls back and together they are as
large as what is confirmed. This was sent as a whole and fits, unless a bootstrap
has confirmed a member that it found stored while another one was still waiting.

Results: `fits_run` says that the group fits as long as nothing was dropped since the
last admission, or as long as after every bootstrap of a serial run the confirmed
configs fit; `overweight_settledApart` is a run where it does not.
-/
namespace Announcer

/-! ## Sizes -/

theorem totalSize_insert {m : Configs} {id : String} (c : Config) (h : m.get? id = none) :
    totalSize (m.insert id c).values = c.size + totalSize m.values :=
  totalSize_perm ((Entries.perm_insert c h).map Prod.snd)

/-- A map with some of the configs of another one is no larger. -/
theorem totalSize_le_of_get? {m m' : Configs}
    (h : ∀ id, m'.get? id = none ∨ m'.get? id = m.get? id) :
    totalSize m'.values ≤ totalSize m.values := by
  have hfilter : m' = m.filter fun id _ => m'.contains id := by
    refine StringMap.ext_get? fun id => ?_
    rw [StringMap.get?_filter, StringMap.contains]
    rcases h id with hid | hid
    · simp [hid]
    · rw [← hid]
      cases m'.get? id <;> simp [Option.filter]
  rw [hfilter]
  exact totalSize_sublist (List.filter_sublist.map Prod.snd)

namespace Table

variable {t t' : Table} {id : String}

/-! ## The configs of the group -/

/-- The bytes of the group: the newest configs of its members together. -/
def groupSize (t : Table) : Nat :=
  totalSize ((t.records.filter fun _ r => r.isMember).values.filterMap Record.latestConfig)

/-- What `f` reads off the records with a registration. -/
def enrolledConfigs (t : Table) (f : Record → Option Config) : Configs :=
  t.records.filterMap fun _ r => if r.registration.isSome then f r else none

/-- The bytes of it. -/
def weight (t : Table) (f : Record → Option Config) : Nat := totalSize (t.enrolledConfigs f).values

theorem get?_enrolledConfigs (t : Table) (f : Record → Option Config) (id : String) :
    (t.enrolledConfigs f).get? id =
      if (t.record id).registration.isSome then f (t.record id) else none :=
  get?_filterMap_records (f := fun r => if r.registration.isSome then f r else none) rfl t id

theorem filterMap_members (t : Table) (p : String → Bool) :
    (t.records.filter fun id r => p id && r.isMember).values.filterMap Record.latestConfig =
      ((t.enrolledConfigs Record.latestConfig).filter fun id _ => p id).values := by
  simp only [enrolledConfigs, StringMap.values, StringMap.filter, StringMap.filterMap,
    List.filterMap_map, List.filterMap_filter, List.filter_filterMap, List.map_filterMap]
  refine List.filterMap_congr fun e _ => ?_
  by_cases hreg : e.2.registration.isSome = true
  · cases h : e.2.latestConfig with
    | none => simp [Record.isMember, h]
    | some c => cases hp : p e.1 <;> simp [Record.isMember, Option.filter, hreg, h, hp]
  · simp [Record.isMember, hreg]

theorem groupSize_eq_weight (t : Table) : t.groupSize = t.weight Record.latestConfig := by
  have hall := t.filterMap_members fun _ => true
  have hsame : (t.enrolledConfigs Record.latestConfig).filter (fun _ _ => true) =
      t.enrolledConfigs Record.latestConfig := by
    refine StringMap.ext_get? fun id => ?_
    rw [StringMap.get?_filter]
    cases (t.enrolledConfigs Record.latestConfig).get? id <;> rfl
  rw [hsame] at hall
  exact congrArg totalSize hall

/-- A table in which the records with a registration have some of what they had
in another one. -/
theorem weight_le {f g : Record → Option Config}
    (h : ∀ id, (t'.record id).registration.isSome → g (t'.record id) = none ∨
      ((t.record id).registration.isSome ∧ g (t'.record id) = f (t.record id))) :
    t'.weight g ≤ t.weight f := by
  refine totalSize_le_of_get? fun id => ?_
  rw [get?_enrolledConfigs, get?_enrolledConfigs]
  by_cases hreg : (t'.record id).registration.isSome = true
  · rw [if_pos hreg]
    refine (h id hreg).imp_right fun ⟨hbefore, hsame⟩ => ?_
    rw [if_pos hbefore, hsame]
  · exact .inl (if_neg hreg)

end Table

namespace Record

/-- Of a record that nothing withdraws, the newest config is what it is to become. -/
theorem latestConfig_eq_target {r : Record} (hw : r.hasWithdrawal = false) :
    r.latestConfig = r.target := by
  obtain ⟨hp, hf⟩ := hasWithdrawal_eq_false.mp hw
  unfold latestConfig sentConfig pendingConfig inFlightConfig target
  cases hpend : r.pending with
  | some op =>
    rw [hpend] at hp
    cases op with
    | announce c => rfl
    | withdraw c => cases hp
  | none =>
    cases hflight : r.inFlight with
    | some op =>
      rw [hflight] at hf
      cases op with
      | announce c => rfl
      | withdraw c => cases hf
    | none => rfl

end Record

namespace Table

variable {t t' : Table} {id : String}

/-! ## Admission -/

/-- Admission sets the newcomer's config and leaves those of the others. -/
theorem enrolledConfigs_announce {registration : Registration} {config : Config}
    {ids : List String} (hs : Secure t)
    (he : t.announce id (some registration) config = .ok (t', ids)) :
    t'.enrolledConfigs Record.latestConfig =
      ((t.enrolledConfigs Record.latestConfig).filter fun j _ => j ≠ id).insert id config := by
  have hs' := secure_announce hs he
  refine StringMap.ext_get? fun j => ?_
  rw [StringMap.get?_insert, StringMap.get?_filter, get?_enrolledConfigs, get?_enrolledConfigs,
    registration_announce he]
  by_cases hj : j = id
  · rw [if_pos hj, if_pos hj, record_announce he, if_pos hj]
    rfl
  · rw [if_neg hj, if_neg hj]
    have hsame := registration_announce he j
    rw [if_neg hj] at hsame
    by_cases hreg : (t.record j).registration.isSome = true
    · rw [if_pos hreg, Record.latestConfig_eq_target (hs.unwithdrawn j hreg),
        Record.latestConfig_eq_target (hs'.unwithdrawn j (hsame ▸ hreg))]
      have htarget := target_announce he j
      rw [if_neg hj] at htarget
      rw [show (t'.record j).target = (t.record j).target from htarget]
      cases (t.record j).target <;> simp [Option.filter, hj, hreg]
    · simp [hreg]

/-- The number of configs that wait, and their bytes, are those that were checked. -/
theorem Admits.limits {registration : Registration} {config : Config}
    (h : t.Admits id registration config) :
    (((t.enrolledConfigs Record.latestConfig).filter fun j _ => j ≠ id).insert id config).size ≤
        maxGroupMembers ∧
      totalSize (((t.enrolledConfigs Record.latestConfig).filter fun j _ => j ≠ id).insert
        id config).values ≤ maxConfigBytesPerEvent := by
  have hothers := t.filterMap_members fun j => j ≠ id
  have hnew : ((t.enrolledConfigs Record.latestConfig).filter fun j _ => j ≠ id).get? id =
      none := by
    rw [StringMap.get?_filter]
    simp
  constructor
  · have hle := List.length_filterMap_le Record.latestConfig (t.otherMembers id).values
    rw [otherMembers, hothers] at hle
    have hroom := h.room
    rw [StringMap.size, StringMap.insert, (Entries.perm_insert config hnew).length_eq]
    simp only [StringMap.size, StringMap.values, List.length_map, List.length_cons,
      otherMembers] at hle hroom ⊢
    omega
  · have hfits := h.fits
    rw [otherMembers, hothers] at hfits
    rw [totalSize_insert config hnew]
    exact hfits

/-- The group fits after an admission. -/
theorem fits_announce {registration : Registration} {config : Config} {ids : List String}
    (hs : Secure t) (he : t.announce id (some registration) config = .ok (t', ids)) :
    t'.groupSize ≤ maxConfigBytesPerEvent := by
  rw [groupSize_eq_weight, weight, enrolledConfigs_announce hs he]
  exact (checkGroup_eq_ok ((announce_eq_ok he).2.1 registration rfl)).limits.2

/-! ## What changes the group -/

/-- True when an operation admits somebody into the group. -/
def Op.admits (t : Table) : Op → Bool
  | .announce id registration config =>
    registration.isSome && (t.announce id registration config).isOk
  | _ => false

/-- True when an operation drops a batch. -/
def Op.drops (t : Table) : Op → Bool
  | .abandon => !t.isIdle
  | _ => false

theorem Op.admits_of_taken {registration : Option Registration} {config : Config}
    {r : Table × List String} (he : t.announce id registration config = .ok r) :
    (Op.announce id registration config).admits t = registration.isSome := by
  rw [Op.admits, he]
  exact Bool.and_true _

/-- Only admission enrols anybody. -/
theorem enrolled_of_step {op : Op} (ha : op.admits t = false)
    (hreg : ((t.step op).record id).registration.isSome) :
    (t.record id).registration.isSome ∧
      ((t.step op).record id).registration = (t.record id).registration := by
  cases registration_step t op id with
  | kept hsame => exact ⟨hsame ▸ hreg, hsame⟩
  | removed hgone =>
    rw [hgone] at hreg
    cases hreg
  | created hfresh hasked htaken =>
    rw [registration_announce htaken, if_pos rfl] at hreg
    rw [hasked, Op.admits_of_taken htaken, hreg] at ha
    cases ha

/-- Nothing but admission and dropping a batch changes what becomes of the members. -/
theorem target_of_step {op : Op} (ho : op.isOrderly t = true) (ha : op.admits t = false)
    (hd : op.drops t = false) (hreg : ((t.step op).record id).registration.isSome) :
    (t.step op).target id = t.target id := by
  obtain ⟨hbefore, -⟩ := enrolled_of_step ha hreg
  rw [target_step t op ho]
  cases op with
  | announce j registration config =>
    cases he : t.announce j registration config with
    | error reason => simp [Op.revise, he, Except.isOk, Except.toBool]
    | ok r =>
      have hnone : registration = none := by
        simpa [Op.admits_of_taken he] using ha
      have hj : id ≠ j := by
        rintro rfl
        rw [step_announce he, registration_announce he, if_pos rfl, hnone] at hreg
        cases hreg
      simp [Op.revise, he, Except.isOk, Except.toBool, hj]
  | withdraw j registration =>
    cases he : t.withdraw j registration with
    | error reason => simp [Op.revise, he, Except.isOk, Except.toBool]
    | ok t' =>
      have hj : id ≠ j := by
        rintro rfl
        obtain ⟨-, -, -, hnone, -⟩ := withdraw_eq_ok he
        rw [hnone] at hbefore
        cases hbefore
      simp [Op.revise, he, Except.isOk, Except.toBool, hj]
  | abandon =>
    have hidle : t.isIdle = true := by simpa [Op.drops] using hd
    simp [Op.revise, isIdle_iff.mp hidle id]
  | _ => rfl

/-- Nothing but admission and dropping a batch makes the group larger. -/
theorem groupSize_step (hs : Secure t) (op : Op) (ho : op.isOrderly t = true)
    (ha : op.admits t = false) (hd : op.drops t = false) :
    (t.step op).groupSize ≤ t.groupSize := by
  have hs' := secure_step hs op ho
  rw [groupSize_eq_weight, groupSize_eq_weight]
  refine weight_le fun id hreg => .inr ?_
  obtain ⟨hbefore, -⟩ := enrolled_of_step ha hreg
  rw [Record.latestConfig_eq_target (hs.unwithdrawn id hbefore),
    Record.latestConfig_eq_target (hs'.unwithdrawn id hreg)]
  exact ⟨hbefore, target_of_step ho ha hd hreg⟩

theorem groupSize_of_admits (hs : Secure t) {op : Op} (ha : op.admits t = true) :
    (t.step op).groupSize ≤ maxConfigBytesPerEvent := by
  cases op with
  | announce id registration config =>
    cases registration with
    | none => cases ha
    | some r =>
      cases he : t.announce id (some r) config with
      | error reason => simp [Op.admits, he, Except.isOk, Except.toBool] at ha
      | ok taken =>
        rw [step_announce he]
        exact fits_announce hs he
  | _ => cases ha

/-- True when a batch was dropped since somebody was admitted into the group. -/
def dropped (t : Table) (before : Bool) : List Op → Bool
  | [] => before
  | op :: ops => dropped (t.step op) (!op.admits t && (before || op.drops t)) ops

/-- The group fits as long as nothing was dropped since the last admission. -/
theorem fits_of_dropped (ops : List Op) {t : Table} {before : Bool} (hs : Secure t)
    (ht : before = false → t.groupSize ≤ maxConfigBytesPerEvent) (ho : orderly t ops = true)
    (hd : t.dropped before ops = false) : (t.run ops).groupSize ≤ maxConfigBytesPerEvent := by
  induction ops generalizing t before with
  | nil => exact ht hd
  | cons op ops ih =>
    simp only [orderly, Bool.and_eq_true] at ho
    refine ih (secure_step hs op ho.1) ?_ ho.2 hd
    intro hbefore
    cases ha : op.admits t with
    | true => exact groupSize_of_admits hs ha
    | false =>
      rw [ha, Bool.not_false, Bool.true_and, Bool.or_eq_false_iff] at hbefore
      exact Nat.le_trans (groupSize_step hs op ho.1 ha hbefore.2) (ht hbefore.1)

/-! ## Falling back -/

/-- What is on its way of the group, and what is pending: nothing is on its way, or
nothing is pending, or of every record with a registration something is. -/
inductive Level (t : Table) : Prop where
  | landed (all : ∀ id, (t.record id).registration.isSome → (t.record id).inFlight = none)
  | sent (all : ∀ id, (t.record id).registration.isSome → (t.record id).pending = none)
  | queued (all : ∀ id, (t.record id).registration.isSome → (t.record id).pending.isSome)

/-- The group fits as it is to become, as it was sent last, and as it is confirmed. -/
structure Light (t : Table) : Prop where
  group : t.groupSize ≤ maxConfigBytesPerEvent
  sent : t.weight Record.sentConfig ≤ maxConfigBytesPerEvent
  confirmed : t.weight Record.confirmed ≤ maxConfigBytesPerEvent
  level : t.Level

theorem light_empty : Light .empty where
  group := Nat.zero_le _
  sent := Nat.zero_le _
  confirmed := Nat.zero_le _
  level := .landed fun _ _ => rfl

theorem level_of_isIdle (ht : t.isIdle = true) : t.Level :=
  .landed fun id _ => isIdle_iff.mp ht id

/-- From an idle table, what was sent is what is confirmed. -/
theorem weight_sent_of_isIdle (ht : t.isIdle = true) :
    t.weight Record.sentConfig ≤ t.weight Record.confirmed := by
  refine weight_le fun id hreg => .inr ⟨hreg, ?_⟩
  rw [Record.sentConfig, Record.inFlightConfig, isIdle_iff.mp ht id]
  rfl

/-- Operations that only concern endpoints without a registration. -/
theorem Light.congr (h : Light t)
    (hrec : ∀ id, (t'.record id).registration.isSome → t'.record id = t.record id) :
    Light t' := by
  have hweight : ∀ f : Record → Option Config, t'.weight f ≤ t.weight f := by
    intro f
    refine weight_le fun id hreg => .inr ?_
    have hsame := hrec id hreg
    rw [hsame] at hreg ⊢
    exact ⟨hreg, rfl⟩
  have hall : ∀ P : Record → Prop, (∀ id, (t.record id).registration.isSome → P (t.record id)) →
      ∀ id, (t'.record id).registration.isSome → P (t'.record id) := by
    intro P hP id hreg
    have hsame := hrec id hreg
    rw [hsame] at hreg ⊢
    exact hP id hreg
  refine ⟨?_, Nat.le_trans (hweight _) h.sent, Nat.le_trans (hweight _) h.confirmed, ?_⟩
  · rw [groupSize_eq_weight]
    exact Nat.le_trans (hweight _) (groupSize_eq_weight t ▸ h.group)
  · cases h.level with
    | landed all => exact .landed (hall (·.inFlight = none) all)
    | sent all => exact .sent (hall (·.pending = none) all)
    | queued all => exact .queued (hall (·.pending.isSome) all)

/-- What a table reads off its records, pending operations apart, an admission leaves. -/
theorem weight_announce {r : Registration} {config : Config} {ids : List String}
    (he : t.announce id (some r) config = .ok (t', ids)) {f : Record → Option Config}
    (hblank : f .blank = none)
    (hpending : ∀ q p, f { q with registration := some r, pending := p } = f q)
    (hrequeue : ∀ q, f q.requeue = f q) : t'.weight f ≤ t.weight f := by
  refine weight_le fun j hreg => ?_
  have hsame := registration_announce he j
  rw [record_announce he]
  by_cases hj : j = id
  · subst hj
    rw [if_pos rfl, hpending]
    cases hget : t.records.get? j with
    | none => exact .inl (by rw [record, hget]; exact hblank)
    | some q =>
      -- the record is there, so the request repeats its registration
      have hown := (checkRecord_eq_ok (announce_eq_ok he).1).2 q hget
      rw [record_eq_get t j hget, hown]
      exact .inr ⟨rfl, rfl⟩
  · rw [if_neg hj] at hsame ⊢
    rw [hsame] at hreg
    exact .inr ⟨hreg, hrequeue _⟩

theorem light_announce {registration : Option Registration} {config : Config}
    {ids : List String} (hs : Secure t) (h : Light t)
    (he : t.announce id registration config = .ok (t', ids)) : Light t' := by
  cases registration with
  | none => exact h.congr fun j hreg => record_announce_plain he hreg
  | some r =>
    have hsent : ∀ q : Record, q.requeue.sentConfig = q.sentConfig := by
      intro q
      rw [Record.sentConfig, Record.inFlightConfig, Record.requeue_inFlight,
        Record.requeue_confirmed]
      rfl
    exact ⟨fits_announce hs he,
      Nat.le_trans (weight_announce he rfl (fun _ _ => rfl) hsent) h.sent,
      Nat.le_trans (weight_announce he rfl (fun _ _ => rfl) Record.requeue_confirmed) h.confirmed,
      .queued fun j hreg => pending_announce hs he hreg⟩

/-- Taking all that is pending sends the group as it is to become. -/
theorem light_takeAll (ht : t.isIdle = true) (hs : Secure t) (h : Light t) :
    Light t.takeAll.1 := by
  have hregistration := fun id => registration_take t (fun _ => true) id
  have hgroup : t.takeAll.1.groupSize ≤ t.groupSize :=
    groupSize_step hs .takeAll rfl rfl rfl
  refine ⟨Nat.le_trans hgroup h.group, ?_, ?_, .sent fun id _ => ?_⟩
  · refine Nat.le_trans (weight_le fun id hreg => .inr ⟨hregistration id ▸ hreg, ?_⟩)
      (groupSize_eq_weight t ▸ h.group)
    rw [record_takeAll ht, Record.latestConfig, Record.sentConfig, Record.sentConfig,
      Record.inFlightConfig, Record.inFlightConfig, isIdle_iff.mp ht id]
    rfl
  · refine Nat.le_trans (weight_le fun id hreg => .inr ⟨hregistration id ▸ hreg, ?_⟩) h.confirmed
    rw [record_takeAll ht]
    rfl
  · rw [record_takeAll ht]
    rfl

theorem light_selectBatch (ht : t.isIdle = true) (hs : Secure t) (h : Light t) :
    Light t.selectBatch.1 := by
  rcases record_selectBatch_cases hs with hall | hsame
  · rw [hall]
    exact light_takeAll ht hs h
  · exact h.congr hsame

theorem light_reclaim (hs : Secure t) (h : Light t) : Light t.reclaim.1 := by
  have hrec := fun id => record_reclaim t id
  have hgroup : t.reclaim.1.groupSize ≤ t.groupSize :=
    groupSize_step hs .reclaim rfl rfl rfl
  have hconfirmed : t.reclaim.1.weight Record.confirmed ≤ maxConfigBytesPerEvent := by
    refine Nat.le_trans (weight_le fun id hreg => .inr ?_) h.confirmed
    rw [hrec] at hreg ⊢
    exact ⟨hreg, rfl⟩
  have hidle := t.isIdle_reclaim
  exact ⟨Nat.le_trans hgroup h.group, Nat.le_trans (weight_sent_of_isIdle hidle) hconfirmed,
    hconfirmed, level_of_isIdle hidle⟩

/-- What landed is what was sent. -/
theorem light_complete (hs : Secure t) (h : Light t) : Light t.complete.1 := by
  have hgroup : t.complete.1.groupSize ≤ t.groupSize :=
    groupSize_step hs .complete rfl rfl rfl
  have hconfirmed : t.complete.1.weight Record.confirmed ≤ maxConfigBytesPerEvent := by
    refine Nat.le_trans (weight_le fun id hreg => .inr ?_) h.sent
    rw [record_complete] at hreg ⊢
    have hkept := Record.kept_of_registration hreg
    rw [hkept] at hreg ⊢
    rw [Record.land_registration] at hreg
    refine ⟨hreg, ?_⟩
    have hw := (Record.hasWithdrawal_eq_false.mp (hs.unwithdrawn id hreg)).2
    rw [Record.land_confirmed, Record.sentConfig, Record.inFlightConfig]
    cases hop : (t.record id).inFlight with
    | none => rfl
    | some op =>
      rw [hop] at hw
      cases op with
      | announce c => rfl
      | withdraw c => cases hw
  have hidle := t.isIdle_complete
  exact ⟨Nat.le_trans hgroup h.group, Nat.le_trans (weight_sent_of_isIdle hidle) hconfirmed,
    hconfirmed, level_of_isIdle hidle⟩

/-- Dropping a batch leaves members with what is pending of all of them, or with
what is confirmed of all of them. -/
theorem light_abandon (hs : Secure t) (h : Light t) : Light t.abandon.1 := by
  have hrec : ∀ id, (t.abandon.1.record id).registration.isSome →
      t.abandon.1.record id = { t.record id with inFlight := none } := by
    intro id hreg
    rw [record_abandon] at hreg ⊢
    exact Record.kept_of_registration hreg
  have hweight : ∀ f g : Record → Option Config,
      (∀ id, (t.record id).registration.isSome →
        g { t.record id with inFlight := none } = f (t.record id)) →
      t.abandon.1.weight g ≤ t.weight f := by
    intro f g hfg
    refine weight_le fun id hreg => .inr ?_
    have hsame := hrec id hreg
    rw [hsame] at hreg ⊢
    exact ⟨hreg, hfg id hreg⟩
  have hconfirmed : t.abandon.1.weight Record.confirmed ≤ maxConfigBytesPerEvent :=
    Nat.le_trans (hweight _ _ fun _ _ => rfl) h.confirmed
  have hidle := t.isIdle_abandon
  refine ⟨?_, Nat.le_trans (weight_sent_of_isIdle hidle) hconfirmed, hconfirmed,
    level_of_isIdle hidle⟩
  rw [groupSize_eq_weight]
  have hgroup := groupSize_eq_weight t ▸ h.group
  have hlatest : ∀ id, ({ t.record id with inFlight := none } : Record).latestConfig =
      ((t.record id).pendingConfig <|> (t.record id).confirmed) := fun _ => rfl
  cases h.level with
  | landed all =>
    refine Nat.le_trans (hweight _ _ fun id hreg => ?_) hgroup
    rw [hlatest, Record.latestConfig, Record.sentConfig, Record.inFlightConfig, all id hreg]
    rfl
  | sent all =>
    refine Nat.le_trans (hweight _ _ fun id hreg => ?_) h.confirmed
    rw [hlatest, Record.pendingConfig, all id hreg]
    rfl
  | queued all =>
    refine Nat.le_trans (hweight _ _ fun id hreg => ?_) hgroup
    -- what is pending of a member is its announcement, and it decides
    obtain ⟨op, hop⟩ := Option.isSome_iff_exists.mp (all id hreg)
    have hw := (Record.hasWithdrawal_eq_false.mp (hs.unwithdrawn id hreg)).1
    rw [hop] at hw
    rw [hlatest, Record.latestConfig, Record.pendingConfig, hop]
    cases op with
    | announce c => rfl
    | withdraw c => cases hw

/-- A bootstrap leaves the group as it is to become, and confirms what it finds stored. -/
theorem light_reconcile (ht : t.isIdle = true) (hs : Secure t) (h : Light t) {stored : Configs}
    (hc : (t.reconcile stored).1.weight Record.confirmed ≤ maxConfigBytesPerEvent) :
    Light (t.reconcile stored).1 := by
  have hgroup : (t.reconcile stored).1.groupSize ≤ t.groupSize :=
    groupSize_step hs (.reconcile stored) ht rfl rfl
  have hidle := isIdle_of_inFlight_eq (inFlight_reconcile t stored) ht
  exact ⟨Nat.le_trans hgroup h.group, Nat.le_trans (weight_sent_of_isIdle hidle) hc, hc,
    level_of_isIdle hidle⟩

/-! ## Runs -/

/-- True unless a bootstrap leaves more confirmed of the group than one event takes. -/
def Op.foundFits (t : Table) : Op → Bool
  | .reconcile stored =>
    (t.reconcile stored).1.weight Record.confirmed ≤ maxConfigBytesPerEvent
  | _ => true

/-- After every bootstrap of a run, what is confirmed of the group fits into one event. -/
def foundFits : Table → List Op → Bool
  | _, [] => true
  | t, op :: ops => op.foundFits t && foundFits (t.step op) ops

theorem light_step (hs : Secure t) (h : Light t) {op : Op} (ho : op.isSerial t = true)
    (hf : op.foundFits t = true) : Light (t.step op) := by
  cases op with
  | announce id registration config =>
    exact step_announce_induction h fun _ _ he => light_announce hs h he
  | withdraw id registration =>
    exact step_withdraw_induction h fun _ he => h.congr fun _ hreg => record_withdraw_plain he hreg
  | reclaim => exact light_reclaim hs h
  | select => exact light_selectBatch ho hs h
  | takeAll => exact light_takeAll ho hs h
  | complete => exact light_complete hs h
  | abandon => exact light_abandon hs h
  | reconcile stored => exact light_reconcile ho hs h (by simpa [Op.foundFits] using hf)

/-- The group fits in every serial run whose bootstraps leave it light. -/
theorem light_run (ops : List Op) {t : Table} (hs : Secure t) (h : Light t)
    (ho : serial t ops = true) (hf : foundFits t ops = true) : Light (t.run ops) := by
  induction ops generalizing t with
  | nil => exact h
  | cons op ops ih =>
    simp only [serial, foundFits, Bool.and_eq_true] at ho hf
    exact ih (secure_step hs op (isOrderly_of_isSerial ho.1)) (light_step hs h ho.1 hf.1) ho.2 hf.2

/-- **The group fits into one event**, after every orderly run from the empty table in
which no batch was dropped since somebody was admitted into the group; and after
every serial run, whatever is dropped in it, in which what is confirmed of the group fits
after each bootstrap. -/
theorem fits_run (ops : List Op) (ho : orderly .empty ops = true) :
    (Table.empty.dropped false ops = false →
      (Table.empty.run ops).groupSize ≤ maxConfigBytesPerEvent) ∧
    (serial .empty ops = true → foundFits .empty ops = true →
      (Table.empty.run ops).groupSize ≤ maxConfigBytesPerEvent) :=
  ⟨fits_of_dropped ops secure_empty (fun _ => Nat.zero_le _) ho,
    fun hs hf => (light_run ops secure_empty light_empty hs hf).group⟩

/-- Two members of the group are confirmed and one of them is updated. A first update
lands; a second one is dropped, and a bootstrap finds what is confirmed stored. -/
def droppedUpdate : List Op :=
  let r : Registration := ⟨"product", "serial", "acme", "id"⟩
  [.announce "a" (some r) ⟨"1"⟩, .announce "b" (some r) ⟨"[2]"⟩, .takeAll, .complete,
    .announce "a" (some r) ⟨"[3,4]"⟩, .select, .complete, .announce "a" (some r) ⟨"5"⟩, .takeAll,
    .abandon, .reconcile (.ofList [("a", ⟨"[3,4]"⟩), ("b", ⟨"[2]"⟩)])]

/-- Until the second update is dropped by one condition, and after it by the other one. -/
theorem fits_droppedUpdate : orderly .empty droppedUpdate = true ∧
    (Table.empty.run (droppedUpdate.take 9)).groupSize ≤ maxConfigBytesPerEvent ∧
    (Table.empty.run droppedUpdate).groupSize = 8 ∧
    (Table.empty.run droppedUpdate).groupSize ≤ maxConfigBytesPerEvent :=
  have ho : orderly .empty droppedUpdate = true := by decide +kernel
  ⟨ho, (fits_run (droppedUpdate.take 9) (by decide +kernel)).1 (by decide +kernel),
    by decide +kernel, (fits_run droppedUpdate ho).2 (by decide +kernel) (by decide +kernel)⟩

/-! ## Members that are settled one at a time -/

/-- A member is confirmed with a config and is to be updated with a small one;
another one is admitted, and a bootstrap finds it stored. Then the update is dropped. -/
def settledApart (config : Config) : List Op :=
  let r : Registration := ⟨"product", "serial", "acme", "id"⟩
  [.announce "a" (some r) config, .takeAll, .complete, .announce "a" (some r) ⟨"1"⟩,
    .announce "b" (some r) ⟨"2"⟩, .reconcile (.ofList [("b", ⟨"2"⟩)]), .takeAll, .abandon]

/-- The table after the first request. -/
def soleMember (config : Config) : Table :=
  ⟨.insert .empty "a"
    ⟨some ⟨"product", "serial", "acme", "id"⟩, none, some (.announce config), none⟩⟩

theorem step_soleMember {config : Config} (h : config.size ≤ maxConfigBytesPerEvent) :
    Table.empty.step (.announce "a" (some ⟨"product", "serial", "acme", "id"⟩) config) =
      soleMember config := by
  have hfits : Table.empty.checkGroup "a" ⟨"product", "serial", "acme", "id"⟩ config = .ok () := by
    unfold checkGroup
    simp [otherMembers, Table.empty, StringMap.filter, StringMap.values, StringMap.empty,
      StringMap.size, StringMap.keys, StringMap.get?, Entries.get?, record, Record.blank,
      Record.hasWithdrawal, maxGroupMembers, maxEndpointsPerReport, totalSize, h]
  simp only [step, announce, hfits]
  rfl

/-- The first member has its old config again, and the other one is confirmed with it. -/
theorem groupSize_settledApart {config : Config} (h : config.size ≤ maxConfigBytesPerEvent) :
    orderly .empty (settledApart config) = true ∧ serial .empty (settledApart config) = true ∧
      (Table.empty.run (settledApart config)).groupSize = config.size + 1 := by
  have hfirst := step_soleMember h
  unfold settledApart
  simp only [orderly, serial, run, List.foldl_cons, hfirst]
  refine ⟨?_, ?_, ?_⟩ <;> cbv

/-- The group may come to be too large for one event: its members were admitted
together with a small config of the first one, which is not sent in the end. -/
theorem overweight_settledApart :
    let ops := settledApart (.ofSize maxConfigBytesPerEvent)
    orderly .empty ops = true ∧ serial .empty ops = true ∧
      maxConfigBytesPerEvent < (Table.empty.run ops).groupSize := by
  have hsize := Config.size_ofSize maxConfigBytesPerEvent
  obtain ⟨ho, hs, hgroup⟩ := groupSize_settledApart (Nat.le_of_eq hsize)
  refine ⟨ho, hs, ?_⟩
  rw [hgroup, hsize]
  exact Nat.lt_succ_self _

end Table

end Announcer
