import Announcer.Proofs.Sender.Turn
import Announcer.Proofs.StringMap
import Announcer.Proofs.SubBatch
/-!
# How far a sender got

The parts that a sender works through are lists of configs. A `Parcel` is a part
together with the ids of its configs, so that one can say whose events were accepted.
An event is `accepted` from the moment the transport's success, and the
acknowledgement where one is needed, are both there; the sender notices at
its next `resume`, and then goes on to the next part. Nothing else
makes it go on, so a batch is reported as completed only after all of its events
were accepted.

Results: `parcels_parts`, `resume_advances`.
-/
namespace Announcer

/-! ## Parcels -/

/-- A part, with the ids of its configs. -/
structure Parcel where
  kind : ReportKind
  entries : List (String × Config)
  deriving DecidableEq, Repr

namespace Parcel

/-- The ids of the endpoints of the event. -/
def ids (p : Parcel) : List String := p.entries.map Prod.fst

/-- What is sent. -/
def part (p : Parcel) : Part := ⟨p.kind, p.entries.map Prod.snd⟩

end Parcel

/-- Cuts entries into runs that are as long as those of `runs`. -/
def cutLike : List (List Config) → List (String × Config) → List (List (String × Config))
  | [], _ => []
  | run :: runs, entries => entries.take run.length :: cutLike runs (entries.drop run.length)

theorem cutLike_spec {runs : List (List Config)} (entries : List (String × Config))
    (h : runs.flatten = entries.map Prod.snd) :
    (cutLike runs entries).map (List.map Prod.snd) = runs ∧
      (cutLike runs entries).flatten = entries := by
  induction runs generalizing entries with
  | nil =>
    obtain rfl : entries = [] := by simpa using h.symm
    exact ⟨rfl, rfl⟩
  | cons run runs ih =>
    rw [List.flatten_cons] at h
    have hrun : (entries.take run.length).map Prod.snd = run := by
      rw [List.map_take, ← h, List.take_left']
      rfl
    have hrest : runs.flatten = (entries.drop run.length).map Prod.snd := by
      rw [List.map_drop, ← h, List.drop_left']
      rfl
    obtain ⟨hmap, hflat⟩ := ih _ hrest
    constructor
    · rw [cutLike, List.map_cons, hrun, hmap]
    · rw [cutLike, List.flatten_cons, hflat, List.take_append_drop]

namespace Batch

/-- The parcels of one kind. -/
def parcelsOf (kind : ReportKind) (maxCount : Option Nat) (configs : Configs) : List Parcel :=
  (cutLike (subBatches maxCount maxConfigBytesPerEvent configs.values) configs.entries).map
    (Parcel.mk kind)

/-- The parts of a batch with the ids of their configs. -/
def parcels (b : Batch) : List Parcel :=
  parcelsOf .addOrUpdate (some maxEndpointsPerReport) b.announced
    ++ parcelsOf .delete none b.withdrawn

theorem parcelsOf_parts (kind : ReportKind) (maxCount : Option Nat) (configs : Configs) :
    (parcelsOf kind maxCount configs).map Parcel.part =
      (subBatches maxCount maxConfigBytesPerEvent configs.values).map (Part.mk kind) := by
  have h := (cutLike_spec configs.entries
    (flatten_subBatches maxCount maxConfigBytesPerEvent configs.values)).1
  calc (parcelsOf kind maxCount configs).map Parcel.part
    _ = ((cutLike (subBatches maxCount maxConfigBytesPerEvent configs.values)
          configs.entries).map (List.map Prod.snd)).map (Part.mk kind) := by
      rw [parcelsOf, List.map_map, List.map_map]
      rfl
    _ = (subBatches maxCount maxConfigBytesPerEvent configs.values).map (Part.mk kind) := by
      rw [h]

/-- The parcels are the parts that a sender works through. -/
theorem parcels_parts (b : Batch) : b.parcels.map Parcel.part = b.parts := by
  rw [parcels, List.map_append, parcelsOf_parts, parcelsOf_parts]
  rfl

theorem length_parcels (b : Batch) : b.parcels.length = b.parts.length := by
  rw [← parcels_parts, List.length_map]

/-- Something is sent of every batch that is not empty. -/
theorem parts_ne_nil {b : Batch} (h : b.isEmpty = false) : b.parts ≠ [] := by
  intro hparts
  obtain ⟨ha, hw⟩ := List.append_eq_nil_iff.mp hparts
  have hannounced := subBatches_eq_nil (List.map_eq_nil_iff.mp ha)
  have hwithdrawn := subBatches_eq_nil (List.map_eq_nil_iff.mp hw)
  rw [StringMap.values, List.map_eq_nil_iff] at hannounced hwithdrawn
  simp [isEmpty, StringMap.isEmpty, hannounced, hwithdrawn] at h

theorem mem_parcelsOf_iff {kind : ReportKind} {maxCount : Option Nat} {configs : Configs}
    {id : String} :
    (∃ p ∈ parcelsOf kind maxCount configs, id ∈ p.ids) ↔ id ∈ configs.keys := by
  have h := (cutLike_spec configs.entries
    (flatten_subBatches maxCount maxConfigBytesPerEvent configs.values)).2
  have hentry : ∀ e, e ∈ configs.entries ↔ ∃ run ∈ cutLike
      (subBatches maxCount maxConfigBytesPerEvent configs.values) configs.entries, e ∈ run := by
    intro e
    rw [← List.mem_flatten, h]
  simp only [parcelsOf, StringMap.keys, List.mem_map, hentry]
  constructor
  · rintro ⟨_, ⟨run, hrun, rfl⟩, hid⟩
    obtain ⟨e, he, rfl⟩ := List.mem_map.mp hid
    exact ⟨e, ⟨run, hrun, he⟩, rfl⟩
  · rintro ⟨e, ⟨run, hrun, he⟩, rfl⟩
    exact ⟨_, ⟨run, hrun, rfl⟩, List.mem_map_of_mem he⟩

theorem kind_of_mem_parcelsOf {kind : ReportKind} {maxCount : Option Nat} {configs : Configs}
    {p : Parcel} (hp : p ∈ parcelsOf kind maxCount configs) : p.kind = kind := by
  obtain ⟨_, -, rfl⟩ := List.mem_map.mp hp
  rfl

/-- The kind of the events that carry an id: it is announced or withdrawn. -/
def carries (b : Batch) (id : String) : ReportKind → Prop
  | .addOrUpdate => id ∈ b.announced.keys
  | .delete => id ∈ b.withdrawn.keys

/-- The parcels carry what the batch carries, and as what. -/
theorem carries_iff {b : Batch} {id : String} {kind : ReportKind} :
    b.carries id kind ↔ ∃ p ∈ b.parcels, p.kind = kind ∧ id ∈ p.ids := by
  simp only [parcels, List.mem_append]
  constructor
  · intro h
    cases kind with
    | addOrUpdate =>
      obtain ⟨p, hp, hid⟩ := mem_parcelsOf_iff.mpr h
      exact ⟨p, .inl hp, kind_of_mem_parcelsOf hp, hid⟩
    | delete =>
      obtain ⟨p, hp, hid⟩ := mem_parcelsOf_iff.mpr h
      exact ⟨p, .inr hp, kind_of_mem_parcelsOf hp, hid⟩
  · rintro ⟨p, hp | hp, rfl, hid⟩
    · rw [kind_of_mem_parcelsOf hp]
      exact mem_parcelsOf_iff.mp ⟨p, hp, hid⟩
    · rw [kind_of_mem_parcelsOf hp]
      exact mem_parcelsOf_iff.mp ⟨p, hp, hid⟩

end Batch

/-! ## Acceptance -/
namespace Sender

variable {ω : Type} {s s' : Sender ω}

/-- The number of parts that were accepted and left behind. -/
def position (s : Sender ω) : Nat := s.batch.parts.length - s.parts.length

/-- The parcel of the current part. -/
def current? (s : Sender ω) : Option Parcel := s.batch.parcels[s.position]?

/-- The parcels that were accepted. -/
def covered (s : Sender ω) : List Parcel :=
  s.batch.parcels.take (s.position + s.accepted.toNat)

/-- The call does not go on to another part, and nothing counts as accepted. -/
structure Halts (s : Sender ω) (p : Progress ω) : Prop where
  batch : p.1.batch = s.batch
  parts : p.1.parts = s.parts
  accepted : p.1.accepted = false
  silent : ∀ who b, .reportCompleted who b ∉ p.2

theorem halts_finish (s : Sender ω) (success : Bool) : s.Halts (s.finish success) :=
  ⟨rfl, rfl, rfl, by simp [finish]⟩

theorem Setback.halts {now : Nat} {status : Status} {p : Progress ω}
    (h : Setback s now status p) : s.Halts p := by
  cases h with
  | tells => exact ⟨rfl, rfl, rfl, by simp⟩
  | pauses => exact ⟨rfl, rfl, rfl, by simp⟩
  | ends => exact halts_finish s false

/-- The current part was accepted and is left behind. -/
structure Passes (s : Sender ω) (p : Progress ω) : Prop where
  batch : p.1.batch = s.batch
  parts : p.1.parts = s.parts.tail
  fresh : p.1.accepted = false
  completed : ∀ who b, .reportCompleted who b ∈ p.2 → b = s.batch ∧ p.1.parts = []

theorem passes_nextPart (s : Sender ω) : s.Passes { s with ack := .none }.nextPart := by
  unfold nextPart
  dsimp only
  split
  · next hparts _ =>
    refine ⟨rfl, rfl, rfl, fun who b hmem => ?_⟩
    cases List.mem_singleton.mp hmem
    exact ⟨rfl, hparts⟩
  · exact ⟨rfl, rfl, rfl, by simp [finish]⟩
  · split
    · exact ⟨rfl, rfl, rfl, by simp [finish]⟩
    · exact ⟨rfl, rfl, rfl, by simp⟩

/-- What a sender does by itself keeps its place, or leaves an accepted part behind. -/
inductive Advances (s : Sender ω) (p : Progress ω) : Prop where
  | stays (batch : p.1.batch = s.batch) (parts : p.1.parts = s.parts)
      (accepted : p.1.accepted = s.accepted) (silent : ∀ who b, .reportCompleted who b ∉ p.2)
  | passes (accepted : s.accepted = true) (h : s.Passes p)

theorem Halts.advances {p : Progress ω} (h : s.Halts p) (hs : s.accepted = false) :
    s.Advances p :=
  .stays h.batch h.parts (h.accepted.trans hs.symm) h.silent

theorem Turn.advances {now : Nat} {credentials : Credentials} {ids : EventIds} {p : Progress ω}
    (h : Turn s now credentials ids p) : s.Advances p := by
  cases h with
  | transmits hphase => exact .stays rfl rfl (by simp [accepted, hphase]) (by simp)
  | waits hphase hneeds =>
    -- the acknowledgement may be there already
    exact .stays rfl rfl (by simp [accepted, hphase, hneeds]) (by simp)
  | passes haccepted => exact .passes haccepted (passes_nextPart s)
  | fails hwhy hrejected hset =>
    have hhalts := hset.halts
    refine .stays hhalts.batch hhalts.parts (hhalts.accepted.trans hrejected.symm)
      fun who b hmem => ?_
    rcases List.mem_append.mp hmem with hmem | hmem
    · cases hwhy.isSetback _ hmem
    · exact hhalts.silent who b hmem
  | goesOn hphase hset => exact hset.halts.advances (by simp [accepted, hphase])
  | wakes _ hphase => exact .stays rfl rfl (by simp [accepted, hphase]) (by simp)
  | stops _ hphase =>
    refine (halts_finish s false).advances ?_
    rcases hphase with hphase | ⟨deadline, hphase⟩ <;> simp [accepted, hphase]
  | abandons hphase => exact (halts_finish s false).advances (by simp [accepted, hphase])
  | returns hphase => exact (halts_finish s true).advances (by simp [accepted, hphase])

theorem resume_advances {now : Nat} {credentials : Credentials} {ids : EventIds} {p : Progress ω}
    (h : s.resume now credentials ids = some p) : s.Advances p :=
  (turn_resume h).advances

/-! ## Stopping -/

/-- Stopping a sender neither accepts anything nor takes an acceptance back. -/
theorem accepted_stop [DecidableEq ω] (s : Sender ω) : (s.receive .stop).accepted = s.accepted := by
  have hneeds := s.needsAck_receive .stop
  unfold receive at hneeds ⊢
  dsimp only at hneeds ⊢
  split
  · rfl
  · next hrun =>
    rw [if_neg hrun] at hneeds
    unfold accepted
    rw [hneeds]
    dsimp only
    by_cases hack : s.ack = .received
    · rw [if_pos hack, hack]
    · rw [if_neg hack]
      cases s.phase <;> simp [hack]

/-! ## What is covered -/

theorem covered_of_parts_eq (hb : s'.batch = s.batch) (hp : s'.parts = s.parts)
    (ha : s'.accepted = s.accepted) : s'.covered = s.covered := by
  simp only [covered, position, hb, hp, ha]

/-- Going on changes nothing about what was accepted. -/
theorem Advances.covered {p : Progress ω} (h : s.Advances p)
    (hle : s.parts.length ≤ s.batch.parts.length) : p.1.covered = s.covered := by
  cases h with
  | stays hb hp ha => exact covered_of_parts_eq hb hp ha
  | passes ha hpass =>
    have hlen := s.batch.length_parcels
    simp only [Sender.covered, position, hpass.batch, hpass.parts, hpass.fresh, ha,
      List.length_tail, Bool.toNat_true, Bool.toNat_false]
    by_cases hzero : s.parts.length = 0
    · rw [List.take_of_length_le (by omega), List.take_of_length_le (by omega)]
    · congr 1
      omega

/-- A batch of which no part is left is covered as a whole. -/
theorem covered_eq_parcels (h : s.parts = []) : s.covered = s.batch.parcels := by
  have hlen := s.batch.length_parcels
  rw [covered, position, h]
  refine List.take_of_length_le ?_
  simp only [List.length_nil]
  omega

/-- Whatever comes from outside, the current parcel is all that it can cover. -/
theorem mem_covered_of_parts_eq (hb : s'.batch = s.batch) (hp : s'.parts = s.parts) {q : Parcel}
    (hq : q ∈ s'.covered) :
    q ∈ s.covered ∨ (s.accepted = false ∧ s'.accepted = true ∧ s.current? = some q) := by
  have hpos : s'.position = s.position := by simp only [position, hb, hp]
  unfold covered at hq ⊢
  rw [hb, hpos] at hq
  cases e' : s'.accepted with
  | false =>
    rw [e', Bool.toNat_false] at hq
    have hle : s.position + 0 ≤ s.position + s.accepted.toNat := by omega
    rw [← Nat.min_eq_left hle, ← List.take_take] at hq
    exact .inl (List.mem_of_mem_take hq)
  | true =>
    rw [e', Bool.toNat_true] at hq
    cases e : s.accepted with
    | true => exact .inl hq
    | false =>
      rw [List.take_add_one, List.mem_append] at hq
      rcases hq with hq | hq
      · exact .inl hq
      · exact .inr ⟨rfl, rfl, Option.mem_toList.mp hq⟩

end Sender

end Announcer
