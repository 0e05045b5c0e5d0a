import Mathlib
import Announcer.Proofs.Sender.Progress
import Announcer.Proofs.Worker.Deeds
/-!
# In how many events a bootstrap announces the group

A bootstrap offers all that is pending as one batch, and the sender cuts its
announcements greedily in the order of the ids. It knows nothing of the group, so
what decides is what stands between the members.

If the stretch from the first member to the last one fits into one event, it is
cut at most once; if everything up to the last member fits, the first event has
them all. That the members alone would fit is not enough: one large endpoint
between two members sends them apart.

Results: `gathered_bootstrap`, and `scattered_largest` for the exception.
-/
namespace Announcer

/-- These configs can travel in one announcing event. -/
def fitReport (configs : List Config) : Prop :=
  SubBatch.Fits (some maxEndpointsPerReport) maxConfigBytesPerEvent configs

instance (configs : List Config) : Decidable (fitReport configs) :=
  decidable_of_iff
    (configs.length ≤ maxEndpointsPerReport ∧ totalSize configs ≤ maxConfigBytesPerEvent)
    ⟨fun h => ⟨fun _ hmax => Option.some.inj hmax ▸ h.1, h.2⟩, fun h => ⟨h.count _ rfl, h.bytes⟩⟩

/-- The endpoints with a registration that wait to be announced. -/
def Table.waitingMembers (t : Table) : List String :=
  t.idsWhere fun r => r.registration.isSome && r.pendingConfig.isSome

/-- A stretch of a list that is covered by a piece of another division of it. -/
theorem mem_of_covers {α : Type} {pre piece post before span after : List α}
    (h : pre ++ piece ++ post = before ++ span ++ after) (hpre : pre.length ≤ before.length)
    (hpiece : before.length + span.length ≤ pre.length + piece.length) : span ⊆ piece := by
  rw [List.append_assoc, List.append_assoc] at h
  -- `before` goes on where `pre` ends
  obtain ⟨gap, rfl⟩ : pre <+: before :=
    List.prefix_of_prefix_length_le ⟨_, h⟩ (List.prefix_append _ _) hpre
  rw [List.append_assoc, List.append_cancel_left_eq, ← List.append_assoc] at h
  have hcovers : gap ++ span <+: piece := by
    refine List.prefix_of_prefix_length_le ⟨_, h.symm⟩ (List.prefix_append _ _) ?_
    simp only [List.length_append] at hpiece ⊢
    omega
  intro e he
  exact hcovers.subset (List.mem_append_right _ he)

namespace Batch

variable {b : Batch}

/-- At most `n` events, one after the other, announce all of these endpoints. -/
def AnnouncesWithin (b : Batch) (n : Nat) (ids : List String) : Prop :=
  ∃ events, events <:+: b.parcels ∧ events.length ≤ n ∧
    ∀ id ∈ ids, ∃ p ∈ events, p.kind = .addOrUpdate ∧ id ∈ p.ids

/-- A stretch of the announcements that some sub-batches cover travels in their events. -/
theorem announcesWithin_of_subBatches {before span after : List (String × Config)}
    (hentries : b.announced.entries = before ++ span ++ after)
    {earlier near later : List (List Config)}
    (hcut : subBatches (some maxEndpointsPerReport) maxConfigBytesPerEvent b.announced.values =
      earlier ++ near ++ later)
    (hearlier : earlier.flatten.length ≤ before.length)
    (hnear : before.length + span.length ≤ earlier.flatten.length + near.flatten.length) :
    b.AnnouncesWithin near.length (span.map Prod.fst) := by
  obtain ⟨hmap, hflat⟩ := cutLike_spec b.announced.entries
    (flatten_subBatches (some maxEndpointsPerReport) maxConfigBytesPerEvent b.announced.values)
  generalize hruns : cutLike _ _ = runs at hmap hflat
  -- the entries are cut where the configs are
  rw [hcut, List.map_eq_append_iff] at hmap
  obtain ⟨_, runs₃, rfl, hmap, -⟩ := hmap
  obtain ⟨runs₁, runs₂, rfl, rfl, rfl⟩ := List.map_eq_append_iff.mp hmap
  rw [← List.map_flatten, List.length_map] at hearlier
  rw [← List.map_flatten, ← List.map_flatten, List.length_map, List.length_map] at hnear
  rw [hentries, List.flatten_append, List.flatten_append] at hflat
  have hspan : span ⊆ runs₂.flatten := mem_of_covers hflat hearlier hnear
  have hparcels : b.parcels = runs₁.map (Parcel.mk .addOrUpdate) ++
      runs₂.map (Parcel.mk .addOrUpdate) ++ (runs₃.map (Parcel.mk .addOrUpdate) ++
        parcelsOf .delete none b.withdrawn) := by
    rw [parcels, parcelsOf, hruns]
    simp
  refine ⟨runs₂.map (Parcel.mk .addOrUpdate), ⟨_, _, hparcels.symm⟩, by simp, ?_⟩
  intro id hid
  obtain ⟨e, he, rfl⟩ := List.mem_map.mp hid
  obtain ⟨run, hrun, he⟩ := List.mem_flatten.mp (hspan he)
  exact ⟨⟨.addOrUpdate, run⟩, List.mem_map_of_mem hrun, rfl, List.mem_map_of_mem he⟩

theorem AnnouncesWithin.mono {m n : Nat} {ids ids' : List String} (h : b.AnnouncesWithin m ids)
    (hn : m ≤ n) (hids : ids' ⊆ ids) : b.AnnouncesWithin n ids' := by
  obtain ⟨events, hmem, hlength, hall⟩ := h
  exact ⟨events, hmem, Nat.le_trans hlength hn, fun id hid => hall id (hids hid)⟩

/-- Within one event: there is one that has them all. -/
theorem AnnouncesWithin.one {id : String} {ids : List String}
    (h : b.AnnouncesWithin 1 (id :: ids)) : ∃ p ∈ b.parcels, ∀ j ∈ id :: ids, j ∈ p.ids := by
  obtain ⟨events, hmem, hlength, hall⟩ := h
  obtain ⟨p, hp, -⟩ := hall id List.mem_cons_self
  obtain rfl : events = [p] := by
    match events, hlength, hp with
    | [q], _, hp => rw [List.mem_singleton.mp hp]
  refine ⟨p, hmem.subset hp, fun j hj => ?_⟩
  obtain ⟨q, hq, -, hjq⟩ := hall j hj
  rwa [List.mem_singleton.mp hq] at hjq

/-- What fits into one event travels in two at most, and in one if it fits
together with all that comes before it. -/
theorem announcesWithin_span {before span after : List (String × Config)}
    (hentries : b.announced.entries = before ++ span ++ after) :
    (fitReport (span.map Prod.snd) → b.AnnouncesWithin 2 (span.map Prod.fst)) ∧
      (fitReport ((before ++ span).map Prod.snd) → b.AnnouncesWithin 1 (span.map Prod.fst)) := by
  have hvalues : b.announced.values =
      before.map Prod.snd ++ span.map Prod.snd ++ after.map Prod.snd := by
    rw [← List.map_append, ← List.map_append, ← hentries]
    rfl
  constructor
  · intro hfits
    obtain ⟨earlier, near, later, hcut, hlength, hearlier, hnear⟩ :=
      subBatches_span (before.map Prod.snd) hfits (after.map Prod.snd)
    have hearlier := hearlier.length_le
    have hnear := hnear.length_le
    simp only [List.length_append, List.length_map] at hearlier hnear
    exact (announcesWithin_of_subBatches hentries (by rw [hvalues, hcut]) hearlier hnear).mono
      hlength (List.Subset.refl _)
  · intro hfits
    obtain ⟨near, later, hcut, hlength, hnear⟩ := subBatches_prefix hfits (after.map Prod.snd)
    have hnear := hnear.length_le
    simp only [List.length_append, List.length_map] at hnear
    have hcut : subBatches (some maxEndpointsPerReport) maxConfigBytesPerEvent
        b.announced.values = [] ++ near ++ later := by
      rw [hvalues, ← List.map_append, hcut]
      rfl
    exact (announcesWithin_of_subBatches hentries hcut (Nat.zero_le _) (by simpa using hnear)).mono
      hlength (List.Subset.refl _)

end Batch

/-! ## Bootstraps -/
namespace Registry

variable {ω : Type}

/-- The table of a bootstrap, when it is compared with what is stored. -/
def bootstrapTable (r : Registry ω) (stored : Configs) : Table :=
  ((r.handle .bootstrap).1.table.reconcile stored).1

theorem takeAll_of_offer (r : Registry ω) (stored : Configs) {n : Nat} {b : Batch}
    (he : .offer n b ∈ ((r.handle .bootstrap).1.resume (.loaded stored)).2) :
    (r.bootstrapTable stored).isIdle = true ∧ (r.bootstrapTable stored).takeAll.2 = some b := by
  have hidle : (r.handle .bootstrap).1.table.isIdle = true := Table.isIdle_reclaim _
  have hperforms := performs_offerBatch
    (r := { (r.handle .bootstrap).1 with waiting := none }) hidle stored
  obtain ⟨before, op, hops, hop⟩ := hperforms.handed _ he b rfl
  have hops : [Table.Op.reconcile stored] ++ [Table.Op.takeAll] = before ++ [op] := hops
  obtain ⟨rfl, hlast⟩ := List.append_inj' hops rfl
  obtain rfl := List.head_eq_of_cons_eq hlast
  exact ⟨Table.isIdle_of_inFlight_eq (Table.inFlight_reconcile _ stored) hidle, hop⟩

/-- **A bootstrap cuts the group once at most, if nothing large stands between
its members.** `span` is a stretch of the announcements outside of which nobody has
a registration. If it fits into one event, two events have all waiting members,
and if everything up to its end fits, one has. -/
theorem gathered_bootstrap (r : Registry ω) (stored : Configs) {n : Nat} {b : Batch}
    (he : .offer n b ∈ ((r.handle .bootstrap).1.resume (.loaded stored)).2)
    {before span after : List (String × Config)}
    (hentries : b.announced.entries = before ++ span ++ after)
    (hplain : ∀ e ∈ before ++ after,
      ((r.bootstrapTable stored).record e.1).registration = none) :
    (fitReport (span.map Prod.snd) →
      b.AnnouncesWithin 2 (r.bootstrapTable stored).waitingMembers) ∧
    (fitReport ((before ++ span).map Prod.snd) →
      b.AnnouncesWithin 1 (r.bootstrapTable stored).waitingMembers) := by
  obtain ⟨hidle, htake⟩ := r.takeAll_of_offer stored he
  have hspan : (r.bootstrapTable stored).waitingMembers ⊆ span.map Prod.fst := by
    intro id hid
    rw [Table.waitingMembers, Table.mem_idsWhere rfl, Bool.and_eq_true] at hid
    obtain ⟨hreg, hwaits⟩ := hid
    obtain ⟨c, hc⟩ := Option.isSome_iff_exists.mp hwaits
    rw [← Table.takeAll_announced hidle htake] at hc
    have hmem := StringMap.mem_entries_iff.mpr hc
    rw [hentries, List.append_assoc, List.mem_append, List.mem_append] at hmem
    -- an endpoint outside the stretch has no registration
    have hno : ∀ e ∈ before ++ after, e.1 ≠ id := by
      intro e he heq
      rw [← heq, hplain e he] at hreg
      cases hreg
    rcases hmem with hb | hs | ha
    · exact absurd rfl (hno _ (List.mem_append_left _ hb))
    · exact List.mem_map_of_mem hs
    · exact absurd rfl (hno _ (List.mem_append_right _ ha))
  obtain ⟨htwo, hone⟩ := Batch.announcesWithin_span hentries
  exact ⟨fun h => (htwo h).mono (Nat.le_refl 2) hspan, fun h => (hone h).mono (Nat.le_refl 1) hspan⟩

/-! ## What stands between two members -/

/-- A bootstrap offers a batch in which the members of the group would fit into
one event, and yet no event has them all. -/
structure Scattered (r : Registry ω) (stored : Configs) (n : Nat) (b : Batch) : Prop where
  offered : .offer n b ∈ ((r.handle .bootstrap).1.resume (.loaded stored)).2
  fits : fitReport ((r.bootstrapTable stored).waitingMembers.filterMap b.announced.get?)
  apart : ¬ b.AnnouncesWithin 1 (r.bootstrapTable stored).waitingMembers

end Registry

namespace Worker

/-- Two members of the group, `a` and `c`, and a plain endpoint `b` between them,
all asked for while there is no connection. -/
def plainBetween (config : Config) : List (Input String) :=
  let r : Registration := ⟨"product", "serial", "acme", "id"⟩
  [.command (.announce "a" (some r) ⟨"1"⟩), .command (.announce "b" none config),
    .command (.announce "c" (some r) ⟨"3"⟩)]

/-- What a registry is after `plainBetween`. -/
def betweenRegistry (config : Config) : Registry String :=
  ((start true ⟨true, .empty, [], []⟩).run (plainBetween config)).registry

/-- What is offered then. -/
def betweenBatch (config : Config) : Batch :=
  ⟨.ofList [("a", ⟨"1"⟩), ("b", config), ("c", ⟨"3"⟩)], .empty⟩

theorem offered_between (config : Config) : .offer 1 (betweenBatch config) ∈
    (((betweenRegistry config).handle .bootstrap).1.resume (.loaded .empty)).2 := by
  have heffects : (((betweenRegistry config).handle .bootstrap).1.resume (.loaded .empty)).2 =
      [.offer 1 (betweenBatch config), .reply (.operation (some (1, betweenBatch config)))] := by
    cbv
  rw [heffects]
  exact List.mem_cons_self

theorem waitingMembers_between (config : Config) :
    ((betweenRegistry config).bootstrapTable .empty).waitingMembers = ["a", "c"] := by
  cbv

/-- A small endpoint between the members travels with them. -/
theorem gathered_between : (betweenBatch ⟨"2"⟩).AnnouncesWithin 1 ["a", "c"] := by
  have hentries : (betweenBatch ⟨"2"⟩).announced.entries =
      [] ++ (betweenBatch ⟨"2"⟩).announced.entries ++ [] := (List.append_nil _).symm
  have hgathered := (betweenRegistry ⟨"2"⟩).gathered_bootstrap .empty (offered_between ⟨"2"⟩)
    hentries (by simp)
  rw [waitingMembers_between] at hgathered
  exact hgathered.2 (by decide +kernel)

/-- An endpoint as large as can be. -/
def largest : Config := ⟨String.ofList (List.replicate maxConfigBytesPerEvent 'x')⟩

theorem size_largest : largest.size = maxConfigBytesPerEvent :=
  Config.size_ofSize maxConfigBytesPerEvent

/-- It travels alone, and so does each of its neighbours. -/
theorem parcels_between {config : Config} (h : config.size = maxConfigBytesPerEvent) :
    (betweenBatch config).parcels = [⟨.addOrUpdate, [("a", ⟨"1"⟩)]⟩,
      ⟨.addOrUpdate, [("b", config)]⟩, ⟨.addOrUpdate, [("c", ⟨"3"⟩)]⟩] := by
  have hvalues : (betweenBatch config).announced.values = [⟨"1"⟩, config, ⟨"3"⟩] := by cbv
  have hfirst : SubBatch.full (some maxEndpointsPerReport) maxConfigBytesPerEvent 1
      (Config.size ⟨"1"⟩) config = true := by
    rw [SubBatch.full, h]
    decide +kernel
  have hlast : SubBatch.full (some maxEndpointsPerReport) maxConfigBytesPerEvent 1
      config.size ⟨"3"⟩ = true := by
    rw [SubBatch.full, h]
    decide +kernel
  rw [Batch.parcels, Batch.parcelsOf, hvalues]
  simp only [subBatches, SubBatch.cut, hfirst, hlast, if_true]
  cbv

/-- The members of the group would fit into one event and travel in different ones. -/
theorem scattered_largest :
    (start true ⟨true, .empty, [], []⟩).possible (plainBetween largest) = true ∧
      (betweenRegistry largest).Scattered .empty 1 (betweenBatch largest) := by
  refine ⟨rfl, offered_between largest, ?_, ?_⟩
  · rw [waitingMembers_between]
    have hconfigs : ["a", "c"].filterMap (betweenBatch largest).announced.get? =
        [⟨"1"⟩, ⟨"3"⟩] := rfl
    rw [hconfigs]
    decide +kernel
  · rw [waitingMembers_between]
    intro hwithin
    obtain ⟨p, hp, hids⟩ := hwithin.one
    have ha := hids "a" (by simp)
    have hc := hids "c" (by simp)
    rw [parcels_between size_largest] at hp
    simp only [List.mem_cons, List.not_mem_nil, or_false] at hp
    rcases hp with rfl | rfl | rfl
    · simp [Parcel.ids] at hc
    · simp [Parcel.ids] at ha
    · simp [Parcel.ids] at ha

end Worker

end Announcer
