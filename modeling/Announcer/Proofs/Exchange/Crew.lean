import Announcer.Proofs.Exchange
import Announcer.Proofs.Worker.Invariant
/-!
# The senders behind the batches

The worker records a batch when it hands it to a sender, and the exchange
makes the sender from the same effect. So every batch has its sender, which begins
with nothing accepted, and no effect on a sender changes how far it got.

Results: `crewed_step`.
-/
namespace Announcer.Exchange

variable {ω : Type} {x : Exchange ω}

/-- Two senders that got equally far with the same batch. -/
structure SameProgress (s s' : Sender Unit) : Prop where
  batch : s'.batch = s.batch
  parts : s'.parts = s.parts
  accepted : s'.accepted = s.accepted

namespace SameProgress

variable {s s' s'' : Sender Unit}

theorem refl (s : Sender Unit) : SameProgress s s := ⟨rfl, rfl, rfl⟩

theorem trans (h : SameProgress s s') (h' : SameProgress s' s'') : SameProgress s s'' :=
  ⟨h'.batch.trans h.batch, h'.parts.trans h.parts, h'.accepted.trans h.accepted⟩

theorem covered (h : SameProgress s s') : s'.covered = s.covered :=
  Sender.covered_of_parts_eq h.batch h.parts h.accepted

end SameProgress

theorem sameProgress_stop (s : Sender Unit) : SameProgress s (s.receive .stop) :=
  ⟨(s.receive_frame .stop).1, (s.receive_frame .stop).2.1, s.accepted_stop⟩

theorem sameProgress_call (s : Sender Unit) : SameProgress s (s.call?.getD s) := by
  unfold Sender.call?
  split
  · next hidle => exact ⟨rfl, rfl, by simp [Sender.accepted, hidle]⟩
  · exact .refl s

/-- A sender that was only just made. -/
structure Fresh (s : Sender Unit) : Prop where
  parts : s.parts = s.batch.parts
  accepted : s.accepted = false

theorem Fresh.of_sameProgress {s s' : Sender Unit} (h : SameProgress s s') (hf : Fresh s) :
    Fresh s' :=
  ⟨h.parts.trans (hf.parts.trans (congrArg Batch.parts h.batch.symm)), h.accepted.trans hf.accepted⟩

/-- A sender that has just begun covers nothing. -/
theorem Fresh.covered {s : Sender Unit} (h : Fresh s) : s.covered = [] := by
  rw [Sender.covered, Sender.position, h.parts, h.accepted, Nat.sub_self]
  rfl

/-- How the senders follow the batches that are issued. -/
structure Crewed (issued issued' : List (Nat × Batch))
    (senders senders' : Nat → Option (Sender Unit)) : Prop where
  kept : ∀ n s, senders n = some s → ∃ s', senders' n = some s' ∧ SameProgress s s'
  made : ∀ n s', senders' n = some s' →
    (∃ s, senders n = some s ∧ SameProgress s s') ∨ ((n, s'.batch) ∈ issued' ∧ Fresh s')
  hired : ∀ n b, (n, b) ∈ issued' → (n, b) ∈ issued ∨
    ∃ s', senders' n = some s' ∧ s'.batch = b ∧ Fresh s'

namespace Crewed

variable {i i' i'' : List (Nat × Batch)} {f f' f'' : Nat → Option (Sender Unit)}

theorem refl (i : List (Nat × Batch)) (f : Nat → Option (Sender Unit)) : Crewed i i f f :=
  ⟨fun _ s h => ⟨s, h, .refl s⟩, fun _ s' h => .inl ⟨s', h, .refl s'⟩, fun _ _ h => .inl h⟩

theorem trans (h : Crewed i i' f f') (h' : Crewed i' i'' f' f'') (hle : ∀ e ∈ i', e ∈ i'') :
    Crewed i i'' f f'' := by
  refine ⟨fun n s hs => ?_, fun n s'' hs => ?_, fun n b hb => ?_⟩
  · obtain ⟨s', hs', hp⟩ := h.kept n s hs
    obtain ⟨s'', hs'', hp'⟩ := h'.kept n s' hs'
    exact ⟨s'', hs'', hp.trans hp'⟩
  · rcases h'.made n s'' hs with ⟨s', hs', hp'⟩ | hnew
    · rcases h.made n s' hs' with ⟨s, hs, hp⟩ | ⟨hissued, hfresh⟩
      · exact .inl ⟨s, hs, hp.trans hp'⟩
      · exact .inr ⟨hp'.batch ▸ hle _ hissued, hfresh.of_sameProgress hp'⟩
    · exact .inr hnew
  · rcases h'.hired n b hb with hb | hnew
    · rcases h.hired n b hb with hb | ⟨s', hs', rfl, hfresh⟩
      · exact .inl hb
      · obtain ⟨s'', hs'', hp⟩ := h'.kept n s' hs'
        exact .inr ⟨s'', hs'', hp.batch, hfresh.of_sameProgress hp⟩
    · exact .inr hnew

end Crewed

/-! ## Effects -/

theorem engage_frame (x : Exchange ω) (e : Effect ω) : (x.engage e).worker = x.worker ∧
    (x.engage e).posted = x.posted ∧ (x.engage e).history = x.history := by
  cases e with
  | dispatch n b awaitAck =>
    unfold engage hire
    dsimp only
    split <;> exact ⟨rfl, rfl, rfl⟩
  | offer n b =>
    unfold engage hire
    dsimp only
    split <;> exact ⟨rfl, rfl, rfl⟩
  | stop n =>
    unfold engage
    dsimp only
    split <;> exact ⟨rfl, rfl, rfl⟩
  | reply r => exact ⟨rfl, rfl, rfl⟩
  | notify n => exact ⟨rfl, rfl, rfl⟩
  | store call => exact ⟨rfl, rfl, rfl⟩

theorem foldl_engage_frame (x : Exchange ω) (effects : List (Effect ω)) :
    (effects.foldl engage x).worker = x.worker ∧ (effects.foldl engage x).posted = x.posted ∧
      (effects.foldl engage x).history = x.history := by
  induction effects generalizing x with
  | nil => exact ⟨rfl, rfl, rfl⟩
  | cons e effects ih =>
    obtain ⟨hw, hp, hh⟩ := x.engage_frame e
    obtain ⟨hw', hp', hh'⟩ := ih (x.engage e)
    exact ⟨hw'.trans hw, hp'.trans hp, hh'.trans hh⟩

theorem hire_crewed (x : Exchange ω) {n : Nat} {b : Batch} (awaitAck : Bool)
    {prepare : Sender Unit → Sender Unit} (hprepare : ∀ s, SameProgress s (prepare s))
    (hnew : x.senders n = none) (hb : b.isEmpty = false) (issued : List (Nat × Batch)) :
    Crewed issued ((n, b) :: issued) x.senders (x.hire n b awaitAck prepare).senders := by
  obtain ⟨s, hs, hbatch, hfresh⟩ : ∃ s : Sender Unit,
      (x.hire n b awaitAck prepare).senders = (fun m => if m = n then some s else x.senders m) ∧
        s.batch = b ∧ Fresh s := by
    unfold hire Sender.ofBatch?
    rw [hb]
    have hmade : ∀ s : Sender Unit, Fresh s → Fresh (prepare s) :=
      fun s h => h.of_sameProgress (hprepare s)
    exact ⟨_, rfl, (hprepare _).batch, hmade _ ⟨rfl, rfl⟩⟩
  rw [hs]
  refine ⟨fun m s' hm => ⟨s', ?_, .refl s'⟩, fun m s' hm => ?_, fun m c hc => ?_⟩
  · have hne : m ≠ n := by
      rintro rfl
      cases hnew.symm.trans hm
    rw [if_neg hne]
    exact hm
  · by_cases hmn : m = n
    · rw [if_pos hmn] at hm
      cases hm
      exact .inr ⟨by rw [hmn, hbatch]; exact List.mem_cons_self, hfresh⟩
    · rw [if_neg hmn] at hm
      exact .inl ⟨s', hm, .refl s'⟩
  · rcases List.mem_cons.mp hc with he | hc
    · cases he
      exact .inr ⟨s, if_pos rfl, hbatch, hfresh⟩
    · exact .inl hc

theorem engage_crewed (x : Exchange ω) (w : Worker ω) (e : Effect ω)
    (hnew : ∀ n, (n ∉ w.issued.map Prod.fst) → x.senders n = none)
    (hd : ((w.carry e).issued.map Prod.fst).Nodup)
    (hne : ∀ p ∈ (w.carry e).issued, p.2.isEmpty = false) :
    Crewed w.issued (w.carry e).issued x.senders (x.engage e).senders := by
  cases e with
  | dispatch n b awaitAck =>
    exact hire_crewed x awaitAck sameProgress_call (hnew n (List.nodup_cons.mp hd).1)
      (hne (n, b) List.mem_cons_self) w.issued
  | offer n b =>
    exact hire_crewed x true .refl (hnew n (List.nodup_cons.mp hd).1)
      (hne (n, b) List.mem_cons_self) w.issued
  | stop n =>
    unfold engage
    dsimp only
    split
    · next s hs =>
      refine ⟨fun m s' hm => ?_, fun m s' hm => ?_, fun m c hc => .inl hc⟩
      · by_cases hmn : m = n
        · subst hmn
          cases hs.symm.trans hm
          exact ⟨_, if_pos rfl, sameProgress_stop s⟩
        · exact ⟨s', (if_neg hmn).trans hm, .refl s'⟩
      · by_cases hmn : m = n
        · subst hmn
          have he : some (s.receive .stop) = some s' := (if_pos rfl).symm.trans hm
          cases he
          exact .inl ⟨s, hs, sameProgress_stop s⟩
        · exact .inl ⟨s', (if_neg hmn).symm.trans hm, .refl s'⟩
    · exact .refl _ _
  | reply r => exact .refl _ _
  | notify n => exact .refl _ _
  | store call => exact .refl _ _

theorem issued_carry (w : Worker ω) (e : Effect ω) : ∃ l, (w.carry e).issued = l ++ w.issued := by
  cases e with
  | dispatch n b awaitAck => exact ⟨[(n, b)], rfl⟩
  | offer n b => exact ⟨[(n, b)], rfl⟩
  | stop n => exact ⟨[], rfl⟩
  | reply r => exact ⟨[], rfl⟩
  | notify n => exact ⟨[], rfl⟩
  | store call => exact ⟨[], rfl⟩

theorem issued_foldl_carry (w : Worker ω) (effects : List (Effect ω)) :
    ∃ l, (effects.foldl Worker.carry w).issued = l ++ w.issued := by
  induction effects generalizing w with
  | nil => exact ⟨[], rfl⟩
  | cons e effects ih =>
    obtain ⟨l, hl⟩ := ih (w.carry e)
    obtain ⟨l', hl'⟩ := issued_carry w e
    exact ⟨l ++ l', by rw [List.foldl_cons, hl, hl', List.append_assoc]⟩

theorem foldl_crewed (effects : List (Effect ω)) (x : Exchange ω) (w : Worker ω)
    (hnew : ∀ n, (n ∉ w.issued.map Prod.fst) → x.senders n = none)
    (hd : ((effects.foldl Worker.carry w).issued.map Prod.fst).Nodup)
    (hne : ∀ p ∈ (effects.foldl Worker.carry w).issued, p.2.isEmpty = false) :
    Crewed w.issued (effects.foldl Worker.carry w).issued x.senders
      (effects.foldl engage x).senders := by
  induction effects generalizing x w with
  | nil => exact .refl _ _
  | cons e effects ih =>
    obtain ⟨l, hl⟩ := issued_foldl_carry (w.carry e) effects
    have hle : ∀ p ∈ (w.carry e).issued, p ∈ (effects.foldl Worker.carry (w.carry e)).issued := by
      intro p hp
      rw [hl]
      exact List.mem_append_right l hp
    have hd' : ((w.carry e).issued.map Prod.fst).Nodup := by
      rw [List.foldl_cons, hl, List.map_append] at hd
      exact (List.nodup_append.mp hd).2.1
    have hone := x.engage_crewed w e hnew hd' fun p hp => hne p (hle p hp)
    refine hone.trans (ih (x.engage e) (w.carry e) ?_ hd hne) hle
    -- whoever has a sender now is on the list, with the newcomer
    intro n hn
    cases hs : (x.engage e).senders n with
    | none => rfl
    | some s' =>
      exfalso
      rcases hone.made n s' hs with ⟨s, hs, -⟩ | ⟨hissued, -⟩
      · obtain ⟨l', hl'⟩ := issued_carry w e
        have hnone := hnew n fun hmem => hn (by
          rw [hl', List.map_append]
          exact List.mem_append_right _ hmem)
        cases hnone.symm.trans hs
      · exact hn (List.mem_map_of_mem hissued)

theorem issued_serve (w : Worker ω) (i : Input ω) : (w.serve i).issued = w.issued := by
  unfold Worker.serve
  split
  · split <;> rfl
  · rfl
  · rfl

section Steps
variable [DecidableEq ω]

/-- A batch that was issued stays on the list. -/
theorem mem_issued_step (w : Worker ω) (i : Input ω) {e : Nat × Batch} (he : e ∈ w.issued) :
    e ∈ (w.step i).issued := by
  obtain ⟨l, hl⟩ := issued_foldl_carry { w.serve i with registry := (w.outcome i).1 }
    (w.outcome i).2
  show e ∈ (List.foldl _ _ _ : Worker ω).issued
  rw [hl, issued_serve]
  exact List.mem_append_right l he

/-- The senders after an input of the worker. -/
theorem crewed_step (x : Exchange ω) (i : Input ω)
    (hnew : ∀ n, (n ∉ x.worker.issued.map Prod.fst) → x.senders n = none)
    (h : (x.worker.step i).Inv) :
    Crewed x.worker.issued (x.worker.step i).issued x.senders (x.step (.worker i)).senders := by
  have := foldl_crewed (x.worker.outcome i).2 { x with
    worker := x.worker.step i, history := x.worker.news i ++ x.history }
    { x.worker.serve i with registry := (x.worker.outcome i).1 }
    (by rw [issued_serve]; exact hnew) h.distinct h.nonempty
  rw [issued_serve] at this
  exact this

end Steps

end Announcer.Exchange
