import Announcer.Proofs.Exchange.Crew
import Announcer.Proofs.Exchange.History
/-!
# The registry's view and the service's

A batch is sent as several events, accepted one by one, and the table applies one
outcome to the batch as a whole. `Inv` follows the accepted events of the
outstanding batch (`backed`) up to the moment where its completion is posted; by
then each of its operations is backed by an event, and stays so while the
store is at work (`landing`). So a batch is applied only when the service has
accepted all of it, and an endpoint whose event waits for its batch is busy in the
table, or in doubt.

Results:
* `inv_step`: every move keeps `Inv`;
* `agreement_run`: an endpoint of which nothing is pending or on its way is
  confirmed exactly when the last batch applied to it announced it; and unless it
  is in doubt, exactly when the last event that the service accepted for it did;
* `agreement_fails`: each of the three ways to be in doubt makes the views differ.
-/
namespace Announcer

open Happening

/-! ## Batches on their way -/

/-- An endpoint is on its way as one thing only. -/
theorem Table.carries_unique {t : Table} {id : String} {k k' : ReportKind}
    (hk : t.inFlight.carries id k) (hk' : t.inFlight.carries id k') : k = k' := by
  have hboth : ¬ (id ∈ t.inFlight.announced.keys ∧ id ∈ t.inFlight.withdrawn.keys) := by
    rw [StringMap.mem_keys_iff, StringMap.mem_keys_iff, inFlight_announced, inFlight_withdrawn,
      Record.inFlightConfig]
    cases (t.record id).inFlight with
    | none => simp
    | some op => cases op <;> simp [Operation.announced?, Operation.withdrawn?]
  cases k with
  | addOrUpdate =>
    cases k' with
    | addOrUpdate => rfl
    | delete => exact absurd ⟨hk, hk'⟩ hboth
  | delete =>
    cases k' with
    | addOrUpdate => exact absurd ⟨hk', hk⟩ hboth
    | delete => rfl

theorem Table.busy_of_carries {t : Table} {id : String} {k : ReportKind}
    (hk : t.inFlight.carries id k) : (t.record id).isBusy = true := by
  have : (t.record id).inFlight.isSome := by
    rw [t.isSome_inFlight]
    cases k with
    | addOrUpdate => exact .inl hk
    | delete => exact .inr hk
  rw [Record.isBusy, this, Bool.or_true]

/-- What a batch does not carry is not on its way. -/
theorem Table.inFlight_of_kind? {t : Table} {id : String} (h : t.inFlight.kind? id = none) :
    (t.record id).inFlight = none := by
  have hsome := t.isSome_inFlight id
  unfold Batch.kind? at h
  split at h; · cases h
  rename_i hw
  split at h; · cases h
  rename_i ha
  simpa [hw, ha] using hsome

/-- The store is at work on a batch that the service has accepted. -/
def Worker.isLanding {ω : Type} (w : Worker ω) : Prop :=
  ∃ n, w.registry.waiting = some (.erasing n) ∨ ∃ ids, w.registry.waiting = some (.storing n ids)

namespace Exchange

variable {ω : Type} {x : Exchange ω}

/-- What holds of an exchange between two moves, while the store does what it is asked. -/
structure Inv (x : Exchange ω) : Prop where
  worker : x.worker.Inv
  obeys : x.worker.shelf.failing = []
  spared : x.worker.registry.waiting ≠ some .clearing
  /-- What is stored is what is confirmed, but for a batch that is half stored. -/
  mirrors : ∀ id, (x.worker.shelf.configs.get? id).isSome ↔
    (x.worker.registry.table.record id).confirmed.isSome ∨
      ((∃ n, x.worker.registry.waiting = some (.erasing n)) ∧
        id ∈ x.worker.registry.table.inFlight.announced.keys)
  crew : ∀ n s, x.senders n = some s →
    (n, s.batch) ∈ x.worker.issued ∧ s.parts.length ≤ s.batch.parts.length
  manned : ∀ n b, (n, b) ∈ x.worker.issued → ∃ s, x.senders n = some s
  /-- A completion is posted when nothing is left to be accepted. -/
  completed : ∀ n announced withdrawn, .completed n announced withdrawn ∈ x.posted →
    ∃ s, x.senders n = some s ∧ s.batch = ⟨announced, withdrawn⟩ ∧ s.parts = []
  backed : ∀ a, x.worker.registry.active = some a → ∀ s, x.senders a.number = some s →
    ∀ p ∈ s.covered, ∀ id ∈ p.ids, Backed x.history id p.kind
  landing : x.worker.isLanding → ∀ id k, x.worker.registry.table.inFlight.carries id k →
    Backed x.history id k
  agrees : ∀ id, Agrees x.history (x.worker.registry.table.record id) id

theorem inv_start (awaitAck : Bool) (ackTimeout : Nat) (retry : Backoff) :
    Inv (.start awaitAck ackTimeout retry : Exchange ω) where
  worker := Worker.inv_start awaitAck _
  obeys := rfl
  spared := nofun
  mirrors := by
    intro id
    constructor
    · intro h; cases h
    · rintro (h | ⟨⟨n, h⟩, -⟩) <;> cases h
  crew := by intro n s h; cases h
  manned := by intro n b h; cases h
  completed := by intro n announced withdrawn h; cases h
  backed := by intro a h; cases h
  landing := by rintro ⟨n, h | ⟨ids, h⟩⟩ <;> cases h
  agrees := by
    intro id
    refine ⟨⟨fun h => ?_, fun h => ?_⟩, fun _ => .inl rfl, fun h => ?_⟩ <;> cases h

namespace Inv

/-- The parcels of the outstanding batch are what is on its way. -/
theorem carries_of_active (h : Inv x) {a : Active} (ha : x.worker.registry.active = some a)
    {p : Parcel} (hp : p ∈ a.batch.parcels) {id : String} (hid : id ∈ p.ids) :
    x.worker.registry.table.inFlight.carries id p.kind := by
  rw [h.worker.inFlight a ha]
  exact Batch.carries_iff.mpr ⟨p, hp, rfl, hid⟩

/-- The sender of the outstanding batch has this batch. -/
theorem batch_of_active (h : Inv x) {a : Active} (ha : x.worker.registry.active = some a)
    {s : Sender Unit} (hs : x.senders a.number = some s) : s.batch = a.batch :=
  h.worker.issued_unique (h.crew _ s hs).1 (h.worker.active a ha)

/-! ## Senders -/

/-- A sender that went on, or was told something, without a new acceptance that
is not in the history yet. -/
theorem setSender (h : Inv x) {n : Nat} {s s' : Sender Unit} (hs : x.senders n = some s)
    (hb : s'.batch = s.batch) (hle : s'.parts.length ≤ s.parts.length)
    (hc : ∀ a, x.worker.registry.active = some a → a.number = n →
      ∀ p ∈ s'.covered, ∀ id ∈ p.ids, Backed x.history id p.kind) : Inv (x.setSender n s') where
  worker := h.worker
  obeys := h.obeys
  spared := h.spared
  mirrors := h.mirrors
  landing := h.landing
  agrees := h.agrees
  crew := by
    intro m t ht
    change (if m = n then some s' else x.senders m) = some t at ht
    split at ht
    · next hm =>
      cases ht
      obtain ⟨h1, h2⟩ := h.crew n s hs
      rw [hm, hb]
      exact ⟨h1, Nat.le_trans hle h2⟩
    · exact h.crew m t ht
  manned := by
    intro m b hm
    change ∃ t, (if m = n then some s' else x.senders m) = some t
    split
    · exact ⟨s', rfl⟩
    · exact h.manned m b hm
  completed := by
    intro m announced withdrawn hm
    obtain ⟨t, ht, hbatch, hparts⟩ := h.completed m announced withdrawn hm
    change ∃ u, (if m = n then some s' else x.senders m) = some u ∧ _
    by_cases hmn : m = n
    · subst hmn
      cases hs.symm.trans ht
      rw [hparts, List.length_nil, Nat.le_zero_eq, List.length_eq_zero_iff] at hle
      exact ⟨s', if_pos rfl, hb.trans hbatch, hle⟩
    · exact ⟨t, (if_neg hmn).trans ht, hbatch, hparts⟩
  backed := by
    intro a ha t ht
    change (if a.number = n then some s' else x.senders a.number) = some t at ht
    split at ht
    · next hm =>
      cases ht
      exact hc a ha hm
    · exact h.backed a ha t ht

/-- An event is accepted: one of the outstanding batch, or one that comes late. -/
theorem accept (h : Inv x) {late : Bool} {p : Parcel}
    (hp : late = true ∨ ∃ a, x.worker.registry.active = some a ∧ p ∈ a.batch.parcels) :
    Inv { x with history := .accepted late p :: x.history } where
  worker := h.worker
  obeys := h.obeys
  spared := h.spared
  mirrors := h.mirrors
  crew := h.crew
  manned := h.manned
  completed := h.completed
  backed := by
    intro a ha s hs q hq id hid
    refine backed_accepted (h.backed a ha s hs q hq id hid) fun hidp => ?_
    refine hp.imp_right ?_
    rintro ⟨a', ha', hpa⟩
    cases ha.symm.trans ha'
    have hq' : q ∈ a.batch.parcels := h.batch_of_active ha hs ▸ List.mem_of_mem_take hq
    exact Table.carries_unique (h.carries_of_active ha hpa hidp) (h.carries_of_active ha hq' hid)
  landing := by
    intro hl id k hk
    refine backed_accepted (h.landing hl id k hk) fun hid => ?_
    refine hp.imp_right ?_
    rintro ⟨a, ha, hpa⟩
    exact Table.carries_unique (h.carries_of_active ha hpa hid) hk
  agrees := by
    intro id
    refine agrees_accepted (h.agrees id) fun hid => ?_
    refine hp.imp_right ?_
    rintro ⟨a, ha, hpa⟩
    exact Table.busy_of_carries (h.carries_of_active ha hpa hid)

theorem call (h : Inv x) (n : Nat) : Inv (match x.senders n with
    | some s => x.setSender n (s.call?.getD s)
    | none => x) := by
  split
  · next s hs =>
    have hsame := sameProgress_call s
    refine h.setSender hs hsame.batch (Nat.le_of_eq (congrArg List.length hsame.parts)) ?_
    rintro a ha rfl p hp
    exact h.backed a ha s hs p (hsame.covered ▸ hp)
  · exact h

theorem receive (h : Inv x) {n : Nat} {s : Sender Unit} (hs : x.senders n = some s)
    (stimulus : Stimulus Unit) : Inv { x.setSender n (s.receive stimulus) with
      history := x.acceptance n s (s.receive stimulus) ++ x.history } := by
  obtain ⟨hb, hp, -⟩ := s.receive_frame stimulus
  generalize s.receive stimulus = s' at hb hp ⊢
  have hle : s'.parts.length ≤ s.parts.length := Nat.le_of_eq (congrArg List.length hp)
  cases hflip : !s.accepted && s'.accepted with
  | false =>
    -- nothing new is covered
    have hnone : x.acceptance n s s' = [] := if_neg (by rw [hflip]; exact Bool.false_ne_true)
    rw [hnone]
    refine h.setSender hs hb hle ?_
    rintro a ha rfl p hmem
    rcases Sender.mem_covered_of_parts_eq hb hp hmem with hmem | ⟨hno, hyes, -⟩
    · exact h.backed a ha s hs p hmem
    · rw [hno, hyes] at hflip
      cases hflip
  | true =>
    have hlist : x.acceptance n s s' =
        (s.current?.map (.accepted (!x.worker.registry.isActive n))).toList := if_pos hflip
    rw [hlist]
    cases hcur : s.current? with
    | none =>
      refine h.setSender hs hb hle ?_
      rintro a ha rfl p hmem
      rcases Sender.mem_covered_of_parts_eq hb hp hmem with hmem | ⟨-, -, he⟩
      · exact h.backed a ha s hs p hmem
      · cases hcur.symm.trans he
    | some q =>
      -- the current parcel is accepted, and then the sender knows
      have hq : (!x.worker.registry.isActive n) = true ∨
          ∃ a, x.worker.registry.active = some a ∧ q ∈ a.batch.parcels := by
        cases hact : x.worker.registry.isActive n with
        | false => exact .inl rfl
        | true =>
          obtain ⟨a, ha, hn⟩ := (Option.any_eq_true ..).mp hact
          obtain rfl : a.number = n := by simpa using hn
          exact .inr ⟨a, ha, h.batch_of_active ha hs ▸ List.mem_of_getElem? hcur⟩
      have hacc := h.accept hq
      refine hacc.setSender hs hb hle ?_
      rintro a ha rfl p hmem
      rcases Sender.mem_covered_of_parts_eq hb hp hmem with hmem | ⟨-, -, he⟩
      · exact hacc.backed a ha s hs p hmem
      · cases hcur.symm.trans he
        intro id hid
        left
        show (if id ∈ q.ids then some q.kind else _) = _
        rw [if_pos hid]

theorem resume (h : Inv x) {n : Nat} {s s' : Sender Unit} {actions : List (Action Unit)}
    (hs : x.senders n = some s) (hadv : s.Advances (s', actions)) :
    Inv { x.setSender n s' with posted := actions.filterMap (Action.outcome? n) ++ x.posted } := by
  have hcovered := hadv.covered (h.crew n s hs).2
  have hstep : s'.batch = s.batch ∧ s'.parts.length ≤ s.parts.length := by
    cases hadv with
    | stays hb hp => exact ⟨hb, Nat.le_of_eq (congrArg List.length hp)⟩
    | passes ha hp =>
      refine ⟨hp.batch, ?_⟩
      rw [show s'.parts = s.parts.tail from hp.parts, List.length_tail]
      omega
  have hset : Inv (x.setSender n s') := by
    refine h.setSender hs hstep.1 hstep.2 ?_
    rintro a ha rfl p hp
    exact h.backed a ha s hs p (hcovered ▸ hp)
  refine { hset with completed := ?_ }
  intro m announced withdrawn hm
  rcases List.mem_append.mp hm with hm | hm
  · -- the completion was reported just now
    obtain ⟨action, hmem, hout⟩ := List.mem_filterMap.mp hm
    have hrep : ∃ who, action = .reportCompleted who ⟨announced, withdrawn⟩ ∧ m = n := by
      cases action with
      | reportCompleted who batch => cases hout; exact ⟨who, rfl, rfl⟩
      | reportFailure who status => cases hout
      | transmit event => cases hout
      | rejectToken token => cases hout
      | pause delay => cases hout
      | finish success => cases hout
    obtain ⟨who, rfl, rfl⟩ := hrep
    cases hadv with
    | stays hb hp ha hsilent => exact absurd hmem (hsilent who _)
    | passes ha hp =>
      obtain ⟨hbatch, hparts⟩ := hp.completed who _ hmem
      exact ⟨s', if_pos rfl, hp.batch.trans hbatch.symm, hparts⟩
  · exact hset.completed m announced withdrawn hm

/-! ## The worker -/

/-- Whatever is said of a batch is true. -/
theorem allows_of_posted (h : Inv x) {i : Input ω} (hi : x.allows (.worker i) = true) :
    x.worker.allows i = true := by
  cases i with
  | command c =>
    simp only [allows, Bool.and_eq_true, Bool.or_eq_true, List.contains_iff_mem] at hi
    simp only [Worker.allows, Bool.and_eq_true]
    refine ⟨hi.1, ?_⟩
    cases c with
    | completed n announced withdrawn =>
      have hposted : .completed n announced withdrawn ∈ x.posted := by
        rcases hi.2 with hno | hyes
        · cases hno
        · exact hyes
      obtain ⟨s, hs, hb, -⟩ := h.completed n announced withdrawn hposted
      have hissued := (h.crew n s hs).1
      rw [hb] at hissued
      simpa [Worker.vouchesFor] using hissued
    | announce => rfl
    | withdraw => rfl
    | connection => rfl
    | bootstrap => rfl
    | failed => rfl
    | ended => rfl
    | clearStore => rfl
    | snapshot => rfl
  | reply => exact hi
  | fail op on => exact hi
  | observe who => exact hi
  | unobserve who => exact hi
  | shutdown => exact hi
  | stop => exact hi

/-- What an input's news say leaves as much confirmed as there was, but for a batch
that lands. -/
theorem confirmed_ripples (h : Inv x) {i : Input ω} {t : Table} {news : List Happening}
    (hr : x.worker.Ripples i t news) (hw : ∀ n, x.worker.registry.waiting ≠ some (.erasing n))
    (id : String) :
    (t.record id).confirmed.isSome = (x.worker.registry.table.record id).confirmed.isSome := by
  cases hr with
  | still => rfl
  | applied n _ he => exact absurd he (hw n)
  | dropped _ => rw [Table.record_abandon, Record.kept_confirmed]
  | found _ _ =>
    obtain ⟨hkeep, hfound⟩ := x.worker.registry.table.reconcile_record x.worker.shelf.configs id
    by_cases hid : id ∈ (x.worker.registry.table.reconcile x.worker.shelf.configs).2
    · -- it is stored, so it was confirmed already
      obtain ⟨hstored, hnew⟩ := hfound hid
      rcases (h.mirrors id).mp hstored with hold | ⟨⟨n, hn⟩, -⟩
      · rw [hnew, hold]
      · exact absurd hn (hw n)
    · rw [(hkeep hid).confirmed]

/-- A landing batch leaves confirmed what it announces, and nothing that it withdraws. -/
theorem confirmed_landing (t : Table) (id : String) {before : Prop}
    (h : (t.record id).confirmed.isSome ↔ before) :
    (t.complete.1.record id).confirmed.isSome ↔
      t.inFlight.kind? id = some .addOrUpdate ∨ (t.inFlight.kind? id = none ∧ before) := by
  rw [Table.confirmed_complete, Batch.kind?]
  by_cases hw : id ∈ t.inFlight.withdrawn.keys
  · simp [hw]
  · by_cases ha : id ∈ t.inFlight.announced.keys
    · obtain ⟨c, hc⟩ := Option.isSome_iff_exists.mp (StringMap.mem_keys_iff.mp ha)
      simp [hw, ha, hc]
    · have hc : t.inFlight.announced.get? id = none := by
        simpa [StringMap.mem_keys_iff] using ha
      simp [hw, ha, hc, h]

/-- The new table fits the history with the news. -/
theorem agrees_ripples (h : Inv x) {i : Input ω} {t : Table} {news : List Happening}
    (hr : x.worker.Ripples i t news) (id : String) :
    Agrees (news ++ x.history) (t.record id) id := by
  have ha := h.agrees id
  cases hr with
  | still => exact ha
  | applied n _ he =>
    refine agrees_applied ha (fun k hk => ?_) ?_ fun hk hb => ?_
    · exact h.landing ⟨n, .inl he⟩ id k (Batch.carries_of_kind? hk)
    · rw [confirmed_landing _ id ha.confirmed]
      cases x.worker.registry.table.inFlight.kind? id <;> simp
    · exact Table.busy_complete (Table.inFlight_of_kind? hk) hb
  | dropped _ =>
    refine agrees_dropped ha ?_ fun hk hb => ?_
    · rw [Table.record_abandon, Record.kept_confirmed]
    · exact Table.busy_abandon (Table.inFlight_of_kind? hk) hb
  | found hi hw =>
    have hsame := h.confirmed_ripples (.found hi hw) (by simp [hw]) id
    obtain ⟨hkeep, -⟩ := x.worker.registry.table.reconcile_record x.worker.shelf.configs id
    exact agrees_found ha hsame fun hid => (hkeep hid).busy

/-- News are never of accepted events, so what is backed stays backed. -/
theorem backed_ripples {i : Input ω} {t : Table} {news history : List Happening} {id : String}
    {k : ReportKind} (hr : x.worker.Ripples i t news) (hb : Backed history id k) :
    Backed (news ++ history) id k := by
  cases hr with
  | still => exact hb
  | applied n _ _ => exact hb.cons nofun
  | dropped _ => exact hb.cons nofun
  | found _ _ => exact hb.cons nofun

/-- All of the outstanding batch is backed once its completion is posted. -/
theorem backed_completed (h : Inv x) {n : Nat} {announced withdrawn : Configs}
    (hp : .completed n announced withdrawn ∈ x.posted)
    (hact : x.worker.registry.isActive n = true) {id : String} {k : ReportKind}
    (hk : x.worker.registry.table.inFlight.carries id k) : Backed x.history id k := by
  obtain ⟨a, ha, hn⟩ := (Option.any_eq_true ..).mp hact
  obtain rfl : a.number = n := by simpa using hn
  obtain ⟨s, hs, -, hparts⟩ := h.completed a.number announced withdrawn hp
  rw [h.worker.inFlight a ha, ← h.batch_of_active ha hs] at hk
  obtain ⟨p, hmem, rfl, hid⟩ := Batch.carries_iff.mp hk
  exact h.backed a ha s hs p (by rwa [Sender.covered_eq_parcels hparts]) id hid

section Worker
variable [DecidableEq ω]

theorem mirrors_step (h : Inv x) {i : Input ω} (hi : x.worker.allows i = true)
    (hs : (Move.worker i).sparesStore = true) (id : String) :
    ((x.worker.step i).shelf.configs.get? id).isSome ↔
      ((x.worker.step i).registry.table.record id).confirmed.isSome ∨
        ((∃ n, (x.worker.step i).registry.waiting = some (.erasing n)) ∧
          id ∈ (x.worker.step i).registry.table.inFlight.announced.keys) := by
  have hm := h.mirrors id
  obtain ⟨t, hr, hsmooth⟩ := Worker.ripples_outcome h.worker h.obeys i
  have hconfirmed : ((x.worker.step i).registry.table.record id).confirmed =
      (t.record id).confirmed := by
    rw [Worker.step, Worker.become_registry]
    exact (hsmooth.keeps id).confirmed
  cases Worker.proceeds_step h.worker h.obeys h.spared hi hs with
  | stays hw ht hc =>
    rw [hw, ht, hc]
    exact hm
  | rests hbefore hw hc =>
    have hno : ∀ n, x.worker.registry.waiting ≠ some (.erasing n) := by
      intro n e
      rcases hbefore with hb | hb <;> cases e.symm.trans hb
    have hno' : ∀ n, (x.worker.step i).registry.waiting ≠ some (.erasing n) := by
      intro n e
      rcases hw with hb | hb <;> cases e.symm.trans hb
    rw [hc, hconfirmed, h.confirmed_ripples hr hno id]
    simpa [hno, hno'] using hm
  | stores n announced withdrawn _ _ hbefore hw ht hc =>
    rw [hw, ht, hc]
    simpa [hbefore] using hm
  | stored n ids hbefore hw ht hc =>
    rw [hw, ht, hc, StringMap.mem_keys_iff]
    have hm' : (x.worker.shelf.configs.get? id).isSome ↔
        (x.worker.registry.table.record id).confirmed.isSome := by simpa [hbefore] using hm
    cases x.worker.registry.table.inFlight.announced.get? id <;> simp [hm']
  | erased n hbefore hnews hw hc =>
    have happlied : t = x.worker.registry.table.complete.1 := by
      rw [hnews] at hr
      cases hr
      rfl
    rw [hw, hc, hconfirmed, happlied, confirmed_landing _ id Iff.rfl, Batch.kind?]
    have hm' : (x.worker.shelf.configs.get? id).isSome ↔
        (x.worker.registry.table.record id).confirmed.isSome ∨
          id ∈ x.worker.registry.table.inFlight.announced.keys := by simpa [hbefore] using hm
    by_cases hwd : id ∈ x.worker.registry.table.inFlight.withdrawn.keys
    · simp [hwd]
    · by_cases han : id ∈ x.worker.registry.table.inFlight.announced.keys
      · simp [hwd, han, hm']
      · simp [hwd, han, hm']

theorem landing_step (h : Inv x) {i : Input ω} (hi : x.allows (.worker i) = true)
    (hs : (Move.worker i).sparesStore = true) (hl : (x.worker.step i).isLanding) {id : String}
    {k : ReportKind} (hk : (x.worker.step i).registry.table.inFlight.carries id k) :
    Backed x.history id k := by
  obtain ⟨m, hl⟩ := hl
  cases Worker.proceeds_step h.worker h.obeys h.spared (h.allows_of_posted hi) hs with
  | stays hw ht _ =>
    rw [hw] at hl
    rw [ht] at hk
    exact h.landing ⟨m, hl⟩ id k hk
  | rests _ hw _ =>
    exfalso
    rcases hw with hw | hw <;> rcases hl with hl | ⟨ids, hl⟩ <;> cases hw.symm.trans hl
  | stores n announced withdrawn hinput hact _ _ ht _ =>
    subst hinput
    rw [ht] at hk
    -- the message was posted, so the service has accepted the batch
    have hposted : .completed n announced withdrawn ∈ x.posted := by
      simpa [allows, Command.batch?] using (Bool.and_eq_true ..|>.mp hi).2
    exact h.backed_completed hposted hact hk
  | stored n ids hbefore _ ht _ =>
    rw [ht] at hk
    exact h.landing ⟨n, .inr ⟨ids, hbefore⟩⟩ id k hk
  | erased n _ _ hw _ =>
    exfalso
    rcases hl with hl | ⟨ids, hl⟩ <;> cases hw.symm.trans hl

theorem worker_step (h : Inv x) {i : Input ω} (hi : x.allows (.worker i) = true)
    (hs : (Move.worker i).sparesStore = true) : Inv (x.step (.worker i)) := by
  have hallows := h.allows_of_posted hi
  have hworker := Worker.inv_step h.worker hallows
  obtain ⟨t, hr, hsmooth⟩ := Worker.ripples_outcome h.worker h.obeys i
  have hregistry : (x.worker.step i).registry = (x.worker.outcome i).1 := by
    rw [Worker.step, Worker.become_registry]
  have hcrew := x.crewed_step i (fun n hn => by
    cases hn' : x.senders n with
    | none => rfl
    | some s => exact absurd (List.mem_map_of_mem (h.crew n s hn').1) hn) hworker
  -- effects on senders leave the rest alone
  obtain ⟨hw, hp, hh⟩ := foldl_engage_frame { x with
    worker := x.worker.step i, history := x.worker.news i ++ x.history } (x.worker.outcome i).2
  change (x.step (.worker i)).worker = _ at hw
  change (x.step (.worker i)).posted = _ at hp
  change (x.step (.worker i)).history = _ at hh
  constructor
  case worker =>
    rw [hw]
    exact hworker
  case obeys =>
    rw [hw]
    exact Worker.failing_step h.obeys hs
  case spared =>
    rw [hw]
    cases Worker.proceeds_step h.worker h.obeys h.spared hallows hs with
    | stays hwait => rw [hwait]; exact h.spared
    | rests _ hwait => rcases hwait with hwait | hwait <;> simp [hwait]
    | stores _ _ _ _ _ _ hwait => simp [hwait]
    | stored _ _ _ hwait => simp [hwait]
    | erased _ _ _ hwait => simp [hwait]
  case mirrors =>
    rw [hw]
    exact h.mirrors_step hallows hs
  case crew =>
    rw [hw]
    intro n s' hs'
    rcases hcrew.made n s' hs' with ⟨s, hs, hsame⟩ | ⟨hnew, hfresh⟩
    · obtain ⟨h1, h2⟩ := h.crew n s hs
      rw [hsame.batch, hsame.parts]
      exact ⟨mem_issued_step _ _ h1, h2⟩
    · exact ⟨hnew, Nat.le_of_eq (congrArg List.length hfresh.parts)⟩
  case manned =>
    rw [hw]
    intro n b hb
    rcases hcrew.hired n b hb with hold | ⟨s', hs', -⟩
    · obtain ⟨s, hs⟩ := h.manned n b hold
      obtain ⟨s', hs', -⟩ := hcrew.kept n s hs
      exact ⟨s', hs'⟩
    · exact ⟨s', hs'⟩
  case completed =>
    rw [hp]
    intro n announced withdrawn hmem
    obtain ⟨s, hs, hbatch, hparts⟩ := h.completed n announced withdrawn hmem
    obtain ⟨s', hs', hsame⟩ := hcrew.kept n s hs
    exact ⟨s', hs', hsame.batch.trans hbatch, hsame.parts.trans hparts⟩
  case backed =>
    rw [hw, hh]
    intro a ha s' hs' p hp id hid
    -- a batch that was outstanding before keeps its sender, and a new one has a fresh sender
    rcases hcrew.made a.number s' hs' with ⟨s, hold, hsame⟩ | ⟨-, hfresh⟩
    · rcases hsmooth.active a (hregistry ▸ ha) with hbefore | hlater
      · rw [hsame.covered] at hp
        exact backed_ripples hr (h.backed a hbefore s hold p hp id hid)
      · have hbound := h.worker.bound _ (h.crew a.number s hold).1
        exact absurd hlater (Nat.not_lt.mpr hbound)
    · rw [hfresh.covered] at hp
      cases hp
  case landing =>
    rw [hw, hh]
    intro hl id k hk
    exact backed_ripples hr (h.landing_step hi hs hl hk)
  case agrees =>
    rw [hw, hh, hregistry]
    intro id
    exact (h.agrees_ripples hr id).keeps (hsmooth.keeps id)

end Worker

end Inv

section Runs
variable [DecidableEq ω]

theorem inv_step (h : Inv x) {m : Move ω} (hm : x.allows m = true) (hs : m.sparesStore = true) :
    Inv (x.step m) := by
  cases m with
  | worker i => exact h.worker_step hm hs
  | call n => exact h.call n
  | receive n stimulus =>
    unfold step
    dsimp only
    split
    · next s hsender => exact h.receive hsender stimulus
    · exact h
  | resume n now credentials ids =>
    unfold step
    dsimp only
    split
    · next s' actions hbind =>
      obtain ⟨s, hsender, hresume⟩ := Option.bind_eq_some_iff.mp hbind
      exact h.resume hsender (Sender.resume_advances hresume)
    · exact h
  | report n =>
    refine { h with completed := ?_ }
    intro k announced withdrawn hmem
    rcases List.mem_cons.mp hmem with he | hmem
    · cases he
    · exact h.completed k announced withdrawn hmem

/-- **The registry's view and the service's.** In every run in which the store does
what it is asked and is not emptied, an endpoint of which nothing is pending or on its way is
confirmed exactly when the last batch applied to it announced it; and unless it
is in doubt, exactly when the last event that the service accepted for it announced it. -/
theorem agreement_run (awaitAck : Bool) (ackTimeout : Nat) (retry : Backoff)
    (moves : List (Move ω)) (h : (start awaitAck ackTimeout retry).possible moves = true)
    (hs : ∀ m ∈ moves, m.sparesStore = true) (id : String)
    (hr : (((start awaitAck ackTimeout retry).run moves).worker.registry.table.record id).isBusy =
      false) :
    ((((start awaitAck ackTimeout retry).run moves).worker.registry.table.record
        id).confirmed.isSome ↔
      lastApplied id ((start awaitAck ackTimeout retry).run moves).history =
        some .addOrUpdate) ∧
    (inDoubt id ((start awaitAck ackTimeout retry).run moves).history = false →
      ((((start awaitAck ackTimeout retry).run moves).worker.registry.table.record
          id).confirmed.isSome ↔
        lastAccepted id ((start awaitAck ackTimeout retry).run moves).history =
          some .addOrUpdate)) :=
  ((run_induction (fun _ _ h => inv_step h) moves _ (inv_start awaitAck ackTimeout retry) h
    hs).agrees id).settled hr

end Runs

/-! ## Runs in which the views differ -/

/-- A sender transmits its current part, and goes on by the answer. -/
def attempt (n : Nat) (answer : Status) : List (Move String) :=
  [.resume n 0 ⟨"token", .refreshed, 0, 0⟩ ⟨"m", "c"⟩, .receive n (.answer answer),
    .resume n 0 ⟨"token", .refreshed, 0, 0⟩ ⟨"m", "c"⟩]

/-- The registry takes up that batch `n` is completed, and the store does its part. -/
def landed (n : Nat) (batch : Batch) : List (Move String) :=
  [.worker (.command (.completed n batch.announced batch.withdrawn)), .worker .reply,
    .worker .reply]

/-- The endpoint `b` is announced, accepted and confirmed. -/
def oneEndpoint : List (Move String) :=
  [.worker (.command (.connection .connected)), .worker (.command (.announce "b" none ⟨"1"⟩))]
    ++ attempt 1 .successAccepted ++ landed 1 ⟨.ofList [("b", ⟨"1"⟩)], .empty⟩

/-- A batch announces `a` and withdraws `b`. The first event is accepted, the
second one refused for good. -/
def refusedInPart : List (Move String) :=
  oneEndpoint
    ++ [.worker (.command (.connection .disconnected)),
      .worker (.command (.announce "a" none ⟨"2"⟩)), .worker (.command (.withdraw "b" none)),
      .worker (.command (.connection .connected))]
    ++ attempt 2 .successAccepted ++ attempt 2 .badRequest
    ++ [.worker (.command (.failed 2 .badRequest))]

/-- The withdrawal of `b` is accepted, and the connection lost before the registry
hears of it. Then `b` is announced again, just as it is stored. -/
def foundStored : List (Move String) :=
  oneEndpoint
    ++ [.worker (.command (.withdraw "b" none))] ++ attempt 2 .successAccepted
    ++ [.worker (.command (.connection .disconnected)),
      .worker (.command (.announce "b" none ⟨"1"⟩)), .worker (.command .bootstrap),
      .worker .reply]

/-- An update of `b` is given up with the connection, and `b` is withdrawn. Only then
does the first sender find that its event was accepted. -/
def answeredLate : List (Move String) :=
  oneEndpoint
    ++ [.worker (.command (.announce "b" none ⟨"2"⟩)),
      .resume 2 0 ⟨"token", .refreshed, 0, 0⟩ ⟨"m", "c"⟩,
      .worker (.command (.connection .disconnected)), .worker (.command (.withdraw "b" none)),
      .worker (.command (.connection .connected))]
    ++ attempt 3 .successAccepted ++ landed 3 ⟨.empty, .ofList [("b", .withdrawal "b")]⟩
    ++ [.receive 2 (.answer .successAccepted)]

/-- A run after which nothing is pending or on its way, and yet the views of `id` differ. -/
structure Disagrees (moves : List (Move String)) (id : String) : Prop where
  possible : (start false 0 ⟨fun _ => 0⟩).possible moves = true
  spares : moves.all Move.sparesStore = true
  pending : ((start false 0 ⟨fun _ => 0⟩).run moves).worker.registry.table.hasPending = false
  idle : ((start false 0 ⟨fun _ => 0⟩).run moves).worker.registry.table.isIdle = true
  differ : ¬ ((((start false 0 ⟨fun _ => 0⟩).run moves).worker.registry.table.record
    id).confirmed.isSome ↔
      lastAccepted id ((start false 0 ⟨fun _ => 0⟩).run moves).history = some .addOrUpdate)

/-- Though its withdrawal was dropped, `b` is not in doubt after `refusedInPart`. -/
theorem agreement_refusedInPart :
    (((start false 0 ⟨fun _ => 0⟩).run refusedInPart).worker.registry.table.record
      "b").confirmed.isSome ↔
    lastAccepted "b" ((start false 0 ⟨fun _ => 0⟩).run refusedInPart).history =
      some .addOrUpdate :=
  (agreement_run false 0 ⟨fun _ => 0⟩ refusedInPart (by decide +kernel) (by decide +kernel) "b"
    (by decide +kernel)).2 (by decide +kernel)

/-- Each way to be in doubt makes the views differ. -/
theorem agreement_fails : Disagrees refusedInPart "a" ∧ Disagrees foundStored "b" ∧
    Disagrees answeredLate "b" :=
  ⟨⟨by decide +kernel, by decide, by decide +kernel, by decide +kernel, by decide +kernel⟩,
    ⟨by decide +kernel, by decide, by decide +kernel, by decide +kernel, by decide +kernel⟩,
    ⟨by decide +kernel, by decide, by decide +kernel, by decide +kernel, by decide +kernel⟩⟩

end Exchange

end Announcer
