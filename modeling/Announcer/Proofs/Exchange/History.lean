import Announcer.Proofs.Exchange.Ripples
/-!
# Reading the history

What the history of an exchange says of one endpoint. The service's view is
the last event that it accepted (`lastAccepted`), the registry's is the last batch that it applied
(`lastApplied`). They differ while an accepted event waits for its batch to be
applied (`isOpen`), and may differ for good, `inDoubt`, when that never comes: the operation
was dropped or found stored in the meantime, or its batch had been given up
when the event was accepted.

`Agrees` ties both views to the endpoint's record. It is kept by every new
entry: `agrees_accepted`, `agrees_applied`, `agrees_dropped`, `agrees_found`.
-/
namespace Announcer

/-- What a batch does to an endpoint. -/
def Batch.kind? (b : Batch) (id : String) : Option ReportKind :=
  if id ∈ b.withdrawn.keys then some .delete
  else if id ∈ b.announced.keys then some .addOrUpdate
  else none

theorem Batch.carries_of_kind? {b : Batch} {id : String} {k : ReportKind}
    (h : b.kind? id = some k) : b.carries id k := by
  unfold kind? at h
  split at h
  · next hw => cases h; exact hw
  · split at h
    · next ha => cases h; exact ha
    · cases h

namespace Happening

/-- The kind of the last event with `id` that was accepted. -/
def lastAccepted (id : String) : List Happening → Option ReportKind
  | [] => none
  | .accepted _ p :: h => if id ∈ p.ids then some p.kind else lastAccepted id h
  | _ :: h => lastAccepted id h

/-- What the last batch with `id` that was applied did. -/
def lastApplied (id : String) : List Happening → Option ReportKind
  | [] => none
  | .applied b :: h => b.kind? id <|> lastApplied id h
  | _ :: h => lastApplied id h

/-- An event with `id` was accepted, and no batch with `id` was applied since. -/
def isOpen (id : String) : List Happening → Bool
  | [] => false
  | .accepted _ p :: h => id ∈ p.ids || isOpen id h
  | .applied b :: h => (b.kind? id).isNone && isOpen id h
  | _ :: h => isOpen id h

/-- The last event with `id` came late, or what it asked for was dropped or found
stored before its batch was applied. -/
def inDoubt (id : String) : List Happening → Bool
  | [] => false
  | .accepted late p :: h => if id ∈ p.ids then late else inDoubt id h
  | .applied _ :: h => inDoubt id h
  | .dropped b :: h => ((b.kind? id).isSome && isOpen id h) || inDoubt id h
  | .found ids :: h => (id ∈ ids && isOpen id h) || inDoubt id h

/-- The last event with `id` was of this kind, unless it is in doubt. -/
def Backed (h : List Happening) (id : String) (k : ReportKind) : Prop :=
  lastAccepted id h = some k ∨ inDoubt id h = true

/-- How a record fits the history. -/
structure Agrees (h : List Happening) (r : Record) (id : String) : Prop where
  confirmed : r.confirmed.isSome ↔ lastApplied id h = some .addOrUpdate
  closed : isOpen id h = false → lastAccepted id h = lastApplied id h ∨ inDoubt id h = true
  opened : isOpen id h = true → r.isBusy = true ∨ inDoubt id h = true

variable {h : List Happening} {r r' : Record} {id : String} {k : ReportKind}

/-- An endpoint that nothing is asked for is confirmed as the registry's view has it,
and when it is not in doubt, as the service's view has it. -/
theorem Agrees.settled (ha : Agrees h r id) (hr : r.isBusy = false) :
    (r.confirmed.isSome ↔ lastApplied id h = some .addOrUpdate) ∧
      (inDoubt id h = false → (r.confirmed.isSome ↔ lastAccepted id h = some .addOrUpdate)) := by
  refine ⟨ha.confirmed, fun hd => ?_⟩
  have hclosed : isOpen id h = false := by
    cases ho : isOpen id h with
    | false => rfl
    | true =>
      rcases ha.opened ho with hb | hb
      · rw [hr] at hb; cases hb
      · rw [hd] at hb; cases hb
  rcases ha.closed hclosed with he | he
  · rw [he]
    exact ha.confirmed
  · rw [hd] at he
    cases he

/-! ## A new entry -/

/-- Only an accepted event can change what backs an operation. -/
theorem Backed.cons {e : Happening} (hb : Backed h id k) (he : ∀ late p, e ≠ .accepted late p) :
    Backed (e :: h) id k := by
  cases e with
  | accepted late p => exact absurd rfl (he late p)
  | applied b => exact hb
  | dropped b => exact hb.imp_right fun h => by simp [inDoubt, h]
  | found ids => exact hb.imp_right fun h => by simp [inDoubt, h]

/-- An event backs what it carries, and puts it in doubt when it comes late. -/
theorem backed_accepted {late : Bool} {p : Parcel} (hb : Backed h id k)
    (hp : id ∈ p.ids → late = true ∨ p.kind = k) : Backed (.accepted late p :: h) id k := by
  unfold Backed lastAccepted inDoubt
  by_cases hid : id ∈ p.ids
  · rw [if_pos hid, if_pos hid]
    rcases hp hid with hl | hk
    · exact .inr hl
    · exact .inl (by rw [hk])
  · rw [if_neg hid, if_neg hid]
    exact hb

theorem agrees_accepted {late : Bool} {p : Parcel} (ha : Agrees h r id)
    (hp : id ∈ p.ids → late = true ∨ r.isBusy = true) : Agrees (.accepted late p :: h) r id := by
  by_cases hid : id ∈ p.ids
  · refine ⟨ha.confirmed, fun ho => ?_, fun _ => ?_⟩
    · simp [isOpen, hid] at ho
    · rw [inDoubt, if_pos hid]
      exact (hp hid).symm
  · refine ⟨ha.confirmed, fun ho => ?_, fun ho => ?_⟩
    · rw [lastAccepted, inDoubt, if_neg hid, if_neg hid]
      exact ha.closed (by simpa [isOpen, hid] using ho)
    · rw [inDoubt, if_neg hid]
      exact ha.opened (by simpa [isOpen, hid] using ho)

/-- Nothing new: what is confirmed stays, and what is busy stays busy. -/
theorem Agrees.keeps (ha : Agrees h r id) (hk : r.Keeps r') : Agrees h r' id :=
  ⟨by rw [hk.confirmed]; exact ha.confirmed, ha.closed, fun ho => (ha.opened ho).imp_left hk.busy⟩

/-- A batch is applied that the service has accepted. -/
theorem agrees_applied {b : Batch} (ha : Agrees h r id)
    (hb : ∀ k, b.kind? id = some k → Backed h id k)
    (hc : r'.confirmed.isSome ↔ (b.kind? id <|> lastApplied id h) = some .addOrUpdate)
    (hbusy : b.kind? id = none → r.isBusy = true → r'.isBusy = true) :
    Agrees (.applied b :: h) r' id := by
  cases hk : b.kind? id with
  | none =>
    rw [hk] at hc
    refine ⟨by rw [lastApplied, hk]; exact hc, fun ho => ?_, fun ho => ?_⟩
    · rw [lastApplied, hk]
      exact ha.closed (by simpa [isOpen, hk] using ho)
    · exact (ha.opened (by simpa [isOpen, hk] using ho)).imp_left (hbusy hk)
  | some k =>
    rw [hk] at hc
    refine ⟨by rw [lastApplied, hk]; exact hc, fun _ => ?_, fun ho => ?_⟩
    · rw [lastApplied, hk]
      exact hb k hk
    · simp [isOpen, hk] at ho

/-- A batch is dropped: an accepted event that waited for it is in doubt. -/
theorem agrees_dropped {b : Batch} (ha : Agrees h r id)
    (hc : r'.confirmed.isSome = r.confirmed.isSome)
    (hbusy : b.kind? id = none → r.isBusy = true → r'.isBusy = true) :
    Agrees (.dropped b :: h) r' id := by
  refine ⟨by rw [hc]; exact ha.confirmed, fun ho => ?_, fun ho => ?_⟩
  · exact (ha.closed ho).imp_right fun hd => by simp [inDoubt, hd]
  · have ho' : isOpen id h = true := ho
    cases hk : b.kind? id with
    | none => exact (ha.opened ho').imp (hbusy hk) fun hd => by simp [inDoubt, hd]
    | some k => exact .inr (by simp [inDoubt, hk, ho'])

/-- An announcement is found stored: an accepted event that waited for it is in doubt. -/
theorem agrees_found {ids : List String} (ha : Agrees h r id)
    (hc : r'.confirmed.isSome = r.confirmed.isSome)
    (hbusy : id ∉ ids → r.isBusy = true → r'.isBusy = true) :
    Agrees (.found ids :: h) r' id := by
  refine ⟨by rw [hc]; exact ha.confirmed, fun ho => ?_, fun ho => ?_⟩
  · exact (ha.closed ho).imp_right fun hd => by simp [inDoubt, hd]
  · have ho' : isOpen id h = true := ho
    by_cases hid : id ∈ ids
    · exact .inr (by simp [inDoubt, hid, ho'])
    · exact (ha.opened ho').imp (hbusy hid) fun hd => by simp [inDoubt, hd]

end Happening

end Announcer
