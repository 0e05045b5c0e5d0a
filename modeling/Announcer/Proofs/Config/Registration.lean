import Announcer.Proofs.Config
import Announcer.Proofs.Table.Records
/-!
# Recognising a registration

A config is written with the registration under a key that the caller chooses, and read
with the registration under any key that is not reserved. Neither the canonical
form nor printing and reading adds or takes a key, so the two agree as long as the
chosen key is not itself a reserved one: then the registration may be taken for another
member, or be replaced by it.

Results:
* `carriesRegistration_iff`: a config that can be read carries a registration exactly when
  its endpoint has one whose key is not reserved.
* `registered_iff`: what follows for the comparison with the store after a restart.
* `unnoticed_cookie`: a registration under a reserved key is not recognised.
-/
namespace Announcer

open Json (Value)

namespace Config

/-! ## Keys -/

theorem isRegistration_iff {v : Value} : isRegistration v = true ↔
    ∃ members, v = .object members ∧ serialNumberKey ∈ members.map Prod.fst := by
  cases v with
  | object members =>
    simp [isRegistration, Value.member?, Option.isSome_iff_ne_none, Entries.get?_eq_none_iff]
  | _ => simp [isRegistration, Value.member?]

theorem mem_keys_ofList {α : Type} {k : String} {l : List (String × α)} :
    k ∈ (Entries.ofList l).map Prod.fst ↔ k ∈ l.map Prod.fst := by
  have h := Entries.get?_ofList_reverse k l.reverse
  rw [List.reverse_reverse] at h
  have hleft := Entries.get?_eq_none_iff (k := k) (l := Entries.ofList l)
  have hright := Entries.get?_eq_none_iff (k := k) (l := l.reverse)
  rw [h, hright, List.map_reverse, List.mem_reverse] at hleft
  exact (not_iff_not.mp hleft).symm

theorem isRegistration_canonicalUnder (key : Option String) (v : Value) :
    isRegistration (v.canonicalUnder key) = isRegistration v := by
  cases v with
  | object members =>
    rw [Bool.eq_iff_iff, isRegistration_iff, isRegistration_iff, Value.canonicalUnder_object,
      Value.ofMembers]
    simp only [Value.object.injEq, exists_eq_left']
    rw [mem_keys_ofList, List.map_map]
    rfl
  | array items =>
    obtain ⟨sorted, h, -⟩ := Value.canonicalUnder_array key items
    rw [h]
    rfl
  | _ => rfl

/-- Members are read back one by one, under the keys they had. -/
theorem forall₂_of_rereadMembers? {depth : Nat} {l m : List (String × Value)}
    (h : Value.rereadMembers? depth l = some m) :
    List.Forall₂ (fun e f => f.1 = e.1 ∧ e.2.reread? depth = some f.2) l m := by
  induction l generalizing m with
  | nil =>
    cases h
    exact .nil
  | cons e l ih =>
    obtain ⟨k, v⟩ := e
    rw [Value.rereadMembers?] at h
    cases hv : v.reread? depth with
    | none => simp [hv] at h
    | some w =>
      cases hl : Value.rereadMembers? depth l with
      | none => simp [hl] at h
      | some rest =>
        simp only [hv, hl, Option.bind_eq_bind, Option.bind_some, Option.pure_def,
          Option.some.injEq] at h
        rw [← h]
        exact .cons ⟨rfl, hv⟩ (ih hl)

theorem isRegistration_reread? {depth : Nat} {v w : Value} (h : v.reread? depth = some w) :
    isRegistration w = isRegistration v := by
  match depth, v, h with
  | _, .null, h | _, .bool _, h | _, .string _, h =>
    rw [Value.reread?] at h
    cases h
    rfl
  | _, .number n, h =>
    obtain ⟨m, -, rfl⟩ := Option.map_eq_some_iff.mp (Value.reread?.eq_3 _ n ▸ h)
    rfl
  | depth + 1, .array items, h =>
    rw [Value.reread?] at h
    obtain ⟨read, -, rfl⟩ := Option.map_eq_some_iff.mp h
    rfl
  | depth + 1, .object members, h =>
    rw [Value.reread?] at h
    obtain ⟨read, hread, rfl⟩ := Option.map_eq_some_iff.mp h
    have hkeys : read.map Prod.fst = members.map Prod.fst :=
      keys_eq_of_forall₂ ((forall₂_of_rereadMembers? hread).imp fun _ _ hm => hm.1)
    rw [Bool.eq_iff_iff, isRegistration_iff, isRegistration_iff]
    simp only [Value.object.injEq, exists_eq_left', hkeys]

/-! ## The members of a config -/

/-- What is looked for among the members of a config. -/
def marks (m : String × Value) : Bool := !reservedKeys.contains m.1 && isRegistration m.2

theorem any_marks_reread {depth : Nat} {l m : List (String × Value)}
    (h : Value.rereadMembers? depth l = some m) : m.any marks = l.any marks := by
  have hall := forall₂_of_rereadMembers? h
  clear h
  induction hall with
  | nil => rfl
  | cons hd _ ih =>
    rw [List.any_cons, List.any_cons, ih, marks, marks, hd.1, isRegistration_reread? hd.2]

variable {a : Attributes} {capabilities : List Capability} {values : List Value} {c : Config}

/-- A config that can be read carries a registration when a member was put that marks one. -/
theorem carriesRegistration_of_read (htext : c.text = (source a values).canonical.text)
    (hread : (Json.parse c.text).toOption.isSome = true) :
    c.carriesRegistration = (Entries.ofList (a.members values)).any marks := by
  have hcanonical : (source a values).canonical = .object ((Entries.ofList (a.members values)).map
      fun e => (e.1, e.2.canonicalUnder (some e.1))) :=
    Value.canonicalUnder_object_of_ascending none (Entries.ascending_ofList _)
  obtain ⟨w, hw⟩ := Option.isSome_iff_exists.mp hread
  have hreread := hw
  rw [toOption_read htext, hcanonical, Json.maxDepth, Value.reread?] at hreread
  obtain ⟨members, hmembers, rfl⟩ := Option.map_eq_some_iff.mp hreread
  rw [carriesRegistration, Json.toOption_eq_some_iff.mp hw]
  show members.any marks = _
  rw [any_marks_reread hmembers, List.any_map]
  congr 1
  funext e
  simp [marks, isRegistration_canonicalUnder]

theorem isRegistration_registrationValue (r : Registration) :
    isRegistration (Attributes.registrationValue r) = true := by
  rw [isRegistration_iff]
  refine ⟨_, rfl, mem_keys_ofList.mpr ?_⟩
  simp

theorem not_marks_of_fixed {p : Json.Number → Prop} {depth : Nat} {m : String × Value}
    (h : Attributes.Fixed p depth m) : marks m = false := by
  have hreserved := List.contains_iff_mem.mpr h.1
  rw [marks, hreserved]
  rfl

theorem any_marks_iff :
    (Entries.ofList (a.members values)).any marks = true ↔
      ∃ r, a.registration? = some r ∧ r.registrationKey ∉ reservedKeys := by
  obtain ⟨before, behind, he, hbefore, hbehind⟩ := a.members_eq (fun _ => True) 0 values
  rw [he, List.any_eq_true]
  constructor
  · rintro ⟨m, hm, hmarks⟩
    -- of all that is put only the registration can mark one
    have hput := Entries.mem_of_mem_ofList hm
    simp only [List.mem_append, List.mem_singleton, Option.mem_toList,
      Option.map_eq_some_iff] at hput
    rcases hput with ((hput | ⟨r, hr, rfl⟩) | hput) | rfl
    · rw [not_marks_of_fixed (hbefore m hput)] at hmarks
      cases hmarks
    · refine ⟨r, hr, fun hkey => ?_⟩
      have hreserved := List.contains_iff_mem.mpr hkey
      rw [marks, hreserved] at hmarks
      cases hmarks
    · rw [not_marks_of_fixed (hbehind m hput)] at hmarks
      cases hmarks
    · revert hmarks
      have hreserved : reservedKeys.contains "capabilities" = true := by decide
      rw [marks, hreserved]
      simp
  · rintro ⟨r, hr, hkey⟩
    refine ⟨(r.registrationKey, Attributes.registrationValue r), Entries.mem_of_get? ?_, ?_⟩
    · -- what is put behind the registration has other keys
      have hbehindKeys : Entries.get? r.registrationKey (Entries.ofList behind) = none := by
        rw [Entries.get?_eq_none_iff, mem_keys_ofList, List.mem_map]
        rintro ⟨m, hm, hmkey⟩
        exact hkey (hmkey ▸ (hbehind m hm).1)
      have hcapabilities : r.registrationKey ≠ "capabilities" := by
        rintro hcap
        rw [hcap] at hkey
        exact hkey (by decide)
      rw [hr, Entries.ofList_concat, Entries.get?_insert, if_neg hcapabilities,
        Entries.get?_ofList_append, hbehindKeys, Option.map_some, Option.toList_some,
        Entries.ofList_concat, Entries.get?_insert, if_pos rfl]
      rfl
    · have hreserved : reservedKeys.contains r.registrationKey = false := by
        rw [← Bool.not_eq_true, List.contains_iff_mem]
        exact hkey
      rw [marks, hreserved, isRegistration_registrationValue]
      rfl

/-- A config that can be read carries a registration exactly when its endpoint has one
whose key is not reserved. -/
theorem carriesRegistration_iff (h : build a capabilities = .ok c)
    (hread : (Json.parse c.text).toOption.isSome = true) :
    c.carriesRegistration = true ↔
      ∃ r, a.registration? = some r ∧ r.registrationKey ∉ reservedKeys := by
  obtain ⟨values, -, htext⟩ := build_source h
  rw [carriesRegistration_of_read htext hread, any_marks_iff]

/-! ## The comparison with the store -/

section Compared
variable {t : Table} {stored : Configs} {id : String} (hstored : stored.get? id = some c)
include hstored

theorem record_reconcile_of_stored :
    (t.reconcile stored).1.record id =
      if (t.confirmStored stored).isStale id c then
        { (t.confirmStored stored).record id with pending := some (.withdraw (.withdrawal id)) }
      else (t.confirmStored stored).record id := by
  have hempty : ¬ stored.isEmpty = true := by
    intro hempty
    rw [StringMap.isEmpty_iff.mp hempty id] at hstored
    cases hstored
  rw [Table.reconcile, if_neg hempty, Table.record_withdrawStale, hstored]
  rfl

/-- What carries a registration is withdrawn only when that was asked for. -/
theorem pending_of_carries (hcarries : c.carriesRegistration = true) {w : Config}
    (h : ((t.reconcile stored).1.record id).pending = some (.withdraw w)) :
    (t.record id).pending = some (.withdraw w) := by
  have hstale : (t.confirmStored stored).isStale id c = false := by
    simp [Table.isStale, hcarries]
  rw [record_reconcile_of_stored hstored, hstale, if_neg Bool.false_ne_true,
    Table.record_confirmStored] at h
  split at h
  · cases h
  · exact h

/-- What carries none is withdrawn unless it was asked for or accepted since. -/
theorem withdrawn_of_not_carries (hcarries : c.carriesRegistration = false)
    (hpending : (t.record id).pending = none) (hconfirmed : (t.record id).confirmed = none) :
    ((t.reconcile stored).1.record id).pending = some (.withdraw (.withdrawal id)) := by
  have hkept : (t.confirmStored stored).record id = t.record id := by
    rw [Table.record_confirmStored, if_neg]
    intro hs
    obtain ⟨d, -, hd, -⟩ := Table.isStored_iff.mp hs
    rw [Record.pendingConfig, hpending] at hd
    cases hd
  have hstale : (t.confirmStored stored).isStale id c = true := by
    simp [Table.isStale, hkept, hpending, hconfirmed, hcarries]
  rw [record_reconcile_of_stored hstored, hstale, if_pos rfl]

end Compared

/-- A config that can be read tells whether its endpoint has a registration, if the
registration is not published under a reserved key. So when a table is compared
with a store that has the config, an endpoint with a registration is not withdrawn
unless that was asked for, and one without that is neither pending nor confirmed is. -/
theorem registered_iff (h : build a capabilities = .ok c)
    (hread : (Json.parse c.text).toOption.isSome = true)
    (hkey : ∀ r, a.registration? = some r → r.registrationKey ∉ reservedKeys) :
    (c.carriesRegistration = true ↔ a.registration?.isSome = true) ∧
    ∀ (t : Table) (stored : Configs) (id : String), stored.get? id = some c →
      (a.registration?.isSome = true → ∀ w,
        ((t.reconcile stored).1.record id).pending = some (.withdraw w) →
          (t.record id).pending = some (.withdraw w)) ∧
      (a.registration?.isSome = false → (t.record id).pending = none →
        (t.record id).confirmed = none →
          ((t.reconcile stored).1.record id).pending = some (.withdraw (.withdrawal id))) := by
  have hiff : c.carriesRegistration = true ↔ a.registration?.isSome = true := by
    rw [carriesRegistration_iff h hread, Option.isSome_iff_exists]
    exact exists_congr fun r => and_iff_left_of_imp (hkey r)
  refine ⟨hiff, fun t stored id hstored => ⟨fun hsome w hw => ?_, fun hnone hp hc => ?_⟩⟩
  · exact pending_of_carries hstored (hiff.mpr hsome) hw
  · apply withdrawn_of_not_carries hstored _ hp hc
    rw [← Bool.not_eq_true, hiff, hnone]
    exact Bool.false_ne_true

/-! ## Endpoints with and without a registration -/

/-- The lamp with a registration under a chosen key. -/
def registeredLamp (key : String) : Attributes :=
  { Attributes.lamp with registration := some ⟨"p", "s", key, "id"⟩ }

/-- The config of an endpoint with the smallest capability. -/
def small (a : Attributes) : Config :=
  ⟨(source a [.ofMembers Capability.plain.fixedMembers]).canonical.text⟩

theorem build_small (a : Attributes) : build a [.plain] = .ok (small a) := by
  have hvalues : [Capability.plain].mapM Capability.value =
      .ok [.ofMembers Capability.plain.fixedMembers] :=
    mapM_eq_ok_iff.mpr (.cons rfl .nil)
  rw [build, hvalues]
  rfl

theorem read_small (a : Attributes) : (Json.parse (small a).text).toOption.isSome = true := by
  rw [isSome_read_iff (build_small a)]
  intro cap hcap key raw v hget
  rw [List.mem_singleton.mp hcap] at hget
  cases hget

/-- A stored endpoint with a registration is not withdrawn after a restart, and one without
is. -/
theorem registered_lamp :
    (∀ w, ((Table.empty.reconcile
        (.ofList [("e1", small (registeredLamp "registration"))])).1.record "e1").pending ≠
      some (.withdraw w)) ∧
    ((Table.empty.reconcile (.ofList [("e1", small .lamp)])).1.record "e1").pending =
      some (.withdraw (.withdrawal "e1")) := by
  constructor
  · intro w hw
    have hkey : ∀ r, (registeredLamp "registration").registration? = some r →
        r.registrationKey ∉ reservedKeys := by
      rintro r hr
      cases hr
      decide
    have h := registered_iff (build_small (registeredLamp "registration"))
      (read_small (registeredLamp "registration")) hkey
    have hnone := (h.2 .empty _ "e1" rfl).1 rfl w hw
    cases hnone
  · have hkey : ∀ r, Attributes.lamp.registration? = some r → r.registrationKey ∉ reservedKeys := by
      rintro r hr
      cases hr
    have h := registered_iff (build_small .lamp) (read_small .lamp) hkey
    exact (h.2 .empty _ "e1" rfl).2 rfl rfl rfl

/-- A registration under the key of the cookies passes the checks, and its config can be read,
but is not recognised: the stored endpoint is withdrawn after a restart. -/
theorem unnoticed_cookie :
    (registeredLamp "cookie").check = .ok () ∧ checkCapabilities [.plain] 100 = .ok () ∧
      (registeredLamp "cookie").registration?.isSome = true ∧
      build (registeredLamp "cookie") [.plain] = .ok (small (registeredLamp "cookie")) ∧
      (Json.parse (small (registeredLamp "cookie")).text).toOption.isSome = true ∧
      (small (registeredLamp "cookie")).carriesRegistration = false ∧
      ((Table.empty.reconcile (.ofList [("e1", small (registeredLamp "cookie"))])).1.record
        "e1").pending = some (.withdraw (.withdrawal "e1")) := by
  have hbuild := build_small (registeredLamp "cookie")
  have hread := read_small (registeredLamp "cookie")
  have hcarries : (small (registeredLamp "cookie")).carriesRegistration = false := by
    rw [← Bool.not_eq_true, carriesRegistration_iff hbuild hread]
    rintro ⟨r, hr, hkey⟩
    cases hr
    exact hkey (by decide)
  exact ⟨rfl, rfl, rfl, hbuild, hread, hcarries,
    withdrawn_of_not_carries (t := .empty) rfl hcarries rfl rfl⟩

end Config

end Announcer
