import Mathlib.Data.List.Forall2
import Announcer.Config.Build
import Announcer.Proofs.Json.Sound
/-!
# What a config is made of

A config is the canonical form of one ordered value. All of it but the further members of
the capabilities nests six brackets deep at most and holds no number; a further
member stands three brackets deep. So how deep a config nests and which
numbers it holds is decided by the further members alone (`Config.Source`).

Results: `build_source`, `isSome_read_iff`, `read_of_stable`.
-/
namespace Announcer

open Json (Value Number)

theorem bind_eq_ok_iff {ε α β : Type} {x : Except ε α} {f : α → Except ε β} {r : β} :
    (x >>= f) = .ok r ↔ ∃ a, x = .ok a ∧ f a = .ok r := by
  cases x <;> simp [bind, Except.bind]

theorem mapM_eq_ok_iff {ε α β : Type} {f : α → Except ε β} {l : List α} {r : List β} :
    l.mapM f = .ok r ↔ List.Forall₂ (fun a b => f a = .ok b) l r := by
  induction l generalizing r with
  | nil => cases r <;> simp [pure, Except.pure]
  | cons a l ih =>
    rw [List.mapM_cons]
    cases ha : f a with
    | error e => cases r <;> simp [bind, Except.bind, ha]
    | ok b =>
      cases hl : l.mapM f with
      | error e => cases r <;> simp [bind, Except.bind, ← ih, hl, ha]
      | ok s => cases r <;> simp [bind, Except.bind, pure, Except.pure, ← ih, hl, ha]

theorem exists_left_of_forall₂ {α β : Type} {R : α → β → Prop} {l : List α} {r : List β}
    (h : List.Forall₂ R l r) : ∀ b ∈ r, ∃ a ∈ l, R a b := by
  induction h with
  | nil => simp
  | cons hd _ ih =>
    refine List.forall_mem_cons.mpr ⟨⟨_, List.mem_cons_self, hd⟩, fun b hb => ?_⟩
    obtain ⟨a, ha, hab⟩ := ih b hb
    exact ⟨a, List.mem_cons_of_mem _ ha, hab⟩

theorem exists_right_of_forall₂ {α β : Type} {R : α → β → Prop} {l : List α} {r : List β}
    (h : List.Forall₂ R l r) : ∀ a ∈ l, ∃ b ∈ r, R a b :=
  exists_left_of_forall₂ h.flip

theorem keys_eq_of_forall₂ {α β : Type} {l : List (String × α)} {r : List (String × β)}
    (h : List.Forall₂ (fun e m => m.1 = e.1) l r) : r.map Prod.fst = l.map Prod.fst := by
  induction h with
  | nil => rfl
  | cons hd _ ih => rw [List.map_cons, List.map_cons, hd, ih]

theorem exists_forall₂ {α β : Type} {R : α → β → Prop} {l : List α} (h : ∀ a ∈ l, ∃ b, R a b) :
    ∃ r, List.Forall₂ R l r := by
  induction l with
  | nil => exact ⟨[], .nil⟩
  | cons a l ih =>
    obtain ⟨⟨b, hb⟩, hl⟩ := List.forall_mem_cons.mp h
    obtain ⟨r, hr⟩ := ih hl
    exact ⟨b :: r, .cons hb hr⟩

/-! ## Capabilities -/

namespace Capability

/-- The further members of a capability are published as these. -/
def Publishes (c : Capability) (further : List (String × Value)) : Prop :=
  List.Forall₂ (fun e m => m.1 = e.1 ∧ Json.parse e.2 = .ok m.2) c.additional.entries further

/-- Every further member of a capability fits into so many brackets. -/
def FurtherFit (p : Number → Prop) (depth : Nat) (c : Capability) : Prop :=
  ∀ key raw v, c.additional.get? key = some raw → Json.parse raw = .ok v → v.Fits p depth

theorem publishes_of_furtherMembers {c : Capability} {further : List (String × Value)}
    (h : c.furtherMembers = .ok further) : c.Publishes further := by
  refine (mapM_eq_ok_iff.mp h).imp ?_
  rintro ⟨key, raw⟩ m hm
  simp only [parseMember] at hm
  cases hread : Json.parse raw with
  | error f => simp [hread] at hm
  | ok v =>
    simp only [hread, Except.ok.injEq] at hm
    exact ⟨hm ▸ rfl, hm ▸ rfl⟩

theorem publishes_of_value {c : Capability} {v : Value} (h : c.value = .ok v) :
    ∃ further, c.Publishes further ∧ v = .ofMembers (c.fixedMembers ++ further) := by
  obtain ⟨further, hf, hv⟩ := Json.map_eq_ok h
  exact ⟨further, publishes_of_furtherMembers hf, hv.symm⟩

theorem Publishes.keys {c : Capability} {further : List (String × Value)}
    (h : c.Publishes further) : further.map Prod.fst = c.additional.keys :=
  keys_eq_of_forall₂ (h.imp fun _ _ hm => hm.1)

theorem Publishes.ascending {c : Capability} {further : List (String × Value)}
    (h : c.Publishes further) : Entries.Ascending further := by
  have hkeys : (further.map Prod.fst).Pairwise (· < ·) := by
    rw [h.keys]
    exact List.pairwise_map.mpr c.additional.ascending
  exact List.pairwise_map.mp hkeys

theorem Publishes.ordered {c : Capability} {further : List (String × Value)}
    (h : c.Publishes further) : ∀ m ∈ further, m.2.Ordered := by
  intro m hm
  obtain ⟨e, -, -, hread⟩ := exists_left_of_forall₂ h m hm
  exact (Json.parse_sound hread).1

theorem Publishes.furtherFit_iff {c : Capability} {further : List (String × Value)}
    (h : c.Publishes further) {p : Number → Prop} {depth : Nat} :
    c.FurtherFit p depth ↔ ∀ m ∈ further, m.2.Fits p depth := by
  constructor
  · intro hfit m hm
    obtain ⟨e, he, -, hread⟩ := exists_left_of_forall₂ h m hm
    exact hfit e.1 e.2 m.2 (StringMap.mem_entries_iff.mp he) hread
  · intro hall key raw v hget hread
    obtain ⟨m, hm, -, hread'⟩ := exists_right_of_forall₂ h (key, raw)
      (StringMap.mem_entries_iff.mpr hget)
    cases hread.symm.trans hread'
    exact hall m hm

/-- No number stands in the properties, and they nest three brackets deep. -/
theorem propertiesValue_plain (p : Number → Prop) (depth : Nat) (properties : Properties) :
    (propertiesValue properties).Ordered ∧ (propertiesValue properties).Fits p (depth + 3) := by
  have hsupported : (Value.array
      (properties.supported.map fun s => Value.object [("name", .string s)])).Ordered := by
    simp [Value.ordered_object]
  constructor
  · apply Value.ordered_ofMembers
    intro e he
    simp only [List.mem_append, List.mem_cons, List.not_mem_nil, or_false, Option.mem_toList,
      Option.map_eq_some_iff] at he
    rcases he with (rfl | rfl | rfl) | ⟨b, -, rfl⟩
    · exact hsupported
    · simp
    · simp
    · simp
  · apply Value.fits_ofMembers
    intro e he
    simp only [List.mem_append, List.mem_cons, List.not_mem_nil, or_false, Option.mem_toList,
      Option.map_eq_some_iff] at he
    rcases he with (rfl | rfl | rfl) | ⟨b, -, rfl⟩ <;> simp

/-- No number stands in the fixed members, and they nest three brackets deep at most. -/
theorem fixedMembers_plain (p : Number → Prop) (depth : Nat) (c : Capability) :
    ∀ m ∈ c.fixedMembers, m.2.Ordered ∧ m.2.Fits p (depth + 3) := by
  intro m hm
  simp only [fixedMembers, List.mem_append, List.mem_cons, List.not_mem_nil, or_false,
    Option.mem_toList, Option.map_eq_some_iff] at hm
  rcases hm with ((rfl | rfl | rfl) | ⟨s, -, rfl⟩) | ⟨properties, -, rfl⟩
  · simp
  · simp
  · simp
  · simp
  · exact propertiesValue_plain p depth properties

/-- How deep a capability nests and which numbers it holds, its further members decide. -/
theorem fits_value_iff {c : Capability} {v : Value} (h : c.value = .ok v)
    {p : Number → Prop} {depth : Nat} : v.Fits p (depth + 4) ↔ c.FurtherFit p (depth + 3) := by
  obtain ⟨further, hpublishes, rfl⟩ := publishes_of_value h
  rw [hpublishes.furtherFit_iff]
  constructor
  · intro hfit m hm
    -- the further members come last, so none of them is replaced
    have hget : Entries.get? m.1 (Entries.ofList (c.fixedMembers ++ further)) = some m.2 := by
      rw [Entries.get?_ofList_append, Entries.ofList_eq_self hpublishes.ascending,
        Entries.get?_of_mem hpublishes.ascending (show (m.1, m.2) ∈ further from hm)]
      rfl
    exact Value.fits_object_succ.mp hfit _ (Entries.mem_of_get? hget)
  · intro hall
    apply Value.fits_ofMembers
    intro m hm
    rcases List.mem_append.mp hm with hm | hm
    · exact (fixedMembers_plain p depth c m hm).2
    · exact hall m hm

theorem ordered_value {c : Capability} {v : Value} (h : c.value = .ok v) : v.Ordered := by
  obtain ⟨further, hpublishes, rfl⟩ := publishes_of_value h
  apply Value.ordered_ofMembers
  intro m hm
  rcases List.mem_append.mp hm with hm | hm
  · exact (fixedMembers_plain (fun _ => True) 0 c m hm).1
  · exact hpublishes.ordered m hm

end Capability

/-! ## Attributes -/

namespace Attributes

theorem ofTextMap_plain (p : Number → Prop) (depth : Nat) (m : StringMap String) :
    (Value.ofTextMap m).Ordered ∧ (Value.ofTextMap m).Fits p (depth + 1) := by
  constructor
  · refine Value.ordered_object.mpr ⟨List.pairwise_map.mpr m.ascending, ?_⟩
    exact List.forall_mem_map.mpr fun e _ => Value.ordered_string e.2
  · rw [Value.ofTextMap, Value.fits_object_succ]
    exact List.forall_mem_map.mpr fun e _ => Value.fits_string e.2

/-- A member of a config under a reserved key, without a number and two brackets deep
at most. -/
def Fixed (p : Number → Prop) (depth : Nat) (m : String × Value) : Prop :=
  m.1 ∈ Config.reservedKeys ∧ m.2.Ordered ∧ m.2.Fits p (depth + 2)

variable (p : Number → Prop) (depth : Nat) (a : Attributes)

theorem detailsMember_fixed : ∀ m ∈ a.detailsMember, Fixed p depth m := by
  intro m hm
  rw [detailsMember] at hm
  split at hm
  · obtain rfl := List.mem_singleton.mp hm
    refine ⟨show "additionalAttributes" ∈ Config.reservedKeys by decide,
      Value.ordered_ofMembers ?_, Value.fits_ofMembers ?_⟩
    · exact List.forall_mem_map.mpr fun e _ => Value.ordered_string e.2
    · exact List.forall_mem_map.mpr fun e _ => Value.fits_string e.2
  · cases hm

theorem connectionsMember_fixed : ∀ m ∈ a.connectionsMember, Fixed p depth m := by
  intro m hm
  rw [connectionsMember] at hm
  split at hm
  · cases hm
  · obtain rfl := List.mem_singleton.mp hm
    refine ⟨show "connections" ∈ Config.reservedKeys by decide,
      Value.ordered_array.mpr ?_, Value.fits_array_succ.mpr ?_⟩
    · exact List.forall_mem_map.mpr fun c _ => (ofTextMap_plain p depth c).1
    · exact List.forall_mem_map.mpr fun c _ => (ofTextMap_plain p depth c).2

theorem cookieMember_fixed : ∀ m ∈ a.cookieMember, Fixed p depth m := by
  intro m hm
  rw [cookieMember] at hm
  split at hm
  · cases hm
  · obtain rfl := List.mem_singleton.mp hm
    exact ⟨show "cookie" ∈ Config.reservedKeys by decide, ofTextMap_plain p (depth + 1) a.cookies⟩

theorem ofTexts_plain (l : List String) :
    (Value.ofTexts l).Ordered ∧ (Value.ofTexts l).Fits p (depth + 2) := by
  constructor
  · exact Value.ordered_array.mpr (List.forall_mem_map.mpr fun s _ => Value.ordered_string s)
  · rw [Value.ofTexts, Value.fits_array_succ]
    exact List.forall_mem_map.mpr fun s _ => Value.fits_string s

/-- The registration as it is published. -/
def registrationValue (r : Registration) : Value :=
  .ofMembers [(r.productIdKey, .string r.productId),
    (Config.serialNumberKey, .string r.serialNumber)]

theorem registrationValue_plain (r : Registration) :
    (registrationValue r).Ordered ∧ (registrationValue r).Fits p (depth + 2) := by
  constructor
  · exact Value.ordered_ofMembers (by simp)
  · exact Value.fits_ofMembers (by simp)

/-- The members of a config are the registration among members under reserved keys. -/
theorem members_eq (capabilities : List Value) :
    ∃ before behind, a.members capabilities = before ++
        (a.registration?.map fun r => (r.registrationKey, registrationValue r)).toList ++ behind ++
          [("capabilities", .array capabilities)] ∧
      (∀ m ∈ before, Fixed p depth m) ∧ ∀ m ∈ behind, Fixed p depth m := by
  have hregistration : a.registrationMember =
      (a.registration?.map fun r => (r.registrationKey, registrationValue r)).toList := by
    rw [registrationMember]
    cases a.registration? <;> rfl
  refine ⟨[("endpointId", .string a.endpointId), ("friendlyName", .string a.friendlyName),
    ("description", .string a.description), ("manufacturerName", .string a.manufacturerName),
    ("displayCategories", .ofTexts a.displayCategories)] ++ a.detailsMember,
    a.connectionsMember ++ a.cookieMember, ?_, ?_, ?_⟩
  · rw [members, hregistration]
    simp only [List.append_assoc]
  · simp only [List.forall_mem_append, List.forall_mem_cons]
    refine ⟨⟨?_, ?_, ?_, ?_, ?_, by simp⟩, detailsMember_fixed p depth a⟩
    · exact ⟨show "endpointId" ∈ Config.reservedKeys by decide, by simp, by simp⟩
    · exact ⟨show "friendlyName" ∈ Config.reservedKeys by decide, by simp, by simp⟩
    · exact ⟨show "description" ∈ Config.reservedKeys by decide, by simp, by simp⟩
    · exact ⟨show "manufacturerName" ∈ Config.reservedKeys by decide, by simp, by simp⟩
    · exact ⟨show "displayCategories" ∈ Config.reservedKeys by decide,
        ofTexts_plain p depth a.displayCategories⟩
  · rw [List.forall_mem_append]
    exact ⟨connectionsMember_fixed p depth a, cookieMember_fixed p depth a⟩

end Attributes

/-! ## Configs -/

namespace Config

/-- The value of an endpoint before it is brought into canonical form, from the values of
its capabilities. -/
def source (a : Attributes) (capabilities : List Value) : Value :=
  .ofMembers (a.members capabilities)

variable {a : Attributes} {capabilities : List Capability} {values : List Value} {c : Config}

theorem build_source (h : build a capabilities = .ok c) :
    ∃ values, List.Forall₂ (fun cap v => cap.value = .ok v) capabilities values ∧
      c.text = (source a values).canonical.text := by
  unfold build at h
  obtain ⟨values, hvalues, h⟩ := bind_eq_ok_iff.mp h
  cases h
  exact ⟨values, mapM_eq_ok_iff.mp hvalues, rfl⟩

theorem ordered_source
    (h : List.Forall₂ (fun cap v => Capability.value cap = .ok v) capabilities values) :
    (source a values).Ordered := by
  obtain ⟨before, behind, he, hbefore, hbehind⟩ :=
    a.members_eq (fun _ => True) 0 values
  apply Value.ordered_ofMembers
  rw [he]
  simp only [List.forall_mem_append, List.forall_mem_singleton]
  refine ⟨⟨⟨fun m hm => (hbefore m hm).2.1, ?_⟩, fun m hm => (hbehind m hm).2.1⟩, ?_⟩
  · intro m hm
    obtain ⟨r, -, rfl⟩ := Option.map_eq_some_iff.mp (Option.mem_toList.mp hm)
    exact (Attributes.registrationValue_plain (fun _ => True) 0 r).1
  · refine Value.ordered_array.mpr fun v hv => ?_
    obtain ⟨cap, -, hcap⟩ := exists_left_of_forall₂ h v hv
    exact Capability.ordered_value hcap

/-- How deep a config nests and which numbers it holds, the further members of the
capabilities decide. -/
theorem fits_source_iff
    (h : List.Forall₂ (fun cap v => Capability.value cap = .ok v) capabilities values)
    {p : Number → Prop} {depth : Nat} :
    (source a values).Fits p (depth + 6) ↔
      ∀ cap ∈ capabilities, cap.FurtherFit p (depth + 3) := by
  obtain ⟨before, behind, he, hbefore, hbehind⟩ := a.members_eq p (depth + 3) values
  constructor
  · intro hfit cap hcap
    obtain ⟨v, hv, hvalue⟩ := exists_right_of_forall₂ h cap hcap
    -- the capabilities come last, so they are not replaced
    have hget : Entries.get? "capabilities" (Entries.ofList (a.members values)) =
        some (.array values) := by
      rw [he, Entries.ofList_concat, Entries.get?_insert, if_pos rfl]
    have harray := Value.fits_object_succ.mp hfit _ (Entries.mem_of_get? hget)
    exact (Capability.fits_value_iff hvalue).mp (Value.fits_array_succ.mp harray v hv)
  · intro hall
    apply Value.fits_ofMembers
    rw [he]
    simp only [List.forall_mem_append, List.forall_mem_singleton]
    refine ⟨⟨⟨fun m hm => (hbefore m hm).2.2, ?_⟩, fun m hm => (hbehind m hm).2.2⟩, ?_⟩
    · intro m hm
      obtain ⟨r, -, rfl⟩ := Option.map_eq_some_iff.mp (Option.mem_toList.mp hm)
      exact (Attributes.registrationValue_plain p (depth + 3) r).2
    · refine Value.fits_array_succ.mpr fun v hv => ?_
      obtain ⟨cap, hcap, hvalue⟩ := exists_left_of_forall₂ h v hv
      exact (Capability.fits_value_iff hvalue).mpr (hall cap hcap)

/-- How deep a further member may nest so that its config can be read: it stands three
brackets deep. -/
def furtherDepth : Nat := Json.maxDepth - 3

theorem fits_canonical_iff
    (h : List.Forall₂ (fun cap v => Capability.value cap = .ok v) capabilities values)
    {p : Number → Prop} :
    (source a values).canonical.Fits p Json.maxDepth ↔
      ∀ cap ∈ capabilities, cap.FurtherFit p furtherDepth := by
  rw [Value.canonical, Value.fits_canonicalUnder none _ _ (ordered_source h)]
  have hdepth : Json.maxDepth = 121 + 6 := rfl
  have hfurther : furtherDepth = 121 + 3 := rfl
  rw [hdepth, hfurther]
  exact fits_source_iff h

theorem toOption_read
    (h : c.text = (source a values).canonical.text) :
    (Json.parse c.text).toOption = (source a values).canonical.reread? Json.maxDepth := by
  rw [h]
  exact Json.parse_text (Value.ordered_canonicalUnder none _)

/-- A config can be read exactly when no further member nests too deep and every number
in one is legible. -/
theorem isSome_read_iff (h : build a capabilities = .ok c) :
    (Json.parse c.text).toOption.isSome = true ↔
      ∀ cap ∈ capabilities, cap.FurtherFit Number.Legible furtherDepth := by
  obtain ⟨values, hvalues, htext⟩ := build_source h
  rw [toOption_read htext, Value.isSome_reread?_iff, fits_canonical_iff hvalues]

/-- A config whose numbers are read back as they were is read as the value it was printed
from. -/
theorem read_of_stable (h : build a capabilities = .ok c)
    (hfit : ∀ cap ∈ capabilities, cap.FurtherFit Number.Stable furtherDepth) :
    ∃ v, Json.parse c.text = .ok v ∧ v.text = c.text := by
  obtain ⟨values, hvalues, htext⟩ := build_source h
  refine ⟨(source a values).canonical, ?_, htext.symm⟩
  rw [htext]
  exact Json.parse_text_of_stable (Value.ordered_canonicalUnder none _)
    ((fits_canonical_iff hvalues).mpr hfit)

/-! ## Prepared configs -/

theorem build_of_prepare {max : Nat} (h : prepare max a capabilities = .ok c) :
    build a capabilities = .ok c ∧ c.size ≤ maxConfigBytesPerEvent := by
  unfold prepare at h
  obtain ⟨_, -, h⟩ := bind_eq_ok_iff.mp h
  obtain ⟨_, -, h⟩ := bind_eq_ok_iff.mp h
  obtain ⟨built, hbuilt, h⟩ := bind_eq_ok_iff.mp h
  obtain ⟨_, hfits, h⟩ := bind_eq_ok_iff.mp h
  cases h
  refine ⟨hbuilt, ?_⟩
  unfold ensureFits at hfits
  split at hfits
  · assumption
  · cases hfits

/-- A descriptor that passes every check is prepared. -/
theorem prepare_eq_ok {max : Nat} (hattributes : a.check = .ok ())
    (hcapabilities : checkCapabilities capabilities max = .ok ())
    (hvalues : List.Forall₂ (fun cap v => Capability.value cap = .ok v) capabilities values)
    (hsize : (source a values).canonical.text.utf8ByteSize ≤ maxConfigBytesPerEvent) :
    prepare max a capabilities = .ok ⟨(source a values).canonical.text⟩ := by
  have hbuild : build a capabilities = .ok ⟨(source a values).canonical.text⟩ := by
    rw [build, mapM_eq_ok_iff.mpr hvalues]
    rfl
  have hfits : ensureFits a.endpointId ⟨(source a values).canonical.text⟩ = .ok () := if_pos hsize
  rw [prepare, hattributes, hcapabilities, hbuild]
  simp only [Except.mapError, bind, Except.bind, hfits]
  rfl

end Config

/-! ## A small descriptor -/

/-- An endpoint without anything that may be left out. -/
def Attributes.lamp : Attributes where
  endpointId := "e1"
  friendlyName := "Lamp"
  description := "A lamp"
  manufacturerName := "Maker"
  displayCategories := ["LIGHT"]
  additional := none
  connections := []
  cookies := .empty
  registration := none

/-- A capability without anything that may be left out. -/
def Capability.plain : Capability where
  interfaceType := "AlexaInterface"
  interfaceName := "Alexa"
  version := "3"
  instanceName := none
  properties := none
  additional := .empty

/-- A capability with one further member. -/
def Capability.extended (key raw : String) : Capability :=
  { plain with additional := .ofList [(key, raw)] }

/-- The published form of a capability with one further member. -/
def Capability.extendedValue (key : String) (v : Value) : Value :=
  .ofMembers (plain.fixedMembers ++ [(key, v)])

namespace Capability
variable {key raw : String} {v : Value}

theorem furtherMembers_extended (h : Json.parse raw = .ok v) :
    (extended key raw).furtherMembers = .ok [(key, v)] := by
  have hentries : (extended key raw).additional.entries = [(key, raw)] := rfl
  have hmember : parseMember key raw = .ok v := by
    rw [parseMember, h]
  rw [furtherMembers, hentries]
  exact mapM_eq_ok_iff.mpr (.cons (by simp [hmember]) .nil)

theorem value_extended (h : Json.parse raw = .ok v) :
    (extended key raw).value = .ok (extendedValue key v) := by
  rw [value, furtherMembers_extended h]
  rfl

theorem check_extended (h : Json.parse raw = .ok v) : (extended key raw).check = .ok () := by
  have hentries : (extended key raw).additional.entries = [(key, raw)] := rfl
  have hmember : parseMember key raw = .ok v := by
    rw [parseMember, h]
  rw [check, hentries]
  simp only [List.forM_eq_forM, List.forM_cons, List.forM_nil, hmember]
  rfl

/-- What fits of the one further member fits of all of them. -/
theorem furtherFit_extended (h : Json.parse raw = .ok v) {p : Number → Prop} {depth : Nat} :
    (extended key raw).FurtherFit p depth ↔ v.Fits p depth := by
  rw [(publishes_of_furtherMembers (furtherMembers_extended h)).furtherFit_iff,
    List.forall_mem_singleton]

end Capability

/-- A descriptor whose only further member holds a value is prepared unless it is too large. -/
theorem Config.prepare_extended {a : Attributes} (ha : a.check = .ok ()) {key raw : String}
    {v : Value} (h : Json.parse raw = .ok v)
    (hsize : (source a [Capability.extendedValue key v]).canonical.text.utf8ByteSize ≤
      maxConfigBytesPerEvent) :
    prepare 100 a [.extended key raw] =
      .ok ⟨(source a [Capability.extendedValue key v]).canonical.text⟩ := by
  apply prepare_eq_ok ha
  · rw [checkCapabilities]
    simp only [List.forM_eq_forM, List.forM_cons, List.forM_nil, Capability.check_extended h]
    rfl
  · exact .cons (Capability.value_extended h) .nil
  · exact hsize

end Announcer
