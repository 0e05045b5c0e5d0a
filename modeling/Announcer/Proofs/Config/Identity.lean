import Mathlib
import Announcer.Proofs.Config.Registration
import Announcer.Proofs.Json.Canonical
/-!
# Whose config it is

A config is put together member by member, and a member that is put later replaces an
earlier one under the same key. Of the keys that a caller chooses two kinds can so take the
place of what names an endpoint: the key of the registration, which is put behind the id, the
names and the categories, and the keys of the further members of a capability, which are put
behind its type, interface and version. The key of the product id cannot, for it stands inside
the registration.

What is read of a config under a key comes from what was put there last (`member?_read`), and a
text is read as it was put and from nothing else (`member?_eq_string_iff`). So member by member
a config names its endpoint exactly where the caller's keys leave it alone.

Results: `member?_read`, `member?_eq_string_iff`; `identity_iff`; `misnamed_lamp` has a config
without its id and with a version that is not its own.
-/
namespace Announcer

open Json (Value)

/-! ## What is looked for -/

/-- The texts by which an endpoint is named, each with its key. -/
def Attributes.identity (a : Attributes) : List (String × String) :=
  [("endpointId", a.endpointId), ("friendlyName", a.friendlyName),
    ("description", a.description), ("manufacturerName", a.manufacturerName)]

/-- The texts by which a capability is named, each with its key. -/
def Capability.identity (c : Capability) : List (String × String) :=
  [("type", c.interfaceType), ("interface", c.interfaceName), ("version", c.version)]

/-- The registration, if there is one, is published under another key. -/
def Attributes.Leaves (a : Attributes) (key : String) : Prop :=
  ∀ r ∈ a.registration?, r.registrationKey ≠ key

/-- A further member under this key, if there is one, holds just this text. -/
def Capability.Leaves (c : Capability) (key text : String) : Prop :=
  ∀ raw ∈ c.additional.get? key, Json.parse raw = .ok (.string text)

/-! ## Reading what was printed -/

/-- Entries that are linked one by one are found under the same keys. -/
theorem Entries.Linked.get? {α β : Type} {R : String → α → β → Prop} {l : List (String × α)}
    {m : List (String × β)} (h : Entries.Linked R l m) (k : String) :
    Option.Rel (R k) (Entries.get? k l) (Entries.get? k m) := by
  induction h with
  | nil => exact .none
  | @cons e f _ _ hd _ ih =>
    obtain ⟨key, x⟩ := e
    obtain ⟨key', y⟩ := f
    obtain ⟨rfl, hxy⟩ : key = key' ∧ R key x y := hd
    by_cases hk : k = key
    · subst hk
      simp only [Entries.get?, if_true]
      exact .some hxy
    · simp only [Entries.get?, if_neg hk]
      exact ih

theorem forall₂_trans {α β γ : Type} {R : α → β → Prop} {S : β → γ → Prop} {T : α → γ → Prop}
    (hRS : ∀ a b c, R a b → S b c → T a c) {l : List α} {m : List β} {n : List γ}
    (h : List.Forall₂ R l m) (h' : List.Forall₂ S m n) : List.Forall₂ T l n := by
  induction h generalizing n with
  | nil =>
    cases h'
    exact .nil
  | cons hd _ ih =>
    cases h' with
    | cons hd' htl' => exact .cons (hRS _ _ _ hd hd') (ih htl')

namespace Json.Value

theorem canonicalUnder_eq_string_iff {key : Option String} {v : Value} {s : String} :
    v.canonicalUnder key = .string s ↔ v = .string s := by
  cases v with
  | array items =>
    obtain ⟨sorted, h, -⟩ := canonicalUnder_array key items
    simp [h]
  | object members => simp [canonicalUnder]
  | _ => simp [canonicalUnder]

/-- Only a text is read back as a text, and it is read back as it was. -/
theorem reread?_eq_string_iff {depth : Nat} {v : Value} {s : String} :
    v.reread? depth = some (.string s) ↔ v = .string s := by
  cases v with
  | array items => cases depth <;> simp [reread?]
  | object members => cases depth <;> simp [reread?]
  | _ => simp [reread?]

theorem forall₂_of_rereadItems? {depth : Nat} {items read : List Value}
    (h : rereadItems? depth items = some read) :
    List.Forall₂ (fun v w => v.reread? depth = some w) items read := by
  induction items generalizing read with
  | nil =>
    cases h
    exact .nil
  | cons v items ih =>
    rw [rereadItems?] at h
    obtain ⟨w, hw, h⟩ := Option.bind_eq_some_iff.mp h
    obtain ⟨rest, hrest, h⟩ := Option.bind_eq_some_iff.mp h
    cases h
    exact .cons hw (ih hrest)

/-- Only a list is read back as a list, item by item. -/
theorem reread?_eq_array {depth : Nat} {v : Value} {read : List Value}
    (h : v.reread? (depth + 1) = some (.array read)) :
    ∃ items, v = .array items ∧
      List.Forall₂ (fun v w => v.reread? depth = some w) items read := by
  cases v with
  | array items =>
    rw [reread?] at h
    obtain ⟨_, hread, he⟩ := Option.map_eq_some_iff.mp h
    cases he
    exact ⟨items, rfl, forall₂_of_rereadItems? hread⟩
  | _ => simp [reread?] at h

/-- What is read of a printed object under a key is what was put there last, in its canonical
form and read back. -/
theorem member?_read {members : List (String × Value)} {key : Option String} {depth : Nat}
    {v : Value} (h : ((ofMembers members).canonicalUnder key).reread? (depth + 1) = some v)
    (k : String) : Option.Rel (fun x y => (x.canonicalUnder (some k)).reread? depth = some y)
      (Entries.get? k (Entries.ofList members)) (v.member? k) := by
  rw [ofMembers, canonicalUnder_object_of_ascending key (Entries.ascending_ofList members),
    reread?] at h
  obtain ⟨read, hread, rfl⟩ := Option.map_eq_some_iff.mp h
  have hall := Config.forall₂_of_rereadMembers? hread
  rw [List.forall₂_map_left_iff] at hall
  have hlinked : Entries.Linked (fun k x y => (x.canonicalUnder (some k)).reread? depth = some y)
      (Entries.ofList members) read := hall.imp fun e f hef => ⟨hef.1.symm, hef.2⟩
  exact hlinked.get? k

/-- A text is read under a key exactly when it was put there last. -/
theorem member?_eq_string_iff {members : List (String × Value)} {key : Option String}
    {depth : Nat} {v : Value}
    (h : ((ofMembers members).canonicalUnder key).reread? (depth + 1) = some v)
    {k s : String} : v.member? k = some (.string s) ↔
      Entries.get? k (Entries.ofList members) = some (.string s) := by
  have hrel := member?_read h k
  generalize Entries.get? k (Entries.ofList members) = x, v.member? k = y at hrel ⊢
  cases hrel with
  | none => simp
  | @some x y hxy =>
    calc some y = some (.string s)
      _ ↔ (x.canonicalUnder (some k)).reread? depth = some (.string s) := by rw [hxy]
      _ ↔ x.canonicalUnder (some k) = .string s := reread?_eq_string_iff
      _ ↔ x = .string s := canonicalUnder_eq_string_iff
      _ ↔ some x = some (.string s) := by rw [Option.some.injEq]

end Json.Value

/-! ## What was put last -/

theorem Entries.get?_ofList_nil {α : Type} (k : String) :
    Entries.get? k (Entries.ofList ([] : List (String × α))) = none := rfl

theorem Entries.get?_ofList_cons {α : Type} (k : String) (e : String × α)
    (l : List (String × α)) : Entries.get? k (Entries.ofList (e :: l)) =
      (Entries.get? k (Entries.ofList l)).or (if k = e.1 then some e.2 else none) := by
  rw [← List.singleton_append, Entries.get?_ofList_append]
  rfl

theorem Entries.get?_ofList_eq_none {α : Type} {k : String} {l : List (String × α)}
    (h : ∀ m ∈ l, m.1 ≠ k) : Entries.get? k (Entries.ofList l) = none := by
  rw [Entries.get?_eq_none_iff, Config.mem_keys_ofList, List.mem_map]
  rintro ⟨m, hm, hk⟩
  exact h m hm hk

namespace Capability
variable {c : Capability}

theorem get?_fixedMembers {k s : String} (h : (k, s) ∈ c.identity) :
    Entries.get? k (Entries.ofList c.fixedMembers) = some (.string s) := by
  have hoptional : Entries.get? k (Entries.ofList
      ((c.instanceName.map fun s => ("instance", Value.string s)).toList
        ++ (c.properties.map fun p => ("properties", propertiesValue p)).toList)) = none := by
    apply Entries.get?_ofList_eq_none
    intro m hm
    have hkey : m.1 = "instance" ∨ m.1 = "properties" := by
      simp only [List.mem_append, Option.mem_toList, Option.map_eq_some_iff] at hm
      rcases hm with ⟨_, -, rfl⟩ | ⟨_, -, rfl⟩
      · exact .inl rfl
      · exact .inr rfl
    simp only [identity, List.mem_cons, Prod.mk.injEq, List.not_mem_nil, or_false] at h
    rcases h with ⟨rfl, -⟩ | ⟨rfl, -⟩ | ⟨rfl, -⟩ <;> rcases hkey with hkey | hkey <;>
      rw [hkey] <;> decide
  rw [fixedMembers, List.append_assoc, Entries.get?_ofList_append, hoptional, Option.none_or]
  simp only [identity, List.mem_cons, Prod.mk.injEq, List.not_mem_nil, or_false] at h
  rcases h with ⟨rfl, rfl⟩ | ⟨rfl, rfl⟩ | ⟨rfl, rfl⟩ <;>
    simp [Entries.get?_ofList_cons, Entries.get?_ofList_nil]

/-- Behind a fixed member nothing is put under its key but what a further member says. -/
theorem get?_members {further : List (String × Value)} (h : c.Publishes further) {k s : String}
    (hks : (k, s) ∈ c.identity) :
    Entries.get? k (Entries.ofList (c.fixedMembers ++ further)) = some (.string s) ↔
      c.Leaves k s := by
  have hlinked : Entries.Linked (fun _ raw v => Json.parse raw = .ok v)
      c.additional.entries further := h.imp fun e f hef => ⟨hef.1.symm, hef.2⟩
  have hrel : Option.Rel (fun raw v => Json.parse raw = .ok v) (c.additional.get? k)
      (Entries.get? k further) := hlinked.get? k
  rw [Entries.get?_ofList_append, Entries.ofList_eq_self h.ascending, get?_fixedMembers hks,
    Leaves]
  generalize c.additional.get? k = raw, Entries.get? k further = v at hrel ⊢
  cases hrel with
  | none => simp
  | some hparse => simp [hparse]

end Capability

namespace Attributes
variable {a : Attributes} {values : List Value}

/-- The members that are put first. -/
def firstMembers (a : Attributes) : List (String × Value) :=
  [("endpointId", .string a.endpointId), ("friendlyName", .string a.friendlyName),
    ("description", .string a.description), ("manufacturerName", .string a.manufacturerName),
    ("displayCategories", .ofTexts a.displayCategories)]

theorem get?_registrationMember (k : String) :
    Entries.get? k (Entries.ofList a.registrationMember) =
      (a.registration?.filter fun r => r.registrationKey = k).map registrationValue := by
  rw [registrationMember]
  cases a.registration? with
  | none => rfl
  | some r =>
    by_cases hk : r.registrationKey = k
    · simp [Entries.get?_ofList_cons, Entries.get?_ofList_nil, Option.filter, hk,
        registrationValue]
    · simp [Entries.get?_ofList_cons, Entries.get?_ofList_nil, Option.filter, hk, Ne.symm hk]

/-- Behind the first members only the registration can be put under one of their keys. -/
theorem get?_members {k : String} (hk : k ∈ a.firstMembers.map Prod.fst) :
    Entries.get? k (Entries.ofList (a.members values)) =
      ((a.registration?.filter fun r => r.registrationKey = k).map registrationValue).or
        (Entries.get? k (Entries.ofList a.firstMembers)) := by
  have hother : k ∉ ["additionalAttributes", "connections", "cookie", "capabilities"] := by
    simp only [firstMembers, List.map_cons, List.map_nil, List.mem_cons, List.not_mem_nil,
      or_false] at hk
    rcases hk with rfl | rfl | rfl | rfl | rfl <;> decide
  have hnone : ∀ (l : List (String × Value)) (key : String),
      key ∈ ["additionalAttributes", "connections", "cookie", "capabilities"] →
        (∀ m ∈ l, m.1 = key) → Entries.get? k (Entries.ofList l) = none :=
    fun _ _ hkey hall => Entries.get?_ofList_eq_none fun m hm he =>
      hother (he ▸ hall m hm ▸ hkey)
  have hdetails : Entries.get? k (Entries.ofList a.detailsMember) = none := by
    refine hnone _ "additionalAttributes" (by simp) ?_
    rw [detailsMember]
    split <;> simp
  have hconnections : Entries.get? k (Entries.ofList a.connectionsMember) = none := by
    refine hnone _ "connections" (by simp) ?_
    rw [connectionsMember]
    split <;> simp
  have hcookie : Entries.get? k (Entries.ofList a.cookieMember) = none := by
    refine hnone _ "cookie" (by simp) ?_
    rw [cookieMember]
    split <;> simp
  have hcapabilities :
      Entries.get? k (Entries.ofList [("capabilities", Value.array values)]) = none :=
    hnone _ "capabilities" (by simp) (by simp)
  rw [members, ← firstMembers]
  simp only [Entries.get?_ofList_append, hdetails, hconnections, hcookie, hcapabilities,
    get?_registrationMember, Option.none_or]

theorem leaves_iff {k : String} :
    a.Leaves k ↔ (a.registration?.filter fun r => r.registrationKey = k) = none := by
  simp [Leaves, Option.filter_eq_none_iff]

end Attributes

namespace Config
variable {a : Attributes} {capabilities : List Capability} {values : List Value} {c : Config}
  {v : Value}

/-! ## What is read of a config -/

/-- What is read of a config comes from its source. -/
theorem reread?_of_parse (htext : c.text = (source a values).canonical.text)
    (hread : Json.parse c.text = .ok v) :
    ((source a values).canonicalUnder none).reread? (126 + 1) = some v := by
  have h := toOption_read htext
  rw [hread] at h
  exact h.symm

section Read
variable (hsource : ((source a values).canonicalUnder none).reread? (126 + 1) = some v)
include hsource

/-- A text that names the endpoint is read exactly where the registration leaves its key. -/
theorem member?_identity {k s : String} (hks : (k, s) ∈ a.identity) :
    v.member? k = some (.string s) ↔ a.Leaves k := by
  have hkey : k ∈ a.firstMembers.map Prod.fst ∧
      Entries.get? k (Entries.ofList a.firstMembers) = some (.string s) := by
    simp only [Attributes.identity, List.mem_cons, Prod.mk.injEq, List.not_mem_nil,
      or_false] at hks
    rcases hks with ⟨rfl, rfl⟩ | ⟨rfl, rfl⟩ | ⟨rfl, rfl⟩ | ⟨rfl, rfl⟩ <;>
      simp [Attributes.firstMembers, Entries.get?_ofList_cons, Entries.get?_ofList_nil]
  rw [Value.member?_eq_string_iff hsource, Attributes.get?_members hkey.1, hkey.2,
    Attributes.leaves_iff]
  cases a.registration?.filter fun r => r.registrationKey = k with
  | none => simp
  | some r => simp [Attributes.registrationValue, Value.ofMembers]

/-- The display categories are read, in some order, exactly where the registration leaves
their key. -/
theorem member?_categories :
    (∃ names, names.Perm a.displayCategories ∧
      v.member? "displayCategories" = some (.ofTexts names)) ↔ a.Leaves "displayCategories" := by
  have hkey : "displayCategories" ∈ a.firstMembers.map Prod.fst := by
    simp [Attributes.firstMembers]
  have hfirst : Entries.get? "displayCategories" (Entries.ofList a.firstMembers) =
      some (.ofTexts a.displayCategories) := by
    simp [Attributes.firstMembers, Entries.get?_ofList_cons, Entries.get?_ofList_nil]
  have hrel := Value.member?_read hsource "displayCategories"
  rw [Attributes.get?_members hkey, hfirst] at hrel
  rw [Attributes.leaves_iff]
  generalize v.member? "displayCategories" = y at hrel ⊢
  cases hr : a.registration?.filter fun r => r.registrationKey = "displayCategories" with
  | none =>
    -- the texts are sorted, and read back as they are
    have hcanonical : (Value.ofTexts a.displayCategories).canonicalUnder
        (some "displayCategories") =
          .array (Json.sortByText (a.displayCategories.map Value.string)) := by
      rw [Value.ofTexts, Value.canonicalUnder_array_of_loose ⟨_, rfl, by decide⟩, List.map_map]
      rfl
    obtain ⟨names, hnames, hperm⟩ := (congrFun₂ (List.eq_map_comp_perm Value.string)
      (Json.sortByText (a.displayCategories.map Value.string)) a.displayCategories).mpr
        (Value.perm_sortByText _)
    have hreread : (Value.ofTexts names).reread? 126 = some (.ofTexts names) :=
      Value.reread?_of_stable (Attributes.ofTexts_plain _ 124 names).2
    rw [hr] at hrel
    cases hrel with
    | some hy =>
      rw [hcanonical, hnames] at hy
      exact iff_of_true ⟨names, hperm, hy.symm.trans hreread⟩ rfl
  | some r =>
    rw [hr] at hrel
    cases hrel with
    | some hy =>
      refine iff_of_false ?_ (by simp)
      rintro ⟨names, -, hnames⟩
      rw [Option.some.inj hnames] at hy
      obtain ⟨items, hitems, -⟩ := Value.reread?_eq_array hy
      rw [Attributes.registrationValue, Value.ofMembers, Value.canonicalUnder_object] at hitems
      cases hitems

end Read

/-- How a capability shows in a config: as an object in which each text that names it stands
where the further members leave its key. -/
structure Shows (cap : Capability) (w : Value) : Prop where
  object : ∃ members, w = .object members
  identity : ∀ e ∈ cap.identity, w.member? e.1 = some (.string e.2) ↔ cap.Leaves e.1 e.2

theorem shows_of_reread {cap : Capability} {u w : Value} (hvalue : cap.value = .ok u)
    (hread : u.canonical.reread? (124 + 1) = some w) : Shows cap w := by
  obtain ⟨further, hpublishes, rfl⟩ := Capability.publishes_of_value hvalue
  constructor
  · rw [Value.canonical, Value.ofMembers, Value.canonicalUnder_object, Value.ofMembers,
      Value.reread?] at hread
    obtain ⟨members, -, rfl⟩ := Option.map_eq_some_iff.mp hread
    exact ⟨members, rfl⟩
  · intro e he
    rw [Value.member?_eq_string_iff hread, Capability.get?_members hpublishes he]

/-- The capabilities are read in some order, one object for each. -/
theorem member?_capabilities
    (hvalues : List.Forall₂ (fun cap u => Capability.value cap = .ok u) capabilities values)
    (hsource : ((source a values).canonicalUnder none).reread? (126 + 1) = some v) :
    ∃ items published, v.member? "capabilities" = some (.array items) ∧ published.Perm items ∧
      List.Forall₂ Shows capabilities published := by
  have hlast : Entries.get? "capabilities" (Entries.ofList (a.members values)) =
      some (.array values) := by
    rw [Attributes.members, Entries.ofList_concat, Entries.get?_insert, if_pos rfl]
  have hrel := Value.member?_read hsource "capabilities"
  rw [hlast] at hrel
  generalize v.member? "capabilities" = y at hrel ⊢
  cases hrel with
  | @some _ y hy =>
    rw [Value.canonicalUnder_array_of_loose ⟨_, rfl, by decide⟩, Value.reread?] at hy
    obtain ⟨items, hitems, rfl⟩ := Option.map_eq_some_iff.mp hy
    obtain ⟨published, hpublished, hperm⟩ := List.perm_comp_forall₂
      (Value.perm_sortByText (values.map Value.canonical)).symm
      (Value.forall₂_of_rereadItems? hitems)
    rw [List.forall₂_map_left_iff] at hpublished
    have hread : ∀ cap u w, Capability.value cap = .ok u →
        u.canonical.reread? (124 + 1) = some w → Shows cap w :=
      fun _ _ _ hvalue hread => shows_of_reread hvalue hread
    have hshows : List.Forall₂ Shows capabilities published :=
      forall₂_trans hread hvalues hpublished
    exact ⟨items, published, rfl, hperm, hshows⟩

/-- A config names its endpoint, member by member, exactly where the keys that the caller has
chosen leave it alone. -/
theorem identity_iff {max : Nat} (h : prepare max a capabilities = .ok c)
    (hread : Json.parse c.text = .ok v) :
    (∀ e ∈ a.identity, v.member? e.1 = some (.string e.2) ↔ a.Leaves e.1) ∧
    ((∃ names, names.Perm a.displayCategories ∧
      v.member? "displayCategories" = some (.ofTexts names)) ↔ a.Leaves "displayCategories") ∧
    ∃ items published, v.member? "capabilities" = some (.array items) ∧ published.Perm items ∧
      List.Forall₂ Shows capabilities published := by
  obtain ⟨values, hvalues, htext⟩ := build_source (build_of_prepare h).1
  have hsource := reread?_of_parse htext hread
  exact ⟨fun e he => member?_identity hsource he, member?_categories hsource,
    member?_capabilities hvalues hsource⟩

/-! ## A lamp under its name, and one under another -/

/-- A lamp with a registration under this key, and the product id under the key of the id. -/
def labelledLamp (key : String) : Attributes :=
  { Attributes.lamp with registration := some ⟨"p", "s", key, "endpointId"⟩ }

/-- A capability with a version, and with a further one as a further member. -/
def labelledCapability (version : String) : Capability :=
  .extended "version" (Value.string version).text

/-- What is published of the two. -/
def labelled (key version : String) : Value :=
  (source (labelledLamp key) [Capability.extendedValue "version" (.string version)]).canonical

theorem parse_string (s : String) : Json.parse (Value.string s).text = .ok (.string s) :=
  Json.parse_text_of_stable (Value.ordered_string s) (Value.fits_string s)

theorem prepare_labelled {e : String × String}
    (h : e ∈ [("registration", "3"), ("endpointId", "4")]) :
    prepare 100 (labelledLamp e.1) [labelledCapability e.2] =
      .ok ⟨(labelled e.1 e.2).text⟩ := by
  have hcheck : (labelledLamp e.1).check = .ok () := by
    have hlamp : (labelledLamp e.1).check = Attributes.lamp.check := rfl
    rw [hlamp]
    rfl
  have hlight : ∀ e ∈ [("registration", "3"), ("endpointId", "4")],
      (labelled e.1 e.2).text.utf8ByteSize ≤ maxConfigBytesPerEvent := by
    simp only [Value.text_eq, String.utf8ByteSize_ofList]
    decide +kernel
  exact prepare_extended hcheck (parse_string e.2) (hlight e h)

theorem parse_labelled (key version : String) :
    Json.parse (labelled key version).text = .ok (labelled key version) := by
  have hvalues : List.Forall₂ (fun cap v => Capability.value cap = .ok v)
      [labelledCapability version] [Capability.extendedValue "version" (.string version)] :=
    .cons (Capability.value_extended (parse_string version)) .nil
  refine Json.parse_text_of_stable (Value.ordered_canonicalUnder none _)
    ((fits_canonical_iff hvalues).mpr ?_)
  rw [List.forall_mem_singleton]
  exact (Capability.furtherFit_extended (parse_string version)).mpr (Value.fits_string version)

/-- A registration under a key of its own, and a further version that is the version, leave
all that names the lamp; the key of the product id does not matter. -/
theorem identity_labelledLamp :
    ∃ c v, prepare 100 (labelledLamp "registration") [labelledCapability "3"] = .ok c ∧
      Json.parse c.text = .ok v ∧
      (∀ e ∈ (labelledLamp "registration").identity, v.member? e.1 = some (.string e.2)) ∧
      (∃ names, names.Perm ["LIGHT"] ∧
        v.member? "displayCategories" = some (.ofTexts names)) ∧
      ∃ w, v.member? "capabilities" = some (.array [w]) ∧
        ∀ e ∈ (labelledCapability "3").identity, w.member? e.1 = some (.string e.2) := by
  have hprepare := prepare_labelled (e := ("registration", "3")) (by simp)
  have hread := parse_labelled "registration" "3"
  obtain ⟨hidentity, hcategories, items, published, hitems, hperm, hshows⟩ :=
    identity_iff hprepare hread
  have hleaves : ∀ k ∈ ["endpointId", "friendlyName", "description", "manufacturerName",
      "displayCategories"], (labelledLamp "registration").Leaves k := by
    rintro k hk r hr
    cases hr
    rintro rfl
    exact absurd hk (by decide)
  refine ⟨_, _, hprepare, hread, fun e he => (hidentity e he).mpr (hleaves e.1 ?_),
    hcategories.mpr (hleaves _ (by simp)), ?_⟩
  · simp only [Attributes.identity, List.mem_cons, List.not_mem_nil, or_false] at he
    rcases he with rfl | rfl | rfl | rfl <;> simp
  · cases hshows with
    | @cons _ w _ rest hw hrest =>
      cases hrest
      rw [← List.singleton_perm.mp hperm] at hitems
      refine ⟨w, hitems, fun e he => (hw.identity e he).mpr fun raw hraw => ?_⟩
      have hentries : (labelledCapability "3").additional.entries =
          [("version", (Value.string "3").text)] := rfl
      have hentry := StringMap.mem_entries_iff.mpr hraw
      rw [hentries, List.mem_singleton, Prod.mk.injEq] at hentry
      obtain ⟨hkey, rfl⟩ := hentry
      have hversion : e.2 = "3" := by
        simp only [Capability.identity, List.mem_cons, List.not_mem_nil, or_false] at he
        rcases he with rfl | rfl | rfl
        · exact absurd hkey (by decide)
        · exact absurd hkey (by decide)
        · rfl
      rw [hversion]
      exact parse_string "3"

/-- A registration under the key of the id, and a further version that is another one, pass
every check. The config has the registration in place of the id, and the other version. -/
theorem misnamed_lamp :
    ∃ c v, prepare 100 (labelledLamp "endpointId") [labelledCapability "4"] = .ok c ∧
      Json.parse c.text = .ok v ∧
      v.member? "endpointId" = some (.object
        [("deviceSerialNumber", .string "s"), ("endpointId", .string "p")]) ∧
      (labelledCapability "4").version = "3" ∧
      v.member? "capabilities" = some (.array [.object [("interface", .string "Alexa"),
        ("type", .string "AlexaInterface"), ("version", .string "4")]]) :=
  ⟨_, _, prepare_labelled (e := ("endpointId", "4")) (by simp),
    parse_labelled "endpointId" "4", by cbv, rfl, by cbv⟩

end Config

end Announcer
