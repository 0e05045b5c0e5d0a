import Announcer.Proofs.Config
import Announcer.Proofs.Json.Canonical
/-!
# The order in which a descriptor is written

The display categories, the connections and the capabilities of a descriptor have no order. They
are put under unordered keys, each before the config is made canonical, so that it does not
show in which order they were given. It holds whatever the further members of the capabilities
are, also when they replace others or hold floats: two orders put the same values, and the
texts by which these are sorted are the same.

Results: `build_perm`.
-/
namespace Announcer

open Json (Value)
open Json.Value (Alike alike_refl alike_of_perm alike_ofMembers)

/-- Members with the same keys, one by one, whose values are alike. -/
abbrev LinkedAlike : List (String × Value) → List (String × Value) → Prop :=
  Entries.Linked fun k => Alike (some k)

theorem linkedAlike_refl (l : List (String × Value)) : LinkedAlike l l :=
  List.forall₂_same.mpr fun e _ => ⟨rfl, alike_refl (some e.1) e.2⟩

/-- What a function makes of some things, it makes of them in any order. -/
theorem mapM_perm {ε α β : Type} {f : α → Except ε β} {l l' : List α} {r : List β}
    (h : l.mapM f = .ok r) (hperm : l.Perm l') : ∃ r', l'.mapM f = .ok r' ∧ r.Perm r' := by
  obtain ⟨r', hr', hperm'⟩ := List.perm_comp_forall₂ hperm.symm (mapM_eq_ok_iff.mp h)
  exact ⟨r', mapM_eq_ok_iff.mpr hr', hperm'.symm⟩

namespace Attributes

/-- The descriptor with its display categories and connections given in another order. -/
def reorder (a : Attributes) (categories : List String) (connections : List (StringMap String)) :
    Attributes :=
  { a with displayCategories := categories, connections := connections }

section Members
variable {a : Attributes} {categories : List String} {connections : List (StringMap String)}
  {values values' : List Value}

theorem connectionsMember_reorder (h : a.connections.Perm connections) :
    LinkedAlike a.connectionsMember (a.reorder categories connections).connectionsMember := by
  have hempty : (a.reorder categories connections).connections.isEmpty =
      a.connections.isEmpty := h.symm.isEmpty_eq
  rw [connectionsMember, connectionsMember, hempty]
  split
  · exact .nil
  · have hkey : "connections" ∈ Json.unorderedKeys := by decide
    exact .cons ⟨rfl, alike_of_perm hkey (h.map _)⟩ .nil

theorem members_reorder (hcategories : a.displayCategories.Perm categories)
    (hconnections : a.connections.Perm connections) (hvalues : values.Perm values') :
    LinkedAlike (a.members values) ((a.reorder categories connections).members values') := by
  have htexts : Alike (some "displayCategories") (.ofTexts a.displayCategories)
      (.ofTexts categories) := alike_of_perm (by decide) (hcategories.map _)
  have hfirst : LinkedAlike
      [("endpointId", .string a.endpointId), ("friendlyName", .string a.friendlyName),
        ("description", .string a.description), ("manufacturerName", .string a.manufacturerName),
        ("displayCategories", .ofTexts a.displayCategories)]
      [("endpointId", .string a.endpointId), ("friendlyName", .string a.friendlyName),
        ("description", .string a.description), ("manufacturerName", .string a.manufacturerName),
        ("displayCategories", .ofTexts categories)] :=
    .cons ⟨rfl, .string _⟩ (.cons ⟨rfl, .string _⟩ (.cons ⟨rfl, .string _⟩
      (.cons ⟨rfl, .string _⟩ (.cons ⟨rfl, htexts⟩ .nil))))
  have hkey : "capabilities" ∈ Json.unorderedKeys := by decide
  have hlast : LinkedAlike [("capabilities", .array values)] [("capabilities", .array values')] :=
    .cons ⟨rfl, alike_of_perm hkey hvalues⟩ .nil
  have happend : ∀ {l m l' m'}, LinkedAlike l m → LinkedAlike l' m' →
      LinkedAlike (l ++ l') (m ++ m') := fun h h' => List.rel_append h h'
  exact happend (happend (happend (happend (happend hfirst (linkedAlike_refl a.detailsMember))
    (linkedAlike_refl a.registrationMember)) (connectionsMember_reorder hconnections))
    (linkedAlike_refl a.cookieMember)) hlast

end Members

end Attributes

namespace Config

variable {a : Attributes} {categories : List String} {connections : List (StringMap String)}
  {capabilities capabilities' : List Capability} {c : Config}

theorem build_reorder (hcategories : a.displayCategories.Perm categories)
    (hconnections : a.connections.Perm connections)
    (hcapabilities : capabilities.Perm capabilities') (h : build a capabilities = .ok c) :
    build (a.reorder categories connections) capabilities' = .ok c := by
  unfold build at h ⊢
  obtain ⟨values, hvalues, h⟩ := bind_eq_ok_iff.mp h
  obtain ⟨values', hvalues', hperm⟩ := mapM_perm hvalues hcapabilities
  cases h
  refine bind_eq_ok_iff.mpr ⟨values', hvalues', ?_⟩
  have hmembers := a.members_reorder hcategories hconnections hperm
  have halike : Alike none (source a values) (source (a.reorder categories connections) values') :=
    alike_ofMembers hmembers
  have htext : (source a values).canonical.text =
      (source (a.reorder categories connections) values').canonical.text :=
    Value.text_canonicalUnder halike
  exact congrArg (Except.ok <| Config.mk ·) htext.symm

/-- **A config does not show in which order its descriptor was written.** Whatever the
capabilities hold, a descriptor has a config just when it has one with its display categories,
connections and capabilities in any other order, and then it is the same one. -/
theorem build_perm (hcategories : a.displayCategories.Perm categories)
    (hconnections : a.connections.Perm connections)
    (hcapabilities : capabilities.Perm capabilities') :
    build a capabilities = .ok c ↔
      build (a.reorder categories connections) capabilities' = .ok c :=
  ⟨build_reorder hcategories hconnections hcapabilities,
    build_reorder hcategories.symm hconnections.symm hcapabilities.symm⟩

/-- A descriptor with two of everything, and with a further member that replaces a fixed one. -/
def paired : Attributes × List Capability :=
  ({ Attributes.lamp with
      displayCategories := ["LIGHT", "SWITCH"]
      connections := [.ofList [("type", "TCP_IP")], .ofList [("type", "ZIGBEE")]] },
    [{ Capability.plain with additional := .ofList [("version", "[2,1]")] }, .plain, .plain])

theorem build_paired : ∃ c, build paired.1 paired.2 = .ok c ∧
    build (paired.1.reorder paired.1.displayCategories.reverse paired.1.connections.reverse)
      paired.2.reverse = .ok c := by
  have hbuild : ∃ c, build paired.1 paired.2 = .ok c := ⟨_, rfl⟩
  obtain ⟨c, hc⟩ := hbuild
  exact ⟨c, hc, (build_perm (List.reverse_perm _).symm (List.reverse_perm _).symm
    (List.reverse_perm _).symm).mp hc⟩

end Config

end Announcer
