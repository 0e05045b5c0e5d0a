import Announcer.Config
import Announcer.Descriptor.Validation
/-!
# From a descriptor to its config

The config of an endpoint is the canonical form of one object, built member by
member (specification, 12.2). A member that is put later replaces an earlier one
under the same key: the registration comes behind the attributes and before the
connections, and the further members of a capability come behind its fixed ones.
-/
namespace Announcer

open Json (Value)

inductive FormatError where
  | invalid (flaw : Flaw)
  | tooLarge (id : String) (size max : Nat)
  | unreadable (reason : String)
  deriving DecidableEq, Repr

def FormatError.message : FormatError → String
  | .invalid flaw => "Validation error: " ++ flaw.message
  | .tooLarge id size max =>
    "Config for endpoint " ++ id ++ " is " ++ toString size ++ " bytes, maximum is " ++ toString max
  | .unreadable reason => "Serialization error: " ++ reason

def readValue (text : String) : Except FormatError Value :=
  match Json.parse text with
  | .ok v => .ok v
  | .error f => .error (.unreadable (f.message text))

namespace Capability

def propertiesValue (p : Properties) : Value :=
  let fixed := [("supported", Value.array (p.supported.map fun s => .object [("name", .string s)])),
    ("proactivelyReported", .bool p.proactivelyReported), ("retrievable", .bool p.retrievable)]
  .ofMembers (fixed ++ (p.nonControllable.map fun b => ("nonControllable", Value.bool b)).toList)

/-- The members of a capability that its caller does not choose the keys of. -/
def fixedMembers (c : Capability) : List (String × Value) :=
  [("type", .string c.interfaceType), ("interface", .string c.interfaceName),
    ("version", .string c.version)]
  ++ (c.instanceName.map fun s => ("instance", Value.string s)).toList
  ++ (c.properties.map fun p => ("properties", propertiesValue p)).toList

def furtherMembers (c : Capability) : Except FormatError (List (String × Value)) :=
  c.additional.entries.mapM fun (key, raw) =>
    match parseMember key raw with
    | .ok v => .ok (key, v)
    | .error flaw => .error (.invalid flaw)

def value (c : Capability) : Except FormatError Value :=
  c.furtherMembers.map fun further => .ofMembers (c.fixedMembers ++ further)

end Capability

namespace Attributes

def detailsMember (a : Attributes) : List (String × Value) :=
  match a.additional.filter (fun d => !d.isEmpty) with
  | some d =>
    let set := d.named.filter (fun e => !e.2.isEmpty)
    [("additionalAttributes", .ofMembers (set.map fun e => (e.1, Value.string e.2)))]
  | none => []

/-- The registration under its own keys; the serial number wins when the
product id has its key. -/
def registrationMember (a : Attributes) : List (String × Value) :=
  match a.registration? with
  | some r =>
    [(r.registrationKey, .ofMembers [(r.productIdKey, .string r.productId),
      (Config.serialNumberKey, .string r.serialNumber)])]
  | none => []

def connectionsMember (a : Attributes) : List (String × Value) :=
  if a.connections.isEmpty then [] else [("connections", .array (a.connections.map .ofTextMap))]

def cookieMember (a : Attributes) : List (String × Value) :=
  if a.cookies.isEmpty then [] else [("cookie", .ofTextMap a.cookies)]

/-- The members of a config in the order they are put, the capabilities last. -/
def members (a : Attributes) (capabilities : List Value) : List (String × Value) :=
  [("endpointId", .string a.endpointId), ("friendlyName", .string a.friendlyName),
    ("description", .string a.description), ("manufacturerName", .string a.manufacturerName),
    ("displayCategories", .ofTexts a.displayCategories)]
  ++ a.detailsMember ++ a.registrationMember ++ a.connectionsMember ++ a.cookieMember
  ++ [("capabilities", .array capabilities)]

end Attributes

namespace Config

def build (a : Attributes) (capabilities : List Capability) : Except FormatError Config := do
  let capabilities ← capabilities.mapM Capability.value
  return ⟨(Value.ofMembers (a.members capabilities)).canonical.text⟩

def ensureFits (id : String) (c : Config) : Except FormatError Unit :=
  if c.size ≤ maxConfigBytesPerEvent then .ok ()
  else .error (.tooLarge id c.size maxConfigBytesPerEvent)

/-- The config of a descriptor that passes every check of the call boundary (specification, 4.1
and 4.4). -/
def prepare (maxCapabilities : Nat) (a : Attributes) (capabilities : List Capability) :
    Except FormatError Config := do
  a.check.mapError .invalid
  (checkCapabilities capabilities maxCapabilities).mapError .invalid
  let config ← build a capabilities
  ensureFits a.endpointId config
  return config

end Config

end Announcer
