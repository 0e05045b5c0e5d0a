import Announcer.Json.Canonical
/-!
# Endpoint configs

A config is the text that is sent for one endpoint and kept once the service
has accepted it. Configs that were kept may have been written elsewhere, so two
are compared by what they mean, not by their bytes.
-/
namespace Announcer

open Json (Value)

/-- The serialized form of one endpoint. -/
structure Config where
  text : String
  deriving DecidableEq, Repr, Inhabited

abbrev Configs := StringMap Config

namespace Config

def size (c : Config) : Nat := c.text.utf8ByteSize

def equivalent (a b : Config) : Bool := Json.equivalent a.text b.text

/-- The members of a config that are not the registration. -/
def reservedKeys : List String :=
  ["endpointId", "friendlyName", "description", "manufacturerName", "displayCategories",
    "additionalAttributes", "connections", "cookie", "capabilities"]

def serialNumberKey : String := "deviceSerialNumber"

/-- True when `v` is an object with a serial number. -/
def isRegistration (v : Value) : Bool :=
  (v.member? serialNumberKey).isSome

/-- True when a config publishes a registration. The key of a registration is
chosen by the caller, so any member that is not reserved can be it. -/
def carriesRegistration (c : Config) : Bool :=
  match Json.parse c.text with
  | .ok (.object members) =>
    members.any (fun m => !reservedKeys.contains m.1 && isRegistration m.2)
  | _ => false

/-- The config by which an endpoint is withdrawn: its id alone. -/
def withdrawal (id : String) : Config :=
  ⟨(Value.object [("endpointId", .string id)]).text⟩

end Config

def totalSize : List Config → Nat
  | [] => 0
  | c :: configs => c.size + totalSize configs

end Announcer
