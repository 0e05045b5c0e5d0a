import Announcer.Descriptor
import Announcer.Limits
import Announcer.Json.Reader
/-!
# Checking descriptors

A descriptor is checked on its own, before any state is looked at. The first
flaw counts, in the order in which the checks are listed. Lengths are counted
in characters (specification, 4.4 and 12.3).
-/
namespace Announcer

inductive Flaw where
  | required (field : String)
  | tooLong (field : String) (max : Nat)
  | invalidFormat (field reason : String)
  | empty (field : String)
  | invalidJson (field reason : String)
  | tooMany (field : String) (max actual : Nat)
  deriving DecidableEq, Repr

def Flaw.message : Flaw → String
  | .required field => field ++ " is required"
  | .tooLong field max => field ++ " must be at most " ++ toString max ++ " characters"
  | .invalidFormat field reason => field ++ " has invalid format: " ++ reason
  | .empty field => field ++ " must not be empty when present"
  | .invalidJson field reason => field ++ " is not valid JSON: " ++ reason
  | .tooMany field max actual =>
    field ++ " has " ++ toString actual ++ " entries, maximum is " ++ toString max

/-- Passes a check, or fails with a flaw. -/
abbrev Checked := Except Flaw Unit

namespace Checked

def ensure (ok : Bool) (flaw : Flaw) : Checked :=
  if ok then .ok () else .error flaw

def bounded (field value : String) (max : Nat) : Checked := do
  ensure (!value.isEmpty) (.required field)
  ensure (value.length ≤ max) (.tooLong field max)

end Checked

def checkId (id : String) : Checked := .bounded "endpointId" id maxIdLength

def checkDescription (s : String) : Checked := .bounded "description" s maxDescriptionLength

def checkManufacturer (s : String) : Checked :=
  .bounded "manufacturerName" s maxManufacturerLength

def checkCategories (categories : List String) : Checked :=
  .ensure (!categories.isEmpty) (.required "displayCategories")

def AdditionalAttributes.check (a : AdditionalAttributes) : Checked :=
  a.named.forM fun (field, value) =>
    Checked.ensure (value.length ≤ maxAdditionalLength)
      (.tooLong ("additionalAttributes." ++ field) maxAdditionalLength)

def Attributes.check (a : Attributes) : Checked := do
  checkId a.endpointId
  checkDescription a.description
  checkManufacturer a.manufacturerName
  checkCategories a.displayCategories
  match a.additional with
  | some details => details.check
  | none => pure ()

namespace Capability

/-- The flaw of a further member whose text is no JSON, or its value. -/
def parseMember (key raw : String) : Except Flaw Json.Value :=
  match Json.parse raw with
  | .ok v => .ok v
  | .error f => .error (.invalidJson ("capability." ++ key) (f.message raw))

def check (c : Capability) : Checked := do
  [("type", c.interfaceType), ("interface", c.interfaceName), ("version", c.version)].forM
    fun (field, value) => Checked.ensure (!value.isEmpty) (.required ("capability." ++ field))
  match c.instanceName with
  | some name => Checked.ensure (!name.isEmpty) (.empty "capability.instance")
  | none => pure ()
  match c.properties with
  | some p => Checked.ensure (!p.supported.isEmpty) (.empty "capability.properties.supported")
  | none => pure ()
  c.additional.entries.forM fun (key, raw) => discard (parseMember key raw)

end Capability

/-- Checks the capabilities of an endpoint: at least one, at most `max`. -/
def checkCapabilities (capabilities : List Capability) (max : Nat) : Checked := do
  Checked.ensure (!capabilities.isEmpty) (.required "capabilities")
  Checked.ensure (capabilities.length ≤ max) (.tooMany "capabilities" max capabilities.length)
  capabilities.forM Capability.check

end Announcer
