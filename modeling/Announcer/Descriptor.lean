import Announcer.StringMap
/-!
# Descriptors

What a caller says about an endpoint: its identity and presentation, the
capabilities it exposes, and the registration by which the service recognises
one device behind several endpoints.
-/
namespace Announcer

/-- The manufacturer's registration of a device. Endpoints with a registration
form the deduplication group. -/
structure Registration where
  productId : String
  serialNumber : String
  registrationKey : String
  productIdKey : String
  deriving DecidableEq, Repr, Inhabited

def Registration.isEmpty (r : Registration) : Bool :=
  r.productId.isEmpty && r.serialNumber.isEmpty && r.registrationKey.isEmpty
    && r.productIdKey.isEmpty

structure AdditionalAttributes where
  manufacturer : String
  model : String
  serialNumber : String
  firmwareVersion : String
  softwareVersion : String
  customIdentifier : String
  deriving DecidableEq, Repr, Inhabited

namespace AdditionalAttributes

def named (a : AdditionalAttributes) : List (String × String) :=
  [("manufacturer", a.manufacturer), ("model", a.model), ("serialNumber", a.serialNumber),
    ("firmwareVersion", a.firmwareVersion), ("softwareVersion", a.softwareVersion),
    ("customIdentifier", a.customIdentifier)]

def isEmpty (a : AdditionalAttributes) : Bool :=
  a.named.all (fun d => d.2.isEmpty)

end AdditionalAttributes

structure Attributes where
  endpointId : String
  friendlyName : String
  description : String
  manufacturerName : String
  displayCategories : List String
  additional : Option AdditionalAttributes
  connections : List (StringMap String)
  cookies : StringMap String
  /-- As given; `registration?` is what counts. -/
  registration : Option Registration
  deriving Repr, Inhabited

def Attributes.registration? (a : Attributes) : Option Registration :=
  a.registration.filter (fun r => !r.isEmpty)

structure Properties where
  supported : List String
  proactivelyReported : Bool
  retrievable : Bool
  nonControllable : Option Bool
  deriving DecidableEq, Repr, Inhabited

structure Capability where
  interfaceType : String
  interfaceName : String
  version : String
  instanceName : Option String
  properties : Option Properties
  /-- Further members, each a text that holds a JSON value. -/
  additional : StringMap String
  deriving Repr, Inhabited

end Announcer
