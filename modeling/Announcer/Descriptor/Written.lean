import Announcer.Descriptor
import Announcer.Json.Decode
/-!
# Descriptors as text

Descriptors and configs can be kept as JSON: an object with one member per
field, in a fixed order. Reading accepts the members in any order.
-/
namespace Announcer

open Json (Value Decoder)
open Json.Decode

/-- The members of a record in the order they are written. Unlike the members
of a `Value` they need not ascend. -/
def writeRecord (members : List (String × Value)) : Value := .object members

/-- What may be absent, as a value or null. -/
def optionValue {α : Type} (f : α → Value) : Option α → Value
  | some x => f x
  | none => .null

namespace Registration

def decoder : Decoder Registration :=
  record "Registration" [
    field "product_id" string (fun s r => { r with productId := s }),
    field "serial_number" string (fun s r => { r with serialNumber := s }),
    field "registration_key" string (fun s r => { r with registrationKey := s }),
    field "product_id_key" string (fun s r => { r with productIdKey := s })] default

def written (r : Registration) : Value :=
  writeRecord [("product_id", .string r.productId), ("serial_number", .string r.serialNumber),
    ("registration_key", .string r.registrationKey), ("product_id_key", .string r.productIdKey)]

end Registration

namespace AdditionalAttributes

def decoder : Decoder AdditionalAttributes :=
  record "AdditionalAttributes" [
    field "manufacturer" string (fun s a => { a with manufacturer := s }),
    field "model" string (fun s a => { a with model := s }),
    field "serial_number" string (fun s a => { a with serialNumber := s }),
    field "firmware_version" string (fun s a => { a with firmwareVersion := s }),
    field "software_version" string (fun s a => { a with softwareVersion := s }),
    field "custom_identifier" string (fun s a => { a with customIdentifier := s })] default

def written (a : AdditionalAttributes) : Value :=
  writeRecord [("manufacturer", .string a.manufacturer), ("model", .string a.model),
    ("serial_number", .string a.serialNumber), ("firmware_version", .string a.firmwareVersion),
    ("software_version", .string a.softwareVersion),
    ("custom_identifier", .string a.customIdentifier)]

end AdditionalAttributes

namespace Attributes

def decoder : Decoder Attributes :=
  record "EndpointAttributes" [
    field "endpoint_id" string (fun s a => { a with endpointId := s }),
    field "friendly_name" string (fun s a => { a with friendlyName := s }),
    field "description" string (fun s a => { a with description := s }),
    field "manufacturer_name" string (fun s a => { a with manufacturerName := s }),
    field "display_categories" (listOf string) (fun l a => { a with displayCategories := l }),
    optionalField "additional_attributes" AdditionalAttributes.decoder
      (fun d a => { a with additional := d }),
    field "connections" (listOf (mapOf string)) (fun l a => { a with connections := l }),
    field "cookies" (mapOf string) (fun m a => { a with cookies := m }),
    optionalField "registration" Registration.decoder
      (fun r a => { a with registration := r })] default

def written (a : Attributes) : Value :=
  writeRecord [("endpoint_id", .string a.endpointId), ("friendly_name", .string a.friendlyName),
    ("description", .string a.description), ("manufacturer_name", .string a.manufacturerName),
    ("display_categories", .ofTexts a.displayCategories),
    ("additional_attributes", optionValue AdditionalAttributes.written a.additional),
    ("connections", .array (a.connections.map .ofTextMap)),
    ("cookies", .ofTextMap a.cookies),
    ("registration", optionValue Registration.written a.registration)]

end Attributes

namespace Properties

def decoder : Decoder Properties :=
  record "CapabilityProperties" [
    field "supported" (listOf string) (fun l p => { p with supported := l }),
    field "proactively_reported" bool (fun b p => { p with proactivelyReported := b }),
    field "retrievable" bool (fun b p => { p with retrievable := b }),
    optionalField "non_controllable" bool (fun b p => { p with nonControllable := b })] default

def written (p : Properties) : Value :=
  writeRecord [("supported", .ofTexts p.supported),
    ("proactively_reported", .bool p.proactivelyReported), ("retrievable", .bool p.retrievable),
    ("non_controllable", optionValue Value.bool p.nonControllable)]

end Properties

namespace Capability

def decoder : Decoder Capability :=
  record "CapabilityConfiguration" [
    field "interface_type" string (fun s c => { c with interfaceType := s }),
    field "interface_name" string (fun s c => { c with interfaceName := s }),
    field "version" string (fun s c => { c with version := s }),
    optionalField "instance_name" string (fun s c => { c with instanceName := s }),
    optionalField "properties" Properties.decoder (fun p c => { c with properties := p }),
    field "additional_configurations" (mapOf string) (fun m c => { c with additional := m })]
    default

def written (c : Capability) : Value :=
  writeRecord [("interface_type", .string c.interfaceType),
    ("interface_name", .string c.interfaceName), ("version", .string c.version),
    ("instance_name", optionValue Value.string c.instanceName),
    ("properties", optionValue Properties.written c.properties),
    ("additional_configurations", .ofTextMap c.additional)]

end Capability

end Announcer
