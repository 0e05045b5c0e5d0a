import Announcer.Config.Build
import Announcer.Json.Decode
/-!
# Discovery events

An event announces or withdraws a list of endpoints. Its text is a fixed
envelope around the configs (specification, 12.1); every event has two fresh
identifiers, and the service answers an announcement with the second of them,
the correlation token.
-/
namespace Announcer

open Json (Value Decoder)
open Json.Decode

inductive ReportKind where
  | addOrUpdate
  | delete
  deriving DecidableEq, Repr, Inhabited

def ReportKind.name : ReportKind → String
  | .addOrUpdate => addOrUpdateReport
  | .delete => deleteReport

structure EventIds where
  message : String
  correlation : String
  deriving DecidableEq, Repr, Inhabited

structure EventHeader where
  space : String
  name : String
  ids : EventIds
  version : String
  deriving DecidableEq, Repr, Inhabited

/-- Whose endpoints an event is about: the owner of a token. -/
structure Scope where
  kind : String
  token : String
  deriving DecidableEq, Repr, Inhabited

structure Event where
  header : EventHeader
  scope : Scope
  endpoints : List Value
  deriving Inhabited

namespace Event

/-- The event of some configs; each is read again, and the first that is no
JSON is the error. -/
def build (kind : ReportKind) (configs : List Config) (token : String) (ids : EventIds) :
    Except FormatError Event := do
  let endpoints ← configs.mapM (fun c => readValue c.text)
  return {
    header := ⟨eventNamespace, kind.name, ids, payloadVersion⟩
    scope := ⟨"BearerToken", token⟩
    endpoints }

/-- The event as a value, its members in the order they are sent. -/
def value (e : Event) : Value :=
  .object [("event", .object [
    ("header", .object [("namespace", .string e.header.space), ("name", .string e.header.name),
      ("messageId", .string e.header.ids.message),
      ("eventCorrelationToken", .string e.header.ids.correlation),
      ("payloadVersion", .string e.header.version)]),
    ("payload", .object [
      ("scope", .object [("type", .string e.scope.kind), ("token", .string e.scope.token)]),
      ("endpoints", .array e.endpoints)])])]

def text (e : Event) : String := e.value.text

/-- The ids of the endpoints of an event, of those that have one. -/
def endpointIds (e : Event) : List String :=
  e.endpoints.filterMap (fun v => (v.member? "endpointId").bind Value.string?)

def decoder : Decoder Event :=
  record "DiscoveryEvent" [field "event" body (fun b _ => b)] default
where
  header : Decoder EventHeader :=
    record "EventHeader" [
      field "namespace" string (fun s h => { h with space := s }),
      field "name" string (fun s h => { h with name := s }),
      field "messageId" string (fun s h => { h with ids := { h.ids with message := s } }),
      field "eventCorrelationToken" string
        (fun s h => { h with ids := { h.ids with correlation := s } }),
      field "payloadVersion" string (fun s h => { h with version := s })] default
  scope : Decoder Scope :=
    record "Scope" [
      field "type" string (fun s x => { x with kind := s }),
      field "token" string (fun s x => { x with token := s })] default
  payload : Decoder Event :=
    record "DiscoveryPayload" [
      field "scope" scope (fun s e => { e with scope := s }),
      field "endpoints" (listOf any) (fun l e => { e with endpoints := l })] default
  body : Decoder Event :=
    record "EventBody" [
      field "header" header (fun h e => { e with header := h }),
      field "payload" payload (fun p e => { p with header := e.header })] default

end Event

end Announcer
