import Announcer.Settings
import Announcer.Toml.Reader
import Announcer.Toml.Writer
/-!
# The settings file

The settings as a TOML document with one table for the senders, the registry
and the store each. What a file does not say has its default, and what it says
beyond the settings does not matter.
-/
namespace Announcer

open Toml (Value Members)

namespace Settings

/-- The settings of one group: each has a name and a place. A group is a table,
or an array of the settings in order; a moment counts as a table that says
nothing. -/
def group? : Value → Option (Nat → String → Option Value)
  | .table _ m => some fun _ name => Members.get? m name
  | .array items => some fun i _ => items[i]?
  | .tables elements => some fun i _ => (elements[i]?).map (.table .header)
  | .moment => some fun _ _ => none
  | _ => none

def natural? (limit : Nat) : Value → Option Nat
  | .integer i => if 0 ≤ i ∧ i.toNat < limit then some i.toNat else none
  | _ => none

def real? : Value → Option Float
  | .real x => some x
  | .integer i =>
    let x := (UInt64.ofNat i.natAbs).toFloat
    some (if i < 0 then -x else x)
  | _ => none

def boolean? : Value → Option Bool
  | .boolean b => some b
  | _ => none

def text? : Value → Option String
  | .string s => some s
  | _ => none

/-- A setting that may be absent; none when it is there and of the wrong kind. -/
def settingOr {α : Type} (dflt : α) (read : Value → Option α) : Option Value → Option α
  | none => some dflt
  | some v => read v

def sender? (v : Value) : Option SenderSettings := do
  let get ← group? v
  let dflt := SenderSettings.standard
  let retryInitial ← settingOr dflt.retryInitial (natural? UInt64.size) (get 0 "retry_initial_ms")
  let retryMax ← settingOr dflt.retryMax (natural? UInt64.size) (get 1 "retry_max_ms")
  let retryMultiplier ← settingOr dflt.retryMultiplier real? (get 2 "retry_multiplier")
  let ackTimeout ← settingOr dflt.ackTimeout (natural? UInt64.size) (get 3 "ack_timeout_ms")
  let awaitAck ← settingOr dflt.awaitAck boolean? (get 4 "wait_for_event_processed")
  some ⟨retryInitial, retryMax, retryMultiplier, ackTimeout, awaitAck⟩

def registry? (v : Value) : Option RegistrySettings := do
  let get ← group? v
  let dflt := RegistrySettings.standard
  let maxCapabilities ←
    settingOr dflt.maxCapabilities (natural? UInt64.size) (get 0 "max_capabilities_per_endpoint")
  let commandBuffer ← settingOr dflt.commandBuffer (natural? UInt64.size) (get 1 "command_buffer")
  some ⟨maxCapabilities, commandBuffer⟩

def store? (v : Value) : Option StoreSettings := do
  let get ← group? v
  let dflt := StoreSettings.standard
  let databasePath ← settingOr dflt.databasePath (fun v => (text? v).map some) (get 0 "database_path")
  let maxConnections ← settingOr dflt.maxConnections (natural? UInt32.size) (get 1 "max_connections")
  some ⟨databasePath, maxConnections⟩

def ofDocument? (m : Members) : Option Settings := do
  let sender ← settingOr .standard sender? (Members.get? m "sender")
  let registry ← settingOr .standard registry? (Members.get? m "registry")
  let store ← settingOr .standard store? (Members.get? m "store")
  some ⟨sender, registry, store⟩

def ofFile (content : ByteArray) : Except Fault Settings :=
  match String.fromUTF8? content with
  | none => .error (.unreadableSettings "stream did not contain valid UTF-8")
  | some text =>
    match (Toml.read? text).bind ofDocument? with
    | none => .error (.unreadableSettings "the document does not hold settings")
    | some s => .ok s

/-- The settings of a file, if there is one, and of the environment; all of them
have to make sense. -/
def load (file : Option ByteArray) (valueOf : String → Option String) : Except Fault Settings := do
  let s ← match file with
    | none => .ok .standard
    | some content => ofFile content
  let s := s.override valueOf
  s.check
  return s

/-- The settings that can be loaded, or else the defaults. -/
def loadOrStandard (file : Option ByteArray) (valueOf : String → Option String) : Settings :=
  match load file valueOf with
  | .ok s => s
  | .error _ => .standard

def line (name value : String) : String := name ++ " = " ++ value ++ "\n"

/-- The text of a file with these settings. A file holds integers of 64 bits
with a sign, so the largest numbers cannot be saved. -/
def fileText (s : Settings) : Except Fault String :=
  let numbers := [s.sender.retryInitial, s.sender.retryMax, s.sender.ackTimeout,
    s.registry.maxCapabilities, s.registry.commandBuffer]
  if numbers.any (Int64.maxValue.toInt < ·) then
    .error (.unwritableSettings "out-of-range value for u64 type")
  else .ok (
    "[sender]\n"
    ++ line "retry_initial_ms" (toString s.sender.retryInitial)
    ++ line "retry_max_ms" (toString s.sender.retryMax)
    ++ line "retry_multiplier" (Toml.floatLayout.write s.sender.retryMultiplier)
    ++ line "ack_timeout_ms" (toString s.sender.ackTimeout)
    ++ line "wait_for_event_processed" (if s.sender.awaitAck then "true" else "false")
    ++ "\n[registry]\n"
    ++ line "max_capabilities_per_endpoint" (toString s.registry.maxCapabilities)
    ++ line "command_buffer" (toString s.registry.commandBuffer)
    ++ "\n[store]\n"
    ++ (s.store.databasePath.map fun path => line "database_path" (Toml.quote path)).getD ""
    ++ line "max_connections" (toString s.store.maxConnections))

end Settings

end Announcer
