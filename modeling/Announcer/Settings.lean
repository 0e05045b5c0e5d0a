import Announcer.Backoff
import Announcer.Decimal.Layout
import Announcer.Fault
import Announcer.Limits
/-!
# Settings

What can be set about the senders, the registry and the store. Every setting has
a default; `check` says which values make sense, and `override` applies what
the environment says (specification, 11.3).
-/
namespace Announcer

/-- How senders repeat an event and wait for its acknowledgement. Times are in
milliseconds. -/
structure SenderSettings where
  retryInitial : Nat
  retryMax : Nat
  retryMultiplier : Float
  ackTimeout : Nat
  /-- Whether announcements that the registry sends on its own wait for their
  acknowledgement; those of a bootstrap always do. -/
  awaitAck : Bool
  deriving Repr, Inhabited

structure RegistrySettings where
  maxCapabilities : Nat
  commandBuffer : Nat
  deriving DecidableEq, Repr, Inhabited

structure StoreSettings where
  databasePath : Option String
  maxConnections : Nat
  deriving DecidableEq, Repr, Inhabited

structure Settings where
  sender : SenderSettings
  registry : RegistrySettings
  store : StoreSettings
  deriving Repr, Inhabited

def standardAckTimeout : Nat := 2000

namespace SenderSettings

def standard : SenderSettings := ⟨1000, 256000, 2.0, standardAckTimeout, true⟩

def retryPolicy (s : SenderSettings) : RetryPolicy where
  initial := s.retryInitial * nanosPerMilli
  max := s.retryMax * nanosPerMilli
  multiplier := s.retryMultiplier

end SenderSettings

def RegistrySettings.standard : RegistrySettings := ⟨Announcer.maxCapabilities, 64⟩

def StoreSettings.standard : StoreSettings := ⟨none, 5⟩

namespace Settings

def standard : Settings := ⟨.standard, .standard, .standard⟩

/-- Messages write a multiplier in full, without an exponent and without an
empty fraction. -/
def multiplierLayout : Decimal.Layout := ⟨none, false, "NaN", "inf"⟩

/-- The first setting that makes no sense, if there is one (specification, 11.3). -/
def check (s : Settings) : Except Fault Unit :=
  let sender := s.sender
  if !(1.0 ≤ sender.retryMultiplier) then
    refuse ("retry_multiplier must be at least 1.0, got "
      ++ multiplierLayout.write sender.retryMultiplier)
  else if sender.retryInitial = 0 ∨ sender.retryMax < sender.retryInitial then
    refuse ("retry_initial_ms must be between 1 and retry_max_ms (" ++ toString sender.retryMax
      ++ "), got " ++ toString sender.retryInitial)
  else if sender.ackTimeout = 0 then refuse "ack_timeout_ms must be greater than 0"
  else if s.registry.maxCapabilities = 0 ∨ maxCapabilities < s.registry.maxCapabilities then
    refuse ("max_capabilities_per_endpoint must be between 1 and " ++ toString maxCapabilities
      ++ ", got " ++ toString s.registry.maxCapabilities)
  else if s.registry.commandBuffer = 0 then refuse "command_buffer must be greater than 0"
  else .ok ()
where
  refuse (reason : String) : Except Fault Unit := .error (.invalidSettings reason)

/-- An unsigned 64-bit number in decimal digits, after an optional plus sign. -/
def unsigned? (s : String) : Option Nat :=
  let digits := match s.toList with
    | '+' :: rest => rest
    | cs => cs
  if digits.isEmpty || !digits.all Char.isDigit then none
  else
    let n := digits.foldl (fun n c => n * 10 + (c.toNat - 48)) 0
    if n < UInt64.size then some n else none

def switch? (s : String) : Option Bool :=
  let word := String.ofList (s.toList.map Char.toLower)
  if word ∈ ["1", "true", "yes"] then some true
  else if word ∈ ["0", "false", "no"] then some false
  else none

/-- The settings after the variables of an environment. One that cannot be read
changes nothing. -/
def override (s : Settings) (valueOf : String → Option String) : Settings :=
  let number (name : String) (dflt : Nat) : Nat :=
    ((valueOf name).bind unsigned?).getD dflt
  let path := valueOf "DISCOVERY_DB_PATH" <|> s.store.databasePath
  { s with
    sender := { s.sender with
      retryInitial := number "DISCOVERY_RETRY_INITIAL_MS" s.sender.retryInitial
      retryMax := number "DISCOVERY_RETRY_MAX_MS" s.sender.retryMax
      ackTimeout := number "DISCOVERY_ACK_TIMEOUT_MS" s.sender.ackTimeout
      awaitAck := ((valueOf "DISCOVERY_WAIT_FOR_ACK").bind switch?).getD s.sender.awaitAck }
    store := { s.store with databasePath := path } }

end Settings

structure DatabaseOptions where
  path : String
  maxConnections : Nat
  minConnections : Nat
  connectTimeout : Nat
  idleTimeout : Nat
  runMigrations : Bool
  createIfMissing : Bool
  deriving DecidableEq, Repr

/-- The options that the settings ask for; without a path the file lies in the
directory for data. -/
def Settings.databaseOptions (s : Settings) (dataDirectory : String) : DatabaseOptions where
  path := s.store.databasePath.getD (dataDirectory ++ "/endpoint-discovery/endpoints.db")
  maxConnections := s.store.maxConnections
  minConnections := 1
  connectTimeout := 30000
  idleTimeout := 600000
  runMigrations := true
  createIfMissing := true

end Announcer
