import Announcer.Config.Build
import Announcer.Status
import Announcer.Store.Database
import Announcer.Table
/-!
# Faults

Whatever can go wrong between a caller, the registry, the store and the service
(specification, 7).
-/
namespace Announcer

inductive Fault where
  /-- A setting is out of its range, or a part of the registry is missing. -/
  | invalidSettings (reason : String)
  | unreadableSettings (reason : String)
  | unwritableSettings (reason : String)
  | sendFailed (status : Status)
  /-- There was no usable token before the end. -/
  | noToken
  | canceled
  | invalidDescriptor (error : FormatError)
  | serialization (reason : String)
  | storage (error : StoreError)
  | rejected (reason : Rejection)
  | internal (reason : String)
  | shuttingDown
  | channel (reason : String)
  deriving DecidableEq, Repr

namespace Fault

def message : Fault → String
  | invalidSettings reason => "Invalid discovery configuration: " ++ reason
  | unreadableSettings reason => "Failed to load config: " ++ reason
  | unwritableSettings reason => "Failed to save config: " ++ reason
  | sendFailed status => "Event send failed: " ++ status.name
  | noToken => "No auth token available"
  | canceled => "Operation canceled"
  | invalidDescriptor error => "Invalid descriptor: " ++ error.message
  | serialization reason => "Serialization failed: " ++ reason
  | storage error => "Storage error: " ++ error.message
  | rejected reason => "Request rejected: " ++ reason.message
  | internal reason => "Internal error: " ++ reason
  | shuttingDown => "Endpoint registry is shutting down"
  | channel reason => "Channel error: " ++ reason

def isRetryable : Fault → Bool
  | sendFailed status => status.isRetryable
  | noToken => true
  | _ => false

def concernsSettings : Fault → Bool
  | invalidSettings _ | unreadableSettings _ | unwritableSettings _ => true
  | _ => false

end Fault

end Announcer
