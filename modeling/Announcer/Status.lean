/-!
# What the service answers

The status of one attempt to send an event, and the state of the connection
(specification, 6 and 12.6).
-/
namespace Announcer

inductive Status where
  | successAccepted
  | invalidAuth
  | badRequest
  | serverInternalError
  /-- The service asked for fewer events. -/
  | throttled
  /-- No answer, or no acknowledgement, in time. -/
  | timeout
  | canceled
  | notConnected
  | internalError
  deriving DecidableEq, Repr, Inhabited

namespace Status

def all : List Status :=
  [.successAccepted, .invalidAuth, .badRequest, .serverInternalError, .throttled, .timeout,
    .canceled, .notConnected, .internalError]

def name : Status → String
  | .successAccepted => "success_accepted"
  | .invalidAuth => "invalid_auth"
  | .badRequest => "bad_request"
  | .serverInternalError => "server_internal_error"
  | .throttled => "throttled"
  | .timeout => "timeout"
  | .canceled => "canceled"
  | .notConnected => "not_connected"
  | .internalError => "internal_error"

def ofName? (s : String) : Option Status := all.find? (fun x => x.name = s)

def isSuccess (s : Status) : Bool := s = .successAccepted

/-- True when the same event may be sent again after a delay. -/
def isRetryable : Status → Bool
  | .successAccepted | .invalidAuth | .badRequest | .canceled => false
  | _ => true

end Status

inductive Connection where
  | connected
  | disconnected
  deriving DecidableEq, Repr, Inhabited

def Connection.name : Connection → String
  | .connected => "connected"
  | .disconnected => "disconnected"

end Announcer
