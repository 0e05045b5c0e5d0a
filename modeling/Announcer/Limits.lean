/-!
# Limits

The sizes and counts that the discovery service imposes, and the fixed names of
its events (specification, 6).
-/
namespace Announcer

def maxEventBytes : Nat := 256 * 1024

def envelopeReserveBytes : Nat := 10 * 1024

/-- The most bytes that the configs of one event may have together. A config
larger than this can never be sent, and the deduplication group must fit into
it as a whole. -/
def maxConfigBytesPerEvent : Nat := maxEventBytes - envelopeReserveBytes

/-- The most endpoints of one announcing event; withdrawals have no such limit. -/
def maxEndpointsPerReport : Nat := 300

def maxCapabilities : Nat := 100

/-- The most members of the deduplication group, which travels in one event. -/
def maxGroupMembers : Nat := maxEndpointsPerReport

def maxIdLength : Nat := 256

def maxDescriptionLength : Nat := 128

def maxManufacturerLength : Nat := 128

def maxAdditionalLength : Nat := 256

def eventNamespace : String := "Alexa.Discovery"

def payloadVersion : String := "3"

def addOrUpdateReport : String := "AddOrUpdateReport"

def deleteReport : String := "DeleteReport"

/-- The place of endpoint discovery among the steps of a connection's
bootstrap; lower numbers run earlier. -/
def bootstrapPriority : Nat := 100

end Announcer
