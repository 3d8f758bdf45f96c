/-!
# Failures

Everything that can go wrong, as causes and not as texts. Two resources can
run out, frame storage and timer slots, and a timer can be asked for in a pool
that does not exist or through a handle that no longer owns it. Input can be
malformed in one of the ways that `Malformation` lists, and settings can be
invalid.

`outOfBounds` stands apart: it is what a read or a write outside an octet
string comes to. Nothing in the library asks for one on purpose, so it is the
failure that bounds arguments show to be impossible.

The wording of every failure is `Failure.message`, and `Failure.category` says
which kind of input or output error it corresponds to.

## Main definitions

* `Malformation`: The ways a frame can be malformed.
* `InvalidSetting`: The ways settings can be invalid.
* `Failure`: Everything that can go wrong.
* `Failure.message`: The text of a failure.
* `Failure.category`: The kind of input or output error it corresponds to.
* `require`, `within`: Turn a condition or a look-up into a failure.
-/

namespace ReceiveOffload

/-- The ways a frame, or what is left of one, can be malformed. -/
inductive Malformation where
  | oversized
  | shortEthernet
  | foreignEthertype
  | unfinishedEthernet
  | missingIp
  | truncatedIpv4
  | foreignProtocol
  | lengthBelowHeader
  | truncatedIpv6
  | unknownVersion
  | lengthBeyondFrame
  | truncatedTcp
  | invalidDataOffset
  | missingAggregate
  | vanishedStaging
  | trimBeyondFrame
  | unknownFrame
  /-- A fault that somebody outside the library found. -/
  | described (text : String)
  deriving DecidableEq, Repr

/-- What a malformation is called. -/
def Malformation.text : Malformation → String
  | oversized => "frame exceeds the largest IP datagram"
  | shortEthernet => "frame shorter than an Ethernet header"
  | foreignEthertype => "not an IP ethertype"
  | unfinishedEthernet => "truncated or over-tagged Ethernet header"
  | missingIp => "missing IP header"
  | truncatedIpv4 => "truncated IPv4 header"
  | foreignProtocol => "not a TCP segment"
  | lengthBelowHeader => "IPv4 total length below header length"
  | truncatedIpv6 => "truncated IPv6 header"
  | unknownVersion => "unknown IP version"
  | lengthBeyondFrame => "IP length exceeds frame length"
  | truncatedTcp => "truncated TCP header"
  | invalidDataOffset => "invalid TCP data offset"
  | missingAggregate => "aggregate frame missing from transport"
  | vanishedStaging => "staged frame vanished from transport"
  | trimBeyondFrame => "trim prefix exceeds frame length"
  | unknownFrame => "unknown frame handle"
  | described text => text

/-- The ways the settings of an aggregation can be invalid. -/
inductive InvalidSetting where
  | sizeLimitTooLarge
  | timeoutZero
  /-- A fault that somebody outside the library found. -/
  | described (text : String)
  deriving DecidableEq, Repr

/-- What an invalid setting is called. -/
def InvalidSetting.text : InvalidSetting → String
  | sizeLimitTooLarge => "packet_size_limit exceeds 65535"
  | timeoutZero => "timeout_limit must be at least 1"
  | described text => text

/-- Everything that can go wrong. -/
inductive Failure where
  /-- No storage is left for the frame or the octets to be appended. -/
  | buffersExhausted
  /-- Every timer slot of the pool is in use. -/
  | timersExhausted (pool : Nat)
  /-- The timer pool was never registered. -/
  | unknownTimerPool (pool : Nat)
  /-- The handle no longer names an armed timer. -/
  | timerNotOwned
  | malformed (cause : Malformation)
  | invalidSettings (cause : InvalidSetting)
  /-- The buffer is too short for the header. -/
  | shortBuffer
  /-- A read or a write outside an octet string. -/
  | outOfBounds
  deriving DecidableEq, Repr

/-- The kinds of input or output error. -/
inductive Failure.Category where
  | outOfMemory
  | wouldBlock
  | notFound
  | permissionDenied
  | invalidInput
  deriving DecidableEq, Repr

namespace Failure

/-- The text of a failure. -/
def message : Failure → String
  | buffersExhausted => "frame buffer pool exhausted"
  | timersExhausted pool => "no timer slot available in pool " ++ toString pool
  | unknownTimerPool pool => "unknown timer pool " ++ toString pool
  | timerNotOwned => "timer is not owned by the caller"
  | malformed cause => "malformed frame: " ++ cause.text
  | invalidSettings cause => "invalid aggregation parameters: " ++ cause.text
  | shortBuffer => "too short"
  | outOfBounds => "access outside the frame"

/-- The kind of input or output error that a failure corresponds to. -/
def category : Failure → Category
  | buffersExhausted => .outOfMemory
  | timersExhausted _ => .wouldBlock
  | unknownTimerPool _ => .notFound
  | timerNotOwned => .permissionDenied
  | malformed _ | invalidSettings _ | shortBuffer | outOfBounds => .invalidInput

end Failure

/-- Fails with the malformation unless the condition holds. -/
def require (condition : Prop) [Decidable condition] (cause : Malformation) :
    Except Failure Unit :=
  if condition then .ok () else .error (.malformed cause)

/-- The value looked up, which is out of bounds where there is none. -/
def within {α : Type} : Option α → Except Failure α
  | some value => .ok value
  | none => .error .outOfBounds

end ReceiveOffload
