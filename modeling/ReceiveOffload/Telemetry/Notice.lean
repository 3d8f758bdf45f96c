import ReceiveOffload.Failure
import ReceiveOffload.Timer.Setup

/-!
# Notices

What is worth telling about a call besides its result: why a segment was not
merged, what was lost and why, what a timer did. A notice says what happened;
its level and its wording are functions of that, so nothing that decides
anything handles text.

Addresses of flows are written in hexadecimal.

## Main definitions

* `Notice`: What happened.
* `Notice.level`: How much it matters.
* `Notice.text`: How it is told.
-/

namespace ReceiveOffload

/-- How much a notice matters. -/
inductive NoticeLevel where
  | trace
  | debug
  | warn
  deriving DecidableEq, Repr

/-- The name of a level. -/
def NoticeLevel.name : NoticeLevel → String
  | trace => "trace"
  | debug => "debug"
  | warn => "warn"

/-- What happened. -/
inductive Notice where
  | frameRejected (flow : UInt64) (cause : Failure)
  | passedThrough (flow : UInt64)
  | flushedSynchronously (flow : UInt64) (cause : Failure)
  | segmentDropped (flow : UInt64) (cause : Failure)
  | aggregationStarted (flow : UInt64) (seq : UInt32)
  | segmentMerged (segments : Nat) (length : Nat)
  | unexpectedSeq (flow : UInt64) (expected got : UInt32)
  | incompatible (flow : UInt64)
  | sizeExceeded (flow : UInt64) (size limit : Nat)
  | appendFailed (flow : UInt64) (cause : Failure)
  | closingAppendFailed (flow : UInt64) (cause : Failure)
  | closingSegmentDropped (flow : UInt64) (cause : Failure)
  | timerReplaced (flow : UInt64) (cause : Failure)
  | aggregateDiscarded (segments : Nat)
  | aggregateDropped (segments : Nat) (cause : Failure)
  | explicitFlush (flow : UInt64) (segments : Nat)
  | timeoutFlush (flow : UInt64) (segments : Nat)
  | staleTimer (flow : UInt64) (handle : TimerId)
  | nobodyToTell (flow : UInt64) (length : Nat)
  deriving DecidableEq, Repr

namespace Notice

/-- How much it matters. -/
def level : Notice → NoticeLevel
  | frameRejected .. | passedThrough .. | aggregationStarted .. | segmentMerged ..
  | timerReplaced .. | staleTimer .. => .trace
  | unexpectedSeq .. | incompatible .. | sizeExceeded .. | explicitFlush ..
  | timeoutFlush .. => .debug
  | flushedSynchronously .. | segmentDropped .. | appendFailed .. | closingAppendFailed ..
  | closingSegmentDropped .. | aggregateDiscarded .. | aggregateDropped ..
  | nobodyToTell .. => .warn

/-- The address of a flow in words. -/
def flowText (flow : UInt64) : String :=
  "context 0x" ++ String.ofList (Nat.toDigits 16 flow.toNat)

/-- How it is told. -/
def text : Notice → String
  | frameRejected flow cause =>
    flowText flow ++ ": rejecting frame, " ++ cause.message
  | passedThrough flow =>
    flowText flow ++ ": segment passes through"
  | flushedSynchronously flow cause =>
    flowText flow ++ ": " ++ cause.message ++ ", flushing segment synchronously"
  | segmentDropped flow cause =>
    flowText flow ++ ": " ++ cause.message ++ ", dropping segment"
  | aggregationStarted flow seq =>
    flowText flow ++ ": started aggregation at seq " ++ toString seq.toNat
  | segmentMerged segments length =>
    "aggregated segment " ++ toString segments ++ " (" ++ toString length ++ " bytes total)"
  | unexpectedSeq flow expected got =>
    flowText flow ++ ": expected seq " ++ toString expected.toNat
      ++ ", got " ++ toString got.toNat
  | incompatible flow =>
    flowText flow ++ ": segment cannot continue the aggregate"
  | sizeExceeded flow size limit =>
    flowText flow ++ ": " ++ toString size ++ " bytes would exceed " ++ toString limit
  | appendFailed flow cause =>
    flowText flow ++ ": " ++ cause.message ++ " while appending"
  | closingAppendFailed flow cause =>
    flowText flow ++ ": " ++ cause.message ++ " while appending the closing segment"
  | closingSegmentDropped flow cause =>
    flowText flow ++ ": " ++ cause.message ++ ", dropping the closing segment"
  | timerReplaced flow cause =>
    flowText flow ++ ": " ++ cause.message ++ ", arming a new timer"
  | aggregateDiscarded segments =>
    "discarding aggregate of " ++ toString segments ++ " segments"
  | aggregateDropped segments cause =>
    "dropping aggregate of " ++ toString segments ++ " segments: " ++ cause.message
  | explicitFlush flow segments =>
    flowText flow ++ ": explicit flush of " ++ toString segments ++ " segments"
  | timeoutFlush flow segments =>
    flowText flow ++ ": timeout flush of " ++ toString segments ++ " segments"
  | staleTimer flow handle =>
    flowText flow ++ ": ignoring stale timer " ++ handle.describe
  | nobodyToTell flow length =>
    flowText flow ++ ": no completion registered, dropping " ++ toString length
      ++ " byte aggregate"

end Notice

end ReceiveOffload
