import ReceiveOffload.Flow.Pending

/-!
# Verdicts

What is to be done with a segment of a flow that has an aggregate pending. The
verdict follows from the aggregate, the segment and the policy alone; carrying
it out is another matter, which may fail.

The order of the questions is part of the answer. A segment out of sequence is
reported as such whatever else is wrong with it, and an aggregate that is
about to be full is closed only by a segment that fits into it.

## Main definitions

* `Verdict`: What is to be done with a segment.
* `Pending.verdict`: The verdict on a segment.
-/

namespace ReceiveOffload

/-- What is to be done with a segment. -/
inductive Verdict where
  /-- Append it and go on. -/
  | merge
  /-- Append it and close the aggregate. -/
  | mergeThenClose
  /-- Close the aggregate first: the segment starts somewhere else. -/
  | outOfSequence
  /-- Close the aggregate first: the segment does not continue it. -/
  | incompatible
  /-- Close the aggregate first: with the segment it would have this size. -/
  | oversized (size : Nat)
  deriving DecidableEq, Repr

namespace Pending

/-- The size of the aggregate with the segment appended. -/
def sizeWith (p : Pending) (segment : Segment) : Nat :=
  p.length.toNat + segment.frame.length - segment.headers.length

/-- Whether the segment could follow if there is room for it. -/
def accepts (p : Pending) (h : Headers) : Bool :=
  ¬ p.differs h ∧ ¬ p.acksLess h ∧ ¬ p.complete ∧ h.mergeable

/-- Whether the aggregate is closed by the segment that brings it to `size`. -/
def closedBy (p : Pending) (h : Headers) (size : Nat) (policy : Policy) : Bool :=
  h.pushes ∨ size = policy.sizeLimit ∨ policy.segmentLimit ≤ p.segments + 1

/-- What is to be done with a segment of the flow. -/
def verdict (p : Pending) (segment : Segment) (policy : Policy) : Verdict :=
  let h := segment.headers
  let size := p.sizeWith segment
  if h.seq ≠ p.nextSeq then .outOfSequence
  else if ¬ p.accepts h then .incompatible
  else if policy.sizeLimit < size then .oversized size
  else if p.closedBy h size policy then .mergeThenClose
  else .merge

end Pending

end ReceiveOffload
