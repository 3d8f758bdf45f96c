import ReceiveOffload.Proofs.Counters
import ReceiveOffload.Proofs.Courses

/-!
# Bills

The statistics of a flow are raised in many places, some by what the caller asked
for and some by what became of it, and a call that fails raises them elsewhere
than one that succeeds. A bill is what a part of a call raises them by. It is held
against what can be counted without them: the segments that were pending before
and after, and what is seen of the call from outside.

Two parts of a call have one bill together, which is the sum of both, and what is
seen of them is the sum as well. So every part is looked at by itself, in all the
ways in which it can end, and a call is put together from its parts however they
ended.

An aggregate is billed to the base that it was opened under and a segment to the
base of its call. That these are one base is assumed throughout.

## Main definitions

* `Occurrence`: What can be counted from outside.
* `Output.seen`: What is seen of an output.
* `Covers`: A bill accounts for what was seen and for the segments that pend.
* `Services.Bills`: A part of a call has such a bill.
* `Turn.Billed`: So does a call.

## Theorems

* `Services.Bills.trans`: Two parts of a call.
* `Services.onIdle_billed`, `Services.onPending_billed`: A segment that is
  offered.
* `Services.closeAggregate_bills`: Closing an aggregate.
-/

namespace ReceiveOffload

/-- What can be counted from outside. None of it occurs twice in one call. -/
inductive Occurrence where
  /-- The arriving segment is reported as lost. -/
  | segmentLost
  /-- It is reported that there was no timer. -/
  | timerRefused
  /-- An aggregate is handed out. -/
  | handedOut
  /-- A segment finds an aggregate that expects another sequence number. -/
  | outOfSequence
  /-- A request to close finds an aggregate. -/
  | flushRequested
  /-- An expiry finds the aggregate that its timer was for. -/
  | timedOut
  deriving DecidableEq, Repr

/-- What is seen of an output. -/
def Output.seen (output : Output) : Occurrence → Nat
  | .segmentLost => output.disposition.segmentDiscarded.toNat
  | .timerRefused => output.disposition.timerUnavailable.toNat
  | .handedOut => output.aggregate.isSome.toNat
  | .outOfSequence | .flushRequested | .timedOut => 0

/-- One occurrence and no other. -/
def Occurrence.once (occurrence : Occurrence) : Occurrence → Nat :=
  Pi.single occurrence 1

/-- A bill accounts for what was seen, and for the segments that were pending before
    and are pending after. -/
structure Covers (bill : Statistic → Nat) (seen : Occurrence → Nat) (before after : Nat) :
    Prop where
  /-- As long as the segments can be counted, each is handed out, is pending or is
      lost; and one that is reported as lost was never counted. -/
  segments : bill .segments + before < UInt64.size →
    bill .segments + before + seen .segmentLost
      = bill .aggregatedSegments + after + bill .discardedSegments
  lost : seen .segmentLost ≤ bill .discardedSegments
  aggregations : bill .aggregations = seen .handedOut
  unexpectedSeq : bill .unexpectedSeq = seen .outOfSequence
  flushRequests : bill .flushRequests = seen .flushRequested
  timeoutFlushes : bill .timeoutFlushes = seen .timedOut
  timerUnavailable : bill .timerUnavailable = seen .timerRefused

namespace Covers

variable {bill bill' : Statistic → Nat} {seen seen' : Occurrence → Nat} {k l m n : Nat}

theorem zero (n : Nat) : Covers 0 0 n n := by
  constructor <;> simp only [Pi.zero_apply, Nat.zero_add, Nat.add_zero, Nat.le_refl, implies_true]

theorem add (h : Covers bill seen l m) (h' : Covers bill' seen' m n) :
    Covers (bill + bill') (seen + seen') l n := by
  rcases h with ⟨hsegments, hlost, haggregations, hseq, hflush, htimeout, htimer⟩
  rcases h' with ⟨hsegments', hlost', haggregations', hseq', hflush', htimeout', htimer'⟩
  constructor <;> simp only [Pi.add_apply] <;> omega

/-- Segments of which nothing is seen stay pending. -/
theorem frame (h : Covers bill seen m n) (k : Nat) : Covers bill seen (k + m) (k + n) := by
  refine { h with segments := fun hroom => ?_ }
  have hsegments := h.segments (by omega)
  omega

end Covers

/-- A part of a call has a bill that accounts for what is seen of it, and for the
    segments that were pending before and are pending after. -/
def Services.Bills (s t : Services) (base : UInt64) (seen : Occurrence → Nat)
    (before after : Nat) : Prop :=
  ∃ amounts, s.counters.Raised t.counters amounts ∧
    Covers (fun statistic => amounts (statistic.address base)) seen before after

/-- An aggregate is billed to this base, and all that is counted for it is
    counted. -/
structure Pending.Booked (p : Pending) (base : UInt64) : Prop where
  statistics : p.statistics = base
  extended : p.extendedStatistics = true

/-- The number of segments that are pending on a flow. -/
def pendingSegments (pending : Option Pending) : Nat :=
  pending.elim 0 Pending.segments

/-- A call has a bill that accounts for what is seen of it, and leaves an aggregate
    that is billed to the same base. -/
structure Turn.Billed (turn : Turn) (s : Services) (base : UInt64) (pending : Option Pending)
    (seen : Occurrence → Nat) : Prop where
  bills : s.Bills turn.services base (seen + turn.output.seen) (pendingSegments pending)
    (pendingSegments turn.flow)
  booked : ∀ p ∈ turn.flow, p.Booked base

/-- The sequence number is what is looked at first. -/
theorem Pending.verdict_eq_outOfSequence_iff (p : Pending) (segment : Segment) (policy : Policy) :
    p.verdict segment policy = .outOfSequence ↔ segment.headers.seq ≠ p.nextSeq := by
  unfold verdict
  by_cases hseq : segment.headers.seq ≠ p.nextSeq
  · rw [if_pos hseq]
    exact ⟨fun _ => hseq, fun _ => rfl⟩
  · rw [if_neg hseq]
    simp only [hseq, iff_false]
    split_ifs <;> exact nofun

namespace Services

variable {s t u : Services} {base : UInt64} {seen seen' : Occurrence → Nat} {l m n : Nat}

theorem Bills.of_eq (h : t.counters = s.counters) (n : Nat) : s.Bills t base 0 n n :=
  ⟨0, .of_eq h, .zero n⟩

theorem Bills.trans (h : s.Bills t base seen l m) (h' : t.Bills u base seen' m n) :
    s.Bills u base (seen + seen') l n := by
  rcases h with ⟨amounts, hraised, hcovers⟩
  rcases h' with ⟨amounts', hraised', hcovers'⟩
  exact ⟨amounts + amounts', hraised.trans hraised', hcovers.add hcovers'⟩

/-- Only the counters matter. -/
theorem Bills.of_counters (h : s.Bills t base seen m n) (hbefore : s.counters = u.counters)
    {v : Services} (hafter : v.counters = t.counters) : u.Bills v base seen m n := by
  rcases h with ⟨amounts, hraised, hcovers⟩
  exact ⟨amounts, hafter ▸ hbefore ▸ hraised, hcovers⟩

/-- What is seen may be put in other words. -/
theorem Bills.of_seen (h : s.Bills t base seen m n) (hseen : ∀ o, seen' o = seen o) :
    s.Bills t base seen' m n :=
  (funext hseen : seen' = seen) ▸ h

/-- One entry is a bill. -/
theorem bills_of_entry (statistic : Statistic) (amount : Nat)
    (hraised : s.counters.Raised t.counters (statistic.entry base amount))
    (hcovers : Covers (fun other => if other = statistic then (UInt64.ofNat amount).toNat else 0)
      seen m n) : s.Bills t base seen m n := by
  refine ⟨_, hraised, ?_⟩
  simp only [Statistic.entry_address]
  exact hcovers

/-- One entry of one is a bill for one occurrence. -/
theorem bills_count (s : Services) (base : UInt64) (statistic : Statistic)
    (hcovers : Covers (fun other => if other = statistic then 1 else 0) seen n n) :
    s.Bills (s.count base statistic 1) base seen n n :=
  bills_of_entry statistic 1 (s.count_raised base statistic 1) hcovers

/-- The segment that opens an aggregate is pending, or it is lost. -/
theorem openAggregate_bills (s : Services) (flow : UInt64) (segment : Segment) (timer : TimerId)
    (policy : Policy) (extras : Extras) (hextended : policy.extendedStatistics = true) :
    ((s.openAggregate flow segment timer policy extras).1 = none ∧
      s.Bills (s.openAggregate flow segment timer policy extras).2 policy.statistics
        Occurrence.segmentLost.once 0 0) ∨
    ∃ p, (s.openAggregate flow segment timer policy extras).1 = some p ∧
      p.Booked policy.statistics ∧
      s.Bills (s.openAggregate flow segment timer policy extras).2 policy.statistics 0 0
        p.segments := by
  have hraised := s.openAggregate_raised flow segment timer policy extras
  -- The counters say the same as the result: a segment is counted as received, or as discarded.
  rcases s.openAggregate_course flow ⟨segment, policy, extras⟩ timer with ⟨hnone, _⟩ | ⟨hsome, _⟩
  · simp only at hnone
    rw [hnone] at hraised
    refine Or.inl ⟨hnone, bills_of_entry _ _ hraised ?_⟩
    constructor <;> intros <;> rfl
  · simp only at hsome
    rw [hsome] at hraised
    refine Or.inr ⟨_, hsome, ?_, bills_of_entry _ _ hraised ?_⟩
    · constructor
      · rw [Pending.statistics_sized]
        rfl
      · rw [Pending.extendedStatistics_sized]
        exact hextended
    · rw [Pending.segments_sized]
      constructor <;> intros <;> rfl

/-- A segment that is appended is one more that is pending. -/
theorem appendSegment_bills (s : Services) (p : Pending) (segment : Segment)
    (booked : p.Booked base) :
    (∃ cause, (s.appendSegment p segment).1 = .error cause ∧
      s.Bills (s.appendSegment p segment).2 base 0 p.segments p.segments) ∨
    ∃ p', (s.appendSegment p segment).1 = .ok p' ∧ p'.Booked base ∧
      p'.segments = p.segments + 1 ∧
      s.Bills (s.appendSegment p segment).2 base 0 p.segments p'.segments := by
  have hraised := s.appendSegment_raised p segment
  rcases hextend : s.extendFrame p.frame segment.frame segment.headers.length with
    ⟨cause | length, s₁⟩
  all_goals simp only [appendSegment, hextend, logSize_eq] at hraised ⊢
  · exact Or.inl ⟨cause, rfl, 0, hraised, .zero _⟩
  · refine Or.inr ⟨_, rfl, ?_, ?_, ?_⟩
    · constructor
      · rw [Pending.statistics_sized]
        exact booked.statistics
      · rw [Pending.extendedStatistics_sized]
        exact booked.extended
    · rw [Pending.segments_sized]
      rfl
    · rw [booked.statistics] at hraised
      refine bills_of_entry .segments 1 hraised ?_
      rw [Pending.segments_sized]
      constructor <;> simp [Pending.grow, Nat.add_comm]

/-- An entry for segments that are lost. -/
theorem covers_discarded (segments : Nat) :
    Covers (fun other => if other = .discardedSegments then (UInt64.ofNat segments).toNat else 0)
      0 segments 0 := by
  constructor
  case segments =>
    intro hroom
    simp only [reduceCtorEq, if_true, if_false, Nat.zero_add] at hroom ⊢
    rw [UInt64.toNat_ofNat_of_lt' hroom]
    rfl
  case lost => exact Nat.zero_le _
  all_goals rfl

/-- The segments of an aggregate that is dropped are lost. -/
theorem abandon_bills (s : Services) (p : Pending) (booked : p.Booked base) :
    s.Bills (s.abandon p) base 0 p.segments 0 :=
  bills_of_entry _ _ (booked.statistics ▸ s.abandon_raised p) (covers_discarded p.segments)

/-- An aggregate that is closed is handed out, or its segments are lost. -/
theorem closeAggregate_bills (s : Services) (p : Pending) (booked : p.Booked base) :
    s.Bills (s.closeAggregate p).2 base
      (Pi.single .handedOut (s.closeAggregate p).1.isSome.toNat) p.segments 0 := by
  have hraised := s.closeAggregate_raised p
  rcases hclosed : (s.closeAggregate p).1 with _ | aggregate
  all_goals rw [hclosed] at hraised
  · rw [booked.statistics] at hraised
    exact (bills_of_entry _ _ hraised (covers_discarded p.segments)).of_seen
      (congrFun (Pi.single_zero _))
  · refine ⟨_, hraised, ?_⟩
    simp only [Option.isSome_some, if_true, Pending.takings, booked.statistics, booked.extended,
      Pi.add_apply, Statistic.entry_address]
    constructor
    case segments =>
      intro hroom
      simp only [reduceCtorEq, if_true, if_false, Nat.zero_add] at hroom ⊢
      rw [UInt64.toNat_ofNat_of_lt' hroom]
      rfl
    all_goals rfl

end Services

namespace Turn.Billed

variable {s t : Services} {turn : Turn} {base : UInt64} {pending : Option Pending} {p : Pending}
  {seen seen' : Occurrence → Nat}

/-- A call that leaves nothing pending. -/
theorem ended (bills : s.Bills turn.services base seen (pendingSegments pending) 0)
    (hflow : turn.flow = none) (hseen : ∀ o, (seen' + turn.output.seen) o = seen o) :
    turn.Billed s base pending seen' where
  bills := hflow ▸ bills.of_seen hseen
  booked := by
    intro p hp
    rw [hflow] at hp
    cases hp

/-- A call that leaves an aggregate pending. -/
theorem left (bills : s.Bills turn.services base seen (pendingSegments pending) p.segments)
    (hflow : turn.flow = some p) (booked : p.Booked base)
    (hseen : ∀ o, (seen' + turn.output.seen) o = seen o) : turn.Billed s base pending seen' where
  bills := hflow ▸ bills.of_seen hseen
  booked := by
    intro q hq
    rw [hflow] at hq
    cases hq
    exact booked

/-- What a call starts with may have a bill of its own. -/
theorem before (bills : s.Bills t base seen (pendingSegments pending) (pendingSegments pending))
    (billed : turn.Billed t base pending seen') : turn.Billed s base pending (seen + seen') where
  bills := (add_assoc seen seen' turn.output.seen).symm ▸ bills.trans billed.bills
  booked := billed.booked

end Turn.Billed

namespace Services

variable {base : UInt64}

/-- A segment that is handed back because there is no timer. -/
theorem refused_bills (s : Services) (notice : Notice) (base : UInt64) :
    s.Bills ((s.note notice).count base .timerUnavailable 1) base
      Occurrence.timerRefused.once 0 0 :=
  (bills_count (s.note notice) base .timerUnavailable
    (by constructor <;> intros <;> rfl)).of_counters rfl rfl

theorem onIdle_billed (s : Services) (flow : UInt64) (segment : Segment) (policy : Policy)
    (extras : Extras) (hextended : policy.extendedStatistics = true) :
    (s.onIdle flow segment policy extras).Billed s policy.statistics none 0 := by
  unfold onIdle
  by_cases hopens : segment.canOpen policy = true
  case neg =>
    rw [if_neg hopens]
    refine .ended (Bills.of_eq rfl 0) rfl ?_
    intro o
    cases o <;> rfl
  rw [if_pos hopens]
  rcases harm : s.armTimer (policy.timerSetup flow) with ⟨cause | timer, s₁⟩
  all_goals
    have harmed : s.Bills s₁ policy.statistics 0 0 0 :=
      .of_eq (congrArg (fun r => r.2.counters) harm.symm) 0
  · refine .ended (harmed.trans (s₁.refused_bills _ _)) rfl ?_
    intro o
    cases o <;> rfl
  · have hopen := s₁.openAggregate_bills flow segment timer policy extras hextended
    simp only
    rcases hopened : s₁.openAggregate flow segment timer policy extras with ⟨opened, s₂⟩
    rw [hopened] at hopen
    rcases hopen with ⟨rfl, hbills⟩ | ⟨p, rfl, hbooked, hbills⟩
    · refine .ended (harmed.trans hbills) rfl ?_
      intro o
      cases o <;> rfl
    · refine .left (harmed.trans hbills) rfl hbooked ?_
      intro o
      cases o <;> rfl

/-- A segment that is merged is one more that pends, or all that pended are lost with it. -/
theorem merge_billed (s : Services) (flow : UInt64) (p : Pending) (segment : Segment)
    (booked : p.Booked base) :
    (s.merge flow p segment).Billed s base (some p) 0 := by
  have happend := s.appendSegment_bills p segment booked
  unfold merge
  rcases hresult : s.appendSegment p segment with ⟨appended, s₁⟩
  rw [hresult] at happend
  rcases happend with ⟨cause, rfl, hbills⟩ | ⟨p', rfl, hbooked, _, hbills⟩
  · have hdropped := (s₁.note (.appendFailed flow cause)).abandon_bills p booked
    refine .ended (hbills.trans (hdropped.of_counters rfl rfl)) rfl ?_
    intro o
    cases o <;> rfl
  · refine .left hbills rfl hbooked ?_
    intro o
    cases o <;> rfl

/-- What is closed with the segment is handed out or lost as a whole. -/
theorem mergeThenClose_billed (s : Services) (flow : UInt64) (p : Pending) (segment : Segment)
    (booked : p.Booked base) :
    (s.mergeThenClose flow p segment).Billed s base (some p) 0 := by
  have happend := (s.releaseTimer p.timer).appendSegment_bills p segment booked
  unfold mergeThenClose
  rcases hresult : (s.releaseTimer p.timer).appendSegment p segment with ⟨appended, s₁⟩
  rw [hresult] at happend
  rcases happend with ⟨cause, rfl, hbills⟩ | ⟨p', rfl, hbooked, hgrown, hbills⟩
  · have hdropped := (s₁.note (.closingAppendFailed flow cause)).abandon_bills p booked
    refine .ended ((hbills.of_counters rfl rfl).trans (hdropped.of_counters rfl rfl)) rfl ?_
    intro o
    cases o <;> rfl
  · have hclosed := s₁.closeAggregate_bills p' hbooked
    refine .ended ((hbills.of_counters rfl rfl).trans hclosed) rfl ?_
    intro o
    simp only
    rcases (s₁.closeAggregate p').1 with _ | aggregate <;> cases o <;> rfl

/-- The aggregate is closed, and the segment is passed on without being counted, or is
    lost. -/
theorem closeThenPass_billed (s : Services) (flow : UInt64) (p : Pending) (segment : Segment)
    (policy : Policy) (booked : p.Booked policy.statistics) :
    (s.closeThenPass flow p segment policy).Billed s policy.statistics (some p) 0 := by
  have hclose := (s.releaseTimer p.timer).closeAggregate_bills p booked
  unfold closeThenPass
  rcases hclosed : (s.releaseTimer p.timer).closeAggregate p with ⟨aggregate, s₁⟩
  rw [hclosed] at hclose
  have hrelay := s₁.counters_relay segment.frame
  simp only at hclose ⊢
  rcases hrelayed : s₁.relay segment.frame with ⟨cause | relayed, s₂⟩
  all_goals
    rw [hrelayed] at hrelay
    have hbills := (hclose.trans (.of_eq hrelay 0)).of_counters rfl rfl
  -- The bill of the aggregate is complete by now, so only the segment can still be lost.
  · have hlost : s₂.Bills ((s₂.note (.closingSegmentDropped flow cause)).count policy.statistics
        .discardedSegments 1) policy.statistics Occurrence.segmentLost.once 0 0 :=
      (bills_count _ _ _ (by constructor <;> intros <;> rfl)).of_counters rfl rfl
    refine .ended (hbills.trans hlost) rfl ?_
    intro o
    rcases aggregate with _ | aggregate <;> cases o <;> rfl
  · refine .ended hbills rfl ?_
    intro o
    rcases aggregate with _ | aggregate <;> cases o <;> rfl

/-- The aggregate is closed, and the segment pends alone or is lost. -/
theorem closeThenOpen_billed (s : Services) (flow : UInt64) (p : Pending) (segment : Segment)
    (policy : Policy) (extras : Extras) (hextended : policy.extendedStatistics = true)
    (booked : p.Booked policy.statistics) :
    (s.closeThenOpen flow p segment policy extras).Billed s policy.statistics (some p) 0 := by
  have hclose := s.closeAggregate_bills p booked
  unfold closeThenOpen
  rcases hclosed : s.closeAggregate p with ⟨aggregate, s₁⟩
  rw [hclosed] at hclose
  have hrenew := s₁.counters_renewTimer flow p.timer policy
  simp only at hclose ⊢
  -- Renewing the timer raises no counter, whatever comes of it.
  rcases hrenewed : s₁.renewTimer flow p.timer policy with ⟨cause | timer, s₂⟩
  all_goals
    rw [hrenewed] at hrenew
    have hbills := hclose.trans (.of_eq hrenew 0)
  · refine .ended (hbills.trans (s₂.refused_bills _ _)) rfl ?_
    intro o
    rcases aggregate with _ | aggregate <;> cases o <;> rfl
  · have hopen := s₂.openAggregate_bills flow segment timer policy extras hextended
    simp only
    rcases hopened : s₂.openAggregate flow segment timer policy extras with ⟨opened, s₃⟩
    rw [hopened] at hopen
    rcases hopen with ⟨rfl, hlost⟩ | ⟨q, rfl, hbooked, hpending⟩
    · refine .ended (hbills.trans hlost) rfl ?_
      intro o
      rcases aggregate with _ | aggregate <;> cases o <;> rfl
    · refine .left (hbills.trans hpending) rfl hbooked ?_
      intro o
      rcases aggregate with _ | aggregate <;> cases o <;> rfl

theorem closeAround_billed (s : Services) (flow : UInt64) (p : Pending) (segment : Segment)
    (policy : Policy) (extras : Extras) (hextended : policy.extendedStatistics = true)
    (booked : p.Booked policy.statistics) :
    (s.closeAround flow p segment policy extras).Billed s policy.statistics (some p) 0 := by
  unfold closeAround
  split
  · exact s.closeThenOpen_billed flow p segment policy extras hextended booked
  · exact s.closeThenPass_billed flow p segment policy booked

/-- That a segment does not start where the aggregate expects it is counted before
    anything is done about it. -/
theorem onPending_billed (s : Services) (flow : UInt64) (p : Pending) (segment : Segment)
    (policy : Policy) (extras : Extras) (hextended : policy.extendedStatistics = true)
    (booked : p.Booked policy.statistics) :
    (s.onPending flow p segment policy extras).Billed s policy.statistics (some p)
      (if segment.headers.seq ≠ p.nextSeq then Occurrence.outOfSequence.once else 0) := by
  have hverdict := p.verdict_eq_outOfSequence_iff segment policy
  have haround : ∀ s' : Services, s'.counters = s.counters →
      (s'.closeAround flow p segment policy extras).Billed s policy.statistics (some p) 0 := by
    intro s' hsame
    have hbilled := s'.closeAround_billed flow p segment policy extras hextended booked
    exact ⟨hbilled.bills.of_counters hsame rfl, hbilled.booked⟩
  unfold onPending
  rcases hcase : p.verdict segment policy with _ | _ | _ | _ | size
  all_goals
    rw [hcase] at hverdict
    simp only [reduceCtorEq, false_iff, true_iff, not_not] at hverdict
    simp only [hverdict, ne_eq, not_true_eq_false, not_false_eq_true, if_true, if_false]
  · exact s.merge_billed flow p segment booked
  · exact s.mergeThenClose_billed flow p segment booked
  -- A sequence number that was not expected is counted first, and then the aggregate is closed
  -- around the segment.
  · have hcounted : s.Bills ((s.note (.unexpectedSeq flow p.nextSeq segment.headers.seq)).count
        p.statistics .unexpectedSeq 1) policy.statistics Occurrence.outOfSequence.once p.segments
        p.segments :=
      booked.statistics ▸ (bills_count _ _ _
        (by constructor <;> simp [Occurrence.once])).of_counters rfl rfl
    exact .before hcounted (closeAround_billed _ flow p segment policy extras hextended booked)
  · exact haround _ rfl
  · exact haround _ rfl

end Services

end ReceiveOffload
