import Mathlib.Algebra.Group.Pi.Basic
import Mathlib.Algebra.GroupWithZero.Nat
import ReceiveOffload.Engine.Merge

/-!
# What Counters Are Raised By

Counters only ever grow, and what one shows after a while is what it showed
before and the sum of what it was raised by, as far as that fits. So a part of a
call is described by how much it raises every counter, two parts by the sum of
both, and it makes no difference in which order they come.

The statistics of a flow are counters at addresses of their own. Raising one of
them is an entry for one address, and the eight addresses of a flow are different
however far up they lie.

## Main definitions

* `Counters.Raised`: The counters were raised by amounts.
* `Statistic.entry`: What raising a statistic of a flow comes to.
* `Pending.takings`: What an aggregate is counted as that is handed out.

## Theorems

* `Counters.Raised.trans`: Amounts add up.
* `Services.openAggregate_raised`, `Services.appendSegment_raised`,
  `Services.closeAggregate_raised`, `Services.abandon_raised`: What the parts of a
  call raise.
-/

namespace ReceiveOffload

/-- A capped sum is the sum as far as 64 bits reach. -/
theorem toNat_cappedSum (a b : UInt64) :
    (cappedSum a b).toNat = min (a.toNat + b.toNat) (UInt64.size - 1) := by
  refine UInt64.toNat_ofNat_of_lt' (Nat.lt_of_le_of_lt (Nat.min_le_right _ _) ?_)
  decide

namespace Counters

/-- The counter at every address was raised by an amount, or is full. -/
def Raised (before after : Counters) (amounts : UInt64 → Nat) : Prop :=
  ∀ address, (after.read address).toNat
    = min ((before.read address).toNat + amounts address) (UInt64.size - 1)

variable {a b c : Counters} {amounts amounts' : UInt64 → Nat}

/-- Nothing raises nothing. -/
theorem Raised.refl (c : Counters) : c.Raised c 0 := by
  intro address
  have hlt := (c.read address).toNat_lt
  rw [Pi.zero_apply, Nat.add_zero, Nat.min_eq_left (Nat.le_sub_one_of_lt hlt)]

/-- Counters that are the same were raised by nothing. -/
theorem Raised.of_eq (h : b = a) : a.Raised b 0 :=
  h ▸ .refl a

theorem Raised.trans (h : a.Raised b amounts) (h' : b.Raised c amounts') :
    a.Raised c (amounts + amounts') := by
  intro address
  rw [h' address, h address, Pi.add_apply]
  omega

/-- Only the counter at the address is raised. -/
theorem read_raise (c : Counters) (address amount x : UInt64) :
    (c.raise address amount).read x
      = if address = x then cappedSum (c.read address) amount else c.read x := by
  simp only [read, raise, AddressMap.getD, AddressMap.get?_insert]
  split <;> rfl

/-- Raising one counter is an entry at one address. -/
theorem raised_raise (c : Counters) (address amount : UInt64) :
    c.Raised (c.raise address amount) (Pi.single address amount.toNat) := by
  intro x
  rw [read_raise]
  by_cases hx : address = x
  · subst hx
    rw [if_pos rfl, Pi.single_eq_same, toNat_cappedSum]
  · rw [if_neg hx, Pi.single_eq_of_ne (Ne.symm hx)]
    exact Raised.refl c x

end Counters

namespace Statistic

/-- What it comes to that a statistic is raised of the flow whose counters start at
    `base`. -/
def entry (statistic : Statistic) (base : UInt64) (amount : Nat) : UInt64 → Nat :=
  Pi.single (statistic.address base) (UInt64.ofNat amount).toNat

/-- No two statistics of a flow have one address. -/
theorem address_inj (statistic other : Statistic) (base : UInt64) :
    statistic.address base = other.address base ↔ statistic = other := by
  unfold address
  rw [UInt64.add_right_inj]
  cases statistic <;> cases other <;> decide

/-- What an entry says of the statistics of its flow. -/
theorem entry_address (statistic other : Statistic) (base : UInt64) (amount : Nat) :
    statistic.entry base amount (other.address base)
      = if other = statistic then (UInt64.ofNat amount).toNat else 0 := by
  simp only [entry, Pi.single_apply, address_inj]

/-- The accumulator is the statistic behind. -/
theorem address_aggregations_add (base : UInt64) :
    aggregations.address base + 8 = aggregatedSegments.address base := by
  unfold address
  rw [UInt64.add_assoc]
  rfl

end Statistic

/-- What an aggregate is counted as that is handed out. -/
def Pending.takings (p : Pending) : UInt64 → Nat :=
  Statistic.aggregations.entry p.statistics 1
    + if p.extendedStatistics then Statistic.aggregatedSegments.entry p.statistics p.segments
      else 0

namespace Services

variable (s : Services)

theorem count_raised (base : UInt64) (statistic : Statistic) (amount : Nat) :
    s.counters.Raised (s.count base statistic amount).counters (statistic.entry base amount) :=
  s.counters.raised_raise _ _

/-- Handing out an aggregate raises what its takings say. -/
theorem countAggregate_raised (p : Pending) :
    s.counters.Raised (s.countAggregate p).counters p.takings := by
  unfold countAggregate Pending.takings
  have hcounted := s.counters.raised_raise (Statistic.aggregations.address p.statistics) 1
  split
  · refine hcounted.trans ?_
    rw [Statistic.entry, ← Statistic.address_aggregations_add]
    exact Counters.raised_raise _ _ _
  · exact hcounted

@[simp] theorem counters_logSize (p : Pending) (h : Headers) :
    (s.logSize p h).2.counters = s.counters := by
  unfold logSize
  split <;> rfl

@[simp] theorem statistics_logSize (p : Pending) (h : Headers) :
    (s.logSize p h).1.statistics = p.statistics := by
  unfold logSize
  split <;> rfl

theorem counters_relay (frame : Frame) : (s.relay frame).2.counters = s.counters := by
  unfold relay
  rcases hstore : s.storeFrame frame with ⟨cause | id, s₁⟩
  all_goals have hfirst : s₁.counters = s.counters := congrArg (fun r => r.2.counters) hstore.symm
  · exact hfirst
  · rcases htake : s₁.takeFrame id with ⟨_ | relayed, s₂⟩
    all_goals
      simp only [htake]
      exact (congrArg (fun r => r.2.counters) htake.symm).trans hfirst

/-- Timers are not counted. -/
theorem counters_renewTimer (flow : UInt64) (timer : TimerId) (policy : Policy) :
    (s.renewTimer flow timer policy).2.counters = s.counters := by
  unfold renewTimer
  rcases hrestart : s.restartTimer timer with ⟨cause | _, s₁⟩
  all_goals exact congrArg (fun r => r.2.counters) hrestart.symm

/-- The segment that opens an aggregate is counted, or it is counted as lost. -/
theorem openAggregate_raised (flow : UInt64) (segment : Segment) (timer : TimerId)
    (policy : Policy) (extras : Extras) :
    s.counters.Raised (s.openAggregate flow segment timer policy extras).2.counters
      (if (s.openAggregate flow segment timer policy extras).1.isSome
        then Statistic.segments.entry policy.statistics 1
        else Statistic.discardedSegments.entry policy.statistics 1) := by
  unfold openAggregate
  -- Storing raises nothing, so what follows is compared with the counters after it.
  rcases hstore : s.storeFrame segment.frame with ⟨cause | frame, s₁⟩
  all_goals
    have hfirst : s₁.counters = s.counters := congrArg (fun r => r.2.counters) hstore.symm
    rw [← hfirst]
  · exact s₁.count_raised _ _ _
  -- The size goes into the log before the segment is counted, and the log raises nothing either.
  · have hcounted := (s₁.logSize (.ofSegment segment timer frame policy extras)
      segment.headers).2.count_raised policy.statistics .segments 1
    rw [counters_logSize] at hcounted
    simp only [statistics_logSize, Option.isSome_some, if_true]
    exact hcounted

/-- A segment that is appended is counted. -/
theorem appendSegment_raised (p : Pending) (segment : Segment) :
    s.counters.Raised (s.appendSegment p segment).2.counters
      (if (s.appendSegment p segment).1.toOption.isSome
        then Statistic.segments.entry p.statistics 1 else 0) := by
  unfold appendSegment
  rcases hextend : s.extendFrame p.frame segment.frame segment.headers.length with
    ⟨cause | length, s₁⟩
  all_goals
    have hfirst : s₁.counters = s.counters := congrArg (fun r => r.2.counters) hextend.symm
    rw [← hfirst]
  · exact .refl s₁.counters
  · have hcounted := (s₁.logSize (p.grow segment.headers length) segment.headers).2.count_raised
      p.statistics .segments 1
    rw [counters_logSize] at hcounted
    simp only [statistics_logSize, Except.toOption, Option.isSome_some, if_true]
    exact hcounted

/-- The segments of an aggregate that is dropped are counted as lost. -/
theorem abandon_raised (p : Pending) :
    s.counters.Raised (s.abandon p).counters
      (Statistic.discardedSegments.entry p.statistics p.segments) :=
  s.counters.raised_raise _ _

/-- An aggregate that is closed is counted, or its segments are counted as lost. -/
theorem closeAggregate_raised (p : Pending) :
    s.counters.Raised (s.closeAggregate p).2.counters
      (if (s.closeAggregate p).1.isSome then p.takings
        else Statistic.discardedSegments.entry p.statistics p.segments) := by
  rcases htake : s.takeFrame p.frame with ⟨taken, s₁⟩
  have hfirst : s₁.counters = s.counters := congrArg (fun r => r.2.counters) htake.symm
  simp only [closeAggregate, htake]
  rw [← hfirst]
  split
  · exact countAggregate_raised _ p
  · exact s₁.counters.raised_raise _ _

end Services

end ReceiveOffload
