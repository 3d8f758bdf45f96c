import Mathlib.Algebra.BigOperators.Group.List.Basic
import ReceiveOffload.Proofs.Rosters

/-!
# What Is Remembered of an Aggregate

A pending aggregate keeps a summary of its segments and not the segments. The
summary is exact: each of its fields is what would be worked out from the
segments if they were still there, and what is stored is the first of them with
the payloads of the others behind it. Lengths are kept in narrow fields and
sequence numbers go around, and neither loses anything, since a frame that can be
read is small and what was merged is no larger than an aggregate may be.

Segments shorter than others are where the summary decides what may come next.
Only the last one can be shorter than one before it, and if it is, nothing more
is merged.

## Main definitions

* `Pending.Summarizes`: What is remembered is true of the segments.

## Theorems

* `Merged.summarizes`: It is true of the segments that were merged.
* `pending_summarizes`: In every run the merged segments are those of the roster.
-/

namespace ReceiveOffload

/-- What is remembered of an aggregate is true of its segments, and the frame that
    is stored for it is made of them. -/
structure Pending.Summarizes (p : Pending) (first : Segment) (rest : List Segment)
    (stored : Frame) : Prop where
  segments : p.segments = (first :: rest).length
  /-- The next segment starts behind all payloads. -/
  nextSeq : p.nextSeq = first.headers.seq
    + UInt32.ofNat ((first :: rest).map Segment.payload).flatten.length
  /-- The largest payload is that of a segment, and none is larger. -/
  largest : (∀ s ∈ first :: rest, s.payload.length ≤ p.largestPayload.toNat) ∧
    ∃ s ∈ first :: rest, s.payload.length = p.largestPayload.toNat
  lastAck : p.lastAck = (Merged.last first rest).headers.ack
  trailer : p.trailer = (Merged.last first rest).headers.trailer
  /-- All segments have the fields that only the first one's headers keep. -/
  shared : ∀ s ∈ first :: rest, s.headers.timestamp.map Timestamp.value = p.timestamp ∧
    s.headers.length = p.headersLength.toNat ∧ s.headers.traits = p.traits ∧
    s.headers.ecn = p.traits.ecn ∧ s.headers.options = p.options
  /-- No segment acknowledges less than the one before it: it is less than half a
      turn ahead. -/
  acks : (first :: rest).IsChain fun a b => (b.headers.ack - a.headers.ack).toNat < 2 ^ 31
  length : p.length.toNat = first.frame.length + (rest.map Segment.payload).flatten.length
  stored_eq : stored = first.frame.append (rest.map Segment.payload).flatten
  /-- Nothing may follow a segment that is shorter than an earlier one. -/
  complete : p.complete = true ↔ ∃ s ∈ (first :: rest).dropLast,
    (Merged.last first rest).payload.length < s.payload.length
  /-- And nothing does. -/
  closed : p.complete = true → ∀ segment policy, p.verdict segment policy ≠ .merge ∧
    p.verdict segment policy ≠ .mergeThenClose
  mergeable : ∀ s ∈ first :: rest, s.Genuine ∧ s.headers.mergeable = true
  /-- The fields are wide enough for what is written to them. -/
  fits : (∀ s ∈ first :: rest, s.payload.length = s.headers.payloadLength ∧
    s.headers.payloadLength < 2 ^ 16 ∧ s.headers.length < 2 ^ 16) ∧
    p.segments < 2 ^ 16 ∧ stored.length < 2 ^ 16

namespace Merged

variable {first : Segment} {p : Pending} {stored : Frame} {rest : List Segment}

/-- What was acknowledged last is what the last segment acknowledges. -/
theorem lastAck_eq (m : Merged first p stored rest) :
    p.lastAck = (last first rest).headers.ack := by
  induction m with
  | opened => rfl
  | grown => rw [last_concat]; rfl
  | logged _ _ _ _ ih => exact ih

/-- No segment acknowledges less than the one before it. -/
theorem acks (m : Merged first p stored rest) :
    (first :: rest).IsChain fun a b => (b.headers.ack - a.headers.ack).toNat < 2 ^ 31 := by
  induction m with
  | opened => exact List.isChain_singleton _
  | grown p stored rest segment policy m genuine appends ih =>
      rcases (p.appends_iff segment policy).mp appends with ⟨_, haccepts, _⟩
      have hack := ((p.accepts_iff _).mp haccepts).2.1
      rw [Pending.acksLess, decide_eq_false_iff_not, Nat.not_le, m.lastAck_eq] at hack
      rw [← List.cons_append, List.isChain_append]
      refine ⟨ih, List.isChain_singleton _, ?_⟩
      intro a ha b hb
      -- The new link is between the last segment so far and this one.
      have hlast : a = last first rest := by
        rw [Option.mem_def, List.getLast?_cons, Option.some.injEq] at ha
        exact ha.symm
      simp only [List.head?_cons, Option.mem_def, Option.some.injEq] at hb
      rw [← hb, hlast]
      exact hack
  | logged _ _ _ _ ih => exact ih

/-- The segments end in the last one. -/
theorem dropLast_append_last (first : Segment) (rest : List Segment) :
    (first :: rest).dropLast ++ [last first rest] = first :: rest := by
  rcases List.eq_nil_or_concat rest with rfl | ⟨init, s, rfl⟩
  · rfl
  · rw [List.concat_eq_append, last_concat, ← List.cons_append, List.dropLast_concat]

/-- The next segment has to start behind all payloads. -/
theorem nextSeq_eq_total (m : Merged first p stored rest) :
    p.nextSeq = first.headers.seq
      + UInt32.ofNat ((first :: rest).map Segment.payload).flatten.length := by
  have hsplit := dropLast_append_last first rest
  rw [m.nextSeq_eq, m.consecutive.seq_eq first rest _ [] _ hsplit.symm, UInt32.add_assoc,
    ← UInt32.ofNat_add]
  -- What comes before the last segment and the last segment are all of them.
  have hlength : ((first :: rest).map Segment.payload).flatten.length
      = ((first :: rest).dropLast.map Segment.payload).flatten.length
        + (last first rest).payload.length := by
    rw [← List.length_append, ← List.flatten_singleton (l := (last first rest).payload),
      ← List.flatten_append, ← List.map_singleton, ← List.map_append, hsplit]
  rw [hlength]

/-- An aggregate is complete if and only if the last segment is shorter than an
    earlier one. -/
theorem complete_iff (m : Merged first p stored rest) :
    p.complete = true ↔ ∃ s ∈ (first :: rest).dropLast,
      (last first rest).payload.length < s.payload.length := by
  induction m with
  | opened => simp [Pending.ofSegment]
  | grown p stored rest segment policy m genuine appends ih =>
      rcases (p.appends_iff segment policy).mp appends with ⟨_, haccepts, _⟩
      have hopen := ((p.accepts_iff _).mp haccepts).2.2.1
      have hpayload := genuine.length_payload
      have hfits := genuine.length_payload_lt
      rw [hpayload] at hfits
      rw [last_concat, ← List.cons_append, List.dropLast_concat, hpayload]
      simp only [Pending.grow, hopen, Bool.false_or, decide_eq_true_eq, UInt16.lt_iff_toNat_lt,
        UInt16.toNat_ofNat_of_lt' hfits]
      -- To be shorter than some segment is to be shorter than the largest.
      rcases m.largest_eq with ⟨hle, largest, hmem, heq⟩
      constructor
      · intro hlt
        exact ⟨largest, hmem, heq ▸ hlt⟩
      · rintro ⟨s, hs, hlt⟩
        exact Nat.lt_of_lt_of_le hlt (hle s hs)
  | logged _ _ _ _ ih => exact ih

/-- Every segment has a payload, so there are no more segments than octets. -/
theorem segments_le (m : Merged first p stored rest) : p.segments ≤ stored.length := by
  have hrest : rest.length ≤ (rest.map Segment.payload).flatten.length := by
    rw [List.length_flatten, List.map_map, ← List.length_map (f := List.length ∘ Segment.payload)]
    refine List.length_le_sum_of_one_le _ ?_
    intro n hn
    rcases List.mem_map.mp hn with ⟨s, hs, rfl⟩
    exact m.payload_pos s (List.mem_cons_of_mem _ hs)
  have hfirst : 1 ≤ first.frame.octets.length := by
    have hgenuine := (m.alike first List.mem_cons_self).genuine
    have hinside := hgenuine.reads.inside
    have hpos := m.payload_pos first List.mem_cons_self
    rw [hgenuine.length_payload, Headers.payloadLength] at hpos
    omega
  rw [m.segments_eq, m.stored_eq]
  simp only [Frame.length, Frame.append, List.length_append]
  omega

/-- What is remembered is true of the segments that were merged. -/
theorem summarizes (m : Merged first p stored rest) : p.Summarizes first rest stored := by
  have halike := m.alike
  rcases m.length_eq with ⟨hlength, hmax⟩
  rw [maxAggregateSize] at hmax
  constructor
  case segments => exact m.segments_eq
  case nextSeq => exact m.nextSeq_eq_total
  case largest => exact m.largest_eq
  case lastAck => exact m.lastAck_eq
  case trailer => exact m.trailer_eq
  case shared =>
    intro s hs
    rcases m.shared_eq with ⟨htimestamp, hheaders, htraits, hoptions⟩
    have hs := halike s hs
    refine ⟨hs.timestamp.trans htimestamp.symm, hs.length.trans hheaders.symm,
      hs.traits.trans htraits.symm, ?_, hs.options.trans hoptions.symm⟩
    rw [Headers.ecn, hs.traits, htraits]
  case acks => exact m.acks
  case length =>
    rw [hlength, m.stored_eq]
    exact List.length_append
  case stored_eq => exact m.stored_eq
  case complete => exact m.complete_iff
  case closed =>
    intro hcomplete segment policy
    rw [← not_or]
    intro happends
    rcases (p.appends_iff segment policy).mp happends with ⟨_, haccepts, _⟩
    have hopen := ((p.accepts_iff _).mp haccepts).2.2.1
    rw [hcomplete] at hopen
    cases hopen
  case mergeable => exact fun s hs => ⟨(halike s hs).genuine, (halike s hs).mergeable⟩
  case fits =>
    refine ⟨?_, ?_, ?_⟩
    · intro s hs
      have hgenuine := (halike s hs).genuine
      have hbounds := hgenuine.reads.bounds
      refine ⟨hgenuine.length_payload, hgenuine.length_payload ▸ hgenuine.length_payload_lt, ?_⟩
      simp only [Headers.length]
      omega
    · have hle := m.segments_le
      omega
    · omega

end Merged

/-- In every run, whatever storage and timers do, what is remembered of a pending
    aggregate is true of the segments in the roster, and none of them asked to be
    handed on at once. -/
theorem pending_summarizes (setup : Setup) (trials : List Trial) (flow : UInt64) (p : Pending)
    (hstores : (Roster.run setup trials).world.stores < 2 ^ 64)
    (hp : (Roster.run setup trials).world.engine.pending flow = some p) :
    ∃ first rest stored, (Roster.run setup trials).members flow = first :: rest ∧
      (Roster.run setup trials).world.engine.services.stored? p.frame = some stored ∧
      p.Summarizes first rest stored ∧ ∀ s ∈ first :: rest, s.headers.pushes = false := by
  have hkept := Roster.kept_run setup trials hstores
  have hheld := hkept.held flow
  rw [hp] at hheld
  rcases hheld with ⟨first, rest, stored, hmembers, hstored, m⟩
  refine ⟨first, rest, stored, hmembers, hstored, m.summarizes, ?_⟩
  rw [← hmembers]
  exact hkept.unpushed flow

/-- Two segments wait, the second one shorter, and another flow was refused
    storage in between. -/
def shortened : List Trial := [
  .step (.offer 7 (plainFrame 1 [1, 2]) plainPolicy {}),
  .refuse { store := [0] },
  .step (.offer 8 (plainFrame 1 [9]) plainPolicy {}),
  .step (.offer 7 (plainFrame 3 [3]) plainPolicy {})
]

theorem pending_summarizes_shortened :
    (Roster.run {} shortened).world.stores < 2 ^ 64 ∧
      ∃ p, (Roster.run {} shortened).world.engine.pending 7 = some p ∧
        p.segments = 2 ∧ p.complete = true ∧
        ∃ first rest stored, (Roster.run {} shortened).members 7 = first :: rest ∧
          (Roster.run {} shortened).world.engine.services.stored? p.frame = some stored ∧
          p.Summarizes first rest stored ∧ ∀ s ∈ first :: rest, s.headers.pushes = false := by
  have hstores : (Roster.run {} shortened).world.stores < 2 ^ 64 := by decide +kernel
  have hfields : ((Roster.run {} shortened).world.engine.pending 7).map
      (fun p => (p.segments, p.complete)) = some (2, true) := by decide +kernel
  rcases Option.map_eq_some_iff.mp hfields with ⟨p, hp, hfields⟩
  rw [Prod.mk.injEq] at hfields
  exact ⟨hstores, p, hp, hfields.1, hfields.2, pending_summarizes {} shortened 7 p hstores hp⟩

end ReceiveOffload
