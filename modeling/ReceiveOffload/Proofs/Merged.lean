import Mathlib.Algebra.GroupWithZero.Nat
import Mathlib.Data.List.Chain
import ReceiveOffload.Flow.Verdict
import ReceiveOffload.Proofs.Decode

/-!
# Merged Segments

A pending aggregate remembers little of the segments that went into it: their
number, the end of the last one, and the fields that the next one is compared
with. Which segments they were is not kept anywhere, and yet everything that is
promised of an aggregate is a statement about them.

`Merged` brings them back. It is the history of an aggregate as the engine made
it: a segment opened it, and every other one was accepted by a verdict and had
its payload put behind what was stored. The facts that follow are each an
induction over that history, and each is about one thing: what is stored, where
a segment starts, what all segments share, what is taken from the last, and how
large they are.

The sizes are where the verdict leaves room. A segment shorter than another
ends the aggregate, so all but the last are at least as long as the first. They
may be longer.

## Main definitions

* `Segment.Genuine`: The headers are what the frame says.
* `Segment.payload`: The payload of a segment.
* `Merged`: The segments that went into a pending aggregate.
* `Merged.last`: The segment merged last.
* `Consecutive`: Every segment starts where the one before ended.

## Theorems

* `Merged.stored_eq`: The payloads are stored behind the first segment.
* `Merged.length_eq`: The length is known and no larger than a field can say.
* `Merged.consecutive`: The segments are consecutive.
* `Merged.alike`: The segments agree in what only the first one's headers keep.
* `Merged.trailer_eq`: The trailer is the last segment's.
* `Merged.rises`: No segment but the last is shorter than one before it.
-/

namespace ReceiveOffload

namespace Segment

/-- The headers are what the frame says. -/
def Genuine (segment : Segment) : Prop :=
  Headers.decode segment.frame = .ok segment.headers

/-- The octets of TCP payload. -/
def payload (segment : Segment) : Octets :=
  segment.headers.payload segment.frame.octets

/-- The headers of the segment in octets that may go on behind its frame. -/
def headersIn (segment : Segment) (b : Octets) : Headers :=
  { segment.headers with padded := segment.headers.datagramEnd.toNat ≠ b.length }

theorem ofFrame_eq_ok_iff (frame : Frame) (segment : Segment) :
    Segment.ofFrame frame = .ok segment ↔ segment.frame = frame ∧ segment.Genuine := by
  simp only [ofFrame, bind_eq_ok_iff, Genuine, pure, Except.pure, Except.ok.injEq]
  constructor
  · rintro ⟨h, hdecode, rfl⟩
    exact ⟨rfl, hdecode⟩
  · rintro ⟨rfl, hdecode⟩
    exact ⟨segment.headers, hdecode, rfl⟩

variable {segment : Segment}

theorem Genuine.reads (genuine : segment.Genuine) : segment.headers.ReadsFrom segment.frame :=
  (Headers.decode_eq_ok_iff _ _).mp genuine

theorem Genuine.length_payload (genuine : segment.Genuine) :
    segment.payload.length = segment.headers.payloadLength := by
  have hinside := genuine.reads.inside
  simp only [payload, Headers.payload, Headers.payloadLength, List.length_drop, List.length_take]
  omega

/-- A frame that can be read has less payload than a length field can say. -/
theorem Genuine.length_payload_lt (genuine : segment.Genuine) :
    segment.payload.length < 2 ^ 16 := by
  have hbounds := genuine.reads.bounds
  have hmin := genuine.reads.minimum
  have hinside := genuine.reads.inside
  have hmax := genuine.reads.length_le
  simp only [maxFrameLength, ethernetLength, maxTags, tcpLength] at hmax hmin
  rw [genuine.length_payload, Headers.payloadLength, Headers.length]
  omega

/-- Without padding the payload is everything behind the headers. -/
theorem Genuine.payload_eq (genuine : segment.Genuine) (hpadded : segment.headers.padded = false) :
    segment.payload = segment.frame.octets.drop segment.headers.length := by
  -- Not padded means that the datagram ends with the frame.
  have hend := genuine.reads.padded
  rw [hpadded, eq_comm, decide_eq_false_iff_not, not_not] at hend
  rw [payload, Headers.payload, hend, List.take_length]

end Segment

namespace Headers

theorem mergeable_iff (h : Headers) :
    h.mergeable = true ↔ (h.flags = TcpFlag.ack ∨ h.flags = TcpFlag.ack ||| TcpFlag.psh) ∧
      0 < h.payloadLength ∧ h.fragment = false ∧ h.padded = false := by
  simp only [mergeable, decide_eq_true_eq, Bool.not_eq_true]

end Headers

/-- A verdict that appends a segment means that the segment starts where the
    aggregate ends, that it is accepted, and that there is room for it. -/
theorem Pending.appends_iff (p : Pending) (segment : Segment) (policy : Policy) :
    p.verdict segment policy = .merge ∨ p.verdict segment policy = .mergeThenClose ↔
      segment.headers.seq = p.nextSeq ∧ p.accepts segment.headers = true ∧
        p.sizeWith segment ≤ policy.sizeLimit := by
  -- The checks in the order in which the verdict makes them. Past the last one,
  -- whether the aggregate stays open makes no difference here.
  unfold Pending.verdict
  by_cases hseq : segment.headers.seq = p.nextSeq
  case neg => simp only [if_pos hseq, reduceCtorEq, or_self, hseq, false_and]
  rw [if_neg (not_not_intro hseq)]
  by_cases haccepts : p.accepts segment.headers = true
  case neg =>
    simp only [haccepts, not_false_eq_true, if_true, reduceCtorEq, or_self, false_and, and_false]
  rw [if_neg (not_not_intro haccepts)]
  by_cases hsize : policy.sizeLimit < p.sizeWith segment
  case pos => simp only [if_pos hsize, reduceCtorEq, or_self, Nat.not_le.mpr hsize, and_false]
  rw [if_neg hsize]
  have hfits := Nat.not_lt.mp hsize
  by_cases hclosed : p.closedBy segment.headers (p.sizeWith segment) policy = true <;>
    simp [hclosed, hseq, haccepts, hfits]

/-- What a segment has in common with the aggregate that accepts it. -/
theorem Pending.accepts_iff (p : Pending) (h : Headers) :
    p.accepts h = true ↔ (h.timestamp.map Timestamp.value = p.timestamp ∧
      h.length = p.headersLength.toNat ∧ h.traits = p.traits ∧ h.options = p.options) ∧
      p.acksLess h = false ∧ p.complete = false ∧ h.mergeable = true := by
  simp only [accepts, differs, decide_eq_true_eq, not_or, ne_eq, not_not, Bool.not_eq_true]

/-- The size that the verdict looks at is the size that comes out of it. -/
theorem Pending.length_append_eq (p : Pending) (stored : Frame) (segment : Segment)
    (hlength : p.length.toNat = stored.length) (genuine : segment.Genuine) :
    (stored.append (segment.frame.octets.drop segment.headers.length)).length
      = p.sizeWith segment := by
  have hfits := genuine.reads.fits
  have hinside := genuine.reads.inside
  simp only [sizeWith, hlength, Frame.length, Frame.append, List.length_append, List.length_drop]
  omega

/-- The segments that went into a pending aggregate behind its first one, and
    the frame that is stored for it. -/
inductive Merged (first : Segment) : Pending → Frame → List Segment → Prop
  | opened (timer : TimerId) (frame : FrameId) (policy : Policy) (extras : Extras)
      (genuine : first.Genuine) (opens : first.canOpen policy = true) :
      Merged first (.ofSegment first timer frame policy extras) first.frame []
  | grown (p : Pending) (stored : Frame) (rest : List Segment) (segment : Segment)
      (policy : Policy) (merged : Merged first p stored rest) (genuine : segment.Genuine)
      (appends : p.verdict segment policy = .merge ∨ p.verdict segment policy = .mergeThenClose) :
      Merged first
        (p.grow segment.headers
          (stored.append (segment.frame.octets.drop segment.headers.length)).length)
        (stored.append (segment.frame.octets.drop segment.headers.length)) (rest ++ [segment])
  | logged (p : Pending) (stored : Frame) (rest : List Segment)
      (merged : Merged first p stored rest) : Merged first p.logged stored rest

/-- Every segment starts where the one before it ended. -/
def Consecutive (segments : List Segment) : Prop :=
  segments.IsChain fun a b => b.headers.seq = a.headers.seq + UInt32.ofNat a.payload.length

/-- The segments agree in what only the first one's headers keep, and could
    both be merged. -/
structure Segment.Alike (a b : Segment) : Prop where
  genuine : b.Genuine
  mergeable : b.headers.mergeable = true
  timestamp : b.headers.timestamp.map Timestamp.value = a.headers.timestamp.map Timestamp.value
  length : b.headers.length = a.headers.length
  traits : b.headers.traits = a.headers.traits
  options : b.headers.options = a.headers.options

namespace Merged

variable {first : Segment} {p : Pending} {stored : Frame} {rest : List Segment}

/-- The segment merged last. -/
def last (first : Segment) (rest : List Segment) : Segment :=
  rest.getLast?.getD first

@[simp] theorem last_nil (first : Segment) : last first [] = first := rfl

@[simp] theorem last_concat (first : Segment) (rest : List Segment) (segment : Segment) :
    last first (rest ++ [segment]) = segment := by
  rw [last, List.getLast?_concat, Option.getD_some]

theorem segments_eq (m : Merged first p stored rest) : p.segments = rest.length + 1 := by
  induction m with
  | opened => rfl
  | grown p stored rest segment _ _ _ _ ih =>
      rw [List.length_append, List.length_singleton]
      exact congrArg (· + 1) ih
  | logged _ _ _ _ ih => exact ih

/-- What all segments share is what the aggregate remembers of the first. -/
theorem shared_eq (m : Merged first p stored rest) :
    p.timestamp = first.headers.timestamp.map Timestamp.value ∧
      p.headersLength.toNat = first.headers.length ∧ p.traits = first.headers.traits ∧
      p.options = first.headers.options := by
  induction m with
  | opened timer frame policy extras genuine _ =>
      have hbounds := genuine.reads.bounds
      refine ⟨rfl, ?_, rfl, rfl⟩
      exact UInt16.toNat_ofNat_of_lt' (by simp only [Headers.length, UInt16.size]; omega)
  | grown _ _ _ _ _ _ _ _ ih => exact ih
  | logged _ _ _ _ ih => exact ih

/-- The segments agree in what only the first one's headers keep. -/
theorem alike (m : Merged first p stored rest) : ∀ s ∈ first :: rest, first.Alike s := by
  induction m with
  | opened timer frame policy extras genuine opens =>
      simp only [Segment.canOpen, decide_eq_true_eq] at opens
      simp only [List.forall_mem_singleton]
      exact ⟨genuine, opens.2.1, rfl, rfl, rfl, rfl⟩
  | grown p stored rest segment policy m genuine appends ih =>
      rcases (p.appends_iff segment policy).mp appends with ⟨_, haccepts, _⟩
      rcases (p.accepts_iff _).mp haccepts with
        ⟨⟨htimestamp, hlength, htraits, hoptions⟩, _, _, hmergeable⟩
      -- The segment agrees with what the aggregate remembers, which is the first's.
      rcases m.shared_eq with ⟨hptimestamp, hplength, hptraits, hpoptions⟩
      rw [← List.cons_append, List.forall_mem_append, List.forall_mem_singleton]
      exact ⟨ih, genuine, hmergeable, htimestamp.trans hptimestamp, hlength.trans hplength,
        htraits.trans hptraits, hoptions.trans hpoptions⟩
  | logged _ _ _ _ ih => exact ih

/-- No segment that was merged is empty. -/
theorem payload_pos (m : Merged first p stored rest) (s : Segment) (hs : s ∈ first :: rest) :
    0 < s.payload.length := by
  have halike := m.alike s hs
  rw [halike.genuine.length_payload]
  exact ((Headers.mergeable_iff _).mp halike.mergeable).2.1

/-- The payloads of the other segments are stored behind the first one. -/
theorem stored_eq (m : Merged first p stored rest) :
    stored = first.frame.append (rest.map Segment.payload).flatten := by
  induction m with
  | opened => simp only [Frame.append, List.map_nil, List.flatten_nil, List.append_nil]
  | grown p stored rest segment policy m genuine appends ih =>
      rcases (p.appends_iff segment policy).mp appends with ⟨_, haccepts, _⟩
      have hmergeable := ((p.accepts_iff _).mp haccepts).2.2.2
      have hpadded := ((Headers.mergeable_iff _).mp hmergeable).2.2.2
      -- What was appended is the frame behind its headers, and that is the payload.
      rw [← genuine.payload_eq hpadded, ih]
      simp only [Frame.append, List.map_append, List.map_singleton, List.flatten_append,
        List.flatten_singleton, List.append_assoc]
  | logged _ _ _ _ ih => exact ih

/-- The length of what is stored is known, and a length field can say it. -/
theorem length_eq (m : Merged first p stored rest) :
    p.length.toNat = stored.length ∧ stored.length ≤ maxAggregateSize := by
  induction m with
  | opened timer frame policy extras genuine opens =>
      simp only [Segment.canOpen, decide_eq_true_eq] at opens
      have hlimit := policy.sizeLimit_le
      simp only [maxAggregateSize] at hlimit ⊢
      have hlength : (UInt32.ofNat first.frame.length).toNat = first.frame.length :=
        UInt32.toNat_ofNat_of_lt' (by simp only [UInt32.size]; omega)
      exact ⟨hlength, by omega⟩
  | grown p stored rest segment policy m genuine appends ih =>
      rcases (p.appends_iff segment policy).mp appends with ⟨_, _, hsize⟩
      have hlimit := policy.sizeLimit_le
      rw [p.length_append_eq stored segment ih.1 genuine]
      simp only [maxAggregateSize] at hlimit ⊢
      exact ⟨UInt32.toNat_ofNat_of_lt' (by simp only [UInt32.size]; omega), by omega⟩
  | logged _ _ _ _ ih => exact ih

/-- The trailer is the last segment's. -/
theorem trailer_eq (m : Merged first p stored rest) :
    p.trailer = (last first rest).headers.trailer := by
  induction m with
  | opened => rfl
  | grown => rw [last_concat]; rfl
  | logged _ _ _ _ ih => exact ih

/-- The next segment has to start where the last one ended. -/
theorem nextSeq_eq (m : Merged first p stored rest) :
    p.nextSeq = (last first rest).headers.seq
      + UInt32.ofNat (last first rest).payload.length := by
  induction m with
  | opened timer frame policy extras genuine _ =>
      rw [last_nil, genuine.length_payload]
      rfl
  | grown p stored rest segment policy _ genuine _ _ =>
      rw [last_concat, genuine.length_payload]
      rfl
  | logged _ _ _ _ ih => exact ih

/-- The segments are consecutive. -/
theorem consecutive (m : Merged first p stored rest) : Consecutive (first :: rest) := by
  induction m with
  | opened => exact List.isChain_singleton _
  | grown p stored rest segment policy m genuine appends ih =>
      rcases (p.appends_iff segment policy).mp appends with ⟨hseq, _, _⟩
      rw [m.nextSeq_eq] at hseq
      rw [Consecutive, ← List.cons_append, List.isChain_append]
      refine ⟨ih, List.isChain_singleton _, ?_⟩
      intro a ha b hb
      -- The one link that is new goes from the last segment so far to this one.
      have hlast : a = last first rest := by
        rw [Option.mem_def, List.getLast?_cons, Option.some.injEq] at ha
        exact ha.symm
      simp only [List.head?_cons, Option.mem_def, Option.some.injEq] at hb
      rw [← hb, hlast, hseq]
  | logged _ _ _ _ ih => exact ih

/-- The largest payload is known, and one of the segments has it. -/
theorem largest_eq (m : Merged first p stored rest) :
    (∀ s ∈ first :: rest, s.payload.length ≤ p.largestPayload.toNat) ∧
      ∃ s ∈ first :: rest, s.payload.length = p.largestPayload.toNat := by
  induction m with
  | opened timer frame policy extras genuine _ =>
      have hlargest : (UInt16.ofNat first.headers.payloadLength).toNat = first.payload.length := by
        rw [← genuine.length_payload]
        exact UInt16.toNat_ofNat_of_lt' genuine.length_payload_lt
      simp only [List.mem_singleton, forall_eq, exists_eq_left]
      exact ⟨Nat.le_of_eq hlargest.symm, hlargest.symm⟩
  | grown p stored rest segment policy m genuine appends ih =>
      rcases ih with ⟨hle, s, hs, heq⟩
      have hpayload : (UInt16.ofNat segment.headers.payloadLength).toNat
          = segment.payload.length := by
        rw [← genuine.length_payload]
        exact UInt16.toNat_ofNat_of_lt' genuine.length_payload_lt
      simp only [Pending.grow, ← List.cons_append, List.forall_mem_append,
        List.forall_mem_singleton, UInt16.lt_iff_toNat_lt, hpayload]
      -- Either the new segment is the largest, or what was the largest still is.
      by_cases hgrows : p.largestPayload.toNat < segment.payload.length
      · rw [if_pos hgrows, hpayload]
        refine ⟨⟨fun t ht => ?_, Nat.le_refl _⟩, segment, List.mem_append_right _ ?_, rfl⟩
        · exact Nat.le_trans (hle t ht) (Nat.le_of_lt hgrows)
        · exact List.mem_singleton_self segment
      · rw [if_neg hgrows]
        exact ⟨⟨hle, Nat.not_lt.mp hgrows⟩, s, List.mem_append_left _ hs, heq⟩
  | logged _ _ _ _ ih => exact ih

/-- While the aggregate is open to more, no segment is shorter than one before it,
    and once it is not, only the last one may be. -/
theorem rises (m : Merged first p stored rest) :
    (p.complete = false →
        (first :: rest).Pairwise fun s t => s.payload.length ≤ t.payload.length) ∧
      (first :: rest).dropLast.Pairwise fun s t => s.payload.length ≤ t.payload.length := by
  induction m with
  | opened => simp
  | grown p stored rest segment policy m genuine appends ih =>
      rcases (p.appends_iff segment policy).mp appends with ⟨_, haccepts, _⟩
      have hopen := ((p.accepts_iff _).mp haccepts).2.2.1
      have hsoFar := ih.1 hopen
      rw [← List.cons_append, List.dropLast_concat]
      refine ⟨fun hstill => ?_, hsoFar⟩
      refine List.pairwise_append.mpr ⟨hsoFar, List.pairwise_singleton _ _, fun s hs t ht => ?_⟩
      rw [List.mem_singleton.mp ht]
      -- Nothing is shorter than the largest so far, which no segment is above.
      have hlargest := m.largest_eq.1 s hs
      simp only [Pending.grow, hopen, Bool.false_or, decide_eq_false_iff_not,
        UInt16.lt_iff_toNat_lt] at hstill
      rw [← genuine.length_payload, UInt16.toNat_ofNat_of_lt' genuine.length_payload_lt] at hstill
      omega
  | logged _ _ _ _ ih => exact ih

/-- What is stored reads as the first segment, with the other payloads for
    padding. -/
theorem reads (m : Merged first p stored rest) :
    (first.headersIn stored.octets).ReadsFrom stored := by
  have hlength := m.length_eq.2
  have hgenuine := (m.alike first List.mem_cons_self).genuine
  -- Reading allows frames that are longer than an aggregate may become.
  rw [m.stored_eq] at hlength ⊢
  simp only [Frame.length, Frame.append, List.length_append, maxAggregateSize] at hlength
  have hread := hgenuine.reads.append (rest.map Segment.payload).flatten
    (by simp only [maxFrameLength, ethernetLength, maxTags]; omega)
  simpa only [Segment.headersIn, Frame.append, List.length_append] using hread

end Merged

/-- A segment starts behind the payloads of those before it. -/
theorem Consecutive.seq_eq (first : Segment) (rest before after : List Segment) (s : Segment)
    (h : Consecutive (first :: rest)) (hsplit : first :: rest = before ++ s :: after) :
    s.headers.seq
      = first.headers.seq + UInt32.ofNat (before.map Segment.payload).flatten.length := by
  -- The segments before `s` are gone through from the front, and what follows the
  -- first of them is consecutive again.
  induction before generalizing first rest with
  | nil =>
      rw [List.nil_append, List.cons.injEq] at hsplit
      rw [hsplit.1, List.map_nil, List.flatten_nil, List.length_nil]
      exact (UInt32.add_zero _).symm
  | cons b before ih =>
      rw [List.cons_append, List.cons.injEq] at hsplit
      rcases hsplit with ⟨rfl, hrest⟩
      rcases rest with _ | ⟨next, rest⟩
      · exact absurd hrest.symm (List.append_ne_nil_of_right_ne_nil _ (List.cons_ne_nil _ _))
      · rw [Consecutive, List.isChain_cons_cons] at h
        rw [ih next rest h.2 hrest, h.1, List.map_cons, List.flatten_cons, List.length_append,
          UInt32.ofNat_add, UInt32.add_assoc]

end ReceiveOffload
