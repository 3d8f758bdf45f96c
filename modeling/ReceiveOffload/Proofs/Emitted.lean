import ReceiveOffload.Proofs.Merged
import ReceiveOffload.Proofs.Seal

/-!
# Emitted Aggregates

What a receiver finds in the frame of an aggregate. One of a single segment is
the frame that arrived. One of several has the headers of the first segment,
made to describe the whole: its payload is that of all the segments, in the
places in the sequence space in which they arrived, and the fields that say
where the connection stands now are those of the last.

`StandsFor` is that list of promises. Two facts carry the proof of it. What was
stored reads as the first segment with padding behind it, so sealing knows where
its fields are, and sealing leaves octets that can be read again. The rest is
comparing what was written with what the segments said.

## Main definitions

* `Frame.payload?`: The payload of a frame that can be read.
* `StandsFor`: What the frame of several merged segments says.
* `Aggregate.Represents`: What is promised of an aggregate.

## Theorems

* `Merged.represents`: Closing a pending aggregate never fails, and what it
  gives represents the segments that were merged.
* `Aggregate.Represents.payload?_eq`: Its payload is that of the segments.
-/

namespace ReceiveOffload

open Octets

/-- The payload of a frame, if its headers can be read. -/
def Frame.payload? (frame : Frame) : Option Octets :=
  match Headers.decode frame with
  | .ok h => some (h.payload frame.octets)
  | .error _ => none

theorem Segment.Genuine.payload?_eq {segment : Segment} (genuine : segment.Genuine) :
    segment.frame.payload? = some segment.payload := by
  rw [Segment.Genuine] at genuine
  simp only [Frame.payload?, genuine, Segment.payload]

/-- What the frame of several merged segments says. -/
structure StandsFor (frame : Frame) (first : Segment) (rest : List Segment) (h : Headers) :
    Prop where
  decodes : Headers.decode frame = .ok h
  unpadded : h.padded = false
  /-- The payloads follow each other. -/
  payload : h.payload frame.octets = ((first :: rest).map Segment.payload).flatten
  /-- Every octet of a segment is where it was in the sequence space. -/
  placed : ∀ before s after, first :: rest = before ++ s :: after →
    ∀ i, i < s.payload.length →
      (h.payload frame.octets)[(before.map Segment.payload).flatten.length + i]?
        = s.payload[i]? ∧
      h.seq + UInt32.ofNat ((before.map Segment.payload).flatten.length + i)
        = s.headers.seq + UInt32.ofNat i
  /-- The length field covers the frame. -/
  covers : ∃ stated, frame.octets.word16? (h.network.toNat + h.version.lengthOffset) = some stated ∧
    h.network.toNat + (h.version.uncounted + stated.toNat) = frame.octets.length
  seq : h.seq = first.headers.seq
  ack : h.ack = (Merged.last first rest).headers.ack
  flags : h.flags = (Merged.last first rest).headers.flags
  window : h.window = (Merged.last first rest).headers.window
  urgent : h.urgent = (Merged.last first rest).headers.urgent
  options : h.rawOptions frame.octets
    = (Merged.last first rest).headers.rawOptions (Merged.last first rest).frame.octets
  /-- The headers are laid out as the first segment's. -/
  layout : h.version = first.headers.version ∧ h.network = first.headers.network ∧
    h.transport = first.headers.transport ∧ h.transportLength = first.headers.transportLength
  link : frame.link = first.frame.link
  /-- All octets of the headers but the rewritten ones are the first
      segment's. -/
  keeps : ∀ j, j < h.length → ¬ h.Rewrites j → frame.octets[j]? = first.frame.octets[j]?

/-- What is promised of an aggregate of the given segments. -/
structure Aggregate.Represents (aggregate : Aggregate) (first : Segment) (rest : List Segment) :
    Prop where
  genuine : ∀ s ∈ first :: rest, s.Genuine
  consecutive : Consecutive (first :: rest)
  segments : aggregate.segments = (first :: rest).length
  alone : rest = [] → aggregate.frame = first.frame
  several : rest ≠ [] → ∃ h, StandsFor aggregate.frame first rest h

/-- The payload of an aggregate is that of its segments. -/
theorem Aggregate.Represents.payload?_eq {aggregate : Aggregate} {first : Segment}
    {rest : List Segment} (r : aggregate.Represents first rest) :
    aggregate.frame.payload? = some ((first :: rest).map Segment.payload).flatten := by
  -- Of one segment it is the frame that arrived, and nothing was sealed.
  rcases rest with _ | ⟨next, rest⟩
  · rw [r.alone rfl, (r.genuine first List.mem_cons_self).payload?_eq, List.map_singleton,
      List.flatten_singleton]
  · rcases r.several (List.cons_ne_nil next rest) with ⟨h, hstands⟩
    simp only [Frame.payload?, hstands.decodes, hstands.payload]

/-- The trailer of a segment has the timestamp of its options. -/
theorem Headers.ReadsFrom.stamped {h : Headers} {frame : Frame} (r : h.ReadsFrom frame) :
    h.trailer.Stamped (h.rawOptions frame.octets) := by
  simp only [Trailer.Stamped, Headers.trailer, r.timestamp, Option.map_map]
  exact ⟨rfl, rfl⟩

/-- The aggregate that is handed out for a stored frame once its octets are
    sealed. -/
def Pending.sealedAs (p : Pending) (h : Headers) (frame : Frame) (octets : Octets) : Aggregate where
  frame := { frame with octets }
  segments := p.segments
  segmentSize := p.largestPayload
  headersLength := UInt16.ofNat h.length
  transport := h.transport
  version := h.version
  checksumComplete := p.segments ≤ 1 || p.extras.fullChecksum

theorem Aggregate.ofStored_alone (frame : Frame) (p : Pending) (h : Headers)
    (hdecode : Headers.decode frame = .ok h) (halone : p.segments ≤ 1) :
    Aggregate.ofStored frame p = .ok (p.sealedAs h frame frame.octets) := by
  simp only [Aggregate.ofStored, hdecode, halone, decide_true, if_true, bind, Except.bind, pure,
    Except.pure, Pending.sealedAs]

theorem Aggregate.ofStored_several (frame : Frame) (p : Pending) (h : Headers) (b : Octets)
    (hdecode : Headers.decode frame = .ok h) (hseveral : ¬ p.segments ≤ 1)
    (hseal : Aggregate.sealOctets h frame.octets p = .ok b) :
    Aggregate.ofStored frame p = .ok (p.sealedAs h frame b) := by
  simp only [Aggregate.ofStored, hdecode, hseveral, decide_false, if_false,
    hseal, bind, Except.bind, pure, Except.pure, Pending.sealedAs]

namespace Merged

variable {first : Segment} {p : Pending} {stored : Frame} {rest : List Segment}

theorem last_mem (first : Segment) (rest : List Segment) : last first rest ∈ first :: rest := by
  -- Either the first segment is the last as well, or the list ends in it.
  rcases List.eq_nil_or_concat rest with rfl | ⟨init, s, rfl⟩
  · exact List.mem_cons_self
  · rw [List.concat_eq_append, last_concat]
    exact List.mem_cons_of_mem _ (List.mem_append_right _ (List.mem_singleton_self s))

/-- Behind the headers, the payloads of all the segments are stored. -/
theorem drop_stored (m : Merged first p stored rest) :
    stored.octets.drop first.headers.length
      = ((first :: rest).map Segment.payload).flatten := by
  have halike := m.alike first List.mem_cons_self
  have hpadded := ((Headers.mergeable_iff _).mp halike.mergeable).2.2.2
  have hfits := halike.genuine.reads.fits
  have hinside := halike.genuine.reads.inside
  rw [m.stored_eq, Frame.append, List.drop_append_of_le_length (by omega), List.map_cons,
    List.flatten_cons, halike.genuine.payload_eq hpadded]

/-- The options of the last segment are the same as the stored ones behind the
    mask. -/
theorem masked_last_eq (m : Merged first p stored rest) :
    TcpOptions.masked
        ((last first rest).headers.rawOptions (last first rest).frame.octets)
      = TcpOptions.masked ((first.headersIn stored.octets).rawOptions stored.octets) := by
  -- The masked options are kept in the headers, where the segments agree.
  have hlast := m.alike (last first rest) (last_mem first rest)
  rw [← hlast.genuine.reads.options, hlast.options, ← m.reads.options]
  rfl

/-- The frame of several segments stands for them once it is sealed. -/
theorem standsFor (m : Merged first p stored rest) (b : Octets)
    (hsealed : (first.headersIn stored.octets).Sealed stored p.trailer b) :
    StandsFor { stored with octets := b } first rest
      ((first.headersIn stored.octets).reread b b.length p.trailer) := by
  have hstored := m.stored_eq
  have hgenuine := (m.alike first List.mem_cons_self).genuine
  have hlast := m.alike (last first rest) (last_mem first rest)
  have hfits := hgenuine.reads.fits
  have hinside := hgenuine.reads.inside
  have hend : (UInt32.ofNat b.length).toNat = b.length := by
    have hmax := m.length_eq.2
    simp only [Frame.length, maxAggregateSize] at hmax
    exact UInt32.toNat_ofNat_of_lt' (by rw [hsealed.length_eq, UInt32.size]; omega)
  -- Behind the headers, sealing leaves what is stored.
  have hpayload : ((first.headersIn stored.octets).reread b b.length p.trailer).payload b
      = ((first :: rest).map Segment.payload).flatten := by
    rw [← m.drop_stored]
    simp only [Headers.payload, Headers.reread, hend, List.take_length]
    ext j : 1
    rw [List.getElem?_drop, List.getElem?_drop]
    exact hsealed.keeps _ (Or.inl (Nat.le_add_right _ _))
  constructor
  case decodes => exact (Headers.decode_eq_ok_iff _ _).mpr hsealed.reads
  case unpadded => simp only [Headers.reread, ne_eq, not_true_eq_false, decide_false]
  case payload => exact hpayload
  case placed =>
    intro before s after hsplit i hi
    have hseq := m.consecutive.seq_eq first rest before after s hsplit
    constructor
    · -- The payload is cut at the segment, and the octet lies in the second part.
      rw [hpayload, hsplit, List.map_append, List.flatten_append,
        List.getElem?_append_right (Nat.le_add_right _ _), Nat.add_sub_cancel_left, List.map_cons,
        List.flatten_cons, List.getElem?_append_left hi]
    · -- Both sides count on from the first segment, around the end if need be.
      rw [hseq, UInt32.ofNat_add, UInt32.add_assoc]
      rfl
  case covers =>
    refine ⟨_, hsealed.stated, ?_⟩
    -- The length was written for the length of the frame, which fits its field.
    have hstated := Headers.statedLength_eq m.reads m.length_eq.2
    exact hstated.trans hsealed.length_eq.symm
  case seq => rfl
  case ack => exact congrArg Trailer.ack m.trailer_eq
  case flags => exact congrArg Trailer.flags m.trailer_eq
  case window => exact congrArg Trailer.window m.trailer_eq
  case urgent => exact congrArg Trailer.urgent m.trailer_eq
  case options =>
    refine hsealed.options _ m.masked_last_eq ?_
    rw [m.trailer_eq]
    exact hlast.genuine.reads.stamped
  case layout => exact ⟨rfl, rfl, rfl, rfl⟩
  case link => rw [hstored]; rfl
  case keeps =>
    intro j hj hfree
    -- Up to its headers' end, what was stored is the first segment's frame.
    have hbefore : j < first.frame.octets.length :=
      Nat.lt_of_lt_of_le hj (Nat.le_trans hfits hinside)
    have hkept := hsealed.keeps j (Or.inr hfree)
    rw [hstored, Frame.append, List.getElem?_append_left hbefore] at hkept
    exact hkept

/-- Closing a pending aggregate never fails, and what it gives represents the
    segments that were merged. -/
theorem represents (m : Merged first p stored rest) :
    ∃ aggregate, Aggregate.ofStored stored p = .ok aggregate ∧
      aggregate.segmentSize = p.largestPayload ∧ aggregate.Represents first rest := by
  have hgenuine : ∀ s ∈ first :: rest, s.Genuine := fun s hs => (m.alike s hs).genuine
  have hsegments := m.segments_eq
  -- Closing reads the stored frame again, however many segments it has.
  have hdecode := Headers.decode_of_readsFrom _ _ m.reads
  by_cases hrest : rest = []
  · subst hrest
    have hstored : stored = first.frame := by
      rw [m.stored_eq]
      simp only [Frame.append, List.map_nil, List.flatten_nil, List.append_nil]
    have halone : p.segments ≤ 1 := Nat.le_of_eq hsegments
    refine ⟨_, Aggregate.ofStored_alone stored p _ hdecode halone, rfl, hgenuine, m.consecutive,
      hsegments, fun _ => hstored, fun hne => absurd rfl hne⟩
  · have hmany : ¬ p.segments ≤ 1 := by
      have hpos := List.length_pos_iff.mpr hrest
      omega
    rcases Headers.sealOctets_sealed m.reads p m.length_eq.2 with ⟨b, hseal, hsealed⟩
    refine ⟨_, Aggregate.ofStored_several stored p _ b hdecode hmany hseal, rfl, hgenuine,
      m.consecutive, hsegments, fun hnil => absurd hnil hrest, fun _ => ⟨_, m.standsFor b hsealed⟩⟩

end Merged

end ReceiveOffload
