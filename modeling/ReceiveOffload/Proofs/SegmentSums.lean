import ReceiveOffload.Proofs.Measures
import ReceiveOffload.Proofs.Residues
import ReceiveOffload.Proofs.Twins

/-!
# The Checksum of a TCP Segment

A TCP checksum covers the segment and a pseudo-header, and a receiver adds up all of
it, checksum included, and looks for `0xFFFF`. An aggregate leaves in one of two
states. Either the checksum is complete and a receiver would find that, or the field
holds the sum over the pseudo-header and somebody further on is to complete it.

Whoever does that knows nothing of TCP. The virtio header says where the checksummed
octets start and where the checksum lies, and the rule is to sum up all of them, with
the field as it is, and to write the complement. That gives the complete checksum,
since the pseudo-header was put into the field beforehand. It was folded, where the
engine would have gone on with the total, and that makes no difference.

Both states are compared by way of a third: the octets with the field cleared, which
both have in common.

## Main definitions

* `OnesComplement.pseudoTotal`: What the pseudo-header adds to the sum.
* `Headers.Verifies`: A receiver finds the checksum right.
* `Headers.Prepared`: The checksum is left to a consumer.
* `Aggregate.completed?`: What a consumer makes of an aggregate.
* `Headers.Announced`: A consumer is told what the frame says.

## Theorems

* `Headers.checksumOf_eq`: The checksum that octets should have.
* `Headers.Measures.verifies`, `Headers.Measures.prepared`: The two states.
* `Aggregate.Twins.completed`: A consumer makes the second of the first.
* `Closing.announced`: What a consumer is told of an aggregate of several segments.
-/

namespace ReceiveOffload

open Octets

namespace OnesComplement

/-- What the pseudo-header adds to the sum over a TCP segment of the given length: both
    addresses, the protocol and the length. -/
def pseudoTotal (source destination : Octets) (length : Nat) : Nat :=
  wordSum source + wordSum destination + IpHeader.tcpProtocol.toNat + length

/-- The octets of the pseudo-header are added up four at a time. -/
theorem fold_pseudoSum (source destination : Octets) (length more : Nat) :
    fold (pseudoSum IpHeader.tcpProtocol source destination length + more)
      = fold (pseudoTotal source destination length + more) := by
  rcases accumulate_eq source 0 with ⟨carries, _, hsource⟩
  rcases accumulate_eq destination (accumulate source 0) with ⟨carries', _, hdestination⟩
  rw [hsource] at hdestination
  have hprotocol : IpHeader.tcpProtocol.toNat = 6 := rfl
  rw [pseudoSum, pseudoTotal, hsource, hdestination, hprotocol, fold_eq_iff]
  omega

end OnesComplement

namespace Headers

variable {h : Headers} {frame : Frame}

/-- A receiver finds the checksum right: the pseudo-header and the segment make all
    ones. -/
def Verifies (h : Headers) (b : Octets) : Prop :=
  ∃ source destination, h.addresses b = .ok (source, destination) ∧
    OnesComplement.fold (OnesComplement.pseudoTotal source destination
      (b.length - h.transport.toNat) + wordSum (b.drop h.transport.toNat)) = 0xFFFF

/-- The checksum is left to a consumer: the field holds the sum over the
    pseudo-header. -/
def Prepared (h : Headers) (b : Octets) : Prop :=
  ∃ source destination, h.addresses b = .ok (source, destination) ∧
    b.word16? h.checksumOffset = some (OnesComplement.fold
      (OnesComplement.pseudoTotal source destination (b.length - h.transport.toNat)))

/-- The checksum that octets should have, complete and not, with what it is made of:
    the addresses, and the octets with the field cleared. -/
theorem checksumOf_eq (r : h.ReadsFrom frame) (b : Octets)
    (hlen : b.length = frame.octets.length) :
    ∃ source destination cleared, h.addresses b = .ok (source, destination) ∧
      b.overwrite? h.checksumOffset (ofWord16 0) = some cleared ∧
      h.checksumOf b true = .ok (~~~ OnesComplement.fold
        (OnesComplement.pseudoTotal source destination (b.length - h.transport.toNat)
          + wordSum (cleared.drop h.transport.toNat))) ∧
      h.checksumOf b false = .ok (OnesComplement.fold
        (OnesComplement.pseudoTotal source destination (b.length - h.transport.toNat))) := by
  rcases addresses_eq r b (hlen ▸ r.length_le_frame) with ⟨source, destination, haddresses⟩
  rcases exists_cleared r b hlen with ⟨cleared, hcleared, _, htcp⟩
  refine ⟨source, destination, cleared, haddresses, hcleared, ?_, ?_⟩
  · simp only [checksumOf, haddresses, setTcpChecksum, applyPatches, hcleared, Written.result,
      htcp, OnesComplement.sum_eq, OnesComplement.fold_pseudoSum, bind, Except.bind, pure,
      Except.pure, if_true]
  · have hfolded := OnesComplement.fold_pseudoSum source destination
      (b.length - h.transport.toNat) 0
    simp only [Nat.add_zero] at hfolded
    simp only [checksumOf, haddresses, OnesComplement.sum_eq, wordSum, Nat.add_zero, hfolded, bind,
      Except.bind, pure, Except.pure, Bool.false_eq_true, if_false]

/-- What the checksum adds to the sum over the segment is itself. -/
theorem wordSum_segment (h : Headers) (b cleared : Octets) (checksum : UInt16)
    (hchecksum : b.word16? h.checksumOffset = some checksum)
    (hcleared : b.overwrite? h.checksumOffset (ofWord16 0) = some cleared) :
    wordSum (b.drop h.transport.toNat)
      = wordSum (cleared.drop h.transport.toNat) + checksum.toNat := by
  have hroom := le_length_of_word16? _ _ _ hchecksum
  have hlength := length_overwrite _ _ _ _ hcleared
  -- The field lies sixteen octets into the segment, which is an even number of them.
  have hinner := overwrite_take_drop _ _ _ b.length _ _ hcleared
    (by simp only [length_ofWord16, tcpChecksumOffset, checksumOffset] at hroom ⊢; omega)
  rw [List.take_length, ← hlength, List.take_length] at hinner
  have hfield : word16? (b.drop h.transport.toNat) tcpChecksumOffset = some checksum := by
    rw [word16?_drop]
    exact hchecksum
  have hsum := wordSum_overwrite _ _ tcpChecksumOffset checksum 0 (by decide) hfield hinner
  simp only [UInt16.toNat_zero, Nat.add_zero] at hsum
  exact hsum.symm

/-- A complete checksum is found right. -/
theorem Measures.verifies (measures : h.Measures frame true) (r : h.ReadsFrom frame) :
    h.Verifies frame.octets := by
  rcases checksumOf_eq r frame.octets rfl with
    ⟨source, destination, cleared, haddresses, hcleared, hcomplete, _⟩
  rcases measures.checksum with ⟨checksum, hmade, hchecksum⟩
  rw [hcomplete, Except.ok.injEq] at hmade
  refine ⟨source, destination, haddresses, ?_⟩
  rw [wordSum_segment h _ _ _ hchecksum hcleared, ← hmade, ← Nat.add_assoc]
  exact OnesComplement.fold_add_complement _

theorem Measures.prepared (measures : h.Measures frame false) (r : h.ReadsFrom frame) :
    h.Prepared frame.octets := by
  rcases checksumOf_eq r frame.octets rfl with
    ⟨source, destination, _, haddresses, _, _, hpartial⟩
  rcases measures.checksum with ⟨checksum, hmade, hchecksum⟩
  rw [hpartial, Except.ok.injEq] at hmade
  exact ⟨source, destination, haddresses, by rw [hchecksum, hmade]⟩

/-- What a consumer is told is what the frame says: where the TCP header starts, where
    its checksum lies among the headers, how long these are and of which version. -/
structure Announced (h : Headers) (aggregate : Aggregate) (full : Bool) : Prop where
  flags : aggregate.virtioHeader.flags
    = if full then VirtioHeader.dataValid else VirtioHeader.needsChecksum
  start : aggregate.virtioHeader.checksumStart = h.transport
  offset : aggregate.virtioHeader.checksumStart.toNat
    + aggregate.virtioHeader.checksumOffset.toNat = h.checksumOffset
  room : aggregate.virtioHeader.checksumStart.toNat
    + aggregate.virtioHeader.checksumOffset.toNat + 2
      ≤ aggregate.virtioHeader.headersLength.toNat
  headersLength : aggregate.virtioHeader.headersLength.toNat = h.length
  inside : aggregate.virtioHeader.headersLength.toNat ≤ aggregate.frame.octets.length
  kind : aggregate.virtioHeader.segmentKind
    = match h.version with
      | .v4 => VirtioHeader.kindTcpV4
      | .v6 => VirtioHeader.kindTcpV6

end Headers

/-- What a consumer makes of octets by a virtio header: if the checksum is left to it, it
    sums up everything from where the checksummed octets start, and writes the
    complement where the checksum lies. -/
def VirtioHeader.complete? (header : VirtioHeader) (b : Octets) : Option Octets :=
  if header.flags &&& needsChecksum = 0 then some b
  else b.overwrite? (header.checksumStart.toNat + header.checksumOffset.toNat)
    (ofWord16 (~~~ OnesComplement.sum (b.drop header.checksumStart.toNat) 0))

/-- What a consumer makes of an aggregate. -/
def Aggregate.completed? (aggregate : Aggregate) : Option Frame :=
  (aggregate.virtioHeader.complete? aggregate.frame.octets).map fun octets =>
    { aggregate.frame with octets }

/-- Where the headers lie is all that the checksum takes of them. -/
theorem Headers.checksumOf_congr {h h' : Headers} (hversion : h'.version = h.version)
    (hnetwork : h'.network = h.network) (htransport : h'.transport = h.transport) (b : Octets)
    (full : Bool) : h'.checksumOf b full = h.checksumOf b full := by
  simp only [checksumOf, addresses, addressField, setTcpChecksum, checksumOffset, tcpOctets,
    hversion, hnetwork, htransport]

/-- Twins differ by the checksum, and so does the one from the other with its checksum
    written over. -/
theorem Aggregate.Twins.overwrite {a b : Aggregate} (twins : a.Twins b) (checksum : UInt16)
    (hchecksum : b.frame.octets.word16? (a.transport.toNat + tcpChecksumOffset) = some checksum) :
    a.frame.octets.overwrite? (a.transport.toNat + tcpChecksumOffset) (ofWord16 checksum)
      = some b.frame.octets := by
  have hroom := le_length_of_word16? _ _ _ hchecksum
  rcases exists_overwrite a.frame.octets (ofWord16 checksum)
    (a.transport.toNat + tcpChecksumOffset)
    (by rw [length_ofWord16, ← twins.length]; exact hroom) with ⟨c, hc⟩
  rw [hc, Option.some.injEq]
  ext j : 1
  rw [getElem?_overwrite _ _ _ _ _ hc, length_ofWord16]
  by_cases hj : a.transport.toNat + tcpChecksumOffset ≤ j ∧
      j < a.transport.toNat + tcpChecksumOffset + 2
  · rw [if_pos hj, ← holdsAt_of_word16? _ _ _ hchecksum _
      (by rw [length_ofWord16]; omega)]
    congr 1
    omega
  · rw [if_neg hj, twins.octets j (by omega) (by omega)]

/-- Twins come to the same checksum, and so a consumer makes of an aggregate the frame
    of its twin with a complete one. -/
theorem Aggregate.Twins.completed {a b : Aggregate} {h h' : Headers} {full : Bool}
    (twins : a.Twins b) (reads : h.ReadsFrom a.frame) (announced : h.Announced a full)
    (htransport : a.transport = h.transport) (measures : h.Measures a.frame full)
    (measures' : h'.Measures b.frame true)
    (layout : h'.version = h.version ∧ h'.network = h.network ∧ h'.transport = h.transport) :
    a.completed? = some b.frame := by
  rcases Headers.checksumOf_eq reads a.frame.octets rfl with
    ⟨source, destination, cleared, haddresses, hcleared, hcomplete, hpartial⟩
  rcases Headers.checksumOf_eq reads b.frame.octets twins.length with
    ⟨source', destination', cleared', haddresses', hcleared', hcomplete', _⟩
  rcases measures.checksum with ⟨checksum, hmade, hchecksum⟩
  rcases measures'.checksum with ⟨checksum', hmade', hchecksum'⟩
  rw [Headers.checksumOf_congr layout.1 layout.2.1 layout.2.2, hcomplete', Except.ok.injEq]
    at hmade'
  have hoffset : h'.checksumOffset = h.checksumOffset := by
    rw [Headers.checksumOffset, layout.2.2, Headers.checksumOffset]
  rw [hoffset] at hchecksum'
  -- The twin has the same addresses, and the same octets once the field is cleared.
  have hwritten : a.frame.octets.overwrite? h.checksumOffset (ofWord16 checksum')
      = some b.frame.octets := by
    rw [Headers.checksumOffset, ← htransport]
    exact twins.overwrite checksum' (by rw [htransport]; exact hchecksum')
  rw [Headers.addresses_overwrite reads _ _ _ hwritten, haddresses, Except.ok.injEq,
    Prod.mk.injEq] at haddresses'
  rw [overwrite_overwrite _ _ _ (ofWord16 0) _ hwritten rfl, hcleared, Option.some.injEq]
    at hcleared'
  rw [← haddresses'.1, ← haddresses'.2, ← hcleared', twins.length] at hmade'
  have hframe : { a.frame with octets := b.frame.octets } = b.frame :=
    (congrArg Aggregate.frame twins.same).symm
  cases full with
  | true =>
      -- Nothing is left to do, and both have the one complete checksum.
      rw [hcomplete, hmade', Except.ok.injEq] at hmade
      rw [hmade, overwrite_self _ _ _ hchecksum, Option.some.injEq] at hwritten
      have hdone : a.virtioHeader.flags &&& VirtioHeader.needsChecksum = 0 := by
        rw [announced.flags]
        decide
      rw [completed?, VirtioHeader.complete?, if_pos hdone, Option.map_some, hwritten, hframe]
  | false =>
      rw [hpartial, Except.ok.injEq] at hmade
      -- What the consumer sums up has the pseudo-header in it, folded.
      have hsummed : ~~~ OnesComplement.sum (a.frame.octets.drop h.transport.toNat) 0
          = checksum' := by
        rw [OnesComplement.sum_eq, Nat.zero_add,
          Headers.wordSum_segment h _ _ _ hchecksum hcleared, ← hmade,
          OnesComplement.fold_add_fold, Nat.add_comm, hmade']
      have hneeds : ¬ a.virtioHeader.flags &&& VirtioHeader.needsChecksum = 0 := by
        rw [announced.flags]
        decide
      rw [completed?, VirtioHeader.complete?, if_neg hneeds, announced.offset, announced.start,
        hsummed, hwritten, Option.map_some, hframe]

/-- What a consumer is told of an aggregate of several segments is what its frame
    says. -/
theorem Closing.announced {aggregate : Aggregate} {members : List Segment}
    (closing : Closing aggregate members) (hseveral : 2 ≤ aggregate.segments) :
    ∃ first rest h, members = first :: rest ∧ StandsFor aggregate.frame first rest h ∧
      h.Announced aggregate aggregate.checksumComplete ∧ aggregate.transport = h.transport := by
  rcases closing.sealed hseveral with
    ⟨first, rest, p, stored, b, rfl, m, hmany, _, sealing, rfl⟩
  have hbounds := m.reads.bounds
  have hmin := m.reads.minimum
  have hfits := m.reads.fits
  have hinside := m.reads.inside
  simp only [tcpLength] at hmin
  -- There is more than one segment, so the header says where it is to be cut.
  have hvirtio : (p.sealedAs (first.headersIn stored.octets) stored b).virtioHeader = _ :=
    if_neg hmany
  have hstart : (p.sealedAs (first.headersIn stored.octets) stored b).virtioHeader.checksumStart
      = first.headers.transport := by
    rw [hvirtio]
    rfl
  have hoffset : (p.sealedAs (first.headersIn stored.octets) stored b).virtioHeader.checksumOffset
      = UInt16.ofNat tcpChecksumOffset := by rw [hvirtio]
  have hlength : ((p.sealedAs (first.headersIn stored.octets) stored b).virtioHeader.headersLength
      ).toNat = (first.headersIn stored.octets).length := by
    rw [hvirtio]
    exact UInt16.toNat_ofNat_of_lt' (by simp only [UInt16.size, Headers.length]; omega)
  refine ⟨first, rest, _, rfl, m.standsFor b sealing, ?_, rfl⟩
  constructor
  case flags => rw [hvirtio]
  case start => exact hstart
  case offset =>
    rw [hstart, hoffset]
    rfl
  case room =>
    rw [hstart, hoffset, hlength, Headers.length, Nat.add_assoc]
    exact Nat.add_le_add_left (Nat.le_trans (show 16 + 2 ≤ 20 by decide) hmin) _
  case headersLength => exact hlength
  case inside =>
    rw [hlength]
    exact Nat.le_trans (Nat.le_trans hfits hinside) (Nat.le_of_eq sealing.length_eq.symm)
  case kind =>
    rw [hvirtio]
    rfl

end ReceiveOffload
