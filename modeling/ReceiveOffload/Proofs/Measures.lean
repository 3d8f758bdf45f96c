import ReceiveOffload.Proofs.Emitted
import ReceiveOffload.Proofs.Ledger

/-!
# The Lengths That Sealing States

Sealing cuts two lengths down to sixteen bits: that of the datagram, which goes
into the IP header, and that of the TCP segment, which goes into the sum over the
pseudo-header and shows in nothing but the checksum. Neither cut may lose
anything, and nothing in sealing looks whether it does. It is the size limit that
makes sure, far away from here.

To say that the second length was right, the checksum is worked out again from
the frame that was handed out, with a length that is a number and has no width.
A frame measures up if it carries that checksum, and if its length field covers
it.

## Main definitions

* `OnesComplement.pseudoSum`: The sum over a pseudo-header of any length.
* `Headers.checksumOf`: The checksum that a frame should have.
* `Headers.Measures`: A frame states its true lengths.

## Theorems

* `Headers.stampChecksum_checksumOf`: The checksum that is made is the one that the
  frame should have.
* `Closing.length_eq`: The length of an aggregate is that of its segments.
* `Closing.measures`: An aggregate of several segments states its true lengths.
-/

namespace ReceiveOffload

open Octets

/-- The sum over the pseudo-header of a transport segment of any length. -/
def OnesComplement.pseudoSum (protocol : UInt8) (source destination : Octets) (length : Nat) :
    Nat :=
  accumulate destination (accumulate source 0) + protocol.toNat * 65536 + length

/-- A length of sixteen bits is summed as it is. -/
theorem OnesComplement.pseudoHeader_eq (protocol : UInt8) (source destination : Octets)
    (length : UInt16) : pseudoHeader protocol source destination length
      = pseudoSum protocol source destination length.toNat := by
  have hprotocol := protocol.toNat_lt
  have hword := word16_ofWord16 length
  have hlength := length.toNat_lt
  simp only [pseudoHeader, pseudoSum, ofWord16, accumulate, hword]
  simp only [word16, word32, UInt16.toNat_ofNat', UInt32.toNat_ofNat', UInt8.toNat_zero]
  omega

/-- A run that did not change is read as before. -/
theorem Octets.slice?_of_agreeOn (b b' : Octets) (i n : Nat) (hlen : b'.length = b.length)
    (h : AgreeOn b b' i n) : b'.slice? i n = b.slice? i n := by
  simp only [slice?, hlen]
  split
  case isFalse => rfl
  case isTrue =>
    congr 1
    ext j : 1
    rw [List.getElem?_take, List.getElem?_take, List.getElem?_drop, List.getElem?_drop]
    split
    case isTrue hj => exact h (i + j) (Nat.le_add_right i j) (Nat.add_lt_add_left hj i)
    case isFalse => rfl

namespace Headers

variable {h : Headers} {frame : Frame}

/-- The checksum that octets with these headers should have, complete or for a
    consumer to complete. The length of the TCP segment is not cut down. -/
def checksumOf (h : Headers) (b : Octets) (full : Bool) : Except Failure UInt16 := do
  let (source, destination) ← h.addresses b
  let pseudo := OnesComplement.pseudoSum IpHeader.tcpProtocol source destination
    (b.length - h.transport.toNat)
  if full then
    let cleared ← (h.setTcpChecksum b 0).result
    let segment ← h.tcpOctets cleared
    return ~~~ OnesComplement.sum segment pseudo
  else return OnesComplement.sum [] pseudo

/-- A frame states its true lengths: its length field covers it, and its checksum
    is that of a TCP segment of the length that it has. -/
structure Measures (h : Headers) (frame : Frame) (full : Bool) : Prop where
  covers : ∃ stated, frame.octets.word16? (h.network.toNat + h.version.lengthOffset) = some stated ∧
    h.network.toNat + (h.version.uncounted + stated.toNat) = frame.octets.length
  checksum : ∃ sum, h.checksumOf frame.octets full = .ok sum ∧
    frame.octets.word16? h.checksumOffset = some sum

/-- The addresses lie in front of the TCP header. -/
theorem addressField_le (r : h.ReadsFrom frame) :
    h.addressField.1 + 2 * h.addressField.2 ≤ h.transport.toNat := by
  have hbounds := r.bounds
  cases hv : h.version with
  | v4 =>
      simp only [addressField, hv]
      omega
  | v6 =>
      have htransport := hbounds.2.2.2.2.2 hv
      simp only [ipv6Length] at htransport
      simp only [addressField, hv]
      omega

/-- So the checksum does not meet them. -/
theorem addresses_overwrite (r : h.ReadsFrom frame) (b b' : Octets) (sum : UInt16)
    (hwrite : b.overwrite? h.checksumOffset (ofWord16 sum) = some b') :
    h.addresses b' = h.addresses b := by
  have hlen := length_overwrite _ _ _ _ hwrite
  have hend := addressField_le r
  have hsame : ∀ i, i + h.addressField.2 ≤ h.transport.toNat →
      b'.slice? i h.addressField.2 = b.slice? i h.addressField.2 := by
    intro i hi
    refine slice?_of_agreeOn b b' _ _ hlen (fun j _ hj => ?_)
    rw [getElem?_overwrite _ _ _ _ _ hwrite, if_neg]
    simp only [checksumOffset]
    omega
  simp only [addresses, hsame _ (show h.addressField.1 + h.addressField.2 ≤ _ by omega),
    hsame _ (show h.addressField.1 + h.addressField.2 + h.addressField.2 ≤ _ by omega)]

/-- The length is cut down to sixteen bits, and has no more. -/
theorem pseudoHeader_transport (h : Headers) (b source destination : Octets)
    (hmax : b.length ≤ 65535) :
    OnesComplement.pseudoHeader IpHeader.tcpProtocol source destination
        (UInt16.ofNat (b.length - h.transport.toNat))
      = OnesComplement.pseudoSum IpHeader.tcpProtocol source destination
          (b.length - h.transport.toNat) := by
  rw [OnesComplement.pseudoHeader_eq,
    UInt16.toNat_ofNat_of_lt' (by simp only [UInt16.size]; omega)]

/-- The complete checksum is that of the octets without it, so it is found again. -/
theorem stampChecksum_complete (r : h.ReadsFrom frame) (b b' : Octets)
    (hlen : b.length = frame.octets.length) (hmax : frame.octets.length ≤ 65535)
    (hstamp : h.stampChecksum b true = .ok b') :
    ∃ sum, h.checksumOf b' true = .ok sum ∧ b'.word16? h.checksumOffset = some sum := by
  rcases addresses_eq r b (hlen ▸ r.length_le_frame) with ⟨source, destination, haddresses⟩
  have hroom := checksumOffset_le r b hlen
  have hpseudo := h.pseudoHeader_transport b source destination (by omega)
  rcases exists_cleared r b hlen with ⟨cleared, hcleared, hlength, htcp⟩
  generalize hsum : ~~~ OnesComplement.sum (cleared.drop h.transport.toNat)
    (OnesComplement.pseudoSum IpHeader.tcpProtocol source destination
      (b.length - h.transport.toNat)) = sum
  rcases exists_overwrite cleared (ofWord16 sum) h.checksumOffset
    (by rw [length_ofWord16]; omega) with ⟨written, hwritten⟩
  simp only [stampChecksum, haddresses, setTcpChecksum, applyPatches, hcleared,
    Written.result, htcp, hpseudo, hsum, hwritten, bind, Except.bind, if_true,
    Except.ok.injEq] at hstamp
  subst hstamp
  -- Clearing the field again gives the octets that were summed.
  have hagain : written.overwrite? h.checksumOffset (ofWord16 0) = some cleared := by
    rw [overwrite_overwrite cleared written _ (ofWord16 0) _ hwritten rfl,
      overwrite_overwrite b cleared _ (ofWord16 0) _ hcleared rfl, hcleared]
  have hsame : h.addresses written = .ok (source, destination) := by
    rw [addresses_overwrite r cleared written sum hwritten,
      addresses_overwrite r b cleared 0 hcleared, haddresses]
  have hwrittenLength := length_overwrite _ _ _ _ hwritten
  refine ⟨sum, ?_, word16?_of_overwrite _ _ _ _ hwritten⟩
  simp only [checksumOf, hsame, setTcpChecksum, applyPatches, hagain, Written.result, htcp,
    hwrittenLength, hlength, hsum, bind, Except.bind, pure, Except.pure, if_true]

/-- The checksum that a consumer is to complete is that of the pseudo-header, which
    has nothing of the field in it. -/
theorem stampChecksum_partial (r : h.ReadsFrom frame) (b b' : Octets)
    (hlen : b.length = frame.octets.length) (hmax : frame.octets.length ≤ 65535)
    (hstamp : h.stampChecksum b false = .ok b') :
    ∃ sum, h.checksumOf b' false = .ok sum ∧ b'.word16? h.checksumOffset = some sum := by
  rcases addresses_eq r b (hlen ▸ r.length_le_frame) with ⟨source, destination, haddresses⟩
  have hroom := checksumOffset_le r b hlen
  have hpseudo := h.pseudoHeader_transport b source destination (by omega)
  generalize hsum : OnesComplement.sum []
    (OnesComplement.pseudoSum IpHeader.tcpProtocol source destination
      (b.length - h.transport.toNat)) = sum
  rcases exists_overwrite b (ofWord16 sum) h.checksumOffset
    (by rw [length_ofWord16]; omega) with ⟨written, hwritten⟩
  simp only [stampChecksum, haddresses, setTcpChecksum, applyPatches, Written.result, hpseudo,
    hsum, hwritten, bind, Except.bind, Bool.false_eq_true, if_false, if_true,
    Except.ok.injEq] at hstamp
  subst hstamp
  have hsame : h.addresses written = .ok (source, destination) := by
    rw [addresses_overwrite r b written sum hwritten, haddresses]
  refine ⟨sum, ?_, word16?_of_overwrite _ _ _ _ hwritten⟩
  simp only [checksumOf, hsame, length_overwrite _ _ _ _ hwritten, hsum, bind, Except.bind,
    pure, Except.pure, Bool.false_eq_true, if_false]

/-- The checksum that is made is the one that the octets should have, as long as
    their length is one that sixteen bits can say. -/
theorem stampChecksum_checksumOf (r : h.ReadsFrom frame) (b b' : Octets) (full : Bool)
    (hlen : b.length = frame.octets.length) (hmax : frame.octets.length ≤ 65535)
    (hstamp : h.stampChecksum b full = .ok b') :
    ∃ sum, h.checksumOf b' full = .ok sum ∧ b'.word16? h.checksumOffset = some sum := by
  cases full with
  | true => exact stampChecksum_complete r b b' hlen hmax hstamp
  | false => exact stampChecksum_partial r b b' hlen hmax hstamp

end Headers

/-- An aggregate is as long as its segments come to. -/
theorem Closing.length_eq {aggregate : Aggregate} {first : Segment} {rest : List Segment}
    (h : Closing aggregate (first :: rest)) :
    aggregate.length = first.frame.length + (rest.map Segment.payload).flatten.length := by
  rcases h with ⟨_, _, p, stored, hmembers, m, hsealed⟩
  rw [List.cons.injEq] at hmembers
  rcases hmembers with ⟨rfl, rfl⟩
  have hstored : stored.length
      = first.frame.length + (rest.map Segment.payload).flatten.length := by
    rw [m.stored_eq]
    exact List.length_append
  have hdecode := Headers.decode_of_readsFrom _ _ m.reads
  by_cases halone : p.segments ≤ 1
  · rw [Aggregate.ofStored_alone stored p _ hdecode halone, Except.ok.injEq] at hsealed
    rw [← hsealed]
    exact hstored
  · -- Sealing rewrites octets and puts none in.
    rcases Headers.sealOctets_sealed m.reads p m.length_eq.2 with ⟨b, hseal, sealing⟩
    rw [Aggregate.ofStored_several stored p _ b hdecode halone hseal, Except.ok.injEq] at hsealed
    rw [← hsealed]
    exact sealing.length_eq.trans hstored

/-- An aggregate of several segments states its true lengths. -/
theorem Closing.measures {aggregate : Aggregate} {members : List Segment}
    (h : Closing aggregate members) (hseveral : 2 ≤ aggregate.segments) :
    ∃ h, Headers.decode aggregate.frame = .ok h ∧
      h.Measures aggregate.frame aggregate.checksumComplete := by
  rcases h.sealed hseveral with ⟨first, rest, p, stored, b, rfl, m, hmany, hseal, sealing, rfl⟩
  have hstands := m.standsFor b sealing
  rcases Headers.sealOctets_stamps m.reads p.trailer with ⟨_, trailed, htrailed, _, hstamps⟩
  have hstamp := (hstamps p rfl).symm.trans hseal
  have hcomplete : (p.sealedAs (first.headersIn stored.octets) stored b).checksumComplete
      = p.extras.fullChecksum := by
    simp only [Pending.sealedAs, hmany, decide_false, Bool.false_or]
  rw [hcomplete]
  exact ⟨_, hstands.decodes, hstands.covers,
    Headers.stampChecksum_checksumOf m.reads trailed b _ htrailed m.length_eq.2 hstamp⟩

end ReceiveOffload
