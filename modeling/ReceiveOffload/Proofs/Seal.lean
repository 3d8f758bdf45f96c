import ReceiveOffload.Aggregate.Seal
import ReceiveOffload.Proofs.Decode

/-!
# What Sealing Writes

Sealing an aggregate is a list of patches. Its length field comes first, then
the checksum of a version 4 header, the fields of the last segment, and the TCP
checksum at the end. None of them meet and all of them lie among the headers,
so sealing never fails, and what it leaves is known octet by octet without
following the three writers through it.

The complete TCP checksum is written twice, zero first so that it does not
count into its own sum. Only the second write shows, and the list has it once.

The values of the checksums play no part here. Any other sixteen bits would be
patched into the same place, and nothing that is read again looks at them.

## Main definitions

* `Headers.coverPatches`, `Headers.fieldPatches`, `Headers.sealPatches`: The
  patches that covering the frame, taking over the fields of a segment, and
  sealing come to.
* `Trailer.Stamped`: The options that are sealed take what a trailer says.
* `Headers.Sealed`: What sealing leaves.

## Theorems

* `Headers.coverFrame_eq`, `Headers.sealOctets_eq`: Covering and sealing write
  their patches.
* `Headers.rawOptions_patched`: The options come to be those of the last segment.
* `Headers.sealOctets_sealed`: Sealing never fails, changes only what it may
  rewrite, and leaves a frame that can be read again.
-/

namespace ReceiveOffload

open Octets

/-- The trailer has the timestamp that was found among the options. -/
def Trailer.Stamped (trailer : Trailer) (options : Octets) : Prop :=
  trailer.timestampValue = ((TcpOptions.timestamp? options).map TimestampOption.value).getD 0 ∧
    trailer.timestampEcho = (TcpOptions.timestamp? options).map TimestampOption.echo

namespace Headers

variable {h : Headers} {frame : Frame}

/-- The fields of the IP header that sealing writes. -/
def coverPatches (h : Headers) (stated ipChecksum : UInt16) : List Patch :=
  ⟨h.network.toNat + h.version.lengthOffset, ofWord16 stated⟩ ::
    match h.version with
    | .v4 => [⟨h.ipv4ChecksumOffset, ofWord16 ipChecksum⟩]
    | .v6 => []

/-- The patches that sealing comes to. -/
def sealPatches (h : Headers) (stated ipChecksum tcpChecksum : UInt16) (trailer : Trailer) :
    List Patch :=
  h.coverPatches stated ipChecksum ++ h.trailerPatches trailer
    ++ [⟨h.checksumOffset, ofWord16 tcpChecksum⟩]

/-- What the length field of a frame of the given length says. -/
def statedLength (h : Headers) (frameLength : Nat) : UInt16 :=
  UInt16.ofNat (frameLength - (h.network.toNat + h.version.uncounted))

/-- A frame holds the headers that were read from it. -/
theorem ReadsFrom.length_le_frame (r : h.ReadsFrom frame) : h.length ≤ frame.octets.length :=
  Nat.le_trans r.fits r.inside

theorem ipLengthField?_eq (r : h.ReadsFrom frame) (n : Nat) (hn : h.length ≤ n) :
    h.ipLengthField? n
      = some (h.network.toNat + h.version.lengthOffset, h.statedLength n) := by
  have hbounds := r.bounds
  simp only [length] at hn
  cases hv : h.version with
  | v4 =>
      simp only [ipLengthField?, hv, if_pos (show h.network.toNat ≤ n by omega),
        IpVersion.lengthOffset, statedLength, IpVersion.uncounted, Nat.add_zero]
  | v6 =>
      have htransport := hbounds.2.2.2.2.2 hv
      simp only [ipLengthField?, hv, IpVersion.lengthOffset, statedLength, IpVersion.uncounted,
        Nat.sub_sub, if_pos (show h.network.toNat + ipv6Length ≤ n by omega)]

/-- The length is written where the old one is read, in both versions and in every
    buffer that holds the headers. -/
theorem setIpLength_eq (r : h.ReadsFrom frame) (b : Octets) (hb : h.length ≤ b.length) :
    ∃ before lengthened,
      b.word16? (h.network.toNat + h.version.lengthOffset) = some before ∧
      b.overwrite? (h.network.toNat + h.version.lengthOffset)
        (ofWord16 (h.statedLength b.length)) = some lengthened ∧
      h.setIpLength b b.length = .ok (⟨before, h.statedLength b.length⟩, lengthened) := by
  have hbounds := r.bounds
  have hfield := ipLengthField?_eq r b.length hb
  have hoffset : h.version.lengthOffset ≤ 4 := by cases h.version <;> decide
  simp only [length] at hb
  rcases exists_word16? b (h.network.toNat + h.version.lengthOffset) (by omega) with
    ⟨before, hbefore⟩
  rcases exists_overwrite b (ofWord16 (h.statedLength b.length))
    (h.network.toNat + h.version.lengthOffset) (by rw [length_ofWord16]; omega) with
    ⟨lengthened, hlengthened⟩
  refine ⟨before, lengthened, hbefore, hlengthened, ?_⟩
  simp only [setIpLength, hfield, hbefore, hlengthened, within, bind, Except.bind, pure,
    Except.pure]

/-- Covering a frame of version 4 writes the length, and then the checksum that
    stood there, patched for what the length has changed by. -/
theorem coverFrame_v4 (r : h.ReadsFrom frame) (hv : h.version = .v4) :
    ∃ before checksum lengthened covered,
      frame.octets.word16? (h.network.toNat + 2) = some before ∧
      frame.octets.word16? h.ipv4ChecksumOffset = some checksum ∧
      frame.octets.overwrite? (h.network.toNat + 2)
        (ofWord16 (h.statedLength frame.octets.length)) = some lengthened ∧
      lengthened.overwrite? h.ipv4ChecksumOffset (ofWord16 (OnesComplement.update16 checksum before
        (h.statedLength frame.octets.length))) = some covered ∧
      h.coverFrame frame.octets = .ok covered := by
  have hbounds := r.bounds
  have hfits := r.fits
  have hinside := r.inside
  simp only [length] at hfits
  rcases setIpLength_eq r frame.octets r.length_le_frame with
    ⟨before, lengthened, hbefore, hlengthened, hset⟩
  simp only [hv, IpVersion.lengthOffset] at hbefore hlengthened
  have hlen := length_overwrite _ _ _ _ hlengthened
  rcases exists_word16? frame.octets h.ipv4ChecksumOffset
    (by simp only [ipv4ChecksumOffset]; omega) with ⟨checksum, hchecksum⟩
  -- The checksum does not meet the length, so it is read as it arrived.
  have hstill : lengthened.word16? h.ipv4ChecksumOffset = some checksum := by
    rw [← hchecksum]
    refine word16?_of_agreeOn _ _ _ (fun j hlow hhigh => ?_)
    simp only [ipv4ChecksumOffset] at hlow hhigh
    rw [getElem?_overwrite _ _ _ _ _ hlengthened, length_ofWord16, if_neg (by omega)]
  rcases exists_overwrite lengthened (ofWord16 (OnesComplement.update16 checksum before
    (h.statedLength frame.octets.length))) h.ipv4ChecksumOffset
    (by rw [length_ofWord16]; simp only [ipv4ChecksumOffset]; omega) with ⟨covered, hcovered⟩
  refine ⟨before, checksum, lengthened, covered, hbefore, hchecksum, hlengthened, hcovered, ?_⟩
  simp only [coverFrame, hset, ipv4Checksum, hv, hstill, within, setIpv4Checksum, applyPatches,
    hcovered, Written.result, bind, Except.bind, pure, Except.pure, if_true]

/-- The IP header is made to cover the frame by patches. -/
theorem coverFrame_eq (r : h.ReadsFrom frame) :
    ∃ ipChecksum b', h.coverFrame frame.octets = .ok b' ∧
      frame.octets.applyPatches (h.coverPatches (h.statedLength frame.octets.length) ipChecksum)
        = ⟨b', true⟩ := by
  -- The length is written in both versions, and only version 4 has a checksum
  -- that depends on it.
  cases hv : h.version with
  | v4 =>
      rcases coverFrame_v4 r hv with
        ⟨before, checksum, lengthened, covered, _, _, hlengthened, hcovered, hcover⟩
      refine ⟨OnesComplement.update16 checksum before (h.statedLength frame.octets.length),
        covered, hcover, ?_⟩
      simp only [coverPatches, hv, applyPatches, IpVersion.lengthOffset, hlengthened, hcovered]
  | v6 =>
      rcases setIpLength_eq r frame.octets r.length_le_frame with
        ⟨before, lengthened, _, hlengthened, hset⟩
      refine ⟨0, lengthened, ?_, ?_⟩
      · simp only [coverFrame, hset, ipv4Checksum, hv, bind, Except.bind, pure, Except.pure]
      · rw [hv] at hlengthened
        simp only [coverPatches, hv, applyPatches, hlengthened]

/-- The addresses lie in front of the TCP header. -/
theorem addresses_eq (r : h.ReadsFrom frame) (b : Octets) (hb : h.length ≤ b.length) :
    ∃ source destination, h.addresses b = .ok (source, destination) := by
  have hbounds := r.bounds
  simp only [length] at hb
  have hroom : h.addressField.1 + 2 * h.addressField.2 ≤ b.length := by
    cases hv : h.version with
    | v4 =>
        -- Both addresses of version 4 lie in the first twenty octets.
        simp only [addressField, hv]
        omega
    | v6 =>
        have htransport := hbounds.2.2.2.2.2 hv
        simp only [ipv6Length] at htransport
        simp only [addressField, hv]
        omega
  have hsource : ∃ source, b.slice? h.addressField.1 h.addressField.2 = some source :=
    ⟨_, if_pos (by omega)⟩
  have hdestination : ∃ destination,
      b.slice? (h.addressField.1 + h.addressField.2) h.addressField.2 = some destination :=
    ⟨_, if_pos (by omega)⟩
  rcases hsource with ⟨source, hsource⟩
  rcases hdestination with ⟨destination, hdestination⟩
  refine ⟨source, destination, ?_⟩
  simp only [addresses, hsource, hdestination, within, bind, Except.bind, pure, Except.pure]

theorem checksumOffset_le (r : h.ReadsFrom frame) (b : Octets)
    (hlen : b.length = frame.octets.length) : h.checksumOffset + 2 ≤ b.length := by
  have hmin := r.minimum
  have hfits := r.fits
  have hinside := r.inside
  simp only [length, tcpLength] at hfits hmin
  simp only [checksumOffset, tcpChecksumOffset]
  omega

/-- The field of the checksum can be cleared, and the segment is there to be summed
    then. -/
theorem exists_cleared (r : h.ReadsFrom frame) (b : Octets)
    (hlen : b.length = frame.octets.length) :
    ∃ cleared, b.overwrite? h.checksumOffset (ofWord16 0) = some cleared ∧
      cleared.length = b.length ∧
      h.tcpOctets cleared = .ok (cleared.drop h.transport.toNat) := by
  have hroom := checksumOffset_le r b hlen
  rcases exists_overwrite b (ofWord16 0) h.checksumOffset
    (by rw [length_ofWord16]; exact hroom) with ⟨cleared, hcleared⟩
  have hlength := length_overwrite _ _ _ _ hcleared
  refine ⟨cleared, hcleared, hlength, ?_⟩
  rw [tcpOctets, if_pos (by simp only [checksumOffset] at hroom; omega)]

/-- The TCP checksum is made by one patch, whether it is complete or not. -/
theorem stampChecksum_eq (r : h.ReadsFrom frame) (b : Octets) (full : Bool)
    (hlen : b.length = frame.octets.length) :
    ∃ tcpChecksum b', h.stampChecksum b full = .ok b' ∧
      b.applyPatches [⟨h.checksumOffset, ofWord16 tcpChecksum⟩] = ⟨b', true⟩ := by
  rcases addresses_eq r b (hlen ▸ r.length_le_frame) with ⟨source, destination, haddresses⟩
  have hroom := checksumOffset_le r b hlen
  cases full with
  | true =>
      -- The field is cleared, the sum is taken with it cleared, and then written.
      rcases exists_cleared r b hlen with ⟨cleared, hcleared, _, htcp⟩
      have hstamp : ∃ sum, h.stampChecksum b true = (h.setTcpChecksum cleared sum).result := by
        refine ⟨~~~ OnesComplement.sum (cleared.drop h.transport.toNat)
          (OnesComplement.pseudoHeader IpHeader.tcpProtocol source destination
            (UInt16.ofNat (b.length - h.transport.toNat))), ?_⟩
        simp only [stampChecksum, haddresses, setTcpChecksum, applyPatches, hcleared,
          Written.result, htcp, bind, Except.bind, if_true]
      rcases hstamp with ⟨sum, hstamp⟩
      rcases exists_overwrite b (ofWord16 sum) h.checksumOffset
        (by rw [length_ofWord16]; omega) with ⟨b', hb'⟩
      -- The cleared field is written over.
      have hagain : cleared.overwrite? h.checksumOffset (ofWord16 sum) = some b' := by
        rw [overwrite_overwrite b cleared (ofWord16 0) (ofWord16 sum) _ hcleared rfl, hb']
      refine ⟨sum, b', ?_, ?_⟩
      · simp only [hstamp, setTcpChecksum, applyPatches, hagain, Written.result, if_true]
      · simp only [applyPatches, hb']
  | false =>
      have hstamp : ∃ sum, h.stampChecksum b false = (h.setTcpChecksum b sum).result := by
        refine ⟨OnesComplement.sum [] (OnesComplement.pseudoHeader IpHeader.tcpProtocol source
          destination (UInt16.ofNat (b.length - h.transport.toNat))), ?_⟩
        simp only [stampChecksum, haddresses, bind, Except.bind, Bool.false_eq_true, if_false]
      -- Only the pseudo header is summed, so nothing has to be cleared.
      rcases hstamp with ⟨sum, hstamp⟩
      rcases exists_overwrite b (ofWord16 sum) h.checksumOffset
        (by rw [length_ofWord16]; omega) with ⟨b', hb'⟩
      refine ⟨sum, b', ?_, ?_⟩
      · simp only [hstamp, setTcpChecksum, applyPatches, hb', Written.result, if_true]
      · simp only [applyPatches, hb']

/-- Where the timestamp lies in the frame: among the options, behind its kind
    and its length. -/
theorem ReadsFrom.timestamp_eq (r : h.ReadsFrom frame) (found : TimestampOption)
    (hfound : TcpOptions.timestamp? (h.rawOptions frame.octets) = some found) :
    ∃ timestamp, h.timestamp = some timestamp ∧ timestamp.echo = found.echo ∧
      timestamp.offset.toNat = h.transport.toNat + tcpLength + found.position ∧
      2 ≤ found.position ∧
      h.transport.toNat + tcpLength + found.position + 8 ≤ h.length := by
  have hbounds := r.bounds
  have htimestamp := r.timestamp
  rw [hfound, Option.map_some] at htimestamp
  have hin := TcpOptions.timestamp?_bounds _ _ hfound
  simp only [rawOptions, List.length_drop, List.length_take, tcpLength, length] at hin
  refine ⟨_, htimestamp, rfl, ?_, hin.1, by simp only [length, tcpLength]; omega⟩
  exact UInt16.toNat_ofNat_of_lt' (by simp only [UInt16.size, tcpLength]; omega)

/-- The fields of the TCP header that come from the last segment. -/
def fieldPatches (h : Headers) (trailer : Trailer) : List Patch := [
  ⟨h.transport.toNat + 8, ofWord32 trailer.ack⟩,
  ⟨h.transport.toNat + 13, [trailer.flags]⟩,
  ⟨h.transport.toNat + 14, ofWord16 trailer.window⟩,
  ⟨h.transport.toNat + 18, ofWord16 trailer.urgent⟩
]

/-- The patches of a trailer: four fields of the TCP header, and the two halves
    of a timestamp where both segments carry one. -/
theorem trailerPatches_cases (r : h.ReadsFrom frame) (trailer : Trailer) :
    h.trailerPatches trailer = h.fieldPatches trailer ∨
      ∃ offset echo, h.transport.toNat + 22 ≤ offset ∧ offset + 8 ≤ h.length ∧
        h.trailerPatches trailer = h.fieldPatches trailer ++
          [⟨offset, ofWord32 trailer.timestampValue⟩, ⟨offset + 4, ofWord32 echo⟩] := by
  rcases hfound : TcpOptions.timestamp? (h.rawOptions frame.octets) with _ | found
  · have hnone : h.timestamp = none := by rw [r.timestamp, hfound, Option.map_none]
    exact Or.inl (by simp only [trailerPatches, fieldPatches, hnone])
  · rcases r.timestamp_eq found hfound with ⟨timestamp, hsome, _, hoffset, htwo, hin⟩
    simp only [tcpLength] at hoffset hin
    rcases hecho : trailer.timestampEcho with _ | echo
    · exact Or.inl (by simp only [trailerPatches, fieldPatches, hsome, hecho])
    · exact Or.inr ⟨timestamp.offset.toNat, echo, by omega, by omega,
        by simp only [trailerPatches, fieldPatches, hsome, hecho]⟩

/-- With a timestamp or without, the fields are among the patches. -/
theorem mem_trailerPatches (r : h.ReadsFrom frame) (trailer : Trailer) (p : Patch)
    (hp : p ∈ h.fieldPatches trailer) : p ∈ h.trailerPatches trailer := by
  rcases trailerPatches_cases r trailer with hcase | ⟨_, _, _, _, hcase⟩
  · rw [hcase]
    exact hp
  · rw [hcase]
    exact List.mem_append_left _ hp

/-- The patches of the IP header lie in front of its addresses, write only what
    may be rewritten, and do not meet. -/
theorem coverPatches_bounds (h : Headers) (stated ipChecksum : UInt16) :
    (∀ p ∈ h.coverPatches stated ipChecksum,
      p.offset + p.octets.length ≤ h.network.toNat + 12 ∧ ∀ j, p.covers j → h.Rewrites j) ∧
    (h.coverPatches stated ipChecksum).Pairwise Patch.Apart := by
  cases hv : h.version with
  | v4 =>
      simp only [coverPatches, hv, ipv4ChecksumOffset, IpVersion.lengthOffset, Rewrites,
        IpVersion.Rewritten, Patch.covers, Patch.Apart, List.forall_mem_cons,
        List.not_mem_nil, List.pairwise_cons, List.Pairwise.nil, length_ofWord16,
        false_implies, implies_true, and_true]
      exact ⟨⟨⟨by omega, fun j hj => by omega⟩, by omega, fun j hj => by omega⟩, by omega⟩
  | v6 =>
      simp only [coverPatches, hv, IpVersion.lengthOffset, Rewrites, IpVersion.Rewritten,
        Patch.covers, Patch.Apart, List.forall_mem_cons, List.not_mem_nil, List.pairwise_cons,
        List.Pairwise.nil, length_ofWord16, false_implies, implies_true, and_true]
      exact ⟨by omega, fun j hj => by omega⟩

/-- The fields lie between the sequence number and the options, leave out the
    header length and the checksum, and do not meet. -/
theorem fieldPatches_bounds (h : Headers) (trailer : Trailer) :
    (∀ p ∈ h.fieldPatches trailer,
      h.transport.toNat + 8 ≤ p.offset ∧
      p.offset + p.octets.length ≤ h.transport.toNat + tcpLength ∧
      (∀ j, p.covers j → h.Rewrites j) ∧
      (p.offset + p.octets.length ≤ h.checksumOffset ∨ h.checksumOffset + 2 ≤ p.offset)) ∧
    (h.fieldPatches trailer).Pairwise Patch.Apart := by
  simp only [fieldPatches, checksumOffset, tcpChecksumOffset, tcpLength, Rewrites, Patch.covers,
    Patch.Apart, List.forall_mem_cons, List.not_mem_nil, List.pairwise_cons,
    List.Pairwise.nil, length_ofWord16, length_ofWord32, List.length_cons, List.length_nil,
    false_implies, implies_true, and_true]
  refine ⟨⟨⟨by omega, by omega, fun j hj => by omega, by omega⟩,
    ⟨by omega, by omega, fun j hj => by omega, by omega⟩,
    ⟨by omega, by omega, fun j hj => by omega, by omega⟩,
    by omega, by omega, fun j hj => by omega, by omega⟩, by omega⟩

/-- What comes from the last segment lies between the sequence number and the
    payload and leaves out the checksum, and its patches do not meet. -/
theorem trailerPatches_bounds (r : h.ReadsFrom frame) (trailer : Trailer) :
    (∀ p ∈ h.trailerPatches trailer,
      h.transport.toNat + 8 ≤ p.offset ∧ p.offset + p.octets.length ≤ h.length ∧
      (∀ j, p.covers j → h.Rewrites j) ∧
      (p.offset + p.octets.length ≤ h.checksumOffset ∨ h.checksumOffset + 2 ≤ p.offset)) ∧
    (h.trailerPatches trailer).Pairwise Patch.Apart := by
  have hmin := r.minimum
  rcases fieldPatches_bounds h trailer with ⟨hfields, hapart⟩
  have hinside : ∀ p ∈ h.fieldPatches trailer, p.offset + p.octets.length ≤ h.length := by
    intro p hp
    have hend := (hfields p hp).2.1
    simp only [length]
    omega
  rcases trailerPatches_cases r trailer with htrailer | ⟨offset, echo, hlow, hhigh, htrailer⟩
  · rw [htrailer]
    exact ⟨fun p hp => ⟨(hfields p hp).1, hinside p hp, (hfields p hp).2.2⟩, hapart⟩
  -- The two words of the timestamp follow each other, behind all of the fields.
  rw [htrailer]
  constructor
  · intro p hp
    rcases List.mem_append.mp hp with hfield | hstamp
    · exact ⟨(hfields p hfield).1, hinside p hfield, (hfields p hfield).2.2⟩
    · simp only [List.mem_cons, List.not_mem_nil, or_false] at hstamp
      rcases hstamp with rfl | rfl
      all_goals
        simp only [length_ofWord32, checksumOffset, tcpChecksumOffset, Rewrites, Patch.covers]
        exact ⟨by omega, by omega, fun j hj => by omega, by omega⟩
  · rw [List.pairwise_append]
    refine ⟨hapart, ?_, ?_⟩
    · simp only [List.pairwise_cons, List.mem_singleton, forall_eq, List.not_mem_nil,
        List.Pairwise.nil, Patch.Apart, length_ofWord32, false_implies, implies_true, and_true]
      omega
    · intro p hp q hq
      have hend := (hfields p hp).2.1
      simp only [tcpLength] at hend
      simp only [List.mem_cons, List.not_mem_nil, or_false] at hq
      rcases hq with rfl | rfl
      all_goals
        simp only [Patch.Apart]
        omega

/-- Every patch lies among the headers and writes only what may be rewritten,
    and no two patches meet. -/
theorem sealPatches_bounds (r : h.ReadsFrom frame) (stated ipChecksum tcpChecksum : UInt16)
    (trailer : Trailer) :
    (∀ p ∈ h.sealPatches stated ipChecksum tcpChecksum trailer,
      p.offset + p.octets.length ≤ h.length ∧ ∀ j, p.covers j → h.Rewrites j) ∧
    (h.sealPatches stated ipChecksum tcpChecksum trailer).Pairwise Patch.Apart := by
  have hbounds := r.bounds
  have hmin := r.minimum
  simp only [tcpLength] at hmin
  -- The IP fields end before the TCP header begins, and the checksum lies in a
  -- gap that the trailer leaves.
  rcases coverPatches_bounds h stated ipChecksum with ⟨hcover, hcoverApart⟩
  rcases trailerPatches_bounds r trailer with ⟨htrailer, htrailerApart⟩
  constructor
  · intro p hp
    simp only [sealPatches, List.mem_append, List.mem_singleton] at hp
    rcases hp with (hp | hp) | rfl
    · exact ⟨by have hin := (hcover p hp).1; simp only [length]; omega, (hcover p hp).2⟩
    · exact ⟨(htrailer p hp).2.1, (htrailer p hp).2.2.1⟩
    · simp only [checksumOffset, tcpChecksumOffset, length_ofWord16, length, Patch.covers,
        Rewrites]
      exact ⟨by omega, fun j hj => by omega⟩
  · rw [sealPatches, List.pairwise_append, List.pairwise_append]
    refine ⟨⟨hcoverApart, htrailerApart, ?_⟩, List.pairwise_singleton _ _, ?_⟩
    · intro p hp q hq
      have hlow := (hcover p hp).1
      have hhigh := (htrailer q hq).1
      exact Or.inl (by omega)
    · intro p hp q hq
      rw [List.mem_singleton.mp hq]
      simp only [Patch.Apart, length_ofWord16]
      rcases List.mem_append.mp hp with hp | hp
      · have hlow := (hcover p hp).1
        simp only [checksumOffset, tcpChecksumOffset]
        omega
      · exact (htrailer p hp).2.2.2

/-- Sealing makes the checksum last, of octets that depend on the trailer and on
    nothing else of the aggregate. -/
theorem sealOctets_stamps (r : h.ReadsFrom frame) (trailer : Trailer) :
    ∃ ipChecksum trailed, trailed.length = frame.octets.length ∧
      frame.octets.applyPatches (h.coverPatches (h.statedLength frame.octets.length) ipChecksum
        ++ h.trailerPatches trailer) = ⟨trailed, true⟩ ∧
      ∀ p : Pending, p.trailer = trailer → Aggregate.sealOctets h frame.octets p
        = h.stampChecksum trailed p.extras.fullChecksum := by
  have hfits := r.fits
  have hinside := r.inside
  rcases coverFrame_eq r with ⟨ipChecksum, covered, hcovered, hcover⟩
  have hcoverLength : covered.length = frame.octets.length := by
    rw [← length_applyPatches frame.octets, hcover]
  rcases trailerPatches_bounds r trailer with ⟨htrailer, hapart⟩
  -- Each writer starts from what the one before left, of the same length.
  rcases applyPatches_complete covered (h.trailerPatches trailer)
    (fun q hq => by have hin := (htrailer q hq).2.1; omega) hapart with
    ⟨trailed, htrail, htrailLength, _, _⟩
  refine ⟨ipChecksum, trailed, htrailLength.trans hcoverLength, ?_, ?_⟩
  · rw [applyPatches_append _ _ _ _ hcover, htrail]
  · rintro p rfl
    simp only [Aggregate.sealOctets, hcovered, setTrailer, htrail, Written.result, bind,
      Except.bind, if_true]

/-- Sealing writes the patches. -/
theorem sealOctets_eq (r : h.ReadsFrom frame) (p : Pending) :
    ∃ ipChecksum tcpChecksum b', Aggregate.sealOctets h frame.octets p = .ok b' ∧
      frame.octets.applyPatches (h.sealPatches (h.statedLength frame.octets.length) ipChecksum
        tcpChecksum p.trailer) = ⟨b', true⟩ := by
  rcases sealOctets_stamps r p.trailer with ⟨ipChecksum, trailed, hlength, hwritten, hstamps⟩
  rcases stampChecksum_eq r trailed p.extras.fullChecksum hlength with
    ⟨tcpChecksum, b', hstamped, hstamp⟩
  refine ⟨ipChecksum, tcpChecksum, b', (hstamps p rfl).trans hstamped, ?_⟩
  rw [sealPatches, applyPatches_append _ _ _ _ hwritten, hstamp]

theorem length_rawOptions (h : Headers) (b : Octets) (hin : h.length ≤ b.length) :
    (h.rawOptions b).length = h.length - (h.transport.toNat + tcpLength) := by
  rw [rawOptions, List.length_drop, List.length_take, Nat.min_eq_left hin]

theorem getElem?_rawOptions (h : Headers) (b : Octets) (j : Nat)
    (hj : h.transport.toNat + tcpLength + j < h.length) :
    (h.rawOptions b)[j]? = b[h.transport.toNat + tcpLength + j]? :=
  getElem?_take_drop b h.length (h.transport.toNat + tcpLength) j hj

/-- The options come to be those of the last segment, provided that these are
    the same behind the mask. Only the echo reply differs, and the trailer
    brings it along. -/
theorem rawOptions_patched (r : h.ReadsFrom frame) (trailer : Trailer) (b' last : Octets)
    (hlen : b'.length = frame.octets.length)
    (hkeep : ∀ j, h.transport.toNat + tcpLength ≤ j →
      (∀ p ∈ h.trailerPatches trailer, ¬ p.covers j) → b'[j]? = frame.octets[j]?)
    (hheld : ∀ p ∈ h.trailerPatches trailer, HoldsAt b' p.offset p.octets)
    (hmask : TcpOptions.masked last = TcpOptions.masked (h.rawOptions frame.octets))
    (hstamped : trailer.Stamped last) : h.rawOptions b' = last := by
  have hfits := r.fits
  have hinside := r.inside
  have hraw := length_rawOptions h frame.octets (by omega)
  have hlast : last.length = (h.rawOptions frame.octets).length := by
    rw [← TcpOptions.length_masked last, hmask, TcpOptions.length_masked]
  ext j : 1
  by_cases hj : h.transport.toNat + tcpLength + j < h.length
  case neg =>
    rw [List.getElem?_eq_none (by rw [length_rawOptions h b' (by omega)]; omega),
      List.getElem?_eq_none (by omega)]
  rw [getElem?_rawOptions h b' j hj]
  rcases hfound : TcpOptions.timestamp? last with _ | found
  · -- Without a timestamp the options are the same, and nothing is written there.
    have hsame := TcpOptions.eq_of_masked_eq last _ hmask hfound
    have hnone : h.timestamp = none := by rw [r.timestamp, ← hsame, hfound, Option.map_none]
    rw [hkeep _ (by omega), hsame, getElem?_rawOptions h frame.octets j hj]
    simp only [trailerPatches, hnone, Patch.covers, List.forall_mem_cons, List.not_mem_nil,
      length_ofWord16, length_ofWord32, List.length_cons, List.length_nil, tcpLength,
      false_implies, implies_true, and_true]
    omega
  · rcases TcpOptions.timestamp?_of_masked_eq _ _ found hmask.symm hfound with ⟨echo, hown⟩
    rcases r.timestamp_eq _ hown with ⟨timestamp, hsome, _, hoffset, _, hin⟩
    rcases TcpOptions.timestamp?_bounds last found hfound with ⟨_, hroom, hvalue, hecho⟩
    simp only [hfound, Trailer.Stamped, Option.map_some, Option.getD_some] at hstamped
    simp only [trailerPatches, hsome, hstamped, hoffset, List.cons_append, List.nil_append,
      List.forall_mem_cons, List.not_mem_nil, false_implies, implies_true, and_true, Patch.covers,
      length_ofWord16, length_ofWord32, List.length_cons, List.length_nil] at hkeep hheld
    rcases hheld with ⟨_, _, _, _, hheldValue, hheldEcho⟩
    by_cases hstamp : found.position ≤ j ∧ j < found.position + 8
    · -- The patch and the options of the last segment hold the same two words.
      have hwords : HoldsAt b' (h.transport.toNat + tcpLength + found.position)
          (ofWord32 found.value ++ ofWord32 found.echo) := hheldValue.append hheldEcho
      have hlastWords : HoldsAt last found.position
          (ofWord32 found.value ++ ofWord32 found.echo) :=
        (holdsAt_of_word32? last _ _ hvalue).append (holdsAt_of_word32? last _ _ hecho)
      rcases Nat.exists_eq_add_of_le hstamp.1 with ⟨k, rfl⟩
      have hk : k < (ofWord32 found.value ++ ofWord32 found.echo).length := by
        simp only [List.length_append, length_ofWord32]
        omega
      rw [← Nat.add_assoc]
      exact hwords.getElem?_eq hlastWords k hk
    · -- Outside of the timestamp nothing is written, and the mask hides nothing.
      rw [hkeep _ (by omega) (by simp only [tcpLength]; omega),
        ← getElem?_rawOptions h frame.octets j hj]
      exact TcpOptions.agree_of_masked_eq _ _ found hmask.symm hfound j (by omega)

/-- What sealing leaves of a frame: octets of the same length that differ only
    where they may, with the options of the last segment, and readable as a
    frame whose datagram goes to the end. -/
structure Sealed (h : Headers) (frame : Frame) (trailer : Trailer) (b' : Octets) : Prop where
  length_eq : b'.length = frame.octets.length
  keeps : ∀ j, h.length ≤ j ∨ ¬ h.Rewrites j → b'[j]? = frame.octets[j]?
  options : ∀ last, TcpOptions.masked last = TcpOptions.masked (h.rawOptions frame.octets) →
    trailer.Stamped last → h.rawOptions b' = last
  stated : b'.word16? (h.network.toNat + h.version.lengthOffset)
    = some (h.statedLength frame.octets.length)
  reads : (h.reread b' b'.length trailer).ReadsFrom { frame with octets := b' }

/-- The length field can say how long the frame is. -/
theorem statedLength_eq (r : h.ReadsFrom frame) (hlen : frame.octets.length ≤ 65535) :
    h.network.toNat + (h.version.uncounted + (h.statedLength frame.octets.length).toNat)
      = frame.octets.length := by
  have hbounds := r.bounds
  have hfits := r.fits
  have hinside := r.inside
  simp only [length] at hfits
  -- The subtraction does not cut off: what is not counted lies in the frame.
  have hleft : h.network.toNat + h.version.uncounted ≤ frame.octets.length := by
    cases hv : h.version with
    | v4 =>
        simp only [IpVersion.uncounted]
        omega
    | v6 =>
        have htransport := hbounds.2.2.2.2.2 hv
        simp only [IpVersion.uncounted]
        omega
  have hstated : (h.statedLength frame.octets.length).toNat
      = frame.octets.length - (h.network.toNat + h.version.uncounted) :=
    UInt16.toNat_ofNat_of_lt' (by simp only [UInt16.size]; omega)
  omega

/-- Sealing a frame that is no longer than a length field can say never
    fails. -/
theorem sealOctets_sealed (r : h.ReadsFrom frame) (p : Pending)
    (hlen : frame.octets.length ≤ 65535) :
    ∃ b', Aggregate.sealOctets h frame.octets p = .ok b' ∧ h.Sealed frame p.trailer b' := by
  have hbounds := r.bounds
  have hfits := r.fits
  have hinside := r.inside
  rcases sealOctets_eq r p with ⟨ipChecksum, tcpChecksum, b', hseal, happly⟩
  rcases sealPatches_bounds r (h.statedLength frame.octets.length) ipChecksum tcpChecksum
    p.trailer with ⟨hpatches, hapart⟩
  rcases applyPatches_complete frame.octets _
    (fun q hq => by have hin := (hpatches q hq).1; omega) hapart with
    ⟨c, hc, hlength, hout, hheld⟩
  -- The writers and the list of patches leave the same octets.
  rw [happly, Written.mk.injEq] at hc
  rcases hc with ⟨rfl, _⟩
  have hkeeps : ∀ j, h.length ≤ j ∨ ¬ h.Rewrites j → b'[j]? = frame.octets[j]? := by
    intro j hj
    refine hout j (fun q hq hcover => ?_)
    have hin := hpatches q hq
    rcases hj with hj | hj
    · have hend := hcover.2
      omega
    · exact hj (hin.2 j hcover)
  have htrailer : ∀ q ∈ h.trailerPatches p.trailer, HoldsAt b' q.offset q.octets :=
    fun q hq => hheld q (List.mem_append_left _ (List.mem_append_right _ hq))
  have hstated : b'.word16? (h.network.toNat + h.version.lengthOffset)
      = some (h.statedLength frame.octets.length) :=
    word16?_of_holdsAt _ _ _ (hheld _ (List.mem_append_left _
      (List.mem_append_left _ List.mem_cons_self)))
  have hfields := fun q hq => htrailer q (mem_trailerPatches r p.trailer q hq)
  simp only [fieldPatches, List.forall_mem_cons, List.not_mem_nil, false_implies, implies_true,
    and_true] at hfields
  rcases hfields with ⟨hack, hflags, hwindow, hurgent⟩
  refine ⟨b', hseal, hlength, hkeeps, ?_, hstated, ?_⟩
  · -- Among the options only the trailer writes: the other patches lie before.
    intro last hmask hstamped
    refine rawOptions_patched r p.trailer b' last hlength ?_ htrailer hmask hstamped
    intro j hj hfree
    refine hout j (fun q hq => ?_)
    simp only [sealPatches, List.mem_append, List.mem_singleton] at hq
    rcases hq with (hq | hq) | rfl
    · have hin := ((coverPatches_bounds h _ ipChecksum).1 q hq).1
      simp only [Patch.covers]
      omega
    · exact hfree q hq
    · simp only [Patch.covers, checksumOffset, tcpChecksumOffset, tcpLength,
        length_ofWord16] at hj ⊢
      omega
  · -- Every field that was rewritten is read back from its own patch.
    refine r.reread { frame with octets := b' } (h.statedLength frame.octets.length) b'.length
      p.trailer rfl ?_ (fun j hj hfree => hkeeps j (Or.inr hfree)) hstated ?_ (by omega) ?_
      (word32?_of_holdsAt _ _ _ hack) (hflags 0 (by simp)) (word16?_of_holdsAt _ _ _ hwindow)
      (word16?_of_holdsAt _ _ _ hurgent)
    · rw [hlength]
      exact r.length_le
    · rw [statedLength_eq r hlen, hlength]
    · exact Nat.le_refl _

end Headers

end ReceiveOffload
