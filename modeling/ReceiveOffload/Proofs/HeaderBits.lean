import ReceiveOffload.Proofs.Measures

/-!
# Header Bits That Segments Share

Only the first segment's headers are handed on, so what another segment says in its
own is lost unless it is the same, or unless sealing brings it along. A verdict
compares lengths, three IP fields, the timestamp value and the options. This is
what that comes to, octet for octet.

Some bits are each segment's own: its length, its place in the sequence, what it
acknowledges, and the checksums. Of the others most are fixed by what is compared.
A header that was read fixes the octets that its fields stand in, the protocol is
the same in all of them and none is a fragment. What is left are three groups of
bits that nothing looks at: the options of a version 4 header, the flow label of a
version 6 header, and the reserved bits of a TCP header.

## Main definitions

* `Octets.SameAt`: Two strings have the same bits in an octet.
* `Headers.ownBits`: The bits in which segments differ.
* `Headers.looseBits`: The bits that nothing looks at.
* `Segment.SamePath`: Two segments go the same way.
* `Segment.SameBut`: The headers of two segments are the same but for some bits.

## Theorems

* `IpHeader.decode_fixed`: What a header that was read fixes of its octets.
* `Segment.Alike.sameBut`: Segments that were merged have the same headers but for
  the bits that are their own or that nothing looks at.
-/

namespace ReceiveOffload

open Octets

theorem or_all (x : UInt8) : x ||| 0xFF = 0xFF := by
  have hall : ∀ n < 256, UInt8.ofNat n ||| 0xFF = 0xFF := by decide +kernel
  have hx := hall x.toNat x.toNat_lt
  rwa [UInt8.ofNat_toNat] at hx

/-- Behind a mask for the low half, only the high half shows. -/
theorem or_low_eq (x y : UInt8) (h : x.toNat / 16 = y.toNat / 16) :
    x ||| 0x0F = y ||| 0x0F := by
  have hall : ∀ n < 256, UInt8.ofNat n ||| 0x0F = UInt8.ofNat (n / 16 * 16 + 15) := by
    decide +kernel
  have hx := hall x.toNat x.toNat_lt
  have hy := hall y.toNat y.toNat_lt
  rw [UInt8.ofNat_toNat] at hx hy
  rw [hx, hy, h]

theorem Octets.slice?_eq_some (b : Octets) (i n : Nat) (hin : i + n ≤ b.length) :
    b.slice? i n = some ((b.drop i).take n) :=
  if_pos hin

/-- The strings have the same bits in an octet, but for the given ones. -/
def Octets.SameAt (b b' : Octets) (j : Nat) (bits : UInt8) : Prop :=
  ∃ x y, b[j]? = some x ∧ b'[j]? = some y ∧ y ||| bits = x ||| bits

theorem Octets.SameAt.of_eq (b b' : Octets) (j : Nat) (bits : UInt8) (hj : j < b.length)
    (h : b'[j]? = b[j]?) : b.SameAt b' j bits := by
  rw [List.getElem?_eq_getElem hj] at h
  exact ⟨_, _, List.getElem?_eq_getElem hj, h, rfl⟩

instance (b b' : Octets) (j : Nat) (bits : UInt8) : Decidable (b.SameAt b' j bits) :=
  decidable_of_iff (∃ x ∈ b[j]?, ∃ y ∈ b'[j]?, y ||| bits = x ||| bits) (by
    simp only [Octets.SameAt, Option.mem_def]
    exact ⟨fun ⟨x, hx, y, hy, h⟩ => ⟨x, y, hx, hy, h⟩, fun ⟨x, y, hx, hy, h⟩ => ⟨x, hx, y, hy, h⟩⟩)

/-- If all bits may differ, only the octets have to be there. -/
theorem Octets.SameAt.of_all (b b' : Octets) (j : Nat) (hj : j < b.length) (hj' : j < b'.length) :
    b.SameAt b' j 0xFF :=
  ⟨_, _, List.getElem?_eq_getElem hj, List.getElem?_eq_getElem hj', by rw [or_all, or_all]⟩

/-- Runs that can be read and are the same have the same octets. -/
theorem Octets.getElem?_of_slice?_eq (b b' : Octets) (i i' n : Nat) (hin : i + n ≤ b.length)
    (h : b'.slice? i' n = b.slice? i n) (k : Nat) (hk : k < n) : b'[i' + k]? = b[i + k]? := by
  rw [slice?, slice?, if_pos hin] at h
  split at h
  case isFalse => cases h
  case isTrue =>
    have hoctet := congrArg (fun octets : Octets => octets[k]?) (Option.some.inj h)
    simp only [List.getElem?_take_of_lt hk, List.getElem?_drop] at hoctet
    exact hoctet

namespace IpVersion

/-- The bits of an IP header octet that are each segment's own: the length, and in
    version 4 the identification and the checksum. -/
def ownBits : IpVersion → Nat → UInt8
  | v4, i => if 2 ≤ i ∧ i < 6 ∨ 10 ≤ i ∧ i < 12 then 0xFF else 0
  | v6, i => if 4 ≤ i ∧ i < 6 then 0xFF else 0

/-- The bits of an IP header octet that nothing looks at: the options in version 4
    and the flow label in version 6. -/
def looseBits : IpVersion → Nat → UInt8
  | v4, i => if ipv4Length ≤ i then 0xFF else 0
  | v6, i => if i = 1 then 0x0F else if 2 ≤ i ∧ i < 4 then 0xFF else 0

/-- The octets of an IP header that hold the addresses. -/
def Addresses : IpVersion → Nat → Prop
  | v4, i => 12 ≤ i ∧ i < 20
  | v6, i => 8 ≤ i ∧ i < 40

end IpVersion

namespace IpHeader

/-- What a header fixes of its octets, as far as it does. -/
def fixed (header : IpHeader) : Nat → UInt8 :=
  match header.version with
  | .v4 => fun
    | 0 => UInt8.ofNat (4 * 16 + header.length / 4)
    | 1 => header.traits.trafficClass
    | 6 => UInt8.ofNat (header.traits.fragmentFlags.toNat * 32)
    | 8 => header.traits.hopLimit
    | 9 => tcpProtocol
    | _ => 0
  | .v6 => fun
    | 0 => UInt8.ofNat (6 * 16 + header.traits.trafficClass.toNat / 16)
    | 1 => UInt8.ofNat (header.traits.trafficClass.toNat % 16 * 16)
    | 6 => tcpProtocol
    | 7 => header.traits.hopLimit
    | _ => 0

variable {ip : Octets} {header : IpHeader}

/-- The octets of a version 4 header that was read and is no fragment's. -/
theorem decodeV4_fixed (first : UInt8) (hfirst : ip.head? = some first)
    (hversion : first.toNat / 16 = 4) (h : decodeV4 first ip = .ok header)
    (whole : header.fragment = false) :
    header.version = .v4 ∧ ∀ i ∈ [0, 1, 6, 7, 8, 9], ip[i]? = some (header.fixed i) := by
  simp only [decodeV4, require_bind_eq_ok_iff, within_bind_eq_ok_iff, octet?, pure,
    Except.pure, Except.ok.injEq] at h
  rcases h with ⟨_, protocol, hprotocol, rfl, _, _, _, fragmentation, hfragment, trafficClass,
    htraffic, hopLimit, hhop, rfl⟩
  rcases (word16?_eq_some_iff ip 6 fragmentation).mp hfragment with ⟨high, low, hhigh, hlow, rfl⟩
  have hlt := first.toNat_lt
  have hh := high.toNat_lt
  have hl := low.toNat_lt
  simp only [ne_eq, decide_not, Bool.not_eq_eq_eq_not, Bool.not_false, decide_eq_true_eq, word16,
    UInt16.toNat_ofNat'] at whole
  rw [List.head?_eq_getElem?] at hfirst
  refine ⟨rfl, ?_⟩
  simp only [List.forall_mem_cons, List.not_mem_nil, false_implies, implies_true, and_true, fixed]
  refine ⟨?_, htraffic, ?_, ?_, hhop, hprotocol⟩
  · rw [hfirst, Option.some.injEq, ← UInt8.toNat_inj, UInt8.toNat_ofNat']
    omega
  -- No further fragments and no offset leave the three flags of the two octets.
  · rw [hhigh, Option.some.injEq, ← UInt8.toNat_inj, UInt8.toNat_ofNat', UInt8.toNat_ofNat', word16,
      UInt16.toNat_ofNat']
    omega
  · rw [hlow, Option.some.injEq, ← UInt8.toNat_inj]
    show low.toNat = 0
    omega

/-- The octets of a version 6 header that was read. -/
theorem decodeV6_fixed (first : UInt8) (hfirst : ip.head? = some first)
    (hversion : first.toNat / 16 = 6) (h : decodeV6 first ip = .ok header) :
    header.version = .v6 ∧ (∀ i ∈ [0, 6, 7], ip[i]? = some (header.fixed i)) ∧
      ∃ second, ip[1]? = some second ∧ second.toNat / 16 = (header.fixed 1).toNat / 16 := by
  simp only [decodeV6, require_bind_eq_ok_iff, within_bind_eq_ok_iff, octet?, pure,
    Except.pure, Except.ok.injEq] at h
  rcases h with ⟨_, protocol, hprotocol, rfl, _, _, second, hsecond, hopLimit, hhop, rfl⟩
  have hlt := first.toNat_lt
  have hs := second.toNat_lt
  rw [List.head?_eq_getElem?] at hfirst
  refine ⟨rfl, ?_, second, hsecond, ?_⟩
  · simp only [List.forall_mem_cons, List.not_mem_nil, false_implies, implies_true, and_true, fixed]
    refine ⟨?_, hprotocol, hhop⟩
    rw [hfirst, Option.some.injEq, ← UInt8.toNat_inj, UInt8.toNat_ofNat', UInt8.toNat_ofNat']
    omega
  · simp only [fixed, UInt8.toNat_ofNat']
    omega

/-- A header that was read fixes its octets but for the addresses, the bits that are
    its own and the bits that nothing looks at. -/
theorem decode_fixed (h : decode ip = .ok header) (whole : header.fragment = false) (i : Nat)
    (hi : i < header.length) (haddress : ¬ header.version.Addresses i) :
    ∃ x, ip[i]? = some x ∧ x ||| (header.version.ownBits i ||| header.version.looseBits i)
      = header.fixed i ||| (header.version.ownBits i ||| header.version.looseBits i) := by
  have hbounds := decode_bounds ip header h
  have hlt : i < ip.length := by omega
  have hin : ip[i]? = some ip[i] := List.getElem?_eq_getElem hlt
  -- Where all bits are masked there is nothing to compare.
  have hfree : header.version.ownBits i ||| header.version.looseBits i = 0xFF →
      ∃ x, ip[i]? = some x ∧ x ||| (header.version.ownBits i ||| header.version.looseBits i)
        = header.fixed i ||| (header.version.ownBits i ||| header.version.looseBits i) :=
    fun hall => ⟨_, hin, by rw [hall, or_all, or_all]⟩
  rcases (decode_eq_ok_iff ip header).mp h with ⟨first, hfirst, ⟨h4, h⟩ | ⟨h6, h⟩⟩
  · rcases decodeV4_fixed first hfirst h4 h whole with ⟨hversion, hfixed⟩
    have hplain : ipv4Length = 20 := rfl
    simp only [hversion, IpVersion.ownBits, IpVersion.looseBits,
      IpVersion.Addresses] at hfree haddress ⊢
    by_cases hown : 2 ≤ i ∧ i < 6 ∨ 10 ≤ i ∧ i < 12
    · exact hfree (by rw [if_pos hown, if_neg (by omega)]; rfl)
    by_cases hloose : ipv4Length ≤ i
    · exact hfree (by rw [if_neg hown, if_pos hloose]; rfl)
    refine ⟨header.fixed i, hfixed i ?_, rfl⟩
    simp only [List.mem_cons, List.not_mem_nil, or_false]
    omega
  · rcases decodeV6_fixed first hfirst h6 h with ⟨hversion, hfixed, second, hsecond, hhigh⟩
    have hlength := hbounds.2.2.2.2.2 hversion
    rw [ipv6Length] at hlength
    simp only [hversion, IpVersion.ownBits, IpVersion.looseBits,
      IpVersion.Addresses] at hfree haddress ⊢
    by_cases hown : 4 ≤ i ∧ i < 6
    · exact hfree (by rw [if_pos hown, if_neg (by omega), if_neg (by omega)]; rfl)
    by_cases hlabel : 2 ≤ i ∧ i < 4
    · exact hfree (by rw [if_neg hown, if_neg (by omega), if_pos hlabel]; rfl)
    by_cases hsplit : i = 1
    · -- The octet is half traffic class and half flow label.
      subst hsplit
      exact ⟨second, hsecond, or_low_eq second (header.fixed 1) hhigh⟩
    refine ⟨header.fixed i, hfixed i ?_, rfl⟩
    simp only [List.mem_cons, List.not_mem_nil, or_false]
    omega

end IpHeader

namespace Headers

/-- The addresses are two runs, one behind the other. -/
theorem addresses_eq_ok_iff (h : Headers) (b source destination : Octets) :
    h.addresses b = .ok (source, destination) ↔
      b.slice? h.addressField.1 h.addressField.2 = some source ∧
      b.slice? (h.addressField.1 + h.addressField.2) h.addressField.2 = some destination := by
  simp only [addresses, within_bind_eq_ok_iff, pure, Except.pure, Except.ok.injEq, Prod.mk.injEq]
  constructor
  · rintro ⟨_, hsource, _, hdestination, rfl, rfl⟩
    exact ⟨hsource, hdestination⟩
  · rintro ⟨hsource, hdestination⟩
    exact ⟨_, hsource, _, hdestination, rfl, rfl⟩

/-- The octet belongs to the echo reply of the timestamp. -/
def echoes (h : Headers) (j : Nat) : Bool :=
  h.timestamp.any fun timestamp =>
    timestamp.offset.toNat + 4 ≤ j ∧ j < timestamp.offset.toNat + 8

/-- The bits of a header octet that are each segment's own. Of the TCP header these
    are the sequence number, the acknowledgement, the flags, the window, the checksum,
    the urgent pointer and the echo reply. -/
def ownBits (h : Headers) (j : Nat) : UInt8 :=
  if j < h.network.toNat then 0
  else if j < h.transport.toNat then h.version.ownBits (j - h.network.toNat)
  else if h.transport.toNat + 4 ≤ j ∧ j < h.transport.toNat + 12
    ∨ h.transport.toNat + 13 ≤ j ∧ j < h.transport.toNat + tcpLength ∨ h.echoes j then 0xFF
  else 0

/-- The bits of a header octet that nothing looks at. Of the TCP header these are the
    reserved bits, next to the length. -/
def looseBits (h : Headers) (j : Nat) : UInt8 :=
  if j < h.network.toNat then 0
  else if j < h.transport.toNat then h.version.looseBits (j - h.network.toNat)
  else if j = h.transport.toNat + 12 then 0x0F else 0

end Headers

namespace Segment

/-- The segments go the same way: behind the same link header, from one port of one
    address to one port of another. -/
structure SamePath (a b : Segment) : Prop where
  link : b.frame.link = a.frame.link
  linkHeader : b.frame.octets.take b.headers.network.toNat
    = a.frame.octets.take a.headers.network.toNat
  version : b.headers.version = a.headers.version
  addresses : b.headers.addresses b.frame.octets = a.headers.addresses a.frame.octets
  ports : b.frame.octets.slice? b.headers.transport.toNat 4
    = a.frame.octets.slice? a.headers.transport.toNat 4

instance (a b : Segment) : Decidable (a.SamePath b) :=
  decidable_of_iff (b.frame.link = a.frame.link
      ∧ b.frame.octets.take b.headers.network.toNat = a.frame.octets.take a.headers.network.toNat
      ∧ b.headers.version = a.headers.version
      ∧ b.headers.addresses b.frame.octets = a.headers.addresses a.frame.octets
      ∧ b.frame.octets.slice? b.headers.transport.toNat 4
        = a.frame.octets.slice? a.headers.transport.toNat 4)
    ⟨fun ⟨h1, h2, h3, h4, h5⟩ => ⟨h1, h2, h3, h4, h5⟩,
      fun ⟨h1, h2, h3, h4, h5⟩ => ⟨h1, h2, h3, h4, h5⟩⟩

/-- The headers of the segments are laid out in the same way, and are the same but
    for some bits of each octet. -/
structure SameBut (bits : Nat → UInt8) (a b : Segment) : Prop where
  version : b.headers.version = a.headers.version
  network : b.headers.network = a.headers.network
  transport : b.headers.transport = a.headers.transport
  transportLength : b.headers.transportLength = a.headers.transportLength
  octets : ∀ j, j < a.headers.length → a.frame.octets.SameAt b.frame.octets j (bits j)

instance (bits : Nat → UInt8) (a b : Segment) : Decidable (a.SameBut bits b) :=
  decidable_of_iff (b.headers.version = a.headers.version
      ∧ b.headers.network = a.headers.network ∧ b.headers.transport = a.headers.transport
      ∧ b.headers.transportLength = a.headers.transportLength
      ∧ ∀ j, j < a.headers.length → a.frame.octets.SameAt b.frame.octets j (bits j))
    ⟨fun ⟨h1, h2, h3, h4, h5⟩ => ⟨h1, h2, h3, h4, h5⟩,
      fun ⟨h1, h2, h3, h4, h5⟩ => ⟨h1, h2, h3, h4, h5⟩⟩

variable {a b : Segment}

/-- Segments with the same options have TCP headers of the same length. -/
theorem transportLength_eq (ha : a.Genuine) (hb : b.Genuine)
    (hoptions : b.headers.options = a.headers.options) :
    b.headers.transportLength = a.headers.transportLength := by
  have hlengths := congrArg List.length hoptions
  rw [ha.reads.options, hb.reads.options, TcpOptions.length_masked, TcpOptions.length_masked,
    Headers.length_rawOptions _ _ (Nat.le_trans ha.reads.fits ha.reads.inside),
    Headers.length_rawOptions _ _ (Nat.le_trans hb.reads.fits hb.reads.inside)] at hlengths
  have hmina := ha.reads.minimum
  have hminb := hb.reads.minimum
  simp only [Headers.length, tcpLength] at hlengths hmina hminb
  rw [← UInt8.toNat_inj]
  omega

theorem SamePath.network_eq (path : a.SamePath b) (ha : a.Genuine) (hb : b.Genuine) :
    b.headers.network = a.headers.network := by
  have hlengths := congrArg List.length path.linkHeader
  have hina := (networkOffset_le _ _ ha.reads.link).2
  have hinb := (networkOffset_le _ _ hb.reads.link).2
  rw [List.length_take, List.length_take] at hlengths
  rw [← UInt16.toNat_inj]
  omega

/-- The octets in front of the IP header are those of the link header. -/
theorem SamePath.link_octet (path : a.SamePath b) (ha : a.Genuine) (hb : b.Genuine) (j : Nat)
    (hj : j < a.headers.network.toNat) : b.frame.octets[j]? = a.frame.octets[j]? := by
  have hoctet := congrArg (fun octets : Octets => octets[j]?) path.linkHeader
  simp only [path.network_eq ha hb, List.getElem?_take_of_lt hj] at hoctet
  exact hoctet

/-- Segments on the same path have the same addresses, octet by octet. -/
theorem SamePath.address_octet (path : a.SamePath b) (ha : a.Genuine) (hb : b.Genuine) (i : Nat)
    (hi : a.headers.version.Addresses i) :
    b.frame.octets[a.headers.network.toNat + i]?
      = a.frame.octets[a.headers.network.toNat + i]? := by
  have hend := Headers.addressField_le ha.reads
  have hin := ha.reads.inside
  have hfits := ha.reads.fits
  simp only [Headers.length] at hfits
  have hfield : b.headers.addressField = a.headers.addressField := by
    simp only [Headers.addressField, path.version, path.network_eq ha hb]
  -- Both addresses can be read, and they are the same in both.
  have hsource := slice?_eq_some a.frame.octets a.headers.addressField.1 a.headers.addressField.2
    (by omega)
  have hdestination := slice?_eq_some a.frame.octets
    (a.headers.addressField.1 + a.headers.addressField.2) a.headers.addressField.2 (by omega)
  have hsame := path.addresses
  rw [(Headers.addresses_eq_ok_iff _ _ _ _).mpr ⟨hsource, hdestination⟩,
    Headers.addresses_eq_ok_iff, hfield, ← hsource, ← hdestination] at hsame
  have hoctets : ∀ k, k < 2 * a.headers.addressField.2 →
      b.frame.octets[a.headers.addressField.1 + k]?
        = a.frame.octets[a.headers.addressField.1 + k]? := by
    intro k hk
    by_cases hfirst : k < a.headers.addressField.2
    · exact getElem?_of_slice?_eq _ _ _ _ _ (by omega) hsame.1 k hfirst
    · have hsecond := getElem?_of_slice?_eq _ _ _ _ _ (by omega) hsame.2
        (k - a.headers.addressField.2) (by omega)
      rwa [show a.headers.addressField.1 + a.headers.addressField.2
        + (k - a.headers.addressField.2) = a.headers.addressField.1 + k by omega] at hsecond
  have hplace : ∃ k, k < 2 * a.headers.addressField.2 ∧
      a.headers.network.toNat + i = a.headers.addressField.1 + k := by
    cases hv : a.headers.version with
    | v4 =>
        simp only [hv, IpVersion.Addresses] at hi
        exact ⟨i - 12, by simp only [Headers.addressField, hv]; omega,
          by simp only [Headers.addressField, hv]; omega⟩
    | v6 =>
        simp only [hv, IpVersion.Addresses] at hi
        exact ⟨i - 8, by simp only [Headers.addressField, hv]; omega,
          by simp only [Headers.addressField, hv]; omega⟩
  rcases hplace with ⟨k, hk, hplace⟩
  rw [hplace]
  exact hoctets k hk

/-- Segments on the same path have the same ports, octet by octet. -/
theorem SamePath.port_octet (path : a.SamePath b) (ha : a.Genuine)
    (htransport : b.headers.transport = a.headers.transport) (i : Nat) (hi : i < 4) :
    b.frame.octets[a.headers.transport.toNat + i]?
      = a.frame.octets[a.headers.transport.toNat + i]? := by
  have hin := ha.reads.inside
  have hfits := ha.reads.fits
  have hmin := ha.reads.minimum
  simp only [Headers.length, tcpLength] at hfits hmin
  have hports := path.ports
  rw [htransport] at hports
  exact getElem?_of_slice?_eq _ _ _ _ 4 (by omega) hports i hi

/-- Of the IP header the segments share what is compared, what is the same in every
    segment that can be merged, and the addresses. -/
theorem SamePath.ip_octet (path : a.SamePath b) (ha : a.Genuine) (hb : b.Genuine)
    (htransport : b.headers.transport = a.headers.transport)
    (htraits : b.headers.traits = a.headers.traits) (hwhole : a.headers.fragment = false)
    (hwhole' : b.headers.fragment = false) (i : Nat)
    (hi : a.headers.network.toNat + i < a.headers.transport.toNat) :
    a.frame.octets.SameAt b.frame.octets (a.headers.network.toNat + i)
      (a.headers.version.ownBits i ||| a.headers.version.looseBits i) := by
  by_cases haddress : a.headers.version.Addresses i
  · have hin := ha.reads.inside
    have hfits := ha.reads.fits
    simp only [Headers.length] at hfits
    exact .of_eq _ _ _ _ (by omega) (path.address_octet ha hb i haddress)
  -- What the header fixes depends on what is the same in both.
  have hversion : b.headers.ipHeader.version = a.headers.ipHeader.version := path.version
  have hfixed : b.headers.ipHeader.fixed i = a.headers.ipHeader.fixed i := by
    simp only [IpHeader.fixed, Headers.ipHeader, path.version, path.network_eq ha hb, htransport,
      htraits]
  have hlength : b.headers.ipHeader.length = a.headers.ipHeader.length := by
    simp only [Headers.ipHeader, path.network_eq ha hb, htransport]
  have hlt : i < a.headers.ipHeader.length := by
    simp only [Headers.ipHeader]
    omega
  rcases IpHeader.decode_fixed ha.reads.ip hwhole i hlt haddress with ⟨x, hx, hxfixed⟩
  rcases IpHeader.decode_fixed hb.reads.ip hwhole' i (hlength.symm ▸ hlt)
    (hversion.symm ▸ haddress) with ⟨y, hy, hyfixed⟩
  rw [List.getElem?_drop] at hx hy
  rw [path.network_eq ha hb] at hy
  rw [hversion, hfixed] at hyfixed
  exact ⟨x, y, hx, hy, hyfixed.trans hxfixed.symm⟩

/-- The options are the same but for the echo reply. -/
theorem option_octet (ha : a.Genuine) (hb : b.Genuine)
    (htransport : b.headers.transport = a.headers.transport)
    (htransportLength : b.headers.transportLength = a.headers.transportLength)
    (hoptions : b.headers.options = a.headers.options) (j : Nat)
    (hstart : a.headers.transport.toNat + tcpLength ≤ j) (hj : j < a.headers.length)
    (hecho : ¬ a.headers.echoes j = true) : b.frame.octets[j]? = a.frame.octets[j]? := by
  have hmask := hoptions
  rw [ha.reads.options, hb.reads.options] at hmask
  rcases Nat.exists_eq_add_of_le hstart with ⟨k, rfl⟩
  have hlength : b.headers.length = a.headers.length := by
    rw [Headers.length, Headers.length, htransport, htransportLength]
  have hj' : b.headers.transport.toNat + tcpLength + k < b.headers.length := by
    rw [htransport, hlength]
    exact hj
  have hraw := Headers.getElem?_rawOptions b.headers b.frame.octets k hj'
  rw [htransport] at hraw
  rw [← hraw, ← Headers.getElem?_rawOptions a.headers a.frame.octets k hj]
  rcases hfound : TcpOptions.timestamp? (a.headers.rawOptions a.frame.octets) with _ | found
  · rw [TcpOptions.eq_of_masked_eq _ _ hmask.symm hfound]
  · -- The mask hides the echo reply, and that is not where the octet lies.
    rcases ha.reads.timestamp_eq found hfound with ⟨timestamp, hsome, _, hoffset, _, _⟩
    simp only [Headers.echoes, hsome, Option.any_some, decide_eq_true_eq] at hecho
    exact TcpOptions.agree_of_masked_eq _ _ found hmask hfound k (by omega)

/-- Of the TCP header the segments share the ports, the length, and the options but
    for the echo reply. -/
theorem SamePath.tcp_octet (path : a.SamePath b) (ha : a.Genuine) (hb : b.Genuine)
    (htransport : b.headers.transport = a.headers.transport)
    (htransportLength : b.headers.transportLength = a.headers.transportLength)
    (hoptions : b.headers.options = a.headers.options) (j : Nat)
    (hstart : a.headers.transport.toNat ≤ j) (hj : j < a.headers.length) :
    a.frame.octets.SameAt b.frame.octets j (a.headers.ownBits j ||| a.headers.looseBits j) := by
  have hlink : ¬ j < a.headers.network.toNat := by
    have hle := ha.reads.network_le
    omega
  have hlength : b.headers.length = a.headers.length := by
    rw [Headers.length, Headers.length, htransport, htransportLength]
  have hin := Nat.le_trans ha.reads.fits ha.reads.inside
  have hin' := Nat.le_trans hb.reads.fits hb.reads.inside
  simp only [Headers.ownBits, Headers.looseBits, if_neg hlink, if_neg (Nat.not_lt.mpr hstart)]
  -- An octet that is not compared may differ in every bit. Of the others one is compared in part.
  by_cases hown : a.headers.transport.toNat + 4 ≤ j ∧ j < a.headers.transport.toNat + 12
    ∨ a.headers.transport.toNat + 13 ≤ j ∧ j < a.headers.transport.toNat + tcpLength
    ∨ a.headers.echoes j = true
  · have hall : ∀ bits : UInt8, 0xFF ||| bits = 0xFF := fun bits => by
      rw [UInt8.or_comm, or_all]
    rw [if_pos hown, hall]
    exact .of_all _ _ _ (by omega) (by omega)
  rw [if_neg hown]
  by_cases hoffset : j = a.headers.transport.toNat + 12
  · -- The octet is half header length and half reserved.
    subst hoffset
    rcases ha.reads.dataOffset with ⟨x, hx, hxlength⟩
    rcases hb.reads.dataOffset with ⟨y, hy, hylength⟩
    rw [htransport] at hy
    rw [htransportLength] at hylength
    rw [if_pos rfl]
    exact ⟨x, y, hx, hy, or_low_eq y x (by omega)⟩
  · refine .of_eq _ _ _ _ (by omega) ?_
    by_cases hport : j < a.headers.transport.toNat + 4
    · rcases Nat.exists_eq_add_of_le hstart with ⟨i, rfl⟩
      exact path.port_octet ha htransport i (by omega)
    · have hplain : tcpLength = 20 := rfl
      exact option_octet ha hb htransport htransportLength hoptions j (by omega) hj
        (fun hecho => hown (Or.inr (Or.inr hecho)))

/-- Segments that could both be merged into one aggregate have the same headers, but
    for the bits that are each segment's own and those that nothing looks at. -/
theorem Alike.sameBut (alike : a.Alike b) (self : a.Alike a) (path : a.SamePath b) :
    a.SameBut (fun j => a.headers.ownBits j ||| a.headers.looseBits j) b := by
  have ha := self.genuine
  have hb := alike.genuine
  have htransportLength := transportLength_eq ha hb alike.options
  have htransport : b.headers.transport = a.headers.transport := by
    have hlength := alike.length
    rw [Headers.length, Headers.length, htransportLength] at hlength
    rw [← UInt16.toNat_inj]
    omega
  have hwhole := ((Headers.mergeable_iff _).mp self.mergeable).2.2.1
  have hwhole' := ((Headers.mergeable_iff _).mp alike.mergeable).2.2.1
  have hin := Nat.le_trans ha.reads.fits ha.reads.inside
  refine ⟨path.version, path.network_eq ha hb, htransport, htransportLength, fun j hj => ?_⟩
  by_cases hlink : j < a.headers.network.toNat
  · exact .of_eq _ _ _ _ (by omega) (path.link_octet ha hb j hlink)
  by_cases hip : j < a.headers.transport.toNat
  · rcases Nat.exists_eq_add_of_le (Nat.not_lt.mp hlink) with ⟨i, rfl⟩
    simp only [Headers.ownBits, Headers.looseBits, if_neg hlink, if_pos hip,
      Nat.add_sub_cancel_left]
    exact path.ip_octet ha hb htransport alike.traits hwhole hwhole' i hip
  · exact path.tcp_octet ha hb htransport htransportLength alike.options j (Nat.not_lt.mp hip) hj

end Segment

end ReceiveOffload
