import ReceiveOffload.Proofs.Merged
import ReceiveOffload.Proofs.OptionLists

/-!
# Reading Datagrams That Were Written

A TCP datagram put together from its fields, and what is read of it. `Datagram` has all
that can be chosen: the link header with its tags, either version of IP, options of both
headers, a value for every field, and a payload of any length that the length field can
state. `Datagram.octets` lays it out, and `Datagram.headers` is what a reader is owed.

Each header is read on its own, whatever comes behind it, so the proof goes from the
outside in as reading does. What is read of a datagram is what was put into it, for
every datagram of version 4. In version 6 the length field leaves the header out, so a
frame can be longer than the limit is that is made for version 4, and then the datagram
is refused although nothing is wrong with it.

## Main definitions

* `EthernetHeader`, `Ipv4Fields`, `Ipv6Fields`, `TcpFields`: What headers are made of.
* `Datagram`: A TCP datagram, whose length the length field can state.
* `Datagram.octets`, `Datagram.frame`: Its octets, and the frame that carries it.
* `Datagram.headers`: What its headers say.

## Theorems

* `EthernetHeader.ethertypeEnd_octets`: The search for the ethertype goes past the tags.
* `IpFields.decode_octets`: The fields of an IP header are read back.
* `Datagram.readsFrom`: The headers of a datagram stand in its frame.
* `decode_frame_iff`: A datagram is read back if and only if its frame is within the
  limit.
-/

namespace ReceiveOffload

open Octets

/-- A tag of an Ethernet header. -/
structure EthernetTag where
  /-- It is a service tag and not one of a customer. -/
  service : Bool
  control : UInt16
  deriving DecidableEq, Repr

namespace EthernetTag

/-- The ethertype that announces the tag. -/
def ethertype (tag : EthernetTag) : UInt16 :=
  if tag.service then 0x88A8 else 0x8100

def octets (tag : EthernetTag) : Octets :=
  ofWord16 tag.ethertype ++ ofWord16 tag.control

end EthernetTag

/-- An Ethernet header but for the ethertype at its end. -/
structure EthernetHeader where
  destination : Octets
  source : Octets
  tags : List EthernetTag
  destination_length : destination.length = 6
  source_length : source.length = 6
  tags_length : tags.length ≤ maxTags

/-- The ethertype of a version of IP. -/
def IpVersion.ethertype : IpVersion → UInt16
  | v4 => 0x0800
  | v6 => 0x86DD

namespace EthernetHeader

variable (ethernet : EthernetHeader)

/-- The octets of the header in front of a datagram of the version. -/
def octets (version : IpVersion) : Octets :=
  ethernet.destination ++ ethernet.source
    ++ (ethernet.tags.flatMap EthernetTag.octets ++ ofWord16 version.ethertype)

theorem length_octets (version : IpVersion) :
    (ethernet.octets version).length = ethernetLength + 4 * ethernet.tags.length := by
  have htags : ∀ tags : List EthernetTag,
      (tags.flatMap EthernetTag.octets).length = 4 * tags.length := by
    intro tags
    induction tags with
    | nil => rfl
    | cons tag rest ih =>
        rw [List.flatMap_cons, List.length_append, ih, EthernetTag.octets, List.length_append,
          length_ofWord16, length_ofWord16, List.length_cons]
        omega
  rw [octets, List.length_append, List.length_append, List.length_append, htags,
    ethernet.destination_length, ethernet.source_length, length_ofWord16, ethernetLength]
  omega

/-- The search for the ethertype goes past the tags before it. -/
theorem ethertypeEnd_octets (tags : List EthernetTag) (version : IpVersion)
    (before after : Octets) (left : Nat) (hleft : tags.length < left) :
    ethertypeEnd
      (before ++ (tags.flatMap EthernetTag.octets ++ (ofWord16 version.ethertype ++ after)))
      left before.length = .ok (before.length + 4 * tags.length + 2) := by
  induction tags generalizing before left with
  | nil =>
      rcases left with _ | left
      · cases hleft
      rw [List.flatMap_nil, List.nil_append, ethertypeEnd, word16?_append]
      cases version <;> rfl
  | cons tag rest ih =>
      rcases left with _ | left
      · cases hleft
      have hword := word16?_append before (ofWord16 tag.control
        ++ (rest.flatMap EthernetTag.octets ++ (ofWord16 version.ethertype ++ after))) tag.ethertype
      have htag : tag.ethertype = 0x8100 ∨ tag.ethertype = 0x88A8 := by
        rcases hservice : tag.service
        · exact Or.inl (by rw [EthernetTag.ethertype, hservice]; rfl)
        · exact Or.inr (by rw [EthernetTag.ethertype, hservice]; rfl)
      -- The tag joins what is before the next ethertype.
      have hrest := ih (before ++ (ofWord16 tag.ethertype ++ ofWord16 tag.control)) left
        (Nat.lt_of_succ_lt_succ hleft)
      simp only [List.length_append, length_ofWord16, List.append_assoc] at hrest
      simp only [List.flatMap_cons, EthernetTag.octets, List.append_assoc, ethertypeEnd, hword,
        if_pos htag, List.length_cons]
      rw [hrest]
      congr 1
      omega

end EthernetHeader

/-- The fields of a version 4 header, but for its lengths. -/
structure Ipv4Fields where
  trafficClass : UInt8
  identification : UInt16
  /-- The three flags of fragmentation, of which the last announces more fragments. -/
  flags : Fin 8
  fragmentOffset : Fin 8192
  hopLimit : UInt8
  checksum : UInt16
  source : Octets
  destination : Octets
  options : Octets
  source_length : source.length = 4
  destination_length : destination.length = 4
  options_length : options.length % 4 = 0 ∧ options.length ≤ 40

/-- The fields of a version 6 header, but for its length. -/
structure Ipv6Fields where
  trafficClass : UInt8
  flowLabel : Fin 1048576
  hopLimit : UInt8
  source : Octets
  destination : Octets
  source_length : source.length = 16
  destination_length : destination.length = 16

/-- The fields of an IP header of either version. -/
inductive IpFields where
  | v4 (fields : Ipv4Fields)
  | v6 (fields : Ipv6Fields)

namespace IpFields

def version : IpFields → IpVersion
  | v4 _ => .v4
  | v6 _ => .v6

def headerLength : IpFields → Nat
  | v4 fields => ipv4Length + fields.options.length
  | v6 _ => ipv6Length

/-- What the length field states of a datagram that carries so many octets. -/
def stated (ip : IpFields) (carried : Nat) : Nat :=
  match ip with
  | v4 _ => ip.headerLength + carried
  | v6 _ => carried

/-- The octets of the header of a datagram that carries so many octets. -/
def octets (ip : IpFields) (carried : Nat) : Octets :=
  match ip with
  | v4 fields =>
    UInt8.ofNat (4 * 16 + ip.headerLength / 4) :: fields.trafficClass ::
      (ofWord16 (UInt16.ofNat (ip.stated carried)) ++ (ofWord16 fields.identification
      ++ (ofWord16 (UInt16.ofNat (fields.flags * 8192 + fields.fragmentOffset))
      ++ (fields.hopLimit :: IpHeader.tcpProtocol :: (ofWord16 fields.checksum
      ++ (fields.source ++ (fields.destination ++ fields.options)))))))
  | v6 fields =>
    ofWord32 (UInt32.ofNat (6 * 268435456 + fields.trafficClass.toNat * 1048576 + fields.flowLabel))
      ++ (ofWord16 (UInt16.ofNat (ip.stated carried))
      ++ (IpHeader.tcpProtocol :: fields.hopLimit :: (fields.source ++ fields.destination)))

/-- What the header says of a datagram that carries so many octets. -/
def header (ip : IpFields) (carried : Nat) : IpHeader where
  version := ip.version
  length := ip.headerLength
  datagramLength := ip.headerLength + carried
  traits :=
    match ip with
    | v4 fields => ⟨fields.trafficClass, fields.hopLimit, UInt8.ofNat fields.flags⟩
    | v6 fields => ⟨fields.trafficClass, fields.hopLimit, 0⟩
  fragment :=
    match ip with
    | v4 fields => fields.flags.val % 2 = 1 ∨ fields.fragmentOffset.val ≠ 0
    | v6 _ => false

theorem length_octets (ip : IpFields) (carried : Nat) :
    (ip.octets carried).length = ip.headerLength := by
  cases ip with
  | v4 fields =>
      simp only [octets, headerLength, ipv4Length, List.length_cons, List.length_append,
        length_ofWord16, fields.source_length, fields.destination_length]
      omega
  | v6 fields =>
      simp only [octets, headerLength, ipv6Length, List.length_cons, List.length_append,
        length_ofWord16, length_ofWord32, fields.source_length, fields.destination_length]

theorem headerLength_bounds (ip : IpFields) : 20 ≤ ip.headerLength ∧ ip.headerLength ≤ 60 := by
  cases ip with
  | v4 fields =>
      have hoptions := fields.options_length
      simp only [headerLength, ipv4Length]
      omega
  | v6 fields => simp only [headerLength, ipv6Length]; omega

/-- The fields of a version 4 header are read back, whatever is behind it. -/
theorem decode_octetsV4 (fields : Ipv4Fields) (carried : Nat) (rest : Octets)
    (hstated : (v4 fields).stated carried < 65536) :
    IpHeader.decode ((v4 fields).octets carried ++ rest) = .ok ((v4 fields).header carried) := by
  have hoptions := fields.options_length
  have hlength : ((v4 fields).octets carried ++ rest).length
      = (v4 fields).headerLength + rest.length := by
    rw [List.length_append, length_octets]
  have hheader : (v4 fields).headerLength = 20 + fields.options.length := rfl
  have hplain : ipv4Length = 20 := rfl
  -- Every number fits the field that it is laid out in.
  have hfirst : (UInt8.ofNat (4 * 16 + (v4 fields).headerLength / 4)).toNat
      = 4 * 16 + (v4 fields).headerLength / 4 :=
    UInt8.toNat_ofNat_of_lt' (by simp only [UInt8.size]; omega)
  have htotal : (UInt16.ofNat ((v4 fields).stated carried)).toNat
      = (v4 fields).headerLength + carried :=
    UInt16.toNat_ofNat_of_lt' (by simp only [UInt16.size]; exact hstated)
  have hflags := fields.flags.isLt
  have hoffset := fields.fragmentOffset.isLt
  have hfragment : (UInt16.ofNat (fields.flags * 8192 + fields.fragmentOffset)).toNat
      = fields.flags * 8192 + fields.fragmentOffset :=
    UInt16.toNat_ofNat_of_lt' (by simp only [UInt16.size]; omega)
  have hstated' : word16? ((v4 fields).octets carried ++ rest) 2
      = some (UInt16.ofNat ((v4 fields).stated carried)) := by
    show some (word16 _ _) = _
    rw [word16_ofWord16]
  have hfragment' : word16? ((v4 fields).octets carried ++ rest) 6
      = some (UInt16.ofNat (fields.flags * 8192 + fields.fragmentOffset)) := by
    show some (word16 _ _) = _
    rw [word16_ofWord16]
  refine (IpHeader.decode_eq_ok_iff _ _).mpr ⟨_, rfl, Or.inl ⟨by omega, ?_⟩⟩
  simp only [IpHeader.decodeV4, require_bind_eq_ok_iff, within_bind_eq_ok_iff, octet?, pure,
    Except.pure, Except.ok.injEq, hlength]
  refine ⟨⟨by omega, by omega⟩, IpHeader.tcpProtocol, rfl, rfl, _, hstated', by omega, _,
    hfragment', fields.trafficClass, rfl, fields.hopLimit, rfl, ?_⟩
  -- The flags are the quotient of what they share with the offset.
  simp only [header, version, hfirst, htotal, hfragment, IpHeader.mk.injEq, IpTraits.mk.injEq,
    true_and, decide_eq_decide]
  refine ⟨by omega, ?_, by omega⟩
  congr 1
  omega

/-- The fields of a version 6 header are read back, whatever is behind it. -/
theorem decode_octetsV6 (fields : Ipv6Fields) (carried : Nat) (rest : Octets)
    (hstated : (v6 fields).stated carried < 65536) :
    IpHeader.decode ((v6 fields).octets carried ++ rest) = .ok ((v6 fields).header carried) := by
  have hclass := fields.trafficClass.toNat_lt
  have hlabel := fields.flowLabel.isLt
  have hlength : ((v6 fields).octets carried ++ rest).length = ipv6Length + rest.length := by
    rw [List.length_append, length_octets]
    rfl
  have hread : word16? ((v6 fields).octets carried ++ rest) 4
      = some (UInt16.ofNat ((v6 fields).stated carried)) := by
    show some (word16 _ _) = _
    rw [word16_ofWord16]
  have htotal : (UInt16.ofNat ((v6 fields).stated carried)).toNat = carried :=
    UInt16.toNat_ofNat_of_lt' (by simp only [UInt16.size]; exact hstated)
  -- The traffic class is split between the first two octets.
  have hword : (UInt32.ofNat (6 * 268435456 + fields.trafficClass.toNat * 1048576
      + fields.flowLabel)).toNat
        = 6 * 268435456 + fields.trafficClass.toNat * 1048576 + fields.flowLabel :=
    UInt32.toNat_ofNat_of_lt' (by simp only [UInt32.size]; omega)
  refine (IpHeader.decode_eq_ok_iff _ _).mpr ⟨_, rfl, Or.inr ⟨?_, ?_⟩⟩
  · simp only [hword, UInt8.toNat_ofNat', UInt16.toNat_ofNat']
    omega
  simp only [IpHeader.decodeV6, require_bind_eq_ok_iff, within_bind_eq_ok_iff, octet?, pure,
    Except.pure, Except.ok.injEq, hlength]
  refine ⟨by omega, IpHeader.tcpProtocol, rfl, rfl, _, hread, _, rfl, fields.hopLimit, rfl, ?_⟩
  simp only [header, version, headerLength, htotal, IpHeader.mk.injEq, IpTraits.mk.injEq, true_and,
    and_true, ← UInt8.toNat_inj, hword, UInt8.toNat_ofNat', UInt16.toNat_ofNat']
  omega

/-- The fields of an IP header are read back, whatever is behind it. -/
theorem decode_octets (ip : IpFields) (carried : Nat) (rest : Octets)
    (hstated : ip.stated carried < 65536) :
    IpHeader.decode (ip.octets carried ++ rest) = .ok (ip.header carried) := by
  cases ip with
  | v4 fields => exact decode_octetsV4 fields carried rest hstated
  | v6 fields => exact decode_octetsV6 fields carried rest hstated

end IpFields

/-- The fields of a TCP header, but for its length. -/
structure TcpFields where
  sourcePort : UInt16
  destinationPort : UInt16
  seq : UInt32
  ack : UInt32
  reserved : Fin 16
  flags : UInt8
  window : UInt16
  checksum : UInt16
  urgent : UInt16
  options : OptionArea
  options_length : options.octets.length % 4 = 0 ∧ options.octets.length ≤ 40

namespace TcpFields

variable (tcp : TcpFields)

def headerLength : Nat :=
  tcpLength + tcp.options.octets.length

def octets : Octets :=
  ofWord16 tcp.sourcePort ++ (ofWord16 tcp.destinationPort ++ (ofWord32 tcp.seq
    ++ (ofWord32 tcp.ack ++ (UInt8.ofNat (tcp.headerLength / 4 * 16 + tcp.reserved) :: tcp.flags ::
    (ofWord16 tcp.window ++ (ofWord16 tcp.checksum ++ (ofWord16 tcp.urgent
    ++ tcp.options.octets)))))))

theorem length_octets : tcp.octets.length = tcp.headerLength := by
  simp only [octets, headerLength, tcpLength, List.length_cons, List.length_append,
    length_ofWord16, length_ofWord32]
  omega

theorem headerLength_bounds : 20 ≤ tcp.headerLength ∧ tcp.headerLength ≤ 60 := by
  have hoptions := tcp.options_length
  simp only [headerLength, tcpLength]
  omega

/-- The octet in which the length of the header stands states it. -/
theorem dataOffset_eq : ∃ o : UInt8, ∀ rest : Octets, (tcp.octets ++ rest)[12]? = some o ∧
    o.toNat / 16 * 4 = tcp.headerLength := by
  have hoptions := tcp.options_length
  have hreserved := tcp.reserved.isLt
  have hbounds := tcp.headerLength_bounds
  have hoffset : (UInt8.ofNat (tcp.headerLength / 4 * 16 + tcp.reserved)).toNat
      = tcp.headerLength / 4 * 16 + tcp.reserved :=
    UInt8.toNat_ofNat_of_lt' (by simp only [UInt8.size]; omega)
  refine ⟨_, fun rest => ⟨rfl, ?_⟩⟩
  rw [hoffset]
  simp only [headerLength, tcpLength] at hbounds ⊢
  omega

/-- The fields of a TCP header are read back, whatever is behind it. -/
theorem read_octets (rest : Octets) :
    word32? (tcp.octets ++ rest) 4 = some tcp.seq ∧
      word32? (tcp.octets ++ rest) 8 = some tcp.ack ∧
      (tcp.octets ++ rest)[13]? = some tcp.flags ∧
      word16? (tcp.octets ++ rest) 14 = some tcp.window ∧
      word16? (tcp.octets ++ rest) 18 = some tcp.urgent := by
  refine ⟨?_, ?_, rfl, ?_, ?_⟩
  · show some (word32 (word16 _ _) (word16 _ _)) = _
    rw [word16_ofWord16, word16_ofWord16, word32_ofWord32]
  · show some (word32 (word16 _ _) (word16 _ _)) = _
    rw [word16_ofWord16, word16_ofWord16, word32_ofWord32]
  · show some (word16 _ _) = _
    rw [word16_ofWord16]
  · show some (word16 _ _) = _
    rw [word16_ofWord16]

/-- Behind the fixed part of a TCP header stand its options. -/
theorem drop_octets (rest : Octets) :
    (tcp.octets ++ rest).drop tcpLength = tcp.options.octets ++ rest :=
  rfl

end TcpFields

/-- A TCP datagram behind a link header, whose length the length field can state. -/
structure Datagram where
  ethernet : Option EthernetHeader
  ip : IpFields
  tcp : TcpFields
  payload : Octets
  stated_lt : ip.stated (tcp.headerLength + payload.length) < 65536

namespace Datagram

variable (d : Datagram)

/-- The number of octets that the IP header is put before. -/
def carried : Nat :=
  d.tcp.headerLength + d.payload.length

/-- The octets of the link header, which a bare datagram does not have. -/
def linkOctets : Octets :=
  match d.ethernet with
  | none => []
  | some ethernet => ethernet.octets d.ip.version

/-- The octets of the datagram, laid out header after header. -/
def octets : Octets :=
  d.linkOctets ++ (d.ip.octets d.carried ++ (d.tcp.octets ++ d.payload))

/-- The frame that carries the datagram. -/
def frame (damaged : Bool) : Frame where
  octets := d.octets
  link := if d.ethernet.isSome then .ethernet else .rawIp
  damaged := damaged

/-- Where the TCP header starts. -/
def transport : Nat :=
  d.linkOctets.length + d.ip.headerLength

/-- What the headers of the datagram say. -/
def headers : Headers where
  version := d.ip.version
  network := UInt16.ofNat d.linkOctets.length
  transport := UInt16.ofNat d.transport
  transportLength := UInt8.ofNat d.tcp.headerLength
  datagramEnd := UInt32.ofNat (d.transport + d.carried)
  traits := (d.ip.header d.carried).traits
  seq := d.tcp.seq
  ack := d.tcp.ack
  flags := d.tcp.flags
  window := d.tcp.window
  urgent := d.tcp.urgent
  timestamp := (TcpOption.firstTimestamp 0 d.tcp.options.options).map fun found =>
    ⟨found.value, found.echo, UInt16.ofNat (d.transport + tcpLength + found.position)⟩
  options := d.tcp.options.silenced.octets
  fragment := (d.ip.header d.carried).fragment
  padded := false

theorem length_linkOctets : d.linkOctets.length ≤ 22 := by
  unfold linkOctets
  rcases d.ethernet with _ | ethernet
  · exact Nat.zero_le 22
  · have htags := ethernet.tags_length
    simp only [ethernet.length_octets, ethernetLength, maxTags] at htags ⊢
    omega

theorem length_octets : d.octets.length = d.transport + d.carried := by
  simp only [octets, transport, carried, List.length_append, IpFields.length_octets,
    TcpFields.length_octets]
  omega

/-- Behind the link header stands the IP header, and behind that the TCP header. -/
theorem drop_link :
    d.octets.drop d.linkOctets.length = d.ip.octets d.carried ++ (d.tcp.octets ++ d.payload) :=
  List.drop_left

theorem drop_transport : d.octets.drop d.transport = d.tcp.octets ++ d.payload := by
  rw [transport, ← List.drop_drop, drop_link]
  exact List.drop_left' (d.ip.length_octets d.carried)

/-- The IP header starts behind the link header. -/
theorem networkOffset_frame (damaged : Bool) :
    networkOffset (d.frame damaged) = .ok d.linkOctets.length := by
  rcases hlink : d.ethernet with _ | ethernet
  · simp only [networkOffset, frame, linkOctets, hlink, Option.isSome_none, Bool.false_eq_true,
      if_false, List.length_nil]
  · have htags := ethernet.tags_length
    have hlength := ethernet.length_octets d.ip.version
    have hlinkOctets : d.linkOctets = ethernet.octets d.ip.version := by
      rw [linkOctets, hlink]
    have haddresses : (ethernet.destination ++ ethernet.source).length = 12 := by
      rw [List.length_append, ethernet.destination_length, ethernet.source_length]
    have hend := EthernetHeader.ethertypeEnd_octets ethernet.tags d.ip.version
      (ethernet.destination ++ ethernet.source)
      (d.ip.octets d.carried ++ (d.tcp.octets ++ d.payload)) (maxTags + 1)
      (Nat.lt_succ_of_le htags)
    have hoctets : d.octets = ethernet.destination ++ ethernet.source
        ++ (ethernet.tags.flatMap EthernetTag.octets ++ (ofWord16 d.ip.version.ethertype
        ++ (d.ip.octets d.carried ++ (d.tcp.octets ++ d.payload)))) := by
      simp only [octets, hlinkOctets, EthernetHeader.octets, List.append_assoc]
    rw [← hoctets, haddresses] at hend
    have hlong : ethernetLength ≤ d.octets.length := by
      rw [octets, List.length_append, hlinkOctets, hlength]
      omega
    simp only [networkOffset, frame, hlink, Option.isSome_some, if_true, require_bind_eq_ok_iff]
    refine ⟨hlong, ?_⟩
    rw [hend, hlinkOctets, hlength, ethernetLength]
    congr 1
    omega

/-- All offsets of a datagram fit the widths that they are kept in. -/
theorem headers_offsets :
    d.headers.network.toNat = d.linkOctets.length ∧ d.headers.transport.toNat = d.transport ∧
      d.headers.transportLength.toNat = d.tcp.headerLength ∧
      d.headers.datagramEnd.toNat = d.octets.length := by
  have hlink := d.length_linkOctets
  have hip := d.ip.headerLength_bounds
  have htcp := d.tcp.headerLength_bounds
  have hstated := d.stated_lt
  -- Both versions state a length that counts what the datagram carries.
  have hcarried : d.carried < 65536 := by
    rcases hv : d.ip with fields | fields <;> simp only [hv, IpFields.stated] at hstated <;>
      simp only [carried] <;> omega
  refine ⟨UInt16.toNat_ofNat_of_lt' ?_, UInt16.toNat_ofNat_of_lt' ?_,
    UInt8.toNat_ofNat_of_lt' ?_, (UInt32.toNat_ofNat_of_lt' ?_).trans d.length_octets.symm⟩ <;>
    simp only [UInt16.size, UInt8.size, UInt32.size, transport] <;> omega

theorem headers_length : d.headers.length = d.transport + d.tcp.headerLength := by
  rcases d.headers_offsets with ⟨_, htransport, hheader, _⟩
  rw [Headers.length, htransport, hheader]

/-- The options and the payload of a datagram are found behind its headers. -/
theorem rawOptions_octets : d.headers.rawOptions d.octets = d.tcp.options.octets := by
  have hheader : d.transport + d.tcp.headerLength - (d.transport + tcpLength)
      = d.tcp.options.octets.length := by
    simp only [TcpFields.headerLength]
    omega
  rw [Headers.rawOptions, headers_length, d.headers_offsets.2.1, List.drop_take, hheader,
    ← List.drop_drop, drop_transport, TcpFields.drop_octets, List.take_left]

theorem payload_octets : d.headers.payload d.octets = d.payload := by
  rw [Headers.payload, headers_length, d.headers_offsets.2.2.2, List.take_length, ← List.drop_drop,
    drop_transport]
  exact List.drop_left' d.tcp.length_octets

/-- The headers of a datagram within the limit stand in its frame. -/
theorem readsFrom (damaged : Bool) (hmax : d.octets.length ≤ maxFrameLength) :
    d.headers.ReadsFrom (d.frame damaged) := by
  rcases d.headers_offsets with ⟨hnetwork, htransport, hheader, hend⟩
  rcases d.tcp.read_octets d.payload with ⟨hseq, hack, hflags, hwindow, hurgent⟩
  have hip := d.ip.headerLength_bounds
  have htcp := d.tcp.headerLength_bounds
  have hlength := d.length_octets
  -- The TCP header is read behind the IP header.
  have hoctet : ∀ i, d.octets[d.transport + i]? = (d.tcp.octets ++ d.payload)[i]? := by
    intro i
    rw [← drop_transport, List.getElem?_drop]
  have hword : ∀ i, d.octets.word16? (d.transport + i)
      = word16? (d.tcp.octets ++ d.payload) i := by
    intro i
    rw [← drop_transport, word16?_drop]
  have hlong : ∀ i, d.octets.word32? (d.transport + i)
      = word32? (d.tcp.octets ++ d.payload) i := by
    intro i
    rw [← drop_transport, word32?_drop]
  constructor
  case length_le => exact hmax
  case link => rw [hnetwork]; exact d.networkOffset_frame damaged
  case network_le => rw [hnetwork, htransport, transport]; omega
  case ip =>
    -- The lengths of the header and the datagram are differences of the offsets.
    have hheaders : d.headers.ipHeader = d.ip.header d.carried := by
      simp only [Headers.ipHeader, hnetwork, htransport, hend, hlength, transport,
        Nat.add_sub_cancel_left, Nat.add_assoc]
      rfl
    rw [hnetwork, hheaders]
    show IpHeader.decode (d.octets.drop _) = _
    rw [drop_link]
    exact d.ip.decode_octets d.carried _ d.stated_lt
  case dataOffset =>
    rcases d.tcp.dataOffset_eq with ⟨o, ho⟩
    refine ⟨o, ?_, by rw [hheader, (ho d.payload).2]⟩
    rw [htransport]
    exact (hoctet 12).trans (ho d.payload).1
  case minimum => rw [hheader, tcpLength]; omega
  case fits => rw [headers_length, hend, hlength, carried]; omega
  case inside => rw [hend]; exact Nat.le_refl _
  case seq => rw [htransport]; exact (hlong 4).trans hseq
  case ack => rw [htransport]; exact (hlong 8).trans hack
  case flags => rw [htransport]; exact (hoctet 13).trans hflags
  case window => rw [htransport]; exact (hword 14).trans hwindow
  case urgent => rw [htransport]; exact (hword 18).trans hurgent
  case timestamp =>
    -- The walk through the octets finds the first timestamp of the list.
    show _ = (TcpOptions.timestamp? (d.headers.rawOptions d.octets)).map _
    rw [rawOptions_octets, TcpOptions.timestamp?_octets, htransport]
    rfl
  case options =>
    show _ = TcpOptions.masked (d.headers.rawOptions d.octets)
    rw [rawOptions_octets, TcpOptions.masked_octets]
    rfl
  case padded =>
    show false = decide (_ ≠ d.octets.length)
    rw [hend, eq_comm, decide_eq_false_iff_not]
    exact fun hne => hne rfl

end Datagram

/-- A frame beyond the limit is refused before anything of it is read. -/
theorem Headers.decode_oversized (frame : Frame) (hmax : maxFrameLength < frame.octets.length) :
    Headers.decode frame = .error (.malformed .oversized) := by
  rw [Headers.decode]
  simp only [require, if_neg (Nat.not_le.mpr hmax)]
  rfl

/-- A datagram put together from its fields is read back, with all its fields and its
    payload, if and only if its frame is within the limit. In version 4 it always is.
    In version 6 it is not if the datagram has its greatest lengths, and then the frame
    is refused for its size. -/
theorem decode_frame_iff (d : Datagram) (damaged : Bool) :
    (Headers.decode (d.frame damaged) = .ok d.headers ↔ d.octets.length ≤ maxFrameLength) ∧
      (maxFrameLength < d.octets.length →
        Headers.decode (d.frame damaged) = .error (.malformed .oversized)) ∧
      (d.ip.version = .v4 → d.octets.length ≤ maxFrameLength) ∧
      d.headers.payload d.octets = d.payload ∧ d.headers.payloadLength = d.payload.length ∧
      d.headers.length + d.payload.length = d.octets.length := by
  have hcarried : d.transport + d.tcp.headerLength + d.payload.length = d.octets.length := by
    rw [d.length_octets, Datagram.carried, Nat.add_assoc]
  refine ⟨⟨fun hdecode => ?_, fun hmax => ?_⟩, Headers.decode_oversized (d.frame damaged), ?_,
    d.payload_octets, ?_, ?_⟩
  · by_contra hmax
    rw [Headers.decode_oversized (d.frame damaged) (Nat.not_le.mp hmax)] at hdecode
    cases hdecode
  · exact Headers.decode_of_readsFrom _ _ (d.readsFrom damaged hmax)
  · -- The length field of version 4 counts the header, and the limit leaves room for
    -- the longest link header.
    intro hversion
    have hstated := d.stated_lt
    have hlink := d.length_linkOctets
    rw [d.length_octets, Datagram.transport, Datagram.carried, maxFrameLength, ethernetLength,
      maxTags]
    rcases hip : d.ip with fields | fields
    · simp only [hip, IpFields.stated] at hstated
      omega
    · rw [hip] at hversion
      cases hversion
  · rw [Headers.payloadLength, d.headers_length, d.headers_offsets.2.2.2]
    omega
  · rw [d.headers_length, hcarried]

/-- A TCP header without options. -/
def bareTcp : TcpFields where
  sourcePort := 40000
  destinationPort := 8080
  seq := 1
  ack := 1
  reserved := 0
  flags := TcpFlag.ack
  window := 4096
  checksum := 0
  urgent := 0
  options := ⟨[], [], trivial⟩
  options_length := ⟨rfl, Nat.zero_le 40⟩

/-- A header of version 6, which is always of the same length. -/
def bareIp : IpFields :=
  .v6 {
    trafficClass := 0
    flowLabel := 0
    hopLimit := 64
    source := List.replicate 16 1
    destination := List.replicate 16 2
    source_length := List.length_replicate
    destination_length := List.length_replicate
  }

/-- The longest datagram of version 6 without a link header: the length field has its
    greatest value. -/
def longest : Datagram where
  ethernet := none
  ip := bareIp
  tcp := bareTcp
  payload := List.replicate 65515 0
  stated_lt := by
    rw [List.length_replicate]
    exact Nat.lt_succ_self 65535

/-- Nothing is wrong with the longest datagram, and it is refused for its size. So not
    every datagram is read back. -/
theorem not_decode_longest :
    Headers.decode (longest.frame false) = .error (.malformed .oversized) ∧
      ¬ ∀ (d : Datagram) (damaged : Bool),
        Headers.decode (d.frame damaged) = .ok d.headers := by
  have hlength : longest.octets.length = 65575 := by
    have hpayload : longest.payload.length = 65515 := List.length_replicate
    rw [Datagram.length_octets, Datagram.carried, hpayload]
    rfl
  have hrefused : Headers.decode (longest.frame false) = .error (.malformed .oversized) :=
    Headers.decode_oversized (longest.frame false) (by
      show maxFrameLength < longest.octets.length
      rw [hlength]
      decide)
  refine ⟨hrefused, fun hall => ?_⟩
  have hread := hall longest false
  rw [hrefused] at hread
  cases hread

end ReceiveOffload
