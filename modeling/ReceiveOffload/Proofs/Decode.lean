import ReceiveOffload.Proofs.Options
import ReceiveOffload.Segment.Decode

/-!
# What Reading the Headers Depends On

Reading the headers of a frame is a chain of checks and reads, each of which
depends on the ones before it. `Headers.ReadsFrom` takes the chain apart: it
says of headers and a frame which octets every field stands in, with all
offsets taken from the headers themselves, and `Headers.decode_eq_ok_iff` says
that nothing else is needed. A frame whose headers were changed is then read by
going through the fields, and not by running the chain again.

Below that, each layer depends on its own octets only. The link header decides
where the IP header starts, and the octets behind it do not matter to it. The
IP header decides the rest, and of its own octets the length and the checksum
can change without the layout changing. That is what the two `of_agree` lemmas
say, and it is why an aggregate can be read again after it has grown and its
length was rewritten.

## Main definitions

* `IpVersion.lengthOffset`, `IpVersion.uncounted`: The length field of an IP
  header, and how many octets it leaves out.
* `IpVersion.Rewritten`: The octets of an IP header that sealing rewrites.
* `Headers.ipHeader`: The IP header as far as headers remember it.
* `Headers.rawOptions`, `Headers.payload`: The options and the payload.
* `Headers.ReadsFrom`: The octets that the fields stand in.
* `Headers.Rewrites`: The octets that sealing an aggregate may rewrite.
* `Headers.reread`: What is read after that.

## Theorems

* `networkOffset_of_agree`: Where the IP header starts depends on the octets
  before it.
* `IpHeader.decode_of_agree`: The length and the checksum do not decide the
  layout of an IP header.
* `Headers.decode_eq_ok_iff`: Reading succeeds where the fields stand.
* `Headers.ReadsFrom.reread`, `Headers.ReadsFrom.append`: A frame can be read
  after it was rewritten, and after octets were put behind it.
-/

namespace ReceiveOffload

/-- What a chain of steps gives, the first step gave something for. -/
theorem bind_eq_ok_iff {α β : Type} (x : Except Failure α) (f : α → Except Failure β) (b : β) :
    (x >>= f) = .ok b ↔ ∃ a, x = .ok a ∧ f a = .ok b := by
  cases x with
  | error cause => simp only [bind, Except.bind, reduceCtorEq, false_and, exists_false]
  | ok a => simp only [bind, Except.bind, Except.ok.injEq, exists_eq_left']

theorem require_bind_eq_ok_iff {β : Type} (condition : Prop) [Decidable condition]
    (cause : Malformation) (f : Unit → Except Failure β) (b : β) :
    (require condition cause >>= f) = .ok b ↔ condition ∧ f () = .ok b := by
  by_cases h : condition
  · simp only [require, h, if_true, bind, Except.bind, true_and]
  · simp only [require, h, if_false, bind, Except.bind, reduceCtorEq, false_and]

theorem within_bind_eq_ok_iff {α β : Type} (o : Option α) (f : α → Except Failure β) (b : β) :
    (within o >>= f) = .ok b ↔ ∃ a, o = some a ∧ f a = .ok b := by
  cases o with
  | none => simp only [within, bind, Except.bind, reduceCtorEq, false_and, exists_false]
  | some a =>
      simp only [within, bind, Except.bind, Option.some.injEq, exists_eq_left']

/-- Where an ethertype ends lies behind where it starts, inside the frame and
    no further on than the tags allow. -/
theorem ethertypeEnd_bounds (b : Octets) (left position n : Nat)
    (h : ethertypeEnd b left position = .ok n) :
    position + 2 ≤ n ∧ n + 2 ≤ position + 4 * left ∧ n ≤ b.length := by
  induction left generalizing position with
  | zero => cases h
  | succ left ih =>
      rcases hw : b.word16? position with _ | ethertype
      · simp only [ethertypeEnd, hw, reduceCtorEq] at h
      · have hin := Octets.le_length_of_word16? b position ethertype hw
        simp only [ethertypeEnd, hw] at h
        by_cases htag : ethertype = 0x8100 ∨ ethertype = 0x88A8
        · rw [if_pos htag] at h
          have hrest := ih (position + 4) h
          omega
        · rw [if_neg htag] at h
          by_cases hip : ethertype = 0x0800 ∨ ethertype = 0x86DD
          · rw [if_pos hip, Except.ok.injEq] at h
            omega
          · rw [if_neg hip] at h
            cases h

theorem ethertypeEnd_of_agree (b b' : Octets) (left position n : Nat)
    (h : ethertypeEnd b left position = .ok n)
    (hsame : ∀ j, j < n → b'[j]? = b[j]?) : ethertypeEnd b' left position = .ok n := by
  induction left generalizing position with
  | zero => cases h
  | succ left ih =>
      -- What is read on the way to `n` lies before `n`, tag after tag.
      have hbounds := ethertypeEnd_bounds b (left + 1) position n h
      have hword : b'.word16? position = b.word16? position :=
        Octets.word16?_of_agreeOn b b' position (fun j _ hj => hsame j (by omega))
      rcases hw : b.word16? position with _ | ethertype
      · simp only [ethertypeEnd, hw, reduceCtorEq] at h
      · simp only [ethertypeEnd, hw] at h
        simp only [ethertypeEnd, hword, hw]
        by_cases htag : ethertype = 0x8100 ∨ ethertype = 0x88A8
        · rw [if_pos htag] at h ⊢
          exact ih (position + 4) h
        · rw [if_neg htag] at h ⊢
          exact h

/-- The IP header of a frame starts inside the frame, at most two tags behind
    an Ethernet header. -/
theorem networkOffset_le (frame : Frame) (n : Nat) (h : networkOffset frame = .ok n) :
    n ≤ 22 ∧ n ≤ frame.octets.length := by
  unfold networkOffset at h
  rcases hlink : frame.link with _ | _
  · simp only [hlink, Except.ok.injEq] at h
    omega
  · simp only [hlink, require_bind_eq_ok_iff] at h
    rcases h with ⟨hlong, hend⟩
    have hbounds := ethertypeEnd_bounds frame.octets _ 12 n hend
    simp only [maxTags] at hbounds
    omega

/-- Where the IP header starts depends on the octets before it. -/
theorem networkOffset_of_agree (frame frame' : Frame) (n : Nat)
    (h : networkOffset frame = .ok n) (hlink : frame'.link = frame.link)
    (hsame : ∀ j, j < n → frame'.octets[j]? = frame.octets[j]?) :
    networkOffset frame' = .ok n := by
  unfold networkOffset at h ⊢
  rcases hl : frame.link with _ | _
  · simp only [hlink, hl] at h ⊢
    exact h
  · simp only [hlink, hl, require_bind_eq_ok_iff] at h ⊢
    rcases h with ⟨hlong, hend⟩
    have hbounds := ethertypeEnd_bounds frame.octets _ 12 n hend
    -- An Ethernet header has room in the other frame too, since the last octet
    -- before the IP header is there.
    have hin : n - 1 < frame'.octets.length := by
      have hlast := List.getElem?_eq_getElem (show n - 1 < frame.octets.length by omega)
      rw [← hsame (n - 1) (by omega)] at hlast
      exact (List.getElem?_eq_some_iff.mp hlast).1
    refine ⟨?_, ethertypeEnd_of_agree frame.octets frame'.octets _ 12 n hend hsame⟩
    simp only [Frame.length, ethernetLength]
    omega

namespace IpVersion

/-- Where the length field lies in an IP header. -/
def lengthOffset : IpVersion → Nat
  | v4 => 2
  | v6 => 4

/-- How many octets of a datagram its length field leaves out. -/
def uncounted : IpVersion → Nat
  | v4 => 0
  | v6 => ipv6Length

/-- The octets of an IP header that sealing rewrites: the length, and in
    version 4 the checksum. -/
def Rewritten : IpVersion → Nat → Prop
  | v4, j => 2 ≤ j ∧ j < 4 ∨ 10 ≤ j ∧ j < 12
  | v6, j => 4 ≤ j ∧ j < 6

end IpVersion

namespace IpHeader

/-- The first octet says which version is read, and nothing else is read as a
    header at all. -/
theorem decode_eq_ok_iff (ip : Octets) (header : IpHeader) :
    decode ip = .ok header ↔ ∃ first, ip.head? = some first ∧
      (first.toNat / 16 = 4 ∧ decodeV4 first ip = .ok header ∨
        first.toNat / 16 = 6 ∧ decodeV6 first ip = .ok header) := by
  unfold decode
  rcases ip.head? with _ | first
  · simp only [reduceCtorEq, false_and, exists_false]
  simp only [Option.some.injEq, exists_eq_left']
  by_cases h4 : first.toNat / 16 = 4
  · simp only [h4, if_true, true_and, Nat.reduceEqDiff, false_and, or_false]
  · by_cases h6 : first.toNat / 16 = 6
    · simp only [h6, Nat.reduceEqDiff, if_false, if_true, false_and, true_and, false_or]
    · simp only [h4, h6, if_false, reduceCtorEq, false_and, or_self]

/-- The header has room for its fields and lies in what was read, and the
    datagram is no shorter than its header. -/
theorem decode_bounds (ip : Octets) (header : IpHeader) (h : decode ip = .ok header) :
    20 ≤ header.length ∧ header.length ≤ 60 ∧ header.length ≤ ip.length ∧
      header.length ≤ header.datagramLength ∧ header.datagramLength < 65536 + 40 ∧
      (header.version = .v6 → header.length = ipv6Length) := by
  rcases (decode_eq_ok_iff ip header).mp h with ⟨first, _, ⟨_, h⟩ | ⟨_, h⟩⟩
  · simp only [decodeV4, require_bind_eq_ok_iff, within_bind_eq_ok_iff, pure, Except.pure,
      Except.ok.injEq] at h
    rcases h with ⟨⟨hmin, hin⟩, _, _, _, stated, _, hle, _, _, _, _, _, _, rfl⟩
    have hstated := stated.toNat_lt
    simp only [ipv4Length] at hmin
    -- Half an octet counts the words of the header, so it has at most sixty octets.
    exact ⟨hmin, by simp only; omega, hin, hle, by simp only; omega,
      fun hv => IpVersion.noConfusion hv⟩
  · simp only [decodeV6, require_bind_eq_ok_iff, within_bind_eq_ok_iff, pure, Except.pure,
      Except.ok.injEq] at h
    rcases h with ⟨hin, _, _, _, stated, _, _, _, _, _, rfl⟩
    have hstated := stated.toNat_lt
    simp only [ipv6Length] at hin ⊢
    exact ⟨by omega, by omega, hin, by omega, by omega, fun _ => trivial⟩

/-- The length field says how long the datagram is. -/
theorem decode_stated (ip : Octets) (header : IpHeader) (h : decode ip = .ok header) :
    ∃ stated, ip.word16? header.version.lengthOffset = some stated ∧
      header.datagramLength = header.version.uncounted + stated.toNat := by
  rcases (decode_eq_ok_iff ip header).mp h with ⟨first, _, ⟨_, h⟩ | ⟨_, h⟩⟩
  · simp only [decodeV4, require_bind_eq_ok_iff, within_bind_eq_ok_iff, pure, Except.pure,
      Except.ok.injEq] at h
    rcases h with ⟨_, _, _, _, stated, hstated, _, _, _, _, _, _, _, rfl⟩
    exact ⟨stated, hstated, (Nat.zero_add _).symm⟩
  · simp only [decodeV6, require_bind_eq_ok_iff, within_bind_eq_ok_iff, pure, Except.pure,
      Except.ok.injEq] at h
    rcases h with ⟨_, _, _, _, stated, hstated, _, _, _, _, rfl⟩
    exact ⟨stated, hstated, rfl⟩

/-- The length and the checksum do not decide the layout of an IP header. With
    another length, the header is the same but for the datagram's length. -/
theorem decode_of_agree (ip ip' : Octets) (header : IpHeader) (stated : UInt16)
    (h : decode ip = .ok header) (hlen : header.length ≤ ip'.length)
    (hsame : ∀ j, j < header.length → ¬ header.version.Rewritten j → ip'[j]? = ip[j]?)
    (hstated : ip'.word16? header.version.lengthOffset = some stated)
    (hfit : header.length ≤ header.version.uncounted + stated.toNat) :
    decode ip'
      = .ok { header with datagramLength := header.version.uncounted + stated.toNat } := by
  have hbounds := decode_bounds ip header h
  rcases (decode_eq_ok_iff ip header).mp h with ⟨first, hhead, hversion⟩
  have hhead' : ip'.head? = some first := by
    rw [List.head?_eq_getElem?, hsame 0 (by omega) (by
      cases header.version <;> simp only [IpVersion.Rewritten] <;> omega),
      ← List.head?_eq_getElem?, hhead]
  -- The version is the same, so the same fields are read, each where it was.
  rcases hversion with ⟨h4, h⟩ | ⟨h6, h⟩
  · refine (decode_eq_ok_iff ip' _).mpr ⟨first, hhead', Or.inl ⟨h4, ?_⟩⟩
    simp only [decodeV4, require_bind_eq_ok_iff, within_bind_eq_ok_iff, Octets.octet?, pure,
      Except.pure, Except.ok.injEq] at h ⊢
    rcases h with ⟨⟨hmin, hin⟩, protocol, hprotocol, htcp, _, _, _, fragmentation, hfragment,
      trafficClass, htraffic, hopLimit, hhop, rfl⟩
    simp only [IpVersion.Rewritten, IpVersion.uncounted, ipv4Length] at hsame hfit hbounds ⊢
    have hfragment' : ip'.word16? 6 = some fragmentation := by
      rw [← hfragment]
      exact Octets.word16?_of_agreeOn ip ip' 6
        (fun j h1 h2 => hsame j (by omega) (by omega))
    refine ⟨⟨hmin, hlen⟩, protocol, ?_, htcp, stated, hstated, by omega, fragmentation,
      hfragment', trafficClass, ?_, hopLimit, ?_, ?_⟩
    · rw [hsame 9 (by omega) (by omega), hprotocol]
    · rw [hsame 1 (by omega) (by omega), htraffic]
    · rw [hsame 8 (by omega) (by omega), hhop]
    · simp only [Nat.zero_add]
  · refine (decode_eq_ok_iff ip' _).mpr ⟨first, hhead', Or.inr ⟨h6, ?_⟩⟩
    simp only [decodeV6, require_bind_eq_ok_iff, within_bind_eq_ok_iff, Octets.octet?, pure,
      Except.pure, Except.ok.injEq] at h ⊢
    rcases h with ⟨hin, protocol, hprotocol, htcp, _, _, second, hsecond, hopLimit, hhop, rfl⟩
    simp only [IpVersion.Rewritten, IpVersion.uncounted] at hsame hbounds ⊢
    refine ⟨hlen, protocol, ?_, htcp, stated, hstated, second, ?_, hopLimit, ?_, rfl⟩
    · rw [hsame 6 (by omega) (by omega), hprotocol]
    · rw [hsame 1 (by omega) (by omega), hsecond]
    · rw [hsame 7 (by omega) (by omega), hhop]

end IpHeader

namespace Headers

/-- The IP header as far as headers remember it. -/
def ipHeader (h : Headers) : IpHeader where
  version := h.version
  length := h.transport.toNat - h.network.toNat
  datagramLength := h.datagramEnd.toNat - h.network.toNat
  traits := h.traits
  fragment := h.fragment

/-- The TCP options as they stand in the frame. -/
def rawOptions (h : Headers) (b : Octets) : Octets :=
  (b.take h.length).drop (h.transport.toNat + tcpLength)

/-- The TCP payload. -/
def payload (h : Headers) (b : Octets) : Octets :=
  (b.take h.datagramEnd.toNat).drop h.length

/-- The octets that the fields stand in, with all offsets as the headers have
    them. -/
structure ReadsFrom (h : Headers) (frame : Frame) : Prop where
  length_le : frame.octets.length ≤ maxFrameLength
  link : networkOffset frame = .ok h.network.toNat
  network_le : h.network.toNat ≤ h.transport.toNat
  ip : IpHeader.decode (frame.octets.drop h.network.toNat) = .ok h.ipHeader
  dataOffset : ∃ o, frame.octets[h.transport.toNat + 12]? = some o ∧
    h.transportLength.toNat = o.toNat / 16 * 4
  minimum : tcpLength ≤ h.transportLength.toNat
  fits : h.length ≤ h.datagramEnd.toNat
  inside : h.datagramEnd.toNat ≤ frame.octets.length
  seq : frame.octets.word32? (h.transport.toNat + 4) = some h.seq
  ack : frame.octets.word32? (h.transport.toNat + 8) = some h.ack
  flags : frame.octets[h.transport.toNat + 13]? = some h.flags
  window : frame.octets.word16? (h.transport.toNat + 14) = some h.window
  urgent : frame.octets.word16? (h.transport.toNat + 18) = some h.urgent
  timestamp : h.timestamp = (TcpOptions.timestamp? (h.rawOptions frame.octets)).map fun found =>
    ⟨found.value, found.echo, UInt16.ofNat (h.transport.toNat + tcpLength + found.position)⟩
  options : h.options = TcpOptions.masked (h.rawOptions frame.octets)
  padded : h.padded = decide (h.datagramEnd.toNat ≠ frame.octets.length)

/-- Where the headers lie: none of them is longer than its own limits. -/
theorem ReadsFrom.bounds {h : Headers} {frame : Frame} (r : h.ReadsFrom frame) :
    h.network.toNat ≤ 22 ∧ h.network.toNat + 20 ≤ h.transport.toNat ∧
      h.transport.toNat ≤ h.network.toNat + 60 ∧ h.transportLength.toNat ≤ 60 ∧
      h.datagramEnd.toNat < 65536 + 62 ∧
      (h.version = .v6 → h.transport.toNat = h.network.toNat + ipv6Length) := by
  have hnetwork := networkOffset_le frame _ r.link
  have hip := IpHeader.decode_bounds _ _ r.ip
  simp only [ipHeader] at hip
  have hle := r.network_le
  have hin := r.inside
  have hmax := r.length_le
  simp only [maxFrameLength, ethernetLength, maxTags] at hmax
  rcases r.dataOffset with ⟨o, _, ho⟩
  have hlt := o.toNat_lt
  refine ⟨hnetwork.1, by omega, by omega, by omega, by omega, fun hv => ?_⟩
  have hlen := hip.2.2.2.2.2 hv
  omega

/-- The options of the TCP header in the datagram are the options in the
    frame. -/
theorem drop_take_tcp (b : Octets) (e t n : Nat) (h : t + n ≤ e) :
    (((b.take e).drop t).take n).drop tcpLength = (b.take (t + n)).drop (t + tcpLength) := by
  rw [List.take_drop, List.take_take, Nat.min_eq_left h, List.drop_drop]

theorem readsFrom_of_decode (frame : Frame) (h : Headers) (hdecode : decode frame = .ok h) :
    h.ReadsFrom frame := by
  simp only [decode, bind_eq_ok_iff (networkOffset _), bind_eq_ok_iff (IpHeader.decode _),
    require_bind_eq_ok_iff, within_bind_eq_ok_iff, Octets.octet?, pure, Except.pure,
    Except.ok.injEq] at hdecode
  -- One name for each check and each read, in the order in which they are made.
  rcases hdecode with ⟨hmax, network, hlink, ip, hip, hinside, hroom, o, ho, ⟨hmin, hfit⟩,
    seq, hseq, ack, hack, flags, hflags, window, hwindow, urgent, hurgent, rfl⟩
  have hnetwork := networkOffset_le frame network hlink
  have hbounds := IpHeader.decode_bounds _ ip hip
  have hlt := o.toNat_lt
  simp only [maxFrameLength, ethernetLength, maxTags] at hmax
  simp only [tcpLength] at hroom hmin
  simp only [List.length_drop, List.length_take] at hinside hfit
  -- Every offset fits the width that it is kept in.
  have hnet : (UInt16.ofNat network).toNat = network :=
    UInt16.toNat_ofNat_of_lt' (by simp only [UInt16.size]; omega)
  have htransport : (UInt16.ofNat (network + ip.length)).toNat = network + ip.length :=
    UInt16.toNat_ofNat_of_lt' (by simp only [UInt16.size]; omega)
  have hheader : (UInt8.ofNat (o.toNat / 16 * 4)).toNat = o.toNat / 16 * 4 :=
    UInt8.toNat_ofNat_of_lt' (by simp only [UInt8.size]; omega)
  have hend : (UInt32.ofNat (network + ip.datagramLength)).toNat = network + ip.datagramLength :=
    UInt32.toNat_ofNat_of_lt' (by simp only [UInt32.size]; omega)
  have hoptions := drop_take_tcp frame.octets (network + ip.datagramLength) (network + ip.length)
    (o.toNat / 16 * 4) (by omega)
  constructor
  case length_le => exact hmax
  case link => simp only [hnet, hlink]
  case network_le => simp only [hnet, htransport]; omega
  case ip => simpa only [hnet, ipHeader, htransport, hend, Nat.add_sub_cancel_left] using hip
  case dataOffset =>
    refine ⟨o, ?_, hheader⟩
    rw [← ho, Octets.getElem?_take_drop _ _ _ _ (by omega)]
    simp only [htransport]
  case minimum => simp only [hheader, tcpLength, hmin]
  case fits => simp only [length, htransport, hheader, hend]; omega
  case inside => simp only [hend]; omega
  case seq => rw [← hseq, Octets.word32?_take_drop _ _ _ _ (by omega)]; simp only [htransport]
  case ack => rw [← hack, Octets.word32?_take_drop _ _ _ _ (by omega)]; simp only [htransport]
  case flags => rw [← hflags, Octets.getElem?_take_drop _ _ _ _ (by omega)]; simp only [htransport]
  case window =>
    rw [← hwindow, Octets.word16?_take_drop _ _ _ _ (by omega)]
    simp only [htransport]
  case urgent =>
    rw [← hurgent, Octets.word16?_take_drop _ _ _ _ (by omega)]
    simp only [htransport]
  case timestamp => simp only [rawOptions, length, htransport, hheader, hoptions]
  case options => simp only [rawOptions, length, htransport, hheader, hoptions]
  case padded => simp only [hend]

theorem decode_of_readsFrom (frame : Frame) (h : Headers) (r : h.ReadsFrom frame) :
    decode frame = .ok h := by
  have hbounds := r.bounds
  have hmin := r.minimum
  have hfits := r.fits
  have hinside := r.inside
  rcases r.dataOffset with ⟨o, ho, hheader⟩
  simp only [length, tcpLength] at hfits hmin
  -- Offsets are added up on the way and differences are kept, so the sums have
  -- to be found again before the fields are looked up.
  have htcp : h.network.toNat + h.ipHeader.length = h.transport.toNat := by
    simp only [ipHeader]
    omega
  have hend : h.network.toNat + h.ipHeader.datagramLength = h.datagramEnd.toNat := by
    simp only [ipHeader]
    omega
  have hoptions := drop_take_tcp frame.octets h.datagramEnd.toNat h.transport.toNat
    (o.toNat / 16 * 4) (by omega)
  have hraw : (frame.octets.take (h.transport.toNat + o.toNat / 16 * 4)).drop
      (h.transport.toNat + tcpLength) = h.rawOptions frame.octets := by
    rw [rawOptions, length, hheader]
  simp only [decode, bind_eq_ok_iff (networkOffset _), bind_eq_ok_iff (IpHeader.decode _),
    require_bind_eq_ok_iff, within_bind_eq_ok_iff, Octets.octet?, pure, Except.pure,
    Except.ok.injEq]
  refine ⟨r.length_le, h.network.toNat, r.link, h.ipHeader, r.ip, ?_, ?_, o, ?_, ⟨?_, ?_⟩,
    h.seq, ?_, h.ack, ?_, h.flags, ?_, h.window, ?_, h.urgent, ?_, ?_⟩
  · rw [List.length_drop]
    simp only [ipHeader]
    omega
  · rw [htcp, hend]
    simp only [tcpLength]
    omega
  · rw [htcp, hend, Octets.getElem?_take_drop _ _ _ _ (by omega), ho]
  · simp only [tcpLength]
    omega
  · rw [htcp, hend, List.length_drop, List.length_take]
    omega
  · rw [htcp, hend, Octets.word32?_take_drop _ _ _ _ (by omega), r.seq]
  · rw [htcp, hend, Octets.word32?_take_drop _ _ _ _ (by omega), r.ack]
  · rw [htcp, hend, Octets.getElem?_take_drop _ _ _ _ (by omega), r.flags]
  · rw [htcp, hend, Octets.word16?_take_drop _ _ _ _ (by omega), r.window]
  · rw [htcp, hend, Octets.word16?_take_drop _ _ _ _ (by omega), r.urgent]
  · simp only [htcp, hend, hoptions, hraw, ← r.timestamp, ← r.options, ← r.padded]
    simp only [← hheader, UInt16.ofNat_toNat, UInt32.ofNat_toNat, UInt8.ofNat_toNat, ipHeader]

/-- Reading succeeds where the fields stand, and what it gives is what stands
    there. -/
theorem decode_eq_ok_iff (frame : Frame) (h : Headers) :
    decode frame = .ok h ↔ h.ReadsFrom frame :=
  ⟨readsFrom_of_decode frame h, decode_of_readsFrom frame h⟩

/-- The octets of the headers that sealing may rewrite. Of the TCP header only
    the ports, the sequence number and the header length stay as they are. -/
def Rewrites (h : Headers) (j : Nat) : Prop :=
  (h.network.toNat ≤ j ∧ h.version.Rewritten (j - h.network.toNat)) ∨
    (h.transport.toNat + 8 ≤ j ∧ j < h.transport.toNat + 12) ∨ h.transport.toNat + 13 ≤ j

/-- The headers of a frame of the same layout, whose datagram ends elsewhere
    and which has other octets where sealing may write. -/
def reread (h : Headers) (b : Octets) (datagramEnd : Nat) (trailer : Trailer) : Headers :=
  { h with
    datagramEnd := UInt32.ofNat datagramEnd
    ack := trailer.ack
    flags := trailer.flags
    window := trailer.window
    urgent := trailer.urgent
    timestamp := (TcpOptions.timestamp? (h.rawOptions b)).map fun found =>
      ⟨found.value, found.echo, UInt16.ofNat (h.transport.toNat + tcpLength + found.position)⟩
    options := TcpOptions.masked (h.rawOptions b)
    padded := datagramEnd ≠ b.length }

/-- A frame that differs in octets that sealing may rewrite has the same layout
    and can be read again. -/
theorem ReadsFrom.reread {h : Headers} {frame : Frame} (r : h.ReadsFrom frame) (frame' : Frame)
    (stated : UInt16) (datagramEnd : Nat) (trailer : Trailer)
    (hlink : frame'.link = frame.link) (hmax : frame'.octets.length ≤ maxFrameLength)
    (hsame : ∀ j, j < h.length → ¬ h.Rewrites j → frame'.octets[j]? = frame.octets[j]?)
    (hstated : frame'.octets.word16? (h.network.toNat + h.version.lengthOffset) = some stated)
    (hend : h.network.toNat + (h.version.uncounted + stated.toNat) = datagramEnd)
    (hfits : h.length ≤ datagramEnd) (hinside : datagramEnd ≤ frame'.octets.length)
    (hack : frame'.octets.word32? (h.transport.toNat + 8) = some trailer.ack)
    (hflags : frame'.octets[h.transport.toNat + 13]? = some trailer.flags)
    (hwindow : frame'.octets.word16? (h.transport.toNat + 14) = some trailer.window)
    (hurgent : frame'.octets.word16? (h.transport.toNat + 18) = some trailer.urgent) :
    (h.reread frame'.octets datagramEnd trailer).ReadsFrom frame' := by
  have hbounds := r.bounds
  have hmin := r.minimum
  simp only [length, tcpLength] at hfits hmin hsame
  have hdatagram : (UInt32.ofNat datagramEnd).toNat = datagramEnd := by
    simp only [maxFrameLength, ethernetLength, maxTags] at hmax
    exact UInt32.toNat_ofNat_of_lt' (by simp only [UInt32.size]; omega)
  -- Nothing is rewritten before the IP header.
  have hbefore : ∀ j, j < h.network.toNat → frame'.octets[j]? = frame.octets[j]? := by
    intro j hj
    exact hsame j (by omega) (by simp only [Rewrites]; omega)
  -- Of the IP header, what sealing rewrites is what its layout does not depend on.
  have hipSame : ∀ j, j < h.ipHeader.length → ¬ h.ipHeader.version.Rewritten j →
      (frame'.octets.drop h.network.toNat)[j]? = (frame.octets.drop h.network.toNat)[j]? := by
    intro j hj hkeep
    simp only [ipHeader] at hj hkeep
    rw [List.getElem?_drop, List.getElem?_drop]
    refine hsame _ (by omega) ?_
    simp only [Rewrites, Nat.add_sub_cancel_left]
    rintro (⟨_, hrewritten⟩ | htcp)
    · exact hkeep hrewritten
    · omega
  have hip := IpHeader.decode_of_agree (frame.octets.drop h.network.toNat)
    (frame'.octets.drop h.network.toNat) h.ipHeader stated r.ip
    (by simp only [ipHeader, List.length_drop]; omega) hipSame
    (by rw [Octets.word16?_drop]; exact hstated) (by simp only [ipHeader]; omega)
  rcases r.dataOffset with ⟨o, ho, hheader⟩
  constructor
  case length_le => exact hmax
  case link => exact networkOffset_of_agree frame frame' _ r.link hlink hbefore
  case network_le => exact r.network_le
  case ip =>
    have hlength : h.ipHeader.version.uncounted + stated.toNat
        = datagramEnd - h.network.toNat := by
      simp only [ipHeader]
      omega
    rw [hlength] at hip
    simpa only [Headers.reread, ipHeader, hdatagram] using hip
  case dataOffset =>
    -- The header length lies between the acknowledgement and the flags.
    have hkeep : frame'.octets[h.transport.toNat + 12]? = some o := by
      rw [← ho]
      refine hsame _ (by omega) ?_
      cases hv : h.version <;> simp only [Rewrites, hv, IpVersion.Rewritten] <;> omega
    exact ⟨o, hkeep, hheader⟩
  case minimum => exact r.minimum
  case fits => simpa only [Headers.reread, length, hdatagram] using hfits
  case inside => simpa only [Headers.reread, hdatagram] using hinside
  case seq =>
    rw [show (h.reread frame'.octets datagramEnd trailer).seq = h.seq from rfl, ← r.seq]
    refine Octets.word32?_of_agreeOn _ _ _ (fun j h1 h2 => ?_)
    simp only [Headers.reread] at h1 h2
    exact hsame j (by omega) (by
      cases hv : h.version <;> simp only [Rewrites, hv, IpVersion.Rewritten] <;> omega)
  case ack => exact hack
  case flags => exact hflags
  case window => exact hwindow
  case urgent => exact hurgent
  case timestamp => rfl
  case options => rfl
  case padded => simp only [Headers.reread, hdatagram]

/-- Octets behind a frame are padding and nothing more, so that the first
    segment of an aggregate can be read again with the payload of the others
    behind it. -/
theorem ReadsFrom.append {h : Headers} {frame : Frame} (r : h.ReadsFrom frame) (tail : Octets)
    (hmax : frame.octets.length + tail.length ≤ maxFrameLength) :
    ({ h with padded := decide (h.datagramEnd.toNat ≠ frame.octets.length + tail.length) } :
      Headers).ReadsFrom (frame.append tail) := by
  have hbounds := r.bounds
  have hinside := r.inside
  have hfits := r.fits
  have hmin := r.minimum
  simp only [length, tcpLength] at hfits hmin
  rcases IpHeader.decode_stated _ _ r.ip with ⟨stated, hstated, hlength⟩
  simp only [ipHeader] at hstated hlength
  rw [Octets.word16?_drop] at hstated
  have hsame : ∀ i n, i + n ≤ frame.octets.length →
      Octets.AgreeOn frame.octets (frame.append tail).octets i n :=
    fun i n hin => Octets.agreeOn_append frame.octets tail i n hin
  have hlast := Octets.le_length_of_word16? _ _ _ hstated
  have hraw : h.rawOptions (frame.append tail).octets = h.rawOptions frame.octets := by
    simp only [rawOptions, length, Frame.append]
    rw [List.take_append_of_le_length (by omega)]
  -- Nothing is rewritten, and every field agrees because it lies in the old frame.
  have hread := r.reread (frame.append tail) stated h.datagramEnd.toNat h.trailer rfl
    (by simpa only [Frame.append, List.length_append] using hmax)
    (fun j hj _ => hsame j 1 (by simp only [length] at hj; omega) j (by omega) (by omega))
    (by rw [Octets.word16?_of_agreeOn _ _ _ (hsame _ 2 hlast), hstated])
    (by omega) (by simp only [length]; omega)
    (by simp only [Frame.append, List.length_append]; omega)
    (by rw [Octets.word32?_of_agreeOn _ _ _ (hsame _ 4 (by omega)), r.ack]; rfl)
    (by rw [hsame (h.transport.toNat + 13) 1 (by omega) _ (by omega) (by omega), r.flags]; rfl)
    (by rw [Octets.word16?_of_agreeOn _ _ _ (hsame _ 2 (by omega)), r.window]; rfl)
    (by rw [Octets.word16?_of_agreeOn _ _ _ (hsame _ 2 (by omega)), r.urgent]; rfl)
  simp only [Headers.reread, hraw, ← r.timestamp, ← r.options] at hread
  simpa only [Headers.trailer, UInt32.ofNat_toNat, Frame.append, List.length_append] using hread

end Headers

end ReceiveOffload
