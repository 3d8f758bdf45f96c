import ReceiveOffload.Proofs.Merged

/-!
# The Frames That Can Be Read

Which frames have headers that can be read, said without saying how they are read. A
header is a string of bits, and its fields are runs of them: that is how headers are
drawn and how their fields are numbered. `Octets.field` looks a field up in the number
that all octets of the string spell, so it knows of no octets, no words and no order in
which anything is checked.

A `Layout` says where the headers of a segment lie, and `Layout.Matches` what the bits
of a frame have to say for it to be laid out like that. Nothing in it depends on the
version but for the places of four fields and the length of the header, so there is one
grammar and not one for each version. Frames that can be read are the frames that match
a layout.

The rest is a translation. A word that was read is a number of sixteen or thirty-two
bits, and a part of a word is a quotient and a remainder of it.

## Main definitions

* `BitField`, `Octets.field`: A run of bits, and the number that stands there.
* `Frame.LinkEnds`: Where the link header of a frame ends.
* `IpVersion.Begins`: Octets begin with an IP header.
* `Layout`, `Layout.Matches`: Where headers lie, and the frames in which they do.
* `Headers.Reports`: Headers say what the bits of the frame say.

## Theorems

* `Octets.field_of_holdsAt`: A field lies in the octets that it lies in.
* `networkOffset_eq_ok_iff`: The link header is read where it ends.
* `IpHeader.reports_of_decode`, `IpHeader.exists_decode`: An IP header is read where
  one begins, and says what its bits say.
* `decodes_layouts`: The frames that can be read are those that match a layout, and
  what is read is what their bits say.
-/

namespace ReceiveOffload

/-- A field of a header: the bit it starts at, counted from the highest bit of the
    first octet, and how many bits it has. -/
structure BitField where
  start : Nat
  width : Nat
  deriving DecidableEq, Repr

namespace Octets

/-- The number that the octets spell, the highest first. -/
def number (b : Octets) : Nat :=
  b.foldl (fun n octet => n * 256 + octet.toNat) 0

/-- The number in a field of a header that the octets begin with. -/
def field (b : Octets) (f : BitField) : Nat :=
  b.number / 2 ^ (8 * b.length - (f.start + f.width)) % 2 ^ f.width

theorem foldl_number (b : Octets) (n : Nat) :
    b.foldl (fun n octet => n * 256 + octet.toNat) n = n * 2 ^ (8 * b.length) + b.number := by
  induction b generalizing n with
  | nil => simp only [List.foldl_nil, List.length_nil, Nat.mul_zero, Nat.pow_zero, Nat.mul_one,
      number, Nat.add_zero]
  | cons octet rest ih =>
      have hpow : 2 ^ (8 * (octet :: rest).length) = 256 * 2 ^ (8 * rest.length) := by
        rw [List.length_cons, Nat.mul_add, Nat.add_comm, Nat.pow_add]
      have hnumber : number (octet :: rest)
          = octet.toNat * 2 ^ (8 * rest.length) + number rest := by
        rw [number, List.foldl_cons, ih, Nat.zero_mul, Nat.zero_add]
      rw [List.foldl_cons, ih, hnumber, hpow, Nat.add_mul, Nat.mul_assoc, Nat.add_assoc]

theorem number_append (b tail : Octets) :
    (b ++ tail).number = b.number * 2 ^ (8 * tail.length) + tail.number := by
  rw [number, List.foldl_append, foldl_number]
  rfl

theorem number_lt (b : Octets) : b.number < 2 ^ (8 * b.length) := by
  induction b with
  | nil => exact Nat.one_pos
  | cons octet rest ih =>
      have hoctet := octet.toNat_lt
      -- The rest is less than one more of the first octet.
      have hle : (octet.toNat + 1) * 2 ^ (8 * rest.length) ≤ 2 ^ 8 * 2 ^ (8 * rest.length) :=
        Nat.mul_le_mul_right _ hoctet
      rw [← List.singleton_append, number_append, List.length_append, Nat.mul_add, Nat.pow_add]
      simp only [number, List.foldl_cons, List.foldl_nil, Nat.zero_mul, Nat.zero_add,
        List.length_singleton, Nat.mul_one, Nat.add_mul, Nat.one_mul] at ih hle ⊢
      omega

/-- The octets before and behind a field have no part in it. -/
theorem field_append (before run after : Octets) (f : BitField)
    (hfit : f.start + f.width ≤ 8 * run.length) :
    field (before ++ (run ++ after)) ⟨8 * before.length + f.start, f.width⟩ = run.field f := by
  have hlow : 8 * (before ++ (run ++ after)).length
      - (8 * before.length + f.start + f.width)
        = 8 * after.length + (8 * run.length - (f.start + f.width)) := by
    simp only [List.length_append]
    omega
  have hhigh : 8 * run.length = (8 * run.length - (f.start + f.width)) + (f.start + f.width) := by
    omega
  -- What is behind the field is less than a unit of it, what is before it is a
  -- multiple of what it can say.
  rw [field, field, hlow, number_append, number_append, List.length_append, Nat.mul_add,
    Nat.pow_add, Nat.pow_add, ← Nat.div_div_eq_div_mul]
  have hafter : (before.number * (2 ^ (8 * run.length) * 2 ^ (8 * after.length))
      + (run.number * 2 ^ (8 * after.length) + after.number)) / 2 ^ (8 * after.length)
        = before.number * 2 ^ (8 * run.length) + run.number := by
    rw [← Nat.mul_assoc, ← Nat.add_assoc, ← Nat.add_mul, Nat.mul_comm _ (2 ^ (8 * after.length)),
      Nat.mul_add_div (Nat.two_pow_pos _), Nat.div_eq_of_lt (number_lt after), Nat.add_zero]
  generalize 8 * run.length - (f.start + f.width) = low at hhigh ⊢
  have hbefore : before.number * 2 ^ (8 * run.length)
      = 2 ^ low * (2 ^ f.width * (before.number * 2 ^ f.start)) := by
    rw [hhigh, Nat.pow_add, Nat.pow_add, Nat.mul_comm (2 ^ f.start), Nat.mul_left_comm,
      Nat.mul_left_comm (before.number)]
  rw [hafter, hbefore, Nat.mul_add_div (Nat.two_pow_pos _), Nat.mul_add_mod]

/-- A field lies in the octets that it lies in. -/
theorem field_of_holdsAt (b run : Octets) (i : Nat) (f : BitField) (h : HoldsAt b i run)
    (hin : i + run.length ≤ b.length) (hfit : f.start + f.width ≤ 8 * run.length) :
    b.field ⟨8 * i + f.start, f.width⟩ = run.field f := by
  have hrun := h.take_drop
  have hsplit : b.take i ++ (run ++ b.drop (i + run.length)) = b := by
    rw [← List.drop_drop, ← hrun, List.length_take, List.length_drop, Nat.min_eq_left (by omega),
      List.take_append_drop, List.take_append_drop]
  have hbefore : (b.take i).length = i := by
    rw [List.length_take]
    omega
  rw [← field_append (b.take i) run (b.drop (i + run.length)) f hfit, hsplit, hbefore]

theorem number_ofWord16 (w : UInt16) : (ofWord16 w).number = w.toNat := by
  have hw := w.toNat_lt
  simp only [number, ofWord16, List.foldl_cons, List.foldl_nil, UInt8.toNat_ofNat']
  omega

theorem number_ofWord32 (w : UInt32) : (ofWord32 w).number = w.toNat := by
  have hw := w.toNat_lt
  rw [ofWord32, number_append, number_ofWord16, number_ofWord16, length_ofWord16]
  simp only [UInt16.toNat_ofNat']
  omega

/-- A part of an octet is a quotient and a remainder. -/
theorem field_of_octet (b : Octets) (i start width : Nat) (octet : UInt8)
    (h : b[i]? = some octet) (hfit : start + width ≤ 8) :
    b.field ⟨8 * i + start, width⟩
      = octet.toNat / 2 ^ (8 - (start + width)) % 2 ^ width := by
  have hin := (List.getElem?_eq_some_iff.mp h).1
  rw [field_of_holdsAt b [octet] i ⟨start, width⟩ (fun k hk => ?_) hin hfit]
  · simp only [field, number, List.foldl_cons, List.foldl_nil, Nat.zero_mul, Nat.zero_add,
      List.length_singleton, Nat.mul_one]
  · rw [Nat.lt_one_iff.mp hk]
    exact h

theorem field_of_word16 (b : Octets) (i start width : Nat) (w : UInt16)
    (h : b.word16? i = some w) (hfit : start + width ≤ 16) :
    b.field ⟨8 * i + start, width⟩ = w.toNat / 2 ^ (16 - (start + width)) % 2 ^ width := by
  rw [field_of_holdsAt b (ofWord16 w) i ⟨start, width⟩ (holdsAt_of_word16? b i w h)
    (le_length_of_word16? b i w h) hfit, field, number_ofWord16, length_ofWord16]

/-- An octet is the eight bits that it stands in, and so is a word its bits. -/
theorem field_octet (b : Octets) (i : Nat) (octet : UInt8) (h : b[i]? = some octet) :
    b.field ⟨8 * i, 8⟩ = octet.toNat := by
  have hfield := field_of_octet b i 0 8 octet h (Nat.le_refl 8)
  simpa only [Nat.add_zero, Nat.zero_add, Nat.sub_self, Nat.pow_zero, Nat.div_one,
    Nat.mod_eq_of_lt octet.toNat_lt] using hfield

theorem field_word16 (b : Octets) (i : Nat) (w : UInt16) (h : b.word16? i = some w) :
    b.field ⟨8 * i, 16⟩ = w.toNat := by
  have hfield := field_of_word16 b i 0 16 w h (Nat.le_refl 16)
  simpa only [Nat.add_zero, Nat.zero_add, Nat.sub_self, Nat.pow_zero, Nat.div_one,
    Nat.mod_eq_of_lt w.toNat_lt] using hfield

theorem field_word32 (b : Octets) (i : Nat) (w : UInt32) (h : b.word32? i = some w)
    (hin : i + 4 ≤ b.length) : b.field ⟨8 * i, 32⟩ = w.toNat := by
  have hfield := field_of_holdsAt b (ofWord32 w) i ⟨0, 32⟩ (holdsAt_of_word32? b i w h) hin
    (Nat.le_refl 32)
  rw [Nat.add_zero] at hfield
  rw [hfield, field, number_ofWord32, length_ofWord32, Nat.zero_add, Nat.sub_self, Nat.pow_zero,
    Nat.div_one, Nat.mod_eq_of_lt w.toNat_lt]

end Octets

/-- The ethertypes of a tag. -/
def IsTag (ethertype : Nat) : Prop :=
  ethertype = 0x8100 ∨ ethertype = 0x88A8

/-- The ethertypes of the two versions of IP. -/
def IsIp (ethertype : Nat) : Prop :=
  ethertype = 0x0800 ∨ ethertype = 0x86DD

/-- The link header of a frame ends there: an Ethernet header is fourteen octets long,
    of which the last two are the ethertype, and a tag puts four octets before it. -/
def Frame.LinkEnds (frame : Frame) (n : Nat) : Prop :=
  match frame.link with
  | .rawIp => n = 0
  | .ethernet => ∃ tags ≤ 2, n = 14 + 4 * tags ∧ n ≤ frame.length ∧
      (∀ k < tags, IsTag (frame.octets.field ⟨8 * (12 + 4 * k), 16⟩)) ∧
      IsIp (frame.octets.field ⟨8 * (12 + 4 * tags), 16⟩)

namespace IpVersion

/-- The number of the version, which is the first field of the header. -/
def number : IpVersion → Nat
  | v4 => 4
  | v6 => 6

/-- The length of the header. In version 4 a field counts its words. -/
def headerLength : IpVersion → (ip : Octets) → Nat
  | v4, ip => 4 * ip.field ⟨4, 4⟩
  | v6, _ => 40

/-- The protocol number of what the datagram carries. -/
def protocolField : IpVersion → BitField
  | v4 => ⟨72, 8⟩
  | v6 => ⟨48, 8⟩

/-- The length of the datagram, which in version 6 leaves the header out. -/
def lengthField : IpVersion → BitField
  | v4 => ⟨16, 16⟩
  | v6 => ⟨32, 16⟩

/-- The type of service or the traffic class. -/
def trafficClassField : IpVersion → BitField
  | v4 => ⟨8, 8⟩
  | v6 => ⟨4, 8⟩

/-- The congestion codepoint, which is the end of the traffic class. -/
def congestionField : IpVersion → BitField
  | v4 => ⟨14, 2⟩
  | v6 => ⟨10, 2⟩

/-- The time to live or the hop limit. -/
def hopLimitField : IpVersion → BitField
  | v4 => ⟨64, 8⟩
  | v6 => ⟨56, 8⟩

/-- The three flags of version 4: a reserved one, one against fragmentation, and one
    for fragments that others follow. -/
def fragmentFlags : IpVersion → (ip : Octets) → Nat
  | v4, ip => ip.field ⟨48, 3⟩
  | v6, _ => 0

/-- The datagram is a fragment: others follow it or it does not start at zero. -/
def Fragmented : IpVersion → (ip : Octets) → Prop
  | v4, ip => ip.field ⟨50, 1⟩ = 1 ∨ ip.field ⟨51, 13⟩ ≠ 0
  | v6, _ => False

/-- The length of the datagram as the header states it. -/
def datagramLength (version : IpVersion) (ip : Octets) : Nat :=
  version.uncounted + ip.field version.lengthField

/-- Octets begin with an IP header of the version, and what it carries is TCP. -/
structure Begins (version : IpVersion) (ip : Octets) : Prop where
  number : ip.field ⟨0, 4⟩ = version.number
  minimum : 20 ≤ version.headerLength ip
  inside : version.headerLength ip ≤ ip.length
  protocol : ip.field version.protocolField = 6
  length : version.headerLength ip ≤ version.datagramLength ip

end IpVersion

/-- No two versions have one number. -/
theorem IpVersion.Begins.unique {version version' : IpVersion} {ip : Octets}
    (h : version.Begins ip) (h' : version'.Begins ip) : version = version' := by
  have hsame := h.number.symm.trans h'.number
  cases version <;> cases version' <;>
    simp only [IpVersion.number, Nat.reduceEqDiff] at hsame ⊢

/-- Where the headers of a segment lie in its frame. -/
structure Layout where
  version : IpVersion
  /-- Where the IP header starts. -/
  network : Nat
  /-- Where the TCP header starts. -/
  transport : Nat
  /-- Where the TCP payload starts. -/
  payload : Nat
  /-- Where the IP datagram ends. -/
  datagramEnd : Nat
  deriving DecidableEq, Repr

namespace Layout

variable (l : Layout) (frame : Frame)

/-- What begins with the IP header. -/
def ip : Octets :=
  frame.octets.drop l.network

/-- What begins with the TCP header. -/
def tcp : Octets :=
  frame.octets.drop l.transport

/-- The length of the TCP header, whose words a field of it counts. -/
def dataOffset : Nat :=
  4 * (l.tcp frame).field ⟨96, 4⟩

/-- The frame is laid out like that: each header says where the next one starts, and
    all of them lie in the datagram, which lies in the frame. -/
structure Matches : Prop where
  length : frame.length ≤ 65557
  link : frame.LinkEnds l.network
  ip : l.version.Begins (l.ip frame)
  transport : l.transport = l.network + l.version.headerLength (l.ip frame)
  datagramEnd : l.datagramEnd = l.network + l.version.datagramLength (l.ip frame)
  inside : l.datagramEnd ≤ frame.length
  tcp : l.transport + 20 ≤ l.datagramEnd
  dataOffset : 20 ≤ l.dataOffset frame ∧ l.dataOffset frame ≤ 60
  payload : l.payload = l.transport + l.dataOffset frame
  fits : l.payload ≤ l.datagramEnd

/-- Only an acknowledgement can take part in an aggregation, perhaps one that pushes,
    with a payload, in a datagram that is whole and fills the frame. -/
structure Mergeable : Prop where
  whole : ¬ l.version.Fragmented (l.ip frame)
  fills : l.datagramEnd = frame.length
  carries : l.payload < l.datagramEnd
  flags : (l.tcp frame).field ⟨104, 8⟩ = 0x10 ∨ (l.tcp frame).field ⟨104, 8⟩ = 0x18

end Layout

/-- What the bits of an IP header say of the header. -/
structure IpHeader.Reports (header : IpHeader) (ip : Octets) : Prop where
  begins : header.version.Begins ip
  length : header.length = header.version.headerLength ip
  datagramLength : header.datagramLength = header.version.datagramLength ip
  trafficClass : header.traits.trafficClass.toNat = ip.field header.version.trafficClassField
  congestion : header.traits.ecn.toNat = ip.field header.version.congestionField
  hopLimit : header.traits.hopLimit.toNat = ip.field header.version.hopLimitField
  fragmentFlags : header.traits.fragmentFlags.toNat = header.version.fragmentFlags ip
  fragment : header.fragment = true ↔ header.version.Fragmented ip

/-- Headers say where the headers of the frame lie and what their bits say. -/
structure Headers.Reports (h : Headers) (l : Layout) (frame : Frame) : Prop where
  version : h.version = l.version
  network : h.network.toNat = l.network
  transport : h.transport.toNat = l.transport
  transportLength : h.transportLength.toNat = l.dataOffset frame
  length : h.length = l.payload
  datagramEnd : h.datagramEnd.toNat = l.datagramEnd
  payloadLength : l.payload + h.payloadLength = l.datagramEnd
  trafficClass : h.traits.trafficClass.toNat = (l.ip frame).field l.version.trafficClassField
  congestion : h.ecn.toNat = (l.ip frame).field l.version.congestionField
  hopLimit : h.traits.hopLimit.toNat = (l.ip frame).field l.version.hopLimitField
  fragmentFlags : h.traits.fragmentFlags.toNat = l.version.fragmentFlags (l.ip frame)
  fragment : h.fragment = true ↔ l.version.Fragmented (l.ip frame)
  seq : h.seq.toNat = (l.tcp frame).field ⟨32, 32⟩
  ack : h.ack.toNat = (l.tcp frame).field ⟨64, 32⟩
  flags : h.flags.toNat = (l.tcp frame).field ⟨104, 8⟩
  window : h.window.toNat = (l.tcp frame).field ⟨112, 16⟩
  urgent : h.urgent.toNat = (l.tcp frame).field ⟨144, 16⟩
  padded : h.padded = true ↔ l.datagramEnd ≠ frame.length

/-- An ethertype of a frame stands in the sixteen bits that it was read from. -/
theorem isTag_iff (b : Octets) (position : Nat) (ethertype : UInt16)
    (h : b.word16? position = some ethertype) :
    (ethertype = 0x8100 ∨ ethertype = 0x88A8 ↔ IsTag (b.field ⟨8 * position, 16⟩)) ∧
      (ethertype = 0x0800 ∨ ethertype = 0x86DD ↔ IsIp (b.field ⟨8 * position, 16⟩)) := by
  simp only [Octets.field_word16 b position ethertype h, IsTag, IsIp, ← UInt16.toNat_inj,
    UInt16.reduceToNat, and_self]

/-- Where the search for an ethertype ends: behind so many tags. -/
theorem ethertypeEnd_eq_ok_iff (b : Octets) (left position n : Nat) :
    ethertypeEnd b left position = .ok n ↔
      ∃ tags < left, n = position + 2 + 4 * tags ∧ n ≤ b.length ∧
        (∀ k < tags, IsTag (b.field ⟨8 * (position + 4 * k), 16⟩)) ∧
        IsIp (b.field ⟨8 * (position + 4 * tags), 16⟩) := by
  induction left generalizing position with
  | zero => simp only [ethertypeEnd, reduceCtorEq, Nat.not_lt_zero, false_and, exists_false]
  | succ left ih =>
      rcases hw : b.word16? position with _ | ethertype
      · -- Not even the first ethertype lies in the string.
        simp only [ethertypeEnd, hw, reduceCtorEq, false_iff]
        rintro ⟨tags, _, hn, hin, _⟩
        rcases Octets.exists_word16? b position (by omega) with ⟨w, hw'⟩
        rw [hw] at hw'
        cases hw'
      have hroom := Octets.le_length_of_word16? b position ethertype hw
      rcases isTag_iff b position ethertype hw with ⟨htags, hips⟩
      simp only [ethertypeEnd, hw]
      by_cases htag : ethertype = 0x8100 ∨ ethertype = 0x88A8
      · have hfirst := htags.mp htag
        have hshift : ∀ k, position + 4 + 4 * k = position + 4 * (k + 1) := fun k => by omega
        rw [if_pos htag, ih]
        simp only [hshift]
        constructor
        · rintro ⟨tags, hlt, hn, hin, hall, hip⟩
          refine ⟨tags + 1, by omega, by omega, hin, fun k hk => ?_, hip⟩
          rcases k with _ | k
          · exact hfirst
          · exact hall k (by omega)
        · rintro ⟨tags, hlt, hn, hin, hall, hip⟩
          -- What is a tag is not IP, so there is one at least.
          rcases tags with _ | tags
          · simp only [Nat.mul_zero, Nat.add_zero, IsTag, IsIp] at hfirst hip
            omega
          · exact ⟨tags, by omega, by omega, hin, fun k hk => hall (k + 1) (by omega), hip⟩
      · rw [if_neg htag]
        by_cases hip : ethertype = 0x0800 ∨ ethertype = 0x86DD
        · rw [if_pos hip, Except.ok.injEq]
          constructor
          · rintro rfl
            exact ⟨0, by omega, by omega, hroom, fun k hk => absurd hk (Nat.not_lt_zero k),
              hips.mp hip⟩
          · rintro ⟨tags, _, hn, _, hall, _⟩
            rcases tags with _ | tags
            · omega
            · exact absurd (htags.mpr (hall 0 (by omega))) htag
        · rw [if_neg hip]
          simp only [reduceCtorEq, false_iff]
          rintro ⟨tags, _, _, _, hall, hlast⟩
          rcases tags with _ | tags
          · exact hip (hips.mpr hlast)
          · exact htag (htags.mpr (hall 0 (by omega)))

/-- The link header is read where it ends. -/
theorem networkOffset_eq_ok_iff (frame : Frame) (n : Nat) :
    networkOffset frame = .ok n ↔ frame.LinkEnds n := by
  unfold networkOffset Frame.LinkEnds
  rcases frame.link with _ | _
  · simp only [Except.ok.injEq, eq_comm]
  · rw [require_bind_eq_ok_iff, ethertypeEnd_eq_ok_iff]
    simp only [Frame.length, ethernetLength, maxTags]
    constructor
    · rintro ⟨_, tags, hlt, hn, hrest⟩
      exact ⟨tags, by omega, hn, hrest⟩
    · rintro ⟨tags, hle, hn, hin, hrest⟩
      exact ⟨by omega, tags, by omega, hn, hin, hrest⟩

/-- The length of the TCP header stands in the upper half of an octet. -/
theorem Layout.dataOffset_eq (l : Layout) (frame : Frame) (o : UInt8)
    (h : (l.tcp frame)[12]? = some o) : l.dataOffset frame = o.toNat / 16 * 4 := by
  have hlt := o.toNat_lt
  have hfield := Octets.field_of_octet _ 12 0 4 o h (by omega)
  simp only [Nat.reduceMul, Nat.reduceAdd, Nat.reduceSub, Nat.reducePow] at hfield
  simp only [Layout.dataOffset, hfield]
  omega

/-- A frame is laid out in one way at most, since each header says where the next one
    starts. -/
theorem Layout.Matches.unique {l l' : Layout} {frame : Frame} (h : l.Matches frame)
    (h' : l'.Matches frame) : l = l' := by
  -- The link header ends where it is read to end, and that is one place.
  have hnetwork : l.network = l'.network := by
    have hread := (networkOffset_eq_ok_iff frame _).mpr h.link
    rw [(networkOffset_eq_ok_iff frame _).mpr h'.link, Except.ok.injEq] at hread
    exact hread.symm
  have hip : l.ip frame = l'.ip frame := by rw [Layout.ip, Layout.ip, hnetwork]
  have hversion : l.version = l'.version := h.ip.unique (hip ▸ h'.ip)
  have htransport : l.transport = l'.transport := by
    rw [h.transport, h'.transport, hnetwork, hversion, hip]
  have hend : l.datagramEnd = l'.datagramEnd := by
    rw [h.datagramEnd, h'.datagramEnd, hnetwork, hversion, hip]
  have hpayload : l.payload = l'.payload := by
    rw [h.payload, h'.payload, Layout.dataOffset, Layout.dataOffset, Layout.tcp, Layout.tcp,
      htransport]
  cases l
  cases l'
  simp only at hnetwork hversion htransport hend hpayload
  subst hnetwork hversion htransport hend hpayload
  rfl

namespace IpHeader

variable {ip : Octets} {header : IpHeader}

/-- The first octet holds the number of the version and a half that depends on it. -/
theorem field_of_head (first : UInt8) (hfirst : ip.head? = some first) :
    ip.field ⟨0, 4⟩ = first.toNat / 16 ∧ ip.field ⟨4, 4⟩ = first.toNat % 16 := by
  have hlt := first.toNat_lt
  rw [List.head?_eq_getElem?] at hfirst
  have hhigh := Octets.field_of_octet ip 0 0 4 first hfirst (by omega)
  have hlow := Octets.field_of_octet ip 0 4 4 first hfirst (by omega)
  simp only [Nat.mul_zero, Nat.zero_add, Nat.reduceSub, Nat.reducePow, Nat.reduceAdd,
    Nat.div_one] at hhigh hlow
  omega

/-- The bits of a version 4 header that was read say what was read. -/
theorem reports_of_decodeV4 (first : UInt8) (hfirst : ip.head? = some first)
    (hversion : first.toNat / 16 = 4) (h : decodeV4 first ip = .ok header) :
    header.Reports ip := by
  rcases field_of_head first hfirst with ⟨hnumber, hwords⟩
  simp only [decodeV4, require_bind_eq_ok_iff, within_bind_eq_ok_iff, Octets.octet?, pure,
    Except.pure, Except.ok.injEq] at h
  rcases h with ⟨⟨hmin, hin⟩, protocol, hprotocol, htcp, stated, hstated, hle, fragmentation,
    hfragment, trafficClass, htraffic, hopLimit, hhop, rfl⟩
  have hlt := fragmentation.toNat_lt
  have hprotocol' := Octets.field_octet ip 9 protocol hprotocol
  have hstated' := Octets.field_word16 ip 2 stated hstated
  have htraffic' := Octets.field_octet ip 1 trafficClass htraffic
  have hecn := Octets.field_of_octet ip 1 6 2 trafficClass htraffic (by omega)
  have hhop' := Octets.field_octet ip 8 hopLimit hhop
  -- The flags of fragmentation and the offset share a word.
  have hflags := Octets.field_of_word16 ip 6 0 3 fragmentation hfragment (by omega)
  have hmore := Octets.field_of_word16 ip 6 2 1 fragmentation hfragment (by omega)
  have hoffset := Octets.field_of_word16 ip 6 3 13 fragmentation hfragment (by omega)
  simp only [Nat.reduceMul, Nat.reduceAdd, Nat.reduceSub, Nat.reducePow,
    Nat.div_one] at hprotocol' hstated' htraffic' hecn hhop' hflags hmore hoffset
  simp only [ipv4Length] at hmin
  constructor
  case begins =>
    constructor <;> simp only [IpVersion.number, IpVersion.headerLength, IpVersion.protocolField,
      IpVersion.datagramLength, IpVersion.uncounted, IpVersion.lengthField]
    case number => omega
    case minimum => omega
    case inside => omega
    case protocol => rw [hprotocol', htcp]; rfl
    case length => omega
  case length => simp only [IpVersion.headerLength]; omega
  case datagramLength =>
    simp only [IpVersion.datagramLength, IpVersion.uncounted, IpVersion.lengthField]
    omega
  case trafficClass => exact htraffic'.symm
  case congestion =>
    -- What the mask leaves is a remainder.
    simp only [IpTraits.ecn, UInt8.toNat_and, IpVersion.congestionField, hecn]
    exact Nat.and_two_pow_sub_one_eq_mod _ 2
  case hopLimit => exact hhop'.symm
  case fragmentFlags =>
    simp only [UInt8.toNat_ofNat', IpVersion.fragmentFlags]
    omega
  case fragment =>
    simp only [decide_eq_true_eq, IpVersion.Fragmented]
    omega

/-- The bits of a version 6 header that was read say what was read. -/
theorem reports_of_decodeV6 (first : UInt8) (hfirst : ip.head? = some first)
    (hversion : first.toNat / 16 = 6) (h : decodeV6 first ip = .ok header) :
    header.Reports ip := by
  rcases field_of_head first hfirst with ⟨hnumber, _⟩
  simp only [decodeV6, require_bind_eq_ok_iff, within_bind_eq_ok_iff, Octets.octet?, pure,
    Except.pure, Except.ok.injEq] at h
  rcases h with ⟨hin, protocol, hprotocol, htcp, stated, hstated, second, hsecond, hopLimit,
    hhop, rfl⟩
  -- The traffic class is what the first two octets share.
  rw [List.head?_eq_getElem?] at hfirst
  have hboth := (Octets.word16?_eq_some_iff ip 0 (word16 first second)).mpr
    ⟨first, second, hfirst, hsecond, rfl⟩
  have hfirstlt := first.toNat_lt
  have hsecondlt := second.toNat_lt
  have hprotocol' := Octets.field_octet ip 6 protocol hprotocol
  have hstated' := Octets.field_word16 ip 4 stated hstated
  have htraffic := Octets.field_of_word16 ip 0 4 8 _ hboth (by omega)
  have hecn := Octets.field_of_word16 ip 0 10 2 _ hboth (by omega)
  have hhop' := Octets.field_octet ip 7 hopLimit hhop
  simp only [Nat.reduceMul, Nat.reduceAdd, Nat.reduceSub, Nat.reducePow, Nat.zero_add, word16,
    UInt16.toNat_ofNat'] at hprotocol' hstated' htraffic hecn hhop'
  simp only [ipv6Length] at hin
  constructor
  case begins =>
    constructor <;> simp only [IpVersion.number, IpVersion.headerLength, IpVersion.protocolField,
      IpVersion.datagramLength, IpVersion.uncounted, IpVersion.lengthField, ipv6Length]
    case number => omega
    case minimum => omega
    case inside => exact hin
    case protocol => rw [hprotocol', htcp]; rfl
    case length => omega
  case length => rfl
  case datagramLength =>
    simp only [IpVersion.datagramLength, IpVersion.uncounted, IpVersion.lengthField]
    omega
  case trafficClass =>
    simp only [UInt8.toNat_ofNat', IpVersion.trafficClassField]
    omega
  case congestion =>
    simp only [IpTraits.ecn, UInt8.toNat_and, IpVersion.congestionField, hecn, UInt8.toNat_ofNat']
    rw [show (3 : UInt8).toNat = 2 ^ 2 - 1 from rfl, Nat.and_two_pow_sub_one_eq_mod]
    omega
  case hopLimit => exact hhop'.symm
  case fragmentFlags => rfl
  case fragment => simp only [Bool.false_eq_true, IpVersion.Fragmented]

/-- The bits of an IP header that was read say what was read. -/
theorem reports_of_decode (h : decode ip = .ok header) : header.Reports ip := by
  rcases (decode_eq_ok_iff ip header).mp h with ⟨first, hfirst, ⟨h4, hread⟩ | ⟨h6, hread⟩⟩
  · exact reports_of_decodeV4 first hfirst h4 hread
  · exact reports_of_decodeV6 first hfirst h6 hread

/-- Where a version 4 header begins, one is read. -/
theorem exists_decodeV4 (first : UInt8) (hfirst : ip.head? = some first)
    (begins : IpVersion.v4.Begins ip) : ∃ header, decodeV4 first ip = .ok header := by
  have hmin := begins.minimum
  have hin := begins.inside
  have hlen := begins.length
  have hprotocol := begins.protocol
  simp only [IpVersion.headerLength, IpVersion.datagramLength, IpVersion.uncounted,
    IpVersion.lengthField, IpVersion.protocolField] at hmin hin hlen hprotocol
  have hwords := (field_of_head first hfirst).2
  rcases Octets.exists_octet? ip 9 (by omega) with ⟨protocol, hoctet9⟩
  rcases Octets.exists_octet? ip 1 (by omega) with ⟨trafficClass, hoctet1⟩
  rcases Octets.exists_octet? ip 8 (by omega) with ⟨hopLimit, hoctet8⟩
  rcases Octets.exists_word16? ip 2 (by omega) with ⟨stated, hstated⟩
  rcases Octets.exists_word16? ip 6 (by omega) with ⟨fragmentation, hfragment⟩
  have hprotocol' := Octets.field_octet ip 9 protocol hoctet9
  have hstated' := Octets.field_word16 ip 2 stated hstated
  simp only [Nat.reduceMul] at hprotocol' hstated'
  simp only [decodeV4, require_bind_eq_ok_iff, within_bind_eq_ok_iff, pure, Except.pure,
    Except.ok.injEq]
  exact ⟨_, ⟨by rw [ipv4Length]; omega, by omega⟩, protocol, hoctet9,
    UInt8.toNat_inj.mp (hprotocol'.symm.trans hprotocol), stated, hstated, by omega,
    fragmentation, hfragment, trafficClass, hoctet1, hopLimit, hoctet8, rfl⟩

/-- Where a version 6 header begins, one is read. -/
theorem exists_decodeV6 (first : UInt8) (begins : IpVersion.v6.Begins ip) :
    ∃ header, decodeV6 first ip = .ok header := by
  have hin := begins.inside
  have hprotocol := begins.protocol
  simp only [IpVersion.headerLength, IpVersion.protocolField] at hin hprotocol
  rcases Octets.exists_octet? ip 6 (by omega) with ⟨protocol, hoctet6⟩
  rcases Octets.exists_octet? ip 1 (by omega) with ⟨second, hoctet1⟩
  rcases Octets.exists_octet? ip 7 (by omega) with ⟨hopLimit, hoctet7⟩
  rcases Octets.exists_word16? ip 4 (by omega) with ⟨stated, hstated⟩
  have hprotocol' := Octets.field_octet ip 6 protocol hoctet6
  simp only [Nat.reduceMul] at hprotocol'
  simp only [decodeV6, require_bind_eq_ok_iff, within_bind_eq_ok_iff, pure, Except.pure,
    Except.ok.injEq]
  exact ⟨_, hin, protocol, hoctet6, UInt8.toNat_inj.mp (hprotocol'.symm.trans hprotocol), stated,
    hstated, second, hoctet1, hopLimit, hoctet7, rfl⟩

/-- Where an IP header begins, one of that version is read. -/
theorem exists_decode (version : IpVersion) (begins : version.Begins ip) :
    ∃ header, decode ip = .ok header ∧ header.version = version := by
  have hmin := begins.minimum
  have hin := begins.inside
  rcases hfirst : ip.head? with _ | first
  · -- Twenty octets at least are there, so there is a first one.
    have hempty : ip.length = 0 := by rw [List.head?_eq_none_iff.mp hfirst, List.length_nil]
    omega
  have hnumber := (field_of_head first hfirst).1.symm.trans begins.number
  have hread : ∃ header, decode ip = .ok header := by
    cases version with
    | v4 =>
        rcases exists_decodeV4 first hfirst begins with ⟨header, h⟩
        exact ⟨header, (decode_eq_ok_iff ip header).mpr ⟨first, hfirst, Or.inl ⟨hnumber, h⟩⟩⟩
    | v6 =>
        rcases exists_decodeV6 first begins with ⟨header, h⟩
        exact ⟨header, (decode_eq_ok_iff ip header).mpr ⟨first, hfirst, Or.inr ⟨hnumber, h⟩⟩⟩
  rcases hread with ⟨header, h⟩
  exact ⟨header, h, (reports_of_decode h).begins.unique begins⟩

end IpHeader

namespace Headers

variable {h : Headers} {frame : Frame}

/-- The layout that headers were read from. -/
def layout (h : Headers) : Layout where
  version := h.version
  network := h.network.toNat
  transport := h.transport.toNat
  payload := h.length
  datagramEnd := h.datagramEnd.toNat

/-- Headers that stand in a frame say what its bits say. -/
theorem ReadsFrom.reports (r : h.ReadsFrom frame) : h.Reports h.layout frame := by
  have hip := IpHeader.reports_of_decode r.ip
  have hfits := r.fits
  have hinside := r.inside
  have hmin := r.minimum
  have hlength : h.length = h.transport.toNat + h.transportLength.toNat := rfl
  simp only [tcpLength] at hmin
  rcases r.dataOffset with ⟨o, ho, hheader⟩
  have hlt := o.toNat_lt
  -- The TCP header is read where it starts.
  have hoctet : ∀ i, (h.layout.tcp frame)[i]? = frame.octets[h.transport.toNat + i]? :=
    fun i => List.getElem?_drop
  have hword : ∀ i, (h.layout.tcp frame).word16? i = frame.octets.word16? (h.transport.toNat + i) :=
    fun i => Octets.word16?_drop _ _ i
  have hlong : ∀ i, (h.layout.tcp frame).word32? i = frame.octets.word32? (h.transport.toNat + i) :=
    fun i => Octets.word32?_drop _ _ i
  have hroom : h.transportLength.toNat ≤ (h.layout.tcp frame).length := by
    simp only [Layout.tcp, layout, List.length_drop]
    omega
  constructor
  case version => rfl
  case network => rfl
  case transport => rfl
  case transportLength => rw [hheader, h.layout.dataOffset_eq frame o (by rw [hoctet, ho])]
  case length => rfl
  case datagramEnd => rfl
  case payloadLength =>
    simp only [layout, payloadLength]
    omega
  case trafficClass => exact hip.trafficClass
  case congestion => exact hip.congestion
  case hopLimit => exact hip.hopLimit
  case fragmentFlags => exact hip.fragmentFlags
  case fragment => exact hip.fragment
  case seq => exact (Octets.field_word32 _ 4 h.seq (by rw [hlong, r.seq]) (by omega)).symm
  case ack => exact (Octets.field_word32 _ 8 h.ack (by rw [hlong, r.ack]) (by omega)).symm
  case flags => exact (Octets.field_octet _ 13 h.flags (by rw [hoctet, r.flags])).symm
  case window => exact (Octets.field_word16 _ 14 h.window (by rw [hword, r.window])).symm
  case urgent => exact (Octets.field_word16 _ 18 h.urgent (by rw [hword, r.urgent])).symm
  case padded =>
    rw [r.padded, decide_eq_true_eq]
    rfl

/-- Headers stand in a frame only if it is laid out as they say. -/
theorem ReadsFrom.matches (r : h.ReadsFrom frame) : h.layout.Matches frame := by
  have hip := IpHeader.reports_of_decode r.ip
  have hbounds := r.bounds
  have hfits := r.fits
  have hmin := r.minimum
  have hlength : h.length = h.transport.toNat + h.transportLength.toNat := rfl
  have hoffset := r.reports.transportLength
  have hheader := hip.length
  have hdatagram := hip.datagramLength
  simp only [ipHeader] at hheader hdatagram
  simp only [tcpLength] at hmin
  constructor
  case length => exact r.length_le
  case link => exact (networkOffset_eq_ok_iff frame _).mp r.link
  case ip => exact hip.begins
  case transport => simp only [layout, Layout.ip] at hheader ⊢; omega
  case datagramEnd => simp only [layout, Layout.ip] at hdatagram ⊢; omega
  case inside => exact r.inside
  case tcp => simp only [layout]; omega
  case dataOffset => omega
  case payload => rw [← hoffset]; rfl
  case fits => exact hfits

/-- The headers of a frame that is laid out somehow can be read. -/
theorem exists_decode (l : Layout) (hmatch : l.Matches frame) :
    ∃ h, decode frame = .ok h := by
  have hlink := (networkOffset_eq_ok_iff frame _).mpr hmatch.link
  rcases IpHeader.exists_decode l.version hmatch.ip with ⟨ip, hip, hversion⟩
  have hreports := IpHeader.reports_of_decode hip
  have hheader := hreports.length
  have hdatagram := hreports.datagramLength
  rw [hversion] at hheader hdatagram
  have htransport : l.network + ip.length = l.transport := by rw [hheader, hmatch.transport]
  have hend : l.network + ip.datagramLength = l.datagramEnd := by
    rw [hdatagram, hmatch.datagramEnd]
  have hinside := hmatch.inside
  have htcp := hmatch.tcp
  have hmin := hmatch.dataOffset
  have hpayload := hmatch.payload
  have hfits := hmatch.fits
  simp only [Frame.length] at hinside
  -- The octets of the TCP header are there, and one of them holds its length.
  have hroom : ((frame.octets.take l.datagramEnd).drop l.transport).length
      = l.datagramEnd - l.transport := by
    rw [List.length_drop, List.length_take, Nat.min_eq_left hinside]
  generalize htcpOctets : (frame.octets.take l.datagramEnd).drop l.transport = tcp at hroom
  rcases Octets.exists_octet? tcp 12 (by omega) with ⟨o, ho⟩
  rcases Octets.exists_octet? tcp 13 (by omega) with ⟨flags, hflags⟩
  rcases Octets.exists_word32? tcp 4 (by omega) with ⟨seq, hseq⟩
  rcases Octets.exists_word32? tcp 8 (by omega) with ⟨ack, hack⟩
  rcases Octets.exists_word16? tcp 14 (by omega) with ⟨window, hwindow⟩
  rcases Octets.exists_word16? tcp 18 (by omega) with ⟨urgent, hurgent⟩
  have hstands : (l.tcp frame)[12]? = some o := by
    rw [← ho, ← htcpOctets, Octets.octet?, Octets.getElem?_take_drop _ _ _ _ (by omega),
      Layout.tcp, List.getElem?_drop]
  have hoffset := l.dataOffset_eq frame o hstands
  simp only [decode, bind_eq_ok_iff (networkOffset _), bind_eq_ok_iff (IpHeader.decode _),
    require_bind_eq_ok_iff, within_bind_eq_ok_iff, pure, Except.pure, Except.ok.injEq]
  refine ⟨_, hmatch.length, l.network, hlink, ip, hip, ?_, ?_, o, ?_, ⟨?_, ?_⟩, seq, ?_, ack,
    ?_, flags, ?_, window, ?_, urgent, ?_, rfl⟩
  · rw [List.length_drop]
    omega
  · rw [htransport, hend, tcpLength]
    exact htcp
  · rw [htransport, hend, htcpOctets, ho]
  · rw [tcpLength]
    omega
  · rw [htransport, hend, htcpOctets]
    omega
  all_goals
    rw [htransport, hend, htcpOctets]
    assumption

/-- Whether headers can take part in an aggregation is said by what they report. -/
theorem Reports.mergeable_iff {l : Layout} (reports : h.Reports l frame) :
    h.mergeable = true ↔ l.Mergeable frame := by
  have hflags := reports.flags
  have hpayload := reports.payloadLength
  -- Two octets are the same if they are the same number.
  have hack : h.flags = TcpFlag.ack ↔ (l.tcp frame).field ⟨104, 8⟩ = 0x10 := by
    rw [← hflags, ← UInt8.toNat_inj]
    rfl
  have hpush : h.flags = TcpFlag.ack ||| TcpFlag.psh ↔ (l.tcp frame).field ⟨104, 8⟩ = 0x18 := by
    rw [← hflags, ← UInt8.toNat_inj]
    rfl
  rw [Headers.mergeable_iff, hack, hpush, ← Bool.not_eq_true, ← Bool.not_eq_true,
    reports.fragment, reports.padded, not_not]
  constructor
  · rintro ⟨hsets, hpos, hwhole, hfills⟩
    exact ⟨hwhole, hfills, by omega, hsets⟩
  · rintro ⟨hwhole, hfills, hcarries, hsets⟩
    exact ⟨hsets, by omega, hwhole, hfills⟩

end Headers

/-- The frames whose headers can be read are those that are laid out somehow. Where the
    headers of a frame are read, they say where the headers lie and what stands in
    their bits, and whether the segment can be merged is said by these. -/
theorem decodes_layouts (frame : Frame) :
    ((∃ h, Headers.decode frame = .ok h) ↔ ∃ l : Layout, l.Matches frame) ∧
      ∀ (h : Headers) (l : Layout), Headers.decode frame = .ok h → l.Matches frame →
        h.Reports l frame ∧ (h.mergeable = true ↔ l.Mergeable frame) := by
  refine ⟨⟨?_, ?_⟩, ?_⟩
  · rintro ⟨h, hdecode⟩
    exact ⟨h.layout, ((Headers.decode_eq_ok_iff frame h).mp hdecode).matches⟩
  · rintro ⟨l, hmatch⟩
    exact Headers.exists_decode l hmatch
  · intro h l hdecode hmatch
    have reads := (Headers.decode_eq_ok_iff frame h).mp hdecode
    have hsame : h.layout = l := reads.matches.unique hmatch
    have reports := hsame ▸ reads.reports
    exact ⟨reports, reports.mergeable_iff⟩

end ReceiveOffload
