import Mathlib.Algebra.GroupWithZero.Nat
import ReceiveOffload.Proofs.Decode

/-!
# Reading Within Bounds

Reading the headers takes runs out of a frame, adds up offsets and keeps them in narrow
fields. As it is defined none of this can go wrong: a run that reaches beyond the end
is short, a difference below zero is zero, and a number that is too large is cut. That
leaves open whether it ever happens.

`Headers.decodeGuarded` reads the same headers with a guard on each of these steps, and
fails out of bounds where one of them would not be exact. The options are walked by an
index into their octets, and the mask is put on the forty octets that a header has room
for. `Headers.decodeGuarded_eq` says that the guards make no difference, and
`Headers.decode_onlyMalformed` that nothing fails out of bounds at all. So every run lies
in the frame, every difference is one, and every number fits.

## Main definitions

* `guarded`: A value that is out of bounds unless a condition holds.
* `TcpOptions.walk`: The walk through the options by index.
* `Headers.decodeGuarded`: Reads the headers of a segment with every step guarded.
* `OnlyMalformed`: Nothing fails but for input that is malformed.

## Theorems

* `TcpOptions.walk_eq`: The walk by index finds what the walk finds.
* `Headers.decodeGuarded_eq`: The guards make no difference.
* `Headers.decode_onlyMalformed`: Frames are refused as malformed or not at all.
-/

namespace ReceiveOffload

open Octets

/-- The value, which is out of bounds unless the condition holds. -/
def guarded {α : Type} (condition : Prop) [Decidable condition] (value : α) : Except Failure α :=
  if condition then .ok value else .error .outOfBounds

theorem guarded_eq {α : Type} (condition : Prop) [Decidable condition] (value : α)
    (h : condition) : guarded condition value = .ok value :=
  if_pos h

/-- The octets from `i` up to `j`, both of which have to lie in the string. -/
def Octets.between (b : Octets) (i j : Nat) : Except Failure Octets :=
  guarded (i ≤ j ∧ j ≤ b.length) ((b.take j).drop i)

/-- A difference, which must not fall below zero. -/
def difference (n m : Nat) : Except Failure Nat :=
  guarded (m ≤ n) (n - m)

/-- A number to be kept in so many bits, into which it has to fit. -/
def narrow (bits n : Nat) : Except Failure Nat :=
  guarded (n < 2 ^ bits) n

/-- Two chains of steps are the same if they go on the same from what their first step
    gives. -/
theorem bind_congr_ok {α β : Type} (x : Except Failure α) (f g : α → Except Failure β)
    (h : ∀ a, x = .ok a → f a = g a) : (x >>= f) = (x >>= g) := by
  cases x with
  | error cause => rfl
  | ok a => exact h a rfl

/-- What follows a requirement matters only where the requirement is met. -/
theorem require_bind_congr {β : Type} (condition : Prop) [Decidable condition]
    (cause : Malformation) (f g : Unit → Except Failure β) (h : condition → f () = g ()) :
    (require condition cause >>= f) = (require condition cause >>= g) := by
  by_cases hcondition : condition
  · simp only [require, if_pos hcondition]
    exact h hcondition
  · simp only [require, if_neg hcondition]
    rfl

theorem ok_bind {α β : Type} (a : α) (f : α → Except Failure β) :
    ((.ok a : Except Failure α) >>= f) = f a :=
  rfl

/-- Where an ethertype ends, with a guard on every read. -/
def ethertypeEndGuarded (b : Octets) : (left position : Nat) → Except Failure Nat
  | 0, _ => .error (.malformed .unfinishedEthernet)
  | left + 1, position =>
    if b.length < position + 2 then .error (.malformed .unfinishedEthernet)
    else do
      let ethertype ← within (b.word16? position)
      if ethertype = 0x8100 ∨ ethertype = 0x88A8 then ethertypeEndGuarded b left (position + 4)
      else if ethertype = 0x0800 ∨ ethertype = 0x86DD then .ok (position + 2)
      else .error (.malformed .foreignEthertype)

/-- No word of the tags is read beyond the frame. -/
theorem ethertypeEndGuarded_eq (b : Octets) (left position : Nat) :
    ethertypeEndGuarded b left position = ethertypeEnd b left position := by
  induction left generalizing position with
  | zero => rfl
  | succ left ih =>
      rw [ethertypeEndGuarded, ethertypeEnd]
      by_cases hshort : b.length < position + 2
      · -- A word that does not fit is not read.
        have hnone : b.word16? position = none := by
          rcases hw : b.word16? position with _ | w
          · rfl
          · have hin := le_length_of_word16? b position w hw
            omega
        rw [if_pos hshort, hnone]
      · rcases exists_word16? b position (by omega) with ⟨ethertype, hw⟩
        rw [if_neg hshort, hw, ih]
        rfl

/-- Where the IP header of a frame starts, with a guard on every read. -/
def networkOffsetGuarded (frame : Frame) : Except Failure Nat :=
  match frame.link with
  | .rawIp => .ok 0
  | .ethernet => do
    require (ethernetLength ≤ frame.length) .shortEthernet
    ethertypeEndGuarded frame.octets (maxTags + 1) 12

/-- The network offset is found without reading beyond the frame. -/
theorem networkOffsetGuarded_eq (frame : Frame) :
    networkOffsetGuarded frame = networkOffset frame := by
  unfold networkOffsetGuarded networkOffset
  rcases frame.link with _ | _
  · rfl
  · simp only [ethertypeEndGuarded_eq]

namespace TcpOptions

/-- The first timestamp among options from the index `i` on, with a guard on every read
    and every run. -/
def walk (options : Octets) (i : Nat) : Except Failure (Option TimestampOption) :=
  if i < options.length then
    match options.octet? i with
    | none => .error .outOfBounds
    | some kind =>
      if kind = endOfOptions then .ok none
      else if kind = noOperation then walk options (i + 1)
      else
        match options.octet? (i + 1) with
        | none => .ok none
        | some length =>
          if length.toNat < 2 ∨ options.length < i + length.toNat then .ok none
          else if kind = timestampKind ∧ length.toNat = timestampLength then do
            let fromValue ← options.between (i + 2) options.length
            let value ← within (fromValue.word32? 0)
            let fromEcho ← options.between (i + 6) options.length
            let echo ← within (fromEcho.word32? 0)
            return some ⟨i + 2, value, echo⟩
          else walk options (i + length.toNat)
  else .ok none
termination_by options.length - i

/-- Behind an octet come the ones behind it. -/
theorem drop_of_octet? (b : Octets) (i : Nat) (octet : UInt8) (h : b.octet? i = some octet) :
    b.drop i = octet :: b.drop (i + 1) := by
  rcases List.getElem?_eq_some_iff.mp h with ⟨hlt, hoctet⟩
  rw [List.drop_eq_getElem_cons hlt, hoctet]

/-- The walk by index finds what the walk finds, and never looks outside of the
    options. -/
theorem walk_eq (options : Octets) (i : Nat) (hi : i ≤ options.length) :
    walk options i = .ok (timestampFrom i (options.drop i)) := by
  -- The walk goes on behind the option that it is at, and so does what is left.
  fun_induction walk options i with
  | case1 i hlt hnone =>
      have hout := List.getElem?_eq_none_iff.mp hnone
      omega
  | case2 i hlt hkind => rw [drop_of_octet? options i _ hkind, timestampFrom, if_pos rfl]
  | case3 i hlt hkind hend ih =>
      rw [drop_of_octet? options i _ hkind, timestampFrom, if_neg hend, if_pos rfl, ih hlt]
  | case4 i hlt kind hkind hend hnop hnone =>
      rw [drop_of_octet? options i _ hkind, timestampFrom, if_neg hend, if_neg hnop,
        List.head?_drop, show options[i + 1]? = none from hnone]
  | case5 i hlt kind hkind hend hnop length hhead hbad =>
      rw [drop_of_octet? options i _ hkind, timestampFrom, if_neg hend, if_neg hnop,
        List.head?_drop, show options[i + 1]? = some length from hhead]
      simp only [List.length_drop]
      rw [if_pos (by omega)]
  | case6 i hlt kind hkind hend hnop length hhead hfits hstamp =>
      -- Both words lie in the ten octets that the length counts.
      have hlength := hstamp.2
      simp only [timestampLength] at hlength
      rcases exists_word32? options (i + 2) (by omega) with ⟨value, hvalue⟩
      rcases exists_word32? options (i + 6) (by omega) with ⟨echo, hecho⟩
      rw [drop_of_octet? options i _ hkind, timestampFrom, if_neg hend, if_neg hnop,
        List.head?_drop, show options[i + 1]? = some length from hhead]
      simp only [List.length_drop, word32?_drop, Nat.add_assoc, Nat.reduceAdd]
      rw [if_neg (by omega), if_pos hstamp, hvalue, hecho, between, between,
        guarded_eq _ _ (by omega), guarded_eq _ _ (by omega)]
      simp only [ok_bind, List.take_length, word32?_drop, Nat.add_zero, hvalue, hecho, within]
      rfl
  | case7 i hlt kind hkind hend hnop length hhead hfits hstamp ih =>
      rw [drop_of_octet? options i _ hkind, timestampFrom, if_neg hend, if_neg hnop,
        List.head?_drop, show options[i + 1]? = some length from hhead, ih (by omega)]
      simp only [List.length_drop, List.drop_drop]
      rw [if_neg (by omega), if_neg hstamp,
        show i + 1 + (length.toNat - 1) = i + length.toNat by omega]
  | case8 i hge => rw [List.drop_eq_nil_of_le (by omega), timestampFrom]

theorem walk_zero (options : Octets) : walk options 0 = .ok (timestamp? options) :=
  walk_eq options 0 (Nat.zero_le _)

/-- The options with the echo reply of a timestamp zeroed, as they are put into the
    forty octets that a header has room for. -/
def maskedGuarded (options : Octets) (position : Option Nat) : Except Failure Octets := do
  let room ← guarded (options.length ≤ 40) (options ++ List.replicate (40 - options.length) 0)
  match position with
  | none => return room.take options.length
  | some position => do
    let masked ← within (room.overwrite? (position + 4) [0, 0, 0, 0])
    return masked.take options.length

/-- The mask that the walk asks for covers octets of the options. -/
theorem maskedGuarded_eq (options : Octets) (hlength : options.length ≤ 40) :
    maskedGuarded options ((timestamp? options).map TimestampOption.position)
      = .ok (masked options) := by
  rw [maskedGuarded, guarded_eq _ _ hlength, ok_bind, masked]
  rcases hfound : timestamp? options with _ | found
  · simp only [Option.map_none, List.take_left]
    rfl
  · have hin := (timestamp?_bounds options found hfound).2.1
    -- Zeroing them in the room for options is zeroing them in the options.
    have hroom : overwrite? (options ++ List.replicate (40 - options.length) 0)
        (found.position + 4) [0, 0, 0, 0]
          = some (options.take (found.position + 4) ++ [0, 0, 0, 0]
            ++ options.drop (found.position + 8) ++ List.replicate (40 - options.length) 0) := by
      rw [overwrite?, if_pos (by
        simp only [List.length_append, List.length_replicate, List.length_cons, List.length_nil]
        omega)]
      simp only [List.length_cons, List.length_nil, Nat.add_assoc, Nat.reduceAdd]
      rw [List.take_append_of_le_length (by omega), List.drop_append_of_le_length (by omega),
        List.append_assoc, List.append_assoc, List.append_assoc]
    have hlen : (options.take (found.position + 4) ++ [0, 0, 0, 0]
        ++ options.drop (found.position + 8)).length = options.length := by
      simp only [List.length_append, List.length_take, List.length_cons, List.length_nil,
        List.length_drop]
      omega
    simp only [Option.map_some, hroom, within, ok_bind]
    rw [← hlen, List.take_left]
    rfl

end TcpOptions

namespace Headers

/-- The timestamp that was found among options that start at the offset. -/
def keepTimestamp (optionsOffset : Nat) :
    Option TimestampOption → Except Failure (Option Timestamp)
  | none => .ok none
  | some found => do
    let offset ← narrow 16 (optionsOffset + found.position)
    return some ⟨found.value, found.echo, UInt16.ofNat offset⟩

/-- Where the timestamp lies among options that start at the offset. -/
def maskPosition (optionsOffset : Nat) : Option Timestamp → Except Failure (Option Nat)
  | none => .ok none
  | some timestamp => do
    let position ← difference timestamp.offset.toNat optionsOffset
    return some position

/-- A timestamp of a segment is found again where it was found. -/
theorem keepTimestamp_eq (optionsOffset : Nat) (found : Option TimestampOption)
    (hfits : ∀ t ∈ found, optionsOffset + t.position < 2 ^ 16) :
    keepTimestamp optionsOffset found = .ok (found.map fun t =>
        ⟨t.value, t.echo, UInt16.ofNat (optionsOffset + t.position)⟩) ∧
      maskPosition optionsOffset (found.map fun t =>
        ⟨t.value, t.echo, UInt16.ofNat (optionsOffset + t.position)⟩)
          = .ok (found.map TimestampOption.position) := by
  rcases found with _ | t
  · exact ⟨rfl, rfl⟩
  · have hfit := hfits t rfl
    have hoffset : (UInt16.ofNat (optionsOffset + t.position)).toNat
        = optionsOffset + t.position :=
      UInt16.toNat_ofNat_of_lt' hfit
    constructor
    · rw [keepTimestamp, narrow, guarded_eq _ _ hfit]
      rfl
    · simp only [Option.map_some, maskPosition, difference, hoffset]
      rw [guarded_eq _ _ (Nat.le_add_right _ _), Nat.add_sub_cancel_left]
      rfl

/-- Reads the headers of a segment, with a guard on every run, every difference and
    every number that is kept in a narrow field. -/
def decodeGuarded (frame : Frame) : Except Failure Headers := do
  let b := frame.octets
  require (b.length ≤ maxFrameLength) .oversized
  let network ← networkOffsetGuarded frame
  let behindLink ← b.between network b.length
  let ip ← IpHeader.decode behindLink
  require (ip.datagramLength ≤ behindLink.length) .lengthBeyondFrame
  let transport := network + ip.length
  let datagramEnd := network + ip.datagramLength
  require (transport + tcpLength ≤ datagramEnd) .truncatedTcp
  let tcp ← b.between transport datagramEnd
  let dataOffset ← within (tcp.octet? 12)
  let transportLength := dataOffset.toNat / 16 * 4
  require (tcpLength ≤ transportLength ∧ transportLength ≤ tcp.length) .invalidDataOffset
  let optionsOffset := transport + tcpLength
  let raw ← tcp.between tcpLength transportLength
  let found ← TcpOptions.walk raw 0
  let timestamp ← keepTimestamp optionsOffset found
  let position ← maskPosition optionsOffset timestamp
  let options ← TcpOptions.maskedGuarded raw position
  let seq ← within (tcp.word32? 4)
  let ack ← within (tcp.word32? 8)
  let flags ← within (tcp.octet? 13)
  let window ← within (tcp.word16? 14)
  let urgent ← within (tcp.word16? 18)
  let network ← narrow 16 network
  let transport ← narrow 16 transport
  let transportLength ← narrow 8 transportLength
  let datagramEnd ← narrow 32 datagramEnd
  return {
    version := ip.version
    network := UInt16.ofNat network
    transport := UInt16.ofNat transport
    transportLength := UInt8.ofNat transportLength
    datagramEnd := UInt32.ofNat datagramEnd
    traits := ip.traits
    seq
    ack
    flags
    window
    urgent
    timestamp
    options
    fragment := ip.fragment
    padded := datagramEnd ≠ b.length
  }

/-- The guards make no difference: every run lies in what it is taken from, every
    difference is one, and every number fits the field that it is kept in. -/
theorem decodeGuarded_eq (frame : Frame) : decodeGuarded frame = decode frame := by
  rw [decodeGuarded, decode]
  refine require_bind_congr _ _ _ _ fun hmax => ?_
  rw [networkOffsetGuarded_eq]
  refine bind_congr_ok _ _ _ fun network hlink => ?_
  have hnetwork := networkOffset_le frame network hlink
  simp only [maxFrameLength, ethernetLength, maxTags] at hmax
  rw [between, guarded_eq _ _ ⟨hnetwork.2, Nat.le_refl _⟩, ok_bind, List.take_length]
  refine bind_congr_ok _ _ _ fun ip hip => ?_
  have hheader := IpHeader.decode_bounds _ ip hip
  refine require_bind_congr _ _ _ _ fun hinside => ?_
  simp only [List.length_drop] at hinside
  refine require_bind_congr _ _ _ _ fun hroom => ?_
  rw [between, guarded_eq _ _ ⟨by omega, by omega⟩, ok_bind]
  refine bind_congr_ok _ _ _ fun o ho => ?_
  have hlt := o.toNat_lt
  refine require_bind_congr _ _ _ _ fun hoffset => ?_
  -- Nothing is checked from here on, so what was checked has to be enough.
  have hmin := hoffset.1
  simp only [tcpLength] at hroom hmin
  generalize htcp : (frame.octets.take (network + ip.datagramLength)).drop (network + ip.length)
    = tcp at ho hoffset ⊢
  have hraw : ((tcp.take (o.toNat / 16 * 4)).drop tcpLength).length ≤ 40 := by
    simp only [List.length_drop, List.length_take, tcpLength]
    omega
  -- Two headers of sixty octets behind the link header fit sixteen bits.
  have hfits : ∀ t ∈ TcpOptions.timestamp? ((tcp.take (o.toNat / 16 * 4)).drop tcpLength),
      network + ip.length + tcpLength + t.position < 2 ^ 16 := by
    intro t ht
    have hin := (TcpOptions.timestamp?_bounds _ t ht).2.1
    simp only [tcpLength]
    omega
  rcases keepTimestamp_eq _ _ hfits with ⟨hkeep, hmask⟩
  simp only [between, narrow]
  rw [guarded_eq _ _ hoffset, ok_bind, TcpOptions.walk_zero, ok_bind, hkeep, ok_bind, hmask,
    ok_bind, TcpOptions.maskedGuarded_eq _ hraw, ok_bind]
  refine bind_congr_ok _ _ _ fun seq _ => bind_congr_ok _ _ _ fun ack _ => ?_
  refine bind_congr_ok _ _ _ fun flags _ => bind_congr_ok _ _ _ fun window _ => ?_
  refine bind_congr_ok _ _ _ fun urgent _ => ?_
  rw [guarded_eq _ _ (by omega), guarded_eq _ _ (by omega), guarded_eq _ _ (by omega),
    guarded_eq _ _ (by omega)]
  rfl

end Headers

/-- Nothing fails but for input that is malformed. -/
def OnlyMalformed {α : Type} (x : Except Failure α) : Prop :=
  ∀ cause, x = .error cause → ∃ malformation, cause = .malformed malformation

namespace OnlyMalformed

variable {α β : Type}

theorem ok (a : α) : OnlyMalformed (.ok a) := by
  intro cause h
  cases h

theorem malformed (malformation : Malformation) :
    OnlyMalformed (.error (.malformed malformation) : Except Failure α) :=
  fun _ h => ⟨malformation, (Except.error.inj h).symm⟩

/-- A chain fails only so if each of its steps does. -/
theorem bind {x : Except Failure α} {f : α → Except Failure β} (hx : OnlyMalformed x)
    (hf : ∀ a, x = .ok a → OnlyMalformed (f a)) : OnlyMalformed (x >>= f) := by
  cases x with
  | error cause => exact fun cause' h => hx cause' (congrArg Except.error (Except.error.inj h))
  | ok a => exact hf a rfl

/-- A requirement that is not met is malformed input. -/
theorem require_bind {condition : Prop} [Decidable condition] {cause : Malformation}
    {f : Unit → Except Failure β} (hf : condition → OnlyMalformed (f ())) :
    OnlyMalformed (require condition cause >>= f) := by
  by_cases h : condition
  · simp only [require, if_pos h]
    exact hf h
  · simp only [require, if_neg h]
    exact malformed cause

/-- A read does not fail where there is something to be read. -/
theorem within_bind {o : Option α} {f : α → Except Failure β} (ho : ∃ a, o = some a)
    (hf : ∀ a, o = some a → OnlyMalformed (f a)) : OnlyMalformed (within o >>= f) := by
  rcases ho with ⟨a, rfl⟩
  exact hf a rfl

end OnlyMalformed

/-- A frame that ends within its tags is malformed. -/
theorem ethertypeEnd_onlyMalformed (b : Octets) (left position : Nat) :
    OnlyMalformed (ethertypeEnd b left position) := by
  -- By induction on the tags that may still come.
  induction left generalizing position with
  | zero => exact .malformed _
  | succ left ih =>
      rw [ethertypeEnd]
      rcases b.word16? position with _ | ethertype
      · exact .malformed _
      · simp only
        split
        · exact ih (position + 4)
        · split
          · exact .ok _
          · exact .malformed _

theorem networkOffset_onlyMalformed (frame : Frame) : OnlyMalformed (networkOffset frame) := by
  unfold networkOffset
  rcases frame.link with _ | _
  · exact .ok 0
  · exact .require_bind fun _ => ethertypeEnd_onlyMalformed _ _ _

/-- An IP header that cannot be read is malformed. -/
theorem IpHeader.decode_onlyMalformed (ip : Octets) : OnlyMalformed (IpHeader.decode ip) := by
  unfold IpHeader.decode
  rcases ip.head? with _ | first
  · exact .malformed _
  simp only
  split
  · refine .require_bind fun hlength => ?_
    -- The length that was required first is room for every field read after it.
    have hroom : 20 ≤ ip.length := Nat.le_trans hlength.1 hlength.2
    refine .within_bind (exists_octet? ip 9 (by omega)) fun protocol _ => ?_
    refine .require_bind fun _ => ?_
    refine .within_bind (exists_word16? ip 2 (by omega)) fun stated _ => ?_
    refine .require_bind fun _ => ?_
    refine .within_bind (exists_word16? ip 6 (by omega)) fun fragmentation _ => ?_
    refine .within_bind (exists_octet? ip 1 (by omega)) fun trafficClass _ => ?_
    exact .within_bind (exists_octet? ip 8 (by omega)) fun hopLimit _ => .ok _
  · split
    · refine .require_bind fun hlength => ?_
      have hroom : 40 ≤ ip.length := hlength
      refine .within_bind (exists_octet? ip 6 (by omega)) fun protocol _ => ?_
      refine .require_bind fun _ => ?_
      refine .within_bind (exists_word16? ip 4 (by omega)) fun stated _ => ?_
      refine .within_bind (exists_octet? ip 1 (by omega)) fun second _ => ?_
      exact .within_bind (exists_octet? ip 7 (by omega)) fun hopLimit _ => .ok _
    · exact .malformed _

/-- Frames are refused as malformed or not at all. -/
theorem Headers.decode_onlyMalformed (frame : Frame) : OnlyMalformed (Headers.decode frame) := by
  refine .require_bind fun _ => ?_
  refine .bind (networkOffset_onlyMalformed frame) fun network hlink => ?_
  refine .bind (IpHeader.decode_onlyMalformed _) fun ip hip => ?_
  refine .require_bind fun hinside => ?_
  refine .require_bind fun hroom => ?_
  have hnetwork := networkOffset_le frame network hlink
  -- The datagram has room for the fixed part of the TCP header.
  have htcp : 20 ≤ ((frame.octets.take (network + ip.datagramLength)).drop
      (network + ip.length)).length := by
    simp only [List.length_drop, List.length_take, tcpLength] at hinside hroom ⊢
    omega
  refine .within_bind (exists_octet? _ 12 (by omega)) fun o _ => ?_
  refine .require_bind fun _ => ?_
  refine .within_bind (exists_word32? _ 4 (by omega)) fun seq _ => ?_
  refine .within_bind (exists_word32? _ 8 (by omega)) fun ack _ => ?_
  refine .within_bind (exists_octet? _ 13 (by omega)) fun flags _ => ?_
  refine .within_bind (exists_word16? _ 14 (by omega)) fun window _ => ?_
  exact .within_bind (exists_word16? _ 18 (by omega)) fun urgent _ => .ok _

end ReceiveOffload
