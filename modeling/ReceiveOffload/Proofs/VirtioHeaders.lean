import ReceiveOffload.Aggregate.Seal
import ReceiveOffload.Proofs.Octets

/-!
# Virtio Headers in a Buffer

A virtio header is twelve octets, and it is written and read as a whole: writing
puts them in front of what is left of the buffer, reading takes the first ten and
looks no further. Whoever shares the buffer sees something else. To them the
header is six fields at offsets, written one after the other, and a buffer that is
too short for one of them could be left half written.

`write` and `read` are that view. They ask for the length once, and then reach for
each field by its own offset, where every reach can still fail. Neither ever does,
so `write` is `encode` done in place, and a buffer that is refused is as it was.

What an encoder and a decoder have to do with each other are two laws and not
one. A header that was written is read back, which says that no field is lost or
put in the place of another. A buffer that was read and is written again is the
same but for the two octets that a header does not have, which says that nothing
else of the buffer was part of it.

## Main definitions

* `VirtioHeader.patches`: The fields of a header, each at its offset.
* `VirtioHeader.write`: Writes the fields in place.
* `VirtioHeader.read`: Reads the fields by their offsets.

## Theorems

* `VirtioHeader.write_eq`, `VirtioHeader.read_eq`: Field by field and as a whole
  are the same.
* `VirtioHeader.decode_encode`: A header that was written is read back.
* `VirtioHeader.encode_decode`: Writing what was read clears two octets.
* `headers_carried`: Both laws, short buffers, and aggregates with their headers.
-/

namespace ReceiveOffload

namespace Octets

/-- The 16-bit field at an offset that has the low octet first. -/
def word16Little? (b : Octets) (i : Nat) : Option UInt16 := do
  let low ← b[i]?
  let high ← b[i + 1]?
  return word16 high low

/-- The octets of a word are those that it was made of. -/
theorem ofWord16Little_word16 (high low : UInt8) :
    ofWord16Little (word16 high low) = [low, high] := by
  have hh := high.toNat_lt
  have hl := low.toNat_lt
  simp only [ofWord16Little, List.cons.injEq, ← UInt8.toNat_inj, word16, UInt8.toNat_ofNat',
    UInt16.toNat_ofNat', and_true]
  omega

end Octets

namespace VirtioHeader

/-- The fields of a header, each at its offset, with the two octets behind them. -/
def patches (header : VirtioHeader) : List Patch := [
  ⟨0, [header.flags]⟩,
  ⟨1, [header.segmentKind]⟩,
  ⟨2, Octets.ofWord16Little header.headersLength⟩,
  ⟨4, Octets.ofWord16Little header.segmentSize⟩,
  ⟨6, Octets.ofWord16Little header.checksumStart⟩,
  ⟨8, Octets.ofWord16Little header.checksumOffset⟩,
  ⟨10, [0]⟩,
  ⟨11, [0]⟩
]

/-- Writes the fields in place, if the buffer is long enough for all of them. Gives
    what is in the buffer then as well. -/
def write (header : VirtioHeader) (buffer : Octets) : Except Failure Unit × Octets :=
  if buffer.length < size then (.error .shortBuffer, buffer)
  else
    let written := buffer.applyPatches header.patches
    (if written.complete then .ok () else .error .outOfBounds, written.octets)

/-- Reads the fields by their offsets, if the buffer is long enough for all of
    them. -/
def read (buffer : Octets) : Except Failure VirtioHeader :=
  if buffer.length < size then .error .shortBuffer
  else do
    let flags ← within (buffer.octet? 0)
    let segmentKind ← within (buffer.octet? 1)
    let headersLength ← within (buffer.word16Little? 2)
    let segmentSize ← within (buffer.word16Little? 4)
    let checksumStart ← within (buffer.word16Little? 6)
    let checksumOffset ← within (buffer.word16Little? 8)
    return { flags, segmentKind, headersLength, segmentSize, checksumStart, checksumOffset }

/-- The ten octets of the header that say something. -/
def fields (header : VirtioHeader) : Octets :=
  [header.flags, header.segmentKind]
    ++ Octets.ofWord16Little header.headersLength
    ++ Octets.ofWord16Little header.segmentSize
    ++ Octets.ofWord16Little header.checksumStart
    ++ Octets.ofWord16Little header.checksumOffset

@[simp] theorem length_fields (header : VirtioHeader) : header.fields.length = 10 := rfl

@[simp] theorem length_octets (header : VirtioHeader) : header.octets.length = size := rfl

/-- The header is its fields and two octets of padding. -/
theorem octets_eq (header : VirtioHeader) : header.octets = header.fields ++ [0, 0] := rfl

/-- Reading looks at the fields only. -/
theorem decode_fields (header : VirtioHeader) (m n : UInt8) (rest : Octets) :
    decode (header.fields ++ m :: n :: rest) = .ok header := by
  simp only [fields, Octets.ofWord16Little, List.cons_append, List.nil_append, decode,
    word16_ofWord16]

/-- A buffer that is not too short starts with the fields of some header. -/
theorem exists_fields (buffer : Octets) (h : size ≤ buffer.length) :
    ∃ (header : VirtioHeader) (m n : UInt8) (rest : Octets),
      buffer = header.fields ++ m :: n :: rest := by
  rcases buffer with
    _ | ⟨a, _ | ⟨b, _ | ⟨c, _ | ⟨d, _ | ⟨e, _ | ⟨f, _ | ⟨g, _ | ⟨i, _ | ⟨j, _ | ⟨k, _ |
      ⟨m, _ | ⟨n, rest⟩⟩⟩⟩⟩⟩⟩⟩⟩⟩⟩⟩
  case cons.cons.cons.cons.cons.cons.cons.cons.cons.cons.cons.cons =>
    refine ⟨⟨a, b, word16 d c, word16 f e, word16 i g, word16 k j⟩, m, n, rest, ?_⟩
    simp only [fields, Octets.ofWord16Little_word16, List.cons_append, List.nil_append]
  all_goals
    simp only [size, List.length_cons, List.length_nil] at h
    omega

/-- Writing replaces the first twelve octets, whatever they were. -/
theorem encode_fields (header old : VirtioHeader) (m n : UInt8) (rest : Octets) :
    header.encode (old.fields ++ m :: n :: rest) = .ok (header.octets ++ rest) := by
  have hlong : ¬ (old.fields ++ m :: n :: rest).length < size := by
    simp only [List.length_append, length_fields, List.length_cons, size]
    omega
  rw [encode, if_neg hlong]
  rfl

theorem decode_short (buffer : Octets) (h : buffer.length < size) :
    decode buffer = .error .shortBuffer := by
  unfold decode
  split
  · simp only [size, List.length_cons] at h
    omega
  · rfl

theorem encode_short (header : VirtioHeader) (buffer : Octets) (h : buffer.length < size) :
    header.encode buffer = .error .shortBuffer :=
  if_pos h

/-- The fields next to each other are the header. -/
theorem patches_written (header old : VirtioHeader) (m n : UInt8) (rest : Octets) :
    (old.fields ++ m :: n :: rest).applyPatches header.patches
      = ⟨header.octets ++ rest, true⟩ := by
  have hlength : (old.fields ++ m :: n :: rest).length = size + rest.length := by
    simp only [List.length_append, length_fields, List.length_cons, size]
    omega
  have hfit : ∀ p ∈ header.patches,
      p.offset + p.octets.length ≤ (old.fields ++ m :: n :: rest).length := by
    have hsize : ∀ p ∈ header.patches, p.offset + p.octets.length ≤ size := by
      simp [patches, Octets.ofWord16Little, size]
    intro p hp
    have hp := hsize p hp
    omega
  have hapart : header.patches.Pairwise Patch.Apart := by
    simp [patches, Patch.Apart, Octets.ofWord16Little]
  rcases Octets.applyPatches_complete _ header.patches hfit hapart with
    ⟨out, happly, _, houtside, hheld⟩
  rw [happly, Written.mk.injEq]
  refine ⟨?_, rfl⟩
  simp only [patches, List.forall_mem_cons, List.not_mem_nil, false_imp_iff, implies_true,
    and_true] at hheld
  rcases hheld with ⟨h0, h1, h2, h4, h6, h8, h10, h11⟩
  -- The fields lie next to each other, so together they are one run.
  have hholds : Octets.HoldsAt out 0 header.octets :=
    ((((((h0.append h1).append h2).append h4).append h6).append h8).append h10).append h11
  refine List.ext_getElem? (fun j => ?_)
  by_cases hj : j < size
  · rw [List.getElem?_append_left hj, ← hholds j hj, Nat.zero_add]
  · -- Behind the header no field reaches, and the octets are those of the buffer.
    have hnone : ∀ p ∈ header.patches, ¬ p.covers j := by
      simp only [patches, Patch.covers, Octets.ofWord16Little, List.forall_mem_cons, size,
        List.length_cons, List.length_nil] at hj ⊢
      refine ⟨?_, ?_, ?_, ?_, ?_, ?_, ?_, ?_, nofun⟩ <;> omega
    rw [houtside j hnone]
    simp only [size] at hj
    rw [List.getElem?_append_right (by simp only [length_fields]; omega),
      List.getElem?_append_right (by simp only [length_octets, size]; omega)]
    simp only [length_fields, length_octets, size]
    rw [show j - 10 = j - 12 + 2 by omega]
    rfl

/-- Written field by field and as a whole, a header is the same, and a buffer that is
    refused is as it was. -/
theorem write_eq (header : VirtioHeader) (buffer : Octets) :
    header.write buffer = match header.encode buffer with
      | .ok out => (.ok (), out)
      | .error cause => (.error cause, buffer) := by
  by_cases h : buffer.length < size
  · rw [write, if_pos h, header.encode_short buffer h]
  · rcases exists_fields buffer (Nat.le_of_not_lt h) with ⟨old, m, n, rest, rfl⟩
    simp only [write, if_neg h, header.patches_written, encode_fields, if_true]

/-- Read field by field and as a whole, a header is the same. -/
theorem read_eq (buffer : Octets) : read buffer = decode buffer := by
  by_cases h : buffer.length < size
  · rw [read, if_pos h, decode_short buffer h]
  · rcases exists_fields buffer (Nat.le_of_not_lt h) with ⟨header, m, n, rest, rfl⟩
    rw [read, if_neg h, decode_fields]
    simp only [fields, Octets.ofWord16Little, Octets.octet?, Octets.word16Little?,
      List.cons_append, List.nil_append, List.getElem?_cons_zero, List.getElem?_cons_succ]
    simp only [Option.pure_def, Option.bind_eq_bind, Option.bind_some, word16_ofWord16, within]
    rfl

/-- A header that was written is read back. The two octets behind its fields are zero
    then, and what follows is untouched. -/
theorem decode_encode (header : VirtioHeader) (buffer : Octets) (h : size ≤ buffer.length) :
    ∃ out, header.encode buffer = .ok out ∧ decode out = .ok header ∧
      out[10]? = some 0 ∧ out[11]? = some 0 ∧ out.length = buffer.length ∧
      out.drop size = buffer.drop size := by
  rcases exists_fields buffer h with ⟨old, m, n, rest, rfl⟩
  refine ⟨_, header.encode_fields old m n rest, ?_, rfl, rfl, ?_, ?_⟩
  · rw [octets_eq, List.append_assoc]
    exact header.decode_fields 0 0 rest
  · simp only [List.length_append, length_octets, length_fields, List.length_cons, size]
    omega
  · rw [List.drop_left' header.length_octets]
    rfl

/-- Writing what was read leaves every octet, but for the two that say nothing, which
    are zero then. -/
theorem encode_decode (buffer : Octets) (h : size ≤ buffer.length) :
    ∃ header out, decode buffer = .ok header ∧ header.encode buffer = .ok out ∧
      ∀ i, out[i]? = if i = 10 ∨ i = 11 then some 0 else buffer[i]? := by
  rcases exists_fields buffer h with ⟨header, m, n, rest, rfl⟩
  refine ⟨header, _, header.decode_fields m n rest, header.encode_fields header m n rest, ?_⟩
  intro i
  rw [octets_eq, List.append_assoc]
  by_cases hlow : i < 10
  · rw [if_neg (by omega), List.getElem?_append_left hlow, List.getElem?_append_left hlow]
  · have hfields : header.fields.length ≤ i := Nat.le_of_not_lt hlow
    rw [List.getElem?_append_right hfields, List.getElem?_append_right hfields, length_fields]
    -- The two octets of padding come after the fields, and they alone are not taken from the
    -- buffer.
    rcases hk : i - 10 with _ | _ | k
    · rw [if_pos (by omega)]
      rfl
    · rw [if_pos (by omega)]
      rfl
    · rw [if_neg (by omega)]
      rfl

end VirtioHeader

namespace Aggregate

/-- An aggregate with its header is a buffer of the right length into which first the
    header is written and then the frame. -/
theorem withVirtioHeader_written (aggregate : Aggregate) :
    ∃ out, aggregate.virtioHeader.encode
        (List.replicate (VirtioHeader.size + aggregate.length) 0) = .ok out ∧
      out.overwrite? VirtioHeader.size aggregate.frame.octets
        = some aggregate.withVirtioHeader := by
  refine ⟨aggregate.virtioHeader.octets ++ List.replicate aggregate.length 0, ?_, ?_⟩
  · rw [VirtioHeader.encode, if_neg (by simp), List.drop_replicate, Nat.add_sub_cancel_left]
  · have hlength : (aggregate.virtioHeader.octets ++ List.replicate aggregate.length 0).length
        = VirtioHeader.size + aggregate.frame.octets.length := by
      rw [List.length_append, VirtioHeader.length_octets, List.length_replicate]
      rfl
    rw [Octets.overwrite?, if_pos (Nat.le_of_eq hlength.symm), ← hlength, List.drop_length,
      List.append_nil, List.take_left' (VirtioHeader.length_octets _)]
    rfl

/-- The header in front of an aggregate is read back. -/
theorem decode_withVirtioHeader (aggregate : Aggregate) :
    VirtioHeader.decode aggregate.withVirtioHeader = .ok aggregate.virtioHeader := by
  rw [withVirtioHeader, VirtioHeader.octets_eq, List.append_assoc]
  exact aggregate.virtioHeader.decode_fields 0 0 aggregate.frame.octets

/-- Behind the header comes the frame of the aggregate. -/
theorem drop_withVirtioHeader (aggregate : Aggregate) :
    aggregate.withVirtioHeader.drop VirtioHeader.size = aggregate.frame.octets :=
  List.drop_left' aggregate.virtioHeader.length_octets

end Aggregate

/-- Virtio headers are carried by buffers without loss. A header that was written is
    read back and takes no more than its twelve octets, and writing what was read
    changes at most the last two of them. A buffer that is shorter is refused by both,
    and left alone. An aggregate with its header in front is read as that header, and
    goes on with its own octets. -/
theorem headers_carried :
    (∀ (header : VirtioHeader) (buffer : Octets), VirtioHeader.size ≤ buffer.length →
      ∃ out, header.encode buffer = .ok out ∧ header.write buffer = (.ok (), out) ∧
        VirtioHeader.decode out = .ok header ∧ out[10]? = some 0 ∧ out[11]? = some 0 ∧
        out.length = buffer.length ∧ out.drop 12 = buffer.drop 12) ∧
    (∀ buffer : Octets, VirtioHeader.size ≤ buffer.length →
      ∃ header out, VirtioHeader.decode buffer = .ok header ∧
        VirtioHeader.read buffer = .ok header ∧ header.encode buffer = .ok out ∧
        ∀ i, out[i]? = if i = 10 ∨ i = 11 then some 0 else buffer[i]?) ∧
    (∀ (header : VirtioHeader) (buffer : Octets), buffer.length < VirtioHeader.size →
      header.encode buffer = .error .shortBuffer ∧
        header.write buffer = (.error .shortBuffer, buffer) ∧
        VirtioHeader.decode buffer = .error .shortBuffer ∧
        VirtioHeader.read buffer = .error .shortBuffer) ∧
    (∀ aggregate : Aggregate,
      (∃ out, aggregate.virtioHeader.encode
          (List.replicate (VirtioHeader.size + aggregate.length) 0) = .ok out ∧
        out.overwrite? VirtioHeader.size aggregate.frame.octets
          = some aggregate.withVirtioHeader) ∧
      VirtioHeader.decode aggregate.withVirtioHeader = .ok aggregate.virtioHeader ∧
      aggregate.withVirtioHeader.drop VirtioHeader.size = aggregate.frame.octets) := by
  refine ⟨?_, ?_, ?_, ?_⟩
  · intro header buffer h
    rcases header.decode_encode buffer h with ⟨out, hencode, hlaws⟩
    refine ⟨out, hencode, ?_, hlaws⟩
    rw [header.write_eq, hencode]
  · intro buffer h
    rcases VirtioHeader.encode_decode buffer h with ⟨header, out, hdecode, hlaws⟩
    exact ⟨header, out, hdecode, (VirtioHeader.read_eq buffer).trans hdecode, hlaws⟩
  · intro header buffer h
    have hencode := header.encode_short buffer h
    have hdecode := VirtioHeader.decode_short buffer h
    refine ⟨hencode, ?_, hdecode, (VirtioHeader.read_eq buffer).trans hdecode⟩
    rw [header.write_eq, hencode]
  · exact fun aggregate => ⟨aggregate.withVirtioHeader_written,
      aggregate.decode_withVirtioHeader, aggregate.drop_withVirtioHeader⟩

/-- The header of segments over IP version 6 with a checksum that is to be completed. -/
def partialHeader : VirtioHeader where
  flags := VirtioHeader.needsChecksum
  segmentKind := VirtioHeader.kindTcpV6
  headersLength := 0x014A
  segmentSize := 1440
  checksumStart := 40
  checksumOffset := 16

theorem headers_carried_partial :
    (∃ out, partialHeader.encode (List.replicate 14 0xFF) = .ok out ∧
      VirtioHeader.decode out = .ok partialHeader ∧ out[10]? = some 0 ∧ out[11]? = some 0 ∧
      out.drop 12 = [0xFF, 0xFF]) ∧
    (∃ header out, VirtioHeader.decode (List.replicate 12 0xFF) = .ok header ∧
      header.encode (List.replicate 12 0xFF) = .ok out ∧ out[9]? = some 0xFF) ∧
    partialHeader.write (List.replicate 11 0xFF)
      = (.error .shortBuffer, List.replicate 11 0xFF) := by
  rcases headers_carried with ⟨hwritten, hread, hshort, _⟩
  refine ⟨?_, ?_, ?_⟩
  · rcases hwritten partialHeader (List.replicate 14 0xFF) (by decide) with
      ⟨out, hencode, _, hdecode, h10, h11, _, hrest⟩
    exact ⟨out, hencode, hdecode, h10, h11, hrest⟩
  · rcases hread (List.replicate 12 0xFF) (by decide) with ⟨header, out, hdecode, _, hencode, hsame⟩
    exact ⟨header, out, hdecode, hencode, hsame 9⟩
  · exact (hshort partialHeader (List.replicate 11 0xFF) (by decide)).2.1

example : partialHeader.octets = [1, 4, 0x4A, 0x01, 0xA0, 0x05, 40, 0, 16, 0, 0, 0] := by
  decide

end ReceiveOffload
