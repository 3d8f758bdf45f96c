import ReceiveOffload.Proofs.Guards
import ReceiveOffload.Proofs.OptionLists
import ReceiveOffload.Proofs.Seal

/-!
# Writing Within Bounds

Headers are changed in a buffer that need not be the frame they were read from. All
that is asked of it is that it reaches as far as the headers do: it can go on behind
them, end there, or hold something else altogether. Every writer then finds its fields,
and changes nothing but them.

What the fields leave out is what decides how a frame is read. The version, the lengths
of the headers, the protocol and the ports stand where no writer writes. A timestamp is
another matter, because it lies among the options and its place was found by walking.
If the options of the buffer have their first timestamp there too, writing it changes
two words of one option, and the list of options is the same but for them.

## Main definitions

* `Octets.DiffersIn`: Two strings are the same outside of the given runs.
* `Headers.Places`: Where the headers lie, and that they do so in the frame.
* `Headers.Fixed`: The octets that no writer may touch.
* `Headers.Locates`, `OptionArea.layout`: A timestamp lies where the headers say, and
  the kinds and lengths of options.
* `Headers.Keeps`: What stays of a buffer.
* `Headers.WritesWithin`: All writers keep to their fields.

## Theorems

* `Headers.exists_patched`: Patches that lie among the headers can be applied.
* `Headers.ReadsFrom.keeps_of_trailer`: Another timestamp leaves the list of options.
* `reads_and_writes_bounded`: Reading stays in the frame, and writing in its fields.
-/

namespace ReceiveOffload

open Octets

/-- The strings are of the same length, and the same outside of the given runs, each of
    which is an offset and a number of octets. -/
structure Octets.DiffersIn (b b' : Octets) (runs : List (Nat × Nat)) : Prop where
  length : b'.length = b.length
  same : ∀ j, (∀ run ∈ runs, ¬ (run.1 ≤ j ∧ j < run.1 + run.2)) → b'[j]? = b[j]?

/-- The run that a patch writes. -/
def Patch.run (p : Patch) : Nat × Nat :=
  (p.offset, p.octets.length)

/-- What no patch covers is the same where the strings differ in the runs of patches. -/
theorem Octets.DiffersIn.of_uncovered {b b' : Octets} {ps : List Patch}
    (h : b.DiffersIn b' (ps.map Patch.run)) (j : Nat) (hj : ∀ p ∈ ps, ¬ p.covers j) :
    b'[j]? = b[j]? := by
  refine h.same j fun run hrun => ?_
  rcases List.mem_map.mp hrun with ⟨p, hp, rfl⟩
  exact hj p hp

/-- The kind of an option and how many octets it has. -/
def TcpOption.shape (option : TcpOption) : UInt8 × Nat :=
  (option.octets.headD 0, option.octets.length)

/-- The kinds and lengths of the options, and the octets behind them. -/
def OptionArea.layout (area : OptionArea) : List (UInt8 × Nat) × Octets :=
  (area.options.map TcpOption.shape, area.rest)

/-- Where the protocol number lies in an IP header. -/
def IpVersion.protocolOffset : IpVersion → Nat
  | v4 => 9
  | v6 => 6

namespace Headers

/-- The first timestamp of the options is where the headers have one. -/
def Locates (h : Headers) (area : OptionArea) : Prop :=
  (TcpOption.firstTimestamp 0 area.options).map
      (fun found => h.transport.toNat + tcpLength + found.position)
    = h.timestamp.map fun t => t.offset.toNat

/-- The headers lie in the frame one after the other, and a timestamp lies among the
    options, where it is the first of them. -/
structure Places (h : Headers) (frame : Frame) : Prop where
  network_lt : h.network.toNat < h.transport.toNat
  transport_le : h.transport.toNat + 20 ≤ h.length
  length_le : h.length ≤ h.datagramEnd.toNat
  inside : h.datagramEnd.toNat ≤ frame.length
  timestamp : ∀ t, h.timestamp = some t →
    h.transport.toNat + 20 ≤ t.offset.toNat ∧ t.offset.toNat + 8 ≤ h.length
  locates : ∀ area : OptionArea, area.octets = h.rawOptions frame.octets → h.Locates area

/-- The octets that say how a frame is to be read: the link header, the version with the
    length of its header, the protocol, the ports, and the length of the TCP header. -/
def Fixed (h : Headers) (j : Nat) : Prop :=
  j ≤ h.network.toNat ∨ j = h.network.toNat + h.version.protocolOffset ∨
    (h.transport.toNat ≤ j ∧ j < h.transport.toNat + 4) ∨ j = h.transport.toNat + 12

/-- What stays of a buffer: the octets that say how it is to be read, all options but for
    the words of the timestamp, and the layout of options that have theirs there. -/
structure Keeps (h : Headers) (b b' : Octets) : Prop where
  fixed : ∀ j, h.Fixed j → b'[j]? = b[j]?
  options : ∀ j, h.transport.toNat + 20 ≤ j →
    (∀ t, h.timestamp = some t → j < t.offset.toNat ∨ t.offset.toNat + 8 ≤ j) →
    b'[j]? = b[j]?
  layout : ∀ area : OptionArea, area.octets = h.rawOptions b → h.Locates area →
    ∃ area' : OptionArea, area'.octets = h.rawOptions b' ∧ area'.layout = area.layout

/-- The IP length. -/
def ipLengthRuns (h : Headers) : List (Nat × Nat) :=
  [(h.network.toNat + h.version.lengthOffset, 2)]

/-- The IP checksum, which version 6 does not have. -/
def ipv4ChecksumRuns (h : Headers) : List (Nat × Nat) :=
  match h.version with
  | .v4 => [(h.network.toNat + 10, 2)]
  | .v6 => []

/-- The acknowledgement, the flags, the window, the urgent pointer, and the two words of
    the timestamp if both sides have one. -/
def trailerRuns (h : Headers) (trailer : Trailer) : List (Nat × Nat) :=
  [(h.transport.toNat + 8, 4), (h.transport.toNat + 13, 1), (h.transport.toNat + 14, 2),
    (h.transport.toNat + 18, 2)] ++
  match h.timestamp, trailer.timestampEcho with
  | some t, some _ => [(t.offset.toNat, 4), (t.offset.toNat + 4, 4)]
  | _, _ => []

/-- The TCP checksum. -/
def tcpChecksumRuns (h : Headers) : List (Nat × Nat) :=
  [(h.transport.toNat + 16, 2)]

/-- Every writer finds its fields in the buffer and changes nothing but them. -/
structure WritesWithin (h : Headers) (b : Octets) : Prop where
  ipLength : ∃ change b', h.setIpLength b b.length = .ok (change, b') ∧
    b.DiffersIn b' h.ipLengthRuns ∧ h.Keeps b b'
  ipv4Checksum : ∀ checksum, ∃ b', h.setIpv4Checksum b checksum = ⟨b', true⟩ ∧
    b.DiffersIn b' h.ipv4ChecksumRuns ∧ h.Keeps b b'
  trailer : ∀ trailer, ∃ b', h.setTrailer b trailer = ⟨b', true⟩ ∧
    b.DiffersIn b' (h.trailerRuns trailer) ∧ h.Keeps b b'
  tcpChecksum : ∀ checksum, ∃ b', h.setTcpChecksum b checksum = ⟨b', true⟩ ∧
    b.DiffersIn b' h.tcpChecksumRuns ∧ h.Keeps b b'
  addresses : ∃ source destination, h.addresses b = .ok (source, destination)

variable {h : Headers} {frame : Frame} {b b' : Octets}

/-- Patches that lie among the headers and do not meet can be applied to every buffer
    that holds the headers. -/
theorem exists_patched (ps : List Patch) (hb : h.length ≤ b.length)
    (hfit : ∀ p ∈ ps, p.offset + p.octets.length ≤ h.length) (hapart : ps.Pairwise Patch.Apart) :
    ∃ b', b.applyPatches ps = ⟨b', true⟩ ∧ b.DiffersIn b' (ps.map Patch.run) ∧
      ∀ p ∈ ps, HoldsAt b' p.offset p.octets := by
  rcases applyPatches_complete b ps (fun p hp => Nat.le_trans (hfit p hp) hb) hapart with
    ⟨b', happly, hlength, hout, hin⟩
  refine ⟨b', happly, ⟨hlength, fun j hj => hout j fun p hp => ?_⟩, hin⟩
  exact hj p.run (List.mem_map_of_mem hp)

/-- What no writer may touch is not what sealing rewrites. -/
theorem ReadsFrom.not_rewrites (r : h.ReadsFrom frame) (j : Nat) (hj : h.Fixed j) :
    ¬ h.Rewrites j := by
  have hbounds := r.bounds
  have hlong : h.version = .v6 → h.transport.toNat = h.network.toNat + 40 := hbounds.2.2.2.2.2
  cases hv : h.version with
  | v4 =>
      simp only [Fixed, hv, IpVersion.protocolOffset] at hj
      simp only [Rewrites, hv, IpVersion.Rewritten]
      omega
  | v6 =>
      have htransport := hlong hv
      simp only [Fixed, hv, IpVersion.protocolOffset] at hj
      simp only [Rewrites, hv, IpVersion.Rewritten]
      omega

/-- Options in which nothing changed are the same options. -/
theorem rawOptions_eq (hlength : b'.length = b.length) (hb : h.length ≤ b.length)
    (hsame : ∀ j, h.transport.toNat + 20 ≤ j → b'[j]? = b[j]?) :
    h.rawOptions b' = h.rawOptions b := by
  refine List.ext_getElem? (fun j => ?_)
  by_cases hj : h.transport.toNat + tcpLength + j < h.length
  · rw [getElem?_rawOptions h b' j hj, getElem?_rawOptions h b j hj]
    exact hsame _ (by simp only [tcpLength]; omega)
  · -- Behind the headers there are no options.
    rw [List.getElem?_eq_none (by rw [length_rawOptions h b' (by omega)]; omega),
      List.getElem?_eq_none (by rw [length_rawOptions h b hb]; omega)]

/-- Patches before the options keep everything that has to stay. -/
theorem ReadsFrom.keeps_of_before (r : h.ReadsFrom frame) (hb : h.length ≤ b.length)
    (ps : List Patch) (hdiffers : b.DiffersIn b' (ps.map Patch.run))
    (hrewrites : ∀ p ∈ ps, ∀ j, p.covers j → h.Rewrites j)
    (hbefore : ∀ p ∈ ps, p.offset + p.octets.length ≤ h.transport.toNat + 20) :
    h.Keeps b b' := by
  have hbehind : ∀ j, h.transport.toNat + 20 ≤ j → b'[j]? = b[j]? := by
    intro j hj
    refine hdiffers.of_uncovered j fun p hp hcovers => ?_
    have hend := hbefore p hp
    simp only [Patch.covers] at hcovers
    omega
  constructor
  case fixed =>
    exact fun j hj => hdiffers.of_uncovered j fun p hp hcovers =>
      r.not_rewrites j hj (hrewrites p hp j hcovers)
  case options => exact fun j hj _ => hbehind j hj
  case layout =>
    exact fun area harea _ =>
      ⟨area, by rw [rawOptions_eq hdiffers.length hb hbehind, harea], rfl⟩

/-- The headers that were read lie where they say. -/
theorem ReadsFrom.places (r : h.ReadsFrom frame) : h.Places frame := by
  have hbounds := r.bounds
  have hmin := r.minimum
  have htimestamp := r.timestamp
  simp only [tcpLength] at hmin
  constructor
  case network_lt => omega
  case transport_le => simp only [length]; omega
  case length_le => exact r.fits
  case inside => exact r.inside
  case timestamp =>
    intro t ht
    rcases hfound : TcpOptions.timestamp? (h.rawOptions frame.octets) with _ | found
    · rw [htimestamp, hfound] at ht
      cases ht
    · rcases r.timestamp_eq found hfound with ⟨t', ht', _, hoffset, _, hin⟩
      rw [ht', Option.some.injEq] at ht
      subst ht
      simp only [tcpLength] at hoffset hin
      omega
  case locates =>
    intro area harea
    -- The options are a list in one way or another, and the walk finds its first timestamp.
    rw [Locates, ← TcpOptions.timestamp?_octets, harea]
    rcases hfound : TcpOptions.timestamp? (h.rawOptions frame.octets) with _ | found
    · rw [htimestamp, hfound]
      rfl
    · rcases r.timestamp_eq found hfound with ⟨t, ht, _, hoffset, _⟩
      rw [ht, Option.map_some, Option.map_some, hoffset]

/-- Other words in the timestamp leave the list of options as it is but for them. -/
theorem layout_of_timestamp (t : Timestamp) (ht : h.timestamp = some t) (value echo : UInt32)
    (hlength : b'.length = b.length) (hb : h.length ≤ b.length)
    (hroom : h.transport.toNat + 20 ≤ t.offset.toNat ∧ t.offset.toNat + 8 ≤ h.length)
    (hheld : HoldsAt b' t.offset.toNat (ofWord32 value ++ ofWord32 echo))
    (hsame : ∀ j, h.transport.toNat + 20 ≤ j →
      j < t.offset.toNat ∨ t.offset.toNat + 8 ≤ j → b'[j]? = b[j]?)
    (area : OptionArea) (harea : area.octets = h.rawOptions b) (hlocates : h.Locates area) :
    ∃ area' : OptionArea, area'.octets = h.rawOptions b' ∧ area'.layout = area.layout := by
  rw [Locates, ht, Option.map_some] at hlocates
  rcases hfound : TcpOption.firstTimestamp 0 area.options with _ | found
  · rw [hfound] at hlocates
    cases hlocates
  rw [hfound, Option.map_some, Option.some.injEq] at hlocates
  rcases TcpOption.exists_split 0 area.options found hfound with
    ⟨before, after, hlist, hposition, _⟩
  simp only [tcpLength] at hlocates
  have hlen := length_rawOptions h b hb
  have hlen' := length_rawOptions h b' (by omega)
  simp only [tcpLength] at hlen hlen'
  -- Among the options the two words are replaced.
  have hwritten : overwrite? (h.rawOptions b) found.position (ofWord32 value ++ ofWord32 echo)
      = some (h.rawOptions b') := by
    refine overwrite_of_holdsAt _ _ _ _
      (by simp only [List.length_append, length_ofWord32]; omega) (fun k hk => ?_)
      (fun j hj => ?_)
    · have hheldk := hheld k hk
      simp only [List.length_append, length_ofWord32] at hk
      rw [getElem?_rawOptions h b' _ (by simp only [tcpLength]; omega), ← hheldk, ← hlocates,
        tcpLength, Nat.add_assoc (h.transport.toNat + 20)]
    · simp only [List.length_append, length_ofWord32] at hj
      by_cases hin : h.transport.toNat + tcpLength + j < h.length
      · rw [getElem?_rawOptions h b' j hin, getElem?_rawOptions h b j hin]
        exact hsame _ (by simp only [tcpLength]; omega) (by simp only [tcpLength]; omega)
      · simp only [tcpLength] at hin
        rw [List.getElem?_eq_none (by omega), List.getElem?_eq_none (by omega)]
  -- Kind and length of the timestamp come before its words, and stay.
  have hbefore : (before.flatMap TcpOption.octets ++ [8, 10]).length = found.position := by
    rw [List.length_append, hposition, Nat.zero_add]
    rfl
  have hplain := TcpOption.octets_split before after found.value found.echo area.rest
  rw [← hlist, ← List.append_assoc (ofWord32 found.value)] at hplain
  refine ⟨⟨before ++ TcpOption.timestamp value echo :: after, area.rest, area.stops⟩, ?_, ?_⟩
  · have hroom' := le_length_of_overwrite _ _ _ _ hwritten
    rw [overwrite?, if_pos hroom', Option.some.injEq, ← harea, OptionArea.octets, hplain,
      List.take_left' hbefore, ← List.drop_drop, List.drop_left' hbefore,
      List.drop_left' (by simp only [List.length_append, length_ofWord32])] at hwritten
    rw [OptionArea.octets, TcpOption.octets_split, ← hwritten]
    simp only [List.append_assoc]
  · simp only [OptionArea.layout, hlist, List.map_append, List.map_cons]
    rfl

/-- The words of a trailer keep everything that has to stay. -/
theorem ReadsFrom.keeps_of_trailer (r : h.ReadsFrom frame) (hb : h.length ≤ b.length)
    (trailer : Trailer) (hdiffers : b.DiffersIn b' ((h.trailerPatches trailer).map Patch.run))
    (hheld : ∀ p ∈ h.trailerPatches trailer, HoldsAt b' p.offset p.octets) : h.Keeps b b' := by
  rcases fieldPatches_bounds h trailer with ⟨hfields, _⟩
  have hplain : h.trailerPatches trailer = h.fieldPatches trailer → h.Keeps b b' := by
    intro hsame
    rw [hsame] at hdiffers
    exact r.keeps_of_before hb _ hdiffers (fun p hp => (hfields p hp).2.2.1)
      (fun p hp => (hfields p hp).2.1)
  -- The options are written only where both sides have a timestamp.
  rcases ht : h.timestamp with _ | t
  · exact hplain (by simp only [trailerPatches, fieldPatches, ht])
  rcases hecho : trailer.timestampEcho with _ | echo
  · exact hplain (by simp only [trailerPatches, fieldPatches, ht, hecho])
  have hpatches : h.trailerPatches trailer = h.fieldPatches trailer ++
      [⟨t.offset.toNat, ofWord32 trailer.timestampValue⟩,
        ⟨t.offset.toNat + 4, ofWord32 echo⟩] := by
    simp only [trailerPatches, fieldPatches, ht, hecho]
  have hroom := r.places.timestamp t ht
  have hbounds := (trailerPatches_bounds r trailer).1
  have hsame : ∀ j, h.transport.toNat + 20 ≤ j →
      j < t.offset.toNat ∨ t.offset.toNat + 8 ≤ j → b'[j]? = b[j]? := by
    intro j hj hapart
    refine hdiffers.of_uncovered j fun p hp hcovers => ?_
    rw [hpatches, List.mem_append] at hp
    rcases hp with hp | hp
    · -- The other fields come before the options.
      have hend := (hfields p hp).2.1
      simp only [tcpLength, Patch.covers] at hend hcovers
      omega
    · simp only [List.mem_cons, List.not_mem_nil, or_false] at hp
      rcases hp with rfl | rfl <;> simp only [Patch.covers, length_ofWord32] at hcovers <;> omega
  constructor
  case fixed =>
    exact fun j hj => hdiffers.of_uncovered j fun p hp hcovers =>
      r.not_rewrites j hj ((hbounds p hp).2.2.1 j hcovers)
  case options => exact fun j hj hapart => hsame j hj (hapart t ht)
  case layout =>
    have hwords : HoldsAt b' t.offset.toNat (ofWord32 trailer.timestampValue ++ ofWord32 echo) := by
      rw [hpatches] at hheld
      exact (hheld _ (List.mem_append_right _ List.mem_cons_self)).append
        (hheld _ (List.mem_append_right _ (List.mem_cons_of_mem _ List.mem_cons_self)))
    exact fun area harea hlocates => layout_of_timestamp t ht trailer.timestampValue echo
      hdiffers.length hb hroom hwords hsame area harea hlocates

/-- A word before the options can be written if it may be rewritten, and nothing changes
    but that word. -/
theorem ReadsFrom.exists_word_patched (r : h.ReadsFrom frame) (hb : h.length ≤ b.length)
    (offset : Nat) (w : UInt16) (hfit : offset + 2 ≤ h.transport.toNat + 20)
    (hrewrites : ∀ j, offset ≤ j → j < offset + 2 → h.Rewrites j) :
    ∃ b', b.applyPatches [⟨offset, ofWord16 w⟩] = ⟨b', true⟩ ∧
      b.DiffersIn b' [(offset, 2)] ∧ h.Keeps b b' := by
  have hplaces := r.places.transport_le
  rcases exists_patched [⟨offset, ofWord16 w⟩] hb
    (fun p hp => by
      rw [List.mem_singleton.mp hp]
      show offset + 2 ≤ h.length
      omega)
    (List.pairwise_singleton _ _) with ⟨b', happly, hdiffers, _⟩
  refine ⟨b', happly, hdiffers, r.keeps_of_before hb _ hdiffers ?_ ?_⟩ <;> intro p hp <;>
    rw [List.mem_singleton.mp hp]
  · exact fun j hj => hrewrites j hj.1 hj.2
  · exact hfit

/-- All writers find their fields in every buffer that holds the headers, and change
    nothing but them. -/
theorem ReadsFrom.writesWithin (r : h.ReadsFrom frame) (hb : h.length ≤ b.length) :
    h.WritesWithin b := by
  have hbounds := r.bounds
  constructor
  case ipLength =>
    -- The length is written as one word, which is what a single patch writes.
    rcases setIpLength_eq r b hb with ⟨before, lengthened, _, hlengthened, hset⟩
    have hcover := (coverPatches_bounds h (h.statedLength b.length) 0).1 _ List.mem_cons_self
    simp only [length_ofWord16, Patch.covers] at hcover
    rcases r.exists_word_patched hb _ (h.statedLength b.length) (by omega)
      (fun j hlow hhigh => hcover.2 j ⟨hlow, hhigh⟩) with ⟨b', happly, hdiffers, hkeeps⟩
    rw [overwrite_of_applyPatches happly, Option.some.injEq] at hlengthened
    subst hlengthened
    exact ⟨_, b', hset, hdiffers, hkeeps⟩
  case ipv4Checksum =>
    intro checksum
    cases hv : h.version with
    | v4 =>
        rcases r.exists_word_patched hb h.ipv4ChecksumOffset checksum
          (by simp only [ipv4ChecksumOffset]; omega)
          (fun j hlow hhigh => Or.inl (by
            simp only [ipv4ChecksumOffset] at hlow hhigh
            simp only [hv, IpVersion.Rewritten]
            omega)) with ⟨b', happly, hdiffers, hkeeps⟩
        refine ⟨b', by simp only [setIpv4Checksum, hv, happly], ?_, hkeeps⟩
        simp only [ipv4ChecksumRuns, hv]
        exact hdiffers
    | v6 =>
        have hdiffers : b.DiffersIn b (List.map Patch.run []) := ⟨rfl, fun _ _ => rfl⟩
        refine ⟨b, by simp only [setIpv4Checksum, hv], ?_, ?_⟩
        · simp only [ipv4ChecksumRuns, hv]
          exact hdiffers
        · exact r.keeps_of_before hb [] hdiffers (fun p hp => absurd hp List.not_mem_nil)
            (fun p hp => absurd hp List.not_mem_nil)
  case trailer =>
    intro trailer
    rcases trailerPatches_bounds r trailer with ⟨htrailer, hapart⟩
    rcases exists_patched (h.trailerPatches trailer) hb (fun p hp => (htrailer p hp).2.1) hapart
      with ⟨b', happly, hdiffers, hheld⟩
    have hruns : (h.trailerPatches trailer).map Patch.run = h.trailerRuns trailer := by
      rcases ht : h.timestamp with _ | t <;> rcases hecho : trailer.timestampEcho with _ | echo <;>
        simp only [trailerPatches, trailerRuns, ht, hecho] <;> rfl
    exact ⟨b', happly, hruns ▸ hdiffers, r.keeps_of_trailer hb trailer hdiffers hheld⟩
  case tcpChecksum =>
    intro checksum
    exact r.exists_word_patched hb h.checksumOffset checksum
      (by simp only [checksumOffset, tcpChecksumOffset]; omega)
      (fun j hlow _ => Or.inr (Or.inr (by
        simp only [checksumOffset, tcpChecksumOffset] at hlow
        omega)))
  case addresses => exact addresses_eq r b hb

end Headers

/-- Reading the headers of a frame stays in the frame: with a guard on every step it
    gives the same, and no frame is refused but as malformed. Headers that were read lie
    in the frame where they say, and in every buffer that holds them all writers find
    their fields and change nothing but them. -/
theorem reads_and_writes_bounded (frame : Frame) :
    Headers.decodeGuarded frame = Headers.decode frame ∧ OnlyMalformed (Headers.decode frame) ∧
      ∀ h, Headers.decode frame = .ok h → h.Places frame ∧
        ∀ b : Octets, h.length ≤ b.length → h.WritesWithin b := by
  refine ⟨Headers.decodeGuarded_eq frame, Headers.decode_onlyMalformed frame, ?_⟩
  intro h hdecode
  have reads := Headers.readsFrom_of_decode frame h hdecode
  exact ⟨reads.places, fun b hb => reads.writesWithin hb⟩

end ReceiveOffload
