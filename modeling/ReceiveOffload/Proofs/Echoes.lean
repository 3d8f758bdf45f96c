import ReceiveOffload.Proofs.Emitted
import ReceiveOffload.Proofs.FieldWrites

/-!
# Echo Replies

Segments are compared by their masked options, and the echo reply behind the mask is the
one thing that two segments of an aggregate may have different. That is a statement about
what the mask hides: options that look alike behind it have their timestamp in one place,
or have none at all, and no octet but those of the echo reply is another one.

The walk through the options is what could go wrong, because it is made before the mask
is laid and never again. Had the zeros of the mask made room for another reading, options
of different layouts could be taken for each other, with malformed ones and repeated ones
among them. `timestampFrom_of_prefix` excludes that, and what remains is to carry it over
to the headers, which count the place of a timestamp from the start of the frame.

It follows that a segment is brought to the options of the other by its trailer alone:
the trailer has the echo reply, and the mask has shown that there is nothing else.

## Main definitions

* `Headers.StampedAt`: A timestamp stands in one place of the options.
* `Headers.SameButEcho`: The options of two segments are the same but for an echo reply.

## Theorems

* `Headers.ReadsFrom.options_eq_iff`: Masked options are the same exactly if the options
  are the same but for an echo reply.
* `Headers.ReadsFrom.exists_echoed`: The trailer of a segment brings its options along.
* `masked_options_tell`: Both, of all frames that can be read.
-/

namespace ReceiveOffload

open Octets

/-- Options that are the same but for the echo reply are the same behind the mask. -/
theorem TcpOptions.masked_eq_of_differsIn (a b : Octets) (found found' : TimestampOption)
    (ha : TcpOptions.timestamp? a = some found) (hb : TcpOptions.timestamp? b = some found')
    (hposition : found'.position = found.position)
    (hdiffers : a.DiffersIn b [(found.position + 4, 4)]) :
    TcpOptions.masked a = TcpOptions.masked b := by
  ext j : 1
  rw [getElem?_overwrite a _ _ _ j (TcpOptions.overwrite_masked a found ha),
    getElem?_overwrite b _ _ _ j (TcpOptions.overwrite_masked b found' hb), hposition]
  by_cases hin : found.position + 4 ≤ j ∧ j < found.position + 4 + 4
  · simp only [List.length_cons, List.length_nil, Nat.zero_add, hin, and_self, if_true]
  · rw [if_neg (by simpa only [List.length_cons, List.length_nil] using hin),
      if_neg (by simpa only [List.length_cons, List.length_nil] using hin)]
    exact (hdiffers.same j (by simpa only [List.forall_mem_singleton] using hin)).symm

namespace Headers

/-- A timestamp was read with its value in the given place of the options, and its echo
    reply behind it. -/
structure StampedAt (h : Headers) (b : Octets) (position : Nat) (t : Timestamp) : Prop where
  read : h.timestamp = some t
  offset : t.offset.toNat = h.transport.toNat + tcpLength + position
  value : (h.rawOptions b).word32? position = some t.value
  echo : (h.rawOptions b).word32? (position + 4) = some t.echo

/-- The options of two segments are the same but for an echo reply: neither has a
    timestamp and nothing differs, or both have one, in the same place and with the same
    value, and nothing but the octets of its echo reply differs. -/
inductive SameButEcho (h h' : Headers) (b b' : Octets) : Prop where
  | plain (none_left : h.timestamp = none) (none_right : h'.timestamp = none)
      (same : h.rawOptions b = h'.rawOptions b')
  | stamped (position : Nat) (t t' : Timestamp) (left : h.StampedAt b position t)
      (right : h'.StampedAt b' position t') (value : t.value = t'.value)
      (differs : (h.rawOptions b).DiffersIn (h'.rawOptions b') [(position + 4, 4)])

variable {h h' : Headers} {frame frame' : Frame}

/-- A timestamp that is found among the options stands there. -/
theorem ReadsFrom.stampedAt (r : h.ReadsFrom frame) (found : TimestampOption)
    (hfound : TcpOptions.timestamp? (h.rawOptions frame.octets) = some found) :
    ∃ t, h.StampedAt frame.octets found.position t ∧ t.value = found.value := by
  rcases TcpOptions.timestamp?_bounds _ _ hfound with ⟨_, _, hvalue, hecho⟩
  rcases r.timestamp_eq found hfound with ⟨t, hread, htecho, hoffset, _, _⟩
  have htvalue : t.value = found.value := by
    have htimestamp := r.timestamp
    rw [hread, hfound, Option.map_some, Option.some.injEq] at htimestamp
    rw [htimestamp]
  exact ⟨t, ⟨hread, hoffset, htvalue ▸ hvalue, htecho ▸ hecho⟩, htvalue⟩

/-- Where a timestamp stands, one is found. -/
theorem StampedAt.found {t : Timestamp} {position : Nat} (r : h.ReadsFrom frame)
    (s : h.StampedAt frame.octets position t) :
    TcpOptions.timestamp? (h.rawOptions frame.octets) = some ⟨position, t.value, t.echo⟩ := by
  rcases hfound : TcpOptions.timestamp? (h.rawOptions frame.octets) with _ | found
  · have hread := s.read
    rw [r.timestamp, hfound] at hread
    cases hread
  · rcases r.stampedAt found hfound with ⟨t', s', _⟩
    obtain rfl : t' = t := Option.some.inj (s'.read.symm.trans s.read)
    -- Both places are counted from the same point, so they are the same.
    have hposition : found.position = position := by
      have hleft := s'.offset
      have hright := s.offset
      omega
    have hvalue := s'.value
    have hecho := s'.echo
    rcases TcpOptions.timestamp?_bounds _ _ hfound with ⟨_, _, hfoundValue, hfoundEcho⟩
    rw [hvalue, Option.some.injEq] at hfoundValue
    rw [hecho, Option.some.injEq] at hfoundEcho
    rw [hfoundValue, hfoundEcho, ← hposition]

/-- Masked options are the same exactly if the options are the same but for an echo
    reply. -/
theorem ReadsFrom.options_eq_iff (r : h.ReadsFrom frame) (r' : h'.ReadsFrom frame') :
    h.options = h'.options ↔ h.SameButEcho h' frame.octets frame'.octets := by
  rw [r.options, r'.options]
  constructor
  · intro hmask
    rcases hfound : TcpOptions.timestamp? (h'.rawOptions frame'.octets) with _ | found
    · have hsame := TcpOptions.eq_of_masked_eq _ _ hmask.symm hfound
      refine .plain ?_ ?_ hsame.symm
      · rw [r.timestamp, ← hsame, hfound, Option.map_none]
      · rw [r'.timestamp, hfound, Option.map_none]
    · -- The other walk goes as far and finds the same value there.
      rcases TcpOptions.timestamp?_of_masked_eq _ _ found hmask hfound with ⟨echo, hown⟩
      rcases r.stampedAt _ hown with ⟨t, hleft, hvalue⟩
      rcases r'.stampedAt found hfound with ⟨t', hright, hvalue'⟩
      refine .stamped found.position t t' hleft hright (hvalue.trans hvalue'.symm) ⟨?_, ?_⟩
      · rw [← TcpOptions.length_masked, ← hmask, TcpOptions.length_masked]
      · intro j hj
        simp only [List.forall_mem_singleton] at hj
        exact (TcpOptions.agree_of_masked_eq _ _ found hmask hfound j (by omega)).symm
  · intro hsame
    cases hsame with
    | plain _ _ same => rw [same]
    | stamped position t t' left right value differs =>
        exact TcpOptions.masked_eq_of_differsIn _ _ _ _ (left.found r) (right.found r') rfl differs

/-- The trailer of a segment brings its options along, where they differ in the echo reply
    only. -/
theorem ReadsFrom.exists_echoed (r : h.ReadsFrom frame) (r' : h'.ReadsFrom frame')
    (hoptions : h.options = h'.options) :
    ∃ b', h.setTrailer frame.octets h'.trailer = ⟨b', true⟩ ∧
      h.rawOptions b' = h'.rawOptions frame'.octets := by
  rcases trailerPatches_bounds r h'.trailer with ⟨hpatches, hapart⟩
  rcases exists_patched (h.trailerPatches h'.trailer) r.length_le_frame
    (fun p hp => (hpatches p hp).2.1) hapart with ⟨b', happly, hdiffers, hheld⟩
  refine ⟨b', happly, ?_⟩
  refine rawOptions_patched r h'.trailer b' _ hdiffers.length
    (fun j _ hfree => hdiffers.of_uncovered j hfree) hheld ?_ r'.stamped
  rw [← r'.options, ← r.options, hoptions]

end Headers

/-- Masked options tell all of the options but the echo reply. Two frames that can be read
    have the same masked options exactly if neither has a timestamp and their options are
    the same, or both have one in the same place with the same value and their options are
    the same outside of its echo reply. Writing the trailer of the one to the other then
    gives it the options of the one. -/
theorem masked_options_tell (frame frame' : Frame) (h h' : Headers)
    (hdecode : Headers.decode frame = .ok h) (hdecode' : Headers.decode frame' = .ok h') :
    (h.options = h'.options ↔ h.SameButEcho h' frame.octets frame'.octets) ∧
      (h.options = h'.options → ∃ b', h.setTrailer frame.octets h'.trailer = ⟨b', true⟩ ∧
        h.rawOptions b' = h'.rawOptions frame'.octets) := by
  have r := Headers.readsFrom_of_decode frame h hdecode
  have r' := Headers.readsFrom_of_decode frame' h' hdecode'
  exact ⟨r.options_eq_iff r', fun hoptions => r.exists_echoed r' hoptions⟩

/-- A frame with the given TCP options and one octet of payload. -/
def timestampedFrame (options : Octets) : Frame where
  octets := [0x45, 0, 0, UInt8.ofNat (41 + options.length), 0, 1, 0x40, 0, 64, 6, 0, 0,
    10, 0, 0, 1, 10, 0, 0, 2, 0x1F, 0x90, 0x23, 0x28, 0, 0, 0, 1, 0, 0, 0, 1,
    UInt8.ofNat (16 * (5 + options.length / 4)), 0x10, 0x10, 0, 0, 0, 0, 0] ++ options ++ [1]

/-- A timestamp behind an option that contains the octets of one, and in front of another
    timestamp and of an option that is cut off. -/
def repeatedOptions (echo : UInt8) : Octets :=
  [5, 10, 8, 10, 0, 0, 0, 9, 0, 0, 1, 8, 10, 0, 0, 0, 7, 0, 0, 0, echo,
    8, 10, 0, 0, 0, 3, 0, 0, 0, 5, 4, 9, 0, 0, 0]

/-- What is read of such a frame: the first timestamp that stands for itself. -/
def repeatedHeaders (echo : UInt8) : Headers where
  version := .v4
  network := 0
  transport := 20
  transportLength := 56
  datagramEnd := 77
  traits := ⟨0, 64, 2⟩
  seq := 1
  ack := 1
  flags := TcpFlag.ack
  window := 4096
  urgent := 0
  timestamp := some ⟨7, echo.toUInt32, 53⟩
  options := repeatedOptions 0
  fragment := false
  padded := false

theorem masked_options_tell_repeated :
    Headers.decode (timestampedFrame (repeatedOptions 1)) = .ok (repeatedHeaders 1) ∧
      Headers.decode (timestampedFrame (repeatedOptions 2)) = .ok (repeatedHeaders 2) ∧
      (repeatedHeaders 1).SameButEcho (repeatedHeaders 2)
        (timestampedFrame (repeatedOptions 1)).octets
        (timestampedFrame (repeatedOptions 2)).octets ∧
      ∃ b', (repeatedHeaders 1).setTrailer (timestampedFrame (repeatedOptions 1)).octets
          (repeatedHeaders 2).trailer = ⟨b', true⟩ ∧
        (repeatedHeaders 1).rawOptions b'
          = (repeatedHeaders 2).rawOptions (timestampedFrame (repeatedOptions 2)).octets := by
  have hdecode : Headers.decode (timestampedFrame (repeatedOptions 1))
      = .ok (repeatedHeaders 1) := by decide +kernel
  have hdecode' : Headers.decode (timestampedFrame (repeatedOptions 2))
      = .ok (repeatedHeaders 2) := by decide +kernel
  have htell := masked_options_tell _ _ _ _ hdecode hdecode'
  exact ⟨hdecode, hdecode', htell.1.mp rfl, htell.2 rfl⟩

end ReceiveOffload
