import ReceiveOffload.Proofs.Dossiers
import ReceiveOffload.Proofs.Patches

/-!
# The Checksum of an IP Header

Sealing never looks at whether the checksum of an IP header is right. It patches
the one that arrived for what the length has changed by, so a header that was
damaged on its way stays as damaged as it was, and whoever checks it downstream
finds out. Had the checksum been computed anew, the damage would have been signed
off.

That is a statement about residues. The sum over the header changes by what the
length field changes by, the patched checksum makes up for it, and everything else
of the header is the first segment's. The residue stays, and with it whether the
header verifies. A header is never all zero, since it says which version it is of,
so of the two zeros only one can come up.

Where the checksum that arrived was the one that would be computed, so is the
patched one. This is more than the residue says, since two words stand for zero,
and it is where the patch has to get the right one of them.

## Main definitions

* `Headers.ipOctets`: The IP header in the octets of a frame.
* `Headers.ipv4Computed?`: The checksum of an IP header, computed from scratch.
* `Headers.CarriesOn`: The checksum of one IP header carries over to another.

## Theorems

* `Headers.coverFrame_carriesOn`: Covering a frame carries its checksum over.
* `Headers.sealOctets_front`: Nothing else of sealing writes to the IP header.
* `Closing.carriesOn`: An aggregate carries on its first segment's checksum.
* `checksum_carried`: In every run.
-/

namespace ReceiveOffload

open Octets

namespace IpHeader

/-- The checksum of a header of version 4, computed from scratch: that of the header
    with the field cleared. -/
def computed? (ip : Octets) : Option UInt16 := do
  let cleared ← ip.overwrite? 10 (ofWord16 0)
  return ~~~ OnesComplement.sum cleared 0

/-- The checksum of one header of version 4 carries over to another: both sum to the
    same residue, so that one verifies if the other does, and if the first has the
    checksum that is computed from scratch, so has the second. -/
structure CarriesOn (ip ip' : Octets) : Prop where
  length : ip'.length = ip.length
  residue : wordSum ip' % 65535 = wordSum ip % 65535
  verifies : OnesComplement.sum ip' 0 = 0xFFFF ↔ OnesComplement.sum ip 0 = 0xFFFF
  computed : ∀ checksum, ip.word16? 10 = some checksum → computed? ip = some checksum →
    ∃ checksum', ip'.word16? 10 = some checksum' ∧ computed? ip' = some checksum'

/-- The checksum of a header carries over when its length changes and it is patched
    for that. The header begins with the number of its version and so is never all
    zero. -/
theorem carriesOn_of_patched (ip lengthened ip' : Octets) (first : UInt8)
    (old new stored : UInt16) (hfirst : ip[0]? = some first) (hpos : 0 < first.toNat)
    (hold : ip.word16? 2 = some old) (hstored : ip.word16? 10 = some stored)
    (hlengthened : ip.overwrite? 2 (ofWord16 new) = some lengthened)
    (hpatched : lengthened.overwrite? 10
      (ofWord16 (OnesComplement.update16 stored old new)) = some ip') : CarriesOn ip ip' := by
  rcases OnesComplement.keepsUp_update16 ip 10 2 0 stored old new (by omega) (by omega)
    (Or.inl (by omega)) hstored hold with ⟨changed, hchanged, hkeepsUp⟩
  obtain rfl : lengthened = changed := Option.some.inj (hlengthened.symm.trans hchanged)
  rcases hkeepsUp.residue with ⟨patched, hpatched', hsums⟩
  obtain rfl : ip' = patched := Option.some.inj (hpatched.symm.trans hpatched')
  have hresidue : wordSum ip' % 65535 = wordSum ip % 65535 := by
    rw [OnesComplement.sum_eq, OnesComplement.sum_eq, (OnesComplement.fold_residue _).1,
      (OnesComplement.fold_residue _).1, Nat.zero_add, Nat.zero_add] at hsums
    exact hsums
  -- The two fields do not meet, and neither is in front.
  have hfront : ∀ written w, lengthened.overwrite? 10 (ofWord16 w) = some written →
      written[0]? = some first := by
    intro written w hwritten
    rw [getElem?_overwrite _ _ _ _ _ hwritten, if_neg (by omega),
      getElem?_overwrite _ _ _ _ _ hlengthened, if_neg (by omega), hfirst]
  have hip := wordSum_pos ip first hfirst hpos
  have hip' := wordSum_pos ip' first (hfront ip' _ hpatched) hpos
  constructor
  case length =>
    rw [length_overwrite _ _ _ _ hpatched, length_overwrite _ _ _ _ hlengthened]
  case residue => exact hresidue
  case verifies =>
    rw [OnesComplement.sum_eq, OnesComplement.sum_eq, Nat.zero_add, Nat.zero_add,
      OnesComplement.fold_eq_ones_iff, OnesComplement.fold_eq_ones_iff, hresidue]
    exact ⟨fun h => ⟨hip, h.2⟩, fun h => ⟨hip', h.2⟩⟩
  case computed =>
    intro checksum hchecksum hcomputed
    obtain rfl : stored = checksum := Option.some.inj (hstored.symm.trans hchecksum)
    refine ⟨_, word16?_of_overwrite _ _ _ _ hpatched, ?_⟩
    -- Clearing the checksum is the same before it is patched and after.
    have hsame : computed? ip' = OnesComplement.computed? lengthened 10 0 := by
      rw [computed?, OnesComplement.computed?,
        overwrite_overwrite _ _ _ (ofWord16 0) _ hpatched rfl]
    rw [hsame, hkeepsUp.anew hcomputed]
    rintro ⟨_, cleared, hcleared, hzeros⟩
    have hzero := hzeros first (List.mem_of_getElem? (hfront cleared 0 hcleared))
    rw [hzero] at hpos
    exact absurd hpos (by decide)

end IpHeader

namespace Headers

variable {h : Headers} {frame : Frame}

/-- The IP header in the octets of a frame. -/
def ipOctets (h : Headers) (b : Octets) : Octets :=
  (b.take h.transport.toNat).drop h.network.toNat

theorem ReadsFrom.first_octet (r : h.ReadsFrom frame) :
    ∃ first, frame.octets[h.network.toNat]? = some first ∧ 0 < first.toNat := by
  rcases (IpHeader.decode_eq_ok_iff _ _).mp r.ip with ⟨first, hhead, hversion⟩
  rw [List.head?_eq_getElem?, List.getElem?_drop, Nat.add_zero] at hhead
  exact ⟨first, hhead, by omega⟩

/-- Covering a frame of version 4 carries its checksum over, whatever length it had
    and whatever checksum. -/
theorem coverFrame_carriesOn (r : h.ReadsFrom frame) (hv : h.version = .v4) (covered : Octets)
    (hcover : h.coverFrame frame.octets = .ok covered) :
    IpHeader.CarriesOn (h.ipOctets frame.octets) (h.ipOctets covered) := by
  have hbounds := r.bounds
  rcases coverFrame_v4 r hv with
    ⟨old, stored, lengthened, written, hold, hstored, hlengthened, hwritten, heq⟩
  rw [heq, Except.ok.injEq] at hcover
  subst hcover
  rcases r.first_octet with ⟨first, hfirst, hpos⟩
  -- The fields of the frame are fields of its header, two octets and ten into it.
  refine IpHeader.carriesOn_of_patched _ _ _ first old _ stored ?_ hpos ?_ ?_
    (overwrite_take_drop _ _ _ h.transport.toNat _ _ hlengthened ?_)
    (overwrite_take_drop _ _ _ h.transport.toNat _ _ hwritten ?_)
  · rw [ipOctets, getElem?_take_drop _ _ _ _ (by omega), Nat.add_zero, hfirst]
  · rw [ipOctets, word16?_take_drop _ _ _ _ (by omega), hold]
  · rw [ipOctets, word16?_take_drop _ _ _ _ (by omega)]
    exact hstored
  · rw [length_ofWord16]
    omega
  · rw [length_ofWord16]
    omega

/-- Once the frame is covered, sealing writes to nothing in front of the TCP
    header. -/
theorem sealOctets_front (r : h.ReadsFrom frame) (p : Pending) (b : Octets)
    (hseal : Aggregate.sealOctets h frame.octets p = .ok b) :
    ∃ covered, h.coverFrame frame.octets = .ok covered ∧
      ∀ j, j < h.transport.toNat → b[j]? = covered[j]? := by
  have hfits := r.fits
  have hinside := r.inside
  rcases coverFrame_eq r with ⟨_, covered, hcover, hpatches⟩
  have hlength : covered.length = frame.octets.length := by
    rw [← length_applyPatches frame.octets, hpatches]
  rcases trailerPatches_bounds r p.trailer with ⟨hbounds, hapart⟩
  rcases applyPatches_complete covered (h.trailerPatches p.trailer)
    (fun q hq => by have hin := (hbounds q hq).2.1; omega) hapart with
    ⟨trailed, htrail, htrailLength, hout, _⟩
  rcases stampChecksum_eq r trailed p.extras.fullChecksum (htrailLength.trans hlength) with
    ⟨checksum, stamped, hstamped, hwritten⟩
  have hresult : Aggregate.sealOctets h frame.octets p = .ok stamped := by
    simp only [Aggregate.sealOctets, hcover, setTrailer, htrail, Written.result, hstamped, bind,
      Except.bind, if_true]
  rw [hresult, Except.ok.injEq] at hseal
  subst hseal
  refine ⟨covered, hcover, fun j hj => ?_⟩
  rw [getElem?_overwrite _ _ _ _ j (overwrite_of_applyPatches hwritten), if_neg
    (by simp only [checksumOffset]; omega), hout j (fun q hq hcovers => ?_)]
  have hlow := (hbounds q hq).1
  have hstart := hcovers.1
  omega

/-- Octets that agree in front of the TCP header have the same IP header. -/
theorem ipOctets_congr (h : Headers) (b b' : Octets)
    (hsame : ∀ j, j < h.transport.toNat → b'[j]? = b[j]?) : h.ipOctets b' = h.ipOctets b := by
  ext j : 1
  simp only [ipOctets, List.getElem?_drop, List.getElem?_take]
  split
  case isTrue hj => exact hsame _ hj
  case isFalse => rfl

end Headers

/-- The IP header of an aggregate of several segments carries on the checksum of the
    first one, as that arrived. -/
theorem Closing.carriesOn {aggregate : Aggregate} {members : List Segment}
    (closing : Closing aggregate members) (hseveral : 2 ≤ aggregate.segments)
    (hversion : aggregate.version = .v4) :
    ∃ first h, members.head? = some first ∧ first.Genuine ∧
      Headers.decode aggregate.frame = .ok h ∧ h.version = .v4 ∧
      IpHeader.CarriesOn (first.headers.ipOctets first.frame.octets)
        (h.ipOctets aggregate.frame.octets) := by
  rcases closing.sealed hseveral with ⟨first, rest, p, stored, b, rfl, m, _, hseal, sealing, rfl⟩
  have hgenuine := (m.alike first List.mem_cons_self).genuine
  have hfits := hgenuine.reads.fits
  have hinside := hgenuine.reads.inside
  have hv : (first.headersIn stored.octets).version = .v4 := hversion
  rcases Headers.sealOctets_front m.reads p b hseal with ⟨covered, hcover, hfront⟩
  refine ⟨first, _, rfl, hgenuine, (m.standsFor b sealing).decodes, hv, ?_⟩
  -- The headers lie where they did, so what is left is which octets are in them.
  show IpHeader.CarriesOn ((first.headersIn stored.octets).ipOctets first.frame.octets)
    ((first.headersIn stored.octets).ipOctets b)
  rw [Headers.ipOctets_congr _ covered b hfront,
    ← Headers.ipOctets_congr _ first.frame.octets stored.octets ?stored]
  case stored =>
    intro j hj
    rw [m.stored_eq, Frame.append, List.getElem?_append_left]
    simp only [Headers.length] at hfits
    exact Nat.lt_of_lt_of_le hj (by simp only [Segment.headersIn]; omega)
  exact Headers.coverFrame_carriesOn m.reads hv covered hcover

/-- In every run, an aggregate of several segments of version 4 leaves with the
    checksum of its first segment, wrong or right. -/
theorem checksum_carried (setup : Setup) (trials : List Trial) (flow : UInt64)
    (aggregate : Aggregate) (hstores : (Dossier.run setup trials).world.stores < 2 ^ 64)
    (hout : (flow, aggregate) ∈ (Dossier.run setup trials).world.aggregates)
    (hseveral : 2 ≤ aggregate.segments) (hversion : aggregate.version = .v4) :
    ∃ c ∈ (Dossier.run setup trials).closures, c.flow = flow ∧ c.aggregate = aggregate ∧
      ∃ first h, (c.offers.map Offer.segment).head? = some first ∧ first.Genuine ∧
        Headers.decode aggregate.frame = .ok h ∧ h.version = .v4 ∧
        IpHeader.CarriesOn (first.headers.ipOctets first.frame.octets)
          (h.ipOctets aggregate.frame.octets) := by
  rw [← Dossier.aggregates_run setup trials] at hout
  rcases List.mem_map.mp hout with ⟨c, hc, hentry⟩
  rw [Prod.mk.injEq] at hentry
  rcases hentry with ⟨rfl, rfl⟩
  have hclosing := ((Dossier.closures_run setup trials hstores).2 c hc).1
  exact ⟨c, hc, rfl, rfl, hclosing.carriesOn hseveral hversion⟩

/-- A frame with a small segment behind a version 4 header with options. Its checksum
    is right for three octets of payload. -/
def optionsFrame (seq : UInt8) (payload : Octets) : Frame where
  octets := [0x46, 0, 0, UInt8.ofNat (44 + payload.length), 0, 1, 0x40, 0, 64, 6, 0x23, 0xC4,
    10, 0, 0, 1, 10, 0, 0, 2, 1, 1, 1, 1, 0x1F, 0x90, 0x23, 0x28, 0, 0, 0, seq, 0, 0, 0, 1,
    0x50, 0x10, 0x10, 0, 0, 0, 0, 0] ++ payload

/-- Two segments, of which only the first arrives with a right checksum. -/
def optionsFlushed : List Trial := [
  .step (.offer 7 (optionsFrame 1 [1, 2, 3]) plainPolicy {}),
  .step (.offer 7 (optionsFrame 4 [4, 5]) plainPolicy {}),
  .step (.flush 7)
]

/-- What comes of that. -/
def optionsAggregate : Aggregate where
  frame := { octets := [0x46, 0, 0, 49, 0, 1, 0x40, 0, 64, 6, 0x23, 0xC2,
    10, 0, 0, 1, 10, 0, 0, 2, 1, 1, 1, 1, 0x1F, 0x90, 0x23, 0x28, 0, 0, 0, 1, 0, 0, 0, 1,
    0x50, 0x10, 0x10, 0, 0x14, 0x22, 0, 0, 1, 2, 3, 4, 5] }
  segments := 2
  segmentSize := 3
  headersLength := 44
  transport := 24
  version := .v4
  checksumComplete := false

theorem checksum_carried_options :
    (Dossier.run {} optionsFlushed).world.stores < 2 ^ 64 ∧
      (7, optionsAggregate) ∈ (Dossier.run {} optionsFlushed).world.aggregates ∧
      2 ≤ optionsAggregate.segments ∧ optionsAggregate.version = .v4 ∧
      ∃ c ∈ (Dossier.run {} optionsFlushed).closures, c.flow = 7 ∧ c.aggregate = optionsAggregate ∧
        ∃ first h, (c.offers.map Offer.segment).head? = some first ∧ first.Genuine ∧
          Headers.decode optionsAggregate.frame = .ok h ∧ h.version = .v4 ∧
          IpHeader.CarriesOn (first.headers.ipOctets first.frame.octets)
            (h.ipOctets optionsAggregate.frame.octets) := by
  have hstores : (Dossier.run {} optionsFlushed).world.stores < 2 ^ 64 := by decide +kernel
  have hout : (7, optionsAggregate) ∈ (Dossier.run {} optionsFlushed).world.aggregates := by
    decide +kernel
  exact ⟨hstores, hout, by decide, rfl,
    checksum_carried {} optionsFlushed 7 optionsAggregate hstores hout (by decide) rfl⟩

/-- The header verifies as it did, and its checksum is the one that is computed. -/
example : OnesComplement.sum (optionsAggregate.frame.octets.take 24) 0 = 0xFFFF ∧
    IpHeader.computed? (optionsAggregate.frame.octets.take 24) = some 0x23C2 := by
  decide +kernel

end ReceiveOffload
