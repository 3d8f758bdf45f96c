import Mathlib.Algebra.GroupWithZero.Nat
import ReceiveOffload.Proofs.Octets
import ReceiveOffload.Telemetry.Metadata

/-!
# Reading Metadata Back

What a memory holds after a run of octets was written. Addresses go around, so
an area is not an interval of numbers and its addresses are told by how far they
lie behind its start. Seen from there every entry is a run at an offset of its
own, and whether a write changed an entry is a question about these offsets.

Two areas are apart when no address lies in both. Then what is written in the
one cannot be seen in the other, whatever it is, and that is all that is ever
asked of the area of another flow.

## Main definitions

* `Metadata.Pointwise`: What becomes of an octet depends on that octet alone.
* `Metadata.offsetIn`: How far an address lies behind the start of an area.
* `Metadata.AgreeOn`: Two memories hold the same area.
* `Metadata.Apart`: Two areas have no address in common.

## Theorems

* `Metadata.octet_write_offset`: What a memory holds after a run was written.
* `Metadata.countAt_writeCount`, `Metadata.sizeAt_writeSize`: An entry that was
  written is read back.
* `Metadata.sizeAt_writeCount`, `Metadata.countAt_writeSize`: The entries of an
  area do not get into each other's way.
* `Metadata.agreeOn_write`: What is written in one area is not seen in another.
-/

namespace ReceiveOffload

namespace Metadata

/-- One octet is written to one address. -/
theorem octet_insert (m : Metadata) (a x : UInt64) (octet : UInt8) :
    (⟨m.octets.insert a octet⟩ : Metadata).octet x = if a = x then octet else m.octet x := by
  simp only [Metadata.octet, AddressMap.getD, AddressMap.get?_insert]
  split <;> rfl

/-- A run that does not go all the way around is found where it was written. -/
theorem octet_write (m : Metadata) (a x : UInt64) (b : Octets) (hfits : b.length ≤ 2 ^ 64) :
    (m.write a b).octet x = (b[(x - a).toNat]?).getD (m.octet x) := by
  -- By induction on what is written. A run of at most 2^64 octets does not reach its own start
  -- again, so the first octet is still there when the rest was written.
  induction b generalizing m a with
  | nil => rfl
  | cons octet rest ih =>
      rw [List.length_cons] at hfits
      rw [write, ih _ _ (by omega), octet_insert]
      have ha := a.toNat_lt
      have hx := x.toNat_lt
      by_cases hsame : a = x
      · -- The rest starts behind the address and does not come around to it.
        have haround : (x - (a + 1)).toNat = 2 ^ 64 - 1 := by
          rw [hsame, UInt64.toNat_sub, UInt64.toNat_add]
          simp only [UInt64.reduceToNat]
          omega
        rw [if_pos hsame, haround, List.getElem?_eq_none (by omega), hsame, UInt64.sub_self]
        rfl
      · have hne : a.toNat ≠ x.toNat := fun h => hsame (UInt64.toNat_inj.mp h)
        have hnext : (x - a).toNat = (x - (a + 1)).toNat + 1 := by
          rw [UInt64.toNat_sub, UInt64.toNat_sub, UInt64.toNat_add]
          simp only [UInt64.reduceToNat]
          omega
        rw [if_neg hsame, hnext, List.getElem?_cons_succ]

/-- What becomes of an octet depends on what was there, and not on what was elsewhere. -/
def Pointwise (f : Metadata → Metadata) : Prop :=
  ∀ a m m', m.octet a = m'.octet a → (f m).octet a = (f m').octet a

theorem Pointwise.id : Pointwise id :=
  fun _ _ _ h => h

/-- Writing twice is as pointwise as writing once. -/
theorem Pointwise.comp {f g : Metadata → Metadata} (hf : Pointwise f) (hg : Pointwise g) :
    Pointwise fun m => f (g m) :=
  fun a m m' h => hf a _ _ (hg a m m' h)

theorem pointwise_write (address : UInt64) (b : Octets) (hfits : b.length ≤ 2 ^ 64) :
    Pointwise fun m => m.write address b := by
  intro a m m' h
  rw [octet_write m _ _ b hfits, octet_write m' _ _ b hfits, h]

/-- How far an address lies behind the start of an area. -/
def offsetIn (base address : UInt64) : Nat :=
  (address - base).toNat

/-- An area of one octet has one address. -/
theorem offsetIn_lt_one_iff (base address : UInt64) :
    offsetIn base address < 1 ↔ address = base := by
  rw [offsetIn, Nat.lt_one_iff, ← UInt64.toNat_zero, UInt64.toNat_inj, UInt64.sub_eq_iff_eq_add,
    UInt64.zero_add]

/-- Offsets are counted from the base, around the end if need be. -/
theorem offsetIn_add (base : UInt64) (k : Nat) (hk : k < 2 ^ 64) :
    offsetIn base (base + UInt64.ofNat k) = k := by
  rw [offsetIn, UInt64.add_comm, UInt64.add_sub_cancel, UInt64.toNat_ofNat_of_lt' hk]

/-- What a memory holds after a run was written into an area. -/
theorem octet_write_offset (m : Metadata) (base x : UInt64) (k : Nat) (b : Octets)
    (hfits : k + b.length ≤ 2 ^ 64) :
    (m.write (base + UInt64.ofNat k) b).octet x
      = if k ≤ offsetIn base x then (b[offsetIn base x - k]?).getD (m.octet x)
        else m.octet x := by
  rcases Nat.eq_zero_or_pos b.length with hnil | hpos
  · rw [List.length_eq_zero_iff.mp hnil]
    simp only [write, List.getElem?_nil, Option.getD_none, ite_self]
  have hlt : k < 2 ^ 64 := by omega
  have hk : (UInt64.ofNat k).toNat = k := UInt64.toNat_ofNat_of_lt' hlt
  have hoffset : offsetIn base x < 2 ^ 64 := (x - base).toNat_lt
  have hbehind : (x - (base + UInt64.ofNat k)).toNat
      = (2 ^ 64 - k + offsetIn base x) % 2 ^ 64 := by
    have hx := x.toNat_lt
    have hbase := base.toNat_lt
    rw [offsetIn, UInt64.toNat_sub, UInt64.toNat_sub, UInt64.toNat_add, hk]
    omega
  rw [octet_write _ _ _ _ (by omega), hbehind]
  by_cases hle : k ≤ offsetIn base x
  · rw [if_pos hle, show (2 ^ 64 - k + offsetIn base x) % 2 ^ 64 = offsetIn base x - k by omega]
  · -- In front of the run, an address lies too far behind its start.
    rw [if_neg hle, List.getElem?_eq_none (by omega), Option.getD_none]

/-- The octet of an area at an offset, after a run was written into the area. -/
theorem octet_write_add (m : Metadata) (base : UInt64) (k j : Nat) (b : Octets)
    (hfits : k + b.length ≤ 2 ^ 64) (hj : j < 2 ^ 64) :
    (m.write (base + UInt64.ofNat k) b).octet (base + UInt64.ofNat j)
      = if k ≤ j then (b[j - k]?).getD (m.octet (base + UInt64.ofNat j))
        else m.octet (base + UInt64.ofNat j) := by
  rw [octet_write_offset m base _ k b hfits, offsetIn_add base j hj]

/-- The size of a segment is two octets behind the count. -/
theorem sizeAt_eq (m : Metadata) (base : UInt64) (i : Nat) :
    m.sizeAt base i = word16 (m.octet (base + UInt64.ofNat (sizesOffset + 2 * i)))
      (m.octet (base + UInt64.ofNat (sizesOffset + 2 * i + 1))) := by
  have hread : m.read (sizeAddress base i) 2
      = [m.octet (sizeAddress base i + UInt64.ofNat 0),
        m.octet (sizeAddress base i + UInt64.ofNat 1)] := rfl
  rw [sizeAt, hread, sizeAddress, UInt64.add_assoc, ← UInt64.ofNat_add, UInt64.add_assoc,
    ← UInt64.ofNat_add, Nat.add_zero]
  rfl

/-- The count is the first four octets. -/
theorem countAt_eq (m : Metadata) (base : UInt64) :
    m.countAt base = word32
      (word16 (m.octet (base + UInt64.ofNat 0)) (m.octet (base + UInt64.ofNat 1)))
      (word16 (m.octet (base + UInt64.ofNat 2)) (m.octet (base + UInt64.ofNat 3))) := by
  have hstart : countAddress base = base := UInt64.add_zero base
  rw [countAt, hstart]
  rfl

/-- A segment size is written in two octets. -/
theorem sizeAt_writeSize (m : Metadata) (base : UInt64) (i j : Nat) (size : UInt16)
    (hi : sizesOffset + 2 * i + 2 ≤ 2 ^ 64) (hj : sizesOffset + 2 * j + 2 ≤ 2 ^ 64) :
    (m.write (sizeAddress base j) (Octets.ofWord16 size)).sizeAt base i
      = if i = j then size else m.sizeAt base i := by
  rw [sizeAt_eq, sizeAt_eq, sizeAddress,
    octet_write_add m base _ _ (Octets.ofWord16 size) hj (by omega),
    octet_write_add m base _ _ (Octets.ofWord16 size) hj (by omega)]
  by_cases hij : i = j
  · subst hij
    rw [if_pos (Nat.le_refl _), if_pos (Nat.le_succ _), if_pos rfl, Nat.sub_self,
      Nat.add_sub_cancel_left]
    exact word16_ofWord16 size
  · rw [if_neg hij]
    -- Sizes lie two octets apart, so another one is in front or behind.
    rcases Nat.lt_or_gt_of_ne hij with hlt | hgt
    · rw [if_neg (by omega), if_neg (by omega)]
    · rw [if_pos (by omega), if_pos (by omega),
        List.getElem?_eq_none (by rw [Octets.length_ofWord16]; omega),
        List.getElem?_eq_none (by rw [Octets.length_ofWord16]; omega)]
      rfl

/-- The count lies in front of the sizes. -/
theorem countAt_writeSize (m : Metadata) (base : UInt64) (j : Nat) (size : UInt16)
    (hj : sizesOffset + 2 * j + 2 ≤ 2 ^ 64) :
    (m.write (sizeAddress base j) (Octets.ofWord16 size)).countAt base = m.countAt base := by
  have hfront : ∀ k, k < sizesOffset →
      (m.write (sizeAddress base j) (Octets.ofWord16 size)).octet (base + UInt64.ofNat k)
        = m.octet (base + UInt64.ofNat k) := by
    intro k hk
    rw [sizeAddress, octet_write_add m base _ _ (Octets.ofWord16 size) hj (by omega),
      if_neg (by omega)]
  rw [countAt_eq, countAt_eq, hfront 0 (by decide), hfront 1 (by decide), hfront 2 (by decide),
    hfront 3 (by decide)]

/-- A count is written in four octets. -/
theorem countAt_writeCount (m : Metadata) (base : UInt64) (count : UInt32) :
    (m.write (countAddress base) (Octets.ofWord32 count)).countAt base = count := by
  have hoctet : ∀ k, k < 4 →
      (m.write (countAddress base) (Octets.ofWord32 count)).octet (base + UInt64.ofNat k)
        = ((Octets.ofWord32 count)[k]?).getD (m.octet (base + UInt64.ofNat k)) := by
    intro k hk
    rw [countAddress, countOffset, octet_write_add m base 0 k _
      (by rw [Octets.length_ofWord32]; decide) (by omega), if_pos (Nat.zero_le k), Nat.sub_zero]
  rw [countAt_eq, hoctet 0 (by decide), hoctet 1 (by decide), hoctet 2 (by decide),
    hoctet 3 (by decide)]
  -- The two halves stand next to each other, each as a word.
  have hhigh := word16_ofWord16 (UInt16.ofNat (count.toNat / 65536))
  have hlow := word16_ofWord16 (UInt16.ofNat count.toNat)
  exact (congr (congrArg word32 hhigh) hlow).trans (word32_ofWord32 count)

/-- The sizes lie behind the count. -/
theorem sizeAt_writeCount (m : Metadata) (base : UInt64) (i : Nat) (count : UInt32)
    (hi : sizesOffset + 2 * i + 2 ≤ 2 ^ 64) :
    (m.write (countAddress base) (Octets.ofWord32 count)).sizeAt base i = m.sizeAt base i := by
  have hbehind : ∀ k, sizesOffset ≤ k → k < 2 ^ 64 →
      (m.write (countAddress base) (Octets.ofWord32 count)).octet (base + UInt64.ofNat k)
        = m.octet (base + UInt64.ofNat k) := by
    intro k hk hlt
    rw [sizesOffset] at hk
    rw [countAddress, countOffset, octet_write_add m base 0 k _
      (by rw [Octets.length_ofWord32]; decide) hlt, if_pos (Nat.zero_le k), Nat.sub_zero,
      List.getElem?_eq_none (by rw [Octets.length_ofWord32]; exact hk), Option.getD_none]
  rw [sizeAt_eq, sizeAt_eq, hbehind _ (by omega) (by omega), hbehind _ (by omega) (by omega)]

/-- Two memories hold the same in an area of so many octets. -/
def AgreeOn (m m' : Metadata) (base : UInt64) (octets : Nat) : Prop :=
  ∀ x, offsetIn base x < octets → m'.octet x = m.octet x

/-- Two areas of so many octets have no address in common. -/
def Apart (base : UInt64) (octets : Nat) (base' : UInt64) (octets' : Nat) : Prop :=
  ∀ x, ¬ (offsetIn base x < octets ∧ offsetIn base' x < octets')

variable {m m' m'' : Metadata} {base base' : UInt64} {octets octets' : Nat}

theorem AgreeOn.refl (m : Metadata) (base : UInt64) (octets : Nat) : m.AgreeOn m base octets :=
  fun _ _ => rfl

theorem AgreeOn.trans (h : m.AgreeOn m' base octets) (h' : m'.AgreeOn m'' base octets) :
    m.AgreeOn m'' base octets :=
  fun x hx => (h' x hx).trans (h x hx)

/-- Memories that agree show the same sizes there. -/
theorem AgreeOn.sizeAt_eq (h : m.AgreeOn m' base octets) (i : Nat)
    (hin : sizesOffset + 2 * i + 2 ≤ octets) (hi : sizesOffset + 2 * i + 2 ≤ 2 ^ 64) :
    m'.sizeAt base i = m.sizeAt base i := by
  have hsame : ∀ k, k < sizesOffset + 2 * i + 2 →
      m'.octet (base + UInt64.ofNat k) = m.octet (base + UInt64.ofNat k) := by
    intro k hk
    exact h _ (by rw [offsetIn_add base k (by omega)]; omega)
  rw [Metadata.sizeAt_eq, Metadata.sizeAt_eq, hsame _ (by omega), hsame _ (by omega)]

/-- Areas are apart if one ends before the other starts and neither goes around. -/
theorem apart_of_le (hbefore : base.toNat + octets ≤ base'.toNat)
    (hend : base'.toNat + octets' ≤ 2 ^ 64) : Apart base octets base' octets' := by
  rintro x ⟨hx, hx'⟩
  have hlt := x.toNat_lt
  rw [offsetIn, UInt64.toNat_sub] at hx hx'
  omega

/-- What is written in one area is not seen in another. -/
theorem agreeOn_write (m : Metadata) (apart : Apart base octets base' octets') (k : Nat)
    (b : Octets) (hfits : k + b.length ≤ 2 ^ 64) (hin : k + b.length ≤ octets') :
    m.AgreeOn (m.write (base' + UInt64.ofNat k) b) base octets := by
  intro x hx
  rw [octet_write_offset m base' x k b hfits]
  split
  case isTrue hle =>
    -- The address would lie in both areas if it lay in the run.
    have hout : ¬ offsetIn base' x < octets' := fun hin => apart x ⟨hx, hin⟩
    rw [List.getElem?_eq_none (by omega), Option.getD_none]
  case isFalse => rfl

end Metadata

end ReceiveOffload
