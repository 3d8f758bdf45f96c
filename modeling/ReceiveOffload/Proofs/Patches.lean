import ReceiveOffload.Proofs.Residues

/-!
# Patched Checksums

A checksum that is patched for a field that changed is the checksum that would have been
computed anew. The patch never sees the octets, only the field as it was and as it is, and
what it does is a matter of totals: `Mends` says what it makes of a checksum, and here that
is carried to octets that hold a checksum and a field.

The two can come apart in one place, and it is the double zero again. Octets that are all
zero but for the checksum have a sum of `0x0000`, and no other octets do; a patch starts
from a checksum that stands for more than that and ends up with `0xFFFF`. So the patch is
right exactly if something is left to be summed. What is summed on the way does not
matter: a field of four octets is patched in two halves, and the octets may well be all
zero after the first of them.

A checksum that was wrong stays as wrong as it was. That is the residue of the sum over all
of the octets, to which the checksum belongs.

## Main definitions

* `OnesComplement.computed?`: The checksum of octets, computed anew.
* `Octets.Blank`: Octets are all zero but for their checksum.
* `OnesComplement.KeepsUp`: A checksum keeps up with octets that change.

## Theorems

* `OnesComplement.Mends.keepsUp`: A patch that mends totals keeps up with octets.
* `OnesComplement.keepsUp_update16`, `OnesComplement.keepsUp_update32`: Patched checksums
  do, for fields of two and of four octets.
* `patched_keepsUp`: Both at once.
-/

namespace ReceiveOffload

open Octets

/-- The octets are all zero, but for the checksum at an offset. -/
def Octets.Blank (b : Octets) (checksumAt : Nat) : Prop :=
  ∃ cleared ∈ b.overwrite? checksumAt (ofWord16 0), ∀ octet ∈ cleared, octet = 0

instance (b : Octets) (checksumAt : Nat) : Decidable (b.Blank checksumAt) :=
  inferInstanceAs (Decidable (∃ cleared ∈ b.overwrite? checksumAt (ofWord16 0), _))

namespace OnesComplement

/-- The checksum that lies at an offset of the octets, computed anew: the complement of
    their sum with the field cleared. -/
def computed? (b : Octets) (checksumAt initial : Nat) : Option UInt16 := do
  let cleared ← b.overwrite? checksumAt (ofWord16 0)
  return ~~~ sum cleared initial

/-- The checksum at an offset keeps up with octets that changed, if it goes from `stored`
    to `updated`. -/
structure KeepsUp (b changed : Octets) (checksumAt initial : Nat) (stored updated : UInt16) :
    Prop where
  /-- If it was the one that is computed, it is again, unless only zeros are left. -/
  anew : computed? b checksumAt initial = some stored →
    (computed? changed checksumAt initial = some updated ↔
      ¬ (initial = 0 ∧ changed.Blank checksumAt))
  /-- Whether it was right or wrong, with it the octets sum to what they did. -/
  residue : ∃ patched, changed.overwrite? checksumAt (ofWord16 updated) = some patched ∧
    (sum patched initial).toNat % 65535 = (sum b initial).toNat % 65535

/-- A patch that mends totals keeps up with octets of which a run is replaced. -/
theorem Mends.keepsUp {update : UInt16 → UInt16} {old new : Octets}
    (hmends : Mends update (wordSum old) (wordSum new)) (b : Octets)
    (checksumAt field initial : Nat) (stored : UInt16) (hchecksumAt : 2 ∣ checksumAt)
    (hfield : 2 ∣ field) (hlength : old.length = new.length) (hnew : 2 ∣ new.length)
    (hsome : 0 < new.length)
    (hapart : field + new.length ≤ checksumAt ∨ checksumAt + 2 ≤ field)
    (hstored : b.word16? checksumAt = some stored) (hold : HoldsAt b field old) :
    ∃ changed, b.overwrite? field new = some changed ∧
      KeepsUp b changed checksumAt initial stored (update stored) := by
  have hroom := le_length_of_word16? b checksumAt stored hstored
  rcases exists_overwrite b new field (hlength ▸ hold.le_length (hlength ▸ hsome)) with
    ⟨changed, hchanged⟩
  have hlengthChanged := length_overwrite _ _ _ _ hchanged
  -- The field and the checksum do not meet, so the checksum is still there.
  have hstill : changed.word16? checksumAt = some stored := by
    rw [← hstored]
    refine word16?_of_agreeOn _ _ _ (fun j hlow hhigh => ?_)
    rw [getElem?_overwrite _ _ _ _ _ hchanged, if_neg (by omega)]
  rcases exists_overwrite b (ofWord16 0) checksumAt hroom with ⟨cleared, hcleared⟩
  rcases exists_overwrite changed (ofWord16 0) checksumAt (hlengthChanged ▸ hroom) with
    ⟨cleared', hcleared'⟩
  rcases exists_overwrite changed (ofWord16 (update stored)) checksumAt
    (hlengthChanged ▸ hroom) with ⟨patched, hpatched⟩
  have hfields := wordSum_replaced _ _ _ _ field hfield hlength hnew hold hchanged
  have hbefore := wordSum_overwrite _ _ checksumAt stored 0 hchecksumAt hstored hcleared
  have hafter := wordSum_overwrite _ _ checksumAt stored 0 hchecksumAt hstill hcleared'
  have hmade := wordSum_overwrite _ _ checksumAt stored _ hchecksumAt hstill hpatched
  refine ⟨changed, hchanged, ?_, patched, hpatched, ?_⟩
  · intro hcomputed
    have hzeros := wordSum_eq_zero_iff cleared'
    have hanew := hmends.anew (initial + wordSum cleared) (initial + wordSum cleared') (by omega)
    simp only [computed?, hcleared, hcleared', sum_eq, Option.pure_def, Option.bind_eq_bind,
      Option.bind_some, Option.some.injEq] at hcomputed ⊢
    rw [hcomputed] at hanew
    simp only [Blank, hcleared', Option.mem_def, Option.some.injEq, exists_eq_left', ← hzeros]
    rw [eq_comm, hanew]
    omega
  · have hresidue := hmends.residue stored
    rw [sum_eq, sum_eq, (fold_residue _).1, (fold_residue _).1]
    omega

/-- A checksum that is patched for a field of two octets keeps up. -/
theorem keepsUp_update16 (b : Octets) (checksumAt field initial : Nat) (stored old new : UInt16)
    (hchecksumAt : 2 ∣ checksumAt) (hfield : 2 ∣ field)
    (hapart : field + 2 ≤ checksumAt ∨ checksumAt + 2 ≤ field)
    (hstored : b.word16? checksumAt = some stored) (hold : b.word16? field = some old) :
    ∃ changed, b.overwrite? field (ofWord16 new) = some changed ∧
      KeepsUp b changed checksumAt initial stored (update16 stored old new) := by
  have hmends := update16_mends old new
  rw [← wordSum_ofWord16 old, ← wordSum_ofWord16 new] at hmends
  exact hmends.keepsUp b checksumAt field initial stored hchecksumAt hfield rfl (Nat.dvd_refl 2)
    Nat.two_pos hapart hstored (holdsAt_of_word16? b field old hold)

/-- A checksum that is patched for a field of four octets keeps up, wherever the field lies
    among the words of four that are summed. -/
theorem keepsUp_update32 (b : Octets) (checksumAt field initial : Nat) (stored : UInt16)
    (old new : UInt32) (hchecksumAt : 2 ∣ checksumAt) (hfield : 2 ∣ field)
    (hapart : field + 4 ≤ checksumAt ∨ checksumAt + 2 ≤ field)
    (hstored : b.word16? checksumAt = some stored) (hold : b.word32? field = some old) :
    ∃ changed, b.overwrite? field (ofWord32 new) = some changed ∧
      KeepsUp b changed checksumAt initial stored (update32 stored old new) :=
  (update32_mends old new).keepsUp b checksumAt field initial stored hchecksumAt hfield rfl
    ⟨2, rfl⟩ (Nat.succ_pos 3) hapart hstored (holdsAt_of_word32? b field old hold)

end OnesComplement

/-- A checksum that is patched for a field keeps up with the octets, if the field has two
    octets or four, begins at an even offset and does not meet the checksum. -/
theorem patched_keepsUp (b : Octets) (checksumAt field initial : Nat) (stored : UInt16)
    (hchecksumAt : 2 ∣ checksumAt) (hfield : 2 ∣ field)
    (hstored : b.word16? checksumAt = some stored) :
    (∀ old new : UInt16, field + 2 ≤ checksumAt ∨ checksumAt + 2 ≤ field →
      b.word16? field = some old → ∃ changed, b.overwrite? field (ofWord16 new) = some changed ∧
        OnesComplement.KeepsUp b changed checksumAt initial stored
          (OnesComplement.update16 stored old new)) ∧
    (∀ old new : UInt32, field + 4 ≤ checksumAt ∨ checksumAt + 2 ≤ field →
      b.word32? field = some old → ∃ changed, b.overwrite? field (ofWord32 new) = some changed ∧
        OnesComplement.KeepsUp b changed checksumAt initial stored
          (OnesComplement.update32 stored old new)) := by
  constructor
  · intro old new hapart hold
    exact OnesComplement.keepsUp_update16 b checksumAt field initial stored old new hchecksumAt
      hfield hapart hstored hold
  · intro old new hapart hold
    exact OnesComplement.keepsUp_update32 b checksumAt field initial stored old new hchecksumAt
      hfield hapart hstored hold

/-- Octets with their checksum in front, and a field of four octets behind it of which the
    low half is zero. -/
def patchable : Octets :=
  [0xED, 0xCB, 0x12, 0x34, 0, 0, 0]

/-- Once the high half of the field is patched the octets are all zero, and in the end the
    checksum is the right one all the same. -/
theorem patched_keepsUp_zeros :
    patchable.word16? 0 = some 0xEDCB ∧ patchable.word32? 2 = some 0x12340000 ∧
      OnesComplement.computed? patchable 0 0 = some 0xEDCB ∧
      ∃ changed, patchable.overwrite? 2 (ofWord32 0x5678) = some changed ∧
        OnesComplement.KeepsUp patchable changed 0 0 0xEDCB
          (OnesComplement.update32 0xEDCB 0x12340000 0x5678) ∧
        OnesComplement.computed? changed 0 0
          = some (OnesComplement.update32 0xEDCB 0x12340000 0x5678) := by
  have hstored : patchable.word16? 0 = some 0xEDCB := by decide
  have hold : patchable.word32? 2 = some 0x12340000 := by decide
  have hcomputed : OnesComplement.computed? patchable 0 0 = some 0xEDCB := by decide +kernel
  have hsome : ∀ changed ∈ patchable.overwrite? 2 (ofWord32 0x5678), ¬ changed.Blank 0 := by
    decide
  rcases (patched_keepsUp patchable 0 2 0 0xEDCB (Nat.dvd_zero 2) (Nat.dvd_refl 2) hstored).2
    0x12340000 0x5678 (Or.inr (Nat.le_refl 2)) hold with ⟨changed, hchanged, hkeepsUp⟩
  exact ⟨hstored, hold, hcomputed, changed, hchanged, hkeepsUp,
    (hkeepsUp.anew hcomputed).mpr fun h => hsome changed hchanged h.2⟩

end ReceiveOffload
