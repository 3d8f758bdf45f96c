import ReceiveOffload.OnesComplement
import ReceiveOffload.Proofs.Octets

/-!
# Sums as Residues

A folded sum is a residue modulo 65535 with one thing more: of the two words that
stand for zero, `0x0000` is the sum of nothing but zeros and `0xFFFF` every other
multiple. Those two facts say which word it is, so whether two totals fold to one
word is a question about the totals and not about carries. Everything here is that
question, answered once for each way in which a total comes about.

What is summed is independent of how. Octets are added up in words of four, but
the word of four is that of two with the high half counted 65536 times, which is
once more than a multiple of 65535. So the sum over words of two, which is what
the definition of the checksum asks for, folds to the same word.

## Main definitions

* `Octets.wordSum`: The sum of the 16-bit words of octets.
* `OnesComplement.Mends`: Patching a checksum makes up for octets that changed.

## Theorems

* `OnesComplement.fold_eq_iff`: When two totals fold to one word.
* `OnesComplement.sum_eq`: The sum of octets is that of their 16-bit words.
* `OnesComplement.fold_add_complement`: A total and the complement of what it folds
  to make `0xFFFF`.
* `OnesComplement.update16_mends`, `OnesComplement.update32_mends`: Patching a checksum
  makes up for a field that changed.
* `Octets.wordSum_replaced`: What replacing octets does to the sum.
-/

namespace ReceiveOffload

theorem word16_toNat (high low : UInt8) :
    (word16 high low).toNat = high.toNat * 256 + low.toNat := by
  have hh := high.toNat_lt
  have hl := low.toNat_lt
  simp only [word16, UInt16.toNat_ofNat']
  omega

theorem word32_toNat (high low : UInt16) :
    (word32 high low).toNat = high.toNat * 65536 + low.toNat := by
  have hh := high.toNat_lt
  have hl := low.toNat_lt
  simp only [word32, UInt32.toNat_ofNat']
  omega

theorem UInt16.toNat_complement (w : UInt16) : (~~~ w).toNat = 65535 - w.toNat := by
  rw [UInt16.toNat_not]
  rfl

namespace Octets

/-- The sum of the big-endian words of two octets; a last single octet is the
    high one of a word. -/
def wordSum : Octets → Nat
  | high :: low :: rest => (word16 high low).toNat + wordSum rest
  | [last] => (word16 last 0).toNat
  | [] => 0

/-- Behind an even number of octets the words go on as they were. -/
theorem wordSum_append (b tail : Octets) (heven : 2 ∣ b.length) :
    wordSum (b ++ tail) = wordSum b + wordSum tail := by
  induction b using wordSum.induct with
  | case1 high low rest ih =>
      have hrest : 2 ∣ rest.length := by
        simp only [List.length_cons] at heven
        omega
      simp only [List.cons_append, wordSum, ih hrest, Nat.add_assoc]
  | case2 last =>
      simp only [List.length_cons, List.length_nil] at heven
      omega
  | case3 => simp only [List.nil_append, wordSum, Nat.zero_add]

/-- A string that begins with more than a zero sums to more than nothing. -/
theorem wordSum_pos (b : Octets) (first : UInt8) (hfirst : b[0]? = some first)
    (hpos : 0 < first.toNat) : 0 < wordSum b := by
  rcases b with _ | ⟨high, _ | ⟨low, rest⟩⟩
  · cases hfirst
  all_goals
    rw [List.getElem?_cons_zero, Option.some.injEq] at hfirst
    subst hfirst
    rw [wordSum, word16_toNat]
    omega

/-- Only zeros sum to nothing. -/
theorem wordSum_eq_zero_iff (b : Octets) : wordSum b = 0 ↔ ∀ octet ∈ b, octet = 0 := by
  induction b using wordSum.induct with
  | case1 high low rest ih =>
      rw [List.forall_mem_cons, List.forall_mem_cons, ← ih, wordSum, word16_toNat]
      simp only [← UInt8.toNat_inj, UInt8.toNat_zero]
      omega
  | case2 last =>
      simp only [wordSum, List.forall_mem_singleton, ← UInt8.toNat_inj, UInt8.toNat_zero,
        word16_toNat]
      omega
  | case3 => simp only [wordSum, List.not_mem_nil, false_implies, implies_true]

theorem wordSum_ofWord16 (w : UInt16) : wordSum (ofWord16 w) = w.toNat := by
  simp only [ofWord16, wordSum, word16_ofWord16, Nat.add_zero]

/-- A word of four octets counts as its two halves do. -/
theorem wordSum_ofWord32 (w : UInt32) :
    wordSum (ofWord32 w)
      = (UInt16.ofNat (w.toNat / 65536)).toNat + (UInt16.ofNat w.toNat).toNat := by
  rw [ofWord32, wordSum_append (ofWord16 _) _ (Nat.dvd_refl 2), wordSum_ofWord16, wordSum_ofWord16]

/-- Replacing an even number of octets at an even offset changes the sum by the
    difference. -/
theorem wordSum_replaced (b b' old new : Octets) (i : Nat) (heven : 2 ∣ i)
    (hlength : old.length = new.length) (hnew : 2 ∣ new.length) (hold : HoldsAt b i old)
    (h : b.overwrite? i new = some b') :
    wordSum b' + wordSum old = wordSum b + wordSum new := by
  have hroom := le_length_of_overwrite b b' new i h
  have htake : 2 ∣ (b.take i).length := by
    rw [List.length_take]
    omega
  rw [overwrite?, if_pos hroom, Option.some.injEq] at h
  -- In front of the run and behind it, both are the same octets.
  have hsplit : b = b.take i ++ (old ++ b.drop (i + new.length)) := by
    have hrun := hold.take_drop
    rw [hlength] at hrun
    rw [← hrun, ← List.drop_drop, List.take_append_drop, List.take_append_drop]
  have hbefore : wordSum b
      = wordSum (b.take i) + (wordSum old + wordSum (b.drop (i + new.length))) := by
    rw [← wordSum_append _ _ (hlength ▸ hnew), ← wordSum_append _ _ htake, ← hsplit]
  have hafter : wordSum b'
      = wordSum (b.take i) + (wordSum new + wordSum (b.drop (i + new.length))) := by
    rw [← wordSum_append _ _ hnew, ← wordSum_append _ _ htake, ← h, List.append_assoc]
  omega

/-- Replacing a word at an even offset changes the sum by the difference. -/
theorem wordSum_overwrite (b b' : Octets) (i : Nat) (old new : UInt16) (heven : 2 ∣ i)
    (hold : b.word16? i = some old) (h : b.overwrite? i (ofWord16 new) = some b') :
    wordSum b' + old.toNat = wordSum b + new.toNat := by
  have hreplaced := wordSum_replaced b b' (ofWord16 old) (ofWord16 new) i heven rfl (Nat.dvd_refl 2)
    (holdsAt_of_word16? b i old hold) h
  rwa [wordSum_ofWord16, wordSum_ofWord16] at hreplaced

end Octets

namespace OnesComplement

open Octets

/-- Octets count as their words of two do, and besides so many times 65535 as the
    high halves of the words of four come to. -/
theorem accumulate_eq (b : Octets) (total : Nat) :
    ∃ carries, carries ≤ wordSum b ∧
      accumulate b total = total + wordSum b + 65535 * carries := by
  induction b, total using accumulate.induct with
  | case1 a b c d rest total ih =>
      rcases ih with ⟨carries, hle, heq⟩
      rw [word32_toNat] at heq
      refine ⟨(word16 a b).toNat + carries, ?_, ?_⟩
      · simp only [wordSum]
        omega
      · simp only [accumulate, wordSum, word32_toNat, heq]
        omega
  | case2 a b c total => exact ⟨0, Nat.zero_le _, by simp only [accumulate, wordSum]; omega⟩
  | case3 a b total => exact ⟨0, Nat.zero_le _, by simp only [accumulate, wordSum]; omega⟩
  | case4 a total => exact ⟨0, Nat.zero_le _, by simp only [accumulate, wordSum]; omega⟩
  | case5 total => exact ⟨0, Nat.zero_le _, by simp only [accumulate, wordSum]; omega⟩

/-- Folding keeps the residue, and only nothing folds to nothing. -/
theorem fold_residue (total : Nat) :
    (fold total).toNat % 65535 = total % 65535 ∧ ((fold total).toNat = 0 ↔ total = 0) := by
  induction total using fold.induct with
  | case1 total hsmall =>
      have hval : (fold total).toNat = total := by
        rw [fold, if_pos hsmall]
        exact UInt16.toNat_ofNat_of_lt' (by simp only [UInt16.size]; omega)
      rw [hval]
      exact ⟨rfl, Iff.rfl⟩
  | case2 total hlarge ih =>
      rw [fold, if_neg hlarge]
      constructor
      · rw [ih.1]
        omega
      · rw [ih.2]
        omega

/-- Two totals fold to one word if they have the same residue and neither is
    nothing alone. -/
theorem fold_eq_iff (total total' : Nat) :
    fold total = fold total' ↔
      total % 65535 = total' % 65535 ∧ (total = 0 ↔ total' = 0) := by
  have h := fold_residue total
  have h' := fold_residue total'
  have hlt := (fold total).toNat_lt
  have hlt' := (fold total').toNat_lt
  rw [← UInt16.toNat_inj]
  omega

/-- A word is what it folds to. -/
theorem fold_toNat (w : UInt16) : fold w.toNat = w := by
  have hlt := w.toNat_lt
  rw [fold, if_pos (by omega)]
  exact UInt16.ofNat_toNat

/-- What folds to the other zero is a multiple of 65535, and not nothing. -/
theorem fold_eq_ones_iff (total : Nat) : fold total = 0xFFFF ↔ 0 < total ∧ total % 65535 = 0 := by
  have hones : (0xFFFF : UInt16) = fold 65535 := (fold_toNat 0xFFFF).symm
  rw [hones, fold_eq_iff]
  omega

/-- The sum of octets is that of their words of two. -/
theorem sum_eq (b : Octets) (initial : Nat) : sum b initial = fold (initial + wordSum b) := by
  rcases accumulate_eq b initial with ⟨carries, hle, heq⟩
  rw [sum, heq, fold_eq_iff]
  omega

/-- It does not matter whether a part of the total was folded before. -/
theorem fold_add_fold (total part : Nat) :
    fold (total + (fold part).toNat) = fold (total + part) := by
  have h := fold_residue part
  rw [fold_eq_iff]
  omega

/-- A total and the complement of what it folds to make all ones. -/
theorem fold_add_complement (total : Nat) :
    fold (total + (~~~ fold total).toNat) = 0xFFFF := by
  have h := fold_residue total
  have hlt := (fold total).toNat_lt
  rw [UInt16.toNat_complement, fold_eq_ones_iff]
  omega

/-- Patching a checksum makes up for covered octets that summed to `old` and sum to `new`
    now. It keeps the residue of a checksum that was wrong. Of one that was right it makes
    the one that is computed anew, unless nothing but zeros is left to be summed. -/
structure Mends (update : UInt16 → UInt16) (old new : Nat) : Prop where
  residue : ∀ stored, ((update stored).toNat + new) % 65535 = (stored.toNat + old) % 65535
  anew : ∀ total total', total' + old = total + new →
    (update (~~~ fold total) = ~~~ fold total' ↔ 0 < total')

/-- A checksum is mended by adding to its complement what the octets have changed by, up
    to a multiple of 65535. -/
theorem mends_of_change (update : UInt16 → UInt16) (old new change turns : Nat)
    (hupdate : ∀ stored, update stored = ~~~ fold ((~~~ stored).toNat + change))
    (hchange : change + old = new + 65535 * turns) (hturns : 0 < turns) :
    Mends update old new := by
  constructor
  case residue =>
    intro stored
    have h := fold_residue ((~~~ stored).toNat + change)
    have hlt := (fold ((~~~ stored).toNat + change)).toNat_lt
    have hstored := stored.toNat_lt
    rw [hupdate, UInt16.toNat_complement]
    rw [UInt16.toNat_complement] at h hlt ⊢
    omega
  case anew =>
    intro total total' htotal
    rw [hupdate, UInt16.not_not, Nat.add_comm, fold_add_fold, UInt16.not_inj, fold_eq_iff]
    -- The multiple of 65535 is not nothing, so the left total never is.
    omega

theorem update16_mends (old new : UInt16) :
    Mends (fun stored => update16 stored old new) old.toNat new.toNat := by
  have hold := old.toNat_lt
  refine mends_of_change _ _ _ ((~~~ old).toNat + new.toNat) 1 (fun stored => ?_) ?_ Nat.one_pos
  · rw [update16, Nat.add_assoc]
  · rw [UInt16.toNat_complement]
    omega

/-- Two patches in a row are one, since a total may be folded in between. So it does not
    matter what the octets sum to after only the first of them. -/
theorem update32_mends (old new : UInt32) :
    Mends (fun stored => update32 stored old new) (wordSum (ofWord32 old))
      (wordSum (ofWord32 new)) := by
  have hhigh := (UInt16.ofNat (old.toNat / 65536)).toNat_lt
  have hlow := (UInt16.ofNat old.toNat).toNat_lt
  refine mends_of_change _ _ _
    ((~~~ UInt16.ofNat (old.toNat / 65536)).toNat + (UInt16.ofNat (new.toNat / 65536)).toNat
      + ((~~~ UInt16.ofNat old.toNat).toNat + (UInt16.ofNat new.toNat).toNat)) 2
    (fun stored => ?_) ?_ Nat.two_pos
  · rw [update32, update16, update16, UInt16.not_not, Nat.add_assoc, Nat.add_comm, fold_add_fold]
    congr 2
    omega
  · rw [wordSum_ofWord32, wordSum_ofWord32, UInt16.toNat_complement, UInt16.toNat_complement]
    omega

end OnesComplement

end ReceiveOffload
