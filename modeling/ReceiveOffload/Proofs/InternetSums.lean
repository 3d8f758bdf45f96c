import Mathlib.Algebra.GroupWithZero.Nat
import Mathlib.Logic.Function.Iterate
import ReceiveOffload.Proofs.Residues

/-!
# The Internet Sum

The sum of octets is what the internet checksum asks for: the sum of their 16-bit words,
with every carry added back in. It is determined by the total alone. Its residue modulo
65535 is that of the total, and of the two words that stand for zero it is `0x0000` for a
total of nothing and `0xFFFF` for any other multiple of 65535.

The total here is a natural number. On a machine it is a word of 64 bits, which adds up
octets four at a time and can overflow, and the carries are added back by a loop of shifts
and masks. Neither makes a difference. What 64 bits hold without overflow is the natural
number, and a round of the loop is the recursion of `fold`. The loop also always leaves: a
round divides what lies above the low 16 bits by 65536, give or take one, so that four
rounds are enough for any 64 bits.

## Main definitions

* `OnesComplement.accumulate64?`: Adds octets in 64 bits, unless they overflow.
* `OnesComplement.carry64`, `OnesComplement.Folds`: A round of the loop that adds carries
  back, and what a number of rounds comes to.
* `InternetSum`: What the sum of octets is.

## Theorems

* `OnesComplement.accumulate64?_eq_some_iff`: Without an overflow, 64 bits hold the total.
* `OnesComplement.folds_within`: The loop leaves, and with what the total folds to.
* `OnesComplement.sum_append`: Octets in front count through the total that is started
  from.
* `internet_sums`: The sum of octets is the internet sum.
-/

namespace ReceiveOffload

open Octets

namespace OnesComplement

/-- Adds a word in 64 bits, unless they overflow. -/
def add64? (total : UInt64) (word : Nat) : Option UInt64 :=
  if total.toNat + word < 2 ^ 64 then some (total + UInt64.ofNat word) else none

/-- Adds the octets to an unfolded sum of 64 bits, unless they overflow. -/
def accumulate64? : Octets → UInt64 → Option UInt64
  | a :: b :: c :: d :: rest, total => do
    let added ← add64? total (word32 (word16 a b) (word16 c d)).toNat
    accumulate64? rest added
  | [a, b, c], total => do
    let added ← add64? total (word16 a b).toNat
    add64? added (word16 c 0).toNat
  | [a, b], total => add64? total (word16 a b).toNat
  | [a], total => add64? total (word16 a 0).toNat
  | [], total => some total

/-- One round of the loop: what lies above the low 16 bits is added to them. -/
def carry64 (total : UInt64) : UInt64 :=
  (total >>> 16) + (total &&& 0xFFFF)

/-- The loop goes the given number of rounds, because more than 16 bits are left before
    each of them, and then leaves with a word. -/
structure Folds (total : UInt64) (rounds : Nat) (word : UInt16) : Prop where
  stays : ∀ k < rounds, 0xFFFF < (carry64^[k] total).toNat
  leaves : (carry64^[rounds] total).toNat = word.toNat

/-- Adding words never makes the total less. -/
theorem le_accumulate (b : Octets) (total : Nat) : total ≤ accumulate b total := by
  rcases accumulate_eq b total with ⟨carries, _, heq⟩
  omega

theorem add64?_eq_some_iff (total sum : UInt64) (word : Nat) :
    add64? total word = some sum ↔ sum.toNat = total.toNat + word := by
  have hsum := sum.toNat_lt
  unfold add64?
  by_cases hfits : total.toNat + word < 2 ^ 64
  · have hadded : (total + UInt64.ofNat word).toNat = total.toNat + word := by
      rw [UInt64.toNat_add, UInt64.toNat_ofNat']
      omega
    rw [if_pos hfits, Option.some.injEq, ← UInt64.toNat_inj, hadded]
    exact eq_comm
  · rw [if_neg hfits]
    exact ⟨nofun, fun h => absurd hsum (by omega)⟩

/-- Without an overflow, 64 bits hold the total, and there is one only if they do not. -/
theorem accumulate64?_eq_some_iff (b : Octets) (initial total : UInt64) :
    accumulate64? b initial = some total ↔ total.toNat = accumulate b initial.toNat := by
  have htotal := total.toNat_lt
  -- Whatever is added on the way is part of the end, so it did not overflow either.
  have hmiddle : ∀ (rest : Octets) (start : UInt64) (word : Nat),
      total.toNat = accumulate rest (start.toNat + word) →
      ∃ added : UInt64, added.toNat = start.toNat + word := by
    intro rest start word h
    have hle := le_accumulate rest (start.toNat + word)
    exact ⟨UInt64.ofNat (start.toNat + word),
      UInt64.toNat_ofNat_of_lt' (by simp only [UInt64.size]; omega)⟩
  induction b, initial using accumulate64?.induct with
  | case1 a b c d rest start ih =>
      simp only [accumulate64?, accumulate, Option.bind_eq_bind, Option.bind_eq_some_iff,
        add64?_eq_some_iff]
      constructor
      · rintro ⟨added, hadded, hrest⟩
        have hend := (ih added).mp hrest
        rwa [hadded] at hend
      · intro h
        rcases hmiddle rest start _ h with ⟨added, hadded⟩
        exact ⟨added, hadded, (ih added).mpr (hadded ▸ h)⟩
  | case2 a b c start =>
      simp only [accumulate64?, accumulate, Option.bind_eq_bind, Option.bind_eq_some_iff,
        add64?_eq_some_iff]
      constructor
      · rintro ⟨added, hadded, hlast⟩
        rw [hlast, hadded]
      · intro h
        rcases hmiddle [c] start _ h with ⟨added, hadded⟩
        exact ⟨added, hadded, by rw [h, hadded]⟩
  | case3 a b start => exact add64?_eq_some_iff _ _ _
  | case4 a start => exact add64?_eq_some_iff _ _ _
  | case5 start =>
      simp only [accumulate64?, accumulate, Option.some.injEq, ← UInt64.toNat_inj]
      exact eq_comm

/-- A round of shifts and masks is one of quotient and remainder, and never overflows. -/
theorem carry64_toNat (total : UInt64) :
    (carry64 total).toNat = total.toNat / 65536 + total.toNat % 65536 := by
  have hlt := total.toNat_lt
  have hlow : total.toNat &&& (0xFFFF : UInt64).toNat = total.toNat % 65536 :=
    Nat.and_two_pow_sub_one_eq_mod total.toNat 16
  have hhigh : total.toNat >>> ((16 : UInt64).toNat % 64) = total.toNat / 65536 :=
    Nat.shiftRight_eq_div_pow total.toNat 16
  rw [carry64, UInt64.toNat_add, UInt64.toNat_shiftRight, UInt64.toNat_and, hlow, hhigh]
  omega

/-- The loop does not begin where the total is a word. -/
theorem folds_word (total : UInt64) (hsmall : total.toNat ≤ 0xFFFF) :
    Folds total 0 (fold total.toNat) := by
  refine ⟨nofun, ?_⟩
  rw [Function.iterate_zero_apply, fold, if_pos hsmall]
  exact (UInt16.toNat_ofNat_of_lt' (by simp only [UInt16.size]; omega)).symm

/-- The loop leaves, and with what the total folds to. A round takes a bound of one power
    of 65536 to the next lower one, with the same room above it. -/
theorem folds_within (n : Nat) (total : UInt64) (hbound : total.toNat ≤ 65536 ^ n + 65534) :
    ∃ rounds ≤ n, Folds total rounds (fold total.toNat) := by
  induction n generalizing total with
  | zero => exact ⟨0, Nat.le_refl 0, folds_word total (by omega)⟩
  | succ n ih =>
      by_cases hsmall : total.toNat ≤ 0xFFFF
      · exact ⟨0, Nat.zero_le _, folds_word total hsmall⟩
      · have hround := carry64_toNat total
        have hfold : fold total.toNat = fold (carry64 total).toNat := by
          rw [hround, fold, if_neg hsmall]
        rw [Nat.pow_succ] at hbound
        rcases ih (carry64 total) (by omega) with ⟨rounds, hrounds, hfolds⟩
        refine ⟨rounds + 1, Nat.succ_le_succ hrounds, ?_, ?_⟩
        · intro k hk
          rcases k with _ | k
          · exact Nat.lt_of_not_le hsmall
          · exact hfolds.stays k (Nat.lt_of_succ_lt_succ hk)
        · rw [Function.iterate_succ_apply, hfold]
          exact hfolds.leaves

/-- An even number of octets in front counts through the total that is started from. -/
theorem sum_append (b tail : Octets) (initial : Nat) (heven : 2 ∣ b.length) :
    sum (b ++ tail) initial = sum tail (accumulate b initial) := by
  rcases accumulate_eq b initial with ⟨carries, hle, heq⟩
  rw [sum_eq, sum_eq, wordSum_append b tail heven, heq, fold_eq_iff]
  omega

/-- Where a field of zeros takes the complement of the sum, the sum becomes all ones. -/
theorem sum_complemented (b b' : Octets) (i initial : Nat) (heven : 2 ∣ i)
    (hzero : b.word16? i = some 0)
    (h : b.overwrite? i (ofWord16 (~~~ sum b initial)) = some b') : sum b' initial = 0xFFFF := by
  have hchanged := wordSum_overwrite b b' i 0 _ heven hzero h
  have hones := fold_add_complement (initial + wordSum b)
  rw [UInt16.toNat_zero, Nat.add_zero] at hchanged
  rw [sum_eq, hchanged, ← Nat.add_assoc, sum_eq, hones]

end OnesComplement

/-- What the sum of octets is. -/
structure InternetSum (b : Octets) (initial : Nat) : Prop where
  /-- It is the word that has the residue of the total, and it is zero for a total of
      nothing alone. -/
  unique : ∀ r : Nat, r = (OnesComplement.sum b initial).toNat ↔
    r ≤ 0xFFFF ∧ r % 65535 = (initial + wordSum b) % 65535 ∧ (r = 0 ↔ initial + wordSum b = 0)
  /-- Unless 64 bits overflow, they hold what is folded. -/
  held : ∀ start total : UInt64, start.toNat = initial →
    (OnesComplement.accumulate64? b start = some total ↔
      total.toNat = OnesComplement.accumulate b initial)
  /-- In front of more octets, an even number of them is a part of the total. -/
  split : 2 ∣ b.length → ∀ tail, OnesComplement.sum (b ++ tail) initial
    = OnesComplement.sum tail (OnesComplement.accumulate b initial)
  /-- With its complement in a field of zeros, the octets make all ones. -/
  verifies : ∀ i, 2 ∣ i → b.word16? i = some 0 →
    ∃ b', b.overwrite? i (ofWord16 (~~~ OnesComplement.sum b initial)) = some b' ∧
      OnesComplement.sum b' initial = 0xFFFF

/-- The sum of octets is the internet sum, and the loop by which 64 bits are folded leaves
    with the word that is expected, after at most four rounds. -/
theorem internet_sums :
    (∀ (b : Octets) (initial : Nat), InternetSum b initial) ∧
      ∀ total : UInt64, ∃ rounds ≤ 4,
        OnesComplement.Folds total rounds (OnesComplement.fold total.toNat) := by
  refine ⟨fun b initial => ?_, fun total => ?_⟩
  · constructor
    case unique =>
      intro r
      have h := OnesComplement.fold_residue (initial + wordSum b)
      have hlt := (OnesComplement.fold (initial + wordSum b)).toNat_lt
      rw [OnesComplement.sum_eq]
      omega
    case held =>
      rintro start total rfl
      exact OnesComplement.accumulate64?_eq_some_iff b start total
    case split => exact fun heven tail => OnesComplement.sum_append b tail initial heven
    case verifies =>
      intro i heven hzero
      rcases exists_overwrite b (ofWord16 (~~~ OnesComplement.sum b initial)) i
        (le_length_of_word16? b i 0 hzero) with ⟨b', hb'⟩
      exact ⟨b', hb', OnesComplement.sum_complemented b b' i initial heven hzero hb'⟩
  · have hlt := total.toNat_lt
    exact OnesComplement.folds_within 4 total (by omega)

/-- An odd number of octets that begin with a field for the complement of their sum. -/
def oddOctets : Octets :=
  [0, 0, 0xFF, 0xFF, 0xAB]

theorem internet_sums_odd :
    (OnesComplement.sum oddOctets 0).toNat = 0xAB00 ∧
      OnesComplement.accumulate64? oddOctets 0 = some 0x1AAFF ∧
      OnesComplement.sum (oddOctets.take 2 ++ [0xFF, 0xFF, 0xAB]) 0xFFFF
        = OnesComplement.sum [0xFF, 0xFF, 0xAB] 0xFFFF ∧
      (∃ b', oddOctets.overwrite? 0 (ofWord16 (~~~ OnesComplement.sum oddOctets 0)) = some b' ∧
        OnesComplement.sum b' 0 = 0xFFFF) ∧
      ∃ rounds ≤ 4, OnesComplement.Folds 0xFFFFFFFFFFFFFFFF rounds 0xFFFF := by
  have hsums := internet_sums.1 oddOctets 0
  have hword : OnesComplement.fold (0xFFFFFFFFFFFFFFFF : UInt64).toNat = 0xFFFF := by
    decide +kernel
  refine ⟨?_, ?_, ?_, hsums.verifies 0 (Nat.dvd_zero 2) rfl, ?_⟩
  · exact ((hsums.unique 0xAB00).mpr (by decide +kernel)).symm
  · exact (hsums.held 0 0x1AAFF rfl).mpr (by decide)
  · exact (internet_sums.1 (oddOctets.take 2) 0xFFFF).split (Nat.dvd_refl 2) _
  · exact hword ▸ internet_sums.2 0xFFFFFFFFFFFFFFFF

end ReceiveOffload
