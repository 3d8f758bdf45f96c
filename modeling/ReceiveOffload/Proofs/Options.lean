import ReceiveOffload.Proofs.Octets
import ReceiveOffload.Segment.Options

/-!
# Masked Options

Options are compared with the echo reply of their timestamp masked, and an
aggregate takes the echo reply of its last segment. This only makes sense if
the mask hides nothing but the echo reply: two strings of options that look the
same behind it have to have their timestamp in the same place.

They do, because the walk through the options never looks at an echo reply. It
finds a timestamp from the octets before the echo, and so it finds the same one
whatever the echo says. `timestampFrom_of_prefix` is that argument, an
induction along the walk, and everything else follows from it.

## Theorems

* `TcpOptions.timestampFrom_bounds`: A timestamp that was found lies among the
  options.
* `TcpOptions.timestampFrom_of_prefix`: The walk depends on the octets before
  the echo reply only.
* `TcpOptions.timestamp?_masked`: Masking changes the echo reply and nothing
  else.
* `TcpOptions.eq_of_masked_eq`: Options without a timestamp are not masked.
* `TcpOptions.agree_of_masked_eq`: Options that are the same behind the mask
  differ in the echo reply only.
-/

namespace ReceiveOffload

namespace TcpOptions

open Octets

/-- A timestamp that was found lies among the options, and what was found is
    what stands there. -/
theorem timestampFrom_bounds (position : Nat) (options : Octets) (found : TimestampOption)
    (h : timestampFrom position options = some found) :
    ∃ i, found.position = position + i + 2 ∧ i + 10 ≤ options.length ∧
      options.word32? (i + 2) = some found.value ∧
      options.word32? (i + 6) = some found.echo := by
  fun_induction timestampFrom position options with
  | case1 => cases h
  | case2 => cases h
  | case3 position rest _ ih =>
      rcases ih h with ⟨i, hposition, hlength, hvalue, hecho⟩
      refine ⟨i + 1, by omega, by rw [List.length_cons]; omega, ?_, ?_⟩
      · rw [← hvalue]
        exact word32?_cons noOperation rest (i + 2)
      · rw [← hecho]
        exact word32?_cons noOperation rest (i + 6)
  | case4 => cases h
  | case5 => cases h
  | case6 position kind rest _ _ length hhead hfits hstamp =>
      have hlength := hstamp.2
      simp only [timestampLength] at hlength
      simp only [Option.bind_eq_bind, Option.bind_eq_some_iff, Option.pure_def,
        Option.some.injEq] at h
      rcases h with ⟨value, hv, echo, he, rfl⟩
      -- This option is the timestamp, and its fields are where the walk stands.
      refine ⟨0, rfl, by rw [List.length_cons]; omega, ?_, ?_⟩
      · exact (word32?_cons kind rest 1).trans hv
      · exact (word32?_cons kind rest 5).trans he
  | case7 position kind rest _ _ length hhead hfits _ ih =>
      rcases ih h with ⟨i, hposition, hlength, hvalue, hecho⟩
      rw [List.length_drop] at hlength
      -- What is read behind the skipped option is read further on in the whole.
      have hskip : ∀ k, word32? (kind :: rest) (length.toNat - 1 + k + 1)
          = word32? (rest.drop (length.toNat - 1)) k := by
        intro k
        rw [word32?_cons, word32?_drop]
      refine ⟨length.toNat + i, by omega, by rw [List.length_cons]; omega, ?_, ?_⟩
      · rw [← hvalue, ← hskip]
        congr 1
        omega
      · rw [← hecho, ← hskip]
        congr 1
        omega

/-- The walk finds a timestamp from the octets before its echo reply. Options
    of the same length that are the same up to there have the same timestamp,
    with whatever echo reply stands in them. -/
theorem timestampFrom_of_prefix (position : Nat) (options options' : Octets)
    (found : TimestampOption) (h : timestampFrom position options = some found)
    (hlen : options'.length = options.length)
    (hsame : ∀ j, position + j < found.position + 4 → options'[j]? = options[j]?) :
    ∃ echo, timestampFrom position options' = some { found with echo } := by
  -- Whatever option the walk stands at, its kind and length come before the
  -- echoed octets, so `hsame` covers them. That is kept as the walk moves on.
  have hstart : position + 2 ≤ found.position := by
    rcases timestampFrom_bounds position options found h with ⟨i, hposition, _⟩
    omega
  fun_induction timestampFrom position options generalizing options' with
  | case1 => cases h
  | case2 => cases h
  | case3 position rest hend ih =>
      rcases options' with _ | ⟨kind', rest'⟩
      · cases hlen
      have hkind : kind' = noOperation := Option.some.inj (hsame 0 (by omega))
      rcases timestampFrom_bounds _ _ _ h with ⟨i, hposition, _⟩
      rcases ih rest' h (Nat.succ.inj hlen) (fun j hj => hsame (j + 1) (by omega)) (by omega)
        with ⟨echo, hwalk⟩
      exact ⟨echo, by rw [timestampFrom, hkind, if_neg hend, if_pos rfl, hwalk]⟩
  | case4 => cases h
  | case5 => cases h
  | case6 position kind rest hend hnop length hhead hfits hstamp =>
      rcases options' with _ | ⟨kind', rest'⟩
      · cases hlen
      have hlen' : rest'.length = rest.length := Nat.succ.inj hlen
      have hlength := hstamp.2
      simp only [timestampLength] at hlength
      simp only [Option.bind_eq_bind, Option.bind_eq_some_iff, Option.pure_def,
        Option.some.injEq] at h
      rcases h with ⟨value, hv, echo, he, rfl⟩
      simp only at hsame
      -- Kind, length and value are the same. The echo can be read, and that is
      -- all that is known of it.
      have hkind : kind' = kind := Option.some.inj (hsame 0 (by omega))
      have hhead' : rest'.head? = some length := by
        rw [← hhead, List.head?_eq_getElem?, List.head?_eq_getElem?]
        exact hsame 1 (by omega)
      have hv' : word32? rest' 1 = some value := by
        rw [← hv]
        exact word32?_of_agreeOn rest rest' 1 (fun j _ hj => hsame (j + 1) (by omega))
      rcases exists_word32? rest' 5 (by omega) with ⟨echo', he'⟩
      refine ⟨echo', ?_⟩
      rw [timestampFrom, hkind, if_neg hend, if_neg hnop]
      simp only [hhead', hlen', if_neg hfits, if_pos hstamp, hv', he', Option.bind_eq_bind,
        Option.bind_some, Option.pure_def]
  | case7 position kind rest hend hnop length hhead hfits hstamp ih =>
      rcases options' with _ | ⟨kind', rest'⟩
      · cases hlen
      have hlen' : rest'.length = rest.length := Nat.succ.inj hlen
      rcases timestampFrom_bounds _ _ _ h with ⟨i, hposition, _⟩
      -- The same kind and the same length, so both walks skip as far.
      have hkind : kind' = kind := Option.some.inj (hsame 0 (by omega))
      have hhead' : rest'.head? = some length := by
        rw [← hhead, List.head?_eq_getElem?, List.head?_eq_getElem?]
        exact hsame 1 (by omega)
      rcases ih (rest'.drop (length.toNat - 1)) h
        (by rw [List.length_drop, List.length_drop, hlen'])
        (fun j hj => by
          rw [List.getElem?_drop, List.getElem?_drop]
          exact hsame (length.toNat - 1 + j + 1) (by omega)) (by omega) with ⟨echo, hwalk⟩
      refine ⟨echo, ?_⟩
      rw [timestampFrom, hkind, if_neg hend, if_neg hnop]
      simp only [hhead', hlen', if_neg hfits, if_neg hstamp, hwalk]

/-- The first timestamp lies among the options, and what was found is what
    stands there. -/
theorem timestamp?_bounds (options : Octets) (found : TimestampOption)
    (h : timestamp? options = some found) :
    2 ≤ found.position ∧ found.position + 8 ≤ options.length ∧
      options.word32? found.position = some found.value ∧
      options.word32? (found.position + 4) = some found.echo := by
  rcases timestampFrom_bounds 0 options found h with ⟨i, hposition, hlength, hvalue, hecho⟩
  rw [Nat.zero_add] at hposition
  rw [hposition]
  exact ⟨by omega, by omega, hvalue, hecho⟩

/-- The mask replaces the echo reply. -/
theorem overwrite_masked (options : Octets) (found : TimestampOption)
    (h : timestamp? options = some found) :
    options.overwrite? (found.position + 4) [0, 0, 0, 0] = some (masked options) := by
  have hbounds := (timestamp?_bounds options found h).2.1
  rw [overwrite?, if_pos (by simp only [List.length_cons, List.length_nil]; omega)]
  simp only [masked, h, List.length_cons, List.length_nil]

theorem length_masked (options : Octets) : (masked options).length = options.length := by
  rcases h : timestamp? options with _ | found
  · simp only [masked, h]
  · exact length_overwrite options _ _ _ (overwrite_masked options found h)

/-- The mask leaves every octet outside of the echo reply. -/
theorem getElem?_masked (options : Octets) (found : TimestampOption) (j : Nat)
    (h : timestamp? options = some found)
    (hj : j < found.position + 4 ∨ found.position + 8 ≤ j) :
    (masked options)[j]? = options[j]? := by
  rw [getElem?_overwrite options _ _ _ j (overwrite_masked options found h), if_neg]
  simp only [List.length_cons, List.length_nil]
  omega

/-- Masking changes the echo reply and nothing else that is found. -/
theorem timestamp?_masked (options : Octets) (found : TimestampOption)
    (h : timestamp? options = some found) :
    ∃ echo, timestamp? (masked options) = some { found with echo } :=
  timestampFrom_of_prefix 0 options (masked options) found h (length_masked options)
    (fun j hj => getElem?_masked options found j h (Or.inl (by omega)))

/-- Options that look the same behind the mask have their timestamp in the same
    place, with the same value. -/
theorem timestamp?_of_masked_eq (a b : Octets) (found : TimestampOption)
    (hmask : masked a = masked b) (h : timestamp? b = some found) :
    ∃ echo, timestamp? a = some { found with echo } := by
  rcases timestamp?_masked b found h with ⟨echo, hb⟩
  rcases ha : timestamp? a with _ | found'
  · -- Without a timestamp there is no mask, and `a` would be the masked `b`.
    have hplain : masked a = a := by simp only [masked, ha]
    rw [← hmask, hplain, ha] at hb
    cases hb
  · rcases timestamp?_masked a found' ha with ⟨echo', ha'⟩
    -- The mask is one and the same, and both timestamps are read off it.
    rw [hmask, hb, Option.some.injEq] at ha'
    refine ⟨found'.echo, ?_⟩
    rw [Option.some.injEq]
    cases found
    cases found'
    simp only [TimestampOption.mk.injEq] at ha' ⊢
    exact ⟨ha'.1.symm, ha'.2.1.symm, trivial⟩

/-- Options without a timestamp are not masked. -/
theorem eq_of_masked_eq (a b : Octets) (hmask : masked a = masked b)
    (h : timestamp? a = none) : a = b := by
  rcases hb : timestamp? b with _ | found
  · simpa only [masked, h, hb] using hmask
  · rcases timestamp?_of_masked_eq a b found hmask hb with ⟨echo, ha⟩
    rw [h] at ha
    cases ha

/-- Options that look the same behind the mask differ in the echo reply
    only. -/
theorem agree_of_masked_eq (a b : Octets) (found : TimestampOption)
    (hmask : masked a = masked b) (h : timestamp? b = some found) (j : Nat)
    (hj : j < found.position + 4 ∨ found.position + 8 ≤ j) : a[j]? = b[j]? := by
  rcases timestamp?_of_masked_eq a b found hmask h with ⟨echo, ha⟩
  rw [← getElem?_masked a _ j ha hj, hmask, getElem?_masked b found j h hj]

end TcpOptions

end ReceiveOffload
