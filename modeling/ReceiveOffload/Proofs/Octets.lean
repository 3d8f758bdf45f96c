import ReceiveOffload.Octets

/-!
# Reading and Overwriting Octets

What a read sees of a string that was written to. Every field is a run of
octets at an offset, so two notions are enough. Strings agree on a run when
nothing in it changed, and a string holds a run when those very octets stand
there. A field read looks at its own run and nowhere else, which turns every
question about a header after a change into one about runs that do or do not
meet.

`applyPatches_complete` is the rule for a whole list of patches. If all of them
fit, all are written, what lies outside of every one stays, and as long as no
two of them meet each can be read back. A header is rewritten by such a list,
and the rule replaces a case for every pair of a field and a patch.

## Main definitions

* `Octets.AgreeOn`: Two strings are the same on a run.
* `Octets.HoldsAt`: A string holds the given octets at an offset.
* `Patch.covers`: A patch writes at an offset.

## Theorems

* `Octets.getElem?_overwrite`: What a string holds after a run was replaced.
* `Octets.word16?_of_agreeOn`, `Octets.word32?_of_agreeOn`: A field is the same
  where its run is.
* `Octets.word16?_of_holdsAt`, `Octets.word32?_of_holdsAt`: A field that was
  written is read back.
* `Octets.applyPatches_complete`: What a string holds after patches were
  applied.
-/

namespace ReceiveOffload

/-- A word is put together again from its two octets. -/
theorem word16_ofWord16 (w : UInt16) :
    word16 (UInt8.ofNat (w.toNat / 256)) (UInt8.ofNat w.toNat) = w := by
  -- As numbers this is division with remainder, and the truncations do not bite.
  apply UInt16.toNat_inj.mp
  have hw := w.toNat_lt
  simp only [word16, UInt8.toNat_ofNat', UInt16.toNat_ofNat']
  omega

/-- A long word is put together again from its two words. -/
theorem word32_ofWord32 (w : UInt32) :
    word32 (UInt16.ofNat (w.toNat / 65536)) (UInt16.ofNat w.toNat) = w := by
  apply UInt32.toNat_inj.mp
  have hw := w.toNat_lt
  simp only [word32, UInt16.toNat_ofNat', UInt32.toNat_ofNat']
  omega

namespace Octets

/-- Two strings are the same on the `n` octets from `i` on. -/
def AgreeOn (b b' : Octets) (i n : Nat) : Prop :=
  ∀ j, i ≤ j → j < i + n → b'[j]? = b[j]?

/-- The octets stand in the string from `i` on. -/
def HoldsAt (b : Octets) (i : Nat) (run : Octets) : Prop :=
  ∀ k, k < run.length → b[i + k]? = run[k]?

@[simp] theorem length_ofWord16 (w : UInt16) : (ofWord16 w).length = 2 := rfl

@[simp] theorem length_ofWord32 (w : UInt32) : (ofWord32 w).length = 4 := rfl

theorem word16?_eq_some_iff (b : Octets) (i : Nat) (w : UInt16) :
    b.word16? i = some w ↔
      ∃ high low, b[i]? = some high ∧ b[i + 1]? = some low ∧ word16 high low = w := by
  rcases h0 : b[i]? with _ | high <;> rcases h1 : b[i + 1]? with _ | low <;>
    simp [word16?, h0, h1]

theorem word16?_of_agreeOn (b b' : Octets) (i : Nat) (h : AgreeOn b b' i 2) :
    b'.word16? i = b.word16? i := by
  simp only [word16?, h i (by omega) (by omega), h (i + 1) (by omega) (by omega)]

theorem word32?_of_agreeOn (b b' : Octets) (i : Nat) (h : AgreeOn b b' i 4) :
    b'.word32? i = b.word32? i := by
  have hhigh : b'.word16? i = b.word16? i :=
    word16?_of_agreeOn b b' i (fun j h1 h2 => h j h1 (by omega))
  have hlow : b'.word16? (i + 2) = b.word16? (i + 2) :=
    word16?_of_agreeOn b b' (i + 2) (fun j h1 h2 => h j (by omega) (by omega))
  simp only [word32?, hhigh, hlow]

/-- Runs that follow each other make one run. -/
theorem HoldsAt.append {b run run' : Octets} {i : Nat} (h : HoldsAt b i run)
    (h' : HoldsAt b (i + run.length) run') : HoldsAt b i (run ++ run') := by
  intro k hk
  rw [List.length_append] at hk
  by_cases hlow : k < run.length
  · rw [h k hlow, List.getElem?_append_left hlow]
  · rw [List.getElem?_append_right (by omega), ← h' (k - run.length) (by omega)]
    congr 1
    omega

/-- A run that is made of two holds the one and, behind it, the other. -/
theorem HoldsAt.left {b run run' : Octets} {i : Nat} (h : HoldsAt b i (run ++ run')) :
    HoldsAt b i run := by
  intro k hk
  rw [h k (by rw [List.length_append]; omega), List.getElem?_append_left hk]

theorem HoldsAt.right {b run run' : Octets} {i : Nat} (h : HoldsAt b i (run ++ run')) :
    HoldsAt b (i + run.length) run' := by
  intro k hk
  rw [Nat.add_assoc, h (run.length + k) (by rw [List.length_append]; omega),
    List.getElem?_append_right (Nat.le_add_right _ _), Nat.add_sub_cancel_left]

/-- A run that stands in a string lies inside it. -/
theorem HoldsAt.le_length {b run : Octets} {i : Nat} (h : HoldsAt b i run)
    (hsome : 0 < run.length) : i + run.length ≤ b.length := by
  have hlast := h (run.length - 1) (by omega)
  rw [List.getElem?_eq_getElem (show run.length - 1 < run.length by omega)] at hlast
  have hin := (List.getElem?_eq_some_iff.mp hlast).1
  omega

theorem word16?_of_holdsAt (b : Octets) (i : Nat) (w : UInt16) (h : HoldsAt b i (ofWord16 w)) :
    b.word16? i = some w := by
  have h0 := h 0 (by simp)
  have h1 := h 1 (by simp)
  rw [word16?_eq_some_iff]
  exact ⟨_, _, h0, h1, word16_ofWord16 w⟩

theorem word32?_of_holdsAt (b : Octets) (i : Nat) (w : UInt32) (h : HoldsAt b i (ofWord32 w)) :
    b.word32? i = some w := by
  -- The two halves stand next to each other, each as it would be written alone.
  have hhigh := word16?_of_holdsAt b i _ h.left
  have hlow := word16?_of_holdsAt b (i + 2) _ h.right
  simp only [word32?, hhigh, hlow, Option.pure_def, Option.bind_eq_bind, Option.bind_some,
    word32_ofWord32]

theorem holdsAt_of_word16? (b : Octets) (i : Nat) (w : UInt16) (h : b.word16? i = some w) :
    HoldsAt b i (ofWord16 w) := by
  rcases (word16?_eq_some_iff b i w).mp h with ⟨high, low, hhigh, hlow, rfl⟩
  -- Both ways of taking a word apart give the octets that it was made of.
  have hoctets : ofWord16 (word16 high low) = [high, low] := by
    have hh := high.toNat_lt
    have hl := low.toNat_lt
    simp only [ofWord16, List.cons.injEq, ← UInt8.toNat_inj, word16, UInt8.toNat_ofNat',
      UInt16.toNat_ofNat', and_true]
    omega
  rw [hoctets]
  intro k hk
  rcases k with _ | _ | k
  · exact hhigh
  · exact hlow
  · simp only [List.length_cons, List.length_nil] at hk
    omega

/-- Strings that hold one run have the same octets there. -/
theorem HoldsAt.getElem?_eq {b b' run : Octets} {i i' : Nat} (h : HoldsAt b i run)
    (h' : HoldsAt b' i' run) (k : Nat) (hk : k < run.length) : b[i + k]? = b'[i' + k]? :=
  (h k hk).trans (h' k hk).symm

/-- A run that stands in a string is cut out of it. -/
theorem HoldsAt.take_drop {b run : Octets} {i : Nat} (h : HoldsAt b i run) :
    (b.drop i).take run.length = run := by
  refine List.ext_getElem? (fun k => ?_)
  by_cases hk : k < run.length
  · rw [List.getElem?_take_of_lt hk, List.getElem?_drop, h k hk]
  · rw [List.getElem?_take_eq_none (by omega), List.getElem?_eq_none (by omega)]

/-- A field that was read stands there as it would be written. -/
theorem holdsAt_of_word32? (b : Octets) (i : Nat) (w : UInt32) (h : b.word32? i = some w) :
    HoldsAt b i (ofWord32 w) := by
  rcases hhigh : b.word16? i with _ | high
  · simp [word32?, hhigh] at h
  rcases hlow : b.word16? (i + 2) with _ | low
  · simp [word32?, hhigh, hlow] at h
  simp only [word32?, hhigh, hlow, Option.pure_def, Option.bind_eq_bind, Option.bind_some,
    Option.some.injEq] at h
  subst h
  have hh := high.toNat_lt
  have hl := low.toNat_lt
  have hw : (word32 high low).toNat = high.toNat * 65536 + low.toNat := by
    simp only [word32, UInt32.toNat_ofNat']
    omega
  -- The two halves come out again, since neither reaches beyond sixteen bits.
  have hfirst : UInt16.ofNat ((word32 high low).toNat / 65536) = high := by
    apply UInt16.toNat_inj.mp
    simp only [hw, UInt16.toNat_ofNat']
    omega
  have hsecond : UInt16.ofNat (word32 high low).toNat = low := by
    apply UInt16.toNat_inj.mp
    simp only [hw, UInt16.toNat_ofNat']
    omega
  rw [ofWord32, hfirst, hsecond]
  exact (holdsAt_of_word16? b i high hhigh).append (holdsAt_of_word16? b (i + 2) low hlow)

/-- A field that can be read lies inside the string. -/
theorem le_length_of_word16? (b : Octets) (i : Nat) (w : UInt16) (h : b.word16? i = some w) :
    i + 2 ≤ b.length := by
  rcases (word16?_eq_some_iff b i w).mp h with ⟨_, low, _, hlow, _⟩
  have hlt := (List.getElem?_eq_some_iff.mp hlow).1
  omega

/-- An octet or a field that lies inside the string can be read. -/
theorem exists_octet? (b : Octets) (i : Nat) (h : i < b.length) :
    ∃ octet, b.octet? i = some octet :=
  ⟨b[i], List.getElem?_eq_getElem h⟩

/-- A word that lies within the octets can be read. -/
theorem exists_word16? (b : Octets) (i : Nat) (h : i + 2 ≤ b.length) :
    ∃ w, b.word16? i = some w := by
  refine ⟨_, (word16?_eq_some_iff b i _).mpr ⟨b[i], b[i + 1], ?_, ?_, rfl⟩⟩
  · exact List.getElem?_eq_getElem (by omega)
  · exact List.getElem?_eq_getElem (by omega)

/-- A long word that lies within the octets can be read. -/
theorem exists_word32? (b : Octets) (i : Nat) (h : i + 4 ≤ b.length) :
    ∃ w, b.word32? i = some w := by
  rcases exists_word16? b i (by omega) with ⟨high, hhigh⟩
  rcases exists_word16? b (i + 2) (by omega) with ⟨low, hlow⟩
  exact ⟨word32 high low, by
    simp only [word32?, hhigh, hlow, Option.pure_def, Option.bind_eq_bind, Option.bind_some]⟩

/-- Reading behind the first octets is reading further on. -/
theorem word16?_drop (b : Octets) (n i : Nat) : word16? (b.drop n) i = b.word16? (n + i) := by
  simp only [word16?, List.getElem?_drop, Nat.add_assoc]

theorem word32?_drop (b : Octets) (n i : Nat) : word32? (b.drop n) i = b.word32? (n + i) := by
  simp only [word32?, word16?_drop, Nat.add_assoc]

theorem word32?_cons (a : UInt8) (b : Octets) (i : Nat) :
    word32? (a :: b) (i + 1) = b.word32? i := by
  rw [Nat.add_comm, ← word32?_drop]
  rfl

/-- A word is read where it stands. -/
theorem word16?_append (before after : Octets) (w : UInt16) :
    word16? (before ++ (ofWord16 w ++ after)) before.length = some w := by
  rw [← Nat.add_zero before.length, ← word16?_drop, List.drop_left]
  show some (word16 _ _) = _
  rw [word16_ofWord16]

/-- The octets before an end agree with the whole string. -/
theorem agreeOn_take (b : Octets) (e i n : Nat) (h : i + n ≤ e) : AgreeOn b (b.take e) i n := by
  intro j _ hj
  rw [List.getElem?_take_of_lt (by omega)]

/-- A field of the octets between two offsets is a field of the string. -/
theorem word16?_take_drop (b : Octets) (e t i : Nat) (h : t + i + 2 ≤ e) :
    word16? ((b.take e).drop t) i = b.word16? (t + i) := by
  rw [word16?_drop]
  exact word16?_of_agreeOn b (b.take e) (t + i) (agreeOn_take b e (t + i) 2 h)

/-- A long word of a run is one of the whole, as far behind as the run begins. -/
theorem word32?_take_drop (b : Octets) (e t i : Nat) (h : t + i + 4 ≤ e) :
    word32? ((b.take e).drop t) i = b.word32? (t + i) := by
  rw [word32?_drop]
  exact word32?_of_agreeOn b (b.take e) (t + i) (agreeOn_take b e (t + i) 4 h)

theorem getElem?_take_drop (b : Octets) (e t i : Nat) (h : t + i < e) :
    ((b.take e).drop t)[i]? = b[t + i]? := by
  rw [List.getElem?_drop, List.getElem?_take_of_lt h]

/-- The octets behind an agreeing run do not matter to it. -/
theorem agreeOn_append (b tail : Octets) (i n : Nat) (h : i + n ≤ b.length) :
    AgreeOn b (b ++ tail) i n := by
  intro j _ hj
  rw [List.getElem?_append_left (by omega)]

theorem getElem?_overwrite (b b' new : Octets) (i j : Nat) (h : b.overwrite? i new = some b') :
    b'[j]? = if i ≤ j ∧ j < i + new.length then new[j - i]? else b[j]? := by
  unfold overwrite? at h
  by_cases hfit : i + new.length ≤ b.length
  · rw [if_pos hfit, Option.some.injEq] at h
    subst h
    -- The result is what is before the run, the run, and what is behind it.
    have htake : (b.take i).length = i := by
      rw [List.length_take]
      omega
    by_cases hlow : j < i
    · rw [if_neg (by omega), List.append_assoc, List.getElem?_append_left (by omega),
        List.getElem?_take_of_lt hlow]
    · by_cases hhigh : j < i + new.length
      · rw [if_pos ⟨by omega, hhigh⟩, List.append_assoc,
          List.getElem?_append_right (by omega), htake,
          List.getElem?_append_left (by omega)]
      · rw [if_neg (by omega), List.getElem?_append_right
          (by rw [List.length_append]; omega), List.getElem?_drop, List.length_append, htake]
        congr 1
        omega
  · rw [if_neg hfit] at h
    cases h

/-- A word that was written is read back. -/
theorem word16?_of_overwrite (b b' : Octets) (i : Nat) (w : UInt16)
    (h : b.overwrite? i (ofWord16 w) = some b') : b'.word16? i = some w := by
  refine word16?_of_holdsAt _ _ _ (fun k hk => ?_)
  rw [getElem?_overwrite _ _ _ _ _ h, if_pos (by omega), Nat.add_sub_cancel_left]

/-- Overwriting replaces octets and adds none. -/
theorem length_overwrite (b b' new : Octets) (i : Nat) (h : b.overwrite? i new = some b') :
    b'.length = b.length := by
  unfold overwrite? at h
  by_cases hfit : i + new.length ≤ b.length
  · rw [if_pos hfit, Option.some.injEq] at h
    subst h
    simp only [List.length_append, List.length_take, List.length_drop]
    omega
  · rw [if_neg hfit] at h
    cases h

/-- A run that lies within the octets can be overwritten. -/
theorem exists_overwrite (b new : Octets) (i : Nat) (h : i + new.length ≤ b.length) :
    ∃ b', b.overwrite? i new = some b' :=
  ⟨_, if_pos h⟩

/-- A run that was replaced lies inside the string. -/
theorem le_length_of_overwrite (b b' new : Octets) (i : Nat) (h : b.overwrite? i new = some b') :
    i + new.length ≤ b.length := by
  by_cases hfit : i + new.length ≤ b.length
  · exact hfit
  · rw [overwrite?, if_neg hfit] at h
    cases h

/-- A string that holds a run and is otherwise as before is what replacing the run
    gives. -/
theorem overwrite_of_holdsAt (b b' new : Octets) (i : Nat)
    (hin : i + new.length ≤ b.length) (hheld : HoldsAt b' i new)
    (hsame : ∀ j, j < i ∨ i + new.length ≤ j → b'[j]? = b[j]?) :
    b.overwrite? i new = some b' := by
  rcases exists_overwrite b new i hin with ⟨c, hc⟩
  rw [hc, Option.some.injEq]
  refine List.ext_getElem? (fun j => ?_)
  rw [getElem?_overwrite b c new i j hc]
  by_cases hj : i ≤ j ∧ j < i + new.length
  · rw [if_pos hj, ← hheld (j - i) (by omega), Nat.add_sub_cancel' hj.1]
  · rw [if_neg hj, hsame j (by omega)]

/-- Of two replacements of one run, only the later one shows. -/
theorem overwrite_overwrite (b b' new new' : Octets) (i : Nat)
    (h : b.overwrite? i new = some b') (hlen : new'.length = new.length) :
    b'.overwrite? i new' = b.overwrite? i new' := by
  have hb' := length_overwrite b b' new i h
  by_cases hfit : i + new'.length ≤ b.length
  · rcases exists_overwrite b new' i hfit with ⟨c, hc⟩
    rcases exists_overwrite b' new' i (by omega) with ⟨c', hc'⟩
    rw [hc, hc', Option.some.injEq]
    -- Inside of the run both have the later octets, outside of it those of `b`.
    ext j : 1
    rw [getElem?_overwrite b' c' new' i j hc', getElem?_overwrite b c new' i j hc,
      getElem?_overwrite b b' new i j h, hlen]
    by_cases hj : i ≤ j ∧ j < i + new.length
    · rw [if_pos hj, if_pos hj]
    · rw [if_neg hj, if_neg hj, if_neg hj]
  · rw [overwrite?, overwrite?, if_neg (by omega), if_neg hfit]

/-- Replacing a word by itself changes nothing. -/
theorem overwrite_self (b : Octets) (i : Nat) (w : UInt16) (h : b.word16? i = some w) :
    b.overwrite? i (ofWord16 w) = some b :=
  overwrite_of_holdsAt b b (ofWord16 w) i (le_length_of_word16? b i w h)
    (holdsAt_of_word16? b i w h) (fun _ _ => rfl)

/-- Replacing a run of the octets between two offsets is replacing it in the
    string. -/
theorem overwrite_take_drop (b b' new : Octets) (e t i : Nat)
    (h : b.overwrite? (t + i) new = some b') (hin : t + i + new.length ≤ e) :
    overwrite? ((b.take e).drop t) i new = some ((b'.take e).drop t) := by
  have hroom := le_length_of_overwrite b b' new (t + i) h
  rcases exists_overwrite ((b.take e).drop t) new i
    (by simp only [List.length_drop, List.length_take]; omega) with ⟨c, hc⟩
  rw [hc, Option.some.injEq]
  ext j : 1
  rw [getElem?_overwrite _ _ _ _ _ hc, List.getElem?_drop, List.getElem?_drop]
  by_cases hj : t + j < e
  · rw [List.getElem?_take_of_lt hj, List.getElem?_take_of_lt hj,
      getElem?_overwrite _ _ _ _ _ h, Nat.add_sub_add_left]
    by_cases hrun : i ≤ j ∧ j < i + new.length
    · rw [if_pos hrun, if_pos (by omega)]
    · rw [if_neg hrun, if_neg (by omega)]
  · rw [List.getElem?_take, List.getElem?_take, if_neg hj, if_neg hj, if_neg (by omega)]

end Octets

/-- The patch writes the octet at an offset. -/
def Patch.covers (p : Patch) (j : Nat) : Prop :=
  p.offset ≤ j ∧ j < p.offset + p.octets.length

/-- Two patches have no octet in common. -/
def Patch.Apart (p q : Patch) : Prop :=
  p.offset + p.octets.length ≤ q.offset ∨ q.offset + q.octets.length ≤ p.offset

namespace Octets

theorem length_applyPatches (b : Octets) (ps : List Patch) :
    (b.applyPatches ps).octets.length = b.length := by
  induction ps generalizing b with
  | nil => rfl
  | cons p rest ih =>
      rw [applyPatches]
      rcases hp : b.overwrite? p.offset p.octets with _ | c
      · rfl
      · exact (ih c).trans (length_overwrite b c _ _ hp)

theorem overwrite_of_applyPatches {b b' new : Octets} {i : Nat}
    (h : b.applyPatches [⟨i, new⟩] = ⟨b', true⟩) : b.overwrite? i new = some b' := by
  simp only [applyPatches] at h
  split at h
  · rename_i written hwritten
    rw [Written.mk.injEq] at h
    rw [hwritten, h.1]
  · cases h

/-- Patches that follow others start from what these left. -/
theorem applyPatches_append (b b' : Octets) (ps qs : List Patch)
    (h : b.applyPatches ps = ⟨b', true⟩) : b.applyPatches (ps ++ qs) = b'.applyPatches qs := by
  induction ps generalizing b with
  | nil =>
      simp only [applyPatches, Written.mk.injEq, and_true] at h
      rw [List.nil_append, h]
  | cons p rest ih =>
      rw [applyPatches] at h
      rcases hp : b.overwrite? p.offset p.octets with _ | c
      · simp [hp] at h
      · simp only [hp] at h
        simp only [List.cons_append, applyPatches, hp]
        exact ih c h

/-- What a string holds after patches were applied that all fit. What lies
    outside of them stays. If no two of them meet, each can be read back. -/
theorem applyPatches_complete (b : Octets) (ps : List Patch)
    (hfit : ∀ p ∈ ps, p.offset + p.octets.length ≤ b.length) (hapart : ps.Pairwise Patch.Apart) :
    ∃ b', b.applyPatches ps = ⟨b', true⟩ ∧ b'.length = b.length ∧
      (∀ j, (∀ p ∈ ps, ¬ p.covers j) → b'[j]? = b[j]?) ∧
      (∀ p ∈ ps, HoldsAt b' p.offset p.octets) := by
  -- By induction on the patches: the first one is written, and the rest are applied to what it
  -- leaves.
  induction ps generalizing b with
  | nil => exact ⟨b, rfl, rfl, fun _ _ => rfl, fun p hp => absurd hp List.not_mem_nil⟩
  | cons p rest ih =>
      rcases exists_overwrite b p.octets p.offset (hfit p List.mem_cons_self) with ⟨c, hc⟩
      have hlen := length_overwrite b c p.octets p.offset hc
      rcases List.pairwise_cons.mp hapart with ⟨hhead, htail⟩
      rcases ih c (fun q hq => by rw [hlen]; exact hfit q (List.mem_cons_of_mem p hq)) htail with
        ⟨b', happly, hlen', hout, hin⟩
      refine ⟨b', ?_, hlen'.trans hlen, ?_, ?_⟩
      · simp only [applyPatches, hc, happly]
      · -- Outside of all patches: neither the rest nor the first one writes there.
        intro j hj
        rw [hout j (fun q hq => hj q (List.mem_cons_of_mem p hq)),
          getElem?_overwrite b c p.octets p.offset j hc]
        exact if_neg (hj p List.mem_cons_self)
      · intro q hq
        rcases List.mem_cons.mp hq with rfl | hq
        · -- The later patches are all apart from this one.
          intro k hk
          rw [hout (q.offset + k), getElem?_overwrite b c q.octets q.offset _ hc,
            if_pos ⟨by omega, by omega⟩, Nat.add_sub_cancel_left]
          intro r hr hcov
          have hqr := hhead r hr
          unfold Patch.Apart at hqr
          unfold Patch.covers at hcov
          omega
        · exact hin q hq

end Octets

end ReceiveOffload
