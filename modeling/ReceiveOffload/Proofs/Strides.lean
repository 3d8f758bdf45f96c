import Mathlib.Data.Nat.Find
import Mathlib.Logic.Relation
import ReceiveOffload.Proofs.Guards

/-!
# Strides through Options

Whoever sends a segment says how far the walk through its options goes at a time. Every
option but the shortest has an octet for its own length, and the next one is looked for
that much further on. A length that counts too little could keep the walk where it is,
one that counts too much could lead it out of the options, and the two words of a
timestamp are read on the strength of a length alone.

`stride` is what happens between two looks at the next option, with a guard on every
read, and `walkFor` makes so many strides and no more. Both are there to be counted:
a stride leads on by an octet at least, so the walk is over after one stride more than
there are octets, and no guard ever fails on the way.

What the walk is for is said without it. An option spans the octets from its kind to the
next option, and that is a relation of indexes which does not know what is looked for.
It leads on from a timestamp as from any other option, to further timestamps and to
faults. The walk finds the first of all timestamps that the relation leads to, wherever
it would go from there. `stride_cases` is what one stride has to do with that, and
`foundFrom_eq_some_iff` is the induction over all of them.

## Main definitions

* `TcpOptions.stride`, `TcpOptions.walkFor`: One stride of the walk, and several.
* `TcpOptions.Spans`, `TcpOptions.Leads`: From where to where one option goes, and several.
* `TcpOptions.StampAt`: An option has the kind and the length of a timestamp.
* `TcpOptions.FirstFrom`: The first timestamp that the options lead to.

## Theorems

* `TcpOptions.stride_cases`: What a stride comes to.
* `TcpOptions.walkFor_eq`: After enough strides the walk is over.
* `TcpOptions.foundFrom_eq_some_iff`: It has found the first timestamp, if any.
* `TcpOptions.FirstFrom.of_agreeOn`: What follows a timestamp does not matter to it.
* `walk_finds_first`: All of this, of all strings of octets.
-/

namespace ReceiveOffload

open Octets

namespace TcpOptions

/-- What a stride comes to: the walk goes on at an index, or has ended with a timestamp or
    without one. -/
inductive Stride where
  | onwards (i : Nat)
  | ended (found : Option TimestampOption)
  deriving DecidableEq, Repr

/-- One stride of the walk from the index `i`, with a guard on every read and every run. -/
def stride (options : Octets) (i : Nat) : Except Failure Stride :=
  if i < options.length then
    match options.octet? i with
    | none => .error .outOfBounds
    | some kind =>
      if kind = endOfOptions then .ok (.ended none)
      else if kind = noOperation then .ok (.onwards (i + 1))
      else
        match options.octet? (i + 1) with
        | none => .ok (.ended none)
        | some length =>
          if length.toNat < 2 ∨ options.length < i + length.toNat then .ok (.ended none)
          else if kind = timestampKind ∧ length.toNat = timestampLength then do
            let fromValue ← options.between (i + 2) options.length
            let value ← within (fromValue.word32? 0)
            let fromEcho ← options.between (i + 6) options.length
            let echo ← within (fromEcho.word32? 0)
            return .ended (some ⟨i + 2, value, echo⟩)
          else .ok (.onwards (i + length.toNat))
  else .ok (.ended none)

/-- So many strides from the index `i` and no more. `none` is a walk that is not over
    then. -/
def walkFor (options : Octets) :
    (strides i : Nat) → Except Failure (Option (Option TimestampOption))
  | 0, _ => .ok none
  | strides + 1, i =>
    stride options i >>= fun
      | .onwards j => walkFor options strides j
      | .ended found => .ok (some found)

/-- An option spans the octets from `i` to `j`. A no-operation is one octet, and every
    other option but the end marker is as long as its length says, which counts the kind
    and the length themselves and nothing beyond the end. -/
inductive Spans (options : Octets) (i : Nat) : Nat → Prop where
  | noOperation (kind_at : options[i]? = some 1) : Spans options i (i + 1)
  | sized (kind length : UInt8) (kind_at : options[i]? = some kind)
      (kind_ne : kind ≠ 0 ∧ kind ≠ 1) (length_at : options[i + 1]? = some length)
      (two_le : 2 ≤ length.toNat) (inside : i + length.toNat ≤ options.length) :
      Spans options i (i + length.toNat)

/-- One option after the other leads from `i` to `j`. -/
def Leads (options : Octets) (i j : Nat) : Prop :=
  Relation.ReflTransGen (Spans options) i j

/-- At `i` there is an option of the kind and the length of a timestamp, and all of it. -/
structure StampAt (options : Octets) (i : Nat) : Prop where
  kind_at : options[i]? = some 8
  length_at : options[i + 1]? = some 10
  inside : i + 10 ≤ options.length

/-- A timestamp is the first that the options lead to from `i`. Its words stand behind its
    kind and its length, the highest octets first. -/
def FirstFrom (options : Octets) (i : Nat) (found : TimestampOption) : Prop :=
  ∃ j, Leads options i j ∧ found.position = j + 2 ∧
    options.HoldsAt j (8 :: 10 :: (ofWord32 found.value ++ ofWord32 found.echo)) ∧
    ∀ k, Leads options i k → StampAt options k → j ≤ k

/-- What the walk finds that starts at the index `i`. -/
def foundFrom (options : Octets) (i : Nat) : Option TimestampOption :=
  timestampFrom i (options.drop i)

variable {options options' : Octets} {i j k : Nat}

theorem Spans.lt (h : Spans options i j) : i < j := by
  cases h with
  | noOperation => exact Nat.lt_add_one i
  | sized kind length _ _ _ two_le _ => omega

theorem Spans.le_length (h : Spans options i j) : j ≤ options.length := by
  cases h with
  | noOperation kind_at => exact (List.getElem?_eq_some_iff.mp kind_at).1
  | sized kind length _ _ _ _ inside => exact inside

/-- An option ends in one place. -/
theorem Spans.unique (h : Spans options i j) (h' : Spans options i k) : j = k := by
  cases h with
  | noOperation kind_at =>
      cases h' with
      | noOperation => rfl
      | sized kind length kind_at' kind_ne =>
          rw [kind_at, Option.some.injEq] at kind_at'
          exact absurd kind_at'.symm kind_ne.2
  | sized kind length kind_at kind_ne length_at =>
      cases h' with
      | noOperation kind_at' =>
          rw [kind_at, Option.some.injEq] at kind_at'
          exact absurd kind_at' kind_ne.2
      | sized kind' length' _ _ length_at' =>
          rw [length_at, Option.some.injEq] at length_at'
          rw [length_at']

theorem Leads.le (h : Leads options i j) : i ≤ j := by
  induction h with
  | refl => exact Nat.le_refl i
  | tail _ hspans ih => exact Nat.le_trans ih (Nat.le_of_lt hspans.lt)

/-- Options lead on through where the first of them ends. -/
theorem Spans.leads_iff (h : Spans options i j) :
    Leads options i k ↔ k = i ∨ Leads options j k := by
  constructor
  · intro hleads
    rcases Relation.ReflTransGen.cases_head hleads with heq | ⟨j', hspans, hrest⟩
    · exact Or.inl heq.symm
    · exact Or.inr (h.unique hspans ▸ hrest)
  · rintro (rfl | hrest)
    · exact .refl
    · exact .head h hrest

/-- Where no option begins, nothing leads on. -/
theorem Leads.eq_of_not_spans (h : Leads options i k) (hnone : ∀ j, ¬ Spans options i j) :
    k = i := by
  rcases Relation.ReflTransGen.cases_head h with heq | ⟨j, hspans, _⟩
  · exact heq.symm
  · exact absurd hspans (hnone j)

/-- A timestamp is an option. -/
theorem StampAt.spans (h : StampAt options i) : Spans options i (i + 10) :=
  .sized 8 10 h.kind_at (by decide) h.length_at (by decide) h.inside

/-- An option of the kind and the length of a timestamp has two words. -/
theorem StampAt.exists_words (h : StampAt options i) :
    ∃ value echo, options.HoldsAt i (8 :: 10 :: (ofWord32 value ++ ofWord32 echo)) := by
  have hinside := h.inside
  rcases exists_word32? options (i + 2) (by omega) with ⟨value, hvalue⟩
  rcases exists_word32? options (i + 6) (by omega) with ⟨echo, hecho⟩
  have hstart : options.HoldsAt i [8, 10] := by
    intro k hk
    rcases k with _ | _ | k
    · exact h.kind_at
    · exact h.length_at
    · simp only [List.length_cons, List.length_nil] at hk
      omega
  exact ⟨value, echo, hstart.append
    ((holdsAt_of_word32? options (i + 2) value hvalue).append
      (holdsAt_of_word32? options (i + 6) echo hecho))⟩

/-- Where the octets of a timestamp stand there is one, and its words can be read. -/
theorem stampAt_of_holdsAt (value echo : UInt32)
    (h : options.HoldsAt i (8 :: 10 :: (ofWord32 value ++ ofWord32 echo))) :
    StampAt options i ∧ options.word32? (i + 2) = some value ∧
      options.word32? (i + 6) = some echo := by
  have hall : options.HoldsAt i ([8, 10] ++ (ofWord32 value ++ ofWord32 echo)) := h
  have hstart := hall.left
  have hinside := h.le_length (Nat.succ_pos _)
  refine ⟨⟨hstart 0 Nat.zero_lt_two, hstart 1 Nat.one_lt_two, hinside⟩, ?_, ?_⟩
  · exact word32?_of_holdsAt options (i + 2) value hall.right.left
  · exact word32?_of_holdsAt options (i + 6) echo hall.right.right

/-- A stride ends with the timestamp that it is at. -/
theorem stride_of_holdsAt (value echo : UInt32)
    (h : options.HoldsAt i (8 :: 10 :: (ofWord32 value ++ ofWord32 echo))) :
    stride options i = .ok (.ended (some ⟨i + 2, value, echo⟩)) := by
  rcases stampAt_of_holdsAt value echo h with ⟨hstamp, hvalue, hecho⟩
  have hinside := hstamp.inside
  rw [stride, if_pos (by omega), show options.octet? i = some 8 from hstamp.kind_at]
  simp only [if_neg (show ¬ (8 : UInt8) = endOfOptions by decide),
    if_neg (show ¬ (8 : UInt8) = noOperation by decide)]
  rw [show options.octet? (i + 1) = some 10 from hstamp.length_at]
  -- Both words lie in the ten octets that the length counts.
  simp only [UInt8.reduceToNat]
  rw [if_neg (by omega), if_pos ⟨rfl, rfl⟩, between, between, guarded_eq _ _ (by omega),
    guarded_eq _ _ (by omega)]
  simp only [ok_bind, List.take_length, word32?_drop, Nat.add_zero, hvalue, hecho, within]
  rfl

/-- A stride leads on from an option that is no timestamp to where it ends. -/
theorem stride_of_spans (h : Spans options i j) (hstamp : ¬ StampAt options i) :
    stride options i = .ok (.onwards j) := by
  cases h with
  | noOperation kind_at =>
      have hlt := (List.getElem?_eq_some_iff.mp kind_at).1
      rw [stride, if_pos hlt, show options.octet? i = some 1 from kind_at]
      rfl
  | sized kind length kind_at kind_ne length_at two_le inside =>
      have hend : ¬ kind = endOfOptions := kind_ne.1
      have hnop : ¬ kind = noOperation := kind_ne.2
      have hother : ¬ (kind = timestampKind ∧ length.toNat = timestampLength) := by
        rintro ⟨rfl, hlength⟩
        have hten : length = 10 := UInt8.toNat_inj.mp hlength
        subst hten
        exact hstamp ⟨kind_at, length_at, inside⟩
      rw [stride, if_pos (by omega), show options.octet? i = some kind from kind_at]
      simp only [if_neg hend, if_neg hnop]
      rw [show options.octet? (i + 1) = some length from length_at]
      simp only [if_neg hother]
      rw [if_neg (by omega)]

/-- A stride ends with nothing where no option begins. -/
theorem stride_of_not_spans (h : ∀ j, ¬ Spans options i j) :
    stride options i = .ok (.ended none) := by
  unfold stride
  split
  case isFalse => rfl
  case isTrue hlt =>
    rcases exists_octet? options i hlt with ⟨kind, hkind⟩
    simp only [hkind]
    by_cases hend : kind = endOfOptions
    · rw [if_pos hend]
    by_cases hnop : kind = noOperation
    · subst hnop
      exact absurd (.noOperation hkind) (h (i + 1))
    rw [if_neg hend, if_neg hnop]
    rcases hlength : options.octet? (i + 1) with _ | length
    · rfl
    -- Had it room for its length, an option would begin here.
    refine if_pos (Decidable.byContradiction fun hfits => ?_)
    rw [not_or, Nat.not_lt, Nat.not_lt] at hfits
    exact h _ (.sized kind length hkind ⟨hend, hnop⟩ hlength hfits.1 hfits.2)

/-- What a stride comes to. It leads on from an option that is no timestamp, it ends with
    the timestamp that it is at, and it ends with nothing where no option begins. -/
theorem stride_cases (options : Octets) (i : Nat) :
    (∃ j, Spans options i j ∧ ¬ StampAt options i ∧ stride options i = .ok (.onwards j)) ∨
    (∃ value echo, options.HoldsAt i (8 :: 10 :: (ofWord32 value ++ ofWord32 echo)) ∧
      stride options i = .ok (.ended (some ⟨i + 2, value, echo⟩))) ∨
    ((∀ j, ¬ Spans options i j) ∧ stride options i = .ok (.ended none)) := by
  by_cases hstamp : StampAt options i
  · rcases hstamp.exists_words with ⟨value, echo, hwords⟩
    exact Or.inr (Or.inl ⟨value, echo, hwords, stride_of_holdsAt value echo hwords⟩)
  by_cases hspans : ∃ j, Spans options i j
  · rcases hspans with ⟨j, hspans⟩
    exact Or.inl ⟨j, hspans, hstamp, stride_of_spans hspans hstamp⟩
  · rw [not_exists] at hspans
    exact Or.inr (Or.inr ⟨hspans, stride_of_not_spans hspans⟩)

/-- The walk is one stride after the other. -/
theorem walk_stride (options : Octets) (i : Nat) :
    walk options i = stride options i >>= fun
      | .onwards j => walk options j
      | .ended found => .ok found := by
  rw [walk, stride]
  -- Both make the same distinctions, and what they come to is the same each time.
  by_cases hlt : i < options.length
  case neg =>
    rw [if_neg hlt, if_neg hlt]
    rfl
  rw [if_pos hlt, if_pos hlt]
  rcases options.octet? i with _ | kind
  · rfl
  by_cases hend : kind = endOfOptions
  · simp only [if_pos hend]
    rfl
  by_cases hnop : kind = noOperation
  · simp only [if_neg hend, if_pos hnop]
    rfl
  simp only [if_neg hend, if_neg hnop]
  rcases options.octet? (i + 1) with _ | length
  · rfl
  by_cases hbad : length.toNat < 2 ∨ options.length < i + length.toNat
  · simp only [if_pos hbad]
    rfl
  by_cases hstamp : kind = timestampKind ∧ length.toNat = timestampLength
  · simp only [if_neg hbad, if_pos hstamp, bind_assoc, pure_bind]
    rfl
  · simp only [if_neg hbad, if_neg hstamp]
    rfl

/-- What is found from an index, by what a stride from there comes to. -/
theorem foundFrom_eq (hi : i ≤ options.length) :
    .ok (foundFrom options i) = stride options i >>= fun
      | .onwards j => walk options j
      | .ended found => .ok found := by
  rw [← walk_stride, walk_eq options i hi, foundFrom]

theorem foundFrom_of_spans (h : Spans options i j) (hstamp : ¬ StampAt options i) :
    foundFrom options i = foundFrom options j := by
  have hle := h.le_length
  have hlt := h.lt
  have hfound := foundFrom_eq (show i ≤ options.length by omega)
  rw [stride_of_spans h hstamp, ok_bind] at hfound
  exact Except.ok.inj (hfound.trans (walk_eq options j hle))

theorem foundFrom_of_ended (hi : i ≤ options.length) (found : Option TimestampOption)
    (h : stride options i = .ok (.ended found)) : foundFrom options i = found := by
  have hfound := foundFrom_eq hi
  rw [h, ok_bind] at hfound
  exact Except.ok.inj hfound

/-- The walk is over after one stride more than there are octets left, since each of the
    others leads on. -/
theorem walkFor_eq (strides : Nat) (hi : i ≤ options.length)
    (h : options.length < i + strides) :
    walkFor options strides i = .ok (some (foundFrom options i)) := by
  induction strides generalizing i with
  | zero => omega
  | succ strides ih =>
      rw [walkFor]
      rcases stride_cases options i with
        ⟨j, hspans, hstamp, hstride⟩ | ⟨value, echo, _, hstride⟩ | ⟨_, hstride⟩
      · have hlt := hspans.lt
        rw [hstride, ok_bind, foundFrom_of_spans hspans hstamp]
        exact ih hspans.le_length (by omega)
      · rw [hstride, ok_bind, foundFrom_of_ended hi _ hstride]
      · rw [hstride, ok_bind, foundFrom_of_ended hi _ hstride]

/-- From an option that is no timestamp the first timestamp is the first from where it
    ends. -/
theorem Spans.firstFrom_iff (h : Spans options i j) (hstamp : ¬ StampAt options i)
    (found : TimestampOption) : FirstFrom options i found ↔ FirstFrom options j found := by
  constructor
  · rintro ⟨k, hleads, hposition, hwords, hfirst⟩
    rcases h.leads_iff.mp hleads with rfl | hrest
    · exact absurd (stampAt_of_holdsAt _ _ hwords).1 hstamp
    · exact ⟨k, hrest, hposition, hwords,
        fun k' hleads' => hfirst k' (h.leads_iff.mpr (Or.inr hleads'))⟩
  · rintro ⟨k, hleads, hposition, hwords, hfirst⟩
    refine ⟨k, h.leads_iff.mpr (Or.inr hleads), hposition, hwords, fun k' hleads' hstamp' => ?_⟩
    rcases h.leads_iff.mp hleads' with rfl | hrest
    · exact absurd hstamp' hstamp
    · exact hfirst k' hrest hstamp'

/-- A timestamp is the first from where it is. -/
theorem firstFrom_of_holdsAt (value echo : UInt32)
    (h : options.HoldsAt i (8 :: 10 :: (ofWord32 value ++ ofWord32 echo)))
    (found : TimestampOption) : FirstFrom options i found ↔ ⟨i + 2, value, echo⟩ = found := by
  rcases stampAt_of_holdsAt value echo h with ⟨hstamp, hvalue, hecho⟩
  constructor
  · rintro ⟨j, hleads, hposition, hwords, hfirst⟩
    obtain rfl : i = j := Nat.le_antisymm hleads.le (hfirst i .refl hstamp)
    rcases stampAt_of_holdsAt _ _ hwords with ⟨_, hvalue', hecho'⟩
    rw [hvalue, Option.some.injEq] at hvalue'
    rw [hecho, Option.some.injEq] at hecho'
    rw [hvalue', hecho', ← hposition]
  · rintro rfl
    exact ⟨i, .refl, rfl, h, fun k hleads _ => hleads.le⟩

/-- The walk finds the first timestamp that the options lead to. -/
theorem foundFrom_eq_some_iff (hi : i ≤ options.length) (found : TimestampOption) :
    foundFrom options i = some found ↔ FirstFrom options i found := by
  -- Every stride leaves fewer octets behind the index.
  induction hn : options.length - i using Nat.strongRecOn generalizing i with
  | ind n ih =>
      rcases stride_cases options i with
        ⟨j, hspans, hstamp, _⟩ | ⟨value, echo, hwords, hstride⟩ | ⟨hnone, hstride⟩
      · have hlt := hspans.lt
        have hle := hspans.le_length
        rw [foundFrom_of_spans hspans hstamp, hspans.firstFrom_iff hstamp]
        exact ih _ (by omega) hle rfl
      · rw [foundFrom_of_ended hi _ hstride, Option.some.injEq,
          firstFrom_of_holdsAt value echo hwords]
      · rw [foundFrom_of_ended hi _ hstride]
        refine iff_of_false (by simp only [reduceCtorEq, not_false_eq_true]) ?_
        rintro ⟨j, hleads, _, hwords, _⟩
        have hspans := (stampAt_of_holdsAt _ _ hwords).1.spans
        rw [hleads.eq_of_not_spans hnone] at hspans
        exact hnone _ hspans

/-- If the options lead to a timestamp at all, they lead to a first one. -/
theorem exists_firstFrom_iff :
    (∃ found, FirstFrom options i found) ↔ ∃ j, Leads options i j ∧ StampAt options j := by
  constructor
  · rintro ⟨found, j, hleads, _, hwords, _⟩
    exact ⟨j, hleads, (stampAt_of_holdsAt _ _ hwords).1⟩
  · intro hstamps
    classical
    have hleast := Nat.find_spec hstamps
    rcases hleast.2.exists_words with ⟨value, echo, hwords⟩
    exact ⟨⟨Nat.find hstamps + 2, value, echo⟩, Nat.find hstamps, hleast.1, rfl, hwords,
      fun k hleads hstamp => Nat.find_min' hstamps ⟨hleads, hstamp⟩⟩

/-- Options that are the same up to some point have the same options before it. -/
theorem Spans.of_agreeOn {n : Nat} (h : Spans options i j) (hj : j ≤ n)
    (hn : n ≤ options'.length) (hsame : options.AgreeOn options' 0 n) : Spans options' i j := by
  have hlt := h.lt
  cases h with
  | noOperation kind_at =>
      exact .noOperation ((hsame i (Nat.zero_le i) (by omega)).trans kind_at)
  | sized kind length kind_at kind_ne length_at two_le inside =>
      exact .sized kind length ((hsame i (Nat.zero_le i) (by omega)).trans kind_at) kind_ne
        ((hsame (i + 1) (Nat.zero_le _) (by omega)).trans length_at) two_le (by omega)

theorem Leads.of_agreeOn {n : Nat} (h : Leads options i j) (hj : j ≤ n)
    (hn : n ≤ options'.length) (hsame : options.AgreeOn options' 0 n) : Leads options' i j := by
  induction h with
  | refl => exact .refl
  | tail _ hspans ih =>
      have hlt := hspans.lt
      exact .tail (ih (by omega)) (hspans.of_agreeOn hj hn hsame)

/-- What follows the first timestamp does not matter to it. -/
theorem FirstFrom.of_agreeOn {found : TimestampOption} (h : FirstFrom options i found)
    (hlength : found.position + 8 ≤ options'.length)
    (hsame : options.AgreeOn options' 0 (found.position + 8)) : FirstFrom options' i found := by
  rcases h with ⟨j, hleads, hposition, hwords, hfirst⟩
  have hinside := (stampAt_of_holdsAt _ _ hwords).1.inside
  have hback : options'.AgreeOn options 0 (found.position + 8) :=
    fun k hlow hhigh => (hsame k hlow hhigh).symm
  refine ⟨j, hleads.of_agreeOn (by omega) hlength hsame, hposition, fun k hk => ?_,
    fun k hleads' hstamp => ?_⟩
  · have hten : k < 10 := hk
    exact (hsame (j + k) (Nat.zero_le _) (by omega)).trans (hwords k hk)
  · -- A timestamp before it would have been the first one already.
    rcases Nat.lt_or_ge k j with hbefore | hle
    · exact hfirst k
        (hleads'.of_agreeOn (by omega) (show found.position + 8 ≤ options.length by omega) hback)
        ⟨(hback k (Nat.zero_le _) (by omega)).trans hstamp.kind_at,
          (hback (k + 1) (Nat.zero_le _) (by omega)).trans hstamp.length_at, by omega⟩
    · exact hle

/-- The walk finds the first timestamp of all that the options lead to. -/
theorem timestamp?_eq_some_iff (options : Octets) (found : TimestampOption) :
    timestamp? options = some found ↔ FirstFrom options 0 found :=
  foundFrom_eq_some_iff (Nat.zero_le _) found

/-- The timestamp that was found is found again before other octets than those that
    followed it. -/
theorem timestamp?_take_append (options tail : Octets) (found : TimestampOption)
    (h : timestamp? options = some found) :
    timestamp? (options.take (found.position + 8) ++ tail) = some found := by
  have hinside := (timestamp?_bounds options found h).2.1
  rw [timestamp?_eq_some_iff] at h ⊢
  have hlength : (options.take (found.position + 8)).length = found.position + 8 := by
    rw [List.length_take]
    omega
  refine h.of_agreeOn (by rw [List.length_append]; omega) (fun k _ hk => ?_)
  rw [List.getElem?_append_left (by omega), List.getElem?_take_of_lt (by omega)]

end TcpOptions

open TcpOptions in
/-- The walk through options finds the first timestamp among them. It is over after one
    stride more than there are octets, and no read on the way is out of bounds. It finds
    something exactly if the options lead to a timestamp at all, and then it finds the
    first that they lead to, whatever follows it. -/
theorem walk_finds_first (options : Octets) :
    walkFor options (options.length + 1) 0 = .ok (some (timestamp? options)) ∧
      ((timestamp? options).isSome = true ↔ ∃ i, Leads options 0 i ∧ StampAt options i) ∧
      ∀ found, (timestamp? options = some found ↔ FirstFrom options 0 found) ∧
        (timestamp? options = some found →
          ∀ tail, timestamp? (options.take (found.position + 8) ++ tail) = some found) := by
  refine ⟨?_, ?_, fun found => ⟨?_, ?_⟩⟩
  · exact walkFor_eq (options.length + 1) (Nat.zero_le _) (by omega)
  · rw [Option.isSome_iff_exists, ← exists_firstFrom_iff]
    exact exists_congr fun found => timestamp?_eq_some_iff options found
  · exact timestamp?_eq_some_iff options found
  · exact fun h tail => timestamp?_take_append options tail found h

/-- A timestamp behind an option that contains the octets of one and behind one that is too
    short, and in front of another timestamp and of an option that is cut off. -/
def strewnOptions : Octets :=
  [1, 5, 10, 8, 10, 0, 0, 0, 9, 0, 0, 8, 3, 8, 1, 8, 10, 0, 0, 0, 7, 1, 2, 3, 4,
    8, 10, 0, 0, 0, 3, 0, 0, 0, 5, 4, 9]

open TcpOptions in
theorem walk_finds_first_strewn :
    timestamp? strewnOptions = some ⟨17, 7, 0x01020304⟩ ∧
      walkFor strewnOptions 38 0 = .ok (some (some ⟨17, 7, 0x01020304⟩)) ∧
      FirstFrom strewnOptions 0 ⟨17, 7, 0x01020304⟩ ∧
      timestamp? (strewnOptions.take 25 ++ [8, 0]) = some ⟨17, 7, 0x01020304⟩ := by
  have hfound : timestamp? strewnOptions = some ⟨17, 7, 0x01020304⟩ := by decide +kernel
  rcases walk_finds_first strewnOptions with ⟨hwalk, _, hfirst⟩
  have hstamp := hfirst ⟨17, 7, 0x01020304⟩
  rw [hfound] at hwalk
  exact ⟨hfound, hwalk, hstamp.1.mp hfound, hstamp.2 hfound [8, 0]⟩

end ReceiveOffload
