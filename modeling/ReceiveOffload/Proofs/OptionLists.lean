import ReceiveOffload.Proofs.Options

/-!
# Options as Lists

What the octets of TCP options mean. They are a list of options, one after the other,
and behind the list come octets that are no option: nothing at all, an end marker with
whatever follows it, or an option whose length does not add up. An `OptionArea` is such
a list with such a rest, and every string of octets is that of an area.

For the list there is nothing to find by walking. The first timestamp of a list is found
by looking at one option after the other, and the mask sets its echo reply to zero.
`TcpOptions.timestamp?_octets` and `TcpOptions.masked_octets` say that the walk through
the octets comes to the same. Nothing that follows the list has a part in it, be it
malformed or not.

## Main definitions

* `TcpOption`, `TcpOption.octets`: One option, and its octets.
* `TcpOptions.Stops`: Octets that begin with no option.
* `OptionArea`, `OptionArea.octets`: Options and what follows them.
* `TcpOption.firstTimestamp`: The first timestamp of a list.
* `TcpOption.silenced`: A list with the echo reply of its first timestamp zeroed.

## Theorems

* `OptionArea.exists_octets`: Every string of octets is that of an area.
* `TcpOptions.timestamp?_octets`: The timestamp found is the first of the list.
* `TcpOptions.masked_octets`: The mask zeroes the echo reply of that timestamp.
-/

namespace ReceiveOffload

open Octets

/-- One option of a TCP header. The one that ends the options is none of them. -/
inductive TcpOption where
  | noOperation
  | timestamp (value echo : UInt32)
  /-- Any other option that carries its own length. -/
  | other (kind : UInt8) (data : Octets) (kind_ne : kind ≠ 0 ∧ kind ≠ 1)
      (data_short : data.length ≤ 253) (no_timestamp : ¬ (kind = 8 ∧ data.length = 8))

namespace TcpOption

/-- The octets of an option. All but the shortest begin with their kind and their
    length. -/
def octets : TcpOption → Octets
  | noOperation => [1]
  | timestamp value echo => 8 :: 10 :: (ofWord32 value ++ ofWord32 echo)
  | other kind data _ _ _ => kind :: UInt8.ofNat (data.length + 2) :: data

/-- The first timestamp of a list of options that starts at `position`. -/
def firstTimestamp (position : Nat) : List TcpOption → Option TimestampOption
  | [] => none
  | timestamp value echo :: _ => some ⟨position + 2, value, echo⟩
  | option :: rest => firstTimestamp (position + option.octets.length) rest

/-- The list with the echo reply of its first timestamp zeroed. -/
def silenced : List TcpOption → List TcpOption
  | [] => []
  | timestamp value _ :: rest => timestamp value 0 :: rest
  | option :: rest => option :: silenced rest

/-- A list with a timestamp is what comes before its first timestamp, the timestamp,
    and what comes behind it. -/
theorem exists_split (position : Nat) (l : List TcpOption) (found : TimestampOption)
    (h : firstTimestamp position l = some found) :
    ∃ before after, l = before ++ timestamp found.value found.echo :: after ∧
      found.position = position + (before.flatMap octets).length + 2 ∧
      silenced l = before ++ timestamp found.value 0 :: after := by
  induction l generalizing position with
  | nil => cases h
  | cons option rest ih =>
      -- Every option but a timestamp joins the ones before the first timestamp.
      have hskip : firstTimestamp (position + option.octets.length) rest = some found →
          silenced (option :: rest) = option :: silenced rest →
          ∃ before after, option :: rest = before ++ timestamp found.value found.echo :: after ∧
            found.position = position + (before.flatMap octets).length + 2 ∧
            silenced (option :: rest) = before ++ timestamp found.value 0 :: after := by
        intro hrest hsilenced
        rcases ih _ hrest with ⟨before, after, hlist, hposition, hsilent⟩
        refine ⟨option :: before, after, by rw [hlist, List.cons_append], ?_,
          by rw [hsilenced, hsilent, List.cons_append]⟩
        rw [hposition, List.flatMap_cons, List.length_append]
        omega
      cases option with
      | noOperation => exact hskip h rfl
      | timestamp value echo =>
          rw [firstTimestamp, Option.some.injEq] at h
          subst h
          exact ⟨[], rest, rfl, by rw [List.flatMap_nil, List.length_nil, Nat.add_zero], rfl⟩
      | other kind data kind_ne data_short no_timestamp => exact hskip h rfl

/-- The two words of a timestamp stand behind its kind and its length. -/
theorem octets_split (before after : List TcpOption) (value echo : UInt32) (rest : Octets) :
    (before ++ timestamp value echo :: after).flatMap octets ++ rest
      = (before.flatMap octets ++ [8, 10])
        ++ (ofWord32 value ++ (ofWord32 echo ++ (after.flatMap octets ++ rest))) := by
  simp only [List.flatMap_append, List.flatMap_cons, octets, List.append_assoc, List.cons_append,
    List.nil_append]

/-- Without a timestamp there is nothing to be zeroed. -/
theorem silenced_eq (position : Nat) (l : List TcpOption)
    (h : firstTimestamp position l = none) : silenced l = l := by
  induction l generalizing position with
  | nil => rfl
  | cons option rest ih =>
      cases option with
      | timestamp value echo => cases h
      | noOperation => rw [silenced, ih _ h]; exact fun _ _ h => TcpOption.noConfusion h
      | other kind data kind_ne data_short no_timestamp =>
          rw [silenced, ih _ h]
          exact fun _ _ h => TcpOption.noConfusion h

end TcpOption

namespace TcpOptions

/-- The octets begin with no option: there are none, or they begin with the marker that
    ends the options, or with an option that has no length, a length that does not count
    its own two octets, or one that is longer than what is there. -/
def Stops : Octets → Prop
  | [] => True
  | [kind] => kind ≠ 1
  | kind :: length :: rest =>
    kind = 0 ∨ kind ≠ 1 ∧ (length.toNat < 2 ∨ rest.length + 2 < length.toNat)

/-- What a timestamp consists of is found where the walk meets it. -/
theorem timestampFrom_timestamp (position : Nat) (value echo : UInt32) (rest : Octets) :
    timestampFrom position ((TcpOption.timestamp value echo).octets ++ rest)
      = some ⟨position + 2, value, echo⟩ := by
  have hvalue : word32? (10 :: (ofWord32 value ++ ofWord32 echo) ++ rest) 1 = some value := by
    show some (word32 (word16 _ _) (word16 _ _)) = _
    rw [word16_ofWord16, word16_ofWord16, word32_ofWord32]
  have hecho : word32? (10 :: (ofWord32 value ++ ofWord32 echo) ++ rest) 5 = some echo := by
    show some (word32 (word16 _ _) (word16 _ _)) = _
    rw [word16_ofWord16, word16_ofWord16, word32_ofWord32]
  -- The length counts the ten octets of the option, whatever follows them.
  have hroom : ¬ ((10 : UInt8).toNat < 2 ∨
      (10 :: (ofWord32 value ++ ofWord32 echo) ++ rest).length + 1 < (10 : UInt8).toNat) := by
    simp only [UInt8.reduceToNat, List.length_append, List.length_cons, length_ofWord32]
    omega
  rw [TcpOption.octets, List.cons_append, timestampFrom, if_neg (by decide), if_neg (by decide)]
  simp only [List.cons_append, List.head?_cons] at hvalue hecho hroom ⊢
  rw [if_neg hroom, if_pos ⟨rfl, rfl⟩, hvalue, hecho]
  rfl

/-- The walk goes past an option that is no timestamp. -/
theorem timestampFrom_other (position : Nat) (kind : UInt8) (data rest : Octets)
    (kind_ne : kind ≠ 0 ∧ kind ≠ 1) (data_short : data.length ≤ 253)
    (no_timestamp : ¬ (kind = 8 ∧ data.length = 8)) :
    timestampFrom position (kind :: UInt8.ofNat (data.length + 2) :: (data ++ rest))
      = timestampFrom (position + (data.length + 2)) rest := by
  have hlength : (UInt8.ofNat (data.length + 2)).toNat = data.length + 2 :=
    UInt8.toNat_ofNat_of_lt' (by simp only [UInt8.size]; omega)
  have hstamp : ¬ (kind = timestampKind ∧ data.length + 2 = timestampLength) := by
    rintro ⟨hkind, hlong⟩
    exact no_timestamp ⟨hkind, by simp only [timestampLength] at hlong; omega⟩
  have hend : ¬ kind = endOfOptions := kind_ne.1
  have hnop : ¬ kind = noOperation := kind_ne.2
  rw [timestampFrom, if_neg hend, if_neg hnop]
  simp only [List.head?_cons, hlength, List.length_cons, List.length_append]
  rw [if_neg (by omega), if_neg hstamp, show data.length + 2 - 1 = data.length + 1 by omega,
    List.drop_succ_cons, List.drop_left]

/-- Where no option begins the walk finds nothing. -/
theorem timestampFrom_of_stops (position : Nat) (rest : Octets) (stops : Stops rest) :
    timestampFrom position rest = none := by
  rcases rest with _ | ⟨kind, rest⟩
  · rw [timestampFrom]
  rw [timestampFrom]
  by_cases hend : kind = endOfOptions
  · rw [if_pos hend]
  have hnop : ¬ kind = noOperation := by
    rcases rest with _ | ⟨length, rest⟩
    · exact stops
    · exact (stops.resolve_left hend).1
  rw [if_neg hend, if_neg hnop]
  rcases rest with _ | ⟨length, rest⟩
  · rfl
  · have hlength := (stops.resolve_left hend).2
    simp only [List.head?_cons, List.length_cons]
    rw [if_pos (by omega)]

/-- The walk through the octets of a list finds the first timestamp of the list. -/
theorem timestampFrom_octets (position : Nat) (l : List TcpOption) (rest : Octets)
    (stops : Stops rest) :
    timestampFrom position (l.flatMap TcpOption.octets ++ rest)
      = TcpOption.firstTimestamp position l := by
  -- The walk ends at a timestamp, and passes every other option as a whole.
  induction l generalizing position with
  | nil => exact timestampFrom_of_stops position rest stops
  | cons option more ih =>
      rw [List.flatMap_cons, List.append_assoc]
      cases option with
      | noOperation => exact (timestampFrom.eq_def _ _).trans (ih (position + 1))
      | timestamp value echo => exact timestampFrom_timestamp position value echo _
      | other kind data kind_ne data_short no_timestamp =>
          rw [TcpOption.octets, List.cons_append, List.cons_append,
            timestampFrom_other position kind data _ kind_ne data_short no_timestamp, ih]
          rfl

end TcpOptions

/-- The octets of TCP options: a list of options, and octets behind it that begin with
    none. -/
structure OptionArea where
  options : List TcpOption
  rest : Octets
  stops : TcpOptions.Stops rest

namespace OptionArea

/-- The octets of the area. -/
def octets (area : OptionArea) : Octets :=
  area.options.flatMap TcpOption.octets ++ area.rest

/-- The area with the echo reply of its first timestamp zeroed. -/
def silenced (area : OptionArea) : OptionArea :=
  { area with options := TcpOption.silenced area.options }

/-- An area with one more option before the others. -/
def cons (option : TcpOption) (area : OptionArea) : OptionArea :=
  { area with options := option :: area.options }

theorem octets_cons (option : TcpOption) (area : OptionArea) :
    (cons option area).octets = option.octets ++ area.octets := by
  rw [octets, octets, cons, List.flatMap_cons, List.append_assoc]

/-- An option that carries its own length is one of the two kinds of them. -/
theorem exists_sized (kind : UInt8) (data : Octets) (kind_ne : kind ≠ 0 ∧ kind ≠ 1)
    (data_short : data.length ≤ 253) :
    ∃ option : TcpOption, option.octets = kind :: UInt8.ofNat (data.length + 2) :: data := by
  by_cases hstamp : kind = 8 ∧ data.length = 8
  · rcases hstamp with ⟨rfl, height⟩
    rcases exists_word32? data 0 (by omega) with ⟨value, hvalue⟩
    rcases exists_word32? data 4 (by omega) with ⟨echo, hecho⟩
    have hdata := ((holdsAt_of_word32? data 0 value hvalue).append
      (holdsAt_of_word32? data 4 echo hecho)).take_drop
    rw [List.drop_zero, List.length_append, length_ofWord32, length_ofWord32,
      List.take_of_length_le (by omega)] at hdata
    exact ⟨.timestamp value echo, by rw [TcpOption.octets, ← hdata, height]; rfl⟩
  · exact ⟨.other kind data kind_ne data_short hstamp, rfl⟩

/-- Every string of octets is that of an area. -/
theorem exists_octets (b : Octets) : ∃ area : OptionArea, area.octets = b := by
  induction hn : b.length using Nat.strongRecOn generalizing b with
  | ind n ih =>
      by_cases stops : TcpOptions.Stops b
      · exact ⟨⟨[], b, stops⟩, rfl⟩
      -- Otherwise an option begins there, and what is behind it is shorter.
      rcases b with _ | ⟨kind, rest⟩
      · exact absurd trivial stops
      by_cases hnop : kind = 1
      · rcases ih rest.length (by rw [← hn, List.length_cons]; omega) rest rfl with ⟨area, harea⟩
        exact ⟨area.cons .noOperation, by rw [octets_cons, harea, hnop]; rfl⟩
      rcases rest with _ | ⟨length, rest⟩
      · exact absurd hnop stops
      have hend : kind ≠ 0 := fun hend => stops (Or.inl hend)
      have hfits : ¬ (length.toNat < 2 ∨ rest.length + 2 < length.toNat) :=
        fun hbad => stops (Or.inr ⟨hnop, hbad⟩)
      have hlt := length.toNat_lt
      -- The length says how many octets belong to the option.
      rcases ih (rest.drop (length.toNat - 2)).length
        (by rw [← hn, List.length_drop, List.length_cons, List.length_cons]; omega) _ rfl
        with ⟨area, harea⟩
      have hdata : (rest.take (length.toNat - 2)).length = length.toNat - 2 := by
        rw [List.length_take]
        omega
      rcases exists_sized kind (rest.take (length.toNat - 2)) ⟨hend, hnop⟩ (by omega) with
        ⟨option, hoption⟩
      refine ⟨area.cons option, ?_⟩
      rw [octets_cons, harea, hoption, hdata, Nat.sub_add_cancel (by omega), UInt8.ofNat_toNat,
        List.cons_append, List.cons_append, List.take_append_drop]

end OptionArea

namespace TcpOptions

/-- The timestamp that is found in the octets of an area is the first of its list. -/
theorem timestamp?_octets (area : OptionArea) :
    timestamp? area.octets = TcpOption.firstTimestamp 0 area.options :=
  timestampFrom_octets 0 area.options area.rest area.stops

/-- The mask zeroes the echo reply of the first timestamp of the list. -/
theorem masked_octets (area : OptionArea) : masked area.octets = area.silenced.octets := by
  rw [masked, timestamp?_octets]
  rcases h : TcpOption.firstTimestamp 0 area.options with _ | found
  · simp only [OptionArea.octets, OptionArea.silenced, TcpOption.silenced_eq 0 area.options h]
  rcases TcpOption.exists_split 0 area.options found h with
    ⟨before, after, hlist, hposition, hsilent⟩
  -- The octets before the echo reply and behind it are the same in both.
  have hsplit : ∀ echo, (before ++ TcpOption.timestamp found.value echo :: after).flatMap
      TcpOption.octets ++ area.rest
        = (before.flatMap TcpOption.octets ++ [8, 10] ++ ofWord32 found.value)
          ++ (ofWord32 echo ++ (after.flatMap TcpOption.octets ++ area.rest)) := by
    intro echo
    rw [TcpOption.octets_split, List.append_assoc _ (ofWord32 found.value)]
  have hbefore : (before.flatMap TcpOption.octets ++ [8, 10] ++ ofWord32 found.value).length
      = found.position + 4 := by
    rw [List.length_append, List.length_append, length_ofWord32, hposition, Nat.zero_add]
    rfl
  have hplain := hsplit found.echo
  have hsilenced := hsplit 0
  rw [← hlist] at hplain
  rw [← hsilent] at hsilenced
  simp only [OptionArea.octets, OptionArea.silenced, hplain, hsilenced]
  rw [List.take_left' hbefore, show found.position + 8 = found.position + 4 + 4 by omega,
    ← List.drop_drop, List.drop_left' hbefore, List.drop_left' (length_ofWord32 _),
    List.append_assoc]
  rfl

end TcpOptions

end ReceiveOffload
