import ReceiveOffload.Proofs.Aggregates

/-!
# Cutting Aggregates Again

A consumer that is told the payload size of a segment cuts an aggregate into
pieces of that size, with what is left over at the end. For these to be the
segments that were merged, all of them but the last have to be of the size that
is announced, and the last no larger.

The size that is announced is that of the largest segment. A segment shorter
than the largest so far is the last of its aggregate, so sizes never fall but at
the end. A larger one is merged like any other and raises the size that is
announced, which those before it fall short of. So the pieces are the segments
exactly when no segment is larger than the first.

## Main definitions

* `Octets.cut`: Octets in pieces of a size.
* `Octets.Pieces`: All pieces but the last are of a size.
* `Octets.Rising`: No piece but the last is shorter than one before it.
* `Aggregate.CutsInto`: Cutting an aggregate gives the given payloads.

## Theorems

* `Octets.cut_flatten_iff`: When pieces are found again.
* `Merged.rising`: The payloads of an aggregate.
* `aggregate_cutsInto_iff`: An aggregate cuts into its segments exactly when none
  is larger than the first.
* `not_cutsInto_risen`: A run in which it does not.
-/

namespace ReceiveOffload

namespace Octets

/-- The octets in pieces of a size, with what is left over at the end. -/
def cut (size : Nat) (b : Octets) : List Octets :=
  if b = [] ∨ size = 0 then []
  else b.take size :: cut size (b.drop size)
termination_by b.length
decreasing_by
  have hpos := List.length_pos_iff.mpr (fun hnil => ‹¬ _› (Or.inl hnil))
  rw [List.length_drop]
  omega

/-- All pieces but the last are of a size, and the last is not empty and no
    larger. -/
def Pieces (size : Nat) (pieces : List Octets) : Prop :=
  (∀ x ∈ pieces.dropLast, x.length = size) ∧
    ∀ x ∈ pieces.getLast?, 0 < x.length ∧ x.length ≤ size

/-- Pieces that rise up to a size: none is empty, the largest is of that size, and
    none but the last is shorter than one before it. -/
structure Rising (size : Nat) (pieces : List Octets) : Prop where
  pos : ∀ x ∈ pieces, 0 < x.length
  le : ∀ x ∈ pieces, x.length ≤ size
  largest : ∃ x ∈ pieces, x.length = size
  rises : pieces.dropLast.Pairwise fun x y => x.length ≤ y.length

theorem pieces_cons_cons (size : Nat) (x y : Octets) (rest : List Octets) :
    Pieces size (x :: y :: rest) ↔ x.length = size ∧ Pieces size (y :: rest) := by
  simp only [Pieces, List.dropLast_cons_cons, List.forall_mem_cons, List.getLast?_cons_cons,
    and_assoc]

theorem cut_nil (size : Nat) : cut size [] = [] := by
  rw [cut, if_pos (Or.inl rfl)]

/-- Pieces that are put together are found again. -/
theorem cut_flatten (size : Nat) (hsize : 0 < size) (pieces : List Octets)
    (h : Pieces size pieces) : cut size pieces.flatten = pieces := by
  induction pieces with
  | nil => exact cut_nil size
  | cons x rest ih =>
      rcases rest with _ | ⟨y, rest⟩
      · -- A single piece may be short, and cutting takes all that there is.
        rcases h.2 x rfl with ⟨hpos, hle⟩
        have hne : ¬ (x = [] ∨ size = 0) := by
          rintro (rfl | hzero)
          · exact absurd hpos (Nat.lt_irrefl 0)
          · omega
        rw [List.flatten_singleton, cut, if_neg hne, List.take_of_length_le hle,
          List.drop_of_length_le hle, cut_nil]
      · rcases (pieces_cons_cons size x y rest).mp h with ⟨hx, hrest⟩
        have hne : ¬ ((x :: y :: rest).flatten = [] ∨ size = 0) := by
          rintro (hnil | hzero)
          · rw [List.flatten_cons, List.append_eq_nil_iff] at hnil
            rw [hnil.1, List.length_nil] at hx
            omega
          · omega
        rw [cut, if_neg hne, List.flatten_cons, List.take_left' hx, List.drop_left' hx, ih hrest]

/-- What cutting gives are pieces. -/
theorem pieces_cut (size : Nat) (hsize : 0 < size) (b : Octets) : Pieces size (cut size b) := by
  induction b using cut.induct size with
  | case1 b hnone =>
      rw [cut, if_pos hnone]
      exact ⟨fun _ h => absurd h List.not_mem_nil, fun _ h => by cases h⟩
  | case2 b hsome ih =>
      have hne : b ≠ [] := fun hnil => hsome (Or.inl hnil)
      have hpos := List.length_pos_iff.mpr hne
      rw [cut, if_neg hsome]
      rcases hrest : cut size (b.drop size) with _ | ⟨y, rest⟩
      · refine ⟨fun _ h => absurd h List.not_mem_nil, fun x hx => ?_⟩
        rw [List.getLast?_singleton, Option.mem_def, Option.some.injEq] at hx
        rw [← hx, List.length_take]
        omega
      · rw [hrest] at ih
        refine (pieces_cons_cons size _ y rest).mpr ⟨?_, ih⟩
        -- Something is left over, so the first piece is whole.
        have hleft : b.drop size ≠ [] := by
          intro hnil
          rw [hnil, cut_nil] at hrest
          cases hrest
        have hlong := List.length_pos_iff.mpr hleft
        rw [List.length_drop] at hlong
        rw [List.length_take]
        omega

/-- Pieces that are put together are found again exactly when they are of the
    right sizes. -/
theorem cut_flatten_iff (size : Nat) (hsize : 0 < size) (pieces : List Octets) :
    cut size pieces.flatten = pieces ↔ Pieces size pieces := by
  constructor
  · intro h
    rw [← h]
    exact pieces_cut size hsize _
  · exact cut_flatten size hsize pieces

/-- Several pieces that rise are all of the size exactly when none is larger than the
    first. -/
theorem Rising.pieces_iff {size : Nat} {x : Octets} {rest : List Octets}
    (h : Rising size (x :: rest)) (hrest : rest ≠ []) :
    Pieces size (x :: rest) ↔ ∀ y ∈ x :: rest, y.length ≤ x.length := by
  -- There are others behind the first, so it is not the last.
  have hfront : (x :: rest).dropLast = x :: rest.dropLast := List.dropLast_cons_of_ne_nil hrest
  constructor
  · intro hpieces y hy
    have hfirst := hpieces.1 x (hfront ▸ List.mem_cons_self)
    exact Nat.le_trans (h.le y hy) (Nat.le_of_eq hfirst.symm)
  · intro hnone
    -- Then the first is as large as the largest, and no other but the last is smaller.
    rcases h.largest with ⟨largest, hmem, hlargest⟩
    have hsize : size ≤ x.length := hlargest ▸ hnone largest hmem
    have hrises := h.rises
    rw [hfront, List.pairwise_cons] at hrises
    constructor
    · intro y hy
      have hhigh := h.le y (List.dropLast_subset _ hy)
      rw [hfront, List.mem_cons] at hy
      rcases hy with rfl | hy
      · exact Nat.le_antisymm hhigh hsize
      · exact Nat.le_antisymm hhigh (Nat.le_trans hsize (hrises.1 y hy))
    · intro y hy
      have hmem := List.mem_of_getLast? hy
      exact ⟨h.pos y hmem, h.le y hmem⟩

end Octets

/-- Cutting the payload of an aggregate as its virtio header says gives the
    payloads. -/
def Aggregate.CutsInto (aggregate : Aggregate) (payloads : List Octets) : Prop :=
  aggregate.frame.payload?.map (Octets.cut aggregate.virtioHeader.segmentSize.toNat)
    = some payloads

namespace Merged

variable {first : Segment} {p : Pending} {stored : Frame} {rest : List Segment}

/-- The payloads of the segments rise up to the largest. -/
theorem rising (m : Merged first p stored rest) :
    Octets.Rising p.largestPayload.toNat ((first :: rest).map Segment.payload) where
  pos := List.forall_mem_map.mpr m.payload_pos
  le := List.forall_mem_map.mpr m.largest_eq.1
  largest := by
    rcases m.largest_eq.2 with ⟨s, hs, hlargest⟩
    exact ⟨s.payload, List.mem_map_of_mem hs, hlargest⟩
  rises := by
    rw [← List.map_dropLast, List.pairwise_map]
    exact m.rises.2

end Merged

/-- The segments of an aggregate rise up to the size that is announced. An aggregate
    of several segments cuts into these exactly when they are pieces of that size,
    and they are exactly when none of them is larger than the first. -/
theorem Closing.cutsInto_iff {aggregate : Aggregate} {first : Segment} {rest : List Segment}
    (h : Closing aggregate (first :: rest)) (hseveral : 2 ≤ aggregate.segments) :
    Octets.Rising aggregate.segmentSize.toNat ((first :: rest).map Segment.payload) ∧
    (Octets.Pieces aggregate.segmentSize.toNat ((first :: rest).map Segment.payload) ↔
      ∀ s ∈ first :: rest, s.payload.length ≤ first.payload.length) ∧
    (aggregate.CutsInto ((first :: rest).map Segment.payload) ↔
      ∀ s ∈ first :: rest, s.payload.length ≤ first.payload.length) := by
  have hpayload := h.payload?_eq
  rcases h with ⟨_, _, p, stored, hmembers, m, hsealed⟩
  rw [List.cons.injEq] at hmembers
  rcases hmembers with ⟨rfl, rfl⟩
  rcases m.represents with ⟨aggregate', hsealed', hsize, hrepresents⟩
  rw [hsealed, Except.ok.injEq] at hsealed'
  subst hsealed'
  -- More than one segment was merged, so the first is not the last.
  have hrest : rest ≠ [] := by
    rintro rfl
    rw [hrepresents.segments, List.length_singleton] at hseveral
    omega
  -- The header announces a size only where there is something to cut.
  have hannounced : aggregate.virtioHeader.segmentSize = aggregate.segmentSize := by
    unfold Aggregate.virtioHeader
    rw [if_neg (by omega)]
  have hpos : 0 < p.largestPayload.toNat :=
    Nat.lt_of_lt_of_le (m.payload_pos first List.mem_cons_self)
      (m.largest_eq.1 first List.mem_cons_self)
  have hpieces := m.rising.pieces_iff (mt List.map_eq_nil_iff.mp hrest)
  rw [← List.map_cons, List.forall_mem_map] at hpieces
  rw [Aggregate.CutsInto, hannounced, hsize, hpayload, Option.map_some, Option.some.injEq,
    Octets.cut_flatten_iff _ hpos]
  exact ⟨m.rising, hpieces, hpieces⟩

/-- An aggregate of several segments that is handed out cuts into these exactly
    when none of them is larger than the first. Otherwise there are other pieces. In
    either case no segment but the last is shorter than one before it. -/
theorem aggregate_cutsInto_iff (setup : Setup) (steps : List Step) (flow : UInt64)
    (aggregate : Aggregate) (hstores : (World.run setup steps).stores < 2 ^ 64)
    (hout : (flow, aggregate) ∈ (World.run setup steps).aggregates)
    (hseveral : 2 ≤ aggregate.segments) :
    ∃ first rest,
      (aggregate, (first :: rest).map Segment.frame)
        ∈ ((World.run setup steps).ledger flow).closed ∧
      (∀ s ∈ first :: rest, s.Genuine) ∧ aggregate.segments = (first :: rest).length ∧
      Octets.Rising aggregate.segmentSize.toNat ((first :: rest).map Segment.payload) ∧
      (Octets.Pieces aggregate.segmentSize.toNat ((first :: rest).map Segment.payload) ↔
        ∀ s ∈ first :: rest, s.payload.length ≤ first.payload.length) ∧
      (aggregate.CutsInto ((first :: rest).map Segment.payload) ↔
        ∀ s ∈ first :: rest, s.payload.length ≤ first.payload.length) := by
  rcases World.closing_of_mem setup steps flow aggregate hstores hout with
    ⟨members, hentry, hclosing⟩
  rcases hclosing.represents with ⟨first, rest, rfl, hrepresents⟩
  exact ⟨first, rest, hentry, hrepresents.genuine, hrepresents.segments,
    hclosing.cutsInto_iff hseveral⟩

theorem aggregate_cutsInto_iff_pair :
    (World.run {} pairFlushed).stores < 2 ^ 64 ∧
      (7, pairAggregate) ∈ (World.run {} pairFlushed).aggregates ∧ 2 ≤ pairAggregate.segments ∧
      ∃ first rest,
        (pairAggregate, (first :: rest).map Segment.frame)
          ∈ ((World.run {} pairFlushed).ledger 7).closed ∧
        (∀ s ∈ first :: rest, s.Genuine) ∧ pairAggregate.segments = (first :: rest).length ∧
        Octets.Rising pairAggregate.segmentSize.toNat ((first :: rest).map Segment.payload) ∧
        (Octets.Pieces pairAggregate.segmentSize.toNat ((first :: rest).map Segment.payload) ↔
          ∀ s ∈ first :: rest, s.payload.length ≤ first.payload.length) ∧
        (pairAggregate.CutsInto ((first :: rest).map Segment.payload) ↔
          ∀ s ∈ first :: rest, s.payload.length ≤ first.payload.length) := by
  have hstores : (World.run {} pairFlushed).stores < 2 ^ 64 := by decide +kernel
  have hout : (7, pairAggregate) ∈ (World.run {} pairFlushed).aggregates := by decide +kernel
  have hseveral : 2 ≤ pairAggregate.segments := by decide
  exact ⟨hstores, hout, hseveral,
    aggregate_cutsInto_iff {} pairFlushed 7 pairAggregate hstores hout hseveral⟩

/-- Two segments, the second of which is larger, closed on request. -/
def pairRisen : List Step := [
  .offer 7 (plainFrame 1 [1]) plainPolicy {},
  .offer 7 (plainFrame 2 [2, 3]) plainPolicy {},
  .flush 7
]

/-- What comes of that. -/
def risenAggregate : Aggregate where
  frame := { octets := [0x45, 0, 0, 43, 0, 1, 0x40, 0, 64, 6, 255, 253, 10, 0, 0, 1, 10, 0, 0, 2,
    0x1F, 0x90, 0x23, 0x28, 0, 0, 0, 1, 0, 0, 0, 1, 0x50, 0x10, 0x10, 0, 0x14, 0x20, 0, 0,
    1, 2, 3] }
  segments := 2
  segmentSize := 2
  headersLength := 40
  transport := 20
  version := .v4
  checksumComplete := false

/-- The first segment is shorter than the second, whose size is announced. The pieces
    are others than the segments. -/
theorem not_cutsInto_risen :
    (7, risenAggregate) ∈ (World.run {} pairRisen).aggregates ∧ 2 ≤ risenAggregate.segments ∧
      ((World.run {} pairRisen).ledger 7).closed
        = [(risenAggregate, [plainFrame 1 [1], plainFrame 2 [2, 3]])] ∧
      [plainFrame 1 [1], plainFrame 2 [2, 3]].map Frame.payload? = [some [1], some [2, 3]] ∧
      ¬ Octets.Pieces risenAggregate.segmentSize.toNat [[1], [2, 3]] ∧
      ¬ risenAggregate.CutsInto [[1], [2, 3]] := by
  have hpieces : ¬ Octets.Pieces risenAggregate.segmentSize.toNat [[1], [2, 3]] := by
    intro h
    exact absurd (h.1 [1] (by decide)) (by decide)
  have hpayload : risenAggregate.frame.payload? = some [[1], [2, 3]].flatten := by decide +kernel
  refine ⟨by decide +kernel, by decide, by decide +kernel, by decide +kernel, hpieces, ?_⟩
  intro hcuts
  rw [Aggregate.CutsInto, hpayload, Option.map_some, Option.some.injEq] at hcuts
  exact hpieces ((Octets.cut_flatten_iff _ (by decide) _).mp hcuts)

end ReceiveOffload
