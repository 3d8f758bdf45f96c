import ReceiveOffload.Proofs.Rosters

/-!
# What a Call Reports

A disposition is all that a caller learns of a call, so it has to be true. It
says whether the flow has an aggregate now, whether the segment is in it, and
whether anything was lost, and a caller that keeps books by it goes wrong if one
of these is not so.

It is true whatever storage and timers do in the meantime. What makes it true
under double failures, as when an aggregate is lost on the way and then there is
no storage for the segment behind it, is that each part of a call reports for its
own segments and nobody takes a report back.

A frame that is refused is handed back and has changed nothing. Only a notice is
left of it.

## Main definitions

* `Output.Reports`: What the output of a call says is true.
* `Roster.Truthful`: Offering a frame is answered with the truth.

## Theorems

* `offer_truthful`: It is in every run.
-/

namespace ReceiveOffload

/-- What the output of a call says is true of the flow, which had the one list of
    segments before the call and has the other one after it. -/
structure Output.Reports (output : Output) (before after : Engine) (flow : UInt64)
    (segment : Segment) (members members' : List Segment) : Prop where
  held : before.services.Holds (before.pending flow) members
  holds : after.services.Holds (after.pending flow) members'
  /-- Something is pending if and only if one of two facts is reported. -/
  active : (after.pending flow).isSome = true ↔
    output.disposition.aggregated = true ∨ output.disposition.newAggregationStarted = true
  /-- Of a segment that was merged nothing else is reported, and the aggregate has
      one segment more. -/
  merged : output.disposition.aggregated = true →
    output.disposition = { aggregated := true } ∧ members' = members ++ [segment] ∧
    ∃ p p', before.pending flow = some p ∧ after.pending flow = some p' ∧
      p'.frame = p.frame ∧ p'.segments = p.segments + 1
  /-- A segment that started an aggregate is all there is in it. -/
  started : output.disposition.newAggregationStarted = true → members' = [segment] ∧
    ∃ p', after.pending flow = some p' ∧ p'.segments = 1 ∧
      after.services.stored? p'.frame = some segment.frame
  /-- Every segment is handed out, pending or lost, and a loss is reported if and
      only if there is one. -/
  loss : ∃ handed lost, output.Carries handed ∧
    (handed ++ members' ++ lost).Perm (members ++ [segment]) ∧
    (output.disposition.reportsLoss = true ↔ lost ≠ [])

/-- Offering a frame is answered with the truth. If the frame is said to be bad it
    is handed back and nothing has changed, and otherwise it was taken for a
    segment and what is said of that is so. -/
def Roster.Truthful (r : Roster) (flow : UInt64) (frame : Frame) (policy : Policy)
    (extras : Extras) : Prop :=
  let (output, engine) := r.world.engine.offer flow frame policy extras
  if output.disposition.badFrame then
    output = .handBack { badFrame := true } frame ∧ r.world.engine.Unchanged engine
  else
    ∃ segment, frame.segment? = some segment ∧
      output.Reports r.world.engine engine flow segment (r.members flow)
        ((r.endure (.step (.offer flow frame policy extras))).members flow)

/-- What a call settles is what it reports. -/
theorem Turn.Settles.reports {turn : Turn} {before after : Engine} {flow : UInt64}
    {segment : Segment} {members members' : List Segment}
    (settles : turn.Settles before.services (before.pending flow) segment members members')
    (held : before.services.Holds (before.pending flow) members)
    (hflow : after.pending flow = turn.flow) (hservices : after.services = turn.services) :
    turn.output.Reports before after flow segment members members' := by
  have holds : after.services.Holds (after.pending flow) members' := by
    rw [hflow, hservices]
    exact settles.holds
  rcases settles.fate with ⟨handed, lost, fate⟩
  constructor
  case held => exact held
  case holds => exact holds
  case active => exact holds.isSome_iff.trans fate.active_iff
  case merged =>
    intro h
    rcases fate.of_aggregated h with ⟨hsaid, hne, hmembers⟩
    refine ⟨hsaid, hmembers, ?_⟩
    have hsome := holds.isSome_iff.mpr (fate.active_iff.mpr (Or.inl h))
    rcases Option.isSome_iff_exists.mp hsome with ⟨p', hp'⟩
    rcases settles.frame p' (hflow.symm.trans hp') with ⟨p, hp, hframe, _⟩ | ⟨_, _, honly⟩
    · rw [hp] at held
      rw [hp'] at holds
      refine ⟨p, p', hp, hp', hframe, ?_⟩
      rw [holds.segments_eq, held.segments_eq, hmembers, List.length_append,
        List.length_singleton]
    · -- A new aggregate would have the segment alone, and there were others before.
      rw [hmembers] at honly
      exact absurd (List.append_left_eq_self.mp honly) hne
  case started =>
    intro h
    have hmembers := fate.of_started h
    refine ⟨hmembers, ?_⟩
    have hsome := holds.isSome_iff.mpr (fate.active_iff.mpr (Or.inr h))
    rcases Option.isSome_iff_exists.mp hsome with ⟨p', hp'⟩
    rw [hp', hmembers] at holds
    refine ⟨p', hp', holds.segments_eq, ?_⟩
    rcases holds with ⟨first, rest, stored, hcons, hstored, m⟩
    rw [List.cons.injEq] at hcons
    rcases hcons with ⟨rfl, rfl⟩
    rw [hstored, m.stored_eq]
    simp only [Frame.append, List.map_nil, List.flatten_nil, List.append_nil]
  case loss => exact ⟨handed, lost, fate.carries, fate.perm, fate.reportsLoss_iff⟩

/-- In every run, whatever storage and timers do, offering a frame is answered
    with the truth. -/
theorem offer_truthful (setup : Setup) (trials : List Trial) (flow : UInt64) (frame : Frame)
    (policy : Policy) (extras : Extras)
    (hstores : (Roster.run setup trials).world.stores < 2 ^ 64) :
    (Roster.run setup trials).Truthful flow frame policy extras := by
  have hkept := Roster.kept_run setup trials hstores
  generalize Roster.run setup trials = r at hkept hstores
  unfold Roster.Truthful
  rcases hsegment : frame.segment? with _ | segment
  · rcases r.world.engine.offer_refused flow frame policy extras hsegment with
      ⟨houtput, heq | ⟨cause, heq⟩⟩
    all_goals
      simp only [houtput, heq, Output.handBack, if_true, true_and]
      exact ⟨fun _ => rfl, rfl, rfl, rfl, rfl⟩
  · rcases hkept.offer hstores flow frame policy extras segment hsegment with ⟨hsettles, _⟩
    rcases r.world.engine.offer_accepted flow frame policy extras segment hsegment with
      ⟨houtput, hflows, hservices⟩
    have hreports := hsettles.reports (hkept.held flow)
      ((hflows flow).trans (if_pos rfl)) hservices
    rcases hsettles.fate with ⟨handed, lost, fate⟩
    simp only [houtput, fate.said.1, Bool.false_eq_true, if_false]
    exact ⟨segment, rfl, hreports⟩

/-- The frame of the pending aggregate cannot be taken out any more, and there is
    no storage for another one either. -/
def cutOff : List Trial := [
  .step (.offer 7 (plainFrame 1 [1]) plainPolicy {}),
  .refuse { store := [0], take := [0] }
]

theorem offer_truthful_cutOff :
    (Roster.run {} cutOff).world.stores < 2 ^ 64 ∧
      (Roster.run {} cutOff).Truthful 7 (plainFrame 9 [2]) plainPolicy {} ∧
      ((Roster.run {} cutOff).world.engine.offer 7 (plainFrame 9 [2]) plainPolicy {}).1
        = { disposition := { aggregationDiscarded := true, segmentDiscarded := true } } := by
  have hstores : (Roster.run {} cutOff).world.stores < 2 ^ 64 := by decide +kernel
  have houtput : ((Roster.run {} cutOff).world.engine.offer 7 (plainFrame 9 [2]) plainPolicy {}).1
      = { disposition := { aggregationDiscarded := true, segmentDiscarded := true } } := by
    decide +kernel
  exact ⟨hstores, offer_truthful {} cutOff 7 _ _ _ hstores, houtput⟩

end ReceiveOffload
