import ReceiveOffload.Proofs.Calls
import ReceiveOffload.Proofs.Timers

/-!
# How Timers Change Hands

An aggregate has a timer, and a call on its flow may keep it, give it back, or
pass on another one with the next aggregate. On the way a timer may be taken and
given back again, and one that has fired is replaced. Seen from outside, all of
this is one thing: the handle that the flow has now and the handle that it had
before. `Timers.Handover` says what may happen between the two.

No other handle notices. A handle that the flow keeps does what it did, and a
new one was nobody's and waits for the flow. A handle that the flow had and no
longer has is stale for good, because the generation of its slot was raised.

The last is said with a number and not with an inequality. Two handovers in a
row are one, and generations that differ twice may be the same again.

## Main definitions

* `Timers.Handover`: The timer of a flow before a call and after it.
* `Turn.HandsOver`: A call passes the timer on.

## Theorems

* `Timers.Handover.trans`: Handovers in a row.
* `Services.onIdle_handsOver`, `Services.onPending_handsOver`,
  `Engine.offer_handover`: A segment that is offered.
-/

namespace ReceiveOffload

namespace Timers

/-- The timer of a flow is `old` before and `new` afterwards, and no slot was
    released more than `n` times. -/
structure Handover (n : Nat) (flow : UInt64) (timers timers' : Timers)
    (old new : Option TimerId) : Prop where
  sound : timers'.Sound
  now : timers'.now = timers.now
  elsewhere : ∀ h, old ≠ some h → new ≠ some h → timers'.watch? h = timers.watch? h
  /-- A timer that somebody else owns keeps its deadline. -/
  intact : ∀ h, old ≠ some h → timers.watch? h ≠ none → timers'.owned? h = timers.owned? h
  runs : ∀ h, new = some h → (old = some h ∧ timers'.watch? h = timers.watch? h) ∨
    (timers.watch? h = none ∧ timers'.watch? h = some (.waiting flow))
  raised : ∀ pool slot, ∃ k ≤ n,
    timers'.generation pool slot = timers.generation pool slot + UInt32.ofNat k
  ended : ∀ h, old = some h → new ≠ some h → ∃ k, 0 < k ∧ k ≤ n ∧
    timers'.generation h.pool h.slot = h.generation + UInt32.ofNat k

/-- Raising a generation a few times makes another one of it. -/
theorem add_ofNat_ne (g : UInt32) (k : Nat) (hpos : 0 < k) (hlt : k < 2 ^ 32) :
    g + UInt32.ofNat k ≠ g := by
  intro h
  have hvalue := congrArg UInt32.toNat (UInt32.add_eq_left.mp h)
  rw [UInt32.toNat_ofNat_of_lt' hlt] at hvalue
  exact absurd hvalue (Nat.ne_of_gt hpos)

/-- How often a generation was raised is the difference that it makes. -/
theorem toNat_add_ofNat_sub (g : UInt32) (k : Nat) (hlt : k < 2 ^ 32) :
    (g + UInt32.ofNat k - g).toNat = k := by
  rw [UInt32.add_comm, UInt32.add_sub_cancel]
  exact UInt32.toNat_ofNat_of_lt' hlt

namespace Handover

variable {n m : Nat} {flow : UInt64} {timers timers' timers'' : Timers}
  {old mid new : Option TimerId}

/-- A handle that was given up owns nothing. -/
theorem watch?_ended (a : Handover n flow timers timers' old new) (hn : n < 2 ^ 32) (h : TimerId)
    (hold : old = some h) (hnew : new ≠ some h) : timers'.watch? h = none := by
  -- Whoever owns a timer has the generation of its slot.
  by_contra hwatch
  rcases a.ended h hold hnew with ⟨k, hpos, hle, hgeneration⟩
  rw [timers'.generation_of_watch? h hwatch] at hgeneration
  exact add_ofNat_ne h.generation k hpos (by omega) hgeneration.symm

/-- The timer that the flow has then waits for the flow, if it waits at all. -/
theorem flow_eq (a : Handover n flow timers timers' old new) {h : TimerId} {arming : Arming}
    (hnew : new = some h) (harming : timers'.arming? h = some arming)
    (hold : old = some h →
      timers.watch? h = some (.waiting flow) ∨ timers.watch? h = some .fired) :
    arming.flow = flow := by
  have hwatch := timers'.watch?_of_arming? h arming harming
  -- The flow had it before, and it waited for the flow, or it is new.
  have hwaits : some (Watch.waiting arming.flow) = some (.waiting flow) := by
    rcases a.runs h hnew with ⟨hbefore, hsame⟩ | ⟨_, hwaiting⟩
    · rcases hold hbefore with hwaiting | hfired
      · exact hwatch.symm.trans (hsame.trans hwaiting)
      · cases hwatch.symm.trans (hsame.trans hfired)
    · exact hwatch.symm.trans hwaiting
  rwa [Option.some.injEq, Watch.waiting.injEq] at hwaits

/-- No timer does anything else than before, and only that of the flow may do so
    until another time. -/
theorem unchanged (sound : timers'.Sound) (hnow : timers'.now = timers.now)
    (hwatch : ∀ h, timers'.watch? h = timers.watch? h)
    (howned : ∀ h, old ≠ some h → timers.watch? h ≠ none → timers'.owned? h = timers.owned? h)
    (hgeneration : ∀ pool slot, timers'.generation pool slot = timers.generation pool slot) :
    Handover n flow timers timers' old old where
  sound := sound
  now := hnow
  elsewhere := fun h _ _ => hwatch h
  intact := howned
  runs := fun h hold => Or.inl ⟨hold, hwatch h⟩
  raised := fun pool slot => ⟨0, Nat.zero_le n,
    (hgeneration pool slot).trans (UInt32.add_zero _).symm⟩
  ended := fun _ hold hnew => absurd hold hnew

theorem kept (sound : timers.Sound) (old : Option TimerId) :
    Handover n flow timers timers old old :=
  unchanged sound rfl (fun _ => rfl) (fun _ _ _ => rfl) (fun _ _ => rfl)

/-- A timer that is started over moves its deadline, which nobody but the clock
    sees. -/
theorem restarted {handle : TimerId} (h : timers.Restarted handle timers') :
    Handover n flow timers timers' (some handle) (some handle) :=
  unchanged h.sound h.now h.watch? (fun other hother _ => h.owned? other (by simpa using hother))
    h.generation

/-- What nobody owns can be given back, and nothing happens. -/
theorem released_unowned (sound : timers.Sound) (handle : TimerId)
    (hunowned : timers.watch? handle = none) (old : Option TimerId) :
    Handover n flow timers (timers.release handle) old old := by
  refine unchanged (sound.release handle) (timers.now_release handle) (fun h => ?_)
    (fun h _ howned => ?_) (fun pool slot => ?_)
  · rw [timers.watch?_release]
    by_cases hh : handle = h
    · rw [if_pos hh, ← hh, hunowned]
    · rw [if_neg hh]
  · have hother : handle ≠ h := fun hh => howned (hh ▸ hunowned)
    rw [timers.owned?_release, if_neg hother]
  · rw [timers.generation_release, if_neg (fun hall => hall.2.2 hunowned)]
    exact UInt32.add_zero _

/-- A timer that somebody owns is given back. -/
theorem released (sound : timers.Sound) (handle : TimerId) (howned : timers.watch? handle ≠ none) :
    Handover 1 flow timers (timers.release handle) (some handle) none where
  sound := sound.release handle
  now := timers.now_release handle
  elsewhere := by
    intro h hold _
    rw [timers.watch?_release, if_neg (fun hh => hold (congrArg some hh))]
  intact := by
    intro h hold _
    rw [timers.owned?_release, if_neg (fun hh => hold (congrArg some hh))]
  runs := fun _ hnew => by cases hnew
  raised := by
    intro pool slot
    rw [timers.generation_release]
    split
    · exact ⟨1, Nat.le_refl 1, rfl⟩
    · exact ⟨0, Nat.zero_le 1, rfl⟩
  ended := by
    intro h hold _
    rw [Option.some.injEq] at hold
    subst hold
    refine ⟨1, Nat.one_pos, Nat.le_refl 1, ?_⟩
    rw [timers.generation_release, if_pos ⟨rfl, rfl, howned⟩, timers.generation_of_watch? _ howned]
    rfl

/-- A timer is taken. -/
theorem armed {handle : TimerId} (h : timers.Armed flow handle timers') :
    Handover n flow timers timers' none (some handle) where
  sound := h.sound
  now := h.now
  elsewhere := by
    intro other _ hnew
    rw [h.watch?, if_neg (fun hh => hnew (congrArg some hh))]
  intact := by
    intro other _ howned
    exact h.owned? other (fun hh => howned (hh ▸ h.unowned))
  runs := by
    intro other hnew
    rw [Option.some.injEq] at hnew
    subst hnew
    exact Or.inr ⟨h.unowned, (h.watch? _).trans (if_pos rfl)⟩
  raised := fun pool slot => ⟨0, Nat.zero_le n,
    (h.generation pool slot).trans (UInt32.add_zero _).symm⟩
  ended := fun _ hold => by cases hold

/-- Handovers in a row are one. -/
theorem trans (a : Handover n flow timers timers' old mid)
    (b : Handover m flow timers' timers'' mid new) (hfew : n + m < 2 ^ 32) :
    Handover (n + m) flow timers timers'' old new := by
  constructor
  case sound => exact b.sound
  case now => exact b.now.trans a.now
  case intact =>
    intro h hold howned
    have hsame := a.intact h hold howned
    rw [Ne, watch?_eq_none_iff] at howned
    rw [← hsame]
    -- What somebody else owned was not taken in between.
    refine b.intact h (fun hmid => ?_) (by rw [Ne, watch?_eq_none_iff, hsame]; exact howned)
    rcases a.runs h hmid with ⟨hkept, _⟩ | ⟨hnone, _⟩
    · exact hold hkept
    · exact howned ((timers.watch?_eq_none_iff h).mp hnone)
  case elsewhere =>
    intro h hold hnew
    by_cases hmid : mid = some h
    · -- The flow had it for a while, so it was nobody's and is nobody's again.
      rcases a.runs h hmid with ⟨hkept, _⟩ | ⟨hnone, _⟩
      · exact absurd hkept hold
      · rw [hnone, b.watch?_ended (by omega) h hmid hnew]
    · rw [b.elsewhere h hmid hnew, a.elsewhere h hold hmid]
  case runs =>
    intro h hnew
    -- The new timer was there in between, or it was taken by the second handover.
    -- Then it has to be shown that nobody had it at the start either.
    rcases b.runs h hnew with ⟨hmid, hsame⟩ | ⟨hnone, hwaits⟩
    · rw [hsame]
      exact a.runs h hmid
    · refine Or.inr ⟨?_, hwaits⟩
      by_cases hmid : mid = some h
      · rcases a.runs h hmid with ⟨_, hsame⟩ | ⟨hunowned, _⟩
        · rw [← hsame, hnone]
        · exact hunowned
      by_cases hold : old = some h
      · -- It was given up, and its slot was released since, so it cannot be back.
        rcases a.ended h hold hmid with ⟨k, hpos, hle, hended⟩
        rcases b.raised h.pool h.slot with ⟨j, hj, hraised⟩
        have hback := generation_of_watch? timers'' h (by rw [hwaits]; exact Option.some_ne_none _)
        rw [hraised, hended, UInt32.add_assoc, ← UInt32.ofNat_add] at hback
        exact absurd hback (add_ofNat_ne h.generation (k + j) (by omega) (by omega))
      · rw [← a.elsewhere h hold hmid, hnone]
  case raised =>
    intro pool slot
    rcases a.raised pool slot with ⟨j, hj, hfirst⟩
    rcases b.raised pool slot with ⟨k, hk, hsecond⟩
    refine ⟨j + k, Nat.add_le_add hj hk, ?_⟩
    rw [hsecond, hfirst, UInt32.add_assoc, ← UInt32.ofNat_add]
  case ended =>
    intro h hold hnew
    -- It is given up by the second handover, or by the first, and then the second
    -- can only raise the generation further.
    by_cases hmid : mid = some h
    · rcases b.ended h hmid hnew with ⟨k, hpos, hle, hended⟩
      exact ⟨k, hpos, by omega, hended⟩
    · rcases a.ended h hold hmid with ⟨j, hpos, hle, hended⟩
      rcases b.raised h.pool h.slot with ⟨k, hk, hraised⟩
      refine ⟨j + k, by omega, by omega, ?_⟩
      rw [hraised, hended, UInt32.add_assoc, ← UInt32.ofNat_add]

/-- A bound on the releases may be raised. -/
theorem mono (a : Handover n flow timers timers' old new) (hle : n ≤ m) :
    Handover m flow timers timers' old new where
  sound := a.sound
  now := a.now
  elsewhere := a.elsewhere
  intact := a.intact
  runs := a.runs
  raised := by
    intro pool slot
    rcases a.raised pool slot with ⟨k, hk, hraised⟩
    exact ⟨k, Nat.le_trans hk hle, hraised⟩
  ended := by
    intro h hold hnew
    rcases a.ended h hold hnew with ⟨k, hpos, hk, hended⟩
    exact ⟨k, hpos, Nat.le_trans hk hle, hended⟩

end Handover

end Timers

namespace Services

variable (s : Services)

@[simp] theorem timers_note (notice : Notice) : (s.note notice).timers = s.timers := rfl

@[simp] theorem timers_count (base : UInt64) (statistic : Statistic) (amount : Nat) :
    (s.count base statistic amount).timers = s.timers := rfl

@[simp] theorem timers_logSize (p : Pending) (h : Headers) :
    (s.logSize p h).2.timers = s.timers := by
  unfold logSize
  split <;> rfl

@[simp] theorem timer_logSize (p : Pending) (h : Headers) :
    (s.logSize p h).1.timer = p.timer := by
  unfold logSize
  split <;> rfl

/-- Closing an aggregate leaves its timer to whoever closes it. -/
@[simp] theorem timers_closeAggregate (p : Pending) : (s.closeAggregate p).2.timers = s.timers := by
  unfold closeAggregate
  simp only
  split <;> rfl

@[simp] theorem timers_relay (frame : Frame) : (s.relay frame).2.timers = s.timers := by
  unfold relay
  rcases hstore : s.storeFrame frame with ⟨cause | id, s1⟩
  -- Storage does not know of timers, whatever it answers.
  all_goals have htimers : s1.timers = s.timers := congrArg (fun r => r.2.timers) hstore.symm
  · exact htimers
  · rcases htake : s1.takeFrame id with ⟨_ | relayed, s2⟩
    all_goals
      simp only [htake]
      exact (congrArg (fun r => r.2.timers) htake).symm.trans htimers

/-- Appending to an aggregate leaves its timer alone. -/
theorem appendSegment_timers (p : Pending) (segment : Segment) :
    (s.appendSegment p segment).2.timers = s.timers ∧
      ∀ p', (s.appendSegment p segment).1 = .ok p' → p'.timer = p.timer := by
  unfold appendSegment
  rcases hextend : s.extendFrame p.frame segment.frame segment.headers.length with
    ⟨cause | length, s1⟩
  all_goals have htimers : s1.timers = s.timers := congrArg (fun r => r.2.timers) hextend.symm
  · exact ⟨htimers, fun _ h => by cases h⟩
  · simp only [timers_note, timers_count, timers_logSize, Except.ok.injEq]
    refine ⟨htimers, ?_⟩
    rintro p' rfl
    exact s1.timer_logSize (p.grow segment.headers length) segment.headers

/-- An aggregate is opened with the timer that was taken for it, or else the
    timer is given back. -/
theorem openAggregate_handover (flow : UInt64) (segment : Segment) (timer : TimerId)
    (policy : Policy) (extras : Extras) (sound : s.timers.Sound)
    (howned : s.timers.watch? timer ≠ none) :
    Timers.Handover 1 flow s.timers (s.openAggregate flow segment timer policy extras).2.timers
      (some timer)
      ((s.openAggregate flow segment timer policy extras).1.map Pending.timer) := by
  unfold openAggregate
  rcases hstore : s.storeFrame segment.frame with ⟨cause | frame, s1⟩
  all_goals have htimers : s1.timers = s.timers := congrArg (fun r => r.2.timers) hstore.symm
  · show Timers.Handover 1 flow s.timers (s1.timers.release timer) (some timer) none
    rw [htimers]
    exact .released sound timer howned
  · simp only [timers_note, timers_count, timers_logSize, timer_logSize, htimers, Option.map_some]
    exact .kept sound (some timer)

/-- The timer is kept, or given back for another one, if there is another. -/
theorem renewTimer_handover (flow : UInt64) (timer : TimerId) (policy : Policy)
    (sound : s.timers.Sound) (howned : s.timers.watch? timer ≠ none) :
    (∃ cause, (s.renewTimer flow timer policy).1 = .error cause ∧
      Timers.Handover 1 flow s.timers (s.renewTimer flow timer policy).2.timers (some timer) none) ∨
    ∃ renewed, (s.renewTimer flow timer policy).1 = .ok renewed ∧
      Timers.Handover 1 flow s.timers (s.renewTimer flow timer policy).2.timers (some timer)
        (some renewed) ∧
      (s.renewTimer flow timer policy).2.timers.watch? renewed ≠ none := by
  unfold renewTimer restartTimer
  rcases s.timers.restart_cases timer sound with
    ⟨cause, hrestart⟩ | ⟨timers, hrestart, restarted⟩
  · -- The timer cannot be started over: it is given back before another is taken.
    simp only [hrestart, armTimer, releaseTimer, timers_note]
    have hreleased : Timers.Handover 1 flow s.timers (s.timers.release timer) (some timer) none :=
      .released sound timer howned
    rcases (s.timers.release timer).arm_cases (policy.timerSetup flow) hreleased.sound with
      ⟨cause', harm⟩ | ⟨renewed, timers, harm, armed⟩
    · rw [harm]
      exact Or.inl ⟨cause', rfl, hreleased⟩
    · rw [harm]
      refine Or.inr ⟨renewed, rfl, ?_, ?_⟩
      · exact hreleased.trans (.armed (n := 0) armed) (by decide)
      · simp only [armed.watch?, if_true, ne_eq, reduceCtorEq, not_false_eq_true]
  · simp only [hrestart]
    refine Or.inr ⟨timer, rfl, .restarted restarted, ?_⟩
    rw [restarted.watch?]
    exact howned

end Services

/-- A call passes the timer of its flow on, from the aggregate that was pending
    to the one that is pending now. -/
def Turn.HandsOver (turn : Turn) (s : Services) (flow : UInt64) (pending : Option Pending) : Prop :=
  Timers.Handover 2 flow s.timers turn.services.timers (pending.map Pending.timer)
    (turn.flow.map Pending.timer)

namespace Services

variable {s : Services}

/-- A flow that was idle has a timer for what it opened, or none. -/
theorem onIdle_handsOver (flow : UInt64) (segment : Segment) (policy : Policy) (extras : Extras)
    (sound : s.timers.Sound) : (s.onIdle flow segment policy extras).HandsOver s flow none := by
  unfold onIdle
  by_cases hopens : segment.canOpen policy = true
  case neg =>
    rw [if_neg hopens]
    exact .kept sound none
  rw [if_pos hopens]
  simp only [armTimer]
  rcases s.timers.arm_cases (policy.timerSetup flow) sound with
    ⟨cause, harm⟩ | ⟨timer, timers, harm, armed⟩
  · rw [harm]
    exact .kept sound none
  · rw [harm]
    have hopened := openAggregate_handover { s with timers } flow segment timer policy extras
      armed.sound (by simp only [armed.watch?, if_true, ne_eq, reduceCtorEq, not_false_eq_true])
    -- If storage refuses the frame, the timer that was taken is given back.
    have hboth := (Timers.Handover.armed (n := 1) armed).trans hopened (by decide)
    rcases hopen : openAggregate { s with timers } flow segment timer policy extras with
      ⟨_ | p, left⟩
    all_goals
      rw [hopen] at hboth
      simp only [hopen]
      exact hboth

theorem merge_handsOver (s : Services) (flow : UInt64) (p : Pending) (segment : Segment)
    (sound : s.timers.Sound) (howned : s.timers.watch? p.timer ≠ none) :
    (s.merge flow p segment).HandsOver s flow (some p) := by
  -- The aggregate goes on with its timer, unless appending fails.
  rcases s.appendSegment_timers p segment with ⟨htimers, htimer⟩
  unfold merge
  rcases happend : s.appendSegment p segment with ⟨cause | p', s1⟩
  all_goals
    rw [happend] at htimers htimer
    simp only at htimers htimer
  · show Timers.Handover 2 flow s.timers (s1.timers.release p.timer) (some p.timer) none
    rw [htimers]
    exact (Timers.Handover.released sound p.timer howned).mono (by decide)
  · show Timers.Handover 2 flow s.timers s1.timers (some p.timer) (some p'.timer)
    rw [htimers, htimer p' rfl]
    exact .kept sound (some p.timer)

/-- However a segment ends an aggregate that it is appended to, the timer is
    given back. If appending fails it is given back twice, and the second time
    changes nothing. -/
theorem mergeThenClose_handsOver (s : Services) (flow : UInt64) (p : Pending) (segment : Segment)
    (sound : s.timers.Sound) (howned : s.timers.watch? p.timer ≠ none) :
    (s.mergeThenClose flow p segment).HandsOver s flow (some p) := by
  have hreleased : Timers.Handover 1 flow s.timers (s.timers.release p.timer) (some p.timer) none :=
    .released sound p.timer howned
  rcases (s.releaseTimer p.timer).appendSegment_timers p segment with ⟨htimers, _⟩
  unfold mergeThenClose
  rcases happend : (s.releaseTimer p.timer).appendSegment p segment with ⟨cause | p', s1⟩
  all_goals
    rw [happend] at htimers
    simp only at htimers
  · show Timers.Handover 2 flow s.timers (s1.timers.release p.timer) (some p.timer) none
    rw [htimers]
    refine hreleased.trans (m := 1) ?_ (by decide)
    -- The first release ended the handle, so the second one is by nobody.
    exact .released_unowned hreleased.sound p.timer
      (hreleased.watch?_ended (by decide) p.timer rfl (Option.some_ne_none _).symm) none
  · show Timers.Handover 2 flow s.timers (s1.closeAggregate p').2.timers (some p.timer) none
    rw [timers_closeAggregate, htimers]
    exact hreleased.mono (by decide)

theorem closeThenPass_handsOver (s : Services) (flow : UInt64) (p : Pending) (segment : Segment)
    (policy : Policy) (sound : s.timers.Sound) (howned : s.timers.watch? p.timer ≠ none) :
    (s.closeThenPass flow p segment policy).HandsOver s flow (some p) := by
  have htimers := timers_relay ((s.releaseTimer p.timer).closeAggregate p).2 segment.frame
  rw [timers_closeAggregate] at htimers
  have hreleased : Timers.Handover 2 flow s.timers (s.timers.release p.timer) (some p.timer) none :=
    (Timers.Handover.released sound p.timer howned).mono (by decide)
  unfold closeThenPass
  rcases hrelay : Services.relay ((s.releaseTimer p.timer).closeAggregate p).2 segment.frame with
    ⟨cause | relayed, s1⟩
  all_goals
    rw [hrelay] at htimers
    simp only at htimers
    simp only [hrelay]
    show Timers.Handover 2 flow s.timers s1.timers (some p.timer) none
    rw [htimers]
    exact hreleased

/-- The timer is renewed for the next aggregate, or given back. -/
theorem closeThenOpen_handsOver (s : Services) (flow : UInt64) (p : Pending) (segment : Segment)
    (policy : Policy) (extras : Extras) (sound : s.timers.Sound)
    (howned : s.timers.watch? p.timer ≠ none) :
    (s.closeThenOpen flow p segment policy extras).HandsOver s flow (some p) := by
  have htimers := s.timers_closeAggregate p
  unfold closeThenOpen
  rcases hclose : s.closeAggregate p with ⟨aggregate, s1⟩
  rw [hclose] at htimers
  simp only at htimers
  -- Closing takes the frame out and leaves the timer, which is then renewed for
  -- the next aggregate. Two handovers, each with at most one release.
  rw [← htimers] at sound howned
  simp only [Turn.HandsOver, ← htimers]
  rcases s1.renewTimer_handover flow p.timer policy sound howned with
    ⟨cause, hresult, hgone⟩ | ⟨timer, hresult, hrenewed, hwatch⟩
  all_goals
    rcases hrenew : s1.renewTimer flow p.timer policy with ⟨result, s2⟩
    simp only [hrenew] at hresult
    subst hresult
  · rw [hrenew] at hgone
    exact hgone.mono (by decide)
  · rw [hrenew] at hrenewed hwatch
    have hopened := s2.openAggregate_handover flow segment timer policy extras hrenewed.sound hwatch
    have hboth := hrenewed.trans hopened (by decide)
    simp only
    rcases hopen : s2.openAggregate flow segment timer policy extras with ⟨_ | next, s3⟩
    all_goals
      rw [hopen] at hboth
      exact hboth

/-- A segment that is offered keeps the timer of the flow, renews it or gives it back. -/
theorem onPending_handsOver (s : Services) (flow : UInt64) (p : Pending) (segment : Segment)
    (policy : Policy) (extras : Extras) (sound : s.timers.Sound)
    (howned : s.timers.watch? p.timer ≠ none) :
    (s.onPending flow p segment policy extras).HandsOver s flow (some p) := by
  rcases s.onPending_cases flow p segment policy extras with
    ⟨_, hturn⟩ | ⟨_, hturn⟩ | ⟨_, _, s', _, htimers, _, ⟨_, hturn⟩ | ⟨_, hturn⟩⟩
  all_goals rw [hturn]
  · exact merge_handsOver s flow p segment sound howned
  · exact mergeThenClose_handsOver s flow p segment sound howned
  all_goals
    rw [← htimers] at sound howned
    rw [Turn.HandsOver, ← htimers]
  · exact closeThenOpen_handsOver s' flow p segment policy extras sound howned
  · exact closeThenPass_handsOver s' flow p segment policy sound howned

end Services

namespace Engine

variable (engine : Engine)

/-- A segment that is offered hands the timer of its flow on, as long as that is
    owned. -/
theorem offer_handover (flow : UInt64) (frame : Frame) (policy : Policy) (extras : Extras)
    (sound : engine.services.timers.Sound)
    (howned : ∀ p, engine.pending flow = some p →
      engine.services.timers.watch? p.timer ≠ none) :
    Timers.Handover 2 flow engine.services.timers
      (engine.offer flow frame policy extras).2.services.timers
      ((engine.pending flow).map Pending.timer)
      (((engine.offer flow frame policy extras).2.pending flow).map Pending.timer) := by
  rcases engine.offer_cases flow frame policy extras with
    ⟨_, hpending, _, htimers⟩ | ⟨segment, _, _, hpending, hservices⟩
  · rw [htimers, hpending]
    exact .kept sound _
  · rw [hservices, hpending, if_pos rfl]
    unfold turn
    rcases hp : engine.pending flow with _ | p
    · exact Services.onIdle_handsOver flow segment policy extras sound
    · exact Services.onPending_handsOver engine.services flow p segment policy extras sound
        (howned p hp)

/-- Closing on request gives the timer back, and touches no other. -/
theorem flushed_timers (flow : UInt64) (p : Pending) :
    (engine.flushed flow p).2.timers = engine.services.timers.release p.timer := by
  -- Counting and closing happen around the release.
  simp only [flushed, Services.timers_closeAggregate, Services.timers_note]
  split <;> rfl

end Engine

end ReceiveOffload
