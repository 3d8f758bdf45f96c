import ReceiveOffload.Proofs.Terms
import ReceiveOffload.Proofs.Timeouts

/-!
# Under Whose Policy an Aggregate Times Out

Every call brings a policy of its own, but a timer that is passed on to the next
aggregate of its flow keeps what it was told when it was taken. So an aggregate
that was opened by closing another one times out under the policy of the one
before, as that may have, and only the time is counted anew. Where there was none
before, or its timer had fired, the call's own policy holds.

A lease keeps the two policies of an aggregate apart, the one that its call asked
for and the one that its timer was granted. Both came with calls on the same
flow, so a flow that is always offered segments under the same terms times out
under them.

## Main definitions

* `Opening.Under`: The timer of an aggregate is as a policy asks for.
* `Lease`: The policies that an aggregate was opened under.
* `Tenancy.run`: What a list of steps comes to, with the leases.
* `Tenancy.Signed`: A lease and the calls that it goes back to.
* `Tenancy.Honoured`: Flows time out as their leases say.

## Theorems

* `Chronicle.offer_of_opening`: What opens an aggregate is a segment that is
  offered, and what its timer was told.
* `Tenancy.leased_run`: Whatever is pending has a lease, and its timer the terms
  that were granted.
* `timeouts_leased`: Whatever happens, the leases are honoured.
-/

namespace ReceiveOffload

/-- What the timer of a flow was told, if there is one and it waits. -/
def World.terms? (w : World) (flow : UInt64) : Option Terms :=
  (w.timer? flow).bind w.timers.terms?

/-- The policies that an aggregate was opened under. -/
structure Lease where
  /-- What the call asked for that opened it. -/
  asked : Policy
  /-- What its timer was told when it was taken. -/
  granted : Policy
  deriving DecidableEq, Repr

/-- The timer of the aggregate is as the policy asks for, counted from the
    opening. -/
structure Opening.Under (o : Opening) (policy : Policy) : Prop where
  deadline : o.arming.deadline
    = instantAfter o.clock (policy.timeout * policy.granularity.milliseconds)
  completion : o.arming.completion = policy.completion

namespace Opening.Under

variable {o : Opening} {policy policy' : Policy}

/-- A timer with the terms of a policy, counted from the opening, is as the policy
    asks for. -/
theorem of_terms (counted : o.arming.deadline = instantAfter o.clock o.arming.duration)
    (hterms : o.arming.terms = policy.terms) : o.Under policy where
  deadline := by
    rw [counted, show o.arming.duration = _ from congrArg Terms.duration hterms]
    rfl
  completion := congrArg Terms.completion hterms

/-- What a policy asks for is its terms. -/
theorem congr (under : o.Under policy) (hterms : policy.terms = policy'.terms) :
    o.Under policy' where
  deadline := by
    have hduration := congrArg Terms.duration hterms
    rw [under.deadline, show policy.timeout * policy.granularity.milliseconds = _ from hduration]
    rfl
  completion := under.completion.trans (congrArg Terms.completion hterms)

end Opening.Under

namespace Chronicle

theorem steps_run (setup : Setup) (steps : List Step) :
    (run setup steps).steps = steps.length := by
  induction steps using List.reverseRecOn with
  | nil => rfl
  | append_singleton steps s ih =>
      rw [run_concat, step, ih, List.length_append, List.length_singleton]

/-- What is put down after a step was opened by it, or was put down before and
    nothing was opened on the flow. -/
theorem current?_step_cases (c : Chronicle) (s : Step) (flow : UInt64) (o : Opening)
    (h : (c.step s).current? flow = some o) :
    (c.opening? s = some o ∧ o.flow = flow) ∨
      (c.current? flow = some o ∧ (c.opening? s).filter (fun o => o.flow = flow) = none) := by
  simp only [step, Option.ite_none_right_eq_some] at h
  rcases hopened : (c.opening? s).filter (fun o => o.flow = flow) with _ | o'
  · rw [hopened, Option.none_or] at h
    exact Or.inr ⟨h.2, hopened⟩
  · rw [hopened, Option.some_or, Option.some.injEq] at h
    rcases h with ⟨_, rfl⟩
    rw [Option.filter_eq_some_iff, decide_eq_true_iff] at hopened
    exact Or.inl hopened

/-- A step that opens an aggregate offers a segment, and the timer has the terms of
    the aggregate before it or those of the call. -/
theorem offer_of_opening (c : Chronicle) (sound : c.world.timers.Sound)
    (howned : ∀ flow handle, c.world.timer? flow = some handle →
      c.world.timers.watch? handle ≠ none) (s : Step) (o : Opening)
    (h : c.opening? s = some o) :
    ∃ frame policy extras, s = .offer o.flow frame policy extras ∧ o.number = c.steps ∧
      o.clock = c.world.timers.now ∧
      o.arming.terms = (c.world.terms? o.flow).getD policy.terms := by
  cases s with
  | offer flow frame policy extras =>
      have hnow := (c.world.engine.offer_handover flow frame policy extras sound (fun p hp =>
        howned flow p.timer ((c.world.timer?_eq_some_iff flow p.timer).mpr ⟨p, hp, rfl⟩))).now
      have hgrants := c.world.engine.offer_grants flow frame policy extras sound
      rcases hoffer : c.world.engine.offer flow frame policy extras with ⟨output, engine⟩
      rw [hoffer] at hgrants hnow
      simp only [opening?, hoffer, Option.ite_none_right_eq_some, Option.bind_eq_some_iff,
        Option.map_eq_some_iff] at h
      rcases h with ⟨hsaid, p, hp, arming, harming, rfl⟩
      refine ⟨frame, policy, extras, rfl, rfl, hnow, ?_⟩
      -- What the engine told the timer is what was found under its handle afterwards.
      have hterms := hgrants hsaid p hp
      rw [Timers.terms?_of_arming? harming, Option.some.injEq] at hterms
      exact hterms
  | flush | advance | deliver | refuse => cases h

end Chronicle

/-- A chronicle, and the lease of the aggregate that each flow opened last. -/
structure Tenancy where
  chronicle : Chronicle
  lease? : UInt64 → Option Lease := fun _ => none

namespace Tenancy

/-- The lease of an aggregate that a call opens now. If there is a timer that waits
    it is passed on, with what it was told. -/
def sign (t : Tenancy) (flow : UInt64) (policy : Policy) : Lease where
  asked := policy
  granted :=
    match t.chronicle.world.terms? flow, t.lease? flow with
    | some _, some lease => lease.granted
    | _, _ => policy

/-- The lease that a step signs for a flow. -/
def signed? (t : Tenancy) (flow : UInt64) : Step → Option Lease
  | .offer flow' frame policy extras =>
    ((t.chronicle.opening? (.offer flow' frame policy extras)).filter fun o => o.flow = flow).map
      fun _ => t.sign flow policy
  | _ => none

/-- What a step comes to. -/
def step (t : Tenancy) (s : Step) : Tenancy where
  chronicle := t.chronicle.step s
  lease? flow := (t.signed? flow s).or (t.lease? flow)

theorem lease?_step (t : Tenancy) (s : Step) (flow : UInt64) :
    (t.step s).lease? flow = (t.signed? flow s).or (t.lease? flow) :=
  rfl

/-- What a list of steps comes to. -/
def run (setup : Setup) (steps : List Step) : Tenancy :=
  steps.foldl step { chronicle := { world := .start setup } }

theorem run_concat (setup : Setup) (steps : List Step) (s : Step) :
    run setup (steps ++ [s]) = (run setup steps).step s := by
  simp only [run, List.foldl_append, List.foldl_cons, List.foldl_nil]

/-- Keeping leases changes nothing. -/
theorem chronicle_run (setup : Setup) (steps : List Step) :
    (run setup steps).chronicle = .run setup steps := by
  induction steps using List.reverseRecOn with
  | nil => rfl
  | append_singleton steps s ih =>
      rw [run_concat, Chronicle.run_concat, ← ih]
      rfl

/-- A lease of a flow was signed by the call that opened the aggregate. -/
structure Signed (setup : Setup) (steps : List Step) (flow : UInt64) (o : Opening)
    (lease : Lease) : Prop where
  asked : ∃ frame extras, steps[o.number]? = some (.offer flow frame lease.asked extras)
  clock : o.clock = (World.run setup (steps.take o.number)).timers.now
  signed : lease = (run setup (steps.take o.number)).sign flow lease.asked
  /-- What was granted was asked for by this call or by an earlier one on the
      flow. -/
  source : ∃ n ≤ o.number, ∃ frame extras,
    steps[n]? = some (.offer flow frame lease.granted extras)

namespace Signed

variable {setup : Setup} {steps : List Step} {flow : UInt64} {o : Opening} {lease : Lease}

theorem lt_length (h : Signed setup steps flow o lease) : o.number < steps.length := by
  rcases h.asked with ⟨frame, extras, hstep⟩
  exact (List.getElem?_eq_some_iff.mp hstep).1

/-- What was signed stays signed. -/
theorem concat (h : Signed setup steps flow o lease) (s : Step) :
    Signed setup (steps ++ [s]) flow o lease := by
  have hlt := h.lt_length
  have htake : (steps ++ [s]).take o.number = steps.take o.number :=
    List.take_append_of_le_length (Nat.le_of_lt hlt)
  constructor
  case asked =>
    rw [List.getElem?_append_left hlt]
    exact h.asked
  case clock =>
    rw [htake]
    exact h.clock
  case signed =>
    rw [htake]
    exact h.signed
  case source =>
    rcases h.source with ⟨n, hle, hsource⟩
    refine ⟨n, hle, ?_⟩
    rw [List.getElem?_append_left (Nat.lt_of_le_of_lt hle hlt)]
    exact hsource

/-- Where all calls ask for the same, that is what was granted. -/
theorem granted_terms (h : Signed setup steps flow o lease) (terms : Terms)
    (hsame : ∀ frame policy extras, .offer flow frame policy extras ∈ steps →
      policy.terms = terms) : lease.granted.terms = lease.asked.terms := by
  rcases h.asked with ⟨frame, extras, hasked⟩
  rcases h.source with ⟨_, _, frame', extras', hgranted⟩
  rw [hsame frame' _ extras' (List.mem_of_getElem? hgranted),
    hsame frame _ extras (List.mem_of_getElem? hasked)]

end Signed

/-- What is pending on a flow has a lease, and its timer the terms that the lease
    grants. -/
def Leased (t : Tenancy) (setup : Setup) (steps : List Step) : Prop :=
  ∀ flow o, t.chronicle.current? flow = some o → ∃ lease, t.lease? flow = some lease ∧
    Signed setup steps flow o lease ∧ o.arming.terms = lease.granted.terms

/-- A timer that waits was told what the lease of its flow grants. -/
theorem Leased.terms {t : Tenancy} {setup : Setup} {steps : List Step}
    (h : t.Leased setup steps) (faithful : t.chronicle.Faithful) (flow : UInt64) (terms : Terms)
    (hterms : t.chronicle.world.terms? flow = some terms) :
    ∃ lease o, t.lease? flow = some lease ∧ Signed setup steps flow o lease ∧
      terms = lease.granted.terms := by
  simp only [World.terms?, Timers.terms?, Option.bind_eq_some_iff, Option.map_eq_some_iff]
    at hterms
  rcases hterms with ⟨timer, htimer, arming, harming, rfl⟩
  rcases faithful.tracked flow timer htimer with ⟨o, hcurrent, tracks⟩
  rcases h flow o hcurrent with ⟨lease, hlease, signed, hgranted⟩
  refine ⟨lease, o, hlease, signed, ?_⟩
  -- The timer waits, so it has not fired.
  rcases tracks.running with harming' | hfired
  · rw [harming, Option.some.injEq] at harming'
    rw [harming', hgranted]
  · rw [Timers.watch?_of_arming? _ timer arming harming] at hfired
    cases hfired

theorem leased_start (setup : Setup) :
    ({ chronicle := { world := .start setup } } : Tenancy).Leased setup [] := by
  intro flow o ho
  cases ho

/-- A lease grants the terms of the timer that waits, if there is one, and they
    were asked for before. -/
theorem Leased.granted {t : Tenancy} {setup : Setup} {steps : List Step}
    (h : t.Leased setup steps) (faithful : t.chronicle.Faithful) (flow : UInt64)
    (policy : Policy) :
    (t.sign flow policy).granted.terms = (t.chronicle.world.terms? flow).getD policy.terms ∧
      ((t.sign flow policy).granted = policy ∨
        ∃ lease o, Signed setup steps flow o lease ∧
          (t.sign flow policy).granted = lease.granted) := by
  rcases hbound : t.chronicle.world.terms? flow with _ | terms
  · simp only [sign, hbound, Option.getD_none, true_or, and_self]
  · rcases h.terms faithful flow terms hbound with ⟨lease, o, hlease, signed, rfl⟩
    simp only [sign, hbound, hlease, Option.getD_some, true_and]
    exact Or.inr ⟨lease, o, signed, rfl⟩

/-- An aggregate that a step opens gets a lease. -/
theorem Leased.opened {setup : Setup} {steps : List Step}
    (h : (run setup steps).Leased setup steps)
    (faithful : (run setup steps).chronicle.Faithful)
    (tended : (run setup steps).chronicle.world.Tended) (s : Step) (o : Opening)
    (ho : (run setup steps).chronicle.opening? s = some o) :
    ∃ lease, (run setup steps).signed? o.flow s = some lease ∧
      Signed setup (steps ++ [s]) o.flow o lease ∧ o.arming.terms = lease.granted.terms := by
  rcases Chronicle.offer_of_opening _ tended.sound tended.watch?_ne_none s o ho with
    ⟨frame, policy, extras, rfl, hnumber, hclock, hterms⟩
  rw [chronicle_run, Chronicle.steps_run] at hnumber
  have hstep : (steps ++ [Step.offer o.flow frame policy extras])[o.number]?
      = some (.offer o.flow frame policy extras) := by
    rw [hnumber, List.getElem?_concat_length]
  have hbefore : (steps ++ [Step.offer o.flow frame policy extras]).take o.number = steps := by
    rw [hnumber, List.take_left]
  rcases h.granted faithful o.flow policy with ⟨hgranted, hsource⟩
  refine ⟨(run setup steps).sign o.flow policy, ?_, ?_, hterms.trans hgranted.symm⟩
  · simp only [signed?, ho, Option.filter_some, decide_true, if_true, Option.map_some]
  constructor
  case asked => exact ⟨frame, extras, hstep⟩
  case clock => rw [hclock, hbefore, chronicle_run, Chronicle.world_run]
  case signed =>
    rw [hbefore]
    rfl
  case source =>
    -- The terms are those of this call, or of the one that the lease was passed on from.
    rcases hsource with hown | ⟨lease, o', signed, hpassed⟩
    · rw [hown]
      exact ⟨o.number, Nat.le_refl _, frame, extras, hstep⟩
    · have hlt := signed.lt_length
      rcases (signed.concat (.offer o.flow frame policy extras)).source with ⟨n, hle, hsource⟩
      rw [hpassed]
      exact ⟨n, by omega, hsource⟩

/-- Every aggregate that is pending has a lease. -/
theorem leased_run (setup : Setup) (steps : List Step)
    (hfew : (World.run setup steps).FewReleases) : (run setup steps).Leased setup steps := by
  induction steps using List.reverseRecOn with
  | nil => exact leased_start setup
  | append_singleton steps s ih =>
      rw [World.run_concat] at hfew
      have hbefore := hfew.of_step
      have h := ih hbefore
      have hfaithful := Chronicle.faithful_run setup steps hbefore
      have htended := World.tended_run setup steps hbefore
      rw [← Chronicle.world_run] at htended
      rw [← chronicle_run] at hfaithful htended
      intro flow o hcurrent
      rw [run_concat] at hcurrent ⊢
      rw [lease?_step]
      rcases Chronicle.current?_step_cases _ s flow o hcurrent with ⟨ho, rfl⟩ | ⟨ho, hother⟩
      · rcases h.opened hfaithful htended s o ho with ⟨lease, hlease, signed, hterms⟩
        rw [hlease, Option.some_or]
        exact ⟨lease, rfl, signed, hterms⟩
      · rcases h flow o ho with ⟨lease, hlease, signed, hterms⟩
        -- The step opened nothing on the flow, so its last lease stands.
        have hnone : (run setup steps).signed? flow s = none := by
          cases s with
          | offer => rw [signed?, hother, Option.map_none]
          | flush | advance | deliver | refuse => rfl
        rw [hnone, Option.none_or]
        exact ⟨lease, hlease, signed.concat s, hterms⟩

/-- The timer of what is pending is as its lease grants. -/
theorem Leased.under {t : Tenancy} {setup : Setup} {steps : List Step}
    (h : t.Leased setup steps) (faithful : t.chronicle.Faithful) (flow : UInt64) (o : Opening)
    (hcurrent : t.chronicle.current? flow = some o) :
    ∃ lease, t.lease? flow = some lease ∧ Signed setup steps flow o lease ∧
      o.Under lease.granted := by
  rcases h flow o hcurrent with ⟨lease, hlease, signed, hterms⟩
  rcases faithful.exists_timer flow o hcurrent with ⟨_, _, tracks⟩
  exact ⟨lease, hlease, signed, .of_terms tracks.counted hterms⟩

/-- Flows time out as their leases say. -/
structure Honoured (t : Tenancy) (setup : Setup) (steps : List Step) : Prop where
  /-- The timer of what is pending was set by the call that opened it, as the lease
      grants. It still waits for that, or it has fired. -/
  leased : ∀ flow p, t.chronicle.world.engine.pending flow = some p → ∃ o lease,
    t.chronicle.current? flow = some o ∧ t.lease? flow = some lease ∧
    Signed setup steps flow o lease ∧ o.timer = p.timer ∧ o.Under lease.granted ∧
    (t.chronicle.world.timers.arming? p.timer = some o.arming ∨
      t.chronicle.world.timers.watch? p.timer = some .fired)
  /-- A segment that opens nothing, and leaves something pending, moves no
      deadline. -/
  unmoved : ∀ flow frame policy extras p,
    (t.chronicle.world.engine.offer flow frame policy extras).1.disposition.newAggregationStarted
      = false →
    (t.chronicle.world.engine.offer flow frame policy extras).2.pending flow = some p →
    t.chronicle.world.timer? flow = some p.timer ∧
      (t.chronicle.world.engine.offer flow frame policy extras).2.services.timers
        = t.chronicle.world.timers
  /-- The expiry that closes what is pending has the deadline and the completion of
      the lease. -/
  fires : ∀ e o, (e, some o) ∈ t.chronicle.issued → t.chronicle.current? e.flow = some o →
    ∃ lease, t.lease? e.flow = some lease ∧
      e.deadline = instantAfter o.clock
        (lease.granted.timeout * lease.granted.granularity.milliseconds) ∧
      e.completion = lease.granted.completion ∧ t.chronicle.world.Finalizes e
  /-- Where all calls on a flow ask for the same, they get it. -/
  steady : ∀ flow o lease terms, t.chronicle.current? flow = some o →
    t.lease? flow = some lease →
    (∀ frame policy extras, .offer flow frame policy extras ∈ steps → policy.terms = terms) →
    o.Under lease.asked

end Tenancy

/-- Whatever happens, an aggregate times out as its lease grants: counted from the
    call that opened it, under the policy of that call or under the one that its
    timer was passed on with. -/
theorem timeouts_leased (setup : Setup) (steps : List Step)
    (hfew : ∀ pool slot, (World.run setup steps).releases pool slot < 2 ^ 32) :
    (Tenancy.run setup steps).chronicle.world = World.run setup steps ∧
      (Tenancy.run setup steps).Honoured setup steps := by
  have hworld : (Tenancy.run setup steps).chronicle.world = World.run setup steps := by
    rw [Tenancy.chronicle_run, Chronicle.world_run]
  refine ⟨hworld, ?_⟩
  have hleased := Tenancy.leased_run setup steps hfew
  have hfaithful := Chronicle.faithful_run setup steps hfew
  have htended := World.tended_run setup steps hfew
  have hbacked := World.backed_run setup steps
  change (World.run setup steps).FewReleases at hfew
  rw [← Tenancy.chronicle_run] at hfaithful
  rw [← hworld] at hfew htended hbacked
  constructor
  case leased =>
    intro flow p hp
    have htimer := (World.timer?_eq_some_iff _ flow p.timer).mpr ⟨p, hp, rfl⟩
    rcases hfaithful.tracked flow p.timer htimer with ⟨o, hcurrent, tracks⟩
    rcases hleased.under hfaithful flow o hcurrent with ⟨lease, hlease, signed, under⟩
    exact ⟨o, lease, hcurrent, hlease, signed, tracks.timer_eq, under, tracks.running⟩
  case unmoved =>
    intro flow frame policy extras p hsaid hp
    exact (Engine.offer_starts _ flow frame policy extras htended.sound).kept hsaid p hp
  case fires =>
    intro e o he hcurrent
    -- The expiry is what came of the timer as it was set for what is pending.
    rcases hfaithful.issued e (some o) he with ⟨o', hentry, harms, _⟩
    cases hentry
    rcases hleased.under hfaithful e.flow o hcurrent with ⟨lease, hlease, _, under⟩
    have hexpiry : e ∈ (Tenancy.run setup steps).chronicle.world.expiries := by
      rw [← hfaithful.listed]
      exact List.mem_map_of_mem he
    have htimer := (hfaithful.current?_iff htended hfew e o he).mp hcurrent
    exact ⟨lease, hlease, harms.deadline_eq.symm.trans under.deadline,
      harms.completion_eq.symm.trans under.completion,
      htended.finalizes hfew hexpiry htimer hbacked⟩
  case steady =>
    intro flow o lease terms hcurrent hlease hsame
    rcases hleased.under hfaithful flow o hcurrent with ⟨lease', hlease', signed, under⟩
    rw [hlease, Option.some.injEq] at hlease'
    subst hlease'
    exact under.congr (signed.granted_terms terms hsame)

/-- Ten milliseconds, and the first receiver is told. -/
def shortPolicy : Policy :=
  { plainPolicy with completion := some ⟨0, 11⟩ }

/-- Fifty milliseconds, and the second receiver is told. -/
def longPolicy : Policy :=
  { plainPolicy with
    timeout := 50
    completion := some ⟨0, 22⟩
    timeout_pos := Nat.zero_lt_succ 49 }

/-- The second segment closes the aggregate of the first and asks for more time. -/
def passedOn : List Step := [
  .offer 7 (plainFrame 1 [1, 2]) shortPolicy {},
  .advance 4,
  .offer 7 (plainFrame 9 [3]) longPolicy {}
]

theorem timeouts_leased_passedOn :
    (∀ pool slot, (World.run {} passedOn).releases pool slot < 2 ^ 32) ∧
      (Tenancy.run {} passedOn).chronicle.world = World.run {} passedOn ∧
      (Tenancy.run {} passedOn).Honoured {} passedOn := by
  have hfew := World.fewReleases_run {} passedOn (by decide)
  exact ⟨hfew, timeouts_leased {} passedOn hfew⟩

example : (Tenancy.run {} passedOn).lease? 7 = some ⟨longPolicy, shortPolicy⟩ := by
  decide +kernel

/-- The second aggregate gets ten milliseconds and not fifty, and it is the receiver
    of the first that will be told. -/
theorem not_under_passedOn :
    ∃ o ∈ (Chronicle.run {} passedOn).current? 7,
      passedOn[o.number]? = some (.offer 7 (plainFrame 9 [3]) longPolicy {}) ∧
      (World.run {} passedOn).timers.arming? o.timer = some o.arming ∧
      (World.run {} (passedOn ++ [.advance 10])).expiries
        = [⟨o.timer, 7, some ⟨0, 11⟩, o.clock + 10⟩] ∧
      ¬ o.Under longPolicy := by
  have hopened : ∃ o ∈ (Chronicle.run {} passedOn).current? 7,
      passedOn[o.number]? = some (.offer 7 (plainFrame 9 [3]) longPolicy {}) ∧
      (World.run {} passedOn).timers.arming? o.timer = some o.arming ∧
      (World.run {} (passedOn ++ [.advance 10])).expiries
        = [⟨o.timer, 7, some ⟨0, 11⟩, o.clock + 10⟩] ∧
      o.arming.completion = some ⟨0, 11⟩ := by
    decide +kernel
  rcases hopened with ⟨o, ho, hstep, harming, hexpiries, hcompletion⟩
  refine ⟨o, ho, hstep, harming, hexpiries, fun under => ?_⟩
  have hcontrary := under.completion
  rw [hcompletion] at hcontrary
  exact absurd hcontrary (by decide)

end ReceiveOffload
