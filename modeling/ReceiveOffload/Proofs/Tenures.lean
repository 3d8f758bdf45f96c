import ReceiveOffload.Proofs.TimerCalls

/-!
# Every Handle Has Its Time

A slot is given to one handle after another. That a handle owns it for its tenure,
and not before or after, rests on generations: a release raises that of the slot,
so whatever was given out for it before is older and owns nothing. A handle that is
given out has the generation of its slot, so it is not one of the older ones, as
long as no generation came around.

Pools are registered once here. In a pool that is registered again generations
start again as well.

## Main definitions

* `Custody.Old`: The slot of a handle was released since.
* `Custody.Counted`: The generation of a slot is how often it was released.
* `Custody.Kept`: What a handle owns is what its tenure says.
* `Timers.Stocked`: The free slots of a pool are a stack that misses none.
* `Custody.Orderly`: What whoever calls the timers can rely on.

## Theorems

* `Custody.Kept.step`: Every call keeps to the tenures.
* `Custody.kept_run`: So does every list of calls.
* `orderly_run`: Whatever is called, slots are given out in order.
-/

namespace ReceiveOffload

/-- However often a handle ran out, it did so once. -/
theorem Tenure.foldl_ranOut (tenure : Tenure) (deeds : List Deed)
    (h : ∀ deed ∈ deeds, deed = .ranOut) (hne : deeds ≠ []) :
    deeds.foldl after tenure = tenure.after .ranOut := by
  induction deeds generalizing tenure with
  | nil => exact absurd rfl hne
  | cons deed deeds ih =>
      rw [List.foldl_cons, h deed List.mem_cons_self]
      by_cases hnil : deeds = []
      · rw [hnil, List.foldl_nil]
      · rw [ih _ (fun d hd => h d (List.mem_cons_of_mem deed hd)) hnil]
        cases tenure <;> rfl

/-- What has ended stays ended. -/
theorem Tenure.foldl_ended (deeds : List Deed) : deeds.foldl after ended = ended := by
  induction deeds with
  | nil => rfl
  | cons deed deeds ih => exact ih

namespace Custody

theorem tenure_run_append (calls more : List TimerCall) {handle : TimerId}
    (h : (run calls).tenure handle = .ended) : (run (calls ++ more)).tenure handle = .ended := by
  induction more using List.reverseRecOn with
  | nil => rwa [List.append_nil]
  | append_singleton more call ih =>
      rw [← List.append_assoc, run_concat, tenure_step, ih, Tenure.foldl_ended]

/-- The slot of the handle was released since it was armed under it. -/
def Old (c : Custody) (handle : TimerId) : Prop :=
  ∃ n < c.releases handle.pool handle.slot, handle.generation = UInt32.ofNat n

/-- The generation of a slot is how often it was released. -/
def Counted (c : Custody) : Prop :=
  ∀ pool slot, c.timers.generation pool slot = UInt32.ofNat (c.releases pool slot)

/-- No slot was released so often that its generation came around. -/
def FewReleases (c : Custody) : Prop :=
  ∀ pool slot, c.releases pool slot < 2 ^ 32

/-- What a handle owns is what its tenure says. -/
structure Kept (c : Custody) : Prop where
  watched : ∀ handle, c.timers.watch? handle = (c.tenure handle).watch?
  ended : ∀ handle, c.tenure handle = .ended → c.Old handle
  distinct : c.issued.Nodup

theorem releases_le_step (c : Custody) (call : TimerCall) (pool slot : Nat) :
    c.releases pool slot ≤ (c.step call).releases pool slot ∧
      (c.step call).releases pool slot ≤ c.releases pool slot + 1 := by
  have hle := call.frees_le_one c.timers pool slot
  simp only [step]
  omega

theorem FewReleases.of_step {c : Custody} {call : TimerCall} (h : (c.step call).FewReleases) :
    c.FewReleases :=
  fun pool slot => Nat.lt_of_le_of_lt (c.releases_le_step call pool slot).1 (h pool slot)

/-- What is old stays old. -/
theorem Old.step {c : Custody} {handle : TimerId} (h : c.Old handle) (call : TimerCall) :
    (c.step call).Old handle := by
  rcases h with ⟨n, hlt, hgeneration⟩
  exact ⟨n, Nat.lt_of_lt_of_le hlt (c.releases_le_step call _ _).1, hgeneration⟩

namespace Kept

variable {c : Custody} (h : c.Kept) {call : TimerCall}
include h

/-- A call keeps to the tenures under which nobody gets a slot or loses one, and
    nothing is seen that would say so. -/
theorem quiet
    (hwatch : ∀ handle, (call.timers c.timers).watch? handle = c.timers.watch? handle)
    (htenure : ∀ handle, (c.step call).tenure handle = c.tenure handle)
    (hissued : issuedOf (call.sightings c.timers) = []) : (c.step call).Kept where
  watched := by
    intro handle
    rw [htenure, ← h.watched]
    exact hwatch handle
  ended := by
    intro handle hended
    rw [htenure] at hended
    exact (h.ended handle hended).step call
  distinct := by
    rw [issued_step, hissued, List.append_nil]
    exact h.distinct

/-- A call that takes its slot from a handle ends the tenure of that handle. -/
theorem freeing (counted : c.Counted) {handle : TimerId}
    (hfreed : call.freed? c.timers = some handle)
    (htenure : ∀ other, (c.step call).tenure other
      = if handle = other then .ended else c.tenure other)
    (hissued : issuedOf (call.sightings c.timers) = []) : (c.step call).Kept := by
  rcases TimerCall.timers_of_freed hfreed with ⟨htimers, howned⟩
  constructor
  case watched =>
    intro other
    show (call.timers c.timers).watch? other = _
    rw [htimers, c.timers.watch?_release, htenure]
    by_cases hother : handle = other
    · rw [if_pos hother, if_pos hother]
      rfl
    · rw [if_neg hother, if_neg hother]
      exact h.watched other
  case ended =>
    intro other hended
    rw [htenure] at hended
    by_cases hother : handle = other
    · -- It had the generation that its slot had before.
      have hgeneration := c.timers.generation_of_watch? handle howned
      rw [counted] at hgeneration
      refine ⟨_, ?_, hother ▸ hgeneration.symm⟩
      simp only [Custody.step, TimerCall.frees_of_some hfreed, hother, and_self, if_true]
      exact Nat.lt_succ_self _
    · rw [if_neg hother] at hended
      exact (h.ended other hended).step call
  case distinct =>
    rw [issued_step, hissued, List.append_nil]
    exact h.distinct

/-- A handle that gets a slot was never given out before. -/
theorem unissued_of_armed (counted : c.Counted) (hfew : c.FewReleases) {setup : TimerSetup}
    {handle : TimerId} {timers : Timers} (armed : c.timers.Armed setup.flow handle timers) :
    c.tenure handle = .unissued := by
  have hunowned := armed.unowned
  rw [h.watched] at hunowned
  rcases htenure : c.tenure handle with _ | flow | _ | _
  case unissued => rfl
  case running | fired =>
    rw [htenure] at hunowned
    cases hunowned
  case ended =>
    -- Its tenure would have ended, and it would be too old for what it got.
    rcases h.ended handle htenure with ⟨n, hlt, hgeneration⟩
    have hold := timers.watch?_of_older handle n _ hgeneration
      ((armed.generation _ _).trans (counted _ _)) hlt (hfew _ _)
    rw [armed.watch?, if_pos rfl] at hold
    cases hold

theorem arm (sound : c.timers.Sound) (counted : c.Counted) (hfew : c.FewReleases)
    (setup : TimerSetup) : (c.step (.arm setup)).Kept := by
  rcases c.timers.arm_cases setup sound with ⟨cause, harm⟩ | ⟨handle, timers, harm, armed⟩
  · have hsightings : (TimerCall.arm setup).sightings c.timers = [] := by
      simp only [TimerCall.sightings, harm]
    refine h.quiet (fun _ => ?_) (c.tenure_step_of_nil hsightings) ?_
    · rw [TimerCall.timers, harm]
    · rw [hsightings]
      rfl
  have hunissued := h.unissued_of_armed counted hfew armed
  have htimers : (TimerCall.arm setup).timers c.timers = timers := by rw [TimerCall.timers, harm]
  have hsightings : (TimerCall.arm setup).sightings c.timers = [⟨handle, .armed setup.flow⟩] := by
    simp only [TimerCall.sightings, harm]
  have htenure := c.tenure_step_of_singleton _ hsightings
  constructor
  case watched =>
    intro other
    show ((TimerCall.arm setup).timers c.timers).watch? other = _
    rw [htimers, armed.watch?, htenure]
    by_cases hother : handle = other
    · rw [if_pos hother, if_pos hother, ← hother, hunissued]
      rfl
    · rw [if_neg hother, if_neg hother]
      exact h.watched other
  case ended =>
    intro other hended
    rw [htenure] at hended
    by_cases hother : handle = other
    · rw [if_pos hother, ← hother, hunissued] at hended
      cases hended
    · rw [if_neg hother] at hended
      exact (h.ended other hended).step _
  case distinct =>
    rw [issued_step, hsightings]
    refine List.nodup_append.mpr ⟨h.distinct, List.nodup_singleton handle, ?_⟩
    intro old hold new hnew
    -- Whatever was given out before has started, and this handle had not.
    rw [List.mem_singleton.mp hnew]
    rintro rfl
    exact (c.mem_issued_iff old).mp hold hunissued

theorem release (counted : c.Counted) (handle : TimerId) :
    (c.step (.release handle)).Kept := by
  have htenure := c.tenure_step_of_singleton (.release handle) rfl
  -- With nothing to release the call is void, and so is what is seen of it.
  by_cases hwatch : c.timers.watch? handle = none
  · have htimers : c.timers.release handle = c.timers :=
      ((c.timers.stale_iff handle).mpr ((c.timers.watch?_eq_none_iff handle).mp hwatch)).release
    refine h.quiet (fun _ => ?_) (fun other => ?_) rfl
    · rw [TimerCall.timers, htimers]
    rw [htenure]
    by_cases hother : handle = other
    · rw [if_pos hother, ← hother]
      exact Tenure.after_released_of_none ((h.watched handle).symm.trans hwatch)
    · rw [if_neg hother]
  · refine h.freeing counted (if_pos hwatch) (fun other => ?_) rfl
    rw [htenure]
    by_cases hother : handle = other
    · rw [if_pos hother, if_pos hother, ← hother]
      exact Tenure.after_released_of_some (h.watched handle ▸ hwatch)
    · rw [if_neg hother, if_neg hother]

theorem acknowledge (counted : c.Counted) (handle : TimerId) :
    (c.step (.acknowledge handle)).Kept := by
  have htenure : ∀ other, (c.step (.acknowledge handle)).tenure other
      = if handle = other ∧ c.timers.watch? handle = some .fired then .ended
        else c.tenure other := by
    intro other
    rw [c.tenure_step_of_singleton (.acknowledge handle) rfl, Tenure.after_acknowledged,
      ← h.watched]
    by_cases hother : handle = other
    · simp only [hother, if_true, true_and]
    · rw [if_neg hother, if_neg (fun hboth => hother hboth.1)]
  by_cases hfired : c.timers.watch? handle = some .fired
  · refine h.freeing counted (if_pos hfired) (fun other => ?_) rfl
    simp only [htenure, hfired, and_true]
  · refine h.quiet (fun _ => ?_) (fun other => ?_) rfl
    · rw [TimerCall.timers, c.timers.acknowledge_eq, if_neg hfired]
    · rw [htenure, if_neg (fun hboth => hfired hboth.2)]

theorem restart (sound : c.timers.Sound) (handle : TimerId) :
    (c.step (.restart handle)).Kept := by
  rcases c.timers.restart_cases handle sound with
    ⟨cause, hrestart⟩ | ⟨timers, hrestart, restarted⟩
  all_goals
    refine h.quiet (fun _ => ?_) (c.tenure_step_of_nil rfl) rfl
    rw [TimerCall.timers, hrestart]
  exact restarted.watch? _

/-- A pool that is new has slots under which nothing was ever seen. -/
theorem register (id capacity : Nat) (hnew : c.timers.pools.get? id = none) :
    (c.step (.register id capacity)).Kept := by
  refine h.quiet (fun handle => ?_) (c.tenure_step_of_nil rfl) rfl
  refine Timers.watch?_congr ((c.timers.owned?_register id capacity handle).trans ?_)
  by_cases hid : id = handle.pool
  · rw [if_pos hid, c.timers.owned?_of_get?_none handle (hid ▸ hnew)]
  · rw [if_neg hid]

/-- A handle that runs out has fired, and the others go on. -/
theorem tenure_advance (sound : c.timers.Sound) (elapsed : Nat) (handle : TimerId) :
    (c.timers.advance elapsed).2.watch? handle
      = ((c.step (.advance elapsed)).tenure handle).watch? ∧
    ((c.step (.advance elapsed)).tenure handle = .ended → c.tenure handle = .ended) := by
  have hdeeds : ∀ deed ∈ deedsOf handle ((TimerCall.advance elapsed).sightings c.timers),
      deed = .ranOut := by
    intro deed hdeed
    simp only [deedsOf, TimerCall.sightings, List.mem_map, List.mem_filter] at hdeed
    rcases hdeed with ⟨_, ⟨⟨e, _, rfl⟩, _⟩, rfl⟩
    rfl
  by_cases hout : ∃ e ∈ (c.timers.advance elapsed).1, e.handle = handle
  · rcases hout with ⟨e, he, rfl⟩
    rcases Timers.watch?_of_mem_advance sound elapsed e he with ⟨hwaits, hfired⟩
    have hne : deedsOf e.handle ((TimerCall.advance elapsed).sightings c.timers) ≠ [] := by
      refine List.ne_nil_of_mem (a := .ranOut) (List.mem_map.mpr ⟨⟨e.handle, .ranOut⟩, ?_, rfl⟩)
      exact List.mem_filter.mpr ⟨List.mem_map.mpr ⟨e, he, rfl⟩, decide_eq_true rfl⟩
    rw [h.watched] at hwaits
    rw [tenure_step, Tenure.foldl_ranOut _ _ hdeeds hne, hfired]
    -- What waits under it is that its tenure runs.
    rcases htenure : c.tenure e.handle with _ | flow | _ | _ <;> rw [htenure] at hwaits
    case running => exact ⟨rfl, fun hended => by cases hended⟩
    all_goals cases hwaits
  · -- Nothing is seen under the handle, and what it owns does what it did.
    have hnil : deedsOf handle ((TimerCall.advance elapsed).sightings c.timers) = [] := by
      refine List.map_eq_nil_iff.mpr (List.filter_eq_nil_iff.mpr ?_)
      intro s hs
      rcases List.mem_map.mp hs with ⟨e, he, rfl⟩
      exact fun hsame => hout ⟨e, he, of_decide_eq_true hsame⟩
    rw [tenure_step, hnil, List.foldl_nil, ← h.watched]
    exact ⟨(Timers.watch?_advance sound elapsed handle).resolve_right hout, id⟩

theorem advance (sound : c.timers.Sound) (elapsed : Nat) :
    (c.step (.advance elapsed)).Kept where
  watched := fun handle => (h.tenure_advance sound elapsed handle).1
  ended := fun handle hended =>
    (h.ended handle ((h.tenure_advance sound elapsed handle).2 hended)).step (.advance elapsed)
  distinct := by
    have hnone : issuedOf ((TimerCall.advance elapsed).sightings c.timers) = [] := by
      refine List.filterMap_eq_nil_iff.mpr ?_
      intro s hs
      rcases List.mem_map.mp hs with ⟨e, _, rfl⟩
      rfl
    rw [issued_step, hnone, List.append_nil]
    exact h.distinct

/-- Every call keeps to the tenures, unless it registers a pool again. -/
theorem step (sound : c.timers.Sound) (counted : c.Counted) (hfew : c.FewReleases)
    (call : TimerCall)
    (hnew : ∀ id, call.registered? = some id → c.timers.pools.get? id = none) :
    (c.step call).Kept := by
  cases call with
  | register id capacity => exact h.register id capacity (hnew id rfl)
  | arm setup => exact h.arm sound counted hfew setup
  | release handle => exact h.release counted handle
  | restart handle => exact h.restart sound handle
  | acknowledge handle => exact h.acknowledge counted handle
  | advance elapsed => exact h.advance sound elapsed

end Kept

/-- Whatever is called, every handle owns its slot for its tenure. -/
theorem kept_run (calls : List TimerCall)
    (honce : (calls.filterMap TimerCall.registered?).Nodup) (hfew : (run calls).FewReleases) :
    (run calls).Kept := by
  induction calls using List.reverseRecOn with
  | nil =>
      constructor
      case watched => exact fun _ => rfl
      case ended => exact fun _ h => by cases h
      case distinct => exact List.nodup_nil
  | append_singleton calls call ih =>
      rw [List.filterMap_append, List.nodup_append] at honce
      rw [run_concat] at hfew ⊢
      refine (ih honce.1 hfew.of_step).step (sound_run calls) (counted_run calls honce.1)
        hfew.of_step call fun id hid => ?_
      -- What is registered now was not registered before, so it is not there yet.
      rw [get?_run]
      intro hearlier
      exact honce.2.2 id hearlier id (by simp [hid]) rfl

/-- A slot is not released more often than something is called. -/
theorem releases_le_run (calls : List TimerCall) (pool slot : Nat) :
    (run calls).releases pool slot ≤ calls.length := by
  induction calls using List.reverseRecOn with
  | nil => exact Nat.le_refl 0
  | append_singleton calls call ih =>
      have hstep := ((run calls).releases_le_step call pool slot).2
      rw [run_concat, List.length_append, List.length_singleton]
      omega

end Custody

/-- The free slots of a pool are a stack that misses none and has none twice. -/
structure Timers.Stocked (timers : Timers) (id capacity : Nat) (pool : SlotPool) : Prop where
  found : timers.pools.get? id = some pool
  nodup : pool.free.Nodup
  mem_free : ∀ i, i ∈ pool.free ↔ i < capacity ∧ pool.state i = .free
  /-- What is counted is what is armed or has fired. -/
  taken : timers.taken id
    = ((List.range capacity).filter fun i => pool.state i ≠ .free).length
  refused : ∀ setup, setup.pool = id →
    ((∃ cause, (timers.arm setup).1 = .error cause) ↔ ∀ i < capacity, pool.state i ≠ .free)
  /-- The slot in front is given out, and the others are left. -/
  popped : ∀ setup handle, setup.pool = id → (timers.arm setup).1 = .ok handle →
    ∃ pool', (timers.arm setup).2.pools.get? id = some pool' ∧
      pool.free = handle.slot :: pool'.free
  /-- A slot that its owner releases is put in front. -/
  pushed : ∀ handle, handle.pool = id → timers.owned? handle ≠ none →
    ∃ pool', (timers.release handle).pools.get? id = some pool' ∧
      pool'.free = handle.slot :: pool.free

theorem Timers.Sound.stocked {timers : Timers} (h : timers.Sound) {id : Nat} {pool : SlotPool}
    (hget : timers.pools.get? id = some pool) (fits : pool.Fits) :
    timers.Stocked id pool.capacity pool := by
  have sound := h.pools id pool hget
  constructor
  case found => exact hget
  case nodup => exact SlotPool.nodup_free sound
  case mem_free => exact SlotPool.mem_free_iff sound fits
  case taken =>
    rw [Timers.taken, hget]
    exact SlotPool.taken_eq sound fits
  case refused =>
    rintro setup rfl
    rw [← SlotPool.arm_eq_none_iff sound fits (setup.arming timers.now),
      timers.arm_eq setup pool hget]
    rcases pool.arm (setup.arming timers.now) with _ | ⟨i, g, pool'⟩ <;> simp
  -- A slot that is taken comes from the front of the list of free ones.
  case popped =>
    rintro setup handle rfl hhandle
    rw [timers.arm_eq setup pool hget] at hhandle ⊢
    rcases harm : pool.arm (setup.arming timers.now) with _ | ⟨i, g, pool'⟩
    all_goals
      rw [harm] at hhandle
      cases hhandle
    refine ⟨pool', ?_, SlotPool.free_arm harm⟩
    exact (Table.get?_insert _ _ _ _).trans (if_pos rfl)
  case pushed =>
    rintro handle rfl howned
    rw [timers.owned?_of_get? handle pool hget] at howned
    refine ⟨_, ?_, pool.free_release handle.slot handle.generation howned⟩
    simp only [Timers.release, hget, Table.get?_insert, if_true]

/-- What whoever calls the timers can rely on. -/
structure Custody.Orderly (c : Custody) (calls : List TimerCall) : Prop where
  stocked : ∀ id capacity, .register id capacity ∈ calls →
    ∃ pool, c.timers.Stocked id capacity pool
  /-- No handle is given out twice. -/
  distinct : c.issued.Nodup
  /-- A handle owns its slot from when it is given out until it is released, or is
      acknowledged after it ran out. -/
  owner : ∀ handle, c.timers.owned? handle ≠ none ↔
    (∃ flow, c.tenure handle = .running flow) ∨ c.tenure handle = .fired
  /-- It never owns it again. -/
  ended : ∀ handle more, c.tenure handle = .ended → (run (calls ++ more)).tenure handle = .ended
  /-- Nobody else owns it meanwhile. -/
  alone : ∀ handle other, c.timers.owned? handle ≠ none → c.timers.owned? other ≠ none →
    handle.pool = other.pool → handle.slot = other.slot → handle = other
  /-- It waits for the flow that it was given out for, until it runs out. -/
  armed : ∀ handle flow, (∃ arming, c.timers.arming? handle = some arming ∧ arming.flow = flow) ↔
    c.tenure handle = .running flow
  restarts : ∀ handle, (c.timers.restart handle).1 = .ok () ↔ c.timers.arming? handle ≠ none
  stale : ∀ handle, c.timers.owned? handle = none → c.timers.Stale handle
  /-- What still waits cannot be acknowledged. -/
  early : ∀ handle, c.timers.arming? handle ≠ none → c.timers.acknowledge handle = c.timers

/-- Whatever is called, and with whatever handles, slots are given out in order. -/
theorem orderly_run (calls : List TimerCall)
    (honce : (calls.filterMap TimerCall.registered?).Nodup)
    (hfew : ∀ pool slot, (Custody.run calls).releases pool slot < 2 ^ 32) :
    (Custody.run calls).Orderly calls := by
  have kept := Custody.kept_run calls honce hfew
  constructor
  case stocked =>
    intro id capacity hregister
    rcases Custody.capacity_run calls honce id capacity hregister with ⟨pool, hget, rfl⟩
    exact ⟨pool, (Custody.sound_run calls).stocked hget (Custody.fits_run calls id pool hget)⟩
  case distinct => exact kept.distinct
  case owner =>
    intro handle
    rw [Ne, ← Timers.watch?_eq_none_iff, kept.watched]
    rcases (Custody.run calls).tenure handle with _ | flow | _ | _ <;> simp [Tenure.watch?]
  case ended => exact fun handle more hended => Custody.tenure_run_append calls more hended
  case alone =>
    intro handle other howned hother
    rw [Ne, ← Timers.watch?_eq_none_iff] at howned hother
    exact Timers.eq_of_watch? _ howned hother
  case armed =>
    intro handle flow
    rw [← Timers.watch?_eq_waiting_iff, kept.watched]
    rcases (Custody.run calls).tenure handle with _ | flow | _ | _ <;> simp [Tenure.watch?]
  case restarts =>
    intro handle
    rcases (Custody.run calls).timers.restart_eq handle with
      ⟨cause, hidle, hrestart⟩ | ⟨arming, timers, harming, hrestart, _⟩
    · simp [hidle, hrestart]
    · simp [harming, hrestart]
  case stale => exact fun handle => (Timers.stale_iff _ handle).mpr
  case early =>
    intro handle hwaits
    rcases Option.ne_none_iff_exists'.mp hwaits with ⟨arming, harming⟩
    rw [Timers.acknowledge_eq, Timers.watch?_of_arming? _ handle arming harming]
    exact if_neg (by simp)

/-- A pool of two slots. The first handle is acknowledged too early, and again when
    it has run out, so that a third can be given out, which the first two cannot
    touch. -/
def threeTenures : List TimerCall := [
  .register 0 2,
  .arm { pool := 0, duration := 5, flow := 7 },
  .arm { pool := 0, duration := 9, flow := 8 },
  .arm { pool := 0, duration := 9, flow := 9 },
  .acknowledge ⟨0, 0, 0⟩,
  .advance 5,
  .restart ⟨0, 0, 0⟩,
  .acknowledge ⟨0, 0, 0⟩,
  .arm { pool := 0, duration := 9, flow := 9 },
  .release ⟨0, 0, 0⟩,
  .release ⟨0, 1, 0⟩
]

theorem orderly_run_threeTenures :
    (threeTenures.filterMap TimerCall.registered?).Nodup ∧
      (∀ pool slot, (Custody.run threeTenures).releases pool slot < 2 ^ 32) ∧
      (Custody.run threeTenures).Orderly threeTenures := by
  have honce : (threeTenures.filterMap TimerCall.registered?).Nodup := by decide
  have hfew : ∀ pool slot, (Custody.run threeTenures).releases pool slot < 2 ^ 32 := by
    intro pool slot
    exact Nat.lt_of_le_of_lt (Custody.releases_le_run threeTenures pool slot) (by decide)
  exact ⟨honce, hfew, orderly_run threeTenures honce hfew⟩

example : (Custody.run threeTenures).issued = [⟨0, 0, 0⟩, ⟨0, 1, 0⟩, ⟨0, 0, 1⟩] ∧
    (Custody.run threeTenures).timers.taken 0 = 1 := by decide +kernel

end ReceiveOffload
