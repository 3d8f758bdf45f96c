import ReceiveOffload.Proofs.TimerCalls

/-!
# Registering a Pool Again

A pool that is registered under an identifier that is taken has fresh slots, and
whatever was armed in the one before is gone. The handles to it are not. Under them
nothing is owned at first, and it stays so while no timer is armed under the same
handle again.

That can happen. A generation says how often the slot was released since its pool
was registered, so the first arming of a slot always has the same handle. Whoever
kept the old one owns the new timer by it, and can cancel it.

## Theorems

* `Custody.owned?_replaced`: What was not armed again owns nothing.
* `Custody.generation_of_issued`: When a handle is given out again.
* `replaced_stale_iff`: The handles to a pool that was replaced are stale as long as
  they are not given out again.
-/

namespace ReceiveOffload

namespace Custody

/-- Under a handle to a pool that was replaced nothing is owned, unless it was given
    out again. -/
theorem owned?_replaced (before : List TimerCall) (capacity : Nat) (handle : TimerId)
    (calls : List TimerCall)
    (hnew : ∀ more setup, more ++ [.arm setup] <+: calls →
      ((run (before ++ .register handle.pool capacity :: more)).timers.arm setup).1
        ≠ .ok handle) :
    (run (before ++ .register handle.pool capacity :: calls)).timers.owned? handle = none := by
  induction calls using List.reverseRecOn with
  | nil =>
      rw [run_concat]
      exact ((run before).timers.owned?_register handle.pool capacity handle).trans (if_pos rfl)
  | append_singleton calls call ih =>
      have hnone := ih fun more setup hmore =>
        hnew more setup (hmore.trans (List.prefix_append calls [call]))
      rw [← List.cons_append, ← List.append_assoc, run_concat]
      refine TimerCall.owned?_eq_none (sound_run _) call handle hnone ?_
      rintro setup rfl
      exact hnew calls setup (List.prefix_refl _)

/-- A generation counts the releases of the slot since its pool was registered. -/
theorem counted_replaced (before : List TimerCall) (pool capacity slot : Nat)
    (calls : List TimerCall) (honce : pool ∉ calls.filterMap TimerCall.registered?) :
    ∃ n, (run (before ++ .register pool capacity :: calls)).releases pool slot
        = (run before).releases pool slot + n ∧
      (run (before ++ .register pool capacity :: calls)).timers.generation pool slot
        = UInt32.ofNat n := by
  induction calls using List.reverseRecOn with
  | nil =>
      rw [run_concat]
      exact ⟨0, rfl, ((run before).timers.generation_register pool capacity pool slot).trans
        (if_pos rfl)⟩
  | append_singleton calls call ih =>
      rw [List.filterMap_append, List.mem_append, not_or] at honce
      rcases ih honce.1 with ⟨n, hreleases, hgeneration⟩
      have hkeeps : call.registered? ≠ some pool := fun hregister =>
        honce.2 (by simp [hregister])
      rw [← List.cons_append, ← List.append_assoc, run_concat]
      refine ⟨n + call.frees (run (before ++ .register pool capacity :: calls)).timers pool slot,
        ?_, (TimerCall.generation_eq (sound_run _) call pool slot hkeeps).trans ?_⟩
      · simp only [step, hreleases, Nat.add_assoc]
      · rw [hgeneration, UInt32.ofNat_add]

/-- A handle is given out again when its slot was released as often since the
    replacement as it says. -/
theorem generation_of_issued (before : List TimerCall) (capacity : Nat) (handle : TimerId)
    (calls : List TimerCall) (honce : handle.pool ∉ calls.filterMap TimerCall.registered?)
    (setup : TimerSetup)
    (h : ((run (before ++ .register handle.pool capacity :: calls)).timers.arm setup).1
      = .ok handle) :
    ∃ n, (run (before ++ .register handle.pool capacity :: calls)).releases handle.pool handle.slot
        = (run before).releases handle.pool handle.slot + n ∧
      handle.generation = UInt32.ofNat n := by
  rcases counted_replaced before handle.pool capacity handle.slot calls honce with
    ⟨n, hreleases, hgeneration⟩
  refine ⟨n, hreleases, ?_⟩
  rcases Timers.arm_cases _ setup
      (sound_run (before ++ .register handle.pool capacity :: calls)) with
    ⟨cause, hresult⟩ | ⟨other, timers', hresult, armed⟩
  all_goals
    rw [hresult] at h
    cases h
  -- What is given out has the generation of its slot, which arming does not change.
  rw [← hgeneration, ← armed.generation]
  refine (timers'.generation_of_watch? handle ?_).symm
  rw [armed.watch?, if_pos rfl]
  exact Option.some_ne_none _

end Custody

/-- The handles to a pool that was replaced are stale for good if they are not given
    out again, and only then. -/
theorem replaced_stale_iff (before after : List TimerCall) (capacity : Nat) (handle : TimerId) :
    (∀ calls, calls <+: after →
      (Custody.run (before ++ .register handle.pool capacity :: calls)).timers.Stale handle) ↔
    ∀ calls setup, calls ++ [.arm setup] <+: after →
      ((Custody.run (before ++ .register handle.pool capacity :: calls)).timers.arm setup).1
        ≠ .ok handle := by
  simp only [Timers.stale_iff]
  constructor
  · intro hstale calls setup hcalls harm
    -- Whoever is given a handle owns the timer under it.
    have hnone := hstale _ hcalls
    rw [← List.cons_append, ← List.append_assoc, Custody.run_concat,
      ← Timers.watch?_eq_none_iff] at hnone
    rcases Timers.arm_cases _ setup
        (Custody.sound_run (before ++ .register handle.pool capacity :: calls)) with
      ⟨cause, hresult⟩ | ⟨other, timers', hresult, armed⟩
    · rw [hresult] at harm
      cases harm
    · rw [hresult] at harm
      cases harm
      simp only [Custody.step, TimerCall.timers, hresult, armed.watch?, if_true] at hnone
      cases hnone
  · intro hnew calls hcalls
    exact Custody.owned?_replaced before capacity handle calls fun more setup hmore =>
      hnew more setup (hmore.trans hcalls)

/-- A timer is armed in a pool of one slot. -/
def armedBefore : List TimerCall := [
  .register 0 1,
  .arm { pool := 0, duration := 10, flow := 7 }
]

/-- The pool is replaced, and a timer is armed for another flow. -/
def armedAgain : List TimerCall :=
  armedBefore ++ [.register 0 1, .arm { pool := 0, duration := 10, flow := 8 }]

/-- The handle from before the replacement owns the new timer, and cancels it. -/
theorem not_stale_armedAgain :
    ⟨0, 0, 0⟩ ∈ (Custody.run armedBefore).issued ∧
      ¬ (Custody.run armedAgain).timers.Stale ⟨0, 0, 0⟩ ∧
      ((Custody.run armedAgain).timers.arming? ⟨0, 0, 0⟩).map Arming.flow = some 8 ∧
      (Custody.run armedAgain).timers.taken 0 = 1 ∧
      ((Custody.run armedAgain).timers.release ⟨0, 0, 0⟩).taken 0 = 0 := by
  rw [Timers.stale_iff]
  decide +kernel

end ReceiveOffload
