import Mathlib.Algebra.BigOperators.Group.List.Basic
import ReceiveOffload.Proofs.Counters

/-!
# Totals of Counters

A counter that is full stays full, so raising it is not addition, and what it shows
could depend on when it was full and on what came then. It does not. Amounts only ever
add up, and a sum that was cut off on the way is cut off at the end just the same. So a
counter shows the total of all that was ever sent to it, cut off once.

A total knows no order. Calls can be made in any other order, and no call has to be made
in one go: the two halves of a pair reach their counters one after the other, and others
may come between them. That is all that counters shared by several flows have to rely on.

Where the amounts go is said in numbers. The accumulator of a pair is eight addresses
further on, and behind the last address comes the first, so it can be the counter of
another flow, or one that is an accumulator itself.

## Main definitions

* `CounterCall`: What can be asked of counters.
* `Counters.after`: The counters after a list of calls.
* `CounterCall.sent`, `CounterCall.total`: What one call and many send to an address.
* `CounterCall.halves`: The single raises that a call consists of.

## Theorems

* `Counters.raised_call`, `Counters.raised_after`: Counters are raised by what is sent.
* `Counters.read_after_congr`: Only the total counts.
* `counters_show_totals`: What counters show after any calls.
-/

namespace ReceiveOffload

/-- What can be asked of counters: to raise one, or one and the accumulator behind it. -/
inductive CounterCall where
  | raise (address amount : UInt64)
  | raisePair (address amount accumulate : UInt64)
  deriving DecidableEq, Repr

namespace CounterCall

/-- The address is that of the accumulator behind another one. -/
def Behind (address other : UInt64) : Prop :=
  address.toNat = (other.toNat + 8) % 2 ^ 64

instance (address other : UInt64) : Decidable (Behind address other) :=
  inferInstanceAs (Decidable (address.toNat = (other.toNat + 8) % 2 ^ 64))

/-- What a call sends to an address. -/
def sent (address : UInt64) : CounterCall → Nat
  | raise counter amount => if address = counter then amount.toNat else 0
  | raisePair counter amount accumulate =>
    (if address = counter then amount.toNat else 0)
      + if Behind address counter then accumulate.toNat else 0

/-- A call names the addresses of the counters that it raises. -/
def Names (address : UInt64) : CounterCall → Prop
  | raise counter _ => address = counter
  | raisePair counter _ _ => address = counter ∨ Behind address counter

/-- What a list of calls sends to an address. -/
def total (calls : List CounterCall) (address : UInt64) : Nat :=
  (calls.map (sent address)).sum

/-- The single raises that a call consists of. -/
def halves : CounterCall → List CounterCall
  | raise counter amount => [raise counter amount]
  | raisePair counter amount accumulate =>
    [raise counter amount, raise (counter + 8) accumulate]

/-- The accumulator lies eight addresses further on, around the end if need be. -/
theorem behind_iff (address counter : UInt64) :
    Behind address counter ↔ address = counter + 8 := by
  rw [Behind, ← UInt64.toNat_inj, UInt64.toNat_add]
  rfl

/-- A call sends nothing to an address that it does not name. -/
theorem sent_of_not_names (address : UInt64) (call : CounterCall)
    (h : ¬ call.Names address) : call.sent address = 0 := by
  cases call with
  | raise counter amount => exact if_neg h
  | raisePair counter amount accumulate =>
      rw [Names, not_or] at h
      rw [sent, if_neg h.1, if_neg h.2]

@[simp] theorem total_nil (address : UInt64) : total [] address = 0 := rfl

@[simp] theorem total_cons (call : CounterCall) (calls : List CounterCall) (address : UInt64) :
    total (call :: calls) address = call.sent address + total calls address :=
  List.sum_cons

/-- Totals add up. -/
theorem total_append (calls more : List CounterCall) (address : UInt64) :
    total (calls ++ more) address = total calls address + total more address := by
  rw [total, List.map_append, List.sum_append]
  rfl

/-- A total knows no order. -/
theorem total_perm {calls calls' : List CounterCall} (h : calls'.Perm calls)
    (address : UInt64) : total calls' address = total calls address :=
  (h.map (sent address)).sum_eq

/-- The halves of a call send what the call sends. -/
theorem total_halves (call : CounterCall) (address : UInt64) :
    total call.halves address = call.sent address := by
  cases call with
  | raise counter amount => rw [halves, total_cons, total_nil, Nat.add_zero]
  | raisePair counter amount accumulate =>
      simp only [halves, total_cons, total_nil, sent, behind_iff, Nat.add_zero]

/-- It makes no difference to a total that calls are taken apart. -/
theorem total_flatMap_halves (calls : List CounterCall) (address : UInt64) :
    total (calls.flatMap halves) address = total calls address := by
  induction calls with
  | nil => rfl
  | cons call calls ih => rw [List.flatMap_cons, total_append, total_halves, ih, total_cons]

/-- Calls that do not name an address send nothing to it. -/
theorem total_of_not_names (calls : List CounterCall) (address : UInt64)
    (h : ∀ call ∈ calls, ¬ call.Names address) : total calls address = 0 := by
  induction calls with
  | nil => rfl
  | cons call calls ih =>
      rw [List.forall_mem_cons] at h
      rw [total_cons, sent_of_not_names address call h.1, ih h.2]

end CounterCall

namespace Counters

open CounterCall

/-- The counters after one call. -/
def call (counters : Counters) : CounterCall → Counters
  | .raise address amount => counters.raise address amount
  | .raisePair address amount accumulate => counters.raisePair address amount accumulate

/-- The counters after a list of calls. -/
def after (counters : Counters) (calls : List CounterCall) : Counters :=
  calls.foldl call counters

variable (counters : Counters)

theorem after_append (calls more : List CounterCall) :
    counters.after (calls ++ more) = (counters.after calls).after more :=
  List.foldl_append

/-- A call raises every counter by what it sends there. -/
theorem raised_call (call : CounterCall) :
    counters.Raised (counters.call call) fun address => call.sent address := by
  cases call with
  | raise counter amount =>
      have hraised := counters.raised_raise counter amount
      intro address
      simp only [Counters.call, hraised address, Pi.single_apply, sent]
  | raisePair counter amount accumulate =>
      have hraised := (counters.raised_raise counter amount).trans
        ((counters.raise counter amount).raised_raise (counter + 8) accumulate)
      intro address
      simp only [Counters.call, raisePair, hraised address, Pi.add_apply, Pi.single_apply, sent,
        behind_iff]

/-- Calls raise every counter by their total there. -/
theorem raised_after (calls : List CounterCall) :
    counters.Raised (counters.after calls) (total calls) := by
  induction calls generalizing counters with
  | nil => exact .refl counters
  | cons call calls ih => exact (counters.raised_call call).trans (ih (counters.call call))

/-- Only the total counts. -/
theorem read_after_congr (calls calls' : List CounterCall) (address : UInt64)
    (h : total calls' address = total calls address) :
    (counters.after calls').read address = (counters.after calls).read address := by
  rw [← UInt64.toNat_inj, counters.raised_after calls' address,
    counters.raised_after calls address, h]

/-- What a counter shows never goes down. -/
theorem read_le_read_after (calls : List CounterCall) (address : UInt64) :
    counters.read address ≤ (counters.after calls).read address := by
  have hlt := (counters.read address).toNat_lt
  rw [UInt64.le_iff_toNat_le, counters.raised_after calls address]
  exact Nat.le_min.mpr ⟨Nat.le_add_right _ _, Nat.le_sub_one_of_lt hlt⟩

theorem read_empty (address : UInt64) : Counters.read {} address = 0 := by
  rw [read, AddressMap.getD, AddressMap.get?, DigitTree.find?, Option.getD_none]

end Counters

open CounterCall in
/-- After any calls every counter shows the total of what was sent to it, or is full. So it
    makes no difference in which order the calls are made, nor whether something comes
    between the two halves of one. No counter ever shows less than before, and one that is
    not named shows the same. -/
theorem counters_show_totals (calls : List CounterCall) :
    (∀ address, ((Counters.after {} calls).read address).toNat
      = min (2 ^ 64 - 1) (total calls address)) ∧
    (∀ calls', calls'.Perm calls → ∀ address,
      (Counters.after {} calls').read address = (Counters.after {} calls).read address) ∧
    (∀ calls', calls'.Perm (calls.flatMap halves) → ∀ address,
      (Counters.after {} calls').read address = (Counters.after {} calls).read address) ∧
    (∀ more address, (Counters.after {} calls).read address
      ≤ (Counters.after {} (calls ++ more)).read address) ∧
    (∀ more address, (∀ call ∈ more, ¬ call.Names address) →
      (Counters.after {} (calls ++ more)).read address
        = (Counters.after {} calls).read address) := by
  -- All but the first are about totals alone, as a counter shows nothing but its total.
  refine ⟨?_, ?_, ?_, ?_, ?_⟩
  · intro address
    rw [Counters.raised_after {} calls address, Counters.read_empty, UInt64.toNat_zero,
      Nat.zero_add, Nat.min_comm]
    rfl
  · intro calls' hperm address
    exact Counters.read_after_congr {} calls calls' address (total_perm hperm address)
  · intro calls' hperm address
    exact Counters.read_after_congr {} calls calls' address
      ((total_perm hperm address).trans (total_flatMap_halves calls address))
  · intro more address
    rw [Counters.after_append]
    exact Counters.read_le_read_after _ more address
  · intro more address hnames
    refine Counters.read_after_congr {} calls (calls ++ more) address ?_
    rw [total_append, total_of_not_names more address hnames, Nat.add_zero]

/-- The accumulator of the first pair is behind the end of the address space, where another
    call fills the counter. That of the second pair is the counter of the first. -/
def wrappedCalls : List CounterCall :=
  [.raisePair 0xFFFFFFFFFFFFFFF8 5 7, .raise 0 0xFFFFFFFFFFFFFFFD,
    .raisePair 0xFFFFFFFFFFFFFFF0 1 2]

open CounterCall in
theorem counters_show_totals_wrapped :
    (((Counters.after {} wrappedCalls).read 0xFFFFFFFFFFFFFFF8).toNat = 7 ∧
      ((Counters.after {} wrappedCalls).read 0).toNat = 2 ^ 64 - 1) ∧
    (wrappedCalls.reverse.Perm wrappedCalls ∧
      (Counters.after {} wrappedCalls.reverse).read 0
        = (Counters.after {} wrappedCalls).read 0) ∧
    ((wrappedCalls.flatMap halves).reverse.Perm (wrappedCalls.flatMap halves) ∧
      (Counters.after {} (wrappedCalls.flatMap halves).reverse).read 0
        = (Counters.after {} wrappedCalls).read 0) ∧
    (∀ call ∈ wrappedCalls, ¬ call.Names 8) ∧
    (Counters.after {} ([.raise 8 3] ++ wrappedCalls)).read 8
      = (Counters.after {} [.raise 8 3]).read 8 := by
  rcases counters_show_totals wrappedCalls with ⟨htotal, hreordered, hhalved, _, _⟩
  rcases counters_show_totals [.raise 8 3] with ⟨_, _, _, _, hunnamed⟩
  have hnames : ∀ call ∈ wrappedCalls, ¬ call.Names 8 := by
    simp only [wrappedCalls, List.forall_mem_cons, List.not_mem_nil, false_imp_iff, implies_true,
      and_true, Names, not_or]
    decide
  have hreversed := List.reverse_perm (wrappedCalls.flatMap halves)
  exact ⟨⟨htotal 0xFFFFFFFFFFFFFFF8, htotal 0⟩,
    ⟨List.reverse_perm _, hreordered _ (List.reverse_perm _) 0⟩,
    ⟨hreversed, hhalved _ hreversed 0⟩, hnames, hunnamed wrappedCalls 8 hnames⟩

end ReceiveOffload
