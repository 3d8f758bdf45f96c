import ReceiveOffload.Proofs.Calls
import ReceiveOffload.Proofs.Table

/-!
# One Map with Transactions

The records of the flows are spread over shards, each shard is a map of its own, and
whoever works on a record has a copy of it. Nothing of that is meant to be seen. From
outside there is one map, which changes where a copy is committed and nowhere else.

Any number of records can be held at once, so what happens to one lies anywhere
between what happens to the others. `Desk` is the one that calls: the store, and the
guards that it has been given and not let go of. `RecordMap` is the map that is meant,
two functions with neither shards nor guards, and it makes the same answers. The
relation between the two says of every address what was committed, whether it is held
and what its copy is. That is enough because the store answers for an address from
the record under it, which lies in the one shard that the address leads to.

A record that is held cannot be locked again and its holder cannot wait for itself, so
a call that would have to wait, or that needs a guard that is not there, is refused and
changes nothing.

## Main definitions

* `RecordCall`, `RecordAnswer`: Calls on the records of flows, and what comes of them.
* `Desk`: A store with the guards that were given out.
* `RecordMap`: A plain map with transactions.
* `lastCommitted`: What was committed last under an address, by the answers.

## Theorems

* `FlowStore.Placed.setRecord`: Records lie where their addresses lead.
* `RecordMap.receipts_filter`: Calls for one address are answered as if there were no
  others.
* `Desk.Agrees.call`: What comes of a call is what the plain map says.
* `Desk.Agrees.after`, `Desk.Agrees.receipts_eq`: So it is for any sequence of calls.
-/

namespace ReceiveOffload

namespace FlowStore

/-- Every record lies in the shard that its address leads to. -/
def Placed (store : FlowStore) : Prop :=
  ∀ index shard, store.shards.get? index = some shard →
    ∀ address, shard.get? address ≠ none → index = store.shardOf address

/-- There is a shard for every address. -/
theorem shardOf_lt (store : FlowStore) (address : UInt64) :
    store.shardOf address < store.shardCount :=
  Nat.mod_lt _ store.shardCount_pos

theorem snapshot_ofShards (shards : Nat) (address : UInt64) :
    (ofShards shards).snapshot address = none := rfl

/-- There is nothing in new shards that could be out of place. -/
theorem placed_ofShards (shards : Nat) : (ofShards shards).Placed :=
  fun _ _ hshard => absurd hshard nofun

/-- A record is put where its address leads, and the others stay where they are. -/
theorem Placed.setRecord {store : FlowStore} (h : store.Placed) (address : UInt64)
    (record : FlowRecord) : (store.setRecord address record).Placed := by
  intro index shard hshard other hother
  simp only [FlowStore.setRecord, Table.get?_insert] at hshard
  by_cases hindex : store.shardOf address = index
  · -- The shard that was changed has one more record, and that belongs there.
    rw [if_pos hindex, Option.some.injEq] at hshard
    rw [← hshard, Table.get?_insert] at hother
    by_cases heq : address = other
    · rw [← hindex, ← heq]
      rfl
    · rw [if_neg heq, FlowStore.shard, Table.getD, hindex] at hother
      rcases hold : store.shards.get? index with _ | old
      · rw [hold] at hother
        exact absurd rfl hother
      · rw [hold] at hother
        exact h index old hold other hother
  · rw [if_neg hindex] at hshard
    exact h index shard hshard other hother

/-- A record that is put shows under its address only. -/
theorem snapshot_setRecord (store : FlowStore) (a b : UInt64) (r : FlowRecord) :
    (store.setRecord a r).snapshot b = if a = b then r.committed else store.snapshot b := by
  rw [snapshot, record_setRecord, apply_ite FlowRecord.committed]
  rfl

theorem isHeld_setRecord (store : FlowStore) (a b : UInt64) (r : FlowRecord) :
    (store.setRecord a r).isHeld b = if a = b then r.held else store.isHeld b := by
  rw [isHeld, record_setRecord, apply_ite FlowRecord.held]
  rfl

end FlowStore

/-- A call on the records of flows. -/
inductive RecordCall where
  /-- Takes hold of a record. -/
  | lock (address : UInt64)
  /-- Changes the copy of a record that is held. -/
  | edit (address : UInt64) (change : Option Pending → Option Pending)
  /-- Writes the copy back and lets go of the record. -/
  | commit (address : UInt64)
  /-- Lets go of the record and leaves it as it was. -/
  | abort (address : UInt64)
  /-- Reads a record. -/
  | snapshot (address : UInt64)

/-- What comes of a call on the records of flows. -/
inductive RecordAnswer where
  /-- The record was read. -/
  | read (record : Option Pending)
  /-- The copy was changed, and this is what it is now. -/
  | edited (copy : Option Pending)
  /-- The copy was written back. -/
  | written (copy : Option Pending)
  /-- The record was let go of. -/
  | released
  /-- The record is held where it must not be, or is not held where it must be. -/
  | refused
  deriving DecidableEq

/-- The address that a call is for. -/
def RecordCall.address : RecordCall → UInt64
  | lock address => address
  | edit address _ => address
  | commit address => address
  | abort address => address
  | snapshot address => address

/-- A store with the guards that were given out and not let go of. -/
structure Desk where
  store : FlowStore
  guards : Table UInt64 FlowGuard := {}
  deriving DecidableEq

/-- A plain map with transactions: what was committed under each address, and the
    copies of those that are held. -/
structure RecordMap where
  committed : UInt64 → Option Pending := fun _ => none
  copies : UInt64 → Option (Option Pending) := fun _ => none

namespace Desk

/-- What comes of a call, and the desk after it. -/
def call (desk : Desk) : RecordCall → RecordAnswer × Desk
  | .lock address =>
    if desk.store.isHeld address then (.refused, desk)
    else
      let (guard, store) := desk.store.lock address
      (.read guard.working, ⟨store, desk.guards.insert address guard⟩)
  | .edit address change =>
    match desk.guards.get? address with
    | none => (.refused, desk)
    | some guard =>
      let guard := { guard with working := change guard.working }
      (.edited guard.working, { desk with guards := desk.guards.insert address guard })
  | .commit address =>
    match desk.guards.get? address with
    | none => (.refused, desk)
    | some guard =>
      (.written guard.working, ⟨desk.store.commit guard, desk.guards.erase address⟩)
  | .abort address =>
    match desk.guards.get? address with
    | none => (.refused, desk)
    | some guard => (.released, ⟨desk.store.abort guard, desk.guards.erase address⟩)
  | .snapshot address =>
    if desk.store.isHeld address then (.refused, desk)
    else (.read (desk.store.snapshot address), desk)

/-- Calls that are made one after the other, each with what comes of it. -/
def receipts (desk : Desk) : List RecordCall → List (RecordCall × RecordAnswer)
  | [] => []
  | call :: calls => (call, (desk.call call).1) :: (desk.call call).2.receipts calls

/-- The desk after calls that are made one after the other. -/
def after (desk : Desk) (calls : List RecordCall) : Desk :=
  calls.foldl (fun desk call => (desk.call call).2) desk

end Desk

namespace RecordMap

/-- The map with another copy under an address, or without one. -/
def setCopy (map : RecordMap) (address : UInt64) (copy : Option (Option Pending)) : RecordMap :=
  { map with copies := fun other => if address = other then copy else map.copies other }

/-- The map with something else committed under an address. -/
def setCommitted (map : RecordMap) (address : UInt64) (record : Option Pending) : RecordMap :=
  { map with committed := fun other => if address = other then record else map.committed other }

/-- What comes of a call, and the map after it. -/
def call (map : RecordMap) : RecordCall → RecordAnswer × RecordMap
  | .lock address =>
    match map.copies address with
    | none => (.read (map.committed address), map.setCopy address (some (map.committed address)))
    | some _ => (.refused, map)
  | .edit address change =>
    match map.copies address with
    | none => (.refused, map)
    | some copy => (.edited (change copy), map.setCopy address (some (change copy)))
  | .commit address =>
    match map.copies address with
    | none => (.refused, map)
    | some copy => (.written copy, (map.setCommitted address copy).setCopy address none)
  | .abort address =>
    match map.copies address with
    | none => (.refused, map)
    | some _ => (.released, map.setCopy address none)
  | .snapshot address =>
    match map.copies address with
    | none => (.read (map.committed address), map)
    | some _ => (.refused, map)

/-- Calls that are made one after the other, each with what comes of it. -/
def receipts (map : RecordMap) : List RecordCall → List (RecordCall × RecordAnswer)
  | [] => []
  | call :: calls => (call, (map.call call).1) :: (map.call call).2.receipts calls

/-- The map after calls that are made one after the other. -/
def after (map : RecordMap) (calls : List RecordCall) : RecordMap :=
  calls.foldl (fun map call => (map.call call).2) map

end RecordMap

/-- What was committed last under an address, from what it was before a call. -/
def committedBy (address : UInt64) (last : Option Pending) :
    RecordCall × RecordAnswer → Option Pending
  | (.commit committed, .written copy) => if committed = address then copy else last
  | _ => last

/-- What was committed last under an address, or the record that all begin with. -/
def lastCommitted (address : UInt64) (receipts : List (RecordCall × RecordAnswer)) :
    Option Pending :=
  receipts.foldl (committedBy address) none

namespace RecordMap

/-- A call commits what its answer says. -/
theorem committed_call (map : RecordMap) (call : RecordCall) (address : UInt64) :
    (map.call call).2.committed address
      = committedBy address (map.committed address) (call, (map.call call).1) := by
  cases call with
  | lock other | edit other change | abort other | snapshot other =>
      simp only [RecordMap.call]
      rcases map.copies other with _ | copy <;> rfl
  | commit other =>
      simp only [RecordMap.call]
      rcases map.copies other with _ | copy <;> rfl

/-- Only what was written under an address is committed there. -/
theorem committedBy_of_ne (address : UInt64) (last : Option Pending) (call : RecordCall)
    (answer : RecordAnswer) (h : ∀ copy, answer = .written copy → call.address ≠ address) :
    committedBy address last (call, answer) = last := by
  unfold committedBy
  split
  · next committed copy heq =>
      rw [Prod.mk.injEq] at heq
      rcases heq with ⟨rfl, rfl⟩
      exact if_neg (h copy rfl)
  · rfl

/-- What the map has committed can be read off its answers. -/
theorem committed_after (map : RecordMap) (calls : List RecordCall) (address : UInt64) :
    (map.after calls).committed address
      = (map.receipts calls).foldl (committedBy address) (map.committed address) := by
  induction calls generalizing map with
  | nil => rfl
  | cons call calls ih =>
      rw [receipts, List.foldl_cons, ← committed_call]
      exact ih (map.call call).2

/-- Two maps are the same under one address. -/
def SameAt (address : UInt64) (map map' : RecordMap) : Prop :=
  map.committed address = map'.committed address ∧ map.copies address = map'.copies address

/-- A call is answered from what is under its address, and changes nothing else. -/
theorem SameAt.call {map map' : RecordMap} (call : RecordCall)
    (h : SameAt call.address map map') :
    (map.call call).1 = (map'.call call).1 ∧
      SameAt call.address (map.call call).2 (map'.call call).2 := by
  rcases h with ⟨hcommitted, hcopies⟩
  cases call with
  | lock address | edit address change | commit address | abort address | snapshot address =>
      simp only [RecordCall.address] at hcommitted hcopies
      simp only [RecordMap.call, hcopies]
      rcases hcopy : map'.copies address with _ | copy <;>
        simp [SameAt, RecordCall.address, hcommitted, hcopies, hcopy, setCopy, setCommitted]

/-- A call changes nothing under another address. -/
theorem sameAt_call (map : RecordMap) (call : RecordCall) (address : UInt64)
    (hne : call.address ≠ address) : SameAt address (map.call call).2 map := by
  cases call with
  | lock other | edit other change | commit other | abort other | snapshot other =>
      have hother : other ≠ address := hne
      simp only [RecordMap.call]
      rcases map.copies other with _ | copy <;>
        simp [SameAt, setCopy, setCommitted, hother]

/-- The calls for an address are answered as if they were the only ones. -/
theorem receipts_filter (address : UInt64) (calls : List RecordCall) (map map' : RecordMap)
    (h : SameAt address map map') :
    (map.receipts calls).filter (fun receipt => receipt.1.address = address)
      = map'.receipts (calls.filter fun call => call.address = address) := by
  induction calls generalizing map map' with
  | nil => rfl
  | cons call calls ih =>
      by_cases heq : call.address = address
      · subst heq
        rcases h.call call with ⟨hanswer, hafter⟩
        simp only [receipts, List.filter_cons, decide_true, if_true, hanswer, ih _ _ hafter]
      · have hsame := map.sameAt_call call address heq
        have hafter : SameAt address (map.call call).2 map' :=
          ⟨hsame.1.trans h.1, hsame.2.trans h.2⟩
        simp only [receipts, List.filter_cons, heq, decide_false, Bool.false_eq_true, if_false,
          ih _ _ hafter]

end RecordMap

namespace Desk

/-- No call makes a shard or takes one away. -/
theorem shardCount_call (desk : Desk) (call : RecordCall) :
    (desk.call call).2.store.shardCount = desk.store.shardCount := by
  cases call with
  | lock address | snapshot address =>
      simp only [Desk.call]
      split <;> rfl
  | edit address change | commit address | abort address =>
      simp only [Desk.call]
      rcases desk.guards.get? address with _ | guard <;> rfl

theorem shardCount_after (desk : Desk) (calls : List RecordCall) :
    (desk.after calls).store.shardCount = desk.store.shardCount := by
  induction calls generalizing desk with
  | nil => rfl
  | cons call calls ih => exact (ih (desk.call call).2).trans (desk.shardCount_call call)

/-- A desk is what a plain map says. -/
structure Agrees (desk : Desk) (map : RecordMap) : Prop where
  snapshot_eq : ∀ address, desk.store.snapshot address = map.committed address
  isHeld_eq : ∀ address, desk.store.isHeld address = (map.copies address).isSome
  guard_eq : ∀ address,
    desk.guards.get? address = (map.copies address).map (FlowGuard.mk address)
  placed : desk.store.Placed

/-- Store and map start empty. -/
theorem agrees_ofShards (shards : Nat) : ({ store := .ofShards shards } : Desk).Agrees {} where
  snapshot_eq := FlowStore.snapshot_ofShards shards
  isHeld_eq _ := rfl
  guard_eq _ := rfl
  placed := FlowStore.placed_ofShards shards

namespace Agrees

variable {desk : Desk} {map : RecordMap}

/-- A record is set and its guard given out, or its guard changed. -/
theorem given (h : desk.Agrees map) (address : UInt64) (working : Option Pending)
    (store : FlowStore)
    (hsnapshot : ∀ other, store.snapshot other = desk.store.snapshot other)
    (hheld : ∀ other, store.isHeld other
      = if address = other then true else desk.store.isHeld other)
    (hplaced : store.Placed) :
    Agrees ⟨store, desk.guards.insert address ⟨address, working⟩⟩
      (map.setCopy address (some working)) := by
  constructor
  · exact fun other => (hsnapshot other).trans (h.snapshot_eq other)
  · intro other
    rw [hheld, h.isHeld_eq, RecordMap.setCopy, apply_ite Option.isSome]
    rfl
  -- The guard that was given out is the copy of the map under this address.
  · intro other
    simp only [Table.get?_insert, RecordMap.setCopy]
    by_cases heq : address = other
    · rw [if_pos heq, if_pos heq, heq, Option.map_some]
    · rw [if_neg heq, if_neg heq, h.guard_eq]
  · exact hplaced

/-- A record is let go of, with something committed or with what was there. -/
theorem released (h : desk.Agrees map) (address : UInt64) (record : Option Pending) :
    Agrees ⟨desk.store.setRecord address ⟨record, false⟩, desk.guards.erase address⟩
      ((map.setCommitted address record).setCopy address none) := by
  constructor
  · intro other
    rw [FlowStore.snapshot_setRecord, h.snapshot_eq]
    rfl
  · intro other
    rw [FlowStore.isHeld_setRecord, h.isHeld_eq, RecordMap.setCopy, apply_ite Option.isSome]
    rfl
  · intro other
    simp only [Table.get?_erase, RecordMap.setCopy]
    by_cases heq : address = other
    · rw [if_pos heq, if_pos heq, Option.map_none]
    · rw [if_neg heq, if_neg heq, RecordMap.setCommitted, h.guard_eq]
  · exact h.placed.setRecord address _

/-- Committing what was committed before changes nothing. -/
theorem setCommitted_self (map : RecordMap) (address : UInt64) :
    map.setCommitted address (map.committed address) = map := by
  rcases map with ⟨committed, copies⟩
  simp only [RecordMap.setCommitted, RecordMap.mk.injEq, and_true]
  funext other
  by_cases heq : address = other
  · rw [if_pos heq, heq]
  · rw [if_neg heq]

/-- What comes of a call is what the plain map says, and they stay together. -/
theorem call (h : desk.Agrees map) (call : RecordCall) :
    (desk.call call).1 = (map.call call).1 ∧ (desk.call call).2.Agrees (map.call call).2 := by
  -- In each case the copy under the address decides: a call is refused on both sides, or made on
  -- both.
  cases call with
  | lock address =>
      have hheld := h.isHeld_eq address
      rcases hcopy : map.copies address with _ | copy
      · rw [hcopy, Option.isSome_none] at hheld
        have hguard : (desk.store.lock address).1 = ⟨address, map.committed address⟩ :=
          congrArg (FlowGuard.mk address) (h.snapshot_eq address)
        simp only [Desk.call, RecordMap.call, hheld, hcopy, Bool.false_eq_true, if_false, hguard,
          true_and]
        refine h.given address (map.committed address) (desk.store.lock address).2 ?_ ?_ ?_
        · intro other
          rw [FlowStore.lock, FlowStore.snapshot_setRecord]
          by_cases heq : address = other
          · rw [if_pos heq, ← heq]
            rfl
          · rw [if_neg heq]
        · exact fun other => FlowStore.isHeld_setRecord _ address other _
        · exact h.placed.setRecord address _
      · rw [hcopy, Option.isSome_some] at hheld
        simp only [Desk.call, RecordMap.call, hheld, hcopy, if_true, true_and]
        exact h
  | edit address change =>
      have hguard := h.guard_eq address
      rcases hcopy : map.copies address with _ | working
      · rw [hcopy, Option.map_none] at hguard
        simp only [Desk.call, RecordMap.call, hguard, hcopy, true_and]
        exact h
      · rw [hcopy, Option.map_some] at hguard
        simp only [Desk.call, RecordMap.call, hguard, hcopy, true_and]
        refine h.given address (change working) desk.store (fun _ => rfl) ?_ h.placed
        intro other
        by_cases heq : address = other
        · rw [if_pos heq, ← heq, h.isHeld_eq, hcopy, Option.isSome_some]
        · rw [if_neg heq]
  | commit address =>
      have hguard := h.guard_eq address
      rcases hcopy : map.copies address with _ | working
      · rw [hcopy, Option.map_none] at hguard
        simp only [Desk.call, RecordMap.call, hguard, hcopy, true_and]
        exact h
      · rw [hcopy, Option.map_some] at hguard
        simp only [Desk.call, RecordMap.call, hguard, hcopy, true_and]
        exact h.released address working
  | abort address =>
      have hguard := h.guard_eq address
      rcases hcopy : map.copies address with _ | working
      · rw [hcopy, Option.map_none] at hguard
        simp only [Desk.call, RecordMap.call, hguard, hcopy, true_and]
        exact h
      · rw [hcopy, Option.map_some] at hguard
        simp only [Desk.call, RecordMap.call, hguard, hcopy, true_and]
        -- An abort is a commit of what was committed before.
        have hsame := h.released address (desk.store.snapshot address)
        rw [h.snapshot_eq, setCommitted_self, ← h.snapshot_eq] at hsame
        exact hsame
  | snapshot address =>
      have hheld := h.isHeld_eq address
      rcases hcopy : map.copies address with _ | copy
      · rw [hcopy, Option.isSome_none] at hheld
        simp only [Desk.call, RecordMap.call, hheld, hcopy, Bool.false_eq_true, if_false,
          h.snapshot_eq, true_and]
        exact h
      · rw [hcopy, Option.isSome_some] at hheld
        simp only [Desk.call, RecordMap.call, hheld, hcopy, if_true, true_and]
        exact h

/-- Desk and map agree after any calls. -/
theorem after (h : desk.Agrees map) (calls : List RecordCall) :
    (desk.after calls).Agrees (map.after calls) := by
  induction calls generalizing desk map with
  | nil => exact h
  | cons call calls ih => exact ih (h.call call).2

/-- Desk and map answer any calls alike. -/
theorem receipts_eq (h : desk.Agrees map) (calls : List RecordCall) :
    desk.receipts calls = map.receipts calls := by
  induction calls generalizing desk map with
  | nil => rfl
  | cons call calls ih =>
      rw [Desk.receipts, RecordMap.receipts, (h.call call).1, ih (h.call call).2]

end Agrees

end Desk

end ReceiveOffload
