import ReceiveOffload.Flow.Pending
import ReceiveOffload.Table

/-!
# Flow Records

Every flow has a record under its address, which holds its pending aggregate
if there is one. Whoever works on a flow holds its record: a guard has a copy
to work on, and what was done to the copy shows only once it is committed.
Giving a guard up leaves the record as it was.

The records are spread over shards by a hash of the address, so that flows do
not get into each other's way. Where a record lies makes no difference to what
it holds.

## Main definitions

* `FlowRecord`: What is kept of a flow.
* `FlowStore`: The records of all flows.
* `FlowGuard`: A record that is held, and a copy to work on.
* `FlowStore.lock`, `FlowStore.commit`, `FlowStore.abort`: Taking hold of a
  record and letting go of it.
* `FlowStore.snapshot`: What was committed last.
-/

namespace ReceiveOffload

/-- What is kept of a flow: what was committed last, and whether the record is
    held. -/
structure FlowRecord where
  committed : Option Pending := none
  held : Bool := false
  deriving DecidableEq, Repr

/-- The records of all flows, in at least one shard. -/
structure FlowStore where
  shardCount : Nat
  shardCount_pos : 0 < shardCount
  /-- The shards that hold a record. -/
  shards : Table Nat (Table UInt64 FlowRecord) := {}
  deriving DecidableEq, Repr

/-- A record that is held, with a copy to work on. -/
structure FlowGuard where
  address : UInt64
  working : Option Pending
  deriving DecidableEq, Repr

namespace FlowStore

/-- The usual number of shards. -/
def standardShards : Nat :=
  64

/-- A store with so many shards, but at least one. -/
def ofShards (count : Nat) : FlowStore where
  shardCount := max count 1
  shardCount_pos := Nat.lt_of_lt_of_le Nat.one_pos (Nat.le_max_right count 1)

/-- The number of the shard in which an address lies. Multiplying by the golden ratio of
    the word size spreads neighbouring addresses. -/
def shardOf (store : FlowStore) (address : UInt64) : Nat :=
  ((address * 0x9E3779B97F4A7C15) >>> 32).toNat % store.shardCount

/-- The shard in which an address lies. -/
def shard (store : FlowStore) (address : UInt64) : Table UInt64 FlowRecord :=
  store.shards.getD (store.shardOf address) {}

/-- The record under an address. -/
def record (store : FlowStore) (address : UInt64) : FlowRecord :=
  (store.shard address).getD address {}

/-- The store with another record under an address. -/
def setRecord (store : FlowStore) (address : UInt64) (record : FlowRecord) : FlowStore :=
  { store with
    shards := store.shards.insert (store.shardOf address)
      ((store.shard address).insert address record) }

/-- Whether a record is held. -/
def isHeld (store : FlowStore) (address : UInt64) : Bool :=
  (store.record address).held

/-- What was committed last. -/
def snapshot (store : FlowStore) (address : UInt64) : Option Pending :=
  (store.record address).committed

/-- Takes hold of a record. -/
def lock (store : FlowStore) (address : UInt64) : FlowGuard × FlowStore :=
  let record := store.record address
  (⟨address, record.committed⟩, store.setRecord address { record with held := true })

/-- Writes the copy back and lets go of the record. -/
def commit (store : FlowStore) (guard : FlowGuard) : FlowStore :=
  store.setRecord guard.address ⟨guard.working, false⟩

/-- Lets go of the record and leaves it as it was. -/
def abort (store : FlowStore) (guard : FlowGuard) : FlowStore :=
  store.setRecord guard.address { store.record guard.address with held := false }

end FlowStore

end ReceiveOffload
