import Mathlib.Algebra.Order.BigOperators.Group.List
import Mathlib.Algebra.Order.Ring.Nat
import ReceiveOffload.Proofs.Storage

/-!
# Inventories of Storage

Storage answers from three numbers and a table: how many frames there are, how many
octets they have, which identifier comes next. None of them is looked up in what
was done before, so each can be wrong on its own. A total that was not reduced
would refuse frames that fit, one that was reduced twice would let in too many,
and an identifier that came around again would hand out the frame of another.

An inventory is made from the outside. Every call leaves a receipt, which is the
call with its answer, and the receipts alone say what each identifier holds. `Kept`
is that storage agrees with its receipts, and it is an invariant of every call for
as long as identifiers last. Past 2^64 stores the count of identifiers wraps around
to one that may still be in use. What needs no inventory is true even then: the two
limits, which calls are refused, and that a refused call changes nothing.

## Main definitions

* `StorageCall`, `Receipt`: A call on storage, and the call with its answer.
* `FrameStorage.receipts`: The receipts of calls that are made one after the other.
* `Receipt.held`: What the identifiers hold, by the receipts.
* `FrameStorage.Kept`: Storage is as the receipts have it.

## Theorems

* `FrameStorage.Kept.answer`, `FrameStorage.Kept.after`: One call, and all of them.
* `storage_keeps_its_inventory`: Limits, refusals, totals and what is taken out.
-/

namespace ReceiveOffload

/-- A call on storage. -/
inductive StorageCall where
  /-- Stores a frame. -/
  | store (frame : Frame)
  /-- Appends to the frame under an identifier. -/
  | extend (id : FrameId) (tail : Frame) (trim : Nat)
  /-- Takes out the frame under an identifier. -/
  | take (id : FrameId)
  /-- Removes the frame under an identifier. -/
  | discard (id : FrameId)
  deriving DecidableEq

/-- The answer to a call on storage. -/
inductive StorageAnswer where
  | stored (outcome : Except Failure FrameId)
  | extended (outcome : Except Failure Nat)
  | taken (frame : Option Frame)
  | discarded

/-- A call on storage with the answer to it. -/
structure Receipt where
  call : StorageCall
  answer : StorageAnswer

namespace StorageCall

/-- The identifier that a call names. -/
def id? : StorageCall → Option FrameId
  | store _ => none
  | extend id _ _ => some id
  | take id => some id
  | discard id => some id

/-- The identifier that holds nothing after a call. -/
def cleared? : StorageCall → Option FrameId
  | store _ => none
  | extend _ _ _ => none
  | take id => some id
  | discard id => some id

end StorageCall

/-- The call was refused, or there was no frame to hand over. -/
def StorageAnswer.Refused : StorageAnswer → Prop
  | stored (.error _) => True
  | extended (.error _) => True
  | taken none => True
  | _ => False

namespace Receipt

/-- The identifier that a frame was stored under. -/
def granted? : Receipt → Option FrameId
  | ⟨_, .stored (.ok id)⟩ => some id
  | _ => none

/-- The identifiers that frames were stored under. -/
def given (receipts : List Receipt) : List FrameId :=
  receipts.filterMap granted?

theorem given_append (receipts more : List Receipt) :
    given (receipts ++ more) = given receipts ++ given more :=
  List.filterMap_append

/-- The octets that were appended to the frame under an identifier. -/
def appended (id : FrameId) : Receipt → Octets
  | ⟨.extend extended tail trim, .extended (.ok _)⟩ =>
      if extended = id then tail.octets.drop trim else []
  | _ => []

/-- What the identifiers hold after a call, from what they held before it. -/
def leaves (held : FrameId → Option Frame) : Receipt → FrameId → Option Frame
  | ⟨.store frame, .stored (.ok granted)⟩, id => if granted = id then some frame else held id
  | ⟨.extend extended tail trim, .extended (.ok _)⟩, id =>
      if extended = id then (held id).map fun frame => frame.append (tail.octets.drop trim)
      else held id
  | ⟨.take taken, _⟩, id => if taken = id then none else held id
  | ⟨.discard discarded, _⟩, id => if discarded = id then none else held id
  | _, id => held id

/-- What the identifiers hold after the calls of all receipts. -/
def held (receipts : List Receipt) : FrameId → Option Frame :=
  receipts.foldl leaves fun _ => none

theorem held_append (receipts more : List Receipt) :
    held (receipts ++ more) = more.foldl leaves (held receipts) :=
  List.foldl_append

theorem held_concat (receipts : List Receipt) (receipt : Receipt) :
    held (receipts ++ [receipt]) = receipt.leaves (held receipts) :=
  held_append receipts [receipt]

end Receipt

namespace FrameStorage

/-- The answer to a call, and storage after it. -/
def answer (storage : FrameStorage) : StorageCall → StorageAnswer × FrameStorage
  | .store frame => (.stored (storage.store frame).1, (storage.store frame).2)
  | .extend id tail trim =>
      (.extended (storage.extend id tail trim).1, (storage.extend id tail trim).2)
  | .take id => (.taken (storage.take id).1, (storage.take id).2)
  | .discard id => (.discarded, storage.discard id)

/-- Storage after calls that are made one after the other. -/
def after (storage : FrameStorage) (calls : List StorageCall) : FrameStorage :=
  calls.foldl (fun storage call => (storage.answer call).2) storage

/-- The receipts of calls that are made one after the other. -/
def receipts (storage : FrameStorage) : List StorageCall → List Receipt
  | [] => []
  | call :: calls => ⟨call, (storage.answer call).1⟩ :: (storage.answer call).2.receipts calls

/-- The receipts of calls are continued by those of the calls that follow. -/
theorem receipts_append (storage : FrameStorage) (before calls : List StorageCall) :
    storage.receipts (before ++ calls)
      = storage.receipts before ++ (storage.after before).receipts calls := by
  induction before generalizing storage with
  | nil => rfl
  | cons call before ih =>
      simp only [List.cons_append, receipts, ih, after, List.foldl_cons]

/-! ### Limits and refusals -/

section Limits

variable (storage : FrameStorage)

/-- The limits of storage are not exceeded. -/
structure Within : Prop where
  frameCount_le : storage.frameCount ≤ storage.maxFrames
  octetCount_le : storage.octetCount ≤ storage.octetBudget

/-- A frame is stored exactly when one more frame and its octets are within the limits. -/
theorem store_ok_iff (frame : Frame) :
    (∃ id, (storage.store frame).1 = .ok id) ↔
      storage.frameCount < storage.maxFrames ∧
        storage.octetCount + frame.length ≤ storage.octetBudget := by
  unfold store
  split
  · next h => simp only [reduceCtorEq, exists_false, false_iff]; omega
  · next h => simp only [Except.ok.injEq, exists_eq', true_iff]; omega

/-- A frame grows exactly when it is there, the tail is long enough to be trimmed, and
    what remains is within the limit. -/
theorem extend_ok_iff (id : FrameId) (tail : Frame) (trim : Nat) :
    (∃ length, (storage.extend id tail trim).1 = .ok length) ↔
      trim ≤ tail.length ∧ storage.octetCount + (tail.length - trim) ≤ storage.octetBudget ∧
        storage.stored.get? id ≠ none := by
  unfold extend
  split
  · next h => simp only [reduceCtorEq, exists_false, false_iff]; omega
  split
  · next h => simp only [reduceCtorEq, exists_false, false_iff]; omega
  split
  · next hget => simp only [reduceCtorEq, exists_false, hget, ne_eq, not_true_eq_false, and_false]
  · next hget hfits frame hframe =>
      simp only [Except.ok.injEq, exists_eq', hframe, ne_eq, reduceCtorEq, not_false_eq_true,
        and_true, true_iff]
      omega

/-- A call that is refused, or names what is not there, leaves storage as it was. -/
theorem answer_eq_self (call : StorageCall)
    (h : (storage.answer call).1.Refused ∨
      ∃ id, call.id? = some id ∧ storage.stored.get? id = none) :
    (storage.answer call).2 = storage := by
  cases call with
  | store frame =>
      simp only [StorageCall.id?, reduceCtorEq, false_and, exists_false, or_false] at h
      rcases storage.store_cases frame with ⟨cause, hstore⟩ | hstore
      · simp only [answer, hstore]
      · simp only [answer, hstore, StorageAnswer.Refused] at h
  | extend id tail trim =>
      rcases storage.extend_cases id tail trim with ⟨cause, hextend⟩ | ⟨frame, hget, hextend⟩
      · simp only [answer, hextend]
      · simp [answer, hextend, StorageAnswer.Refused, StorageCall.id?, hget] at h
  | take id =>
      -- There is nothing to hand over exactly where nothing is stored.
      have hnone : storage.stored.get? id = none := by
        rcases h with h | ⟨named, hnamed, hget⟩
        · rcases hget : storage.stored.get? id with _ | frame
          · rfl
          · simp only [answer, take_eq, hget, StorageAnswer.Refused] at h
        · rwa [Option.some.inj hnamed]
      simp only [answer, take, hnone]
  | discard id =>
      rcases h with h | ⟨named, hnamed, hget⟩
      · exact h.elim
      · cases hnamed
        simp only [answer, discard, take, hget]

theorem limits_answer (call : StorageCall) :
    (storage.answer call).2.maxFrames = storage.maxFrames ∧
      (storage.answer call).2.octetBudget = storage.octetBudget := by
  cases call with
  | store frame =>
      rcases storage.store_cases frame with ⟨cause, h⟩ | h <;> rw [answer, h] <;> exact ⟨rfl, rfl⟩
  | extend id tail trim =>
      rcases storage.extend_cases id tail trim with ⟨cause, h⟩ | ⟨frame, hget, h⟩ <;>
        rw [answer, h] <;> exact ⟨rfl, rfl⟩
  | take id =>
      rw [answer, take]
      rcases storage.stored.get? id with _ | frame <;> exact ⟨rfl, rfl⟩
  | discard id =>
      rw [answer, discard, take]
      rcases storage.stored.get? id with _ | frame <;> exact ⟨rfl, rfl⟩

/-- No call takes storage beyond its limits. -/
theorem within_answer (call : StorageCall) (h : storage.Within) :
    (storage.answer call).2.Within := by
  rcases h with ⟨hframes, hoctets⟩
  cases call with
  | store frame =>
      rcases storage.store_cases frame with ⟨cause, hstore⟩ | hstore
      · rw [answer, hstore]
        exact ⟨hframes, hoctets⟩
      · have hroom := (storage.store_ok_iff frame).mp ⟨_, congrArg Prod.fst hstore⟩
        rw [answer, hstore]
        refine ⟨?_, hroom.2⟩
        exact Nat.le_trans (storage.stored.size_insert_le storage.next frame) hroom.1
  | extend id tail trim =>
      rcases storage.extend_cases id tail trim with ⟨cause, hextend⟩ | ⟨frame, hget, hextend⟩
      · rw [answer, hextend]
        exact ⟨hframes, hoctets⟩
      · have hroom := (storage.extend_ok_iff id tail trim).mp ⟨_, congrArg Prod.fst hextend⟩
        rw [answer, hextend]
        refine ⟨?_, ?_⟩
        · have hsize := storage.stored.size_insert_of_some id
            (frame.append (tail.octets.drop trim)) frame hget
          exact Nat.le_trans (Nat.le_of_eq hsize) hframes
        · simp only [grow, List.length_drop]
          exact hroom.2.1
  -- What is taken out can only make totals smaller.
  | take id | discard id =>
      simp only [answer, discard, take]
      rcases storage.stored.get? id with _ | frame
      · exact ⟨hframes, hoctets⟩
      · exact ⟨Nat.le_trans (storage.stored.size_erase_le id) hframes,
          Nat.le_trans (Nat.sub_le _ _) hoctets⟩

theorem within_after (calls : List StorageCall) (h : storage.Within) :
    (storage.after calls).Within := by
  induction calls generalizing storage with
  | nil => exact h
  | cons call calls ih => exact ih (storage.answer call).2 (storage.within_answer call h)

/-- The limits are never changed. -/
theorem limits_after (calls : List StorageCall) :
    (storage.after calls).maxFrames = storage.maxFrames ∧
      (storage.after calls).octetBudget = storage.octetBudget := by
  induction calls generalizing storage with
  | nil => exact ⟨rfl, rfl⟩
  | cons call calls ih =>
      have hanswer := storage.limits_answer call
      have hafter := ih (storage.answer call).2
      exact ⟨hafter.1.trans hanswer.1, hafter.2.trans hanswer.2⟩

end Limits

/-! ### Storage and its receipts -/

/-- Storage is as the receipts have it: it holds what they say, and under
    identifiers that were given out, one after the other. -/
structure Kept (storage : FrameStorage) (receipts : List Receipt) : Prop where
  sound : storage.Sound
  get?_eq : ∀ id, storage.stored.get? id = Receipt.held receipts id
  given_eq : Receipt.given receipts
    = (List.range (Receipt.given receipts).length).map fun number => ⟨UInt64.ofNat number⟩
  next_eq : storage.next = ⟨UInt64.ofNat (Receipt.given receipts).length⟩
  given_of_held : ∀ id, Receipt.held receipts id ≠ none → id ∈ Receipt.given receipts

/-- Identifiers are told apart by their numbers up to 2^64 of them. -/
theorem number_inj {a b : Nat} (ha : a < 2 ^ 64) (hb : b < 2 ^ 64)
    (h : (⟨UInt64.ofNat a⟩ : FrameId) = ⟨UInt64.ofNat b⟩) : a = b := by
  have hword := congrArg UInt64.toNat (FrameId.mk.inj h)
  rwa [UInt64.toNat_ofNat', UInt64.toNat_ofNat', Nat.mod_eq_of_lt ha, Nat.mod_eq_of_lt hb]
    at hword

namespace Kept

variable {storage : FrameStorage} {receipts : List Receipt}

/-- As long as identifiers last, the next one is new. -/
theorem next_not_mem (h : storage.Kept receipts)
    (hfew : (Receipt.given receipts).length < 2 ^ 64) :
    storage.next ∉ Receipt.given receipts := by
  intro hmem
  rw [h.given_eq, h.next_eq, List.mem_map] at hmem
  rcases hmem with ⟨number, hnumber, heq⟩
  rw [List.mem_range] at hnumber
  exact Nat.ne_of_lt hnumber (number_inj (Nat.lt_trans hnumber hfew) hfew heq)

/-- No identifier is given out twice while there are identifiers left. -/
theorem nodup (h : storage.Kept receipts)
    (hfew : (Receipt.given receipts).length ≤ 2 ^ 64) :
    (Receipt.given receipts).Nodup := by
  rw [h.given_eq]
  refine List.Nodup.map_on ?_ List.nodup_range
  intro a ha b hb heq
  rw [List.mem_range] at ha hb
  exact number_inj (Nat.lt_of_lt_of_le ha hfew) (Nat.lt_of_lt_of_le hb hfew) heq

/-- A call that does not store a frame gives no identifier out. -/
theorem ungranted (h : storage.Kept receipts) {after : FrameStorage} (receipt : Receipt)
    (hnone : receipt.granted? = none) (hsound : after.Sound) (hnext : after.next = storage.next)
    (hget : ∀ id, after.stored.get? id = receipt.leaves (Receipt.held receipts) id)
    (hheld : ∀ id, receipt.leaves (Receipt.held receipts) id ≠ none →
      Receipt.held receipts id ≠ none) :
    after.Kept (receipts ++ [receipt]) := by
  have hgiven : Receipt.given (receipts ++ [receipt]) = Receipt.given receipts := by
    have hnothing : Receipt.given [receipt] = [] := List.filterMap_cons_none hnone
    rw [Receipt.given_append, hnothing, List.append_nil]
  constructor
  · exact hsound
  · rwa [Receipt.held_concat]
  · rw [hgiven]
    exact h.given_eq
  · rw [hgiven, hnext]
    exact h.next_eq
  · intro id hid
    rw [Receipt.held_concat] at hid
    rw [hgiven]
    exact h.given_of_held id (hheld id hid)

/-- A refused call leaves a receipt that says nothing. -/
theorem refused (h : storage.Kept receipts) (receipt : Receipt)
    (hnone : receipt.granted? = none)
    (hleaves : ∀ id, receipt.leaves (Receipt.held receipts) id = Receipt.held receipts id) :
    storage.Kept (receipts ++ [receipt]) := by
  refine h.ungranted receipt hnone h.sound rfl ?_ ?_
  · exact fun id => (h.get?_eq id).trans (hleaves id).symm
  · exact fun id hid => hleaves id ▸ hid

/-- What is taken out or removed is no longer held. -/
theorem cleared (h : storage.Kept receipts) (id : FrameId) (receipt : Receipt)
    (hnone : receipt.granted? = none)
    (hleaves : ∀ other, receipt.leaves (Receipt.held receipts) other
      = if id = other then none else Receipt.held receipts other) :
    (storage.discard id).Kept (receipts ++ [receipt]) := by
  refine h.ungranted receipt hnone (h.sound.discard id) (storage.next_discard id) ?_ ?_
  · intro other
    rw [get?_discard, hleaves, h.get?_eq]
  · intro other hother
    rw [hleaves] at hother
    by_cases heq : id = other
    · rw [if_pos heq] at hother
      exact absurd rfl hother
    · rwa [if_neg heq] at hother

/-- A frame is stored under an identifier that holds nothing, and the receipt gives it
    out. -/
theorem put (h : storage.Kept receipts) (frame : Frame)
    (hfew : (Receipt.given receipts).length < 2 ^ 64) :
    (storage.put frame).Kept (receipts ++ [⟨.store frame, .stored (.ok storage.next)⟩]) := by
  -- An identifier that holds something was given out, and the next one was not.
  have hnext : storage.stored.get? storage.next = none := by
    by_contra hsome
    rw [h.get?_eq] at hsome
    exact h.next_not_mem hfew (h.given_of_held _ hsome)
  have hgiven : Receipt.given (receipts ++ [⟨.store frame, .stored (.ok storage.next)⟩])
      = Receipt.given receipts ++ [storage.next] :=
    Receipt.given_append _ _
  constructor
  · exact h.sound.put frame hnext
  · intro id
    rw [Receipt.held_concat, get?_put, h.get?_eq]
    rfl
  · rw [hgiven, List.length_append, List.length_singleton, List.range_succ, List.map_append,
      ← h.given_eq, h.next_eq]
    rfl
  · rw [hgiven, List.length_append, List.length_singleton, FrameStorage.put, h.next_eq,
      UInt64.ofNat_add]
    rfl
  · intro id hid
    rw [Receipt.held_concat] at hid
    rw [hgiven, List.mem_append, List.mem_singleton]
    by_cases heq : storage.next = id
    · exact Or.inr heq.symm
    · simp only [Receipt.leaves, if_neg heq] at hid
      exact Or.inl (h.given_of_held id hid)

/-- A frame that grows does so on its receipt as well. -/
theorem grow (h : storage.Kept receipts) (id : FrameId) (frame tail : Frame) (trim length : Nat)
    (hget : storage.stored.get? id = some frame) :
    (storage.grow id frame (tail.octets.drop trim)).Kept
      (receipts ++ [⟨.extend id tail trim, .extended (.ok length)⟩]) := by
  have hheld : Receipt.held receipts id = some frame := (h.get?_eq id).symm.trans hget
  refine h.ungranted _ rfl (h.sound.grow id frame _ hget) rfl ?_ ?_
  · intro other
    rw [get?_grow, h.get?_eq, Receipt.leaves]
    by_cases heq : id = other
    · rw [if_pos heq, if_pos heq, ← heq, hheld, Option.map_some]
    · rw [if_neg heq, if_neg heq]
  · intro other hother
    rw [Receipt.leaves] at hother
    by_cases heq : id = other
    · rw [← heq, hheld]
      exact Option.some_ne_none frame
    · rwa [if_neg heq] at hother

/-- Every call keeps storage as the receipts have it. -/
theorem answer (h : storage.Kept receipts) (call : StorageCall)
    (hfew : (Receipt.given (receipts ++ [⟨call, (storage.answer call).1⟩])).length ≤ 2 ^ 64) :
    (storage.answer call).2.Kept (receipts ++ [⟨call, (storage.answer call).1⟩]) := by
  -- Only a store gives out an identifier, so only there is it needed that identifiers last.
  cases call with
  | store frame =>
      rcases storage.store_cases frame with ⟨cause, hstore⟩ | hstore
      · simp only [FrameStorage.answer, hstore]
        exact h.refused _ rfl fun id => rfl
      · simp only [FrameStorage.answer, hstore, Receipt.given_append, List.length_append]
          at hfew ⊢
        exact h.put frame hfew
  | extend id tail trim =>
      rcases storage.extend_cases id tail trim with ⟨cause, hextend⟩ | ⟨frame, hget, hextend⟩
      · simp only [FrameStorage.answer, hextend]
        exact h.refused _ rfl fun id => rfl
      · simp only [FrameStorage.answer, hextend]
        exact h.grow id frame tail trim _ hget
  | take id =>
      simp only [FrameStorage.answer, take_eq]
      exact h.cleared id _ rfl fun other => rfl
  | discard id => exact h.cleared id _ rfl fun other => rfl

/-- Storage and receipts agree after any calls, as long as identifiers last. -/
theorem after (h : storage.Kept receipts) (calls : List StorageCall)
    (hfew : (Receipt.given (receipts ++ storage.receipts calls)).length ≤ 2 ^ 64) :
    (storage.after calls).Kept (receipts ++ storage.receipts calls) := by
  induction calls generalizing storage receipts with
  | nil =>
      rw [FrameStorage.receipts, List.append_nil]
      exact h
  | cons call calls ih =>
      rw [FrameStorage.receipts, List.append_cons] at hfew ⊢
      refine ih (h.answer call (Nat.le_trans ?_ hfew)) hfew
      rw [Receipt.given_append (receipts ++ [_]), List.length_append]
      exact Nat.le_add_right _ _

end Kept

theorem kept_empty (maxFrames octetBudget : Nat) :
    ({ maxFrames, octetBudget } : FrameStorage).Kept [] where
  sound := ⟨List.nodup_nil, rfl⟩
  get?_eq _ := rfl
  given_eq := rfl
  next_eq := rfl
  given_of_held _ h := absurd rfl h

end FrameStorage

namespace Receipt

variable (id : FrameId) (held : FrameId → Option Frame) (frame : Frame)

/-- A call that neither clears nor stores leaves a frame with what it appended. -/
theorem leaves_eq (receipt : Receipt) (hheld : held id = some frame)
    (huncleared : receipt.call.cleared? ≠ some id) (hungiven : receipt.granted? ≠ some id) :
    receipt.leaves held id = some (frame.append (receipt.appended id)) := by
  have hnothing : held id = some (frame.append []) := by
    rw [hheld, Frame.append, List.append_nil]
  rcases receipt with ⟨call, answer⟩
  cases call with
  | store stored =>
      rcases answer with (cause | granted) | outcome | taken | _
      · exact hnothing
      · -- The identifier that was given out is another one.
        have hne : granted ≠ id := fun heq => hungiven (congrArg some heq)
        exact (if_neg hne).trans hnothing
      · exact hnothing
      · exact hnothing
      · exact hnothing
  | extend extended tail trim =>
      rcases answer with outcome | (cause | length) | taken | _
      · exact hnothing
      · exact hnothing
      · simp only [leaves, appended]
        by_cases heq : extended = id
        · rw [if_pos heq, if_pos heq, hheld, Option.map_some]
        · rw [if_neg heq, if_neg heq, hnothing]
      · exact hnothing
      · exact hnothing
  | take taken =>
      have hne : taken ≠ id := fun heq => huncleared (congrArg some heq)
      exact (if_neg hne).trans hnothing
  | discard discarded =>
      have hne : discarded ≠ id := fun heq => huncleared (congrArg some heq)
      exact (if_neg hne).trans hnothing

/-- A frame that is neither taken out nor stored anew is held with what was
    appended to it. -/
theorem foldl_leaves (receipts : List Receipt) (hheld : held id = some frame)
    (huncleared : ∀ receipt ∈ receipts, receipt.call.cleared? ≠ some id)
    (hungiven : id ∉ given receipts) :
    receipts.foldl leaves held id = some (frame.append (receipts.flatMap (appended id))) := by
  induction receipts generalizing held frame with
  | nil => simp only [List.foldl_nil, hheld, List.flatMap_nil, Frame.append, List.append_nil]
  | cons receipt receipts ih =>
      simp only [given, List.mem_filterMap, List.mem_cons, exists_eq_or_imp, not_or] at hungiven
      rw [List.forall_mem_cons] at huncleared
      have hleaves := receipt.leaves_eq id held frame hheld huncleared.1 hungiven.1
      have hrest : id ∉ given receipts := by
        rw [given, List.mem_filterMap]
        exact hungiven.2
      rw [List.foldl_cons, ih _ _ hleaves huncleared.2 hrest, List.flatMap_cons, Frame.append,
        Frame.append, Frame.append, List.append_assoc]

end Receipt

namespace FrameStorage

/-- A receipt is of a call that was made. -/
theorem mem_receipts (storage : FrameStorage) (calls : List StorageCall) (receipt : Receipt)
    (h : receipt ∈ storage.receipts calls) : receipt.call ∈ calls := by
  induction calls generalizing storage with
  | nil => exact absurd h List.not_mem_nil
  | cons call calls ih =>
      rcases List.mem_cons.mp h with heq | hmem
      · rw [heq]
        exact List.mem_cons_self
      · exact List.mem_cons_of_mem call (ih (storage.answer call).2 hmem)

/-- What is taken out is the frame that was stored, with what was appended since. -/
theorem take_after {storage : FrameStorage} (h : storage.Kept []) (before : List StorageCall)
    (frame : Frame) (between : List StorageCall) (id : FrameId)
    (hfew : (Receipt.given (storage.receipts (before ++ .store frame :: between))).length
      ≤ 2 ^ 64)
    (hstore : ((storage.after before).store frame).1 = .ok id)
    (huncleared : ∀ call ∈ between, call.cleared? ≠ some id) :
    ((storage.after (before ++ .store frame :: between)).take id).1
      = some (frame.append (((storage.after (before ++ [.store frame])).receipts between).flatMap
          (Receipt.appended id))) := by
  have hkept := h.after _ hfew
  have hnodup := hkept.nodup hfew
  have hreceipt : storage.receipts (before ++ [.store frame])
      = storage.receipts before ++ [⟨.store frame, .stored (.ok id)⟩] := by
    rw [receipts_append, receipts, answer, hstore, receipts]
  -- The identifier was given out by the store, so by no call after it.
  have hgiven :
      id ∉ Receipt.given ((storage.after (before ++ [.store frame])).receipts between) := by
    intro hmem
    rw [List.nil_append, List.append_cons, receipts_append, hreceipt, Receipt.given_append,
      List.nodup_append] at hnodup
    refine hnodup.2.2 id ?_ id hmem rfl
    rw [Receipt.given_append]
    exact List.mem_append_right _ (List.mem_singleton_self id)
  have hheld : Receipt.held (storage.receipts (before ++ [.store frame])) id = some frame := by
    rw [hreceipt, Receipt.held_concat]
    exact if_pos rfl
  rw [take_eq, hkept.get?_eq, List.nil_append, List.append_cons, receipts_append,
    Receipt.held_append]
  refine Receipt.foldl_leaves id _ frame _ hheld ?_ hgiven
  intro receipt hreceipt
  exact huncleared receipt.call (mem_receipts _ between receipt hreceipt)

end FrameStorage

open FrameStorage in
/-- However storage is called, it stays within its limits, refuses exactly what does
    not fit or is not there, and is left as it was by what it refuses. Up to 2^64
    stores it gives every identifier out once, counts the octets that it holds, and
    hands over what was stored with all that was appended since. -/
theorem storage_keeps_its_inventory (maxFrames octetBudget : Nat) (calls : List StorageCall) :
    let empty : FrameStorage := { maxFrames, octetBudget }
    let storage := empty.after calls
    let given := Receipt.given (empty.receipts calls)
    storage.frameCount ≤ maxFrames ∧ storage.octetCount ≤ octetBudget ∧
      (∀ frame, (∃ id, (storage.store frame).1 = .ok id) ↔
        storage.frameCount < maxFrames ∧ storage.octetCount + frame.length ≤ octetBudget) ∧
      (∀ id tail trim, (∃ length, (storage.extend id tail trim).1 = .ok length) ↔
        trim ≤ tail.length ∧ storage.octetCount + (tail.length - trim) ≤ octetBudget ∧
          storage.stored.get? id ≠ none) ∧
      (∀ call, (storage.answer call).1.Refused ∨
          (∃ id, call.id? = some id ∧ storage.stored.get? id = none) →
        (storage.answer call).2 = storage) ∧
      (given.length ≤ 2 ^ 64 →
        given.Nodup ∧
        (∀ id, storage.stored.get? id = Receipt.held (empty.receipts calls) id) ∧
        storage.stored.Distinct ∧
        storage.octetCount = (storage.stored.entries.map fun entry => entry.2.length).sum ∧
        (∀ id frame, (storage.take id).1 = some frame → frame.length ≤ storage.octetCount) ∧
        ∀ before frame between id, calls = before ++ .store frame :: between →
          ((empty.after before).store frame).1 = .ok id →
          (∀ call ∈ between, call.cleared? ≠ some id) →
          (storage.take id).1 = some { frame with
            octets := frame.octets ++ ((empty.after (before ++ [.store frame])).receipts
              between).flatMap (Receipt.appended id) }) := by
  intro empty storage given
  have hlimits : storage.maxFrames = maxFrames ∧ storage.octetBudget = octetBudget :=
    empty.limits_after calls
  have hwithin : storage.Within :=
    empty.within_after calls ⟨Nat.zero_le maxFrames, Nat.zero_le octetBudget⟩
  have hempty : empty.Kept [] := kept_empty maxFrames octetBudget
  refine ⟨?_, ?_, ?_, ?_, storage.answer_eq_self, ?_⟩
  · exact hlimits.1 ▸ hwithin.frameCount_le
  · exact hlimits.2 ▸ hwithin.octetCount_le
  · intro frame
    rw [store_ok_iff, hlimits.1, hlimits.2]
  · intro id tail trim
    rw [extend_ok_iff, hlimits.2]
  -- Everything above is of the limits alone. From here on the receipts have to be right, which
  -- takes identifiers that did not come around.
  · intro hfew
    have hkept := hempty.after calls hfew
    refine ⟨hkept.nodup hfew, hkept.get?_eq, hkept.sound.distinct, hkept.sound.octetCount_eq,
      ?_, ?_⟩
    · intro id frame htake
      rw [take_eq] at htake
      have hentry := (hkept.sound.distinct.mem_iff id frame).mpr htake
      rw [hkept.sound.octetCount_eq]
      exact List.single_le_sum (fun _ _ => Nat.zero_le _) _ (List.mem_map_of_mem hentry)
    · rintro before frame between id rfl hstore huncleared
      exact take_after hempty before frame between id hfew hstore huncleared

open FrameStorage in
/-- Two frames are stored, one of them grows and is refused to grow further, and the
    other one is removed. -/
theorem storage_keeps_its_inventory_grown :
    let empty : FrameStorage := { maxFrames := 2, octetBudget := 6 }
    let grown : Frame := { octets := [1, 2], link := .ethernet, damaged := true }
    let between : List StorageCall := [.store ⟨[9], .rawIp, false⟩,
      .extend ⟨0⟩ ⟨[0, 3, 4], .rawIp, false⟩ 1, .extend ⟨0⟩ ⟨[5, 6], .rawIp, false⟩ 0,
      .discard ⟨1⟩]
    let storage := empty.after (.store grown :: between)
    (Receipt.given (empty.receipts (.store grown :: between))).length ≤ 2 ^ 64 ∧
      ((empty.after []).store grown).1 = .ok ⟨0⟩ ∧
      (∀ call ∈ between, call.cleared? ≠ some ⟨0⟩) ∧
      (storage.take ⟨0⟩).1 = some ⟨[1, 2, 3, 4], .ethernet, true⟩ ∧ storage.octetCount = 4 := by
  intro empty grown between storage
  have hfew : (Receipt.given (empty.receipts (.store grown :: between))).length ≤ 2 ^ 64 := by
    decide
  have hstore : ((empty.after []).store grown).1 = .ok ⟨0⟩ := rfl
  have huncleared : ∀ call ∈ between, call.cleared? ≠ some ⟨0⟩ := by decide
  rcases (storage_keeps_its_inventory 2 6 (.store grown :: between)).2.2.2.2.2 hfew with
    ⟨-, -, -, hcount, -, htake⟩
  exact ⟨hfew, hstore, huncleared, htake [] grown between ⟨0⟩ rfl hstore huncleared, hcount⟩

end ReceiveOffload
