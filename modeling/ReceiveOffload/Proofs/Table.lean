import Mathlib.Algebra.GroupWithZero.Nat
import Mathlib.Data.List.Nodup
import ReceiveOffload.Table

/-!
# Tables with Distinct Keys

A table is a list of entries, and nothing in its type keeps a key from having
two of them. Looking up never shows the second one, so most of what is said of a
table is true with it. Counting is not: how many frames are stored, and how many
octets they have, is a matter of entries.

Tables that start empty and are only inserted into and erased from have distinct
keys. For these, each change is one entry: put at the end, changed in its place
or taken out of it.

## Main definitions

* `Table.Distinct`: No key has two entries.

## Theorems

* `Table.Distinct.mem_iff`: An entry is what is found under its key.
* `Table.entries_insert_of_none`, `Table.entries_insert_of_some`,
  `Table.Distinct.entries_erase`: The entries after a change.
* `Table.size_insert_le`, `Table.size_insert_of_some`, `Table.size_erase_le`: How
  many keys there are then.
-/

namespace ReceiveOffload

namespace Table

variable {κ α : Type} [DecidableEq κ]

/-- No key has two entries. -/
def Distinct (t : Table κ α) : Prop :=
  (t.entries.map Prod.fst).Nodup

/-- Nothing is found under a key that no entry has. -/
theorem lookup_eq_none_iff (k : κ) (entries : List (κ × α)) :
    lookup k entries = none ↔ ∀ entry ∈ entries, entry.1 ≠ k := by
  induction entries with
  | nil => simp [lookup]
  | cons entry rest ih =>
      by_cases hk : entry.1 = k <;> simp [lookup, hk, ih]

/-- An entry of a table with distinct keys is what is found under its key. -/
theorem Distinct.mem_iff {t : Table κ α} (h : t.Distinct) (k : κ) (v : α) :
    (k, v) ∈ t.entries ↔ t.get? k = some v := by
  rcases t with ⟨entries⟩
  simp only [Distinct, get?] at h ⊢
  induction entries with
  | nil => simp [lookup]
  | cons entry rest ih =>
      rcases entry with ⟨k', v'⟩
      simp only [List.map_cons, List.nodup_cons] at h
      -- Looking up stops at the first entry of a key. There is no second one, so
      -- no entry is hidden by that.
      by_cases hk : k' = k
      · subst hk
        have hnot : ∀ w, (k', w) ∉ rest := fun w hw =>
          h.1 (List.mem_map.mpr ⟨(k', w), hw, rfl⟩)
        simp [lookup, hnot, eq_comm]
      · have hne : ¬ k = k' := fun he => hk he.symm
        simp [lookup, hk, hne, ih h.2]

/-- A key that is not there goes to the end. -/
theorem entries_insert_of_none (t : Table κ α) (k : κ) (v : α) (h : t.get? k = none) :
    (t.insert k v).entries = t.entries ++ [(k, v)] := by
  rcases t with ⟨entries⟩
  simp only [insert, get?] at h ⊢
  induction entries with
  | nil => rfl
  | cons entry rest ih =>
      rcases entry with ⟨k', v'⟩
      by_cases hk : k' = k
      · simp [lookup, hk] at h
      · simp only [lookup, hk, if_false] at h
        simp only [assign, hk, if_false, ih h, List.cons_append]

/-- A key that is there keeps its place. -/
theorem entries_insert_of_some (t : Table κ α) (k : κ) (v old : α) (h : t.get? k = some old) :
    ∃ before after, t.entries = before ++ (k, old) :: after ∧
      (t.insert k v).entries = before ++ (k, v) :: after := by
  rcases t with ⟨entries⟩
  simp only [insert, get?] at h ⊢
  induction entries with
  | nil => cases h
  | cons entry rest ih =>
      rcases entry with ⟨k', v'⟩
      by_cases hk : k' = k
      · simp only [lookup, hk, if_true, Option.some.injEq] at h
        exact ⟨[], rest, by simp [hk, h], by simp [assign, hk]⟩
      · simp only [lookup, hk, if_false] at h
        rcases ih h with ⟨before, after, hold, hnew⟩
        exact ⟨(k', v') :: before, after, by simp [hold], by simp [assign, hk, hnew]⟩

/-- Setting a key to what is under it changes nothing. -/
theorem insert_eq_self (t : Table κ α) (k : κ) (v : α) (h : t.get? k = some v) :
    t.insert k v = t := by
  rcases entries_insert_of_some t k v v h with ⟨before, after, hold, hnew⟩
  exact congrArg Table.mk (hnew.trans hold.symm)

/-- Of distinct keys, erasing takes the one entry out. -/
theorem Distinct.entries_erase {t : Table κ α} (h : t.Distinct) (k : κ) (old : α)
    (hget : t.get? k = some old) :
    ∃ before after, t.entries = before ++ (k, old) :: after ∧
      (t.erase k).entries = before ++ after := by
  rcases List.append_of_mem ((h.mem_iff k old).mpr hget) with ⟨before, after, hsplit⟩
  refine ⟨before, after, hsplit, ?_⟩
  simp only [Distinct, hsplit, List.map_append, List.map_cons, List.nodup_append,
    List.nodup_cons, List.mem_cons, List.mem_map] at h
  -- On either side of the entry no other has its key, so the filter drops it alone.
  have hbefore : ∀ entry ∈ before, entry.1 ≠ k := fun entry hentry =>
    h.2.2 _ ⟨entry, hentry, rfl⟩ _ (Or.inl rfl)
  have hafter : ∀ entry ∈ after, entry.1 ≠ k := fun entry hentry heq =>
    h.2.1.1 ⟨entry, hentry, heq⟩
  simp only [erase, hsplit, List.filter_append, List.filter_cons, ne_eq, not_true_eq_false,
    decide_false, Bool.false_eq_true, if_false]
  rw [List.filter_eq_self.mpr (by simpa using hbefore),
    List.filter_eq_self.mpr (by simpa using hafter)]

/-- Setting a key adds at most one. -/
theorem size_insert_le (t : Table κ α) (k : κ) (v : α) : (t.insert k v).size ≤ t.size + 1 := by
  rcases hget : t.get? k with _ | old
  · simp only [size, entries_insert_of_none t k v hget, List.length_append, List.length_singleton,
      Nat.le_refl]
  · rcases entries_insert_of_some t k v old hget with ⟨before, after, hold, hnew⟩
    simp only [size, hold, hnew, List.length_append, List.length_cons]
    omega

/-- Setting a key that is there adds none. -/
theorem size_insert_of_some (t : Table κ α) (k : κ) (v old : α) (h : t.get? k = some old) :
    (t.insert k v).size = t.size := by
  rcases entries_insert_of_some t k v old h with ⟨before, after, hold, hnew⟩
  simp only [size, hold, hnew, List.length_append, List.length_cons]

theorem size_erase_le (t : Table κ α) (k : κ) : (t.erase k).size ≤ t.size :=
  List.length_filter_le _ t.entries

/-- Inserting changes an entry or adds one with a new key. -/
theorem Distinct.insert {t : Table κ α} (h : t.Distinct) (k : κ) (v : α) :
    (t.insert k v).Distinct := by
  rcases hget : t.get? k with _ | old
  · rw [Distinct, entries_insert_of_none t k v hget, List.map_append, List.map_singleton,
      List.nodup_append]
    refine ⟨h, List.nodup_singleton k, ?_⟩
    have hnew := (lookup_eq_none_iff k t.entries).mp hget
    simpa using hnew
  · rcases entries_insert_of_some t k v old hget with ⟨before, after, hold, hnew⟩
    simp only [Distinct, hold, hnew, List.map_append, List.map_cons] at h ⊢
    exact h

theorem Distinct.erase {t : Table κ α} (h : t.Distinct) (k : κ) : (t.erase k).Distinct :=
  List.Nodup.sublist (List.filter_sublist.map Prod.fst) h

section MapValues

variable {β : Type} (f : α → β)

theorem get?_mapValues (t : Table κ α) (k : κ) : (t.mapValues f).get? k = (t.get? k).map f := by
  rcases t with ⟨entries⟩
  simp only [mapValues, get?]
  induction entries with
  | nil => rfl
  | cons entry rest ih =>
      by_cases hk : entry.1 = k
      · simp only [List.map_cons, lookup, if_pos hk, Option.map_some]
      · simp only [List.map_cons, lookup, if_neg hk, ih]

omit [DecidableEq κ] in
theorem Distinct.mapValues {t : Table κ α} (h : t.Distinct) : (t.mapValues f).Distinct := by
  rw [Distinct, Table.mapValues, List.map_map]
  exact h

end MapValues

end Table

end ReceiveOffload
