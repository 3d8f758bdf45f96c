/-!
# Keyed Tables

A finite map kept as a list of entries, each key at most once. There are only
a few stored frames, timer pools and flows in a shard, so a list is enough, and
it keeps every look-up a plain recursion that a proof can follow and the kernel
can evaluate.

An existing key keeps its place when its value changes and a new key goes to
the end, so the order of the entries is the order in which the keys were first
used.

## Main definitions

* `Table`: A finite map from keys to values.
* `Table.get?`: The value under a key.
* `Table.insert`: Sets the value under a key.
* `Table.erase`: Forgets a key.

## Theorems

* `Table.get?_insert`: What a table holds after a key was set.
* `Table.get?_erase`: What a table holds after a key was forgotten.
-/

namespace ReceiveOffload

/-- A finite map from keys to values, in order of first use. -/
structure Table (κ α : Type) where
  entries : List (κ × α) := []
  deriving DecidableEq, Repr

namespace Table

variable {κ α : Type} [DecidableEq κ]

/-- The value of the first entry under `k`. -/
def lookup (k : κ) : List (κ × α) → Option α
  | [] => none
  | (k', v) :: rest => if k' = k then some v else lookup k rest

/-- The entries with the value under `k` set to `v`. -/
def assign (k : κ) (v : α) : List (κ × α) → List (κ × α)
  | [] => [(k, v)]
  | (k', v') :: rest => if k' = k then (k, v) :: rest else (k', v') :: assign k v rest

/-- The value under `k`, if any. -/
def get? (t : Table κ α) (k : κ) : Option α :=
  lookup k t.entries

/-- The value under `k`, or `default` where there is none. -/
def getD (t : Table κ α) (k : κ) (default : α) : α :=
  (t.get? k).getD default

/-- The table with `v` under `k`. -/
def insert (t : Table κ α) (k : κ) (v : α) : Table κ α :=
  ⟨assign k v t.entries⟩

/-- The table without `k`. -/
def erase (t : Table κ α) (k : κ) : Table κ α :=
  ⟨t.entries.filter fun entry => entry.1 ≠ k⟩

/-- The table with every value replaced. -/
def mapValues {β : Type} (f : α → β) (t : Table κ α) : Table κ β :=
  ⟨t.entries.map fun entry => (entry.1, f entry.2)⟩

/-- The number of keys. -/
def size (t : Table κ α) : Nat :=
  t.entries.length

theorem lookup_assign (k j : κ) (v : α) (entries : List (κ × α)) :
    lookup j (assign k v entries) = if k = j then some v else lookup j entries := by
  induction entries with
  | nil => simp only [assign, lookup]
  | cons entry rest ih =>
      rcases entry with ⟨k', v'⟩
      by_cases hk : k' = k
      · subst hk
        by_cases hj : k' = j
        · simp only [assign, lookup, if_true, if_pos hj]
        · simp only [assign, lookup, if_true, if_neg hj]
      · by_cases hj : k' = j
        · subst hj
          simp only [assign, if_neg hk, lookup, if_true, if_neg (Ne.symm hk)]
        · simp only [assign, if_neg hk, lookup, if_neg hj, ih]

theorem lookup_filter (k j : κ) (entries : List (κ × α)) :
    lookup j (entries.filter fun entry => entry.1 ≠ k)
      = if k = j then none else lookup j entries := by
  induction entries with
  | nil => simp only [List.filter_nil, lookup, ite_self]
  | cons entry rest ih =>
      rcases entry with ⟨k', v'⟩
      by_cases hk : k' = k
      · subst hk
        by_cases hj : k' = j
        · simp only [hj, ne_eq, not_true_eq_false, decide_false, List.filter_cons, if_true] at ih ⊢
          simpa only [Bool.false_eq_true, if_false] using ih
        · simp only [hj, ne_eq, not_true_eq_false, decide_false, List.filter_cons, lookup,
            if_false, Bool.false_eq_true] at ih ⊢
          exact ih
      · by_cases hj : k' = j
        · subst hj
          simp only [List.filter_cons, ne_eq, hk, not_false_eq_true, decide_true, if_true,
            lookup, if_neg (Ne.symm hk)]
        · simp only [List.filter_cons, ne_eq, hk, not_false_eq_true, decide_true, if_true,
            lookup, if_neg hj]
          simpa only [ne_eq] using ih

/-- Setting a key changes what is under that key and nothing else. -/
theorem get?_insert (t : Table κ α) (k j : κ) (v : α) :
    (t.insert k v).get? j = if k = j then some v else t.get? j :=
  lookup_assign k j v t.entries

/-- Forgetting a key empties that key and leaves the others alone. -/
theorem get?_erase (t : Table κ α) (k j : κ) :
    (t.erase k).get? j = if k = j then none else t.get? j :=
  lookup_filter k j t.entries

end Table

end ReceiveOffload
