/-!
# Maps over Addresses

Counters and metadata live in an address space of 64 bits that is almost empty.
A finite map from addresses is kept as a binary tree, in which the digits of an
address are the path to its value. Every look-up and every change goes down one
path, so what it costs depends on the address and not on how much the map
holds.

The digits are one and two and not zero and one. Without a zero no number has
leading digits that say nothing, so small addresses have short paths and every
path belongs to one number only.

## Main definitions

* `DigitTree`: A tree that branches on digits.
* `digits`: The digits of a number.
* `AddressMap`: A finite map from addresses.
* `AddressMap.get?`, `AddressMap.getD`: The value at an address.
* `AddressMap.insert`: Sets the value at an address.

## Theorems

* `DigitTree.find?_set`: What a tree holds after a path was set.
* `digits_inj`: Numbers with the same digits are the same.
* `AddressMap.get?_insert`: What a map holds after an address was set.
-/

namespace ReceiveOffload

/-- A tree that branches on one digit after the other. The first branch is for
    the digit one and the second for the digit two. -/
inductive DigitTree (α : Type) where
  | empty
  | node (value : Option α) (one two : DigitTree α)
  deriving DecidableEq, Repr

namespace DigitTree

variable {α : Type}

/-- The value at the end of a path, on which `true` stands for the digit two. -/
def find? : DigitTree α → List Bool → Option α
  | empty, _ => none
  | node value _ _, [] => value
  | node _ one _, false :: path => one.find? path
  | node _ _ two, true :: path => two.find? path

/-- The tree with a value at the end of a path. -/
def set (new : α) : DigitTree α → List Bool → DigitTree α
  | empty, [] => node (some new) empty empty
  | empty, false :: path => node none (set new empty path) empty
  | empty, true :: path => node none empty (set new empty path)
  | node _ one two, [] => node (some new) one two
  | node value one two, false :: path => node value (set new one path) two
  | node value one two, true :: path => node value one (set new two path)

/-- Setting a path changes what is at its end and at no other path. -/
theorem find?_set (new : α) (t : DigitTree α) (p q : List Bool) :
    (t.set new p).find? q = if p = q then some new else t.find? q := by
  induction p generalizing t q with
  | nil =>
      rcases t with _ | ⟨value, one, two⟩ <;> rcases q with _ | ⟨c, q⟩
      · rfl
      · cases c <;> rfl
      · rfl
      · cases c <;> rfl
  | cons b p ih =>
      rcases t with _ | ⟨value, one, two⟩ <;> rcases q with _ | ⟨c, q⟩
      · cases b <;> rfl
      · cases b <;> cases c <;> simp [set, find?, ih]
      · cases b <;> rfl
      · cases b <;> cases c <;> simp [set, find?, ih]

end DigitTree

/-- The digits of a number, the lowest first; `true` is the digit two. -/
def digits (n : Nat) : List Bool :=
  if n = 0 then [] else (n % 2 = 0) :: digits ((n - 1) / 2)
termination_by n

theorem digits_zero : digits 0 = [] := by
  rw [digits, if_pos rfl]

theorem digits_pos (n : Nat) (h : 0 < n) :
    digits n = decide (n % 2 = 0) :: digits ((n - 1) / 2) := by
  rw [digits, if_neg (Nat.pos_iff_ne_zero.mp h)]

/-- Numbers with the same digits are the same. -/
theorem digits_inj (m n : Nat) : digits m = digits n ↔ m = n := by
  constructor
  · induction m using Nat.strongRecOn generalizing n with
    | _ m ih =>
      intro h
      rcases Nat.eq_zero_or_pos m with rfl | hm <;> rcases Nat.eq_zero_or_pos n with rfl | hn
      · rfl
      · rw [digits_zero, digits_pos n hn] at h
        cases h
      · rw [digits_zero, digits_pos m hm] at h
        cases h
      · rw [digits_pos m hm, digits_pos n hn, List.cons.injEq, decide_eq_decide] at h
        have hrest := ih ((m - 1) / 2) (by omega) ((n - 1) / 2) h.2
        omega
  · rintro rfl
    rfl

/-- A finite map from addresses. -/
structure AddressMap (α : Type) where
  tree : DigitTree α := .empty
  deriving DecidableEq, Repr

namespace AddressMap

variable {α : Type}

/-- The value at an address, if any. -/
def get? (m : AddressMap α) (address : UInt64) : Option α :=
  m.tree.find? (digits address.toNat)

/-- The value at an address, or `default` where there is none. -/
def getD (m : AddressMap α) (address : UInt64) (default : α) : α :=
  (m.get? address).getD default

/-- The map with a value at an address. -/
def insert (m : AddressMap α) (address : UInt64) (value : α) : AddressMap α :=
  ⟨m.tree.set value (digits address.toNat)⟩

/-- Setting an address changes what is at that address and nothing else. -/
theorem get?_insert (m : AddressMap α) (a b : UInt64) (value : α) :
    (m.insert a value).get? b = if a = b then some value else m.get? b := by
  simp only [get?, insert, DigitTree.find?_set, digits_inj, UInt64.toNat_inj]

end AddressMap

end ReceiveOffload
