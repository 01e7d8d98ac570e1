-- Rings of slots: the list of the items that a ring holds from its head on, and what adding
-- an item behind the last and taking the first do to that list.
import Mathlib.Tactic.Lemma
import Mathlib.Data.List.Basic
import Mathlib.Data.Nat.ModEq
import Mathlib.Logic.Function.Basic

namespace uaos.ring

open List Nat

variable {α : Type} {size head n : Nat} {buf : Nat → α}

/-- The `n` items of a ring of `size` slots, from the slot `head` on. -/
def items (buf : Nat → α) (size head n : Nat) : List α :=
  (List.range n).map fun i => buf ((head + i) % size)

@[simp] lemma items_zero : items buf size head 0 = [] := rfl

@[simp] lemma length_items : (items buf size head n).length = n := by simp [items]

@[simp] lemma items_eq_nil : items buf size head n = [] ↔ n = 0 := by simp [items]

/-- Taking the first item moves the head by one slot. -/
lemma items_pop (h : head < size) :
    items buf size head (n + 1) = buf head :: items buf size ((head + 1) % size) n := by
  simp only [items, range_succ_eq_map, map_cons, List.map_map, add_zero, mod_eq_of_lt h]
  refine congrArg _ (map_congr_left fun i _ => ?_)
  simp only [Function.comp, mod_add_mod]
  rw [show head + succ i = head + 1 + i by omega]

/-- Stepping on by less than a whole round comes to a slot of its own. -/
lemma slot_inj {i : Nat} (hi : i < size) (hn : n < size)
    (h : (head + i) % size = (head + n) % size) : i = n := by
  have hmod : i % size = n % size := Nat.ModEq.add_left_cancel' head h
  rwa [mod_eq_of_lt hi, mod_eq_of_lt hn] at hmod

/-- An item written behind the last one is the new last one. -/
lemma items_push (h : n < size) (x : α) :
    items (Function.update buf ((head + n) % size) x) size head (n + 1) =
      items buf size head n ++ [x] := by
  simp only [items, range_succ, map_append, map_cons, map_nil, Function.update_self]
  refine congrArg (· ++ [x]) (map_congr_left fun i hi => ?_)
  have hi := mem_range.mp hi
  refine Function.update_of_ne (fun he => ?_) _ _
  have := slot_inj (by omega) h he
  omega

/-! ## Rings given by a head and a tail -/

/-- How many slots lie between the head and the tail. -/
def used (head tail size : Nat) : Nat := (tail + size - head) % size

/-- The items between the head and the tail. -/
def between (buf : Nat → α) (size head tail : Nat) : List α :=
  items buf size head (used head tail size)

variable {tail : Nat}

section

variable (hh : head < size)

include hh

lemma used_lt : used head tail size < size := mod_lt _ (by omega)

section

variable (ht : tail < size)

include ht

lemma tail_eq : (head + used head tail size) % size = tail := by
  unfold used
  rw [add_mod_mod, show head + (tail + size - head) = tail + size by omega,
    add_mod_right, mod_eq_of_lt ht]

/-- The number of slots in use is the only one that leads from the head to the tail. -/
lemma used_eq (hn : n < size) (h : (head + n) % size = tail) : used head tail size = n :=
  slot_inj (used_lt hh) hn ((tail_eq hh ht).trans h.symm)

lemma used_next (h : (tail + 1) % size ≠ head) :
    used head ((tail + 1) % size) size = used head tail size + 1 := by
  have hlt : used head tail size < size := used_lt hh
  have hnext : (head + (used head tail size + 1)) % size = (tail + 1) % size := by
    rw [← add_assoc, add_mod, tail_eq hh ht, add_mod_mod]
  have hne : used head tail size + 1 ≠ size := by
    intro he
    rw [he, add_mod_right, mod_eq_of_lt hh] at hnext
    exact h hnext.symm
  exact used_eq hh (mod_lt _ (by omega)) (by omega) hnext

lemma used_eq_zero : used head tail size = 0 ↔ head = tail := by
  constructor
  · intro h
    have := tail_eq hh ht
    rwa [h, add_zero, mod_eq_of_lt hh] at this
  · rintro rfl
    simp [used]

lemma between_push (h : (tail + 1) % size ≠ head) (x : α) :
    between (Function.update buf tail x) size head ((tail + 1) % size) =
      between buf size head tail ++ [x] := by
  have hlt : used head tail size < size := used_lt hh
  rw [between, used_next hh ht h, between, ← items_push hlt x, tail_eq hh ht]

lemma between_pop (h : head ≠ tail) :
    between buf size head tail = buf head :: between buf size ((head + 1) % size) tail := by
  have hpos : used head tail size ≠ 0 := fun h0 => h ((used_eq_zero hh ht).mp h0)
  obtain ⟨k, hk⟩ : ∃ k, used head tail size = k + 1 := ⟨_, (succ_pred hpos).symm⟩
  have hlt : used head tail size < size := used_lt hh
  have hrest : used ((head + 1) % size) tail size = k := by
    refine used_eq (mod_lt _ (by omega)) ht (by omega) ?_
    rw [mod_add_mod, add_assoc, add_comm 1, ← hk]
    exact tail_eq hh ht
  rw [between, hk, items_pop hh, between, hrest]

end

end

end uaos.ring
