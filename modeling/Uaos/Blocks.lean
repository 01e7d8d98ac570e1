-- A stream that is taken in block by block: the state after the whole blocks of a message, and
-- the bytes that are left over. How a message was cut up does not matter.
import Mathlib.Data.List.Basic
import Mathlib.Tactic

namespace uaos.blocks

open List

variable {α S : Type}

/-- The first `k` blocks of `bs`, with `size` elements each. -/
def feed (size : Nat) (f : S → List α → S) : Nat → S → List α → S
  | 0, s, _ => s
  | k + 1, s, bs => feed size f k (f s (bs.take size)) (bs.drop size)

/-- All the whole blocks. -/
def absorb (size : Nat) (f : S → List α → S) (s : S) (bs : List α) : S :=
  feed size f (bs.length / size) s bs

/-- What is left after the whole blocks. -/
def rest (size : Nat) (bs : List α) : List α := bs.drop (bs.length / size * size)

variable {size k m : Nat} {f : S → List α → S} {s : S} {as bs : List α}

lemma feed_add : feed size f (k + m) s bs = feed size f m (feed size f k s bs)
    (bs.drop (k * size)) := by
  induction k generalizing s bs with
  | zero => simp [feed]
  | succ k ih =>
    have hsucc : k + 1 + m = (k + m) + 1 := by omega
    rw [hsucc]
    simp only [feed]
    rw [ih, drop_drop]
    congr 2
    ring

/-- The blocks that are fed do not depend on what comes after them. -/
lemma feed_append (h : k * size ≤ as.length) : feed size f k s (as ++ bs) = feed size f k s as := by
  induction k generalizing s as with
  | zero => rfl
  | succ k ih =>
    have hle : (k + 1) * size = k * size + size := by ring
    simp only [feed]
    rw [take_append_of_le_length (by omega), drop_append_of_le_length (by omega)]
    exact ih (by rw [length_drop]; omega)

lemma rest_length : (rest size bs).length = bs.length % size := by
  have := Nat.div_add_mod bs.length size
  rw [rest, length_drop, mul_comm]
  omega

/-- The whole blocks of a message are those of its first part and those of what follows the rest of
it. -/
lemma div_append (hsize : 0 < size) :
    (as ++ bs).length / size = as.length / size + (rest size as ++ bs).length / size := by
  have hmod := Nat.div_add_mod as.length size
  have hsum : as.length + bs.length =
    (as.length % size + bs.length) + size * (as.length / size) := by
    omega
  rw [length_append, length_append, rest_length, hsum, Nat.add_mul_div_left _ _ hsize]
  omega

lemma drop_append : (as ++ bs).drop (as.length / size * size) = rest size as ++ bs :=
  drop_append_of_le_length (Nat.div_mul_le_self _ _)

lemma absorb_append (hsize : 0 < size) :
    absorb size f s (as ++ bs) = absorb size f (absorb size f s as) (rest size as ++ bs) := by
  unfold absorb
  rw [div_append hsize, feed_add, feed_append (Nat.div_mul_le_self _ _), drop_append]

lemma rest_append (hsize : 0 < size) : rest size (as ++ bs) = rest size (rest size as ++ bs) := by
  have hcut : rest size (as ++ bs) =
      (as ++ bs).drop (as.length / size * size + (rest size as ++ bs).length / size * size) := by
    rw [← add_mul, ← div_append hsize]
    rfl
  rw [hcut, ← drop_drop, drop_append]
  rfl

lemma absorb_short (h : bs.length < size) : absorb size f s bs = s := by
  rw [absorb, Nat.div_eq_of_lt h]
  rfl

lemma rest_short (h : bs.length < size) : rest size bs = bs := by
  rw [rest, Nat.div_eq_of_lt h, zero_mul, drop_zero]

/-- A whole block at the front is taken in first. -/
lemma absorb_block (hsize : 0 < size) (h : as.length = size) :
    absorb size f s (as ++ bs) = absorb size f (f s as) bs := by
  have hrest : rest size as = [] := by
    rw [← length_eq_zero_iff, rest_length, h, Nat.mod_self]
  have hone : absorb size f s as = f s as := by
    rw [absorb, h, Nat.div_self hsize]
    simp only [feed]
    rw [← h, take_length]
  rw [absorb_append hsize, hrest, hone, nil_append]

lemma rest_block (hsize : 0 < size) (h : as.length = size) :
    rest size (as ++ bs) = rest size bs := by
  have hrest : rest size as = [] := by
    rw [← length_eq_zero_iff, rest_length, h, Nat.mod_self]
  rw [rest_append hsize, hrest, nil_append]

end uaos.blocks
