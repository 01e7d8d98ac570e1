-- Counting in 32 bit numbers that wrap. A count without a bound is given by a 32 bit number
-- at a base, and two counts that are not far apart are compared by the signed difference of
-- their numbers.
import Mathlib.Tactic

namespace uaos.serial

/-- The 32 bit number of the count `n`, where `base` is the number of the count 0. -/
def num (base : UInt32) (n : Nat) : UInt32 := base + UInt32.ofNat n

/-- How far `a` is ahead of `b`, as a signed 32 bit number. -/
def ahead (a b : UInt32) : Int := (a - b).toInt32.toInt

variable {base : UInt32} {m n : Nat}

@[simp] lemma num_zero : num base 0 = base := by simp [num]

lemma num_add (m n : Nat) : num base m + UInt32.ofNat n = num base (m + n) := by
  rw [num, num, UInt32.ofNat_add, UInt32.add_assoc]

lemma num_succ (n : Nat) : num base n + 1 = num base (n + 1) := num_add n 1

lemma num_succ_base (n : Nat) : num (base + 1) n = num base (n + 1) := by
  rw [add_comm n, ← num_add, ← num_succ, num_zero, num]

lemma toNat_num : (num base n).toNat = (base.toNat + n) % 2 ^ 32 := by
  simp [num, UInt32.toNat_add]

/-- Two counts have one number when they differ by whole rounds. -/
lemma num_inj : num base m = num base n ↔ m % 2 ^ 32 = n % 2 ^ 32 := by
  rw [← UInt32.toNat_inj, toNat_num, toNat_num]
  omega

lemma num_inj_of_near (h : m ≤ n) (hn : n < m + 2 ^ 32) : num base m = num base n ↔ m = n := by
  rw [num_inj]
  omega

lemma toNat_num_sub (h : m ≤ n) (hn : n < m + 2 ^ 32) :
    (num base n - num base m).toNat = n - m := by
  rw [UInt32.toNat_sub, toNat_num, toNat_num]
  omega

lemma toNat_num_sub_of_lt (h : n < m) (hm : m < n + 2 ^ 32) :
    (num base n - num base m).toNat = 2 ^ 32 - (m - n) := by
  rw [UInt32.toNat_sub, toNat_num, toNat_num]
  omega

/-- Every number is the number of a count that is less than a round ahead of another. -/
lemma exists_num (base a : UInt32) (n : Nat) : a = num base (n + (a - num base n).toNat) := by
  rw [← num_add, UInt32.ofNat_toNat]
  grind

lemma ahead_eq (a b : UInt32) : ahead a b =
      if (a - b).toNat < 2 ^ 31 then ((a - b).toNat : Int) else (a - b).toNat - 2 ^ 32 := by
  have hint : ahead a b = (a - b).toBitVec.toInt := rfl
  rw [hint, BitVec.toInt_eq_toNat_cond, UInt32.toNat_toBitVec]
  split <;> split <;> omega

/-- Counts that are less than half a round apart are told by the signed difference of
their numbers. -/
lemma ahead_num (h1 : m ≤ n + 2 ^ 31) (h2 : n < m + 2 ^ 31) :
    ahead (num base n) (num base m) = (n : Int) - m := by
  rw [ahead_eq]
  rcases lt_or_ge n m with h | h
  · rw [toNat_num_sub_of_lt h (by omega)]
    split <;> omega
  · rw [toNat_num_sub h (by omega)]
    split <;> omega

end uaos.serial
