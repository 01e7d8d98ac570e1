-- 32-bit words as numbers: every operation of the C code that can wrap around
-- is written with one of the functions below.
import Mathlib.Tactic

namespace uaos

/-- A value stored in a `uint32_t`. -/
def u32 (n : Nat) : Nat := n % 2 ^ 32

/-- The `uint32_t` difference `a - b` of two words. -/
def sub32 (a b : Nat) : Nat := u32 (a + (2 ^ 32 - b))

lemma u32_lt (n : Nat) : u32 n < 2 ^ 32 := Nat.mod_lt _ (by decide)

lemma u32_of_lt {n : Nat} (h : n < 2 ^ 32) : u32 n = n := Nat.mod_eq_of_lt h

lemma sub32_of_le {a b : Nat} (h : b ≤ a) (ha : a < 2 ^ 32) : sub32 a b = a - b := by
  unfold sub32 u32
  omega

/-- Fuel that is more than something is left for one more round. -/
lemma one_more {m n : Nat} (h : m < n) : ∃ k, n = k + 1 :=
  Nat.exists_eq_add_one.mpr (Nat.zero_lt_of_lt h)

lemma forall_byte {p : UInt8 → Prop} (h : ∀ n : Fin 256, p (UInt8.ofNat n)) (c : UInt8) : p c := by
  have := h ⟨c.toNat, c.toNat_lt⟩
  rwa [UInt8.ofNat_toNat] at this

end uaos
