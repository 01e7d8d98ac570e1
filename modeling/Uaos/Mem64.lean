-- 64-bit words: arithmetic that wraps around, and words in a memory of bytes. Words at
-- multiples of 8 do not overlap, so that a memory is a table of such words.
import Uaos.Disk

namespace uaos

/-- A value stored in a `uint64_t`. -/
def u64 (n : Nat) : Nat := n % 2 ^ 64

/-- The `uint64_t` difference `a - b` of two words. -/
def sub64 (a b : Nat) : Nat := u64 (a + (2 ^ 64 - b))

lemma u64_of_lt {n : Nat} (h : n < 2 ^ 64) : u64 n = n := Nat.mod_eq_of_lt h

lemma sub64_of_le {a b : Nat} (h : b ≤ a) (ha : a < 2 ^ 64) : sub64 a b = a - b := by
  unfold sub64 u64
  omega

/-! ## Words in a memory -/

def le64 (b : Buf) (i : Nat) : Nat := le32 b i + 2 ^ 32 * le32 b (i + 4)

def put_le64 (b : Buf) (i v : Nat) : Buf := put_le32 (put_le32 b i v) (i + 4) (v / 2 ^ 32)

variable {b b' : Buf} {i j v : Nat}

lemma le64_lt (b : Buf) (i : Nat) : le64 b i < 2 ^ 64 := by
  have := le32_lt b i
  have := le32_lt b (i + 4)
  unfold le64
  omega

lemma le64_congr (h : ∀ k, k < 8 → b (i + k) = b' (j + k)) : le64 b i = le64 b' j := by
  have hlow : le32 b i = le32 b' j := le32_congr fun k hk => h k (by omega)
  have hhigh : le32 b (i + 4) = le32 b' (j + 4) := by
    refine le32_congr fun k hk => ?_
    rw [add_assoc, add_assoc]
    exact h (4 + k) (by omega)
  rw [le64, le64, hlow, hhigh]

lemma put_le64_outside (h : j < i ∨ i + 8 ≤ j) : put_le64 b i v j = b j := by
  unfold put_le64 put_le32
  rw [put_outside ?_, put_outside ?_] <;> simp only [le32_bytes, List.length_cons,
    List.length_nil] <;> omega

lemma le64_put_outside (h : j + 8 ≤ i ∨ i + 8 ≤ j) : le64 (put_le64 b i v) j = le64 b j :=
  le64_congr fun k hk => put_le64_outside (by omega)

lemma le64_put_same (hv : v < 2 ^ 64) : le64 (put_le64 b i v) i = v := by
  have hlow : le32 (put_le64 b i v) i = v % 2 ^ 32 := by
    unfold put_le64
    rw [put_le32, le32_put_outside (.inl (le_refl _)), le32_put_le32]
  have hhigh : le32 (put_le64 b i v) (i + 4) = v / 2 ^ 32 % 2 ^ 32 := le32_put_le32
  unfold le64
  omega

end uaos
