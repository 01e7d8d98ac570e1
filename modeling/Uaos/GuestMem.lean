-- The memory of an m68k task (dos_lib.c): a window of 16 MB that the kernel reads and writes
-- in big-endian longwords. An access that is not wholly inside the window does nothing.
import Uaos.FfsBlock
import Uaos.Word
import Mathlib.Tactic

namespace uaos.guest

open ffs

def GUEST_RAM_SIZE : Nat := 0x1000000

def guest_read_be32 (ram : Buf) (addr : Nat) : Nat :=
  if GUEST_RAM_SIZE - 4 < addr then 0 else be32 ram addr

def guest_write_be32 (ram : Buf) (addr val : Nat) : Buf :=
  if GUEST_RAM_SIZE - 4 < addr then ram else put ram addr (be32_bytes val)

/-- The loop that stores `v` in the bytes `[addr, addr + n)` and stops at the end of the window. -/
def fill (ram : Buf) (addr n : Nat) (v : UInt8) : Buf :=
  fun j => if addr ≤ j ∧ j < addr + n ∧ j < GUEST_RAM_SIZE then v else ram j

variable {ram ram' : Buf} {a b j n val : Nat} {v : UInt8}

lemma read_lt (ram : Buf) (a : Nat) : guest_read_be32 ram a < 2 ^ 32 := by
  unfold guest_read_be32
  split
  · decide
  · exact be32_lt ram a

/-- A read only depends on the four bytes that it reads. -/
lemma read_congr (h : ∀ j, a ≤ j → j < a + 4 → ram' j = ram j) :
    guest_read_be32 ram' a = guest_read_be32 ram a := by
  unfold guest_read_be32
  split
  · rfl
  · exact be32_congr fun k hk => h (a + k) (Nat.le_add_right a k) (Nat.add_lt_add_left hk a)

lemma write_outside (h : j < a ∨ a + 4 ≤ j) : guest_write_be32 ram a val j = ram j := by
  unfold guest_write_be32
  split
  · rfl
  · exact put_outside h

lemma read_write_same (ha : a + 4 ≤ GUEST_RAM_SIZE) (hv : val < 2 ^ 32) :
    guest_read_be32 (guest_write_be32 ram a val) a = val := by
  have hin : ¬ GUEST_RAM_SIZE - 4 < a := by omega
  rw [guest_read_be32, if_neg hin, guest_write_be32, if_neg hin, be32_put, Nat.mod_eq_of_lt hv]

lemma read_write_apart (h : a + 4 ≤ b ∨ b + 4 ≤ a) :
    guest_read_be32 (guest_write_be32 ram a val) b = guest_read_be32 ram b :=
  read_congr fun j hj hjb => write_outside (by omega)

lemma fill_outside (h : j < a ∨ a + n ≤ j) : fill ram a n v j = ram j := by
  exact if_neg (by omega)

lemma read_fill_apart (h : a + n ≤ b ∨ b + 4 ≤ a) :
    guest_read_be32 (fill ram a n v) b = guest_read_be32 ram b :=
  read_congr fun j hj hjb => fill_outside (by omega)

lemma fill_inside (h : a ≤ j) (hn : j < a + n) (hj : j < GUEST_RAM_SIZE) :
    fill ram a n v j = v := by
  exact if_pos ⟨h, hn, hj⟩

/-- A longword of zero bytes. -/
lemma read_zero (h : ∀ j, a ≤ j → j < a + 4 → ram j = 0) : guest_read_be32 ram a = 0 := by
  unfold guest_read_be32
  split
  · rfl
  have h0 := h a (by omega) (by omega)
  have h1 := h (a + 1) (by omega) (by omega)
  have h2 := h (a + 2) (by omega) (by omega)
  have h3 := h (a + 3) (by omega) (by omega)
  rw [be32, h0, h1, h2, h3]
  rfl

end uaos.guest
