-- Blocks of 128 big-endian longwords (ffs.c). Every block but raw file data has one
-- longword that is set so that the sum of all longwords is zero.
import Uaos.Disk

namespace uaos.ffs

open Finset

/-! ## Longwords -/

def be32 (b : Buf) (i : Nat) : Nat :=
  (b i).toNat * 16777216 + (b (i + 1)).toNat * 65536 + (b (i + 2)).toNat * 256 + (b (i + 3)).toNat

def be32_bytes (v : Nat) : List UInt8 :=
  [(v / 16777216).toUInt8, (v / 65536).toUInt8, (v / 256).toUInt8, v.toUInt8]

def FFS_BLOCK_LONGS : Nat := 128
def FFS_LW_CHECKSUM : Nat := 5

def blk_lw (b : Buf) (i : Nat) : Nat := be32 b (i * 4)

def blk_put32 (b : Buf) (i v : Nat) : Buf := put b (i * 4) (be32_bytes v)

variable {b b' : Buf} {i j k v : Nat} {d d' : BlockDev}

lemma be32_congr (h : ∀ k, k < 4 → b (i + k) = b' (j + k)) : be32 b i = be32 b' j := by
  have h0 := h 0 (by omega)
  have h1 := h 1 (by omega)
  have h2 := h 2 (by omega)
  have h3 := h 3 (by omega)
  simp only [add_zero] at h0
  rw [be32, be32, h0, h1, h2, h3]

lemma blk_lw_congr (h : ∀ k, k < 4 → b (i * 4 + k) = b' (i * 4 + k)) : blk_lw b i = blk_lw b' i :=
  be32_congr h

lemma be32_lt (b : Buf) (i : Nat) : be32 b i < 2 ^ 32 := by
  have h0 := (b i).toNat_lt
  have h1 := (b (i + 1)).toNat_lt
  have h2 := (b (i + 2)).toNat_lt
  have h3 := (b (i + 3)).toNat_lt
  unfold be32
  omega

lemma blk_lw_lt (b : Buf) (i : Nat) : blk_lw b i < 2 ^ 32 := be32_lt b (i * 4)

lemma be32_bytes_length : (be32_bytes v).length = 4 := rfl

lemma put32_outside (h : j / 4 ≠ i) : blk_put32 b i v j = b j :=
  put_outside (by rw [be32_bytes_length]; omega)

lemma be32_put : be32 (put b i (be32_bytes v)) i = v % 2 ^ 32 := by
  have hk : ∀ k, k < 4 → put b i (be32_bytes v) (i + k) = (be32_bytes v).getD k 0 :=
    fun _ h => put_at h
  have h0 := hk 0 (by omega)
  have h1 := hk 1 (by omega)
  have h2 := hk 2 (by omega)
  have h3 := hk 3 (by omega)
  simp only [add_zero] at h0
  rw [be32, h0, h1, h2, h3]
  simp only [be32_bytes, List.getD_cons_zero, List.getD_cons_succ, Nat.toUInt8, UInt8.toNat_ofNat']
  omega

lemma lw_put32 : blk_lw (blk_put32 b i v) i = v % 2 ^ 32 := be32_put

lemma lw_put32_same (hv : v < 2 ^ 32) : blk_lw (blk_put32 b i v) i = v := by
  rw [lw_put32, Nat.mod_eq_of_lt hv]

lemma lw_put32_ne (h : j ≠ i) : blk_lw (blk_put32 b i v) j = blk_lw b j :=
  blk_lw_congr fun k hk => put32_outside (by omega)

/-! ## The checksum -/

/-- The sum of the longwords in 32 bits. -/
def blk_sum (b : Buf) : Nat :=
  (List.range FFS_BLOCK_LONGS).foldl (fun sum i => u32 (sum + blk_lw b i)) 0

def blk_checksum_ok (b : Buf) : Bool := blk_sum b == 0

/-- Set the longword `i` so that the sum is zero. -/
def fix_sum (i : Nat) (b : Buf) : Buf :=
  let b := blk_put32 b i 0
  blk_put32 b i (sub32 0 (blk_sum b))

def blk_fix_checksum (b : Buf) : Buf := fix_sum FFS_LW_CHECKSUM b

/-- The checksum of a bitmap block is its first longword. -/
def blk_fix_bm_checksum (b : Buf) : Buf := fix_sum 0 b

lemma foldl_u32 (f : Nat → Nat) (n : Nat) :
    (List.range n).foldl (fun sum i => u32 (sum + f i)) 0 = u32 (∑ i ∈ range n, f i) := by
  induction n with
  | zero => rfl
  | succ n ih =>
    rw [List.range_succ, List.foldl_append, ih, sum_range_succ]
    simp only [List.foldl_cons, List.foldl_nil, u32]
    omega

lemma blk_sum_eq (b : Buf) : blk_sum b = u32 (∑ i ∈ range FFS_BLOCK_LONGS, blk_lw b i) :=
  foldl_u32 _ _

lemma checksum_congr (h : ∀ j, j < SECTOR → b j = b' j) :
    blk_checksum_ok b = blk_checksum_ok b' := by
  have hsum : ∑ i ∈ range FFS_BLOCK_LONGS, blk_lw b i =
      ∑ i ∈ range FFS_BLOCK_LONGS, blk_lw b' i := by
    refine sum_congr rfl fun i hi => blk_lw_congr fun k hk => h _ ?_
    have hi := mem_range.mp hi
    unfold FFS_BLOCK_LONGS at hi
    unfold SECTOR
    omega
  rw [blk_checksum_ok, blk_checksum_ok, blk_sum_eq, blk_sum_eq, hsum]

lemma fix_sum_ok (hi : i < FFS_BLOCK_LONGS) : blk_checksum_ok (fix_sum i b) = true := by
  have hmem : i ∈ range FFS_BLOCK_LONGS := mem_range.mpr hi
  have hrest : ∀ v, ∑ k ∈ range FFS_BLOCK_LONGS, blk_lw (blk_put32 b i v) k =
      v % 2 ^ 32 + ∑ k ∈ range FFS_BLOCK_LONGS \ {i}, blk_lw b k := by
    intro v
    rw [sum_eq_add_sum_sdiff_singleton_of_mem hmem, lw_put32]
    refine congrArg _ (sum_congr rfl fun k hk => lw_put32_ne ?_)
    simpa using (mem_sdiff.mp hk).2
  have htwice : ∀ v, ∑ k ∈ range FFS_BLOCK_LONGS, blk_lw (blk_put32 (blk_put32 b i 0) i v) k =
      ∑ k ∈ range FFS_BLOCK_LONGS, blk_lw (blk_put32 b i v) k := by
    intro v
    refine sum_congr rfl fun k _ => ?_
    by_cases hk : k = i
    · subst hk
      rw [lw_put32, lw_put32]
    · rw [lw_put32_ne hk, lw_put32_ne hk, lw_put32_ne hk]
  rw [blk_checksum_ok, blk_sum_eq, fix_sum, htwice, hrest, blk_sum_eq, hrest, beq_iff_eq]
  unfold sub32 u32
  omega

lemma checksum_fix : blk_checksum_ok (blk_fix_checksum b) = true := fix_sum_ok (by decide)

/-- Only the bytes of the checksum change. -/
lemma fix_sum_outside (h : j / 4 ≠ i) : fix_sum i b j = b j := by
  rw [fix_sum, put32_outside h, put32_outside h]

lemma fix_checksum_outside (h : j / 4 ≠ 5) : blk_fix_checksum b j = b j := fix_sum_outside h

lemma lw_fix_sum (h : j ≠ i) : blk_lw (fix_sum i b) j = blk_lw b j := by
  rw [fix_sum, lw_put32_ne h, lw_put32_ne h]

lemma lw_fix_checksum (h : j ≠ 5) : blk_lw (blk_fix_checksum b) j = blk_lw b j := lw_fix_sum h

/-! ## Blocks of a device -/

/-- The buffer that a read of the block `k` fills. -/
def block (d : BlockDev) (k : Nat) : Buf := fun j => d.data (k + j / SECTOR) (j % SECTOR)

lemma block_apply (h : j < SECTOR) : block d k j = d.data k j := by
  exact sector_apply h

lemma block_lw (h : i < FFS_BLOCK_LONGS) : blk_lw (block d k) i = blk_lw (d.data k) i :=
  blk_lw_congr fun n hn => block_apply (by unfold FFS_BLOCK_LONGS at h; unfold SECTOR; omega)

lemma block_checksum : blk_checksum_ok (block d k) = blk_checksum_ok (d.data k) :=
  checksum_congr fun _ hj => block_apply hj

lemma store_ne (h : j ≠ k) : (d.store k b 1).data j = d.data j := by
  funext n
  exact if_neg (by omega)

lemma store_lw (h : i < FFS_BLOCK_LONGS) : blk_lw ((d.store k b 1).data k) i = blk_lw b i :=
  blk_lw_congr fun n hn => store_same (by unfold FFS_BLOCK_LONGS at h; unfold SECTOR; omega)

end uaos.ffs
