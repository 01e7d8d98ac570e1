-- Block devices (blockdev.c) and the byte buffers that go to and from them. A
-- transfer fails when it leaves the device, and for no other reason.
import Mathlib.Data.List.GetD
import Uaos.Word

namespace uaos

open List Nat

/-- Rows of `k` places: the row `a` ends before the row `b`. -/
lemma row_le {a b : Nat} (h : a < b) (k : Nat) : a * k + k ≤ b * k := by
  rw [← succ_mul]
  exact mul_le_mul_right k h

lemma getD_mem {l : List Nat} {i : Nat} (h : i < l.length) : l.getD i 0 ∈ l := by
  rw [getD_eq_getElem _ _ h]
  exact getElem_mem h

lemma getD_inj {l : List Nat} {i j : Nat} (hnd : l.Nodup) (hi : i < l.length) (hj : j < l.length)
    (h : l.getD i 0 = l.getD j 0) : i = j := by
  rw [getD_eq_getElem _ _ hi, getD_eq_getElem _ _ hj] at h
  exact (Nodup.getElem_inj_iff hnd).mp h

/-! ## Buffers -/

/-- The bytes of a buffer, by offset. -/
abbrev Buf := Nat → UInt8

def le16 (b : Buf) (i : Nat) : Nat := (b i).toNat + 256 * (b (i + 1)).toNat

def le32 (b : Buf) (i : Nat) : Nat := le16 b i + 65536 * le16 b (i + 2)

/-- Copy the bytes `bs` to the offset `i` of the buffer. -/
def put (b : Buf) (i : Nat) (bs : List UInt8) : Buf :=
  fun j => if i ≤ j ∧ j < i + bs.length then bs.getD (j - i) 0 else b j

def le16_bytes (v : Nat) : List UInt8 := [v.toUInt8, (v / 256).toUInt8]

def le32_bytes (v : Nat) : List UInt8 :=
  [v.toUInt8, (v / 256).toUInt8, (v / 65536).toUInt8, (v / 16777216).toUInt8]

def put_le16 (b : Buf) (i v : Nat) : Buf := put b i (le16_bytes v)

def put_le32 (b : Buf) (i v : Nat) : Buf := put b i (le32_bytes v)

/-- The bytes `[i, i + n)` of a buffer. -/
def slice (b : Buf) (i n : Nat) : List UInt8 := (List.range n).map fun k => b (i + k)

variable {b b' : Buf} {i j n v : Nat} {bs : List UInt8}

lemma le16_lt (b : Buf) (i : Nat) : le16 b i < 65536 := by
  have h0 := (b i).toNat_lt
  have h1 := (b (i + 1)).toNat_lt
  unfold le16
  omega

lemma le32_lt (b : Buf) (i : Nat) : le32 b i < 2 ^ 32 := by
  have h0 := le16_lt b i
  have h1 := le16_lt b (i + 2)
  unfold le32
  omega

lemma le16_congr (h : ∀ k, k < 2 → b (i + k) = b' (j + k)) : le16 b i = le16 b' j := by
  have h0 := h 0 (by omega)
  have h1 := h 1 (by omega)
  simp only [add_zero] at h0
  simp only [le16, h0, h1]

lemma le32_congr (h : ∀ k, k < 4 → b (i + k) = b' (j + k)) : le32 b i = le32 b' j := by
  have hlow : le16 b i = le16 b' j := le16_congr fun k hk => h k (by omega)
  have hhigh : le16 b (i + 2) = le16 b' (j + 2) := by
    refine le16_congr fun k hk => ?_
    rw [add_assoc, add_assoc]
    exact h (2 + k) (by omega)
  rw [le32, le32, hlow, hhigh]

lemma put_inside (h : i ≤ j) (hj : j < i + bs.length) : put b i bs j = bs.getD (j - i) 0 :=
  if_pos ⟨h, hj⟩

lemma put_at (h : j < bs.length) : put b i bs (i + j) = bs.getD j 0 := by
  rw [put_inside le_self_add (by omega), Nat.add_sub_cancel_left]

lemma put_outside (h : j < i ∨ i + bs.length ≤ j) : put b i bs j = b j := if_neg (by omega)

lemma put_le16_outside (h : j < i ∨ i + 2 ≤ j) : put_le16 b i v j = b j := put_outside h

lemma put_le32_outside (h : j < i ∨ i + 4 ≤ j) : put_le32 b i v j = b j := put_outside h

/-- A copy that goes on where the last one ended. -/
lemma put_append {as : List UInt8} : put (put b i as) (i + as.length) bs = put b i (as ++ bs) := by
  funext j
  rcases lt_or_ge j i with h1 | h1
  · rw [put_outside (by omega), put_outside (by omega), put_outside (by omega)]
  rcases lt_or_ge j (i + as.length) with h2 | h2
  · have hlt : j - i < as.length := by omega
    rw [put_outside (by omega), put_inside h1 h2,
      put_inside h1 (by rw [length_append]; omega), getD_append _ _ _ _ hlt]
  rcases lt_or_ge j (i + as.length + bs.length) with h3 | h3
  · have hge : as.length ≤ j - i := by omega
    rw [put_inside h2 h3, put_inside h1 (by rw [length_append]; omega),
      getD_append_right _ _ _ _ hge]
    congr 1
    omega
  · rw [put_outside (by omega), put_outside (by omega), put_outside (by rw [length_append]; omega)]

/-- The same copy at another offset of another buffer. -/
lemma put_moved {i' j' : Nat} (hij : i + j' = i' + j)
    (h : j < i ∨ i + bs.length ≤ j → b j = b' j') : put b i bs j = put b' i' bs j' := by
  by_cases hin : i ≤ j ∧ j < i + bs.length
  · rw [put_inside hin.1 hin.2, put_inside (by omega) (by omega), show j' - i' = j - i by omega]
  · rw [put_outside (by omega), put_outside (by omega), h (by omega)]

lemma put_congr (h : j < i ∨ i + bs.length ≤ j → b j = b' j) : put b i bs j = put b' i bs j :=
  put_moved rfl h

lemma put_nil : put b i [] = b := by
  funext j
  exact put_outside (by simp only [length_nil]; omega)

lemma le16_put_le16 : le16 (put_le16 b i v) i = v % 65536 := by
  unfold put_le16
  rw [le16, put_inside (le_refl _) (by simp [le16_bytes]),
    put_inside (le_self_add) (by simp [le16_bytes])]
  simp only [Nat.sub_self, Nat.add_sub_cancel_left, le16_bytes, getD_cons_zero,
    getD_cons_succ, Nat.toUInt8, UInt8.toNat_ofNat']
  omega

lemma le32_put_le32 : le32 (put_le32 b i v) i = v % 2 ^ 32 := by
  have hk : ∀ k, k < 4 → put_le32 b i v (i + k) = (le32_bytes v).getD k 0 := fun _ h => put_at h
  have h0 := hk 0 (by omega)
  have h1 := hk 1 (by omega)
  have h2 := hk 2 (by omega)
  have h3 := hk 3 (by omega)
  simp only [add_zero] at h0
  rw [le32, le16, le16, h0, h1, h2, h3]
  simp only [le32_bytes, getD_cons_zero, getD_cons_succ, Nat.toUInt8, UInt8.toNat_ofNat']
  omega

/-- A word that no byte of the copy falls on stays. -/
lemma le32_put_outside (h : j + 4 ≤ i ∨ i + bs.length ≤ j) : le32 (put b i bs) j = le32 b j :=
  le32_congr fun k hk => put_outside (by omega)

@[simp] lemma slice_length : (slice b i n).length = n := by simp [slice]

lemma slice_congr (h : ∀ k, k < n → b (i + k) = b' (j + k)) : slice b i n = slice b' j n := by
  refine map_congr_left ?_
  intro k hk
  exact h k (mem_range.mp hk)

lemma slice_append {m : Nat} : slice b i (m + n) = slice b i m ++ slice b (i + m) n := by
  simp only [slice, range_add, map_append, List.map_map]
  congr 1
  refine map_congr_left ?_
  intro k _
  simp [add_assoc]

lemma getElem?_slice {k : Nat} : (slice b i n)[k]? = if k < n then some (b (i + k)) else none := by
  unfold slice
  by_cases h : k < n
  · simp [h]
  · simp [h]

lemma getD_slice (h : j < n) : (slice b i n).getD j 0 = b (i + j) := by simp [slice, h]

lemma slice_put_same : slice (put b i bs) i bs.length = bs := by
  refine ext_getElem slice_length fun k _ hk => ?_
  simp only [slice, getElem_map, getElem_range]
  rw [put_at hk, getD_eq_getElem _ _ hk]

/-- The part of the content that a read gives. -/
lemma take_drop_slice {len pos size : Nat} :
    ((slice b 0 size).drop pos).take len = slice b pos (min len (size - pos)) := by
  refine ext_getElem? ?_
  intro k
  rw [getElem?_take, getElem?_drop, getElem?_slice, getElem?_slice, zero_add]
  by_cases h1 : k < len
  · by_cases h2 : pos + k < size
    · rw [if_pos h1, if_pos h2, if_pos (by omega)]
    · rw [if_pos h1, if_neg h2, if_neg (by omega)]
  · rw [if_neg h1, if_neg (by omega)]

/-- The content after a write at `pos`. -/
lemma slice_put {pos size : Nat} (hle : pos ≤ size)
    (h : ∀ m, m < max size (pos + bs.length) → b' m = put b pos bs m) :
    slice b' 0 (max size (pos + bs.length)) =
      (slice b 0 size).take pos ++ bs ++ (slice b 0 size).drop (pos + bs.length) := by
  have htake : ((slice b 0 size).take pos).length = pos := by
    rw [length_take, slice_length, min_eq_left hle]
  refine ext_getElem? ?_
  intro k
  rw [getElem?_slice, zero_add]
  rcases lt_or_ge k pos with h1 | h1
  · rw [if_pos (by omega), h k (by omega), put_outside (by omega), append_assoc,
      getElem?_append_left (by omega), getElem?_take, if_pos h1, getElem?_slice,
      if_pos (by omega), zero_add]
  rcases lt_or_ge k (pos + bs.length) with h2 | h2
  · have hk : k - pos < bs.length := by omega
    rw [if_pos (by omega), h k (by omega), put_inside h1 h2,
      getElem?_append_left (by rw [length_append]; omega),
      getElem?_append_right (by omega), htake, getD_eq_getElem _ _ hk,
      getElem?_eq_getElem hk]
  · rw [getElem?_append_right (by rw [length_append]; omega), length_append, htake,
      getElem?_drop, getElem?_slice, zero_add]
    have hk : pos + bs.length + (k - (pos + bs.length)) = k := by omega
    rw [hk]
    by_cases h3 : k < size
    · rw [if_pos (by omega), if_pos h3, h k (by omega), put_outside (by omega)]
    · rw [if_neg (by omega), if_neg h3]

/-! ## Devices -/

/-- The size of a sector in bytes. -/
def SECTOR : Nat := 512

/-- A device: the bytes of each of its sectors. `part_offset` is where it begins
on its disk. -/
structure BlockDev where
  data : Nat → Nat → UInt8
  num_sectors : Nat
  part_offset : Nat

def blockdev_read (d : BlockDev) (sector num : Nat) : Option Buf :=
  if d.num_sectors < sector + num then none
  else some fun j => d.data (sector + j / SECTOR) (j % SECTOR)

/-- The device with `num` sectors of `buf` stored at `sector`. -/
def BlockDev.store (d : BlockDev) (sector : Nat) (buf : Buf) (num : Nat) : BlockDev := { d with
    data := fun t j =>
      if sector ≤ t ∧ t < sector + num ∧ j < SECTOR then buf ((t - sector) * SECTOR + j)
      else d.data t j }

def blockdev_write (d : BlockDev) (sector : Nat) (buf : Buf) (num : Nat) : Option BlockDev :=
  if d.num_sectors < sector + num then none else some (d.store sector buf num)

/-- The bytes of `d'` differ from those of `d` in sectors of `P` only. -/
structure Touches (P : Nat → Prop) (d d' : BlockDev) : Prop where
  size : d'.num_sectors = d.num_sectors
  part : d'.part_offset = d.part_offset
  keep : ∀ t, ¬ P t → d'.data t = d.data t

variable {P Q : Nat → Prop} {d d' d'' : BlockDev} {s : Nat} {buf : Buf}

lemma Touches.refl (P : Nat → Prop) (d : BlockDev) : Touches P d d := ⟨rfl, rfl, fun _ _ => rfl⟩

lemma Touches.mono (h : Touches P d d') (hPQ : ∀ t, P t → Q t) : Touches Q d d' :=
  ⟨h.size, h.part, fun t ht => h.keep t fun hp => ht (hPQ t hp)⟩

lemma Touches.trans (h : Touches P d d') (h' : Touches P d' d'') : Touches P d d'' :=
  ⟨h'.size.trans h.size, h'.part.trans h.part, fun t ht => (h'.keep t ht).trans (h.keep t ht)⟩

lemma touches_store : Touches (fun t => s ≤ t ∧ t < s + n) d (d.store s buf n) := by
  refine ⟨rfl, rfl, ?_⟩
  intro t ht
  funext j
  exact if_neg fun h => ht ⟨h.1, h.2.1⟩

lemma store_inside {t : Nat} (h1 : s ≤ t) (h2 : t < s + n) (hj : j < SECTOR) :
    (d.store s buf n).data t j = buf ((t - s) * SECTOR + j) := if_pos ⟨h1, h2, hj⟩

lemma store_same (hj : j < SECTOR) : (d.store s buf 1).data s j = buf j := by
  rw [store_inside (le_refl _) (by omega) hj, Nat.sub_self, zero_mul, zero_add]

/-- The first sector of a transfer. -/
lemma sector_apply (hj : j < SECTOR) : d.data (s + j / SECTOR) (j % SECTOR) = d.data s j := by
  rw [div_eq_of_lt hj, mod_eq_of_lt hj, add_zero]

lemma blockdev_read_ok (h : s + n ≤ d.num_sectors) :
    blockdev_read d s n = some fun j => d.data (s + j / SECTOR) (j % SECTOR) :=
  if_neg (not_lt.mpr h)

lemma blockdev_write_ok (h : s + n ≤ d.num_sectors) :
    blockdev_write d s buf n = some (d.store s buf n) := if_neg (not_lt.mpr h)

end uaos
