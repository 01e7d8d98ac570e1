-- Allocations and reservations: the place that they choose in a free block, and what the list
-- of blocks is after them.
import Uaos.X64Ops

namespace uaos.x64

open Heap Nat

/-! ## Alignment -/

section alignment

variable {v x k : Nat}

/-- Clearing the low bits rounds down. -/
lemma and_high_bits (hx : x < 2 ^ 64) (hk : k ≤ 64) :
    x &&& (2 ^ 64 - 2 ^ k) = x / 2 ^ k * 2 ^ k := by
  have hmask : 2 ^ 64 - 2 ^ k = (2 ^ (64 - k) - 1) <<< k := by
    rw [Nat.shiftLeft_eq, Nat.sub_mul, ← Nat.pow_add, Nat.sub_add_cancel hk, one_mul]
  have hdown : x / 2 ^ k * 2 ^ k = (x >>> k) <<< k := by
    rw [Nat.shiftLeft_eq, Nat.shiftRight_eq_div_pow]
  rw [hmask, hdown]
  refine eq_of_testBit_eq fun i => ?_
  rw [testBit_and, testBit_shiftLeft, testBit_shiftLeft, testBit_two_pow_sub_one,
    Nat.testBit_shiftRight]
  by_cases hi : k ≤ i
  · rw [Nat.add_sub_cancel' hi]
    by_cases hlt : i < 64
    · simp [hi, show i - k < 64 - k by omega]
    · have hbit : x.testBit i = false :=
        testBit_lt_two_pow (lt_of_lt_of_le hx (Nat.pow_le_pow_right (by decide) (by omega)))
      simp [hbit]
  · simp [hi]

lemma mask_eq (hk : k < 64) : 2 ^ 64 - 1 - sub64 (2 ^ k) 1 = 2 ^ 64 - 2 ^ k := by
  have hpos : 0 < 2 ^ k := Nat.two_pow_pos k
  have hlt : 2 ^ k < 2 ^ 64 := Nat.pow_lt_pow_right (by decide) hk
  rw [sub64_of_le hpos hlt]
  omega

lemma align_down_eq (hk : k < 64) (hv : v < 2 ^ 64) :
    align_down v (2 ^ k) = v / 2 ^ k * 2 ^ k := by
  rw [align_down, mask_eq hk, and_high_bits hv hk.le]

lemma align_up_eq (hk : k < 64) (hv : v + 2 ^ k ≤ 2 ^ 64) :
    align_up v (2 ^ k) = (v + (2 ^ k - 1)) / 2 ^ k * 2 ^ k := by
  have hpos : 0 < 2 ^ k := Nat.two_pow_pos k
  have hlt : 2 ^ k < 2 ^ 64 := Nat.pow_lt_pow_right (by decide) hk
  rw [align_up, if_neg (ne_of_gt hpos), mask_eq hk, sub64_of_le hpos hlt,
    u64_of_lt (by omega), and_high_bits (by omega) hk.le]

lemma align_up_spec (hk : k < 64) (hv : v + 2 ^ k ≤ 2 ^ 64) :
    v ≤ align_up v (2 ^ k) ∧ align_up v (2 ^ k) < v + 2 ^ k ∧ 2 ^ k ∣ align_up v (2 ^ k) := by
  have hpos : 0 < 2 ^ k := Nat.two_pow_pos k
  rw [align_up_eq hk hv]
  have hdiv := Nat.div_add_mod (v + (2 ^ k - 1)) (2 ^ k)
  rw [mul_comm] at hdiv
  exact ⟨by omega, by omega, dvd_mul_left _ _⟩

end alignment

namespace Heap

section places

variable {b k addr : Nat}

/-- Small alignments are raised to 16. -/
lemma round_align_eq (hk : k < 64) :
    ∃ j, round_align (2 ^ k) = 2 ^ j ∧ 4 ≤ j ∧ j < 64 ∧ k ≤ j := by
  unfold round_align
  split
  · rename_i hlt
    have hk4 : k < 4 := (Nat.pow_lt_pow_iff_right (a := 2) (by decide)).mp hlt
    exact ⟨4, rfl, le_refl _, by decide, hk4.le⟩
  · rename_i hge
    have hk4 : 4 ≤ k := (Nat.pow_le_pow_iff_right (a := 2) (by decide)).mp (Nat.le_of_not_lt hge)
    exact ⟨k, rfl, hk4, hk, le_refl _⟩

lemma start_in_spec (hk4 : 4 ≤ k) (hk : k < 64) (hb16 : 16 ∣ b) (hb : b < 2 ^ 32) :
    b ≤ start_in b (2 ^ k) ∧ 16 ∣ start_in b (2 ^ k) ∧ 2 ^ k ∣ start_in b (2 ^ k) + 48 := by
  have hle : 2 ^ k ≤ 2 ^ 63 := Nat.pow_le_pow_right (by decide) (by omega)
  have h16 : 16 ∣ 2 ^ k := Nat.pow_dvd_pow 2 hk4
  obtain ⟨hlow, hhigh, hdvd⟩ := align_up_spec (v := b + 48) hk (by omega)
  have hdvd16 := h16.trans hdvd
  unfold start_in X64_BLK_HDR
  rw [u64_of_lt (by omega), sub64_of_le (by omega) (by omega)]
  refine ⟨by omega, by omega, ?_⟩
  rwa [Nat.sub_add_cancel (by omega)]

lemma round_size_spec (size : Nat) (hs : size ≤ 2 ^ 32) :
    size ≤ round_size size ∧ 16 ≤ round_size size ∧ round_size size < size + 32 ∧
      16 ∣ round_size size := by
  unfold round_size
  have hspec (v : Nat) (hv : v ≤ 2 ^ 33) :
      v ≤ align_up v 16 ∧ align_up v 16 < v + 16 ∧ 16 ∣ align_up v 16 :=
    align_up_spec (k := 4) (by decide) (by omega)
  split
  · obtain ⟨hlow, hhigh, hdvd⟩ := hspec 16 (by decide)
    exact ⟨by omega, hlow, by omega, hdvd⟩
  · obtain ⟨hlow, hhigh, hdvd⟩ := hspec size (by omega)
    exact ⟨hlow, by omega, by omega, hdvd⟩

lemma reserve_start_spec (hb16 : 16 ∣ b) (hle : b + 48 ≤ addr) (hlt : addr < 2 ^ 32) :
    (reserve_start b addr = b ∨ b + 48 ≤ reserve_start b addr) ∧
      reserve_start b addr + 48 ≤ addr ∧ 16 ∣ reserve_start b addr := by
  have hdown : align_down (sub64 addr X64_BLK_HDR) 16 = (addr - 48) / 16 * 16 := by
    unfold X64_BLK_HDR
    rw [sub64_of_le (by omega) (by omega)]
    exact align_down_eq (k := 4) (by decide) (by omega)
  unfold reserve_start X64_BLK_HDR at *
  simp only [hdown]
  split <;> omega

end places

end Heap

/-! ## What a new block changes -/

/-- There is one more used block, at `x`. The others are still used, in their places, and none
of them is smaller than before. -/
structure Adds (a : Nat) (bs : List Blk) (a' : Nat) (bs' : List Blk) (x : Nat) : Prop where
  kept : ∀ y b, Uses a bs y b → ∃ c, Uses a' bs' y c ∧ b.size ≤ c.size ∧ c.owner = b.owner
  old : ∀ y c, Uses a' bs' y c → y = x ∨ ∃ b, Uses a bs y b
  new : ∀ b, ¬ Uses a bs x b

section adds

variable {A : Arena} {h : Heap} {a a' nbs e : Nat} {b n : Blk} {bs xs xs' ys zs : List Blk}

lemma Grown.adds (hg : Grown a xs a' xs') (ht : Tiles A h a (xs ++ b :: ys))
    (hfree : b.used = false) (hplace : a' + span xs' = nbs)
    (hlow : a + span xs ≤ nbs) (hhigh : nbs < a + span xs + b.size)
    (hys : ∀ x c, Uses (nbs + n.size) zs x c ↔ Uses (a + span xs + b.size) ys x c) :
    Adds a (xs ++ b :: ys) a' (xs' ++ n :: zs) nbs := by
  constructor
  · intro y c hc
    rw [uses_append, uses_free hfree] at hc
    rcases hc with hc | hc
    · obtain ⟨d, hd, hsize, howner⟩ := hg.kept y c hc
      exact ⟨d, uses_append.mpr (.inl hd), hsize, howner⟩
    · refine ⟨c, uses_append.mpr (.inr (uses_cons.mpr (.inr ?_))), le_refl _, rfl⟩
      rw [hplace]
      exact (hys y c).mpr hc
  · intro y c hc
    rw [uses_append, uses_cons, hplace] at hc
    rcases hc with hc | ⟨rfl, -, -⟩ | hc
    · obtain ⟨d, hd⟩ := hg.old y c hc
      exact .inr ⟨d, uses_append.mpr (.inl hd)⟩
    · exact .inl rfl
    · exact .inr ⟨c, uses_append.mpr (.inr ((uses_free hfree).mpr ((hys y c).mp hc)))⟩
  · rintro c ⟨hc, hused⟩
    have hsize : 48 ≤ c.size := by
      obtain ⟨us, vs, he, -⟩ := placed_split hc
      exact (ht.sized c (he ▸ List.mem_append_cons_self)).1
    have hb : (a + span xs, b) ∈ placed a (xs ++ b :: ys) := mem_placed
    rcases placed_apart hc hb with ⟨-, rfl⟩ | hlt | hlt
    · rw [hfree] at hused
      exact Bool.false_ne_true hused
    · omega
    · omega

end adds

/-- A call that asked for `size` bytes from `addr` on gave the payload `p`. -/
structure Gave (A : Arena) (a : Nat) (bs : List Blk) (h' : Heap) (p addr size owner : Nat)
    (a' : Nat) (bs' : List Blk) (b : Blk) : Prop where
  good : Good A h' a' bs'
  adds : Adds a bs a' bs' (p - 48)
  block : Uses a' bs' (p - 48) b
  owner : b.owner = owner
  header : 48 ≤ p
  low : p ≤ addr
  high : addr + size ≤ p - 48 + b.size

section gives

variable {A : Arena} {h h' : Heap} {a a' nbs owner : Nat} {b c : Blk} {xs xs' ys : List Blk}

lemma Slot.gives (need addr size : Nat) (hslot : Slot A h' a' xs' c ys)
    (hgrown : Grown a xs a' xs')
    (ht : Tiles A h a (xs ++ b :: ys)) (hfree : b.used = false) (hplace : a' + span xs' = nbs)
    (hlow : a + span xs ≤ nbs) (hend : nbs + c.size = a + span xs + b.size) (hneed : 48 ≤ need)
    (hfit : need ≤ c.size) (hcut : 16 ∣ need ∨ c.size < need + 64) (howner : owner < 2 ^ 64)
    (haddr : nbs + 48 ≤ addr) (hsize : addr + size ≤ nbs + need)
    (hin : nbs + 48 < a + span xs + b.size) :
    ∃ bs' n, Gave A a (xs ++ b :: ys) ((h'.x64_split_tail nbs need).take nbs owner) (nbs + 48)
      addr size owner a' bs' n := by
  obtain ⟨-, -, -, -, hends⟩ := ht.place
  obtain ⟨s, zs, hs, hsc, hgood, hys⟩ := hslot.occupy hneed hfit hcut howner (by omega)
  rw [hplace] at hgood hys
  refine ⟨_, ⟨s, true, owner⟩, hgood, ?_, ?_, rfl, by omega, haddr, ?_⟩
  · rw [Nat.add_sub_cancel]
    refine hgrown.adds ht hfree hplace hlow (by omega) fun x d => ?_
    rw [hys, hend]
  · rw [Nat.add_sub_cancel, ← hplace]
    exact ⟨mem_placed, rfl⟩
  · simp only
    omega

end gives

/-! ## Allocation -/

namespace Heap

/-- The block that the search chooses has room for the request, and the gap in front of the place
in it is not 16 bytes long. -/
def alloc_ok (heap0 : Nat) (h : Heap) (size align : Nat) : Bool :=
  match (h.ready heap0).first_fit size align with
  | some (some b) =>
    let nbs := start_in b (round_align align)
    nbs + X64_BLK_HDR + size ≤ (h.ready heap0).x64_blk_end b ∧ nbs ≠ b + 16
  | _ => true

end Heap

section allocs

variable {A : Arena} {h : Heap} {a addr size owner k : Nat} {b : Blk} {bs xs ys : List Blk}

lemma Tiles.used_iff (ht : Tiles A h a (xs ++ b :: ys)) : h.used (a + span xs) = b.used := by
  rw [used, ht.header.flags, Blk.flags]
  cases b.used <;> rfl

lemma Tiles.blk_end (ht : Tiles A h a (xs ++ b :: ys)) :
    h.x64_blk_end (a + span xs) = a + span xs + b.size := by
  have := ht.place
  have := A.stop_lt
  exact Heap.Header.blk_end ht.header (by omega)

lemma Good.alloc (hg : Good A h a bs) (hk : k < 64) (howner : owner < 2 ^ 64)
    (hready : h.ready A.heap0 = h) (hok : h.alloc_ok A.heap0 size (2 ^ k) = true) :
    (h.x64_heap_alloc A.heap0 size (2 ^ k) owner false = some (h, 0)) ∨
    ∃ h' p, h.x64_heap_alloc A.heap0 size (2 ^ k) owner false = some (h', p) ∧ 2 ^ k ∣ p ∧
      ∃ a' bs' b, Gave A a bs h' p p size owner a' bs' b := by
  obtain ⟨j, hj, hj4, hj64, hkj⟩ := round_align_eq hk
  have hlt := A.stop_lt
  unfold x64_heap_alloc first_fit
  unfold alloc_ok first_fit at hok
  simp only [Bool.false_eq_true, if_false, hready, hj]
  simp only [hready, hj] at hok
  rcases search_tiles (t := fits (u64 (round_size size + X64_BLK_HDR)) (2 ^ j))
    hg.tiles with ⟨xs, b, ys, rfl, hw, hfit⟩ | ⟨hw, -⟩
  · right
    simp only [hw, hg.tiles.blk_end, decide_eq_true_eq] at hok ⊢
    obtain ⟨hroom, hgap⟩ := hok
    obtain ⟨ha, hheap, hmin, hsize, hends⟩ := hg.tiles.place
    obtain ⟨hlow, h16, hdvd⟩ := start_in_spec (b := a + span xs) hj4 hj64 ha (by omega)
    unfold fits at hfit
    rw [hg.tiles.used_iff, hg.tiles.blk_end] at hfit
    generalize start_in (a + span xs) (2 ^ j) = nbs at *
    unfold X64_BLK_HDR at *
    obtain ⟨hrsize, hr16, hrlt, hrdvd⟩ := round_size_spec size (by omega)
    rw [u64_of_lt (show round_size size + 48 < 2 ^ 64 by omega)] at hfit ⊢
    rw [u64_of_lt (show nbs + (round_size size + 48) < 2 ^ 64 by omega)] at hfit
    simp only [Bool.and_eq_true, Bool.not_eq_true', decide_eq_false_iff_not, not_or, not_lt]
      at hfit
    obtain ⟨hfree, -, hfits⟩ := hfit
    obtain ⟨a', xs', hslot, hplace, hgrown⟩ := hg.carve hfree h16 hlow hgap (by omega)
    obtain ⟨bs', n, hgave⟩ := hslot.gives (round_size size + 48) (nbs + 48) size hgrown
      hg.tiles hfree hplace hlow (by simp only; omega) (by omega) (by simp only; omega)
      (.inl (by omega)) howner (le_refl _) (by omega) (by omega)
    rw [u64_of_lt (show nbs + 48 < 2 ^ 64 by omega)]
    exact ⟨_, _, rfl, (Nat.pow_dvd_pow 2 hkj).trans hdvd, a', bs', n, hgave⟩
  · left
    simp only [hw]

/-! ## Reservation -/

/-- A range in a free block ends at a multiple of 16, or close enough to the end of the block that
no tail is cut off. -/
def Heap.reserve_ok (heap0 : Nat) (h : Heap) (addr size : Nat) : Bool :=
  match (h.ready heap0).search (spans addr) with
  | some (some b) =>
    let stop := (h.ready heap0).x64_blk_end b
    (h.ready heap0).used b ∨ stop < u64 (addr + size) ∨ addr < b + X64_BLK_HDR ∨
      addr + size ≤ stop ∧ ((addr + size) % 16 = 0 ∨ stop < addr + size + X64_MIN_SPLIT)
  | _ => true

lemma Good.reserve (hg : Good A h a bs) (howner : owner < 2 ^ 64)
    (hready : h.ready A.heap0 = h) (hok : h.reserve_ok A.heap0 addr size = true) :
    h.x64_heap_reserve A.heap0 addr size owner = some (h, 0) ∨
    ∃ h' p, h.x64_heap_reserve A.heap0 addr size owner = some (h', p) ∧
      ∃ a' bs' b, Gave A a bs h' p addr size owner a' bs' b := by
  have hlt := A.stop_lt
  unfold x64_heap_reserve
  unfold Heap.reserve_ok at hok
  simp only [hready] at hok ⊢
  rcases search_tiles (t := spans addr) hg.tiles with ⟨xs, b, ys, rfl, hw, hin⟩ | ⟨hw, -⟩
  · obtain ⟨ha, hheap, hmin, hsize, hends⟩ := hg.tiles.place
    simp only [spans, hg.tiles.blk_end, decide_eq_true_eq] at hin
    simp only [hw, hg.tiles.blk_end, hg.tiles.used_iff, decide_eq_true_eq] at hok ⊢
    by_cases hrefuse : b.used = true ∨ a + span xs + b.size < u64 (addr + size)
    · left
      rw [if_pos hrefuse]
    rw [if_neg hrefuse, sub64_of_le hin.1 (by omega)]
    by_cases hnear : addr - (a + span xs) < X64_BLK_HDR
    · left
      rw [if_pos hnear]
    rw [if_neg hnear]
    right
    rw [not_or, Bool.not_eq_true] at hrefuse
    obtain ⟨hfree, hfit⟩ := hrefuse
    unfold X64_MIN_SPLIT X64_BLK_HDR at *
    obtain ⟨hroom, hcut⟩ : addr + size ≤ a + span xs + b.size ∧
        ((addr + size) % 16 = 0 ∨ a + span xs + b.size < addr + size + (48 + 16)) := by
      rw [hfree] at hok
      rcases hok with hok | hok | hok | hok
      · exact absurd hok Bool.false_ne_true
      · exact absurd hok hfit
      · omega
      · exact hok
    obtain ⟨hstart, hhead, h16⟩ := reserve_start_spec ha (show a + span xs + 48 ≤ addr by omega)
      (by omega)
    rw [u64_of_lt (show addr + size < 2 ^ 64 by omega)]
    generalize reserve_start (a + span xs) addr = nbs at *
    have hp : u64 (nbs + 48) = nbs + 48 := u64_of_lt (by omega)
    have hneed : sub64 (addr + size) nbs = addr + size - nbs := sub64_of_le (by omega) (by omega)
    rcases hstart with rfl | hstart
    · obtain ⟨bs', n, hgave⟩ := (hg.slot hfree).gives (addr + size - (a + span xs)) addr size
        (.refl a xs) hg.tiles hfree rfl (le_refl _) rfl (by omega) (by omega) (by omega) howner
        (by omega) (by omega) (by omega)
      simp only [lt_irrefl, if_false, hneed, hp]
      exact ⟨_, _, rfl, a, bs', n, hgave⟩
    · obtain ⟨xs', hslot, hplace, hgrown⟩ := hg.split_lead hfree h16 hstart (by omega)
      obtain ⟨bs', n, hgave⟩ := hslot.gives (addr + size - nbs) addr size hgrown hg.tiles hfree
        hplace (by omega) (by simp only; omega) (by omega) (by simp only; omega)
        (by simp only; omega) howner (by omega) (by omega) (by omega)
      simp only [if_pos (show a + span xs < nbs by omega), hneed, hp]
      exact ⟨_, _, rfl, a, bs', n, hgave⟩
  · left
    simp only [hw]

end allocs

end uaos.x64
