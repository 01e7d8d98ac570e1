-- The allocation bitmap of an Amiga volume: FFS_AllocBlock takes a block whose bit is
-- set, FFS_FreeBlock sets it again, and both write bitmap pages and nothing else.
import Uaos.Ffs

namespace uaos.ffs

open List

variable {keys : List Nat} {base ext guard key m val : Nat}

variable {g : Geom} {v v' : Vol} {d d' : BlockDev} {b : Buf} {i j k w p x : Nat} {ps : List Nat}

/-! ## Reading and writing blocks -/

/-- The checksum of the block is right. -/
def Sound (d : BlockDev) (k : Nat) : Prop := blk_checksum_ok (d.data k) = true

instance (d : BlockDev) (k : Nat) : Decidable (Sound d k) := inferInstanceAs (Decidable (_ = true))

lemma read_block_ok (hk : k < g.num_blocks) (hroom : g.num_blocks ≤ d.num_sectors) :
    ffs_read_block g d k = some (block d k) := by
  rw [ffs_read_block, if_neg (by omega), blockdev_read_ok (by omega)]
  rfl

lemma read_hdr_ok (hk : k < g.num_blocks) (hroom : g.num_blocks ≤ d.num_sectors) (hs : Sound d k) :
    ffs_read_hdr g d k = some (block d k) := by
  rw [ffs_read_hdr, read_block_ok hk hroom]
  exact if_pos (block_checksum.trans hs)

/-- The device after a header is written. -/
def store_hdr (d : BlockDev) (k : Nat) (b : Buf) : BlockDev := d.store k (blk_fix_checksum b) 1

lemma write_hdr_ok (hk : k + 1 ≤ v.dev.num_sectors) :
    ffs_write_hdr v k b = some { v with dev := store_hdr v.dev k b } := by
  rw [ffs_write_hdr, blockdev_write_ok hk]
  rfl

lemma store_hdr_sound : Sound (store_hdr d k b) k := by
  have : blk_checksum_ok ((store_hdr d k b).data k) = blk_checksum_ok (blk_fix_checksum b) :=
    checksum_congr fun j hj => store_same hj
  exact this.trans checksum_fix

lemma store_hdr_lw (hi : i < FFS_BLOCK_LONGS) (h5 : i ≠ 5) :
    blk_lw ((store_hdr d k b).data k) i = blk_lw b i := by
  rw [store_hdr, store_lw hi, lw_fix_checksum h5]

lemma store_hdr_byte (hj : j < SECTOR) (h5 : j / 4 ≠ 5) : (store_hdr d k b).data k j = b j := by
  rw [store_hdr, store_same hj, fix_checksum_outside h5]

lemma store_hdr_ne (h : j ≠ k) : (store_hdr d k b).data j = d.data j := store_ne h

/-! ## The pages -/

/-- The index blocks from `ext` on. -/
def index_chain (g : Geom) (d : BlockDev) : Nat → Nat → List Nat
  | 0, _ => []
  | guard + 1, ext =>
    if ext = 0 ∨ g.num_blocks ≤ ext then []
    else ext :: index_chain g d guard (blk_lw (d.data ext) 127)

def index_blocks (g : Geom) (d : BlockDev) : List Nat :=
  index_chain g d 16 (blk_lw (d.data g.root_key) FFS_LW_BM_EXT)

/-- The bitmap pages in order. -/
def pages (g : Geom) (d : BlockDev) : List Nat := ffs_bitmap_pages g d 96

lemma index_loop_congr (hroom : g.num_blocks ≤ d.num_sectors) (hn : d'.num_sectors = d.num_sectors)
    (h : ∀ k ∈ index_chain g d guard ext, d'.data k = d.data k)
    (keys : List Nat) : index_loop g d' m guard ext keys = index_loop g d m guard ext keys ∧
      index_chain g d' guard ext = index_chain g d guard ext := by
  induction guard generalizing ext keys with
  | zero => exact ⟨rfl, rfl⟩
  | succ guard ih =>
    unfold index_loop index_chain
    by_cases hext : ext = 0 ∨ g.num_blocks ≤ ext
    · rw [if_pos hext, if_pos hext]
      refine ⟨?_, rfl⟩
      have hstop : ext = 0 ∨ g.num_blocks ≤ ext ∨ m ≤ keys.length := by tauto
      rw [if_pos hstop, if_pos hstop]
    have hlt : ext < g.num_blocks := by omega
    rw [index_chain, if_neg hext] at h
    have hsame := h ext mem_cons_self
    have hblock : ∀ j, j < FFS_BLOCK_LONGS → blk_lw (block d' ext) j = blk_lw (block d ext) j := by
      intro j hj
      rw [block_lw hj, block_lw hj, hsame]
    have hkeys : (List.range 127).map (blk_lw (block d' ext)) =
        (List.range 127).map (blk_lw (block d ext)) := by
      refine map_congr_left fun j hj => hblock j ?_
      have := mem_range.mp hj
      unfold FFS_BLOCK_LONGS
      omega
    rw [if_neg hext, if_neg hext, read_block_ok hlt hroom, read_block_ok hlt (by omega), hsame]
    dsimp only
    rw [hkeys, hblock 127 (by decide), block_lw (by decide)]
    have hrest := ih (forall_mem_cons.mp h).2
    refine ⟨?_, congrArg _ (hrest []).2⟩
    split
    · rfl
    · exact (hrest _).1

/-- The pages are found from some longwords of the root block and the index blocks. -/
lemma pages_congr (hroot : g.root_key < g.num_blocks) (hroom : g.num_blocks ≤ d.num_sectors)
    (hn : d'.num_sectors = d.num_sectors)
    (hr : ∀ i, 79 ≤ i → i ≤ 104 → blk_lw (d'.data g.root_key) i = blk_lw (d.data g.root_key) i)
    (hi : ∀ k ∈ index_blocks g d, d'.data k = d.data k) :
    pages g d' = pages g d ∧ index_blocks g d' = index_blocks g d := by
  have hext : blk_lw (d'.data g.root_key) FFS_LW_BM_EXT =
    blk_lw (d.data g.root_key) FFS_LW_BM_EXT :=
    hr 104 (by omega) (by omega)
  have hkeys : (List.range 25).map (fun i => blk_lw (block d' g.root_key) (FFS_LW_BM_PAGES + i)) =
      (List.range 25).map fun i => blk_lw (block d g.root_key) (FFS_LW_BM_PAGES + i) := by
    refine map_congr_left fun i hi => ?_
    have := mem_range.mp hi
    have hlt : FFS_LW_BM_PAGES + i < FFS_BLOCK_LONGS := by
      unfold FFS_LW_BM_PAGES FFS_BLOCK_LONGS
      omega
    rw [block_lw hlt, block_lw hlt]
    exact hr _ (by unfold FFS_LW_BM_PAGES; omega) (by unfold FFS_LW_BM_PAGES; omega)
  have hloop := index_loop_congr (m := 96) hroom hn hi
  refine ⟨?_, by rw [index_blocks, hext]; exact (hloop []).2⟩
  unfold pages ffs_bitmap_pages
  rw [read_block_ok hroot hroom, read_block_ok hroot (by omega)]
  dsimp only
  rw [hkeys, block_lw (i := FFS_LW_BM_EXT) (by decide), block_lw (i := FFS_LW_BM_EXT) (by decide),
    hext]
  split
  · rfl
  · exact (hloop _).1

lemma index_loop_lt (h : ∀ k ∈ keys, k < g.num_blocks) :
    ∀ k ∈ index_loop g d m guard ext keys, k < g.num_blocks := by
  induction guard generalizing ext keys with
  | zero => exact h
  | succ guard ih =>
    unfold index_loop
    split
    · exact h
    split
    · exact h
    refine ih fun k hk => ?_
    rcases mem_append.mp (mem_of_mem_take hk) with hk | hk
    · exact h k hk
    · simpa using (mem_filter.mp hk).2

lemma pages_lt (g : Geom) (d : BlockDev) : ∀ k ∈ pages g d, k < g.num_blocks := by
  unfold pages ffs_bitmap_pages
  split
  · intro k hk
    cases hk
  split
  · intro k hk
    cases hk
  refine index_loop_lt fun k hk => ?_
  have := (mem_filter.mp (mem_of_mem_take hk)).2
  simp only [decide_eq_true_eq] at this
  exact this.2

/-! ## The bits -/

/-- The bit of the block `x` is set in the pages `ps`. -/
def marked (g : Geom) (d : BlockDev) (ps : List Nat) (x : Nat) : Bool :=
  2 ≤ x && x < g.num_blocks &&
    match ps[(x - 2) / BITS_PER_PAGE]? with
    | none => false
    | some key =>
      (blk_lw (d.data key) (1 + (x - 2) % BITS_PER_PAGE / 32)).testBit
      ((x - 2) % BITS_PER_PAGE % 32)

/-- The block is free. -/
def is_free (g : Geom) (d : BlockDev) (x : Nat) : Bool := marked g d (pages g d) x

lemma marked_range (h : marked g d ps x = true) : 2 ≤ x ∧ x < g.num_blocks := by
  unfold marked at h
  simp only [Bool.and_eq_true, decide_eq_true_eq] at h
  exact h.1

lemma marked_congr (h : ∀ k ∈ ps, d'.data k = d.data k) : marked g d' ps x = marked g d ps x := by
  unfold marked
  cases hp : ps[(x - 2) / BITS_PER_PAGE]? with
  | none => rfl
  | some key =>
    dsimp only
    rw [h key (mem_of_getElem? hp)]

/-- A page with one longword changed. -/
def set_word (d : BlockDev) (key w val : Nat) : BlockDev :=
  d.store key (blk_fix_bm_checksum (blk_put32 (block d key) (1 + w) val)) 1

lemma set_word_lw (hi : i < 127) (hv : val < 2 ^ 32) :
    blk_lw ((set_word d key w val).data key) (1 + i) =
      if i = w then val else blk_lw (d.data key) (1 + i) := by
  have hlt : 1 + i < FFS_BLOCK_LONGS := by
    unfold FFS_BLOCK_LONGS
    omega
  rw [set_word, store_lw hlt, blk_fix_bm_checksum, lw_fix_sum (by omega)]
  split
  · rename_i hiw
    rw [hiw, lw_put32_same hv]
  · rw [lw_put32_ne (by omega), block_lw hlt]

/-- Only the bits of the changed longword change. -/
lemma marked_set_word (hnd : ps.Nodup) (hp : ps[p]? = some key) (hv : val < 2 ^ 32) :
    marked g (set_word d key w val) ps x =
      if (x - 2) / BITS_PER_PAGE = p ∧ (x - 2) % BITS_PER_PAGE / 32 = w then
        (2 ≤ x && x < g.num_blocks && val.testBit ((x - 2) % BITS_PER_PAGE % 32))
      else marked g d ps x := by
  have hpage : (x - 2) % BITS_PER_PAGE / 32 < 127 := by
    unfold BITS_PER_PAGE
    omega
  unfold marked
  by_cases hx : (x - 2) / BITS_PER_PAGE = p
  · rw [hx, hp]
    dsimp only
    rw [set_word_lw hpage hv]
    by_cases hxw : (x - 2) % BITS_PER_PAGE / 32 = w
    · rw [if_pos hxw, if_pos ⟨rfl, hxw⟩]
    · rw [if_neg hxw, if_neg fun hc => hxw hc.2]
  · rw [if_neg fun hc => hx hc.1]
    cases hq : ps[(x - 2) / BITS_PER_PAGE]? with
    | none => rfl
    | some key' =>
      have hne : key' ≠ key := by
        rintro rfl
        obtain ⟨h1, he1⟩ := List.getElem?_eq_some_iff.mp hp
        obtain ⟨h2, he2⟩ := List.getElem?_eq_some_iff.mp hq
        exact hx ((List.Nodup.getElem_inj_iff hnd).mp (he2.trans he1.symm))
      dsimp only
      rw [set_word, store_ne hne]

lemma testBit_clear (hi : i < 32) (hj : j < 32) :
    (val &&& (2 ^ 32 - (2 ^ i + 1))).testBit j = (val.testBit j && decide (j ≠ i)) := by
  have hlt : 2 ^ i < 2 ^ 32 := Nat.pow_lt_pow_right (by decide) hi
  rw [Nat.testBit_and, Nat.testBit_two_pow_sub_succ hlt, Nat.testBit_two_pow]
  by_cases hji : j = i
  · simp [hji]
  · simp [hj, hji, Ne.symm hji]

lemma testBit_set : (val ||| 2 ^ i).testBit j = (val.testBit j || decide (j = i)) := by
  by_cases hji : j = i
  · simp [hji]
  · simp [hji, Ne.symm hji]

/-! ## Allocation -/

lemma find_bit_some (h : find_bit g b base = some (w, i)) :
    w < 127 ∧ i < 32 ∧ base + w * 32 + i < g.num_blocks ∧ (blk_lw b (1 + w)).testBit i = true := by
  obtain ⟨w', hw', hfound⟩ := exists_of_findSome?_eq_some h
  obtain ⟨i', hi', heq⟩ := Option.map_eq_some_iff.mp hfound
  cases heq
  have hbit := find?_some hi'
  simp only [Bool.and_eq_true, decide_eq_true_eq] at hbit
  exact ⟨mem_range.mp hw', mem_range.mp (mem_of_find?_eq_some hi'), hbit⟩

lemma find_bit_none (h : find_bit g b base = none) (hw : w < 127) (hi : i < 32)
    (hlt : base + w * 32 + i < g.num_blocks) : (blk_lw b (1 + w)).testBit i = false := by
  have hword := findSome?_eq_none_iff.mp h w (mem_range.mpr hw)
  have hbit := find?_eq_none.mp (Option.map_eq_none_iff.mp hword) i (mem_range.mpr hi)
  rw [Bool.and_eq_true, decide_eq_true_eq, not_and, Bool.not_eq_true] at hbit
  exact hbit hlt

/-- What an allocation that finds the block `x` does. -/
structure Took (g : Geom) (ps : List Nat) (v v' : Vol) (x : Nat) : Prop where
  was : marked g v.dev ps x = true
  bits : ∀ y, marked g v'.dev ps y = (marked g v.dev ps y && decide (y ≠ x))
  touches : Touches (· ∈ ps) v.dev v'.dev

/-- The place of a block in the bitmap. -/
lemma place_of (hw : w < 127) (hi : i < 32) :
    (FFS_BM_RESERVED + p * BITS_PER_PAGE + w * 32 + i - 2) / BITS_PER_PAGE = p ∧
      (FFS_BM_RESERVED + p * BITS_PER_PAGE + w * 32 + i - 2) % BITS_PER_PAGE = w * 32 + i := by
  unfold FFS_BM_RESERVED BITS_PER_PAGE
  omega

lemma alloc_loop_spec (hnd : ps.Nodup) (hlt : ∀ k ∈ ps, k < g.num_blocks)
    (hroom : g.num_blocks ≤ v.dev.num_sectors) (hkeys : ps.drop p = keys)
    (hbefore : ∀ y, (y - 2) / BITS_PER_PAGE < p → marked g v.dev ps y = false) :
    (alloc_loop g v keys (p * BITS_PER_PAGE) = (v, 0) ∧ ∀ y, marked g v.dev ps y = false) ∨
      ∃ v' x, alloc_loop g v keys (p * BITS_PER_PAGE) = (v', x) ∧ Took g ps v v' x := by
  induction keys generalizing p with
  | nil =>
    refine .inl ⟨rfl, fun y => ?_⟩
    by_cases hy : (y - 2) / BITS_PER_PAGE < p
    · exact hbefore y hy
    have hnone : ps[(y - 2) / BITS_PER_PAGE]? = none := by
      rw [List.getElem?_eq_none_iff]
      have := drop_eq_nil_iff.mp hkeys
      omega
    rw [marked, hnone, Bool.and_false]
  | cons key keys ih =>
    have hp : ps[p]? = some key := by
      rw [← Nat.add_zero p, ← getElem?_drop, hkeys]
      rfl
    have hkey : key < g.num_blocks := hlt key (mem_of_getElem? hp)
    unfold alloc_loop
    rw [read_block_ok hkey hroom]
    dsimp only
    cases hfind : find_bit g (block v.dev key) (FFS_BM_RESERVED + p * BITS_PER_PAGE) with
    | none =>
      have hdrop : ps.drop (p + 1) = keys := by
        rw [← drop_drop, hkeys]
        rfl
      rw [← Nat.succ_mul]
      refine ih hdrop fun y hy => ?_
      by_cases hyp : (y - 2) / BITS_PER_PAGE = p
      · -- the blocks of this page
        rw [Bool.eq_false_iff]
        intro hm
        obtain ⟨h2, hn⟩ := marked_range hm
        rw [marked, hyp, hp] at hm
        simp only [Bool.and_eq_true] at hm
        have hw127 : (y - 2) % BITS_PER_PAGE / 32 < 127 := by
          unfold BITS_PER_PAGE
          omega
        have hfalse := find_bit_none (i := (y - 2) % BITS_PER_PAGE % 32) hfind hw127
          (Nat.mod_lt _ (by decide)) (by
            unfold FFS_BM_RESERVED BITS_PER_PAGE at *
            omega)
        rw [block_lw (by unfold FFS_BLOCK_LONGS; omega), hm.2] at hfalse
        cases hfalse
      · exact hbefore y (by omega)
    | some wi =>
      obtain ⟨w, i⟩ := wi
      obtain ⟨hw, hi, hn, hbit⟩ := find_bit_some hfind
      dsimp only
      rw [blockdev_write_ok (by omega)]
      obtain ⟨hpx, hox⟩ := place_of (p := p) hw hi
      have hlw : 1 + w < FFS_BLOCK_LONGS := by
        unfold FFS_BLOCK_LONGS
        omega
      have hval : blk_lw (block v.dev key) (1 + w) &&& (2 ^ 32 - (2 ^ i + 1)) < 2 ^ 32 :=
        lt_of_le_of_lt Nat.and_le_left (blk_lw_lt _ _)
      have hwdiv : (w * 32 + i) / 32 = w := by omega
      have himod : (w * 32 + i) % 32 = i := by omega
      refine .inr ⟨_, _, rfl, ?_, fun y => ?_, ?_⟩
      · rw [marked, hpx, hp, hox, hwdiv, himod]
        rw [block_lw hlw] at hbit
        simp only [hbit, Bool.and_true, Bool.and_eq_true, decide_eq_true_eq]
        exact ⟨by unfold FFS_BM_RESERVED; omega, hn⟩
      · refine (marked_set_word hnd hp hval).trans ?_
        split
        · rename_i hy
          obtain ⟨hyp, hyw⟩ := hy
          rw [testBit_clear hi (Nat.mod_lt _ (by decide)), block_lw hlw, marked, hyp, hp, hyw]
          rw [Bool.and_assoc (decide (2 ≤ y) && decide (y < g.num_blocks))]
          by_cases h2 : 2 ≤ y
          · refine congrArg _ (congrArg _ (decide_eq_decide.mpr (not_congr ?_)))
            unfold FFS_BM_RESERVED BITS_PER_PAGE at *
            omega
          · simp [h2]
        · rename_i hy
          have hne : y ≠ FFS_BM_RESERVED + p * BITS_PER_PAGE + w * 32 + i := by
            rintro rfl
            exact hy ⟨hpx, by rw [hox, hwdiv]⟩
          simp [hne]
      · refine touches_store.mono fun t ht => ?_
        have : t = key := by omega
        exact this ▸ mem_of_getElem? hp

/-! ## The bitmap as a whole -/

/-- The root block, the index blocks and the pages. -/
def sys_blocks (g : Geom) (d : BlockDev) : List Nat := g.root_key :: index_blocks g d ++ pages g d

/-- The blocks that the bitmap stands in are distinct and marked as used. -/
structure BitmapOk (g : Geom) (d : BlockDev) : Prop where
  room : g.num_blocks ≤ d.num_sectors
  root : 2 ≤ g.root_key ∧ g.root_key < g.num_blocks
  nodup : (sys_blocks g d).Nodup
  used : ∀ k ∈ sys_blocks g d, is_free g d k = false

lemma BitmapOk.pages_nodup (h : BitmapOk g d) : (pages g d).Nodup := (nodup_append.mp h.nodup).2.1

lemma BitmapOk.root_page (h : BitmapOk g d) : g.root_key ∉ pages g d := fun hc =>
  (nodup_append.mp h.nodup).2.2 _ mem_cons_self _ hc rfl

lemma BitmapOk.index_page (h : BitmapOk g d) (hk : k ∈ index_blocks g d) :
    k ∉ pages g d := fun hc =>
  (nodup_append.mp h.nodup).2.2 _ (mem_cons_of_mem _ hk) _ hc rfl

lemma page_mem_sys (hk : k ∈ pages g d) : k ∈ sys_blocks g d := mem_append_right _ hk

lemma index_mem_sys (hk : k ∈ index_blocks g d) : k ∈ sys_blocks g d :=
  mem_append_left _ (mem_cons_of_mem _ hk)

lemma root_mem_sys : g.root_key ∈ sys_blocks g d := mem_append_left _ mem_cons_self

/-- Writes to the pages leave the pages where they are. -/
lemma BitmapOk.same_pages (h : BitmapOk g d) (ht : Touches (· ∈ pages g d) d d') :
    pages g d' = pages g d ∧ index_blocks g d' = index_blocks g d := by
  refine pages_congr h.root.2 h.room ht.size (fun i _ _ => ?_) fun k hk => ?_
  · rw [ht.keep _ h.root_page]
  · exact ht.keep _ (h.index_page hk)

lemma sys_congr (h : pages g d' = pages g d ∧ index_blocks g d' = index_blocks g d) :
    sys_blocks g d' = sys_blocks g d := by rw [sys_blocks, sys_blocks, h.1, h.2]

/-- A block is taken from the free ones, or given back to them. -/
structure Changed (g : Geom) (d d' : BlockDev) : Prop where
  ok : BitmapOk g d'
  sys : sys_blocks g d' = sys_blocks g d
  index : index_blocks g d' = index_blocks g d
  pages_eq : pages g d' = pages g d
  touches : Touches (· ∈ pages g d) d d'

lemma BitmapOk.changed (h : BitmapOk g d) (ht : Touches (· ∈ pages g d) d d')
    (hbits : ∀ k ∈ sys_blocks g d, marked g d' (pages g d) k = true →
      marked g d (pages g d) k = true) :
    Changed g d d' := by
  have hsame := h.same_pages ht
  have hsys := sys_congr hsame
  refine ⟨⟨by rw [ht.size]; exact h.room, h.root, by rw [hsys]; exact h.nodup, fun k hk => ?_⟩,
    hsys, hsame.2, hsame.1, ht⟩
  rw [hsys] at hk
  rw [Bool.eq_false_iff, is_free, hsame.1]
  intro hc
  have := h.used k hk
  rw [is_free, hbits k hk hc] at this
  cases this

lemma Changed.refl (h : BitmapOk g d) : Changed g d d := ⟨h, rfl, rfl, rfl, Touches.refl _ _⟩

lemma Changed.trans {d'' : BlockDev} (h : Changed g d d') (h' : Changed g d' d'') :
    Changed g d d'' :=
  ⟨h'.ok, h'.sys.trans h.sys, h'.index.trans h.index, h'.pages_eq.trans h.pages_eq,
    h.touches.trans (h.pages_eq ▸ h'.touches)⟩

/-- The bitmap is the same. -/
structure SameBitmap (g : Geom) (d d' : BlockDev) : Prop where
  ok : BitmapOk g d'
  sys : sys_blocks g d' = sys_blocks g d
  pages_eq : pages g d' = pages g d
  free : ∀ y, is_free g d' y = is_free g d y

/-- The bitmap is read from the pages, the index blocks and some longwords of the root. -/
lemma BitmapOk.keep (h : BitmapOk g d) (hn : d'.num_sectors = d.num_sectors)
    (hr : ∀ i, 79 ≤ i → i ≤ 104 → blk_lw (d'.data g.root_key) i = blk_lw (d.data g.root_key) i)
    (hk : ∀ k, k ∈ index_blocks g d ∨ k ∈ pages g d → d'.data k = d.data k) :
      SameBitmap g d d' := by
  have hsame := pages_congr h.root.2 h.room hn hr fun k hi => hk k (.inl hi)
  have hsys := sys_congr hsame
  have hfree : ∀ y, is_free g d' y = is_free g d y := by
    intro y
    rw [is_free, hsame.1]
    exact marked_congr fun k hp => hk k (.inr hp)
  refine ⟨⟨by rw [hn]; exact h.room, h.root, by rw [hsys]; exact h.nodup, ?_⟩, hsys, hsame.1, hfree⟩
  intro k hk'
  rw [hfree]
  exact h.used k (hsys ▸ hk')

/-- FFS_AllocBlock takes a free block, or none is free. -/
lemma alloc_block_spec (h : BitmapOk g v.dev) :
    (ffs_alloc_block g v = (v, 0) ∧ ∀ y, is_free g v.dev y = false) ∨
      ∃ v' x, ffs_alloc_block g v = (v', x) ∧ is_free g v.dev x = true ∧ Changed g v.dev v'.dev ∧
        ∀ y, is_free g v'.dev y = (is_free g v.dev y && decide (y ≠ x)) := by
  unfold ffs_alloc_block
  by_cases hv : g.bitmap_valid = true
  · rw [hv, Bool.not_true, if_neg Bool.false_ne_true]
    have hspec := alloc_loop_spec (p := 0) h.pages_nodup (pages_lt g v.dev) h.room
      (drop_zero ..) (fun y hy => absurd hy (Nat.not_lt_zero _))
    rcases hspec with ⟨hcall, hnone⟩ | ⟨v', x, hcall, htook⟩
    · exact .inl ⟨hcall, hnone⟩
    have hch : Changed g v.dev v'.dev := by
      refine h.changed htook.touches fun k _ hm => ?_
      rw [htook.bits, Bool.and_eq_true] at hm
      exact hm.1
    refine .inr ⟨v', x, hcall, htook.was, hch, fun y => ?_⟩
    rw [is_free, hch.pages_eq, htook.bits]
    rfl
  · rw [Bool.not_eq_true] at hv
    rw [hv, Bool.not_false, if_pos rfl]
    refine .inl ⟨rfl, fun y => ?_⟩
    have hnil : pages g v.dev = [] := by
      rw [pages, ffs_bitmap_pages, hv]
      rfl
    rw [is_free, hnil, marked, getElem?_nil, Bool.and_false]

/-- FFS_FreeBlock makes no block free but the one that it is called with. -/
lemma free_block_spec (h : BitmapOk g v.dev) (hx : x ∉ sys_blocks g v.dev) :
    Changed g v.dev (ffs_free_block g v x).dev ∧
      ∀ y, is_free g (ffs_free_block g v x).dev y = true → is_free g v.dev y = true ∨ y = x := by
  have hsame : Changed g v.dev v.dev ∧
      ∀ y, is_free g v.dev y = true → is_free g v.dev y = true ∨ y = x :=
    ⟨Changed.refl h, fun _ hy => .inl hy⟩
  unfold ffs_free_block
  split
  · exact hsame
  unfold ffs_bitmap_set
  split
  · exact hsame
  rename_i hrange
  dsimp only
  split
  · exact hsame
  rename_i key hp
  change (pages g v.dev)[_]? = some key at hp
  have hkey : key < g.num_blocks := pages_lt g v.dev key (mem_of_getElem? hp)
  have hroom := h.room
  rw [read_block_ok hkey hroom]
  dsimp only
  rw [if_pos rfl, blockdev_write_ok (by omega)]
  have hlw : 1 + (x - FFS_BM_RESERVED) % BITS_PER_PAGE / 32 < FFS_BLOCK_LONGS := by
    unfold FFS_BLOCK_LONGS BITS_PER_PAGE
    omega
  generalize hval : (blk_lw (block v.dev key) (1 + (x - FFS_BM_RESERVED) % BITS_PER_PAGE / 32) |||
    2 ^ ((x - FFS_BM_RESERVED) % BITS_PER_PAGE % 32)) = val
  have hlt : val < 2 ^ 32 := by
    rw [← hval]
    exact Nat.or_lt_two_pow (blk_lw_lt _ _)
      (Nat.pow_lt_pow_right (by decide) (Nat.mod_lt _ (by decide)))
  have hbits : ∀ y, marked g (set_word v.dev key ((x - FFS_BM_RESERVED) % BITS_PER_PAGE / 32) val)
      (pages g v.dev) y = true → marked g v.dev (pages g v.dev) y = true ∨ y = x := by
    intro y hy
    have hrange' := marked_range hy
    rw [marked_set_word h.pages_nodup hp hlt] at hy
    split at hy
    · rename_i hplace
      rw [← hval, testBit_set, block_lw hlw, Bool.and_eq_true, Bool.or_eq_true,
        decide_eq_true_eq] at hy
      rcases hy.2 with hbit | hbit
      · left
        rw [marked, hplace.1, hp, hplace.2]
        dsimp only [FFS_BM_RESERVED] at hbit ⊢
        rw [hbit, Bool.and_true]
        exact hy.1
      · right
        unfold FFS_BM_RESERVED BITS_PER_PAGE at *
        omega
    · exact .inl hy
  have htouch : Touches (· ∈ pages g v.dev) v.dev
      (set_word v.dev key ((x - FFS_BM_RESERVED) % BITS_PER_PAGE / 32) val) := by
    refine touches_store.mono fun t ht => ?_
    have : t = key := by omega
    exact this ▸ mem_of_getElem? hp
  have hch := h.changed htouch fun k hk hm => (hbits k hm).resolve_right fun hc => hx (hc ▸ hk)
  refine ⟨hch, fun y hy => ?_⟩
  have := hch.pages_eq
  exact hbits y (by rw [← this]; exact hy)

end uaos.ffs
