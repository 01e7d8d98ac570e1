-- The pointer tables of a file: the header and the extension blocks hold the data
-- blocks in order, 72 to a table, and all but the last table are full. Appending a data
-- block keeps them so.
import Uaos.FfsFiles

namespace uaos.ffs

open List

variable {cs l : List Nat}

variable {g : Geom} {v v' : Vol} {d d' : BlockDev} {b : Buf} {i j k n x key dkey seq guard : Nat}
  {hs ds bs : List Nat}

/-! ## Blocks in use -/

/-- The blocks are distinct, in use, and no blocks of the bitmap. -/
structure Placed (g : Geom) (d : BlockDev) (bs : List Nat) : Prop where
  bitmap : BitmapOk g d
  small : g.num_blocks ≤ 2 ^ 32
  nodup : bs.Nodup
  range : ∀ k ∈ bs, 2 ≤ k ∧ k < g.num_blocks
  off : ∀ k ∈ bs, k ∉ sys_blocks g d
  used : ∀ k ∈ bs, is_free g d k = false

lemma Placed.some (h : Placed g d bs) (hnd : cs.Nodup) (hs : cs ⊆ bs) : Placed g d cs :=
  ⟨h.bitmap, h.small, hnd, fun k hk => h.range k (hs hk), fun k hk => h.off k (hs hk),
    fun k hk => h.used k (hs hk)⟩

lemma Placed.perm (h : Placed g d bs) (hp : bs.Perm cs) : Placed g d cs :=
  h.some (hp.nodup_iff.mp h.nodup) hp.symm.subset

lemma Placed.sublist (h : Placed g d bs) (hs : cs.Sublist bs) : Placed g d cs :=
  h.some (h.nodup.sublist hs) hs.subset

lemma Placed.left (h : Placed g d (bs ++ cs)) : Placed g d bs :=
  h.sublist (sublist_append_left bs cs)

lemma Placed.not_page (h : Placed g d bs) (hk : k ∈ bs) : k ∉ pages g d := fun hp =>
  h.off k hk (page_mem_sys hp)

/-- A block off the bitmap may be written. -/
lemma Placed.store (h : Placed g d bs) (hk : k ∉ sys_blocks g d) :
    Placed g (d.store k b 1) bs ∧ SameBitmap g d (d.store k b 1) := by
  have hbm : SameBitmap g d (d.store k b 1) := h.bitmap.store hk
  refine ⟨⟨hbm.ok, h.small, h.nodup, h.range, fun m hm => ?_, fun m hm => ?_⟩, hbm⟩
  · rw [hbm.sys]
    exact h.off m hm
  · rw [hbm.free]
    exact h.used m hm

/-- The number of free blocks. -/
def free_count (g : Geom) (d : BlockDev) : Nat :=
  ((Finset.range g.num_blocks).filter fun x => is_free g d x = true).card

lemma free_count_same (h : SameBitmap g d d') : free_count g d' = free_count g d := by
  unfold free_count
  congr 1
  exact Finset.filter_congr fun x _ => by rw [h.free]

/-- A block is taken: it is added to the blocks in use, and the others are left. -/
structure Allocated (g : Geom) (bs : List Nat) (d d' : BlockDev) (x : Nat) : Prop where
  placed : Placed g d' (x :: bs)
  sys : sys_blocks g d' = sys_blocks g d
  keep : ∀ k ∈ x :: bs, d'.data k = d.data k
  size : d'.num_sectors = d.num_sectors
  count : free_count g d' + 1 = free_count g d

lemma Placed.alloc (h : Placed g v.dev bs) (hfree : 0 < free_count g v.dev) :
    ∃ v' x, ffs_alloc_block g v = (v', x) ∧ x ≠ 0 ∧ Allocated g bs v.dev v'.dev x := by
  rcases alloc_block_spec h.bitmap with ⟨_, hnone⟩ | ⟨v', x, hcall, hx, hc, hbits⟩
  · obtain ⟨y, hy⟩ := Finset.card_pos.mp hfree
    have := (Finset.mem_filter.mp hy).2
    rw [hnone] at this
    cases this
  have hrange := marked_range hx
  have hnot : ∀ k, is_free g v.dev k = false → k ≠ x := by
    rintro k hk rfl
    rw [hx] at hk
    cases hk
  have hxsys : x ∉ sys_blocks g v.dev := fun hm => hnot x (h.bitmap.used x hm) rfl
  have hxbs : x ∉ bs := fun hm => hnot x (h.used x hm) rfl
  have hmem : x ∈ (Finset.range g.num_blocks).filter fun y => is_free g v.dev y = true :=
    Finset.mem_filter.mpr ⟨Finset.mem_range.mpr hrange.2, hx⟩
  refine ⟨v', x, hcall, by omega, ⟨hc.ok, h.small, nodup_cons.mpr ⟨hxbs, h.nodup⟩, ?_, ?_, ?_⟩,
    hc.sys, ?_,
    hc.touches.size, ?_⟩
  · intro k hk
    rcases mem_cons.mp hk with rfl | hk
    · exact hrange
    · exact h.range k hk
  · intro k hk
    rw [hc.sys]
    rcases mem_cons.mp hk with rfl | hk
    · exact hxsys
    · exact h.off k hk
  · intro k hk
    rw [hbits]
    rcases mem_cons.mp hk with rfl | hk
    · rw [decide_eq_false (not_not.mpr rfl), Bool.and_false]
    · rw [h.used k hk, Bool.false_and]
  · intro k hk
    refine hc.touches.keep k fun hp => ?_
    rcases mem_cons.mp hk with rfl | hk
    · exact hxsys (page_mem_sys hp)
    · exact h.not_page hk hp
  · have herase : (Finset.range g.num_blocks).filter (fun y => is_free g v'.dev y = true) =
        ((Finset.range g.num_blocks).filter fun y => is_free g v.dev y = true).erase x := by
      ext y
      rw [Finset.mem_erase, Finset.mem_filter, Finset.mem_filter, hbits, Bool.and_eq_true,
        decide_eq_true_eq]
      tauto
    rw [free_count, herase]
    exact Finset.card_erase_add_one hmem

/-! ## The tables -/

/-- The tables `hs`, the header first, hold the data blocks `ds`. -/
structure Tables (g : Geom) (d : BlockDev) (hs ds : List Nat) : Prop where
  pos : 0 < hs.length
  short : hs.length ≤ 257
  full : 72 * (hs.length - 1) ≤ ds.length
  fits : ds.length ≤ 72 * hs.length
  sound : ∀ i, i < hs.length → Sound d (hs.getD i 0)
  kind : ∀ i, 0 < i → i < hs.length → blk_lw (d.data (hs.getD i 0)) FFS_LW_TYPE = FFS_T_LIST
  high : ∀ i, i < hs.length →
    blk_lw (d.data (hs.getD i 0)) FFS_LW_HIGH_SEQ = min 72 (ds.length - 72 * i)
  ext : ∀ i, i < hs.length → blk_lw (d.data (hs.getD i 0)) FFS_LW_EXTENSION = hs.getD (i + 1) 0
  ptr : ∀ i, i < ds.length → blk_lw (d.data (hs.getD (i / 72) 0)) (77 - i % 72) = ds.getD i 0

lemma Tables.same (h : Tables g d hs ds) (hsame : ∀ k ∈ hs, SameTable d d' k) :
    Tables g d' hs ds := by
  have hs' : ∀ i, i < hs.length → SameTable d d' (hs.getD i 0) := fun i hi => hsame _ (getD_mem hi)
  refine ⟨h.pos, h.short, h.full, h.fits, fun i hi => (hs' i hi).sound.trans (h.sound i hi),
    fun i h0 hi => (hs' i hi).kind.trans (h.kind i h0 hi),
    fun i hi => (hs' i hi).high.trans (h.high i hi), fun i hi => (hs' i hi).ext.trans (h.ext i hi),
    fun i hi => ?_⟩
  have hlt : i / 72 < hs.length := by
    have := h.fits
    omega
  rw [(hs' _ hlt).ptr _ (by omega) (by omega)]
  exact h.ptr i hi

section walks

variable (h : Tables g d hs ds)
include h

lemma Tables.high_of (hi : i < hs.length) :
    high_of (block d (hs.getD i 0)) = min 72 (ds.length - 72 * i) := by
  rw [high_of_block, h.high i hi]
  unfold HT_SIZE
  omega

lemma Tables.ptr_of (hj : j < 72) (hlt : 72 * i + j < ds.length) :
    ptr_of (block d (hs.getD i 0)) j = ds.getD (72 * i + j) 0 := by
  have := h.ptr _ hlt
  rw [show (72 * i + j) / 72 = i by omega, show (72 * i + j) % 72 = j by omega] at this
  rw [ptr_of_block]
  exact this

variable (hp : Placed g d hs)
include hp

lemma Tables.read (hi : i < hs.length) :
    ffs_read_hdr g d (hs.getD i 0) = some (block d (hs.getD i 0)) :=
  read_hdr_ok (hp.range _ (getD_mem hi)).2 hp.bitmap.room (h.sound i hi)

lemma Tables.data_key_loop (hseq : 72 * i + seq < ds.length) (h0 : 0 < i)
    (hg : hs.length ≤ i + guard) : ffs.data_key_loop g d guard (hs.getD i 0) seq =
      ds.getD (72 * i + seq) 0 := by
  induction guard generalizing i seq with
  | zero =>
    have := h.fits
    omega
  | succ guard ih =>
    have hfits := h.fits
    have hi : i < hs.length := by omega
    have hr := hp.range _ (getD_mem hi)
    rw [ffs.data_key_loop, if_neg (by omega), h.read hp hi]
    dsimp only
    rw [block_lw (by decide), h.kind i h0 hi, if_neg (not_not.mpr rfl), h.high_of hi]
    by_cases hlt : seq < min 72 (ds.length - 72 * i)
    · rw [if_pos hlt, h.ptr_of (by omega) hseq]
    · rw [if_neg hlt, block_lw (by decide), h.ext i hi, ih (by omega) (by omega) (by omega)]
      congr 1
      omega

/-- `ffs_data_key` gives the data blocks in order. -/
lemma Tables.data_key (hseq : seq < ds.length) :
    ffs_data_key g d (hs.getD 0 0) seq = ds.getD seq 0 := by
  have hshort := h.short
  rw [ffs_data_key, h.read hp h.pos]
  dsimp only
  rw [h.high_of h.pos]
  by_cases hlt : seq < min 72 (ds.length - 72 * 0)
  · rw [if_pos hlt, h.ptr_of (by omega) (by omega)]
    congr 1
    omega
  · rw [if_neg hlt, block_lw (by decide), h.ext 0 h.pos,
      h.data_key_loop hp (by omega) (by omega) (by omega)]
    congr 1
    omega

lemma Tables.data_count_loop (hg : hs.length ≤ i + guard) :
    ffs.data_count_loop g d guard (hs.getD i 0) = ds.length - 72 * i := by
  induction guard generalizing i with
  | zero =>
    have := h.fits
    rw [ffs.data_count_loop]
    omega
  | succ guard ih =>
    have hfits := h.fits
    by_cases hi : i < hs.length
    · have hr := hp.range _ (getD_mem hi)
      rw [ffs.data_count_loop, if_neg (by omega), h.read hp hi]
      dsimp only
      rw [h.high_of hi, block_lw (by decide), h.ext i hi, ih (by omega)]
      omega
    · rw [getD_eq_default _ _ (by omega), ffs.data_count_loop, if_pos (.inl rfl)]
      omega

/-- `ffs_data_count` counts them. -/
lemma Tables.data_count : ffs_data_count g d (hs.getD 0 0) = ds.length := by
  have hshort := h.short
  rw [ffs_data_count, h.data_count_loop hp (by omega)]
  omega

lemma Tables.ext_chain (hg : hs.length ≤ i + guard) :
    ffs.ext_chain g d guard (hs.getD i 0) = hs.drop i := by
  induction guard generalizing i with
  | zero =>
    rw [drop_of_length_le (by omega)]
    rfl
  | succ guard ih =>
    by_cases hi : i < hs.length
    · have hr := hp.range _ (getD_mem hi)
      rw [ffs.ext_chain, if_neg (by omega), h.ext i hi, ih (by omega), drop_eq_getElem_cons hi,
        getD_eq_getElem _ _ hi]
    · rw [getD_eq_default _ _ (by omega), ffs.ext_chain, if_pos (.inl rfl),
        drop_of_length_le (by omega)]

/-- The extension blocks are the tables behind the header. -/
lemma Tables.file_exts : ffs.file_exts g d (hs.getD 0 0) = hs.drop 1 := by
  have hshort := h.short
  rw [ffs.file_exts, h.ext 0 h.pos]
  exact h.ext_chain hp (by omega)

/-! ## The table with room -/

lemma Tables.room_loop (hi : i < hs.length) (hfull : 72 * (i + 1) ≤ ds.length)
    (hg : hs.length ≤ i + 1 + guard) : ffs.room_loop g d guard (hs.getD (i + 1) 0) (hs.getD i 0) =
      if ds.length = 72 * hs.length then .full (hs.getD (hs.length - 1) 0)
      else .room (hs.getD (hs.length - 1) 0) (block d (hs.getD (hs.length - 1) 0))
        (ds.length - 72 * (hs.length - 1)) := by
  have hfits := h.fits
  have hfl := h.full
  induction guard generalizing i with
  | zero =>
    have hlast : i = hs.length - 1 := by omega
    rw [if_pos (by omega), ← hlast]
    rfl
  | succ guard ih =>
    by_cases hnext : i + 1 < hs.length
    · have hr := hp.range _ (getD_mem hnext)
      have hhigh := h.high (i + 1) hnext
      rw [ffs.room_loop, if_neg (by omega), h.read hp hnext]
      dsimp only
      rw [block_lw (by decide), h.kind (i + 1) (by omega) hnext, if_neg (not_not.mpr rfl),
        block_lw (by decide), hhigh, if_neg (by unfold HT_SIZE; omega)]
      by_cases hroom : min 72 (ds.length - 72 * (i + 1)) < HT_SIZE
      · unfold HT_SIZE at hroom
        have hlast : i + 1 = hs.length - 1 := by omega
        rw [if_pos (by unfold HT_SIZE; exact hroom), if_neg (by omega), ← hlast]
        congr 1
        omega
      · unfold HT_SIZE at hroom
        rw [if_neg (by unfold HT_SIZE; exact hroom), block_lw (by decide), h.ext (i + 1) hnext]
        exact ih hnext (by omega) (by omega)
    · have hlast : i = hs.length - 1 := by omega
      rw [getD_eq_default _ _ (by omega), ffs.room_loop, if_pos (.inl rfl), if_pos (by omega),
        ← hlast]

end walks

/-! ## Appending a pointer -/

/-- The table with one more pointer, behind `high` of them. -/
def pushed (b : Buf) (high dkey : Nat) : Buf :=
  blk_put32 (blk_put32 b (77 - high) dkey) 2 (high + 1)

lemma store_ptr_ok (b : Buf) (high dkey : Nat) (hk : k + 1 ≤ v.dev.num_sectors) :
    ffs_store_ptr v b k high dkey = some { v with dev := store_hdr v.dev k (pushed b high dkey) } :=
  write_hdr_ok hk

lemma lw_pushed {high : Nat} (hh : high < 72) (hdk : dkey < 2 ^ 32) :
    blk_lw (pushed b high dkey) i =
      if i = 2 then high + 1 else if i = 77 - high then dkey else blk_lw b i := by
  rw [pushed]
  by_cases h2 : i = 2
  · rw [if_pos h2, h2, lw_put32_same (by omega)]
  rw [if_neg h2, lw_put32_ne h2]
  by_cases h77 : i = 77 - high
  · rw [if_pos h77, h77, lw_put32_same hdk]
  · rw [if_neg h77, lw_put32_ne h77]

/-- The longwords of a header that say nothing of its pointers. -/
def SameRest (d d' : BlockDev) (k : Nat) : Prop :=
  ∀ i, i = 0 ∨ (78 ≤ i ∧ i < 128 ∧ i ≠ 126) → blk_lw (d'.data k) i = blk_lw (d.data k) i

lemma SameRest.of_eq (h : d'.data k = d.data k) : SameRest d d' k := fun i _ => by rw [h]

lemma SameRest.trans {d'' : BlockDev} (h : SameRest d d' k) (h' : SameRest d' d'' k) :
    SameRest d d'' k := fun i hi => (h' i hi).trans (h i hi)

lemma SameRest.store_hdr (hb : ∀ i, i = 0 ∨ (78 ≤ i ∧ i < 128 ∧ i ≠ 126) →
    blk_lw b i = blk_lw (d.data k) i) (x : Nat) : SameRest d (ffs.store_hdr d k b) x := by
  intro i hi
  by_cases hx : x = k
  · subst hx
    rw [store_hdr_lw (by unfold FFS_BLOCK_LONGS; omega) (by omega), hb i hi]
  · rw [store_hdr_ne hx]

lemma getD_append_left {m : List Nat} (hi : i < l.length) : (l ++ m).getD i 0 = l.getD i 0 :=
  getD_append _ _ _ _ hi

lemma getD_append_last : (l ++ [x]).getD l.length 0 = x := by
  rw [getD_append_right _ _ _ _ (Nat.le_refl _), Nat.sub_self]
  rfl

/-- The last table takes one more pointer. -/
lemma Tables.push (h : Tables g d hs ds) (hp : Placed g d (hs ++ ds))
    (hroom : ds.length < 72 * hs.length) (hdk : dkey < 2 ^ 32) :
    Tables g (store_hdr d (hs.getD (hs.length - 1) 0)
      (pushed (block d (hs.getD (hs.length - 1) 0)) (ds.length - 72 * (hs.length - 1)) dkey))
      hs (ds ++ [dkey]) := by
  have hpos := h.pos
  have hfull := h.full
  have hnd : hs.Nodup := (nodup_append.mp hp.nodup).1
  obtain ⟨last, hlast⟩ : ∃ last, last = hs.length - 1 := ⟨_, rfl⟩
  obtain ⟨high, hhigh⟩ : ∃ high, high = ds.length - 72 * last := ⟨_, rfl⟩
  rw [← hlast, ← hhigh]
  have hh : high < 72 := by omega
  obtain ⟨d', hd'⟩ : ∃ d', d' = store_hdr d (hs.getD last 0)
    (pushed (block d (hs.getD last 0)) high dkey) := ⟨_, rfl⟩
  rw [← hd']
  -- the last table, and the others
  have hat : ∀ i, i < 128 → i ≠ 5 → blk_lw (d'.data (hs.getD last 0)) i =
      if i = 2 then high + 1 else if i = 77 - high then dkey
        else blk_lw (d.data (hs.getD last 0)) i := by
    intro i hi h5
    rw [hd', store_hdr_lw hi h5, lw_pushed hh hdk, block_lw hi]
  have hne : ∀ i, i < hs.length → i ≠ last → d'.data (hs.getD i 0) = d.data (hs.getD i 0) := by
    intro i hi hil
    rw [hd']
    exact store_hdr_ne fun hc => hil (getD_inj hnd hi (by omega) hc)
  have hlen : (ds ++ [dkey]).length = ds.length + 1 := length_append
  refine ⟨hpos, h.short, by omega, by omega, fun i hi => ?_, fun i h0 hi => ?_, fun i hi => ?_,
    fun i hi => ?_, fun i hi => ?_⟩
  · by_cases hil : i = last
    · rw [hil, hd']
      exact store_hdr_sound
    · rw [Sound, hne i hi hil]
      exact h.sound i hi
  · by_cases hil : i = last
    · rw [hil, hat _ (by decide) (by decide), if_neg (by decide),
        if_neg (by unfold FFS_LW_TYPE; omega),
        ← hil]
      exact h.kind i h0 hi
    · rw [hne i hi hil]
      exact h.kind i h0 hi
  · by_cases hil : i = last
    · rw [hil, hat _ (by decide) (by decide), if_pos (show FFS_LW_HIGH_SEQ = 2 from rfl), hlen]
      omega
    · rw [hne i hi hil, h.high i hi, hlen]
      omega
  · by_cases hil : i = last
    · rw [hil, hat _ (by decide) (by decide), if_neg (by decide),
        if_neg (by unfold FFS_LW_EXTENSION; omega), ← hil]
      exact h.ext i hi
    · rw [hne i hi hil]
      exact h.ext i hi
  · rw [hlen] at hi
    by_cases hend : i = ds.length
    · rw [hend, getD_append_last, show ds.length / 72 = last by omega, hat _ (by omega) (by omega),
        if_neg (by omega), if_pos (by omega)]
    rw [getD_append_left (by omega), ← h.ptr i (by omega)]
    by_cases hil : i / 72 = last
    · rw [hil, hat _ (by omega) (by omega), if_neg (by omega), if_neg (by omega)]
    · rw [hne _ (by omega) hil]

/-- The longwords of a fresh extension block with its first pointer. -/
lemma lw_new_ext (x key : Nat) (hdk : dkey < 2 ^ 32) :
    blk_lw (pushed (new_ext x key) 0 dkey) FFS_LW_TYPE = FFS_T_LIST ∧
      blk_lw (pushed (new_ext x key) 0 dkey) FFS_LW_HIGH_SEQ = 1 ∧
      blk_lw (pushed (new_ext x key) 0 dkey) FFS_LW_EXTENSION = 0 ∧
      blk_lw (pushed (new_ext x key) 0 dkey) 77 = dkey := by
  refine ⟨?_, ?_, ?_, ?_⟩
  · rw [lw_pushed (by decide) hdk, if_neg (by decide), if_neg (by decide), new_ext,
      lw_put32_ne (by decide), lw_put32_ne (by decide), lw_put32_ne (by decide),
        lw_put32_same (by decide)]
  · rw [lw_pushed (by decide) hdk, if_pos (show FFS_LW_HIGH_SEQ = 2 from rfl)]
  · rw [lw_pushed (by decide) hdk, if_neg (by decide), if_neg (by decide), new_ext,
      lw_put32_ne (by decide), lw_put32_ne (by decide), lw_put32_ne (by decide),
        lw_put32_ne (by decide)]
    rfl
  · rw [lw_pushed (by decide) hdk, if_neg (by decide), if_pos rfl]

/-- The full tables take one more table with one pointer. -/
lemma Tables.grow (h : Tables g d hs ds) (hp : Placed g d (hs ++ ds))
    (hfull : ds.length = 72 * hs.length) (hshort : hs.length < 257) (hx : x ∉ hs)
    (hx32 : x < 2 ^ 32)
    (hdk : dkey < 2 ^ 32) : Tables g (store_hdr (store_hdr d (hs.getD (hs.length - 1) 0)
      (blk_put32 (block d (hs.getD (hs.length - 1) 0)) FFS_LW_EXTENSION x)) x
        (pushed (new_ext x key) 0 dkey)) (hs ++ [x]) (ds ++ [dkey]) := by
  have hnd : hs.Nodup := (nodup_append.mp hp.nodup).1
  obtain ⟨last, hlast⟩ : ∃ last, last = hs.length - 1 := ⟨_, rfl⟩
  rw [← hlast]
  obtain ⟨d1, hd1⟩ : ∃ d1, d1 = store_hdr d (hs.getD last 0)
    (blk_put32 (block d (hs.getD last 0)) FFS_LW_EXTENSION x) := ⟨_, rfl⟩
  obtain ⟨d', hd'⟩ : ∃ d', d' = store_hdr d1 x (pushed (new_ext x key) 0 dkey) := ⟨_, rfl⟩
  rw [← hd1, ← hd']
  have hmem : ∀ i, i < hs.length → hs.getD i 0 ≠ x := fun i hi hc => hx (hc ▸ getD_mem hi)
  have hold : ∀ i, i < hs.length → ∀ j, j < 128 → j ≠ 5 → blk_lw (d'.data (hs.getD i 0)) j =
      if i = last ∧ j = 126 then x else blk_lw (d.data (hs.getD i 0)) j := by
    intro i hi j hj h5
    rw [hd', store_hdr_ne (hmem i hi), hd1]
    by_cases hil : i = last
    · rw [hil, store_hdr_lw hj h5]
      by_cases hext : j = 126
      · rw [if_pos ⟨rfl, hext⟩, hext]
        exact lw_put32_same hx32
      · rw [if_neg fun hc => hext hc.2, lw_put32_ne (i := FFS_LW_EXTENSION) hext, block_lw hj]
    · rw [if_neg fun hc => hil hc.1, store_hdr_ne fun hc => hil (getD_inj hnd hi (by omega) hc)]
  have hsound : ∀ i, i < hs.length → Sound d' (hs.getD i 0) := by
    intro i hi
    rw [Sound, hd', store_hdr_ne (hmem i hi), hd1]
    by_cases hil : i = last
    · rw [hil]
      exact store_hdr_sound
    · rw [store_hdr_ne fun hc => hil (getD_inj hnd hi (by omega) hc)]
      exact h.sound i hi
  have hnew : ∀ j, j < 128 → j ≠ 5 →
      blk_lw (d'.data x) j = blk_lw (pushed (new_ext x key) 0 dkey) j := by
    intro j hj h5
    rw [hd', store_hdr_lw hj h5]
  obtain ⟨hkind, hhigh, hext, hptr⟩ := lw_new_ext x key hdk
  have hlen : (ds ++ [dkey]).length = ds.length + 1 := length_append
  have hlen' : (hs ++ [x]).length = hs.length + 1 := length_append
  -- the tables before the new one, and the new one
  have hcase : ∀ i, i < (hs ++ [x]).length → (i < hs.length ∧ (hs ++ [x]).getD i 0 = hs.getD i 0) ∨
      (i = hs.length ∧ (hs ++ [x]).getD i 0 = x) := by
    intro i hi
    by_cases hil : i < hs.length
    · exact .inl ⟨hil, getD_append_left hil⟩
    · obtain rfl : i = hs.length := by omega
      exact .inr ⟨rfl, getD_append_last⟩
  refine ⟨by omega, by omega, by omega, by omega, fun i hi => ?_, fun i h0 hi => ?_, fun i hi => ?_,
    fun i hi => ?_, fun i hi => ?_⟩
  · rcases hcase i hi with ⟨hil, hget⟩ | ⟨hil, hget⟩ <;> rw [hget]
    · exact hsound i hil
    · rw [hd']
      exact store_hdr_sound
  · rcases hcase i hi with ⟨hil, hget⟩ | ⟨hil, hget⟩ <;> rw [hget]
    · rw [hold i hil _ (by decide) (by decide), if_neg fun hc => absurd hc.2 (by decide)]
      exact h.kind i h0 hil
    · rw [hnew _ (by decide) (by decide), hkind]
  · rw [hlen]
    rcases hcase i hi with ⟨hil, hget⟩ | ⟨hil, hget⟩ <;> rw [hget]
    · rw [hold i hil _ (by decide) (by decide), if_neg fun hc => absurd hc.2 (by decide),
        h.high i hil]
      omega
    · rw [hnew _ (by decide) (by decide), hhigh]
      omega
  · rcases hcase i hi with ⟨hil, hget⟩ | ⟨hil, hget⟩ <;> rw [hget]
    · rw [hold i hil _ (by decide) (by decide)]
      by_cases hl : i = last
      · rw [if_pos ⟨hl, rfl⟩, show i + 1 = hs.length by omega, getD_append_last]
      · rw [if_neg fun hc => hl hc.1, getD_append_left (by omega)]
        exact h.ext i hil
    · rw [hnew _ (by decide) (by decide), hext, getD_eq_default _ _ (by omega)]
  · rw [hlen] at hi
    by_cases hend : i = ds.length
    · rw [hend, getD_append_last, show ds.length / 72 = hs.length by omega, getD_append_last,
        show 77 - ds.length % 72 = 77 by omega, hnew _ (by decide) (by decide), hptr]
    · rw [getD_append_left (by omega), getD_append_left (by omega),
        hold _ (by omega) _ (by omega) (by omega),
        if_neg fun hc => absurd hc.2 (by omega)]
      exact h.ptr i (by omega)

/-- One more pointer stands in the tables. -/
structure Appended (g : Geom) (d d' : BlockDev) (hs hs' ds : List Nat) (dkey : Nat) : Prop where
  tables : Tables g d' hs' (ds ++ [dkey])
  placed : Placed g d' (hs' ++ (ds ++ [dkey]))
  head : hs'.getD 0 0 = hs.getD 0 0
  rest : SameRest d d' (hs.getD 0 0)
  keep : ∀ k ∈ ds ++ [dkey], d'.data k = d.data k
  count : free_count g d' + hs'.length = free_count g d + hs.length

/-- What the walk of `ffs_append_ptr` finds: full tables, or room in the last one. -/
lemma Tables.room (dkey : Nat) (h : Tables g v.dev hs ds) (hp : Placed g v.dev hs) :
    (ds.length = 72 * hs.length → ffs_append_ptr g v (hs.getD 0 0) dkey =
      append_ext g v (hs.getD 0 0) (hs.getD (hs.length - 1) 0) dkey) ∧
    (ds.length ≠ 72 * hs.length → ∀ v', ffs_store_ptr v (block v.dev (hs.getD (hs.length - 1) 0))
      (hs.getD (hs.length - 1) 0) (ds.length - 72 * (hs.length - 1)) dkey = some v' →
        ffs_append_ptr g v (hs.getD 0 0) dkey = (v', true)) := by
  have hpos := h.pos
  have hfull := h.full
  have hshort := h.short
  rw [ffs_append_ptr, h.read hp hpos]
  dsimp only
  rw [block_lw (by decide), h.high 0 hpos, if_neg (by unfold HT_SIZE; omega)]
  by_cases hroom : min 72 (ds.length - 72 * 0) < HT_SIZE
  · unfold HT_SIZE at hroom
    have hone : hs.length = 1 := by omega
    rw [if_pos (by unfold HT_SIZE; exact hroom), hone]
    refine ⟨fun hf => absurd hf (by omega), fun _ v' hst => ?_⟩
    dsimp only
    rw [show min 72 (ds.length - 72 * 0) = ds.length - 72 * 0 by omega, hst]
  · rw [if_neg hroom, block_lw (by decide), h.ext 0 hpos]
    unfold HT_SIZE at hroom
    rw [h.room_loop hp hpos (by omega) (by omega)]
    refine ⟨fun hf => by rw [if_pos hf], fun hf v' hst => ?_⟩
    rw [if_neg hf]
    dsimp only
    rw [hst]

/-- `ffs_append_ptr` appends the pointer, with a new table when the last one is full. -/
lemma append_ptr_spec (h : Tables g v.dev hs ds) (hp : Placed g v.dev (dkey :: (hs ++ ds)))
    (hmax : ds.length < 72 * 257) (hfree : ds.length = 72 * hs.length → 0 < free_count g v.dev) :
    ∃ v' hs', ffs_append_ptr g v (hs.getD 0 0) dkey = (v', true) ∧
      Appended g v.dev v'.dev hs hs' ds dkey := by
  have hpos := h.pos
  have hfits := h.fits
  have hp0 : Placed g v.dev (hs ++ ds) := hp.sublist (sublist_cons_self _ _)
  have hdkr := hp.range dkey mem_cons_self
  have hdk : dkey < 2 ^ 32 := lt_of_lt_of_le hdkr.2 hp.small
  have hroom := hp.bitmap.room
  have hlastm : hs.getD (hs.length - 1) 0 ∈ hs := getD_mem (by omega)
  have hlast := hp0.left.range _ (getD_mem (show hs.length - 1 < hs.length by omega))
  have hne : ∀ k ∈ ds ++ [dkey], ∀ y ∈ hs, k ≠ y := by
    rintro k hk y hy rfl
    rcases mem_append.mp hk with hk | hk
    · exact (nodup_append.mp hp0.nodup).2.2 k hy k hk rfl
    · rw [mem_singleton.mp hk] at hy
      exact (nodup_cons.mp hp.nodup).1 (mem_append_left _ hy)
  have hperm : (dkey :: (hs ++ ds)).Perm (hs ++ (ds ++ [dkey])) := by
    rw [← append_assoc]
    exact (perm_append_singleton _ _).symm
  obtain ⟨hcall_full, hcall_room⟩ := h.room dkey hp0.left
  by_cases hfull : ds.length = 72 * hs.length
  · obtain ⟨v1, x, hcall, hx0, ha⟩ := hp.alloc (hfree hfull)
    have hxr := ha.placed.range x mem_cons_self
    have hx32 : x < 2 ^ 32 := lt_of_lt_of_le hxr.2 hp.small
    have hsame : ∀ k ∈ hs ++ (ds ++ [dkey]), v1.dev.data k = v.dev.data k := fun k hk =>
      ha.keep k (mem_cons_of_mem _ (hperm.mem_iff.mpr hk))
    have hxn : x ∉ hs ++ (ds ++ [dkey]) := fun hm =>
      (nodup_cons.mp ha.placed.nodup).1 (hperm.mem_iff.mpr hm)
    have hxhs : x ∉ hs := fun hm => hxn (mem_append_left _ hm)
    have h1 : Tables g v1.dev hs ds := h.same fun k hk =>
      SameTable.of_eq (hsame k (mem_append_left _ hk))
    have hp1 : Placed g v1.dev (x :: (hs ++ (ds ++ [dkey]))) := ha.placed.perm (hperm.cons x)
    have hroom1 : g.num_blocks ≤ v1.dev.num_sectors := hp1.bitmap.room
    have hoff := fun k hk => hp1.off k (mem_cons_of_mem _ (mem_append_left _ hk))
    have hp1' : Placed g v1.dev (hs ++ ds) := ha.placed.sublist
      ((sublist_cons_self _ _).trans (sublist_cons_self _ _))
    rw [hcall_full hfull, append_ext, hcall]
    dsimp only
    rw [if_neg hx0, h1.read hp1'.left (show hs.length - 1 < hs.length by omega)]
    dsimp only
    rw [write_hdr_ok (by omega)]
    dsimp only
    have hnum : (store_hdr v1.dev (hs.getD (hs.length - 1) 0) (blk_put32
      (block v1.dev (hs.getD (hs.length - 1) 0)) FFS_LW_EXTENSION x)).num_sectors =
        v1.dev.num_sectors := rfl
    rw [store_ptr_ok _ _ _ (by dsimp only; rw [hnum]; omega)]
    obtain ⟨hp2, hb2⟩ := hp1.store (b := blk_fix_checksum (blk_put32
      (block v1.dev (hs.getD (hs.length - 1) 0)) FFS_LW_EXTENSION x)) (hoff _ hlastm)
    obtain ⟨hp3, hb3⟩ := hp2.store (b := blk_fix_checksum (pushed (new_ext x (hs.getD 0 0)) 0 dkey))
      (hp2.off x mem_cons_self)
    refine ⟨_, hs ++ [x], rfl, h1.grow hp1' hfull (by omega) hxhs hx32 hdk, hp3.perm ?_,
      getD_append_left hpos, ?_, fun k hk => ?_, ?_⟩
    · rw [append_assoc]
      exact perm_middle.symm
    · have hhead : hs.getD 0 0 ≠ x := fun hc => hxhs (hc ▸ getD_mem hpos)
      refine ((SameRest.of_eq (hsame _ (mem_append_left _ (getD_mem hpos)))).trans
        (SameRest.store_hdr (fun i hi => ?_) _)).trans (SameRest.of_eq (store_hdr_ne hhead))
      rw [lw_put32_ne (by unfold FFS_LW_EXTENSION; omega),
        block_lw (by unfold FFS_BLOCK_LONGS; omega)]
    · rw [← hsame k (mem_append_right _ hk)]
      have hkx : k ≠ x := by
        rintro rfl
        exact hxn (mem_append_right _ hk)
      rw [store_hdr_ne hkx, store_hdr_ne (hne k hk _ hlastm)]
    · have hc2 := free_count_same hb2
      have hc3 := free_count_same hb3
      have hca := ha.count
      rw [length_append, length_singleton]
      dsimp only [store_hdr]
      omega
  · have hst := store_ptr_ok (v := v) (block v.dev (hs.getD (hs.length - 1) 0))
      (ds.length - 72 * (hs.length - 1)) dkey (show hs.getD (hs.length - 1) 0 + 1 ≤ _ by omega)
    rw [hcall_room hfull _ hst]
    obtain ⟨hp1, hb1⟩ := hp.store (b := blk_fix_checksum (pushed
      (block v.dev (hs.getD (hs.length - 1) 0)) (ds.length - 72 * (hs.length - 1)) dkey))
      (hp0.off _ (mem_append_left _ hlastm))
    refine ⟨_, hs, rfl, h.push hp0 (by omega) hdk, hp1.perm hperm, rfl,
      SameRest.store_hdr (fun i hi => ?_) _, fun k hk => store_hdr_ne (hne k hk _ hlastm), ?_⟩
    · rw [lw_pushed (by omega) hdk, if_neg (by omega), if_neg (by omega),
        block_lw (by unfold FFS_BLOCK_LONGS; omega)]
    · dsimp only [store_hdr]
      rw [free_count_same hb1]

end uaos.ffs
