-- The blocks that a file owns, as the walks over its pointer tables find them, and the
-- calls that give them back to the bitmap.
import Uaos.FfsHash

namespace uaos.ffs

open List

variable {bs : List Nat} {ext high trim : Nat} {t : SecType}

variable {g : Geom} {v v' : Vol} {d d' : BlockDev} {b : Buf} {i j k n x y key : Nat}

/-! ## The blocks of a file -/

/-- The extension blocks from `ext` on. -/
def ext_chain (g : Geom) (d : BlockDev) : Nat → Nat → List Nat
  | 0, _ => []
  | n + 1, ext =>
    if ext = 0 ∨ g.num_blocks ≤ ext then []
    else ext :: ext_chain g d n (blk_lw (d.data ext) FFS_LW_EXTENSION)

def file_exts (g : Geom) (d : BlockDev) (x : Nat) : List Nat :=
  ext_chain g d 512 (blk_lw (d.data x) FFS_LW_EXTENSION)

/-- The data blocks from the block `i` on, `n` of them. -/
def data_keys (g : Geom) (d : BlockDev) (x i n : Nat) : List Nat :=
  ((List.range' i n).map (ffs_data_key g d x)).filter fun k => k ≠ 0 ∧ k < g.num_blocks

def file_blocks (g : Geom) (d : BlockDev) (x : Nat) : List Nat :=
  file_exts g d x ++ data_keys g d x 0 (ffs_data_count g d x)

/-- The longwords of a header or an extension block that a walk over the tables reads. -/
structure SameTable (d d' : BlockDev) (k : Nat) : Prop where
  sound : blk_checksum_ok (d'.data k) = blk_checksum_ok (d.data k)
  kind : blk_lw (d'.data k) FFS_LW_TYPE = blk_lw (d.data k) FFS_LW_TYPE
  high : blk_lw (d'.data k) FFS_LW_HIGH_SEQ = blk_lw (d.data k) FFS_LW_HIGH_SEQ
  ptr : ∀ i, 6 ≤ i → i < 78 → blk_lw (d'.data k) i = blk_lw (d.data k) i
  ext : blk_lw (d'.data k) FFS_LW_EXTENSION = blk_lw (d.data k) FFS_LW_EXTENSION

lemma SameTable.of_eq (h : d'.data k = d.data k) : SameTable d d' k := by
  refine ⟨?_, ?_, ?_, fun i _ _ => ?_, ?_⟩ <;> rw [h]

lemma read_hdr_eq (hk : k < g.num_blocks) (hroom : g.num_blocks ≤ d.num_sectors) :
    ffs_read_hdr g d k = if blk_checksum_ok (d.data k) then some (block d k) else none := by
  rw [ffs_read_hdr, read_block_ok hk hroom]
  dsimp only
  rw [block_checksum]

lemma high_of_block : high_of (block d k) = min (blk_lw (d.data k) FFS_LW_HIGH_SEQ) HT_SIZE := by
  rw [high_of, block_lw (by decide)]

lemma ptr_of_block : ptr_of (block d k) i = blk_lw (d.data k) (5 + HT_SIZE - i) :=
  block_lw (by unfold HT_SIZE FFS_BLOCK_LONGS; omega)

/-- The pointer `i` of a table of `high` pointers. -/
lemma SameTable.ptr_of (h : SameTable d d' k) (hi : i < high_of (block d k)) :
    ptr_of (block d' k) i = ffs.ptr_of (block d k) i := by
  have hlt : i < HT_SIZE := lt_of_lt_of_le hi (min_le_right _ _)
  unfold HT_SIZE at hlt
  rw [ptr_of_block, ptr_of_block]
  exact h.ptr _ (by unfold HT_SIZE; omega) (by unfold HT_SIZE; omega)

lemma SameTable.high_of (h : SameTable d d' k) :
    high_of (block d' k) = ffs.high_of (block d k) := by
  rw [high_of_block, high_of_block, h.high]

lemma ext_chain_mono {m : Nat} (hnm : n ≤ m) (hk : k ∈ ext_chain g d n ext) :
    k ∈ ext_chain g d m ext := by
  induction n generalizing m ext with
  | zero => cases hk
  | succ n ih =>
    obtain ⟨m, rfl⟩ := Nat.exists_eq_add_of_le' (show 1 ≤ m by omega)
    rw [ext_chain] at hk ⊢
    split
    · rename_i hext
      rwa [if_pos hext] at hk
    rename_i hext
    rw [if_neg hext] at hk
    rcases mem_cons.mp hk with rfl | hk
    · exact mem_cons_self
    · exact mem_cons_of_mem _ (ih (by omega) hk)

lemma ext_chain_congr (h : ∀ k ∈ ext_chain g d n ext, SameTable d d' k) :
    ext_chain g d' n ext = ext_chain g d n ext := by
  induction n generalizing ext with
  | zero => rfl
  | succ n ih =>
    rw [ext_chain] at h
    rw [ext_chain, ext_chain]
    split
    · rfl
    · rename_i hext
      rw [if_neg hext] at h
      rw [(h ext mem_cons_self).ext, ih (forall_mem_cons.mp h).2]

lemma file_exts_congr (hhead : SameTable d d' x)
    (hexts : ∀ k ∈ file_exts g d x, SameTable d d' k) : file_exts g d' x = file_exts g d x := by
  rw [file_exts, hhead.ext]
  exact ext_chain_congr hexts

section congr

variable (hroom : g.num_blocks ≤ d.num_sectors) (hn : d'.num_sectors = d.num_sectors)
include hroom hn

/-- The block is bad for both devices, or both give what they hold. -/
lemma SameTable.reads (h : SameTable d d' k) (hk : k < g.num_blocks) :
    ffs_read_hdr g d' k = none ∧ ffs_read_hdr g d k = none ∨
      ffs_read_hdr g d' k = some (block d' k) ∧ ffs_read_hdr g d k = some (block d k) := by
  rw [read_hdr_eq hk hroom, read_hdr_eq hk (by omega), h.sound]
  by_cases hok : blk_checksum_ok (d.data k) = true <;> simp [hok]

section

variable (h : ∀ k ∈ ext_chain g d n ext, SameTable d d' k)

include h

lemma data_key_loop_congr {seq : Nat} :
    data_key_loop g d' n ext seq = data_key_loop g d n ext seq := by
  induction n generalizing ext seq with
  | zero => rfl
  | succ n ih =>
    rw [ext_chain] at h
    rw [data_key_loop, data_key_loop]
    split
    · rfl
    rename_i hext
    rw [if_neg hext] at h
    have hs := h ext mem_cons_self
    rcases hs.reads hroom hn (by omega) with ⟨h1, h2⟩ | ⟨h1, h2⟩ <;> rw [h1, h2]
    dsimp only
    rw [block_lw (by decide), block_lw (by decide), hs.kind, hs.high_of, block_lw (by decide),
      block_lw (by decide), hs.ext]
    split
    · rfl
    split
    · rename_i hseq
      exact hs.ptr_of hseq
    · exact ih (forall_mem_cons.mp h).2

lemma data_count_loop_congr : data_count_loop g d' n ext = data_count_loop g d n ext := by
  induction n generalizing ext with
  | zero => rfl
  | succ n ih =>
    rw [ext_chain] at h
    rw [data_count_loop, data_count_loop]
    split
    · rfl
    rename_i hext
    rw [if_neg hext] at h
    have hs := h ext mem_cons_self
    rcases hs.reads hroom hn (by omega) with ⟨h1, h2⟩ | ⟨h1, h2⟩ <;> rw [h1, h2]
    dsimp only
    rw [hs.high_of, block_lw (by decide), block_lw (by decide), hs.ext,
      ih (forall_mem_cons.mp h).2]

end

section

variable (hhead : SameTable d d' x) (hexts : ∀ k ∈ file_exts g d x, SameTable d d' k)
  (hx : x < g.num_blocks)

include hhead hexts hx

lemma data_key_congr (seq : Nat) :
    ffs_data_key g d' x seq = ffs_data_key g d x seq := by
  rw [ffs_data_key, ffs_data_key]
  rcases hhead.reads hroom hn hx with ⟨h1, h2⟩ | ⟨h1, h2⟩ <;> rw [h1, h2]
  dsimp only
  rw [hhead.high_of, block_lw (by decide), block_lw (by decide), hhead.ext]
  split
  · rename_i hseq
    exact hhead.ptr_of hseq
  · exact data_key_loop_congr hroom hn fun k hk => hexts k (ext_chain_mono (by decide) hk)

lemma data_count_congr : ffs_data_count g d' x = ffs_data_count g d x := by
  refine data_count_loop_congr hroom hn fun k hk => ?_
  rw [ext_chain] at hk
  split at hk
  · cases hk
  · rcases mem_cons.mp hk with rfl | hk
    · exact hhead
    · exact hexts k (ext_chain_mono (by decide) hk)

lemma data_keys_congr : data_keys g d' x i n = data_keys g d x i n := by
  unfold data_keys
  rw [funext fun seq => data_key_congr hroom hn hhead hexts hx seq]

/-- The tables of a file are read from its header and its extension blocks. -/
lemma file_blocks_congr : file_blocks g d' x = file_blocks g d x := by
  rw [file_blocks, file_blocks, file_exts_congr hhead hexts,
    data_count_congr hroom hn hhead hexts hx, data_keys_congr hroom hn hhead hexts hx]

end

end congr

/-- A file without pointers owns no blocks. -/
lemma file_blocks_nil (hx : x < g.num_blocks) (hroom : g.num_blocks ≤ d.num_sectors)
    (hhigh : blk_lw (d.data x) FFS_LW_HIGH_SEQ = 0)
    (hext : blk_lw (d.data x) FFS_LW_EXTENSION = 0) :
    file_blocks g d x = [] := by
  have hcount : ffs_data_count g d x = 0 := by
    rw [ffs_data_count, data_count_loop]
    split
    · rfl
    rw [read_hdr_eq hx hroom]
    by_cases hok : blk_checksum_ok (d.data x) = true
    · rw [if_pos hok]
      dsimp only
      rw [high_of_block, block_lw (by decide), hhigh, hext]
      rfl
    · rw [if_neg hok]
  rw [file_blocks, hcount, file_exts, hext]
  rfl

/-! ## Freeing -/

/-- The tables of the file stand in no bitmap page. -/
structure OffPages (g : Geom) (d : BlockDev) (x : Nat) : Prop where
  range : x < g.num_blocks
  header : x ∉ pages g d
  exts : ∀ k ∈ file_exts g d x, k ∉ pages g d

/-- A change of the bitmap leaves the tables of such a file. -/
lemma OffPages.same (h : OffPages g d x) (hc : Changed g d d') :
    SameTable d d' x ∧ ∀ k ∈ file_exts g d x, SameTable d d' k :=
  ⟨SameTable.of_eq (hc.touches.keep _ h.header),
    fun k hk => SameTable.of_eq (hc.touches.keep _ (h.exts k hk))⟩

lemma OffPages.changed (h : OffPages g d x) (hc : Changed g d d') : OffPages g d' x := by
  obtain ⟨hhead, hexts⟩ := h.same hc
  refine ⟨h.range, by rw [hc.pages_eq]; exact h.header, ?_⟩
  rw [hc.pages_eq, file_exts_congr hhead hexts]
  exact h.exts

/-- The blocks `bs` may have become free, and no others. -/
structure Freed (g : Geom) (d d' : BlockDev) (bs : List Nat) : Prop where
  changed : Changed g d d'
  free : ∀ y, is_free g d' y = true → is_free g d y = true ∨ y ∈ bs

/-- A block that is not given back stays in use. -/
lemma stays_used (hf : ∀ y, is_free g d' y = true → is_free g d y = true ∨ y ∈ bs)
    (hu : is_free g d k = false) (hk : k ∉ bs) : is_free g d' k = false :=
  Bool.eq_false_iff.mpr fun hc => (hf k hc).elim (ne_true_of_eq_false hu) hk

lemma Freed.refl (h : BitmapOk g d) (bs : List Nat) : Freed g d d bs :=
  ⟨Changed.refl h, fun _ hy => .inl hy⟩

lemma Freed.trans {d'' : BlockDev} {cs ds : List Nat} (h : Freed g d d' bs) (h' : Freed g d' d'' cs)
    (hb : ∀ y ∈ bs, y ∈ ds) (hc : ∀ y ∈ cs, y ∈ ds) : Freed g d d'' ds := by
  refine ⟨h.changed.trans h'.changed, fun y hy => ?_⟩
  rcases h'.free y hy with hy | hy
  · rcases h.free y hy with hy | hy
    · exact .inl hy
    · exact .inr (hb y hy)
  · exact .inr (hc y hy)

lemma free_block_freed (h : BitmapOk g v.dev) (hx : x ∉ sys_blocks g v.dev) :
    Freed g v.dev (ffs_free_block g v x).dev [x] := by
  obtain ⟨hc, hf⟩ := free_block_spec h hx
  exact ⟨hc, fun y hy => (hf y hy).imp_right mem_singleton.mpr⟩

lemma free_data_loop_spec (h : BitmapOk g v.dev) (hoff : OffPages g v.dev x)
    (hkeys : ∀ k ∈ data_keys g v.dev x i n, k ∉ sys_blocks g v.dev) :
    Freed g v.dev (free_data_loop g x n v i).dev (data_keys g v.dev x i n) := by
  induction n generalizing v i with
  | zero => exact Freed.refl h _
  | succ n ih =>
    have hcons : data_keys g v.dev x i (n + 1) =
        (if ffs_data_key g v.dev x i ≠ 0 ∧ ffs_data_key g v.dev x i < g.num_blocks then
          [ffs_data_key g v.dev x i] else []) ++ data_keys g v.dev x (i + 1) n := by
      rw [data_keys, range'_succ, map_cons, filter_cons]
      split
      · rename_i hk
        rw [if_pos (by simpa using hk)]
        rfl
      · rename_i hk
        rw [if_neg (by simpa using hk)]
        rfl
    rw [free_data_loop]
    rw [hcons] at hkeys ⊢
    by_cases hdk : ffs_data_key g v.dev x i = 0 ∨ g.num_blocks ≤ ffs_data_key g v.dev x i
    · rw [if_pos hdk, if_neg (by omega), nil_append]
      rw [if_neg (by omega), nil_append] at hkeys
      exact ih h hoff hkeys
    rw [if_neg hdk, if_pos (by omega)]
    rw [if_pos (by omega)] at hkeys
    have hfirst := free_block_freed h (hkeys _ (mem_append_left _ mem_cons_self))
    generalize ffs_free_block g v (ffs_data_key g v.dev x i) = v1 at hfirst ⊢
    have hc := hfirst.changed
    obtain ⟨hhead, hexts⟩ := hoff.same hc
    have hsame : data_keys g v1.dev x (i + 1) n = data_keys g v.dev x (i + 1) n :=
      data_keys_congr h.room hc.touches.size hhead hexts hoff.range
    have hrest := ih (v := v1) (i := i + 1) hc.ok (hoff.changed hc) fun k hk => by
      rw [hsame] at hk
      rw [hc.sys]
      exact hkeys k (mem_append_right _ hk)
    rw [hsame] at hrest
    exact hfirst.trans hrest (fun y hy => mem_append_left _ hy)
      fun y hy => mem_append_right _ hy

lemma free_ext_loop_spec (ext : Nat) (h : BitmapOk g v.dev)
    (hkeys : ∀ k ∈ ext_chain g v.dev n ext, k ∉ sys_blocks g v.dev) :
    Freed g v.dev (free_ext_loop g n v ext).dev (ext_chain g v.dev n ext) := by
  induction n generalizing v ext with
  | zero => exact Freed.refl h _
  | succ n ih =>
    rw [ext_chain] at hkeys ⊢
    rw [free_ext_loop]
    by_cases hext : ext = 0 ∨ g.num_blocks ≤ ext
    · rw [if_pos hext, if_pos hext]
      exact Freed.refl h _
    rw [if_neg hext] at hkeys
    rw [if_neg hext, if_neg hext, read_block_ok (by omega) h.room]
    dsimp only
    have hfirst := free_block_freed h (hkeys ext mem_cons_self)
    generalize ffs_free_block g v ext = v1 at hfirst ⊢
    have hc := hfirst.changed
    have hsame : ∀ k ∈ ext_chain g v.dev n (blk_lw (v.dev.data ext) FFS_LW_EXTENSION),
        SameTable v.dev v1.dev k := fun k hk =>
      SameTable.of_eq (hc.touches.keep _ fun hp =>
        hkeys k (mem_cons_of_mem _ hk) (page_mem_sys hp))
    have hrest := ih (v := v1) (blk_lw (v.dev.data ext) FFS_LW_EXTENSION) hc.ok fun k hk => by
      rw [ext_chain_congr hsame] at hk
      rw [hc.sys]
      exact hkeys k (mem_cons_of_mem _ hk)
    rw [ext_chain_congr hsame] at hrest
    exact hfirst.trans hrest (fun y hy => by simpa using .inl (mem_singleton.mp hy))
      fun y hy => mem_cons_of_mem _ hy

/-- The header and the blocks of the file are no blocks of the bitmap. -/
structure OffSys (g : Geom) (d : BlockDev) (x : Nat) : Prop where
  range : x < g.num_blocks
  header : x ∉ sys_blocks g d
  blocks : ∀ k ∈ file_blocks g d x, k ∉ sys_blocks g d

lemma OffSys.offPages (h : OffSys g d x) : OffPages g d x :=
  ⟨h.range, fun hc => h.header (page_mem_sys hc), fun k hk hc =>
    h.blocks k (mem_append_left _ hk) (page_mem_sys hc)⟩

/-- Everything that is freed when an entry is deleted. -/
lemma free_entry_spec (h : BitmapOk g v.dev) (hs : Sound v.dev x) (hx : x < g.num_blocks)
    (hhead : x ∉ sys_blocks g v.dev) (hoff : t.is_file = true → OffSys g v.dev x) :
    Freed g v.dev (free_entry g v x t).dev
      (x :: if t.is_file = true then file_blocks g v.dev x else []) := by
  unfold free_entry
  by_cases ht : t.is_file = true
  · have ho := hoff ht
    have hdata := free_data_loop_spec (i := 0) (n := ffs_data_count g v.dev x) h ho.offPages
      fun k hk => ho.blocks k (mem_append_right _ hk)
    dsimp only
    rw [if_pos ht, if_pos ht]
    generalize free_data_loop g x (ffs_data_count g v.dev x) v 0 = v1 at hdata ⊢
    have hc := hdata.changed
    obtain ⟨hsh, hse⟩ := ho.offPages.same hc
    have hsound : Sound v1.dev x := hsh.sound.trans hs
    rw [read_hdr_ok hx hc.ok.room hsound]
    dsimp only
    rw [block_lw (by decide)]
    have hexts : file_exts g v1.dev x = file_exts g v.dev x :=
      file_exts_congr hsh hse
    have hext := free_ext_loop_spec (n := 512) (blk_lw (v1.dev.data x) FFS_LW_EXTENSION) hc.ok
      fun k hk => by
        rw [hc.sys]
        exact ho.blocks k (mem_append_left _ (hexts ▸ hk))
    change Freed g v1.dev (ffs_free_ext_chain g v1 _).dev (file_exts g v1.dev x) at hext
    rw [hexts] at hext
    generalize ffs_free_ext_chain g v1 (blk_lw (v1.dev.data x) FFS_LW_EXTENSION) = v2 at hext ⊢
    have hlast := free_block_freed (x := x) hext.changed.ok
      (by rw [hext.changed.sys, hc.sys]; exact hhead)
    have htwo : Freed g v.dev v2.dev (file_blocks g v.dev x) := hdata.trans hext
      (fun y hy => mem_append_right _ hy) fun y hy => mem_append_left _ hy
    exact htwo.trans hlast (fun y hy => mem_cons_of_mem _ hy)
      fun y hy => by simpa using .inl (mem_singleton.mp hy)
  · dsimp only
    rw [if_neg ht, if_neg ht]
    exact free_block_freed h hhead

/-! ## Emptying a file -/

/-- The byte belongs to the type, the name, the link or the directory of a header. -/
def HeadByte (j : Nat) : Prop :=
  j / 4 = 0 ∨ (108 ≤ j / 4 ∧ j / 4 < 116) ∨ j / 4 = 124 ∨ j / 4 = 125 ∨ j / 4 = 127

instance (j : Nat) : Decidable (HeadByte j) := inferInstanceAs (Decidable (_ ∨ _ ∨ _ ∨ _ ∨ _))

lemma store_hdr_head (hb : ∀ j, j < SECTOR → HeadByte j → b j = d.data x j) :
    SameHead d (store_hdr d x b) x ∧ next_of (store_hdr d x b) x = next_of d x := by
  have hlw : ∀ i, i < FFS_BLOCK_LONGS → i ≠ 5 → HeadByte (i * 4) →
      blk_lw ((store_hdr d x b).data x) i = blk_lw (d.data x) i := by
    intro i hi h5 hh
    rw [store_hdr_lw hi h5]
    refine blk_lw_congr fun k hk => hb _ ?_ ?_
    · unfold FFS_BLOCK_LONGS at hi
      unfold SECTOR
      omega
    · unfold HeadByte at hh ⊢
      omega
  refine ⟨⟨fun _ => store_hdr_sound, hlw _ (by decide) (by decide) (by decide), ?_,
    hlw _ (by decide) (by decide) (by decide), fun j h1 h2 => ?_⟩,
    hlw _ (by decide) (by decide) (by decide)⟩
  · rw [type_of, type_of, hlw _ (by decide) (by decide) (by decide)]
  have hj : j < SECTOR := by
    unfold SECTOR
    omega
  rw [store_hdr_byte hj (by omega), hb j hj (by unfold HeadByte; omega)]

lemma clear_ptrs_other (hj : ∀ i, trim ≤ i → i < high → j / 4 ≠ 77 - i) :
    clear_ptrs b trim high j = b j := by
  refine foldlRecOn (motive := fun c : Buf => c j = b j) _ _ rfl fun c hc i hi => ?_
  have := mem_range.mp hi
  exact (put32_outside (hj _ (le_self_add) (by omega))).trans hc

lemma clear_ptrs_outside (hh : high ≤ HT_SIZE) (hj : j / 4 < 6 ∨ 78 ≤ j / 4) :
    clear_ptrs b trim high j = b j := by
  unfold HT_SIZE at hh
  exact clear_ptrs_other fun i _ _ => by omega

/-- The bitmap is the same after a block outside of it is written. -/
lemma BitmapOk.store (h : BitmapOk g d) (hx : x ∉ sys_blocks g d) :
    SameBitmap g d (d.store x b 1) := by
  refine h.keep rfl (fun i _ _ => ?_) fun k hk => ?_
  · rw [store_ne fun hc => hx (by rw [← hc]; exact root_mem_sys)]
  refine store_ne fun hc => hx ?_
  rcases hk with hk | hk
  · exact hc ▸ index_mem_sys hk
  · exact hc ▸ page_mem_sys hk

lemma BitmapOk.store_hdr (h : BitmapOk g d) (hx : x ∉ sys_blocks g d) :
    SameBitmap g d (ffs.store_hdr d x b) := h.store hx

/-- The file `x` is emptied. Nothing but its header and the bitmap changes. -/
structure Emptied (g : Geom) (d d' : BlockDev) (x : Nat) : Prop where
  ok : BitmapOk g d'
  sys : sys_blocks g d' = sys_blocks g d
  pages_eq : pages g d' = pages g d
  size : d'.num_sectors = d.num_sectors
  free : ∀ y, is_free g d' y = true → is_free g d y = true ∨ y ∈ file_blocks g d x
  keep : ∀ k, k ∉ pages g d → k ≠ x → d'.data k = d.data k
  head : SameHead d d' x
  next : next_of d' x = next_of d x
  high : blk_lw (d'.data x) FFS_LW_HIGH_SEQ = 0
  ext : blk_lw (d'.data x) FFS_LW_EXTENSION = 0

lemma Freed.emptied (hf : Freed g d d' bs) (hx : x ∉ sys_blocks g d)
    (hbs : ∀ y ∈ bs, y ∈ file_blocks g d x) (hb : ∀ j, j < SECTOR → HeadByte j → b j = d.data x j)
    (hhigh : blk_lw b FFS_LW_HIGH_SEQ = 0) (hext : blk_lw b FFS_LW_EXTENSION = 0) :
    Emptied g d (store_hdr d' x b) x := by
  have hc := hf.changed
  have hpage : x ∉ pages g d := fun hp => hx (page_mem_sys hp)
  have hsame : d'.data x = d.data x := hc.touches.keep _ hpage
  have hx' : x ∉ sys_blocks g d' := by rwa [hc.sys]
  have hbm := hc.ok.store_hdr (b := b) hx'
  obtain ⟨hhead, hnext⟩ := store_hdr_head (d := d') (x := x) (b := b) fun j hj hh => by
    rw [hsame]
    exact hb j hj hh
  refine ⟨hbm.ok, hbm.sys.trans hc.sys, hbm.pages_eq.trans hc.pages_eq, hc.touches.size,
    fun y hy => ?_,
    fun k hk hkx => ?_, ?_, ?_, ?_, ?_⟩
  · rw [hbm.free] at hy
    exact (hf.free y hy).imp_right (hbs y)
  · rw [store_hdr_ne hkx]
    exact hc.touches.keep _ hk
  · exact (SameHead.of_eq hsame).trans hhead
  · rw [hnext, next_of, hsame]
    rfl
  · rw [store_hdr_lw (by decide) (by decide), hhigh]
  · rw [store_hdr_lw (by decide) (by decide), hext]

/-- A later change of the header that leaves what `Emptied` reads. -/
lemma Emptied.store (h : Emptied g d d' x) (hx : x ∉ sys_blocks g d)
    (hb : ∀ j, j < SECTOR → HeadByte j ∨ j / 4 = 2 ∨ j / 4 = 126 → b j = d'.data x j) :
    Emptied g d (store_hdr d' x b) x := by
  have hx' : x ∉ sys_blocks g d' := by rwa [h.sys]
  have hbm := h.ok.store_hdr (b := b) hx'
  obtain ⟨hhead, hnext⟩ := store_hdr_head (d := d') (x := x) (b := b) fun j hj hh =>
    hb j hj (.inl hh)
  have hlw : ∀ i, i < FFS_BLOCK_LONGS → i = 2 ∨ i = 126 →
      blk_lw ((store_hdr d' x b).data x) i = blk_lw (d'.data x) i := by
    intro i hi h2
    rw [store_hdr_lw hi (by omega)]
    refine blk_lw_congr fun k hk => hb _ ?_ (.inr (by omega))
    unfold SECTOR
    omega
  refine ⟨hbm.ok, hbm.sys.trans h.sys, hbm.pages_eq.trans h.pages_eq, h.size, fun y hy => ?_,
    fun k hk hkx => ?_, h.head.trans hhead, hnext.trans h.next,
    (hlw _ (by decide) (.inl rfl)).trans h.high, (hlw _ (by decide) (.inr rfl)).trans h.ext⟩
  · rw [hbm.free] at hy
    exact h.free y hy
  · rw [store_hdr_ne hkx]
    exact h.keep k hk hkx

lemma write_block_ok (hk : k + 1 ≤ v.dev.num_sectors) :
    write_block v k b = { v with dev := v.dev.store k b 1 } := by
  rw [write_block, blockdev_write_ok hk]
  rfl

section empty

variable (hh : HeaderOk g v.dev x) (ho : OffSys g v.dev x) (hself : x ∉ file_blocks g v.dev x)
include hh ho hself

/-- The pointer tables of the file are cut off at the header. -/
lemma trim_all_spec (hf : Freed g v.dev v'.dev bs)
    (hbs : ∀ y ∈ bs, y ∈ file_blocks g v.dev x)
    (hhigh : blk_lw (v.dev.data x) FFS_LW_HIGH_SEQ ≠ 0) :
    Emptied g v.dev (ffs_trim_ptrs g v' x 0).dev x := by
  have hc := hf.changed
  have hroom := hc.ok.room
  have hin := hh.range
  have hsame : v'.dev.data x = v.dev.data x := hc.touches.keep _ ho.offPages.header
  obtain ⟨hst, hse⟩ := ho.offPages.same hc
  have hexts := file_exts_congr hst hse
  have hhigh' : high_of (block v'.dev x) ≠ 0 := by
    rw [high_of_block, hsame]
    unfold HT_SIZE
    omega
  have hle : high_of (block v'.dev x) ≤ HT_SIZE := min_le_right _ _
  rw [ffs_trim_ptrs, trim_loop, if_neg (by omega),
    read_hdr_ok hin.2 hroom (hst.sound.trans hh.sound)]
  dsimp only
  rw [if_pos (by omega), Nat.sub_self, block_lw (by decide)]
  -- the header with its table cleared
  have hbyte : ∀ j, j < SECTOR → ¬ (6 ≤ j / 4 ∧ j / 4 < 78) → j / 4 ≠ 2 →
      blk_put32 (clear_ptrs (block v'.dev x) 0 (high_of (block v'.dev x))) FFS_LW_HIGH_SEQ 0 j =
        v.dev.data x j := by
    intro j hj h6 h2
    rw [put32_outside (i := FFS_LW_HIGH_SEQ) h2, clear_ptrs_outside hle (by omega),
      block_apply hj, hsame]
  have hzero : blk_lw (blk_put32 (clear_ptrs (block v'.dev x) 0 (high_of (block v'.dev x)))
      FFS_LW_HIGH_SEQ 0) FFS_LW_HIGH_SEQ = 0 := lw_put32_same (by decide)
  generalize blk_put32 (clear_ptrs (block v'.dev x) 0 (high_of (block v'.dev x)))
    FFS_LW_HIGH_SEQ 0 =
    b at hbyte hzero ⊢
  have hextw : blk_lw b FFS_LW_EXTENSION = blk_lw (v.dev.data x) FFS_LW_EXTENSION := by
    refine blk_lw_congr fun k hk => hbyte _ ?_ ?_ ?_ <;> unfold FFS_LW_EXTENSION
    · unfold SECTOR
      omega
    · omega
    · omega
  by_cases hext : blk_lw (v'.dev.data x) FFS_LW_EXTENSION = 0
  · rw [if_pos hext, write_block_ok (by omega)]
    refine hf.emptied ho.header hbs (fun j hj hh => hbyte j hj ?_ ?_) hzero ?_
    · unfold HeadByte at hh
      omega
    · unfold HeadByte at hh
      omega
    · rw [hextw, ← hsame, hext]
  rw [if_neg hext, write_block_ok (by omega)]
  have hemp : Emptied g v.dev (store_hdr v'.dev x (blk_put32 b FFS_LW_EXTENSION 0)) x := by
    refine hf.emptied ho.header hbs (fun j hj hh => ?_) ?_ (lw_put32_same (by decide))
    · rw [put32_outside (by unfold HeadByte at hh; unfold FFS_LW_EXTENSION; omega)]
      exact hbyte j hj (by unfold HeadByte at hh; omega) (by unfold HeadByte at hh; omega)
    · rw [lw_put32_ne (by decide), hzero]
  -- the extension blocks are freed from the old link on
  obtain ⟨v2, hv2⟩ : ∃ v2 : Vol, v2 = { v' with
      dev := v'.dev.store x (blk_fix_checksum (blk_put32 b FFS_LW_EXTENSION 0)) 1 } := ⟨_, rfl⟩
  have hdev2 : v2.dev = store_hdr v'.dev x (blk_put32 b FFS_LW_EXTENSION 0) := by
    rw [hv2]
    rfl
  rw [← hdev2] at hemp
  rw [← hv2]
  have hkeep : ∀ k ∈ ext_chain g v'.dev 512 (blk_lw (v'.dev.data x) FFS_LW_EXTENSION),
      SameTable v'.dev v2.dev k := by
    intro k hk
    refine SameTable.of_eq ?_
    rw [hdev2]
    refine store_hdr_ne ?_
    rintro rfl
    exact hself (mem_append_left _ (hexts ▸ hk))
  have hchain := ext_chain_congr hkeep
  have hfree := free_ext_loop_spec (n := 512) (blk_lw (v'.dev.data x) FFS_LW_EXTENSION) hemp.ok
    fun k hk => by
      rw [hchain] at hk
      rw [hemp.sys]
      exact ho.blocks k (mem_append_left _ (hexts ▸ hk))
  rw [hchain] at hfree
  change Freed g v2.dev (ffs_free_ext_chain g v2 _).dev (file_exts g v'.dev x) at hfree
  rw [hexts] at hfree
  generalize ffs_free_ext_chain g v2 (blk_lw (v'.dev.data x) FFS_LW_EXTENSION) = v3 at hfree ⊢
  have hc3 := hfree.changed
  have hx3 : v3.dev.data x = v2.dev.data x := by
    refine hc3.touches.keep _ ?_
    rw [hemp.pages_eq]
    exact ho.offPages.header
  refine ⟨hc3.ok, hc3.sys.trans hemp.sys, hc3.pages_eq.trans hemp.pages_eq,
    hc3.touches.size.trans hemp.size, fun y hy => ?_, fun k hk hkx => ?_,
    hemp.head.trans (SameHead.of_eq hx3), ?_, ?_, ?_⟩
  · rcases hfree.free y hy with hy | hy
    · exact hemp.free y hy
    · exact .inr (mem_append_left _ hy)
  · rw [hc3.touches.keep k (by rw [hemp.pages_eq]; exact hk)]
    exact hemp.keep k hk hkx
  · rw [next_of, hx3]
    exact hemp.next
  · rw [hx3]
    exact hemp.high
  · rw [hx3]
    exact hemp.ext

variable (h : BitmapOk g v.dev)
include h

/-- The data blocks of a file, brought to none. -/
lemma resize_zero_spec
    (hz : blk_lw (v.dev.data x) FFS_LW_HIGH_SEQ = 0 → blk_lw (v.dev.data x) FFS_LW_EXTENSION = 0) :
    ∃ v', resize g v x 0 0 = (v', true) ∧ Emptied g v.dev v'.dev x := by
  have htail : ∀ u : Vol, (if g.is_ofs = true then ffs_ofs_fix_tail g u x 0 0 else u) = u := by
    intro u
    split
    · exact if_pos rfl
    · rfl
  unfold resize
  dsimp only
  rw [if_neg (Nat.not_lt_zero _)]
  by_cases hhigh : blk_lw (v.dev.data x) FFS_LW_HIGH_SEQ = 0
  · -- the file has no data blocks
    have hin := hh.range
    have hcount : ffs_data_count g v.dev x = 0 := by
      rw [ffs_data_count, data_count_loop, if_neg (by omega), hh.read h.room]
      dsimp only
      rw [high_of_block, hhigh, block_lw (by decide), hz hhigh]
      rfl
    rw [hcount, if_neg (lt_irrefl _), htail]
    exact ⟨v, rfl, h, rfl, rfl, rfl, fun _ hy => .inl hy, fun _ _ _ => rfl, SameHead.of_eq rfl, rfl,
      hhigh, hz hhigh⟩
  · have hfree := free_data_loop_spec (i := 0) (n := ffs_data_count g v.dev x) h ho.offPages
      fun k hk => ho.blocks k (mem_append_right _ hk)
    have hpos : 0 < ffs_data_count g v.dev x := by
      have hin := hh.range
      rw [ffs_data_count, data_count_loop, if_neg (by omega), hh.read h.room]
      dsimp only
      rw [high_of_block]
      unfold HT_SIZE
      omega
    rw [if_pos hpos, Nat.sub_zero, htail]
    exact ⟨_, rfl, trim_all_spec hh ho hself hfree (fun y hy => mem_append_right _ hy) hhigh⟩

/-- FFS_SetFileSize empties a file. -/
lemma set_file_size_zero (ht : type_of v.dev x = some t) (hfile : t.is_file = true)
    (hz : blk_lw (v.dev.data x) FFS_LW_HIGH_SEQ = 0 → blk_lw (v.dev.data x) FFS_LW_EXTENSION = 0)
    (now : DateStamp) :
    ∃ v', ffs_set_file_size g v x 0 now = (v', 0) ∧ Emptied g v.dev v'.dev x := by
  obtain ⟨e, hread, _, htype, _⟩ := hh.read_entry h.room ht
  have hneed : u32 (0 + g.payload - 1) / g.payload = 0 := by
    unfold Geom.payload
    split <;> decide
  obtain ⟨v1, hcall, hemp⟩ := resize_zero_spec hh ho hself h hz
  have hin := hh.range
  have hroom := hemp.ok.room
  have hbyte : ∀ j, j < SECTOR → HeadByte j ∨ j / 4 = 2 ∨ j / 4 = 126 →
      put_stamp (blk_put32 (block v1.dev x) FFS_LW_BYTE_SIZE 0) now j = v1.dev.data x j := by
    intro j hj hh
    unfold HeadByte at hh
    unfold FFS_LW_BYTE_SIZE
    rw [put_stamp_outside (by omega), put32_outside (by omega), block_apply hj]
  unfold ffs_set_file_size
  rw [hread]
  dsimp only
  rw [htype, hfile, Bool.not_true, if_neg Bool.false_ne_true, hneed, hcall]
  dsimp only
  rw [put_size, read_hdr_ok hin.2 hroom (hemp.head.sound hh.sound)]
  dsimp only
  rw [write_hdr_ok (by omega)]
  exact ⟨_, rfl, hemp.store ho.header hbyte⟩

end empty

end uaos.ffs
