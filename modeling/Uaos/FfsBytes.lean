-- The bytes of a file and the calls that read, write and resize it, each described by the
-- bytes that the file has after the call.
import Uaos.FfsData

namespace uaos.ffs

open List Nat

variable {fuel : Nat}

variable {g : Geom} {v v' : Vol} {d d' : BlockDev} {b : Buf} {i j k m n x key size pos : Nat}
  {hs hs' ds xs : List Nat} {now : DateStamp}

/-! ## Bytes and blocks -/

lemma payload_eq (g : Geom) : g.payload = 488 ∨ g.payload = 512 :=
  (payload_cases g).imp (·.2.1) (·.2.1)

lemma payload_pos (g : Geom) : 0 < g.payload := by
  rcases payload_eq g with hp | hp <;> omega

/-- The place of a byte in its block. -/
lemma place_lt (g : Geom) (m : Nat) :
    g.data_off ≤ g.data_off + m % g.payload ∧ g.data_off + m % g.payload < SECTOR := by
  unfold SECTOR
  rcases payload_cases g with ⟨_, hp, ho⟩ | ⟨_, hp, ho⟩ <;> rw [hp, ho] <;> omega

lemma block_lt (h : m < n * g.payload) : m / g.payload < n :=
  (div_lt_iff_lt_mul (payload_pos g)).mpr h

lemma fbyte_same (hm : m < ds.length * g.payload)
    (h : ∀ k ∈ ds, ∀ j, g.data_off ≤ j → j < SECTOR → d'.data k j = d.data k j) :
    fbyte g d' ds m = fbyte g d ds m :=
  h _ (getD_mem (block_lt hm)) _ (place_lt g m).1 (place_lt g m).2

lemma fbyte_append (hm : m < ds.length * g.payload) : fbyte g d (ds ++ xs) m = fbyte g d ds m := by
  unfold fbyte
  rw [getD_append_left (block_lt hm)]

lemma fbyte_take (hm : m < n * g.payload) : fbyte g d (ds.take n) m = fbyte g d ds m := by
  unfold fbyte
  rw [getD_take (block_lt hm)]

lemma fbyte_fresh (hx : ∀ k ∈ xs, Fresh g d k) (hle : ds.length * g.payload ≤ m)
    (hm : m < (ds.length + xs.length) * g.payload) : fbyte g d (ds ++ xs) m = 0 := by
  have hlo : ds.length ≤ m / g.payload := (le_div_iff_mul_le (payload_pos g)).mpr hle
  have hhi : m / g.payload < ds.length + xs.length := block_lt hm
  unfold fbyte
  rw [getD_append_right _ _ _ _ hlo]
  exact (hx _ (getD_mem (by omega))).bytes _ (place_lt g m).1 (place_lt g m).2

/-! ## The stored file -/

/-- The tables, the bitmap and the data blocks of a file of `size` bytes. -/
structure Stored (g : Geom) (d : BlockDev) (hs ds : List Nat) (size : Nat) : Prop where
  tables : Tables g d hs ds
  placed : Placed g d (hs ++ ds)
  declared : Declared g d ds size
  fits : size ≤ ds.length * g.payload

/-- No block more than the bytes need. -/
def Tight (g : Geom) (ds : List Nat) (size : Nat) : Prop := ds.length * g.payload < size + g.payload

lemma Stored.count_le (h : Stored g d hs ds size) : ds.length ≤ 18504 := by
  have h1 := h.tables.fits
  have h2 := h.tables.short
  omega

/-- A file without spare blocks has no more of them than one that is not shorter. -/
lemma Tight.length_le {ds' : List Nat} (ht : Tight g ds size) (h : Stored g d hs ds' n)
    (hn : size ≤ n) :
    ds.length ≤ ds'.length := by
  have hfits := h.fits
  unfold Tight at ht
  have hlt : ds.length * g.payload < (ds'.length + 1) * g.payload := by
    rw [add_mul, one_mul]
    omega
  exact Nat.lt_succ_iff.mp (Nat.lt_of_mul_lt_mul_right hlt)

lemma Stored.size_lt (h : Stored g d hs ds size) : size < 2 ^ 24 := by
  have h1 := h.count_le
  have h2 := h.fits
  rcases payload_eq g with hp | hp <;> rw [hp] at h2 <;> lia

/-- Blocks of zeros that are not declared yet leave the bytes. -/
lemma Stored.grown (h : Stored g d hs ds size) (hG : Grown g d d' hs hs' ds xs) :
    Stored g d' hs' (ds ++ xs) size := by
  have hfits := h.fits
  refine ⟨hG.tables, hG.placed, fun ho i hi => ?_, ?_⟩
  · by_cases hlt : i < ds.length
    · rw [getD_append_left hlt]
      exact (hG.keep _ (getD_mem hlt)).header ho _ (h.declared ho i hlt)
    rw [length_append] at hi
    rw [getD_append_right _ _ _ _ (by omega)]
    have hz : min g.payload (size - i * g.payload) = 0 := by
      have : ds.length * g.payload ≤ i * g.payload := mul_le_mul_right _ (by omega)
      omega
    rw [hz]
    exact (hG.fresh _ (getD_mem (by omega))).header ho
  · rw [length_append, add_mul]
    omega

lemma Grown.fbyte (hG : Grown g d d' hs hs' ds xs) (hm : m < (ds.length + xs.length) * g.payload) :
    ffs.fbyte g d' (ds ++ xs) m = if m < ds.length * g.payload then ffs.fbyte g d ds m else 0 := by
  split
  · rename_i hlt
    rw [fbyte_append hlt]
    exact fbyte_same hlt fun k hk => (hG.keep k hk).bytes
  · exact fbyte_fresh hG.fresh (by omega) hm

/-! ## Changing the size -/

/-- The number of blocks for `n` bytes. -/
def blocks_for (g : Geom) (n : Nat) : Nat := (n + g.payload - 1) / g.payload

/-- The file has `n` bytes: the old ones, and zeros behind them. -/
structure Resized (g : Geom) (d d' : BlockDev) (hs hs' ds ds' : List Nat) (size n : Nat) :
    Prop where
  stored : Stored g d' hs' ds' n
  count : ds'.length = blocks_for g n
  head : hs'.getD 0 0 = hs.getD 0 0
  rest : SameRest d d' (hs.getD 0 0)
  total : ds.length ≤ ds'.length →
    free_count g d' + hs'.length + ds'.length = free_count g d + hs.length + ds.length
  bytes : ∀ m, m < n → fbyte g d' ds' m = if m < size then fbyte g d ds m else 0

/-- FFS_SetFileSize gives the file `n` bytes. -/
abbrev Resizes (g : Geom) (v : Vol) (hs ds : List Nat) (size n : Nat) : Prop :=
  ∃ v' hs' ds', resize g v (hs.getD 0 0) (blocks_for g n) n = (v', true) ∧
    Resized g v.dev v'.dev hs hs' ds ds' size n

/-- The bytes behind the end that would come into a file of `n` bytes are zeros, and an
OFS file that needs new blocks ends with its last block. -/
structure GrowsClean (g : Geom) (d : BlockDev) (ds : List Nat) (size n : Nat) : Prop where
  zeros : ∀ m, size ≤ m → m < n → m < ds.length * g.payload → fbyte g d ds m = 0
  whole : g.is_ofs = true → size < n → n ≤ ds.length * g.payload ∨ size = ds.length * g.payload

lemma blocks_for_bounds (hn : n = blocks_for g m) :
    m ≤ n * g.payload ∧ n * g.payload < m + g.payload := by
  unfold blocks_for at hn
  rcases payload_eq g with hp | hp <;> rw [hp] at hn ⊢ <;> lia

/-- A file of as many blocks as it needs: the last block of an OFS file declares its
bytes anew. -/
lemma tail_stored (h : Tables g v.dev hs ds) (hp : Placed g v.dev (hs ++ ds))
    (hcount : ds.length = blocks_for g n) (hd : Declared g v.dev ds size)
    (hfull : ∀ j, j + 1 < ds.length → (j + 1) * g.payload ≤ size) :
    ∃ v', (if g.is_ofs = true then ffs_ofs_fix_tail g v (hs.getD 0 0) ds.length n else v) = v' ∧
      Stored g v'.dev hs ds n ∧ Relabeled g v.dev v'.dev hs ds := by
  obtain ⟨hle, htight⟩ := blocks_for_bounds hcount
  by_cases ho : g.is_ofs = true
  · have hpay := (ofs_payload ho).1
    have hmax : ds.length ≤ 18504 := by
      have h1 := h.fits
      have h2 := h.short
      omega
    have hd' := hd ho
    rw [hpay] at hle htight hfull hd'
    obtain ⟨hrel, hdecl⟩ := fix_tail_spec ho h hp htight (by lia) hd'
    rw [if_pos ho]
    refine ⟨_, rfl, ⟨hrel.tables, hrel.placed, fun _ j hj => ?_, ?_⟩, hrel⟩
    · have := hdecl j hj
      rw [hpay]
      by_cases hlast : j + 1 = ds.length
      · rwa [if_pos hlast] at this
      · rw [if_neg hlast] at this
        have hj := hfull j (by omega)
        rwa [show min 488 (n - j * 488) = min 488 (size - j * 488) by lia]
    · rw [hpay]
      exact hle
  · rw [if_neg ho]
    exact ⟨v, rfl, ⟨h, hp, fun hf => absurd hf ho, hle⟩, Relabeled.refl h hp⟩

section resize

variable (h : Stored g v.dev hs ds size)
include h

/-- The file grows into new blocks. -/
lemma resize_more (hc : GrowsClean g v.dev ds size n) (hlt : ds.length < blocks_for g n)
    (hroom : RoomFor g v.dev hs ds (blocks_for g n)) : Resizes g v hs ds size n := by
  obtain ⟨need, hneed⟩ : ∃ need, need = blocks_for g n := ⟨_, rfl⟩
  obtain ⟨hlast, htight⟩ := blocks_for_bounds hneed
  unfold Resizes
  rw [← hneed] at hlt hroom ⊢
  obtain ⟨v1, hs1, xs, hcall, hxs, hG⟩ :=
    extend_loop_spec (n := need - ds.length) h.tables h.placed fun _ => by
    rwa [show ds.length + (need - ds.length) = need by omega]
  have hlen : (ds ++ xs).length = need := by
    rw [length_append, hxs]
    omega
  have h1 := h.grown hG
  have hmax := h1.count_le
  have hfits := h.fits
  -- the new size lies in the last of the new blocks
  have hold : ds.length * g.payload < n := by
    have := row_le hlt g.payload
    omega
  have hbytes : ∀ m, m < n → fbyte g v1.dev (ds ++ xs) m =
      if m < size then fbyte g v.dev ds m else 0 := by
    intro m hm
    rw [hG.fbyte (by rw [hxs, show ds.length + (need - ds.length) = need by omega]; omega)]
    by_cases hms : m < size
    · rw [if_pos hms, if_pos (by omega)]
    split
    · exact hc.zeros m (by omega) hm ‹_›
    · rfl
  unfold resize
  rw [h.tables.data_count h.placed.left, if_pos hlt, hcall]
  dsimp only
  by_cases ho : g.is_ofs = true
  · have hpay := (ofs_payload ho).1
    rw [if_pos ho]
    have hwhole : size = ds.length * 488 := by
      rw [← hpay]
      rcases hc.whole ho (by omega) with hw | hw
      · omega
      · exact hw
    rw [hpay] at hlast htight hold
    obtain ⟨hrel, hdecl⟩ := declare_loop_spec (v := v1) (i := ds.length) (n := need - ds.length) ho
      h1.tables h1.placed (by omega)
      (show (ds ++ xs).length * 488 < n + 488 by rw [hlen]; exact htight) (by lia)
      fun j hj => h1.declared ho j hj
    rw [hG.head] at hrel hdecl
    refine ⟨_, hs1, ds ++ xs, rfl, ⟨hrel.tables, hrel.placed, fun _ i hi => ?_, ?_⟩,
      hlen.trans hneed, hG.head, ?_,
      fun _ => ?_, fun m hm => ?_⟩
    · have := hdecl i hi
      rw [hpay] at this ⊢
      by_cases hin : ds.length ≤ i
      · rwa [if_pos hin] at this
      · rw [if_neg hin] at this
        rwa [show min 488 (n - i * 488) = min 488 (size - i * 488) by lia]
    · rwa [hlen, hpay]
    · exact hG.rest.trans (SameRest.of_eq (hrel.keep _ (hG.head ▸ getD_mem h1.tables.pos)))
    · rw [hrel.free, length_append]
      have := hG.count
      omega
    · rw [fbyte_same (by rw [hlen, hpay]; omega) hrel.bytes]
      exact hbytes m hm
  · rw [if_neg ho]
    refine ⟨v1, hs1, ds ++ xs, rfl, ⟨h1.tables, h1.placed, fun hf => absurd hf ho, ?_⟩,
      hlen.trans hneed, hG.head,
      hG.rest, fun _ => ?_, hbytes⟩
    · rwa [hlen]
    · rw [length_append]
      have := hG.count
      omega

/-- The file keeps its blocks. -/
lemma resize_same (ht : Tight g ds size) (hc : GrowsClean g v.dev ds size n)
    (heq : ds.length = blocks_for g n) : Resizes g v hs ds size n := by
  have hle := (blocks_for_bounds heq).1
  obtain ⟨v', hcall, hS, hrel⟩ := tail_stored h.tables h.placed heq h.declared fun j hj => by
    have : (j + 2) * g.payload ≤ ds.length * g.payload := mul_le_mul_right _ (by omega)
    unfold Tight at ht
    lia
  refine ⟨v', hs, ds, ?_, hS, heq, rfl, SameRest.of_eq (hrel.keep _ (getD_mem h.tables.pos)),
    fun _ => by rw [hrel.free], fun m hm => ?_⟩
  · unfold resize
    rw [h.tables.data_count h.placed.left, ← heq, if_neg (lt_irrefl _), if_neg (lt_irrefl _), hcall]
  · rw [fbyte_same (by omega) hrel.bytes]
    split
    · rfl
    · exact hc.zeros m (by omega) hm (by omega)

/-- The file loses blocks. -/
lemma resize_less (ht : Tight g ds size) (hlt : blocks_for g n < ds.length) :
    Resizes g v hs ds size n := by
  obtain ⟨need, hneed⟩ : ∃ need, need = blocks_for g n := ⟨_, rfl⟩
  obtain ⟨hle, _⟩ := blocks_for_bounds hneed
  unfold Resizes
  rw [← hneed] at hlt ⊢
  have hlen : (ds.take need).length = need := by
    rw [length_take]
    omega
  have hcut := cut_spec h.tables h.placed hlt
  have hhead : (hs.take (need / 72 + 1)).getD 0 0 = hs.getD 0 0 := getD_take (succ_pos _)
  have hsize : need * g.payload ≤ size := by
    have := row_le hlt g.payload
    unfold Tight at ht
    lia
  unfold resize
  dsimp only
  rw [h.tables.data_count h.placed.left, if_neg (by omega), if_pos hlt]
  generalize ffs_trim_ptrs g (free_data_loop g (hs.getD 0 0) (ds.length - need) v need)
    (hs.getD 0 0) need =
    v1 at hcut ⊢
  have hdecl : Declared g v1.dev (ds.take need) size := by
    intro ho j hj
    rw [hlen] at hj
    rw [getD_take hj]
    have hmem : ds.getD j 0 ∈ ds.take need := getD_take (l := ds) hj ▸ getD_mem (by omega)
    exact (h.declared ho j (by omega)).of_eq (hcut.keep _ hmem)
  obtain ⟨v', hcall, hS, hrel⟩ := tail_stored hcut.tables hcut.placed (hlen.trans hneed) hdecl
    fun j hj => by
      have := row_le (show j < need by omega) g.payload
      lia
  rw [hlen, hhead] at hcall
  refine ⟨v', _, _, by rw [hcall], hS, hlen.trans hneed, hhead, ?_, fun hle => by omega,
    fun m hm => ?_⟩
  · exact hcut.rest.trans (SameRest.of_eq (hrel.keep _ (hhead ▸ getD_mem hcut.tables.pos)))
  · rw [if_pos (by omega), fbyte_same (by rw [hlen]; omega) hrel.bytes,
      fbyte_same (d := v.dev) (by rw [hlen]; omega) fun k hk j _ _ => by rw [hcut.keep k hk],
      fbyte_take (by omega)]

end resize

/-! ## The header -/

/-- The header of a file that says it has `size` bytes. -/
structure FileHead (d : BlockDev) (key size : Nat) : Prop where
  kind : blk_lw (d.data key) FFS_LW_TYPE = FFS_T_HEADER
  type : ∃ t, type_of d key = some t ∧ t.is_file = true
  size : blk_lw (d.data key) FFS_LW_BYTE_SIZE = size

lemma FileHead.same (h : FileHead d key size) (hr : SameRest d d' key) : FileHead d' key size := by
  obtain ⟨t, ht, hfile⟩ := h.type
  refine ⟨(hr _ (by decide)).trans h.kind, ⟨t, ?_, hfile⟩, (hr _ (by decide)).trans h.size⟩
  rw [type_of, hr _ (by decide)]
  exact ht

/-- A file with the header `key`. -/
structure FileOk (g : Geom) (d : BlockDev) (key : Nat) (hs ds : List Nat) (size : Nat) : Prop where
  stored : Stored g d hs ds size
  head : hs.getD 0 0 = key
  header : FileHead d key size
  tight : Tight g ds size

lemma FileOk.key_mem (h : FileOk g d key hs ds size) : key ∈ hs :=
  h.head ▸ getD_mem h.stored.tables.pos

lemma FileOk.headerOk (h : FileOk g d key hs ds size) : HeaderOk g d key := by
  have hs0 := h.stored.tables.sound 0 h.stored.tables.pos
  rw [h.head] at hs0
  exact ⟨h.stored.placed.range _ (mem_append_left _ h.key_mem), hs0, h.header.kind⟩

/-- FFS_ReadEntry gives the size of the file. -/
lemma FileOk.read_entry (h : FileOk g d key hs ds size) :
    ∃ e, ffs_read_entry g d key = some e ∧ e.key = key ∧ e.sec_type.is_file = true ∧
      e.byte_size = size := by
  obtain ⟨t, ht, hfile⟩ := h.header.type
  have hkind := h.headerOk.kind
  rw [type_of] at ht
  rw [ffs_read_entry, h.headerOk.read h.stored.placed.bitmap.room]
  dsimp only
  rw [block_lw (by decide), if_neg (not_not.mpr hkind), block_lw (by decide), ht]
  exact ⟨_, rfl, rfl, hfile, (block_lw (by decide)).trans h.header.size⟩

/-- The new size is written to the header, and the file is left. -/
lemma put_size_spec (h : Stored g v.dev hs ds n) (hhead : FileHead v.dev (hs.getD 0 0) size)
    (ht : Tight g ds n) (now : DateStamp) :
    ∃ v', put_size g v (hs.getD 0 0) n now = some v' ∧ FileOk g v'.dev (hs.getD 0 0) hs ds n ∧
      free_count g v'.dev = free_count g v.dev ∧
      ∀ m, m < n → fbyte g v'.dev ds m = fbyte g v.dev ds m := by
  have hpos := h.tables.pos
  have hmem : hs.getD 0 0 ∈ hs := getD_mem hpos
  have hr := h.placed.left.range _ (getD_mem hpos)
  have hroom := h.placed.bitmap.room
  have hlt := h.size_lt
  have hsmall : n < 2 ^ 32 := by omega
  obtain ⟨b, hbdef⟩ :
    ∃ b, b = put_stamp (blk_put32 (block v.dev (hs.getD 0 0)) FFS_LW_BYTE_SIZE n) now :=
    ⟨_, rfl⟩
  have hb : ∀ i, i < 128 → i ≠ 105 → i ≠ 106 → i ≠ 107 → blk_lw b i =
      if i = 81 then n else blk_lw (v.dev.data (hs.getD 0 0)) i := by
    intro i hi h1 h2 h3
    rw [hbdef, put_stamp_lw (by omega)]
    split
    · rename_i h81
      rw [h81]
      exact lw_put32_same hsmall
    · rename_i h81
      rw [lw_put32_ne (i := FFS_LW_BYTE_SIZE) h81, block_lw hi]
  obtain ⟨d', hd'⟩ : ∃ d', d' = store_hdr v.dev (hs.getD 0 0) b := ⟨_, rfl⟩
  have hlw : ∀ i, i < 128 → i ≠ 5 → i ≠ 105 → i ≠ 106 → i ≠ 107 → blk_lw (d'.data (hs.getD 0 0)) i =
      if i = 81 then n else blk_lw (v.dev.data (hs.getD 0 0)) i := by
    intro i hi h5 h1 h2 h3
    rw [hd', store_hdr_lw hi h5, hb i hi h1 h2 h3]
  have hsame : ∀ i, i < 128 → i ∉ [5, 81, 105, 106, 107] →
      blk_lw (d'.data (hs.getD 0 0)) i = blk_lw (v.dev.data (hs.getD 0 0)) i := by
    intro i hi hno
    simp only [mem_cons, not_mem_nil, or_false, not_or] at hno
    obtain ⟨h5, h81, h1, h2, h3⟩ := hno
    rw [hlw i hi h5 h1 h2 h3, if_neg h81]
  obtain ⟨hp', hbm⟩ := h.placed.store (b := blk_fix_checksum b) (h.placed.left.off _ hmem)
  have hfree := free_count_same hbm
  change Placed g (store_hdr v.dev (hs.getD 0 0) b) _ at hp'
  change free_count g (store_hdr v.dev (hs.getD 0 0) b) = _ at hfree
  rw [← hd'] at hp' hfree
  have htable : ∀ k ∈ hs, SameTable v.dev d' k := by
    intro k _
    by_cases hk : k = hs.getD 0 0
    · rw [hk]
      refine ⟨?_, ?_, ?_, fun i h1 h2 => ?_, ?_⟩
      · rw [hd', show blk_checksum_ok _ = true from store_hdr_sound]
        exact (h.tables.sound 0 hpos).symm
      · exact hsame _ (by decide) (by decide)
      · exact hsame _ (by decide) (by decide)
      · exact hsame _ (by omega) (by simp; omega)
      · exact hsame _ (by decide) (by decide)
    · refine SameTable.of_eq ?_
      rw [hd', store_hdr_ne hk]
  have hdata : ∀ k ∈ ds, d'.data k = v.dev.data k := by
    intro k hk
    rw [hd']
    exact store_hdr_ne fun hc => (nodup_append.mp h.placed.nodup).2.2 _ hmem k hk hc.symm
  refine ⟨{ v with dev := d' }, ?_, ⟨⟨h.tables.same htable, hp', fun ho i hi => ?_, h.fits⟩,
    rfl, ?_, ht⟩,
    hfree, fun m hm => ?_⟩
  · rw [put_size, h.tables.read h.placed.left hpos]
    dsimp only
    rw [write_hdr_ok (by omega), ← hbdef, hd']
  · exact (h.declared ho i hi).of_eq (hdata _ (getD_mem hi))
  · obtain ⟨t, htype, hfile⟩ := hhead.type
    refine ⟨?_, ⟨t, ?_, hfile⟩, ?_⟩
    · exact (hsame _ (by decide) (by decide)).trans hhead.kind
    · rw [type_of, hsame _ (by decide) (by decide)]
      exact htype
    · exact (hlw _ (by decide) (by decide) (by decide) (by decide) (by decide)).trans (if_pos rfl)
  · have := h.fits
    exact fbyte_same (by omega) fun k hk j _ _ => by rw [hdata k hk]

/-- FFS_SetFileSize gives the file its size. -/
lemma set_file_size_spec (h : FileOk g v.dev key hs ds size) (hc : GrowsClean g v.dev ds size n)
    (hn : n ≤ 18504 * g.payload)
    (hroom : ds.length < blocks_for g n → RoomFor g v.dev hs ds (blocks_for g n))
    (now : DateStamp) :
    ∃ v' hs' ds', ffs_set_file_size g v key n now = (v', 0) ∧ FileOk g v'.dev key hs' ds' n ∧
      (ds.length ≤ ds'.length →
        free_count g v'.dev + hs'.length + ds'.length =
          free_count g v.dev + hs.length + ds.length) ∧
      ∀ m, m < n → fbyte g v'.dev ds' m = if m < size then fbyte g v.dev ds m else 0 := by
  obtain ⟨e, hread, _, hfile, _⟩ := h.read_entry
  have hneed : u32 (n + g.payload - 1) / g.payload = blocks_for g n := by
    rw [u32_of_lt ?_, blocks_for]
    rcases payload_eq g with hp | hp <;> rw [hp] at hn ⊢ <;> omega
  obtain ⟨v1, hs', ds', hcall, hR⟩ : Resizes g v hs ds size n := by
    rcases lt_trichotomy ds.length (blocks_for g n) with hlt | heq | hgt
    · exact resize_more h.stored hc hlt (hroom hlt)
    · exact resize_same h.stored h.tight hc heq
    · exact resize_less h.stored h.tight hgt
  rw [h.head] at hcall
  have hkey : hs'.getD 0 0 = key := hR.head.trans h.head
  have hhead1 : FileHead v1.dev (hs'.getD 0 0) size := by
    rw [hkey]
    exact h.header.same (h.head ▸ hR.rest)
  obtain ⟨v2, hput, hF, hfree, hbytes⟩ :=
    put_size_spec hR.stored hhead1 (blocks_for_bounds hR.count).2 now
  rw [hkey] at hput hF
  refine ⟨v2, hs', ds', ?_, hF, fun hle => by rw [hfree, hR.total hle],
    fun m hm => (hbytes m hm).trans (hR.bytes m hm)⟩
  unfold ffs_set_file_size
  rw [hread]
  dsimp only
  rw [hfile, Bool.not_true, if_neg Bool.false_ne_true, hneed, hcall]
  dsimp only
  rw [hput]

/-! ## Reading -/

/-- Bytes of one block. -/
lemma fbyte_add (hj : pos % g.payload + j < g.payload) : fbyte g d ds (pos + j) =
      d.data (ds.getD (pos / g.payload) 0) (g.data_off + (pos % g.payload + j)) := by
  have hdiv : (pos + j) / g.payload = pos / g.payload := by
    rcases payload_eq g with hp | hp <;> rw [hp] at hj ⊢ <;> omega
  have hmod : (pos + j) % g.payload = pos % g.payload + j := by
    rcases payload_eq g with hp | hp <;> rw [hp] at hj ⊢ <;> omega
  rw [fbyte, hdiv, hmod]

section read

variable {len : Nat} (h : Stored g d hs ds size)
include h

lemma Stored.read_part (hpos : pos < size) (hlen : pos + len ≤ size) :
    ffs.read_part g d (hs.getD 0 0) (pos / g.payload) (pos % g.payload)
        (min (g.payload - pos % g.payload) len) =
      some (slice (fbyte g d ds) pos (min (g.payload - pos % g.payload) len)) := by
  have hfits := h.fits
  have hi : pos / g.payload < ds.length := block_lt (by omega)
  have hr := h.placed.range _ (mem_append_right _ (getD_mem hi))
  unfold ffs.read_part
  rw [h.tables.data_key h.placed.left hi, if_neg (by omega),
    read_block_ok hr.2 h.placed.bitmap.room]
  dsimp only
  rcases payload_cases g with ⟨ho, hp, hoff⟩ | ⟨ho, hp, hoff⟩
  · have hd := h.declared ho _ hi
    rw [if_pos ho, block_lw (by decide), hd.kind, block_checksum,
      show blk_checksum_ok _ = true from hd.sound, if_neg (by decide),
        block_lw (by decide), hd.size]
    have hdm := div_add_mod pos g.payload
    rw [hp] at hdm hfits ⊢
    rw [if_neg (by lia), min_eq_left (by lia)]
    refine congrArg some (slice_congr fun j hj => ?_)
    rw [fbyte_add (by rw [hp]; omega), hp, hoff,
      block_apply (by unfold SECTOR FFS_OFS_DATA_HDR; omega)]
    congr 1
    unfold FFS_OFS_DATA_HDR
    omega
  · rw [ho, if_neg Bool.false_ne_true]
    refine congrArg some (slice_congr fun j hj => ?_)
    rw [hp] at hj
    rw [fbyte_add (by rw [hp]; omega), hp, hoff, block_apply (by unfold SECTOR; omega), zero_add]

lemma Stored.read_at_loop (hlen : pos + len ≤ size) (hf : len < fuel) :
    ffs.read_at_loop g d (hs.getD 0 0) fuel pos len = some (slice (fbyte g d ds) pos len) := by
  induction fuel generalizing pos len with
  | zero => omega
  | succ fuel ih =>
    rw [ffs.read_at_loop]
    by_cases h0 : len = 0
    · rw [if_pos h0, h0]
      rfl
    have hlt := h.size_lt
    have hmod := mod_lt pos (payload_pos g)
    have hsmall : pos < 2 ^ 32 := by omega
    rw [if_neg h0]
    dsimp only
    rw [u32_of_lt hsmall, h.read_part (by omega) hlen]
    dsimp only
    rw [slice_length, ih (by omega) (by omega), Option.map_some, ← slice_append]
    congr 2
    omega

end read

/-- FFS_ReadAt gives the bytes of the file. -/
lemma read_at_spec {len : Nat} (h : FileOk g d key hs ds size) (hlen : pos + len < 2 ^ 32) :
    ∃ e, ffs_read_entry g d key = some e ∧
      ffs_read_at g d e pos len = some (.ok (slice (fbyte g d ds) pos (min len (size - pos)))) := by
  obtain ⟨e, hread, hkey, hfile, hsize⟩ := h.read_entry
  refine ⟨e, hread, ?_⟩
  unfold ffs_read_at
  rw [hfile, Bool.not_true, if_neg Bool.false_ne_true, hsize, hkey]
  by_cases hpos : size ≤ pos
  · rw [if_pos hpos, Nat.sub_eq_zero_of_le hpos, Nat.min_zero]
    rfl
  rw [if_neg hpos]
  dsimp only
  rw [u32_of_lt hlen, ← h.head]
  have hwant : (if size < pos + len then size - pos else len) = min len (size - pos) := by
    split <;> omega
  rw [hwant, h.stored.read_at_loop (by omega) (by omega)]
  rfl

/-! ## Writing -/

lemma put_data_spec {off : Nat} (hoff : off + bs.length ≤ g.payload)
    (hd : g.is_ofs = true → DataOk d k n) : ∃ b, put_data g (block d k) off bs = some b ∧
      (∀ j, j < g.payload → (d.store k b 1).data k (g.data_off + j) =
        put (fun j => d.data k (g.data_off + j)) off bs j) ∧
      (g.is_ofs = true → DataOk (d.store k b 1) k (max n (off + bs.length))) := by
  unfold put_data
  rcases payload_cases g with ⟨ho, hp, hdo⟩ | ⟨ho, hp, hdo⟩
  · have hk := hd ho
    rw [if_pos ho, block_lw (by decide), hk.kind, if_neg (by decide), block_lw (by decide), hk.size]
    obtain ⟨c, hc⟩ : ∃ c, c = if n < off + bs.length then
      blk_put32 (block d k) FFS_OFS_LW_SIZE (off + bs.length) else block d k := ⟨_, rfl⟩
    rw [← hc]
    have hcbyte : ∀ j, j < SECTOR → j / 4 ≠ 3 → c j = d.data k j := by
      intro j hj h3
      rw [hc]
      split
      · rw [put32_outside (i := FFS_OFS_LW_SIZE) h3, block_apply hj]
      · rw [block_apply hj]
    have hcput : ∀ i, i < 6 → blk_lw (put c (FFS_OFS_DATA_HDR + off) bs) i = blk_lw c i := by
      intro i hi
      exact blk_lw_congr fun a ha => put_outside (.inl (by unfold FFS_OFS_DATA_HDR; omega))
    refine ⟨_, rfl, fun j hj => ?_, fun _ => store_data_ok ?_ ?_⟩
    · rw [hp] at hj
      rw [store_same (by unfold SECTOR; omega), fix_checksum_outside (by omega)]
      refine put_moved (by unfold FFS_OFS_DATA_HDR; omega) fun _ => ?_
      rw [hcbyte _ (by unfold SECTOR; omega) (by omega)]
    · rw [hcput _ (by decide), ← hk.kind]
      exact blk_lw_congr fun a ha => hcbyte _ (by unfold FFS_OFS_LW_TYPE SECTOR; omega)
        (by unfold FFS_OFS_LW_TYPE; omega)
    · rw [hcput _ (by decide), hc]
      split
      · rw [lw_put32_same (by omega)]
        omega
      · rw [block_lw (by decide), hk.size]
        omega
  · rw [ho, if_neg Bool.false_ne_true]
    refine ⟨_, rfl, fun j hj => ?_, fun hf => absurd hf Bool.false_ne_true⟩
    rw [store_same (by unfold SECTOR; omega)]
    refine put_moved (by omega) fun _ => ?_
    rw [block_apply (by unfold SECTOR; omega)]

/-- The file after bytes are written at `pos`. -/
structure Written (g : Geom) (d d' : BlockDev) (hs hs' ds ds' : List Nat) (size pos : Nat)
    (bs : List UInt8) : Prop where
  stored : Stored g d' hs' ds' (max size (pos + bs.length))
  tight : Tight g ds' (max size (pos + bs.length))
  head : hs'.getD 0 0 = hs.getD 0 0
  rest : SameRest d d' (hs.getD 0 0)
  count : free_count g d' + hs'.length + ds'.length = free_count g d + hs.length + ds.length
  bytes : ∀ m, m < max size (pos + bs.length) → fbyte g d' ds' m = put (fbyte g d ds) pos bs m

/-- Bytes are put into one block of the file. -/
lemma put_block_spec (h : Stored g v.dev hs ds size) (hpos : pos ≤ size)
    (hi : pos / g.payload < ds.length) (hoff : pos % g.payload + bs.length ≤ g.payload) :
    ∃ b, put_data g (block v.dev (ds.getD (pos / g.payload) 0)) (pos % g.payload) bs = some b ∧
      Stored g (v.dev.store (ds.getD (pos / g.payload) 0) b 1) hs ds (max size (pos + bs.length)) ∧
      SameBitmap g v.dev (v.dev.store (ds.getD (pos / g.payload) 0) b 1) ∧
      (∀ y ∈ hs, (v.dev.store (ds.getD (pos / g.payload) 0) b 1).data y = v.dev.data y) ∧
      ∀ m, m < ds.length * g.payload →
        fbyte g (v.dev.store (ds.getD (pos / g.payload) 0) b 1) ds m =
          put (fbyte g v.dev ds) pos bs m := by
  have hnd : ds.Nodup := (nodup_append.mp h.placed.nodup).2.1
  have hfits := h.fits
  obtain ⟨seq, hseq⟩ : ∃ seq, seq = pos / g.payload := ⟨_, rfl⟩
  have hdm := div_add_mod pos g.payload
  rw [← hseq] at hi hdm ⊢
  obtain ⟨b, hput, hbytes, hdata⟩ := put_data_spec (d := v.dev) (k := ds.getD seq 0) hoff
    fun ho => h.declared ho seq hi
  obtain ⟨ht, hp, hb, hkeep⟩ := h.tables.store_data (b := b) h.placed (getD_mem hi)
  refine ⟨b, hput, ⟨ht, hp, fun ho i hid => ?_, ?_⟩, hb, hkeep, fun m hm => ?_⟩
  · -- the block that is written, those before it and those behind it
    have hpay := (ofs_payload ho).1
    rw [hpay] at hdm hoff hfits hdata ⊢
    by_cases his : i = seq
    · rw [his]
      have := hdata ho
      rwa [show max (min 488 (size - seq * 488)) (pos % 488 + bs.length) =
        min 488 (max size (pos + bs.length) - seq * 488) by lia] at this
    · have hother := (h.declared ho i hid).of_eq (store_ne (b := b) (d := v.dev)
        fun hc => his (getD_inj hnd hid hi hc))
      rw [hpay] at hother
      have hmin : min 488 (size - i * 488) = min 488 (max size (pos + bs.length) - i * 488) := by
        rcases lt_or_gt_of_ne his with hlt | hgt <;> lia
      rwa [hmin] at hother
  · have : (seq + 1) * g.payload ≤ ds.length * g.payload := mul_le_mul_right _ (by omega)
    lia
  · by_cases hms : m / g.payload = seq
    · have hlt := mod_lt m (payload_pos g)
      have hmd := div_add_mod m g.payload
      rw [hms] at hmd
      rw [fbyte, hms, hbytes _ hlt]
      refine put_moved (by omega) fun _ => ?_
      rw [fbyte, hms]
    · have hne : ds.getD (m / g.payload) 0 ≠ ds.getD seq 0 := fun hc =>
        hms (getD_inj hnd (block_lt hm) hi hc)
      rw [fbyte, store_ne hne, put_outside ?_]
      · rfl
      · rcases payload_eq g with hpay | hpay <;> rw [hpay] at hms hdm hoff <;> omega

lemma Written.trans {d'' : BlockDev} {hs'' ds' ds'' : List Nat} {as : List UInt8}
    (h : Written g d d' hs hs' ds ds' size pos as)
    (h' : Written g d' d'' hs' hs'' ds' ds'' (max size (pos + as.length)) (pos + as.length) bs) :
    Written g d d'' hs hs'' ds ds'' size pos (as ++ bs) := by
  have hmax : max (max size (pos + as.length)) (pos + as.length + bs.length) =
      max size (pos + (as ++ bs).length) := by
    rw [length_append]
    omega
  refine ⟨hmax ▸ h'.stored, hmax ▸ h'.tight, h'.head.trans h.head, h.rest.trans (h.head ▸ h'.rest),
    h'.count.trans h.count, fun m hm => ?_⟩
  rw [← hmax] at hm
  rw [h'.bytes m hm, ← put_append]
  refine put_congr fun hout => h.bytes m ?_
  omega

section write

variable {bs : List UInt8} {total : Nat}

/-- One round of FFS_WriteAt. -/
lemma write_part_spec (bs : List UInt8) (h : Stored g v.dev hs ds size) (ht : Tight g ds size)
    (hpos : pos ≤ size)
    (hbs : bs ≠ []) (hoff : pos % g.payload + bs.length ≤ g.payload)
    (hroom : ds.length < blocks_for g (pos + bs.length) →
      RoomFor g v.dev hs ds (blocks_for g (pos + bs.length))) :
    ∃ v' hs' ds', write_part g v (hs.getD 0 0) ds.length (pos / g.payload) (pos % g.payload) bs =
        (v', some ds'.length) ∧ Written g v.dev v'.dev hs hs' ds ds' size pos bs := by
  have hlen : 0 < bs.length := length_pos_iff.mpr hbs
  have hdm := div_add_mod pos g.payload
  have hfits := h.fits
  obtain ⟨seq, hseq⟩ : ∃ seq, seq = pos / g.payload := ⟨_, rfl⟩
  unfold Tight at ht
  -- the block of `pos` is there, or it is appended
  obtain ⟨v1, hs1, ds1, hgrown, h1, hin, htight, hhead, hrest, hcount, hbytes⟩ :
      ∃ v1 hs1 ds1, (if ds.length ≤ seq then
          ((ffs_file_append_block g v (hs.getD 0 0) seq).1,
            if (ffs_file_append_block g v (hs.getD 0 0) seq).2 = 0 then none
              else some (ds.length + 1))
        else (v, some ds.length)) = (v1, some ds1.length) ∧ Stored g v1.dev hs1 ds1 size ∧
        seq < ds1.length ∧ Tight g ds1 (max size (pos + bs.length)) ∧ hs1.getD 0 0 = hs.getD 0 0 ∧
        SameRest v.dev v1.dev (hs.getD 0 0) ∧
        free_count g v1.dev + hs1.length + ds1.length = free_count g v.dev + hs.length + ds.length ∧
        ∀ m, m < max size (pos + bs.length) → (m < pos ∨ pos + bs.length ≤ m) →
          fbyte g v1.dev ds1 m = fbyte g v.dev ds m := by
    by_cases hnew : ds.length ≤ seq
    · have hend : seq = ds.length ∧ pos = ds.length * g.payload ∧ size = pos := by
        rcases payload_eq g with hp | hp <;> rw [hp] at hseq hdm hfits ⊢ <;> lia
      obtain ⟨rfl, hpe, hsz⟩ := hend
      have hneed : ds.length < blocks_for g (pos + bs.length) := by
        unfold blocks_for
        rcases payload_eq g with hp | hp <;> rw [hp] at hpe ⊢ <;> lia
      obtain ⟨hmax, hfree⟩ := hroom hneed
      have hfull := h.tables.full
      obtain ⟨v1, hs1, x, hcall, hx0, hG⟩ :=
        append_block_spec h.tables h.placed (by omega) (by omega) (by omega)
      have hlen1 : (ds ++ [x]).length = ds.length + 1 := length_append
      refine ⟨v1, hs1, ds ++ [x], ?_, h.grown hG, by omega, ?_, hG.head, hG.rest, ?_,
        fun m hm hout => ?_⟩
      · rw [if_pos hnew, hcall]
        rw [if_neg hx0, hlen1]
      · unfold Tight
        rw [hlen1, add_mul, one_mul]
        omega
      · have := hG.count
        rw [length_singleton] at this
        omega
      · rw [hG.fbyte, if_pos (by omega)]
        rw [length_singleton, add_mul, one_mul]
        omega
    · refine ⟨v, hs, ds, by rw [if_neg hnew], h, by omega, ?_, rfl, SameRest.of_eq rfl, rfl,
        fun _ _ _ => rfl⟩
      unfold Tight
      omega
  have hmem := getD_mem hin
  have hr := h1.placed.range _ (mem_append_right _ hmem)
  have hroom1 := h1.placed.bitmap.room
  obtain ⟨b, hput, hS, hbm, hkeep, hby⟩ := put_block_spec (v := v1) h1 hpos (hseq ▸ hin) hoff
  rw [← hseq] at hput hS hbm hkeep hby ⊢
  refine ⟨{ v1 with dev := v1.dev.store (ds1.getD seq 0) b 1 }, hs1, ds1, ?_, hS, htight,
    hhead, ?_, ?_,
    fun m hm => ?_⟩
  · unfold write_part
    rw [hgrown]
    dsimp only
    rw [← hhead, h1.tables.data_key h1.placed.left hin, if_neg (by omega),
      read_block_ok hr.2 hroom1]
    dsimp only
    rw [hput]
    dsimp only
    rw [blockdev_write_ok (by omega)]
  · exact hrest.trans (SameRest.of_eq (hkeep _ (hhead ▸ getD_mem h1.tables.pos)))
  · rw [← hcount]
    rw [free_count_same hbm]
  · dsimp only
    rw [hby m (lt_of_lt_of_le hm hS.fits)]
    exact put_congr fun hout => hbytes m hm hout

lemma blocks_for_mono (hmn : m ≤ n) : blocks_for g m ≤ blocks_for g n :=
  Nat.div_le_div_right (by omega)

/-- The loop of FFS_WriteAt. -/
lemma write_at_loop_spec (bs : List UInt8) (h : Stored g v.dev hs ds size) (ht : Tight g ds size)
    (hpos : pos ≤ size) (hf : bs.length < fuel)
    (hroom : ds.length < blocks_for g (pos + bs.length) →
      RoomFor g v.dev hs ds (blocks_for g (pos + bs.length))) :
    ∃ v' hs' ds', write_at_loop g (hs.getD 0 0) fuel v ds.length pos bs = some (v', bs.length) ∧
      Written g v.dev v'.dev hs hs' ds ds' size pos bs := by
  induction fuel generalizing v hs ds size pos bs with
  | zero => omega
  | succ fuel ih =>
    rw [write_at_loop]
    by_cases h0 : bs = []
    · subst h0
      have hmax : max size (pos + ([] : List UInt8).length) = size := by
        rw [length_nil]
        omega
      refine ⟨v, hs, ds, if_pos rfl, hmax.symm ▸ h, hmax.symm ▸ ht, rfl, SameRest.of_eq rfl, rfl,
        fun m _ => ?_⟩
      rw [put_nil]
    have hlt := h.size_lt
    have hmod := mod_lt pos (payload_pos g)
    have hlen : 0 < bs.length := length_pos_iff.mpr h0
    have hsmall : pos < 2 ^ 32 := by omega
    obtain ⟨want, hwant⟩ : ∃ want, want = min (g.payload - pos % g.payload) bs.length := ⟨_, rfl⟩
    have htake : (bs.take want).length = want := by
      rw [length_take]
      omega
    rw [if_neg h0]
    dsimp only
    rw [u32_of_lt hsmall, ← hwant]
    have hle : blocks_for g (pos + (bs.take want).length) ≤ blocks_for g (pos + bs.length) :=
      blocks_for_mono (by omega)
    obtain ⟨v1, hs1, ds1, hcall, hW⟩ := write_part_spec (bs.take want) h ht hpos
      (fun hc => by rw [hc, length_nil] at htake; omega) (by omega)
      fun hlt => (hroom (by omega)).mono hle
    have hdrop : pos + (bs.take want).length + (bs.drop want).length = pos + bs.length := by
      rw [htake, length_drop]
      omega
    obtain ⟨v2, hs2, ds2, hrest, hW2⟩ := ih (bs.drop want) hW.stored hW.tight (le_max_right _ _)
      (by rw [length_drop]; omega) fun hneed => by
        rw [hdrop] at hneed ⊢
        have hcount := hW.count
        have hle1 := ht.length_le hW.stored (le_max_left _ _)
        obtain ⟨hm, hfree⟩ := hroom (by omega)
        exact ⟨hm, by omega⟩
    refine ⟨v2, hs2, ds2, ?_, ?_⟩
    · rw [hcall]
      dsimp only
      rw [hW.head, htake] at hrest
      rw [hrest, Option.map_some]
      congr 2
      omega
    · have := hW.trans hW2
      rwa [take_append_drop] at this

/-- FFS_WriteAt on a file that ends at `pos` or behind it. -/
lemma write_rest_spec (bs : List UInt8) (h : FileOk g v.dev key hs ds size) (hpos : pos ≤ size)
    (hroom : ds.length < blocks_for g (pos + bs.length) →
      RoomFor g v.dev hs ds (blocks_for g (pos + bs.length))) (now : DateStamp) :
    ∃ v' hs' ds', (write_at_loop g key (bs.length + 1) v (ffs_data_count g v.dev key) pos bs).map
        (fun r => (if r.2 ≠ 0 ∧ size < u32 (pos + r.2) then
          (put_size g r.1 key (u32 (pos + r.2)) now).getD r.1 else r.1, (r.2 : Int))) =
        some (v', (bs.length : Int)) ∧ FileOk g v'.dev key hs' ds' (max size (pos + bs.length)) ∧
      ∀ m, m < max size (pos + bs.length) → fbyte g v'.dev ds' m =
        put (fbyte g v.dev ds) pos bs m := by
  obtain ⟨v1, hs1, ds1, hloop, hW⟩ := write_at_loop_spec bs h.stored h.tight
    hpos (lt_succ_self _) hroom
  have hhead : hs1.getD 0 0 = key := hW.head.trans h.head
  have hfh : FileHead v1.dev key size := h.header.same (h.head ▸ hW.rest)
  have hlt := hW.stored.size_lt
  have hsmall : pos + bs.length < 2 ^ 32 := by omega
  rw [h.head, ← h.stored.tables.data_count h.stored.placed.left, h.head] at hloop
  rw [hloop, Option.map_some]
  rw [u32_of_lt hsmall]
  by_cases hbig : bs.length ≠ 0 ∧ size < pos + bs.length
  · have hput := put_size_spec hW.stored
      (show FileHead v1.dev (hs1.getD 0 0) size by rw [hhead]; exact hfh) hW.tight now
    have hmax : max size (pos + bs.length) = pos + bs.length := by omega
    rw [hhead, hmax] at hput
    obtain ⟨v2, hcall, hF, _, hby⟩ := hput
    rw [hmax]
    refine ⟨v2, hs1, ds1, ?_, hF, fun m hm => ?_⟩
    · rw [if_pos hbig, hcall]
      rfl
    · rw [hby m hm]
      exact hW.bytes m (by omega)
  · refine ⟨v1, hs1, ds1, by rw [if_neg hbig], ⟨hW.stored, hhead, ?_, hW.tight⟩, hW.bytes⟩
    rwa [show max size (pos + bs.length) = size by omega]

/-- FFS_WriteAt writes the bytes. A write behind the end fills the gap with zeros. -/
lemma write_at_spec (h : FileOk g v.dev key hs ds size) (hmax : pos + bs.length ≤ 18504 * g.payload)
    (hgap : size < pos → GrowsClean g v.dev ds size pos)
    (hroom : ds.length < blocks_for g (pos + bs.length) →
      RoomFor g v.dev hs ds (blocks_for g (pos + bs.length))) (now : DateStamp) :
    ∃ v' hs' ds', ffs_write_at g v key pos bs now = some (v', (bs.length : Int)) ∧
      FileOk g v'.dev key hs' ds' (max size (pos + bs.length)) ∧
      ∀ m, m < max size (pos + bs.length) → fbyte g v'.dev ds' m =
        put (fun m => if m < size then fbyte g v.dev ds m else 0) pos bs m := by
  obtain ⟨e, hread, _, hfile, hsize⟩ := h.read_entry
  have hmono : blocks_for g pos ≤ blocks_for g (pos + bs.length) :=
    blocks_for_mono (le_add_right _ _)
  unfold ffs_write_at
  rw [hread]
  dsimp only
  rw [hfile, Bool.not_true, if_neg Bool.false_ne_true, hsize]
  by_cases hlt : size < pos
  · -- the gap is filled first
    obtain ⟨v1, hs1, ds1, hcall, hF, htotal, hby⟩ := set_file_size_spec h (hgap hlt) (by omega)
      (fun hneed => (hroom (by omega)).mono hmono) now
    obtain ⟨e1, hread1, _, _, hsize1⟩ := hF.read_entry
    have hle := h.tight.length_le hF.stored hlt.le
    have hroom1 : ds1.length < blocks_for g (pos + bs.length) →
        RoomFor g v1.dev hs1 ds1 (blocks_for g (pos + bs.length)) := by
      intro hneed
      obtain ⟨hm, hfree⟩ := hroom (by omega)
      exact ⟨hm, by omega⟩
    obtain ⟨v2, hs2, ds2, hrest, hF2, hby2⟩ := write_rest_spec bs hF (le_refl _) hroom1 now
    have hmm : max pos (pos + bs.length) = max size (pos + bs.length) := by omega
    rw [hmm] at hF2 hby2
    refine ⟨v2, hs2, ds2, ?_, hF2, fun m hm => ?_⟩
    · simp only [if_pos hlt, hcall, ne_eq, not_true_eq_false, if_false, hread1, hsize1]
      exact hrest
    · rw [hby2 m hm]
      exact put_congr fun hout => hby m (by omega)
  · obtain ⟨v2, hs2, ds2, hrest, hF2, hby2⟩ := write_rest_spec bs h (not_lt.mp hlt) hroom now
    refine ⟨v2, hs2, ds2, ?_, hF2, fun m hm => ?_⟩
    · simp only [if_neg hlt, ne_eq, not_true_eq_false, if_false]
      exact hrest
    · rw [hby2 m hm]
      exact put_congr fun hout => (if_pos (by omega)).symm

end write

end uaos.ffs
