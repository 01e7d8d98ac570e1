-- The data blocks of a file. On an old file system (OFS) every data block has a header
-- with the number of bytes that it holds. This is how a file gets longer and shorter.
import Uaos.FfsTables

namespace uaos.ffs

open List

variable {d'' : BlockDev} {sz : Nat → Nat}

variable {g : Geom} {v v' : Vol} {d d' : BlockDev} {b : Buf} {i j k m n x y key size guard : Nat}
  {hs hs' ds bs xs ys : List Nat}

/-! ## The content of data blocks -/

lemma payload_cases (g : Geom) : (g.is_ofs = true ∧ g.payload = 488 ∧ g.data_off = 24) ∨
      (g.is_ofs = false ∧ g.payload = 512 ∧ g.data_off = 0) := by
  unfold Geom.payload Geom.data_off
  cases g.is_ofs
  · exact .inr ⟨rfl, rfl, rfl⟩
  · exact .inl ⟨rfl, rfl, rfl⟩

lemma ofs_payload (ho : g.is_ofs = true) : g.payload = 488 ∧ g.data_off = 24 := by
  rcases payload_cases g with ⟨_, hp⟩ | ⟨hf, _⟩
  · exact hp
  · rw [hf] at ho
    cases ho

/-- The byte `m` of a file with the data blocks `ds`. -/
def fbyte (g : Geom) (d : BlockDev) (ds : List Nat) (m : Nat) : UInt8 :=
  d.data (ds.getD (m / g.payload) 0) (g.data_off + m % g.payload)

/-- The header of an OFS data block that holds `n` bytes. -/
structure DataOk (d : BlockDev) (k n : Nat) : Prop where
  kind : blk_lw (d.data k) FFS_OFS_LW_TYPE = FFS_T_DATA
  size : blk_lw (d.data k) FFS_OFS_LW_SIZE = n
  sound : Sound d k

lemma DataOk.of_eq (h : DataOk d k n) (he : d'.data k = d.data k) : DataOk d' k n :=
  ⟨by rw [he]; exact h.kind, by rw [he]; exact h.size, by rw [Sound, he]; exact h.sound⟩

/-- The block has the same content, but may be linked to another one. -/
structure SameData (g : Geom) (d d' : BlockDev) (k : Nat) : Prop where
  bytes : ∀ j, g.data_off ≤ j → j < SECTOR → d'.data k j = d.data k j
  header : g.is_ofs = true → ∀ n, DataOk d k n → DataOk d' k n

lemma SameData.of_eq (h : d'.data k = d.data k) : SameData g d d' k :=
  ⟨fun j _ _ => by rw [h], fun _ n hn => hn.of_eq h⟩

lemma SameData.trans (h : SameData g d d' k) (h' : SameData g d' d'' k) : SameData g d d'' k :=
  ⟨fun j h1 h2 => (h'.bytes j h1 h2).trans (h.bytes j h1 h2), fun ho n hn => h'.header ho n
    (h.header ho n hn)⟩

/-- A block that was just added: zeros, none of them declared. -/
structure Fresh (g : Geom) (d : BlockDev) (k : Nat) : Prop where
  bytes : ∀ j, g.data_off ≤ j → j < SECTOR → d.data k j = 0
  header : g.is_ofs = true → DataOk d k 0

lemma Fresh.same (h : Fresh g d k) (hs : SameData g d d' k) : Fresh g d' k :=
  ⟨fun j h1 h2 => (hs.bytes j h1 h2).trans (h.bytes j h1 h2),
    fun ho => hs.header ho 0 (h.header ho)⟩

/-- The checksum of an OFS data block is set when it is written. -/
lemma store_data_ok (hkind : blk_lw b FFS_OFS_LW_TYPE = FFS_T_DATA)
    (hsize : blk_lw b FFS_OFS_LW_SIZE = n) :
    DataOk (d.store k (blk_fix_checksum b) 1) k n :=
  ⟨(store_hdr_lw (by decide) (by decide)).trans hkind,
    (store_hdr_lw (by decide) (by decide)).trans hsize,
    store_hdr_sound⟩

lemma new_data_fresh : Fresh g (d.store k (new_data g key i) 1) k := by
  unfold new_data
  rcases payload_cases g with ⟨ho, _, hoff⟩ | ⟨ho, _, hoff⟩
  · rw [if_pos ho]
    refine ⟨fun j h1 h2 => ?_, fun _ => store_data_ok ?_ ?_⟩
    · rw [hoff] at h1
      rw [store_same h2, fix_checksum_outside (by omega),
        put32_outside (by unfold FFS_OFS_LW_SEQ; omega),
        put32_outside (by unfold FFS_OFS_LW_HDR_KEY; omega),
        put32_outside (by unfold FFS_OFS_LW_TYPE; omega)]
      rfl
    · rw [lw_put32_ne (by decide), lw_put32_ne (by decide), lw_put32_same (by decide)]
    · rw [lw_put32_ne (by decide), lw_put32_ne (by decide), lw_put32_ne (by decide)]
      rfl
  · rw [ho]
    refine ⟨fun j h1 h2 => ?_, fun hc => ?_⟩
    · rw [if_neg Bool.false_ne_true, store_same h2]
      rfl
    · rw [ho] at hc
      cases hc

/-! ## Writing a data block -/

/-- The tables and the bitmap are left when a data block is written. -/
lemma Tables.store_data (h : Tables g d hs ds) (hp : Placed g d (hs ++ ds)) (hk : k ∈ ds) :
    Tables g (d.store k b 1) hs ds ∧ Placed g (d.store k b 1) (hs ++ ds) ∧
      SameBitmap g d (d.store k b 1) ∧ ∀ y ∈ hs, (d.store k b 1).data y = d.data y := by
  have hne : ∀ y ∈ hs, y ≠ k := fun y hy => (nodup_append.mp hp.nodup).2.2 y hy k hk
  have hkeep : ∀ y ∈ hs, (d.store k b 1).data y = d.data y := fun y hy => store_ne (hne y hy)
  obtain ⟨hp', hb⟩ := hp.store (b := b) (hp.off k (mem_append_right _ hk))
  exact ⟨h.same fun y hy => SameTable.of_eq (hkeep y hy), hp', hb, hkeep⟩

/-! ## One more block -/

/-- The file has the blocks `xs` more. -/
structure Grown (g : Geom) (d d' : BlockDev) (hs hs' ds xs : List Nat) : Prop where
  tables : Tables g d' hs' (ds ++ xs)
  placed : Placed g d' (hs' ++ (ds ++ xs))
  head : hs'.getD 0 0 = hs.getD 0 0
  rest : SameRest d d' (hs.getD 0 0)
  keep : ∀ k ∈ ds, SameData g d d' k
  fresh : ∀ k ∈ xs, Fresh g d' k
  count : free_count g d' + hs'.length + xs.length = free_count g d + hs.length

lemma Grown.refl (h : Tables g d hs ds) (hp : Placed g d (hs ++ ds)) : Grown g d d hs hs ds [] :=
  ⟨by rwa [append_nil], by rwa [append_nil], rfl, SameRest.of_eq rfl, fun _ _ => SameData.of_eq rfl,
    fun _ hk => absurd hk not_mem_nil, rfl⟩

lemma Grown.trans {hs'' : List Nat} (h : Grown g d d' hs hs' ds xs)
    (h' : Grown g d' d'' hs' hs'' (ds ++ xs) ys) : Grown g d d'' hs hs'' ds (xs ++ ys) := by
  refine ⟨append_assoc .. ▸ h'.tables, append_assoc ds xs ys ▸ h'.placed, h'.head.trans h.head,
    h.rest.trans (h.head ▸ h'.rest), fun k hk => ?_, fun k hk => ?_, ?_⟩
  · exact (h.keep k hk).trans (h'.keep k (mem_append_left _ hk))
  · rcases mem_append.mp hk with hk | hk
    · exact (h.fresh k hk).same (h'.keep k (mem_append_right _ hk))
    · exact h'.fresh k hk
  · have h1 := h.count
    have h2 := h'.count
    rw [length_append]
    omega

/-- The link of the last data block to the new one changes nothing else. -/
lemma chain_data_spec (h : Tables g v.dev hs (ds ++ [x])) (hp : Placed g v.dev (hs ++ (ds ++ [x])))
    (hv : chain_data g v (hs.getD 0 0) ds.length x = v') :
    Tables g v'.dev hs (ds ++ [x]) ∧ Placed g v'.dev (hs ++ (ds ++ [x])) ∧
      SameBitmap g v.dev v'.dev ∧ (∀ y ∈ hs, v'.dev.data y = v.dev.data y) ∧
      ∀ k ∈ ds ++ [x], SameData g v.dev v'.dev k := by
  subst hv
  unfold chain_data
  by_cases hlink : g.is_ofs = true ∧ 0 < ds.length
  · rw [if_pos hlink]
    have hlt : ds.length - 1 < (ds ++ [x]).length := by
      rw [length_append]
      omega
    have hmem : (ds ++ [x]).getD (ds.length - 1) 0 ∈ ds ++ [x] := getD_mem hlt
    have hr := hp.range _ (mem_append_right _ hmem)
    have hroom := hp.bitmap.room
    rw [h.data_key hp.left hlt]
    generalize (ds ++ [x]).getD (ds.length - 1) 0 = k at hmem hr
    rw [if_neg (by omega), read_block_ok hr.2 hroom]
    dsimp only
    rw [write_block_ok (by omega)]
    obtain ⟨ht, hp', hb, hkeep⟩ := h.store_data (b := blk_fix_checksum
      (blk_put32 (block v.dev k) FFS_OFS_LW_NEXT x)) hp hmem
    refine ⟨ht, hp', hb, hkeep, fun y _ => ?_⟩
    by_cases hy : y = k
    · subst hy
      have hoff := (ofs_payload hlink.1).2
      refine ⟨fun j h1 h2 => ?_, fun _ n hn => store_data_ok ?_ ?_⟩
      · dsimp only
        rw [store_same h2, fix_checksum_outside (by omega),
          put32_outside (by unfold FFS_OFS_LW_NEXT; omega), block_apply h2]
      · rw [lw_put32_ne (by decide), block_lw (by decide)]
        exact hn.kind
      · rw [lw_put32_ne (by decide), block_lw (by decide)]
        exact hn.size
    · exact SameData.of_eq (store_ne hy)
  · rw [if_neg hlink]
    exact ⟨h, hp, ⟨hp.bitmap, rfl, rfl, fun _ => rfl⟩, fun _ _ => rfl,
      fun _ _ => SameData.of_eq rfl⟩

/-- `ffs_file_append_block` adds one block of zeros. -/
lemma append_block_spec (h : Tables g v.dev hs ds) (hp : Placed g v.dev (hs ++ ds))
    (hmax : ds.length < 72 * 257) (hfree : 0 < free_count g v.dev)
    (hfull : ds.length = 72 * hs.length → 1 < free_count g v.dev) :
    ∃ v' hs' x, ffs_file_append_block g v (hs.getD 0 0) ds.length = (v', x) ∧ x ≠ 0 ∧
      Grown g v.dev v'.dev hs hs' ds [x] := by
  obtain ⟨v1, x, hcall, hx0, ha⟩ := hp.alloc hfree
  have hxr := ha.placed.range x mem_cons_self
  have hroom1 : g.num_blocks ≤ v1.dev.num_sectors := ha.placed.bitmap.room
  have hxn := (nodup_cons.mp ha.placed.nodup).1
  obtain ⟨d2, hd2⟩ : ∃ d2, d2 = v1.dev.store x (new_data g (hs.getD 0 0) ds.length) 1 := ⟨_, rfl⟩
  obtain ⟨hp2, hb2⟩ := ha.placed.store (b := new_data g (hs.getD 0 0) ds.length)
    (ha.placed.off x mem_cons_self)
  have hfresh : Fresh g d2 x := hd2 ▸ new_data_fresh
  rw [← hd2] at hp2 hb2
  have hsame : ∀ k ∈ hs ++ ds, d2.data k = v.dev.data k := by
    intro k hk
    have hkx : k ≠ x := by
      rintro rfl
      exact hxn hk
    rw [hd2, store_ne hkx, ha.keep k (mem_cons_of_mem _ hk)]
  have h2 : Tables g d2 hs ds := h.same fun k hk => SameTable.of_eq (hsame k (mem_append_left _ hk))
  have hcount2 := free_count_same hb2
  have hcount1 := ha.count
  obtain ⟨v3, hs', happ, hA⟩ := append_ptr_spec (v := { v1 with dev := d2 }) h2 hp2 hmax
    fun hf => by
    dsimp only
    omega
  have hcd := chain_data_spec (v := v3) hA.tables hA.placed rfl
  rw [hA.head] at hcd
  obtain ⟨ht, hp', hb, hkeep, hdata⟩ := hcd
  refine ⟨chain_data g v3 (hs.getD 0 0) ds.length x, hs', x, ?_, hx0, ht, hp', hA.head,
    ?_, ?_, ?_, ?_⟩
  · rw [ffs_file_append_block, hcall]
    dsimp only
    rw [if_neg hx0, blockdev_write_ok (by omega), ← hd2]
    dsimp only
    rw [happ]
  · have hmem : hs.getD 0 0 ∈ hs := getD_mem h.pos
    have hmem' : hs.getD 0 0 ∈ hs' := hA.head ▸ getD_mem hA.tables.pos
    exact ((SameRest.of_eq (hsame _ (mem_append_left _ hmem))).trans hA.rest).trans
      (SameRest.of_eq (hkeep _ hmem'))
  · intro k hk
    have hk' : k ∈ ds ++ [x] := mem_append_left _ hk
    exact ((SameData.of_eq (hsame _ (mem_append_right _ hk))).trans
      (SameData.of_eq (hA.keep k hk'))).trans (hdata k hk')
  · intro k hk
    have hk' : k ∈ ds ++ [x] := mem_append_right _ hk
    rw [mem_singleton] at hk
    subst hk
    exact (hfresh.same (SameData.of_eq (hA.keep k hk'))).same (hdata k hk')
  · have hc3 := hA.count
    have hc4 := free_count_same hb
    dsimp only at hc3
    rw [length_singleton]
    omega

/-- There is room on the volume for `n` data blocks and the tables for them. -/
def RoomFor (g : Geom) (d : BlockDev) (hs ds : List Nat) (n : Nat) : Prop :=
  n ≤ 72 * 257 ∧ n + (n + 71) / 72 ≤ free_count g d + ds.length + hs.length

lemma RoomFor.mono (h : RoomFor g d hs ds n) (hm : m ≤ n) : RoomFor g d hs ds m :=
  ⟨le_trans hm h.1, by have := h.2; omega⟩

/-- The loop of FFS_SetFileSize that adds blocks. -/
lemma extend_loop_spec (h : Tables g v.dev hs ds) (hp : Placed g v.dev (hs ++ ds))
    (hroom : n ≠ 0 → RoomFor g v.dev hs ds (ds.length + n)) :
    ∃ v' hs' xs, extend_loop g (hs.getD 0 0) n v ds.length = (v', true) ∧ xs.length = n ∧
      Grown g v.dev v'.dev hs hs' ds xs := by
  induction n generalizing v hs ds with
  | zero => exact ⟨v, hs, [], rfl, rfl, Grown.refl h hp⟩
  | succ n ih =>
    obtain ⟨hmax, hfree⟩ := hroom (Nat.succ_ne_zero n)
    have hfull := h.full
    obtain ⟨v1, hs1, x, hcall, hx0, hG⟩ := append_block_spec h hp (by omega) (by omega) (by omega)
    have hcount := hG.count
    have hlen : (ds ++ [x]).length = ds.length + 1 := length_append
    rw [length_singleton] at hcount
    obtain ⟨v2, hs2, xs, hrest, hxs, hG2⟩ := ih (v := v1) hG.tables hG.placed fun _ => by
      exact ⟨by omega, by omega⟩
    rw [hG.head, hlen] at hrest
    refine ⟨v2, hs2, [x] ++ xs, ?_, by simp [hxs], hG.trans hG2⟩
    rw [extend_loop, hcall]
    dsimp only
    rw [if_neg hx0, hrest]

/-! ## The sizes that OFS blocks declare -/

/-- The OFS blocks declare the bytes of a file of `size` bytes. -/
def Declared (g : Geom) (d : BlockDev) (ds : List Nat) (size : Nat) : Prop :=
  g.is_ofs = true → ∀ i, i < ds.length →
    DataOk d (ds.getD i 0) (min g.payload (size - i * g.payload))

/-- Only headers of data blocks change. -/
structure Relabeled (g : Geom) (d d' : BlockDev) (hs ds : List Nat) : Prop where
  tables : Tables g d' hs ds
  placed : Placed g d' (hs ++ ds)
  keep : ∀ y ∈ hs, d'.data y = d.data y
  bytes : ∀ k ∈ ds, ∀ j, g.data_off ≤ j → j < SECTOR → d'.data k j = d.data k j
  free : free_count g d' = free_count g d

lemma Relabeled.refl (h : Tables g d hs ds) (hp : Placed g d (hs ++ ds)) : Relabeled g d d hs ds :=
  ⟨h, hp, fun _ _ => rfl, fun _ _ _ _ _ => rfl, rfl⟩

lemma Relabeled.trans (h : Relabeled g d d' hs ds) (h' : Relabeled g d' d'' hs ds) :
    Relabeled g d d'' hs ds :=
  ⟨h'.tables, h'.placed, fun y hy => (h'.keep y hy).trans (h.keep y hy),
    fun k hk j h1 h2 => (h'.bytes k hk j h1 h2).trans (h.bytes k hk j h1 h2), h'.free.trans h.free⟩

/-- The header of one OFS block is written anew, with `n` bytes. -/
lemma Tables.relabel (h : Tables g d hs ds) (hp : Placed g d (hs ++ ds)) (ho : g.is_ofs = true)
    (hsz : ∀ j, j < ds.length → DataOk d (ds.getD j 0) (sz j)) (hi : i < ds.length)
    (hb : ∀ j, 24 ≤ j → j < SECTOR → b j = d.data (ds.getD i 0) j)
    (hkind : blk_lw b FFS_OFS_LW_TYPE = blk_lw (d.data (ds.getD i 0)) FFS_OFS_LW_TYPE)
    (hsize : blk_lw b FFS_OFS_LW_SIZE = n) :
    Relabeled g d (d.store (ds.getD i 0) (blk_fix_checksum b) 1) hs ds ∧
      ∀ j, j < ds.length → DataOk (d.store (ds.getD i 0) (blk_fix_checksum b) 1) (ds.getD j 0)
        (if j = i then n else sz j) := by
  have hnd : ds.Nodup := (nodup_append.mp hp.nodup).2.1
  obtain ⟨ht, hp', hbm, hkeep⟩ := h.store_data (b := blk_fix_checksum b) hp (getD_mem hi)
  refine ⟨⟨ht, hp', hkeep, fun y _ j h1 h2 => ?_, free_count_same hbm⟩, fun j hj => ?_⟩
  · by_cases hy : y = ds.getD i 0
    · rw [(ofs_payload ho).2] at h1
      rw [hy, store_same h2, fix_checksum_outside (by omega), hb j h1 h2]
    · rw [store_ne hy]
  by_cases hji : j = i
  · rw [if_pos hji, hji]
    exact store_data_ok (hkind.trans (hsz i hi).kind) hsize
  · rw [if_neg hji]
    exact (hsz j hj).of_eq (store_ne fun hc => hji (getD_inj hnd hj hi hc))

/-- The loop of FFS_SetFileSize that declares the bytes of new OFS blocks. -/
lemma declare_loop_spec (ho : g.is_ofs = true) (h : Tables g v.dev hs ds)
    (hp : Placed g v.dev (hs ++ ds)) (hn : i + n = ds.length) (hsize : ds.length * 488 < size + 488)
    (h32 : size < 2 ^ 32) (hsz : ∀ j, j < ds.length → DataOk v.dev (ds.getD j 0) (sz j)) :
    Relabeled g v.dev (declare_loop g (hs.getD 0 0) size n v i).dev hs ds ∧
      ∀ j, j < ds.length → DataOk (declare_loop g (hs.getD 0 0) size n v i).dev (ds.getD j 0)
        (if i ≤ j then min 488 (size - j * 488) else sz j) := by
  induction n generalizing v i sz with
  | zero =>
    refine ⟨Relabeled.refl h hp, fun j hj => ?_⟩
    rw [if_neg (by omega)]
    exact hsz j hj
  | succ n ih =>
    have hi : i < ds.length := by omega
    have hmem : ds.getD i 0 ∈ ds := getD_mem hi
    have hr := hp.range _ (mem_append_right _ hmem)
    have hroom := hp.bitmap.room
    rw [declare_loop]
    rw [h.data_key hp.left hi, if_neg (by omega), read_block_ok hr.2 hroom]
    dsimp only
    have h1 : i * 488 < 2 ^ 32 := by lia
    have h2 : i * 488 ≤ size := by lia
    rw [write_block_ok (by omega), (ofs_payload ho).1, u32_of_lt h1, sub32_of_le h2 h32]
    obtain ⟨hrel, hone⟩ := h.relabel (n := min 488 (size - i * 488))
      (b := blk_put32 (block v.dev (ds.getD i 0)) FFS_OFS_LW_SIZE (min (size - i * 488) 488))
        hp ho hsz hi
      (fun j h1 h2 => by rw [put32_outside (by unfold FFS_OFS_LW_SIZE; omega), block_apply h2])
      (by rw [lw_put32_ne (by decide), block_lw (by decide)])
      (by rw [lw_put32_same (by omega), min_comm])
    obtain ⟨hrest, hdecl⟩ := ih (v := { v with dev := _ }) (i := i + 1) hrel.tables hrel.placed
      (by omega) hone
    refine ⟨hrel.trans hrest, fun j hj => ?_⟩
    have := hdecl j hj
    by_cases hji : j = i
    · rw [if_neg (by omega), if_pos hji] at this
      rw [if_pos (by omega), hji]
      rwa [hji] at this
    by_cases hlt : i + 1 ≤ j
    · rw [if_pos hlt] at this
      rwa [if_pos (by omega)]
    · rw [if_neg hlt, if_neg hji] at this
      rwa [if_neg (by omega)]

/-- `ffs_ofs_fix_tail` declares the bytes of the last block. -/
lemma fix_tail_spec (ho : g.is_ofs = true) (h : Tables g v.dev hs ds)
    (hp : Placed g v.dev (hs ++ ds))
    (htight : ds.length * 488 < size + 488) (h32 : size < 2 ^ 32)
    (hsz : ∀ j, j < ds.length → DataOk v.dev (ds.getD j 0) (sz j)) :
    Relabeled g v.dev (ffs_ofs_fix_tail g v (hs.getD 0 0) ds.length size).dev hs ds ∧
      ∀ j, j < ds.length → DataOk (ffs_ofs_fix_tail g v (hs.getD 0 0) ds.length size).dev
        (ds.getD j 0)
        (if j + 1 = ds.length then min 488 (size - j * 488) else sz j) := by
  unfold ffs_ofs_fix_tail
  by_cases h0 : ds.length = 0
  · rw [if_pos h0]
    exact ⟨Relabeled.refl h hp, fun j hj => absurd hj (by omega)⟩
  have hi : ds.length - 1 < ds.length := by omega
  have hmem : ds.getD (ds.length - 1) 0 ∈ ds := getD_mem hi
  have hr := hp.range _ (mem_append_right _ hmem)
  have hroom := hp.bitmap.room
  rw [if_neg h0]
  rw [h.data_key hp.left hi, if_neg (by omega), read_block_ok hr.2 hroom]
  dsimp only
  have h1 : (ds.length - 1) * 488 < 2 ^ 32 := by lia
  have h2 : (ds.length - 1) * 488 ≤ size := by lia
  unfold FFS_OFS_PAYLOAD
  rw [write_block_ok (by omega), u32_of_lt h1, sub32_of_le h2 h32]
  obtain ⟨hrel, hone⟩ := h.relabel (n := min 488 (size - (ds.length - 1) * 488)) hp ho hsz hi
    (b := blk_put32 (blk_put32 (block v.dev (ds.getD (ds.length - 1) 0)) FFS_OFS_LW_SIZE
      (min (size - (ds.length - 1) * 488) 488)) FFS_OFS_LW_NEXT 0)
    (fun j h1 h2 => by
      rw [put32_outside (by unfold FFS_OFS_LW_NEXT; omega),
        put32_outside (by unfold FFS_OFS_LW_SIZE; omega), block_apply h2])
    (by rw [lw_put32_ne (by decide), lw_put32_ne (by decide), block_lw (by decide)])
    (by rw [lw_put32_ne (by decide), lw_put32_same (by omega), min_comm])
  refine ⟨hrel, fun j hj => ?_⟩
  have := hone j hj
  by_cases hji : j + 1 = ds.length
  · obtain rfl : j = ds.length - 1 := by omega
    rw [if_pos hji]
    rwa [if_pos rfl] at this
  · rw [if_neg hji]
    rwa [if_neg (by omega)] at this

/-! ## Fewer blocks -/

lemma getD_take {l : List Nat} (hi : i < n) : (l.take n).getD i 0 = l.getD i 0 := by
  rw [getD_eq_getElem?_getD, getD_eq_getElem?_getD, getElem?_take, if_pos hi]

/-- The table that the cut goes through. -/
lemma Tables.cut (h : Tables g d hs ds) (hnd : hs.Nodup) (hn : n < ds.length)
    (hb : ∀ i, i < 128 → i ≠ 2 → i ≠ 126 → (i < 6 ∨ 77 - n % 72 < i) →
      blk_lw b i = blk_lw (d.data (hs.getD (n / 72) 0)) i)
    (hhigh : blk_lw b FFS_LW_HIGH_SEQ = n % 72) (hext : blk_lw b FFS_LW_EXTENSION = 0) :
    Tables g (store_hdr d (hs.getD (n / 72) 0) b) (hs.take (n / 72 + 1)) (ds.take n) := by
  have hfits := h.fits
  have hshort := h.short
  have hlen : (hs.take (n / 72 + 1)).length = n / 72 + 1 := by
    rw [length_take]
    omega
  have hlen' : (ds.take n).length = n := by
    rw [length_take]
    omega
  obtain ⟨d', hd'⟩ : ∃ d', d' = store_hdr d (hs.getD (n / 72) 0) b := ⟨_, rfl⟩
  rw [← hd']
  have hat : ∀ i, i < 128 → i ≠ 5 → blk_lw (d'.data (hs.getD (n / 72) 0)) i = blk_lw b i := by
    intro i hi h5
    rw [hd', store_hdr_lw hi h5]
  have hne : ∀ i, i < n / 72 → d'.data (hs.getD i 0) = d.data (hs.getD i 0) := by
    intro i hi
    rw [hd']
    exact store_hdr_ne fun hc => absurd (getD_inj hnd (by omega) (by omega) hc) (by omega)
  have hcase : ∀ i, i < n / 72 + 1 → (hs.take (n / 72 + 1)).getD i 0 = hs.getD i 0 :=
    fun i hi => getD_take hi
  refine ⟨by omega, by omega, by omega, by omega, fun i hi => ?_, fun i h0 hi => ?_, fun i hi => ?_,
    fun i hi => ?_, fun i hi => ?_⟩
  · rw [hlen] at hi
    rw [hcase i hi]
    by_cases hil : i = n / 72
    · rw [hil, hd']
      exact store_hdr_sound
    · rw [Sound, hne i (by omega)]
      exact h.sound i (by omega)
  · rw [hlen] at hi
    rw [hcase i hi]
    by_cases hil : i = n / 72
    · rw [hil, hat _ (by decide) (by decide), hb _ (by decide) (by decide) (by decide)
        (.inl (by decide)),
        ← hil]
      exact h.kind i h0 (by omega)
    · rw [hne i (by omega)]
      exact h.kind i h0 (by omega)
  · rw [hlen] at hi
    rw [hcase i hi, hlen']
    by_cases hil : i = n / 72
    · rw [hil, hat _ (by decide) (by decide), hhigh]
      omega
    · rw [hne i (by omega), h.high i (by omega)]
      omega
  · rw [hlen] at hi
    rw [hcase i hi]
    by_cases hil : i = n / 72
    · rw [hil, hat _ (by decide) (by decide), hext, getD_eq_default _ _ (by omega)]
    · rw [hne i (by omega), h.ext i (by omega), hcase _ (by omega)]
  · rw [hlen'] at hi
    rw [hcase _ (by omega), getD_take hi, ← h.ptr i (by omega)]
    by_cases hil : i / 72 = n / 72
    · rw [hil, hat _ (by omega) (by omega), hb _ (by omega) (by omega) (by omega) (.inr (by omega))]
    · rw [hne _ (by omega)]

/-- Blocks that are not among the freed ones stay in use. -/
lemma Placed.freed (h : Placed g d bs) (hf : Freed g d d' xs) (hys : ys.Sublist bs)
    (hdis : ∀ k ∈ ys, k ∉ xs) : Placed g d' ys := by
  refine ⟨hf.changed.ok, h.small, h.nodup.sublist hys, fun k hk => h.range k (hys.subset hk),
    fun k hk => ?_,
    fun k hk => ?_⟩
  · rw [hf.changed.sys]
    exact h.off k (hys.subset hk)
  · exact stays_used hf.free (h.used k (hys.subset hk)) (hdis k hk)

/-- The walk of `ffs_trim_ptrs` goes to the table that the cut goes through. -/
lemma Tables.trim_reach (h : Tables g v.dev hs ds) (hp : Placed g v.dev hs) (hn : n < ds.length)
    (hi : i ≤ n / 72) (hg : n / 72 < i + guard) :
    ∃ m, trim_loop g n guard v (hs.getD i 0) (72 * i) =
      trim_loop g n (m + 1) v (hs.getD (n / 72) 0) (72 * (n / 72)) := by
  induction guard generalizing i with
  | zero => omega
  | succ guard ih =>
    by_cases hil : i = n / 72
    · rw [hil]
      exact ⟨guard, rfl⟩
    have hfits := h.fits
    have hlt : i < hs.length := by omega
    have hr := hp.range _ (getD_mem hlt)
    obtain ⟨m, hm⟩ := ih (i := i + 1) (by omega) (by omega)
    refine ⟨m, ?_⟩
    rw [trim_loop, if_neg (by omega), h.read hp hlt]
    dsimp only
    rw [h.high_of hlt, if_neg (by omega), block_lw (by decide), h.ext i hlt, ← hm]
    congr 1
    omega

/-- The table that the cut goes through is written, and the tables behind it are freed. -/
lemma Tables.trim_form (h : Tables g v.dev hs ds) (hp : Placed g v.dev hs) (hn : n < ds.length) :
    ∃ b, (∀ i, i < 128 → i ≠ 2 → i ≠ 126 → (i < 6 ∨ 77 - n % 72 < i) →
        blk_lw b i = blk_lw (v.dev.data (hs.getD (n / 72) 0)) i) ∧
      blk_lw b FFS_LW_HIGH_SEQ = n % 72 ∧ blk_lw b FFS_LW_EXTENSION = 0 ∧
      ffs_trim_ptrs g v (hs.getD 0 0) n = ffs_free_ext_chain g
        { v with dev := store_hdr v.dev (hs.getD (n / 72) 0) b } (hs.getD (n / 72 + 1) 0) := by
  have hfits := h.fits
  have hshort := h.short
  have ht : n / 72 < hs.length := by omega
  have hr := hp.range _ (getD_mem ht)
  have hroom := hp.bitmap.room
  obtain ⟨m, hm⟩ := h.trim_reach (i := 0) hp hn (Nat.zero_le _) (show n / 72 < 0 + 512 by omega)
  rw [ffs_trim_ptrs, hm, trim_loop, if_neg (by omega), h.read hp ht]
  dsimp only
  rw [h.high_of ht, if_pos (by omega), block_lw (by decide), h.ext _ ht,
    show n - 72 * (n / 72) = n % 72 by omega]
  obtain ⟨b, hbdef⟩ : ∃ b, b = blk_put32 (clear_ptrs (block v.dev (hs.getD (n / 72) 0)) (n % 72)
    (min 72 (ds.length - 72 * (n / 72)))) FFS_LW_HIGH_SEQ (n % 72) := ⟨_, rfl⟩
  rw [← hbdef]
  have hb : ∀ i, i < 128 → i ≠ 2 → (i < 6 ∨ 77 - n % 72 < i) →
      blk_lw b i = blk_lw (v.dev.data (hs.getD (n / 72) 0)) i := by
    intro i hi h2 hpl
    rw [hbdef, lw_put32_ne (i := FFS_LW_HIGH_SEQ) h2, ← block_lw (d := v.dev) hi]
    refine blk_lw_congr fun k hk => clear_ptrs_other fun a _ _ => ?_
    omega
  have hhigh : blk_lw b FFS_LW_HIGH_SEQ = n % 72 := by rw [hbdef, lw_put32_same (by omega)]
  have hextb : blk_lw b FFS_LW_EXTENSION = hs.getD (n / 72 + 1) 0 := by
    rw [← h.ext _ ht]
    exact hb _ (by decide) (by decide) (.inr (by unfold FFS_LW_EXTENSION; omega))
  by_cases hext : hs.getD (n / 72 + 1) 0 = 0
  · refine ⟨b, fun i hi h2 _ => hb i hi h2, hhigh, hextb.trans hext, ?_⟩
    rw [if_pos hext, write_block_ok (by omega), hext, ffs_free_ext_chain, free_ext_loop,
      if_pos (.inl rfl)]
    rfl
  refine ⟨blk_put32 b FFS_LW_EXTENSION 0, fun i hi h2 h126 hpl => ?_, ?_,
    lw_put32_same (by decide), ?_⟩
  · rw [lw_put32_ne (i := FFS_LW_EXTENSION) h126]
    exact hb i hi h2 hpl
  · rw [lw_put32_ne (by decide), hhigh]
  · rw [if_neg hext, write_block_ok (by omega)]
    rfl

/-- The file is cut to its first `n` data blocks. -/
structure Cut (g : Geom) (d d' : BlockDev) (hs ds : List Nat) (n : Nat) : Prop where
  tables : Tables g d' (hs.take (n / 72 + 1)) (ds.take n)
  placed : Placed g d' (hs.take (n / 72 + 1) ++ ds.take n)
  rest : SameRest d d' (hs.getD 0 0)
  keep : ∀ k ∈ ds.take n, d'.data k = d.data k

/-- The blocks behind `n` are freed and cut off. -/
lemma cut_spec (h : Tables g v.dev hs ds) (hp : Placed g v.dev (hs ++ ds)) (hn : n < ds.length) :
    Cut g v.dev (ffs_trim_ptrs g (free_data_loop g (hs.getD 0 0) (ds.length - n) v n)
      (hs.getD 0 0) n).dev
      hs ds n := by
  have hfits := h.fits
  have hshort := h.short
  have hpos := h.pos
  have ht : n / 72 < hs.length := by omega
  have hnd := nodup_append.mp hp.nodup
  have hmem0 : hs.getD 0 0 ∈ hs := getD_mem hpos
  -- the data blocks
  have hexts := h.file_exts hp.left
  have hoff : OffPages g v.dev (hs.getD 0 0) := by
    refine ⟨(hp.left.range _ (getD_mem hpos)).2, hp.left.not_page hmem0, fun k hk => ?_⟩
    rw [hexts] at hk
    exact hp.left.not_page (mem_of_mem_drop hk)
  have hkeys : ∀ k ∈ data_keys g v.dev (hs.getD 0 0) n (ds.length - n), k ∈ ds.drop n := by
    intro k hk
    obtain ⟨i, hi, rfl⟩ := List.mem_map.mp (mem_of_mem_filter hk)
    have hi := mem_range'_1.mp hi
    rw [h.data_key hp.left (by omega), getD_eq_getElem _ _ (show i < ds.length by omega)]
    exact mem_drop_iff_getElem.mpr ⟨i - n, by omega, by congr 1; omega⟩
  have hfree := free_data_loop_spec (i := n) (n := ds.length - n) hp.bitmap hoff fun k hk =>
    hp.off k (mem_append_right _ (mem_of_mem_drop (hkeys k hk)))
  generalize free_data_loop g (hs.getD 0 0) (ds.length - n) v n = v1 at hfree ⊢
  have hc1 := hfree.changed
  have hsame1 : ∀ k ∈ hs ++ ds, v1.dev.data k = v.dev.data k := fun k hk =>
    hc1.touches.keep _ (hp.not_page hk)
  have hdrop : ∀ k ∈ ds.take n, k ∉ ds.drop n := fun k hk hd =>
    (nodup_append.mp ((take_append_drop n ds).symm ▸ hnd.2.1)).2.2 k hk k hd rfl
  have hp1 : Placed g v1.dev (hs ++ ds.take n) := by
    refine hp.freed hfree (List.Sublist.append (List.Sublist.refl _) (take_sublist _ _))
      fun k hk hd => ?_
    rcases mem_append.mp hk with hk | hk
    · exact hnd.2.2 k hk k (mem_of_mem_drop (hkeys k hd)) rfl
    · exact hdrop k hk (hkeys k hd)
  have h1 : Tables g v1.dev hs ds := h.same fun k hk =>
    SameTable.of_eq (hsame1 k (mem_append_left _ hk))
  -- the tables
  obtain ⟨b, hb, hhigh, hext, hform⟩ := h1.trim_form hp1.left hn
  rw [hform]
  obtain ⟨v2, hv2⟩ : ∃ v2 : Vol, v2 = { v1 with dev := store_hdr v1.dev (hs.getD (n / 72) 0) b } :=
    ⟨_, rfl⟩
  have hdev2 : v2.dev = store_hdr v1.dev (hs.getD (n / 72) 0) b := by rw [hv2]
  rw [← hv2]
  obtain ⟨hp2, _⟩ := hp1.store (b := blk_fix_checksum b) (hp1.left.off _ (getD_mem ht))
  change Placed g (store_hdr v1.dev (hs.getD (n / 72) 0) b) _ at hp2
  rw [← hdev2] at hp2
  have h2 := h1.cut (b := b) hnd.1 hn hb hhigh hext
  rw [← hdev2] at h2
  have hsplit := nodup_append.mp ((take_append_drop (n / 72 + 1) hs).symm ▸ hnd.1)
  have htake : ∀ k, k ∈ hs.drop (n / 72 + 1) → k ≠ hs.getD (n / 72) 0 := by
    rintro k hk rfl
    refine hsplit.2.2 _ ?_ _ hk rfl
    rw [← getD_take (Nat.lt_succ_self (n / 72))]
    exact getD_mem (by rw [length_take]; omega)
  have hchain : ext_chain g v2.dev 512 (hs.getD (n / 72 + 1) 0) = hs.drop (n / 72 + 1) := by
    have h1c := h1.ext_chain hp1.left (show hs.length ≤ n / 72 + 1 + 512 by omega)
    rw [← h1c]
    refine ext_chain_congr fun k hk => SameTable.of_eq ?_
    rw [h1c] at hk
    rw [hdev2, store_hdr_ne (htake k hk)]
  have hfree2 := free_ext_loop_spec (n := 512) (hs.getD (n / 72 + 1) 0) hp2.bitmap fun k hk => by
    rw [hchain] at hk
    exact hp2.left.off k (mem_of_mem_drop hk)
  rw [hchain] at hfree2
  change Freed g v2.dev (ffs_free_ext_chain g v2 _).dev _ at hfree2
  generalize ffs_free_ext_chain g v2 (hs.getD (n / 72 + 1) 0) = v3 at hfree2 ⊢
  have hsame3 : ∀ k ∈ hs ++ ds.take n, v3.dev.data k = v2.dev.data k := fun k hk =>
    hfree2.changed.touches.keep _ (hp2.not_page hk)
  refine ⟨h2.same fun k hk => SameTable.of_eq (hsame3 k (mem_append_left _ (mem_of_mem_take hk))),
    hp2.freed hfree2 (List.Sublist.append (take_sublist _ _) (List.Sublist.refl _))
      fun k hk hd => ?_,
    ?_, fun k hk => ?_⟩
  · rcases mem_append.mp hk with hk | hk
    · exact hsplit.2.2 k hk k hd rfl
    · exact hnd.2.2 k (mem_of_mem_drop hd) k (mem_of_mem_take hk) rfl
  · refine ((SameRest.of_eq (hsame1 _ (mem_append_left _ hmem0))).trans ?_).trans
      (SameRest.of_eq (hsame3 _ (mem_append_left _ hmem0)))
    rw [hdev2]
    exact SameRest.store_hdr (fun i hi => hb i (by omega) (by omega) (by omega) (by omega)) _
  · have hkds := mem_of_mem_take hk
    rw [hsame3 k (mem_append_right _ hk), hdev2,
      store_hdr_ne fun hc => hnd.2.2 _ (getD_mem ht) k hkds hc.symm,
        hsame1 k (mem_append_right _ hkds)]

end uaos.ffs
