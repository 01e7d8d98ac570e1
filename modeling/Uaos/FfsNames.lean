-- The entries of an Amiga volume as a tree: what a link, a new name, a new entry, a
-- deleted entry and an emptied file leave of it, and where a path leads.
import Uaos.FfsFiles

namespace uaos.ffs

open List

variable {g : Geom} {v v' : Vol} {d d' : BlockDev} {b : Buf} {i j k m s x y key dir : Nat}
  {as bs xs : List Nat} {name : List UInt8} {t : Tree} {u : Nat → Option SecType} {n : Node}
  {out : Option Nat} {ty : SecType} {now : DateStamp}

/-! ## Paths of directories -/

/-- The header is that of a directory. -/
def dir_at (g : Geom) (d : BlockDev) (k : Nat) : Bool :=
  match ffs_read_entry g d k with
  | some e => e.sec_type.is_dir
  | none => false

/-- Nothing is found when a component is looked up in a header that is no directory. -/
def through_dirs (g : Geom) (d : BlockDev) : Nat → List (List UInt8) → Bool
  | _, [] => true
  | cur, comp :: rest =>
    if comp = [46] then through_dirs g d cur rest
    else if comp = [46, 46] then
      match ffs_read_entry g d cur with
      | some e => through_dirs g d (if e.parent_key ≠ 0 then e.parent_key else cur) rest
      | none => through_dirs g d cur rest
    else
      let next := ffs_lookup g d cur comp
      next = 0 || (dir_at g d cur && through_dirs g d next rest)

/-- The path is a C string whose directories are looked up in directories. -/
def path_ok (g : Geom) (d : BlockDev) (path : List UInt8) : Bool :=
  let p := skip_volume (split_dir (split_rel path))
  !path.contains 0 && through_dirs g d g.root_key (components p.length p)

/-! ## The blocks in use -/

/-- The types of the entries. -/
def Tree.types (t : Tree) (x : Nat) : Option SecType := (t x).map Node.type

/-- The entry is a file. -/
def IsFile (u : Nat → Option SecType) (x : Nat) : Prop := ∃ ty, u x = some ty ∧ ty.is_file = true

/-- The headers of the entries `u` and the blocks of the files are used blocks, and no
block is used twice. -/
structure Owned (g : Geom) (d : BlockDev) (u : Nat → Option SecType) : Prop where
  header : ∀ x, u x ≠ none → x < g.num_blocks ∧ x ∉ sys_blocks g d ∧ is_free g d x = false
  table : ∀ x, IsFile u x →
    blk_lw (d.data x) FFS_LW_HIGH_SEQ = 0 → blk_lw (d.data x) FFS_LW_EXTENSION = 0
  blocks : ∀ x, IsFile u x → ∀ k ∈ file_blocks g d x,
    k ∉ sys_blocks g d ∧ is_free g d k = false ∧ u k = none
  apart : ∀ x y, IsFile u x → IsFile u y → x ≠ y → ∀ k ∈ file_blocks g d x, k ∉ file_blocks g d y

/-- The block is a header in use or a block of a file. -/
def InUse (g : Geom) (d : BlockDev) (u : Nat → Option SecType) (k : Nat) : Prop :=
  u k ≠ none ∨ ∃ x, IsFile u x ∧ k ∈ file_blocks g d x

/-- A change that leaves the tables of the files. -/
structure Kept (g : Geom) (d d' : BlockDev) (u : Nat → Option SecType) : Prop where
  size : d'.num_sectors = d.num_sectors
  sys : sys_blocks g d' = sys_blocks g d
  table : ∀ x, IsFile u x → SameTable d d' x ∧ ∀ k ∈ file_exts g d x, SameTable d d' k

lemma IsFile.ne_none (h : IsFile u x) : u x ≠ none := by
  obtain ⟨ty, hx, _⟩ := h
  simp [hx]

section

variable (h : Owned g d u)
include h

/-- Some entries are left out. -/
lemma Owned.mono {u' : Nat → Option SecType} (hu : ∀ x, u' x ≠ none → u' x = u x) :
    Owned g d u' := by
  have hfile : ∀ x, IsFile u' x → IsFile u x := by
    rintro x ⟨ty, hx, hf⟩
    exact ⟨ty, (hu x (by simp [hx])).symm.trans hx, hf⟩
  refine ⟨fun x hx => h.header x (hu x hx ▸ hx), fun x hx => h.table x (hfile x hx),
    fun x hx k hk => ?_,
    fun x y hx hy => h.apart x y (hfile x hx) (hfile y hy)⟩
  obtain ⟨h1, h2, h3⟩ := h.blocks x (hfile x hx) k hk
  refine ⟨h1, h2, by_contra fun hc => ?_⟩
  exact hc ((hu k hc).trans h3)

lemma Owned.used (hk : InUse g d u k) : k ∉ sys_blocks g d ∧ is_free g d k = false := by
  rcases hk with hk | ⟨x, hx, hk⟩
  · exact (h.header k hk).2
  · exact ⟨(h.blocks x hx k hk).1, (h.blocks x hx k hk).2.1⟩

lemma Owned.unfreed (hb : SameBitmap g d d') (k : Nat)
    (hk : InUse g d u k) : is_free g d' k = false := by
  rw [hb.free]
  exact (h.used hk).2

lemma Owned.not_page (hx : u x ≠ none) : x ∉ pages g d :=
  fun hp => (h.header x hx).2.1 (page_mem_sys hp)

lemma Owned.not_index (hx : u x ≠ none) : x ∉ index_blocks g d :=
  fun hp => (h.header x hx).2.1 (index_mem_sys hp)

lemma Owned.offSys (hx : IsFile u x) : OffSys g d x :=
  ⟨(h.header x hx.ne_none).1, (h.header x hx.ne_none).2.1, fun k hk => (h.blocks x hx k hk).1⟩

lemma Owned.ext_used (hx : IsFile u x) (hk : k ∈ file_exts g d x) :
    k ∉ sys_blocks g d ∧ is_free g d k = false ∧ u k = none :=
  h.blocks x hx k (mem_append_left _ hk)

lemma Kept.file_blocks (hk : Kept g d d' u) (hroom : g.num_blocks ≤ d.num_sectors)
    (hx : IsFile u x) :
    ffs.file_blocks g d' x = ffs.file_blocks g d x := by
  obtain ⟨h1, h2⟩ := hk.table x hx
  exact file_blocks_congr hroom hk.size h1 h2 (h.header x hx.ne_none).1

lemma Kept.inUse (hk : Kept g d d' u) (hroom : g.num_blocks ≤ d.num_sectors)
    (hu : InUse g d' u k) : InUse g d u k := by
  rcases hu with hu | ⟨x, hx, hu⟩
  · exact .inl hu
  · exact .inr ⟨x, hx, Kept.file_blocks h hk hroom hx ▸ hu⟩

/-- A change of the bitmap alone. -/
lemma Owned.kept (hc : Changed g d d') : Kept g d d' u :=
  ⟨hc.touches.size, hc.sys, fun _ hx => (h.offSys hx).offPages.same hc⟩

lemma Owned.frame (hroom : g.num_blocks ≤ d.num_sectors) (hk : Kept g d d' u)
    (hfree : ∀ k, InUse g d u k → is_free g d' k = false) : Owned g d' u := by
  refine ⟨?_, ?_, ?_, ?_⟩
  · intro x hx
    exact ⟨(h.header x hx).1, by rw [hk.sys]; exact (h.header x hx).2.1, hfree x (.inl hx)⟩
  · intro x hx
    have hs := (hk.table x hx).1
    rw [hs.high, hs.ext]
    exact h.table x hx
  · intro x hx k hkx
    rw [Kept.file_blocks h hk hroom hx] at hkx
    obtain ⟨h1, _, h3⟩ := h.blocks x hx k hkx
    exact ⟨by rw [hk.sys]; exact h1, hfree k (.inr ⟨x, hx, hkx⟩), h3⟩
  · intro x y hx hy hne k hkx
    rw [Kept.file_blocks h hk hroom hx] at hkx
    rw [Kept.file_blocks h hk hroom hy]
    exact h.apart x y hx hy hne k hkx

/-- One more header is in use. It has no blocks. -/
lemma Owned.add (hrange : key < g.num_blocks) (hsys : key ∉ sys_blocks g d)
    (hfree : is_free g d key = false) (hout : ¬ InUse g d u key)
    (hroom : g.num_blocks ≤ d.num_sectors)
    (hhigh : blk_lw (d.data key) FFS_LW_HIGH_SEQ = 0)
    (hext : blk_lw (d.data key) FFS_LW_EXTENSION = 0)
    {u' : Nat → Option SecType} (hu : ∀ x, x ≠ key → u' x = u x) : Owned g d u' := by
  have hnil : file_blocks g d key = [] := file_blocks_nil hrange hroom hhigh hext
  have hfile : ∀ x, x ≠ key → IsFile u' x → IsFile u x := by
    intro x hx hf
    rwa [IsFile, hu x hx] at hf
  refine ⟨?_, ?_, ?_, ?_⟩
  · intro x hx
    by_cases hk : x = key
    · exact hk ▸ ⟨hrange, hsys, hfree⟩
    · exact h.header x (hu x hk ▸ hx)
  · intro x hx
    by_cases hk : x = key
    · exact fun _ => hk ▸ hext
    · exact h.table x (hfile x hk hx)
  · intro x hx k hkx
    by_cases hk : x = key
    · rw [hk, hnil] at hkx
      cases hkx
    obtain ⟨h1, h2, h3⟩ := h.blocks x (hfile x hk hx) k hkx
    refine ⟨h1, h2, ?_⟩
    have hne : k ≠ key := by
      rintro rfl
      exact hout (.inr ⟨x, hfile x hk hx, hkx⟩)
    rw [hu k hne, h3]
  · intro x y hx hy hne k hkx
    by_cases hk : x = key
    · rw [hk, hnil] at hkx
      cases hkx
    by_cases hk' : y = key
    · rw [hk', hnil]
      exact not_mem_nil
    · exact h.apart x y (hfile x hk hx) (hfile y hk' hy) hne k hkx

end

/-! ## The volume -/

structure VolOk (g : Geom) (d : BlockDev) (t : Tree) (out : Option Nat) : Prop where
  small : g.num_blocks < 2 ^ 31
  bitmap : BitmapOk g d
  hashed : Hashed g d t out
  owned : Owned g d t.types

lemma types_of (hn : t x = some n) :
    t.types x = some n.type := by rw [Tree.types, hn, Option.map_some]

lemma types_ne_none :
    t.types x ≠ none ↔ t x ≠ none := by rw [Tree.types, ne_eq, Option.map_eq_none_iff]

lemma types_update {o : Option Node} (hx : x ≠ key) :
    (Tree.types (Function.update t key o)) x = t.types x := by
  rw [Tree.types, Tree.types, Function.update_of_ne hx]

section

variable (h : VolOk g d t out)
include h

lemma VolOk.not_page (hk : InTree g t k) : k ∉ pages g d ∧ k ∉ index_blocks g d := by
  rcases hk with rfl | hk
  · refine ⟨h.bitmap.root_page, fun hc => ?_⟩
    have hnd := (nodup_append.mp h.bitmap.nodup).1
    exact (nodup_cons.mp hnd).1 hc
  · have hk' := types_ne_none.mpr hk
    exact ⟨h.owned.not_page hk', h.owned.not_index hk'⟩

lemma VolOk.in_use (hk : InTree g t k) : is_free g d k = false := by
  rcases hk with rfl | hk
  · exact h.bitmap.used _ root_mem_sys
  · exact (h.owned.header k (types_ne_none.mpr hk)).2.2

/-- The blocks of a file are not in the tree. -/
lemma VolOk.not_ext (hx : IsFile t.types x) (hk : k ∈ file_exts g d x) : ¬ InTree g t k := by
  obtain ⟨h1, _, h3⟩ := h.owned.ext_used hx hk
  rintro (rfl | hc)
  · exact h1 root_mem_sys
  · exact types_ne_none.mpr hc h3

lemma VolOk.dir_not_file (hk : IsDir g t k) : ¬ IsFile t.types k := by
  rintro ⟨ty, hx, hf⟩
  rcases hk with rfl | ⟨n, hn, hd⟩
  · exact (h.owned.header _ (by simp [hx])).2.1 root_mem_sys
  · rw [types_of hn] at hx
    cases hx
    rw [SecType.is_dir, hf] at hd
    cases hd

lemma VolOk.not_root (hn : t key = some n) : key ≠ g.root_key := by
  rintro rfl
  exact (h.owned.header _ (by simp [types_of hn])).2.1 root_mem_sys

/-- A change of the bitmap that frees nothing in use. -/
lemma VolOk.changed (hc : Changed g d d')
    (hfree : ∀ k, InUse g d t.types k → is_free g d' k = false) : VolOk g d' t out :=
  ⟨h.small, hc.ok, h.hashed.of_eq fun k hk => hc.touches.keep k (h.not_page hk).1,
    h.owned.frame h.bitmap.room (h.owned.kept hc) hfree⟩

/-! ## Links -/

/-- What a changed link of a slot leaves. -/
lemma VolOk.relink (hd : IsDir g t dir) (hs : s < HT_SIZE)
    (hch : SlotChain d t out dir s (as ++ bs))
    {val : Nat} (hv : val < 2 ^ 32)
    (hd' : d' = put_word d (tail_link dir s as).1 (tail_link dir s as).2 val) :
    BitmapOk g d' ∧ Owned g d' t.types := by
  obtain ⟨m, i, hl, hm⟩ : ∃ m i, tail_link dir s as = (m, i) ∧
      ((m = dir ∧ i = FFS_LW_TABLE + s) ∨ (m ∈ as ++ bs ∧ i = FFS_LW_NEXT_HASH)) := by
    rcases eq_nil_or_concat' as with rfl | ⟨as, x, rfl⟩
    · exact ⟨_, _, tail_link_nil, .inl ⟨rfl, rfl⟩⟩
    · exact ⟨_, _, tail_link_snoc, .inr ⟨by simp, rfl⟩⟩
  have hlink : IsLink i := by
    have : IsLink (tail_link dir s as).2 := tail_link_isLink hs
    rwa [hl] at this
  rw [hl] at hd'
  have hsize : d'.num_sectors = d.num_sectors := by rw [hd']; rfl
  have hlw : ∀ j k, j < FFS_BLOCK_LONGS ∧ j ≠ 5 ∧ j ≠ i →
      blk_lw (d'.data k) j = blk_lw (d.data k) j := by
    rintro j k ⟨hj, h5, hji⟩
    rw [hd']
    by_cases hk : k = m
    · subst hk
      rw [put_word_lw hj h5 hv, if_neg hji]
    · rw [put_word_ne hk]
  have hmtree : InTree g t m := by
    rcases hm with ⟨rfl, _⟩ | ⟨hm, _⟩
    · exact hd.inTree
    · obtain ⟨_, n, hn, _⟩ := (hch.mem m).mp hm
      exact .inr (by simp [hn])
  have hbm : SameBitmap g d d' := by
    refine h.bitmap.keep hsize (fun j h1 h2 => hlw j _ ?_) fun k hk => ?_
    · unfold FFS_BLOCK_LONGS
      unfold IsLink at hlink
      omega
    · rw [hd']
      refine put_word_ne ?_
      rintro rfl
      exact hk.elim (h.not_page hmtree).2 (h.not_page hmtree).1
  refine ⟨hbm.ok, h.owned.frame h.bitmap.room ⟨hsize, hbm.sys,
    fun x hx => ⟨?_, fun k hk => SameTable.of_eq ?_⟩⟩ (h.owned.unfreed hbm)⟩
  · -- only the link to the next entry of a file can change
    by_cases hxm : x = m
    · subst hxm
      obtain ⟨hin, rfl⟩ : x ∈ as ++ bs ∧ i = FFS_LW_NEXT_HASH := by
        rcases hm with ⟨rfl, _⟩ | hm
        · exact absurd hx (h.dir_not_file hd)
        · exact hm
      have hsound := (h.hashed.entries hch x hin).sound
      have hsound' : Sound d' x := by
        rw [hd']
        exact (put_word_head hlink hv x).sound hsound
      refine ⟨hsound'.trans hsound.symm, hlw _ _ (by decide), hlw _ _ (by decide),
        fun j h1 h2 => hlw j _ ?_, hlw _ _ (by decide)⟩
      unfold FFS_BLOCK_LONGS FFS_LW_NEXT_HASH
      omega
    · refine SameTable.of_eq ?_
      rw [hd']
      exact put_word_ne hxm
  · rw [hd']
    refine put_word_ne ?_
    rintro rfl
    exact h.not_ext hx hk hmtree

end

/-- `ffs_hash_insert` puts an entry that is in no chain into the chain of its name. -/
lemma VolOk.insert (h : VolOk g v.dev t (some key)) (hn : t key = some n)
    (h0 : next_of v.dev key = 0) :
    ∃ v', ffs_hash_insert g v n.dir n.name key = some v' ∧ VolOk g v'.dev t none := by
  have hs := hash_lt n.name
  have hd := h.hashed.dirs key n hn
  have hlt : key < 2 ^ 32 := by
    have := (h.hashed.node key n hn).range.2
    have := h.small
    omega
  obtain ⟨xs, hch⟩ := h.hashed.chain n.dir hd _ hs
  have hcall := hash_insert_spec key h.bitmap.room h.small (h.hashed.header hd).1
    (h.hashed.entries hch) hch.links
  obtain ⟨hbm, ho⟩ :=
    h.relink hd hs (by rw [append_nil]; exact hch : SlotChain _ _ _ _ _ (xs ++ [])) hlt rfl
  exact ⟨_, hcall, h.small, hbm, h.hashed.insert hn hch h0 hlt rfl, ho⟩

/-- `ffs_hash_remove` takes an entry out of its chain. -/
lemma VolOk.remove (h : VolOk g v.dev t none) (hn : t key = some n) :
    ∃ v', ffs_hash_remove g v n.dir n.name key = some v' ∧ VolOk g v'.dev t (some key) ∧
      next_of v'.dev key = next_of v.dev key := by
  have hs := hash_lt n.name
  have hd := h.hashed.dirs key n hn
  obtain ⟨xs, hch⟩ := h.hashed.chain n.dir hd _ hs
  obtain ⟨as, bs, rfl⟩ := append_of_mem ((hch.mem key).mpr ⟨by simp, n, hn, rfl, rfl⟩)
  have hcall := hash_remove_spec n.name h.bitmap.room h.small (h.hashed.header hd).1
    (h.hashed.entries hch) hch.links
  obtain ⟨hbm, ho⟩ := h.relink hd hs hch (blk_lw_lt _ _) rfl
  obtain ⟨hh, hnext⟩ := h.hashed.remove hn hch rfl
  exact ⟨_, hcall, ⟨h.small, hbm, hh, ho⟩, hnext⟩

/-! ## Names in headers -/

/-- A name that fits into a header. -/
structure NameOk (name : List UInt8) : Prop where
  pos : name ≠ []
  len : name.length ≤ 30
  chars : ∀ c ∈ name, c ≠ 0

/-- A header that was written for a node. -/
lemma HeaderOk.node (hh : HeaderOk g d key) (hname : NameOk name) (hnamed : name_of d key = name)
    (htype : type_of d key = some ty) (hroot : ty ≠ .root) (hparent : parent_of d key = dir) :
    NodeOk g d key ⟨dir, name, ty⟩ := by
  refine ⟨⟨hh, ⟨ty, htype, hroot⟩, ?_, ?_⟩, hparent, hnamed, htype⟩
  · rw [hnamed]
    exact ⟨length_pos_iff.mpr hname.pos, hname.len⟩
  · rw [hnamed]
    exact hname.chars

lemma bstr_bytes (hlen : name.length ≤ 30) : (bstr_from_c b 432 name 30 432).toNat = name.length ∧
      slice (bstr_from_c b 432 name 30) 433 name.length = name := by
  have hmin : min name.length 30 = name.length := min_eq_left hlen
  have htake : name.take 30 = name := take_of_length_le hlen
  unfold bstr_from_c
  rw [hmin, htake]
  rw [← singleton_append, ← put_append]
  refine ⟨?_, slice_put_same⟩
  rw [put_outside (by simp), put_inside (Nat.le_refl _) (by simp), Nat.sub_self, getD_cons_zero,
    Nat.toUInt8, UInt8.toNat_ofNat']
  omega

lemma bstr_outside (hj : j / 4 < 108 ∨ 116 ≤ j / 4) : bstr_from_c b 432 name 30 j = b j := by
  refine put_outside ?_
  rw [length_cons, length_take]
  omega

/-- The name in a header that was written with `bstr_from_c`. -/
lemma name_of_store {b0 : Buf} (hlen : name.length ≤ 30)
    (hb : ∀ j, 432 ≤ j → j < 464 → b j = bstr_from_c b0 432 name 30 j) :
    name_of (store_hdr d k b) k = name := by
  have hbyte : ∀ j, 432 ≤ j → j < 464 → (store_hdr d k b).data k j =
    bstr_from_c b0 432 name 30 j := by
    intro j h1 h2
    rw [store_hdr_byte (by unfold SECTOR; omega) (by omega), hb j h1 h2]
  obtain ⟨hl, hs⟩ := bstr_bytes (b := b0) hlen
  rw [name_of, hbyte 432 (by omega) (by omega), hl]
  refine Eq.trans (slice_congr fun i hi => ?_) hs
  exact hbyte _ (by omega) (by omega)

/-- The block before its name, its directory and its time are patched. -/
lemma patch_outside (hj : j / 4 < 105 ∨ (116 ≤ j / 4 ∧ j / 4 ≠ 125)) :
    put_stamp (patch_name b name dir) now j = b j := by
  unfold patch_name FFS_LW_PARENT
  rw [put_stamp_outside (by omega), put32_outside (by omega)]
  refine (bstr_outside (by omega)).trans (put_outside ?_)
  rw [length_replicate]
  unfold FFS_LW_NAME
  omega

lemma patch_name_bytes (h1 : 432 ≤ j) (h2 : j < 464) : put_stamp (patch_name b name dir) now j =
      bstr_from_c (put b (FFS_LW_NAME * 4) (List.replicate 32 0)) 432 name 30 j := by
  unfold patch_name FFS_LW_PARENT
  rw [put_stamp_outside (by omega)]
  exact put32_outside (by omega)

lemma patch_parent (hd : dir < 2 ^ 32) :
    blk_lw (put_stamp (patch_name b name dir) now) FFS_LW_PARENT = dir := by
  rw [put_stamp_lw (by decide)]
  exact lw_put32_same hd

lemma types_moved (hn : t key = some n) :
    Tree.types (Function.update t key (some ⟨dir, name, n.type⟩)) = t.types := by
  funext x
  by_cases hx : x = key
  · rw [hx, types_of hn, Tree.types, Function.update_self]
    rfl
  · exact types_update hx

lemma IsDir.moved (hn : t key = some n) (hk : IsDir g t k) :
    IsDir g (Function.update t key (some ⟨dir, name, n.type⟩)) k := by
  rcases hk with hr | ⟨m, hm, hmd⟩
  · exact .inl hr
  by_cases hk : k = key
  · rw [hk, hn] at hm
    cases hm
    exact .inr ⟨⟨dir, name, n.type⟩, by rw [hk, Function.update_self], hmd⟩
  · exact .inr ⟨m, by rw [Function.update_of_ne hk, hm], hmd⟩

/-- A header in no chain gets another name and directory. -/
lemma VolOk.patch (h : VolOk g d t (some key)) (hn : t key = some n) (hname : NameOk name)
    (hdir : IsDir g t dir) (now : DateStamp)
    (hnew : ∀ x m, x ≠ key → t x = some m → m.dir = dir → fold_name m.name ≠ fold_name name)
    (hd' : d' = store_hdr d key (put_stamp (patch_name (block d key) name dir) now)) :
    VolOk g d' (Function.update t key (some ⟨dir, name, n.type⟩)) (some key) ∧
      next_of d' key = next_of d key := by
  have hkey := h.hashed.node key n hn
  have hsys := (h.owned.header key (by simp [types_of hn])).2.1
  have hne : ∀ k, k ≠ key → d'.data k = d.data k := by
    intro k hk
    rw [hd']
    exact store_hdr_ne hk
  have hlw : ∀ i, (i < 105 ∨ (116 ≤ i ∧ i < 128 ∧ i ≠ 125)) ∧ i ≠ 5 →
      blk_lw (d'.data key) i = blk_lw (d.data key) i := by
    rintro i ⟨hi, h5⟩
    have hlt : i < FFS_BLOCK_LONGS := by
      unfold FFS_BLOCK_LONGS
      omega
    rw [hd', store_hdr_lw hlt h5]
    refine (blk_lw_congr fun n hn => patch_outside ?_).trans (block_lw hlt)
    omega
  have hsound : Sound d' key := by
    rw [hd']
    exact store_hdr_sound
  have htype : type_of d' key = some n.type := by
    rw [type_of, hlw _ (by decide)]
    exact hkey.type
  have hnamed : name_of d' key = name := by
    rw [hd']
    exact name_of_store hname.len fun j h1 h2 => patch_name_bytes h1 h2
  have hlt : dir < 2 ^ 32 := by
    have := (h.hashed.header hdir).1.range
    have := h.small
    omega
  have hnode : NodeOk g d' key ⟨dir, name, n.type⟩ := by
    obtain ⟨ty, hty, hroot⟩ := hkey.typed
    rw [hkey.type] at hty
    cases hty
    have hparent : parent_of d' key = dir := by
      rw [parent_of, hd', store_hdr_lw (by decide) (by decide), patch_parent hlt]
    exact HeaderOk.node ⟨hkey.range, hsound, (hlw _ (by decide)).trans hkey.kind⟩ hname hnamed
      htype hroot hparent
  have hbm : SameBitmap g d d' := by
    rw [hd']
    exact h.bitmap.store_hdr hsys
  refine ⟨⟨h.small, hbm.ok, ?_, ?_⟩, hlw _ (by decide)⟩
  · refine h.hashed.update (h.not_root hn) (.inl rfl) (.inl rfl) hne ?_ ?_ ?_
    · rintro _ ⟨⟩
      exact ⟨hnode, hdir.moved hn, hnew⟩
    · rintro _ ⟨⟩ hd s hs
      obtain ⟨xs, hc⟩ := h.hashed.chain key (.inr ⟨n, hn, hd⟩) s hs
      refine ⟨xs, ?_, hc.mem⟩
      unfold HT_SIZE at hs
      rw [slot_of, hlw _ (by unfold FFS_LW_TABLE; omega)]
      exact hc.links
    · intro x m _ hm hmk
      have hmd := h.hashed.dirs x m hm
      rw [hmk] at hmd
      rcases hmd with hr | ⟨n', hn', hd⟩
      · exact absurd hr (h.not_root hn)
      · rw [hn] at hn'
        cases hn'
        exact ⟨_, rfl, hd⟩
  · rw [types_moved hn]
    refine h.owned.frame h.bitmap.room ⟨by rw [hd']; rfl, hbm.sys,
      fun x hx => ⟨?_, fun k hk => SameTable.of_eq (hne k ?_)⟩⟩ (h.owned.unfreed hbm)
    · by_cases hk' : x = key
      · subst hk'
        exact ⟨hsound.trans hkey.sound.symm, hlw _ (by decide), hlw _ (by decide),
          fun i h1 h2 => hlw i (by omega), hlw _ (by decide)⟩
      · exact SameTable.of_eq (hne x hk')
    · rintro rfl
      exact h.not_ext hx hk (.inr (by simp [hn]))

/-! ## New entries -/

/-- The header of a new entry before its checksum is set. -/
def header_body (key dir : Nat) (name : List UInt8) (ty : SecType) (now : DateStamp) : Buf :=
  let b := blk_put32 (blk_put32 zeros FFS_LW_TYPE FFS_T_HEADER) FFS_LW_HEADER_KEY key
  let b := put_stamp (bstr_from_c b (FFS_LW_NAME * 4) name 30) now
  blk_put32 (blk_put32 b FFS_LW_PARENT dir) FFS_LW_SEC_TYPE ty.code

lemma header_body_zero (hj : 2 ≤ j / 4) (hj' : j / 4 < 105 ∨ (116 ≤ j / 4 ∧ j / 4 < 125) ∨
    j / 4 = 126) :
    header_body key dir name ty now j = 0 := by
  unfold header_body FFS_LW_SEC_TYPE FFS_LW_PARENT
  rw [put32_outside (by omega), put32_outside (by omega), put_stamp_outside (by omega)]
  refine (bstr_outside (by omega)).trans ?_
  unfold FFS_LW_HEADER_KEY FFS_LW_TYPE
  rw [put32_outside (by omega), put32_outside (by omega)]
  rfl

lemma header_body_lw (hi : 2 ≤ i) (hi' : i < 105 ∨ (116 ≤ i ∧ i < 125) ∨ i = 126) :
    blk_lw (header_body key dir name ty now) i = 0 := by
  have hzero : blk_lw zeros i = 0 := by simp [blk_lw, be32, zeros]
  exact (blk_lw_congr fun k hk => header_body_zero (by omega) (by omega)).trans hzero

lemma header_body_type : blk_lw (header_body key dir name ty now) FFS_LW_TYPE = FFS_T_HEADER := by
  unfold header_body
  rw [lw_put32_ne (by decide), lw_put32_ne (by decide), put_stamp_lw (by decide)]
  refine (blk_lw_congr fun k hk => bstr_outside ?_).trans ?_
  · unfold FFS_LW_TYPE
    omega
  · rw [lw_put32_ne (by decide)]
    exact lw_put32_same (by decide)

lemma header_body_parent (hd : dir < 2 ^ 32) :
    blk_lw (header_body key dir name ty now) FFS_LW_PARENT = dir := by
  unfold header_body
  rw [lw_put32_ne (by decide), lw_put32_same hd]

lemma sec_type_code (ty : SecType) : sec_type_of ty.code = some ty := by cases ty <;> decide

lemma header_body_sec : sec_type_of (blk_lw (header_body key dir name ty now) FFS_LW_SEC_TYPE) =
    some ty := by
  unfold header_body
  rw [lw_put32_same (by cases ty <;> decide), sec_type_code]

lemma header_body_name (h1 : 432 ≤ j) (h2 : j < 464) : header_body key dir name ty now j =
      bstr_from_c (blk_put32 (blk_put32 zeros FFS_LW_TYPE FFS_T_HEADER) FFS_LW_HEADER_KEY key)
        432 name
        30 j := by
  unfold header_body FFS_LW_SEC_TYPE FFS_LW_PARENT
  rw [put32_outside (by omega), put32_outside (by omega), put_stamp_outside (by omega)]
  rfl

/-- The state after a block was allocated and the header of a new entry written to it. -/
lemma VolOk.new_entry (now : DateStamp) (h : VolOk g v.dev t none) (hd : IsDir g t dir)
    (hfree : is_free g v.dev key = true) (hc : Changed g v.dev v'.dev)
    (hbits : ∀ y, is_free g v'.dev y = (is_free g v.dev y && decide (y ≠ key)))
    (hname : NameOk name) (hroot : ty ≠ .root)
    (hnew : ∀ x m, t x = some m → m.dir = dir → fold_name m.name ≠ fold_name name)
    (hd' : d' = store_hdr v'.dev key (header_body key dir name ty now)) :
    VolOk g d' (Function.update t key (some ⟨dir, name, ty⟩)) (some key) ∧ next_of d' key = 0 := by
  have hused : ∀ k, is_free g v.dev k = false → k ≠ key := by
    rintro k hk rfl
    rw [hfree] at hk
    cases hk
  have hrange := marked_range hfree
  have hnone : t key = none := by_contra fun hk => hused key (h.in_use (.inr hk)) rfl
  have hnotroot : key ≠ g.root_key := (hused _ (h.in_use (.inl rfl))).symm
  have hnotin : ¬ InUse g v.dev t.types key := fun hk => hused key (h.owned.used hk).2 rfl
  have hnotsys : key ∉ sys_blocks g v.dev := fun hk => hused key (h.bitmap.used key hk) rfl
  have h1 : VolOk g v'.dev t none := by
    refine h.changed hc fun k hk => ?_
    rw [hbits, (h.owned.used hk).2, Bool.false_and]
  have hsys1 : key ∉ sys_blocks g v'.dev := by rwa [hc.sys]
  have hne : ∀ k, k ≠ key → d'.data k = v'.dev.data k := by
    intro k hk
    rw [hd']
    exact store_hdr_ne hk
  have hbm : SameBitmap g v'.dev d' := by
    rw [hd']
    exact h1.bitmap.store_hdr hsys1
  have hlw : ∀ i, i < FFS_BLOCK_LONGS ∧ i ≠ 5 →
      blk_lw (d'.data key) i = blk_lw (header_body key dir name ty now) i := by
    rintro i ⟨hi, h5⟩
    rw [hd', store_hdr_lw hi h5]
  have hzero : ∀ i, i < FFS_BLOCK_LONGS ∧ i ≠ 5 → 2 ≤ i ∧
    (i < 105 ∨ (116 ≤ i ∧ i < 125) ∨ i = 126) →
      blk_lw (d'.data key) i = 0 := fun i hi h0 => by rw [hlw i hi, header_body_lw h0.1 h0.2]
  have htype : type_of d' key = some ty := by
    rw [type_of, hlw _ (by decide), header_body_sec]
  have hnamed : name_of d' key = name := by
    rw [hd']
    exact name_of_store hname.len fun j h1 h2 => header_body_name h1 h2
  have hnode : NodeOk g d' key ⟨dir, name, ty⟩ := by
    refine HeaderOk.node ⟨hrange, by rw [hd']; exact store_hdr_sound, ?_⟩ hname hnamed htype
      hroot ?_
    · rw [hlw _ (by decide), header_body_type]
    · have := (h.hashed.header hd).1.range
      have := h.small
      rw [parent_of, hlw _ (by decide), header_body_parent (by omega)]
  have hin1 : ¬ InUse g v'.dev t.types key := fun hk =>
    hnotin (Kept.inUse h.owned (h.owned.kept hc) h.bitmap.room hk)
  have hkept : Kept g v'.dev d' t.types := by
    refine ⟨by rw [hd']; rfl, hbm.sys,
      fun x hx => ⟨SameTable.of_eq (hne x ?_), fun k hk => SameTable.of_eq (hne k ?_)⟩⟩
    · rintro rfl
      exact hin1 (.inl hx.ne_none)
    · rintro rfl
      exact hin1 (.inr ⟨x, hx, mem_append_left _ hk⟩)
  have hown := h1.owned.frame h1.bitmap.room hkept (h1.owned.unfreed hbm)
  have hfree' : is_free g d' key = false := by
    rw [hbm.free, hbits, decide_eq_false (not_not.mpr rfl), Bool.and_false]
  have hkey : dir ≠ key := by
    rintro rfl
    exact hused dir (h.in_use hd.inTree) rfl
  refine ⟨⟨h.small, hbm.ok, ?_, ?_⟩, hzero _ (by decide) (by decide)⟩
  · refine h1.hashed.update hnotroot (.inr ⟨rfl, hnone⟩) (.inl rfl) hne ?_ ?_ ?_
    · rintro _ ⟨⟩
      refine ⟨hnode, ?_, fun x m _ => hnew x m⟩
      rwa [IsDir, Function.update_of_ne hkey]
    · -- the table of a new directory is empty
      rintro _ ⟨⟩ _ s hs
      unfold HT_SIZE at hs
      refine ⟨[], hzero _ (by unfold FFS_LW_TABLE FFS_BLOCK_LONGS; omega)
        (by unfold FFS_LW_TABLE; omega), fun x => ?_⟩
      have : ¬ InSlot t key s x := by
        rintro ⟨n, hn, hnd, _⟩
        exact hused key (h.in_use (hnd ▸ (h.hashed.dirs x n hn).inTree)) rfl
      simp [this]
    · intro x m _ hm hmk
      exact absurd rfl (hused key (h.in_use (hmk ▸ (h.hashed.dirs x m hm).inTree)))
  · exact hown.add hrange.2 (by rw [hbm.sys]; exact hsys1) hfree'
      (fun hk => hin1 (Kept.inUse h1.owned hkept h1.bitmap.room hk)) hbm.ok.room
      (hzero _ (by decide) (by decide)) (hzero _ (by decide) (by decide)) fun x hx =>
        types_update hx

/-! ## Deleted and emptied entries -/

/-- An entry in no chain is given up with all its blocks. A directory is empty then. -/
lemma VolOk.drop (h : VolOk g d t (some key)) (hn : t key = some n)
    (hf : Freed g d d' (key :: if n.type.is_file = true then file_blocks g d key else []))
    (hempty : ∀ x m, x ≠ key → t x = some m → m.dir ≠ key) :
    VolOk g d' (Function.update t key none) none := by
  have hc := hf.changed
  have hh : Hashed g d (Function.update t key none) none :=
    h.hashed.update (h.not_root hn) (.inl rfl) (.inr ⟨rfl, rfl⟩) (fun _ _ => rfl)
      (fun _ hm => nomatch hm)
      (fun _ hm => nomatch hm) fun x m hx hm hmk => absurd hmk (hempty x m hx hm)
  have hself : Tree.types (Function.update t key none) key = none := by
    rw [Tree.types, Function.update_self]
    rfl
  have hnk : ∀ x, Tree.types (Function.update t key none) x ≠ none → x ≠ key := by
    rintro x hx rfl
    exact hx hself
  have ho : Owned g d (Tree.types (Function.update t key none)) :=
    h.owned.mono fun x hx => types_update (hnk x hx)
  have h1 : VolOk g d (Function.update t key none) none := ⟨h.small, h.bitmap, hh, ho⟩
  -- nothing that stays in use is among the freed blocks
  refine h1.changed hc fun k hk => stays_used hf.free (ho.used hk).2 fun hfk => ?_
  have hfile : ∀ x, IsFile (Tree.types (Function.update t key none)) x → x ≠ key ∧
    IsFile t.types x := by
    intro x hx
    have hxk := hnk x hx.ne_none
    exact ⟨hxk, by rwa [IsFile, types_update hxk] at hx⟩
  rcases mem_cons.mp hfk with rfl | hfk
  · rcases hk with hk | ⟨x, hx, hk⟩
    · exact hk hself
    · have := (h.owned.blocks x (hfile x hx).2 k hk).2.2
      rw [types_of hn] at this
      cases this
  by_cases htf : n.type.is_file = true
  · rw [if_pos htf] at hfk
    have hkf : IsFile t.types key := ⟨n.type, types_of hn, htf⟩
    rcases hk with hk | ⟨x, hx, hk⟩
    · have hkn := (h.owned.blocks key hkf k hfk).2.2
      rw [types_update (hnk k hk)] at hk
      exact hk hkn
    · exact h.owned.apart x key (hfile x hx).2 hkf (hfile x hx).1 k hk hfk
  · rw [if_neg htf] at hfk
    cases hfk

section

variable (h : VolOk g d t none)
include h

/-- A file is emptied in place. -/
lemma VolOk.emptied (hfile : IsFile t.types x) (he : Emptied g d d' x) : VolOk g d' t none := by
  obtain ⟨hrange, hsys, hused⟩ := h.owned.header x hfile.ne_none
  have htree : ∀ k, InTree g t k → k ≠ x → d'.data k = d.data k := fun k hk hkx =>
    he.keep k (h.not_page hk).1 hkx
  have hdirs : ∀ k, IsDir g t k → d'.data k = d.data k := by
    intro k hk
    refine htree k hk.inTree ?_
    rintro rfl
    exact h.dir_not_file hk hfile
  -- the other entries stay, and the file is added to them with no blocks
  have hne : ∀ y, Function.update t.types x none y ≠ none → y ≠ x := by
    rintro y hy rfl
    exact hy (Function.update_self _ _ _)
  have hold : ∀ y, IsFile (Function.update t.types x none) y → y ≠ x ∧ IsFile t.types y := by
    intro y hy
    have hyx := hne y hy.ne_none
    exact ⟨hyx, by rwa [IsFile, Function.update_of_ne hyx] at hy⟩
  have ho : Owned g d (Function.update t.types x none) :=
    h.owned.mono fun y hy => Function.update_of_ne (hne y hy) _ _
  have hkept : Kept g d d' (Function.update t.types x none) := by
    refine ⟨he.size, he.sys, fun y hy => ?_⟩
    obtain ⟨hyx, hy⟩ := hold y hy
    refine ⟨SameTable.of_eq (htree y (.inr (types_ne_none.mp hy.ne_none)) hyx),
      fun k hk => SameTable.of_eq ?_⟩
    obtain ⟨h1, _, h3⟩ := h.owned.ext_used hy hk
    refine he.keep k (fun hp => h1 (page_mem_sys hp)) ?_
    rintro rfl
    exact hfile.ne_none h3
  -- what is freed belonged to the file alone
  have hfree : ∀ k, k ∉ file_blocks g d x → is_free g d k = false → is_free g d' k = false :=
    fun k hk hu => stays_used he.free hu hk
  have hself : x ∉ file_blocks g d x := fun hc => hfile.ne_none (h.owned.blocks x hfile x hc).2.2
  have hframe := ho.frame h.bitmap.room hkept fun k hk => by
    refine hfree k (fun hc => ?_) (ho.used hk).2
    rcases hk with hk | ⟨y, hy, hk⟩
    · rw [Function.update_of_ne (hne k hk)] at hk
      exact hk (h.owned.blocks x hfile k hc).2.2
    · exact h.owned.apart y x (hold y hy).2 hfile (hold y hy).1 k hk hc
  have hout : ¬ InUse g d' (Function.update t.types x none) x := by
    intro hc
    rcases Kept.inUse ho hkept h.bitmap.room hc with hc | ⟨y, hy, hc⟩
    · exact hne x hc rfl
    · exact hfile.ne_none (h.owned.blocks y (hold y hy).2 x hc).2.2
  have hown := hframe.add hrange (by rwa [he.sys]) (hfree x hself hused) hout he.ok.room
    he.high he.ext
    fun y hy => (Function.update_of_ne hy _ _).symm
  refine ⟨h.small, he.ok, h.hashed.frame (fun k hk => ?_) (fun k hk s _ => ?_) fun y hy => ?_, hown⟩
  · by_cases hkx : k = x
    · exact hkx ▸ he.head
    · exact SameHead.of_eq (htree k hk hkx)
  · rw [slot_of, slot_of, hdirs k hk]
  · by_cases hyx : y = x
    · exact hyx ▸ he.next
    · rw [next_of, next_of, htree y (.inr hy) hyx]

/-! ## Where a path leads -/

lemma VolOk.dir_of_type (hk : InTree g t k) (hd : dir_at g d k = true) : IsDir g t k := by
  rcases hk with hk | hk
  · exact .inl hk
  obtain ⟨n, hn⟩ := Option.ne_none_iff_exists'.mp hk
  have hx := h.hashed.node k n hn
  obtain ⟨e, hread, _, ht, _⟩ := hx.read_entry h.bitmap.room
  rw [dir_at, hread] at hd
  rw [hx.type, Option.some.injEq] at ht
  exact .inr ⟨n, hn, by rw [ht]; exact hd⟩

/-- The directory of an entry. The root has none. -/
lemma VolOk.parent_in {e : FfsEntry} (hk : InTree g t k) (he : ffs_read_entry g d k = some e) :
    e.parent_key = 0 ∨ InTree g t e.parent_key := by
  rcases hk with rfl | hk
  · obtain ⟨hroot, htype, hparent⟩ := h.hashed.root
    obtain ⟨e', he', _, _, hp, _⟩ := hroot.read_entry h.bitmap.room htype
    rw [he] at he'
    cases he'
    exact .inl (hp.trans hparent)
  · obtain ⟨n, hn⟩ := Option.ne_none_iff_exists'.mp hk
    have hx := h.hashed.node k n hn
    obtain ⟨e', he', _, _, _, hp, _⟩ := hx.read_entry h.bitmap.room
    rw [he] at he'
    cases he'
    rw [hp, hx.parent]
    exact .inr (h.hashed.dirs k n hn).inTree

/-- A path that only goes through directories leads to an entry or nowhere. -/
lemma VolOk.resolve_loop {comps : List (List UInt8)} {cur : Nat}
    (hcur : InTree g t cur) (hok : through_dirs g d cur comps = true) :
    ffs.resolve_loop g d cur comps = 0 ∨ InTree g t (ffs.resolve_loop g d cur comps) := by
  induction comps generalizing cur with
  | nil => exact .inr hcur
  | cons comp rest ih =>
    rw [through_dirs] at hok
    rw [ffs.resolve_loop]
    by_cases hdot : comp = [46]
    · rw [if_pos hdot] at hok ⊢
      exact ih hcur hok
    rw [if_neg hdot] at hok ⊢
    by_cases hdd : comp = [46, 46]
    · rw [if_pos hdd] at hok ⊢
      generalize he : ffs_read_entry g d cur = r at hok
      cases r with
      | none =>
        exact ih hcur hok
      | some e =>
        refine ih ?_ hok
        split
        · rename_i h0
          exact (h.parent_in hcur he).resolve_left h0
        · exact hcur
    · rw [if_neg hdd] at hok ⊢
      dsimp only at hok ⊢
      by_cases h0 : ffs_lookup g d cur comp = 0
      · rw [if_pos h0]
        exact .inl rfl
      rw [if_neg h0]
      rw [decide_eq_false h0, Bool.false_or, Bool.and_eq_true] at hok
      have hdir := h.dir_of_type hcur hok.1
      obtain ⟨n, hn, _⟩ := h.hashed.lookup_some h.bitmap.room h.small hdir rfl h0
      exact ih (.inr (by simp [hn])) hok.2

/-- `ffs_split_path` gives a directory and a name that fits into a header. -/
lemma VolOk.split_path {path : List UInt8}
    (hok : path_ok g d path = true) (hcall : ffs_split_path g d path = some (dir, name)) :
    IsDir g t dir ∧ NameOk name := by
  rw [path_ok, Bool.and_eq_true, Bool.not_eq_true'] at hok
  unfold ffs_split_path at hcall
  dsimp only at hcall
  split at hcall
  · cases hcall
  rename_i hname
  generalize hk : (if (split_rel path).contains 47 = true then
    ffs_resolve g d (split_dir (split_rel path)) else g.root_key) = k at hcall
  split at hcall
  · cases hcall
  rename_i hdk
  have hin : InTree g t k := by
    split at hk
    · rcases h.resolve_loop (.inl rfl) hok.2 with hz | hz
      · exact absurd (hk.symm.trans hz) hdk
      · exact hk ▸ hz
    · exact .inl hk.symm
  generalize he : ffs_read_entry g d k = r at hcall
  cases r with
  | none =>
    cases hcall
  | some e =>
    dsimp only at hcall
    split at hcall
    · rename_i hdir
      cases hcall
      refine ⟨h.dir_of_type hin (by rw [dir_at, he]; exact hdir), fun hc => hname (.inl hc), ?_, ?_⟩
      · have : ¬ FFS_MAX_NAME - 1 < (split_name (split_rel path)).length :=
          fun hc => hname (.inr (.inl hc))
        unfold FFS_MAX_NAME at this
        omega
      rintro c hc rfl
      have hmem : (0 : UInt8) ∈ path := by
        have h1 : (0 : UInt8) ∈ split_rel path := by
          have := mem_reverse.mp hc
          exact mem_reverse.mp ((List.takeWhile_prefix _).subset this)
        have h2 : (0 : UInt8) ∈ skip_volume path := (dropWhile_suffix _).subset h1
        unfold skip_volume at h2
        split at h2
        · exact (dropWhile_suffix _).subset (mem_of_mem_drop h2)
        · exact h2
      rw [contains_iff_mem.mpr hmem] at hok
      cases hok.1
    · cases hcall

end

end uaos.ffs
