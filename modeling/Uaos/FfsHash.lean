-- The hash chains of directories. The table of a directory holds the first entry of
-- each chain, and every entry the next one. Entries are looked up, listed, linked and
-- unlinked, and the chains of all directories stay apart.
import Mathlib.Data.List.TakeWhile
import Uaos.Chain
import Uaos.FfsBitmap
import Uaos.Run

namespace uaos.ffs

open List

variable {it : FfsDirIter} {a guard s' val : Nat}

variable {g : Geom} {v v' : Vol} {d d' : BlockDev} {b : Buf} {i j k m s x y key dir : Nat}
  {as bs xs ys : List Nat} {name : List UInt8}

/-! ## Headers -/

def next_of (d : BlockDev) (k : Nat) : Nat := blk_lw (d.data k) FFS_LW_NEXT_HASH

def slot_of (d : BlockDev) (k s : Nat) : Nat := blk_lw (d.data k) (FFS_LW_TABLE + s)

def parent_of (d : BlockDev) (k : Nat) : Nat := blk_lw (d.data k) FFS_LW_PARENT

def type_of (d : BlockDev) (k : Nat) : Option SecType :=
  sec_type_of (blk_lw (d.data k) FFS_LW_SEC_TYPE)

def name_of (d : BlockDev) (k : Nat) : List UInt8 := slice (d.data k) 433 (d.data k 432).toNat

/-- Names that differ in the case of ASCII letters only have one folded name. -/
def fold_name (name : List UInt8) : List UInt8 := name.map c_upper

/-- A header block. -/
structure HeaderOk (g : Geom) (d : BlockDev) (k : Nat) : Prop where
  range : 2 ≤ k ∧ k < g.num_blocks
  sound : Sound d k
  kind : blk_lw (d.data k) FFS_LW_TYPE = FFS_T_HEADER

/-- The header of a file or of a directory that is not the root. -/
structure EntryOk (g : Geom) (d : BlockDev) (k : Nat) : Prop extends HeaderOk g d k where
  typed : ∃ t, type_of d k = some t ∧ t ≠ .root
  named : 1 ≤ (name_of d k).length ∧ (name_of d k).length ≤ 30
  chars : ∀ c ∈ name_of d k, c ≠ 0

lemma HeaderOk.read (h : HeaderOk g d k) (hroom : g.num_blocks ≤ d.num_sectors) :
    ffs_read_hdr g d k = some (block d k) := read_hdr_ok h.range.2 hroom h.sound

section

variable (hlen : (name_of d k).length ≤ 30)

include hlen

lemma block_name : slice (block d k) (FFS_LW_NAME * 4 + 1) (block d k (FFS_LW_NAME * 4)).toNat =
    name_of d k := by
  have h432 : block d k 432 = d.data k 432 := block_apply (by decide)
  rw [name_of, slice_length] at hlen
  rw [name_of, FFS_LW_NAME, h432]
  refine slice_congr fun j hj => block_apply ?_
  unfold SECTOR
  omega

lemma bstr_eq_ci_block :
    bstr_eq_ci (block d k) (FFS_LW_NAME * 4) name = true ↔ fold_name (name_of d k) =
      fold_name name := by
  rw [bstr_eq_ci, block_name hlen, decide_eq_true_iff]
  rfl

lemma bstr_to_c_block (hc : ∀ c ∈ name_of d k, c ≠ 0) :
    bstr_to_c (block d k) (FFS_LW_NAME * 4) FFS_MAX_NAME = name_of d k := by
  have hname := block_name hlen
  have hmin : min (block d k (FFS_LW_NAME * 4)).toNat (FFS_MAX_NAME - 1) =
      (block d k (FFS_LW_NAME * 4)).toNat := by
    rw [← hname, slice_length] at hlen
    exact min_eq_left hlen
  rw [bstr_to_c, hmin, hname]
  refine takeWhile_eq_self_iff.mpr fun c hm => ?_
  simpa using hc c hm

end

/-- What FFS_ReadEntry gives for a header. -/
lemma HeaderOk.read_entry (h : HeaderOk g d k) (hroom : g.num_blocks ≤ d.num_sectors)
    {t : SecType} (ht : type_of d k = some t) :
    ∃ e, ffs_read_entry g d k = some e ∧ e.key = k ∧ e.sec_type = t ∧
      e.parent_key = parent_of d k ∧ e.next_hash = next_of d k ∧
      e.name = bstr_to_c (block d k) (FFS_LW_NAME * 4) FFS_MAX_NAME := by
  have hkind : ¬ (blk_lw (block d k) FFS_LW_TYPE ≠ FFS_T_HEADER) := by
    exact not_not.mpr h.kind
  unfold ffs_read_entry
  rw [h.read hroom]
  dsimp only
  rw [if_neg hkind, block_lw (i := FFS_LW_SEC_TYPE) (by decide)]
  rw [type_of] at ht
  rw [ht]
  exact ⟨_, rfl, rfl, rfl, block_lw (by decide), block_lw (by decide), rfl⟩

lemma EntryOk.read_entry (h : EntryOk g d k) (hroom : g.num_blocks ≤ d.num_sectors) :
    ∃ e, ffs_read_entry g d k = some e ∧ e.key = k ∧ type_of d k = some e.sec_type ∧
      e.sec_type ≠ .root ∧ e.parent_key = parent_of d k ∧ e.next_hash = next_of d k ∧
      e.name = name_of d k := by
  obtain ⟨t, ht, hroot⟩ := h.typed
  obtain ⟨e, he, hkey, htype, hparent, hnext, hname⟩ := h.toHeaderOk.read_entry hroom ht
  exact ⟨e, he, hkey, htype ▸ ht, htype ▸ hroot, hparent, hnext,
    hname.trans (bstr_to_c_block h.named.2 h.chars)⟩

/-! ## Hashes -/

lemma hash_fold {name' : List UInt8} (h : fold_name name = fold_name name') :
    ffs_hash name HT_SIZE = ffs_hash name' HT_SIZE := by
  have hlen : name.length = name'.length := by simpa [fold_name] using congrArg List.length h
  have hfold : ∀ (l : List UInt8) (a : Nat),
      l.foldl (fun h c => u32 (h * 13 + (c_upper c).toNat) &&& 0x7FF) a =
        (fold_name l).foldl (fun h c => u32 (h * 13 + c.toNat) &&& 0x7FF) a := by
    intro l a
    rw [fold_name, foldl_map]
  unfold ffs_hash
  rw [hfold, hfold, h, hlen]

lemma hash_lt (name : List UInt8) : ffs_hash name HT_SIZE < HT_SIZE := by
  exact Nat.mod_lt _ (by decide)

lemma table_lt (hs : s < HT_SIZE) : FFS_LW_TABLE + s < FFS_BLOCK_LONGS := by
  unfold HT_SIZE at hs
  unfold FFS_LW_TABLE FFS_BLOCK_LONGS
  omega

lemma table_ne_next (hs : s < HT_SIZE) : FFS_LW_TABLE + s ≠ FFS_LW_NEXT_HASH := by
  unfold HT_SIZE at hs
  unfold FFS_LW_NEXT_HASH FFS_LW_TABLE
  omega

/-! ## What a change leaves -/

/-- The type, the directory and the name in the header are the same. -/
structure SameHead (d d' : BlockDev) (k : Nat) : Prop where
  sound : Sound d k → Sound d' k
  kind : blk_lw (d'.data k) FFS_LW_TYPE = blk_lw (d.data k) FFS_LW_TYPE
  sec : type_of d' k = type_of d k
  parent : parent_of d' k = parent_of d k
  name : ∀ j, 432 ≤ j → j < 464 → d'.data k j = d.data k j

lemma SameHead.of_eq (h : d'.data k = d.data k) : SameHead d d' k := by
  refine ⟨fun hs => ?_, ?_, ?_, ?_, fun j _ _ => by rw [h]⟩
  · rwa [Sound, h]
  · rw [h]
  · rw [type_of, type_of, h]
  · rw [parent_of, parent_of, h]

lemma SameHead.trans {d'' : BlockDev} (h : SameHead d d' k) (h' : SameHead d' d'' k) :
    SameHead d d'' k :=
  ⟨fun hs => h'.sound (h.sound hs), h'.kind.trans h.kind, h'.sec.trans h.sec,
    h'.parent.trans h.parent,
    fun j h1 h2 => (h'.name j h1 h2).trans (h.name j h1 h2)⟩

lemma HeaderOk.same (h : HeaderOk g d k) (hs : SameHead d d' k) : HeaderOk g d' k :=
  ⟨h.range, hs.sound h.sound, hs.kind.trans h.kind⟩

lemma SameHead.name_of (hs : SameHead d d' k) (hlen : (ffs.name_of d k).length ≤ 30) :
    ffs.name_of d' k = ffs.name_of d k := by
  have h432 := hs.name 432 (by omega) (by omega)
  rw [ffs.name_of, slice_length] at hlen
  rw [ffs.name_of, ffs.name_of, h432]
  exact slice_congr fun j hj => hs.name _ (by omega) (by omega)

lemma EntryOk.same (h : EntryOk g d k) (hs : SameHead d d' k) : EntryOk g d' k := by
  have hname := hs.name_of h.named.2
  refine ⟨h.toHeaderOk.same hs, ?_, by rw [hname]; exact h.named, by rw [hname]; exact h.chars⟩
  obtain ⟨t, ht, hroot⟩ := h.typed
  exact ⟨t, hs.sec.trans ht, hroot⟩

/-- The header `m` with its longword `i` changed. -/
def put_word (d : BlockDev) (m i val : Nat) : BlockDev :=
  store_hdr d m (blk_put32 (block d m) i val)

/-- The longword is a slot of a hash table or the link to the next entry. -/
def IsLink (i : Nat) : Prop := (6 ≤ i ∧ i < 78) ∨ i = 124

lemma put_word_lw (hj : j < FFS_BLOCK_LONGS) (h5 : j ≠ 5) (hv : val < 2 ^ 32) :
    blk_lw ((put_word d m i val).data m) j = if j = i then val else blk_lw (d.data m) j := by
  rw [put_word, store_hdr_lw hj h5]
  split
  · rename_i hji
    rw [hji, lw_put32_same hv]
  · rename_i hji
    rw [lw_put32_ne hji, block_lw hj]

lemma put_word_ne (h : k ≠ m) : (put_word d m i val).data k = d.data k := store_hdr_ne h

lemma put_word_head (hi : IsLink i) (hv : val < 2 ^ 32) (k : Nat) :
    SameHead d (put_word d m i val) k := by
  unfold IsLink at hi
  by_cases hk : k = m
  · subst hk
    have hlw : ∀ j, j < FFS_BLOCK_LONGS → j ≠ 5 → j ≠ i →
        blk_lw ((put_word d k i val).data k) j = blk_lw (d.data k) j := by
      intro j hj h5 hji
      rw [put_word_lw hj h5 hv, if_neg hji]
    refine ⟨fun _ => store_hdr_sound, hlw _ (by decide) (by decide) ?_, ?_, ?_, fun j h1 h2 => ?_⟩
    · unfold FFS_LW_TYPE
      omega
    · rw [type_of, type_of, hlw _ (by decide) (by decide) (by unfold FFS_LW_SEC_TYPE; omega)]
    · exact hlw _ (by decide) (by decide) (by unfold FFS_LW_PARENT; omega)
    · have hj : j < SECTOR := by
        unfold SECTOR
        omega
      rw [put_word, store_hdr_byte hj (by omega), put32_outside (by omega), block_apply hj]
  · exact SameHead.of_eq (put_word_ne hk)

lemma slot_put_word (hs : s < HT_SIZE) (hv : val < 2 ^ 32) : slot_of (put_word d m i val) k s =
      if k = m ∧ FFS_LW_TABLE + s = i then val else slot_of d k s := by
  unfold slot_of
  by_cases hk : k = m
  · subst hk
    rw [put_word_lw (table_lt hs) (by unfold FFS_LW_TABLE; omega) hv]
    simp only [true_and]
  · rw [put_word_ne hk, if_neg fun hc => hk hc.1]

lemma next_put_word (hv : val < 2 ^ 32) :
    next_of (put_word d m i val) k = if k = m ∧ FFS_LW_NEXT_HASH = i then val else next_of d k := by
  unfold next_of
  by_cases hk : k = m
  · subst hk
    rw [put_word_lw (by decide) (by decide) hv]
    simp only [true_and]
  · rw [put_word_ne hk, if_neg fun hc => hk hc.1]

/-! ## Walks along a chain -/

/-- The chain from the key `a` on has the entries `xs` and ends. -/
def Chain (d : BlockDev) (a : Nat) (xs : List Nat) : Prop := chain.Path id (next_of d) a xs 0

/-- Everything that a walk reads of the entries of a chain. -/
def Entries (g : Geom) (d : BlockDev) (xs : List Nat) : Prop := ∀ x ∈ xs, EntryOk g d x

lemma Entries.pos (h : Entries g d xs) : ∀ x ∈ xs, id x ≠ 0 := by
  intro x hx
  have := (h x hx).range
  exact fun hc => by rw [id] at hc; omega

lemma Entries.nodup (h : Entries g d xs) (hc : Chain d a xs) : xs.Nodup :=
  hc.nodup Function.injective_id h.pos

/-- A chain has no more entries than the volume has blocks. -/
lemma Entries.length_le (h : Entries g d xs) (hnd : xs.Nodup) : xs.length ≤ g.num_blocks := by
  have hsub : xs.toFinset ⊆ Finset.range g.num_blocks := by
    intro x hx
    exact Finset.mem_range.mpr (h x (List.mem_toFinset.mp hx)).range.2
  have := Finset.card_le_card hsub
  rwa [toFinset_card_of_nodup hnd, Finset.card_range] at this

lemma chain_head (hc : Chain d a (x :: xs)) : a = x ∧ Chain d (next_of d x) xs := hc

/-- The key of a chain with an entry is that of a block. -/
lemma Entries.head_ne_zero (h : Entries g d (xs ++ [x])) (hc : Chain d a (xs ++ [x])) : a ≠ 0 := by
  obtain ⟨z, zs, hz⟩ := exists_cons_of_ne_nil (concat_ne_nil x xs)
  rw [hz] at h hc
  rw [(chain_head hc).1]
  exact h.pos z mem_cons_self

lemma lookup_loop_spec (hroom : g.num_blocks ≤ d.num_sectors) (he : Entries g d xs)
    (hc : Chain d a xs) (hg : xs.length ≤ guard) : lookup_loop g d name guard a =
      (xs.find? fun x => fold_name (name_of d x) = fold_name name).getD 0 := by
  induction xs generalizing a guard with
  | nil =>
    have ha : a = 0 := hc
    cases guard with
    | zero => rfl
    | succ guard => exact if_pos (.inl ha)
  | cons x xs ih =>
    obtain ⟨rfl, hrest⟩ := chain_head hc
    have hx := he a mem_cons_self
    obtain ⟨guard, rfl⟩ := one_more hg
    have hin := hx.range
    rw [lookup_loop, if_neg (by omega), hx.read hroom, find?_cons]
    dsimp only
    by_cases heq : fold_name (name_of d a) = fold_name name
    · rw [if_pos ((bstr_eq_ci_block hx.named.2).mpr heq), decide_eq_true heq]
      rfl
    · rw [if_neg (mt (bstr_eq_ci_block hx.named.2).mp heq), decide_eq_false heq,
        block_lw (by decide)]
      exact ih (forall_mem_cons.mp he).2 hrest (Nat.le_of_succ_le_succ hg)

/-- The link `l`, a block and a longword of it, set to `val`. -/
def set_link (v : Vol) (l : Nat × Nat) (val : Nat) : Vol :=
  { v with dev := put_word v.dev l.1 l.2 val }

/-- Where the link behind the entries `as` of a slot stands. -/
def tail_link (dir s : Nat) (as : List Nat) : Nat × Nat :=
  match as.getLast? with
  | none => (dir, FFS_LW_TABLE + s)
  | some last => (last, FFS_LW_NEXT_HASH)

lemma tail_link_nil : tail_link dir s [] = (dir, FFS_LW_TABLE + s) := rfl

lemma tail_link_snoc : tail_link dir s (as ++ [x]) = (x, FFS_LW_NEXT_HASH) := by
  rw [tail_link, getLast?_concat]

lemma tail_link_isLink (hs : s < HT_SIZE) : IsLink (tail_link dir s as).2 := by
  unfold HT_SIZE at hs
  rcases eq_nil_or_concat' as with rfl | ⟨as, x, rfl⟩
  · left
    rw [tail_link_nil]
    unfold FFS_LW_TABLE
    omega
  · right
    rw [tail_link_snoc]
    rfl

/-- The link behind `as` is not that of an entry outside `as`. -/
lemma next_put_tail (hs : s < HT_SIZE) (hv : val < 2 ^ 32) (hy : y ∉ as) :
    next_of (put_word d (tail_link dir s as).1 (tail_link dir s as).2 val) y = next_of d y := by
  rw [next_put_word hv, if_neg]
  rintro ⟨hc, hi⟩
  rcases eq_nil_or_concat' as with rfl | ⟨as, x, rfl⟩
  · rw [tail_link_nil] at hi
    exact table_ne_next hs hi.symm
  · rw [tail_link_snoc] at hc
    exact hy (by simp [hc])

lemma insert_loop_spec (hroom : g.num_blocks ≤ v.dev.num_sectors)
    (he : Entries g v.dev (xs ++ [x])) (hc : Chain v.dev a (xs ++ [x])) (hg : xs.length < guard) :
    insert_loop g v key guard a = some (set_link v (x, FFS_LW_NEXT_HASH) key) := by
  induction xs generalizing a guard with
  | nil =>
    obtain ⟨rfl, hrest⟩ := chain_head hc
    have hx := he a mem_cons_self
    obtain ⟨guard, rfl⟩ := one_more hg
    have hin := hx.range
    have h0 : blk_lw (v.dev.data a) FFS_LW_NEXT_HASH = 0 := hrest
    rw [insert_loop, if_neg (by omega), hx.read hroom]
    dsimp only
    rw [block_lw (by decide), if_pos h0, write_hdr_ok (by omega)]
    rfl
  | cons y ys ih =>
    obtain ⟨rfl, hrest⟩ : a = y ∧ Chain v.dev (next_of v.dev y) (ys ++ [x]) := chain_head hc
    have hx := he a mem_cons_self
    obtain ⟨guard, rfl⟩ := one_more hg
    have hin := hx.range
    have he' : Entries g v.dev (ys ++ [x]) := (forall_mem_cons.mp he).2
    have hnext : ¬ blk_lw (v.dev.data a) FFS_LW_NEXT_HASH = 0 := he'.head_ne_zero hrest
    rw [insert_loop, if_neg (by omega), hx.read hroom]
    dsimp only
    rw [block_lw (by decide), if_neg hnext]
    exact ih he' hrest (Nat.lt_of_succ_lt_succ hg)

/-- A new entry is linked behind the last one of its chain. -/
lemma hash_insert_spec (key : Nat) (hroom : g.num_blocks ≤ v.dev.num_sectors)
    (hn : g.num_blocks < 2 ^ 31)
    (hdir : HeaderOk g v.dev dir) (he : Entries g v.dev xs)
    (hc : Chain v.dev (slot_of v.dev dir (ffs_hash name HT_SIZE)) xs) :
    ffs_hash_insert g v dir name key =
      some (set_link v (tail_link dir (ffs_hash name HT_SIZE) xs) key) := by
  have hlw := table_lt (hash_lt name)
  unfold ffs_hash_insert
  rw [hdir.read hroom]
  dsimp only
  rw [block_lw hlw]
  have hnd := he.nodup hc
  have hle := he.length_le hnd
  rcases eq_nil_or_concat' xs with rfl | ⟨xs, x, rfl⟩
  · have h0 : blk_lw (v.dev.data dir) (FFS_LW_TABLE + ffs_hash name HT_SIZE) = 0 := hc
    have := hdir.range
    rw [if_pos h0, write_hdr_ok (by omega)]
    rfl
  have h0 : ¬ blk_lw (v.dev.data dir) (FFS_LW_TABLE + ffs_hash name HT_SIZE) = 0 :=
    he.head_ne_zero hc
  rw [length_append, length_singleton] at hle
  rw [if_neg h0, int_guard, if_pos hn, tail_link_snoc]
  exact insert_loop_spec hroom he hc (by omega)

lemma bypass_spec (hroom : g.num_blocks ≤ v.dev.num_sectors) (hm : HeaderOk g v.dev m)
    (hk : HeaderOk g v.dev key) :
    bypass g v m i key = some (set_link v (m, i) (next_of v.dev key)) := by
  have := hm.range
  rw [bypass, hk.read hroom, hm.read hroom]
  dsimp only
  rw [block_lw (by decide), write_hdr_ok (by omega)]
  rfl

lemma remove_loop_spec (hroom : g.num_blocks ≤ v.dev.num_sectors)
    (he : Entries g v.dev (x :: xs ++ key :: ys))
    (hc : Chain v.dev x (x :: xs ++ key :: ys)) (hnd : (x :: xs ++ key :: ys).Nodup)
    (hg : xs.length < guard) : remove_loop g v key guard x =
      some (set_link v ((x :: xs).getLast (cons_ne_nil _ _), FFS_LW_NEXT_HASH)
        (next_of v.dev key)) := by
  induction xs generalizing x guard with
  | nil =>
    have hx := he x mem_cons_self
    have hk := he key (mem_cons_of_mem _ mem_cons_self)
    have hnext : blk_lw (v.dev.data x) FFS_LW_NEXT_HASH = key := (chain_head (chain_head hc).2).1
    obtain ⟨guard, rfl⟩ := one_more hg
    have hin := hk.range
    rw [remove_loop, hx.read hroom]
    dsimp only
    rw [block_lw (by decide), hnext, if_neg (by omega), if_pos rfl]
    exact bypass_spec hroom hx.toHeaderOk hk.toHeaderOk
  | cons z zs ih =>
    have hx := he x mem_cons_self
    have hz := he z (mem_cons_of_mem _ mem_cons_self)
    have hrest := (chain_head hc).2
    have hnext : next_of v.dev x = z := (chain_head hrest).1
    have hnd' := nodup_cons.mp hnd
    have hne : z ≠ key := by
      rintro rfl
      exact (nodup_cons.mp hnd'.2).1 (mem_append_right _ mem_cons_self)
    obtain ⟨guard, rfl⟩ := one_more hg
    have hin := hz.range
    rw [remove_loop, hx.read hroom]
    dsimp only
    rw [block_lw (by decide)]
    rw [next_of] at hnext
    rw [hnext, if_neg (by omega), if_neg hne, getLast_cons (cons_ne_nil _ _)]
    rw [next_of, hnext] at hrest
    exact ih (forall_mem_cons.mp he).2 hrest hnd'.2
      (Nat.lt_of_succ_lt_succ hg)

/-- An entry is unlinked by the link before it. -/
lemma hash_remove_spec (name : List UInt8) (hroom : g.num_blocks ≤ v.dev.num_sectors)
    (hn : g.num_blocks < 2 ^ 31)
    (hdir : HeaderOk g v.dev dir) (he : Entries g v.dev (as ++ key :: bs))
    (hc : Chain v.dev (slot_of v.dev dir (ffs_hash name HT_SIZE)) (as ++ key :: bs)) :
    ffs_hash_remove g v dir name key =
      some (set_link v (tail_link dir (ffs_hash name HT_SIZE) as) (next_of v.dev key)) := by
  have hlw := table_lt (hash_lt name)
  have hnd := he.nodup hc
  have hle := he.length_le hnd
  have hk := he key (mem_append_right _ mem_cons_self)
  unfold ffs_hash_remove
  rw [hdir.read hroom]
  dsimp only
  rw [block_lw hlw]
  cases as with
  | nil =>
    have hslot : blk_lw (v.dev.data dir) (FFS_LW_TABLE + ffs_hash name HT_SIZE) = key :=
      (chain_head hc).1
    have := hk.range
    rw [hslot, if_neg (by omega), if_pos rfl]
    exact bypass_spec hroom hdir hk.toHeaderOk
  | cons x xs =>
    have hslot : blk_lw (v.dev.data dir) (FFS_LW_TABLE + ffs_hash name HT_SIZE) = x :=
      (chain_head hc).1
    have hx := (he x mem_cons_self).range
    have hne : x ≠ key := by
      rintro rfl
      exact (nodup_cons.mp hnd).1 (mem_append_right _ mem_cons_self)
    have hlast : tail_link dir (ffs_hash name HT_SIZE) (x :: xs) =
        ((x :: xs).getLast (cons_ne_nil _ _), FFS_LW_NEXT_HASH) := by
      rw [tail_link, getLast?_eq_some_getLast (cons_ne_nil _ _)]
    have hc' : Chain v.dev x (x :: xs ++ key :: bs) := ⟨rfl, (chain_head hc).2⟩
    rw [hslot, if_neg (by omega), if_neg hne, int_guard, if_pos hn, hlast]
    refine remove_loop_spec hroom he hc' hnd ?_
    simp only [cons_append, length_cons, length_append] at hle
    omega

/-! ## The directory tree -/

/-- An entry: its directory, its name and its type. -/
structure Node where
  dir : Nat
  name : List UInt8
  type : SecType

/-- The entries of a volume by their keys. -/
abbrev Tree := Nat → Option Node

def InTree (g : Geom) (t : Tree) (k : Nat) : Prop := k = g.root_key ∨ t k ≠ none

def IsDir (g : Geom) (t : Tree) (k : Nat) : Prop :=
  k = g.root_key ∨ ∃ n, t k = some n ∧ n.type.is_dir = true

/-- The entry belongs into the slot `s` of the directory `k`. -/
def InSlot (t : Tree) (k s x : Nat) : Prop :=
  ∃ n, t x = some n ∧ n.dir = k ∧ ffs_hash n.name HT_SIZE = s

/-- The header has what the node says. -/
structure NodeOk (g : Geom) (d : BlockDev) (x : Nat) (n : Node) : Prop extends EntryOk g d x where
  parent : parent_of d x = n.dir
  name : name_of d x = n.name
  type : type_of d x = some n.type

/-- The chain of a slot has the entries that belong there. `out` is an entry that is in
no chain for a while. -/
structure SlotChain (d : BlockDev) (t : Tree) (out : Option Nat) (k s : Nat) (xs : List Nat) :
    Prop where
  links : Chain d (slot_of d k s) xs
  mem : ∀ x, x ∈ xs ↔ out ≠ some x ∧ InSlot t k s x

/-- Every entry of the tree is in a directory of the tree, in the slot of its name, and no
two have one name. -/
structure Hashed (g : Geom) (d : BlockDev) (t : Tree) (out : Option Nat) : Prop where
  root : HeaderOk g d g.root_key ∧ type_of d g.root_key = some .root ∧ parent_of d g.root_key = 0
  node : ∀ x n, t x = some n → NodeOk g d x n
  dirs : ∀ x n, t x = some n → IsDir g t n.dir
  names : ∀ x n y m, t x = some n → t y = some m → n.dir = m.dir →
    fold_name n.name = fold_name m.name → x = y
  chain : ∀ k, IsDir g t k → ∀ s, s < HT_SIZE → ∃ xs, SlotChain d t out k s xs

variable {t : Tree} {out : Option Nat} {n : Node}

lemma IsDir.inTree (hk : IsDir g t k) : InTree g t k := by
  rcases hk with hk | ⟨n, hn, _⟩
  · exact .inl hk
  · exact .inr (by simp [hn])

/-- An entry belongs into one slot only. -/
lemma InSlot.unique {k' : Nat} (h : InSlot t k s x) (h' : InSlot t k' s' x) : k = k' ∧ s = s' := by
  obtain ⟨n, hn, rfl, rfl⟩ := h
  obtain ⟨m, hm, rfl, rfl⟩ := h'
  rw [hn] at hm
  cases hm
  exact ⟨rfl, rfl⟩

section

variable (h : Hashed g d t out)
include h

lemma Hashed.header (hk : IsDir g t k) :
    HeaderOk g d k ∧ ∃ t, type_of d k = some t ∧ t.is_dir = true := by
  rcases hk with rfl | ⟨n, hn, hd⟩
  · exact ⟨h.root.1, .root, h.root.2.1, rfl⟩
  · have hx := h.node k n hn
    exact ⟨hx.toHeaderOk, n.type, hx.type, hd⟩

lemma Hashed.entries (hc : SlotChain d t out k s xs) : Entries g d xs := by
  intro x hx
  obtain ⟨_, n, hn, _⟩ := (hc.mem x).mp hx
  exact (h.node x n hn).toEntryOk

lemma Hashed.nodup (hc : SlotChain d t out k s xs) : xs.Nodup := (h.entries hc).nodup hc.links

/-- The headers stay as they are, and the chains are right again. -/
lemma Hashed.of_heads {out' : Option Nat} (hl : ∀ k, InTree g t k → SameHead d d' k)
    (hc : ∀ k, IsDir g t k → ∀ s, s < HT_SIZE → ∃ xs, SlotChain d' t out' k s xs) :
    Hashed g d' t out' := by
  have hr := hl _ (.inl rfl)
  refine ⟨⟨h.root.1.same hr, hr.sec.trans h.root.2.1, hr.parent.trans h.root.2.2⟩, ?_, h.dirs,
    h.names, hc⟩
  intro x n hn
  have hx := h.node x n hn
  have hs := hl x (.inr (by simp [hn]))
  exact ⟨hx.toEntryOk.same hs, hs.parent.trans hx.parent, (hs.name_of hx.named.2).trans hx.name,
    hs.sec.trans hx.type⟩

/-- A change that leaves the headers, the tables and the links leaves the chains. -/
lemma Hashed.frame (hl : ∀ k, InTree g t k → SameHead d d' k)
    (hs : ∀ k, IsDir g t k → ∀ s, s < HT_SIZE → slot_of d' k s = slot_of d k s)
    (hn : ∀ x, t x ≠ none → next_of d' x = next_of d x) : Hashed g d' t out := by
  refine h.of_heads hl fun k hk s hlt => ?_
  obtain ⟨xs, hc⟩ := h.chain k hk s hlt
  refine ⟨xs, ?_, hc.mem⟩
  rw [hs k hk s hlt]
  refine hc.links.congr fun x hx => hn x ?_
  obtain ⟨_, n, hx, _⟩ := (hc.mem x).mp hx
  simp [hx]

lemma Hashed.of_eq (heq : ∀ k, InTree g t k → d'.data k = d.data k) : Hashed g d' t out := by
  refine h.frame (fun k hk => SameHead.of_eq (heq k hk)) (fun k hk s _ => ?_) fun x hx => ?_
  · rw [slot_of, slot_of, heq k hk.inTree]
  · rw [next_of, next_of, heq x (.inr hx)]

/-- The link behind the first entries `as` of a slot is changed: the entries behind
`as` become those that the new link leads to, and no other chain changes. -/
lemma Hashed.relink (hs : s < HT_SIZE) (hch : SlotChain d t out dir s (as ++ bs))
    (hv : val < 2 ^ 32)
    (hd' : d' = put_word d (tail_link dir s as).1 (tail_link dir s as).2 val)
    (hrest : Chain d' val xs) : Chain d' (slot_of d' dir s) (as ++ xs) ∧
      ∀ k s' ys, s' < HT_SIZE → ¬ (k = dir ∧ s' = s) → SlotChain d t out k s' ys →
        Chain d' (slot_of d' k s') ys := by
  have hnd := h.nodup hch
  have hold := hch.links
  rcases eq_nil_or_concat' as with rfl | ⟨as, x, rfl⟩
  · -- the link is the slot of the table
    rw [tail_link_nil] at hd'
    have hslot : ∀ k s', s' < HT_SIZE →
        slot_of d' k s' = if k = dir ∧ s' = s then val else slot_of d k s' := by
      intro k s' hs'
      rw [hd', slot_put_word hs' hv]
      simp only [Nat.add_left_cancel_iff]
    refine ⟨?_, fun k s' ys hs' hks hys => ?_⟩
    · rw [hslot dir s hs, if_pos ⟨rfl, rfl⟩]
      exact hrest
    · rw [hslot k s' hs', if_neg hks]
      refine hys.links.congr fun y _ => ?_
      rw [hd', next_put_word hv, if_neg fun hc => table_ne_next hs hc.2.symm]
  -- the link is in the last entry of `as`
  rw [tail_link_snoc] at hd'
  have hslot : ∀ k s', s' < HT_SIZE → slot_of d' k s' = slot_of d k s' := by
    intro k s' hs'
    rw [hd', slot_put_word hs' hv, if_neg fun hc => table_ne_next hs' hc.2]
  have hnext : ∀ y, next_of d' y = if y = x then val else next_of d y := by
    intro y
    rw [hd', next_put_word hv]
    simp only [and_true]
  refine ⟨?_, fun k s' ys hs' hks hys => ?_⟩
  · have hxas : x ∉ as := by
      intro hc
      have := (nodup_append.mp (nodup_append.mp hnd).1).2.2 x hc x (by simp)
      exact this rfl
    obtain ⟨m, h1, _⟩ := chain.path_append.mp hold
    obtain ⟨m', h2, h3⟩ := chain.path_append.mp h1
    rw [hslot dir s hs]
    refine chain.path_append.mpr ⟨val, chain.path_append.mpr ⟨m', h2.congr ?_, h3.1, ?_⟩, hrest⟩
    · intro y hy
      have hyx : y ≠ x := fun hc => hxas (hc ▸ hy)
      rw [hnext, if_neg hyx]
    · exact (hnext x).trans (if_pos rfl)
  · rw [hslot k s' hs']
    refine hys.links.congr fun y hy => ?_
    have hyx : y ≠ x := by
      rintro rfl
      exact hks (((hys.mem y).mp hy).2.unique ((hch.mem y).mp (by simp)).2)
    rw [hnext, if_neg hyx]

end

/-- The entry that was in no chain is linked. -/
lemma Hashed.insert (h : Hashed g d t (some key)) (hn : t key = some n)
    (hch : SlotChain d t (some key) n.dir (ffs_hash n.name HT_SIZE) xs)
    (h0 : next_of d key = 0) (hlt : key < 2 ^ 32)
    (hd' : d' = put_word d (tail_link n.dir (ffs_hash n.name HT_SIZE) xs).1
      (tail_link n.dir (ffs_hash n.name HT_SIZE) xs).2 key) : Hashed g d' t none := by
  have hs := hash_lt n.name
  have hin : InSlot t n.dir (ffs_hash n.name HT_SIZE) key := ⟨n, hn, rfl, rfl⟩
  have hkey : key ∉ xs := fun hc => ((hch.mem key).mp hc).1 rfl
  have hrest : Chain d' key [key] := by
    refine ⟨rfl, ?_⟩
    rw [hd', next_put_tail hs hlt hkey, h0]
    rfl
  obtain ⟨hone, hother⟩ :=
    h.relink hs (by rw [append_nil]; exact hch : SlotChain d t _ _ _ (xs ++ [])) hlt hd' hrest
  refine h.of_heads (fun k _ => hd' ▸ put_word_head (tail_link_isLink hs) hlt k)
    fun k hk s hlt' => ?_
  by_cases hks : k = n.dir ∧ s = ffs_hash n.name HT_SIZE
  · obtain ⟨rfl, rfl⟩ := hks
    refine ⟨xs ++ [key], hone, fun x => ?_⟩
    rw [mem_append, mem_singleton, hch.mem x]
    by_cases hx : x = key
    · subst hx
      simp [hin]
    · simp [hx, Ne.symm hx]
  · obtain ⟨ys, hys⟩ := h.chain k hk s hlt'
    refine ⟨ys, hother k s ys hlt' hks hys, fun x => ?_⟩
    rw [hys.mem x]
    by_cases hx : x = key
    · subst hx
      have : ¬ InSlot t k s x := fun hc => hks (hc.unique hin)
      simp [this]
    · simp [Ne.symm hx]

/-- The entry is taken out of its chain. Its own link stays as it is. -/
lemma Hashed.remove (h : Hashed g d t none) (hn : t key = some n)
    (hch : SlotChain d t none n.dir (ffs_hash n.name HT_SIZE) (as ++ key :: bs))
    (hd' : d' = put_word d (tail_link n.dir (ffs_hash n.name HT_SIZE) as).1
      (tail_link n.dir (ffs_hash n.name HT_SIZE) as).2 (next_of d key)) :
    Hashed g d' t (some key) ∧ next_of d' key = next_of d key := by
  have hs := hash_lt n.name
  have hlt : next_of d key < 2 ^ 32 := blk_lw_lt _ _
  have hin : InSlot t n.dir (ffs_hash n.name HT_SIZE) key := ⟨n, hn, rfl, rfl⟩
  obtain ⟨hnas, hnbs, hdisj⟩ := nodup_append.mp (h.nodup hch)
  have hkas : key ∉ as := fun hc => hdisj key hc key mem_cons_self rfl
  have hrest : Chain d' (next_of d key) bs := by
    obtain ⟨m, _, hm⟩ := chain.path_append.mp hch.links
    refine (chain_head hm).2.congr fun y hy => ?_
    rw [hd', next_put_tail hs hlt fun hc => hdisj y hc y (mem_cons_of_mem _ hy) rfl]
  obtain ⟨hone, hother⟩ := h.relink hs hch hlt hd' hrest
  refine ⟨h.of_heads (fun k _ => hd' ▸ put_word_head (tail_link_isLink hs) hlt k)
    fun k hk s hlt' => ?_, by rw [hd', next_put_tail hs hlt hkas]⟩
  by_cases hks : k = n.dir ∧ s = ffs_hash n.name HT_SIZE
  · obtain ⟨rfl, rfl⟩ := hks
    refine ⟨as ++ bs, hone, fun x => ?_⟩
    have hx := hch.mem x
    rw [mem_append, mem_cons] at hx
    rw [mem_append]
    by_cases hxk : x = key
    · subst hxk
      simp [hkas, (nodup_cons.mp hnbs).1]
    · simpa [hxk, Ne.symm hxk] using hx
  · obtain ⟨ys, hys⟩ := h.chain k hk s hlt'
    refine ⟨ys, hother k s ys hlt' hks hys, fun x => ?_⟩
    rw [hys.mem x]
    by_cases hx : x = key
    · subst hx
      have : ¬ InSlot t k s x := fun hc => hks (hc.unique hin)
      simp [this]
    · simp [Ne.symm hx]

/-- The node of an entry in no chain is set, changed or given up. -/
lemma Hashed.update {o : Option Node} {out' : Option Nat} (h : Hashed g d t out)
    (hroot : key ≠ g.root_key)
    (hout : out = some key ∨ out = none ∧ t key = none) (hout' : out' = some key ∨ out' =
      none ∧ o = none)
    (hd : ∀ k, k ≠ key → d'.data k = d.data k)
    (hnode : ∀ n, o = some n → NodeOk g d' key n ∧ IsDir g (Function.update t key o) n.dir ∧
      ∀ x m, x ≠ key → t x = some m → m.dir = n.dir → fold_name m.name ≠ fold_name n.name)
    (hown : ∀ n, o = some n → n.type.is_dir = true → ∀ s, s < HT_SIZE →
      ∃ xs, Chain d (slot_of d' key s) xs ∧ ∀ x, x ∈ xs ↔ out ≠ some x ∧ InSlot t key s x)
    (hleft : ∀ x m, x ≠ key → t x = some m → m.dir = key → ∃ n, o = some n ∧ n.type.is_dir = true) :
    Hashed g d' (Function.update t key o) out' := by
  have hne : ∀ x, x ≠ key → Function.update t key o x = t x :=
    fun x hx => Function.update_of_ne hx _ _
  have hself : Function.update t key o key = o := Function.update_self _ _ _
  have hdir : ∀ k, k ≠ key → (IsDir g (Function.update t key o) k ↔ IsDir g t k) := by
    intro k hk
    rw [IsDir, IsDir, hne k hk]
  have hslot : ∀ k s x, (out' ≠ some x ∧ InSlot (Function.update t key o) k s x) ↔
      (out ≠ some x ∧ InSlot t k s x) := by
    intro k s x
    by_cases hx : x = key
    · subst hx
      rw [InSlot, InSlot, hself]
      rcases hout with rfl | ⟨rfl, hn⟩ <;> rcases hout' with rfl | ⟨rfl, rfl⟩ <;> simp [*]
    · rw [InSlot, InSlot, hne x hx]
      rcases hout with rfl | ⟨rfl, _⟩ <;> rcases hout' with rfl | ⟨rfl, _⟩ <;> simp [Ne.symm hx]
  have hlinks : ∀ k s xs, Chain d (slot_of d' k s) xs →
      (∀ x, x ∈ xs ↔ out ≠ some x ∧ InSlot t k s x) →
      SlotChain d' (Function.update t key o) out' k s xs := by
    intro k s xs hc hmem
    refine ⟨hc.congr fun x hx => ?_, fun x => (hmem x).trans (hslot k s x).symm⟩
    have hxk : x ≠ key := by
      rintro rfl
      obtain ⟨h1, n, hn, _⟩ := (hmem x).mp hx
      rcases hout with rfl | ⟨_, hnone⟩
      · exact h1 rfl
      · rw [hnone] at hn
        cases hn
    rw [next_of, next_of, hd x hxk]
  refine ⟨?_, ?_, ?_, ?_, ?_⟩
  · have hr := SameHead.of_eq (hd _ (Ne.symm hroot))
    exact ⟨h.root.1.same hr, hr.sec.trans h.root.2.1, hr.parent.trans h.root.2.2⟩
  · intro x n hn
    rcases update_some hn with ⟨rfl, hn'⟩ | ⟨hx, hn'⟩
    · exact (hnode n hn').1
    · have hs := SameHead.of_eq (hd x hx)
      have ho := h.node x n hn'
      exact ⟨ho.toEntryOk.same hs, hs.parent.trans ho.parent, (hs.name_of ho.named.2).trans ho.name,
        hs.sec.trans ho.type⟩
  · intro x n hn
    rcases update_some hn with ⟨rfl, hn'⟩ | ⟨hx, hn'⟩
    · exact (hnode n hn').2.1
    by_cases hk : n.dir = key
    · obtain ⟨m, hm, hmd⟩ := hleft x n hx hn' hk
      exact .inr ⟨m, by rw [hk, hself, hm], hmd⟩
    · exact (hdir _ hk).mpr (h.dirs x n hn')
  · intro x n y m hn hm hdm hf
    rcases update_some hn with ⟨hx, hn'⟩ | ⟨hx, hn'⟩ <;>
      rcases update_some hm with ⟨hy, hm'⟩ | ⟨hy, hm'⟩
    · exact hx.trans hy.symm
    · exact absurd hf.symm ((hnode n hn').2.2 y m hy hm' hdm.symm)
    · exact absurd hf ((hnode m hm').2.2 x n hx hn' hdm)
    · exact h.names x n y m hn' hm' hdm hf
  · intro k hk s hs
    by_cases hkk : k = key
    · subst hkk
      rcases hk with hk | ⟨n, hn, hnd⟩
      · exact absurd hk hroot
      rw [hself] at hn
      obtain ⟨xs, hc, hmem⟩ := hown n hn hnd s hs
      exact ⟨xs, hlinks _ s xs hc hmem⟩
    · obtain ⟨xs, hc⟩ := h.chain k ((hdir k hkk).mp hk) s hs
      refine ⟨xs, hlinks k s xs ?_ hc.mem⟩
      rw [slot_of, hd k hkk]
      exact hc.links

/-! ## Lookup and listing -/

section lookup

variable (h : Hashed g d t out) (hroom : g.num_blocks ≤ d.num_sectors)
  (hn : g.num_blocks < 2 ^ 31) (hd : IsDir g t dir)
include h hroom hn hd

lemma Hashed.lookup (hname : name ≠ []) (hc : SlotChain d t out dir (ffs_hash name HT_SIZE) xs) :
    ffs_lookup g d dir name =
      (xs.find? fun x => fold_name (name_of d x) = fold_name name).getD 0 := by
  have he := h.entries hc
  have hle := he.length_le (h.nodup hc)
  rw [ffs_lookup, if_neg hname, (h.header hd).1.read hroom]
  dsimp only
  rw [block_lw (table_lt (hash_lt name))]
  refine lookup_loop_spec hroom he hc.links ?_
  rw [int_guard, if_pos hn]
  split <;> omega

/-- What FFS_Lookup finds is the entry of that name in the directory. -/
lemma Hashed.lookup_some (hx : ffs_lookup g d dir name = x) (h0 : x ≠ 0) :
    ∃ n, t x = some n ∧ n.dir = dir ∧ fold_name n.name = fold_name name := by
  have hname : name ≠ [] := by
    rintro rfl
    exact h0 hx.symm
  obtain ⟨xs, hc⟩ := h.chain dir hd _ (hash_lt name)
  rw [h.lookup hroom hn hd hname hc] at hx
  cases hf : xs.find? fun x => fold_name (name_of d x) = fold_name name with
  | none =>
    rw [hf] at hx
    exact absurd hx.symm h0
  | some y =>
    rw [hf] at hx
    obtain rfl : y = x := hx
    obtain ⟨_, n, hx, hdir, _⟩ := (hc.mem y).mp (mem_of_find?_eq_some hf)
    exact ⟨n, hx, hdir, by simpa [(h.node y n hx).name] using find?_some hf⟩

lemma Hashed.lookup_none (hname : name ≠ []) (hx : ffs_lookup g d dir name = 0) :
    ∀ x m, out ≠ some x → t x = some m → m.dir = dir → fold_name m.name ≠ fold_name name := by
  intro x m hout hm hmd heq
  obtain ⟨xs, hc⟩ := h.chain dir hd _ (hash_lt name)
  have hmem : x ∈ xs := (hc.mem x).mpr ⟨hout, m, hm, hmd, hash_fold heq⟩
  rw [h.lookup hroom hn hd hname hc] at hx
  cases hf : xs.find? fun x => fold_name (name_of d x) = fold_name name with
  | none =>
    have := find?_eq_none.mp hf x hmem
    exact this (decide_eq_true (by rw [(h.node x m hm).name]; exact heq))
  | some y =>
    rw [hf] at hx
    obtain rfl : y = 0 := hx
    have := (h.entries hc 0 (mem_of_find?_eq_some hf)).range
    omega

end lookup

/-- Every entry is found under its own name. -/
lemma Hashed.lookup_entry (h : Hashed g d t none) (hroom : g.num_blocks ≤ d.num_sectors)
    (hn : g.num_blocks < 2 ^ 31) (hx : t x = some n) : ffs_lookup g d n.dir n.name = x := by
  have hd := h.dirs x n hx
  have hname : n.name ≠ [] := by
    intro hc
    have := (h.node x n hx).named.1
    rw [(h.node x n hx).name, hc] at this
    exact absurd this (by decide)
  by_cases h0 : ffs_lookup g d n.dir n.name = 0
  · exact absurd rfl (h.lookup_none hroom hn hd hname h0 x n (by simp) hx rfl)
  · obtain ⟨m, hm, hdir, hfold⟩ := h.lookup_some hroom hn hd rfl h0
    exact h.names _ m x n hm hx hdir hfold

variable {ch : Nat → List Nat}

/-- The entries that the iterator has still to give when it is at the slot `i`. -/
def rest_from (ch : Nat → List Nat) (i : Nat) : List Nat :=
  (List.range' i (HT_SIZE - i)).flatMap ch

lemma rest_from_cons (hi : i < HT_SIZE) : rest_from ch i = ch i ++ rest_from ch (i + 1) := by
  have : HT_SIZE - i = (HT_SIZE - (i + 1)) + 1 := by omega
  rw [rest_from, this, range'_succ, flatMap_cons]
  rfl

lemma rest_from_end (hi : HT_SIZE ≤ i) : rest_from ch i = [] := by
  rw [rest_from, Nat.sub_eq_zero_of_le hi]
  rfl

/-- What a call of FFS_DirIterNext gives when the entries `zs` are left. -/
def Yields (g : Geom) (d : BlockDev) (ch : Nat → List Nat) (zs : List Nat)
    (r : FfsDirIter × Option FfsEntry) : Prop :=
  match zs with
  | [] => r.2 = none
  | z :: zs => ∃ e ys, r.2 = some e ∧ e.key = z ∧ Chain d r.1.chain_key ys ∧ Entries g d ys ∧
      zs = ys ++ rest_from ch r.1.ht_idx

section listing

variable (hroom : g.num_blocks ≤ d.num_sectors) (hdir : HeaderOk g d dir)
  (hch : ∀ s, s < HT_SIZE → Chain d (slot_of d dir s) (ch s) ∧ Entries g d (ch s))
include hroom hdir hch

lemma iter_loop_spec (hc : Chain d it.chain_key xs) (he : Entries g d xs)
    (hg : HT_SIZE - it.ht_idx < guard) :
    Yields g d ch (xs ++ rest_from ch it.ht_idx) (iter_loop g d dir guard it) := by
  induction guard generalizing it xs with
  | zero => exact absurd hg (Nat.not_lt_zero _)
  | succ guard ih =>
    obtain ⟨idx, a⟩ := it
    dsimp only at hc hg ⊢
    cases xs with
    | cons x xs =>
      -- a chain is under way
      obtain ⟨rfl, hrest⟩ : a = x ∧ Chain d (next_of d x) xs := chain_head hc
      have hx := he a mem_cons_self
      have hin := hx.range
      obtain ⟨e, hread, hkey, _, _, _, hnext, _⟩ := hx.read_entry hroom
      rw [iter_loop]
      dsimp only
      rw [if_pos (by omega), if_neg (by omega), hread]
      rw [← hnext] at hrest
      exact ⟨e, xs, rfl, hkey, hrest, (forall_mem_cons.mp he).2, rfl⟩
    | nil =>
      obtain rfl : a = 0 := hc
      rw [iter_loop]
      rw [if_neg (not_not.mpr rfl), nil_append]
      by_cases hidx : HT_SIZE ≤ idx
      · rw [if_pos hidx, rest_from_end hidx]
        rfl
      have hlt : idx < HT_SIZE := Nat.lt_of_not_le hidx
      obtain ⟨hslot, hents⟩ := hch idx hlt
      rw [if_neg hidx, hdir.read hroom, rest_from_cons hlt]
      dsimp only
      rw [block_lw (table_lt hlt)]
      cases hidx : ch idx with
      | nil =>
        rw [hidx] at hslot
        have h0 : blk_lw (d.data dir) (FFS_LW_TABLE + idx) = 0 := hslot
        rw [if_pos h0]
        have hzero : Chain d (FfsDirIter.chain_key ⟨idx + 1, 0⟩) [] := rfl
        exact ih hzero (fun y hy => nomatch hy) (by dsimp only; omega)
      | cons x xs =>
        rw [hidx] at hslot hents
        have hx := hents x mem_cons_self
        have hin := hx.range
        have h0 : blk_lw (d.data dir) (FFS_LW_TABLE + idx) = x := (chain_head hslot).1
        obtain ⟨e, hread, hkey, _, _, _, hnext, _⟩ := hx.read_entry hroom
        have hrest := (chain_head hslot).2
        rw [h0, if_neg (by omega), if_neg (by omega), hread]
        rw [← hnext] at hrest
        exact ⟨e, xs, rfl, hkey, hrest, (forall_mem_cons.mp hents).2, rfl⟩

/-- The entries that `n` calls of FFS_DirIterNext give, up to the first that gives none. -/
def iterate (g : Geom) (d : BlockDev) (dir : Nat) : Nat → FfsDirIter → List FfsEntry
  | 0, _ => []
  | n + 1, it =>
    match ffs_dir_iter_next g d dir it with
    | (_, none) => []
    | (it, some e) => e :: iterate g d dir n it

lemma iterate_spec {n : Nat} (hc : Chain d it.chain_key xs) (he : Entries g d xs)
    (hlen : (xs ++ rest_from ch it.ht_idx).length ≤ n) :
    (iterate g d dir n it).map FfsEntry.key = xs ++ rest_from ch it.ht_idx := by
  induction n generalizing it xs with
  | zero => rw [eq_nil_of_length_eq_zero (Nat.le_zero.mp hlen)]; rfl
  | succ n ih =>
    have hfuel : HT_SIZE - it.ht_idx < max g.num_blocks 4096 := by
      unfold HT_SIZE
      omega
    have hnext := iter_loop_spec hroom hdir hch hc he hfuel
    rw [iterate]
    change Yields g d ch _ (ffs_dir_iter_next g d dir it) at hnext
    generalize ffs_dir_iter_next g d dir it = r at *
    obtain ⟨it', o⟩ := r
    cases hz : xs ++ rest_from ch it.ht_idx with
    | nil =>
      rw [hz] at hnext
      obtain rfl : o = none := hnext
      rfl
    | cons z zs =>
      rw [hz] at hnext hlen
      obtain ⟨e, ys, ho, hkey, hys, heys, hzs⟩ := hnext
      obtain rfl : o = some e := ho
      rw [map_cons, hkey, ih hys heys (by
        rw [← hzs]
        exact Nat.le_of_succ_le_succ hlen), ← hzs]

end listing

end uaos.ffs
