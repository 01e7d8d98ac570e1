-- Runs of FFS_CreateFile, FFS_CreateDir, FFS_Delete and FFS_Rename. The tree keeps book
-- of what the calls did, and the volume holds that tree after every run. A rename never
-- clears the link of the moved entry, so the law below is about renames of entries that
-- are the last of their chain.
import Uaos.FfsNames

namespace uaos.ffs

open List

variable {g : Geom} {v v' : Vol} {d : BlockDev} {k s x dir : Nat} {xs : List Nat} {t : Tree}
  {path old new name : List UInt8} {ty : SecType} {n : Node} {now : DateStamp}

/-! ## The calls -/

inductive DirOp where
  | create_file (path : List UInt8) (now : DateStamp)
  | create_dir (path : List UInt8) (now : DateStamp)
  | delete (path : List UInt8)
  | rename (old_path new_path : List UInt8) (now : DateStamp)

/-- The tree after a call that made an entry and gave `key`. A file that was there
before is only emptied. -/
def created (g : Geom) (d : BlockDev) (t : Tree) (path : List UInt8) (ty : SecType) (key : Nat) :
    Tree :=
  match ffs_split_path g d path with
  | some (dir, name) =>
    if key = 0 ∨ ffs_lookup g d dir name ≠ 0 then t
    else Function.update t key (some ⟨dir, name, ty⟩)
  | none => t

/-- The tree after a call that deleted an entry and gave `code`. -/
def deleted (g : Geom) (d : BlockDev) (t : Tree) (path : List UInt8) (code : Int) : Tree :=
  match ffs_split_path g d path with
  | some (dir, name) => if code = 0 then Function.update t (ffs_lookup g d dir name) none else t
  | none => t

/-- The tree after a call that moved an entry and gave `code`. -/
def renamed (g : Geom) (d : BlockDev) (t : Tree) (old new : List UInt8) (code : Int) : Tree :=
  match ffs_split_path g d old, ffs_split_path g d new with
  | some (odir, oname), some (ndir, nname) =>
    let key := ffs_lookup g d odir oname
    if code = 0 then Function.update t key ((t key).map fun n => ⟨ndir, nname, n.type⟩) else t
  | _, _ => t

/-- A call, with the volume and the tree before and after it. -/
def dir_step (g : Geom) : Vol × Tree → DirOp → Option (Vol × Tree)
  | (v, t), .create_file path now =>
    let r := ffs_create_file g v path now
    some (r.1, created g v.dev t path .file r.2)
  | (v, t), .create_dir path now =>
    let r := ffs_create_dir g v path now
    some (r.1, created g v.dev t path .userdir r.2)
  | (v, t), .delete path =>
    let r := ffs_delete g v path
    some (r.1, deleted g v.dev t path r.2)
  | (v, t), .rename old new now =>
    let r := ffs_rename g v old new now
    some (r.1, renamed g v.dev t old new r.2)

/-- The entry that a rename moves is the last one of its chain. -/
def moves_last (g : Geom) (d : BlockDev) (old new : List UInt8) : Bool :=
  match ffs_split_path g d old, ffs_split_path g d new with
  | some (odir, oname), some (ndir, nname) =>
    ffs_lookup g d odir oname = 0 || ffs_lookup g d ndir nname ≠ 0 ||
      next_of d (ffs_lookup g d odir oname) = 0
  | _, _ => true

def op_ok (g : Geom) (s : Vol × Tree) : DirOp → Prop
  | .create_file path _ => path_ok g s.1.dev path = true
  | .create_dir path _ => path_ok g s.1.dev path = true
  | .delete path => path_ok g s.1.dev path = true
  | .rename old new _ => path_ok g s.1.dev old = true ∧ path_ok g s.1.dev new = true ∧
    moves_last g s.1.dev old new = true

instance (g : Geom) (s : Vol × Tree) : ∀ op, Decidable (op_ok g s op)
  | .create_file _ _ => inferInstanceAs (Decidable (_ = true))
  | .create_dir _ _ => inferInstanceAs (Decidable (_ = true))
  | .delete _ => inferInstanceAs (Decidable (_ = true))
  | .rename _ _ _ => inferInstanceAs (Decidable (_ = true ∧ _ = true ∧ _ = true))

/-! ## What a call leaves -/

lemma created_zero : created g d t path ty 0 = t := by
  unfold created
  split
  · exact if_pos (.inl rfl)
  · rfl

lemma deleted_failed {code : Int} (hc : code ≠ 0) : deleted g d t path code = t := by
  unfold deleted
  split
  · exact if_neg hc
  · rfl

lemma renamed_failed {code : Int} (hc : code ≠ 0) : renamed g d t old new code = t := by
  unfold renamed
  split
  · exact if_neg hc
  · rfl

section

variable (h : VolOk g v.dev t none)
include h

lemma VolOk.lookup (hd : IsDir g t dir) (h0 : ffs_lookup g v.dev dir name ≠ 0) :
    ∃ n, t (ffs_lookup g v.dev dir name) = some n ∧ n.dir = dir ∧ fold_name n.name =
      fold_name name :=
  h.hashed.lookup_some h.bitmap.room h.small hd rfl h0

/-- What FFS_ReadEntry gives for an entry of the tree. -/
lemma VolOk.read_node (hn : t x = some n) :
    ∃ e, ffs_read_entry g v.dev x = some e ∧ e.sec_type = n.type ∧ e.sec_type ≠ .root ∧
      e.name = n.name := by
  have hx := h.hashed.node x n hn
  obtain ⟨e, hread, _, ht, hnr, _, _, hname⟩ := hx.read_entry h.bitmap.room
  rw [hx.type, Option.some.injEq] at ht
  exact ⟨e, hread, ht.symm, hnr, hname.trans hx.name⟩

lemma create_entry_step {r : Vol × Nat} (hok : path_ok g v.dev path = true) (hroot : ty ≠ .root)
    (hr : ffs_create_entry g v path ty now = r) :
    VolOk g r.1.dev (created g v.dev t path ty r.2) none := by
  have hsame : VolOk g v.dev (created g v.dev t path ty 0) none := by rwa [created_zero]
  unfold ffs_create_entry at hr
  cases hsplit : ffs_split_path g v.dev path with
  | none =>
    rw [hsplit] at hr
    exact hr ▸ hsame
  | some p =>
    obtain ⟨dir, name⟩ := p
    obtain ⟨hd, hname⟩ := h.split_path hok hsplit
    rw [hsplit] at hr
    dsimp only at hr
    by_cases hl : ffs_lookup g v.dev dir name = 0
    · have hnew := h.hashed.lookup_none h.bitmap.room h.small hd hname.pos hl
      rw [if_neg (not_not.mpr hl)] at hr
      rcases alloc_block_spec h.bitmap with ⟨hcall, _⟩ | ⟨v1, key, hcall, hfree, hc, hbits⟩
      · rw [hcall] at hr
        exact hr ▸ hsame
      have hrange := marked_range hfree
      have hroom := hc.ok.room
      have hkey : key ≠ 0 := by omega
      rw [hcall] at hr
      dsimp only at hr
      rw [if_neg hkey, blockdev_write_ok (by omega)] at hr
      obtain ⟨hvol, hnext⟩ := h.new_entry now hd hfree hc hbits hname hroot
        (fun x m hm => hnew x m (by simp) hm) rfl
      obtain ⟨v2, hins, hvol2⟩ :=
        VolOk.insert (v := { v1 with dev := v1.dev.store key (new_header key dir name ty now) 1 })
          hvol
          (Function.update_self _ _ _) hnext
      dsimp only at hins hr
      rw [hins] at hr
      subst hr
      rw [created, hsplit]
      dsimp only
      rw [if_neg (by simp [hkey, hl])]
      exact hvol2
    · rw [if_pos hl] at hr
      exact hr ▸ hsame

lemma create_file_step {r : Vol × Nat} (hok : path_ok g v.dev path = true)
    (hr : ffs_create_file g v path now = r) :
    VolOk g r.1.dev (created g v.dev t path .file r.2) none := by
  have hnew : ∀ r, ffs_create_entry g v path .file now = r →
      VolOk g r.1.dev (created g v.dev t path .file r.2) none := fun r hr =>
    create_entry_step h hok (by decide) hr
  unfold ffs_create_file at hr
  cases hsplit : ffs_split_path g v.dev path with
  | none =>
    rw [hsplit] at hr
    exact hnew r hr
  | some p =>
    obtain ⟨dir, name⟩ := p
    obtain ⟨hd, _⟩ := h.split_path hok hsplit
    rw [hsplit] at hr
    dsimp only at hr
    by_cases h0 : ffs_lookup g v.dev dir name = 0
    · rw [if_pos h0] at hr
      exact hnew r hr
    have htree : created g v.dev t path .file r.2 = t := by
      rw [created, hsplit]
      exact if_pos (.inr h0)
    rw [htree]
    rw [if_neg h0] at hr
    obtain ⟨n, hn, _⟩ := h.lookup hd h0
    generalize ffs_lookup g v.dev dir name = x at h0 hn hr
    obtain ⟨e, hread, ht, _⟩ := h.read_node hn
    rw [hread] at hr
    dsimp only at hr
    split at hr
    · rename_i hf
      have hfile : IsFile t.types x := ⟨n.type, types_of hn, ht ▸ hf⟩
      have hnode := h.hashed.node x n hn
      obtain ⟨v1, hcall, hemp⟩ := set_file_size_zero hnode.toHeaderOk
        (h.owned.offSys hfile) (fun hc => hfile.ne_none (h.owned.blocks x hfile x hc).2.2) h.bitmap
        hnode.type (ht ▸ hf) (h.owned.table x hfile) now
      rw [hcall] at hr
      exact hr ▸ h.emptied hfile hemp
    · exact hr ▸ h

/-- A directory without a set slot has no entries. -/
lemma VolOk.empty_dir (hk : IsDir g t k) (hcode : dir_code g v.dev k = 0) :
    ∀ x m, t x = some m → m.dir ≠ k := by
  rintro x m hm rfl
  have hs := hash_lt m.name
  obtain ⟨xs, hc⟩ := h.hashed.chain m.dir hk _ hs
  have hx : x ∈ xs := (hc.mem x).mpr ⟨by simp, m, hm, rfl, rfl⟩
  rw [dir_code, (h.hashed.header hk).1.read h.bitmap.room] at hcode
  dsimp only at hcode
  split at hcode
  · rename_i hall
    have h0 := List.all_eq_true.mp hall _ (mem_range.mpr hs)
    rw [decide_eq_true_eq, block_lw (table_lt hs)] at h0
    cases xs with
    | nil => cases hx
    | cons y ys =>
      have hy := (h.hashed.entries hc y mem_cons_self).range
      have : slot_of v.dev m.dir (ffs_hash m.name HT_SIZE) = y := (chain_head hc.links).1
      rw [slot_of, h0] at this
      omega
  · cases hcode

lemma delete_step {r : Vol × Int} (hok : path_ok g v.dev path = true)
    (hr : ffs_delete g v path = r) :
    VolOk g r.1.dev (deleted g v.dev t path r.2) none := by
  have hsame : ∀ code, code ≠ 0 → VolOk g v.dev (deleted g v.dev t path code) none := by
    intro code hc
    rwa [deleted_failed hc]
  unfold ffs_delete at hr
  cases hsplit : ffs_split_path g v.dev path with
  | none =>
    rw [hsplit] at hr
    exact hr ▸ hsame (-1) (by decide)
  | some p =>
    obtain ⟨dir, name⟩ := p
    obtain ⟨hd, _⟩ := h.split_path hok hsplit
    rw [hsplit] at hr
    dsimp only at hr
    by_cases h0 : ffs_lookup g v.dev dir name = 0
    · rw [if_pos h0] at hr
      exact hr ▸ hsame (-1) (by decide)
    rw [if_neg h0] at hr
    obtain ⟨n, hn, rfl, _⟩ := h.lookup hd h0
    obtain ⟨e, hread, ht, hnr, hname⟩ := h.read_node hn
    rw [hread] at hr
    dsimp only at hr
    rw [if_neg hnr] at hr
    generalize hx : ffs_lookup g v.dev n.dir name = x at h0 hn hr
    by_cases hbusy : (if e.sec_type.is_dir = true then dir_code g v.dev x else 0) = 0
    · obtain ⟨v1, hcall, hvol, _⟩ := h.remove hn
      rw [if_neg (not_not.mpr hbusy), hname, hcall] at hr
      subst hr
      rw [deleted, hsplit]
      dsimp only
      rw [if_pos rfl, hx, ht]
      have hhead := hvol.owned.header x (by simp [types_of hn])
      refine hvol.drop hn
        (free_entry_spec hvol.bitmap (hvol.hashed.node x n hn).sound hhead.1 hhead.2.1
        fun hf => hvol.owned.offSys ⟨_, types_of hn, hf⟩) fun y m _ hm => ?_
      -- a directory is deleted when it is empty
      by_cases hdir : e.sec_type.is_dir = true
      · rw [if_pos hdir] at hbusy
        exact h.empty_dir (.inr ⟨n, hn, ht ▸ hdir⟩) hbusy y m hm
      · rintro rfl
        rcases h.hashed.dirs y m hm with hr | ⟨n', hn', hd'⟩
        · exact h.not_root hn hr
        · rw [hn] at hn'
          cases hn'
          exact hdir (ht ▸ hd')
    · rw [if_pos hbusy] at hr
      exact hr ▸ hsame _ hbusy

lemma rename_step {r : Vol × Int} (hold : path_ok g v.dev old = true)
    (hnew : path_ok g v.dev new = true) (hlast : moves_last g v.dev old new = true)
    (hr : ffs_rename g v old new now = r) :
    VolOk g r.1.dev (renamed g v.dev t old new r.2) none := by
  have hsame : ∀ code, code ≠ 0 → VolOk g v.dev (renamed g v.dev t old new code) none := by
    intro code hc
    rwa [renamed_failed hc]
  unfold ffs_rename at hr
  rw [moves_last] at hlast
  cases hsplit : ffs_split_path g v.dev old with
  | none =>
    rw [hsplit] at hr
    exact hr ▸ hsame (-1) (by decide)
  | some p =>
    cases hsplit' : ffs_split_path g v.dev new with
    | none =>
      rw [hsplit, hsplit'] at hr
      exact hr ▸ hsame (-1) (by decide)
    | some q =>
      obtain ⟨odir, oname⟩ := p
      obtain ⟨ndir, nname⟩ := q
      obtain ⟨hod, _⟩ := h.split_path hold hsplit
      obtain ⟨hnd, hname⟩ := h.split_path hnew hsplit'
      rw [hsplit, hsplit'] at hlast hr
      dsimp only at hlast hr
      by_cases h0 : ffs_lookup g v.dev odir oname = 0
      · rw [if_pos h0] at hr
        exact hr ▸ hsame (-1) (by decide)
      rw [if_neg h0] at hr
      by_cases h1 : ffs_lookup g v.dev ndir nname = 0
      · have hnext : next_of v.dev (ffs_lookup g v.dev odir oname) = 0 := by
          simpa [h0, h1] using hlast
        have hfresh := h.hashed.lookup_none h.bitmap.room h.small hnd hname.pos h1
        obtain ⟨n, hn, rfl, _⟩ := h.lookup hod h0
        obtain ⟨e, hread, _, hnr, hen⟩ := h.read_node hn
        rw [if_neg (not_not.mpr h1), hread] at hr
        dsimp only at hr
        rw [if_neg hnr, hen] at hr
        generalize hx : ffs_lookup g v.dev n.dir oname = x at h0 hn hnext hr
        obtain ⟨v1, hcall, hvol, hnx⟩ := h.remove hn
        have hroom1 := hvol.bitmap.room
        have hnode := hvol.hashed.node x n hn
        have hxr := hnode.range.2
        rw [hcall] at hr
        dsimp only at hr
        rw [hnode.read hroom1] at hr
        dsimp only at hr
        rw [write_hdr_ok (by omega)] at hr
        obtain ⟨hvol2, hnx2⟩ := hvol.patch hn hname hnd now (fun y m _ => hfresh y m (by simp)) rfl
        obtain ⟨v3, hins, hvol3⟩ := VolOk.insert
          (v := { v1 with
            dev := store_hdr v1.dev x (put_stamp (patch_name (block v1.dev x) nname ndir) now) })
          hvol2 (Function.update_self _ _ _) (hnx2.trans (hnx.trans hnext))
        dsimp only at hins hr
        rw [hins] at hr
        subst hr
        rw [renamed, hsplit, hsplit']
        dsimp only
        rw [if_pos rfl, hx, hn]
        exact hvol3
      · rw [if_pos h1] at hr
        exact hr ▸ hsame (-2) (by decide)

end

lemma dir_step_ok {s : Vol × Tree} {op : DirOp} (h : VolOk g s.1.dev s.2 none)
    (hok : op_ok g s op) :
    ∃ s', dir_step g s op = some s' ∧ VolOk g s'.1.dev s'.2 none := by
  cases op with
  | create_file path now => exact ⟨_, rfl, create_file_step h hok rfl⟩
  | create_dir path now => exact ⟨_, rfl, create_entry_step h hok (by decide) rfl⟩
  | delete path => exact ⟨_, rfl, delete_step h hok rfl⟩
  | rename old new now => exact ⟨_, rfl, rename_step h hok.1 hok.2.1 hok.2.2 rfl⟩

/-! ## Every entry in its chain -/

/-- The entries of a chain, from its first key on. -/
def HashChain (d : BlockDev) (a : Nat) (xs : List Nat) : Prop := (∀ x ∈ xs, x ≠ 0) ∧ Chain d a xs

/-- The volume holds the tree: the header of an entry has its directory, its name and its
type, the hash chains of the directories are finite and have each entry once, in the slot
of its name in its directory, and lookups and listings give the entries of the tree and
nothing else. -/
structure Consistent (g : Geom) (d : BlockDev) (t : Tree) : Prop where
  header : ∀ x n, t x = some n → IsDir g t n.dir ∧ parent_of d x = n.dir ∧ name_of d x = n.name ∧
    type_of d x = some n.type
  finite : ∀ k, IsDir g t k → ∀ s, s < HT_SIZE → ∃ xs, HashChain d (slot_of d k s) xs
  placed : ∀ k, IsDir g t k → ∀ s, s < HT_SIZE → ∀ xs, HashChain d (slot_of d k s) xs →
    xs.Nodup ∧ ∀ x, x ∈ xs ↔ InSlot t k s x
  lookup : ∀ x n, t x = some n → ffs_lookup g d n.dir n.name = x
  listing : ∀ k, IsDir g t k → ∀ m, g.num_blocks ≤ m →
    ((iterate g d k m ffs_dir_iter_init).map FfsEntry.key).Nodup ∧
    ∀ x, x ∈ (iterate g d k m ffs_dir_iter_init).map FfsEntry.key ↔ ∃ n, t x = some n ∧ n.dir = k

section

variable (h : VolOk g d t none)
include h

lemma VolOk.hashChain (hk : IsDir g t k) (hs : s < HT_SIZE) :
    (∃ xs, HashChain d (slot_of d k s) xs) ∧
      ∀ xs, HashChain d (slot_of d k s) xs → SlotChain d t none k s xs := by
  obtain ⟨ys, hc⟩ := h.hashed.chain k hk s hs
  have hpos := (h.hashed.entries hc).pos
  refine ⟨⟨ys, hpos, hc.links⟩, ?_⟩
  rintro xs ⟨h0, hx⟩
  rwa [chain.Path.unique Function.injective_id h0 hpos hx hc.links]

lemma VolOk.listing {m : Nat} (hk : IsDir g t k) (hm : g.num_blocks ≤ m) :
    ((iterate g d k m ffs_dir_iter_init).map FfsEntry.key).Nodup ∧
      ∀ x, x ∈ (iterate g d k m ffs_dir_iter_init).map FfsEntry.key ↔ ∃ n, t x = some n ∧
        n.dir = k := by
  have hex : ∀ s, ∃ xs, s < HT_SIZE → SlotChain d t none k s xs := by
    intro s
    by_cases hs : s < HT_SIZE
    · obtain ⟨xs, hc⟩ := h.hashed.chain k hk s hs
      exact ⟨xs, fun _ => hc⟩
    · exact ⟨[], fun hc => absurd hc hs⟩
  obtain ⟨ch, hch⟩ := Classical.axiomOfChoice hex
  have hmem : ∀ x, x ∈ (List.range HT_SIZE).flatMap ch ↔ ∃ n, t x = some n ∧ n.dir = k := by
    intro x
    rw [mem_flatMap]
    constructor
    · rintro ⟨s, hs, hx⟩
      obtain ⟨_, n, hn, hd, _⟩ := ((hch s (mem_range.mp hs)).mem x).mp hx
      exact ⟨n, hn, hd⟩
    · rintro ⟨n, hn, hd⟩
      have hs := hash_lt n.name
      exact ⟨_, mem_range.mpr hs, ((hch _ hs).mem x).mpr ⟨by simp, n, hn, hd, rfl⟩⟩
  have hnd : ((List.range HT_SIZE).flatMap ch).Nodup := by
    refine nodup_flatMap.mpr ⟨fun s hs => h.hashed.nodup (hch s (mem_range.mp hs)), ?_⟩
    refine List.Pairwise.imp_of_mem ?_ (nodup_range (n := HT_SIZE))
    intro s s' hs hs' hne x hx hx'
    have hin := (((hch s (mem_range.mp hs)).mem x).mp hx).2
    have hin' := (((hch s' (mem_range.mp hs')).mem x).mp hx').2
    exact hne (hin.unique hin').2
  have hall : Entries g d ((List.range HT_SIZE).flatMap ch) := by
    intro x hx
    obtain ⟨n, hn, _⟩ := (hmem x).mp hx
    exact (h.hashed.node x n hn).toEntryOk
  have hrest : rest_from ch 0 = (List.range HT_SIZE).flatMap ch := by
    rw [rest_from, Nat.sub_zero, ← range_eq_range']
  have hit : (iterate g d k m ffs_dir_iter_init).map FfsEntry.key = [] ++ rest_from ch 0 :=
    iterate_spec h.bitmap.room (h.hashed.header hk).1
      (fun s hs => ⟨(hch s hs).links, h.hashed.entries (hch s hs)⟩) rfl
      (fun _ hx => absurd hx not_mem_nil) (by
        rw [nil_append]
        change (rest_from ch 0).length ≤ m
        rw [hrest]
        exact (hall.length_le hnd).trans hm)
  rw [hit, nil_append, hrest]
  exact ⟨hnd, hmem⟩

lemma VolOk.consistent : Consistent g d t := by
  refine ⟨fun x n hn => ?_, fun k hk s hs => (h.hashChain hk hs).1, ?_, ?_, ?_⟩
  · have hx := h.hashed.node x n hn
    exact ⟨h.hashed.dirs x n hn, hx.parent, hx.name, hx.type⟩
  · intro k hk s hs xs hc
    have hsc := (h.hashChain hk hs).2 xs hc
    exact ⟨h.hashed.nodup hsc, fun x => (hsc.mem x).trans (by simp)⟩
  · exact fun x n hn => h.hashed.lookup_entry h.bitmap.room h.small hn
  · exact fun k hk m hm => h.listing hk hm

end

/-- After every run of such calls on a well-formed volume, the volume holds the tree that
the calls have made of the first one: each entry is in one hash chain, that of its name in
its directory, and is found and listed there. -/
theorem every_entry_stays_in_its_chain (g : Geom) (v : Vol) (t : Tree) (ops : List DirOp)
    (h0 : VolOk g v.dev t none) (hok : RunOk (dir_step g) (op_ok g) (v, t) ops) :
    ∃ v' t', run (dir_step g) (v, t) ops = some (v', t') ∧ Consistent g v'.dev t' := by
  have hstep : ∀ s op, VolOk g s.1.dev s.2 none → op_ok g s op →
      ∃ s', dir_step g s op = some s' ∧ VolOk g s'.1.dev s'.2 none :=
        fun _ _ hs hp => dir_step_ok hs hp
  obtain ⟨⟨v', t'⟩, hrun, h⟩ := run_invariant hstep h0 hok
  exact ⟨v', t', hrun, h.consistent⟩

/-! ## Two names in one slot -/

def tiny_geom : Geom where
  is_ofs := false
  root_key := 5
  num_blocks := 10
  bitmap_valid := true

def today : DateStamp := ⟨0, 0, 0⟩

/-- The root block of a volume whose bitmap is the block 2. Its one chain starts with
the block 3. -/
def tiny_root : Buf :=
  blk_fix_checksum (blk_put32 (blk_put32 (blk_put32 (blk_put32 zeros FFS_LW_TYPE FFS_T_HEADER)
    (FFS_LW_TABLE + 6) 3) FFS_LW_BM_PAGES 2) FFS_LW_SEC_TYPE SecType.root.code)

/-- A volume with the empty files `a` and `ec`, whose names have one hash. -/
def tiny_vol : Vol where
  dev :=
    { data := fun t =>
        if t = 2 then blk_put32 zeros 1 240
        else if t = 3 then
          blk_fix_checksum (blk_put32 (header_body 3 5 [97] .file today) FFS_LW_NEXT_HASH 4)
        else if t = 4 then blk_fix_checksum (header_body 4 5 [101, 99] .file today)
        else if t = 5 then tiny_root
        else zeros
      num_sectors := 10
      part_offset := 0 }
  used_blocks := 4

def tiny_tree : Tree := fun x =>
  if x = 3 then some ⟨5, [97], .file⟩ else if x = 4 then some ⟨5, [101, 99], .file⟩ else none

lemma tiny_tree_some (hn : tiny_tree x = some n) :
    x = 3 ∧ n = ⟨5, [97], .file⟩ ∨ x = 4 ∧ n = ⟨5, [101, 99], .file⟩ := by
  unfold tiny_tree at hn
  split at hn
  · rename_i h3
    exact .inl ⟨h3, (Option.some.inj hn).symm⟩
  split at hn
  · rename_i h4
    exact .inr ⟨h4, (Option.some.inj hn).symm⟩
  · cases hn

lemma tiny_dir (hk : IsDir tiny_geom tiny_tree k) : k = 5 := by
  rcases hk with hk | ⟨n, hn, hd⟩
  · exact hk
  · rcases tiny_tree_some hn with ⟨_, rfl⟩ | ⟨_, rfl⟩ <;> cases hd

lemma tiny_node (hn : tiny_tree x = some n) : NodeOk tiny_geom tiny_vol.dev x n := by
  have hfile : SecType.file ≠ .root := by decide
  rcases tiny_tree_some hn with ⟨rfl, rfl⟩ | ⟨rfl, rfl⟩ <;>
    exact ⟨⟨⟨by decide, by decide +kernel, by decide +kernel⟩, ⟨_, by decide +kernel, hfile⟩,
      by decide +kernel, by decide +kernel⟩, by decide +kernel, by decide +kernel,
      by decide +kernel⟩

lemma tiny_slot : InSlot tiny_tree 5 s x ↔ s = 6 ∧ (x = 3 ∨ x = 4) := by
  have h3 : ffs_hash [97] HT_SIZE = 6 := by decide +kernel
  have h4 : ffs_hash [101, 99] HT_SIZE = 6 := by decide +kernel
  constructor
  · rintro ⟨n, hn, _, rfl⟩
    rcases tiny_tree_some hn with ⟨rfl, rfl⟩ | ⟨rfl, rfl⟩
    · exact ⟨h3, .inl rfl⟩
    · exact ⟨h4, .inr rfl⟩
  · rintro ⟨rfl, rfl | rfl⟩
    · exact ⟨_, rfl, rfl, h3⟩
    · exact ⟨_, rfl, rfl, h4⟩

lemma tiny_hashed : Hashed tiny_geom tiny_vol.dev tiny_tree none := by
  refine ⟨⟨⟨by decide, by decide +kernel, by decide +kernel⟩, by decide +kernel, by decide +kernel⟩,
    fun x n hn => tiny_node hn, fun x n hn => .inl ?_, fun x n y m hn hm _ hf => ?_,
      fun k hk s hs => ?_⟩
  · rcases tiny_tree_some hn with ⟨_, rfl⟩ | ⟨_, rfl⟩ <;> rfl
  · have hne : fold_name [97] ≠ fold_name [101, 99] := by decide
    rcases tiny_tree_some hn with ⟨rfl, rfl⟩ | ⟨rfl, rfl⟩ <;>
      rcases tiny_tree_some hm with ⟨rfl, rfl⟩ | ⟨rfl, rfl⟩
    · rfl
    · exact absurd hf hne
    · exact absurd hf.symm hne
    · rfl
  · obtain rfl := tiny_dir hk
    have hslots : ∀ s, s < HT_SIZE → slot_of tiny_vol.dev 5 s = if s = 6 then 3 else 0 := by
      decide +kernel
    by_cases h6 : s = 6
    · subst h6
      have hnext : next_of tiny_vol.dev 3 = 4 ∧ next_of tiny_vol.dev 4 = 0 := by decide +kernel
      exact ⟨[3, 4], ⟨(hslots 6 hs).trans (if_pos rfl), hnext⟩, fun x => by simp [tiny_slot]⟩
    · refine ⟨[], (hslots s hs).trans (if_neg h6), fun x => ?_⟩
      simp [tiny_slot, h6]

lemma tiny_vol_ok : VolOk tiny_geom tiny_vol.dev tiny_tree none := by
  have hin : ∀ x, tiny_tree.types x ≠ none → x = 3 ∨ x = 4 := by
    intro x hx
    obtain ⟨n, hn⟩ := Option.ne_none_iff_exists'.mp (types_ne_none.mp hx)
    exact (tiny_tree_some hn).imp And.left And.left
  have hnil : ∀ x, IsFile tiny_tree.types x → file_blocks tiny_geom tiny_vol.dev x = [] := by
    intro x hx
    rcases hin x hx.ne_none with rfl | rfl <;> decide +kernel
  refine ⟨by decide, ⟨by decide, by decide, by decide +kernel, by decide +kernel⟩, tiny_hashed,
    fun x hx => ?_, fun x hx => ?_, fun x hx k hk => ?_, fun x y hx _ _ k hk => ?_⟩
  · rcases hin x hx with rfl | rfl <;> exact ⟨by decide, by decide +kernel, by decide +kernel⟩
  · rcases hin x hx.ne_none with rfl | rfl <;> decide +kernel
  · rw [hnil x hx] at hk
    cases hk
  · rw [hnil x hx] at hk
    cases hk

/-- The last file of the slot is renamed, the other one is deleted, and a directory is
made. -/
def rename_last_of_two : List DirOp :=
  [.rename [101, 99] [98] today, .delete [97], .create_dir [100] today]

/-- The volume has the renamed file and the new directory then. -/
theorem chains_after_a_rename_and_a_delete :
    ∃ v' t', run (dir_step tiny_geom) (tiny_vol, tiny_tree) rename_last_of_two = some (v', t') ∧
      (t' 4).map Node.name = some [98] ∧ (t' 3).map Node.name = some [100] ∧
      Consistent tiny_geom v'.dev t' := by
  obtain ⟨v', t', hrun, hc⟩ := every_entry_stays_in_its_chain tiny_geom tiny_vol tiny_tree
    rename_last_of_two tiny_vol_ok (by decide +kernel)
  have hnames : (run (dir_step tiny_geom) (tiny_vol, tiny_tree) rename_last_of_two).map (fun s =>
      ((s.2 4).map Node.name, (s.2 3).map Node.name)) = some (some [98], some [100]) := by
    decide +kernel
  rw [hrun] at hnames
  simp only [Option.map_some, Option.some.injEq, Prod.mk.injEq] at hnames
  exact ⟨v', t', hrun, hnames.1, hnames.2, hc⟩

/-- When the first of the two files is renamed, it takes the other one into its new
chain. -/
theorem a_rename_puts_the_next_file_in_two_chains :
    VolOk tiny_geom tiny_vol.dev tiny_tree none ∧
    ∃ v' t', run (dir_step tiny_geom) (tiny_vol, tiny_tree) [.rename [97] [98] today] =
      some (v', t') ∧
      ¬ Consistent tiny_geom v'.dev t' := by
  refine ⟨tiny_vol_ok, ?_⟩
  have hrun : (run (dir_step tiny_geom) (tiny_vol, tiny_tree) [.rename [97] [98] today]).map
    (fun s =>
      (slot_of s.1.dev 5 6, slot_of s.1.dev 5 7, next_of s.1.dev 3, next_of s.1.dev 4)) =
        some (4, 3, 4, 0) := by
    decide +kernel
  obtain ⟨⟨v', t'⟩, hv, hw⟩ := Option.map_eq_some_iff.mp hrun
  simp only [Prod.mk.injEq] at hw
  obtain ⟨h6, h7, h3, h4⟩ := hw
  refine ⟨v', t', hv, fun hc => ?_⟩
  have hfirst : HashChain v'.dev (slot_of v'.dev tiny_geom.root_key 6) [4] :=
    ⟨by decide, h6, h4⟩
  have hsecond : HashChain v'.dev (slot_of v'.dev tiny_geom.root_key 7) [3, 4] :=
    ⟨by decide, h7, h3, h4⟩
  have hin := ((hc.placed _ (.inl rfl) 6 (by decide) _ hfirst).2 4).mp (by decide)
  have hin' := ((hc.placed _ (.inl rfl) 7 (by decide) _ hsecond).2 4).mp (by decide)
  have := (hin.unique hin').2
  omega

end uaos.ffs
