-- Several handles on one file: FAT32_Close always puts the size and the first
-- cluster of its handle into the directory entry, so a handle that wrote nothing
-- brings back old values. It does not when no such handle is open while another one
-- changes the entry.
import Uaos.FatEntry
import Uaos.FatHandler
import Uaos.FatWalk
import Uaos.Run

namespace uaos.fat32

variable {g : Geom} {v v' : Vol} {d d' : BlockDev} {D : Nat → Prop} {f f' : Fat32File} {c n : Nat}

/-! ## Clusters set apart -/

/-- `c` is not in `D`, and is a cluster of the volume or ends a chain. -/
def Outside (g : Geom) (D : Nat → Prop) (c : Nat) : Prop :=
  ¬ D c ∧ (InRange g c ∨ c < 2 ∨ is_eoc c = true)

/-- The clusters of `D` are in use and no other cluster links to them, as those of
the directories. -/
structure Apart (g : Geom) (d : BlockDev) (D : Nat → Prop) : Prop where
  geom : GeomOk g d.num_sectors
  used : ∀ x, D x → InRange g x ∧ fat g d x ≠ 0
  links : ∀ x, InRange g x → ¬ D x → Outside g D (fat g d x)

/-- Writes that leave the clusters of `D` and keep them apart. -/
structure Aside (g : Geom) (D : Nat → Prop) (v v' : Vol) : Prop where
  apart : Apart g v'.bdev D
  size : v'.bdev.num_sectors = v.bdev.num_sectors
  keep : ∀ c t, D c → InClus g c t → v'.bdev.data t = v.bdev.data t

lemma Aside.refl (h : Apart g v.bdev D) : Aside g D v v := ⟨h, rfl, fun _ _ _ _ => rfl⟩

lemma Aside.trans {v'' : Vol} (h : Aside g D v v') (h' : Aside g D v' v'') : Aside g D v v'' :=
  ⟨h'.apart, h'.size.trans h.size, fun c t hc ht => (h'.keep c t hc ht).trans (h.keep c t hc ht)⟩

lemma Apart.not_small (h : Apart g d D) (hc : c < 2) : ¬ D c := by
  intro hD
  have := (h.used c hD).1.1
  omega

lemma Apart.not_eoc (h : Apart g d D) (hc : is_eoc c = true) : ¬ D c := by
  intro hD
  rw [h.geom.not_eoc (h.used c hD).1] at hc
  cases hc

/-- Writes to the FAT and to sectors of no cluster of `D`. -/
lemma Apart.aside {P : Nat → Prop} (h : Apart g v.bdev D) (hw : Touches P v.bdev v'.bdev)
    (hP : ∀ c t, D c → InClus g c t → ¬ P t)
    (hfat : ∀ x, InRange g x → fat g v'.bdev x = fat g v.bdev x ∨
      ¬ D x ∧ Outside g D (fat g v'.bdev x)) : Aside g D v v' := by
  refine ⟨⟨hw.size ▸ h.geom, ?_, ?_⟩, hw.size, fun c t hc ht => hw.keep t (hP c t hc ht)⟩
  · intro x hx
    obtain ⟨hr, h0⟩ := h.used x hx
    rcases hfat x hr with hsame | ⟨hnot, _⟩
    · exact ⟨hr, hsame ▸ h0⟩
    · exact absurd hx hnot
  · intro x hr hx
    rcases hfat x hr with hsame | ⟨_, hout⟩
    · exact hsame ▸ h.links x hr hx
    · exact hout

lemma Apart.not_inFat (h : Apart g d D) {t : Nat} (hc : D c) (ht : InClus g c t) : ¬ InFat g t :=
  inClus_not_inFat (h.used c hc).1 ht

lemma Apart.set_entry (h : Apart g v.bdev D) (hc : InRange g c) (hD : ¬ D c) (value : Nat)
    (hval : Outside g D (value % 2 ^ 28)) :
    ∃ v', fat32_set_fat_entry g v c value = (v', true) ∧ Aside g D v v' := by
  obtain ⟨v', hcall, hw, hfat⟩ := set_fat_entry_spec h.geom hc value
  refine ⟨v', hcall, h.aside hw.dev (fun x t hx ht => h.not_inFat hx ht) ?_⟩
  intro x hx
  rw [hfat x (h.geom.entry_lt hx)]
  split
  · rename_i hxc
    exact .inr ⟨hxc ▸ hD, hval⟩
  · exact .inl rfl

lemma Apart.eoc_outside (h : Apart g d D) : Outside g D (FAT32_EOC % 2 ^ 28) :=
  ⟨h.not_eoc (by decide), .inr (.inr (by decide))⟩

section

variable (h : Apart g v.bdev D)

include h

lemma Apart.fsinfo : Aside g D v (fat32_fsinfo_invalidate g v) := by
  have hw := fsinfo_spec g v
  refine h.aside hw.dev ?_ ?_
  · exact fun x t hx ht => h.geom.inClus_not_fsInfo (h.used x hx).1 ht
  · intro x hx
    exact .inl (fat_congr h.geom hw.dev (fun t ht => fsInfo_not_inFat ht) (h.geom.entry_lt hx))

/-- A cluster that the allocation gives is outside `D`. -/
lemma Apart.alloc : fat32_alloc_cluster g v = (v, 0) ∨
    ∃ v' c, fat32_alloc_cluster g v = (v', c) ∧ Aside g D v v' ∧ InRange g c ∧ ¬ D c := by
  rcases alloc_cluster_spec h.geom with ⟨hnone, _⟩ | ⟨v', c, hcall, ha⟩
  · exact .inl hnone
  have hD : ¬ D c := fun hc => (h.used c hc).2 ha.free
  refine .inr ⟨v', c, hcall, h.aside ha.dev ?_ ?_, ha.range, hD⟩
  · exact fun x t hx ht harea => hD (h.geom.of_allocArea (h.used x hx).1 ha.range ht harea ▸ hx)
  · intro x hx
    rw [ha.entry x (h.geom.entry_lt hx)]
    split
    · rename_i hxc
      exact .inr ⟨hxc ▸ hD, h.eoc_outside⟩
    · exact .inl rfl

lemma Apart.extend {last : Nat} (hl : InRange g last) (hD : ¬ D last) :
    fat32_extend_chain g v last = (v, 0) ∨
    ∃ v' c, fat32_extend_chain g v last = (v', c) ∧ Aside g D v v' ∧ InRange g c ∧ ¬ D c := by
  unfold fat32_extend_chain
  rcases h.alloc with hnone | ⟨v1, c, hcall, ha, hr, hc⟩
  · rw [hnone]
    exact .inl rfl
  have hc0 : c ≠ 0 := by
    have := hr.1
    omega
  have hmod := h.geom.mod_of_inRange hr
  obtain ⟨v2, hset, ha2⟩ := ha.apart.set_entry hl hD c (by
    rw [hmod]
    exact ⟨hc, .inl hr⟩)
  obtain ⟨v3, hset3, ha3⟩ := ha2.apart.set_entry hr hc _ ha2.apart.eoc_outside
  rw [hcall]
  dsimp only
  rw [if_neg hc0, if_pos hl.1, hset, hset3]
  exact .inr ⟨v3, c, rfl, (ha.trans ha2).trans ha3, hr, hc⟩

lemma Apart.write_cluster (hc : InRange g c) (hD : ¬ D c) (buf : Buf) :
    ∃ v', fat32_write_cluster g v c buf = (v', true) ∧ Aside g D v v' := by
  obtain ⟨v', hcall, hw, _⟩ := write_cluster_spec h.geom hc buf
  refine ⟨v', hcall, h.aside hw.dev ?_ ?_⟩
  · intro x t hx ht ht'
    exact hD (h.geom.inClus_unique (h.used x hx).1.1 hc.1 ht ht' ▸ hx)
  · intro x hx
    exact .inl (fat_congr h.geom hw.dev (fun t ht => inClus_not_inFat hc ht) (h.geom.entry_lt hx))

lemma Apart.free_loop (hc : Outside g D c) (guard : Nat) :
    Aside g D v (free_chain_loop g guard v c) := by
  induction guard generalizing v c with
  | zero => exact Aside.refl h
  | succ guard ih =>
    rw [free_chain_loop]
    by_cases hend : c < 2 ∨ is_eoc c = true
    · rw [if_pos hend]
      exact Aside.refl h
    have hr : InRange g c := hc.2.resolve_right hend
    have hout := h.links c hr hc.1
    obtain ⟨v1, hset, ha⟩ := h.set_entry hr hc.1 0
      ⟨h.not_small (by decide), .inr (.inl (by decide))⟩
    rw [if_neg hend, get_fat_entry_eq h.geom hr, hset]
    dsimp only
    split
    · have hcount : Aside g D v1 { v1 with free_clusters := v1.free_clusters + 1 } :=
        ⟨ha.apart, rfl, fun _ _ _ _ => rfl⟩
      exact ha.trans (hcount.trans (ih hcount.apart hout))
    · exact ha.trans (ih ha.apart hout)

lemma Apart.free_chain (hc : Outside g D c) : Aside g D v (fat32_free_chain g v c) := by
  unfold fat32_free_chain
  split
  · exact h.fsinfo.trans (h.fsinfo.apart.free_loop hc _)
  · exact h.free_loop hc _

end

/-! ## Handles -/

/-- A handle that reads and writes outside `D`. -/
structure Safe (g : Geom) (D : Nat → Prop) (f : Fat32File) : Prop where
  start : Outside g D f.start_cluster
  apart : ¬ D f.cluster
  place : InRange g f.cluster ∧ f.offset ≤ g.cluster_size ∨
    (f.cluster < 2 ∨ is_eoc f.cluster = true) ∧ f.offset = 0
  is_file : f.is_dir = false
  start_word : f.start_cluster < 2 ^ 32
  size_word : f.size < 2 ^ 32

/-- The handle names the same entry. -/
structure SameSlot (f f' : Fat32File) : Prop where
  in_use : f'.in_use = f.in_use
  dir_sector : f'.dir_sector = f.dir_sector
  dir_offset : f'.dir_offset = f.dir_offset

lemma SameSlot.refl (f : Fat32File) : SameSlot f f := ⟨rfl, rfl, rfl⟩

/-- A write that starts outside `D` stays there. -/
lemma aside_keeps (g : Geom) (D : Nat → Prop) : Keeps g (fun (_ : Unit) c => InRange g c ∧ ¬ D c)
    fun v _ v' _ => Aside g D v v' where
  here h := Aside.refl h.apart
  trans := Aside.trans
  trail h := ⟨h.apart.geom, fun _ hc => hc.1, fun c hc => by
    obtain ⟨hD, hout⟩ := h.apart.links c hc.1 hc.2
    exact hout.imp_left fun hr => ⟨hr, hD⟩⟩
  write h hc := h.apart.write_cluster hc.1 hc.2
  extend h hc _ := (h.apart.extend hc.1 hc.2).imp_right fun ⟨v', c, hcall, ha, hm⟩ =>
    ⟨v', c, (), hcall, ha, hm⟩

lemma read_safe (h : Apart g v.bdev D) (hf : Safe g D f) (len : Nat) :
    ∃ f' bs, fat32_read g v.bdev f len = some (f', bs) ∧ Safe g D f' ∧ SameSlot f f' ∧
      f'.start_cluster = f.start_cluster ∧ f'.size = f.size := by
  obtain ⟨c, o, p, bs, hcall, hp⟩ := ((aside_keeps g D).trail (x := ()) (Aside.refl h)).read
    (hf.place.imp_left fun hin => ⟨⟨hin.1, hf.apart⟩, hin.2⟩) hf.is_file len
  refine ⟨_, bs, hcall, ⟨hf.start, ?_, hp.imp_left fun hin => ⟨hin.1.1, hin.2⟩, hf.is_file,
    hf.start_word, hf.size_word⟩, ⟨rfl, rfl, rfl⟩, rfl, rfl⟩
  exact hp.elim (fun hin => hin.1.2) fun he => he.1.elim h.not_small h.not_eoc

lemma write_safe (h : Apart g v.bdev D) (hf : Safe g D f)
    (hgo : f.start_cluster ≠ 0 → is_eoc f.cluster = false) (bs : List UInt8) :
    ∃ v' f' k, fat32_write g v f bs = some (v', f', k) ∧ Aside g D v v' ∧ Safe g D f' ∧
      SameSlot f f' ∧ (k = 0 → f.start_cluster ≠ 0 ∨ bs ≠ [] →
        f'.start_cluster = f.start_cluster ∧ f'.size = f.size) := by
  unfold fat32_write
  rw [if_neg (ne_true_of_eq_false hf.is_file)]
  by_cases hstart : f.start_cluster = 0
  · rw [if_pos hstart]
    rcases h.alloc with hnone | ⟨v1, c, hcall, ha, hr, hD⟩
    · rw [hnone]
      exact ⟨v, f, 0, rfl, Aside.refl h, hf, SameSlot.refl f, fun _ _ => ⟨rfl, rfl⟩⟩
    have hc0 : c ≠ 0 := by
      have := hr.1
      omega
    have hword : c < 2 ^ 32 := by
      have := h.geom.mod_of_inRange hr
      omega
    rw [hcall]
    dsimp only
    rw [if_neg hc0]
    obtain ⟨v2, _, c2, o, p, s, k, hloop, ha2, hc2, ho, hs, -, hsome⟩ :=
      (aside_keeps g D).write_loop
      (f := { f with start_cluster := c, cluster := c, offset := 0 }) (x := ())
      (Aside.refl ha.apart)
      ⟨hr, hD⟩ (Nat.zero_le _) (Nat.lt_succ_self bs.length)
    refine ⟨v2, _, k, hloop, ha.trans ha2, ⟨⟨hD, .inl hr⟩, hc2.2, .inl ⟨hc2.1, ho⟩,
      hf.is_file, hword,
      hs hf.size_word⟩, ⟨rfl, rfl, rfl⟩, ?_⟩
    intro h0 hor
    -- a first cluster takes at least one byte
    have := hsome h.geom.size_pos (hor.resolve_left fun hne => hne hstart)
    omega
  · rw [if_neg hstart]
    rcases hf.place with ⟨hr, hoff⟩ | ⟨hsmall | heoc, hoff⟩
    · obtain ⟨v', _, c, o, p, s, k, hloop, ha, hc, ho, hs, hsz, -⟩ := (aside_keeps g D).write_loop
        (x := ()) (Aside.refl h) ⟨hr, hf.apart⟩ hoff (Nat.lt_succ_self bs.length)
      exact ⟨v', _, k, hloop, ha, ⟨hf.start, hc.2, .inl ⟨hc.1, ho⟩, hf.is_file, hf.start_word,
        hs hf.size_word⟩, ⟨rfl, rfl, rfl⟩, fun h0 _ => ⟨rfl, hsz h0⟩⟩
    · exact ⟨v, f, 0, write_loop_nowhere h.geom hsmall hoff, Aside.refl h, hf, SameSlot.refl f,
        fun _ _ => ⟨rfl, rfl⟩⟩
    · rw [hgo hstart] at heoc
      cases heoc

/-! ## The shared entry -/

/-- The handle is open on the entry at `e`. -/
def OnSlot (f : Fat32File) (e : Slot) : Prop :=
  f.in_use = true ∧ f.dir_sector = e.sec ∧ f.dir_offset = e.off

instance (f : Fat32File) (e : Slot) : Decidable (OnSlot f e) :=
  inferInstanceAs (Decidable (_ ∧ _ ∧ _))

/-- The handle has the first cluster and the size that the entry has. -/
def Cached (d : BlockDev) (e : Slot) (f : Fat32File) : Prop :=
  f.start_cluster = first_cluster (entry_at d e) ∧ f.size = le32 (entry_at d e) 28

/-- The entry at `e` stands in a cluster of `D` and is that of a file. Every handle on
it is safe, and the ones nothing was written through have what the entry has. -/
structure Shares (g : Geom) (D : Nat → Prop) (e : Slot) (d : BlockDev) (files : Nat → Fat32File)
    (written : Nat → Bool) : Prop where
  apart : Apart g d D
  slot : ∃ c, D c ∧ InClus g c e.sec
  off : e.off + 32 ≤ SECTOR
  file : entry_at d e 11 &&& FAT32_ATTR_DIRECTORY = 0
  first : Outside g D (first_cluster (entry_at d e))
  safe : ∀ i, i < FAT32_MAX_FILES → OnSlot (files i) e → Safe g D (files i)
  cached : ∀ i, i < FAT32_MAX_FILES → OnSlot (files i) e → written i = false → Cached d e (files i)

variable {e : Slot} {files : Nat → Fat32File} {w w' : Nat → Bool} {i : Nat} {now : Stamp}

lemma Shares.sector (h : Shares g D e d files w) :
    e.sec ≠ 0 ∧ e.sec + 1 ≤ d.num_sectors ∧ ¬ InFat g e.sec := by
  obtain ⟨c, hc, ht⟩ := h.slot
  have hr := (h.apart.used c hc).1
  have hroom := inClus_room hr ht
  have hdata := h.apart.geom.data
  have hend := h.apart.geom.room
  have hcap := h.apart.geom.cap
  have hsz : 0 < g.fat_sz32 := Nat.pos_of_ne_zero fun h0 => by
    rw [h0, zero_mul] at hcap
    omega
  have hfats := Nat.mul_pos h.apart.geom.fats hsz
  exact ⟨by omega, by omega, inClus_not_inFat hr ht⟩

/-- The pool with another handle at `i`. -/
def set_handle (files : Nat → Fat32File) (i : Nat) (f : Fat32File) : Nat → Fat32File :=
  fun j => if j = i then f else files j

/-- Writes outside `D` leave the entry. -/
lemma Shares.aside (h : Shares g D e v.bdev files w) (ha : Aside g D v v') :
    Shares g D e v'.bdev files w := by
  have hentry : entry_at v'.bdev e = entry_at v.bdev e := by
    obtain ⟨c, hD, ht⟩ := h.slot
    exact entry_at_congr (ha.keep c e.sec hD ht)
  refine ⟨ha.apart, h.slot, h.off, by rw [hentry]; exact h.file, by rw [hentry]; exact h.first,
    h.safe, ?_⟩
  unfold Cached
  rw [hentry]
  exact h.cached

/-- More handles count as written through. -/
lemma Shares.weaken (h : Shares g D e d files w)
    (hw : ∀ j, OnSlot (files j) e → w' j = false → w j = false) : Shares g D e d files w' :=
  ⟨h.apart, h.slot, h.off, h.file, h.first, h.safe,
    fun j hj hon hwj => h.cached j hj hon (hw j hon hwj)⟩

/-- One handle changes. -/
lemma Shares.set (h : Shares g D e d files w)
    (hw : ∀ j, j ≠ i → OnSlot (files j) e → w' j = false → w j = false)
    (hsafe : OnSlot f e → Safe g D f) (hc : OnSlot f e → w' i = false → Cached d e f) :
    Shares g D e d (set_handle files i f) w' := by
  refine ⟨h.apart, h.slot, h.off, h.file, h.first, ?_, ?_⟩
  · intro j hj hon
    unfold set_handle at *
    split at hon
    · rename_i hji
      rw [if_pos hji]
      exact hsafe hon
    · rename_i hji
      rw [if_neg hji]
      exact h.safe j hj hon
  · intro j hj hon hwj
    unfold set_handle at *
    split at hon
    · rename_i hji
      rw [if_pos hji]
      exact hc hon (hji ▸ hwj)
    · rename_i hji
      rw [if_neg hji]
      exact h.cached j hj hon (hw j hji hon hwj)

section

variable (h : Shares g D e v.bdev files w)

include h

/-- A write to the sector of the entry that leaves its attributes. -/
lemma Shares.rewrite (hw : Writes (fun t => t = e.sec) v v')
    (hfile : entry_at v'.bdev e 11 = entry_at v.bdev e 11)
    (hfirst : Outside g D (first_cluster (entry_at v'.bdev e)))
    (hc : ∀ j, j < FAT32_MAX_FILES → OnSlot (files j) e → w' j = false →
      Cached v'.bdev e (files j)) :
    Shares g D e v'.bdev files w' := by
  obtain ⟨_, _, hnf⟩ := h.sector
  have hfat : ∀ x, InRange g x → fat g v'.bdev x = fat g v.bdev x := fun x hx =>
    fat_congr h.apart.geom hw.dev (fun t ht => ht ▸ hnf) (h.apart.geom.entry_lt hx)
  refine ⟨⟨hw.geom h.apart.geom, ?_, ?_⟩, h.slot, h.off, by rw [hfile]; exact h.file,
    hfirst, h.safe, hc⟩
  · intro x hx
    obtain ⟨hr, h0⟩ := h.apart.used x hx
    exact ⟨hr, by rwa [hfat x hr]⟩
  · intro x hr hx
    rw [hfat x hr]
    exact h.apart.links x hr hx

/-- What FAT32_Close writes: the entry gets the values of the handle. -/
lemma close_flush_spec (hon : OnSlot f e) (hf : Safe g D f)
    (now : Stamp) : Writes (fun t => t = e.sec) v (close_flush v f now) ∧
    entry_at (close_flush v f now).bdev e 11 = entry_at v.bdev e 11 ∧
    Cached (close_flush v f now).bdev e f := by
  obtain ⟨h0, hfit, _⟩ := h.sector
  have hoff := h.off
  obtain ⟨_, hsec, hdo⟩ := hon
  have hgo : (!f.is_dir && decide (f.dir_sector ≠ 0)) = true := by simp [hf.is_file, hsec, h0]
  unfold close_flush
  rw [if_pos hgo, hsec, blockdev_read_ok hfit]
  dsimp only
  rw [bwrite_ok hfit]
  refine ⟨writes_store.mono fun t ht => by omega, ?_, ?_⟩
  · dsimp only
    rw [entry_at_store hoff, dir_entry_lt (by omega), close_entry_keep (by omega),
      ← read_entry hoff,
      dir_entry_lt (by omega)]
  unfold Cached
  rw [entry_at_store hoff, ← hdo, close_entry_first hf.start_word, le32_dir_entry (by omega),
    close_entry_size, Nat.mod_eq_of_lt hf.size_word]
  exact ⟨rfl, rfl⟩

/-- When the handle `i` was written through, every other one on the entry was too, or
has the same first cluster and size. -/
def LastWriter (files : Nat → Fat32File) (w : Nat → Bool) (e : Slot) (i : Nat) : Prop :=
  w i = true → ∀ j, j < FAT32_MAX_FILES → j ≠ i → OnSlot (files j) e → w j = true ∨
    ((files j).start_cluster = (files i).start_cluster ∧ (files j).size = (files i).size)

instance (files : Nat → Fat32File) (w : Nat → Bool) (e : Slot) (i : Nat) :
    Decidable (LastWriter files w e i) :=
  inferInstanceAs
    (Decidable (_ = true → ∀ j, j < FAT32_MAX_FILES → j ≠ i → OnSlot (files j) e → _ ∨ (_ ∧ _)))

/-- Closing a handle leaves the others in order, unless it was written through and
one of them was not and has other values. -/
lemma Shares.close (now : Stamp) (hi : i < FAT32_MAX_FILES)
    (hon : OnSlot (files i) e) (hlast : LastWriter files w e i) :
    Shares g D e (close_flush v (files i) now).bdev
      (set_handle files i { files i with in_use := false }) w ∧
    (w i = false → Cached v.bdev e (files i) ∧
      Cached (close_flush v (files i) now).bdev e (files i)) := by
  have hf := h.safe i hi hon
  obtain ⟨hw, hattr, hcached⟩ := close_flush_spec h hon hf now
  generalize hv : close_flush v (files i) now = v' at *
  have hfirst : Outside g D (first_cluster (entry_at v'.bdev e)) := hcached.1 ▸ hf.start
  have hothers : ∀ j, j < FAT32_MAX_FILES → OnSlot (files j) e → (w j || decide (j = i)) = false →
      Cached v'.bdev e (files j) := by
    intro j hj hjon hwj
    rw [Bool.or_eq_false_iff, decide_eq_false_iff_not] at hwj
    by_cases hwi : w i = true
    · obtain hwj' | ⟨hstart, hsize⟩ := hlast hwi j hj hwj.2 hjon
      · rw [hwj'] at hwj
        cases hwj.1
      · exact ⟨hstart.trans hcached.1, hsize.trans hcached.2⟩
    · -- the handle had what the entry had, so nothing changes
      have hi' := h.cached i hi hon (Bool.eq_false_iff.mpr hwi)
      have hj' := h.cached j hj hjon hwj.1
      exact ⟨hj'.1.trans (hi'.1.symm.trans hcached.1), hj'.2.trans (hi'.2.symm.trans hcached.2)⟩
  have hS : Shares g D e v'.bdev files fun j => w j || decide (j = i) :=
    h.rewrite hw hattr hfirst hothers
  refine ⟨hS.set ?_ ?_ ?_, fun hwi => ⟨h.cached i hi hon hwi, hcached⟩⟩
  · intro j hji hjon hwj
    simp [hwj, hji]
  · intro hoff
    cases hoff.1
  · intro hoff
    cases hoff.1

end

/-! ## Opening the entry -/

/-- The path leads to the entry at `e`. -/
def opens (g : Geom) (fs : Fs) (path : List UInt8) (e : Slot) : Bool :=
  let rel := strip_vol_prefix path
  rel ≠ [] && rel ≠ [46] &&
    match (fat32_walk_path g fs.vol.bdev rel fs.lfn_find).1 with
    | .found _ f => f.slot = e
    | _ => false

variable {fs : Fs} {path : List UInt8}

lemma opens_spec (h : opens g fs path e = true) (hS : Shares g D e fs.vol.bdev files w) :
    ∃ rel dir f lfn, strip_vol_prefix path = rel ∧ rel ≠ [] ∧ rel ≠ [46] ∧
      fat32_walk_path g fs.vol.bdev rel fs.lfn_find = (.found dir f, lfn) ∧
      f.slot = e ∧ f.On fs.vol.bdev := by
  simp only [opens, Bool.and_eq_true, decide_eq_true_eq] at h
  obtain ⟨rel, hrel⟩ : ∃ rel, strip_vol_prefix path = rel := ⟨_, rfl⟩
  rw [hrel] at h
  obtain ⟨⟨h1, h2⟩, h3⟩ := h
  cases hw : fat32_walk_path g fs.vol.bdev rel fs.lfn_find with
  | mk walk lfn =>
    rw [hw] at h3
    cases walk with
    | missing dir => cases h3
    | bad => cases h3
    | found dir f =>
      have hslot : f.slot = e := of_decide_eq_true h3
      refine ⟨rel, dir, f, lfn, hrel, h1, h2, hw, hslot, (walk_path_on hw).resolve_left ?_⟩
      rintro rfl
      exact hS.sector.1 (congrArg Slot.sec hslot).symm

lemma alloc_file_some (h : fat32_alloc_file fs = some i) :
    i < FAT32_MAX_FILES ∧ (fs.files i).in_use = false := by
  have hp := List.find?_some h
  have hm := List.mem_of_find?_eq_some h
  exact ⟨List.mem_range.mp hm, by simpa using hp⟩

/-- The handle that FAT32_Open makes for the entry. -/
lemma new_file_ok (hS : Shares g D e d files w) (dir : Nat) :
    OnSlot (new_file (first_cluster (entry_at d e)) (le32 (entry_at d e) 28) false e dir) e ∧
    Safe g D (new_file (first_cluster (entry_at d e)) (le32 (entry_at d e) 28) false e dir) := by
  refine ⟨⟨rfl, rfl, rfl⟩, hS.first, hS.first.1, ?_, rfl, first_cluster_lt _, le32_lt _ _⟩
  exact hS.first.2.imp (fun hr => ⟨hr, Nat.zero_le _⟩) fun he => ⟨he, rfl⟩

/-- A handle that was not in use is now open on the entry, with what the entry has. -/
structure Opened (g : Geom) (D : Nat → Prop) (e : Slot) (files : Nat → Fat32File) (w : Nat → Bool)
    (fs : Fs) (i : Nat) (f : Fat32File) : Prop where
  shares : Shares g D e fs.vol.bdev files w
  range : i < FAT32_MAX_FILES
  free : (files i).in_use = false
  files : fs.files = set_handle files i f
  on : OnSlot f e
  safe : Safe g D f
  cached : Cached fs.vol.bdev e f

/-- The pool was full, or gave a handle. -/
inductive Attempt (g : Geom) (D : Nat → Prop) (e : Slot) (files : Nat → Fat32File) (w : Nat → Bool)
    (fs : Fs) : Option Nat → Prop
  | full (hS : Shares g D e fs.vol.bdev files w) (h : fs.files = files) :
      Attempt g D e files w fs none
  | opened {i : Nat} {f : Fat32File} (h : Opened g D e files w fs i f) :
      Attempt g D e files w fs (some i)

lemma take_file_shares {s : Fs} (hS : Shares g D e s.vol.bdev s.files w) {c size : Nat}
    (hc : c = first_cluster (entry_at s.vol.bdev e)) (hs : size = le32 (entry_at s.vol.bdev e) 28)
    (dir : Nat) : ∃ s' r, take_file s (new_file c size false e dir) = (s', r) ∧
      Attempt g D e s.files w s' r ∧ (r = none → s' = s ∧ fat32_alloc_file s = none) := by
  subst hc hs
  unfold take_file
  cases ha : fat32_alloc_file s with
  | none => exact ⟨_, none, rfl, .full hS rfl, fun _ => ⟨rfl, rfl⟩⟩
  | some i =>
    obtain ⟨hi, hfree⟩ := alloc_file_some ha
    obtain ⟨hon, hsafe⟩ := new_file_ok hS dir
    exact ⟨_, some i, rfl, .opened ⟨hS, hi, hfree, rfl, hon, hsafe, rfl, rfl⟩, fun h => by cases h⟩

lemma open_shares (hS : Shares g D e fs.vol.bdev fs.files w) (ho : opens g fs path e = true) :
    ∃ fs' r, fat32_open g fs path = (fs', r) ∧ Attempt g D e fs.files w fs' r ∧
      (r = none → fat32_alloc_file fs = none ∧ opens g fs' path e = true) := by
  obtain ⟨rel, dir, f, lfn, hrel, h1, h2, hwalk, hslot, hon⟩ := opens_spec ho hS
  have hfile : f.attr &&& FAT32_ATTR_DIRECTORY = 0 := by
    rw [hon.attr, hslot]
    exact hS.file
  unfold fat32_open
  rw [hrel, if_neg (by rintro (h | h); exacts [h1 h, h2 h]), hwalk]
  dsimp only
  rw [hfile, hslot]
  obtain ⟨fs', r, hcall, ha, hnone⟩ := take_file_shares
    (s := { fs with vol := { fs.vol with dir_buf_cluster := 0 }, lfn_find := lfn }) hS
    (hon.cluster.trans (by rw [hslot])) (hon.size.trans (by rw [hslot])) dir
  refine ⟨fs', r, hcall, ha, fun hr => ?_⟩
  obtain ⟨rfl, hall⟩ := hnone hr
  refine ⟨hall, ?_⟩
  unfold opens at *
  dsimp only at *
  rw [walk_path_fst]
  exact ho

/-- No handle is open on the entry. -/
def Unused (files : Nat → Fat32File) (e : Slot) : Prop :=
  ∀ i, i < FAT32_MAX_FILES → ¬ OnSlot (files i) e

instance (files : Nat → Fat32File) (e : Slot) : Decidable (Unused files e) :=
  inferInstanceAs (Decidable (∀ i, i < FAT32_MAX_FILES → _))

/-- The file is emptied, and the new handle, if the pool has one, has what the entry
has then. -/
lemma create_shares (now : Stamp) (hS : Shares g D e fs.vol.bdev fs.files w)
    (ho : opens g fs path e = true) (hun : Unused fs.files e) :
    ∃ fs' r, fat32_create_file g fs path now = (fs', r) ∧ Attempt g D e fs.files w fs' r := by
  obtain ⟨rel, dir, f, lfn, hrel, h1, h2, hwalk, hslot, hon⟩ := opens_spec ho hS
  have hfile : f.attr &&& FAT32_ATTR_DIRECTORY = 0 := by
    rw [hon.attr, hslot]
    exact hS.file
  have hfirst : Outside g D f.cluster := by
    rw [hon.cluster, hslot]
    exact hS.first
  unfold fat32_create_file
  rw [hrel, if_neg h1, hwalk]
  dsimp only
  rw [if_neg (by rw [hfile]; exact fun h => h rfl)]
  obtain ⟨v1, hv1, ha⟩ : ∃ v1, v1 = (if 2 ≤ f.cluster then fat32_free_chain g fs.vol f.cluster
    else fs.vol) ∧
      Aside g D fs.vol v1 := by
    refine ⟨_, rfl, ?_⟩
    split
    · exact hS.apart.free_chain hfirst
    · exact Aside.refl hS.apart
  rw [← hv1, hslot]
  have hS1 : Shares g D e v1.bdev fs.files w := hS.aside ha
  obtain ⟨_, hfit, _⟩ := hS1.sector
  rw [blockdev_read_ok hfit]
  dsimp only
  rw [read_entry hS.off]
  obtain ⟨v2, hwrite, hw, hdata⟩ := write_dir_entry_ok (truncated (entry_at v1.bdev e) now)
    hfit hS.off
  rw [hwrite]
  have hbytes : ∀ k, k < 32 → entry_at v2.bdev e k = truncated (entry_at v1.bdev e) now k :=
    fun k hk => entry_at_put hS.off hdata hk
  have hzero : first_cluster (entry_at v2.bdev e) = 0 := by
    rw [← @truncated_first (entry_at v1.bdev e) now]
    unfold first_cluster
    rw [le16_congr fun k hk => hbytes (26 + k) (by omega),
      le16_congr fun k hk => hbytes (20 + k) (by omega)]
  have hsize : le32 (entry_at v2.bdev e) 28 = 0 := by
    exact le32_congr fun k hk => hbytes (28 + k) (by omega)
  have hout : Outside g D 0 := ⟨hS1.apart.not_small (by decide), .inr (.inl (by decide))⟩
  have hS2 : Shares g D e v2.bdev fs.files w := by
    refine hS1.rewrite hw ?_ (by rw [hzero]; exact hout) fun j hj hjon => absurd hjon (hun j hj)
    rw [hbytes 11 (by omega), truncated_keep (by omega)]
  obtain ⟨fs', r, hcall, hA, -⟩ :=
    take_file_shares (s := { fs with vol := v2, lfn_find := lfn }) hS2
    hzero.symm hsize.symm dir
  exact ⟨fs', r, hcall, hA⟩

end uaos.fat32
