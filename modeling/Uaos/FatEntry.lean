-- Directory entries on the disk: the fields that FAT32_Close and the truncation of
-- FAT32_CreateFile write, and where the entry that a walk finds stands.
import Uaos.FatDir
import Uaos.FatDisk

namespace uaos.fat32

variable {d' : BlockDev} {buf de : Buf} {f : Found} {lfn lfn' : List Slot} {name path : List
  UInt8} {cluster dir : Nat}

variable {b b' : Buf} {d : BlockDev} {g : Geom} {s : Slot} {i j k : Nat} {now : Stamp}

/-! ## Fields -/

lemma dir_entry_lt (h : k < 32) : dir_entry b i k = b (i + k) := if_pos h

lemma le16_dir_entry (h : k + 2 ≤ 32) : le16 (dir_entry b i) k = le16 b (i + k) :=
  le16_congr fun m hm => by rw [dir_entry_lt (by omega), add_assoc]

lemma le32_dir_entry (h : k + 4 ≤ 32) : le32 (dir_entry b i) k = le32 b (i + k) :=
  le32_congr fun m hm => by rw [dir_entry_lt (by omega), add_assoc]

lemma dir_entry_congr (h : ∀ k, k < 32 → b (i + k) = b' (j + k)) :
    dir_entry b i = dir_entry b' j := by
  funext k
  unfold dir_entry
  split
  · rename_i hk
    exact h k hk
  · rfl

lemma first_cluster_lt (de : Buf) : first_cluster de < 2 ^ 32 := by
  have h0 := le16_lt de 26
  have h1 := le16_lt de 20
  unfold first_cluster
  omega

/-- The times are bytes 14 to 19 and 22 to 25. -/
lemma stamp_keep {created : Bool} (h : j < i + 14 ∨ i + 20 ≤ j ∧ j < i + 22 ∨ i + 26 ≤ j) :
    fat32_stamp_entry b i created now j = b j := by
  unfold fat32_stamp_entry
  have hrest : put_le16 (put_le16 (put_le16 b (i + 22) now.time) (i + 24) now.date)
    (i + 18) now.date j =
      b j := by
    rw [put_le16_outside (by omega), put_le16_outside (by omega), put_le16_outside (by omega)]
  split
  · rw [put_le16_outside (by omega), put_le16_outside (by omega)]
    exact hrest
  · exact hrest

/-- FAT32_Close leaves the bytes outside the entry, and its name and attributes. -/
lemma close_entry_keep {f : Fat32File} (h : j < f.dir_offset + 14 ∨ f.dir_offset + 32 ≤ j) :
    close_entry f now b j = b j := by
  unfold close_entry
  rw [stamp_keep (by omega), put_le16_outside (by omega), put_le16_outside (by omega),
    put_le32_outside (by omega)]

lemma close_entry_size {f : Fat32File} :
    le32 (close_entry f now b) (f.dir_offset + 28) = f.size % 2 ^ 32 := by
  have hstamp : le32 (close_entry f now b) (f.dir_offset + 28) =
      le32 (put_le32 b (f.dir_offset + 28) f.size) (f.dir_offset + 28) := by
    refine le32_congr fun k hk => ?_
    unfold close_entry
    rw [stamp_keep (by omega), put_le16_outside (by omega), put_le16_outside (by omega)]
  rw [hstamp, le32_put_le32]

lemma close_entry_first {f : Fat32File} (h : f.start_cluster < 2 ^ 32) :
    first_cluster (dir_entry (close_entry f now b) f.dir_offset) = f.start_cluster := by
  obtain ⟨b0, hb0⟩ : ∃ b0, b0 = put_le32 b (f.dir_offset + 28) f.size := ⟨_, rfl⟩
  obtain ⟨b1, hb1⟩ : ∃ b1, b1 = put_le16 b0 (f.dir_offset + 20) (f.start_cluster / 65536 % 65536) :=
    ⟨_, rfl⟩
  have hclose : close_entry f now b = fat32_stamp_entry
      (put_le16 b1 (f.dir_offset + 26) (f.start_cluster % 65536)) f.dir_offset false now := by
    rw [hb1, hb0]
    rfl
  have hlow : le16 (close_entry f now b) (f.dir_offset + 26) =
      le16 (put_le16 b1 (f.dir_offset + 26) (f.start_cluster % 65536)) (f.dir_offset + 26) :=
    le16_congr fun k hk => by rw [hclose, stamp_keep (by omega)]
  have hhigh : le16 (close_entry f now b) (f.dir_offset + 20) = le16 b1 (f.dir_offset + 20) :=
    le16_congr fun k hk => by rw [hclose, stamp_keep (by omega), put_le16_outside (by omega)]
  unfold first_cluster
  rw [le16_dir_entry (by omega), le16_dir_entry (by omega), hlow, hhigh, le16_put_le16, hb1,
    le16_put_le16]
  omega

/-- A truncated entry keeps its name and attributes, and names no cluster. -/
lemma truncated_keep (h : k < 14) : truncated b now k = b k := by
  unfold truncated
  rw [stamp_keep (by omega), put_le32_outside (by omega), put_le16_outside (by omega),
    put_le16_outside (by omega)]

lemma truncated_first : first_cluster (truncated b now) = 0 := by
  have hlow : le16 (truncated b now) 26 = le16 (put_le16 (put_le16 b 20 0) 26 0) 26 :=
    le16_congr fun k hk => by
      unfold truncated
      rw [stamp_keep (by omega), put_le32_outside (by omega)]
  have hhigh : le16 (truncated b now) 20 = le16 (put_le16 b 20 0) 20 := le16_congr fun k hk => by
      unfold truncated
      rw [stamp_keep (by omega), put_le32_outside (by omega), put_le16_outside (by omega)]
  unfold first_cluster
  rw [hlow, hhigh, le16_put_le16, le16_put_le16]

/-! ## Entries on the disk -/

/-- The entry that stands at a slot. -/
def entry_at (d : BlockDev) (s : Slot) : Buf := dir_entry (d.data s.sec) s.off

/-- The entry in the sector as it is read. -/
lemma read_entry (h : s.off + 32 ≤ SECTOR) :
    dir_entry (fun j => d.data (s.sec + j / SECTOR) (j % SECTOR)) s.off = entry_at d s := by
  refine dir_entry_congr fun k hk => ?_
  have hlt : s.off + k < SECTOR := by omega
  exact sector_apply hlt

/-- The entry in a sector that was written. -/
lemma entry_at_store (h : s.off + 32 ≤ SECTOR) :
    entry_at (d.store s.sec buf 1) s = dir_entry buf s.off := by
  refine dir_entry_congr fun k hk => ?_
  exact store_same (by omega)

lemma entry_at_congr (h : d'.data s.sec = d.data s.sec) : entry_at d' s = entry_at d s := by
  unfold entry_at
  rw [h]

/-- On a device without errors the first attempt to write an entry does it. -/
lemma write_dir_entry_ok {v : Vol} (entry : Buf) (hsec : s.sec + 1 ≤ v.bdev.num_sectors)
    (hoff : s.off + 32 ≤ SECTOR) :
    ∃ v', fat32_write_dir_entry v s entry = (v', true) ∧ Writes (fun t => t = s.sec) v v' ∧
      ∀ j, j < SECTOR → v'.bdev.data s.sec j =
        put (v.bdev.data s.sec) s.off (slice entry 0 FAT32_DIR_ENTRY_SIZE) j := by
  obtain ⟨buf, hbuf⟩ : ∃ b, b = put (fun j => v.bdev.data (s.sec + j / SECTOR) (j % SECTOR)) s.off
    (slice entry 0 FAT32_DIR_ENTRY_SIZE) := ⟨_, rfl⟩
  have hdata : ∀ j, j < SECTOR → (v.bdev.store s.sec buf 1).data s.sec j = buf j := by
    intro j hj
    exact store_same hj
  refine ⟨{ v with bdev := v.bdev.store s.sec buf 1, dir_buf_cluster := 0 }, ?_,
    writes_store.mono fun t ht => by omega, ?_⟩
  · unfold fat32_write_dir_entry write_dir_entry_loop
    rw [blockdev_read_ok hsec]
    dsimp only
    rw [← hbuf, bwrite_ok hsec]
    dsimp only
    rw [blockdev_read_ok (d := v.bdev.store s.sec buf 1) hsec]
    dsimp only
    rw [if_pos]
    refine slice_congr fun k hk => ?_
    have hlt : s.off + k < SECTOR := by
      unfold FAT32_DIR_ENTRY_SIZE at hk
      omega
    rw [sector_apply hlt, hdata _ hlt, hbuf, put_at (by rwa [slice_length]), getD_slice hk]
  · intro j hj
    rw [hdata j hj, hbuf]
    refine put_congr fun _ => ?_
    exact sector_apply hj

/-- The bytes of an entry that was written. -/
lemma entry_at_put {entry : Buf} (hoff : s.off + 32 ≤ SECTOR)
    (h : ∀ j, j < SECTOR → d'.data s.sec j =
      put (d.data s.sec) s.off (slice entry 0 FAT32_DIR_ENTRY_SIZE) j) (hk : k < 32) :
    entry_at d' s k = entry k := by
  have hsize : k < FAT32_DIR_ENTRY_SIZE := hk
  unfold entry_at
  rw [dir_entry_lt hk, h _ (by omega), put_at (by rwa [slice_length]), getD_slice hsize, zero_add]

/-! ## What a walk finds -/

/-- No entry goes over the end of a sector. -/
lemma slot_byte (e : Nat) (hk : k < 32) :
    (e * FAT32_DIR_ENTRY_SIZE + k) / SECTOR = e * FAT32_DIR_ENTRY_SIZE / SECTOR ∧
      (e * FAT32_DIR_ENTRY_SIZE + k) % SECTOR = e * FAT32_DIR_ENTRY_SIZE % SECTOR + k := by
  unfold FAT32_DIR_ENTRY_SIZE SECTOR
  omega

/-- The entries of a cluster that was read stand on the disk. -/
lemma cluster_slots_at
    (hread : fat32_read_cluster g d cluster = some buf)
    (h : (s, de) ∈ cluster_slots g cluster buf) :
    de = entry_at d s ∧ s.off + 32 ≤ SECTOR := by
  obtain ⟨e, _, he⟩ := List.mem_map.mp h
  cases he
  have hoff : e * FAT32_DIR_ENTRY_SIZE % SECTOR + 32 ≤ SECTOR := by
    unfold FAT32_DIR_ENTRY_SIZE SECTOR
    omega
  refine ⟨dir_entry_congr fun k hk => ?_, hoff⟩
  obtain ⟨hdiv, hmod⟩ := slot_byte e hk
  unfold fat32_read_cluster at hread
  split at hread
  · cases hread
  dsimp only at hread
  split at hread
  · cases hread
    simp only [hdiv, hmod]
  · cases hread

lemma dir_scan_at {guard last : Nat} (h : (s, de) ∈ (dir_scan g d guard cluster last).1) :
    de = entry_at d s ∧ s.off + 32 ≤ SECTOR := by
  induction guard generalizing cluster last with
  | zero => cases h
  | succ guard ih =>
    rw [dir_scan] at h
    split at h
    · cases h
    split at h
    · cases h
    rename_i hread
    rcases List.mem_append.mp h with h | h
    · exact cluster_slots_at hread h
    · exact ih h

/-- What is found is an entry of the scan. -/
lemma find_loop_mem {ok : Bool} {slots : List (Slot × Buf)} {l : Lfn}
    (h : (find_loop name ok slots l).1 = some f) :
    ∃ de, (f.slot, de) ∈ slots ∧ f = ⟨first_cluster de, le32 de 28, de 11, f.slot⟩ := by
  induction slots generalizing l with
  | nil => cases h
  | cons p rest ih =>
    obtain ⟨s, de⟩ := p
    have hlater : ∀ l, (find_loop name ok rest l).1 = some f →
        ∃ de', (f.slot, de') ∈ (s, de) :: rest ∧
          f = ⟨first_cluster de', le32 de' 28, de' 11, f.slot⟩ := by
      intro l hl
      obtain ⟨de', hm, hf⟩ := ih hl
      exact ⟨de', List.mem_cons_of_mem _ hm, hf⟩
    rw [find_loop] at h
    split at h
    · cases h
    split at h
    · exact hlater _ h
    split at h
    · exact hlater _ h
    split at h
    · exact hlater _ h
    dsimp only at h
    split at h
    · cases h
      exact ⟨de, List.mem_cons_self, rfl⟩
    · exact hlater _ h

/-- The values of an entry that was found are those on the disk. -/
structure Found.On (f : Found) (d : BlockDev) : Prop where
  cluster : f.cluster = first_cluster (entry_at d f.slot)
  size : f.size = le32 (entry_at d f.slot) 28
  attr : f.attr = entry_at d f.slot 11
  off : f.slot.off + 32 ≤ SECTOR

lemma find_in_dir_on (h : (fat32_find_in_dir g d dir name).1 = some f) : f.On d := by
  obtain ⟨de, hm, hf⟩ := find_loop_mem h
  obtain ⟨hde, hoff⟩ := dir_scan_at hm
  subst hde
  exact ⟨congrArg Found.cluster hf, congrArg Found.size hf, congrArg Found.attr hf, hoff⟩

lemma walk_loop_on {fuel dir' : Nat} {p : List UInt8}
    (h : walk_loop g d fuel p dir lfn = (.found dir' f, lfn')) : f = Found.init ∨ f.On d := by
  induction fuel generalizing p dir lfn with
  | zero => cases h
  | succ fuel ih =>
    rw [walk_loop] at h
    split at h
    · split at h
      · cases h
        exact .inl rfl
      split at h
      · rename_i hfind
        cases h
        exact .inr (find_in_dir_on (congrArg Prod.fst hfind))
      · cases h
    · split at h
      · split at h
        · cases h
        · exact ih h
      · cases h

/-- A walk ends at an entry on the disk, unless the path is empty. -/
lemma walk_path_on
    (h : fat32_walk_path g d path lfn = (.found dir f, lfn')) : f = Found.init ∨ f.On d :=
  walk_loop_on h

/-- Where a walk ends does not depend on the slots that an earlier one left. -/
lemma walk_path_fst : (fat32_walk_path g d path lfn).1 = (fat32_walk_path g d path lfn').1 := by
  unfold fat32_walk_path
  rw [walk_loop, walk_loop]
  split
  · split
    · rfl
    · rfl
  · rfl

end uaos.fat32
