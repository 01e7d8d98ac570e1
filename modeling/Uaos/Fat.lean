-- The FAT and the files of the FAT32 driver (fat32.c): FAT entries, cluster
-- allocation, and FAT32_Read, FAT32_Write, FAT32_Seek and FAT32_SetFileSize on a
-- file handle. A loop that never ends is the outer `none` of its result.
import Uaos.Disk

namespace uaos.fat32

/-! ## The volume -/

def FAT32_EOC : Nat := 0x0FFFFFFF
def FAT32_EOC_MIN : Nat := 0x0FFFFFF8
def FAT32_MAX_CLUSTER_SECS : Nat := 128

/-- `FAT32_IS_EOC`. -/
def is_eoc (c : Nat) : Bool := FAT32_EOC_MIN ≤ c

/-- The fields of `Fat32FS` that FAT32_Mount sets and no other call changes. It
accepts 512-byte sectors only, so `bytes_per_sec` is `SECTOR`. -/
structure Geom where
  fat_sz32 : Nat
  num_fats : Nat
  fs_info : Nat
  fat_start : Nat
  data_start : Nat
  root_cluster : Nat
  sec_per_clus : Nat
  cluster_size : Nat
  total_clusters : Nat

/-- The rest of `Fat32FS`, and the tag of the directory buffer. -/
structure Vol where
  bdev : BlockDev
  free_clusters : Int
  fsinfo_stale : Bool
  dir_buf_cluster : Nat

/-- A value read as an `int32_t`. -/
def to_i32 (n : Nat) : Int := if n < 2 ^ 31 then n else (n : Int) - 2 ^ 32

/-- Every write drops the directory buffer. -/
def fat32_bwrite (v : Vol) (sector : Nat) (buf : Buf) (num : Nat) : Vol × Bool :=
  let v := { v with dir_buf_cluster := 0 }
  match blockdev_write v.bdev sector buf num with
  | none => (v, false)
  | some d => ({ v with bdev := d }, true)

/-! ## Clusters -/

def fat32_cluster_to_sector (g : Geom) (cluster : Nat) : Nat :=
  u32 (g.data_start + u32 (sub32 cluster 2 * g.sec_per_clus))

/-- The cluster is read sector by sector, and a sector off the device fails it. -/
def fat32_read_cluster (g : Geom) (d : BlockDev) (cluster : Nat) : Option Buf :=
  if cluster < 2 then none
  else
    let sec := fat32_cluster_to_sector g cluster
    if (List.range g.sec_per_clus).all fun i => (blockdev_read d (u32 (sec + i)) 1).isSome then
      some fun j => d.data (u32 (sec + j / SECTOR)) (j % SECTOR)
    else none

/-- Write `n` sectors from the `i`-th on, and stop at the first that fails. -/
def write_sectors (buf : Buf) (sec : Nat) : Nat → Nat → Vol → Vol × Bool
  | 0, _, v => (v, true)
  | n + 1, i, v =>
    match fat32_bwrite v (u32 (sec + i)) (fun j => buf (i * SECTOR + j)) 1 with
    | (v, false) => (v, false)
    | (v, true) => write_sectors buf sec n (i + 1) v

def fat32_write_cluster (g : Geom) (v : Vol) (cluster : Nat) (buf : Buf) : Vol × Bool :=
  if cluster < 2 then (v, false)
  else write_sectors buf (fat32_cluster_to_sector g cluster) g.sec_per_clus 0 v

/-- The batches of fat32_zero_cluster: `s` sectors are done and `remain` are left. -/
def zero_batches (sec : Nat) : Nat → Nat → Nat → Vol → Vol × Bool
  | 0, _, _, v => (v, true)
  | fuel + 1, s, remain, v =>
    if remain = 0 then (v, true)
    else
      let batch := if FAT32_MAX_CLUSTER_SECS < remain then FAT32_MAX_CLUSTER_SECS else remain
      match fat32_bwrite v (u32 (sec + s)) (fun _ => 0) batch with
      | (v, false) => (v, false)
      | (v, true) => zero_batches sec fuel (s + batch) (remain - batch) v

def fat32_zero_cluster (g : Geom) (v : Vol) (cluster : Nat) : Vol × Bool :=
  if cluster < 2 then (v, false)
  else zero_batches (fat32_cluster_to_sector g cluster) g.sec_per_clus 0 g.sec_per_clus v

/-! ## FAT entries -/

/-- An entry has four bytes and a sector 512, so none spans two sectors. -/
def fat32_get_fat_entry (g : Geom) (d : BlockDev) (cluster : Nat) : Nat :=
  let fat_offset := u32 (cluster * 4)
  match blockdev_read d (u32 (g.fat_start + fat_offset / SECTOR)) 1 with
  | none => FAT32_EOC
  | some buf => le32 buf (fat_offset % SECTOR) % 2 ^ 28

/-- Write one FAT sector to `n` copies of the FAT from the `f`-th on. -/
def write_fats (g : Geom) (buf : Buf) (rel : Nat) : Nat → Nat → Vol → Vol × Bool
  | 0, _, v => (v, true)
  | n + 1, f, v =>
    match fat32_bwrite v (u32 (u32 (g.fat_start + u32 (f * g.fat_sz32)) + rel)) buf 1 with
    | (v, false) => (v, false)
    | (v, true) => write_fats g buf rel n (f + 1) v

def fat32_set_fat_entry (g : Geom) (v : Vol) (cluster value : Nat) : Vol × Bool :=
  let fat_offset := u32 (cluster * 4)
  let fat_sec := u32 (g.fat_start + fat_offset / SECTOR)
  match blockdev_read v.bdev fat_sec 1 with
  | none => (v, false)
  | some buf =>
    write_fats g (put_le32 buf (fat_offset % SECTOR) (value % 2 ^ 28))
      (sub32 fat_sec g.fat_start) g.num_fats 0 v

/-! ## Allocation -/

def FSINFO_LEAD_SIG : Nat := 0x41615252
def FSINFO_STRUC_SIG : Nat := 0x61417272

def fat32_fsinfo_invalidate (g : Geom) (v : Vol) : Vol :=
  if v.fsinfo_stale then v
  else
    let v := { v with fsinfo_stale := true }
    let sec := g.fs_info
    if sec = 0 ∨ sec = 0xFFFF ∨ g.fat_start ≤ sec then v
    else
      match blockdev_read v.bdev sec 1 with
      | none => v
      | some buf =>
        if le32 buf 0 ≠ FSINFO_LEAD_SIG ∨ le32 buf 484 ≠ FSINFO_STRUC_SIG then v
        else (fat32_bwrite v sec (put_le32 (put_le32 buf 488 0xFFFFFFFF) 492 0xFFFFFFFF) 1).1

/-- The entries in one sector of the FAT. -/
def ENTS_PER_SEC : Nat := SECTOR / 4

/-- Entry `e` of the FAT sector `sec` is that of a free cluster. -/
def entry_is_free (g : Geom) (buf : Buf) (sec e : Nat) : Bool :=
  let cluster := u32 (sec * ENTS_PER_SEC + e)
  2 ≤ cluster && cluster < u32 (g.total_clusters + 2) && le32 buf (e * 4) % 2 ^ 28 = 0

/-- The scan of fat32_alloc_cluster, over `n` sectors of the FAT from `sec` on. -/
def find_free_cluster (g : Geom) (d : BlockDev) : Nat → Nat → Option Nat
  | 0, _ => none
  | n + 1, sec =>
    match blockdev_read d (u32 (g.fat_start + sec)) 1 with
    | none => none
    | some buf =>
      match (List.range' 0 ENTS_PER_SEC).find? (entry_is_free g buf sec) with
      | some e => some (u32 (sec * ENTS_PER_SEC + e))
      | none => find_free_cluster g d n (sec + 1)

/-- The cluster that was free, or 0. -/
def fat32_alloc_cluster (g : Geom) (v : Vol) : Vol × Nat :=
  match find_free_cluster g v.bdev g.fat_sz32 0 with
  | none => (v, 0)
  | some cluster =>
    match fat32_set_fat_entry g (fat32_fsinfo_invalidate g v) cluster FAT32_EOC with
    | (v, false) => (v, 0)
    | (v, true) =>
      match fat32_zero_cluster g v cluster with
      | (v, false) => (v, 0)
      | (v, true) =>
        (if 0 < v.free_clusters then { v with free_clusters := v.free_clusters - 1 }
          else v, cluster)

def fat32_extend_chain (g : Geom) (v : Vol) (last_cluster : Nat) : Vol × Nat :=
  match fat32_alloc_cluster g v with
  | (v, newc) =>
    if newc = 0 then (v, 0)
    else
      let v := if 2 ≤ last_cluster then (fat32_set_fat_entry g v last_cluster newc).1 else v
      ((fat32_set_fat_entry g v newc FAT32_EOC).1, newc)

/-- The loop of fat32_free_chain, with `guard` rounds left. -/
def free_chain_loop (g : Geom) : Nat → Vol → Nat → Vol
  | 0, v, _ => v
  | guard + 1, v, cluster =>
    if cluster < 2 ∨ is_eoc cluster then v
    else
      let next := fat32_get_fat_entry g v.bdev cluster
      let v := (fat32_set_fat_entry g v cluster 0).1
      let v :=
        if 0 ≤ v.free_clusters ∧ v.free_clusters < to_i32 g.total_clusters then
          { v with free_clusters := v.free_clusters + 1 }
        else v
      free_chain_loop g guard v next

def fat32_free_chain (g : Geom) (v : Vol) (start_cluster : Nat) : Vol :=
  free_chain_loop g (u32 (g.total_clusters + 2))
    (if 2 ≤ start_cluster then fat32_fsinfo_invalidate g v else v) start_cluster

/-! ## File handles -/

/-- A file handle. There is one mounted volume, so the `fs` field is left out. -/
structure Fat32File where
  start_cluster : Nat
  cluster : Nat
  offset : Nat
  pos : Nat
  size : Nat
  is_dir : Bool
  in_use : Bool
  dir_sector : Nat
  dir_offset : Nat
  iter_cluster : Nat
  iter_offset : Nat
  parent_cluster : Nat
  deriving DecidableEq

/-- A time of the clock in the two 16-bit words of FAT. -/
structure Stamp where
  date : Nat
  time : Nat

/-- Stamp the directory entry at the offset `i`. -/
def fat32_stamp_entry (b : Buf) (i : Nat) (created : Bool) (now : Stamp) : Buf :=
  let b := put_le16 (put_le16 (put_le16 b (i + 22) now.time) (i + 24) now.date) (i + 18) now.date
  if created then put_le16 (put_le16 b (i + 14) now.time) (i + 16) now.date else b

/-- The loop of FAT32_Read, with `len` bytes left to read. -/
def read_loop (g : Geom) (d : BlockDev) : Nat → Fat32File → Nat → Option (Fat32File × List UInt8)
  | 0, _, _ => none
  | fuel + 1, f, len =>
    if len = 0 then some (f, [])
    else if f.cluster < 2 ∨ is_eoc f.cluster then some (f, [])
    else
      match fat32_read_cluster g d f.cluster with
      | none => some (f, [])
      | some buf =>
        let chunk := min (sub32 g.cluster_size f.offset) len
        let f1 := { f with offset := u32 (f.offset + chunk), pos := u32 (f.pos + chunk) }
        let f2 :=
          if g.cluster_size ≤ f1.offset then
            { f1 with cluster := fat32_get_fat_entry g d f1.cluster, offset := 0 }
          else f1
        (read_loop g d fuel f2 (len - chunk)).map fun (f', rest) =>
          (f', slice buf f.offset chunk ++ rest)

/-- The bytes that FAT32_Read copies out. Every round but the first copies a
byte or is the last. -/
def fat32_read (g : Geom) (d : BlockDev) (f : Fat32File) (len : Nat) :
    Option (Fat32File × List UInt8) :=
  if f.is_dir then some (f, [])
  else if f.size ≤ f.pos then some (f, [])
  else
    let len := min len (sub32 f.size f.pos)
    read_loop g d (len + 2) f len

/-- The start of a round of FAT32_Write: past the end of the cluster it takes the
next one, or makes one. -/
def write_place (g : Geom) (v : Vol) (f : Fat32File) : Vol × Option Fat32File :=
  if g.cluster_size ≤ f.offset then
    let next := fat32_get_fat_entry g v.bdev f.cluster
    match if is_eoc next ∨ next < 2 then fat32_extend_chain g v f.cluster else (v, next) with
    | (v, next) => (v, if next = 0 then none else some { f with cluster := next, offset := 0 })
  else (v, some f)

/-- The loop of FAT32_Write, with the bytes `bs` left to write. It gives the
number of bytes written. -/
def write_loop (g : Geom) : Nat → Vol → Fat32File → List UInt8 → Option (Vol × Fat32File × Nat)
  | 0, _, _, _ => none
  | fuel + 1, v, f, bs =>
    if bs = [] then some (v, f, 0)
    else
      match write_place g v f with
      | (v, none) => some (v, f, 0)
      | (v, some f) =>
        match fat32_read_cluster g v.bdev f.cluster with
        | none => some (v, f, 0)
        | some buf =>
          let chunk := min (sub32 g.cluster_size f.offset) bs.length
          match fat32_write_cluster g v f.cluster (put buf f.offset (bs.take chunk)) with
          | (v, false) => some (v, f, 0)
          | (v, true) =>
            let pos := u32 (f.pos + chunk)
            let f := { f with
              offset := u32 (f.offset + chunk), pos := pos
              size := if f.size < pos then pos else f.size }
            (write_loop g fuel v f (bs.drop chunk)).map fun (v, f, n) => (v, f, chunk + n)

def fat32_write (g : Geom) (v : Vol) (f : Fat32File) (bs : List UInt8) :
    Option (Vol × Fat32File × Nat) :=
  if f.is_dir then some (v, f, 0)
  else if f.start_cluster = 0 then
    match fat32_alloc_cluster g v with
    | (v, c) =>
      if c = 0 then some (v, f, 0)
      else
        write_loop g (bs.length + 1) v { f with start_cluster := c, cluster := c, offset := 0 } bs
  else write_loop g (bs.length + 1) v f bs

/-- The walk of FAT32_Seek over `n` clusters. It stops at the last one. -/
def seek_walk (g : Geom) (d : BlockDev) : Nat → Nat → Nat
  | 0, cluster => cluster
  | n + 1, cluster =>
    let next := fat32_get_fat_entry g d cluster
    if is_eoc next ∨ next < 2 then cluster else seek_walk g d n next

def fat32_seek (g : Geom) (d : BlockDev) (f : Fat32File) (pos : Nat) : Fat32File :=
  if !f.is_dir && 2 ≤ f.start_cluster then
    { f with
      cluster := seek_walk g d (pos / g.cluster_size) f.start_cluster
      offset := pos % g.cluster_size
      pos := pos }
  else { f with pos := pos }

/-- The zero writes of FAT32_SetFileSize, with `remaining` bytes to go. The flag
says whether all of them went through. -/
def grow_loop (g : Geom) : Nat → Vol → Fat32File → Nat → Option (Vol × Fat32File × Bool)
  | 0, _, _, _ => none
  | fuel + 1, v, f, remaining =>
    if remaining = 0 then some (v, f, true)
    else
      let chunk := min remaining SECTOR
      match fat32_write g v f (List.replicate chunk 0) with
      | none => none
      | some (v, f, n) =>
        if n ≠ chunk then some (v, f, false) else grow_loop g fuel v f (remaining - chunk)

/-- Put the size of the file into its directory entry. -/
def flush_size (v : Vol) (f : Fat32File) (now : Stamp) : Vol :=
  if f.dir_sector = 0 then v
  else
    match blockdev_read v.bdev f.dir_sector 1 with
    | none => v
    | some buf =>
      let buf := put_le32 buf (f.dir_offset + 28) f.size
      (fat32_bwrite v f.dir_sector (fat32_stamp_entry buf f.dir_offset false now) 1).1

def fat32_set_file_size (g : Geom) (v : Vol) (f : Fat32File) (new_size : Nat) (now : Stamp) :
    Option (Vol × Fat32File × Int) :=
  if f.is_dir then some (v, f, -1)
  else if f.size < new_size then
    let save_pos := f.pos
    match grow_loop g (new_size - f.size + 1) v (fat32_seek g v.bdev f f.size)
      (new_size - f.size) with
    | none => none
    | some (v, f, ok) =>
      let f := fat32_seek g v.bdev f save_pos
      if ok then some (flush_size v f now, f, 0) else some (v, f, -1)
  else
    let f := { f with size := new_size }
    let f := if new_size < f.pos then fat32_seek g v.bdev f new_size else f
    some (flush_size v f now, f, 0)

end uaos.fat32
