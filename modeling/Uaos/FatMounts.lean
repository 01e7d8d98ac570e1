-- The one Fat32FS that all FAT mounts share (fat32.c, vfs.c): FAT32_Mount and
-- FAT32_Unmount, the mount table above them, and which devices a request through a
-- mount reads and writes.
import Uaos.Dates
import Uaos.FatHandler
import Uaos.RamTree
import Uaos.Refine

namespace uaos.fat32

open Function Option

open dates (DateStamp fat32_ds_to_fatstamp fat32_fatstamp_to_ds)

open ramfs (seq_ci COLON)

variable {name : List UInt8} {i : Nat}

/-! ## Mounting -/

/-- The fields of `Fat32FS` that FAT32_Mount sets. The cached counts are in `Vol`. -/
structure Fat32FS where
  bytes_per_sec : Nat
  geom : Geom
  vol_label : List UInt8

/-- `memset(fs, 0, sizeof(Fat32FS))`. -/
def Fat32FS.zero : Fat32FS := ⟨0, ⟨0, 0, 0, 0, 0, 0, 0, 0, 0⟩, List.replicate 11 0⟩

/-- "EXFAT   ". -/
def EXFAT_OEM : List UInt8 := [69, 88, 70, 65, 84, 32, 32, 32]

/-- The fields that a read uses straight from the copy of the boot sector. -/
def copy_bpb (b : Buf) : Fat32FS := { Fat32FS.zero with
    geom := { Fat32FS.zero.geom with
      fat_sz32 := le32 b 36, num_fats := (b 16).toNat, fs_info := le16 b 48 }
    vol_label := slice b 71 11 }

/-- A FAT32 boot sector, and not one of exFAT, FAT12 or FAT16. -/
def bpb_is_fat32 (b : Buf) : Bool :=
  le16 b 510 = 0xAA55 ∧ slice b 3 8 ≠ EXFAT_OEM ∧ le16 b 17 = 0 ∧ le16 b 22 = 0

def parse_bpb (b : Buf) : Fat32FS :=
  let fs := copy_bpb b
  { fs with
    bytes_per_sec := le16 b 11
    geom := { fs.geom with
      sec_per_clus := (b 13).toNat
      cluster_size := u32 (le16 b 11 * (b 13).toNat)
      root_cluster := le32 b 44 } }

/-- The sizes are those that the driver can work with. -/
def bpb_is_supported (b : Buf) : Bool :=
  le16 b 11 = 512 ∧ b 13 ≠ 0 ∧ b 13 &&& (b 13 - 1) = 0 ∧ le32 b 36 ≠ 0 ∧ b 16 ≠ 0 ∧
    2 ≤ le32 b 44 ∧ u32 (le16 b 11 * (b 13).toNat) ≤ 65536 ∧
    (b 13).toNat ≤ FAT32_MAX_CLUSTER_SECS

def bpb_data_start (b : Buf) : Nat := u32 (le16 b 14 + u32 ((b 16).toNat * le32 b 36))

def set_starts (b : Buf) : Fat32FS :=
  let fs := parse_bpb b
  { fs with geom := { fs.geom with fat_start := le16 b 14, data_start := bpb_data_start b } }

def bpb_tot_sec (b : Buf) : Nat := if le32 b 32 = 0 then le16 b 19 else le32 b 32

/-- The clusters of the data area, as far as the FAT has entries for them. -/
def bpb_total_clusters (b : Buf) : Nat :=
  let total := (bpb_tot_sec b - bpb_data_start b) / (b 13).toNat
  let fat_capacity := u32 (le32 b 36 * (le16 b 11 / 4))
  if 2 < fat_capacity ∧ fat_capacity - 2 < total then fat_capacity - 2 else total

/-- FAT32_Mount: what it leaves in `Fat32FS`, and whether it succeeds. -/
def fat32_mount (d : BlockDev) : Fat32FS × Bool :=
  match blockdev_read d 0 1 with
  | none => (Fat32FS.zero, false)
  | some b =>
    if !bpb_is_fat32 b then (copy_bpb b, false)
    else if !bpb_is_supported b then (parse_bpb b, false)
    else if bpb_tot_sec b ≤ bpb_data_start b then (set_starts b, false)
    else
      let fs := set_starts b
      ({ fs with geom := { fs.geom with total_clusters := bpb_total_clusters b } },
        bpb_total_clusters b ≠ 0)

/-- "NO NAME". -/
def NO_NAME : List UInt8 := [78, 79, 32, 78, 65, 77, 69]

/-- FAT32_VolumeLabel into a buffer of `max` bytes. The empty label is none. -/
def fat32_volume_label (fs : Fat32FS) (max : Nat) : List UInt8 :=
  let label := (fs.vol_label.reverse.dropWhile (· = 32)).reverse
  if label = NO_NAME then [] else (label.take (max - 1)).takeWhile (· ≠ 0)

/-! ## The mount table -/

def MAX_MOUNTS : Nat := 16

/-- The driver behind a mount. -/
inductive Driver where
  | ram
  | ffs
  | fat
  deriving DecidableEq

structure MountEntry where
  vol_name : List UInt8
  vol_label : List UInt8
  bdev : Option Nat
  driver : Driver
  deriving DecidableEq

/-- The paths that the open files of the handler and the entries of the handle table
keep, each by its index and cut to 127 bytes. The access of a lock is kept as well, and
no packet looks at it. -/
structure Paths where
  files : Nat → List UInt8
  locks : Nat → List UInt8

/-- The block devices by number, the shared `Fat32FS` with the device that it is on,
the state of the FAT handler with the paths of its handles, the mount table, the
handlers left in their pool and the volume of SYS:. The device in the state of the
handler is not used: `fs_bdev` says which one the driver works on. -/
structure World where
  devs : Nat → BlockDev
  fs_bdev : Option Nat
  fs : Fat32FS
  h : Handler
  paths : Paths
  mounts : List MountEntry
  handlers_left : Nat
  sys_vol : Option (List UInt8)

/-- Reads and writes without a device fail. -/
def no_dev : BlockDev := ⟨fun _ _ => 0, 0, 0⟩

def Handler.on (h : Handler) (d : BlockDev) : Handler :=
  { h with fs := { h.fs with vol := { h.fs.vol with bdev := d } } }

/-- The device that `fs->bdev` points at. -/
def World.bound (w : World) : BlockDev :=
  match w.fs_bdev with
  | none => no_dev
  | some i => w.devs i

/-- FAT32_Mount of the device `i`: the shared `Fat32FS` is cleared and is on `i` from
there on, also when the mount fails. -/
def World.fat32_mount (w : World) (i : Nat) : World × Bool :=
  let (fs, ok) := uaos.fat32.fat32_mount (w.devs i)
  let vol : Vol := ⟨no_dev, if ok then -1 else 0, false, 0⟩
  ({ w with fs_bdev := some i, fs := fs, h := { w.h with fs := { w.h.fs with vol := vol } } }, ok)

def World.fat32_unmount (w : World) : World :=
  let retire (f : Fat32File) : Fat32File := { f with in_use := false }
  { w with
    fs_bdev := none
    h := { w.h with
      fs := { w.h.fs with
        files := fun k => if k < FAT32_MAX_FILES then retire (w.h.fs.files k) else w.h.fs.files k
        vol := { w.h.fs.vol with dir_buf_cluster := 0 } } } }

def fat32_open_count (h : Handler) : Nat :=
  (List.range FAT32_MAX_FILES).countP fun k => (h.fs.files k).in_use

/-- VFS_MountFat gets as far as FAT32_Mount. -/
def World.calls_mount (w : World) (name : List UInt8) : Bool :=
  name ≠ [] ∧ w.mounts.all (fun m => m.vol_name ≠ name) ∧ w.mounts.length < MAX_MOUNTS

def vfs_mount_fat (w : World) (name : List UInt8) (i : Nat) : World × Int :=
  if name = [] then (w, -1)
  else if w.mounts.any fun m => m.vol_name = name then (w, 0)
  else if MAX_MOUNTS ≤ w.mounts.length then (w, -1)
  else
    match w.fat32_mount i with
    | (w, false) => (w, -1)
    | (w, true) =>
      if w.handlers_left = 0 then (w.fat32_unmount, -1)
      else
        let m : MountEntry := ⟨name.take 15, fat32_volume_label w.fs 16, some i, .fat⟩
        ({ w with mounts := w.mounts ++ [m], handlers_left := w.handlers_left - 1 }, 0)

def VFS_UNMOUNT_OK : Int := 0
def VFS_UNMOUNT_NOTFOUND : Int := -1
def VFS_UNMOUNT_NOTSUPP : Int := -2
def VFS_UNMOUNT_BUSY : Int := -3
def VFS_UNMOUNT_SYSVOL : Int := -4

/-- The mount with that unit name, or else with that label. -/
def mount_index (mounts : List MountEntry) (vname : List UInt8) : Option Nat :=
  match mounts.findIdx? fun m => seq_ci m.vol_name vname with
  | some k => some k
  | none => mounts.findIdx? fun m => m.vol_label ≠ [] ∧ seq_ci m.vol_label vname

/-- The volume of SYS: is the one of the mount. -/
def is_sys_vol (sys : Option (List UInt8)) (m : MountEntry) : Bool :=
  sys.any fun s => seq_ci s m.vol_name || (m.vol_label ≠ [] && seq_ci s m.vol_label)

/-- VFS_Unmount. Whether an FFS volume is busy is for its own driver to say. -/
def vfs_unmount (w : World) (name : List UInt8) (ffs_busy : Bool) : World × Int :=
  let vname := (name.takeWhile (· ≠ COLON)).take 15
  if vname = [] then (w, VFS_UNMOUNT_NOTFOUND)
  else
    match mount_index w.mounts vname with
    | none => (w, VFS_UNMOUNT_NOTFOUND)
    | some k =>
      match w.mounts[k]? with
      | none => (w, VFS_UNMOUNT_NOTFOUND)
      | some m =>
        if m.bdev = none ∨ m.driver = .ram then (w, VFS_UNMOUNT_NOTSUPP)
        else if is_sys_vol w.sys_vol m then (w, VFS_UNMOUNT_SYSVOL)
        else if (if m.driver = .ffs then ffs_busy else 0 < fat32_open_count w.h) then
          (w, VFS_UNMOUNT_BUSY)
        else
          let rest := w.mounts.eraseIdx k
          let w := if m.driver = .fat ∧ rest.all (·.driver ≠ .fat) then w.fat32_unmount else w
          ({ w with mounts := rest, handlers_left := w.handlers_left + 1 }, VFS_UNMOUNT_OK)

/-! ## Dates, protection and counts -/

/-- The change of a directory entry that FAT32_SetDate and FAT32_SetProtection make:
the sector of the entry is read, edited and written back. -/
def edit_entry (g : Geom) (fs : Fs) (path : List UInt8) (edit : Buf → Nat → Buf) : Fs × Bool :=
  let rel := strip_vol_prefix path
  if rel = [] then (fs, false)
  else
    match fat32_walk_path g fs.vol.bdev rel fs.lfn_find with
    | (.found _ f, lfn) =>
      let fs := { fs with lfn_find := lfn }
      match blockdev_read fs.vol.bdev f.slot.sec 1 with
      | none => (fs, false)
      | some buf =>
        let (v, ok) := fat32_bwrite fs.vol f.slot.sec (edit buf f.slot.off) 1
        ({ fs with vol := v }, ok)
    | (_, lfn) => ({ fs with lfn_find := lfn }, false)

def fat32_set_date (g : Geom) (fs : Fs) (path : List UInt8) (ds : DateStamp) : Fs × Bool :=
  let (date, time) := fat32_ds_to_fatstamp ds
  edit_entry g fs path fun buf off => put_le16 (put_le16 buf (off + 22) time) (off + 24) date

def FIBF_WRITE : UInt32 := 4
def FAT32_ATTR_READ_ONLY : UInt8 := 1

def fat32_set_protection (g : Geom) (fs : Fs) (path : List UInt8) (mask : UInt32) : Fs × Bool :=
  edit_entry g fs path fun buf off =>
    let attr := buf (off + 11)
    put buf (off + 11) [if mask &&& FIBF_WRITE ≠ 0 then attr ||| FAT32_ATTR_READ_ONLY
      else attr &&& ~~~FAT32_ATTR_READ_ONLY]

/-- FAT32_GetDate, as date and time. A root directory has no entry. -/
def fat32_get_date (d : BlockDev) (f : Fat32File) : Option (Nat × Nat) :=
  if f.dir_sector = 0 then none
  else
    (blockdev_read d f.dir_sector 1).map fun buf =>
      (le16 buf (f.dir_offset + 24), le16 buf (f.dir_offset + 22))

/-- The scan of FAT32_GetVolumeStats, over `n` more reads of up to 128 sectors. A read
is tried again once, with the same outcome. -/
def count_free (g : Geom) (d : BlockDev) : Nat → Nat → Nat → Option Nat
  | 0, _, free_cnt => some free_cnt
  | n + 1, sec, free_cnt =>
    if g.fat_sz32 ≤ sec then some free_cnt
    else
      let batch := min (g.fat_sz32 - sec) FAT32_MAX_CLUSTER_SECS
      match blockdev_read d (u32 (g.fat_start + sec)) batch with
      | none => none
      | some buf =>
        let found := (List.range (batch * ENTS_PER_SEC)).countP (entry_is_free g buf sec)
        count_free g d n (sec + FAT32_MAX_CLUSTER_SECS) (u32 (free_cnt + found))

/-- FAT32_GetVolumeStats: the total and the used bytes. The count is kept in the volume,
unless the scan failed. -/
def fat32_get_volume_stats (g : Geom) (v : Vol) : Vol × Nat × Nat :=
  let v :=
    if v.free_clusters < 0 then
      match count_free g v.bdev (g.fat_sz32 / FAT32_MAX_CLUSTER_SECS + 1) 0 0 with
      | none => v
      | some free_cnt => { v with free_clusters := to_i32 free_cnt }
    else v
  let used :=
    if 0 ≤ v.free_clusters ∧ v.free_clusters ≤ to_i32 g.total_clusters then
      (g.total_clusters - v.free_clusters.toNat) * g.cluster_size
    else 0
  (v, g.total_clusters * g.cluster_size, used)

/-! ## Requests -/

def ERROR_ACTION_NOT_KNOWN : Nat := 209
def ERROR_WRITE_PROTECTED : Nat := 223
def ERROR_NO_MORE_ENTRIES : Nat := 232
def OFFSET_CURRENT : Int := 0
def OFFSET_END : Int := 1
def ST_USERDIR : Int := 2
def ST_FILE : Int := -3
def DEFAULT_PROTECTION : Nat := 0x8800
def INT32_MAX : Nat := 2 ^ 31 - 1

/-- The packets of FatHandler_ProcessPacket: those of `process_packet`, and the rest. A
pointer that the handler checks is an option, or a flag where only its value counts. -/
inductive Request where
  | packet (p : Packet)
  | seek (handle : UInt32) (offset mode : Int)
  | delete_object (path : List UInt8)
  | create_dir (path : List UInt8)
  | rename_object (old_path new_path : List UInt8)
  | examine_object (handle : UInt32)
  | examine_next (handle : UInt32)
  | examine_fh (handle : UInt32)
  | examine_all (handle : UInt32)
  | disk_info (has_buffer : Bool)
  | info (has_buffer : Bool)
  | parent (handle : UInt32)
  | parent_fh (handle : UInt32)
  | copy_dir (handle : UInt32)
  | same_lock (h1 h2 : UInt32)
  | is_filesystem
  | flush
  | inhibit
  | set_date (path : List UInt8) (ds : Option DateStamp)
  | set_protect (path : List UInt8) (mask : UInt32)
  | set_comment
  | set_file_size (handle : UInt32) (offset mode : Int)
  | unknown

/-- The fields of a `FileInfoBlock` that are set. `fib_EntryType` is the type again. -/
structure FileInfoBlock where
  fib_dir_entry_type : Int
  fib_file_name : List UInt8
  fib_protection : Nat
  fib_size : Int
  fib_num_blocks : Int
  fib_date : DateStamp

/-- The fields of `InfoData` that depend on the volume. -/
structure InfoData where
  id_num_blocks : Nat
  id_num_blocks_used : Nat
  id_bytes_per_block : Nat

/-- The reply to a request, and what it put into the block it was given. -/
structure Answer where
  reply : Reply
  fib : Option FileInfoBlock
  info : Option InfoData

def Answer.of (r : Reply) : Answer := ⟨r, none, none⟩

def fill_fib (is_dir : Bool) (name : List UInt8) (size : Nat) (date : DateStamp) :
    FileInfoBlock where
  fib_dir_entry_type := if is_dir then ST_USERDIR else ST_FILE
  fib_file_name := name
  fib_protection := DEFAULT_PROTECTION
  fib_size := to_i32 size
  fib_num_blocks := to_i32 (u32 (size + 511) / 512)
  fib_date := date

/-- The path goes to the entry that the reply names. -/
def Paths.keep_file (ps : Paths) (path : List UInt8) (a : Reply) : Paths :=
  if a.res1 = 0 then ps
  else { ps with files := update ps.files (a.res1.toNat - 1) (path.take 127) }

def Paths.keep_lock (ps : Paths) (path : List UInt8) (a : Reply) : Paths :=
  if a.res1 = 0 then ps
  else { ps with locks := update ps.locks (a.res1.toNat - 1) (path.take 127) }

/-- What a packet of `process_packet` does to the paths. -/
def Paths.after (ps : Paths) (a : Reply) : Packet → Paths
  | .find_input path | .find_output path | .find_update path => ps.keep_file path a
  | .locate_object path => ps.keep_lock path a
  | _ => ps

def is_separator (c : UInt8) : Bool := c = 47 || c = 92

/-- The path of the parent, or none for the root of the volume. -/
def fat_parent_path (path : List UInt8) (max : Nat) : Option (List UInt8) :=
  let name := path.reverse.dropWhile is_separator
  let dir := name.dropWhile (!is_separator ·)
  let vol := name.reverse.takeWhile (· ≠ COLON)
  if dir ≠ [] then some (dir.tail.reverse.take (max - 1))
  else if vol.length + 1 < name.length then
    some (name.reverse.take (min (vol.length + 1) (max - 1)))
  else if vol.length < name.length ∨ name = [] then none
  else some []

def seek_target (f : Fat32File) (offset mode : Int) : Nat :=
  let off := (offset % 2 ^ 32).toNat
  if mode = OFFSET_CURRENT then u32 (f.pos + off)
  else if mode = OFFSET_END then u32 (f.size + off)
  else off

/-- The two answers of the packets that only succeed or fail. -/
def answer_of (ok : Bool) : Answer :=
  if ok then .of ⟨DOSTRUE, 0, []⟩ else .of ⟨0, ERROR_OBJECT_NOT_FOUND, []⟩

/-- A new lock on what the path names. -/
def lock_path (g : Geom) (h : Handler) (ps : Paths) (path : List UInt8) (now : Stamp) :
    Handler × Paths × Answer :=
  let (fs, file) := fat32_open g h.fs path
  let (h, a) := finish_lock { h with fs := fs } file now
  (h, ps.keep_lock path a, .of a)

/-- ACTION_PARENT and ACTION_PARENT_FH for an entry with that path. An error is told
only when the handle table is full. -/
def lock_parent (g : Geom) (h : Handler) (ps : Paths) (path : List UInt8) (now : Stamp) :
    Handler × Paths × Answer :=
  match fat_parent_path path 128 with
  | none => (h, ps, .of ⟨0, 0, []⟩)
  | some dir =>
    match fat32_open g h.fs dir with
    | (fs, none) => ({ h with fs := fs }, ps, .of ⟨0, 0, []⟩)
    | (fs, some i) =>
      let (h, a) := finish_lock { h with fs := fs } (some i) now
      (h, ps.keep_lock dir a, .of a)

/-- ACTION_EXAMINE_OBJECT and ACTION_EXAMINE_FH for the file at that index. -/
def examine (h : Handler) (node : Option Nat) : Answer :=
  match node with
  | none => answer_of false
  | some i =>
    let f := h.fs.files i
    let date := match fat32_get_date h.fs.vol.bdev f with
      | none => ⟨0, 0, 0⟩
      | some stamp => fat32_fatstamp_to_ds stamp
    ⟨⟨DOSTRUE, 0, []⟩, some (fill_fib f.is_dir [] f.size date), none⟩

/-- ACTION_EXAMINE_NEXT and ACTION_EXAMINE_ALL: the next entry of a directory. -/
def examine_entry (g : Geom) (h : Handler) (handle : UInt32) : Handler × Answer :=
  match get_lock_node h handle with
  | none => (h, .of ⟨0, ERROR_NO_MORE_ENTRIES, []⟩)
  | some i =>
    if !(h.fs.files i).is_dir then (h, .of ⟨0, ERROR_NO_MORE_ENTRIES, []⟩)
    else
      match fat32_read_dir g h.fs i 108 with
      | (fs, none) => ({ h with fs := fs }, .of ⟨0, ERROR_NO_MORE_ENTRIES, []⟩)
      | (fs, some e) =>
        let date := fat32_fatstamp_to_ds (e.wrt_date, e.wrt_time)
        ({ h with fs := fs },
          ⟨⟨DOSTRUE, 0, []⟩, some (fill_fib e.is_dir e.name e.size date), none⟩)

/-- ACTION_DISK_INFO and ACTION_INFO. The counts are cut to a positive `int32_t`. -/
def volume_info (g : Geom) (h : Handler) (has_buffer : Bool) : Handler × Answer :=
  if !has_buffer then (h, answer_of false)
  else
    let (v, total, used) := fat32_get_volume_stats g h.fs.vol
    ({ h with fs := { h.fs with vol := v } },
      ⟨⟨DOSTRUE, 0, []⟩, none,
        some ⟨min (total / SECTOR) INT32_MAX, min (used / SECTOR) INT32_MAX, SECTOR⟩⟩)

/-- FatHandler_ProcessPacket. A call that never ends is `none`. -/
def process_request (g : Geom) (h : Handler) (ps : Paths) (r : Request) (now : Stamp) :
    Option (Handler × Paths × Answer) :=
  match r with
  | .packet p => (process_packet g h p now).map fun (h, a) => (h, ps.after a p, .of a)
  | .seek handle offset mode =>
    match fat_get_file_handle h handle with
    | none => some (h, ps, .of ⟨-1, ERROR_OBJECT_NOT_FOUND, []⟩)
    | some i =>
      let f := h.fs.files i
      let f' := fat32_seek g h.fs.vol.bdev f (seek_target f offset mode)
      some ({ h with fs := h.fs.set_file i f' }, ps, .of ⟨to_i32 f.pos, 0, []⟩)
  | .delete_object path =>
    let (fs, ok) := fat32_delete g h.fs path now
    some ({ h with fs := fs }, ps, answer_of ok)
  | .create_dir path =>
    match fat32_create_dir g h.fs path now with
    | (fs, false) => some ({ h with fs := fs }, ps, answer_of false)
    | (fs, true) => some (lock_path g { h with fs := fs } ps path now)
  | .rename_object old_path new_path =>
    let (fs, ok) := fat32_rename g h.fs old_path new_path
    some ({ h with fs := fs }, ps, answer_of ok)
  | .examine_object handle =>
    some (h, ps, examine h ((get_lock_node h handle).or (fat_get_file_handle h handle)))
  | .examine_fh handle => some (h, ps, examine h (fat_get_file_handle h handle))
  | .examine_next handle | .examine_all handle =>
    let (h, a) := examine_entry g h handle
    some (h, ps, a)
  | .disk_info has_buffer | .info has_buffer =>
    let (h, a) := volume_info g h has_buffer
    some (h, ps, a)
  | .parent handle =>
    match get_lock_node h handle with
    | none => some (h, ps, .of ⟨0, 0, []⟩)
    | some _ => some (lock_parent g h ps (ps.locks (handle.toNat - 1)) now)
  | .parent_fh handle =>
    match fat_get_file_handle h handle with
    | none => some (h, ps, .of ⟨0, 0, []⟩)
    | some _ => some (lock_parent g h ps (ps.files (handle.toNat - 1)) now)
  | .copy_dir handle =>
    match get_lock_node h handle with
    | none => some (h, ps, answer_of false)
    | some _ => some (lock_path g h ps (ps.locks (handle.toNat - 1)) now)
  | .same_lock h1 h2 =>
    let same := get_lock_node h h1 = get_lock_node h h2 ∧ (get_lock_node h h1).isSome
    some (h, ps, .of ⟨if same then DOSTRUE else 0, 0, []⟩)
  | .is_filesystem | .flush | .inhibit | .set_comment => some (h, ps, answer_of true)
  | .set_date path ds =>
    match ds with
    | none => some (h, ps, answer_of false)
    | some ds =>
      let (fs, ok) := fat32_set_date g h.fs path ds
      some ({ h with fs := fs }, ps, answer_of ok)
  | .set_protect path mask =>
    let (fs, ok) := fat32_set_protection g h.fs path mask
    some ({ h with fs := fs }, ps, answer_of ok)
  | .set_file_size handle offset mode =>
    match fat_get_file_handle h handle with
    | none => some (h, ps, .of ⟨-1, ERROR_OBJECT_NOT_FOUND, []⟩)
    | some i =>
      if (h.fs.files i).is_dir then some (h, ps, .of ⟨-1, ERROR_OBJECT_NOT_FOUND, []⟩)
      else
        let size := seek_target (h.fs.files i) offset mode
        (fat32_set_file_size g h.fs.vol (h.fs.files i) size now).map fun (v, f, rc) =>
          ({ h with fs := { h.fs.set_file i f with vol := v } }, ps,
            .of (if rc = 0 then ⟨to_i32 size, 0, []⟩ else ⟨-1, ERROR_WRITE_PROTECTED, []⟩))
  | .unknown => some (h, ps, .of ⟨0, ERROR_ACTION_NOT_KNOWN, []⟩)

/-- What the handler left on the device goes to the device that the driver is on. -/
def World.store (w : World) (h : Handler) (ps : Paths) : World := { w with
    devs := match w.fs_bdev with
      | none => w.devs
      | some i => Function.update w.devs i h.fs.vol.bdev
    h := h.on no_dev
    paths := ps }

/-- A request through a FAT mount. Every one of them goes to the shared `Fat32FS`. The
driver divides by the size of a sector, and only 512 is modelled. -/
def World.request (w : World) (r : Request) (now : Stamp) : Option (World × Answer) :=
  if w.fs.bytes_per_sec ≠ SECTOR then none
  else
    (process_request w.fs.geom (w.h.on w.bound) w.paths r now).map fun (h, ps, a) =>
      (w.store h ps, a)

inductive Call where
  | mount (name : List UInt8) (dev : Nat)
  | unmount (name : List UInt8) (ffs_busy : Bool)
  | request (mount : Nat) (r : Request) (now : Stamp)

inductive Result where
  | status (rc : Int)
  | answer (a : Answer)
  | not_fat

/-- The FAT mount at the index `k` of the table. -/
def World.fat_mount (w : World) (k : Nat) : Option MountEntry :=
  w.mounts[k]?.filter (·.driver = .fat)

def step (w : World) : Call → Option (World × Result)
  | .mount name i =>
    let (w, rc) := vfs_mount_fat w name i
    some (w, .status rc)
  | .unmount name ffs_busy =>
    let (w, rc) := vfs_unmount w name ffs_busy
    some (w, .status rc)
  | .request k r now =>
    match w.fat_mount k with
    | none => some (w, .not_fat)
    | some _ => (w.request r now).map fun (w, a) => (w, .answer a)

/-- The world after a call. -/
def next (w : World) (c : Call) : Option World := (step w c).map Prod.fst

/-! ## Which device a call is about -/

/-- The driver is on the device of the mount, and its last mount succeeded: a mount
that fails leaves no clusters behind. -/
def Served (w : World) (m : MountEntry) : Prop :=
  m.driver = .fat ∧ m.bdev.isSome ∧ w.fs_bdev = m.bdev ∧ w.fs.geom.total_clusters ≠ 0

instance (w : World) (m : MountEntry) : Decidable (Served w m) :=
  inferInstanceAs (Decidable (_ ∧ _ ∧ _ ∧ _))

/-- The device that a call is addressed to. -/
def addressed (w : World) : Call → Option Nat
  | .mount _ i => some i
  | .unmount _ _ => none
  | .request k _ _ => (w.fat_mount k).bind (·.bdev)

/-- The same world with other devices. -/
def World.devices (w : World) (f : Nat → BlockDev) : World := { w with devs := f }

/-- The worlds differ on the device `j` at most. -/
structure AgreeOff (j : Nat) (w v : World) : Prop where
  same : v = w.devices v.devs
  devs : ∀ i, i ≠ j → v.devs i = w.devs i

/-- FAT32_Mount takes the device. -/
def is_fat_volume (d : BlockDev) : Bool := (blockdev_read d 0 1).any fun b =>
    bpb_is_fat32 b && bpb_is_supported b && bpb_data_start b < bpb_tot_sec b &&
      bpb_total_clusters b ≠ 0

/-- A request goes through a mount that is served. While a FAT volume is mounted, only
FAT volumes are mounted, and only when a handler is left for them. -/
def CallOk (w : World) : Call → Prop
  | .mount name i =>
    w.calls_mount name → (∀ m ∈ w.mounts, m.driver ≠ .fat) ∨
      (is_fat_volume (w.devs i) ∧ 0 < w.handlers_left)
  | .unmount _ _ => True
  | .request k _ _ => ∀ m ∈ w.fat_mount k, Served w m

instance (w : World) : ∀ c, Decidable (CallOk w c)
  | .mount name _ => inferInstanceAs (Decidable (w.calls_mount name → _ ∨ _ ∧ _))
  | .unmount _ _ => inferInstanceAs (Decidable True)
  | .request k _ _ => inferInstanceAs (Decidable (∀ m ∈ w.fat_mount k, Served w m))

variable {w v w' : World} {j : Nat}

lemma fat32_mount_ok (d : BlockDev) : (fat32_mount d).2 = is_fat_volume d := by
  unfold fat32_mount is_fat_volume
  cases blockdev_read d 0 1 with
  | none => rfl
  | some b =>
    simp only [any_some]
    cases bpb_is_fat32 b <;> cases bpb_is_supported b <;> try rfl
    by_cases h : bpb_tot_sec b ≤ bpb_data_start b
    · simp [h, Nat.not_lt.mpr h]
    · simp [h, Nat.lt_of_not_le h]

/-! ## The mount table keeps to the rest of the world -/

lemma step_mount (w : World) (name : List UInt8) (i : Nat) : step w (.mount name i) =
      some ((vfs_mount_fat w name i).1, .status (vfs_mount_fat w name i).2) := rfl

lemma step_unmount (w : World) (name : List UInt8) (busy : Bool) : step w (.unmount name busy) =
      some ((vfs_unmount w name busy).1, .status (vfs_unmount w name busy).2) := rfl

lemma World.fat32_mount_ok (w : World) (i : Nat) :
    (w.fat32_mount i).2 = is_fat_volume (w.devs i) := uaos.fat32.fat32_mount_ok _

variable {f : Nat → BlockDev}

lemma World.fat32_mount_devices (h : f i = w.devs i) :
    (w.devices f).fat32_mount i = ((w.fat32_mount i).1.devices f, (w.fat32_mount i).2) := by
  unfold World.fat32_mount World.devices
  dsimp only
  rw [h]

/-- VFS_MountFat looks at no other device than the one it mounts. -/
lemma vfs_mount_fat_devices (h : f i = w.devs i) : vfs_mount_fat (w.devices f) name i =
      ((vfs_mount_fat w name i).1.devices f, (vfs_mount_fat w name i).2) := by
  unfold vfs_mount_fat
  rw [World.fat32_mount_devices h]
  split_ifs with h1 h2 h3 h4 h5 h6 <;> try first | rfl | contradiction
  cases w.fat32_mount i with
  | mk t ok =>
    cases ok with
    | false => rfl
    | true =>
      dsimp only [World.devices]
      split_ifs <;> rfl

lemma vfs_mount_fat_devs : (vfs_mount_fat w name i).1.devs = w.devs :=
  congrArg (·.1.devs) (vfs_mount_fat_devices (w := w) (f := w.devs) rfl)

/-- VFS_Unmount looks at no device. -/
lemma vfs_unmount_devices {busy : Bool} : vfs_unmount (w.devices f) name busy =
      ((vfs_unmount w name busy).1.devices f, (vfs_unmount w name busy).2) := by
  unfold vfs_unmount World.devices
  dsimp only
  repeat' split
  all_goals rfl

lemma vfs_unmount_devs {busy : Bool} : (vfs_unmount w name busy).1.devs = w.devs :=
  congrArg (·.1.devs) (vfs_unmount_devices (w := w) (f := w.devs))

/-- A request reads and writes the device that the driver is on, and no other. -/
lemma request_devices {r : Request} {now : Stamp} {w' : World} {a : Answer}
    (hi : w.fs_bdev = some i) (h : f i = w.devs i) (hr : w.request r now = some (w', a)) :
    (w.devices f).request r now = some (w'.devices (Function.update f i (w'.devs i)), a) ∧
      ∀ k, k ≠ i → w'.devs k = w.devs k := by
  have hbound : (w.devices f).bound = w.bound := by
    simp only [World.bound, World.devices, hi, h]
  unfold World.request at hr ⊢
  split_ifs at hr with hsize
  rw [if_neg (show ¬ (w.devices f).fs.bytes_per_sec ≠ SECTOR from hsize), hbound]
  obtain ⟨⟨t, ps, b⟩, hp, he⟩ := map_eq_some_iff.mp hr
  cases he
  refine ⟨?_, fun k hk => ?_⟩
  · have hp' : process_request (w.devices f).fs.geom ((w.devices f).h.on w.bound)
        (w.devices f).paths r now = some (t, ps, a) := hp
    rw [hp']
    simp only [map_some, World.store, World.devices, hi, update_self]
  · simp only [World.store, hi, update_of_ne hk]

/-- What one call does, when it is addressed to another device than `j`, does not
depend on `j` and does not change it. -/
lemma step_agreeOff {c : Call} {o : Result} (hok : CallOk w c) (ha : addressed w c ≠ some j)
    (h : AgreeOff j w v) (hs : step w c = some (w', o)) :
    ∃ v', step v c = some (v', o) ∧ AgreeOff j w' v' ∧ w'.devs j = w.devs j ∧
      v'.devs j = v.devs j := by
  obtain ⟨f, rfl, hf⟩ : ∃ f, v = w.devices f ∧ ∀ i, i ≠ j → f i = w.devs i := ⟨_, h.same, h.devs⟩
  cases c with
  | mount name i =>
    simp only [step_mount, Option.some.injEq, Prod.mk.injEq] at hs
    obtain ⟨rfl, rfl⟩ := hs
    have hi : f i = w.devs i := hf i fun e => ha (congrArg some e)
    refine ⟨(vfs_mount_fat w name i).1.devices f, ?_, ⟨rfl, fun k hk => ?_⟩, ?_, rfl⟩
    · rw [step_mount, vfs_mount_fat_devices hi]
    · rw [vfs_mount_fat_devs]
      exact hf k hk
    · rw [vfs_mount_fat_devs]
  | unmount name busy =>
    simp only [step_unmount, Option.some.injEq, Prod.mk.injEq] at hs
    obtain ⟨rfl, rfl⟩ := hs
    refine ⟨(vfs_unmount w name busy).1.devices f, ?_, ⟨rfl, fun k hk => ?_⟩, ?_, rfl⟩
    · rw [step_unmount, vfs_unmount_devices]
    · rw [vfs_unmount_devs]
      exact hf k hk
    · rw [vfs_unmount_devs]
  | request k r now =>
    have hm : (w.devices f).fat_mount k = w.fat_mount k := rfl
    simp only [step] at hs ⊢
    rw [hm]
    cases hk : w.fat_mount k with
    | none =>
      rw [hk] at hs
      cases hs
      exact ⟨_, rfl, h, rfl, rfl⟩
    | some m =>
      obtain ⟨_, hdev, hfs, _⟩ := hok m hk
      obtain ⟨i, hi⟩ := isSome_iff_exists.mp hdev
      have hij : i ≠ j := by
        intro e
        apply ha
        simp only [addressed, hk, bind_some, hi, e]
      rw [hk] at hs
      obtain ⟨⟨t, a⟩, hr, he⟩ := map_eq_some_iff.mp hs
      cases he
      obtain ⟨hr', hother⟩ := request_devices (hfs.trans hi) (hf i hij) hr
      refine ⟨_, by rw [hr']; rfl, ⟨rfl, fun l hl => ?_⟩, hother j hij.symm, ?_⟩
      · by_cases hli : l = i
        · subst hli
          exact update_self ..
        · exact (update_of_ne hli ..).trans ((hf l hl).trans (hother l hli).symm)
      · exact update_of_ne hij.symm ..

/-- A mount that fails while a FAT volume is mounted did not get to FAT32_Mount. -/
lemma failed_mount_changes_nothing {m : MountEntry}
    (hok : CallOk w (.mount name i)) (hm : m ∈ w.mounts) (hfat : m.driver = .fat)
    (hrc : (vfs_mount_fat w name i).2 = -1) : (vfs_mount_fat w name i).1 = w := by
  unfold vfs_mount_fat at hrc ⊢
  split_ifs at hrc ⊢ with h1 h2 h3
  · rfl
  · rfl
  have hcalls : w.calls_mount name = true := by
    simp only [World.calls_mount, decide_eq_true_eq]
    refine ⟨h1, ?_, Nat.lt_of_not_le h3⟩
    simpa using h2
  rcases hok hcalls with hnone | ⟨hvol, hleft⟩
  · exact absurd hfat (hnone m hm)
  exfalso
  have hok2 := World.fat32_mount_ok w i
  rw [hvol] at hok2
  have hleft2 : (w.fat32_mount i).1.handlers_left = w.handlers_left := rfl
  cases hmt : w.fat32_mount i with
  | mk t ok =>
    rw [hmt] at hok2 hleft2 hrc
    cases hok2
    dsimp only at hrc hleft2
    rw [if_neg (by omega)] at hrc
    cases hrc

/-- A boot sector for six sectors with one FAT of one sector, and its root directory at
the cluster `root`. -/
def small_boot (root : UInt8) : Buf := fun j =>
  if j = 12 then 2 else if j = 13 ∨ j = 14 ∨ j = 16 ∨ j = 36 then 1 else if j = 32 then 6
  else if j = 44 then root else if j = 510 then 0x55 else if j = 511 then 0xAA else 0

/-- An empty volume, if the root is at cluster 2. -/
def small_disk (root : UInt8) : BlockDev where
  data := fun t j =>
    if t = 0 then small_boot root j
    else if t = 1 ∧ j < 12 then (if j % 4 = 3 then 0x0F else 0xFF) else 0
  num_sectors := 6
  part_offset := 0

/-- Two empty volumes, a disk that FAT32_Mount refuses, and nothing mounted. -/
def three_disks : World where
  devs := fun i => small_disk (if i = 2 then 0 else 2)
  fs_bdev := none
  fs := Fat32FS.zero
  h :=
    { fs := ⟨⟨no_dev, 0, false, 0⟩, fun _ => ⟨0, 0, 0, 0, 0, false, false, 0, 0, 0, 0, 0⟩,
      [], fun _ => 0⟩
      fat_files := fun _ => none
      entries := fun _ => .free }
  paths := ⟨fun _ => [], fun _ => []⟩
  mounts := []
  handlers_left := 4
  sys_vol := none

/-- The first byte of the root directory of a disk. -/
def first_byte (w : World) (i : Nat) : UInt8 := (w.devs i).data 2 0

/-- An answer that is a handle or a success. -/
def succeeds : Result → Bool
  | .status rc => rc = 0
  | .answer a => a.reply.res1 ≠ 0
  | .not_fat => false

/-- The world with the first disk mounted. -/
def one_mounted : World := (vfs_mount_fat three_disks [65] 0).1

/-- The second disk is mounted, and a file is created, sized, dated and protected on it
and found in the listing. -/
def second_disk_calls : List Call :=
  .mount [66] 1 :: [.packet (.find_output [120]), .set_file_size 1 3 (-1),
    .set_date [120] (some ⟨17532, 0, 0⟩), .set_protect [120] 4, .packet (.locate_object []),
    .examine_next 1, .info true].map (Call.request 1 · ⟨0, 0⟩)

end uaos.fat32
