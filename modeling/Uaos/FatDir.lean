-- Directories of the FAT32 driver (fat32.c): the scans of a directory, adding and
-- removing entries, the walk along a path, and the calls that take a path.
import Uaos.Fat
import Uaos.FatName

namespace uaos.fat32

/-! ## Scans -/

/-- The entries of a cluster, each with its place. -/
def cluster_slots (g : Geom) (cluster : Nat) (buf : Buf) : List (Slot × Buf) :=
  let sec := fat32_cluster_to_sector g cluster
  (List.range (g.cluster_size / FAT32_DIR_ENTRY_SIZE)).map fun e =>
    (⟨u32 (sec + e * FAT32_DIR_ENTRY_SIZE / SECTOR), e * FAT32_DIR_ENTRY_SIZE % SECTOR⟩,
      dir_entry buf (e * FAT32_DIR_ENTRY_SIZE))

/-- The entries a scan of a directory comes to, and the last cluster it read, or
`none` when a read failed there. The scans differ in what they do with the entries
and where they stop. -/
def dir_scan (g : Geom) (d : BlockDev) : Nat → Nat → Nat → List (Slot × Buf) × Option Nat
  | 0, _, last => ([], some last)
  | guard + 1, cluster, last =>
    if cluster < 2 ∨ is_eoc cluster then ([], some last)
    else
      match fat32_read_cluster g d cluster with
      | none => ([], none)
      | some buf =>
        let (rest, stop) := dir_scan g d guard (fat32_get_fat_entry g d cluster) cluster
        (cluster_slots g cluster buf ++ rest, stop)

/-- The scan of the directory at `dir_cluster`, with the bound for a corrupt FAT. -/
def scan_dir (g : Geom) (d : BlockDev) (dir_cluster : Nat) : List (Slot × Buf) × Option Nat :=
  dir_scan g d (u32 (g.total_clusters + 2)) dir_cluster dir_cluster

def is_long (de : Buf) : Bool := de 11 &&& 0x0F = 0x0F

/-- A volume label, `.` or `..`. -/
def is_label_or_dot (de : Buf) : Bool := de 11 &&& 0x18 = 0x08 || de 0 = 46

/-- What fat32_find_in_dir tells about an entry. -/
structure Found where
  cluster : Nat
  size : Nat
  attr : UInt8
  slot : Slot
  deriving DecidableEq

/-- The values that the callers start with. -/
def Found.init : Found := ⟨0, 0, 0, ⟨0, 0⟩⟩

/-- The loop of fat32_find_in_dir over the entries left. -/
def find_loop (name : List UInt8) (read_ok : Bool) : List (Slot × Buf) → Lfn → Option Found × Lfn
  | [], l => (none, if read_ok then lfn_reset l else l)
  | (s, de) :: rest, l =>
    if de 0 = 0x00 then (none, lfn_reset l)
    else if de 0 = 0xE5 then find_loop name read_ok rest (lfn_reset l)
    else if is_long de then find_loop name read_ok rest (lfn_feed l de s)
    else if is_label_or_dot de then find_loop name read_ok rest (lfn_reset l)
    else
      match lfn_finish l de with
      | (l, long) =>
        if long.any (fat32_name_eq · name) ∨ fat32_name_eq (fat32_83_to_name de) name then
          (some ⟨first_cluster de, le32 de 28, de 11, s⟩, l)
        else find_loop name read_ok rest { l with slots := [] }

/-- The entry, and the slots of its long name as `g_lfn_find` keeps them. -/
def fat32_find_in_dir (g : Geom) (d : BlockDev) (dir_cluster : Nat) (name : List UInt8) :
    Option Found × List Slot :=
  let (slots, stop) := scan_dir g d dir_cluster
  let (f, l) := find_loop name stop.isSome slots Lfn.init
  (f, l.slots)

/-- The loop of fat32_sfn_exists. -/
def sfn_exists_loop (sfn : List UInt8) (read_ok : Bool) : List (Slot × Buf) → Bool
  | [] => !read_ok
  | (_, de) :: rest =>
    if de 0 = 0x00 then false
    else if de 0 = 0xE5 ∨ is_long de then sfn_exists_loop sfn read_ok rest
    else if slice de 0 11 = sfn then true
    else sfn_exists_loop sfn read_ok rest

def fat32_sfn_exists (g : Geom) (d : BlockDev) (dir_cluster : Nat) (sfn : List UInt8) : Bool :=
  let (slots, stop) := scan_dir g d dir_cluster
  sfn_exists_loop sfn stop.isSome slots

/-- The first loop of fat32_find_free_run: the free slots in a row so far are `run`.
Either `count` of them are found, or those at the end of the directory are given. -/
def free_run_loop (count : Nat) : List (Slot × Buf) → List Slot → Bool × List Slot
  | [], run => (false, run)
  | (s, de) :: rest, run =>
    if de 0 = 0x00 ∨ de 0 = 0xE5 then
      if run.length + 1 = count then (true, run ++ [s]) else free_run_loop count rest (run ++ [s])
    else free_run_loop count rest []

/-- The second loop: the directory gets new clusters until the run is long enough. -/
def extend_run (g : Geom) (count : Nat) : Nat → Vol → Nat → List Slot → Vol × Option (List Slot)
  | 0, v, _, _ => (v, none)
  | fuel + 1, v, last, run =>
    if count ≤ run.length then (v, some run)
    else
      match fat32_extend_chain g v last with
      | (v, newc) =>
        if newc = 0 then (v, none)
        else
          extend_run g count fuel v newc
            (run ++ ((cluster_slots g newc fun _ => 0).map Prod.fst).take (count - run.length))

def fat32_find_free_run (g : Geom) (v : Vol) (dir_cluster count : Nat) : Vol × Option (List Slot) :=
  match scan_dir g v.bdev dir_cluster with
  | (slots, stop) =>
    match free_run_loop count slots [] with
    | (true, run) => (v, some run)
    | (false, run) =>
      match stop with
      | none => (v, none)
      | some last => extend_run g count (count + 1) v last run

/-! ## Writing entries -/

/-- The attempts of fat32_write_dir_entry: an entry that does not read back is
written again. -/
def write_dir_entry_loop (s : Slot) (entry : Buf) : Nat → Vol → Vol × Bool
  | 0, v => (v, false)
  | attempts + 1, v =>
    match blockdev_read v.bdev s.sec 1 with
    | none => write_dir_entry_loop s entry attempts v
    | some buf =>
      match fat32_bwrite v s.sec (put buf s.off (slice entry 0 FAT32_DIR_ENTRY_SIZE)) 1 with
      | (v, false) => write_dir_entry_loop s entry attempts v
      | (v, true) =>
        match blockdev_read v.bdev s.sec 1 with
        | none => write_dir_entry_loop s entry attempts v
        | some buf2 =>
          if slice buf2 s.off FAT32_DIR_ENTRY_SIZE = slice entry 0 FAT32_DIR_ENTRY_SIZE then
            (v, true)
          else write_dir_entry_loop s entry attempts v

def fat32_write_dir_entry (v : Vol) (s : Slot) (entry : Buf) : Vol × Bool :=
  write_dir_entry_loop s entry 3 v

def fat32_build_dir_entry (attr : UInt8) (cluster size : Nat) : Buf :=
  let de : Buf := put (fun _ => 0) 0 (List.replicate 11 32)
  let de := put de 11 [attr]
  put_le32 (put_le16 (put_le16 de 20 (cluster / 65536)) 26 (cluster % 65536)) 28 size

/-- The first alias from `~n` on that the directory does not have. -/
def find_tail (g : Geom) (d : BlockDev) (dir_cluster : Nat) (basis : List UInt8) :
    Nat → Nat → Option (List UInt8)
  | 0, _ => none
  | fuel + 1, n =>
    let sfn := fat32_apply_tail basis n
    if fat32_sfn_exists g d dir_cluster sfn then find_tail g d dir_cluster basis fuel (n + 1)
    else some sfn

/-- The eleven name bytes of a new entry, its case flags and its number of
fragments. -/
def new_sfn (g : Geom) (d : BlockDev) (dir_cluster : Nat) (name : List UInt8) :
    Option (List UInt8 × UInt8 × Nat) :=
  match fat32_make_sfn name with
  | .bad => none
  | .exact sfn nt => if fat32_sfn_exists g d dir_cluster sfn then none else some (sfn, nt, 0)
  | .basis basis =>
    (find_tail g d dir_cluster basis 999999 1).map fun sfn => (sfn, 0, (name.length + 12) / 13)

/-- The entries that a new name takes, in their order on the disk. -/
def new_entries (name sfn : List UInt8) (nt : UInt8) (nl : Nat) (tmpl : Buf) : List Buf :=
  let chk := fat32_lfn_checksum fun k => sfn.getD k 0
  ((List.range nl).map fun i => lfn_fragment name (nl - i) (i = 0) chk) ++
    [put (put tmpl 0 sfn) 12 [nt]]

/-- Write entries to slots, and stop at the first that fails. -/
def write_entries : List (Slot × Buf) → Vol → Vol × Bool
  | [], v => (v, true)
  | (s, de) :: rest, v =>
    match fat32_write_dir_entry v s de with
    | (v, false) => (v, false)
    | (v, true) => write_entries rest v

/-- The slot of the new 8.3 entry. -/
def fat32_add_entry (g : Geom) (v : Vol) (dir_cluster : Nat) (name : List UInt8) (tmpl : Buf) :
    Vol × Option Slot :=
  match new_sfn g v.bdev dir_cluster name with
  | none => (v, none)
  | some (sfn, nt, nl) =>
    match fat32_find_free_run g v dir_cluster (nl + 1) with
    | (v, none) => (v, none)
    | (v, some slots) =>
      match write_entries (slots.zip (new_entries name sfn nt nl tmpl)) v with
      | (v, ok) => (v, if ok then slots[nl]? else none)

def fat32_mark_deleted (v : Vol) (s : Slot) : Vol × Bool :=
  match blockdev_read v.bdev s.sec 1 with
  | none => (v, false)
  | some buf => fat32_bwrite v s.sec (put buf s.off [0xE5]) 1

/-- Mark slots deleted; all of them are tried. -/
def mark_all : List Slot → Vol → Vol × Bool
  | [], v => (v, true)
  | s :: rest, v =>
    match fat32_mark_deleted v s with
    | (v, ok) =>
      match mark_all rest v with
      | (v, ok') => (v, ok && ok')

def fat32_remove_entry (v : Vol) (s : Slot) (lfn : List Slot) : Vol × Bool := mark_all (s :: lfn) v

/-! ## Paths -/

/-- Where fat32_walk_path ends: at an entry of a directory, at a name that the
directory does not have, or at an intermediate name that is no directory. An empty
path is found and leaves the values of the caller. -/
inductive Walk where
  | found (dir : Nat) (f : Found)
  | missing (dir : Nat)
  | bad
  deriving DecidableEq

/-- The loop of fat32_walk_path. Each round goes behind a slash. -/
def walk_loop (g : Geom) (d : BlockDev) : Nat → List UInt8 → Nat → List Slot → Walk × List Slot
  | 0, _, _, lfn => (.bad, lfn)
  | fuel + 1, p, dir, lfn =>
    match p.dropWhile fun c => !is_slash c with
    | [] =>
      if p = [] then (.found dir Found.init, lfn)
      else
        match fat32_find_in_dir g d dir p with
        | (some f, lfn) => (.found dir f, lfn)
        | (none, lfn) => (.missing dir, lfn)
    | _ :: rest =>
      match fat32_find_in_dir g d dir (p.takeWhile fun c => !is_slash c) with
      | (some f, lfn) =>
        if f.attr &&& FAT32_ATTR_DIRECTORY = 0 then (.bad, lfn)
        else walk_loop g d fuel (rest.dropWhile is_slash) f.cluster lfn
      | (none, lfn) => (.bad, lfn)

/-- The walk from the root, and the slots that `g_lfn_find` has after it. -/
def fat32_walk_path (g : Geom) (d : BlockDev) (path : List UInt8) (lfn : List Slot) :
    Walk × List Slot :=
  let tmp := fat32_copy_path path
  walk_loop g d (tmp.length + 1) (tmp.dropWhile is_slash) g.root_cluster lfn

/-! ## Files -/

def FAT32_MAX_FILES : Nat := 16

/-- The mounted volume with the pool of handles, the slots of the last long name
that was looked up, and the buffer of FAT32_ReadDir. -/
structure Fs where
  vol : Vol
  files : Nat → Fat32File
  lfn_find : List Slot
  dir_buf : Buf

def Fs.set_file (fs : Fs) (i : Nat) (f : Fat32File) : Fs :=
  { fs with files := fun j => if j = i then f else fs.files j }

/-- A free handle of the pool. -/
def fat32_alloc_file (fs : Fs) : Option Nat :=
  (List.range FAT32_MAX_FILES).find? fun i => !(fs.files i).in_use

/-- A handle as fat32_alloc_file leaves it, with the fields of its caller. -/
def new_file (start size : Nat) (is_dir : Bool) (slot : Slot) (parent : Nat) : Fat32File where
  start_cluster := start
  cluster := start
  offset := 0
  pos := 0
  size := size
  is_dir := is_dir
  in_use := true
  dir_sector := slot.sec
  dir_offset := slot.off
  iter_cluster := 0
  iter_offset := 0
  parent_cluster := parent

/-- Put a new handle into the pool, if it has room. -/
def take_file (fs : Fs) (f : Fat32File) : Fs × Option Nat :=
  match fat32_alloc_file fs with
  | none => (fs, none)
  | some i => (fs.set_file i f, some i)

def fat32_open (g : Geom) (fs : Fs) (path : List UInt8) : Fs × Option Nat :=
  let fs := { fs with vol := { fs.vol with dir_buf_cluster := 0 } }
  let rel := strip_vol_prefix path
  if rel = [] ∨ rel = [46] then take_file fs (new_file g.root_cluster 0 true ⟨0, 0⟩ 0)
  else
    match fat32_walk_path g fs.vol.bdev rel fs.lfn_find with
    | (.found dir f, lfn) =>
      take_file { fs with lfn_find := lfn }
        (new_file f.cluster f.size (f.attr &&& FAT32_ATTR_DIRECTORY ≠ 0) f.slot dir)
    | (_, lfn) => ({ fs with lfn_find := lfn }, none)

/-- The entry of a file that FAT32_CreateFile truncates. -/
def truncated (de : Buf) (now : Stamp) : Buf :=
  fat32_stamp_entry (put_le32 (put_le16 (put_le16 de 20 0) 26 0) 28 0) 0 true now

def fat32_create_file (g : Geom) (fs : Fs) (path : List UInt8) (now : Stamp) : Fs × Option Nat :=
  let rel := strip_vol_prefix path
  if rel = [] then (fs, none)
  else
    match fat32_walk_path g fs.vol.bdev rel fs.lfn_find with
    | (.found dir f, lfn) =>
      let fs := { fs with lfn_find := lfn }
      if f.attr &&& FAT32_ATTR_DIRECTORY ≠ 0 then (fs, none)
      else
        let v := if 2 ≤ f.cluster then fat32_free_chain g fs.vol f.cluster else fs.vol
        match blockdev_read v.bdev f.slot.sec 1 with
        | none => ({ fs with vol := v }, none)
        | some buf =>
          let v := (fat32_write_dir_entry v f.slot (truncated (dir_entry buf f.slot.off) now)).1
          take_file { fs with vol := v } (new_file 0 0 false f.slot dir)
    | (.missing dir, lfn) =>
      let fs := { fs with lfn_find := lfn }
      let entry := fat32_stamp_entry (fat32_build_dir_entry 0 0 0) 0 true now
      match fat32_add_entry g fs.vol dir (fat32_basename rel) entry with
      | (v, none) => ({ fs with vol := v }, none)
      | (v, some slot) => take_file { fs with vol := v } (new_file 0 0 false slot dir)
    | (.bad, lfn) => ({ fs with lfn_find := lfn }, none)

/-- What FAT32_Close writes to the sector of the entry. -/
def close_entry (f : Fat32File) (now : Stamp) (buf : Buf) : Buf :=
  let buf := put_le32 buf (f.dir_offset + 28) f.size
  let buf := put_le16 buf (f.dir_offset + 20) (f.start_cluster / 65536 % 65536)
  let buf := put_le16 buf (f.dir_offset + 26) (f.start_cluster % 65536)
  fat32_stamp_entry buf f.dir_offset false now

/-- The size and the first cluster go to the entry, whatever the handle did. -/
def close_flush (v : Vol) (f : Fat32File) (now : Stamp) : Vol :=
  if !f.is_dir && f.dir_sector ≠ 0 then
    match blockdev_read v.bdev f.dir_sector 1 with
    | none => v
    | some buf => (fat32_bwrite v f.dir_sector (close_entry f now buf) 1).1
  else v

def fat32_close (fs : Fs) (i : Nat) (now : Stamp) : Fs :=
  let f := fs.files i
  { fs.set_file i { f with in_use := false } with vol := close_flush fs.vol f now }

/-! ## Directories -/

/-- What FAT32_ReadDir tells about an entry. -/
structure DirInfo where
  name : List UInt8
  size : Nat
  is_dir : Bool
  wrt_time : Nat
  wrt_date : Nat

/-- The name that goes into a buffer of `name_max` bytes. -/
def listed_name (long : Option (List UInt8)) (de : Buf) (name_max : Nat) : List UInt8 :=
  let src := match long with
    | some n => if n.length < name_max then n else fat32_83_to_name de
    | none => fat32_83_to_name de
  src.take (name_max - 1)

/-- What the loop of FAT32_ReadDir over the entries of a cluster ends with. -/
inductive ReadStep where
  | endOfDir
  | entry (info : DirInfo) (next : Nat)
  | nextCluster (l : Lfn)

/-- The entries from the `e`-th on. -/
def read_entries (name_max : Nat) : List (Slot × Buf) → Nat → Lfn → ReadStep
  | [], _, l => .nextCluster l
  | (_, de) :: rest, e, l =>
    if de 0 = 0x00 then .endOfDir
    else if de 0 = 0xE5 then read_entries name_max rest (e + 1) (lfn_reset l)
    else if is_long de then read_entries name_max rest (e + 1) (lfn_feed l de ⟨0, 0⟩)
    else if is_label_or_dot de then read_entries name_max rest (e + 1) (lfn_reset l)
    else
      .entry ⟨listed_name (lfn_finish l de).2 de name_max, le32 de 28,
        de 11 &&& FAT32_ATTR_DIRECTORY ≠ 0, le16 de 22, le16 de 24⟩ (e + 1)

/-- The rounds of FAT32_ReadDir over the clusters. -/
def read_dir_loop (g : Geom) (i name_max : Nat) : Nat → Fs → Lfn → Fs × Option DirInfo
  | 0, fs, _ => (fs.set_file i { fs.files i with iter_cluster := 0 }, none)
  | guard + 1, fs, l =>
    let dir := fs.files i
    if dir.iter_cluster < 2 ∨ is_eoc dir.iter_cluster then
      (fs.set_file i { dir with iter_cluster := 0 }, none)
    else
      -- the cluster is read unless the buffer has it
      let loaded :=
        if fs.vol.dir_buf_cluster ≠ dir.iter_cluster then
          (fat32_read_cluster g fs.vol.bdev dir.iter_cluster).map fun buf =>
            { fs with vol := { fs.vol with dir_buf_cluster := dir.iter_cluster }, dir_buf := buf }
        else some fs
      match loaded with
      | none => ({ fs with vol := { fs.vol with dir_buf_cluster := 0 } }, none)
      | some fs =>
        let start := dir.iter_offset / FAT32_DIR_ENTRY_SIZE
        match read_entries name_max ((cluster_slots g dir.iter_cluster fs.dir_buf).drop start)
          start l with
        | .endOfDir => (fs.set_file i { dir with iter_cluster := 0 }, none)
        | .entry info next =>
          (fs.set_file i { dir with iter_offset := next * FAT32_DIR_ENTRY_SIZE }, some info)
        | .nextCluster l =>
          let next := fat32_get_fat_entry g fs.vol.bdev dir.iter_cluster
          read_dir_loop g i name_max guard
            (fs.set_file i { dir with iter_cluster := next, iter_offset := 0 }) l

/-- The next entry of the directory that the handle `i` is open on. -/
def fat32_read_dir (g : Geom) (fs : Fs) (i name_max : Nat) : Fs × Option DirInfo :=
  let dir := fs.files i
  if !dir.is_dir || name_max < 2 then (fs, none)
  else
    let fs :=
      if dir.iter_cluster = 0 then
        fs.set_file i { dir with iter_cluster := dir.start_cluster, iter_offset := 0 }
      else fs
    read_dir_loop g i name_max (u32 (g.total_clusters + 2)) fs Lfn.init

/-- A `.` or `..` entry. -/
def dot_entry (name : List UInt8) (cluster : Nat) (now : Stamp) : Buf :=
  let de := put (fat32_build_dir_entry FAT32_ATTR_DIRECTORY cluster 0) 0 name
  fat32_stamp_entry de 0 true now

/-- The first cluster of a new directory. -/
def new_dir_buf (cluster dotdot : Nat) (now : Stamp) : Buf :=
  let buf : Buf := put (fun _ => 0) 0 (slice (dot_entry [46] cluster now) 0 FAT32_DIR_ENTRY_SIZE)
  put buf 32 (slice (dot_entry [46, 46] dotdot now) 0 FAT32_DIR_ENTRY_SIZE)

def fat32_create_dir (g : Geom) (fs : Fs) (path : List UInt8) (now : Stamp) : Fs × Bool :=
  let rel := strip_vol_prefix path
  if rel = [] then (fs, false)
  else
    match fat32_walk_path g fs.vol.bdev rel fs.lfn_find with
    | (.missing parent, lfn) =>
      let fs := { fs with lfn_find := lfn }
      let name := fat32_basename rel
      match fat32_make_sfn name with
      | .bad => (fs, false)
      | _ =>
        match fat32_alloc_cluster g fs.vol with
        | (v, newc) =>
          if newc = 0 then ({ fs with vol := v }, false)
          else
            let dotdot := if parent = g.root_cluster then 0 else parent
            match fat32_bwrite v (fat32_cluster_to_sector g newc) (new_dir_buf newc dotdot now)
              g.sec_per_clus with
            | (v, false) => ({ fs with vol := v }, false)
            | (v, true) =>
              let entry := fat32_stamp_entry
                (fat32_build_dir_entry FAT32_ATTR_DIRECTORY newc 0) 0 true now
              match fat32_add_entry g v parent name entry with
              | (v, none) => ({ fs with vol := fat32_free_chain g v newc }, false)
              | (v, some _) => ({ fs with vol := v }, true)
    | (_, lfn) => ({ fs with lfn_find := lfn }, false)

/-- The check of FAT32_Delete that a directory is empty: the path is opened again
and one entry is asked for. -/
def dir_is_empty (g : Geom) (fs : Fs) (path : List UInt8) (now : Stamp) : Fs × Bool :=
  match fat32_open g fs path with
  | (fs, none) => (fs, false)
  | (fs, some i) =>
    match fat32_read_dir g fs i 13 with
    | (fs, info) => (fat32_close fs i now, info.isNone)

def fat32_delete (g : Geom) (fs : Fs) (path : List UInt8) (now : Stamp) : Fs × Bool :=
  let rel := strip_vol_prefix path
  if rel = [] then (fs, false)
  else
    match fat32_walk_path g fs.vol.bdev rel fs.lfn_find with
    | (.found _ f, lfn) =>
      let fs := { fs with lfn_find := lfn }
      let (fs, go) :=
        if f.attr &&& FAT32_ATTR_DIRECTORY = 0 then (fs, true)
        else if f.cluster < 2 then (fs, false)
        else dir_is_empty g fs path now
      if go then
        let v := if 2 ≤ f.cluster then fat32_free_chain g fs.vol f.cluster else fs.vol
        match fat32_remove_entry v f.slot lfn with
        | (v, ok) => ({ fs with vol := v }, ok)
      else (fs, false)
    | (_, lfn) => ({ fs with lfn_find := lfn }, false)

/-- The handles on the entry at `old` follow it to `new`. -/
def move_handles (fs : Fs) (old new : Slot) : Fs := { fs with
    files := fun i =>
      let f := fs.files i
      if i < FAT32_MAX_FILES ∧ f.in_use ∧ f.dir_sector = old.sec ∧ f.dir_offset = old.off then
        { f with dir_sector := new.sec, dir_offset := new.off }
      else f }

/-- The entries at the slots, as they are on the disk. -/
def read_raw (d : BlockDev) : List Slot → Option (List Buf)
  | [] => some []
  | s :: rest =>
    match blockdev_read d s.sec 1 with
    | none => none
    | some buf => (read_raw d rest).map (dir_entry buf s.off :: ·)

/-- Put entries back; a write that fails is passed over. -/
def write_back : List (Slot × Buf) → Vol → Vol
  | [], v => v
  | (s, de) :: rest, v => write_back rest (fat32_write_dir_entry v s de).1

def fat32_rename (g : Geom) (fs : Fs) (old_path new_path : List UInt8) : Fs × Bool :=
  let old_rel := strip_vol_prefix old_path
  let new_rel := strip_vol_prefix new_path
  if old_rel = [] ∨ new_rel = [] then (fs, false)
  else
    match fat32_walk_path g fs.vol.bdev old_rel fs.lfn_find with
    | (.found old_dir f, lfn) =>
      let fs := { fs with lfn_find := lfn }
      match read_raw fs.vol.bdev (lfn ++ [f.slot]) with
      | none => (fs, false)
      | some raw =>
        match fat32_walk_path g fs.vol.bdev new_rel lfn with
        | (.bad, lfn') => ({ fs with lfn_find := lfn' }, false)
        | (w, lfn') =>
          let fs := { fs with lfn_find := lfn' }
          let (new_dir, same) : Nat × Bool := match w with
            | .found dir n => (dir, decide (n.slot = f.slot))
            | .missing dir => (dir, true)
            | .bad => (0, false)
          let new_name := fat32_basename new_rel
          if !same ∨ new_dir ≠ old_dir then (fs, false)
          else
            match fat32_make_sfn new_name with
            | .bad => (fs, false)
            | _ =>
              match fat32_remove_entry fs.vol f.slot lfn with
              | (v, false) => ({ fs with vol := v }, false)
              | (v, true) =>
                match fat32_add_entry g v old_dir new_name (raw.getD lfn.length fun _ => 0) with
                | (v, none) =>
                  ({ fs with vol := write_back ((lfn ++ [f.slot]).zip raw) v }, false)
                | (v, some new) => (move_handles { fs with vol := v } f.slot new, true)
    | (_, lfn) => ({ fs with lfn_find := lfn }, false)

end uaos.fat32
