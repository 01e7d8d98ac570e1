-- Opening a file by its path (vfs.c): assigns with one or more targets, the mount
-- table, and the RAM, FAT and FFS volumes behind it. An open that truncates gives an
-- empty file, except for a file of a disk that is found through one of several targets.
import Uaos.FatEntry
import Uaos.FatMounts
import Uaos.FfsHash

namespace uaos.vfs

open Function Option

open ramfs (CStr seq_ci SLASH COLON)

variable {e : FfsEntry} {targets : List CStr} {new : Nat} {file : Option Nat}

/-! ## Assigns and mounts -/

structure AssignEntry where
  name : CStr
  targets : List CStr

/-- What a mount stands for: a RAM volume, the volume of the FAT driver, or an FFS
volume. -/
inductive Backing where
  | ram (vol : Nat)
  | fat
  | ffs (vol : Nat)
  deriving DecidableEq

structure MountEntry where
  vol_name : CStr
  vol_label : CStr
  backing : Backing

/-- An entry of `g_ffs_files` in use. -/
structure FfsFile where
  vol : Nat
  key : Nat
  pos : Nat
  size : Nat
  writable : Bool

structure World where
  assigns : List AssignEntry
  mounts : List MountEntry
  ram : ramfs.RamFs
  fat_geom : fat32.Geom
  fat : fat32.Handler
  ffs_geom : Nat → ffs.Geom
  ffs_vol : Nat → ffs.Vol
  ffs_files : Nat → Option FfsFile
  change_seq : Nat

/-- The time as the three drivers take it. -/
structure Clock where
  ram : Nat
  fat : fat32.Stamp
  ffs : ffs.DateStamp

/-- The volume name of a path, and its length or 0. -/
def extract_vol (path : CStr) (max : Nat) : CStr × Nat :=
  let vol := (path.takeWhile (· ≠ COLON)).take (max - 1)
  (vol, if path[vol.length]? = some COLON then vol.length else 0)

def ASSIGN_MAX_NAME : Nat := 16

def strip_colon (src : CStr) (max : Nat) : CStr := (src.take (max - 1)).takeWhile (· ≠ COLON)

def World.find_assign (w : World) (assign_name : CStr) : Option AssignEntry :=
  let name := strip_colon assign_name ASSIGN_MAX_NAME
  if name = [] then none else w.assigns.find? fun a => seq_ci a.name name

/-- The first target of an assign. -/
def World.resolve_assign (w : World) (name : CStr) : Option CStr :=
  (w.find_assign name).map (·.targets.headD [])

/-- All targets of an assign. -/
def World.assign_targets (w : World) (name : CStr) : List CStr :=
  ((w.find_assign name).map (·.targets)).getD []

/-- "C:dir" with the target "Workbench:C" is "Workbench:C/dir". -/
def expand_with_target (path : CStr) (vol_len : Nat) (target : CStr) (max : Nat) : CStr :=
  let rest := path.drop (vol_len + 1)
  let slash := if rest ≠ [] ∧ target.getLast? ≠ some COLON then [SLASH] else []
  (target ++ slash ++ rest).take (max - 1)

def PATH_MAX : Nat := 128

/-- The hops of resolve_assign_path that are left. -/
def World.resolve_hops (w : World) : Nat → CStr → CStr
  | 0, src => src
  | depth + 1, src =>
    match extract_vol src 16 with
    | (vol_name, vl) =>
      if vl = 0 then src
      else
        match w.resolve_assign vol_name with
        | none => src
        | some target => w.resolve_hops depth (expand_with_target src vl target PATH_MAX)

def World.resolve_assign_path (w : World) (path : CStr) : CStr :=
  w.resolve_hops 8 (path.take (PATH_MAX - 1))

/-- An assign goes to the mount of its first target by unit name only. Any other name is
a unit name, or else a label. -/
def World.find_mount (w : World) (name : CStr) : Option MountEntry :=
  match w.resolve_assign name with
  | some target =>
    match extract_vol target 16 with
    | (vol, vl) => if vl = 0 then none else w.mounts.find? fun m => seq_ci m.vol_name vol
  | none =>
    match w.mounts.find? fun m => seq_ci m.vol_name name with
    | some m => some m
    | none => w.mounts.find? fun m => m.vol_label ≠ [] ∧ seq_ci m.vol_label name

/-- The targets of the assign that a path begins with. -/
def World.targets_of (w : World) (path : CStr) : List CStr :=
  match extract_vol path 16 with
  | (vol_name, vl) => if vl = 0 then [] else w.assign_targets vol_name

/-- The path below one of these targets, with all assigns resolved. -/
def World.target_path (w : World) (path target : CStr) : CStr :=
  w.resolve_assign_path (expand_with_target path (extract_vol path 16).2 target PATH_MAX)

/-- What a resolved path is on. -/
def World.backing_of (w : World) (path : CStr) : Option Backing :=
  match extract_vol path 16 with
  | (vol, vl) => if vl = 0 then none else (w.find_mount vol).map (·.backing)

/-- "NIL:" with spaces before it, ignoring case. -/
def is_nil (path : CStr) : Bool :=
  ((path.dropWhile (· = 32)).take 4).map ramfs.lower = [110, 105, 108, 58]

/-! ## The packets of an open -/

/-- The packets that VFS_Open sends. -/
inductive Packet where
  | find_input (path : CStr)
  | find_output (path : CStr)
  | find_update (path : CStr)
  | action_end (handle : Nat)

def Packet.to_fat : Packet → fat32.Packet
  | .find_input path => .find_input path
  | .find_output path => .find_output path
  | .find_update path => .find_update path
  | .action_end handle => .action_end handle.toUInt32

def FFS_MAX_FILES : Nat := 16

def ffs_alloc_file (w : World) : Option Nat :=
  (List.range FFS_MAX_FILES).find? fun k => (w.ffs_files k).isNone

def ffs_free_file (w : World) (handle : Nat) : World :=
  if handle = 0 ∨ FFS_MAX_FILES < handle then w
  else { w with ffs_files := fun k => if k = handle - 1 then none else w.ffs_files k }

/-- What the open packets of the FFS handler do with the key they got. -/
def ffs_finish_open (w : World) (vol key : Nat) (writable : Bool) : World × Nat :=
  if key = 0 then (w, 0)
  else
    match ffs.ffs_read_entry (w.ffs_geom vol) (w.ffs_vol vol).dev key with
    | none => (w, 0)
    | some e =>
      if !e.sec_type.is_file then (w, 0)
      else
        match ffs_alloc_file w with
        | none => (w, 0)
        | some k =>
          let f : FfsFile := ⟨vol, key, 0, e.byte_size, writable⟩
          ({ w with ffs_files := fun j => if j = k then some f else w.ffs_files j }, k + 1)

/-- FFS_CreateFile on the volume `vol` of the world. -/
def World.ffs_create (w : World) (vol : Nat) (path : CStr) (now : Clock) : World × Nat :=
  match ffs.ffs_create_file (w.ffs_geom vol) (w.ffs_vol vol) path now.ffs with
  | (v, key) => ({ w with ffs_vol := Function.update w.ffs_vol vol v }, key)

/-- FfsHandler_ProcessPacket: the world and `dp_Res1`. -/
def ffs_process_packet (w : World) (vol : Nat) (p : Packet) (now : Clock) : World × Nat :=
  match p with
  | .find_input path =>
    let rel := ramfs.skip_vol_prefix path
    ffs_finish_open w vol (ffs.ffs_resolve (w.ffs_geom vol) (w.ffs_vol vol).dev rel) false
  | .find_output path =>
    let rel := ramfs.skip_vol_prefix path
    match w.ffs_create vol rel now with
    | (w, key) => ffs_finish_open w vol key true
  | .find_update path =>
    let rel := ramfs.skip_vol_prefix path
    match ffs.ffs_resolve (w.ffs_geom vol) (w.ffs_vol vol).dev rel with
    | 0 =>
      match w.ffs_create vol rel now with
      | (w, key) => ffs_finish_open w vol key true
    | key => ffs_finish_open w vol key true
  | .action_end handle => (ffs_free_file w handle, 0)

/-- DoPkt to the handler behind a mount. The RAM handler gets no packets here. -/
def World.do_pkt (w : World) (b : Backing) (p : Packet) (now : Clock) : Option (World × Nat) :=
  match b with
  | .ram _ => some (w, 0)
  | .fat =>
    (fat32.process_packet w.fat_geom w.fat p.to_fat now.fat).map fun (h, r) =>
      ({ w with fat := h }, r.res1.toNat)
  | .ffs vol => some (ffs_process_packet w vol p now)

/-! ## VFS_Open -/

structure Flags where
  read : Bool
  write : Bool
  create : Bool
  trunc : Bool

/-- What a handle is on. -/
inductive OpenFile where
  | nil
  | node (x : Nat)
  | handle (b : Backing) (id : Nat)

structure VfsFile where
  file : OpenFile
  pos : Nat
  resolved_path : CStr

/-- The size of a RAM node set to zero, when the flag says so. -/
def World.cut (w : World) (trunc : Bool) (x : Nat) : World :=
  if trunc then { w with ram := w.ram.set x fun n => { n with size := 0 } } else w

/-- The first search over the targets of an assign: a file that exists. -/
def find_existing (path : CStr) (flags : Flags) (now : Clock) :
    List CStr → World → Option (World × Option VfsFile)
  | [], w => some (w, none)
  | target :: rest, w =>
    let p := w.target_path path target
    let want_w := flags.write || flags.trunc
    match w.backing_of p with
    | none => find_existing path flags now rest w
    | some (.ram v) =>
      if want_w && (w.ram.vols v).read_only then find_existing path flags now rest w
      else
        match ramfs.ramfs_resolve w.ram (some v) p with
        | none => none
        | some none => find_existing path flags now rest w
        | some (some x) =>
          if (w.ram.nodes x).type = .file then
            some (w.cut flags.trunc x, some ⟨.node x, 0, p⟩)
          else find_existing path flags now rest w
    | some b =>
      match w.do_pkt b (.find_input p) now with
      | none => none
      | some (w, probe) =>
        if probe = 0 then find_existing path flags now rest w
        else if !want_w then some (w, some ⟨.handle b probe, 0, p⟩)
        else
          match w.do_pkt b (.action_end probe) now with
          | none => none
          | some (w, _) =>
            match w.do_pkt b (.find_update p) now with
            | none => none
            | some (w, res) =>
              if res = 0 then find_existing path flags now rest w
              else some (w, some ⟨.handle b res, 0, p⟩)

/-- The second search: the first target that takes a new file. -/
def create_first (path : CStr) (flags : Flags) (now : Clock) :
    List CStr → World → Option (World × Option VfsFile)
  | [], w => some (w, none)
  | target :: rest, w =>
    let p := w.target_path path target
    match w.backing_of p with
    | none => create_first path flags now rest w
    | some (.ram v) =>
      if (w.ram.vols v).read_only then create_first path flags now rest w
      else
        match ramfs.ramfs_create w.ram (some v) p now.ram with
        | none => none
        | some (m, none) => create_first path flags now rest { w with ram := m }
        | some (m, some x) =>
          if (m.nodes x).type ≠ .file then create_first path flags now rest { w with ram := m }
          else
            let w := { w with ram := m, change_seq := u32 (w.change_seq + 1) }
            some (w.cut flags.trunc x, some ⟨.node x, 0, p⟩)
    | some b =>
      match w.do_pkt b (if flags.trunc then .find_output p else .find_update p) now with
      | none => none
      | some (w, res) =>
        if res = 0 then create_first path flags now rest w
        else some (w, some ⟨.handle b res, 0, p⟩)

/-- The open of a path with one target, on a RAM volume. -/
def open_ram (w : World) (v : Nat) (p : CStr) (flags : Flags) (now : Clock) :
    Option (World × Option VfsFile) :=
  match ramfs.ramfs_resolve w.ram (some v) p with
  | none => none
  | some none =>
    if !flags.create then some (w, none)
    else
      match ramfs.ramfs_create w.ram (some v) p now.ram with
      | none => none
      | some (m, none) => some ({ w with ram := m }, none)
      | some (m, some x) =>
        some ({ w with ram := m, change_seq := u32 (w.change_seq + 1) }, some ⟨.node x, 0, p⟩)
  | some (some x) =>
    if (w.ram.nodes x).type = .dir then some (w, none)
    else if (w.ram.vols v).read_only && (flags.write || flags.trunc) then some (w, none)
    else
      let w := if flags.trunc then { w with change_seq := u32 (w.change_seq + 1) } else w
      some (w.cut flags.trunc x, some ⟨.node x, 0, p⟩)

/-- The open of a path with one target, through a handler. -/
def open_handler (w : World) (b : Backing) (p : CStr) (flags : Flags) (now : Clock) :
    Option (World × Option VfsFile) :=
  let action : Packet :=
    if flags.trunc then .find_output p
    else if flags.write || flags.create then .find_update p
    else .find_input p
  (w.do_pkt b action now).map fun (w, res) =>
    (w, if res = 0 then none else some ⟨.handle b res, 0, p⟩)

/-- The handle is `none` when the open fails. -/
def vfs_open (w : World) (path : CStr) (flags : Flags) (now : Clock) :
    Option (World × Option VfsFile) :=
  let targets := w.targets_of path
  if 1 < targets.length then
    match find_existing path flags now targets w with
    | none => none
    | some (w, some fh) => some (w, some fh)
    | some (w, none) =>
      if !flags.create && !flags.trunc then some (w, none)
      else create_first path flags now targets w
  else
    let p := w.resolve_assign_path path
    if is_nil p then some (w, some ⟨.nil, 0, p⟩)
    else
      match w.backing_of p with
      | none => some (w, none)
      | some (.ram v) => open_ram w v p flags now
      | some b => open_handler w b p flags now

/-- The size of the file that a handle is on, as its driver has it. A handle that the
driver does not know has none. -/
def file_size (w : World) (fh : VfsFile) : Option Nat :=
  match fh.file with
  | .nil => some 0
  | .node x => some (w.ram.nodes x).size
  | .handle (.ram _) _ => none
  | .handle .fat id => (w.fat.fat_files (id - 1)).map fun i => (w.fat.fs.files i).size
  | .handle (.ffs _) id => (w.ffs_files (id - 1)).map (·.size)

/-! ## When an open truncates -/

/-- The FAT volume has a file at the path, and not a directory. -/
def fat_holds (g : fat32.Geom) (d : BlockDev) (path : CStr) : Bool :=
  let rel := fat32.strip_vol_prefix path
  rel ≠ [] && rel ≠ [46] &&
    match (fat32.fat32_walk_path g d rel []).1 with
    | .found _ f => f.attr &&& fat32.FAT32_ATTR_DIRECTORY = 0
    | _ => false

/-- The FFS volume has a file at the path. -/
def ffs_holds (g : ffs.Geom) (d : BlockDev) (path : CStr) : Bool :=
  let rel := ramfs.skip_vol_prefix path
  let key := ffs.ffs_resolve g d rel
  key ≠ 0 && (ffs.ffs_read_entry g d key).any (·.sec_type.is_file)

/-- The path is on a disk, and there is a file at it. -/
def World.holds_file (w : World) (p : CStr) : Bool :=
  match w.backing_of p with
  | some .fat => fat_holds w.fat_geom w.fat.fs.vol.bdev p
  | some (.ffs v) => ffs_holds (w.ffs_geom v) (w.ffs_vol v).dev p
  | _ => false

/-- The path is on a RAM volume that can be written, and there is a file at it. -/
def World.ram_holds (w : World) (v : Nat) (p : CStr) : Bool :=
  !(w.ram.vols v).read_only &&
    match ramfs.ramfs_resolve w.ram (some v) p with
    | some (some x) => (w.ram.nodes x).type = .file
    | _ => false

/-- No file on a disk is found below these targets, or one on a RAM volume before it. -/
def World.ram_first (w : World) (path : CStr) : List CStr → Bool
  | [] => true
  | target :: rest =>
    let p := w.target_path path target
    match w.backing_of p with
    | some (.ram v) => w.ram_holds v p || w.ram_first path rest
    | _ => !w.holds_file p && w.ram_first path rest

/-- The path is not below an assign with several targets where a file on a disk is found
first. -/
def NoDiskFileFirst (w : World) (path : CStr) : Prop :=
  1 < (w.targets_of path).length → w.ram_first path (w.targets_of path) = true

instance (w : World) (path : CStr) : Decidable (NoDiskFileFirst w path) :=
  inferInstanceAs (Decidable (_ → _ = true))

/-! ## Files that are made on FAT -/

section Fat

open fat32

variable {g : fat32.Geom} {fs fs' : Fs} {h h' : Handler} {i : Nat} {now : Stamp}

lemma take_file_some {f : Fat32File} (h : take_file fs f = (fs', some i)) :
    fs'.files i = f ∧ fs'.vol = fs.vol := by
  unfold take_file at h
  split at h
  · cases h
  · cases h
    exact ⟨if_pos rfl, rfl⟩

lemma take_file_vol (fs : Fs) (f : Fat32File) : (take_file fs f).1.vol = fs.vol := by
  unfold take_file
  split <;> rfl

/-- FAT32_Open leaves the device, and gives a handle on a directory unless there is a
file. -/
lemma fat32_open_spec (g : fat32.Geom) (fs : Fs) (path : List UInt8) :
    (fat32_open g fs path).1.vol.bdev = fs.vol.bdev ∧
      ∀ i, (fat32_open g fs path).2 = some i → fat_holds g fs.vol.bdev path = false →
        ((fat32_open g fs path).1.files i).is_dir = true := by
  unfold fat32_open
  dsimp only
  split_ifs with hroot
  · refine ⟨by rw [take_file_vol], fun i hi _ => ?_⟩
    rw [(take_file_some (Prod.ext rfl hi)).1]
    rfl
  push Not at hroot
  obtain ⟨rel, hrel⟩ : ∃ rel, rel = strip_vol_prefix path := ⟨_, rfl⟩
  have hwalk : (fat32_walk_path g fs.vol.bdev rel fs.lfn_find).1 =
      (fat32_walk_path g fs.vol.bdev rel []).1 := walk_path_fst
  rw [← hrel] at hroot ⊢
  split
  · rename_i dir f lfn heq
    refine ⟨by rw [take_file_vol], fun i hi hno => ?_⟩
    rw [(take_file_some (Prod.ext rfl hi)).1]
    rw [heq] at hwalk
    simp only [fat_holds, ← hrel, hroot.1, hroot.2, ← hwalk, ne_eq, not_false_eq_true, decide_true,
      Bool.true_and, decide_eq_false_iff_not] at hno
    simp only [new_file, decide_eq_true_eq]
    exact hno
  · exact ⟨rfl, fun i hi => by cases hi⟩

/-- FAT32_CreateFile gives a handle of size zero. -/
lemma fat32_create_file_size {path : List UInt8}
    (h : fat32_create_file g fs path now = (fs', some i)) : (fs'.files i).size = 0 := by
  unfold fat32_create_file at h
  dsimp only at h
  split at h
  · cases h
  split at h
  · split at h
    · cases h
    split at h
    · cases h
    · rw [(take_file_some h).1]
      rfl
  · split at h
    · cases h
    · rw [(take_file_some h).1]
      rfl
  · cases h

/-- An open packet that found a directory or nothing fails and leaves the device. -/
lemma finish_open_fails (now : Stamp) (hdir : ∀ i, file = some i → (h.fs.files i).is_dir = true) :
    (finish_open h file now).2.res1 = 0 ∧
      (finish_open h file now).1.fs.vol.bdev = h.fs.vol.bdev := by
  cases file with
  | none => exact ⟨rfl, rfl⟩
  | some i =>
    have hd := hdir i rfl
    have he : finish_open h (some i) now =
        ({ h with fs := fat32_close h.fs i now }, ⟨0, ERROR_OBJECT_WRONG_TYPE, []⟩) := if_pos hd
    rw [he]
    refine ⟨rfl, ?_⟩
    simp only [fat32_close, close_flush, hd, Bool.not_true, Bool.false_and, Bool.false_eq_true,
      if_false]

/-- An open packet that succeeds gives a handle on the file that it got. -/
lemma finish_open_succeeds {r : Reply}
    (hf : finish_open h file now = (h', r)) (hr : r.res1.toNat ≠ 0) :
    ∃ i, file = some i ∧ h'.fat_files (r.res1.toNat - 1) = some i ∧ h'.fs = h.fs := by
  cases file with
  | none =>
    cases hf
    exact absurd rfl hr
  | some i =>
    simp only [finish_open] at hf
    split at hf
    · cases hf
      exact absurd rfl hr
    split at hf
    · cases hf
      exact absurd rfl hr
    rename_i k _
    cases hf
    refine ⟨i, rfl, ?_, rfl⟩
    have hk : ((k : Int) + 1).toNat - 1 = k := by omega
    simp only [hk, if_true]

end Fat

/-! ## Files that are made on FFS -/

section Ffs

open ffs

variable {g : ffs.Geom} {v v' : ffs.Vol} {d : BlockDev} {b : Buf} {i k key x : Nat}

/-- The header block says that the file is empty. -/
def EmptyHeader (d : BlockDev) (k : Nat) : Prop := blk_lw (d.data k) FFS_LW_BYTE_SIZE = 0

lemma read_hdr_some (h : ffs_read_hdr g d k = some b) : b = block d k := by
  unfold ffs_read_hdr at h
  split at h
  · cases h
  rename_i b' hb
  split_ifs at h
  cases h
  unfold ffs_read_block blockdev_read at hb
  split_ifs at hb
  cases hb
  rfl

lemma write_hdr_some (h : ffs_write_hdr v k b = some v') : v'.dev = store_hdr v.dev k b := by
  unfold ffs_write_hdr blockdev_write at h
  split_ifs at h
  · cases h
  · cases h
    rfl

/-- A longword of a header is changed, and not the size. -/
lemma EmptyHeader.link (h : EmptyHeader v.dev key) (hr : ffs_read_hdr g v.dev k = some b)
    (hi : i ≠ FFS_LW_BYTE_SIZE) (hw : ffs_write_hdr v k (blk_put32 b i x) = some v') :
    EmptyHeader v'.dev key := by
  rw [EmptyHeader, write_hdr_some hw]
  by_cases hk : key = k
  · subst hk
    rw [store_hdr_lw (by decide) (by decide), lw_put32_ne hi.symm, read_hdr_some hr,
      block_lw (by decide)]
    exact h
  · rw [store_hdr_ne hk]
    exact h

lemma insert_loop_empty {n cur : Nat} (h : EmptyHeader v.dev key)
    (hi : insert_loop g v new n cur = some v') : EmptyHeader v'.dev key := by
  induction n generalizing cur with
  | zero => cases hi
  | succ n ih =>
    simp only [insert_loop] at hi
    split_ifs at hi
    split at hi
    · cases hi
    rename_i b hb
    split_ifs at hi
    · exact h.link hb (by decide) hi
    · exact ih hi

lemma hash_insert_empty {dir_key : Nat} {name : List UInt8} (h : EmptyHeader v.dev key)
    (hi : ffs_hash_insert g v dir_key name new = some v') : EmptyHeader v'.dev key := by
  unfold ffs_hash_insert at hi
  split at hi
  · cases hi
  rename_i b hb
  have hslot : ffs_hash name HT_SIZE < 72 := hash_lt name
  dsimp only at hi
  split_ifs at hi
  · exact h.link hb (by unfold FFS_LW_TABLE FFS_LW_BYTE_SIZE; omega) hi
  · exact insert_loop_empty h hi

lemma new_header_empty (key dir_key : Nat) (name : List UInt8) (t : SecType) (now : DateStamp) :
    blk_lw (new_header key dir_key name t now) FFS_LW_BYTE_SIZE = 0 := by
  have hname (b : Buf) : blk_lw (bstr_from_c b (FFS_LW_NAME * 4) name 30) FFS_LW_BYTE_SIZE =
      blk_lw b FFS_LW_BYTE_SIZE := by
    refine blk_lw_congr fun k hk => put_outside (.inl ?_)
    unfold FFS_LW_NAME FFS_LW_BYTE_SIZE
    omega
  unfold new_header put_stamp
  rw [lw_fix_checksum (by decide), lw_put32_ne (by decide), lw_put32_ne (by decide),
    lw_put32_ne (by decide), lw_put32_ne (by decide), lw_put32_ne (by decide), hname,
    lw_put32_ne (by decide), lw_put32_ne (by decide)]
  rfl

lemma read_entry_size (h : ffs_read_entry g d k = some e) :
    e.byte_size = blk_lw (d.data k) FFS_LW_BYTE_SIZE := by
  unfold ffs_read_entry at h
  split at h
  · cases h
  rename_i b hb
  split_ifs at h
  split at h
  · cases h
  · cases h
    rw [read_hdr_some hb, block_lw (by decide)]

lemma create_entry_empty {path : List UInt8} {t : SecType} {now : DateStamp}
    (h : ffs_create_entry g v path t now = (v', k)) (hk : k ≠ 0) : EmptyHeader v'.dev k := by
  unfold ffs_create_entry at h
  split at h
  · cases h
    exact absurd rfl hk
  split_ifs at h
  · cases h
    exact absurd rfl hk
  split at h
  rename_i v1 key heq
  split_ifs at h
  · cases h
    exact absurd rfl hk
  split at h
  · cases h
    exact absurd rfl hk
  rename_i d hd
  have hnew : EmptyHeader d key := by
    unfold blockdev_write at hd
    split_ifs at hd
    cases hd
    rw [EmptyHeader, store_lw (by decide)]
    exact new_header_empty ..
  split at h
  · cases h
    exact absurd rfl hk
  · rename_i v2 hv2
    cases h
    exact hash_insert_empty (v := { v1 with dev := d }) hnew hv2

/-- A size that was set is what the header says. -/
lemma put_size_empty {now : DateStamp} (h : put_size g v k 0 now = some v') :
    EmptyHeader v'.dev k := by
  unfold put_size at h
  split at h
  · cases h
  rw [EmptyHeader, write_hdr_some h, store_hdr_lw (by decide) (by decide)]
  unfold put_stamp
  rw [lw_put32_ne (by decide), lw_put32_ne (by decide), lw_put32_ne (by decide),
    lw_put32_same (Nat.two_pow_pos _)]

/-- A header that can be read can be written. -/
lemma put_size_some (size : Nat) (now : DateStamp)
    (h : ffs_read_entry g v.dev k = some e) : ∃ v', put_size g v k size now = some v' := by
  unfold ffs_read_entry at h
  split at h
  · cases h
  rename_i b hb
  have hroom : k + 1 ≤ v.dev.num_sectors := by
    unfold ffs_read_hdr ffs_read_block blockdev_read at hb
    by_contra hn
    simp only [show v.dev.num_sectors < k + 1 by omega, if_true, ite_self] at hb
    cases hb
  simp only [put_size, hb, write_hdr_ok hroom]
  exact ⟨_, rfl⟩

/-- FFS_SetFileSize to zero: when the entry can be read afterwards, its size is zero. -/
lemma set_file_size_empty {now : DateStamp} {e' : FfsEntry}
    (he : ffs_read_entry g v.dev k = some e) (hfile : e.sec_type.is_file = true)
    (he' : ffs_read_entry g (ffs_set_file_size g v k 0 now).1.dev k = some e') :
    e'.byte_size = 0 := by
  have hneed : u32 (0 + g.payload - 1) / g.payload = 0 := by
    unfold Geom.payload
    split <;> rfl
  have hsize : (ffs_set_file_size g v k 0 now).1 = ((put_size g (resize g v k 0 0).1 k 0 now).getD
      (resize g v k 0 0).1) := by
    have hok : (resize g v k 0 0).2 = true := by
      unfold resize
      dsimp only
      split_ifs <;> first | rfl | (exfalso; omega)
    simp only [ffs_set_file_size, he, hfile, Bool.not_true, Bool.false_eq_true, if_false, hneed]
    cases hr : resize g v k 0 0 with
    | mk v1 ok =>
      rw [hr] at hok
      cases hok
      dsimp only
      cases put_size g v1 k 0 now <;> rfl
  rw [hsize] at he'
  rw [read_entry_size he']
  cases hp : put_size g (resize g v k 0 0).1 k 0 now with
  | some v1 => exact put_size_empty hp
  | none =>
    rw [hp, getD_none] at he'
    obtain ⟨v1, hv1⟩ := put_size_some 0 now he'
    rw [hp] at hv1
    cases hv1

/-- FFS_CreateFile gives the key of an empty file. -/
lemma ffs_create_file_empty {path : List UInt8} {now : DateStamp}
    (h : ffs_create_file g v path now = (v', k)) (hk : k ≠ 0)
    (he : ffs_read_entry g v'.dev k = some e) : e.byte_size = 0 := by
  unfold ffs_create_file at h
  dsimp only at h
  split_ifs at h
  · rw [read_entry_size he]
    exact create_entry_empty h hk
  split at h
  · cases h
    exact absurd rfl hk
  rename_i e0 he0
  split_ifs at h with hfile
  · cases h
    exact set_file_size_empty he0 hfile he
  · cases h
    exact absurd rfl hk

end Ffs

/-! ## Opens that truncate -/

variable {w w' : World} {b : Backing} {now : Clock} {p path : CStr} {flags : Flags} {fh : VfsFile}
  {x res : Nat}

/-- A handle of the driver on an empty file. -/
def EmptyHandle (w : World) (b : Backing) (res : Nat) : Prop :=
  ∀ pos p, file_size w ⟨.handle b res, pos, p⟩ = some 0

lemma ffs_finish_open_some {vol key : Nat} {writable : Bool}
    (h : ffs_finish_open w vol key writable = (w', res)) (hres : res ≠ 0) :
    ∃ e, key ≠ 0 ∧ ffs.ffs_read_entry (w.ffs_geom vol) (w.ffs_vol vol).dev key = some e ∧
      e.sec_type.is_file = true ∧ (w'.ffs_files (res - 1)).map (·.size) = some e.byte_size := by
  unfold ffs_finish_open at h
  split_ifs at h with hkey
  · cases h
    exact absurd rfl hres
  split at h
  · cases h
    exact absurd rfl hres
  rename_i e he
  split_ifs at h with hfile
  · cases h
    exact absurd rfl hres
  split at h
  · cases h
    exact absurd rfl hres
  cases h
  refine ⟨e, hkey, he, by simpa using hfile, ?_⟩
  simp only [Nat.add_sub_cancel, if_true, map_some]

/-- ACTION_FINDOUTPUT gives a handle on an empty file. -/
lemma find_output_empty (h : w.do_pkt b (.find_output p) now = some (w', res)) (hres : res ≠ 0) :
    EmptyHandle w' b res := by
  intro pos q
  cases b with
  | ram v =>
    cases h
    exact absurd rfl hres
  | fat =>
    simp only [World.do_pkt] at h
    obtain ⟨⟨h1, r⟩, hp, he⟩ := map_eq_some_iff.mp h
    cases he
    simp only [Packet.to_fat, fat32.process_packet] at hp
    cases hc : fat32.fat32_create_file w.fat_geom w.fat.fs p now.fat with
    | mk fs file =>
      rw [hc] at hp
      obtain ⟨i, hi, hfile, hfs⟩ := finish_open_succeeds (Option.some.inj hp) hres
      subst hi
      simp only [file_size, hfile, map_some, hfs]
      rw [fat32_create_file_size hc]
  | ffs vol =>
    have hp : ffs_process_packet w vol (.find_output p) now = (w', res) := Option.some.inj h
    simp only [ffs_process_packet, World.ffs_create] at hp
    generalize ramfs.skip_vol_prefix p = rel at hp
    cases hc : ffs.ffs_create_file (w.ffs_geom vol) (w.ffs_vol vol) rel now.ffs with
    | mk v key =>
      rw [hc] at hp
      obtain ⟨e, hkey, he, -, hsize⟩ := ffs_finish_open_some hp hres
      simp only [update_self] at he
      show (w'.ffs_files (res - 1)).map (·.size) = some 0
      rw [hsize, ffs_create_file_empty hc hkey he]

/-- What a probe that fails may have changed: neither the table nor a disk. -/
structure Quiet (w w' : World) : Prop where
  ram : w'.ram = w.ram
  assigns : w'.assigns = w.assigns
  mounts : w'.mounts = w.mounts
  fat_geom : w'.fat_geom = w.fat_geom
  ffs_geom : w'.ffs_geom = w.ffs_geom
  ffs_vol : w'.ffs_vol = w.ffs_vol
  fat_dev : w'.fat.fs.vol.bdev = w.fat.fs.vol.bdev

lemma Quiet.refl (w : World) : Quiet w w := ⟨rfl, rfl, rfl, rfl, rfl, rfl, rfl⟩

section

variable (h : Quiet w w')

include h

lemma Quiet.resolve_assign (name : CStr) : w'.resolve_assign name = w.resolve_assign name := by
  simp only [World.resolve_assign, World.find_assign, h.assigns]

lemma Quiet.resolve_hops (n : Nat) (src : CStr) : w'.resolve_hops n src = w.resolve_hops n src := by
  induction n generalizing src with
  | zero => rfl
  | succ n ih => simp only [World.resolve_hops, h.resolve_assign, ih]

lemma Quiet.target_path (path target : CStr) :
    w'.target_path path target = w.target_path path target := h.resolve_hops ..

lemma Quiet.backing_of (p : CStr) : w'.backing_of p = w.backing_of p := by
  simp only [World.backing_of, World.find_mount, h.resolve_assign, h.mounts]

lemma Quiet.holds_file (p : CStr) : w'.holds_file p = w.holds_file p := by
  simp only [World.holds_file, h.backing_of, h.fat_geom, h.fat_dev, h.ffs_geom, h.ffs_vol]

lemma Quiet.ram_first (path : CStr) (targets : List CStr) :
    w'.ram_first path targets = w.ram_first path targets := by
  induction targets with
  | nil => rfl
  | cons t rest ih =>
    simp only [World.ram_first, World.ram_holds, h.target_path, h.backing_of,
      h.holds_file, h.ram, ih]

end

/-- ACTION_FINDINPUT fails where there is no file. -/
lemma find_input_fails (hb : w.backing_of p = some b) (hno : w.holds_file p = false)
    (h : w.do_pkt b (.find_input p) now = some (w', res)) : res = 0 ∧ Quiet w w' := by
  cases b with
  | ram v =>
    cases h
    exact ⟨rfl, Quiet.refl _⟩
  | fat =>
    simp only [World.holds_file, hb] at hno
    simp only [World.do_pkt] at h
    obtain ⟨⟨h1, r⟩, hp, he⟩ := map_eq_some_iff.mp h
    cases he
    obtain ⟨hdev, hdir⟩ := fat32_open_spec w.fat_geom w.fat.fs p
    have hp' : fat32.finish_open { w.fat with fs := (fat32.fat32_open w.fat_geom w.fat.fs p).1 }
        (fat32.fat32_open w.fat_geom w.fat.fs p).2 now.fat = (h1, r) := Option.some.inj hp
    have hfails := finish_open_fails
      (h := { w.fat with fs := (fat32.fat32_open w.fat_geom w.fat.fs p).1 }) now.fat
      fun i hi => hdir i hi hno
    rw [hp'] at hfails
    obtain ⟨hres, hvol⟩ := hfails
    refine ⟨by rw [hres]; rfl, rfl, rfl, rfl, rfl, rfl, rfl, ?_⟩
    exact hvol.trans hdev
  | ffs vol =>
    simp only [World.holds_file, hb, ffs_holds] at hno
    have hp : ffs_process_packet w vol (.find_input p) now = (w', res) := Option.some.inj h
    simp only [ffs_process_packet] at hp
    have hres : res = 0 := by
      by_contra hres
      obtain ⟨e, hkey, he, hfile, -⟩ := ffs_finish_open_some hp hres
      simp [hkey, he, hfile] at hno
    refine ⟨hres, ?_⟩
    unfold ffs_finish_open at hp
    split_ifs at hp
    · cases hp
      exact Quiet.refl _
    split at hp
    · cases hp
      exact Quiet.refl _
    split_ifs at hp
    · cases hp
      exact Quiet.refl _
    split at hp
    · cases hp
      exact Quiet.refl _
    · cases hp
      exact ⟨rfl, rfl, rfl, rfl, rfl, rfl, rfl⟩

/-! ### RAM -/

lemma cut_size (w : World) (x : Nat) : ((w.cut true x).ram.nodes x).size = 0 := by
  simp only [World.cut, if_true, ramfs.RamFs.set, update_self]

/-- A change of a node that leaves its size. -/
lemma set_size {m : ramfs.RamFs} {f : ramfs.Node → ramfs.Node} {y : Nat}
    (hf : ∀ n, (f n).size = n.size) : ((m.set y f).nodes x).size = (m.nodes x).size := by
  unfold ramfs.RamFs.set
  by_cases h : x = y
  · subst h
    simp only [update_self, hf]
  · simp only [update_of_ne h]

lemma dir_add_child_size {m m' : ramfs.RamFs} {dir child : Nat}
    (h : ramfs.dir_add_child m dir child = some m') : (m'.nodes x).size = (m.nodes x).size := by
  unfold ramfs.dir_add_child at h
  dsimp only at h
  split at h
  · cases h
    exact (set_size (by exact fun _ => rfl)).trans (set_size (by exact fun _ => rfl))
  split at h
  · cases h
  · cases h
    exact (set_size (by exact fun _ => rfl)).trans (set_size (by exact fun _ => rfl))

/-- RamFS_Create gives an empty node. -/
lemma ramfs_create_size {m m' : ramfs.RamFs} {vol : Option Nat} {now : Nat}
    (h : ramfs.ramfs_create m vol p now = some (m', some x)) : (m'.nodes x).size = 0 := by
  unfold ramfs.ramfs_create at h
  split at h
  · cases h
  split_ifs at h
  · cases h
  split at h
  · cases h
  · cases h
  split_ifs at h
  · cases h
  split at h
  · cases h
  · split_ifs at h
    · cases h
      simp only [ramfs.RamFs.set, update_self]
    · cases h
  · split at h
    · cases h
    rename_i node m1 halloc
    obtain ⟨m2, hadd, he⟩ := map_eq_some_iff.mp h
    cases he
    refine (dir_add_child_size hadd).trans ((set_size (by exact fun _ => rfl)).trans ?_)
    unfold ramfs.alloc_node at halloc
    split at halloc
    · cases halloc
    · cases halloc
      simp only [ramfs.RamFs.set, update_self]
      rfl

/-! ### The branches of VFS_Open -/

section

variable (ht : flags.trunc = true)

include ht

lemma open_ram_empty {v : Nat}
    (h : open_ram w v p flags now = some (w', some fh)) : file_size w' fh = some 0 := by
  unfold open_ram at h
  split at h
  · cases h
  · split_ifs at h
    · cases h
    split at h
    · cases h
    · cases h
    · rename_i hc
      cases h
      exact congrArg some (ramfs_create_size hc)
  · simp only [ht, if_true] at h
    split_ifs at h
    · cases h
    · cases h
    · cases h
      exact congrArg some (cut_size ..)

lemma open_handler_empty
    (h : open_handler w b p flags now = some (w', some fh)) : file_size w' fh = some 0 := by
  unfold open_handler at h
  simp only [ht, if_true] at h
  obtain ⟨⟨w1, res⟩, hp, he⟩ := map_eq_some_iff.mp h
  simp only [Prod.mk.injEq] at he
  obtain ⟨rfl, hfh⟩ := he
  split_ifs at hfh with hres
  cases hfh
  exact find_output_empty hp hres 0 p

/-- The second search makes an empty file. -/
lemma create_first_empty
    (h : create_first path flags now targets w = some (w', some fh)) : file_size w' fh =
      some 0 := by
  induction targets generalizing w with
  | nil => cases h
  | cons t rest ih =>
    simp only [create_first, ht, if_true] at h
    split at h
    · exact ih h
    · split_ifs at h
      · exact ih h
      split at h
      · cases h
      · exact ih h
      · split_ifs at h
        · exact ih h
        · cases h
          exact congrArg some (cut_size ..)
    · split at h
      · cases h
      rename_i hp
      split_ifs at h with hres
      · exact ih h
      · cases h
        exact find_output_empty hp hres 0 _

/-- The first search finds a file on a RAM volume, which it cuts, or nothing. -/
lemma find_existing_empty {found : Option VfsFile} (hram : w.ram_first path targets = true)
    (h : find_existing path flags now targets w = some (w', found)) :
    ∀ fh, found = some fh → file_size w' fh = some 0 := by
  induction targets generalizing w with
  | nil =>
    cases h
    exact fun fh hf => by cases hf
  | cons t rest ih =>
    simp only [World.ram_first] at hram
    simp only [find_existing, ht, Bool.or_true, Bool.true_and] at h
    split at h
    · rename_i hb
      simp only [hb, Bool.and_eq_true] at hram
      exact ih hram.2 h
    · rename_i v hb
      simp only [hb, World.ram_holds, Bool.or_eq_true, Bool.and_eq_true, Bool.not_eq_true'] at hram
      split_ifs at h with hro
      · exact ih (hram.resolve_left fun hc => by simp [hro] at hc) h
      split at h
      · cases h
      · rename_i hx
        exact ih (hram.resolve_left fun hc => by simp [hx] at hc) h
      rename_i x hx
      split_ifs at h with hfile
      · cases h
        rintro fh ⟨⟩
        exact congrArg some (cut_size ..)
      · exact ih (hram.resolve_left fun hc => by simp [hx, hfile] at hc) h
    · rename_i b hnot hb
      have hdisk : w.holds_file (w.target_path path t) = false ∧ w.ram_first path rest = true := by
        cases b with
        | ram v => exact absurd rfl (hnot v)
        | fat => simpa [hb] using hram
        | ffs v => simpa [hb] using hram
      split at h
      · cases h
      rename_i w1 probe hp
      obtain ⟨hres, hq⟩ := find_input_fails hb hdisk.1 hp
      rw [if_pos hres] at h
      exact ih (by rw [hq.ram_first]; exact hdisk.2) h

end

/-- An empty volume but for the file X of five bytes in its root. -/
def disk_with_file : BlockDev :=
  let d := fat32.small_disk 2
  { d with
    data := fun t j =>
      if t = 2 ∧ j < 32 then
        (if j = 0 then 88 else if j < 11 then 32 else if j = 11 then 0x20
          else if j = 26 then 3 else if j = 28 then 5 else 0)
      else if t = 1 ∧ 12 ≤ j ∧ j < 16 then (if j = 15 then 0x0F else 0xFF)
      else d.data t j }

/-- The volume RAM with the file x of five bytes. -/
def ram_with_file : ramfs.RamFs :=
  match ramfs.ramfs_create (ramfs.ramfs_mount_vol ramfs.boot [82, 65, 77]).1 (some 0)
    [58, 120] 0 with
  | some (m, some x) => m.set x fun n => { n with size := 5 }
  | _ => ramfs.boot

/-- "S" is "DH0:" and "RAM:", in this order, and "T" is "RAM:" and "DH0:". -/
def disk_and_ram : World where
  assigns := [⟨[83], [[68, 72, 48, 58], [82, 65, 77, 58]]⟩,
    ⟨[84], [[82, 65, 77, 58], [68, 72, 48, 58]]⟩]
  mounts := [⟨[82, 65, 77], [], .ram 0⟩, ⟨[68, 72, 48], [], .fat⟩]
  ram := ram_with_file
  fat_geom := (fat32.fat32_mount disk_with_file).1.geom
  fat := fat32.three_disks.h.on disk_with_file
  ffs_geom := fun _ => ⟨false, 0, 0, false⟩
  ffs_vol := fun _ => ⟨fat32.no_dev, 0⟩
  ffs_files := fun _ => none
  change_seq := 0

/-- An open to write a new file. -/
def new_file : Flags := ⟨false, true, true, true⟩

def midnight : Clock := ⟨0, ⟨0, 0⟩, ⟨0, 0, 0⟩⟩

/-- The size of the file that an open gives. -/
def opened_size (w : World) (path : CStr) : Option Nat :=
  match vfs_open w path new_file midnight with
  | some (w', some fh) => file_size w' fh
  | _ => none

end uaos.vfs
