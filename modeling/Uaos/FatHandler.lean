-- The packets of the FAT32 handler (fat_handler.c) that open, lock, read, write and
-- close files, over its own table of open files and the global table of handles.
import Uaos.FatDir

namespace uaos.fat32

def FAT_MAX_FILES : Nat := 16
def MAX_HANDLES : Nat := 128
def ERROR_NO_FREE_STORE : Nat := 103
def ERROR_OBJECT_NOT_FOUND : Nat := 205
def ERROR_OBJECT_WRONG_TYPE : Nat := 212
def DOSTRUE : Int := -1

/-- An entry of the global handle table: free, a lock of this handler with its node
in the pool, or a handle of someone else. -/
inductive HandleEntry where
  | free
  | lock (node : Nat)
  | other
  deriving DecidableEq

/-- The open files of the handler and the handle table, each by its index. The paths
that they keep are read by other packets only. -/
structure Handler where
  fs : Fs
  fat_files : Nat → Option Nat
  entries : Nat → HandleEntry

inductive Packet where
  | find_input (path : List UInt8)
  | find_output (path : List UInt8)
  | find_update (path : List UInt8)
  | action_read (handle len : UInt32)
  | action_write (handle : UInt32) (bytes : List UInt8)
  | action_end (handle : UInt32)
  | locate_object (path : List UInt8)
  | free_lock (handle : UInt32)

/-- The two results of a packet, and the bytes that a read put into its buffer. -/
structure Reply where
  res1 : Int
  res2 : Nat
  bytes : List UInt8

def fat_alloc_file_handle (h : Handler) : Option Nat :=
  (List.range FAT_MAX_FILES).find? fun k => (h.fat_files k).isNone

/-- The pool index of an open file. -/
def fat_get_file_handle (h : Handler) (handle : UInt32) : Option Nat :=
  if handle = 0 ∨ FAT_MAX_FILES < handle.toNat then none else h.fat_files (handle.toNat - 1)

def fat_free_file_handle (h : Handler) (handle : UInt32) : Handler :=
  if handle = 0 ∨ FAT_MAX_FILES < handle.toNat then h
  else { h with fat_files := fun k => if k = handle.toNat - 1 then none else h.fat_files k }

def find_free_slot (h : Handler) : Option Nat :=
  (List.range MAX_HANDLES).find? fun k => h.entries k = .free

/-- The node of a lock. -/
def get_lock_node (h : Handler) (handle : UInt32) : Option Nat :=
  if handle = 0 ∨ MAX_HANDLES < handle.toNat then none
  else
    match h.entries (handle.toNat - 1) with
    | .lock node => some node
    | _ => none

def handle_table_free (h : Handler) (handle : UInt32) : Handler :=
  if handle = 0 ∨ MAX_HANDLES < handle.toNat then h
  else { h with entries := fun k => if k = handle.toNat - 1 then .free else h.entries k }

/-- What the three open packets do with the file they got. -/
def finish_open (h : Handler) (file : Option Nat) (now : Stamp) : Handler × Reply :=
  match file with
  | none => (h, ⟨0, ERROR_OBJECT_NOT_FOUND, []⟩)
  | some i =>
    if (h.fs.files i).is_dir then
      ({ h with fs := fat32_close h.fs i now }, ⟨0, ERROR_OBJECT_WRONG_TYPE, []⟩)
    else
      match fat_alloc_file_handle h with
      | none => ({ h with fs := fat32_close h.fs i now }, ⟨0, ERROR_NO_FREE_STORE, []⟩)
      | some k =>
        ({ h with fat_files := fun j => if j = k then some i else h.fat_files j }, ⟨k + 1, 0, []⟩)

/-- What ACTION_LOCATE_OBJECT does with the file it got. -/
def finish_lock (h : Handler) (file : Option Nat) (now : Stamp) : Handler × Reply :=
  match file with
  | none => (h, ⟨0, ERROR_OBJECT_NOT_FOUND, []⟩)
  | some i =>
    match find_free_slot h with
    | none => ({ h with fs := fat32_close h.fs i now }, ⟨0, ERROR_NO_FREE_STORE, []⟩)
    | some k =>
      ({ h with entries := fun j => if j = k then .lock i else h.entries j }, ⟨k + 1, 0, []⟩)

/-- FatHandler_ProcessPacket. A read or write that never ends is `none`. -/
def process_packet (g : Geom) (h : Handler) (p : Packet) (now : Stamp) : Option (Handler × Reply) :=
  match p with
  | .find_input path =>
    match fat32_open g h.fs path with
    | (fs, file) => some (finish_open { h with fs := fs } file now)
  | .find_output path =>
    match fat32_create_file g h.fs path now with
    | (fs, file) => some (finish_open { h with fs := fs } file now)
  | .find_update path =>
    match fat32_open g h.fs path with
    | (fs, some i) => some (finish_open { h with fs := fs } (some i) now)
    | (fs, none) =>
      match fat32_create_file g fs path now with
      | (fs, file) => some (finish_open { h with fs := fs } file now)
  | .action_read handle len =>
    match fat_get_file_handle h handle with
    | none => some (h, ⟨-1, ERROR_OBJECT_NOT_FOUND, []⟩)
    | some i =>
      if (h.fs.files i).is_dir then some (h, ⟨-1, ERROR_OBJECT_NOT_FOUND, []⟩)
      else
        (fat32_read g h.fs.vol.bdev (h.fs.files i) len.toNat).map fun (f, bs) =>
          ({ h with fs := h.fs.set_file i f }, ⟨to_i32 bs.length, 0, bs⟩)
  | .action_write handle bytes =>
    match fat_get_file_handle h handle with
    | none => some (h, ⟨-1, ERROR_OBJECT_NOT_FOUND, []⟩)
    | some i =>
      if (h.fs.files i).is_dir then some (h, ⟨-1, ERROR_OBJECT_NOT_FOUND, []⟩)
      else
        (fat32_write g h.fs.vol (h.fs.files i) bytes).map fun (v, f, n) =>
          ({ h with fs := { h.fs.set_file i f with vol := v } }, ⟨to_i32 n, 0, []⟩)
  | .action_end handle =>
    let fs := match fat_get_file_handle h handle with
      | none => h.fs
      | some i => fat32_close h.fs i now
    some ({ fat_free_file_handle h handle with fs := fs }, ⟨0, 0, []⟩)
  | .locate_object path =>
    match fat32_open g h.fs path with
    | (fs, file) => some (finish_lock { h with fs := fs } file now)
  | .free_lock handle =>
    let fs := match get_lock_node h handle with
      | none => h.fs
      | some i => fat32_close h.fs i now
    some ({ handle_table_free h handle with fs := fs }, ⟨DOSTRUE, 0, []⟩)

end uaos.fat32
