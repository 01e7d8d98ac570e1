-- The hunk loader (uaos_m68k_glue.c): it allocates a block for each hunk of an Amiga load file,
-- copies the bodies, adds the bases of the hunks to the longwords of the relocation lists, and
-- publishes the overlay table and the file itself to programs that ask for them.
import Uaos.GuestHeap

namespace uaos.hunk

open guest

def HUNK_HEADER : Nat := 0x3F3
def HUNK_CODE : Nat := 0x3E9
def HUNK_DATA : Nat := 0x3EA
def HUNK_BSS : Nat := 0x3EB
def HUNK_RELOC32 : Nat := 0x3EC
def HUNK_END : Nat := 0x3F2
def HUNK_SYMBOL : Nat := 0x3F0
def HUNK_DEBUG : Nat := 0x3F1
def HUNK_DREL32 : Nat := 0x3F7
def HUNK_RELOC32SHORT : Nat := 0x3FE
def HUNK_OVERLAY : Nat := 0x3F5
def HUNK_BREAK : Nat := 0x3F6
def HUNK_SFX_MAGIC : Nat := 0xABCD
def MAX_HUNKS : Nat := 32
def PROG_BASE : Nat := 0x20000
def CHIP_WINDOW_START : Nat := 0xB00000
def CHIP_WINDOW_END : Nat := 0xDFFFFF

/-- A load file in memory, in the low 4 GB like the guest windows. It lies apart from the window
that is loaded into. One caller, the start of a guest task, keeps it in the tail of that window. -/
structure Image where
  bytes : Buf
  size : Nat
  addr : Nat
  fits : addr + size + GUEST_RAM_SIZE ≤ 2 ^ 32

namespace Image

variable (f : Image)

/-- `n` bytes from `p` on are in the file. -/
def has (p n : Nat) : Bool := decide (p + n ≤ f.size)

def be32 (p : Nat) : Nat := ffs.be32 f.bytes p

def be16 (p : Nat) : Nat := (f.bytes p).toNat * 256 + (f.bytes (p + 1)).toNat

/-- An entry of a relocation list, which has four or two bytes. -/
def entry (short : Bool) (p : Nat) : Nat := if short then f.be16 p else f.be32 p

/-- The position after `p` whose address is a multiple of four. -/
def align (p : Nat) : Nat := (f.addr + p + 3) / 4 * 4 - f.addr

end Image

/-- The width of an entry of a relocation list. -/
def width (short : Bool) : Nat := if short then 2 else 4

/-- What the loader depends on beside the file: the allocations that fault injection fails, the
compatibility switch for tar, the handle of the memory file, the first hunk of the load before, and
the address of dos.library. -/
structure Env where
  fails : Nat → Bool
  tar_compat : Bool
  fh : Nat
  old_base : Nat
  dos_base : Nat

/-- A hunk that is allocated: its block and the size that the header of the file declares. -/
structure Hunk where
  blk : Nat
  bytes : Nat
  deriving DecidableEq

/-- The data of a hunk is behind its segment header. -/
def Hunk.base (h : Hunk) : Nat := u32 (h.blk + 8)

/-- A store of the loader and the range that it belongs in: the block that it fills, or the data of
the hunk. -/
structure Store where
  addr : Nat
  len : Nat
  lo : Nat
  hi : Nat
  deriving DecidableEq

def Store.inside (st : Store) : Bool :=
  decide (st.lo ≤ st.addr ∧ st.addr + st.len ≤ st.hi ∧ st.hi ≤ GUEST_RAM_SIZE)

/-- A load under way, with every store so far. -/
structure Load where
  sys : Sys
  log : List Store

namespace Load

variable (l : Load)

def ram : Buf := l.sys.here.ram

def store (ram : Buf) (st : Store) : Load :=
  ⟨l.sys.set_win l.sys.cur { l.sys.here with ram := ram }, st :: l.log⟩

/-- `guest_write_be32` at `addr`, which should be in the block of `n` bytes at `blk`. -/
def write (addr val blk n : Nat) : Load :=
  l.store (guest_write_be32 l.ram addr val) ⟨addr, 4, blk, blk + n⟩

/-- A longword in the chipset window. A write there goes to the chipset and not to memory. -/
def in_chip_window (addr : Nat) : Bool :=
  decide (CHIP_WINDOW_START ≤ addr ∧ addr + 3 ≤ CHIP_WINDOW_END)

/-- A relocated longword: it is read and written as the processor would, and a write that is not
in memory is dropped. -/
def patch (e : Env) (h : Hunk) (base offset : Nat) : Load :=
  let patch_addr := u32 (h.base + offset)
  if u32 (patch_addr + 4) ≤ GUEST_RAM_SIZE then
    if in_chip_window patch_addr then
      l.store l.ram ⟨patch_addr, 4, h.base, h.base + h.bytes⟩
    else if patch_addr < GUEST_RAM_SIZE - 3 then
      let val := u32 (ffs.be32 l.ram patch_addr + base)
      let val := if e.tar_compat && patch_addr == PROG_BASE + 0x79EC then 0x1B0080 else val
      l.store (put l.ram patch_addr (ffs.be32_bytes val)) ⟨patch_addr, 4, h.base, h.base + h.bytes⟩
    else l
  else l

/-- The body of a hunk. -/
def copy (f : Image) (h : Hunk) (p bytes : Nat) : Load :=
  l.store (put l.ram h.base (slice f.bytes p bytes)) ⟨h.base, bytes, h.base, h.base + h.bytes⟩

end Load

/-! ## Memory -/

/-- The loader's allocator: the chip pool once it is set up, and else the bump pointer. Clearing
more than the window overwrites the kernel. -/
def heap_alloc (s : Sys) (size : Nat) : Option (Sys × Nat) :=
  match if (s.here.heads .chip).isSome then s.here.heap_alloc_fl s.heap_ptr .chip size false
    else some (s.here, 0) with
  | none => none
  | some (w, fl) =>
    let s := s.set_win s.cur w
    if fl ≠ 0 then some (s, fl)
    else
      let size := u32 (size + 3) / 4 * 4
      let ptr := u32 (s.heap_ptr + size)
      if h : ptr ≤ HEAP_CHIP_END then
        if GUEST_RAM_SIZE < s.heap_ptr + size then none
        else
          let t := s.set_win s.cur (s.here.fill_with s.heap_ptr size 0)
          some ({ t with heap_ptr := ⟨ptr, Nat.lt_succ_of_le h⟩ }, s.heap_ptr)
      else some (s, 0)

/-- The block of a hunk, from the fast pool if it asks for fast memory. -/
def hunk_alloc (s : Sys) (size : Nat) (fast fails : Bool) : Option (Sys × Nat) :=
  if fast then s.dos_AllocMem_glue size 0x10004 fails else heap_alloc s size

/-! ## The header -/

/-- The resident library names, which are skipped. -/
def skip_names (f : Image) : Nat → Nat → Nat
  | 0, p => p
  | fuel + 1, p =>
    if f.has p 4 then
      let cnt := f.be32 p
      if cnt = 0 then p + 4 else skip_names f fuel (p + 4 + u32 (cnt * 4))
    else p

/-- The number of hunks, and where the table of their sizes starts. -/
def read_header (f : Image) : Option (Nat × Nat) :=
  if f.size < 8 then none
  else if f.be32 0 ≠ HUNK_HEADER then none
  else
    let p := skip_names f f.size 4
    if f.has p 12 then
      let n_hunks := u32 (sub32 (f.be32 (p + 8)) (f.be32 (p + 4)) + 1)
      if MAX_HUNKS < n_hunks then none else some (n_hunks, p + 12)
    else none

/-- An entry of the size table: the size in bytes and whether it asks for fast memory. -/
def read_size (f : Image) (p : Nat) : Option (Nat × Bool × Nat) :=
  if f.has p 4 then
    let spec := f.be32 p
    let bytes := u32 (spec % 2 ^ 30 * 4)
    if spec / 2 ^ 30 = 3 then
      if f.has (p + 4) 4 then some (bytes, (f.be32 (p + 4)).testBit MEMF_FAST, p + 8) else none
    else some (bytes, decide (spec / 2 ^ 30 = 2), p + 4)
  else none

/-- The blocks of the hunks, newest last. The load ends early at the end of the file or when
there is no memory. -/
inductive Alloc where
  | done (p : Nat) (hunks : List Hunk) (l : Load)
  | failed (hunks : List Hunk) (l : Load)

/-- `n` more hunks, the next of them number `i`. -/
def alloc_hunks (e : Env) (f : Image) : Nat → Nat → Nat → List Hunk → Load → Option Alloc
  | 0, _, p, hs, l => some (.done p hs l)
  | n + 1, i, p, hs, l =>
    match read_size f p with
    | none => some (.failed hs l)
    | some (bytes, fast, p) =>
      let size := u32 (bytes + 8)
      match hunk_alloc l.sys size fast (e.fails i) with
      | none => none
      | some (s, blk) =>
        if blk = 0 then some (.failed hs { l with sys := s })
        else alloc_hunks e f n (i + 1) p (hs ++ [⟨blk, bytes⟩])
          (({ l with sys := s } : Load).write blk size blk size)

/-- A pointer to the link of the next segment, 0 behind the last one. -/
def next_link : List Hunk → Nat
  | [] => 0
  | h :: _ => u32 (h.blk + 4) / 4

/-- The segment list: each hunk points at the link of the next. -/
def link_hunks : List Hunk → Load → Load
  | [], l => l
  | h :: hs, l => link_hunks hs (l.write (u32 (h.blk + 4)) (next_link hs) h.blk (u32 (h.bytes + 8)))

/-! ## The records -/

/-- What the records of the hunks ask for, in order: the body of a hunk, which is in the file from
`p` on, or a longword of the hunk that gets the base of another one added. What they ask for does
not depend on memory. -/
inductive Act where
  | copy (cur p bytes : Nat)
  | patch (cur ref_hunk offset : Nat)
  deriving DecidableEq

/-- The offsets of one relocation list. -/
def offsets (f : Image) (short : Bool) (cur ref_hunk : Nat) : Nat → Nat → List Act × Nat
  | 0, p => ([], p)
  | n + 1, p =>
    if f.has p (width short) then
      let r := offsets f short cur ref_hunk n (p + width short)
      (.patch cur ref_hunk (f.entry short p) :: r.1, r.2)
    else ([], p)

/-- The relocation lists of a record. A list for a hunk that is not there is skipped. -/
def relocs (f : Image) (short : Bool) (n_hunks cur : Nat) : Nat → Nat → List Act × Nat
  | 0, p => ([], p)
  | fuel + 1, p =>
    if f.has p (width short) then
      let n_offsets := f.entry short p
      let p := p + width short
      if n_offsets = 0 then ([], p)
      else if f.has p (width short) then
        let ref_hunk := f.entry short p
        let p := p + width short
        if n_hunks ≤ ref_hunk then
          relocs f short n_hunks cur fuel (p + u32 (n_offsets * width short))
        else
          let r := offsets f short cur ref_hunk n_offsets p
          let rest := relocs f short n_hunks cur fuel r.2
          (r.1 ++ rest.1, rest.2)
      else ([], p)
    else ([], p)

/-- A symbol table. A debug record is skipped as if it were one. -/
def skip_symbols (f : Image) : Nat → Nat → Nat
  | 0, p => p
  | fuel + 1, p =>
    if f.has p 4 then
      let len := f.be32 p
      if len = 0 then p + 4 else skip_symbols f fuel (p + 4 + u32 (len * 4 + 4))
    else p

/-- The records, from hunk `cur` on, with the position behind them. There is no position when a
body is cut off, which ends the load. Every record has at least four bytes, so the size of the file
is fuel enough. -/
def records (f : Image) (n_hunks : Nat) : Nat → Nat → Nat → List Act × Option Nat
  | 0, _, p => ([], some p)
  | fuel + 1, cur, p =>
    if f.has p 4 && decide (cur < n_hunks) then
      let type := f.be32 p % 2 ^ 30
      let p := p + 4
      if type = HUNK_CODE ∨ type = HUNK_DATA then
        if f.has p 4 then
          let bytes := u32 (f.be32 p * 4)
          let p := p + 4
          if f.has p bytes then
            let r := records f n_hunks fuel cur (p + bytes)
            (.copy cur p bytes :: r.1, r.2)
          else ([], none)
        else ([], some p)
      else if type = HUNK_BSS then
        if f.has p 4 then records f n_hunks fuel cur (p + 4) else ([], some p)
      else if type = HUNK_RELOC32 then
        let r := relocs f false n_hunks cur f.size p
        let rest := records f n_hunks fuel cur r.2
        (r.1 ++ rest.1, rest.2)
      else if type = HUNK_DREL32 ∨ type = HUNK_RELOC32SHORT then
        let r := relocs f true n_hunks cur f.size p
        let rest := records f n_hunks fuel cur (f.align r.2)
        (r.1 ++ rest.1, rest.2)
      else if type = HUNK_SYMBOL ∨ type = HUNK_DEBUG then
        records f n_hunks fuel cur (skip_symbols f f.size p)
      else if type = HUNK_END then records f n_hunks fuel (cur + 1) p
      else ([], some p)
    else ([], some p)

/-- One thing that the records ask for. -/
def perform (e : Env) (f : Image) (hs : List Hunk) (l : Load) : Act → Load
  | .copy cur p bytes =>
    match hs[cur]? with
    | none => l
    | some h => l.copy f h p bytes
  | .patch cur ref_hunk offset =>
    match hs[cur]?, hs[ref_hunk]? with
    | some h, some t => l.patch e h t.base offset
    | _, _ => l

/-! ## Overlays -/

/-- The longwords of a table, stored from `addr` on in the block of `n` bytes at `blk`. -/
def write_table (l : Load) (blk n : Nat) : Nat → List Nat → Load
  | _, [] => l
  | addr, v :: vs => write_table (l.write (u32 addr) v blk n) blk n (addr + 4) vs

/-- The records behind the last hunk: the last overlay table is kept. -/
def overlays (f : Image) : Nat → Nat → Nat → Load → Option (Nat × Load)
  | 0, _, ovtab, l => some (ovtab, l)
  | fuel + 1, p, ovtab, l =>
    if f.has p 8 then
      let type := f.be32 p % 2 ^ 30
      if type = HUNK_OVERLAY then
        let lcount := f.be32 (p + 4)
        let p := p + 8
        if lcount = 0 ∨ 0x1000 < lcount ∨ f.has p (lcount * 4) = false then some (ovtab, l)
        else
          match heap_alloc l.sys (lcount * 4) with
          | none => none
          | some (s, tab) =>
            let l : Load := { l with sys := s }
            let l := if tab = 0 then l
              else write_table l tab (lcount * 4) tab ((List.range lcount).map fun k => f.be32
                (p + k * 4))
            overlays f fuel (p + lcount * 4) tab l
      else if type = HUNK_BREAK then overlays f fuel (p + 4) ovtab l
      else some (ovtab, l)
    else some (ovtab, l)

/-- The file itself, for a program that reads what is behind its hunks. -/
def keep_image (f : Image) (img : Nat) (l : Load) : Load :=
  if img = 0 then l
  else l.store (put l.ram img (slice f.bytes 0 f.size)) ⟨img, f.size, img, img + f.size⟩

/-- The table of the segments. -/
def fill_hunktab (hs : List Hunk) (hunktab : Nat) (l : Load) : Load :=
  if hunktab = 0 then l
  else write_table l hunktab (hs.length * 4) hunktab (hs.map fun h => u32 (h.blk + 4) / 4)

/-- The segments, the file and the overlay table for a program that carries the marker. -/
def publish (e : Env) (f : Image) (hs : List Hunk) (h0 : Hunk) (ovtab : Nat) (l : Load) :
    Option Load :=
  match heap_alloc l.sys (hs.length * 4) with
  | none => none
  | some (s, hunktab) =>
    match heap_alloc s f.size with
    | none => none
    | some (s, img) =>
      let l := fill_hunktab hs hunktab (keep_image f img { l with sys := s })
      let fh := if img = 0 then 0 else e.fh
      some (write_table l h0.blk (u32 (h0.bytes + 8)) (h0.base + 8)
        [fh, ovtab, hunktab / 4, e.dos_base / 4])

/-- A hunk that carries the marker of a self-extracting program. -/
def marked (hs : List Hunk) (h0 : Hunk) (l : Load) : Bool :=
  decide (1 < hs.length) && decide (32 ≤ sub32 (guest_read_be32 l.ram h0.blk) 8) &&
    guest_read_be32 l.ram (u32 (h0.base + 4)) == HUNK_SFX_MAGIC

/-! ## The loader -/

/-- A finished load: the start address, 0 on error, with the hunks. -/
structure Loaded where
  entry : Nat
  hunks : List Hunk
  load : Load

/-- What comes after the records: the overlay table and the marker. -/
def finish (e : Env) (f : Image) (hs : List Hunk) (p : Nat) (l : Load) : Option Loaded :=
  match overlays f f.size p 0 l with
  | none => none
  | some (ovtab, l) =>
    match hs with
    | [] => some ⟨e.old_base, hs, l⟩
    | h0 :: _ =>
      if marked hs h0 l then (publish e f hs h0 ovtab l).map fun l => ⟨h0.base, hs, l⟩
      else some ⟨h0.base, hs, l⟩

def hunk_load (e : Env) (s : Sys) (f : Image) : Option Loaded :=
  match read_header f with
  | none => some ⟨0, [], ⟨s, []⟩⟩
  | some (n_hunks, p) =>
    match alloc_hunks e f n_hunks 0 p [] ⟨s, []⟩ with
    | none => none
    | some (.failed hs l) => some ⟨0, hs, l⟩
    | some (.done p hs l) =>
      let r := records f n_hunks f.size 0 p
      let l := r.1.foldl (perform e f hs) (link_hunks hs l)
      match r.2 with
      | none => some ⟨0, hs, l⟩
      | some p => finish e f hs p l

end uaos.hunk
