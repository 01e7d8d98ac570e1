-- The heap of an m68k task (dos_lib.c): a chip and a fast pool of free blocks, each a list of
-- headers in guest memory with the head on the kernel's side, and memcheck, which puts a guard
-- word on both sides of a block and keeps a table of the blocks it handed out.
import Uaos.GuestMem
import Uaos.Run

namespace uaos.guest

def HEAP_HDR : Nat := 8
def HEAP_MAGIC : Nat := 0x80000000
def HEAP_FREE_BASE : Nat := 0x020000
def HEAP_CHIP_END : Nat := 0x7F0000
def HEAP_FAST_START : Nat := 0x800000
def HEAP_FAST_END : Nat := 0xFF0000
def HEAP_POOL_MAGIC : Nat := 0xBEEFCAFE

/-- The bits of the requirements that the allocator looks at. -/
def MEMF_CHIP : Nat := 1
def MEMF_FAST : Nat := 2
def MEMF_24BITDMA : Nat := 9
def MEMF_CLEAR : Nat := 16
def MEMF_REVERSE : Nat := 18

inductive Pool where
  | chip
  | fast
  deriving DecidableEq

/-- The guest words that mirror the head of a pool. -/
def Pool.slot : Pool → Nat
  | .chip => 0x10
  | .fast => 0x14

def Pool.magic_slot : Pool → Nat
  | .chip => 0x18
  | .fast => 0x1C

/-- A window of guest memory. `heads p` is the head of a pool as the kernel keeps it, a pointer
in longwords, and `none` until the pool is set up. There are four windows and room for eight
heads, so every window has its own. -/
structure Window where
  ram : Buf
  heads : Pool → Option Nat

/-- The bump pointer of the loaders, which they never move past the chip pool. -/
abbrev HeapPtr := Fin (HEAP_CHIP_END + 1)

namespace Window

variable (w : Window)

def head_read (p : Pool) : Nat := (w.heads p).getD (guest_read_be32 w.ram p.slot)

def head_write (p : Pool) (bptr : Nat) : Window := { w with
    heads := Function.update w.heads p (some bptr)
    ram := guest_write_be32 w.ram p.slot bptr }

def store (addr val : Nat) : Window := { w with ram := guest_write_be32 w.ram addr val }

def fill_with (addr n : Nat) (v : UInt8) : Window := { w with ram := fill w.ram addr n v }

def heap_freelist_init_pool (p : Pool) (pool_start pool_end : Nat) : Window :=
  match w.heads p with
  | some head =>
    if guest_read_be32 w.ram p.magic_slot ≠ HEAP_POOL_MAGIC ∨
      guest_read_be32 w.ram p.slot ≠ head then
      (w.store p.slot head).store p.magic_slot HEAP_POOL_MAGIC
    else w
  | none =>
    let start := max (u32 (pool_start + 7) / 8 * 8) HEAP_FREE_BASE
    if pool_end ≤ u32 (start + HEAP_HDR) then w
    else
      (((w.store start (pool_end - start)).store (u32 (start + 4)) 0).head_write p
        (start / 4)).store
        p.magic_slot HEAP_POOL_MAGIC

def heap_freelist_init (g_uaos_heap_ptr : HeapPtr) : Pool → Window
  | .chip => w.heap_freelist_init_pool .chip g_uaos_heap_ptr HEAP_CHIP_END
  | .fast => w.heap_freelist_init_pool .fast HEAP_FAST_START HEAP_FAST_END

end Window

/-! ## The free lists -/

/-- A free block on a list, with the address of the link to it. -/
structure Fit where
  prev_slot : Nat
  cur_bptr : Nat
  cur : Nat
  blk_size : Nat
  next_bptr : Nat

/-- The walk along a list for the first block that `fits`. -/
def first_fit (ram : Buf) (fits : Nat → Nat → Bool) : Nat → Nat → Nat → Option (Option Fit)
  | 0, _, _ => none
  | fuel + 1, prev_slot, cur_bptr =>
    if cur_bptr = 0 then some none
    else
      let cur := u32 (cur_bptr * 4)
      let blk_size := guest_read_be32 ram cur % HEAP_MAGIC
      let next_bptr := guest_read_be32 ram (u32 (cur + 4))
      if fits cur blk_size then some (some ⟨prev_slot, cur_bptr, cur, blk_size, next_bptr⟩)
      else first_fit ram fits fuel (u32 (cur + 4)) next_bptr

/-- There is no more room for headers in a window, so a longer walk goes round in a circle. -/
def walk_limit : Nat := GUEST_RAM_SIZE / 4 + 2

/-- The size word of a block that is handed out. -/
def mark (blk_size : Nat) : Nat := blk_size % HEAP_MAGIC + HEAP_MAGIC

namespace Window

variable (w : Window)

/-- The link to the current block, which is the head for the first block of a list. -/
def set_link (p : Pool) (prev_slot bptr : Nat) : Window :=
  if prev_slot = p.slot then w.head_write p bptr else w.store prev_slot bptr

/-- The request at the top of a free block, which keeps its header and its link. -/
def carve_top (f : Fit) (need : Nat) : Window × Nat :=
  let rem_size := f.blk_size - need
  let alloc_base := u32 (f.cur + rem_size)
  let w := (w.store f.cur rem_size).store alloc_base (mark need)
  (w.fill_with (u32 (alloc_base + HEAP_HDR)) (need - HEAP_HDR) 0, u32 (alloc_base + HEAP_HDR))

/-- The request at the bottom of a free block, with the rest in its place on the list. -/
def carve_bottom (p : Pool) (f : Fit) (need : Nat) : Window × Nat :=
  let rem := u32 (f.cur + need)
  let w := (w.store rem (f.blk_size - need)).store (u32 (rem + 4)) f.next_bptr
  let w := (w.set_link p f.prev_slot (rem / 4)).store f.cur (mark need)
  (w.fill_with (u32 (f.cur + HEAP_HDR)) (need - HEAP_HDR) 0, u32 (f.cur + HEAP_HDR))

/-- A free block that is handed out whole. -/
def take_whole (p : Pool) (f : Fit) (need : Nat) : Window × Nat :=
  let w := (w.set_link p f.prev_slot f.next_bptr).store f.cur (mark f.blk_size)
  (w.fill_with (u32 (f.cur + HEAP_HDR)) (need - HEAP_HDR) 0, u32 (f.cur + HEAP_HDR))

/-- The size of the block that a request for `size` bytes needs. -/
def need_of (size : Nat) : Nat := u32 (u32 (size + 7) / 8 * 8 + HEAP_HDR)

def heap_alloc_fl_pool (size : Nat) (p : Pool) (reverse : Bool) : Option (Window × Nat) :=
  let need := need_of size
  match first_fit w.ram (fun _ n => need ≤ n) walk_limit p.slot (w.head_read p) with
  | none => none
  | some none => some (w, 0)
  | some (some f) =>
    if u32 (need + HEAP_HDR + 8) ≤ f.blk_size then
      if reverse then some (w.carve_top f need) else some (w.carve_bottom p f need)
    else some (w.take_whole p f need)

def heap_alloc_fl (ptr : HeapPtr) (p : Pool) (size : Nat) (reverse : Bool) :
    Option (Window × Nat) :=
  (w.heap_freelist_init ptr p).heap_alloc_fl_pool size p reverse

def MC_FREE_SIG : Nat := 0xFEEDFACE
def MC_GUARD_WORD : Nat := 0xC0FFEE42

/-- What memcheck leaves in a freed block. -/
def poison (blk blk_size : Nat) : Window :=
  (w.store (u32 (blk + HEAP_HDR)) MC_FREE_SIG).fill_with (u32 (blk + HEAP_HDR + 4))
    (min (blk_size - HEAP_HDR - 4) 262144) 0xAB

def heap_free_fl_pool (memcheck_on : Bool) (addr : Nat) (p : Pool) : Window :=
  if addr < HEAP_HDR ∨ GUEST_RAM_SIZE ≤ addr then w
  else
    let blk := addr - HEAP_HDR
    let magic_size := guest_read_be32 w.ram blk
    let blk_size := magic_size % HEAP_MAGIC
    if magic_size < HEAP_MAGIC then w
    else if blk_size < HEAP_HDR + 4 ∨ GUEST_RAM_SIZE < blk_size ∨
        GUEST_RAM_SIZE < blk + blk_size then w
    else
      let w := w.store blk blk_size
      let w := (w.store (blk + 4) (w.head_read p)).head_write p (blk / 4)
      if memcheck_on && HEAP_HDR + 8 ≤ blk_size then w.poison blk blk_size else w

def pool_of (addr : Nat) : Pool := if HEAP_FAST_START ≤ addr then .fast else .chip

def heap_free_fl (memcheck_on : Bool) (addr : Nat) : Window :=
  w.heap_free_fl_pool memcheck_on addr (pool_of addr)

/-- The free slop before and after a range of a free block goes back on the list. -/
def relink_edges (p : Pool) (f : Fit) (lead tail want_hi : Nat) : Window :=
  let w := if tail = 0 then w else (w.store want_hi tail).store (u32 (want_hi + 4)) f.next_bptr
  if lead ≠ 0 then
    let next := if tail = 0 then f.next_bptr else want_hi / 4
    ((w.store f.cur lead).store (u32 (f.cur + 4)) next).set_link p f.prev_slot f.cur_bptr
  else if tail ≠ 0 then w.set_link p f.prev_slot (want_hi / 4)
  else w.set_link p f.prev_slot f.next_bptr

def dos_AllocAbs_glue (ptr : HeapPtr) (addr size : Nat) : Option (Window × Nat) :=
  if size = 0 ∨ addr < HEAP_HDR ∨ GUEST_RAM_SIZE ≤ addr then some (w, 0)
  else
    let p := pool_of addr
    let w := w.heap_freelist_init ptr p
    let want_lo := addr - HEAP_HDR
    let want_hi := u32 (addr + u32 (size + 3) / 4 * 4)
    let covers := fun cur blk_size => cur ≤ want_lo && want_hi ≤ u32 (cur + blk_size)
    match first_fit w.ram covers walk_limit p.slot (w.head_read p) with
    | none => none
    | some none => some (w, 0)
    | some (some f) =>
      let lead := want_lo - f.cur
      let tail := u32 (f.cur + f.blk_size) - want_hi
      if (lead ≠ 0 ∧ lead < HEAP_HDR) ∨ (tail ≠ 0 ∧ tail < HEAP_HDR) then some (w, 0)
      else
        let w := w.relink_edges p f lead tail want_hi
        some ((w.store want_lo (mark (sub32 want_hi want_lo))).store (want_lo + 4) 0, addr)

end Window

/-! ## AllocMem and FreeMem -/

def MAX_M68K_TASKS : Nat := 4

/-- A record of memcheck's table. A record without a payload is free. -/
structure MemchkRec where
  payload : Nat
  size : Nat
  blk : Nat
  ram : Fin MAX_M68K_TASKS

def MC_MAX_RECS : Nat := 192

/-- A block that a guest has. `guarded` blocks were handed out by memcheck, `absolute` ones by
AllocAbs. -/
structure Live where
  win : Fin MAX_M68K_TASKS
  addr : Nat
  size : Nat
  guarded : Bool
  absolute : Bool
  deriving DecidableEq

/-- The windows, the one that is bound, the loaders' bump pointer, memcheck, and the blocks that
the guests have. -/
structure Sys where
  wins : Fin MAX_M68K_TASKS → Window
  cur : Fin MAX_M68K_TASKS
  heap_ptr : HeapPtr
  memcheck_on : Bool
  recs : List MemchkRec
  live : List Live

namespace Sys

variable (s : Sys)

/-- The bound window. -/
def here : Window := s.wins s.cur

def set_win (i : Fin MAX_M68K_TASKS) (w : Window) : Sys :=
  { s with wins := Function.update s.wins i w }

/-- The pools that the requirements ask for, in the order they are tried. -/
def pools_of (reqs : Nat) : List Pool :=
  if reqs.testBit MEMF_CHIP || reqs.testBit MEMF_24BITDMA then [.chip]
  else if reqs.testBit MEMF_FAST then [.fast]
  else [.fast, .chip]

/-- The first of the pools that has a block. -/
def heap_alloc_any (ptr : HeapPtr) (w : Window) (size : Nat) (reverse : Bool) :
    List Pool → Option (Window × Nat)
  | [] => some (w, 0)
  | p :: ps =>
    match w.heap_alloc_fl ptr p size reverse with
    | none => none
    | some (w, addr) => if addr = 0 then heap_alloc_any ptr w size reverse ps else some (w, addr)

/-- A record in the first free slot of the table, if there is one. -/
def mc_record (r : MemchkRec) : List MemchkRec → List MemchkRec
  | [] => []
  | q :: qs => if q.payload = 0 then r :: qs else q :: mc_record r qs

/-- The guard words and the fill of a block that memcheck hands out. -/
def guard (w : Window) (payload size reqs : Nat) : Window :=
  let w := (w.store (payload - 4) Window.MC_GUARD_WORD).store (u32 (payload + size))
    Window.MC_GUARD_WORD
  if reqs.testBit MEMF_CLEAR then w else w.fill_with payload size 0xDE

def mc_alloc (size reqs : Nat) (fails : Bool) : Option (Sys × Nat) :=
  if fails then some (s, 0)
  else
    let rev := reqs.testBit MEMF_REVERSE
    if s.memcheck_on then
      match heap_alloc_any s.heap_ptr s.here (u32 (size + 12)) rev (pools_of reqs) with
      | none => none
      | some (w, raw) =>
        if raw = 0 then some (s.set_win s.cur w, 0)
        else
          let payload := u32 (raw + 11) / 8 * 8
          let s := s.set_win s.cur (guard w payload size reqs)
          some ({ s with recs := mc_record ⟨payload, size, raw - HEAP_HDR, s.cur⟩ s.recs }, payload)
    else
      match heap_alloc_any s.heap_ptr s.here size rev (pools_of reqs) with
      | none => none
      | some (w, addr) => some (s.set_win s.cur w, addr)

def dos_AllocMem_glue (size reqs : Nat) (fails : Bool) : Option (Sys × Nat) :=
  if size = 0 then some (s, 0) else s.mc_alloc size reqs fails

/-- A record of the bound window, or else one of any window. -/
def mc_find (payload : Nat) : Option MemchkRec :=
  (s.recs.find? fun r => r.payload == payload && r.ram == s.cur) <|>
    s.recs.find? fun r => r.payload == payload

/-- The record that was found loses its payload. -/
def drop_rec (r : MemchkRec) : List MemchkRec → List MemchkRec
  | [] => []
  | q :: qs =>
    if q.payload = r.payload ∧ q.ram = r.ram then { q with payload := 0 } :: qs
    else q :: drop_rec r qs

def mc_free (addr : Nat) : Sys :=
  if s.memcheck_on then
    match s.mc_find addr with
    | none => s.set_win s.cur (s.here.heap_free_fl true addr)
    | some r =>
      let s := s.set_win r.ram ((s.wins r.ram).heap_free_fl true (u32 (r.blk + HEAP_HDR)))
      { s with recs := drop_rec r s.recs }
  else s.set_win s.cur (s.here.heap_free_fl false addr)

def alloc_abs (addr size : Nat) : Option (Sys × Nat) :=
  match s.here.dos_AllocAbs_glue s.heap_ptr addr size with
  | none => none
  | some (w, addr) => some (s.set_win s.cur w, addr)

/-- A block that was handed out is the guest's. A zero is no block. -/
def note (addr size : Nat) (guarded absolute : Bool) : Sys :=
  if addr = 0 then s else { s with live := ⟨s.cur, addr, size, guarded, absolute⟩ :: s.live }

/-- A block that the guest of the bound window freed is no longer its own. -/
def forget (addr : Nat) : Sys :=
  { s with live := s.live.filter fun l => !(l.win == s.cur && l.addr == addr) }

end Sys

/-- What happens in a run: the calls of a guest, its own stores, a switch to another guest, a
loader that moves the bump pointer, and memcheck being turned on or off. `fails` is the fault
injection of C:failalloc. -/
inductive Op where
  | bind (i : Fin MAX_M68K_TASKS)
  | bump (ptr : HeapPtr)
  | memcheck (on : Bool)
  | alloc_mem (size reqs : UInt32) (fails : Bool)
  | alloc_abs (addr size : UInt32)
  | free_mem (addr : UInt32)
  | poke (addr : Nat) (v : UInt8)

namespace Sys

def step (s : Sys) : Op → Option Sys
  | .bind i => some { s with cur := i }
  | .bump ptr => some { s with heap_ptr := ptr }
  | .memcheck on => some { s with memcheck_on := on }
  | .alloc_mem size reqs fails =>
    (s.dos_AllocMem_glue size.toNat reqs.toNat fails).map fun r =>
      r.1.note r.2 size.toNat s.memcheck_on false
  | .alloc_abs addr size =>
    (s.alloc_abs addr.toNat size.toNat).map fun r => r.1.note r.2 size.toNat false true
  | .free_mem addr => some ((s.mc_free addr.toNat).forget addr.toNat)
  | .poke addr v => some (s.set_win s.cur { s.here with ram := put s.here.ram addr [v] })

end Sys

end uaos.guest
