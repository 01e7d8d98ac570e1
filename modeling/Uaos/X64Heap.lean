-- The x64 heap (elf64_loader.c): an arena that is cut into blocks, each with a header of six
-- words in front of its payload. The headers lie in a memory of bytes, as in the source, since
-- two headers can overlap while a block is made.
import Uaos.Mem64

namespace uaos.x64

/-! ## Headers -/

def X64_HEAP_SIZE : Nat := 4 * 1024 * 1024
def X64_BLK_MAGIC : Nat := 0x583634424C4B4844
def X64_BLK_F_USED : Nat := 1
def X64_BLK_HDR : Nat := 48
def X64_MIN_SPLIT : Nat := X64_BLK_HDR + 16

/-- The fields of a header. -/
inductive Field where
  | magic
  | size
  | prev
  | next
  | owner
  | flags
  deriving DecidableEq

def Field.off : Field → Nat
  | .magic => 0
  | .size => 8
  | .prev => 16
  | .next => 24
  | .owner => 32
  | .flags => 40

/-- The memory, the first block and the bytes in used blocks. The address 0 stands for NULL. -/
structure Heap where
  mem : Buf
  first : Nat
  live : Nat

namespace Heap

def get (h : Heap) (f : Field) (b : Nat) : Nat := le64 h.mem (b + f.off)

def put (h : Heap) (f : Field) (b v : Nat) : Heap := { h with mem := put_le64 h.mem (b + f.off) v }

def set_first (h : Heap) (b : Nat) : Heap := { h with first := b }

def set_live (h : Heap) (n : Nat) : Heap := { h with live := n }

def used (h : Heap) (b : Nat) : Bool := h.get .flags b &&& X64_BLK_F_USED != 0

def x64_blk_end (h : Heap) (b : Nat) : Nat := u64 (b + h.get .size b)

/-- One free block spans the arena. -/
def x64_heap_reset (heap0 : Nat) (h : Heap) : Heap :=
  let h := h.put .magic heap0 X64_BLK_MAGIC
  let h := h.put .size heap0 X64_HEAP_SIZE
  let h := h.put .prev heap0 0
  let h := h.put .next heap0 0
  let h := h.put .owner heap0 0
  let h := h.put .flags heap0 0
  (h.set_first heap0).set_live 0

/-- The arena is set up before it is used for the first time. -/
def ready (heap0 : Nat) (h : Heap) : Heap := if h.first = 0 then h.x64_heap_reset heap0 else h

end Heap

/-! ## Arithmetic -/

def align_up (v a : Nat) : Nat :=
  if a = 0 then v else u64 (v + sub64 a 1) &&& (2 ^ 64 - 1 - sub64 a 1)

def align_down (v a : Nat) : Nat := v &&& (2 ^ 64 - 1 - sub64 a 1)

namespace Heap

/-! ## Cutting blocks -/

/-- `next`, if there is one, has `b` before it. -/
def link_back (h : Heap) (next b : Nat) : Heap := if next = 0 then h else h.put .prev next b

/-- Cuts the end of a block off as a free block at `nb`. The block keeps `size` bytes. -/
def cut (h : Heap) (b nb size : Nat) : Heap :=
  let stop := h.x64_blk_end b
  let h := h.put .magic nb X64_BLK_MAGIC
  let h := h.put .size nb (sub64 stop nb)
  let h := h.put .prev nb b
  let h := h.put .next nb (h.get .next b)
  let h := h.put .owner nb 0
  let h := h.put .flags nb 0
  let h := h.link_back (h.get .next nb) nb
  let h := h.put .next b nb
  h.put .size b size

def x64_split_lead (h : Heap) (b nbs : Nat) : Heap := h.cut b nbs (sub64 nbs b)

/-- A tail that is too small for a block stays in the block. -/
def x64_split_tail (h : Heap) (b need : Nat) : Heap :=
  let tail := u64 (b + need)
  if sub64 (h.x64_blk_end b) tail < X64_MIN_SPLIT then h else h.cut b tail need

/-- Moves the start of a free block up. The bytes in front go to the block before it. -/
def x64_absorb_sliver (h : Heap) (b nbs : Nat) : Heap :=
  let h := h.put .magic nbs X64_BLK_MAGIC
  let h := h.put .size nbs (sub64 (h.x64_blk_end b) nbs)
  let h := h.put .next nbs (h.get .next b)
  let h := h.put .owner nbs 0
  let h := h.put .flags nbs 0
  let h := h.link_back (h.get .next nbs) nbs
  let pv := h.get .prev b
  let h :=
    if pv ≠ 0 then
      let h := h.put .size pv (u64 (h.get .size pv + sub64 nbs b))
      let h := h.put .next (h.get .prev b) nbs
      let h := h.put .prev nbs (h.get .prev b)
      h.set_live (if h.used (h.get .prev b) then u64 (h.live + sub64 nbs b) else h.live)
    else
      let h := h.put .prev nbs 0
      h.set_first nbs
  h.put .magic b 0

/-- The block is used now. -/
def take (h : Heap) (b owner : Nat) : Heap :=
  let h := h.put .flags b (h.get .flags b ||| X64_BLK_F_USED)
  let h := h.put .owner b owner
  h.set_live (u64 (h.live + h.get .size b))

/-! ## Walks over the blocks -/

/-- More blocks than there are addresses: a walk of this length goes round in circles. -/
def walk : Nat := 2 ^ 64

/-- The first block that passes a test, from the block `b` on. The walk stops at NULL and at a
header without the magic word, and one that does not end gives `none`. -/
def seek (h : Heap) (test : Heap → Nat → Bool) : Nat → Nat → Option (Option Nat)
  | 0, _ => none
  | n + 1, b =>
    if b = 0 ∨ h.get .magic b ≠ X64_BLK_MAGIC then some none
    else if test h b then some (some b)
    else seek h test n (h.get .next b)

def search (h : Heap) (test : Heap → Nat → Bool) : Option (Option Nat) := h.seek test walk h.first

/-- The address lies in the span of the block. -/
def spans (addr : Nat) (h : Heap) (b : Nat) : Bool := b ≤ addr ∧ addr < h.x64_blk_end b

def x64_blk_containing (h : Heap) (ptr : Nat) : Option (Option Nat) := h.search (spans ptr)

/-! ## Allocation -/

/-- Where a block in the free block `b` has to start so that its payload is aligned. -/
def start_in (b align : Nat) : Nat := sub64 (align_up (u64 (b + X64_BLK_HDR)) align) X64_BLK_HDR

/-- A free block with room for `need` bytes. -/
def fits (need align : Nat) (h : Heap) (b : Nat) : Bool :=
  !h.used b && !(start_in b align < b ∨ h.x64_blk_end b < u64 (start_in b align + need))

/-- Makes the block at `nbs` in the free block `b`. -/
def carve (h : Heap) (b nbs : Nat) : Heap :=
  if b < nbs then
    if X64_BLK_HDR ≤ nbs - b then h.x64_split_lead b nbs else h.x64_absorb_sliver b nbs
  else h

def round_size (size : Nat) : Nat := align_up (if size = 0 then 16 else size) 16

def round_align (align : Nat) : Nat := if align < 16 then 16 else align

/-- The first free block for a request. -/
def first_fit (h : Heap) (size align : Nat) : Option (Option Nat) :=
  h.search (fits (u64 (round_size size + X64_BLK_HDR)) (round_align align))

/-- Gives the heap and the payload, 0 if there is no room. `refused` stands for a failure that
was asked for. A call that never returns gives `none`. -/
def x64_heap_alloc (heap0 : Nat) (h : Heap) (size align owner : Nat) (refused : Bool) :
    Option (Heap × Nat) :=
  if refused then some (h, 0)
  else
    let h := h.ready heap0
    match h.first_fit size align with
    | none => none
    | some none => some (h, 0)
    | some (some b) =>
      let nbs := start_in b (round_align align)
      let h := h.carve b nbs
      let h := h.x64_split_tail nbs (u64 (round_size size + X64_BLK_HDR))
      some (h.take nbs owner, u64 (nbs + X64_BLK_HDR))

/-- Where the header of a reservation at `addr` in the free block `b` goes. -/
def reserve_start (b addr : Nat) : Nat :=
  let nbs := align_down (sub64 addr X64_BLK_HDR) 16
  if b < nbs ∧ nbs - b < X64_BLK_HDR then b else nbs

def x64_heap_reserve (heap0 : Nat) (h : Heap) (addr size owner : Nat) : Option (Heap × Nat) :=
  let h := h.ready heap0
  let end_req := u64 (addr + size)
  match h.search (spans addr) with
  | none => none
  | some none => some (h, 0)
  | some (some b) =>
    if h.used b ∨ h.x64_blk_end b < end_req then some (h, 0)
    else if sub64 addr b < X64_BLK_HDR then some (h, 0)
    else
      let nbs := reserve_start b addr
      let h := if b < nbs then h.x64_split_lead b nbs else h
      let bs := if b < nbs then nbs else b
      let h := h.x64_split_tail bs (sub64 end_req bs)
      some (h.take bs owner, u64 (bs + X64_BLK_HDR))

/-! ## Freeing -/

/-- The address lies in the arena. -/
def in_arena (heap0 p : Nat) : Bool := heap0 ≤ p ∧ p < heap0 + X64_HEAP_SIZE

/-- The block of a payload, if its header and those of its neighbours agree on it. -/
def x64_free_target (heap0 : Nat) (h : Heap) (ptr : Nat) : Option Nat :=
  let b := ptr - X64_BLK_HDR
  let pv := h.get .prev b
  let next := h.get .next b
  if ptr < heap0 + X64_BLK_HDR ∨ heap0 + X64_HEAP_SIZE ≤ ptr then none
  else if h.get .magic b ≠ X64_BLK_MAGIC then none
  else if h.used b = false then none
  else if h.get .size b < X64_BLK_HDR ∨ h.get .size b % 16 ≠ 0 ∨
      heap0 + X64_HEAP_SIZE < u64 (b + h.get .size b) then none
  else if pv ≠ 0 ∧ ¬(in_arena heap0 pv ∧ h.get .magic pv = X64_BLK_MAGIC ∧ h.get .next pv = b) then
    none
  else if pv = 0 ∧ b ≠ h.first then none
  else if next ≠ 0 ∧
      ¬(in_arena heap0 next ∧ h.get .magic next = X64_BLK_MAGIC ∧ h.get .prev next = b) then none
  else some b

/-- The block `b` takes in the block `n` after it. -/
def join (h : Heap) (b n : Nat) : Heap :=
  let h := h.put .size b (u64 (h.get .size b + h.get .size n))
  let h := h.put .next b (h.get .next n)
  let h := h.link_back (h.get .next n) b
  h.put .magic n 0

def coalesce_forward (h : Heap) (b : Nat) : Heap :=
  let n := h.get .next b
  if n ≠ 0 ∧ h.used n = false then h.join b n else h

def coalesce_backward (h : Heap) (b : Nat) : Heap :=
  let pv := h.get .prev b
  if pv ≠ 0 ∧ h.used pv = false then h.join pv b else h

/-- The block is free now. -/
def give (h : Heap) (b : Nat) : Heap :=
  let h := h.put .flags b (h.get .flags b &&& (2 ^ 64 - 1 - X64_BLK_F_USED))
  let h := h.put .owner b 0
  h.set_live (sub64 h.live (h.get .size b))

def x64_heap_free (heap0 : Nat) (h : Heap) (ptr : Nat) : Heap :=
  match h.x64_free_target heap0 ptr with
  | none => h
  | some b => ((h.give b).coalesce_forward b).coalesce_backward b

def used_and (p : Heap → Nat → Bool) (h : Heap) (b : Nat) : Bool := h.used b && p h b

/-- Frees used blocks with the property `p`, each time the first one, until there is none. After
`n` rounds it gives up with `none`. -/
def sweep (heap0 : Nat) (p : Heap → Nat → Bool) : Nat → Heap → Option Heap
  | 0, _ => none
  | n + 1, h =>
    match h.search (used_and p) with
    | none => none
    | some none => some h
    | some (some b) => sweep heap0 p n (h.x64_heap_free heap0 (u64 (b + X64_BLK_HDR)))

def overlaps (a0 a1 : Nat) (h : Heap) (b : Nat) : Bool := b < a1 ∧ a0 < h.x64_blk_end b

def ELF64_HeapFreeRange (heap0 : Nat) (h : Heap) (addr size rounds : Nat) : Option Heap :=
  h.sweep heap0 (overlaps addr (u64 (addr + if size = 0 then 1 else size))) rounds

def owned_by (task : Nat) (h : Heap) (b : Nat) : Bool := h.get .owner b = task

def ELF64_FreeTaskBlocks (heap0 : Nat) (h : Heap) (task rounds : Nat) : Option Heap :=
  h.sweep heap0 (owned_by task) rounds

/-- Gives the used block around an address to an owner. -/
def ELF64_HeapOwn (h : Heap) (owner ptr : Nat) : Option Heap :=
  match h.x64_blk_containing ptr with
  | none => none
  | some none => some h
  | some (some b) => some (if h.used b then h.put .owner b owner else h)

end Heap

end uaos.x64
