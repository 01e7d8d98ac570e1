-- Loading an ELF file into the x64 heap (elf64_loader.c): the headers, the segments, the
-- relocations and the first stack. What is read outside the file or written outside the image
-- has no meaning here, and a call that does so gives `none`.
import Uaos.X64Runs

namespace uaos.elf

/-! ## The file -/

structure File where
  bytes : Buf
  size : Nat
  size_lt : size < 2 ^ 32

inductive Error where
  | bad_magic
  | not_x86_64
  | bad_type
  | short_header
  | no_heap
  | bad_phdr
  | load_oob
  | no_stack
  deriving DecidableEq

def ET_EXEC : Nat := 2
def ET_DYN : Nat := 3
def EM_X86_64 : Nat := 62
def PT_LOAD : Nat := 1
def SHT_SYMTAB : Nat := 2
def SHT_RELA : Nat := 4
def SHT_DYNSYM : Nat := 11
def R_X86_64_64 : Nat := 1
def R_X86_64_GLOB_DAT : Nat := 6
def R_X86_64_RELATIVE : Nat := 8
def EHDR_SIZE : Nat := 64
def PHDR_SIZE : Nat := 56
def SHDR_SIZE : Nat := 64
def RELA_SIZE : Nat := 24
def SYM_SIZE : Nat := 24
def X64_STACK_SIZE : Nat := 256 * 1024

structure Phdr where
  p_type : Nat
  p_offset : Nat
  p_vaddr : Nat
  p_filesz : Nat
  p_memsz : Nat

/-- The segment takes up memory. -/
def Phdr.loads (ph : Phdr) : Bool := ph.p_type = PT_LOAD && ph.p_memsz ≠ 0

def phdr_end (ph : Phdr) : Nat := u64 (ph.p_vaddr + ph.p_memsz)

namespace File

variable (f : File)

def e_type : Nat := le16 f.bytes 16
def e_machine : Nat := le16 f.bytes 18
def e_entry : Nat := le64 f.bytes 24
def e_phoff : Nat := le64 f.bytes 32
def e_shoff : Nat := le64 f.bytes 40
def e_phentsize : Nat := le16 f.bytes 54
def e_phnum : Nat := le16 f.bytes 56
def e_shentsize : Nat := le16 f.bytes 58
def e_shnum : Nat := le16 f.bytes 60

/-- A word at an offset, which pointer arithmetic wraps around. -/
def rd32 (off : Nat) : Option Nat :=
  if u64 off + 4 ≤ f.size then some (le32 f.bytes (u64 off)) else none

def rd64 (off : Nat) : Option Nat :=
  if u64 off + 8 ≤ f.size then some (le64 f.bytes (u64 off)) else none

def valid_ehdr : Bool :=
  f.bytes 0 = 0x7f && f.bytes 1 = 0x45 && f.bytes 2 = 0x4c && f.bytes 3 = 0x46 &&
    f.bytes 4 = 2 && f.bytes 5 = 1 && f.bytes 6 = 1

/-- The checks of the header. -/
def rejects : Option Error :=
  if f.size < EHDR_SIZE then some .short_header
  else if f.valid_ehdr = false then some .bad_magic
  else if f.e_machine ≠ EM_X86_64 then some .not_x86_64
  else if f.e_type ≠ ET_EXEC ∧ f.e_type ≠ ET_DYN then some .bad_type
  else if f.e_phnum = 0 ∨ f.e_phentsize < PHDR_SIZE ∨
      f.size < u64 (f.e_phoff + f.e_phnum * f.e_phentsize) then some .bad_phdr
  else none

/-- The header `i`. They stand 56 bytes apart, whatever `e_phentsize` says. -/
def phdr (i : Nat) : Option Phdr :=
  let at_ := f.e_phoff + PHDR_SIZE * i
  if u64 at_ + PHDR_SIZE ≤ f.size then
    some ⟨le32 f.bytes (u64 at_), le64 f.bytes (u64 at_ + 8), le64 f.bytes (u64 at_ + 16),
      le64 f.bytes (u64 at_ + 32), le64 f.bytes (u64 at_ + 40)⟩
  else none

def phdrs : Option (List Phdr) := (List.range f.e_phnum).mapM f.phdr

end File

/-! ## The heap -/

/-- What the loader needs of the heap. `live` are the blocks in use; a payload of 0 is a refusal,
and a call that never returns gives `none`. -/
structure Allocator (σ : Type) where
  heap0 : Nat
  stop : Nat
  live : σ → List Nat
  alloc : σ → Nat → Nat → Option (σ × Nat)
  reserve : σ → Nat → Nat → Option (σ × Nat)
  alloc_live : ∀ s size align t p, alloc s size align = some (t, p) →
    live t = if p = 0 then live s else p :: live s
  reserve_live : ∀ s addr size t p, reserve s addr size = some (t, p) →
    live t = if p = 0 then live s else p :: live s

/-- The image: its place, its size and the virtual address of its first byte. -/
structure Image where
  base : Nat
  size : Nat
  min_vaddr : Nat

namespace Image

/-- A file without segments has no image. -/
def empty : Image := ⟨0, 0, 0⟩

/-- The range lies in the image, and the image in the address space. -/
def holds (m : Image) (addr size : Nat) : Bool :=
  m.base ≤ addr && addr + size ≤ m.base + m.size && m.base + m.size ≤ 2 ^ 64

def bias (m : Image) : Nat := sub64 m.base m.min_vaddr

/-- Where a virtual address is loaded. -/
def dest (m : Image) (vaddr : Nat) : Nat := u64 (m.base + sub64 vaddr m.min_vaddr)

def store (m : Image) (mem : Buf) (addr v : Nat) : Option Buf :=
  if m.holds addr 8 then some (put_le64 mem addr v) else none

end Image

section load

variable {σ : Type} (H : Allocator σ) (f : File)

/-! ## The segments -/

/-- The lowest address and the highest end of the segments. -/
def footprint (segs : List Phdr) : Nat × Nat :=
  segs.foldl (fun a ph => (min a.1 ph.p_vaddr, max a.2 (phdr_end ph))) (2 ^ 64 - 1, 0)

/-- The image of a block, if the heap has one. -/
def taken (r : Option (σ × Nat)) (m : Nat → Image) : Option (σ × Except Error Image) :=
  r.map fun r => (r.1, if r.2 = 0 then .error .no_heap else .ok (m r.2))

/-- The first half of `load_segments`: a place for the image. -/
def place (s : σ) (segs : List Phdr) : Option (σ × Except Error Image) :=
  let lo := (footprint segs).1
  let hi := (footprint segs).2
  if hi = 0 then some (s, .ok .empty)
  else if f.e_type = ET_DYN then
    taken (H.alloc s (sub64 hi lo) 4096) fun p => ⟨p, sub64 hi lo, lo⟩
  else if lo < H.heap0 ∨ H.stop < hi then some (s, .error .load_oob)
  else taken (H.reserve s lo (sub64 hi lo)) fun _ => ⟨lo, sub64 hi lo, lo⟩

/-- How many bytes of a segment come from the file. -/
def to_copy (ph : Phdr) : Nat :=
  let file_end := min (u64 (ph.p_offset + ph.p_filesz)) f.size
  min (if file_end > ph.p_offset then file_end - ph.p_offset else 0) ph.p_memsz

/-- A segment is copied and the rest of it is zeroed. -/
def copy_segment (m : Image) (mem : Buf) (ph : Phdr) : Option Buf :=
  let dest := m.dest ph.p_vaddr
  let n := to_copy f ph
  if m.holds dest ph.p_memsz then
    some (put (put mem dest (slice f.bytes ph.p_offset n)) (dest + n)
      (List.replicate (ph.p_memsz - n) 0))
  else none

/-- A segment of an ET_EXEC file is checked once more. -/
def recheck_fails (m : Image) (ph : Phdr) : Bool := f.e_type = ET_EXEC &&
    (m.dest ph.p_vaddr < H.heap0 || H.stop < u64 (m.dest ph.p_vaddr + ph.p_memsz))

def copy_segments (m : Image) : List Phdr → Buf → Option (Except Error Buf)
  | [], mem => some (.ok mem)
  | ph :: segs, mem =>
    if recheck_fails H f m ph then some (.error .load_oob)
    else match copy_segment f m mem ph with
    | none => none
    | some mem => copy_segments m segs mem

/-! ## The relocations -/

/-- A table of relocations: where it is, how many there are, and the header of its symbols. -/
structure RelaTable where
  rela : Nat
  count : Nat
  sym : Nat
  sym_sh : Nat

/-- The table of a section, if it is one with symbols. -/
def rela_table (i : Nat) : Option (Option RelaTable) := do
  let sh := f.e_shoff + SHDR_SIZE * i
  let sh_type ← f.rd32 (sh + 4)
  if sh_type ≠ SHT_RELA then return none
  let entsize ← f.rd64 (sh + 56)
  if entsize < RELA_SIZE then return none
  let link ← f.rd32 (sh + 40)
  if f.e_shnum ≤ link then return none
  let sym_sh := f.e_shoff + SHDR_SIZE * link
  let sym_type ← f.rd32 (sym_sh + 4)
  if sym_type ≠ SHT_SYMTAB ∧ sym_type ≠ SHT_DYNSYM then return none
  let rela ← f.rd64 (sh + 24)
  let sym ← f.rd64 (sym_sh + 24)
  let size ← f.rd64 (sh + 32)
  return some ⟨rela, size / RELA_SIZE, sym, sym_sh⟩

/-- The offset that a relocation patches and what it adds to the bias, if it patches anything. -/
def rela_entry (t : RelaTable) (r : Nat) : Option (Option (Nat × Nat)) := do
  let rela := t.rela + RELA_SIZE * r
  let info ← f.rd64 (rela + 8)
  let offset ← f.rd64 rela
  let type := info % 2 ^ 32
  let symidx := info / 2 ^ 32
  if type = R_X86_64_RELATIVE then
    let addend ← f.rd64 (rela + 16)
    return some (offset, addend)
  if type = R_X86_64_64 ∨ type = R_X86_64_GLOB_DAT then
    let size ← f.rd64 (t.sym_sh + 32)
    if size / SYM_SIZE ≤ symidx then return none
    let value ← f.rd64 (t.sym + SYM_SIZE * symidx + 8)
    let addend ← f.rd64 (rela + 16)
    return some (offset, u64 (value + addend))
  return none

/-- One relocation. -/
def relocate (m : Image) (t : RelaTable) (r : Nat) (mem : Buf) : Option Buf :=
  match rela_entry f t r with
  | none => none
  | some none => some mem
  | some (some (offset, value)) => m.store mem (u64 (m.bias + offset)) (u64 (m.bias + value))

/-- The relocations `r`, `r + 1` and so on, `n` of them. -/
def relocate_from (m : Image) (t : RelaTable) : Nat → Nat → Buf → Option Buf
  | 0, _, mem => some mem
  | n + 1, r, mem =>
    match relocate f m t r mem with
    | none => none
    | some mem => relocate_from m t n (r + 1) mem

def relocate_section (m : Image) (i : Nat) (mem : Buf) : Option Buf :=
  match rela_table f i with
  | none => none
  | some none => some mem
  | some (some t) => relocate_from f m t t.count 0 mem

/-- The sections `i`, `i + 1` and so on, `n` of them. -/
def relocate_sections (m : Image) : Nat → Nat → Buf → Option Buf
  | 0, _, mem => some mem
  | n + 1, i, mem =>
    match relocate_section f m i mem with
    | none => none
    | some mem => relocate_sections m n (i + 1) mem

/-- How many sections are looked at. -/
def sections : Nat :=
  if f.e_type ≠ ET_DYN ∨ f.e_shentsize < SHDR_SIZE then 0 else f.e_shnum

def apply_relocations (m : Image) (mem : Buf) : Option Buf :=
  relocate_sections f m (sections f) 0 mem

/-! ## The first stack -/

def str_size (argv : List (List UInt8)) : Nat := (argv.map fun a => a.length + 1).sum

def ptr_size (argv : List (List UInt8)) : Nat := (argv.length + 3) * 8

/-- The arguments are too long for a stack. -/
def args_too_long (argv : List (List UInt8)) : Bool :=
  X64_STACK_SIZE < str_size argv + ptr_size argv + 16

/-- The addresses of the strings, from `at_` on. -/
def str_addrs : Nat → List (List UInt8) → List Nat
  | _, [] => []
  | at_, a :: argv => at_ :: str_addrs (at_ + a.length + 1) argv

/-- The words of the stack, from its header on. -/
def put_words : Buf → Nat → List Nat → Buf
  | mem, _, [] => mem
  | mem, at_, w :: ws => put_words (put_le64 mem at_ w) (at_ + 8) ws

/-- The header of the stack lies just below the strings. -/
def stack_pointer (stack : Nat) (argv : List (List UInt8)) : Nat :=
  x64.align_down (stack + X64_STACK_SIZE - str_size argv - ptr_size argv) 16

/-- `build_initial_stack` with the stack pointer, or 0. The table of addresses has room for 64
arguments. -/
def build_initial_stack (s : σ) (argv : List (List UInt8)) (mem : Buf) :
    Option (σ × Buf × Nat) :=
  if args_too_long argv then some (s, mem, 0)
  else match H.alloc s X64_STACK_SIZE 16 with
  | none => none
  | some (s, stack) =>
    if stack = 0 then some (s, mem, 0)
    else if 64 < argv.length then none
    else
      let str_base := stack + X64_STACK_SIZE - str_size argv
      let hdr := stack_pointer stack argv
      let mem := put mem str_base (argv.flatMap fun a => a ++ [0])
      let mem := put_words mem hdr (argv.length :: str_addrs str_base argv ++ [0, 0])
      some (s, mem, hdr)

/-! ## The loader -/

structure Loaded where
  image : Image
  entry_rip : Nat
  initial_rsp : Nat

/-- The second half: relocations and stack. -/
def finish (s : σ) (m : Image) (argv : List (List UInt8)) (mem : Buf) :
    Option (σ × Buf × Except Error Loaded) :=
  match apply_relocations f m mem with
  | none => none
  | some mem =>
    match build_initial_stack H s argv mem with
    | none => none
    | some (s, mem, rsp) =>
      if rsp = 0 then some (s, mem, .error .no_stack)
      else
        let entry := if f.e_type = ET_DYN then u64 (m.bias + f.e_entry) else f.e_entry
        some (s, mem, .ok ⟨m, entry, rsp⟩)

/-- `max_end == 0` ends `load_segments` before anything is copied. -/
def load_segments (s : σ) (segs : List Phdr) (mem : Buf) :
    Option (σ × Except Error (Image × Buf)) :=
  match place H f s segs with
  | none => none
  | some (s, .error e) => some (s, .error e)
  | some (s, .ok m) =>
    match copy_segments H f m (if (footprint segs).2 = 0 then [] else segs) mem with
    | none => none
    | some (.error e) => some (s, .error e)
    | some (.ok mem) => some (s, .ok (m, mem))

def ELF64_Load (s : σ) (mem : Buf) (argv : List (List UInt8)) :
    Option (σ × Buf × Except Error Loaded) :=
  match f.rejects with
  | some e => some (s, mem, .error e)
  | none =>
    match f.phdrs with
    | none => none
    | some phs =>
      match load_segments H f s (phs.filter Phdr.loads) mem with
      | none => none
      | some (s, .error e) => some (s, mem, .error e)
      | some (s, .ok (m, mem)) => finish H f s m argv mem

end load

end uaos.elf
