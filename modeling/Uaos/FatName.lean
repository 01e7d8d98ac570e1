-- Names of the FAT32 driver (fat32.c): Latin-1 case, 8.3 names, long names in
-- their chains of fragments, and the parts of a path. A C string is the list of its
-- bytes, without the zero at its end.
import Uaos.Disk

namespace uaos.fat32

/-! ## Directory entries -/

def FAT32_DIR_ENTRY_SIZE : Nat := 32
def FAT32_LFN_MAX : Nat := 255
def FAT32_LFN_ENTS_MAX : Nat := 20
def FAT32_LFN_LAST : UInt8 := 0x40
def FAT32_NT_LOWER_BASE : UInt8 := 0x08
def FAT32_NT_LOWER_EXT : UInt8 := 0x10
def FAT32_ATTR_DIRECTORY : UInt8 := 0x10
def FAT32_ATTR_LONG_NAME : UInt8 := 0x0F

/-- The 32 bytes of a directory entry at `i`, with nothing behind them. -/
def dir_entry (b : Buf) (i : Nat) : Buf := fun k =>
  if k < FAT32_DIR_ENTRY_SIZE then b (i + k) else 0

/-- Where a directory entry stands. -/
structure Slot where
  sec : Nat
  off : Nat
  deriving DecidableEq

/-- The first cluster that an entry names. -/
def first_cluster (de : Buf) : Nat := le16 de 26 + le16 de 20 * 65536

/-! ## Case -/

def l1_upper (c : UInt8) : UInt8 :=
  if (97 ≤ c ∧ c ≤ 122) ∨ (0xE0 ≤ c ∧ c ≤ 0xFE ∧ c ≠ 0xF7) then c - 32 else c

def l1_lower (c : UInt8) : UInt8 :=
  if (65 ≤ c ∧ c ≤ 90) ∨ (0xC0 ≤ c ∧ c ≤ 0xDE ∧ c ≠ 0xD7) then c + 32 else c

def fat32_name_eq : List UInt8 → List UInt8 → Bool
  | [], [] => true
  | a :: as, b :: bs => l1_upper a == l1_upper b && fat32_name_eq as bs
  | _, _ => false

/-! ## Short names -/

/-- The name in the eleven bytes of an entry, with the case of its flags. -/
def fat32_83_to_name (de : Buf) : List UInt8 :=
  let nt := de 12
  let base := ((List.range 8).takeWhile fun i => de i ≠ 32).map fun i =>
    let c := if i = 0 ∧ de 0 = 0x05 then 0xE5 else de i
    if nt &&& FAT32_NT_LOWER_BASE ≠ 0 then l1_lower c else c
  let ext := ((List.range' 8 3).takeWhile fun i => de i ≠ 32).map fun i =>
    if nt &&& FAT32_NT_LOWER_EXT ≠ 0 then l1_lower (de i) else de i
  if de 8 ≠ 32 then base ++ 46 :: ext else base

/-- The checksum of the eleven name bytes. -/
def fat32_lfn_checksum (sfn : Buf) : UInt8 :=
  (List.range 11).foldl (fun sum i => ((sum &&& 1) <<< 7) + (sum >>> 1) + sfn i) 0

/-- The characters of an 8.3 name besides letters and digits: `$%'-_@~`, the
backquote, and `!(){}^#&`. -/
def SFN_EXTRA : List UInt8 :=
  [0x24, 0x25, 0x27, 0x2D, 0x5F, 0x40, 0x7E, 0x60, 0x21, 0x28, 0x29, 0x7B, 0x7D, 0x5E, 0x23, 0x26]

def sfn_char_ok (c : UInt8) : Bool :=
  (65 ≤ c && c ≤ 90) || (97 ≤ c && c ≤ 122) || (48 ≤ c && c ≤ 57) ||
    (c != 0 && SFN_EXTRA.contains c)

/-- The characters no name can have: `"*/:<>?\|`. -/
def NAME_BAD : List UInt8 := [0x22, 0x2A, 0x2F, 0x3A, 0x3C, 0x3E, 0x3F, 0x5C, 0x7C]

/-- `bs` with spaces behind it, `n` bytes in all. -/
def pad_to (n : Nat) (bs : List UInt8) : List UInt8 := bs ++ List.replicate (n - bs.length) 32

/-- What fat32_make_sfn finds out about a name. -/
inductive Sfn where
  /-- the name is not representable -/
  | bad
  /-- the name is an 8.3 name with these case flags -/
  | exact (sfn : List UInt8) (nt : UInt8)
  /-- the name needs a long name, and this is its alias before the tail -/
  | basis (sfn : List UInt8)

def has_lower (cs : List UInt8) : Bool := cs.any fun c => 97 ≤ c && c ≤ 122
def has_upper (cs : List UInt8) : Bool := cs.any fun c => 65 ≤ c && c ≤ 90

/-- A byte of an alias. -/
def sfn_byte (c : UInt8) : UInt8 := if sfn_char_ok c then l1_upper c else 95

/-- The alias of a long name, without its tail. -/
def sfn_basis (name : List UInt8) : List UInt8 :=
  let p := (name.dropWhile (· = 46)).reverse
  -- the part behind the last dot, if there is one
  let (stem, ext) :=
    match p.dropWhile (· ≠ 46) with
    | [] => (p.reverse, [])
    | _ :: rest => (rest.reverse, (p.takeWhile (· ≠ 46)).reverse)
  let base := ((stem.filter fun c => c ≠ 32 ∧ c ≠ 46).take 8).map sfn_byte
  pad_to 8 (if base = [] then [95] else base) ++
    pad_to 3 (((ext.filter (· ≠ 32)).take 3).map sfn_byte)

def fat32_make_sfn (name : List UInt8) : Sfn :=
  if name = [] ∨ FAT32_LFN_MAX < name.length then .bad
  else if name.any fun c => c < 0x20 || NAME_BAD.contains c then .bad
  else if name.all fun c => c = 46 || c = 32 then .bad
  else
    let base := name.takeWhile (· ≠ 46)
    let dot := name.dropWhile (· ≠ 46)
    let ext := dot.drop 1
    let fits := 1 ≤ base.length ∧ base.length ≤ 8 ∧ ext.length ≤ 3 ∧ ¬ (dot ≠ [] ∧ ext = []) ∧
      46 ∉ ext ∧ (base ++ ext).all sfn_char_ok
    if fits ∧ ¬ (has_upper base ∧ has_lower base) ∧ ¬ (has_upper ext ∧ has_lower ext) then
      .exact (pad_to 8 (base.map l1_upper) ++ pad_to 3 (ext.map l1_upper))
        ((if has_lower base then FAT32_NT_LOWER_BASE else 0) |||
          (if has_lower ext then FAT32_NT_LOWER_EXT else 0))
    else .basis (sfn_basis name)

/-- The digits of `n`, the last one first, at most `k` of them. -/
def tail_digits : Nat → Nat → List UInt8
  | 0, _ => []
  | k + 1, n => UInt8.ofNat (48 + n % 10) :: if n / 10 = 0 then [] else tail_digits k (n / 10)

/-- The alias with the tail `~n`. -/
def fat32_apply_tail (basis : List UInt8) (n : Nat) : List UInt8 :=
  let tail := 126 :: (tail_digits 7 n).reverse
  let bl := min ((basis.take 8).takeWhile (· ≠ 32)).length (8 - tail.length)
  pad_to 8 (basis.take bl ++ tail) ++ basis.drop 8

/-! ## Long names -/

/-- The places of the 13 characters in a fragment. -/
def lfn_offs : List Nat := [1, 3, 5, 7, 9, 14, 16, 18, 20, 22, 24, 28, 30]

/-- The accumulator of a scan. The slots are those of the chain before the last
alias, and `ucs` keeps what earlier chains left in it. -/
structure Lfn where
  ucs : Nat → Nat
  chk : UInt8
  total : Nat
  expect : Nat
  active : Bool
  slots : List Slot

def Lfn.init : Lfn := ⟨fun _ => 0, 0, 0, 0, false, []⟩

def lfn_reset (l : Lfn) : Lfn := { l with active := false, slots := [] }

/-- The characters of the fragment `seq`. -/
def lfn_store (ucs : Nat → Nat) (seq : Nat) (de : Buf) : Nat → Nat := fun i =>
  if (seq - 1) * 13 ≤ i ∧ i < seq * 13 then le16 de (lfn_offs.getD (i - (seq - 1) * 13) 0)
    else ucs i

def lfn_feed (l : Lfn) (de : Buf) (s : Slot) : Lfn :=
  let seq := (de 0 &&& 0x1F).toNat
  if de 0 &&& FAT32_LFN_LAST ≠ 0 then
    if seq = 0 ∨ FAT32_LFN_ENTS_MAX < seq then lfn_reset l
    else
      let ucs := fun i => if i = seq * 13 then 0 else l.ucs i
      { ucs := lfn_store ucs seq de, chk := de 13, total := seq, expect := seq - 1
        active := true, slots := [s] }
  else if ¬ l.active ∨ seq = 0 ∨ seq ≠ l.expect ∨ de 13 ≠ l.chk then lfn_reset l
  else { l with ucs := lfn_store l.ucs seq de, expect := seq - 1, slots := l.slots ++ [s] }

/-- The characters of a complete chain, from the `i`-th on: those before the first
0x0000 or 0xFFFF, and none when there are more than a name can have. -/
def lfn_chars (ucs : Nat → Nat) : Nat → Nat → Option (List UInt8)
  | 0, _ => some []
  | lim + 1, i =>
    if ucs i = 0x0000 ∨ ucs i = 0xFFFF then some []
    else if FAT32_LFN_MAX ≤ i then none
    else (lfn_chars ucs lim (i + 1)).map fun cs =>
      (if ucs i < 0x100 then UInt8.ofNat (ucs i) else 95) :: cs

/-- At an 8.3 entry: the long name that is bound to it. -/
def lfn_finish (l : Lfn) (de : Buf) : Lfn × Option (List UInt8) :=
  if l.active ∧ l.expect = 0 ∧ l.chk = fat32_lfn_checksum de then
    match lfn_chars l.ucs (l.total * 13) 0 with
    | some (c :: cs) => ({ l with active := false }, some (c :: cs))
    | _ => ({ l with active := false, slots := [] }, none)
  else ({ l with active := false, slots := [] }, none)

/-- The fragment `seq` of the chain of a name; the first one on the disk has the
largest number. -/
def lfn_fragment (name : List UInt8) (seq : Nat) (last : Bool) (chk : UInt8) : Buf :=
  let de : Buf := fun _ => 0
  let de := put de 0 [UInt8.ofNat seq ||| (if last then FAT32_LFN_LAST else 0)]
  let de := put de 11 [FAT32_ATTR_LONG_NAME]
  let de := put de 13 [chk]
  (List.range 13).foldl (fun de k =>
    let pos := (seq - 1) * 13 + k
    let c := if pos < name.length then (name.getD pos 0).toNat
      else if pos = name.length then 0 else 0xFFFF
    put_le16 de (lfn_offs.getD k 0) c) de

/-! ## Paths -/

def is_slash (c : UInt8) : Bool := c = 47 || c = 92

/-- The path behind the name of the volume. -/
def strip_vol_prefix (path : List UInt8) : List UInt8 :=
  match path.dropWhile (· ≠ 58) with
  | [] => path
  | _ :: rest => rest

/-- The first 127 bytes without the slashes at their end. -/
def fat32_copy_path (path : List UInt8) : List UInt8 :=
  ((path.take 127).reverse.dropWhile is_slash).reverse

/-- The last component of a path. -/
def fat32_basename (rel : List UInt8) : List UInt8 :=
  let p := fat32_copy_path rel
  (p.reverse.takeWhile fun c => !is_slash c).reverse

end uaos.fat32
