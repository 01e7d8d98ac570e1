-- The OFS and FFS driver of Amiga volumes (ffs.c): name hashes, header blocks, the
-- allocation bitmap, the data pointers of files, and the calls that read and change
-- files and directories. A loop that never ends is the outer `none` of its result.
import Uaos.FfsBlock

namespace uaos.ffs

/-! ## The volume -/

def FFS_BLOCK_BYTES : Nat := 512
def FFS_OFS_DATA_HDR : Nat := 24
def FFS_OFS_PAYLOAD : Nat := 488
def FFS_MAX_NAME : Nat := 31
def FFS_BM_RESERVED : Nat := 2
def FFS_T_HEADER : Nat := 2
def FFS_T_DATA : Nat := 8
def FFS_T_LIST : Nat := 16

def FFS_LW_TYPE : Nat := 0
def FFS_LW_HEADER_KEY : Nat := 1
def FFS_LW_HIGH_SEQ : Nat := 2
def FFS_LW_TABLE : Nat := 6
def FFS_LW_BM_PAGES : Nat := 79
def FFS_LW_PROTECT : Nat := 80
def FFS_LW_BYTE_SIZE : Nat := 81
def FFS_LW_COMMENT : Nat := 82
def FFS_LW_BM_EXT : Nat := 104
def FFS_LW_DAYS : Nat := 105
def FFS_LW_MINS : Nat := 106
def FFS_LW_TICKS : Nat := 107
def FFS_LW_NAME : Nat := 108
def FFS_LW_NEXT_HASH : Nat := 124
def FFS_LW_PARENT : Nat := 125
def FFS_LW_EXTENSION : Nat := 126
def FFS_LW_SEC_TYPE : Nat := 127

def FFS_OFS_LW_TYPE : Nat := 0
def FFS_OFS_LW_HDR_KEY : Nat := 1
def FFS_OFS_LW_SEQ : Nat := 2
def FFS_OFS_LW_SIZE : Nat := 3
def FFS_OFS_LW_NEXT : Nat := 4

/-- FFS_Mount sets `ht_size` to this and no other value. -/
def HT_SIZE : Nat := 72

/-- The fields of `FfsVolume` that FFS_Mount sets and no other call changes. -/
structure Geom where
  is_ofs : Bool
  root_key : Nat
  num_blocks : Nat
  bitmap_valid : Bool

/-- The rest of `FfsVolume`. -/
structure Vol where
  dev : BlockDev
  used_blocks : Nat

/-- The bytes of a file in one of its data blocks. -/
def Geom.payload (g : Geom) : Nat := if g.is_ofs then FFS_OFS_PAYLOAD else FFS_BLOCK_BYTES

/-- Where these bytes begin. -/
def Geom.data_off (g : Geom) : Nat := if g.is_ofs then FFS_OFS_DATA_HDR else 0

/-- The rounds of a loop with `guard-- > 0` and an `int` guard. -/
def int_guard (n : Nat) : Nat := if n < 2 ^ 31 then n else 0

def ffs_read_block (g : Geom) (d : BlockDev) (key : Nat) : Option Buf :=
  if g.num_blocks ≤ key then none else blockdev_read d key 1

def ffs_read_hdr (g : Geom) (d : BlockDev) (key : Nat) : Option Buf :=
  match ffs_read_block g d key with
  | none => none
  | some b => if blk_checksum_ok b then some b else none

def ffs_write_hdr (v : Vol) (key : Nat) (b : Buf) : Option Vol :=
  (blockdev_write v.dev key (blk_fix_checksum b) 1).map fun d => { v with dev := d }

/-- A write whose result the caller drops. -/
def write_block (v : Vol) (key : Nat) (b : Buf) : Vol :=
  { v with dev := (blockdev_write v.dev key b 1).getD v.dev }

/-! ## Names -/

/-- The bytes of a BSTR as a C string of less than `max` characters. -/
def bstr_to_c (b : Buf) (i max : Nat) : List UInt8 :=
  (slice b (i + 1) (min (b i).toNat (max - 1))).takeWhile (· ≠ 0)

def c_upper (c : UInt8) : UInt8 := if 97 ≤ c ∧ c ≤ 122 then c - 32 else c

def bstr_eq_ci (b : Buf) (i : Nat) (name : List UInt8) : Bool :=
  (slice b (i + 1) (b i).toNat).map c_upper = name.map c_upper

def bstr_from_c (b : Buf) (i : Nat) (src : List UInt8) (max : Nat) : Buf :=
  put b i ((min src.length max).toUInt8 :: src.take max)

def ffs_hash (name : List UInt8) (ht_size : Nat) : Nat :=
  let h := name.foldl (fun h c => u32 (h * 13 + (c_upper c).toNat) &&& 0x7FF) (u32 name.length)
  if ht_size = 0 then 0 else h % ht_size

/-! ## Entries -/

/-- The secondary types that the driver knows. -/
inductive SecType where
  | root
  | userdir
  | linkdir
  | file
  | linkfile
  deriving DecidableEq

def SecType.code : SecType → Nat
  | .root => 1
  | .userdir => 2
  | .linkdir => 4
  | .file => 2 ^ 32 - 3
  | .linkfile => 2 ^ 32 - 4

def sec_type_of (w : Nat) : Option SecType :=
  if w = SecType.root.code then some .root
  else if w = SecType.userdir.code then some .userdir
  else if w = SecType.linkdir.code then some .linkdir
  else if w = SecType.file.code then some .file
  else if w = SecType.linkfile.code then some .linkfile
  else none

def SecType.is_file (t : SecType) : Bool := t = .file ∨ t = .linkfile

def SecType.is_dir (t : SecType) : Bool := !t.is_file

structure FfsEntry where
  key : Nat
  sec_type : SecType
  byte_size : Nat
  protect : Nat
  parent_key : Nat
  ext_key : Nat
  next_hash : Nat
  high_seq : Nat
  days : Nat
  mins : Nat
  ticks : Nat
  name : List UInt8
  comment : List UInt8

def ffs_read_entry (g : Geom) (d : BlockDev) (key : Nat) : Option FfsEntry :=
  match ffs_read_hdr g d key with
  | none => none
  | some b =>
    if blk_lw b FFS_LW_TYPE ≠ FFS_T_HEADER then none
    else
      match sec_type_of (blk_lw b FFS_LW_SEC_TYPE) with
      | none => none
      | some t =>
        some
          { key := key
            sec_type := t
            byte_size := blk_lw b FFS_LW_BYTE_SIZE
            protect := blk_lw b FFS_LW_PROTECT
            parent_key := blk_lw b FFS_LW_PARENT
            ext_key := blk_lw b FFS_LW_EXTENSION
            next_hash := blk_lw b FFS_LW_NEXT_HASH
            high_seq := blk_lw b FFS_LW_HIGH_SEQ
            days := blk_lw b FFS_LW_DAYS
            mins := blk_lw b FFS_LW_MINS
            ticks := blk_lw b FFS_LW_TICKS
            name := bstr_to_c b (FFS_LW_NAME * 4) FFS_MAX_NAME
            comment := if t = .root then [] else bstr_to_c b (FFS_LW_COMMENT * 4) 80 }

/-! ## Lookup -/

def lookup_loop (g : Geom) (d : BlockDev) (name : List UInt8) : Nat → Nat → Nat
  | 0, _ => 0
  | guard + 1, key =>
    if key = 0 ∨ g.num_blocks ≤ key then 0
    else
      match ffs_read_hdr g d key with
      | none => 0
      | some b =>
        if bstr_eq_ci b (FFS_LW_NAME * 4) name then key
        else lookup_loop g d name guard (blk_lw b FFS_LW_NEXT_HASH)

def ffs_lookup (g : Geom) (d : BlockDev) (dir_key : Nat) (name : List UInt8) : Nat :=
  if name = [] then 0
  else
    match ffs_read_hdr g d dir_key with
    | none => 0
    | some b =>
      lookup_loop g d name (if 1024 < g.num_blocks then int_guard g.num_blocks else 1024)
        (blk_lw b (FFS_LW_TABLE + ffs_hash name HT_SIZE))

/-- The part of a path behind its first colon. -/
def skip_volume (path : List UInt8) : List UInt8 :=
  if path.contains 58 then (path.dropWhile (· ≠ 58)).drop 1 else path

/-- The components of a path. One of more than 30 characters is cut into several. -/
def components : Nat → List UInt8 → List (List UInt8)
  | 0, _ => []
  | n + 1, p =>
    let p := p.dropWhile (· = 47)
    if p = [] then []
    else
      let comp := (p.takeWhile (· ≠ 47)).take (FFS_MAX_NAME - 1)
      comp :: components n (p.drop comp.length)

def resolve_loop (g : Geom) (d : BlockDev) : Nat → List (List UInt8) → Nat
  | cur, [] => cur
  | cur, comp :: rest =>
    if comp = [46] then resolve_loop g d cur rest
    else if comp = [46, 46] then
      match ffs_read_entry g d cur with
      | some e => resolve_loop g d (if e.parent_key ≠ 0 then e.parent_key else cur) rest
      | none => resolve_loop g d cur rest
    else
      let cur := ffs_lookup g d cur comp
      if cur = 0 then 0 else resolve_loop g d cur rest

def ffs_resolve (g : Geom) (d : BlockDev) (path : List UInt8) : Nat :=
  let p := skip_volume path
  resolve_loop g d g.root_key (components p.length p)

/-! ## Directory enumeration -/

structure FfsDirIter where
  ht_idx : Nat
  chain_key : Nat

def ffs_dir_iter_init : FfsDirIter := ⟨0, 0⟩

def iter_loop (g : Geom) (d : BlockDev) (dir_key : Nat) :
    Nat → FfsDirIter → FfsDirIter × Option FfsEntry
  | 0, it => (it, none)
  | guard + 1, it =>
    if it.chain_key ≠ 0 then
      let key := it.chain_key
      let it := { it with chain_key := 0 }
      if g.num_blocks ≤ key then iter_loop g d dir_key guard it
      else
        match ffs_read_entry g d key with
        | some e => ({ it with chain_key := e.next_hash }, some e)
        | none => iter_loop g d dir_key guard it
    else if HT_SIZE ≤ it.ht_idx then (it, none)
    else
      match ffs_read_hdr g d dir_key with
      | none => (it, none)
      | some b =>
        let key := blk_lw b (FFS_LW_TABLE + it.ht_idx)
        let it := { it with ht_idx := it.ht_idx + 1 }
        if key = 0 then iter_loop g d dir_key guard it
        else if g.num_blocks ≤ key then (it, none)
        else
          match ffs_read_entry g d key with
          | none => (it, none)
          | some e => ({ it with chain_key := e.next_hash }, some e)

def ffs_dir_iter_next (g : Geom) (d : BlockDev) (dir_key : Nat) (it : FfsDirIter) :
    FfsDirIter × Option FfsEntry :=
  iter_loop g d dir_key (max g.num_blocks 4096) it

/-! ## The bitmap -/

/-- The page keys of the index blocks from `ext` on, behind `keys`. -/
def index_loop (g : Geom) (d : BlockDev) (max : Nat) : Nat → Nat → List Nat → List Nat
  | 0, _, keys => keys
  | guard + 1, ext, keys =>
    if ext = 0 ∨ g.num_blocks ≤ ext ∨ max ≤ keys.length then keys
    else
      match ffs_read_block g d ext with
      | none => keys
      | some b =>
        let page_keys := ((List.range 127).map (blk_lw b)).takeWhile (· ≠ 0)
        let keys := (keys ++ page_keys.filter (· < g.num_blocks)).take max
        index_loop g d max guard (blk_lw b 127) keys

def ffs_bitmap_pages (g : Geom) (d : BlockDev) (max : Nat) : List Nat :=
  if !g.bitmap_valid then []
  else
    match ffs_read_block g d g.root_key with
    | none => []
    | some b =>
      let page_keys := (List.range 25).map fun i => blk_lw b (FFS_LW_BM_PAGES + i)
      let keys := (page_keys.filter fun k => k ≠ 0 ∧ k < g.num_blocks).take max
      index_loop g d max 16 (blk_lw b FFS_LW_BM_EXT) keys

/-- The blocks that one bitmap page has bits for. -/
def BITS_PER_PAGE : Nat := 127 * 32

def ffs_bitmap_set (g : Geom) (v : Vol) (block : Nat) (free_it : Bool) : Vol :=
  if block < FFS_BM_RESERVED ∨ g.num_blocks ≤ block then v
  else
    let map_off := block - FFS_BM_RESERVED
    let off := map_off % BITS_PER_PAGE
    match (ffs_bitmap_pages g v.dev 96)[map_off / BITS_PER_PAGE]? with
    | none => v
    | some key =>
      match ffs_read_block g v.dev key with
      | none => v
      | some b =>
        let w := blk_lw b (1 + off / 32)
        let w := if free_it then w ||| 2 ^ (off % 32) else w &&& (2 ^ 32 - (2 ^ (off % 32) + 1))
        match blockdev_write v.dev key (blk_fix_bm_checksum (blk_put32 b (1 + off / 32) w)) 1 with
        | none => v
        | some d =>
          { dev := d
            used_blocks :=
              if free_it then v.used_blocks - 1 else u32 (v.used_blocks + 1) }

/-- The first free bit of a page, as a pair of a longword and a bit of it. `base` is
the block of the first bit. -/
def find_bit (g : Geom) (b : Buf) (base : Nat) : Option (Nat × Nat) :=
  (List.range 127).findSome? fun w =>
    ((List.range 32).find? fun i =>
      base + w * 32 + i < g.num_blocks && (blk_lw b (1 + w)).testBit i).map fun i => (w, i)

def alloc_loop (g : Geom) (v : Vol) : List Nat → Nat → Vol × Nat
  | [], _ => (v, 0)
  | key :: keys, base =>
    match ffs_read_block g v.dev key with
    | none => alloc_loop g v keys (base + BITS_PER_PAGE)
    | some b =>
      match find_bit g b (FFS_BM_RESERVED + base) with
      | none => alloc_loop g v keys (base + BITS_PER_PAGE)
      | some (w, i) =>
        let word := blk_lw b (1 + w) &&& (2 ^ 32 - (2 ^ i + 1))
        match blockdev_write v.dev key (blk_fix_bm_checksum (blk_put32 b (1 + w) word)) 1 with
        | none => (v, 0)
        | some d =>
          ({ dev := d, used_blocks := u32 (v.used_blocks + 1) },
            FFS_BM_RESERVED + base + w * 32 + i)

def ffs_alloc_block (g : Geom) (v : Vol) : Vol × Nat :=
  if !g.bitmap_valid then (v, 0) else alloc_loop g v (ffs_bitmap_pages g v.dev 96) 0

def ffs_free_block (g : Geom) (v : Vol) (block : Nat) : Vol :=
  if !g.bitmap_valid then v else ffs_bitmap_set g v block true

/-! ## The data pointers of a file -/

/-- The pointers that the block says it holds, and no more than fit. -/
def high_of (b : Buf) : Nat := min (blk_lw b FFS_LW_HIGH_SEQ) HT_SIZE

/-- The pointer `seq` of the block. The table runs down from its top. -/
def ptr_of (b : Buf) (seq : Nat) : Nat := blk_lw b (5 + HT_SIZE - seq)

def data_key_loop (g : Geom) (d : BlockDev) : Nat → Nat → Nat → Nat
  | 0, _, _ => 0
  | guard + 1, ext, seq =>
    if ext = 0 ∨ g.num_blocks ≤ ext then 0
    else
      match ffs_read_hdr g d ext with
      | none => 0
      | some b =>
        if blk_lw b FFS_LW_TYPE ≠ FFS_T_LIST then 0
        else if seq < high_of b then ptr_of b seq
        else data_key_loop g d guard (blk_lw b FFS_LW_EXTENSION) (seq - high_of b)

def ffs_data_key (g : Geom) (d : BlockDev) (hdr_key seq : Nat) : Nat :=
  match ffs_read_hdr g d hdr_key with
  | none => 0
  | some b =>
    if seq < high_of b then ptr_of b seq
    else data_key_loop g d 256 (blk_lw b FFS_LW_EXTENSION) (seq - high_of b)

def data_count_loop (g : Geom) (d : BlockDev) : Nat → Nat → Nat
  | 0, _ => 0
  | guard + 1, key =>
    if key = 0 ∨ g.num_blocks ≤ key then 0
    else
      match ffs_read_hdr g d key with
      | none => 0
      | some b => high_of b + data_count_loop g d guard (blk_lw b FFS_LW_EXTENSION)

def ffs_data_count (g : Geom) (d : BlockDev) (hdr_key : Nat) : Nat :=
  data_count_loop g d 512 hdr_key

def ffs_store_ptr (v : Vol) (b : Buf) (key high dkey : Nat) : Option Vol := ffs_write_hdr v key
    (blk_put32 (blk_put32 b (FFS_LW_TABLE + HT_SIZE - 1 - high) dkey) FFS_LW_HIGH_SEQ (high + 1))

/-- What the walk over the extension blocks finds: a block with room, or the last
block of a chain that is full. -/
inductive Room where
  | bad
  | room (holder : Nat) (b : Buf) (high : Nat)
  | full (holder : Nat)

def room_loop (g : Geom) (d : BlockDev) : Nat → Nat → Nat → Room
  | 0, _, holder => .full holder
  | guard + 1, ext, holder =>
    if ext = 0 ∨ g.num_blocks ≤ ext then .full holder
    else
      match ffs_read_hdr g d ext with
      | none => .bad
      | some b =>
        if blk_lw b FFS_LW_TYPE ≠ FFS_T_LIST then .bad
        else
          let high := blk_lw b FFS_LW_HIGH_SEQ
          if HT_SIZE < high then .bad
          else if high < HT_SIZE then .room ext b high
          else room_loop g d guard (blk_lw b FFS_LW_EXTENSION) ext

/-- A block of zeros. -/
def zeros : Buf := fun _ => 0

/-- A fresh extension block. -/
def new_ext (newext hdr_key : Nat) : Buf :=
  blk_put32 (blk_put32 (blk_put32 (blk_put32 zeros FFS_LW_TYPE FFS_T_LIST) FFS_LW_HEADER_KEY newext)
    FFS_LW_PARENT hdr_key) FFS_LW_SEC_TYPE SecType.file.code

/-- Link a new extension block behind `holder` and store the pointer in it. -/
def append_ext (g : Geom) (v : Vol) (hdr_key holder dkey : Nat) : Vol × Bool :=
  match ffs_alloc_block g v with
  | (v, newext) =>
    if newext = 0 then (v, false)
    else
      match ffs_read_hdr g v.dev holder with
      | none => (ffs_free_block g v newext, false)
      | some b =>
        match ffs_write_hdr v holder (blk_put32 b FFS_LW_EXTENSION newext) with
        | none => (ffs_free_block g v newext, false)
        | some v =>
          match ffs_store_ptr v (new_ext newext hdr_key) newext 0 dkey with
          | none => (v, false)
          | some v => (v, true)

def ffs_append_ptr (g : Geom) (v : Vol) (hdr_key dkey : Nat) : Vol × Bool :=
  match ffs_read_hdr g v.dev hdr_key with
  | none => (v, false)
  | some b =>
    let high := blk_lw b FFS_LW_HIGH_SEQ
    if HT_SIZE < high then (v, false)
    else
      let place :=
        if high < HT_SIZE then .room hdr_key b high
        else room_loop g v.dev 256 (blk_lw b FFS_LW_EXTENSION) hdr_key
      match place with
      | .bad => (v, false)
      | .full holder => append_ext g v hdr_key holder dkey
      | .room holder b high =>
        match ffs_store_ptr v b holder high dkey with
        | none => (v, false)
        | some v => (v, true)

/-- A fresh data block. -/
def new_data (g : Geom) (hdr_key seq : Nat) : Buf :=
  if g.is_ofs then
    blk_fix_checksum (blk_put32 (blk_put32 (blk_put32 zeros FFS_OFS_LW_TYPE FFS_T_DATA)
      FFS_OFS_LW_HDR_KEY hdr_key) FFS_OFS_LW_SEQ (seq + 1))
  else zeros

/-- Link the data block before `seq` to the new one. -/
def chain_data (g : Geom) (v : Vol) (hdr_key seq dkey : Nat) : Vol :=
  if g.is_ofs ∧ 0 < seq then
    let prev := ffs_data_key g v.dev hdr_key (seq - 1)
    if prev = 0 ∨ g.num_blocks ≤ prev then v
    else
      match ffs_read_block g v.dev prev with
      | none => v
      | some b => write_block v prev (blk_fix_checksum (blk_put32 b FFS_OFS_LW_NEXT dkey))
  else v

def ffs_file_append_block (g : Geom) (v : Vol) (hdr_key seq : Nat) : Vol × Nat :=
  match ffs_alloc_block g v with
  | (v, dkey) =>
    if dkey = 0 then (v, 0)
    else
      match blockdev_write v.dev dkey (new_data g hdr_key seq) 1 with
      | none => (ffs_free_block g v dkey, 0)
      | some d =>
        match ffs_append_ptr g { v with dev := d } hdr_key dkey with
        | (v, false) => (ffs_free_block g v dkey, 0)
        | (v, true) => (chain_data g v hdr_key seq dkey, dkey)

def free_ext_loop (g : Geom) : Nat → Vol → Nat → Vol
  | 0, v, _ => v
  | guard + 1, v, ext =>
    if ext = 0 ∨ g.num_blocks ≤ ext then v
    else
      match ffs_read_block g v.dev ext with
      | none => v
      | some b => free_ext_loop g guard (ffs_free_block g v ext) (blk_lw b FFS_LW_EXTENSION)

def ffs_free_ext_chain (g : Geom) (v : Vol) (first_ext : Nat) : Vol :=
  free_ext_loop g 512 v first_ext

/-- The block with its pointers from `trim` on set to zero. -/
def clear_ptrs (b : Buf) (trim high : Nat) : Buf := (List.range (high - trim)).foldl
    (fun b i => blk_put32 b (FFS_LW_TABLE + HT_SIZE - 1 - (trim + i)) 0) b

def trim_loop (g : Geom) (keep : Nat) : Nat → Vol → Nat → Nat → Vol
  | 0, v, _, _ => v
  | guard + 1, v, node, base =>
    if node = 0 then v
    else
      match ffs_read_hdr g v.dev node with
      | none => v
      | some b =>
        let high := high_of b
        let ext := blk_lw b FFS_LW_EXTENSION
        if keep < base + high then
          let trim := keep - base
          let b := blk_put32 (clear_ptrs b trim high) FFS_LW_HIGH_SEQ trim
          if ext = 0 then write_block v node (blk_fix_checksum b)
          else
            ffs_free_ext_chain g
              (write_block v node (blk_fix_checksum (blk_put32 b FFS_LW_EXTENSION 0))) ext
        else trim_loop g keep guard v ext (base + high)

def ffs_trim_ptrs (g : Geom) (v : Vol) (hdr_key keep : Nat) : Vol :=
  trim_loop g keep 512 v hdr_key 0

def ffs_ofs_fix_tail (g : Geom) (v : Vol) (hdr_key need new_size : Nat) : Vol :=
  if need = 0 then v
  else
    let last := ffs_data_key g v.dev hdr_key (need - 1)
    if last = 0 ∨ g.num_blocks ≤ last then v
    else
      match ffs_read_block g v.dev last with
      | none => v
      | some b =>
        let rem := min (sub32 new_size (u32 ((need - 1) * FFS_OFS_PAYLOAD))) FFS_OFS_PAYLOAD
        write_block v last
          (blk_fix_checksum (blk_put32 (blk_put32 b FFS_OFS_LW_SIZE rem) FFS_OFS_LW_NEXT 0))

/-! ## Files -/

/-- The time of a change, as `ffs_now` gives it. -/
structure DateStamp where
  days : Nat
  mins : Nat
  ticks : Nat

def put_stamp (b : Buf) (now : DateStamp) : Buf :=
  blk_put32 (blk_put32 (blk_put32 b FFS_LW_DAYS now.days) FFS_LW_MINS now.mins)
    FFS_LW_TICKS now.ticks

lemma put_stamp_outside {b : Buf} {now : DateStamp} {j : Nat} (h : j / 4 < 105 ∨ 108 ≤ j / 4) :
    put_stamp b now j = b j := by
  unfold put_stamp FFS_LW_DAYS FFS_LW_MINS FFS_LW_TICKS
  rw [put32_outside (by omega), put32_outside (by omega), put32_outside (by omega)]

lemma put_stamp_lw {b : Buf} {now : DateStamp} {i : Nat} (h : i < 105 ∨ 108 ≤ i) :
    blk_lw (put_stamp b now) i = blk_lw b i :=
  blk_lw_congr fun _ _ => put_stamp_outside (by omega)

/-- The appends of a file that grows from `count` blocks by `n`. -/
def extend_loop (g : Geom) (key : Nat) : Nat → Vol → Nat → Vol × Bool
  | 0, v, _ => (v, true)
  | n + 1, v, i =>
    match ffs_file_append_block g v key i with
    | (v, dkey) => if dkey = 0 then (v, false) else extend_loop g key n v (i + 1)

/-- Declare the payloads of `n` OFS data blocks from the block `i` on. -/
def declare_loop (g : Geom) (key new_size : Nat) : Nat → Vol → Nat → Vol
  | 0, v, _ => v
  | n + 1, v, i =>
    let dk := ffs_data_key g v.dev key i
    if dk = 0 ∨ g.num_blocks ≤ dk then v
    else
      match ffs_read_block g v.dev dk with
      | none => v
      | some b =>
        let rem := sub32 new_size (u32 (i * g.payload))
        let v := write_block v dk
          (blk_fix_checksum (blk_put32 b FFS_OFS_LW_SIZE (min rem g.payload)))
        declare_loop g key new_size n v (i + 1)

/-- Free `n` data blocks from the block `i` on. -/
def free_data_loop (g : Geom) (key : Nat) : Nat → Vol → Nat → Vol
  | 0, v, _ => v
  | n + 1, v, i =>
    let dk := ffs_data_key g v.dev key i
    free_data_loop g key n (if dk = 0 ∨ g.num_blocks ≤ dk then v else ffs_free_block g v dk) (i + 1)

/-- The new size and time of a file in its header. -/
def put_size (g : Geom) (v : Vol) (key size : Nat) (now : DateStamp) : Option Vol :=
  match ffs_read_hdr g v.dev key with
  | none => none
  | some b => ffs_write_hdr v key (put_stamp (blk_put32 b FFS_LW_BYTE_SIZE size) now)

/-- The data blocks of the file brought to `need` of them. The flag is false when the
volume is full. -/
def resize (g : Geom) (v : Vol) (key need new_size : Nat) : Vol × Bool :=
  let count := ffs_data_count g v.dev key
  if count < need then
    match extend_loop g key (need - count) v count with
    | (v, false) => (v, false)
    | (v, true) =>
      (if g.is_ofs then declare_loop g key new_size (need - count) v count else v, true)
  else if need < count then
    let v := ffs_trim_ptrs g (free_data_loop g key (count - need) v need) key need
    (if g.is_ofs then ffs_ofs_fix_tail g v key need new_size else v, true)
  else (if g.is_ofs then ffs_ofs_fix_tail g v key need new_size else v, true)

def ffs_set_file_size (g : Geom) (v : Vol) (key new_size : Nat) (now : DateStamp) : Vol × Int :=
  match ffs_read_entry g v.dev key with
  | none => (v, -1)
  | some e =>
    if !e.sec_type.is_file then (v, -2)
    else
      match resize g v key (u32 (new_size + g.payload - 1) / g.payload) new_size with
      | (v, false) => (v, -3)
      | (v, true) =>
        match put_size g v key new_size now with
        | none => (v, -1)
        | some v => (v, 0)

/-- The round of FFS_ReadAt at the offset `off` of the data block `seq`. -/
def read_part (g : Geom) (d : BlockDev) (key seq off want : Nat) : Option (List UInt8) :=
  let dkey := ffs_data_key g d key seq
  if dkey = 0 ∨ g.num_blocks ≤ dkey then none
  else
    match ffs_read_block g d dkey with
    | none => none
    | some b =>
      if g.is_ofs then
        if blk_lw b FFS_OFS_LW_TYPE ≠ FFS_T_DATA ∨ !blk_checksum_ok b then none
        else
          let dsz := blk_lw b FFS_OFS_LW_SIZE
          if dsz ≤ off then none else some (slice b (FFS_OFS_DATA_HDR + off) (min want (dsz - off)))
      else some (slice b off want)

def read_at_loop (g : Geom) (d : BlockDev) (key : Nat) : Nat → Nat → Nat → Option (List UInt8)
  | 0, _, _ => none
  | fuel + 1, pos, len =>
    if len = 0 then some []
    else
      let off := u32 pos % g.payload
      match read_part g d key (u32 pos / g.payload) off (min (g.payload - off) len) with
      | none => some []
      | some bs => (read_at_loop g d key fuel (pos + bs.length) (len - bs.length)).map (bs ++ ·)

/-- The bytes that FFS_ReadAt puts into the buffer. -/
def ffs_read_at (g : Geom) (d : BlockDev) (e : FfsEntry) (pos len : Nat) :
    Option (Except Int (List UInt8)) :=
  if !e.sec_type.is_file then some (.error (-2))
  else if e.byte_size ≤ pos then some (.ok [])
  else
    let len := if e.byte_size < u32 (pos + len) then e.byte_size - pos else len
    (read_at_loop g d e.key (len + 1) pos len).map .ok

/-- The data block with the bytes of a write in it. -/
def put_data (g : Geom) (b : Buf) (off : Nat) (bs : List UInt8) : Option Buf :=
  if g.is_ofs then
    if blk_lw b FFS_OFS_LW_TYPE ≠ FFS_T_DATA then none
    else
      let b := if blk_lw b FFS_OFS_LW_SIZE < off + bs.length then
        blk_put32 b FFS_OFS_LW_SIZE (off + bs.length) else b
      some (blk_fix_checksum (put b (FFS_OFS_DATA_HDR + off) bs))
  else some (put b off bs)

/-- The round of FFS_WriteAt that puts `bs` at the offset `off` of the data block
`seq` of a file with `count` data blocks. It gives the new count. -/
def write_part (g : Geom) (v : Vol) (key count seq off : Nat) (bs : List UInt8) :
    Vol × Option Nat :=
  let grown : Vol × Option Nat :=
    if count ≤ seq then
      match ffs_file_append_block g v key seq with
      | (v, dkey) => (v, if dkey = 0 then none else some (count + 1))
    else (v, some count)
  match grown with
  | (v, none) => (v, none)
  | (v, some count) =>
    let dkey := ffs_data_key g v.dev key seq
    if dkey = 0 ∨ g.num_blocks ≤ dkey then (v, none)
    else
      match ffs_read_block g v.dev dkey with
      | none => (v, none)
      | some b =>
        match put_data g b off bs with
        | none => (v, none)
        | some b =>
          match blockdev_write v.dev dkey b 1 with
          | none => (v, none)
          | some d => ({ v with dev := d }, some count)

/-- The rounds of FFS_WriteAt from `pos` on. They give the number of bytes written. -/
def write_at_loop (g : Geom) (key : Nat) : Nat → Vol → Nat → Nat → List UInt8 → Option (Vol × Nat)
  | 0, _, _, _, _ => none
  | fuel + 1, v, count, pos, bs =>
    if bs = [] then some (v, 0)
    else
      let off := u32 pos % g.payload
      let want := min (g.payload - off) bs.length
      match write_part g v key count (u32 pos / g.payload) off (bs.take want) with
      | (v, none) => some (v, 0)
      | (v, some count) =>
        (write_at_loop g key fuel v count (pos + want) (bs.drop want)).map fun (v, n) =>
        (v, want + n)

def ffs_write_at (g : Geom) (v : Vol) (key pos : Nat) (bs : List UInt8) (now : DateStamp) :
    Option (Vol × Int) :=
  match ffs_read_entry g v.dev key with
  | none => some (v, -1)
  | some e =>
    if !e.sec_type.is_file then some (v, -2)
    else
      let extended : Vol × Int × Nat :=
        if e.byte_size < pos then
          match ffs_set_file_size g v key pos now with
          | (v, code) =>
            if code ≠ 0 then (v, -3, 0)
            else
              match ffs_read_entry g v.dev key with
              | none => (v, -1, 0)
              | some e => (v, 0, e.byte_size)
        else (v, 0, e.byte_size)
      match extended with
      | (v, code, byte_size) =>
        if code ≠ 0 then some (v, code)
        else
          (write_at_loop g key (bs.length + 1) v (ffs_data_count g v.dev key) pos bs).map
            fun (v, done) =>
              let v :=
                if done ≠ 0 ∧ byte_size < u32 (pos + done) then
                  (put_size g v key (u32 (pos + done)) now).getD v
                else v
              (v, (done : Int))

/-! ## Directories -/

/-- The part of a path that is looked at, without a volume and leading slashes. -/
def split_rel (path : List UInt8) : List UInt8 := (skip_volume path).dropWhile (· = 47)

/-- What stands behind the last slash. -/
def split_name (p : List UInt8) : List UInt8 := (p.reverse.takeWhile (· ≠ 47)).reverse

/-- What stands before the last slash, cut off after 126 characters. -/
def split_dir (p : List UInt8) : List UInt8 :=
  (p.take (p.length - (split_name p).length - 1)).take 126

/-- The directory and the last component of a path. -/
def ffs_split_path (g : Geom) (d : BlockDev) (path : List UInt8) : Option (Nat × List UInt8) :=
  let p := split_rel path
  let name := split_name p
  if name = [] ∨ FFS_MAX_NAME - 1 < name.length ∨ name.contains 58 then none
  else
    let dk := if p.contains 47 then ffs_resolve g d (split_dir p) else g.root_key
    if dk = 0 then none
    else
      match ffs_read_entry g d dk with
      | none => none
      | some e => if e.sec_type.is_dir then some (dk, name) else none

def insert_loop (g : Geom) (v : Vol) (key : Nat) : Nat → Nat → Option Vol
  | 0, _ => none
  | guard + 1, cur =>
    if cur = 0 ∨ g.num_blocks ≤ cur then none
    else
      match ffs_read_hdr g v.dev cur with
      | none => none
      | some b =>
        let nxt := blk_lw b FFS_LW_NEXT_HASH
        if nxt = 0 then ffs_write_hdr v cur (blk_put32 b FFS_LW_NEXT_HASH key)
        else insert_loop g v key guard nxt

def ffs_hash_insert (g : Geom) (v : Vol) (dir_key : Nat) (name : List UInt8) (key : Nat) :
    Option Vol :=
  match ffs_read_hdr g v.dev dir_key with
  | none => none
  | some b =>
    let slot := ffs_hash name HT_SIZE
    let cur := blk_lw b (FFS_LW_TABLE + slot)
    if cur = 0 then ffs_write_hdr v dir_key (blk_put32 b (FFS_LW_TABLE + slot) key)
    else insert_loop g v key (int_guard g.num_blocks) cur

/-- Put the link behind `key` into the longword `i` of the block `prev`. -/
def bypass (g : Geom) (v : Vol) (prev i key : Nat) : Option Vol :=
  match ffs_read_hdr g v.dev key with
  | none => none
  | some b =>
    match ffs_read_hdr g v.dev prev with
    | none => none
    | some p => ffs_write_hdr v prev (blk_put32 p i (blk_lw b FFS_LW_NEXT_HASH))

def remove_loop (g : Geom) (v : Vol) (key : Nat) : Nat → Nat → Option Vol
  | 0, _ => none
  | guard + 1, prev =>
    match ffs_read_hdr g v.dev prev with
    | none => none
    | some b =>
      let cur := blk_lw b FFS_LW_NEXT_HASH
      if cur = 0 ∨ g.num_blocks ≤ cur then none
      else if cur = key then bypass g v prev FFS_LW_NEXT_HASH key
      else remove_loop g v key guard cur

def ffs_hash_remove (g : Geom) (v : Vol) (dir_key : Nat) (name : List UInt8) (key : Nat) :
    Option Vol :=
  match ffs_read_hdr g v.dev dir_key with
  | none => none
  | some b =>
    let slot := ffs_hash name HT_SIZE
    let cur := blk_lw b (FFS_LW_TABLE + slot)
    if cur = 0 then none
    else if cur = key then bypass g v dir_key (FFS_LW_TABLE + slot) key
    else remove_loop g v key (int_guard g.num_blocks) cur

/-- The header of a new entry. -/
def new_header (key dir_key : Nat) (name : List UInt8) (t : SecType) (now : DateStamp) : Buf :=
  let b := blk_put32 (blk_put32 zeros FFS_LW_TYPE FFS_T_HEADER) FFS_LW_HEADER_KEY key
  let b := put_stamp (bstr_from_c b (FFS_LW_NAME * 4) name 30) now
  blk_fix_checksum (blk_put32 (blk_put32 b FFS_LW_PARENT dir_key) FFS_LW_SEC_TYPE t.code)

def ffs_create_entry (g : Geom) (v : Vol) (path : List UInt8) (t : SecType) (now : DateStamp) :
    Vol × Nat :=
  match ffs_split_path g v.dev path with
  | none => (v, 0)
  | some (dir_key, name) =>
    if ffs_lookup g v.dev dir_key name ≠ 0 then (v, 0)
    else
      match ffs_alloc_block g v with
      | (v, key) =>
        if key = 0 then (v, 0)
        else
          match blockdev_write v.dev key (new_header key dir_key name t now) 1 with
          | none => (ffs_free_block g v key, 0)
          | some d =>
            match ffs_hash_insert g { v with dev := d } dir_key name key with
            | none => (ffs_free_block g { v with dev := d } key, 0)
            | some v => (v, key)

def ffs_create_file (g : Geom) (v : Vol) (path : List UInt8) (now : DateStamp) : Vol × Nat :=
  let k :=
    match ffs_split_path g v.dev path with
    | none => 0
    | some (dir_key, name) => ffs_lookup g v.dev dir_key name
  if k = 0 then ffs_create_entry g v path .file now
  else
    match ffs_read_entry g v.dev k with
    | none => (v, 0)
    | some e => if e.sec_type.is_file then ((ffs_set_file_size g v k 0 now).1, k) else (v, 0)

def ffs_create_dir (g : Geom) (v : Vol) (path : List UInt8) (now : DateStamp) : Vol × Nat :=
  ffs_create_entry g v path .userdir now

/-- Zero when no slot of the directory's hash table is set. -/
def dir_code (g : Geom) (d : BlockDev) (key : Nat) : Int :=
  match ffs_read_hdr g d key with
  | none => -1
  | some b => if (List.range HT_SIZE).all fun i => blk_lw b (FFS_LW_TABLE + i) = 0 then 0 else -3

/-- Free all blocks of an entry that is in no chain any more. -/
def free_entry (g : Geom) (v : Vol) (key : Nat) (t : SecType) : Vol :=
  let v :=
    if t.is_file then
      let v := free_data_loop g key (ffs_data_count g v.dev key) v 0
      match ffs_read_hdr g v.dev key with
      | none => v
      | some b => ffs_free_ext_chain g v (blk_lw b FFS_LW_EXTENSION)
    else v
  ffs_free_block g v key

def ffs_delete (g : Geom) (v : Vol) (path : List UInt8) : Vol × Int :=
  match ffs_split_path g v.dev path with
  | none => (v, -1)
  | some (dir_key, name) =>
    let key := ffs_lookup g v.dev dir_key name
    if key = 0 then (v, -1)
    else
      match ffs_read_entry g v.dev key with
      | none => (v, -1)
      | some e =>
        if e.sec_type = .root then (v, -1)
        else
          let busy : Int := if e.sec_type.is_dir then dir_code g v.dev key else 0
          if busy ≠ 0 then (v, busy)
          else
            match ffs_hash_remove g v dir_key e.name key with
            | none => (v, -1)
            | some v => (free_entry g v key e.sec_type, 0)

/-- The header with another name and directory. -/
def patch_name (b : Buf) (name : List UInt8) (dir_key : Nat) : Buf :=
  let b := put b (FFS_LW_NAME * 4) (List.replicate 32 0)
  blk_put32 (bstr_from_c b (FFS_LW_NAME * 4) name 30) FFS_LW_PARENT dir_key

/-- Undo a rename as well as can be. -/
def restore_name (g : Geom) (v : Vol) (key odir : Nat) (name : List UInt8) : Vol :=
  match ffs_read_hdr g v.dev key with
  | none => v
  | some b =>
    let v := write_block v key (blk_fix_checksum (patch_name b name odir))
    (ffs_hash_insert g v odir name key).getD v

def ffs_rename (g : Geom) (v : Vol) (old_path new_path : List UInt8) (now : DateStamp) :
    Vol × Int :=
  match ffs_split_path g v.dev old_path, ffs_split_path g v.dev new_path with
  | some (odir, oname), some (ndir, nname) =>
    let key := ffs_lookup g v.dev odir oname
    if key = 0 then (v, -1)
    else if ffs_lookup g v.dev ndir nname ≠ 0 then (v, -2)
    else
      match ffs_read_entry g v.dev key with
      | none => (v, -1)
      | some e =>
        if e.sec_type = .root then (v, -1)
        else
          match ffs_hash_remove g v odir e.name key with
          | none => (v, -1)
          | some v =>
            match ffs_read_hdr g v.dev key with
            | none => ((ffs_hash_insert g v odir e.name key).getD v, -1)
            | some b =>
              match ffs_write_hdr v key (put_stamp (patch_name b nname ndir) now) with
              | none => ((ffs_hash_insert g v odir e.name key).getD v, -1)
              | some v =>
                match ffs_hash_insert g v ndir nname key with
                | none => (restore_name g v key odir e.name, -1)
                | some v => (v, 0)
  | _, _ => (v, -1)

end uaos.ffs
