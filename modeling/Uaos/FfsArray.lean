-- A file of an old or a fast file system as a byte array: every run of reads, writes and
-- size changes that never brings bytes behind the end back into the file gives the bytes
-- and the content of an array that grows with zeros.
import Uaos.FfsBytes
import Uaos.Refine

namespace uaos.ffs

open List

variable {g : Geom} {v v' : Vol} {d d' : BlockDev} {key size n m : Nat} {hs ds : List Nat}

/-! ## The calls -/

/-- A call on the file. -/
inductive FileOp where
  | read (pos len : UInt32)
  | write (pos : UInt32) (bytes : List UInt8) (now : DateStamp)
  | set_size (size : UInt32) (now : DateStamp)

/-- What a call gives back. -/
inductive FileOut where
  | bytes (bs : List UInt8)
  | status (rc : Int)
  deriving DecidableEq

/-- A call on the file with the header `key`. A read takes the entry as the header has it,
as the handler does. -/
def file_step (g : Geom) (key : Nat) (v : Vol) : FileOp → Option (Vol × FileOut)
  | .read pos len =>
    match ffs_read_entry g v.dev key with
    | none => some (v, .status (-1))
    | some e =>
      (ffs_read_at g v.dev e pos.toNat len.toNat).map fun
        | .ok bs => (v, .bytes bs)
        | .error rc => (v, .status rc)
  | .write pos bs now =>
    (ffs_write_at g v key pos.toNat bs now).map fun (v, rc) => (v, .status rc)
  | .set_size size now =>
    match ffs_set_file_size g v key size.toNat now with
    | (v, rc) => some (v, .status rc)

/-! ## The byte array -/

/-- The content made `n` bytes long: cut off, or filled with zeros. -/
def sized (content : List UInt8) (n : Nat) : List UInt8 :=
  content.take n ++ List.replicate (n - content.length) 0

/-- What a call does to the byte array. -/
def byte_spec (content : List UInt8) : FileOp → FileOut → List UInt8 → Prop
  | .read pos len, o, c => o = .bytes ((content.drop pos.toNat).take len.toNat) ∧ c = content
  | .write pos bs _, o, c =>
    let padded := sized content (max content.length pos.toNat)
    o = .status bs.length ∧ c = padded.take pos.toNat ++ bs ++ padded.drop (pos.toNat + bs.length)
  | .set_size n _, o, c => o = .status 0 ∧ c = sized content n.toNat

/-- The data blocks of the file, as the calls find them. -/
def file_data (g : Geom) (d : BlockDev) (key : Nat) : List Nat :=
  (List.range (ffs_data_count g d key)).map (ffs_data_key g d key)

/-- The header and the extension blocks. -/
def file_tables (g : Geom) (d : BlockDev) (key : Nat) : List Nat := key :: file_exts g d key

def file_size (d : BlockDev) (key : Nat) : Nat := blk_lw (d.data key) FFS_LW_BYTE_SIZE

/-- The bytes that the file stands for. -/
def file_bytes (g : Geom) (key : Nat) (v : Vol) : List UInt8 :=
  slice (fbyte g v.dev (file_data g v.dev key)) 0 (file_size v.dev key)

/-- The header, the tables, the data blocks and the bitmap agree. -/
def FileFormed (g : Geom) (key : Nat) (v : Vol) : Prop :=
  FileOk g v.dev key (file_tables g v.dev key) (file_data g v.dev key) (file_size v.dev key)

section

variable (h : FileOk g d key hs ds size)

include h

lemma FileOk.tables_eq : file_tables g d key = hs := by
  have hpos := h.stored.tables.pos
  rw [file_tables, ← h.head, h.stored.tables.file_exts h.stored.placed.left]
  cases hs with
  | nil => cases hpos
  | cons x xs => rfl

lemma FileOk.count_eq : ffs_data_count g d key = ds.length := by
  rw [← h.head]
  exact h.stored.tables.data_count h.stored.placed.left

lemma FileOk.data_eq : file_data g d key = ds := by
  rw [file_data, h.count_eq]
  refine ext_getElem (by rw [length_map, length_range]) fun i h1 h2 => ?_
  rw [getElem_map, getElem_range, ← h.head, h.stored.tables.data_key h.stored.placed.left h2,
    getD_eq_getElem _ _ h2]

lemma FileOk.size_eq : file_size d key = size := h.header.size

end

section

variable (h : FileOk g v.dev key hs ds size)

include h

lemma FileOk.formed : FileFormed g key v := by
  unfold FileFormed
  rw [h.tables_eq, h.data_eq, h.size_eq]
  exact h

lemma FileOk.file_bytes : ffs.file_bytes g key v = slice (fbyte g v.dev ds) 0 size := by
  rw [ffs.file_bytes, h.data_eq, h.size_eq]

/-! ## The condition -/

/-- There are blocks for `n` bytes, and tables for the blocks. -/
def has_room (g : Geom) (key : Nat) (v : Vol) (n : Nat) : Prop :=
  n ≤ 18504 * g.payload ∧ (ffs_data_count g v.dev key < blocks_for g n →
    RoomFor g v.dev (file_tables g v.dev key) (file_data g v.dev key) (blocks_for g n))

/-- When the file grows to `n` bytes, the bytes that its last block has behind the end are
zeros, and an OFS file that needs new blocks ends with its last block. -/
def grows_clean (g : Geom) (key : Nat) (v : Vol) (n : Nat) : Prop :=
  (∀ m, m < min n (ffs_data_count g v.dev key * g.payload) → file_size v.dev key ≤ m →
      fbyte g v.dev (file_data g v.dev key) m = 0) ∧
    (g.is_ofs = true → file_size v.dev key < n → n ≤ ffs_data_count g v.dev key * g.payload ∨
      file_size v.dev key = ffs_data_count g v.dev key * g.payload)

/-- A read does not go over the end of the 32 bit positions, there is room for what is
written, and a file grows over zeros only. -/
def call_ok (g : Geom) (key : Nat) (v : Vol) : FileOp → Prop
  | .read pos len => pos.toNat + len.toNat < 2 ^ 32
  | .write pos bs _ => has_room g key v (pos.toNat + bs.length) ∧ grows_clean g key v pos.toNat
  | .set_size n _ => has_room g key v n.toNat ∧ grows_clean g key v n.toNat

instance (g : Geom) (d : BlockDev) (hs ds : List Nat) (n : Nat) : Decidable (RoomFor g d hs ds n) :=
  inferInstanceAs (Decidable (_ ∧ _))

instance (g : Geom) (key : Nat) (v : Vol) (n : Nat) : Decidable (has_room g key v n) :=
  inferInstanceAs (Decidable (_ ∧ (_ → RoomFor ..)))

instance (g : Geom) (key : Nat) (v : Vol) (n : Nat) : Decidable (grows_clean g key v n) :=
  inferInstanceAs (Decidable ((∀ m, m < _ → _ → _) ∧ (_ → _ → _ ∨ _)))

instance (g : Geom) (key : Nat) (v : Vol) : ∀ op, Decidable (call_ok g key v op)
  | .read _ _ => inferInstanceAs (Decidable (_ < _))
  | .write _ _ _ => inferInstanceAs (Decidable (has_room .. ∧ grows_clean ..))
  | .set_size _ _ => inferInstanceAs (Decidable (has_room .. ∧ grows_clean ..))

lemma FileOk.grows_clean (hc : ffs.grows_clean g key v n) : GrowsClean g v.dev ds size n := by
  obtain ⟨hz, hw⟩ := hc
  rw [h.count_eq, h.size_eq, h.data_eq] at hz
  rw [h.count_eq, h.size_eq] at hw
  exact ⟨fun m h1 h2 h3 => hz m (by omega) h1, hw⟩

lemma FileOk.has_room (hr : ffs.has_room g key v n) :
    n ≤ 18504 * g.payload ∧
      (ds.length < blocks_for g n → RoomFor g v.dev hs ds (blocks_for g n)) := by
  obtain ⟨hmax, hroom⟩ := hr
  rw [h.count_eq, h.tables_eq, h.data_eq] at hroom
  exact ⟨hmax, hroom⟩

end

/-! ## Lists of bytes -/

variable {b b' : Buf} {pos : Nat} {bs : List UInt8}

lemma getElem?_sized {k : Nat} :
    (sized (slice b 0 size) n)[k]? = if k < n then some (if k < size then b k else 0)
      else none := by
  rw [sized, slice_length]
  have hlen : ((slice b 0 size).take n).length = min n size := by rw [length_take, slice_length]
  by_cases h1 : k < min n size
  · rw [getElem?_append_left (by omega), getElem?_take, if_pos (by omega), getElem?_slice,
      if_pos (by omega), if_pos (by omega), if_pos (by omega), zero_add]
  · rw [getElem?_append_right (by omega), hlen, getElem?_replicate]
    by_cases h2 : k < n
    · rw [if_pos (by omega), if_pos h2, if_neg (by omega)]
    · rw [if_neg (by omega), if_neg h2]

/-- The bytes of a resized file. -/
lemma slice_sized (h : ∀ m, m < n → b' m = if m < size then b m else 0) :
    slice b' 0 n = sized (slice b 0 size) n := by
  refine ext_getElem? fun k => ?_
  rw [getElem?_slice, getElem?_sized, zero_add]
  split
  · rw [h k ‹_›]
  · rfl

/-- The bytes of a file after a write. -/
lemma slice_write (h : ∀ m, m < max size (pos + bs.length) →
      b' m = put (fun m => if m < size then b m else 0) pos bs m) :
    slice b' 0 (max size (pos + bs.length)) =
      (sized (slice b 0 size) (max size pos)).take pos ++ bs ++
        (sized (slice b 0 size) (max size pos)).drop (pos + bs.length) := by
  have hmax : max size (pos + bs.length) = max (max size pos) (pos + bs.length) := by omega
  have hold : ∀ m, m < max size pos → (fun m => if m < size then b m else 0) m =
    if m < size then b m else 0 := fun _ _ => rfl
  rw [← slice_sized hold, hmax]
  exact slice_put (le_max_right _ _) fun m hm => h m (by omega)

/-! ## The refinement -/

/-- Every call that `call_ok` allows does what the byte array does. -/
lemma file_step_spec {op : FileOp} (hs : FileFormed g key v) (hok : call_ok g key v op) :
    ∃ v' o, file_step g key v op = some (v', o) ∧
      byte_spec (file_bytes g key v) op o (file_bytes g key v') ∧ FileFormed g key v' := by
  have h : FileOk g v.dev key (file_tables g v.dev key) (file_data g v.dev key)
    (file_size v.dev key) := hs
  rw [h.file_bytes]
  cases op with
  | read pos len =>
    obtain ⟨e, hread, hcall⟩ := read_at_spec h hok
    refine ⟨v, _, by simp only [file_step, hread, hcall]; rfl, ⟨?_, h.file_bytes⟩, hs⟩
    rw [take_drop_slice]
  | write pos bs now =>
    obtain ⟨hroom, hclean⟩ := hok
    obtain ⟨hmax, hroom⟩ := h.has_room hroom
    obtain ⟨v', hs', ds', hcall, hF, hby⟩ :=
      write_at_spec h hmax (fun _ => h.grows_clean hclean) hroom now
    refine ⟨v', _, by simp only [file_step, hcall]; rfl, ⟨rfl, ?_⟩, hF.formed⟩
    rw [hF.file_bytes, slice_write hby, slice_length]
  | set_size n now =>
    obtain ⟨hroom, hclean⟩ := hok
    obtain ⟨hmax, hroom⟩ := h.has_room hroom
    obtain ⟨v', hs', ds', hcall, hF, _, hby⟩ :=
      set_file_size_spec h (h.grows_clean hclean) hmax hroom now
    refine ⟨v', _, by simp only [file_step, hcall], ⟨rfl, ?_⟩, hF.formed⟩
    rw [hF.file_bytes, slice_sized hby]

/-- Every run of calls in which the file grows over zeros only gives what the byte array
gives, and the content at its end is that of the array. -/
theorem a_file_is_a_byte_array (g : Geom) (key : Nat) (v : Vol) (ops : List FileOp)
    (hs : FileFormed g key v)
    (hok : RunOk (fun v op => (file_step g key v op).map Prod.fst) (call_ok g key) v ops) :
    ∃ v' os, runOut (file_step g key) v ops = some (v', os) ∧
      SpecRun byte_spec (file_bytes g key v) ops os (file_bytes g key v') := by
  obtain ⟨v', os, c, hrun, hspec, _, rfl⟩ := run_refines
    (R := fun v c => FileFormed g key v ∧ c = file_bytes g key v)
    (fun v c op hR hop => by
      obtain ⟨hs, rfl⟩ := hR
      obtain ⟨v', o, hcall, hspec, hs'⟩ := file_step_spec hs hop
      exact ⟨v', o, _, hcall, hspec, hs', rfl⟩) ⟨hs, rfl⟩ hok
  exact ⟨v', os, hrun, hspec⟩

/-! ## A small volume -/

/-- Ten blocks. The root is the block 5 and the bitmap the block 2. -/
def file_geom : Geom where
  is_ofs := false
  root_key := 5
  num_blocks := 10
  bitmap_valid := true

def noon : DateStamp := ⟨0, 720, 0⟩

/-- The header of a file of two bytes in the block 4. -/
def file_header : Buf :=
  blk_fix_checksum (blk_put32
    (blk_put32 (blk_put32 (blk_put32 (blk_put32 zeros FFS_LW_TYPE FFS_T_HEADER)
    FFS_LW_HIGH_SEQ 1) 77 4) FFS_LW_BYTE_SIZE 2) FFS_LW_SEC_TYPE SecType.file.code)

/-- A volume with a file of the bytes 1 and 2. Its header is the block 3. -/
def file_vol : Vol where
  dev :=
    { data := fun t =>
        if t = 2 then blk_put32 zeros 1 240
        else if t = 3 then file_header
        else if t = 4 then fun j => if j = 0 then 1 else if j = 1 then 2 else 0
        else if t = 5 then blk_put32 zeros FFS_LW_BM_PAGES 2
        else zeros
      num_sectors := 10
      part_offset := 0 }
  used_blocks := 4

lemma file_formed : FileFormed file_geom 3 file_vol := by
  have hbitmap : BitmapOk file_geom file_vol.dev :=
    ⟨by decide, by decide, by decide +kernel, by decide +kernel⟩
  have htables : Tables file_geom file_vol.dev [3] [4] := by
    refine ⟨by decide, by decide, by decide, by decide, ?_, ?_, ?_, ?_, ?_⟩
    · decide +kernel
    · intro i h0 hi
      rw [length_singleton] at hi
      omega
    · decide +kernel
    · decide +kernel
    · decide +kernel
  have hok : FileOk file_geom file_vol.dev 3 [3] [4] 2 := by
    refine ⟨⟨htables, ⟨hbitmap, by decide, by decide, by decide, by decide +kernel,
      by decide +kernel⟩, fun hf => ?_, by decide⟩, rfl,
      ⟨by decide +kernel, ⟨.file, by decide +kernel, by decide⟩, by decide +kernel⟩,
      show 1 * 512 < 2 + 512 by decide⟩
    cases hf
  exact hok.formed

/-- A byte is written behind the end, and the file is read. -/
def write_then_read : List FileOp := [.write 3 [7] noon, .read 0 4]

theorem a_gap_is_read_as_zero :
    ∃ v' os, runOut (file_step file_geom 3) file_vol write_then_read = some (v', os) ∧
      SpecRun byte_spec (file_bytes file_geom 3 file_vol) write_then_read os
        (file_bytes file_geom 3 v') :=
  a_file_is_a_byte_array file_geom 3 file_vol write_then_read file_formed (by decide +kernel)

/-- The file is cut to one byte and made two bytes long again. -/
def cut_and_grow : List FileOp := [.set_size 1 noon, .set_size 2 noon, .read 0 2]

/-- In the array, the byte that was cut off comes back as zero. -/
lemma spec_cut_and_grow {c c' : List UInt8} {os : List FileOut} (hlen : c.length = 2)
    (h : SpecRun byte_spec c cut_and_grow os c') :
    os = [.status 0, .status 0, .bytes (c.take 1 ++ [0])] := by
  rcases os with _ | ⟨o1, _ | ⟨o2, _ | ⟨o3, _ | ⟨o4, os⟩⟩⟩⟩
  case cons.cons.cons.nil =>
    obtain ⟨b1, ⟨h1, rfl⟩, b2, ⟨h2, rfl⟩, b3, ⟨h3, _⟩, _⟩ := h
    rw [h1, h2, h3]
    obtain ⟨x, y, rfl⟩ : ∃ x y, c = [x, y] := by
      rcases c with _ | ⟨x, _ | ⟨y, _ | ⟨z, rest⟩⟩⟩
      · cases hlen
      · cases hlen
      · exact ⟨x, y, rfl⟩
      · cases hlen
    rfl
  all_goals simp [SpecRun, cut_and_grow] at h

/-- The byte behind the end stays in the block and comes back when the file grows. -/
theorem a_byte_comes_back_after_a_cut :
    FileFormed file_geom 3 file_vol ∧
    (runOut (file_step file_geom 3) file_vol cut_and_grow).map Prod.snd =
      some [.status 0, .status 0, .bytes [1, 2]] ∧
    ∀ os c, SpecRun byte_spec (file_bytes file_geom 3 file_vol) cut_and_grow os c →
      os = [.status 0, .status 0, .bytes [1, 0]] := by
  refine ⟨file_formed, by decide +kernel, fun os c hspec => ?_⟩
  have hbytes : file_bytes file_geom 3 file_vol = [1, 2] := by decide +kernel
  rw [spec_cut_and_grow (by rw [hbytes]; rfl) hspec, hbytes]
  rfl

end uaos.ffs
