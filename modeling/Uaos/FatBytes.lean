-- An open FAT32 file as a byte array with a cursor: every run of reads, writes,
-- seeks and size changes that never writes with the cursor past the last cluster
-- gives the bytes, the counts and the content of the array. A chain that is freed
-- is counted right when it is sound.
import Uaos.FatWrite
import Uaos.Refine

namespace uaos.fat32

open List

variable {g : Geom} {v v' : Vol} {d : BlockDev} {f : Fat32File} {n i : Nat} {chain : List Nat}

/-! ## The chain of a file -/

/-- The clusters from `c` on, at most `k` of them. -/
def chain_from (g : Geom) (d : BlockDev) : Nat → Nat → List Nat
  | 0, _ => []
  | k + 1, c =>
    if c < 2 ∨ is_eoc c then [] else c :: chain_from g d k (fat32_get_fat_entry g d c)

/-- The clusters of a file. A volume of `total_clusters` has no longer chain. -/
def file_chain (g : Geom) (v : Vol) (f : Fat32File) : List Nat :=
  chain_from g v.bdev g.total_clusters f.start_cluster

lemma length_le_of_inRange (hr : ∀ c ∈ chain, InRange g c) (hn : chain.Nodup) :
    chain.length ≤ g.total_clusters := by
  have hsub : chain.toFinset ⊆ Finset.Ico 2 (g.total_clusters + 2) := by
    intro c hc
    exact Finset.mem_Ico.mpr (hr c (List.mem_toFinset.mp hc))
  have hcard := Finset.card_le_card hsub
  rw [toFinset_card_of_nodup hn, Nat.card_Ico] at hcard
  omega

lemma ChainOk.length_le (h : ChainOk g d chain) : chain.length ≤ g.total_clusters :=
  length_le_of_inRange h.range h.nodup

lemma chain_from_eq (hg : GeomOk g d.num_sectors) (h : ChainOk g d chain) {k : Nat}
    (hi : i < chain.length) (hk : chain.length ≤ i + k) :
    chain_from g d k (chain.getD i 0) = chain.drop i := by
  induction k generalizing i with
  | zero => omega
  | succ k ih =>
    have hr := h.inRange hi
    rw [chain_from, if_neg (hg.linked hr), get_fat_entry_eq hg hr, drop_eq_getElem_cons hi,
      getD_eq_getElem _ _ hi]
    refine congrArg _ ?_
    by_cases hlast : i + 1 = chain.length
    · rw [drop_of_length_le (by omega)]
      have heoc := h.last i hlast
      rw [getD_eq_getElem _ _ hi] at heoc
      cases k with
      | zero => rfl
      | succ k => rw [chain_from, if_pos (.inr heoc)]
    · have hlink := h.link i (by omega)
      rw [getD_eq_getElem _ _ hi] at hlink
      rw [hlink]
      exact ih (by omega) (by omega)

lemma HandleOk.file_chain (h : HandleOk g v f chain) : fat32.file_chain g v f = chain := by
  have hg := h.vol.geom
  have hle := h.vol.links.length_le
  unfold fat32.file_chain
  rw [h.start]
  cases hch : chain with
  | nil =>
    cases g.total_clusters with
    | zero => rfl
    | succ k => exact if_pos (.inl (by decide))
  | cons c rest =>
    have hpos : 0 < chain.length := by simp [hch]
    have := chain_from_eq hg h.vol.links hpos (k := g.total_clusters) (by omega)
    rwa [hch] at this

/-! ## The calls -/

/-- A call on the handle. -/
inductive FileOp where
  | read (len : UInt32)
  | write (bytes : List UInt8)
  | seek (pos : UInt32)
  | set_size (size : UInt32) (now : Stamp)

/-- What a call gives back. -/
inductive FileOut where
  | bytes (bs : List UInt8)
  | count (n : Nat)
  | done
  | status (rc : Int)
  deriving DecidableEq

/-- The volume and the open file. -/
structure OpenFile where
  vol : Vol
  file : Fat32File

def file_step (g : Geom) (s : OpenFile) : FileOp → Option (OpenFile × FileOut)
  | .read len =>
    (fat32_read g s.vol.bdev s.file len.toNat).map fun (f, bs) => ({ s with file := f }, .bytes bs)
  | .write bs => (fat32_write g s.vol s.file bs).map fun (v, f, n) => (⟨v, f⟩, .count n)
  | .seek pos => some ({ s with file := fat32_seek g s.vol.bdev s.file pos.toNat }, .done)
  | .set_size size now =>
    (fat32_set_file_size g s.vol s.file size.toNat now).map fun (v, f, rc) => (⟨v, f⟩, .status rc)

/-! ## The byte array -/

/-- A byte array with a cursor. -/
structure ByteFile where
  content : List UInt8
  pos : Nat

/-- What a call does to the byte array: the bytes behind the old end of a file that
is made longer can be any. -/
def byte_spec (b : ByteFile) : FileOp → FileOut → ByteFile → Prop
  | .read len, o, b' =>
    let bs := (b.content.drop b.pos).take len.toNat
    o = .bytes bs ∧ b' = { b with pos := b.pos + bs.length }
  | .write bs, o, b' =>
    o = .count bs.length ∧
      b' = ⟨b.content.take b.pos ++ bs ++ b.content.drop (b.pos + bs.length), b.pos + bs.length⟩
  | .seek pos, o, b' => o = .done ∧ b' = { b with pos := pos.toNat }
  | .set_size size _, o, b' =>
    o = .status 0 ∧ ∃ pad : List UInt8, pad.length = size.toNat - b.content.length ∧
      b' = ⟨b.content.take size.toNat ++ pad, min b.pos size.toNat⟩

/-- The byte array that the open file stands for. -/
def byte_file (g : Geom) (s : OpenFile) : ByteFile where
  content := slice (fbyte g s.vol.bdev (file_chain g s.vol s.file)) 0 s.file.size
  pos := s.file.pos

/-- There are clusters for the bytes up to `n`. -/
def RoomFor (g : Geom) (s : OpenFile) (n : Nat) : Prop :=
  n ≤ ((file_chain g s.vol s.file).length + free_count g s.vol.bdev) * g.cluster_size

/-- A seek goes to a byte of the file or its end, and what is to be written has room
on the volume and starts in a cluster of the file. -/
def call_ok (g : Geom) (s : OpenFile) : FileOp → Prop
  | .read _ => True
  | .write bs =>
    s.file.pos + bs.length < 2 ^ 32 ∧ RoomFor g s (s.file.pos + bs.length) ∧
      (bs ≠ [] → ¬ PastEnd g s.file (file_chain g s.vol s.file))
  | .seek pos => pos.toNat ≤ s.file.size
  | .set_size size _ =>
    s.file.size < size.toNat → RoomFor g s size.toNat ∧ (s.file.start_cluster ≠ 0 →
      s.file.size ≠ (file_chain g s.vol s.file).length * g.cluster_size)

instance (g : Geom) (f : Fat32File) (chain : List Nat) : Decidable (PastEnd g f chain) :=
  inferInstanceAs (Decidable (_ ∧ _ ∧ _))

instance (g : Geom) (s : OpenFile) (n : Nat) : Decidable (RoomFor g s n) :=
  inferInstanceAs (Decidable (_ ≤ _))

instance (g : Geom) (s : OpenFile) : ∀ op, Decidable (call_ok g s op)
  | .read _ => isTrue trivial
  | .write bs =>
    inferInstanceAs (Decidable (_ < _ ∧ RoomFor g s _ ∧ (bs ≠ [] → ¬ PastEnd g _ _)))
  | .seek _ => inferInstanceAs (Decidable (_ ≤ _))
  | .set_size _ _ => inferInstanceAs (Decidable (_ < _ → RoomFor g s _ ∧ (_ ≠ _ → _ ≠ _)))

/-- The handle, the chain that it names and the volume agree. -/
def OpenOk (g : Geom) (s : OpenFile) : Prop :=
  FileOk g s.vol s.file (file_chain g s.vol s.file)

lemma FileOk.openOk (h : FileOk g v f chain) : OpenOk g ⟨v, f⟩ := by
  have hch : file_chain g v f = chain := h.toHandleOk.file_chain
  unfold OpenOk
  rwa [hch]

lemma FileOk.byte_file (h : FileOk g v f chain) :
    fat32.byte_file g ⟨v, f⟩ = ⟨slice (fbyte g v.bdev chain) 0 f.size, f.pos⟩ := by
  have hch : file_chain g v f = chain := h.toHandleOk.file_chain
  unfold fat32.byte_file
  rw [hch]

/-! ## The refinement -/

/-- Every call that `call_ok` allows does what the byte array does. -/
lemma file_step_spec {s : OpenFile} {op : FileOp} (hs : OpenOk g s) (hok : call_ok g s op) :
    ∃ s' o, file_step g s op = some (s', o) ∧ byte_spec (byte_file g s) op o (byte_file g s') ∧
      OpenOk g s' := by
  obtain ⟨v, f⟩ := s
  have h : FileOk g v f (file_chain g v f) := hs
  rw [h.byte_file]
  unfold call_ok RoomFor at hok
  generalize file_chain g v f = chain at *
  cases op with
  | read len =>
    obtain ⟨f', hcall, hm, h'⟩ := read_spec h len.toNat
    refine ⟨⟨v, f'⟩, _, by simp only [file_step, hcall]; rfl, ⟨?_, ?_⟩, h'.openOk⟩
    · rw [take_drop_slice]
    · rw [h'.byte_file, take_drop_slice, slice_length, hm.size, hm.pos]
  | write bs =>
    obtain ⟨hw, hroom, hnot⟩ := hok
    obtain ⟨v', f', chain', hcall, hF⟩ := write_spec h bs hw hroom hnot
    refine ⟨⟨v', f'⟩, _, by simp only [file_step, hcall]; rfl, ⟨rfl, ?_⟩, hF.ok.openOk⟩
    rw [hF.ok.byte_file, hF.size, hF.pos]
    refine congrArg (ByteFile.mk · _) (slice_put h.pos_le ?_)
    intro m hm
    have := h.fits
    exact hF.bytes m (by have := h.pos_le; omega)
  | seek pos =>
    obtain ⟨h', hpos, hsize⟩ := seek_spec h.toHandleOk hok
    refine ⟨_, _, rfl, ⟨rfl, ?_⟩, h'.openOk⟩
    rw [h'.byte_file, hpos, hsize]
  | set_size size now =>
    have hroom : size.toNat ≤ (chain.length + free_count g v.bdev) * g.cluster_size ∨
        size.toNat ≤ f.size := by
      by_cases hgrow : f.size < size.toNat
      · exact .inl (hok hgrow).1
      · exact .inr (by omega)
    obtain ⟨v', f', chain', hcall, h', hsize, hpos, hbytes⟩ :=
      set_file_size_spec h size.toNat_lt hroom (fun hgrow => (hok hgrow).2) now
    refine ⟨⟨v', f'⟩, _, by simp only [file_step, hcall]; rfl, ⟨rfl, ?_⟩, h'.openOk⟩
    refine ⟨slice (fbyte g v'.bdev chain') f.size (size.toNat - f.size), by simp, ?_⟩
    rw [h'.byte_file, hsize, hpos]
    refine congrArg (ByteFile.mk · _) ?_
    have htake : (slice (fbyte g v.bdev chain) 0 f.size).take size.toNat =
        slice (fbyte g v'.bdev chain') 0 (min f.size size.toNat) := by
      rw [← drop_zero (l := slice _ _ _), take_drop_slice, Nat.sub_zero, min_comm]
      refine slice_congr fun k hk => (hbytes _ ?_).symm
      omega
    rw [htake]
    by_cases hgrow : f.size < size.toNat
    · have hsplit : size.toNat = f.size + (size.toNat - f.size) := by omega
      rw [min_eq_left (le_of_lt hgrow)]
      conv_lhs => rw [hsplit]
      rw [slice_append, zero_add]
    · rw [min_eq_right (Nat.not_lt.mp hgrow), Nat.sub_eq_zero_of_le (Nat.not_lt.mp hgrow)]
      simp [slice]

/-- Every run of calls that starts its writes in a cluster of the file gives what the
byte array gives, and the content at its end is that of the array. -/
theorem an_open_file_is_a_byte_array (g : Geom) (s : OpenFile) (ops : List FileOp)
    (hs : OpenOk g s)
    (hok : RunOk (fun s op => (file_step g s op).map Prod.fst) (call_ok g) s ops) :
    ∃ s' os, runOut (file_step g) s ops = some (s', os) ∧
      SpecRun byte_spec (byte_file g s) ops os (byte_file g s') := by
  obtain ⟨s', os, b', hrun, hspec, _, rfl⟩ :=
    run_refines (R := fun s b => OpenOk g s ∧ b = byte_file g s)
    (fun s b op hR hop => by
      obtain ⟨hs, rfl⟩ := hR
      obtain ⟨s', o, hcall, hspec, hs'⟩ := file_step_spec hs hop
      exact ⟨s', o, _, hcall, hspec, hs', rfl⟩) ⟨hs, rfl⟩ hok
  exact ⟨s', os, hrun, hspec⟩

/-! ## A small volume -/

/-- Four clusters of one sector. The root has cluster 2 and a file cluster 3. -/
def small_geom : Geom where
  fat_sz32 := 1
  num_fats := 1
  fs_info := 0
  fat_start := 1
  data_start := 2
  root_cluster := 2
  sec_per_clus := 1
  cluster_size := 512
  total_clusters := 4

/-- The first four FAT entries are ends of chains, and the file is full of sevens. -/
def small_vol : Vol where
  bdev :=
    { data := fun t j =>
        if t = 1 ∧ j < 16 then (if j % 4 = 3 then 0x0F else 0xFF) else if t = 3 then 7 else 0
      num_sectors := 6
      part_offset := 0 }
  free_clusters := 2
  fsinfo_stale := false
  dir_buf_cluster := 0

/-- The file of the small volume, just opened. -/
def small_file (size : Nat) : Fat32File where
  start_cluster := 3
  cluster := 3
  offset := 0
  pos := 0
  size := size
  is_dir := false
  in_use := true
  dir_sector := 2
  dir_offset := 0
  iter_cluster := 0
  iter_offset := 0
  parent_cluster := 2

lemma small_geom_ok : GeomOk small_geom 6 := by
  constructor <;> decide

lemma small_open_ok (hn : n ≤ 512) : OpenOk small_geom ⟨small_vol, small_file n⟩ := by
  have hlinks : ChainOk small_geom small_vol.bdev [3] :=
    .one (by simp [InRange, small_geom]) (by decide +kernel)
  have hslot : SlotOk small_geom small_vol.bdev [3] 2 := by
    refine .inr ⟨by simp [InFat, small_geom], ?_⟩
    rintro c hc hor hin
    obtain rfl : c = 2 := by
      simp only [InClus, sector_of, InRange, small_geom] at hin hc
      omega
    rcases hor with hm | h0
    · cases mem_singleton.mp hm
    · revert h0
      decide +kernel
  have hhandle : HandleOk small_geom small_vol (small_file n) [3] :=
    ⟨⟨small_geom_ok, hlinks, hslot⟩, rfl, rfl, by simpa [small_file, small_geom] using hn, by
      dsimp only [small_file]
      omega⟩
  have hat : At small_geom (small_file n) [3] 0 := ⟨by decide, rfl, Nat.zero_le _, rfl⟩
  exact FileOk.openOk ⟨hhandle, Nat.zero_le _, .inr (.inl ⟨0, hat⟩)⟩

/-- A write over the end of the first cluster, read back. -/
theorem a_write_over_two_clusters :
    ∃ s' os, runOut (file_step small_geom) ⟨small_vol, small_file 500⟩
        [.seek 500, .write (List.replicate 13 9), .seek 511, .read 2] = some (s', os) ∧
      SpecRun byte_spec (byte_file small_geom ⟨small_vol, small_file 500⟩)
        [.seek 500, .write (List.replicate 13 9), .seek 511, .read 2] os
        (byte_file small_geom s') :=
  an_open_file_is_a_byte_array small_geom ⟨small_vol, small_file 500⟩ _ (small_open_ok (by decide))
    (by decide +kernel)

/-- In the array, a byte written at the end leaves the first one. -/
lemma spec_write_at_end {b c : ByteFile} {os : List FileOut} (hlen : b.content.length = 512)
    (h : SpecRun byte_spec b [.seek 512, .write [9], .seek 0, .read 1] os c) :
    os = [.done, .count 1, .done, .bytes (b.content.take 1)] := by
  obtain ⟨content, pos⟩ := b
  rcases os with _ | ⟨o1, _ | ⟨o2, _ | ⟨o3, _ | ⟨o4, _ | ⟨o5, os⟩⟩⟩⟩⟩
  case cons.cons.cons.cons.nil =>
    obtain ⟨b1, ⟨h1, rfl⟩, b2, ⟨h2, rfl⟩, b3, ⟨h3, rfl⟩, b4, ⟨h4, _⟩, _⟩ := h
    rw [h1, h2, h3, h4]
    cases content with
    | nil => cases hlen
    | cons x rest => simp
  all_goals simp [SpecRun] at h

/-- A file that ends with its only cluster is full: after a seek to its end the write
goes over its first byte. -/
theorem a_write_at_the_end_goes_to_the_start :
    OpenOk small_geom ⟨small_vol, small_file 512⟩ ∧
    RoomFor small_geom ⟨small_vol, small_file 512⟩ 513 ∧
    (runOut (file_step small_geom) ⟨small_vol, small_file 512⟩
      [.seek 512, .write [9], .seek 0, .read 1]).map Prod.snd =
        some [.done, .count 1, .done, .bytes [9]] ∧
    ∀ os b, SpecRun byte_spec (byte_file small_geom ⟨small_vol, small_file 512⟩)
      [.seek 512, .write [9], .seek 0, .read 1] os b →
        os = [.done, .count 1, .done, .bytes [7]] := by
  refine ⟨small_open_ok (by decide), by decide +kernel, by decide +kernel, ?_⟩
  intro os b hspec
  have hfirst : (byte_file small_geom ⟨small_vol, small_file 512⟩).content.take 1 = [7] := by
    decide +kernel
  rw [spec_write_at_end slice_length hspec, hfirst]

/-! ## Freeing a chain -/

/-- A walk ends at this value of a link. -/
def Ends (e : Nat) : Prop := e < 2 ∨ is_eoc e = true

instance (e : Nat) : Decidable (Ends e) := inferInstanceAs (Decidable (_ ∨ _ = true))

/-- The links from `c` on pass the clusters `chain` of the volume, all of them in use and
none of them twice. Then there is an end mark, or `e` is a free cluster or one of the
`chain` again. -/
structure Course (g : Geom) (d : BlockDev) (c : Nat) (chain : List Nat) (e : Nat) : Prop where
  path : uaos.chain.Path id (fat g d) c chain e
  used : ∀ x ∈ chain, InRange g x ∧ fat g d x ≠ 0
  nodup : chain.Nodup
  stop : Ends e ∨ InRange g e ∧ (fat g d e = 0 ∨ e ∈ chain)

/-- The entries of `chain` were cleared and no others, and each was counted. -/
structure Freed (g : Geom) (v v' : Vol) (chain : List Nat) : Prop where
  dev : Touches (fun t => InFat g t ∨ FsInfo g t) v.bdev v'.bdev
  entry : ∀ x, x < g.fat_sz32 * ENTS_PER_SEC →
    fat g v'.bdev x = if x ∈ chain then 0 else fat g v.bdev x
  count : v'.free_clusters = v.free_clusters + chain.length

/-- The count after `k` turns of the loop. It stays unknown, and it stops at the number of
clusters. -/
def counted (g : Geom) (n : Int) (k : Nat) : Int :=
  if n < 0 then n else max n (min (n + k) (to_i32 g.total_clusters))

/-- The count is right after a walk along `chain` to `e`. -/
def Counts (g : Geom) (n : Int) (chain : List Nat) (e : Nat) : Prop :=
  if Ends e then chain = [] ∨ 0 ≤ n ∧ n + chain.length ≤ to_i32 g.total_clusters
  else chain = [] ∧ (n < 0 ∨ to_i32 g.total_clusters ≤ n) ∨
    0 ≤ n ∧ n + chain.length = to_i32 g.total_clusters

instance (g : Geom) (n : Int) (chain : List Nat) (e : Nat) : Decidable (Counts g n chain e) := by
  unfold Counts
  infer_instance

variable {c e : Nat}

lemma counted_succ (n : Int) (k : Nat) :
    counted g (if 0 ≤ n ∧ n < to_i32 g.total_clusters then n + 1 else n) k =
      counted g n (k + 1) := by
  unfold counted
  split_ifs <;> omega

/-- One turn of the loop at a cluster of the volume. -/
lemma free_chain_loop_step (hg : GeomOk g v.bdev.num_sectors) (hr : InRange g c) (guard : Nat) :
    ∃ v1, free_chain_loop g (guard + 1) v c = free_chain_loop g guard v1 (fat g v.bdev c) ∧
      GeomOk g v1.bdev.num_sectors ∧ Touches (fun t => InFat g t ∨ FsInfo g t) v.bdev v1.bdev ∧
      (∀ x, x < g.fat_sz32 * ENTS_PER_SEC → fat g v1.bdev x = if x = c then 0 else fat g v.bdev x) ∧
      ∀ k, counted g v1.free_clusters k = counted g v.free_clusters (k + 1) := by
  obtain ⟨v1, hset, hw, hfat⟩ := set_fat_entry_spec hg hr 0
  rw [free_chain_loop, if_neg (hg.linked hr), get_fat_entry_eq hg hr, hset]
  dsimp only
  have hdev := hw.dev.mono fun t ht => (.inl ht : InFat g t ∨ FsInfo g t)
  refine ⟨_, rfl, ?_, ?_, ?_, fun k => ?_⟩
  · split
    · exact hw.geom hg
    · exact hw.geom hg
  · split
    · exact hdev
    · exact hdev
  · split
    · exact hfat
    · exact hfat
  · rw [apply_ite Vol.free_clusters, hw.free, counted_succ]

lemma free_chain_loop_spec {guard : Nat} (hg : GeomOk g v.bdev.num_sectors)
    (h : Course g v.bdev c chain e) (hguard : chain.length + 1 < guard) :
    ∃ v', free_chain_loop g guard v c = v' ∧
      Touches (fun t => InFat g t ∨ FsInfo g t) v.bdev v'.bdev ∧
      (∀ x, x < g.fat_sz32 * ENTS_PER_SEC →
        fat g v'.bdev x = if x ∈ chain then 0 else fat g v.bdev x) ∧
      v'.free_clusters = counted g v.free_clusters (chain.length + if Ends e then 0 else 1) := by
  have hstop : ∀ (v : Vol) (guard e : Nat), Ends e → free_chain_loop g guard v e = v := by
    intro v guard e he
    cases guard with
    | zero => rfl
    | succ guard => exact if_pos he
  have hsame : ∀ n, counted g n 0 = n := by
    intro n
    unfold counted
    split <;> push_cast <;> omega
  induction chain generalizing v c guard with
  | nil =>
    obtain rfl : c = e := h.path
    by_cases he : Ends c
    · refine ⟨v, hstop v guard c he, Touches.refl _ _, by simp, ?_⟩
      rw [if_pos he, length_nil, hsame]
    -- a free cluster is cleared and counted, and the walk ends there
    obtain ⟨hr, h0 | hc⟩ := h.stop.resolve_left he
    · obtain ⟨guard, rfl⟩ := Nat.exists_eq_add_of_le' (Nat.le_of_add_left_le hguard.le)
      obtain ⟨v1, hcall, -, hdev, hfat, hcount⟩ := free_chain_loop_step hg hr guard
      rw [hcall, h0, hstop v1 guard 0 (.inl (by decide))]
      refine ⟨v1, rfl, hdev, fun x hx => ?_, ?_⟩
      · rw [hfat x hx, if_neg not_mem_nil]
        split
        · rename_i hxc
          rw [hxc, h0]
        · rfl
      · rw [if_neg he, length_nil, ← hcount, hsame]
    · exact absurd hc not_mem_nil
  | cons y rest ih =>
    obtain ⟨rfl, hpath⟩ := h.path
    obtain ⟨⟨hr, hne0⟩, hused⟩ := forall_mem_cons.mp h.used
    obtain ⟨hnot, hnd⟩ := nodup_cons.mp h.nodup
    rw [length_cons] at hguard
    obtain ⟨guard, rfl⟩ := Nat.exists_eq_add_of_le' (Nat.le_of_add_left_le hguard.le)
    obtain ⟨v1, hcall, hg1, hdev1, hfat, hcount⟩ := free_chain_loop_step hg hr guard
    have hkeep : ∀ x ∈ rest, fat g v1.bdev x = fat g v.bdev x := by
      intro x hx
      have hne : x ≠ c := fun he => hnot (he ▸ hx)
      rw [hfat x (hg.entry_lt (hused x hx).1), if_neg hne]
    have hrest : Course g v1.bdev (fat g v.bdev c) rest e := by
      refine ⟨hpath.congr hkeep, fun x hx => hkeep x hx ▸ hused x hx, hnd, h.stop.imp_right ?_⟩
      rintro ⟨hre, h0⟩
      refine ⟨hre, ?_⟩
      rw [hfat e (hg.entry_lt hre)]
      rcases h0 with h0 | h0
      · exact .inl (by rw [h0, ite_self])
      · exact (mem_cons.mp h0).imp_left fun hec => if_pos hec
    obtain ⟨v', hcall', hdev, hentry, hn⟩ := ih hg1 hrest (show rest.length + 1 < guard by omega)
    refine ⟨v', hcall.trans hcall', hdev1.trans hdev, fun x hx => ?_, ?_⟩
    · rw [hentry x hx, hfat x hx]
      by_cases hxr : x ∈ rest <;> by_cases hxc : x = c <;> simp [hxr, hxc]
    · rw [hn, hcount, length_cons, Nat.add_right_comm]

/-- A walk over clusters of the volume clears the entries of its chain. They are counted
right for exactly the counts that `Counts` names. -/
theorem a_sound_chain_is_freed_and_counted (g : Geom) (v : Vol) (c e : Nat) (chain : List Nat)
    (hg : GeomOk g v.bdev.num_sectors) (h : Course g v.bdev c chain e) :
    Freed g v (fat32_free_chain g v c) chain ↔ Counts g v.free_clusters chain e := by
  have hguard : chain.length + 1 < u32 (g.total_clusters + 2) := by
    have hlen := length_le_of_inRange (fun x hx => (h.used x hx).1) h.nodup
    rw [u32_of_lt (hg.few.trans_lt (by decide))]
    omega
  obtain ⟨v1, hv1, hw⟩ : ∃ v1, (if 2 ≤ c then fat32_fsinfo_invalidate g v else v) = v1 ∧
      Writes (FsInfo g) v v1 := by
    refine ⟨_, rfl, ?_⟩
    split
    · exact fsinfo_spec g v
    · exact Writes.refl _ v
  -- the mark on the FSINFO sector is not seen in the FAT
  have hfat : ∀ x, x < g.fat_sz32 * ENTS_PER_SEC → fat g v1.bdev x = fat g v.bdev x :=
    fun x hx => fat_congr hg hw.dev (fun t ht => fsInfo_not_inFat ht) hx
  have hch : ∀ x ∈ chain, fat g v1.bdev x = fat g v.bdev x :=
    fun x hx => hfat x (hg.entry_lt (h.used x hx).1)
  have hcourse : Course g v1.bdev c chain e := by
    refine ⟨h.path.congr hch, fun x hx => hch x hx ▸ h.used x hx, h.nodup, h.stop.imp_right ?_⟩
    rintro ⟨hre, h0⟩
    exact ⟨hre, by rwa [hfat e (hg.entry_lt hre)]⟩
  obtain ⟨v', hcall, hdev, hentry, hcount⟩ := free_chain_loop_spec (hw.geom hg) hcourse hguard
  rw [fat32_free_chain, hv1, hcall]
  rw [hw.free] at hcount
  have hcounts : v'.free_clusters = v.free_clusters + chain.length ↔
    Counts g v.free_clusters chain e := by
    rw [hcount, counted, Counts, ← length_eq_zero_iff]
    split <;> split <;> push_cast <;> omega
  refine ⟨fun hf => hcounts.mp hf.count,
    fun hc => ⟨(hw.dev.mono fun t ht => .inr ht).trans hdev, ?_,
    hcounts.mpr hc⟩⟩
  intro x hx
  rw [hentry x hx, hfat x hx]

/-- Cluster 2 links to cluster 3, whose link is given. -/
def pair_vol (link : Nat) : Vol :=
  { small_vol with
    bdev := { small_vol.bdev with
      data := fun t j =>
        if t = 1 ∧ j = 8 then 3
        else if t = 1 ∧ 12 ≤ j ∧ j < 16 then (le32_bytes link).getD (j - 12) 0
        else 0 }
    free_clusters := 0 }

/-- A file of two clusters is freed. -/
theorem a_file_is_freed :
    Freed small_geom (pair_vol FAT32_EOC) (fat32_free_chain small_geom (pair_vol FAT32_EOC) 2)
      [2, 3] := by
  refine (a_sound_chain_is_freed_and_counted small_geom (pair_vol FAT32_EOC) 2 FAT32_EOC [2, 3]
    small_geom_ok ⟨⟨rfl, ?_⟩, by decide +kernel, by decide, .inl (.inr rfl)⟩).mpr (by decide)
  rw [uaos.chain.path_cons, uaos.chain.path_nil]
  decide +kernel

/-- When the two clusters link to each other, the first is met again, and counted again. -/
theorem a_loop_of_two_is_counted_as_three :
    (∀ x, x < 128 → (fat small_geom (pair_vol 2).bdev x ≠ 0 ↔ x = 2 ∨ x = 3)) ∧
    (pair_vol 2).free_clusters = 0 ∧
    (fat32_free_chain small_geom (pair_vol 2) 2).free_clusters = 3 := by
  decide +kernel

end uaos.fat32
