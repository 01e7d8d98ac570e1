-- What FAT32_Write leaves alone: it writes the FAT, the FSINFO sector and the clusters of
-- its own file, so the other files and directories stay as they are. The cached cluster
-- number of the handle has to be one of the file, and an end-of-chain marker is none.
import Uaos.FatBytes
import Uaos.FatWalk

namespace uaos.fat32

open List

variable {g : Geom} {v v' : Vol} {d d' : BlockDev} {f f' : Fat32File} {n c t i : Nat}
variable {chain chain' other : List Nat}

/-! ## The area of a file -/

/-- The sectors of the FATs, the FSINFO sector, and the sectors of the clusters in
`chain`. -/
def FileArea (g : Geom) (chain : List Nat) (t : Nat) : Prop :=
  InFat g t ∨ FsInfo g t ∨ ∃ c ∈ chain, InClus g c t

/-- The chain may have got free clusters, only its area was written, and the entries of all
other clusters are the same. -/
structure Framed (g : Geom) (v : Vol) (chain : List Nat) (v' : Vol) (chain' : List Nat) : Prop where
  vol : FileVol g v' chain' 0
  more : chain <+: chain'
  dev : Touches (FileArea g chain') v.bdev v'.bdev
  entry : ∀ x, InRange g x → x ∉ chain' → fat g v'.bdev x = fat g v.bdev x
  fresh : ∀ x ∈ chain', x ∉ chain → fat g v.bdev x = 0

lemma Framed.refl (h : FileVol g v chain 0) : Framed g v chain v chain :=
  ⟨h, List.prefix_refl _, Touches.refl _ _, fun _ _ _ => rfl, fun _ hx hn => absurd hx hn⟩

lemma fileArea_mono (h : chain <+: chain') (ht : FileArea g chain t) : FileArea g chain' t := by
  rcases ht with ht | ht | ⟨c, hc, ht⟩
  · exact .inl ht
  · exact .inr (.inl ht)
  · exact .inr (.inr ⟨c, h.subset hc, ht⟩)

lemma Framed.trans {v'' : Vol} {chain'' : List Nat} (h : Framed g v chain v' chain')
    (h' : Framed g v' chain' v'' chain'') : Framed g v chain v'' chain'' := by
  refine ⟨h'.vol, h.more.trans h'.more,
    (h.dev.mono fun t ht => fileArea_mono h'.more ht).trans h'.dev,
    ?_, ?_⟩
  · intro x hr hx
    rw [h'.entry x hr hx, h.entry x hr fun hm => hx (h'.more.subset hm)]
  intro x hx hn
  by_cases hm : x ∈ chain'
  · exact h.fresh x hm hn
  · rw [← h.entry x (h'.vol.links.range x hx) hm]
    exact h'.fresh x hx hm

/-- A write into one cluster of the chain. -/
lemma Framed.write_cluster (h : FileVol g v chain 0) (hc : c ∈ chain)
    (hw : Writes (InClus g c) v v') : Framed g v chain v' chain := by
  obtain ⟨i, hi, rfl⟩ := getElem_of_mem hc
  rw [← getD_eq_getElem chain 0 hi] at hw hc
  refine ⟨h.write_cluster hi hw, List.prefix_refl _, ?_, ?_, fun x hx hn => absurd hx hn⟩
  · exact hw.dev.mono fun t ht => .inr (.inr ⟨_, hc, ht⟩)
  · intro x hr _
    exact fat_congr h.geom hw.dev (fun t ht => inClus_not_inFat (h.links.inRange hi) ht)
      (h.geom.entry_lt hr)

lemma allocArea_fileArea (hc : c ∈ chain) (ht : AllocArea g c t) : FileArea g chain t := by
  rcases ht with ht | ht | ht
  · exact .inl ht
  · exact .inr (.inr ⟨c, hc, ht⟩)
  · exact .inr (.inl ht)

lemma Framed.extend (h : FileVol g v chain 0) (hi : i + 1 = chain.length)
    (he : Extended g v v' (chain.getD i 0) c) : Framed g v chain v' (chain ++ [c]) := by
  have hmem : c ∈ chain ++ [c] := mem_append_right _ (mem_singleton_self c)
  refine ⟨(h.extend hi he).1, List.prefix_append _ _,
    he.dev.mono fun t ht => allocArea_fileArea hmem ht, ?_, ?_⟩
  · intro x hr hx
    have hxc : x ≠ c := fun hc => hx (hc ▸ hmem)
    have hxl : x ≠ chain.getD i 0 := fun hc =>
      hx (mem_append_left _ (hc ▸ getD_mem (by omega)))
    rw [he.entry x (h.geom.entry_lt hr), if_neg hxc, if_neg hxl]
  · intro x hx hn
    rcases mem_append.mp hx with hx | hx
    · exact absurd hx hn
    · exact mem_singleton.mp hx ▸ he.free

lemma Framed.first (h : FileVol g v [] 0) (ha : Allocated g v v' c) : Framed g v [] v' [c] := by
  refine ⟨⟨ha.geom h.geom, ha.one h.geom, .inl rfl⟩, List.nil_prefix,
    ha.dev.mono fun t ht => allocArea_fileArea (mem_singleton_self c) ht, ?_, ?_⟩
  · intro x hr hx
    rw [ha.entry x (h.geom.entry_lt hr), if_neg fun hc => hx (mem_singleton.mpr hc)]
  · intro x hx _
    exact mem_singleton.mp hx ▸ ha.free

/-! ## Where the handle points -/

/-- The handle points into the chain, or behind an end of it. -/
def Placed (g : Geom) (f : Fat32File) (chain : List Nat) : Prop :=
  f.cluster ∈ chain ∧ f.offset ≤ g.cluster_size ∨
    (f.cluster < 2 ∨ is_eoc f.cluster = true) ∧ f.offset = 0

lemma ChainOk.next (h : ChainOk g d chain) (hc : c ∈ chain) :
    fat g d c ∈ chain ∨ is_eoc (fat g d c) = true ∧ chain.getD (chain.length - 1) 0 = c := by
  obtain ⟨i, hi, rfl⟩ := getElem_of_mem hc
  rw [← getD_eq_getElem chain 0 hi]
  by_cases hlast : i + 1 = chain.length
  · refine .inr ⟨h.last i hlast, ?_⟩
    rw [← hlast, Nat.add_sub_cancel]
  · rw [h.link i (by omega)]
    exact .inl (getD_mem (by omega))

/-! ## Writing -/

/-- A write makes the chain of its file longer, and else keeps to it. -/
lemma framed_keeps (g : Geom) : Keeps g (fun chain c => c ∈ chain) (Framed g) where
  here h := Framed.refl h.vol
  trans := Framed.trans
  trail h := ⟨h.vol.geom, h.vol.links.range, fun c hc =>
    (h.vol.links.next hc).imp_right fun he => .inr he.1⟩
  write {v chain c} h hc buf := by
    obtain ⟨v', hcall, hw, -⟩ := write_cluster_spec h.vol.geom (h.vol.links.range c hc) buf
    exact ⟨v', hcall, Framed.write_cluster h.vol hc hw⟩
  extend {v chain c} h hc hend := by
    have hlinks := h.vol.links
    rcases hlinks.next hc with hnext | ⟨-, hlast⟩
    · have hr := hlinks.range _ hnext
      rw [h.vol.geom.not_eoc hr] at hend
      have := hr.1
      have := hend.resolve_left Bool.false_ne_true
      omega
    rcases extend_chain_spec h.vol.geom (hlinks.range c hc) with
      ⟨hnone, _⟩ | ⟨v', c', hcall, he⟩
    · exact .inl hnone
    have hpos : 0 < chain.length := length_pos_of_mem hc
    rw [← hlast] at he
    exact .inr ⟨v', c', _, hcall, Framed.extend h.vol (by omega) he,
      mem_append_right _ (mem_singleton_self c')⟩

/-- The handle, the chain that it starts and the volume agree, wherever the handle stands
and whatever its size is. -/
structure Owns (g : Geom) (v : Vol) (f : Fat32File) (chain : List Nat) : Prop where
  vol : FileVol g v chain 0
  start : f.start_cluster = chain.headD 0
  is_file : f.is_dir = false
  place : Placed g f chain

section

variable (h : Owns g v f chain)

include h

/-- The size and the entry are not looked at. -/
lemma Owns.handleOk : HandleOk g v { f with size := 0, dir_sector := 0 } chain :=
  ⟨h.vol, h.start, h.is_file, Nat.zero_le _, Nat.two_pow_pos 32⟩

lemma Owns.start_zero : f.start_cluster = 0 ↔ chain = [] := h.handleOk.start_zero

lemma read_owns (len : Nat) :
    ∃ f' bs, fat32_read g v.bdev f len = some (f', bs) ∧ Owns g v f' chain := by
  obtain ⟨c, o, p, bs, hcall, hp⟩ :=
    ((framed_keeps g).trail (Framed.refl h.vol)).read h.place h.is_file len
  exact ⟨_, bs, hcall, h.vol, h.start, h.is_file, hp⟩

lemma seek_owns (pos : Nat) : Owns g v (fat32_seek g v.bdev f pos) chain := by
  unfold fat32_seek
  split
  · rename_i hgo
    simp only [Bool.and_eq_true, decide_eq_true_eq] at hgo
    have hne : chain ≠ [] := by
      intro h0
      have := h.start_zero.mpr h0
      omega
    have hlen : 0 < chain.length := length_pos_of_ne_nil hne
    have hstart : f.start_cluster = chain.getD 0 0 := by
      rw [h.start]
      cases chain with
      | nil => exact absurd rfl hne
      | cons c rest => rfl
    refine ⟨h.vol, h.start, h.is_file, .inl ⟨?_, ?_⟩⟩
    · dsimp only
      rw [hstart, seek_walk_spec h.vol.geom h.vol.links hlen]
      exact getD_mem (by omega)
    · exact le_of_lt (Nat.mod_lt _ h.vol.geom.size_pos)
  · exact ⟨h.vol, h.start, h.is_file, h.place⟩

/-- A write whose handle does not hold an end-of-chain marker keeps to its file. -/
lemma write_framed {bs : List UInt8}
    (hgo : bs ≠ [] → f.start_cluster ≠ 0 → is_eoc f.cluster = false) :
    ∃ v' f' k chain', fat32_write g v f bs = some (v', f', k) ∧ Framed g v chain v' chain' ∧
      Owns g v' f' chain' := by
  have hg := h.vol.geom
  unfold fat32_write
  rw [if_neg (ne_true_of_eq_false h.is_file)]
  by_cases hstart : f.start_cluster = 0
  · rw [if_pos hstart]
    obtain rfl := h.start_zero.mp hstart
    rcases alloc_cluster_spec hg with ⟨hnone, _⟩ | ⟨v1, c, hcall, ha⟩
    · rw [hnone]
      exact ⟨v, f, 0, [], rfl, Framed.refl h.vol, h⟩
    have hF := Framed.first h.vol ha
    rw [hcall]
    dsimp only
    rw [if_neg ha.ne_zero]
    obtain ⟨v2, chain2, c2, o, p, s, k, hloop, hF2, hc2, ho, -⟩ := (framed_keeps g).write_loop
      (f := { f with start_cluster := c, cluster := c, offset := 0 }) (Framed.refl hF.vol)
      (mem_singleton_self c) (Nat.zero_le _) (Nat.lt_succ_self bs.length)
    refine ⟨v2, _, k, chain2, hloop, hF.trans hF2, hF2.vol, ?_, h.is_file, .inl ⟨hc2, ho⟩⟩
    rw [headD_of_more hF2.more (by simp)]
    rfl
  · rw [if_neg hstart]
    have hne : chain ≠ [] := fun h0 => hstart (h.start_zero.mpr h0)
    by_cases hbs : bs = []
    · subst hbs
      exact ⟨v, f, 0, chain, by simp [write_loop], Framed.refl h.vol, h⟩
    rcases h.place with ⟨hmem, hoff⟩ | ⟨hsmall | heoc, hoff⟩
    · obtain ⟨v', chain', c, o, p, s, k, hloop, hF, hc, ho, -⟩ := (framed_keeps g).write_loop
        (Framed.refl h.vol) hmem hoff (Nat.lt_succ_self bs.length)
      refine ⟨v', _, k, chain', hloop, hF, hF.vol, ?_, h.is_file, .inl ⟨hc, ho⟩⟩
      rw [headD_of_more hF.more hne]
      exact h.start
    · exact ⟨v, f, 0, chain, write_loop_nowhere hg hsmall hoff, Framed.refl h.vol, h⟩
    · rw [hgo hbs hstart] at heoc
      cases heoc

end

/-! ## The other files -/

/-- The chain `other` is linked as before and its bytes are the same. -/
structure SameBytes (g : Geom) (d d' : BlockDev) (other : List Nat) : Prop where
  links : ChainOk g d' other
  bytes : ∀ m, m < other.length * g.cluster_size → fbyte g d' other m = fbyte g d other m

/-- A chain that shares no cluster with the file shares none after the write. -/
lemma Framed.disjoint (h : Framed g v chain v' chain') (ho : ChainOk g v.bdev other)
    (hdis : chain.Disjoint other) : chain'.Disjoint other := by
  intro x hx hxo
  by_cases hm : x ∈ chain
  · exact hdis hm hxo
  · exact ho.fat_ne_zero hxo (h.fresh x hx hm)

lemma Framed.same_bytes (h : Framed g v chain v' chain') (ho : ChainOk g v.bdev other)
    (hdis : chain.Disjoint other) : SameBytes g v.bdev v'.bdev other := by
  have hg := h.vol.geom
  have hdis' := h.disjoint ho hdis
  have hentry : ∀ x ∈ other, fat g v'.bdev x = fat g v.bdev x := fun x hx =>
    h.entry x (ho.range x hx) fun hm => hdis' hm hx
  refine ⟨ho.congr hentry, ?_⟩
  intro m hm
  have hmi := cluster_lt hm
  have hr := ho.inRange hmi
  refine clus_congr hg h.dev ?_ (Nat.mod_lt _ hg.size_pos)
  rintro t ht (hf | hinfo | ⟨c, hc, htc⟩)
  · exact inClus_not_inFat hr ht hf
  · exact hg.inClus_not_fsInfo hr ht hinfo
  · have := hg.inClus_unique (h.vol.links.range c hc).1 hr.1 htc ht
    exact hdis' hc (this ▸ getD_mem hmi)

lemma Framed.boot (h : Framed g v chain v' chain') (h0 : 0 < g.fat_start) :
    v'.bdev.data 0 = v.bdev.data 0 := by
  refine h.dev.keep 0 ?_
  rintro (hf | hinfo | ⟨c, hc, htc⟩)
  · have := hf.1
    omega
  · exact hinfo.2.1 rfl
  · have := (inClus_room (h.vol.links.range c hc) htc).1
    have hdata := h.vol.geom.data
    omega

/-! ## Runs -/

/-- A read, a write or a seek on the handle. -/
inductive Access where
  | read (len : UInt32)
  | write (bytes : List UInt8)
  | seek (pos : UInt32)

def Access.call : Access → FileOp
  | .read len => .read len
  | .write bytes => .write bytes
  | .seek pos => .seek pos

def access_step (g : Geom) (s : OpenFile) (a : Access) : Option OpenFile :=
  (file_step g s a.call).map Prod.fst

/-- A write of some bytes to a file that is not empty does not start at an end-of-chain
marker. -/
def access_ok (s : OpenFile) : Access → Prop
  | .write bs => bs ≠ [] → s.file.start_cluster ≠ 0 → is_eoc s.file.cluster = false
  | _ => True

instance (s : OpenFile) : ∀ a, Decidable (access_ok s a)
  | .read _ => isTrue trivial
  | .write bs => inferInstanceAs (Decidable (bs ≠ [] → _ ≠ _ → _ = _))
  | .seek _ => isTrue trivial

/-- The handle, its chain and the volume agree. -/
def OwnsOk (g : Geom) (s : OpenFile) : Prop := Owns g s.vol s.file (file_chain g s.vol s.file)

-- the chain depends on the start of the handle alone
lemma Owns.file_chain (h : Owns g v f chain) : fat32.file_chain g v f = chain :=
  h.handleOk.file_chain

lemma Owns.ownsOk (h : Owns g v f chain) : OwnsOk g ⟨v, f⟩ := by
  unfold OwnsOk
  rwa [h.file_chain]

/-- What a run leaves alone: the chains beside the file and the boot sector. -/
structure Spares (g : Geom) (s s' : OpenFile) : Prop where
  others : ∀ other, ChainOk g s.vol.bdev other →
    (file_chain g s.vol s.file).Disjoint other → SameBytes g s.vol.bdev s'.vol.bdev other ∧
      (file_chain g s'.vol s'.file).Disjoint other
  boot : 0 < g.fat_start → s'.vol.bdev.data 0 = s.vol.bdev.data 0

lemma Spares.trans {s s' s'' : OpenFile} (h : Spares g s s') (h' : Spares g s' s'') :
    Spares g s s'' := by
  refine ⟨fun other ho hdis => ?_, fun h0 => (h'.boot h0).trans (h.boot h0)⟩
  obtain ⟨hsame, hdis1⟩ := h.others other ho hdis
  obtain ⟨hsame', hdis2⟩ := h'.others other hsame.links hdis1
  exact ⟨⟨hsame'.links, fun m hm => (hsame'.bytes m hm).trans (hsame.bytes m hm)⟩, hdis2⟩

/-- One call keeps the handle on its file and spares the others, and what it writes is in
the area of the file. -/
lemma access_step_spec {s : OpenFile} {a : Access} (h : OwnsOk g s) (hok : access_ok s a) :
    ∃ s', access_step g s a = some s' ∧ OwnsOk g s' ∧ Spares g s s' ∧
      Touches (FileArea g (file_chain g s'.vol s'.file)) s.vol.bdev s'.vol.bdev := by
  obtain ⟨v, f⟩ := s
  unfold access_step Access.call file_step
  have hstay : ∀ f', Owns g v f' (fat32.file_chain g v f) → Spares g ⟨v, f⟩ ⟨v, f'⟩ := by
    intro f' hf'
    refine ⟨fun other ho hdis => ⟨⟨ho, fun _ _ => rfl⟩, ?_⟩, fun _ => rfl⟩
    rwa [hf'.file_chain]
  cases a with
  | read len =>
    obtain ⟨f', bs, hcall, hown⟩ := read_owns h len.toNat
    refine ⟨⟨v, f'⟩, ?_, hown.ownsOk, hstay f' hown, Touches.refl _ _⟩
    dsimp only at hcall ⊢
    rw [hcall]
    rfl
  | seek pos =>
    have hown := seek_owns h pos.toNat
    exact ⟨⟨v, _⟩, rfl, hown.ownsOk, hstay _ hown, Touches.refl _ _⟩
  | write bs =>
    obtain ⟨v', f', k, chain', hcall, hF, hown⟩ := write_framed h hok
    dsimp only at hcall hF ⊢
    refine ⟨⟨v', f'⟩, by rw [hcall]; rfl, hown.ownsOk, ⟨?_, fun h0 => hF.boot h0⟩, ?_⟩
    · intro other ho hdis
      rw [hown.file_chain]
      exact ⟨hF.same_bytes ho hdis, hF.disjoint ho hdis⟩
    · dsimp only
      rw [hown.file_chain]
      exact hF.dev

/-- In every run of reads, writes and seeks that starts no write at an end-of-chain marker,
each write touches the FAT, the FSINFO sector and the clusters that the file has after it,
and the run up to it leaves every chain beside the file and the boot sector as they were. -/
theorem a_write_keeps_to_its_file (g : Geom) (s : OpenFile) (ops : List Access) (bs : List UInt8)
    (hs : OwnsOk g s)
    (hok : RunOk (access_step g) access_ok s (ops ++ [.write bs])) :
    ∃ s1 s2, run (access_step g) s ops = some s1 ∧ access_step g s1 (.write bs) = some s2 ∧
      Touches (FileArea g (file_chain g s2.vol s2.file)) s1.vol.bdev s2.vol.bdev ∧
      Spares g s1 s2 ∧ Spares g s s2 := by
  obtain ⟨hops, hlast⟩ := hok.append
  have hkeep : ∀ t a, OwnsOk g t ∧ Spares g s t → access_ok t a →
      ∃ t', access_step g t a = some t' ∧ (OwnsOk g t' ∧ Spares g s t') := by
    rintro t a ⟨ht, hspare⟩ ha
    obtain ⟨t', hstep, hown, hsp, _⟩ := access_step_spec ht ha
    exact ⟨t', hstep, hown, hspare.trans hsp⟩
  have hstart : Spares g s s := ⟨fun other ho hdis => ⟨⟨ho, fun _ _ => rfl⟩, hdis⟩, fun _ => rfl⟩
  obtain ⟨s1, hrun, hs1, hspare⟩ := run_invariant hkeep ⟨hs, hstart⟩ hops
  obtain ⟨s2, hstep, _, hsp, htouch⟩ := access_step_spec hs1 (hlast s1 hrun).1
  exact ⟨s1, s2, hrun, hstep, htouch, hsp, hspare.trans hsp⟩

theorem a_write_over_two_clusters_keeps_to_its_file :
    ∃ s1 s2, run (access_step small_geom) ⟨small_vol, small_file 500⟩ [.seek 500] = some s1 ∧
      access_step small_geom s1 (.write (List.replicate 13 9)) = some s2 ∧
      Touches (FileArea small_geom (file_chain small_geom s2.vol s2.file)) s1.vol.bdev s2.vol.bdev ∧
      Spares small_geom s1 s2 ∧ Spares small_geom ⟨small_vol, small_file 500⟩ s2 := by
  have h : OpenOk small_geom ⟨small_vol, small_file 500⟩ := small_open_ok (by decide)
  have hchain : file_chain small_geom small_vol (small_file 500) = [3] := by decide +kernel
  have hown : OwnsOk small_geom ⟨small_vol, small_file 500⟩ :=
    ⟨⟨h.vol.geom, h.vol.links, .inl rfl⟩, h.start, rfl, .inl (by rw [hchain]; decide)⟩
  exact a_write_keeps_to_its_file small_geom _ [.seek 500] _ hown (by decide +kernel)

/-- Clusters of 16 sectors behind 48 sectors for the boot sector and the FATs. -/
def wide_geom : Geom where
  fat_sz32 := 8
  num_fats := 2
  fs_info := 1
  fat_start := 32
  data_start := 48
  root_cluster := 2
  sec_per_clus := 16
  cluster_size := 8192
  total_clusters := 4

/-- The first four entries of both FATs are ends of chains. The boot sector starts with
0xEB. -/
def wide_vol : Vol where
  bdev :=
    { data := fun t j =>
        if (t = 32 ∨ t = 40) ∧ j < 16 then (if j % 4 = 3 then 0x0F else 0xFF)
        else if t = 0 ∧ j = 0 then 0xEB else 0
      num_sectors := 112
      part_offset := 0 }
  free_clusters := 2
  fsinfo_stale := false
  dir_buf_cluster := 0

/-- A file of one cluster, all of it in use. -/
def wide_file : Fat32File := { small_file 8192 with dir_sector := 48 }

lemma wide_owns : OwnsOk wide_geom ⟨wide_vol, wide_file⟩ := by
  have hchain : file_chain wide_geom wide_vol wide_file = [3] := by decide +kernel
  unfold OwnsOk
  rw [hchain]
  exact ⟨⟨by constructor <;> decide, .one (by simp [InRange, wide_geom]) (by decide +kernel),
    .inl rfl⟩,
    rfl, rfl, .inl (by decide)⟩

/-- A read up to the end of the file leaves the marker 0x0FFFFFFF in the handle. The write
behind it computes its sector from the marker, and that is the boot sector. -/
theorem a_write_behind_a_read_goes_to_the_boot_sector :
    OwnsOk wide_geom ⟨wide_vol, wide_file⟩ ∧
    ∃ s1 s2, run (access_step wide_geom) ⟨wide_vol, wide_file⟩ [.read 8192] = some s1 ∧
      access_step wide_geom s1 (.write [9]) = some s2 ∧
      s1.vol.bdev.data 0 0 = 0xEB ∧ s2.vol.bdev.data 0 0 = 9 ∧
      ¬ Touches (FileArea wide_geom (file_chain wide_geom s2.vol s2.file)) s1.vol.bdev
        s2.vol.bdev := by
  have hrun : ((run (access_step wide_geom) ⟨wide_vol, wide_file⟩ [.read 8192]).bind fun s1 =>
      (access_step wide_geom s1 (.write [9])).map fun s2 =>
        (s1.vol.bdev.data 0 0, s2.vol.bdev.data 0 0)) = some (0xEB, 9) := by
    decide +kernel
  obtain ⟨s1, h1, hrest⟩ := Option.bind_eq_some_iff.mp hrun
  obtain ⟨s2, h2, hbytes⟩ := Option.map_eq_some_iff.mp hrest
  obtain ⟨hb1, hb2⟩ := Prod.mk.inj hbytes
  refine ⟨wide_owns, s1, s2, h1, h2, hb1, hb2, fun ht => ?_⟩
  have hkeep : s2.vol.bdev.data 0 = s1.vol.bdev.data 0 := by
    refine ht.keep 0 ?_
    rintro (hf | hinfo | ⟨c, _, hc⟩)
    · exact absurd hf.1 (by decide)
    · exact hinfo.2.1 rfl
    · have : (48 : Nat) ≤ sector_of wide_geom c := le_self_add
      have := hc.1
      omega
  rw [hkeep, hb1] at hb2
  cases hb2

end uaos.fat32
