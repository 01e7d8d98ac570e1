-- FAT32_Write, FAT32_Seek and FAT32_SetFileSize on the byte array along a cluster
-- chain. Each one is followed from every place the cursor can stand at but the one
-- past the last cluster, where the driver loses the end of the chain.
import Uaos.FatFile

namespace uaos.fat32

open List Nat

variable {g : Geom} {v v' : Vol} {d d' : BlockDev} {f : Fat32File} {n c i : Nat} {chain : List Nat}

/-! ## The volume of a file -/

/-- The sector of the file's directory entry is no FAT sector, and no cluster of the
file and no free cluster holds it. -/
def SlotOk (g : Geom) (d : BlockDev) (chain : List Nat) (s : Nat) : Prop :=
  s = 0 ∨ ¬ InFat g s ∧ ∀ c, InRange g c → (c ∈ chain ∨ fat g d c = 0) → ¬ InClus g c s

lemma SlotOk.mono {s : Nat} {chain' : List Nat} (h : SlotOk g d chain s)
    (hsub : ∀ c, InRange g c → (c ∈ chain' ∨ fat g d' c = 0) → c ∈ chain ∨ fat g d c = 0) :
    SlotOk g d' chain' s :=
  h.imp_right fun ⟨hfat, hall⟩ => ⟨hfat, fun c hc hor => hall c hc (hsub c hc hor)⟩

/-- The volume and the chain of one of its files. -/
structure FileVol (g : Geom) (v : Vol) (chain : List Nat) (s : Nat) : Prop where
  geom : GeomOk g v.bdev.num_sectors
  links : ChainOk g v.bdev chain
  slot : SlotOk g v.bdev chain s

variable {s : Nat}

section

variable (h : FileVol g v chain s)

include h

lemma FileVol.extend (hi : i + 1 = chain.length)
    (he : Extended g v v' (chain.getD i 0) c) : FileVol g v' (chain ++ [c]) s ∧
      ∀ m, m < chain.length * g.cluster_size →
        fbyte g v'.bdev (chain ++ [c]) m = fbyte g v.bdev chain m := by
  have hg := h.geom
  have hg' : GeomOk g v'.bdev.num_sectors := he.dev.size ▸ hg
  have hsize := hg.size_pos
  have hcnot : c ∉ chain := fun hm => h.links.fat_ne_zero hm he.free
  have hlow : ∀ j, j < chain.length → (chain ++ [c]).getD j 0 = chain.getD j 0 :=
    fun j hj => getD_append _ _ _ _ hj
  have htop : (chain ++ [c]).getD chain.length 0 = c := by simp
  have hne : ∀ j, j < chain.length → chain.getD j 0 ≠ c := fun j hj hc => hcnot (hc ▸ getD_mem hj)
  have hentry : ∀ j, j < chain.length → fat g v'.bdev (chain.getD j 0) =
      if chain.getD j 0 = chain.getD i 0 then c else fat g v.bdev (chain.getD j 0) := by
    intro j hj
    rw [he.entry _ (hg.entry_lt (h.links.inRange hj)), if_neg (hne j hj)]
  refine ⟨⟨hg', ⟨?_, ?_, ?_, ?_⟩, ?_⟩, ?_⟩
  · intro x hx
    rcases mem_append.mp hx with hx | hx
    · exact h.links.range x hx
    · exact mem_singleton.mp hx ▸ he.range
  · exact nodup_append.mpr ⟨h.links.nodup, nodup_singleton c, by
      rintro a ha b hb rfl
      exact hcnot (mem_singleton.mp hb ▸ ha)⟩
  · intro j hj
    rw [length_append, length_singleton] at hj
    rw [hlow j (by omega), hentry j (by omega)]
    by_cases hjl : j + 1 = chain.length
    · have hji : j = i := by omega
      rw [hji, if_pos rfl, hi, htop]
    have hji : chain.getD j 0 ≠ chain.getD i 0 := by
      intro hc
      have := h.links.getD_inj (by omega) (by omega) hc
      omega
    rw [if_neg hji, hlow (j + 1) (by omega)]
    exact h.links.link j (by omega)
  · intro j hj
    rw [length_append, length_singleton] at hj
    obtain rfl : j = chain.length := by omega
    rw [htop, he.entry c (hg.entry_lt he.range), if_pos rfl]
    rfl
  · refine h.slot.mono fun x hx hor => ?_
    rcases hor with hm | h0
    · rcases mem_append.mp hm with hm | hm
      · exact .inl hm
      · exact .inr (mem_singleton.mp hm ▸ he.free)
    rw [he.entry x (hg.entry_lt hx)] at h0
    split at h0
    · cases h0
    split at h0
    · have := he.range.1
      omega
    · exact .inr h0
  · intro m hm
    have hmi := cluster_lt hm
    unfold fbyte
    rw [hlow _ hmi]
    refine clus_congr hg he.dev (fun t ht ha => ?_) (mod_lt _ hsize)
    exact hne _ hmi (hg.of_allocArea (h.links.inRange hmi) he.range ht ha)

/-- Writes inside one cluster of the chain leave the FAT and the other clusters. -/
lemma FileVol.write_cluster (hi : i < chain.length)
    (hw : Writes (InClus g (chain.getD i 0)) v v') : FileVol g v' chain s := by
  have hfat : ∀ x, InRange g x → fat g v'.bdev x = fat g v.bdev x := fun x hx =>
    fat_congr h.geom hw.dev (fun t ht => inClus_not_inFat (h.links.inRange hi) ht)
      (h.geom.entry_lt hx)
  refine ⟨hw.geom h.geom, h.links.congr fun c hc => hfat c (h.links.range c hc),
    h.slot.mono fun x hx hor => ?_⟩
  rwa [hfat x hx] at hor

lemma FileVol.fbyte_write (hi : i < chain.length)
    (hw : Writes (InClus g (chain.getD i 0)) v v') {b : Buf} {off : Nat} {bs : List UInt8}
    (hb : ∀ j, j < g.cluster_size → b j = clus g v.bdev (chain.getD i 0) j)
    (hdata : ∀ j, j < g.cluster_size → clus g v'.bdev (chain.getD i 0) j = put b off bs j)
    (hfit : off + bs.length ≤ g.cluster_size) {m : Nat} (hm : m < chain.length * g.cluster_size) :
    fbyte g v'.bdev chain m = put (fbyte g v.bdev chain) (i * g.cluster_size + off) bs m := by
  have hsize := h.geom.size_pos
  have hmi := cluster_lt hm
  have hmod := mod_lt m hsize
  have hdm := div_add_mod m g.cluster_size
  rw [mul_comm] at hdm
  by_cases hq : m / g.cluster_size = i
  · rw [hq] at hdm
    have hf : fbyte g v'.bdev chain m = put b off bs (m % g.cluster_size) := by
      unfold fbyte
      rw [hq, hdata _ hmod]
    rw [hf]
    refine put_moved (by omega) fun _ => ?_
    rw [hb _ hmod, fbyte, hq]
  · have hout : m < i * g.cluster_size + off ∨ i * g.cluster_size + off + bs.length ≤ m := by
      rcases lt_or_gt_of_ne hq with hlt | hgt
      · have := row_le hlt g.cluster_size
        omega
      · have := row_le hgt g.cluster_size
        omega
    rw [put_outside hout]
    refine clus_congr h.geom hw.dev ?_ hmod
    intro t ht hc
    refine hq (h.links.getD_inj hmi hi ?_)
    exact h.geom.inClus_unique (h.links.inRange hmi).1 (h.links.inRange hi).1 ht hc

/-! ## Writing -/

/-- The chain may have got new clusters, and the bytes it had are the same. -/
structure Grown (g : Geom) (s : Nat) (v : Vol) (chain : List Nat) (v' : Vol) (chain' : List Nat) :
    Prop where
  vol : FileVol g v' chain' s
  more : chain <+: chain'
  budget : chain'.length + free_count g v'.bdev = chain.length + free_count g v.bdev
  bytes : ∀ m, m < chain.length * g.cluster_size → fbyte g v'.bdev chain' m = fbyte g v.bdev chain m

lemma Grown.refl : Grown g s v chain v chain :=
  ⟨h, List.prefix_refl _, rfl, fun _ _ => rfl⟩

/-- A round of FAT32_Write starts in a cluster that has room. -/
lemma write_place_spec (hat : At g f chain i)
    (hroom : f.pos < (chain.length + free_count g v.bdev) * g.cluster_size) :
    ∃ v' f' chain' i', write_place g v f = (v', some f') ∧ Grown g s v chain v' chain' ∧
      At g f' chain' i' ∧ f'.offset < g.cluster_size ∧ Moved f f' 0 := by
  have hg := h.geom
  have hsize := hg.size_pos
  obtain ⟨hi, hcl, hoff, hpos⟩ := hat
  have hr := h.links.inRange hi
  unfold write_place
  by_cases hfull : g.cluster_size ≤ f.offset
  · have hend : f.pos = (i + 1) * g.cluster_size := by
      rw [add_mul, one_mul]
      omega
    rw [if_pos hfull, hcl, get_fat_entry_eq hg hr]
    dsimp only
    by_cases hlast : i + 1 = chain.length
    · rw [if_pos (.inl (h.links.last i hlast))]
      have hused := h.links.fat_ne_zero (getD_mem hi)
      rcases extend_chain_spec hg hr with ⟨_, hnone⟩ | ⟨v', c, hcall, he⟩
      · -- the bytes to write need a cluster, so one is free
        have hfree : 0 < free_count g v.bdev := by
          rw [hend, hlast, add_mul] at hroom
          exact Nat.pos_of_ne_zero fun h0 => by simp [h0] at hroom
        obtain ⟨x, hx, h0⟩ := free_count_pos hfree
        exact absurd h0 (hnone x hx)
      obtain ⟨hvol, hbytes⟩ := h.extend hlast he
      have hc0 : c ≠ 0 := fun h0 => by have := he.range.1; omega
      have hcount := he.free_count hg hused
      rw [hcall]
      rw [if_neg hc0]
      refine ⟨v', _, chain ++ [c], chain.length, rfl, ⟨hvol, List.prefix_append _ _, ?_, hbytes⟩,
        ⟨?_, ?_, zero_le _, ?_⟩, hsize, ⟨rfl, rfl, rfl, rfl, rfl⟩⟩
      · rw [length_append, length_singleton]
        omega
      · rw [length_append, length_singleton]
        omega
      · simp
      · rw [hend, hlast]
        rfl
    · have hlt : i + 1 < chain.length := by omega
      have hnot := mt Or.symm (hg.linked (h.links.inRange hlt))
      have hne : chain.getD (i + 1) 0 ≠ 0 := by
        omega
      rw [h.links.link i hlt, if_neg hnot]
      rw [if_neg hne]
      exact ⟨v, _, chain, i + 1, rfl, Grown.refl h, ⟨hlt, rfl, zero_le _, hend⟩, hsize,
        ⟨rfl, rfl, rfl, rfl, rfl⟩⟩
  · rw [if_neg hfull]
    exact ⟨v, f, chain, i, rfl, Grown.refl h, ⟨hi, hcl, hoff, hpos⟩, by omega,
      ⟨rfl, rfl, rfl, rfl, rfl⟩⟩

end

/-- The bytes `bs` went to the place of the cursor. -/
structure Wrote (g : Geom) (s : Nat) (v : Vol) (f : Fat32File) (chain : List Nat) (bs : List UInt8)
    (v' : Vol) (f' : Fat32File) (chain' : List Nat) : Prop where
  vol : FileVol g v' chain' s
  more : chain <+: chain'
  budget : chain'.length + free_count g v'.bdev = chain.length + free_count g v.bdev
  bytes : ∀ m, m < chain.length * g.cluster_size ∨ f.pos ≤ m ∧ m < f.pos + bs.length →
    fbyte g v'.bdev chain' m = put (fbyte g v.bdev chain) f.pos bs m
  place : ∃ i, At g f' chain' i
  start : f'.start_cluster = f.start_cluster
  size : f'.size = max f.size (f.pos + bs.length)
  pos : f'.pos = f.pos + bs.length
  is_dir : f'.is_dir = f.is_dir
  dir_sector : f'.dir_sector = f.dir_sector

lemma At.pos_le (hat : At g f chain i) : f.pos ≤ chain.length * g.cluster_size := by
  have := hat.offset
  have := row_le hat.lt g.cluster_size
  rw [hat.pos]
  omega

lemma write_loop_spec (h : FileVol g v chain s) (hat : At g f chain i) (hps : f.pos ≤ f.size)
    {fuel : Nat} {bs : List UInt8} (hfuel : bs.length < fuel) (hw : f.pos + bs.length < 2 ^ 32)
    (hroom : f.pos + bs.length ≤ (chain.length + free_count g v.bdev) * g.cluster_size) :
    ∃ v' f' chain', write_loop g fuel v f bs = some (v', f', bs.length) ∧
      Wrote g s v f chain bs v' f' chain' := by
  induction fuel generalizing v f i chain bs with
  | zero => omega
  | succ fuel ih =>
    by_cases hbs : bs = []
    · subst hbs
      refine ⟨v, f, chain, by simp [write_loop], ⟨h, List.prefix_refl _, rfl, ?_, ⟨i, hat⟩, rfl, ?_,
        rfl, rfl, rfl⟩⟩
      · intro m _
        rw [put_nil]
      · rw [length_nil, add_zero, max_eq_left hps]
    have hpos : 0 < bs.length := length_pos_of_ne_nil hbs
    obtain ⟨v1, f1, chain1, i1, hplace, hgrow, hat1, hoff1, hm⟩ := write_place_spec h hat (by omega)
    have h1 := hgrow.vol
    have hg := h1.geom
    have hsle := hg.size_le
    have hr := h1.links.inRange hat1.lt
    rw [← hat1.cluster] at hr
    obtain ⟨b, hread, hb⟩ := read_cluster_eq hg hr
    have hsub : sub32 g.cluster_size f1.offset = g.cluster_size - f1.offset :=
      sub32_of_le hat1.offset (by omega)
    rw [write_loop, if_neg hbs, hplace]
    dsimp only
    rw [hread]
    dsimp only
    rw [hsub]
    obtain ⟨chunk, hchunk⟩ : ∃ k, k = min (g.cluster_size - f1.offset) bs.length := ⟨_, rfl⟩
    rw [← hchunk]
    have hcn : chunk ≤ bs.length := hchunk ▸ min_le_right _ _
    have htake : (bs.take chunk).length = chunk := by rw [length_take, min_eq_left hcn]
    have hdrop : (bs.drop chunk).length = bs.length - chunk := length_drop
    obtain ⟨v2, hwrite, hw2, hdata⟩ := write_cluster_spec hg hr (put b f1.offset (bs.take chunk))
    rw [hwrite]
    dsimp only
    have hpos1 : f1.pos = f.pos := hm.pos
    have hu1 : u32 (f1.offset + chunk) = f1.offset + chunk := u32_of_lt (by omega)
    have hu2 : u32 (f1.pos + chunk) = f1.pos + chunk := u32_of_lt (by omega)
    rw [hu1, hu2, hpos1]
    rw [hat1.cluster] at hw2 hdata hb
    have h2 : FileVol g v2 chain1 s := h1.write_cluster hat1.lt hw2
    have hbytes2 : ∀ m, m < chain1.length * g.cluster_size →
        fbyte g v2.bdev chain1 m = put (fbyte g v1.bdev chain1) f.pos (bs.take chunk) m := by
      intro m hmlt
      rw [h1.fbyte_write hat1.lt hw2 hb hdata (by omega) hmlt, ← hat1.pos, hpos1]
    have hfree2 : free_count g v2.bdev = free_count g v1.bdev := by
      refine free_count_congr fun x hx => ?_
      rw [fat_congr hg hw2.dev (fun t ht => inClus_not_inFat (h1.links.inRange hat1.lt) ht)
        (hg.entry_lt hx)]
    obtain ⟨f2, hf2⟩ : ∃ f2, f2 = { f1 with
      offset := f1.offset + chunk
      pos := f.pos + chunk
      size := if f1.size < f.pos + chunk then f.pos + chunk else f1.size } := ⟨_, rfl⟩
    rw [← hf2]
    have hat2 : At g f2 chain1 i1 := by
      subst hf2
      refine ⟨hat1.lt, hat1.cluster, by dsimp only; omega, ?_⟩
      have := hat1.pos
      dsimp only
      omega
    have hsize2 : f2.size = max f.size (f.pos + chunk) := by
      subst hf2
      have := hm.size
      dsimp only
      split <;> omega
    have hpos2 : f2.pos = f.pos + chunk := by rw [hf2]
    obtain ⟨v', f', chain', hcall, hW⟩ := @ih v2 f2 i1 chain1 h2 hat2 (by omega) (bs.drop chunk)
      (by omega) (by omega) (by rw [hfree2, hgrow.budget]; omega)
    refine ⟨v', f', chain', ?_, ⟨hW.vol, hgrow.more.trans hW.more, ?_, ?_, hW.place, ?_, ?_, ?_, ?_,
      ?_⟩⟩
    · rw [hcall]
      simp only [Option.map_some, Option.some.injEq, Prod.mk.injEq, true_and]
      omega
    · rw [hW.budget, hfree2, hgrow.budget]
    · intro m hmem
      -- the bytes of this round, then those of the rest
      have hjoin : put (fbyte g v.bdev chain) f.pos bs m =
          put (put (fbyte g v.bdev chain) f.pos (bs.take chunk)) (f.pos + chunk)
            (bs.drop chunk) m := by
        conv_lhs => rw [← take_append_drop chunk bs]
        rw [← put_append, htake]
      have hlen : chain.length * g.cluster_size ≤ chain1.length * g.cluster_size :=
        mul_le_mul_right _ hgrow.more.length_le
      have hend := hat2.pos_le
      rw [hjoin, hW.bytes m (by rw [hpos2, hdrop]; omega), hpos2]
      refine put_congr fun hout => ?_
      rw [hbytes2 m (by omega)]
      refine put_congr fun hout2 => ?_
      exact hgrow.bytes m (by omega)
    · rw [hW.start, hf2]
      exact hm.start
    · rw [hW.size, hsize2, hpos2, hdrop]
      omega
    · rw [hW.pos, hpos2, hdrop]
      omega
    · rw [hW.is_dir, hf2]
      exact hm.is_dir
    · rw [hW.dir_sector, hf2]
      exact hm.dir_sector

/-! ## Open files -/

/-- A handle of the file with this chain, wherever its cursor stands. -/
structure HandleOk (g : Geom) (v : Vol) (f : Fat32File) (chain : List Nat) : Prop where
  vol : FileVol g v chain f.dir_sector
  start : f.start_cluster = chain.headD 0
  is_dir : f.is_dir = false
  fits : f.size ≤ chain.length * g.cluster_size
  word : f.size < 2 ^ 32

/-- An open file: its handle, its chain and the volume agree. -/
structure FileOk (g : Geom) (v : Vol) (f : Fat32File) (chain : List Nat) : Prop
    extends HandleOk g v f chain where
  pos_le : f.pos ≤ f.size
  cursor : Cursor g f chain

/-- The cursor stands past the last cluster of the file, where FAT32_Write does not
find the end of the chain. -/
def PastEnd (g : Geom) (f : Fat32File) (chain : List Nat) : Prop :=
  f.start_cluster ≠ 0 ∧ f.offset = 0 ∧ f.pos = chain.length * g.cluster_size

lemma At.not_pastEnd (hg : GeomOk g n) (hat : At g f chain i) : ¬ PastEnd g f chain := by
  rintro ⟨_, h0, hpos⟩
  have hsize := hg.size_pos
  rw [hat.pos, h0, add_zero] at hpos
  have := eq_of_mul_eq_mul_right hsize hpos
  have := hat.lt
  omega

lemma HandleOk.start_zero (h : HandleOk g v f chain) : f.start_cluster = 0 ↔ chain = [] := by
  rw [h.start]
  cases chain with
  | nil => simp
  | cons c rest =>
    have := (h.vol.links.range c mem_cons_self).1
    simp only [headD_cons, reduceCtorEq, iff_false]
    omega

lemma HandleOk.not_dir (h : HandleOk g v f chain) : ¬ f.is_dir = true :=
  ne_true_of_eq_false h.is_dir

/-- From everywhere but past the end, a file that is not empty has its cursor in a
cluster. -/
lemma FileOk.inside (h : FileOk g v f chain) (hne : chain ≠ []) (hnot : ¬ PastEnd g f chain) :
    ∃ i, At g f chain i := by
  rcases h.cursor with ⟨h0, _⟩ | hat | ⟨_, hoff, hpos⟩
  · exact absurd h0 hne
  · exact hat
  · exact absurd ⟨fun h0 => hne (h.start_zero.mp h0), hoff, hpos⟩ hnot

lemma read_spec (h : FileOk g v f chain) (len : Nat) : ∃ f', fat32_read g v.bdev f len =
        some (f', slice (fbyte g v.bdev chain) f.pos (min len (f.size - f.pos))) ∧
      Moved f f' (min len (f.size - f.pos)) ∧ FileOk g v f' chain := by
  have hg := h.vol.geom
  have hps := h.pos_le
  have hfits := h.fits
  have hword := h.word
  unfold fat32_read
  rw [if_neg h.not_dir]
  by_cases hend : f.size ≤ f.pos
  · have h0 : min len (f.size - f.pos) = 0 := by omega
    rw [if_pos hend, h0]
    exact ⟨f, rfl, ⟨rfl, rfl, rfl, rfl, rfl⟩, h⟩
  rw [if_neg hend, sub32_of_le hps hword]
  obtain ⟨k, hk⟩ : ∃ k, k = min len (f.size - f.pos) := ⟨_, rfl⟩
  rw [← hk]
  have hne : chain ≠ [] := by
    rintro rfl
    rw [length_nil, Nat.zero_mul] at hfits
    omega
  obtain ⟨i, hat⟩ := h.inside hne (by
    rintro ⟨_, _, hpos⟩
    omega)
  obtain ⟨f', hcall, hm, hcur⟩ := read_loop_spec hg h.vol.links (n := k) (k + 2) hat
    (by omega) (by omega) (by split <;> omega)
  refine ⟨f', hcall, hm, ⟨⟨?_, ?_, ?_, ?_, ?_⟩, ?_, hcur⟩⟩
  · exact hm.dir_sector ▸ h.vol
  · exact hm.start.trans h.start
  · exact hm.is_dir.trans h.is_dir
  · rw [hm.size]
    exact hfits
  · rw [hm.size]
    exact hword
  · rw [hm.size, hm.pos]
    omega

/-- What FAT32_Write does with the bytes `bs`. -/
structure FileWrote (g : Geom) (v : Vol) (f : Fat32File) (chain : List Nat) (bs : List UInt8)
    (v' : Vol) (f' : Fat32File) (chain' : List Nat) : Prop where
  ok : FileOk g v' f' chain'
  more : chain <+: chain'
  budget : chain'.length + free_count g v'.bdev = chain.length + free_count g v.bdev
  bytes : ∀ m, m < chain.length * g.cluster_size ∨ f.pos ≤ m ∧ m < f.pos + bs.length →
    fbyte g v'.bdev chain' m = put (fbyte g v.bdev chain) f.pos bs m
  inside : bs ≠ [] → ∃ i, At g f' chain' i
  size : f'.size = max f.size (f.pos + bs.length)
  pos : f'.pos = f.pos + bs.length

lemma FileWrote.refl (h : FileOk g v f chain) : FileWrote g v f chain [] v f chain := by
  refine ⟨h, List.prefix_refl _, rfl, ?_, fun hc => absurd rfl hc, ?_, rfl⟩
  · intro m _
    rw [put_nil]
  · rw [length_nil, add_zero, max_eq_left h.pos_le]

lemma headD_of_more {l l' : List Nat} (h : l <+: l') (hne : l ≠ []) : l'.headD 0 = l.headD 0 := by
  obtain ⟨t, rfl⟩ := h
  cases l with
  | nil => exact absurd rfl hne
  | cons a l => rfl

lemma Wrote.fileWrote {bs : List UInt8} {f' : Fat32File} {chain' : List Nat}
    (h : FileOk g v f chain) (hne : chain ≠ []) (hw : f.pos + bs.length < 2 ^ 32)
    (hW : Wrote g f.dir_sector v f chain bs v' f' chain') :
    FileWrote g v f chain bs v' f' chain' := by
  have hlen : chain.length * g.cluster_size ≤ chain'.length * g.cluster_size :=
    mul_le_mul_right _ hW.more.length_le
  have hfits := h.fits
  have hword := h.word
  obtain ⟨i, hat⟩ := hW.place
  have hpos := hat.pos_le
  rw [hW.pos] at hpos
  refine ⟨⟨⟨?_, ?_, ?_, ?_, ?_⟩, ?_, .inr (.inl ⟨i, hat⟩)⟩, hW.more, hW.budget, hW.bytes,
    fun _ => ⟨i, hat⟩, hW.size, hW.pos⟩
  · exact hW.dir_sector ▸ hW.vol
  · rw [hW.start, h.start, headD_of_more hW.more hne]
  · exact hW.is_dir.trans h.is_dir
  · rw [hW.size]
    omega
  · rw [hW.size]
    omega
  · rw [hW.size, hW.pos]
    omega

/-- A new cluster is a chain of its own. -/
lemma Allocated.one (ha : Allocated g v v' c) (hg : GeomOk g v.bdev.num_sectors) :
    ChainOk g v'.bdev [c] := by
  refine .one ha.range ?_
  rw [ha.entry c (hg.entry_lt ha.range), if_pos rfl]
  rfl

/-- The first cluster of an empty file. -/
lemma FileOk.first (h : FileOk g v f []) (ha : Allocated g v v' c) :
    FileOk g v' { f with start_cluster := c, cluster := c, offset := 0 } [c] := by
  have hg := h.vol.geom
  have hpos : f.pos = 0 := by
    have := h.fits
    have := h.pos_le
    rw [length_nil, Nat.zero_mul] at *
    omega
  refine ⟨⟨⟨ha.geom hg, ha.one hg, ?_⟩, rfl, h.is_dir, ?_, h.word⟩,
    h.pos_le, .inr (.inl ⟨0, by simp, rfl, zero_le _, by simp [hpos]⟩)⟩
  · refine h.vol.slot.mono fun x hx hor => .inr ?_
    rcases hor with hm | h0
    · exact mem_singleton.mp hm ▸ ha.free
    rw [ha.entry x (hg.entry_lt hx)] at h0
    split at h0
    · cases h0
    · exact h0
  · have := h.fits
    rw [length_nil, Nat.zero_mul] at this
    dsimp only
    omega

lemma write_spec (h : FileOk g v f chain) (bs : List UInt8) (hw : f.pos + bs.length < 2 ^ 32)
    (hroom : f.pos + bs.length ≤ (chain.length + free_count g v.bdev) * g.cluster_size)
    (hnot : bs ≠ [] → ¬ PastEnd g f chain) :
    ∃ v' f' chain', fat32_write g v f bs = some (v', f', bs.length) ∧
      FileWrote g v f chain bs v' f' chain' := by
  have hg := h.vol.geom
  unfold fat32_write
  rw [if_neg h.not_dir]
  by_cases hstart : f.start_cluster = 0
  · rw [if_pos hstart]
    obtain rfl := h.start_zero.mp hstart
    rcases alloc_cluster_spec hg with ⟨hnone, hall⟩ | ⟨v1, c, hcall, ha⟩
    · have hbs : bs = [] := by
        by_contra hne
        have hpos := length_pos_of_ne_nil hne
        have hfree : 0 < free_count g v.bdev := by
          refine Nat.pos_of_ne_zero fun h0 => ?_
          rw [h0, length_nil, Nat.zero_mul] at hroom
          omega
        obtain ⟨x, hx, h0⟩ := free_count_pos hfree
        exact hall x hx h0
      subst hbs
      rw [hnone]
      exact ⟨v, f, [], rfl, FileWrote.refl h⟩
    · have h1 := h.first ha
      have hcount := ha.free_count hg
      rw [hcall]
      dsimp only
      rw [if_neg ha.ne_zero]
      obtain ⟨i, hat⟩ :=
        h1.inside (by simp) (At.not_pastEnd hg (i := 0) ⟨by simp, rfl, zero_le _, by
        have := h.pos_le
        have := h.fits
        simp only [length_nil, Nat.zero_mul] at *
        omega⟩)
      obtain ⟨v', f', chain', hloop, hW⟩ := write_loop_spec h1.vol hat h1.pos_le
        (lt_succ_self _) hw (by
          rw [length_singleton, add_comm 1, hcount]
          rwa [length_nil, zero_add] at hroom)
      have hF := hW.fileWrote h1 (by simp) hw
      refine ⟨v', f', chain', hloop, ⟨hF.ok, List.nil_prefix, ?_, ?_, hF.inside, hF.size, hF.pos⟩⟩
      · rw [hF.budget, length_singleton, length_nil]
        omega
      rintro m (hm | ⟨h1, h2⟩)
      · rw [length_nil, Nat.zero_mul] at hm
        omega
      · rw [hF.bytes m (.inr ⟨h1, h2⟩), put_inside h1 h2, put_inside h1 h2]
  · rw [if_neg hstart]
    have hne : chain ≠ [] := fun h0 => hstart (h.start_zero.mpr h0)
    by_cases hbs : bs = []
    · subst hbs
      exact ⟨v, f, chain, by simp [write_loop], FileWrote.refl h⟩
    obtain ⟨i, hat⟩ := h.inside hne (hnot hbs)
    obtain ⟨v', f', chain', hloop, hW⟩ := write_loop_spec h.vol hat h.pos_le
      (lt_succ_self _) hw hroom
    exact ⟨v', f', chain', hloop, hW.fileWrote h hne hw⟩

/-! ## Seeking -/

lemma seek_walk_spec (hg : GeomOk g d.num_sectors) (hch : ChainOk g d chain) {k : Nat}
    (hi : i < chain.length) :
    seek_walk g d k (chain.getD i 0) = chain.getD (min (i + k) (chain.length - 1)) 0 := by
  induction k generalizing i with
  | zero =>
    rw [seek_walk, add_zero, min_eq_left (by omega)]
  | succ k ih =>
    rw [seek_walk, get_fat_entry_eq hg (hch.inRange hi)]
    by_cases hlast : i + 1 = chain.length
    · rw [if_pos (.inl (hch.last i hlast)), min_eq_right (by omega)]
      congr 1
      omega
    have hlt : i + 1 < chain.length := by omega
    rw [hch.link i hlt, if_neg (mt Or.symm (hg.linked (hch.inRange hlt))), ih hlt]
    congr 2
    omega

lemma seek_spec (h : HandleOk g v f chain) (hp : n ≤ f.size) :
    FileOk g v (fat32_seek g v.bdev f n) chain ∧ (fat32_seek g v.bdev f n).pos = n ∧
      (fat32_seek g v.bdev f n).size = f.size := by
  have hg := h.vol.geom
  have hsize := hg.size_pos
  have hfits := h.fits
  unfold fat32_seek
  cases hch : chain with
  | nil =>
    have hstart : f.start_cluster = 0 := h.start_zero.mpr hch
    subst hch
    rw [length_nil, Nat.zero_mul] at hfits
    rw [if_neg (by simp [hstart])]
    exact ⟨⟨⟨h.vol, h.start, h.is_dir, h.fits, h.word⟩, hp, .inl ⟨rfl, by dsimp only; omega⟩⟩, rfl,
      rfl⟩
  | cons c rest =>
    have hstart : f.start_cluster = chain.getD 0 0 := by
      rw [h.start, hch]
      rfl
    have hlen : 0 < chain.length := by simp [hch]
    rw [← hch]
    have h2 := (h.vol.links.inRange hlen).1
    rw [← hstart] at h2
    rw [if_pos (by simpa [h.is_dir] using h2)]
    refine ⟨⟨⟨h.vol, h.start, h.is_dir, hfits, h.word⟩, hp, ?_⟩, rfl, rfl⟩
    have hmod := mod_lt n hsize
    have hdm := div_add_mod n g.cluster_size
    rw [mul_comm] at hdm
    by_cases hlt : n / g.cluster_size < chain.length
    · refine .inr (.inl ⟨n / g.cluster_size, hlt, ?_, le_of_lt hmod, hdm.symm⟩)
      rw [hstart, seek_walk_spec hg h.vol.links hlen, zero_add, min_eq_left (by omega)]
    have hle : chain.length * g.cluster_size ≤ n / g.cluster_size * g.cluster_size :=
      mul_le_mul_right _ (not_lt.mp hlt)
    refine .inr (.inr ⟨?_, ?_, ?_⟩)
    · rw [hch]
      simp
    · dsimp only
      omega
    · dsimp only
      omega

/-! ## Setting the size -/

section

variable (h : FileOk g v f chain)

include h

/-- Zeros at the end of the file: the bytes before them stay. -/
lemma grow_loop_spec (hend : f.pos = f.size) {fuel : Nat}
    (hfuel : n < fuel) (hw : f.size + n < 2 ^ 32)
    (hroom : f.size + n ≤ (chain.length + free_count g v.bdev) * g.cluster_size)
    (hnot : n ≠ 0 → ¬ PastEnd g f chain) :
    ∃ v' f' chain', grow_loop g fuel v f n = some (v', f', true) ∧ FileOk g v' f' chain' ∧
      f'.size = f.size + n ∧ f'.pos = f.pos + n ∧
      ∀ m, m < f.size → fbyte g v'.bdev chain' m = fbyte g v.bdev chain m := by
  induction fuel generalizing v f chain n with
  | zero => omega
  | succ fuel ih =>
    rw [grow_loop]
    by_cases hn : n = 0
    · subst hn
      exact ⟨v, f, chain, if_pos rfl, h, rfl, rfl, fun _ _ => rfl⟩
    rw [if_neg hn]
    dsimp only
    obtain ⟨k, hk⟩ : ∃ k, k = min n SECTOR := ⟨_, rfl⟩
    rw [← hk]
    have hk0 : 0 < k := by
      unfold SECTOR at hk
      omega
    have hlen : (List.replicate k (0 : UInt8)).length = k := length_replicate
    have hne : List.replicate k (0 : UInt8) ≠ [] := fun hc => by
      rw [hc, length_nil] at hlen
      omega
    obtain ⟨v1, f1, chain1, hcall, hF⟩ := write_spec h (List.replicate k 0) (by omega)
      (by omega) (fun _ => hnot hn)
    obtain ⟨i, hat⟩ := hF.inside hne
    have hsize1 := hF.size
    have hpos1 := hF.pos
    rw [hcall]
    dsimp only
    rw [if_neg (by simp)]
    obtain ⟨v', f', chain', hloop, hok, hsize, hpos, hbytes⟩ := @ih v1 f1 (n - k) chain1 hF.ok
      (by omega) (by omega) (by omega) (by rw [hF.budget]; omega)
      (fun _ => hat.not_pastEnd hF.ok.vol.geom)
    refine ⟨v', f', chain', hloop, hok, by omega, by omega, ?_⟩
    intro m hm
    have hfits := h.fits
    rw [hbytes m (by omega), hF.bytes m (.inl (by omega)), put_outside (by omega)]

/-- A write to the sector of the directory entry does not touch the file. -/
lemma FileOk.slot_write (hs : f.dir_sector ≠ 0) (hw : Writes (fun t => t = f.dir_sector) v v') :
    FileOk g v' f chain ∧ ∀ m, m < chain.length * g.cluster_size →
      fbyte g v'.bdev chain m = fbyte g v.bdev chain m := by
  have hg := h.vol.geom
  obtain ⟨hnf, hall⟩ := h.vol.slot.resolve_left hs
  have hfat : ∀ x, InRange g x → fat g v'.bdev x = fat g v.bdev x := fun x hx =>
    fat_congr hg hw.dev (fun t ht => ht ▸ hnf) (hg.entry_lt hx)
  refine ⟨⟨⟨⟨hw.geom hg, h.vol.links.congr fun c hc => hfat c (h.vol.links.range c hc),
    h.vol.slot.mono fun x hx hor => ?_⟩, h.start, h.is_dir, h.fits, h.word⟩, h.pos_le,
      h.cursor⟩, ?_⟩
  · rwa [hfat x hx] at hor
  intro m hm
  have hmi := cluster_lt hm
  refine clus_congr hg hw.dev ?_ (mod_lt _ hg.size_pos)
  rintro t ht rfl
  exact hall _ (h.vol.links.inRange hmi) (.inl (getD_mem hmi)) ht

lemma flush_size_spec (now : Stamp) :
    FileOk g (flush_size v f now) f chain ∧ ∀ m, m < chain.length * g.cluster_size →
      fbyte g (flush_size v f now).bdev chain m = fbyte g v.bdev chain m := by
  unfold flush_size
  by_cases hs : f.dir_sector = 0
  · rw [if_pos hs]
    exact ⟨h, fun _ _ => rfl⟩
  rw [if_neg hs]
  by_cases hfit : f.dir_sector + 1 ≤ v.bdev.num_sectors
  · rw [blockdev_read_ok hfit]
    dsimp only
    rw [bwrite_ok hfit]
    exact h.slot_write hs (writes_store.mono fun t ht => by omega)
  · rw [blockdev_read, if_pos (not_le.mp hfit)]
    exact ⟨h, fun _ _ => rfl⟩

lemma set_file_size_spec (hn : n < 2 ^ 32)
    (hroom : n ≤ (chain.length + free_count g v.bdev) * g.cluster_size ∨ n ≤ f.size)
    (hnot : f.size < n → f.start_cluster ≠ 0 → f.size ≠ chain.length * g.cluster_size)
    (now : Stamp) :
    ∃ v' f' chain', fat32_set_file_size g v f n now = some (v', f', 0) ∧ FileOk g v' f' chain' ∧
      f'.size = n ∧ f'.pos = min f.pos n ∧
      ∀ m, m < min f.size n → fbyte g v'.bdev chain' m = fbyte g v.bdev chain m := by
  have hps := h.pos_le
  have hfits := h.fits
  unfold fat32_set_file_size
  rw [if_neg h.not_dir]
  by_cases hgrow : f.size < n
  · rw [if_pos hgrow]
    obtain ⟨h0, hpos0, hsize0⟩ := seek_spec h.toHandleOk (le_refl f.size)
    have hstart0 : (fat32_seek g v.bdev f f.size).start_cluster = f.start_cluster := by
      unfold fat32_seek
      split <;> rfl
    obtain ⟨v1, f1, chain1, hloop, h1, hsize1, hpos1, hbytes1⟩ := grow_loop_spec h0 (by omega)
      (lt_succ_self (n - f.size)) (by omega) (by rw [hsize0]; omega) (by
        rintro _ ⟨hs, _, hp⟩
        exact hnot hgrow (hstart0 ▸ hs) (by omega))
    rw [hloop]
    dsimp only
    obtain ⟨h2, hpos2, hsize2⟩ := seek_spec h1.toHandleOk (n := f.pos) (by omega)
    generalize fat32_seek g v1.bdev f1 f.pos = f2 at *
    obtain ⟨h3, hbytes3⟩ := flush_size_spec h2 now
    refine ⟨_, f2, chain1, rfl, h3, by omega, by omega, ?_⟩
    intro m hm
    have := h2.fits
    rw [hbytes3 m (by omega), hbytes1 m (by omega)]
  · rw [if_neg hgrow]
    dsimp only
    have hcut : HandleOk g v { f with size := n } chain :=
      ⟨h.vol, h.start, h.is_dir, by dsimp only; omega, hn⟩
    obtain ⟨f2, hf2, h2, hsize2, hpos2⟩ : ∃ f2, f2 = (if n < f.pos then
        fat32_seek g v.bdev { f with size := n } n else { f with size := n }) ∧
        FileOk g v f2 chain ∧ f2.size = n ∧ f2.pos = min f.pos n := by
      by_cases hlt : n < f.pos
      · obtain ⟨h2, hpos2, hsize2⟩ := seek_spec hcut (le_refl n)
        exact ⟨_, (if_pos hlt).symm, h2, hsize2, by omega⟩
      · refine ⟨_, (if_neg hlt).symm, ⟨hcut, by dsimp only; omega, ?_⟩, rfl, by dsimp only; omega⟩
        exact h.cursor.same_place rfl rfl rfl
    rw [← hf2]
    obtain ⟨h3, hbytes3⟩ := flush_size_spec h2 now
    refine ⟨_, f2, chain, rfl, h3, hsize2, hpos2, ?_⟩
    intro m hm
    exact hbytes3 m (by omega)

end

end uaos.fat32
