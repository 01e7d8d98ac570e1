-- Cluster allocation in the FAT32 driver: which cluster fat32_alloc_cluster takes,
-- what it changes, and how chains grow and are freed.
import Uaos.Chain
import Uaos.FatDisk

namespace uaos.fat32

open Finset Nat

variable {g : Geom} {v v' : Vol} {d d' : BlockDev} {n c x t : Nat} {P : Nat → Prop}

/-! ## The search -/

/-- The number of free clusters: the zero entries of the FAT. -/
def free_count (g : Geom) (d : BlockDev) : Nat :=
  ((Finset.Ico 2 (g.total_clusters + 2)).filter fun c => fat g d c = 0).card

/-- The FSINFO sector that is marked unknown. -/
def FsInfo (g : Geom) (t : Nat) : Prop := t = g.fs_info ∧ t ≠ 0 ∧ t < g.fat_start

lemma fsinfo_spec (g : Geom) (v : Vol) : Writes (FsInfo g) v (fat32_fsinfo_invalidate g v) := by
  have hstale : Writes (FsInfo g) v { v with fsinfo_stale := true } :=
    ⟨Touches.refl _ _, rfl⟩
  unfold fat32_fsinfo_invalidate
  split
  · exact Writes.refl _ v
  dsimp only
  split
  · exact hstale
  rename_i hsec
  split
  · exact hstale
  split
  · exact hstale
  rename_i buf hread _
  have hle : g.fs_info + 1 ≤ v.bdev.num_sectors := by
    unfold blockdev_read at hread
    split at hread
    · cases hread
    · exact not_lt.mp ‹_›
  rw [bwrite_ok (v := { v with fsinfo_stale := true }) hle]
  refine hstale.trans (writes_store.mono ?_)
  intro t ht
  exact ⟨by omega, by omega, by omega⟩

lemma entry_is_free_eq (hg : GeomOk g n) {sec e : Nat} (hs : sec < g.fat_sz32)
    (he : e < ENTS_PER_SEC)
    {b : Buf} (hb : ∀ j, j < SECTOR → b j = d.data (g.fat_start + sec) j) :
    entry_is_free g b sec e = true ↔
      InRange g (sec * ENTS_PER_SEC + e) ∧ fat g d (sec * ENTS_PER_SEC + e) = 0 := by
  have hlt : sec * ENTS_PER_SEC + e < g.fat_sz32 * ENTS_PER_SEC := by
    have := row_le hs ENTS_PER_SEC
    omega
  have hsmall := hg.small
  have hfew := hg.few
  unfold FAT32_EOC_MIN at hfew
  have hdiv : (sec * ENTS_PER_SEC + e) / ENTS_PER_SEC = sec := by
    rw [mul_comm, mul_add_div (by decide), div_eq_of_lt he, add_zero]
  have hmod : (sec * ENTS_PER_SEC + e) % ENTS_PER_SEC = e := by
    rw [mul_comm, mul_add_mod, mod_eq_of_lt he]
  have hle : le32 b (e * 4) = le32 (d.data (g.fat_start + sec)) (e * 4) := by
    refine le32_congr fun k hk => hb _ ?_
    unfold ENTS_PER_SEC SECTOR at he
    unfold SECTOR
    omega
  unfold entry_is_free
  rw [u32_of_lt (show sec * ENTS_PER_SEC + e < 2 ^ 32 by omega),
    u32_of_lt (show g.total_clusters + 2 < 2 ^ 32 by omega), hle]
  simp only [Bool.and_eq_true, decide_eq_true_eq]
  rw [InRange, fat, hdiv, hmod]

lemma find_free_cluster_spec (hg : GeomOk g d.num_sectors) {k sec : Nat}
    (hk : sec + k = g.fat_sz32) : (find_free_cluster g d k sec = none ∧
      ∀ x, InRange g x → sec * ENTS_PER_SEC ≤ x → fat g d x ≠ 0) ∨
    ∃ c, find_free_cluster g d k sec = some c ∧ InRange g c ∧ fat g d c = 0 ∧
      ∀ x, InRange g x → sec * ENTS_PER_SEC ≤ x → x < c → fat g d x ≠ 0 := by
  induction k generalizing sec with
  | zero =>
    refine .inl ⟨rfl, ?_⟩
    intro x hx hsec
    have := hg.entry_lt hx
    rw [add_zero] at hk
    rw [hk] at hsec
    omega
  | succ k ih =>
    have hs : sec < g.fat_sz32 := by omega
    have hsec : g.fat_start + sec + 1 ≤ d.num_sectors ∧ g.fat_start + sec < 2 ^ 32 := by
      have hlt : sec * ENTS_PER_SEC < g.fat_sz32 * ENTS_PER_SEC :=
        Nat.mul_lt_mul_of_pos_right hs (by decide)
      have := hg.fat_sector_lt hlt hg.fats
      rw [Nat.mul_div_cancel _ (by decide)] at this
      have hroom := hg.room
      have hword := hg.word
      omega
    have hb : ∀ j, j < SECTOR → d.data (g.fat_start + sec + j / SECTOR) (j % SECTOR) =
        d.data (g.fat_start + sec) j := fun j hj => sector_apply hj
    have hfree := fun e he => @entry_is_free_eq g d _ hg sec e hs he
      (fun j => d.data (g.fat_start + sec + j / SECTOR) (j % SECTOR)) hb
    rw [find_free_cluster, u32_of_lt hsec.2, blockdev_read_ok hsec.1]
    dsimp only
    -- an entry of this sector is the `x % ENTS_PER_SEC`-th of it
    have hin : ∀ x, sec * ENTS_PER_SEC ≤ x → x < (sec + 1) * ENTS_PER_SEC →
        ∃ e, e < ENTS_PER_SEC ∧ x = sec * ENTS_PER_SEC + e := by
      intro x h1 h2
      rw [add_mul, one_mul] at h2
      exact ⟨x - sec * ENTS_PER_SEC, by omega, by omega⟩
    cases hfind : (List.range' 0 ENTS_PER_SEC).find? (entry_is_free g
      (fun j => d.data (g.fat_start + sec + j / SECTOR) (j % SECTOR)) sec) with
    | none =>
      have hnone := List.find?_range'_eq_none.mp hfind
      have hthis : ∀ x, InRange g x → sec * ENTS_PER_SEC ≤ x → x < (sec + 1) * ENTS_PER_SEC →
          fat g d x ≠ 0 := by
        intro x hx h1 h2 h0
        obtain ⟨e, he, rfl⟩ := hin x h1 h2
        have := hnone e (zero_le _) (by omega)
        rw [(hfree e he).mpr ⟨hx, h0⟩] at this
        cases this
      rcases @ih (sec + 1) (by omega) with ⟨hn, hall⟩ | ⟨c, hc, hr, h0, hall⟩
      · refine .inl ⟨hn, ?_⟩
        intro x hx h1
        by_cases h2 : x < (sec + 1) * ENTS_PER_SEC
        · exact hthis x hx h1 h2
        · exact hall x hx (not_lt.mp h2)
      · refine .inr ⟨c, hc, hr, h0, ?_⟩
        intro x hx h1 hlt
        by_cases h2 : x < (sec + 1) * ENTS_PER_SEC
        · exact hthis x hx h1 h2
        · exact hall x hx (not_lt.mp h2) hlt
    | some e =>
      obtain ⟨hp, hmem, hbelow⟩ := List.find?_range'_eq_some.mp hfind
      have he : e < ENTS_PER_SEC := by simpa using hmem
      obtain ⟨hr, h0⟩ := (hfree e he).mp hp
      have hu : u32 (sec * ENTS_PER_SEC + e) = sec * ENTS_PER_SEC + e := by
        have := hg.entry_lt hr
        have hsmall := hg.small
        exact u32_of_lt (by omega)
      refine .inr ⟨sec * ENTS_PER_SEC + e, by simp [hu], hr, h0, ?_⟩
      intro x hx h1 hlt hx0
      obtain ⟨e', he', rfl⟩ := hin x h1 (by rw [add_mul, one_mul]; omega)
      have := hbelow e' (zero_le _) (by omega)
      rw [(hfree e' he').mpr ⟨hx, hx0⟩] at this
      cases this

/-! ## Allocation -/

/-- The sectors that an allocation of `c` writes. -/
def AllocArea (g : Geom) (c t : Nat) : Prop := InFat g t ∨ InClus g c t ∨ FsInfo g t

/-- The cluster `c` was free, and is now a chain of one zeroed cluster. -/
structure Allocated (g : Geom) (v v' : Vol) (c : Nat) : Prop where
  range : InRange g c
  free : fat g v.bdev c = 0
  entry : ∀ x, x < g.fat_sz32 * ENTS_PER_SEC →
    fat g v'.bdev x = if x = c then FAT32_EOC else fat g v.bdev x
  zero : ∀ j, j < g.cluster_size → clus g v'.bdev c j = 0
  dev : Touches (AllocArea g c) v.bdev v'.bdev

lemma fsInfo_not_inFat (h : FsInfo g t) : ¬ InFat g t := by
  unfold FsInfo at h
  unfold InFat
  omega

lemma alloc_cluster_spec (hg : GeomOk g v.bdev.num_sectors) :
    (fat32_alloc_cluster g v = (v, 0) ∧ ∀ x, InRange g x → fat g v.bdev x ≠ 0) ∨
    ∃ v' c, fat32_alloc_cluster g v = (v', c) ∧ Allocated g v v' c := by
  unfold fat32_alloc_cluster
  rcases @find_free_cluster_spec g v.bdev hg g.fat_sz32 0 (zero_add _) with
    ⟨hnone, hall⟩ | ⟨c, hsome, hr, h0, hall⟩
  · rw [hnone]
    exact .inl ⟨rfl, fun x hx => hall x hx (by omega)⟩
  rw [hsome]
  dsimp only
  have hw1 := fsinfo_spec g v
  obtain ⟨v2, hset, hw2, hfat⟩ := set_fat_entry_spec (hw1.geom hg) hr FAT32_EOC
  obtain ⟨v3, hzero, hw3, hz⟩ := zero_cluster_spec (hw2.geom (hw1.geom hg)) hr
  rw [hset]
  dsimp only
  rw [hzero]
  have hkeep3 : ∀ t, InClus g c t → ¬ InFat g t := fun t ht => inClus_not_inFat hr ht
  have htouch : Touches (AllocArea g c) v.bdev v3.bdev :=
    (hw1.dev.mono fun t ht => .inr (.inr ht)).trans
      ((hw2.dev.mono fun t ht => .inl ht).trans (hw3.dev.mono fun t ht => .inr (.inl ht)))
  have hentry : ∀ x, x < g.fat_sz32 * ENTS_PER_SEC →
      fat g v3.bdev x = if x = c then FAT32_EOC else fat g v.bdev x := by
    intro x hx
    rw [fat_congr hg hw3.dev hkeep3 hx, hfat x hx,
      fat_congr hg hw1.dev (fun t ht => fsInfo_not_inFat ht) hx]
    rfl
  refine .inr ⟨_, c, rfl, hr, h0, ?_, ?_, ?_⟩
  · split <;> exact hentry
  · split <;> exact hz
  · split <;> exact htouch

lemma Allocated.geom (h : Allocated g v v' c) (hg : GeomOk g v.bdev.num_sectors) :
    GeomOk g v'.bdev.num_sectors := h.dev.size ▸ hg

lemma Allocated.ne_zero (h : Allocated g v v' c) : c ≠ 0 := by
  have := h.range.1
  omega

section

variable (hg : GeomOk g n)

include hg

lemma GeomOk.mod_of_inRange (hc : InRange g c) : c % 2 ^ 28 = c := by
  have hfew := hg.few
  have := hc.2
  unfold FAT32_EOC_MIN at hfew
  exact mod_eq_of_lt (by omega)

lemma GeomOk.not_eoc (hc : InRange g c) : is_eoc c = false := by
  have hfew := hg.few
  have := hc.2
  simp only [is_eoc, decide_eq_false_iff_not]
  omega

lemma GeomOk.linked (hc : InRange g c) : ¬ (c < 2 ∨ is_eoc c = true) := by
  rw [hg.not_eoc hc]
  have := hc.1
  rintro (h | h)
  · omega
  · cases h

lemma GeomOk.inClus_not_fsInfo (hc : InRange g c) (ht : InClus g c t) : ¬ FsInfo g t := by
  have := (inClus_room hc ht).1
  have := hg.data
  unfold FsInfo
  omega

/-- No other cluster than the new one is in the area of an allocation. -/
lemma GeomOk.of_allocArea {x : Nat} (hx : InRange g x) (hc : InRange g c)
    (ht : InClus g x t) (ha : AllocArea g c t) : x = c := by
  rcases ha with hf | hin | hinfo
  · exact absurd hf (inClus_not_inFat hx ht)
  · exact hg.inClus_unique hx.1 hc.1 ht hin
  · exact absurd hinfo (hg.inClus_not_fsInfo hx ht)

end

/-- The chain that ended at `last` goes on to the new cluster `c`. -/
structure Extended (g : Geom) (v v' : Vol) (last c : Nat) : Prop where
  range : InRange g c
  free : fat g v.bdev c = 0
  entry : ∀ x, x < g.fat_sz32 * ENTS_PER_SEC →
    fat g v'.bdev x = if x = c then FAT32_EOC else if x = last then c else fat g v.bdev x
  dev : Touches (AllocArea g c) v.bdev v'.bdev

lemma extend_chain_spec (hg : GeomOk g v.bdev.num_sectors) {last : Nat} (hl : InRange g last) :
    (fat32_extend_chain g v last = (v, 0) ∧ ∀ x, InRange g x → fat g v.bdev x ≠ 0) ∨
    ∃ v' c, fat32_extend_chain g v last = (v', c) ∧ Extended g v v' last c := by
  unfold fat32_extend_chain
  rcases alloc_cluster_spec hg with ⟨hnone, hall⟩ | ⟨v1, c, hsome, ha⟩
  · rw [hnone]
    exact .inl ⟨rfl, hall⟩
  have hg1 := ha.geom hg
  obtain ⟨v2, hset, hw2, hfat2⟩ := set_fat_entry_spec hg1 hl c
  have hg2 := hw2.geom hg1
  obtain ⟨v3, hset3, hw3, hfat3⟩ := set_fat_entry_spec hg2 ha.range FAT32_EOC
  rw [hsome]
  dsimp only
  rw [if_neg ha.ne_zero, if_pos hl.1, hset, hset3]
  have harea : ∀ t, InFat g t → AllocArea g c t := fun t ht => .inl ht
  refine .inr ⟨v3, c, rfl, ha.range, ha.free, ?_, ?_⟩
  · intro x hx
    rw [hfat3 x hx, hfat2 x hx, ha.entry x hx, hg.mod_of_inRange ha.range]
    by_cases hxc : x = c
    · simp [hxc, FAT32_EOC]
    · simp [hxc]
  · exact ha.dev.trans ((hw2.dev.mono harea).trans (hw3.dev.mono harea))

/-! ## The free clusters -/

lemma free_count_pos (h : 0 < free_count g d) : ∃ x, InRange g x ∧ fat g d x = 0 := by
  obtain ⟨x, hx⟩ := card_pos.mp h
  obtain ⟨hm, h0⟩ := mem_filter.mp hx
  exact ⟨x, mem_Ico.mp hm, h0⟩

lemma free_count_congr (h : ∀ x, InRange g x → (fat g d' x = 0 ↔ fat g d x = 0)) :
    free_count g d' = free_count g d := by
  unfold free_count
  congr 1
  refine filter_congr ?_
  intro x hx
  exact h x (mem_Ico.mp hx)

/-- One free cluster is taken, and nothing else changes between free and used. -/
lemma free_count_take (hr : InRange g c) (h0 : fat g d c = 0) (h1 : fat g d' c ≠ 0)
    (h : ∀ x, InRange g x → x ≠ c → (fat g d' x = 0 ↔ fat g d x = 0)) :
    free_count g d' + 1 = free_count g d := by
  have hmem : c ∈ (Finset.Ico 2 (g.total_clusters + 2)).filter fun c => fat g d c = 0 :=
    mem_filter.mpr ⟨mem_Ico.mpr hr, h0⟩
  have herase : (Finset.Ico 2 (g.total_clusters + 2)).filter (fun c => fat g d' c = 0) =
      ((Finset.Ico 2 (g.total_clusters + 2)).filter fun c => fat g d c = 0).erase c := by
    ext x
    rw [mem_erase, mem_filter, mem_filter]
    constructor
    · rintro ⟨hx, hx0⟩
      have hxc : x ≠ c := by
        rintro rfl
        exact h1 hx0
      exact ⟨hxc, hx, (h x (mem_Ico.mp hx) hxc).mp hx0⟩
    · rintro ⟨hxc, hx, hx0⟩
      exact ⟨hx, (h x (mem_Ico.mp hx) hxc).mpr hx0⟩
  unfold free_count
  rw [herase]
  exact card_erase_add_one hmem

lemma Allocated.free_count (h : Allocated g v v' c) (hg : GeomOk g v.bdev.num_sectors) :
    fat32.free_count g v'.bdev + 1 = fat32.free_count g v.bdev := by
  refine free_count_take h.range h.free ?_ ?_
  · rw [h.entry c (hg.entry_lt h.range), if_pos rfl]
    decide
  · intro x hx hxc
    rw [h.entry x (hg.entry_lt hx), if_neg hxc]

lemma Extended.free_count {last : Nat} (h : Extended g v v' last c)
    (hg : GeomOk g v.bdev.num_sectors) (hused : fat g v.bdev last ≠ 0) :
    fat32.free_count g v'.bdev + 1 = fat32.free_count g v.bdev := by
  refine free_count_take h.range h.free ?_ ?_
  · rw [h.entry c (hg.entry_lt h.range), if_pos rfl]
    decide
  intro x hx hxc
  rw [h.entry x (hg.entry_lt hx), if_neg hxc]
  split
  · rename_i hxl
    subst hxl
    have := h.range.1
    exact ⟨fun hc => by omega, fun hc => absurd hc hused⟩
  · rfl

end uaos.fat32
