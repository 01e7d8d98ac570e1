-- What the sector writes of the FAT32 driver do to a volume: the FAT as a map from
-- clusters to entries, the bytes of each cluster, and the rest of the device.
import Uaos.Fat

namespace uaos.fat32

open Nat

variable {g : Geom} {v v' : Vol} {d d' : BlockDev} {n c x t : Nat} {buf : Buf}

/-! ## The views of a volume -/

/-- The geometry of a volume that fits its FAT, its device of `n` sectors and the
28 bits of an entry. -/
structure GeomOk (g : Geom) (n : Nat) : Prop where
  spc : 0 < g.sec_per_clus
  spc_le : g.sec_per_clus ≤ FAT32_MAX_CLUSTER_SECS
  size : g.cluster_size = SECTOR * g.sec_per_clus
  fats : 0 < g.num_fats
  data : g.data_start = g.fat_start + g.num_fats * g.fat_sz32
  cap : g.total_clusters + 2 ≤ g.fat_sz32 * ENTS_PER_SEC
  few : g.total_clusters + 2 ≤ FAT32_EOC_MIN
  small : g.fat_sz32 * ENTS_PER_SEC ≤ 2 ^ 32
  room : g.data_start + g.total_clusters * g.sec_per_clus ≤ n
  word : g.data_start + g.total_clusters * g.sec_per_clus < 2 ^ 32

/-- A cluster of the data area. -/
def InRange (g : Geom) (c : Nat) : Prop := 2 ≤ c ∧ c < g.total_clusters + 2

instance (g : Geom) (c : Nat) : Decidable (InRange g c) :=
  inferInstanceAs (Decidable (2 ≤ c ∧ c < g.total_clusters + 2))

/-- The entry of the cluster `c` in the first FAT. -/
def fat (g : Geom) (d : BlockDev) (c : Nat) : Nat :=
  le32 (d.data (g.fat_start + c / ENTS_PER_SEC)) (c % ENTS_PER_SEC * 4) % 2 ^ 28

/-- The first sector of the cluster `c`. -/
def sector_of (g : Geom) (c : Nat) : Nat := g.data_start + (c - 2) * g.sec_per_clus

/-- The byte `j` of the cluster `c`. -/
def clus (g : Geom) (d : BlockDev) (c j : Nat) : UInt8 :=
  d.data (sector_of g c + j / SECTOR) (j % SECTOR)

/-- The sectors of the FATs. -/
def InFat (g : Geom) (t : Nat) : Prop := g.fat_start ≤ t ∧ t < g.data_start

/-- The sectors of the cluster `c`. -/
def InClus (g : Geom) (c t : Nat) : Prop := sector_of g c ≤ t ∧ t < sector_of g c + g.sec_per_clus

lemma GeomOk.size_pos (hg : GeomOk g n) : 0 < g.cluster_size := by
  rw [hg.size]
  exact mul_pos (by decide) hg.spc

lemma GeomOk.size_le (hg : GeomOk g n) : g.cluster_size ≤ 65536 := by
  have := hg.spc_le
  rw [hg.size]
  unfold SECTOR FAT32_MAX_CLUSTER_SECS at *
  omega

lemma GeomOk.entry_lt (hg : GeomOk g n) (hc : InRange g c) :
    c < g.fat_sz32 * ENTS_PER_SEC := lt_of_lt_of_le hc.2 hg.cap

lemma GeomOk.fat_sector_lt (hg : GeomOk g n) (hc : c < g.fat_sz32 * ENTS_PER_SEC)
    {f : Nat} (hf : f < g.num_fats) :
    g.fat_start + f * g.fat_sz32 + c / ENTS_PER_SEC < g.data_start := by
  have hr : c / ENTS_PER_SEC < g.fat_sz32 := Nat.div_lt_of_lt_mul (by rwa [mul_comm])
  have := row_le hf g.fat_sz32
  have := hg.data
  omega

lemma inClus_room (hc : InRange g c) (ht : InClus g c t) :
    g.data_start ≤ t ∧ t < g.data_start + g.total_clusters * g.sec_per_clus := by
  obtain ⟨h2, hlt⟩ := hc
  have := row_le (show c - 2 < g.total_clusters by omega) g.sec_per_clus
  unfold InClus sector_of at ht
  omega

/-- A sector of the data area lies in one cluster. -/
lemma GeomOk.inClus_unique (hg : GeomOk g n) (hc : 2 ≤ c) (hx : 2 ≤ x)
    (htc : InClus g c t) (htx : InClus g x t) : c = x := by
  have hspc := hg.spc
  unfold InClus sector_of at htc htx
  have h1 : (t - g.data_start) / g.sec_per_clus = c - 2 := by
    rw [Nat.div_eq_iff hspc]
    omega
  have h2 : (t - g.data_start) / g.sec_per_clus = x - 2 := by
    rw [Nat.div_eq_iff hspc]
    omega
  omega

lemma GeomOk.inClus_of_lt (hg : GeomOk g n) {j : Nat} (hj : j < g.cluster_size) :
    InClus g c (sector_of g c + j / SECTOR) := by
  rw [hg.size] at hj
  refine ⟨le_self_add, ?_⟩
  have : j / SECTOR < g.sec_per_clus := Nat.div_lt_of_lt_mul hj
  omega

/-! ## Reads -/

lemma GeomOk.cluster_to_sector (hg : GeomOk g n) (hc : InRange g c) :
    fat32_cluster_to_sector g c = sector_of g c := by
  have hroom := inClus_room hc (t := sector_of g c) ⟨le_refl _, by have := hg.spc; omega⟩
  have hword := hg.word
  have hfew := hg.few
  unfold FAT32_EOC_MIN at hfew
  obtain ⟨h2, hlt⟩ := hc
  unfold sector_of at hroom ⊢
  unfold fat32_cluster_to_sector
  have hmul : u32 ((c - 2) * g.sec_per_clus) = (c - 2) * g.sec_per_clus := u32_of_lt (by omega)
  rw [sub32_of_le h2 (by omega), hmul, u32_of_lt (by omega)]

/-- Where the entry of a cluster is. -/
lemma GeomOk.entry_place (hg : GeomOk g n) (hc : InRange g c) :
    u32 (c * 4) / SECTOR = c / ENTS_PER_SEC ∧ u32 (c * 4) % SECTOR = c % ENTS_PER_SEC * 4 ∧
      u32 (g.fat_start + c / ENTS_PER_SEC) = g.fat_start + c / ENTS_PER_SEC ∧
      g.fat_start + c / ENTS_PER_SEC + 1 ≤ n := by
  have hsec := hg.fat_sector_lt (hg.entry_lt hc) hg.fats
  have hroom := hg.room
  have hword := hg.word
  have hfew := hg.few
  have hlt := hc.2
  unfold FAT32_EOC_MIN at hfew
  rw [u32_of_lt (show c * 4 < 2 ^ 32 by omega)]
  refine ⟨?_, ?_, u32_of_lt (by omega), by omega⟩
  · unfold SECTOR ENTS_PER_SEC SECTOR
    omega
  · unfold SECTOR ENTS_PER_SEC SECTOR
    omega

lemma get_fat_entry_eq (hg : GeomOk g d.num_sectors) (hc : InRange g c) :
    fat32_get_fat_entry g d c = fat g d c := by
  obtain ⟨hdiv, hmod, hu, hle⟩ := hg.entry_place hc
  unfold fat32_get_fat_entry fat
  simp only [hdiv, hmod]
  rw [hu, blockdev_read_ok hle]
  refine congrArg (· % 2 ^ 28) (le32_congr ?_)
  intro k hk
  have hlt : c % ENTS_PER_SEC * 4 + k < SECTOR := by
    unfold ENTS_PER_SEC SECTOR
    omega
  exact sector_apply hlt

lemma read_cluster_eq (hg : GeomOk g d.num_sectors) (hc : InRange g c) :
    ∃ b, fat32_read_cluster g d c = some b ∧ ∀ j, j < g.cluster_size → b j = clus g d c j := by
  have hroom : ∀ i, i < g.sec_per_clus → u32 (sector_of g c + i) = sector_of g c + i ∧
      sector_of g c + i + 1 ≤ d.num_sectors := by
    intro i hi
    have := inClus_room hc (t := sector_of g c + i) ⟨le_self_add, by omega⟩
    have hr := hg.room
    have hw := hg.word
    exact ⟨u32_of_lt (by omega), by omega⟩
  unfold fat32_read_cluster
  rw [if_neg (not_lt.mpr hc.1), hg.cluster_to_sector hc]
  have hall : ((List.range g.sec_per_clus).all fun i =>
      (blockdev_read d (u32 (sector_of g c + i)) 1).isSome) = true := by
    rw [List.all_eq_true]
    intro i hi
    obtain ⟨hu, hle⟩ := hroom i (List.mem_range.mp hi)
    rw [hu, blockdev_read_ok hle]
    rfl
  simp only [hall, if_true]
  refine ⟨_, rfl, ?_⟩
  intro j hj
  have hjs : j / SECTOR < g.sec_per_clus := Nat.div_lt_of_lt_mul (by rwa [← hg.size])
  simp only [(hroom _ hjs).1, clus]

/-! ## Writes -/

/-- Writes to sectors of `P` that leave the free count. -/
structure Writes (P : Nat → Prop) (v v' : Vol) : Prop where
  dev : Touches P v.bdev v'.bdev
  free : v'.free_clusters = v.free_clusters

variable {P Q : Nat → Prop}

lemma Writes.refl (P : Nat → Prop) (v : Vol) : Writes P v v := ⟨Touches.refl P _, rfl⟩

lemma Writes.mono (h : Writes P v v') (hPQ : ∀ t, P t → Q t) : Writes Q v v' :=
  ⟨h.dev.mono hPQ, h.free⟩

lemma Writes.trans {v'' : Vol} (h : Writes P v v') (h' : Writes P v' v'') : Writes P v v'' :=
  ⟨h.dev.trans h'.dev, h'.free.trans h.free⟩

lemma Writes.geom (h : Writes P v v') (hg : GeomOk g v.bdev.num_sectors) :
    GeomOk g v'.bdev.num_sectors := h.dev.size ▸ hg

lemma bwrite_ok {s k : Nat} (h : s + k ≤ v.bdev.num_sectors) :
    fat32_bwrite v s buf k =
      ({ v with bdev := v.bdev.store s buf k, dir_buf_cluster := 0 }, true) := by
  simp [fat32_bwrite, blockdev_write_ok h]

lemma writes_store {s k : Nat} :
    Writes (fun t => s ≤ t ∧ t < s + k) v
      { v with bdev := v.bdev.store s buf k, dir_buf_cluster := 0 } :=
  ⟨touches_store, rfl⟩

/-- The FAT is read from sectors of the FAT. -/
lemma fat_congr (hg : GeomOk g n) (h : Touches P d d') (hP : ∀ t, P t → ¬ InFat g t)
    (hc : c < g.fat_sz32 * ENTS_PER_SEC) : fat g d' c = fat g d c := by
  have hsec := hg.fat_sector_lt hc hg.fats
  unfold fat
  rw [h.keep]
  intro hp
  exact hP _ hp ⟨le_self_add, by omega⟩

lemma clus_congr (hg : GeomOk g n) (h : Touches P d d') (hP : ∀ t, InClus g c t → ¬ P t)
    {j : Nat} (hj : j < g.cluster_size) : clus g d' c j = clus g d c j := by
  unfold clus
  rw [h.keep _ (hP _ (hg.inClus_of_lt hj))]

lemma inClus_not_inFat (hc : InRange g c) (ht : InClus g c t) : ¬ InFat g t := by
  have := inClus_room hc ht
  unfold InFat
  omega

lemma write_sectors_spec {sec i k : Nat}
    (h : ∀ m, i ≤ m → m < i + k → u32 (sec + m) = sec + m ∧ sec + m + 1 ≤ v.bdev.num_sectors) :
    ∃ v', write_sectors buf sec k i v = (v', true) ∧
      Writes (fun t => sec + i ≤ t ∧ t < sec + i + k) v v' ∧
      ∀ m, i ≤ m → m < i + k → ∀ j, j < SECTOR → v'.bdev.data (sec + m) j =
        buf (m * SECTOR + j) := by
  induction k generalizing i v with
  | zero => exact ⟨v, rfl, Writes.refl _ v, fun m h1 h2 => by omega⟩
  | succ k ih =>
    obtain ⟨hu, hle⟩ := h i (le_refl _) (by omega)
    have hw := @writes_store v (fun j => buf (i * SECTOR + j)) (sec + i) 1
    have hrest : ∀ m, i + 1 ≤ m → m < i + 1 + k → u32 (sec + m) = sec + m ∧ sec + m + 1 ≤
        (v.bdev.store (sec + i) (fun j => buf (i * SECTOR + j)) 1).num_sectors :=
      fun m h1 h2 => h m (by omega) (by omega)
    obtain ⟨v', hcall, hw', hdata⟩ := @ih { v with
      bdev := v.bdev.store (sec + i) (fun j => buf (i * SECTOR + j)) 1
      dir_buf_cluster := 0 } (i + 1) hrest
    refine ⟨v', ?_, (hw.mono fun t ht => by omega).trans (hw'.mono fun t ht => by omega), ?_⟩
    · rw [write_sectors, hu, bwrite_ok hle]
      exact hcall
    intro m h1 h2 j hj
    rcases Nat.eq_or_lt_of_le h1 with rfl | h1
    · -- the later sectors leave this one as it was written
      rw [hw'.dev.keep _ (by omega)]
      rw [store_same hj]
    · exact hdata m h1 (by omega) j hj

lemma sector_add_ok (hg : GeomOk g n) (hc : InRange g c) {i : Nat} (hi : i < g.sec_per_clus) :
    u32 (sector_of g c + i) = sector_of g c + i ∧ sector_of g c + i + 1 ≤ n := by
  have := inClus_room hc (t := sector_of g c + i) ⟨le_self_add, by omega⟩
  have hr := hg.room
  have hw := hg.word
  exact ⟨u32_of_lt (by omega), by omega⟩

section

variable (hg : GeomOk g v.bdev.num_sectors)

include hg

lemma write_cluster_spec (hc : InRange g c) (buf : Buf) :
    ∃ v', fat32_write_cluster g v c buf = (v', true) ∧ Writes (InClus g c) v v' ∧
      ∀ j, j < g.cluster_size → clus g v'.bdev c j = buf j := by
  obtain ⟨v', hcall, hw, hdata⟩ := @write_sectors_spec v buf (sector_of g c) 0 g.sec_per_clus
    fun m _ hm => sector_add_ok hg hc (by omega)
  refine ⟨v', ?_, hw.mono fun t ht => ht, ?_⟩
  · rw [fat32_write_cluster, if_neg (not_lt.mpr hc.1), hg.cluster_to_sector hc]
    exact hcall
  intro j hj
  have hjs : j / SECTOR < g.sec_per_clus := Nat.div_lt_of_lt_mul (by rwa [← hg.size])
  have hjm : j % SECTOR < SECTOR := Nat.mod_lt _ (by decide)
  rw [clus, hdata _ (zero_le _) (by omega) _ hjm, mul_comm, Nat.div_add_mod]

lemma zero_cluster_spec (hc : InRange g c) :
    ∃ v', fat32_zero_cluster g v c = (v', true) ∧ Writes (InClus g c) v v' ∧
      ∀ j, j < g.cluster_size → clus g v'.bdev c j = 0 := by
  have hspc := hg.spc
  have hu := (sector_add_ok hg hc hg.spc).1
  have hle := (sector_add_ok hg hc (show g.sec_per_clus - 1 < g.sec_per_clus by omega)).2
  rw [add_zero] at hu
  have hstore : sector_of g c + g.sec_per_clus ≤ v.bdev.num_sectors := by omega
  refine ⟨_, ?_, @writes_store v (fun _ => 0) (sector_of g c) g.sec_per_clus, ?_⟩
  · rw [fat32_zero_cluster, if_neg (not_lt.mpr hc.1), hg.cluster_to_sector hc]
    obtain ⟨k, hk⟩ := exists_eq_succ_of_ne_zero (ne_of_gt hspc)
    have hmax : ¬ FAT32_MAX_CLUSTER_SECS < g.sec_per_clus := not_lt.mpr hg.spc_le
    have hfuel : zero_batches (sector_of g c) g.sec_per_clus 0 g.sec_per_clus v =
        zero_batches (sector_of g c) (k + 1) 0 g.sec_per_clus v := by rw [hk]
    rw [hfuel, zero_batches, if_neg (ne_of_gt hspc)]
    simp only [hmax, if_false, add_zero, hu, bwrite_ok hstore, Nat.sub_self]
    cases k with
    | zero => rfl
    | succ k => simp [zero_batches]
  · intro j hj
    have hin := hg.inClus_of_lt (c := c) hj
    rw [clus, store_inside hin.1 hin.2 (Nat.mod_lt _ (by decide))]

/-! ## Entries -/

lemma write_fats_spec {rel f k : Nat} (hr : rel < g.fat_sz32)
    (hk : f + k ≤ g.num_fats) : ∃ v', write_fats g buf rel k f v = (v', true) ∧
      Writes (fun t => ∃ m, f ≤ m ∧ m < f + k ∧ t = g.fat_start + m * g.fat_sz32 + rel) v v' ∧
      ∀ m, f ≤ m → m < f + k → ∀ j, j < SECTOR →
        v'.bdev.data (g.fat_start + m * g.fat_sz32 + rel) j = buf j := by
  induction k generalizing f v with
  | zero => exact ⟨v, rfl, Writes.refl _ v, fun m h1 h2 => by omega⟩
  | succ k ih =>
    have hle := row_le (show f < g.num_fats by omega) g.fat_sz32
    have hdata := hg.data
    have hroom := hg.room
    have hword := hg.word
    have hu : u32 (u32 (g.fat_start + u32 (f * g.fat_sz32)) + rel) =
        g.fat_start + f * g.fat_sz32 + rel := by
      rw [u32_of_lt (show f * g.fat_sz32 < 2 ^ 32 by omega),
        u32_of_lt (show g.fat_start + f * g.fat_sz32 < 2 ^ 32 by omega), u32_of_lt (by omega)]
    have hw := @writes_store v buf (g.fat_start + f * g.fat_sz32 + rel) 1
    obtain ⟨v', hcall, hw', hall⟩ := ih (hw.geom hg) (f := f + 1) (by omega)
    refine ⟨v', ?_, (hw.mono ?_).trans (hw'.mono ?_), ?_⟩
    · rw [write_fats, hu, bwrite_ok (by omega)]
      exact hcall
    · intro t ht
      exact ⟨f, le_refl _, by omega, by omega⟩
    · rintro t ⟨m, h1, h2, rfl⟩
      exact ⟨m, by omega, by omega, rfl⟩
    intro m h1 h2 j hj
    rcases Nat.eq_or_lt_of_le h1 with rfl | h1
    · rw [hw'.dev.keep]
      · rw [store_same hj]
      rintro ⟨m, hm, _, he⟩
      have := row_le hm g.fat_sz32
      omega
    · exact hall m h1 (by omega) j hj

lemma set_fat_entry_spec (hc : InRange g c) (value : Nat) :
    ∃ v', fat32_set_fat_entry g v c value = (v', true) ∧ Writes (InFat g) v v' ∧
      ∀ x, x < g.fat_sz32 * ENTS_PER_SEC →
        fat g v'.bdev x = if x = c then value % 2 ^ 28 else fat g v.bdev x := by
  obtain ⟨hdiv, hmod, hu, hle⟩ := hg.entry_place hc
  have hcap := hg.entry_lt hc
  have hr : c / ENTS_PER_SEC < g.fat_sz32 := Nat.div_lt_of_lt_mul (by rwa [mul_comm])
  have hsub : sub32 (g.fat_start + c / ENTS_PER_SEC) g.fat_start = c / ENTS_PER_SEC := by
    have := hg.fat_sector_lt hcap hg.fats
    have hword := hg.word
    rw [sub32_of_le (le_self_add) (by omega), Nat.add_sub_cancel_left]
  -- the sector that is written to every copy
  obtain ⟨b, hb⟩ : ∃ b,
    b = put_le32 (fun j => v.bdev.data (g.fat_start + c / ENTS_PER_SEC + j / SECTOR)
    (j % SECTOR)) (c % ENTS_PER_SEC * 4) (value % 2 ^ 28) := ⟨_, rfl⟩
  obtain ⟨v', hcall, hw, hdata⟩ := @write_fats_spec g v b hg _ 0 g.num_fats hr (by omega)
  have hplace : ∀ r, r < g.fat_sz32 → r ≠ c / ENTS_PER_SEC →
      v'.bdev.data (g.fat_start + r) = v.bdev.data (g.fat_start + r) := by
    intro r hr' hne
    refine hw.dev.keep _ ?_
    rintro ⟨m, _, _, he⟩
    have hmod : (m * g.fat_sz32 + c / ENTS_PER_SEC) % g.fat_sz32 = c / ENTS_PER_SEC := by
      rw [add_comm, add_mul_mod_self_right, Nat.mod_eq_of_lt hr]
    have hsum : m * g.fat_sz32 + c / ENTS_PER_SEC = r := by omega
    rw [hsum, Nat.mod_eq_of_lt hr'] at hmod
    exact hne hmod
  refine ⟨v', ?_, hw.mono ?_, ?_⟩
  · unfold fat32_set_fat_entry
    simp only [hdiv, hmod, hu, blockdev_read_ok hle, hsub]
    rw [← hb]
    exact hcall
  · rintro t ⟨m, _, hm, rfl⟩
    rw [zero_add] at hm
    have := hg.fat_sector_lt hcap hm
    exact ⟨by omega, this⟩
  · intro x hx
    by_cases hsame : x / ENTS_PER_SEC = c / ENTS_PER_SEC
    · have hsec : ∀ j, j < SECTOR → v'.bdev.data (g.fat_start + x / ENTS_PER_SEC) j = b j := by
        intro j hj
        have := hdata 0 (le_refl _) (by have := hg.fats; omega) j hj
        rwa [zero_mul, add_zero, ← hsame] at this
      have hxoff : x % ENTS_PER_SEC * 4 + 4 ≤ SECTOR := by
        unfold ENTS_PER_SEC SECTOR
        omega
      have hnew : fat g v'.bdev x = le32 b (x % ENTS_PER_SEC * 4) % 2 ^ 28 := by
        exact congrArg (· % 2 ^ 28) (le32_congr fun k hk => hsec _ (by omega))
      rw [hnew, hb]
      by_cases hxc : x = c
      · subst hxc
        rw [if_pos rfl, le32_put_le32]
        omega
      rw [if_neg hxc]
      have hoff : x % ENTS_PER_SEC ≠ c % ENTS_PER_SEC := by
        intro he
        refine hxc ?_
        rw [← Nat.div_add_mod x ENTS_PER_SEC, ← Nat.div_add_mod c ENTS_PER_SEC, hsame, he]
      unfold put_le32 fat
      rw [le32_put_outside (by simp only [le32_bytes, List.length_cons, List.length_nil]; omega),
        hsame]
      refine congrArg (· % 2 ^ 28) (le32_congr fun k hk => ?_)
      have hlt : x % ENTS_PER_SEC * 4 + k < SECTOR := by omega
      exact sector_apply hlt
    · have hxc : x ≠ c := fun he => hsame (he ▸ rfl)
      have hxr : x / ENTS_PER_SEC < g.fat_sz32 := Nat.div_lt_of_lt_mul (by rwa [mul_comm])
      rw [if_neg hxc, fat, fat, hplace _ hxr hsame]

end

end uaos.fat32
