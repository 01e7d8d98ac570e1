-- Cluster chains of the FAT32 driver as byte arrays, the places the cursor of a
-- handle can stand at, and what FAT32_Read copies out from there.
import Uaos.FatAlloc

namespace uaos.fat32

variable {g : Geom} {v v' : Vol} {d d' : BlockDev} {f : Fat32File} {n c i : Nat} {chain : List Nat}

/-! ## Chains -/

/-- The clusters `chain` are linked in this order, and the last one ends the chain. -/
structure ChainOk (g : Geom) (d : BlockDev) (chain : List Nat) : Prop where
  range : ∀ c ∈ chain, InRange g c
  nodup : chain.Nodup
  link : ∀ i, i + 1 < chain.length → fat g d (chain.getD i 0) = chain.getD (i + 1) 0
  last : ∀ i, i + 1 = chain.length → is_eoc (fat g d (chain.getD i 0)) = true

lemma ChainOk.one {d : BlockDev} (hc : InRange g c) (he : is_eoc (fat g d c) = true) :
    ChainOk g d [c] := by
  refine ⟨?_, List.nodup_singleton c, ?_, ?_⟩
  · intro x hx
    exact List.mem_singleton.mp hx ▸ hc
  · intro i hi
    rw [List.length_singleton] at hi
    omega
  · intro i hi
    rw [List.length_singleton] at hi
    obtain rfl : i = 0 := by omega
    exact he

/-- The byte `i` of the data along the chain. -/
def fbyte (g : Geom) (d : BlockDev) (chain : List Nat) (i : Nat) : UInt8 :=
  clus g d (chain.getD (i / g.cluster_size) 0) (i % g.cluster_size)

lemma ChainOk.inRange (h : ChainOk g d chain) (hi : i < chain.length) :
    InRange g (chain.getD i 0) := h.range _ (getD_mem hi)

lemma ChainOk.getD_inj (h : ChainOk g d chain) {j : Nat} (hi : i < chain.length)
    (hj : j < chain.length) (he : chain.getD i 0 = chain.getD j 0) : i = j :=
  uaos.getD_inj h.nodup hi hj he

lemma ChainOk.congr (h : ChainOk g d chain) (hfat : ∀ c ∈ chain, fat g d' c = fat g d c) :
    ChainOk g d' chain := by
  refine ⟨h.range, h.nodup, ?_, ?_⟩
  · intro i hi
    rw [hfat _ (getD_mem (by omega))]
    exact h.link i hi
  · intro i hi
    rw [hfat _ (getD_mem (by omega))]
    exact h.last i hi

lemma cluster_lt {m n : Nat} (h : m < n * g.cluster_size) : m / g.cluster_size < n :=
  Nat.div_lt_of_lt_mul (by rwa [mul_comm])

/-- An entry of the chain is not that of a free cluster. -/
lemma ChainOk.fat_ne_zero (h : ChainOk g d chain) (hc : c ∈ chain) : fat g d c ≠ 0 := by
  obtain ⟨i, hi, rfl⟩ := List.getElem_of_mem hc
  rw [← List.getD_eq_getElem chain 0 hi]
  intro h0
  by_cases hlast : i + 1 = chain.length
  · have := h.last i hlast
    rw [h0] at this
    cases this
  · have hlink := h.link i (by omega)
    have hr := (h.inRange (i := i + 1) (by omega)).1
    omega

/-- The byte at `i` clusters and `j` bytes. -/
lemma fbyte_at (hg : GeomOk g n) {j : Nat} (hj : j < g.cluster_size) :
    fbyte g d chain (i * g.cluster_size + j) = clus g d (chain.getD i 0) j := by
  have hpos := hg.size_pos
  unfold fbyte
  rw [mul_comm, Nat.mul_add_div hpos, Nat.div_eq_of_lt hj, add_zero, Nat.mul_add_mod,
    Nat.mod_eq_of_lt hj]

/-! ## The cursor -/

/-- The cursor stands in the `i`-th cluster of the chain, or at its end. -/
structure At (g : Geom) (f : Fat32File) (chain : List Nat) (i : Nat) : Prop where
  lt : i < chain.length
  cluster : f.cluster = chain.getD i 0
  offset : f.offset ≤ g.cluster_size
  pos : f.pos = i * g.cluster_size + f.offset

/-- Where the cursor of a handle can stand: at the start of an empty file, in a
cluster or at its end, or past the last cluster with nothing but the position to
tell. -/
def Cursor (g : Geom) (f : Fat32File) (chain : List Nat) : Prop := (chain = [] ∧ f.pos = 0) ∨
    (∃ i, At g f chain i) ∨
    (chain ≠ [] ∧ f.offset = 0 ∧ f.pos = chain.length * g.cluster_size)

lemma Cursor.same_place {f' : Fat32File} (h : Cursor g f chain) (hc : f'.cluster = f.cluster)
    (ho : f'.offset = f.offset) (hp : f'.pos = f.pos) : Cursor g f' chain := by
  rcases h with ⟨h0, h1⟩ | ⟨i, hat⟩ | ⟨h0, h1, h2⟩
  · exact .inl ⟨h0, hp.trans h1⟩
  · exact .inr (.inl ⟨i, hat.lt, hc.trans hat.cluster, ho ▸ hat.offset, by rw [hp, ho, hat.pos]⟩)
  · exact .inr (.inr ⟨h0, ho.trans h1, hp.trans h2⟩)

/-- The handle after `n` bytes more. -/
structure Moved (f f' : Fat32File) (n : Nat) : Prop where
  start : f'.start_cluster = f.start_cluster
  size : f'.size = f.size
  pos : f'.pos = f.pos + n
  is_dir : f'.is_dir = f.is_dir
  dir_sector : f'.dir_sector = f.dir_sector

lemma read_loop_spec (hg : GeomOk g d.num_sectors) (hch : ChainOk g d chain) (fuel : Nat)
    (hat : At g f chain i) (hn : f.pos + n ≤ chain.length * g.cluster_size)
    (hw : f.pos + n < 2 ^ 32) (hfuel : n + (if f.offset = g.cluster_size then 1 else 0) < fuel) :
    ∃ f', read_loop g d fuel f n = some (f', slice (fbyte g d chain) f.pos n) ∧ Moved f f' n ∧
      Cursor g f' chain := by
  have hsize := hg.size_pos
  have hsle := hg.size_le
  induction fuel generalizing f i n with
  | zero => omega
  | succ fuel ih =>
    by_cases hn0 : n = 0
    · subst hn0
      refine ⟨f, by simp [read_loop, slice], ⟨rfl, rfl, rfl, rfl, rfl⟩, ?_⟩
      exact .inr (.inl ⟨i, hat⟩)
    obtain ⟨hi, hcl, hoff, hpos⟩ := hat
    have hr := hch.inRange hi
    rw [← hcl] at hr
    obtain ⟨b, hread, hb⟩ := read_cluster_eq hg hr
    have hsub : sub32 g.cluster_size f.offset = g.cluster_size - f.offset :=
      sub32_of_le hoff (by omega)
    rw [read_loop, if_neg hn0, if_neg (hg.linked hr), hread]
    dsimp only
    rw [hsub]
    obtain ⟨chunk, hchunk⟩ : ∃ k, k = min (g.cluster_size - f.offset) n := ⟨_, rfl⟩
    rw [← hchunk]
    have hcn : chunk ≤ n := hchunk ▸ min_le_right _ _
    have hu1 : u32 (f.offset + chunk) = f.offset + chunk := u32_of_lt (by omega)
    have hu2 : u32 (f.pos + chunk) = f.pos + chunk := u32_of_lt (by omega)
    rw [hu1, hu2]
    -- the bytes of this round
    have hbytes : slice b f.offset chunk = slice (fbyte g d chain) f.pos chunk := by
      refine slice_congr fun k hk => ?_
      rw [hb _ (by omega), hpos, add_assoc, fbyte_at hg (by omega), hcl]
    have hjoin : slice (fbyte g d chain) f.pos n =
        slice (fbyte g d chain) f.pos chunk ++ slice (fbyte g d chain) (f.pos + chunk)
          (n - chunk) := by
      rw [← slice_append, Nat.add_sub_cancel' hcn]
    rw [hbytes, hjoin]
    by_cases hfull : g.cluster_size ≤ f.offset + chunk
    · have hend : f.offset + chunk = g.cluster_size := by omega
      have hnext : f.pos + chunk = (i + 1) * g.cluster_size := by
        rw [add_mul, one_mul]
        omega
      simp only [hfull, if_true]
      rw [get_fat_entry_eq hg hr, hcl]
      by_cases hlast : i + 1 = chain.length
      · -- the last cluster is read to its end
        have hdone : n - chunk = 0 := by
          rw [hlast] at hnext
          omega
        rw [hdone]
        obtain ⟨fuel, rfl⟩ := Nat.exists_eq_succ_of_ne_zero (show fuel ≠ 0 by
          split at hfuel <;> omega)
        refine ⟨{ f with cluster := fat g d (chain.getD i 0), offset := 0, pos := f.pos + chunk },
          by simp [read_loop, slice], ⟨rfl, rfl, by dsimp only; omega, rfl, rfl⟩, ?_⟩
        refine .inr (.inr ⟨?_, rfl, by dsimp only; rw [hnext, hlast]⟩)
        rintro rfl
        cases hlast
      · have hlt : i + 1 < chain.length := by omega
        rw [hch.link i hlt]
        obtain ⟨f', hcall, hm, hcur⟩ := @ih { f with
          cluster := chain.getD (i + 1) 0, offset := 0, pos := f.pos + chunk } (n - chunk) (i + 1)
          ⟨hlt, rfl, Nat.zero_le _, hnext⟩ (by dsimp only; omega) (by dsimp only; omega)
          (by
            dsimp only
            rw [if_neg (by omega)]
            split at hfuel <;> omega)
        refine ⟨f', by rw [hcall]; rfl, ⟨hm.start, hm.size, ?_, hm.is_dir, hm.dir_sector⟩, hcur⟩
        rw [hm.pos]
        dsimp only
        omega
    · simp only [hfull, if_false]
      obtain ⟨f', hcall, hm, hcur⟩ := @ih { f with
        offset := f.offset + chunk, pos := f.pos + chunk } (n - chunk) i
        ⟨hi, hcl, by dsimp only; omega, by dsimp only; omega⟩ (by dsimp only; omega)
        (by dsimp only; omega)
        (by
          dsimp only
          rw [if_neg (by omega)]
          split at hfuel <;> omega)
      refine ⟨f', by rw [hcall]; rfl, ⟨hm.start, hm.size, ?_, hm.is_dir, hm.dir_sector⟩, hcur⟩
      rw [hm.pos]
      dsimp only
      omega

end uaos.fat32
