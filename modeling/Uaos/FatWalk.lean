-- The loops of FAT32_Read and FAT32_Write, whatever clusters the handle is kept to. A handle
-- that stands on a trail stays on it, also when a write has to make the trail longer.
import Uaos.FatAlloc

namespace uaos.fat32

/-- The clusters of `M` lead to each other or to the end of a chain. -/
structure Trail (g : Geom) (d : BlockDev) (M : Nat → Prop) : Prop where
  geom : GeomOk g d.num_sectors
  range : ∀ c, M c → InRange g c
  next : ∀ c, M c → M (fat g d c) ∨ fat g d c < 2 ∨ is_eoc (fat g d c) = true

/-- The handle stands in `M`, or behind an end of a chain. -/
def Stands (g : Geom) (M : Nat → Prop) (f : Fat32File) : Prop :=
  M f.cluster ∧ f.offset ≤ g.cluster_size ∨ (f.cluster < 2 ∨ is_eoc f.cluster = true) ∧ f.offset = 0

/-- A write may lead from the volume `v` with the trail `M x` to `v'` with the trail `M x'` when
`R v x v' x'` holds. -/
structure Keeps {γ : Type} (g : Geom) (M : γ → Nat → Prop) (R : Vol → γ → Vol → γ → Prop) :
    Prop where
  here : ∀ {v x v' x'}, R v x v' x' → R v' x' v' x'
  trans : ∀ {v x v' x' v'' x''}, R v x v' x' → R v' x' v'' x'' → R v x v'' x''
  trail : ∀ {v x}, R v x v x → Trail g v.bdev (M x)
  write : ∀ {v x c}, R v x v x → M x c → ∀ buf, ∃ v',
    fat32_write_cluster g v c buf = (v', true) ∧ R v x v' x
  extend : ∀ {v x c}, R v x v x → M x c → is_eoc (fat g v.bdev c) = true ∨ fat g v.bdev c < 2 →
    fat32_extend_chain g v c = (v, 0) ∨
      ∃ v' c' x', fat32_extend_chain g v c = (v', c') ∧ R v x v' x' ∧ M x' c'

variable {g : Geom} {v : Vol} {d : BlockDev} {f : Fat32File} {fuel : Nat}

lemma Trail.read_loop {M : Nat → Prop} (hM : Trail g d M) (hp : Stands g M f) {len : Nat}
    (hfuel : len + (if f.offset = g.cluster_size then 1 else 0) < fuel) :
    ∃ c o p bs, fat32.read_loop g d fuel f len =
        some ({ f with cluster := c, offset := o, pos := p }, bs) ∧
      Stands g M { f with cluster := c, offset := o, pos := p } := by
  have hsize := hM.geom.size_le
  have hpos := hM.geom.size_pos
  induction fuel generalizing f len with
  | zero => omega
  | succ fuel ih =>
    rw [fat32.read_loop]
    by_cases hlen : len = 0
    · exact ⟨_, _, _, [], if_pos hlen, hp⟩
    rw [if_neg hlen]
    by_cases hend : f.cluster < 2 ∨ is_eoc f.cluster = true
    · exact ⟨_, _, _, [], if_pos hend, hp⟩
    obtain ⟨hmem, hoff⟩ := hp.resolve_right fun hp => hend hp.1
    have hr := hM.range _ hmem
    obtain ⟨b, hread, _⟩ := read_cluster_eq hM.geom hr
    rw [if_neg hend, hread]
    dsimp only
    rw [sub32_of_le hoff (by omega)]
    obtain ⟨chunk, hchunk⟩ : ∃ k, k = min (g.cluster_size - f.offset) len := ⟨_, rfl⟩
    rw [← hchunk, u32_of_lt (show f.offset + chunk < 2 ^ 32 by omega)]
    by_cases hfull : g.cluster_size ≤ f.offset + chunk
    · simp only [hfull, if_true]
      rw [get_fat_entry_eq hM.geom hr]
      have hnext : Stands g M { f with
          cluster := fat g d f.cluster, offset := 0, pos := u32 (f.pos + chunk) } :=
        (hM.next _ hmem).imp (fun hm => ⟨hm, Nat.zero_le _⟩) fun he => ⟨he, rfl⟩
      have hless : len - chunk + (if 0 = g.cluster_size then 1 else 0) < fuel := by
        rw [if_neg (by omega)]
        split at hfuel <;> omega
      obtain ⟨c, o, p, bs, hcall, hp'⟩ := ih hnext hless
      exact ⟨c, o, p, _, by rw [hcall]; rfl, hp'⟩
    · simp only [hfull, if_false]
      have hhere : Stands g M { f with
          offset := f.offset + chunk, pos := u32 (f.pos + chunk) } :=
        .inl ⟨hmem, by dsimp only; omega⟩
      have hless : len - chunk + (if f.offset + chunk = g.cluster_size then 1 else 0) < fuel := by
        rw [if_neg (by omega)]
        split at hfuel <;> omega
      obtain ⟨c, o, p, bs, hcall, hp'⟩ := ih hhere hless
      exact ⟨c, o, p, _, by rw [hcall]; rfl, hp'⟩

lemma Trail.read {M : Nat → Prop} (hM : Trail g d M) (hp : Stands g M f) (hf : f.is_dir = false)
    (len : Nat) : ∃ c o p bs, fat32_read g d f len =
        some ({ f with cluster := c, offset := o, pos := p }, bs) ∧
      Stands g M { f with cluster := c, offset := o, pos := p } := by
  unfold fat32_read
  rw [if_neg (ne_true_of_eq_false hf)]
  split
  · exact ⟨_, _, _, [], rfl, hp⟩
  · exact hM.read_loop hp (by split <;> omega)

/-- A handle that stands in no cluster writes nothing. -/
lemma write_loop_nowhere {bs : List UInt8} (hg : GeomOk g v.bdev.num_sectors) (hc : f.cluster < 2)
    (ho : f.offset = 0) : write_loop g (fuel + 1) v f bs = some (v, f, 0) := by
  have hpos := hg.size_pos
  have hread : fat32_read_cluster g v.bdev f.cluster = none := if_pos hc
  rw [write_loop]
  split
  · rfl
  rw [write_place, if_neg (by omega)]
  dsimp only
  rw [hread]

variable {γ : Type} {M : γ → Nat → Prop} {R : Vol → γ → Vol → γ → Prop} {x : γ}

/-- A round of FAT32_Write starts in a cluster of the trail, or there is none left. -/
lemma Keeps.write_place (K : Keeps g M R) (h : R v x v x) (hc : M x f.cluster) :
    fat32.write_place g v f = (v, none) ∧ g.cluster_size ≤ f.offset ∨
    ∃ v' x' c o, fat32.write_place g v f = (v', some { f with cluster := c, offset := o }) ∧
      R v x v' x' ∧ M x' c ∧ o < g.cluster_size := by
  have hM := K.trail h
  unfold fat32.write_place
  by_cases hfull : g.cluster_size ≤ f.offset
  · rw [if_pos hfull, get_fat_entry_eq hM.geom (hM.range _ hc)]
    dsimp only
    have hgo : ∀ v' x' c, R v x v' x' → M x' c →
        ∃ v'' x' c' o, (v', if c = 0 then none else some { f with cluster := c, offset := 0 }) =
          (v'', some { f with cluster := c', offset := o }) ∧ R v x v'' x' ∧ M x' c' ∧
          o < g.cluster_size := by
      intro v' x' c hR hm
      have hc0 : c ≠ 0 := by
        have := ((K.trail (K.here hR)).range c hm).1
        omega
      rw [if_neg hc0]
      exact ⟨v', x', c, 0, rfl, hR, hm, hM.geom.size_pos⟩
    by_cases hend : is_eoc (fat g v.bdev f.cluster) = true ∨ fat g v.bdev f.cluster < 2
    · rw [if_pos hend]
      rcases K.extend h hc hend with hnone | ⟨v', c, x', hcall, hR, hm⟩
      · rw [hnone]
        exact .inl ⟨rfl, hfull⟩
      · rw [hcall]
        exact .inr (hgo v' x' c hR hm)
    · rw [if_neg hend]
      exact .inr (hgo v x _ h ((hM.next _ hc).resolve_right fun he => hend he.symm))
  · rw [if_neg hfull]
    exact .inr ⟨v, x, _, _, rfl, h, hc, by omega⟩

lemma Keeps.write_loop (K : Keeps g M R) (h : R v x v x) (hc : M x f.cluster)
    (hoff : f.offset ≤ g.cluster_size) {bs : List UInt8} (hfuel : bs.length < fuel) :
    ∃ v' x' c o p s k, fat32.write_loop g fuel v f bs =
        some (v', { f with cluster := c, offset := o, pos := p, size := s }, k) ∧
      R v x v' x' ∧ M x' c ∧ o ≤ g.cluster_size ∧ (f.size < 2 ^ 32 → s < 2 ^ 32) ∧
      (k = 0 → s = f.size) ∧ (f.offset < g.cluster_size → bs ≠ [] → 0 < k) := by
  have hsize := (K.trail h).geom.size_le
  induction fuel generalizing v x f bs with
  | zero => omega
  | succ fuel ih =>
    rw [fat32.write_loop]
    by_cases hbs : bs = []
    · exact ⟨v, x, _, _, _, _, 0, if_pos hbs, h, hc, hoff, id, fun _ => rfl,
        fun _ hne => absurd hbs hne⟩
    rw [if_neg hbs]
    have hlen : 0 < bs.length := List.length_pos_of_ne_nil hbs
    rcases K.write_place h hc with ⟨hnone, hfull⟩ | ⟨v1, x1, c1, o1, hplace, hR1, hm1, ho1⟩
    · rw [hnone]
      exact ⟨v, x, _, _, _, _, 0, rfl, h, hc, hoff, id, fun _ => rfl, fun _ _ => by omega⟩
    rw [hplace]
    dsimp only
    have hM1 := K.trail (K.here hR1)
    obtain ⟨b, hread, _⟩ := read_cluster_eq hM1.geom (hM1.range _ hm1)
    rw [hread]
    dsimp only
    rw [sub32_of_le (le_of_lt ho1) (by omega)]
    obtain ⟨chunk, hchunk⟩ : ∃ k, k = min (g.cluster_size - o1) bs.length := ⟨_, rfl⟩
    rw [← hchunk, u32_of_lt (show o1 + chunk < 2 ^ 32 by omega)]
    obtain ⟨v2, hwrite, hR2⟩ := K.write (K.here hR1) hm1 (put b o1 (bs.take chunk))
    rw [hwrite]
    dsimp only
    obtain ⟨pos, hp⟩ : ∃ p, p = u32 (f.pos + chunk) := ⟨_, rfl⟩
    rw [← hp]
    have hword : pos < 2 ^ 32 := hp ▸ u32_lt _
    have hrest : (bs.drop chunk).length < fuel := by
      rw [List.length_drop]
      omega
    obtain ⟨v3, x3, c, o, p, s, k, hcall, hR3, hm3, ho3, hs, -⟩ := @ih v2 { f with
      cluster := c1, offset := o1 + chunk, pos := pos
      size := if f.size < pos then pos else f.size }
      x1 (K.here hR2) hm1 (by dsimp only; omega) _ hrest
    refine ⟨v3, x3, c, o, p, s, chunk + k, by rw [hcall]; rfl, K.trans (K.trans hR1 hR2) hR3, hm3,
      ho3,
      fun hf => hs ?_, fun _ => by omega, fun _ _ => by omega⟩
    dsimp only
    split <;> omega

end uaos.fat32
