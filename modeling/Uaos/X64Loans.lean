-- The x64 heap as its callers see it: a list of loans, each with an owner. The calls change this
-- list and nothing else that a caller can see.
import Uaos.X64Runs

namespace uaos.x64

open Heap

variable {addr owner ptr size : Nat}

section loans

variable {A : Arena} {s : State} {l m : Loan}

lemma free_ok_of_loan (hl : l ∈ s.loans) : s.free_ok A l.ptr = true := by
  refine Bool.or_eq_true_iff.mpr (.inl (List.any_eq_true.mpr ⟨l, hl, ?_⟩))
  exact decide_eq_true rfl

section

variable (hs : Sound A s)

include hs

lemma Sound.one_loan (hl : l ∈ s.loans) (hm : m ∈ s.loans) (he : l.ptr = m.ptr) : l = m := by
  obtain ⟨a, bs, -, hb⟩ := hs.good hl
  have hsymm : Std.Symm fun l m : Loan => l.ptr ≠ m.ptr := ⟨fun _ _ hne => hne.symm⟩
  by_contra hne
  exact hb.once.forall hl hm hne he

/-- The block of a loan ends above its header, and it is the block of another loan or lies apart
from what that loan covers. -/
lemma Sound.blk_end (hl : l ∈ s.loans) (hm : m ∈ s.loans) :
    ∃ e, s.heap.x64_blk_end (m.ptr - X64_BLK_HDR) = e ∧ 48 ≤ m.ptr ∧ m.ptr ≤ e ∧
      l.ptr ≤ l.addr ∧ l.addr + l.size ≤ 2 ^ 32 ∧
      (m.ptr = l.ptr ∧ l.addr + l.size ≤ e ∨
        m.ptr ≠ l.ptr ∧ (l.addr + l.size ≤ m.ptr - 48 ∨ e ≤ l.ptr)) := by
  obtain ⟨a, bs, hg, hb⟩ := hs.good hl
  obtain ⟨b, hub, -, hlptr, hladdr, hlend, -⟩ := hb.held l hl
  obtain ⟨c, huc, -, hmptr, -⟩ := hb.held m hm
  have hapart := placed_apart hub.1 huc.1
  have hc48 := hg.tiles.placed_size huc.1
  have hstop : l.ptr - 48 + b.size ≤ A.stop := by
    obtain ⟨us, vs, rfl, hu⟩ := placed_split hub.1
    have := hg.tiles.place
    omega
  have hlt := A.stop_lt
  obtain ⟨xs, ys, rfl, hx⟩ := placed_split huc.1
  unfold X64_BLK_HDR
  rw [hx, hg.tiles.blk_end, ← hx]
  refine ⟨_, rfl, hmptr, by omega, hladdr, by omega, ?_⟩
  rcases hapart with ⟨he, rfl⟩ | hapart | hapart
  · omega
  · omega
  · omega

/-- An address in a loan lies in the block of this loan and of no other. -/
lemma Sound.spans_iff (hl : l ∈ s.loans) (hlow : l.addr ≤ ptr)
    (hhigh : ptr < l.addr + l.size) (hm : m ∈ s.loans) :
    spans ptr s.heap (m.ptr - X64_BLK_HDR) = true ↔ m.ptr = l.ptr := by
  obtain ⟨e, he, h⟩ := hs.blk_end hl hm
  unfold spans
  rw [he, decide_eq_true_eq]
  unfold X64_BLK_HDR
  omega

/-- The loan around an address gets a new owner. -/
lemma Sound.own_loan (howner : owner < 2 ^ 64)
    (hl : l ∈ s.loans) (hlow : l.addr ≤ ptr) (hhigh : ptr < l.addr + l.size) :
    ∃ t, s.own owner ptr = some t ∧ Sound A t ∧
      t.loans = s.loans.map fun m => if m.ptr = l.ptr then { m with owner := owner } else m := by
  obtain ⟨t, ht, hsound⟩ := hs.own ptr howner
  refine ⟨t, ht, hsound, ?_⟩
  obtain ⟨h', -, rfl⟩ := Option.map_eq_some_iff.mp ht
  refine List.map_congr_left fun m hm => ?_
  simp only [hs.spans_iff hl hlow hhigh hm]

/-- No loan lies below the arena. -/
lemma Sound.above (hl : l ∈ s.loans) : A.heap0 + 48 ≤ l.ptr := by
  obtain ⟨a, bs, hg, hb⟩ := hs.good hl
  obtain ⟨b, hub, -, hptr, -⟩ := hb.held l hl
  obtain ⟨xs, ys, rfl, hx⟩ := placed_split hub.1
  have := hg.tiles.low
  omega

lemma Sound.own_below (howner : owner < 2 ^ 64) (hptr : ptr < A.heap0) :
    ∃ t, s.own owner ptr = some t ∧ Sound A t ∧ t.loans = s.loans := by
  obtain ⟨t, ht, hsound⟩ := hs.own ptr howner
  refine ⟨t, ht, hsound, ?_⟩
  obtain ⟨h', -, rfl⟩ := Option.map_eq_some_iff.mp ht
  refine (List.map_congr_left fun m hm => ?_).trans (List.map_id _)
  have := hs.above hm
  refine if_neg ?_
  unfold spans X64_BLK_HDR
  rw [decide_eq_true_eq]
  omega

/-- A range in a loan overlaps the block of this loan and no other. -/
lemma Sound.overlaps_iff (hl : l ∈ s.loans)
    (hlow : l.addr ≤ addr) (hpos : 0 < size) (hhigh : addr + size ≤ l.addr + l.size)
    (hm : m ∈ s.loans) :
    overlaps addr (State.range_end addr size) s.heap (m.ptr - X64_BLK_HDR) = true ↔
      m.ptr = l.ptr := by
  obtain ⟨e, he, h⟩ := hs.blk_end hl hm
  have hend : State.range_end addr size = addr + size := by
    unfold State.range_end
    rw [if_neg (Nat.ne_of_gt hpos), u64_of_lt (by omega)]
  unfold overlaps
  rw [he, hend, decide_eq_true_eq]
  unfold X64_BLK_HDR
  omega

lemma Sound.overlaps_below (hend : addr + max size 1 ≤ A.heap0) (hm : m ∈ s.loans) :
    overlaps addr (State.range_end addr size) s.heap (m.ptr - X64_BLK_HDR) = false := by
  have hm48 := hs.above hm
  have hle : State.range_end addr size ≤ addr + max size 1 := by
    refine (Nat.mod_le _ _).trans ?_
    split <;> omega
  unfold overlaps X64_BLK_HDR
  rw [decide_eq_false_iff_not]
  omega

/-- A block that stays in use keeps its end when another one is freed. -/
lemma Sound.free_blk_end (hl : l ∈ s.loans) (hm : m ∈ s.loans) (hne : m.ptr ≠ l.ptr) :
    (s.free A l.ptr).heap.x64_blk_end (m.ptr - X64_BLK_HDR) =
      s.heap.x64_blk_end (m.ptr - X64_BLK_HDR) := by
  obtain ⟨a, bs, hg, hb⟩ := hs.good hl
  obtain ⟨b, hub, -, hlptr, -⟩ := hb.held l hl
  obtain ⟨c, huc, -, hmptr, -⟩ := hb.held m hm
  obtain ⟨us, vs, hbs, hx⟩ := placed_split huc.1
  have hend : s.heap.x64_blk_end (m.ptr - X64_BLK_HDR) = m.ptr - 48 + c.size := by
    rw [hbs] at hg
    unfold X64_BLK_HDR
    rw [hx, hg.tiles.blk_end]
  obtain ⟨xs, ys, rfl, hy⟩ := placed_split hub.1
  obtain ⟨bs', hgood, -, huses⟩ := hg.free hub.2
  have hc : Uses a bs' (m.ptr - 48) c := (huses _ c).mpr ⟨huc, by omega⟩
  have hptr : l.ptr = a + span xs + 48 := by omega
  obtain ⟨us', vs', rfl, hx'⟩ := placed_split hc.1
  unfold State.free
  simp only
  rw [hend, hptr]
  unfold X64_BLK_HDR
  rw [hx', hgood.tiles.blk_end]

/-- A search finds the block of a loan that passes the test, if there is one. -/
lemma Sound.search (test : Heap → Nat → Bool) : (s.heap.search (used_and test) = some none ∧
      ∀ l ∈ s.loans, test s.heap (l.ptr - X64_BLK_HDR) = false) ∨
    ∃ b, s.heap.search (used_and test) = some (some b) ∧ ∃ l ∈ s.loans,
      u64 (b + X64_BLK_HDR) = l.ptr ∧ test s.heap (l.ptr - X64_BLK_HDR) = true := by
  rcases hs with ⟨hfirst, -, hloans⟩ | ⟨a, bs, hg, hb⟩
  · refine .inl ⟨search_before_setup hfirst, ?_⟩
    rw [hloans]
    exact fun l hl => absurd hl List.not_mem_nil
  unfold X64_BLK_HDR
  rcases search_tiles (t := used_and test) hg.tiles with ⟨xs, b, ys, rfl, hw, hp⟩ | ⟨hw, hall⟩
  · unfold used_and at hp
    rw [hg.tiles.used_iff, Bool.and_eq_true] at hp
    obtain ⟨l, hl, hptr⟩ := hb.listed _ b ⟨mem_placed, hp.1⟩
    have := hg.tiles.place
    have := A.stop_lt
    refine .inr ⟨_, hw, l, hl, ?_, ?_⟩
    · rw [hptr, u64_of_lt (by omega)]
    · rw [hptr, Nat.add_sub_cancel]
      exact hp.2
  · refine .inl ⟨hw, fun l hl => ?_⟩
    obtain ⟨c, huc, -⟩ := hb.held l hl
    obtain ⟨xs, ys, rfl, hx⟩ := placed_split huc.1
    have hfalse := hall _ c huc.1
    unfold used_and at hfalse
    rw [hx] at hfalse ⊢
    rwa [hg.tiles.used_iff, huc.2, Bool.true_and] at hfalse

lemma Sound.owned_by_iff (hl : l ∈ s.loans) (task : Nat) :
    owned_by task s.heap (l.ptr - X64_BLK_HDR) = decide (l.owner = task) := by
  obtain ⟨a, bs, hg, hb⟩ := hs.good hl
  obtain ⟨c, huc, hco, -⟩ := hb.held l hl
  obtain ⟨xs, ys, rfl, hx⟩ := placed_split huc.1
  unfold X64_BLK_HDR
  rw [hx, owned_by_eq hg.tiles, hco]

end

end loans

end uaos.x64
