-- The memory of a load: the blocks that the loader gets lie apart from each other, are cleared,
-- and keep what the loader stores in them while it gets more.
import Uaos.Hunk
import Uaos.GuestRuns

namespace uaos.hunk

open List Function

open guest

/-- A block that the loader was given. -/
structure Block where
  addr : Nat
  size : Nat

def Block.stop (b : Block) : Nat := b.addr + b.size

def Block.Apart (b c : Block) : Prop := b.stop ≤ c.addr ∨ c.stop ≤ b.addr

lemma Block.Apart.symm {b c : Block} (h : b.Apart c) : c.Apart b := Or.symm h

/-- Where a block comes from: below the bump pointer, or a block of the fast pool. -/
inductive Home (s : Sys) (H : Heap) (b : Block) : Prop where
  | bump (hlow : PROG_BASE ≤ b.addr) (hhigh : b.stop ≤ s.heap_ptr)
  | fast (c : Blk) (hc : c ∈ H.held) (hin : c.In .fast)
      (hlow : c.pos + (if c.guarded then 12 else 8) ≤ b.addr) (hhigh : b.stop ≤ c.stop)

/-- The blocks that the loader was given so far. The chip pool is not set up yet. -/
structure Placed (s : Sys) (bs : List Block) : Prop where
  home : ∃ H, s.Ok H ∧ ∀ b ∈ bs, Home s (H s.cur) b
  chip : s.here.heads .chip = none
  ptr : PROG_BASE ≤ s.heap_ptr
  apart : bs.Pairwise Block.Apart

/-- A window as it is when a program is loaded. -/
structure Fresh (s : Sys) : Prop where
  ok : ∃ H, s.Ok H
  chip : s.here.heads .chip = none
  ptr : s.heap_ptr.val = PROG_BASE

/-- The blocks that the guest of the window has. -/
def others (s : Sys) : List Block :=
  (s.live.filter fun l => l.win == s.cur).map fun l => ⟨l.addr, l.size⟩

lemma Fresh.placed {s : Sys} (h : Fresh s) : Placed s (others s) := by
  obtain ⟨H, hok⟩ := h.ok
  have hheap := hok.heaps s.cur
  have howns : ∀ l ∈ s.live.filter (fun l => l.win == s.cur),
      l.win = s.cur ∧ ∃ b ∈ (H s.cur).held, Owns l b ∧ b.In .fast := by
    intro l hl
    obtain ⟨hmem, hwin⟩ := mem_filter.mp hl
    have hwin : l.win = s.cur := eq_of_beq hwin
    obtain ⟨b, hb, ho⟩ := hok.live l hmem
    rw [hwin] at hb
    obtain ⟨p, hp⟩ := (hheap.kept b hb).placed
    cases p with
    | chip => exact absurd hp ((hheap.fresh .chip h.chip).2 b hb)
    | fast => exact ⟨hwin, b, hb, ho, hp⟩
  refine ⟨⟨H, hok, fun b hb => ?_⟩, h.chip, h.ptr.ge, ?_⟩
  · obtain ⟨l, hl, rfl⟩ := List.mem_map.mp hb
    obtain ⟨-, c, hc, ho, hin⟩ := howns l hl
    refine .fast c hc hin ?_ ho.room
    have haddr := ho.addr
    split at haddr <;> split <;> simp_all
  refine pairwise_map.mpr ((hok.once.filter _).imp_of_mem fun {l m} hl hm hne => ?_)
  obtain ⟨hwin, b, hb, ho, hin⟩ := howns l hl
  obtain ⟨hwin', c, hc, ho', hin'⟩ := howns m hm
  have hbc : b ≠ c := by
    rintro rfl
    exact hne (hwin.trans hwin'.symm) (ho.blk.trans ho'.blk.symm)
  have happ := hheap.held_apart hb hc hbc
  have ha := ho.addr
  have ha' := ho'.addr
  have hr := ho.room
  have hr' := ho'.room
  unfold Apart at happ
  unfold Block.Apart Block.stop
  simp only
  split at ha <;> split at ha' <;> omega

variable {s s' : Sys} {H : Fin MAX_M68K_TASKS → Heap} {K : Heap} {w : Window} {bs cs : List Block}
  {b c : Block} {ram : Buf} {fails : Bool} {j n a : Nat}

lemma heap_ptr_le (s : Sys) : s.heap_ptr.val ≤ 0x7F0000 := Nat.le_of_lt_succ s.heap_ptr.isLt

lemma Home.bounds {H : Heap} (h : Home s H b) : 0x20000 ≤ b.addr ∧ b.stop ≤ 0xFF0000 := by
  cases h with
  | bump hlow hhigh =>
    have := heap_ptr_le s
    unfold PROG_BASE at hlow
    omega
  | fast c hc hin hlow hhigh =>
    have hb := hin.bounds
    unfold Blk.stop at hhigh
    split at hlow <;> omega

lemma Home.mono {H H' : Heap} (h : Home s H b) (hptr : s.heap_ptr.val ≤ s'.heap_ptr.val)
    (hsub : ∀ c ∈ H.held, c ∈ H'.held) : Home s' H' b := by
  cases h with
  | bump hlow hhigh => exact .bump hlow (hhigh.trans hptr)
  | fast c hc hin hlow hhigh => exact .fast c (hsub c hc) hin hlow hhigh

/-! ## Stores -/

/-- Without a chip pool the memory below the fast pool belongs to no block of the heap. -/
lemma chip_store (h : HeapOk w K) (hchip : w.heads .chip = none)
    (hram : ∀ j, j < 0x20000 ∨ 0x7F0000 ≤ j → ram j = w.ram j) :
    HeapOk { w with ram := ram } K := by
  obtain ⟨hnil, hheld⟩ := h.fresh .chip hchip
  have hfast : ∀ {x : Blk} {p : Pool}, x.In p → p ≠ .chip → 0x800000 ≤ x.pos := by
    intro x p hx hp
    cases p with
    | chip => exact absurd rfl hp
    | fast => exact hx.low
  refine h.frame rfl (fun q => head_read_congr rfl fun _ j hj hj4 => hram j ?_)
    (fun q x hx j hj _ => ?_) fun c hc => ?_
  · have := slot_lt q
    omega
  · have hq : q ≠ .chip := by
      rintro rfl
      rw [hnil] at hx
      cases hx
    have := hfast (h.placed q x hx) hq
    exact hram j (by omega)
  · obtain ⟨q, hq⟩ := (h.kept c hc).placed
    have hne : q ≠ .chip := by
      rintro rfl
      exact hheld c hc hq
    have := hfast hq hne
    exact (h.kept c hc).congr fun j hj _ => hram j (by omega)

/-- A window whose memory changes in one of the loader's blocks. -/
lemma Placed.heap (h : Placed s bs) (hok : s.Ok H) (hb : Home s (H s.cur) b)
    (hram : ∀ j, j < b.addr ∨ b.stop ≤ j → ram j = s.here.ram j) :
    HeapOk { s.here with ram := ram } (H s.cur) := by
  cases hb with
  | bump hlow hhigh =>
    have := heap_ptr_le s
    unfold PROG_BASE at hlow
    exact chip_store (hok.heaps s.cur) h.chip fun j hj => hram j (by omega)
  | fast c hc hin hlow hhigh =>
    refine (hok.heaps s.cur).write hc rfl fun j hj => hram j ?_
    unfold Blk.Payload at hj
    omega

/-- The loader may store into any block that it was given. -/
lemma Placed.store (h : Placed s bs) (hb : b ∈ bs)
    (hram : ∀ j, j < b.addr ∨ b.stop ≤ j → ram j = s.here.ram j) :
    Placed (s.set_win s.cur { s.here with ram := ram }) bs := by
  obtain ⟨H, hok, hhome⟩ := h.home
  have hw := h.heap hok (hhome b hb) hram
  refine ⟨⟨_, hok.grow hw fun c hc => hc, fun c hc => ?_⟩, ?_, h.ptr, h.apart⟩
  · have hcur : (s.set_win s.cur { s.here with ram := ram }).cur = s.cur := rfl
    rw [hcur, update_self]
    exact (hhome c hc).mono (le_refl _) fun _ hx => hx
  · rw [here_set_win]
    exact h.chip

/-! ## Allocations -/

/-- The loader's own memory is all that changes: the other windows stay as they are, and in its
window the blocks `bs` and what lies outside of the two areas that it gets memory from. -/
structure Calm (bs : List Block) (s s' : Sys) : Prop where
  cur : s'.cur = s.cur
  wins : ∀ i, i ≠ s.cur → s'.wins i = s.wins i
  ptr : s.heap_ptr.val ≤ s'.heap_ptr.val
  outside : ∀ j, 0x20 ≤ j → (j < PROG_BASE ∨ s'.heap_ptr.val ≤ j ∧ j < HEAP_FAST_START ∨
    HEAP_FAST_END ≤ j) → s'.here.ram j = s.here.ram j
  kept : ∀ b ∈ bs, ∀ j, b.addr ≤ j → j < b.stop → s'.here.ram j = s.here.ram j

lemma Calm.refl : Calm bs s s :=
  ⟨rfl, fun _ _ => rfl, le_refl _, fun _ _ _ => rfl, fun _ _ _ _ _ => rfl⟩

lemma Calm.trans {s'' : Sys} (h : Calm bs s s') (h' : Calm bs s' s'') : Calm bs s s'' where
  cur := h'.cur.trans h.cur
  wins i hi := (h'.wins i (h.cur ▸ hi)).trans (h.wins i hi)
  ptr := h.ptr.trans h'.ptr
  outside j hj hout := by
    have hptr := h'.ptr
    exact (h'.outside j hj hout).trans (h.outside j hj (by omega))
  kept b hb j hj hj' := (h'.kept b hb j hj hj').trans (h.kept b hb j hj hj')

lemma Calm.mono (h : Calm bs s s') (hsub : ∀ b ∈ cs, b ∈ bs) : Calm cs s s' :=
  ⟨h.cur, h.wins, h.ptr, h.outside, fun b hb => h.kept b (hsub b hb)⟩

/-- A store into one block leaves the others alone. -/
lemma Placed.calm (h : Placed s bs) (hb : b ∈ bs) (hcs : ∀ c ∈ cs, c.Apart b)
    (hram : ∀ j, j < b.addr ∨ b.stop ≤ j → ram j = s.here.ram j) :
    Calm cs s (s.set_win s.cur { s.here with ram := ram }) := by
  obtain ⟨H, hok, hhome⟩ := h.home
  refine ⟨rfl, fun i => set_win_ne, le_refl _, fun j hj hout => ?_, fun c hc j hj hj' => ?_⟩
  · rw [here_set_win]
    refine hram j ?_
    have hptr : s.heap_ptr.val ≤ j ∧ j < HEAP_FAST_START ∨ j < PROG_BASE ∨ HEAP_FAST_END ≤ j := by
      rcases hout with hlow | hmid | hhigh
      · exact .inr (.inl hlow)
      · exact .inl hmid
      · exact .inr (.inr hhigh)
    cases hhome b hb with
    | bump hlow hhigh =>
      have := heap_ptr_le s
      unfold HEAP_FAST_START HEAP_FAST_END at hptr
      omega
    | fast c hc hin hlow hhigh =>
      have hcl := hin.low
      have hch := hin.high
      simp only [Pool.start, Pool.stop] at hcl hch
      unfold PROG_BASE HEAP_FAST_START HEAP_FAST_END at *
      split at hlow <;> omega
  · rw [here_set_win]
    exact hram j ((hcs c hc).elim (fun h => .inl (by omega)) fun h => .inr (by omega))

/-- A call that gives nothing, or a cleared block. -/
def Gives (bs : List Block) (s s' : Sys) (a n : Nat) : Prop :=
  Calm bs s s' ∧ (a = 0 ∧ Placed s' bs ∨
    a ≠ 0 ∧ Placed s' (⟨a, n⟩ :: bs) ∧ ∀ j, a ≤ j → j < a + n → s'.here.ram j = 0)

/-- Without a chip pool the loader's allocator moves the bump pointer. -/
lemma heap_alloc_eq (h : s.here.heads .chip = none) : heap_alloc s n =
      if hp : u32 (s.heap_ptr + u32 (n + 3) / 4 * 4) ≤ HEAP_CHIP_END then
        if GUEST_RAM_SIZE < s.heap_ptr + u32 (n + 3) / 4 * 4 then none
        else some ({ s.set_win s.cur (s.here.fill_with s.heap_ptr (u32 (n + 3) / 4 * 4) 0) with
          heap_ptr := ⟨_, Nat.lt_succ_of_le hp⟩ }, s.heap_ptr.val)
      else some (s, 0) := by
  unfold heap_alloc
  rw [h]
  simp only [Option.isSome_none, Bool.false_eq_true, if_false, set_win_here, ne_eq,
    not_true_eq_false]

/-- A request that does not wrap is answered. -/
lemma heap_alloc_some (h : s.here.heads .chip = none) (hn : n + GUEST_RAM_SIZE ≤ 2 ^ 32) :
    ∃ s' a, heap_alloc s n = some (s', a) := by
  have hptr := heap_ptr_le s
  unfold GUEST_RAM_SIZE at hn
  rw [heap_alloc_eq h, u32_of_lt (n := n + 3) (by omega)]
  split
  · rename_i hp
    rw [u32_of_lt (by omega)] at hp
    unfold HEAP_CHIP_END at hp
    rw [if_neg (by unfold GUEST_RAM_SIZE; omega)]
    exact ⟨_, _, rfl⟩
  · exact ⟨_, _, rfl⟩

lemma heap_alloc_spec (h : Placed s bs) (hn : n + 3 < 2 ^ 32)
    (hret : heap_alloc s n = some (s', a)) : Gives bs s s' a n := by
  rw [heap_alloc_eq h.chip, u32_of_lt hn] at hret
  have hlow := h.ptr
  unfold PROG_BASE at hlow
  split at hret
  · rename_i hp
    split at hret
    · cases hret
    rename_i hroom
    unfold GUEST_RAM_SIZE at hroom
    have hnew : u32 (s.heap_ptr.val + (n + 3) / 4 * 4) = s.heap_ptr.val + (n + 3) / 4 * 4 :=
      u32_of_lt (by omega)
    unfold HEAP_CHIP_END at hp
    cases hret
    obtain ⟨H, hok, hhome⟩ := h.home
    have hw : HeapOk (s.here.fill_with s.heap_ptr ((n + 3) / 4 * 4) 0) (H s.cur) :=
      chip_store (hok.heaps s.cur) h.chip fun j hj => fill_outside (by omega)
    have hgrow := hok.grow hw fun c hc => hc
    rw [update_eq_self] at hgrow
    have hhere : (s.set_win s.cur (s.here.fill_with s.heap_ptr ((n + 3) / 4 * 4) 0)).wins s.cur =
        s.here.fill_with s.heap_ptr ((n + 3) / 4 * 4) 0 := set_win_same
    -- every block of the loader is below the bump pointer or in the fast pool
    have hbelow : ∀ b ∈ bs, b.stop ≤ s.heap_ptr.val ∨ 0x800000 ≤ b.addr := by
      intro b hb
      cases hhome b hb with
      | bump _ hhigh => exact .inl hhigh
      | fast c hc hin hclow hhigh =>
        have hcl := hin.low
        simp only [Pool.start, HEAP_FAST_START] at hcl
        split at hclow <;> exact .inr (by omega)
    refine ⟨⟨rfl, fun i => set_win_ne, ?_, fun j hj hout => ?_, fun b hb j hj hj' => ?_⟩,
      .inr ⟨by omega, ⟨⟨H, ⟨hgrow.heaps, hgrow.live, hgrow.once, hgrow.recs, hgrow.recs_once⟩,
        fun b hb => ?_⟩, ?_, ?_, ?_⟩, fun j hj hj' => ?_⟩⟩
    · simp only [hnew]
      omega
    · refine (congrArg (fun v : Window => v.ram j) hhere).trans (fill_outside ?_)
      simp only [hnew] at hout
      unfold PROG_BASE HEAP_FAST_START HEAP_FAST_END at hout
      omega
    · refine (congrArg (fun v : Window => v.ram j) hhere).trans (fill_outside ?_)
      have := hbelow b hb
      omega
    · rcases mem_cons.mp hb with rfl | hb
      · refine .bump hlow ?_
        simp only [Block.stop, hnew]
        omega
      refine (hhome b hb).mono ?_ fun _ hx => hx
      simp only [hnew]
      omega
    · exact (congrArg (fun v : Window => v.heads .chip) hhere).trans h.chip
    · simp only [hnew, PROG_BASE]
      omega
    · refine pairwise_cons.mpr ⟨fun b hb => ?_, h.apart⟩
      have := hbelow b hb
      unfold Block.Apart Block.stop at *
      simp only
      omega
    · refine (congrArg (fun v : Window => v.ram j) hhere).trans (fill_inside hj ?_ ?_)
      · omega
      · unfold GUEST_RAM_SIZE
        omega
  · cases hret
    exact ⟨Calm.refl, .inl ⟨rfl, h⟩⟩

/-! ### The fast pool -/

/-- What `Quiet` leaves alone is what the loader needs. -/
lemma calm_of_quiet (hhome : ∀ b ∈ bs, Home s (H s.cur) b)
    (hq : Quiet [.fast] (H s.cur) s.here s'.here) (hcur : s'.cur = s.cur)
    (hwins : ∀ i, i ≠ s.cur → s'.wins i = s.wins i) (hptr : s'.heap_ptr = s.heap_ptr) :
    Calm bs s s' := by
  have hfast : ∀ j, j < HEAP_FAST_START ∨ HEAP_FAST_END ≤ j →
      ∀ p ∈ [Pool.fast], j < p.start ∨ p.stop ≤ j := by
    intro j hj p hp
    rw [mem_singleton] at hp
    subst hp
    exact hj
  refine ⟨hcur, hwins, by rw [hptr], fun j hj hout => hq.outside j hj (hfast j ?_),
    fun b hb j hj hj' => ?_⟩
  · unfold PROG_BASE HEAP_FAST_START HEAP_FAST_END at *
    omega
  cases hhome b hb with
  | bump hlow hhigh =>
    have := heap_ptr_le s
    unfold PROG_BASE at hlow
    refine hq.outside j (by omega) (hfast j (.inl ?_))
    unfold HEAP_FAST_START
    omega
  | fast x hx hin hlow hhigh => exact hq.held x hx j (by split at hlow <;> omega) (by omega)

/-- A block from the fast pool. -/
lemma fast_alloc_spec (h : Placed s bs) (hpos : 0 < n)
    (hn : (if s.memcheck_on then n + 12 else n) + 16 ≤ 2 ^ 32)
    (hret : s.dos_AllocMem_glue n 0x10004 fails = some (s', a)) : Gives bs s s' a n := by
  obtain ⟨H, hok, hhome⟩ := h.home
  obtain ⟨t, addr, K, hret', hok', hkeeps, hquiet, hallots⟩ := hok.mc_alloc hpos 0x10004 fails hn
  rw [Sys.dos_AllocMem_glue, if_neg (by omega), hret'] at hret
  obtain ⟨rfl, rfl⟩ := Prod.mk.inj (Option.some.inj hret)
  have hpools : Sys.pools_of 0x10004 = [.fast] := by decide
  have hsub : ∀ c ∈ (H s.cur).held, c ∈ K.held := by
    rcases hallots with ⟨-, hheld⟩ | ⟨b, hheld, -⟩ <;> rw [hheld]
    · exact fun c hc => hc
    · exact fun c hc => mem_cons_of_mem _ hc
  have hheap : update H s.cur K t.cur = K := by
    rw [hkeeps.cur]
    exact update_self ..
  have hchip : t.here.heads .chip = none := by
    rw [hquiet.heads .chip (by decide)]
    exact h.chip
  have hptr : PROG_BASE ≤ t.heap_ptr.val := by
    rw [hkeeps.ptr]
    exact h.ptr
  have hold : ∀ b ∈ bs, Home t (update H s.cur K t.cur) b := by
    intro b hb
    rw [hheap]
    exact (hhome b hb).mono (by rw [hkeeps.ptr]) hsub
  refine ⟨calm_of_quiet hhome hquiet hkeeps.cur hkeeps.wins hkeeps.ptr, ?_⟩
  rcases hallots with ⟨haddr, -⟩ | ⟨x, hheld, ho, ⟨p, hp, hin⟩, hclear⟩
  · exact .inl ⟨haddr, ⟨_, hok', hold⟩, hchip, hptr, h.apart⟩
  rw [hpools, mem_singleton] at hp
  subst hp
  have haddr := ho.addr
  have hroom := ho.room
  simp only at haddr hroom
  have hin' := hin.low
  simp only [Pool.start, HEAP_FAST_START] at hin'
  refine .inr ⟨by omega, ⟨⟨_, hok', fun b hb => ?_⟩, hchip, hptr, ?_⟩, hclear (by decide)⟩
  · rcases mem_cons.mp hb with rfl | hb
    · refine .fast x (by rw [hheap, hheld]; exact mem_cons_self) hin ?_ hroom
      split at haddr <;> split <;> simp_all
    · exact hold b hb
  refine pairwise_cons.mpr ⟨fun b hb => ?_, h.apart⟩
  unfold Block.Apart Block.stop
  cases hhome b hb with
  | bump hlow hhigh =>
    have := heap_ptr_le s
    unfold Block.stop at hhigh
    right
    simp only
    split at haddr <;> omega
  | fast y hy hyin hlow hhigh =>
    have hxK := ((pairwise_append.mp (pairwise_append.mp (hok'.heaps s.cur).apart).2.1).2.1)
    rw [update_self, hheld, pairwise_cons] at hxK
    have hxy := hxK.1 y hy
    unfold Apart Blk.stop at hxy
    unfold Block.stop Blk.stop at hhigh
    unfold Blk.stop at hroom
    simp only
    split at hlow <;> split at haddr <;> omega

/-- A walk along the fast list ends at its end or at one of its blocks. -/
lemma fast_alloc_zero (h : HeapOk w K) (ptr : HeapPtr) {w' : Window}
    (hret : Sys.heap_alloc_any ptr w n false [.fast] = some (w', a)) :
    a < 2 ^ 24 ∧ (a = 0 → w' = w.heap_freelist_init ptr .fast) := by
  obtain ⟨K1, h1, -, -⟩ := h.init ptr .fast
  unfold Sys.heap_alloc_any Window.heap_alloc_fl Window.heap_alloc_fl_pool at hret
  rcases first_fit_spec (fun _ m => decide (Window.need_of n ≤ m)) walk_limit Pool.fast.slot
    (h1.listed .fast) (h1.sized .fast) (h1.placed .fast) (h1.short .fast) with
    hnone | ⟨pre, x, post, hxs, -, hsome⟩
  · simp only [hnone, if_true, Sys.heap_alloc_any] at hret
    cases hret
    exact ⟨by decide, fun _ => rfl⟩
  have hx := h1.placed .fast x (by rw [hxs]; simp)
  have hxb := hx.bounds
  have haddr : u32 (x.pos + HEAP_HDR) = x.pos + 8 := u32_of_lt (by unfold HEAP_HDR; omega)
  have ha : a = x.pos + 8 := by
    have hne : x.pos + 8 ≠ 0 := by omega
    simp only [hsome, Bool.false_eq_true, if_false] at hret
    by_cases hcut : u32 (Window.need_of n + HEAP_HDR + 8) ≤ x.size
    · simp only [if_pos hcut, Window.carve_bottom, haddr, if_neg hne, Option.some.injEq,
        Prod.mk.injEq] at hret
      exact hret.2.symm
    · simp only [if_neg hcut, Window.take_whole, haddr, if_neg hne, Option.some.injEq,
        Prod.mk.injEq] at hret
      exact hret.2.symm
  exact ⟨by omega, fun h => absurd h (by omega)⟩

/-- However much was asked for, a request that is refused changes no block. -/
lemma fast_refused (h : Placed s bs)
    (hret : s.dos_AllocMem_glue n 0x10004 fails = some (s', 0)) : Gives bs s s' 0 n := by
  obtain ⟨H, hok, hhome⟩ := h.home
  have hpools : Sys.pools_of 0x10004 = [.fast] := by decide
  have hrev : Nat.testBit 0x10004 MEMF_REVERSE = false := by decide
  have hcases : s' = s ∨ s' = s.set_win s.cur (s.here.heap_freelist_init s.heap_ptr .fast) := by
    unfold Sys.dos_AllocMem_glue Sys.mc_alloc at hret
    simp only [hpools, hrev] at hret
    split at hret
    · exact .inl (congrArg Prod.fst (Option.some.inj hret)).symm
    split at hret
    · exact .inl (congrArg Prod.fst (Option.some.inj hret)).symm
    split at hret
    · split at hret
      · cases hret
      rename_i w raw hany
      obtain ⟨hlt, hzero⟩ := fast_alloc_zero (hok.heaps s.cur) s.heap_ptr hany
      split at hret
      · rename_i hraw
        have hs := (Prod.mk.inj (Option.some.inj hret)).1
        rw [← hs, hzero hraw]
        exact .inr rfl
      · rename_i hraw
        have haddr := congrArg Prod.snd (Option.some.inj hret)
        rw [u32_of_lt (by omega)] at haddr
        omega
    · split at hret
      · cases hret
      rename_i w addr hany
      obtain ⟨-, hzero⟩ := fast_alloc_zero (hok.heaps s.cur) s.heap_ptr hany
      obtain ⟨hs, ha⟩ := Prod.mk.inj (Option.some.inj hret)
      rw [← hs, hzero ha]
      exact .inr rfl
  rcases hcases with rfl | rfl
  · exact ⟨Calm.refl, .inl ⟨rfl, h⟩⟩
  obtain ⟨K, hK, hheld, hquiet⟩ := (hok.heaps s.cur).init s.heap_ptr .fast
  have hquiet' : Quiet [.fast] (H s.cur) s.here
      (s.set_win s.cur (s.here.heap_freelist_init s.heap_ptr .fast)).here := by
    rw [here_set_win]
    exact hquiet
  refine ⟨calm_of_quiet hhome hquiet' rfl (fun i => set_win_ne) rfl, .inl ⟨rfl, ⟨_, hok.grow hK
    (by rw [hheld]; exact fun c hc => hc), fun b hb => ?_⟩, ?_, h.ptr, h.apart⟩⟩
  · have hheap : update H s.cur K s.cur = K := update_self ..
    refine (hhome b hb).mono (le_refl _) fun x hx => ?_
    have : x ∈ (update H s.cur K s.cur).held := by
      rw [hheap, hheld]
      exact hx
    exact this
  · rw [hquiet'.heads .chip (by decide)]
    exact h.chip

/-- A hunk's block. A request that would wrap gives no block that fits in the window. -/
lemma hunk_alloc_spec (h : Placed s bs) (h4 : n % 4 = 0) (hn : n < 2 ^ 32) {fast : Bool}
    (ha : a = 0 ∨ 4 ≤ n ∧ n ≤ GUEST_RAM_SIZE)
    (hret : hunk_alloc s n fast fails = some (s', a)) : Gives bs s s' a n := by
  cases fast with
  | false => exact heap_alloc_spec h (by omega) hret
  | true =>
    rcases ha with rfl | ⟨hpos, hsize⟩
    · exact fast_refused h hret
    · unfold GUEST_RAM_SIZE at hsize
      exact fast_alloc_spec h (by omega) (by split <;> omega) hret

end uaos.hunk
