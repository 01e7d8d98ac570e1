-- Runs of guest allocations: every block that AllocMem or AllocAbs hands out is as large as
-- it was asked for, and lies apart from every other block and from the free lists, as long as no
-- size wraps, AllocAbs is called in units of eight bytes and memcheck frees in its own window.
import Uaos.GuestOps

namespace uaos.guest

open List
open Function (update update_self update_of_ne update_eq_self)

open chain Sys

variable {held : List Blk} {ps qs : List Pool} {payload : Nat}

/-! ## What is promised of the blocks -/

/-- The header of a block that a guest has. -/
def Live.blk (l : Live) : Nat := l.addr - (if l.guarded then 16 else 8)

/-- The size of the block, as its header has it. -/
def Live.span (l : Live) (s : Sys) : Nat := guest_read_be32 (s.wins l.win).ram l.blk % HEAP_MAGIC

/-- The blocks on a list, from the link `bptr` on. -/
inductive OnList (ram : Buf) : Nat → Nat → Nat → Prop where
  | here {bptr : Nat} (h : bptr ≠ 0) :
    OnList ram bptr (u32 (bptr * 4)) (guest_read_be32 ram (u32 (bptr * 4)) % HEAP_MAGIC)
  | next {bptr pos n : Nat} (h : bptr ≠ 0)
      (hnext : OnList ram (guest_read_be32 ram (u32 (u32 (bptr * 4) + 4))) pos n) :
    OnList ram bptr pos n

/-- Every block of a guest is aligned, as large as it was asked for, and apart from the other
blocks of its window and from the free blocks. -/
structure Sys.Sound (s : Sys) : Prop where
  aligned : ∀ l ∈ s.live, l.absolute = false → l.addr % 8 = 0
  large : ∀ l ∈ s.live, l.addr + l.size ≤ l.blk + l.span s
  apart : s.live.Pairwise fun l m => l.win = m.win →
    l.blk + l.span s ≤ m.blk ∨ m.blk + m.span s ≤ l.blk
  unlisted : ∀ l ∈ s.live, ∀ p pos n, OnList (s.wins l.win).ram ((s.wins l.win).head_read p) pos n →
      l.blk + l.span s ≤ pos ∨ pos + n ≤ l.blk

namespace Sys

/-- A guest only frees blocks that it has, and only writes into them. -/
def legal (s : Sys) : Op → Bool
  | .free_mem addr => s.live.any fun l => l.win == s.cur && l.addr == addr.toNat
  | .poke addr _ => s.live.any fun l =>
    l.win == s.cur && decide (l.addr ≤ addr) && decide (addr < l.addr + l.size)
  | _ => true

/-- The requests and frees that the heap gets right. -/
def fit (s : Sys) : Op → Bool
  | .alloc_mem size _ _ => decide ((if s.memcheck_on then size.toNat + 12 else size.toNat) + 16 ≤
      2 ^ 32)
  | .alloc_abs addr size => addr.toNat % 8 == 0 && (size.toNat + 3) / 4 * 4 % 8 == 0 &&
    decide (addr.toNat + size.toNat + 4 ≤ 2 ^ 32)
  | .free_mem addr => !s.memcheck_on || (s.mc_find addr.toNat).all fun r => r.ram == s.cur
  | _ => true

def op_ok (s : Sys) (op : Op) : Bool := s.legal op && s.fit op

/-- The windows as they are when their tasks start: the words that mirror the heads are cleared. -/
def boot (rams : Fin MAX_M68K_TASKS → Buf) (ptr : HeapPtr) : Sys where
  wins i := ⟨fun j => if 0x10 ≤ j ∧ j < 0x20 then 0 else rams i j, fun _ => none⟩
  cur := ⟨0, by decide⟩
  heap_ptr := ptr
  memcheck_on := false
  recs := List.replicate MC_MAX_RECS ⟨0, 0, 0, ⟨0, by decide⟩⟩
  live := []

end Sys

/-! ## The blocks behind the guests' blocks -/

/-- The guest has the block `b`. -/
structure Owns (l : Live) (b : Blk) : Prop where
  guarded : l.guarded = b.guarded
  addr : l.addr = b.pos + (if b.guarded then 16 else 8)
  room : l.addr + l.size ≤ b.stop

/-- memcheck has a record of the block `b`. -/
structure Tracks (r : MemchkRec) (b : Blk) : Prop where
  guarded : b.guarded = true
  blk : r.blk = b.pos
  payload : r.payload = b.pos + 16

/-- Two records are not about one block of a window. -/
def MemchkRec.Distinct (r q : MemchkRec) : Prop :=
  r.payload ≠ 0 → r.payload = q.payload → r.ram ≠ q.ram

structure Sys.Ok (s : Sys) (H : Fin MAX_M68K_TASKS → Heap) : Prop where
  heaps : ∀ i, HeapOk (s.wins i) (H i)
  live : ∀ l ∈ s.live, ∃ b ∈ (H l.win).held, Owns l b
  once : s.live.Pairwise fun l m => l.win = m.win → l.blk ≠ m.blk
  recs : ∀ r ∈ s.recs, r.payload ≠ 0 → ∃ b ∈ (H r.ram).held, Tracks r b
  recs_once : s.recs.Pairwise MemchkRec.Distinct

section soundness

variable {s : Sys} {H : Fin MAX_M68K_TASKS → Heap} {w : Window} {K : Heap} {l m : Live} {b c : Blk}
  {p : Pool}

lemma Owns.blk (h : Owns l b) : l.blk = b.pos := by
  have haddr := h.addr
  unfold Live.blk
  rw [h.guarded]
  split at haddr <;> simp_all

lemma Owns.span (h : Owns l b) (hk : Kept (s.wins l.win).ram b) : l.span s = b.size := by
  have hb := hk.bounds
  rw [Live.span, h.blk, hk.header]
  exact (mark_spec (by unfold HEAP_MAGIC; omega)).2

/-- What is met on a list is one of its blocks. -/
lemma mem_of_onList {ram : Buf} {a pos n : Nat} (hon : OnList ram a pos n) {xs : List Blk}
    (hlist : Path Blk.ptr (link ram) a xs 0) (hsized : ∀ x ∈ xs, guest_read_be32 ram x.pos = x.size)
    (hin : ∀ x ∈ xs, x.In p) : ∃ x ∈ xs, x.pos = pos ∧ x.size = n := by
  induction hon generalizing xs with
  | here h =>
    cases xs with
    | nil => exact absurd hlist h
    | cons x xs =>
      have hxb := (hin x mem_cons_self).bounds
      rw [hlist.1, (hin x mem_cons_self).cur, hsized x mem_cons_self]
      exact ⟨x, mem_cons_self, rfl, (Nat.mod_eq_of_lt (by unfold HEAP_MAGIC; omega)).symm⟩
  | next h hnext ih =>
    cases xs with
    | nil => exact absurd hlist h
    | cons x xs =>
      have hxb := (hin x mem_cons_self).bounds
      have hlink : guest_read_be32 ram (u32 (u32 (x.ptr * 4) + 4)) = link ram x := by
        rw [(hin x mem_cons_self).cur, u32_of_lt (by omega), link]
      rw [hlist.1, hlink] at ih
      obtain ⟨y, hy, hpos⟩ := ih hlist.2 (forall_mem_cons.mp hsized).2
        (forall_mem_cons.mp hin).2
      exact ⟨y, mem_cons_of_mem _ hy, hpos⟩

lemma Sys.Ok.sound (h : s.Ok H) : s.Sound := by
  refine ⟨fun l hl _ => ?_, fun l hl => ?_, ?_, fun l hl p pos n hon => ?_⟩
  · obtain ⟨b, hb, ho⟩ := h.live l hl
    obtain ⟨p, hp⟩ := ((h.heaps l.win).kept b hb).placed
    have h8 := hp.pos8
    have haddr := ho.addr
    split at haddr <;> omega
  · obtain ⟨b, hb, ho⟩ := h.live l hl
    rw [ho.blk, ho.span ((h.heaps l.win).kept b hb)]
    exact ho.room
  · refine h.once.imp_of_mem fun {l m} hl hm hne hwin => ?_
    obtain ⟨b, hb, ho⟩ := h.live l hl
    obtain ⟨c, hc, ho'⟩ := h.live m hm
    rw [ho.blk, ho.span ((h.heaps l.win).kept b hb), ho'.blk, ho'.span ((h.heaps m.win).kept c hc)]
    rw [← hwin] at hc
    refine (h.heaps l.win).held_apart hb hc ?_
    rintro rfl
    exact hne hwin (ho.blk.trans ho'.blk.symm)
  · obtain ⟨b, hb, ho⟩ := h.live l hl
    have hw := h.heaps l.win
    rw [ho.blk, ho.span (hw.kept b hb)]
    obtain ⟨x, hx, rfl, rfl⟩ := mem_of_onList hon (hw.listed p) (hw.sized p) (hw.placed p)
    exact (hw.free_held hx hb).symm

end soundness

/-! ## Every step -/

section steps

variable {s : Sys} {H : Fin MAX_M68K_TASKS → Heap} {w w' : Window} {K : Heap}
    {l m : Live} {b c : Blk}
  {p : Pool} {i : Fin MAX_M68K_TASKS} {size addr : Nat}

@[simp] lemma set_win_same : (s.set_win i w).wins i = w := by simp [set_win]

lemma here_set_win : (s.set_win s.cur w).here = w := set_win_same

lemma set_win_ne {j : Fin MAX_M68K_TASKS} (h : j ≠ i) : (s.set_win i w).wins j = s.wins j := by
  simp [set_win, h]

/-- A window that changes, with the blocks that the guests and memcheck know. -/
lemma Sys.Ok.set_win (h : s.Ok H) (hw : HeapOk w K)
    (hlive : ∀ l ∈ s.live, l.win = i → ∃ b ∈ K.held, Owns l b)
    (hrecs : ∀ r ∈ s.recs, r.payload ≠ 0 → r.ram = i → ∃ b ∈ K.held, Tracks r b) :
    (s.set_win i w).Ok (update H i K) := by
  refine ⟨fun j => ?_, fun l hl => ?_, h.once, fun r hr hpay => ?_, h.recs_once⟩
  · by_cases hj : j = i
    · subst hj
      rw [set_win_same, update_self]
      exact hw
    · rw [set_win_ne hj, update_of_ne hj]
      exact h.heaps j
  · exact update_holds (hlive l hl) fun _ => h.live l hl
  · exact update_holds (hrecs r hr hpay) fun _ => h.recs r hr hpay

/-- A window in which every block is still there. -/
lemma Sys.Ok.grow (h : s.Ok H) (hw : HeapOk w K) (hsub : ∀ b ∈ (H i).held, b ∈ K.held) :
    (s.set_win i w).Ok (update H i K) := by
  refine h.set_win hw (fun l hl hi => ?_) fun r hr hpay hi => ?_
  · obtain ⟨b, hb, ho⟩ := h.live l hl
    rw [hi] at hb
    exact ⟨b, hsub b hb, ho⟩
  · obtain ⟨b, hb, ht⟩ := h.recs r hr hpay
    rw [hi] at hb
    exact ⟨b, hsub b hb, ht⟩

/-- A block that was there before lies apart from a new one. -/
lemma HeapOk.new_pos (h : HeapOk w K) (hheld : K.held = b :: held)
    (hc : c ∈ held) : c.pos ≠ b.pos := by
  have happ : (b :: held).Pairwise Apart := by
    have hrest := (pairwise_append.mp ((apart_perm (blocks_perm K .chip)).mp h.apart)).2.1
    rw [← hheld]
    exact (pairwise_append.mp hrest).2.1
  have hbc := (pairwise_cons.mp happ).1 c hc
  have h1 := (h.kept b (hheld ▸ mem_cons_self)).room
  have h2 := (h.kept c (hheld ▸ mem_cons_of_mem _ hc)).room
  unfold Apart Blk.stop at hbc
  omega

/-- A block that is new to the window goes to the guest. -/
lemma Sys.Ok.note {s' : Sys} (h : s.Ok H) (h' : s'.Ok (update H s.cur K))
    (hcur : s'.cur = s.cur) (hlive : s'.live = s.live) (hheld : K.held = b :: (H s.cur).held)
    {guarded absolute : Bool} (ho : Owns ⟨s.cur, addr, size, guarded, absolute⟩ b) :
    (s'.note addr size guarded absolute).Ok (update H s.cur K) := by
  have hK : HeapOk (s'.wins s.cur) K := by
    have := h'.heaps s.cur
    rwa [update_self] at this
  unfold Sys.note
  split
  · exact h'
  rw [hcur, hlive]
  refine ⟨h'.heaps, fun l hl => ?_, pairwise_cons.mpr ⟨fun m hm hwin => ?_, h.once⟩, h'.recs,
    h'.recs_once⟩
  · rcases mem_cons.mp hl with rfl | hl
    · refine ⟨b, ?_, ho⟩
      rw [update_self, hheld]
      exact mem_cons_self
    · exact h'.live l (hlive ▸ hl)
  · obtain ⟨c, hc, ho'⟩ := h.live m hm
    rw [ho.blk, ho'.blk]
    rw [← hwin] at hc
    intro hpos
    exact hK.new_pos hheld hc hpos.symm

lemma Quiet.trans {H K : Heap} {w1 w2 : Window} (h : Quiet ps H w w1)
    (h' : Quiet qs K w1 w2) (hsub : ∀ c ∈ H.held, c ∈ K.held) : Quiet (ps ++ qs) H w w2 := by
  refine ⟨fun j hj hout => ?_, fun c hc j hj hj' => ?_, fun q hq => ?_⟩
  · rw [h'.outside j hj fun p hp => hout p (mem_append_right _ hp)]
    exact h.outside j hj fun p hp => hout p (mem_append_left _ hp)
  · rw [h'.held c (hsub c hc) j hj hj']
    exact h.held c hc j hj hj'
  · rw [mem_append, not_or] at hq
    rw [h'.heads q hq.2]
    exact h.heads q hq.1

lemma Quiet.mono {H : Heap} (h : Quiet ps H w w') (hsub : ∀ p ∈ ps, p ∈ qs) : Quiet qs H w w' :=
  ⟨fun j hj hout => h.outside j hj fun p hp => hout p (hsub p hp), h.held,
    fun q hq => h.heads q fun hp => hq (hsub q hp)⟩

/-- What the pools give for a request: nothing, or a block of one of them. -/
def Tried (ps : List Pool) (K K' : Heap) (w' : Window) (addr size : Nat) : Prop :=
  addr = 0 ∧ K'.held = K.held ∨
    ∃ b, addr = b.pos + 8 ∧ K'.held = b :: K.held ∧ b.guarded = false ∧ (∃ p ∈ ps, b.In p) ∧
      Clear w' b (size + 8)

/-- The pools are tried one after the other. -/
lemma HeapOk.alloc_any (ptr : HeapPtr) (hsize : size + 16 ≤ 2 ^ 32) (hpos : 0 < size) (rev : Bool)
    (ps : List Pool) (h : HeapOk w K) :
    ∃ w' addr K', heap_alloc_any ptr w size rev ps = some (w', addr) ∧ HeapOk w' K' ∧
      Quiet ps K w w' ∧ Tried ps K K' w' addr size := by
  induction ps generalizing w K with
  | nil => exact ⟨w, 0, K, rfl, h, h.quiet_low rfl fun _ _ => rfl, .inl ⟨rfl, rfl⟩⟩
  | cons p ps ih =>
    obtain ⟨K1, h1, hheld, hq1⟩ := h.init ptr p
    unfold heap_alloc_any Window.heap_alloc_fl
    rcases h1.alloc_pool hsize hpos p rev with hnone | ⟨w', K', b, hsome, hg, hc⟩
    · rw [hnone]
      obtain ⟨w', addr, K', hret, hok, hq, htried⟩ := ih h1
      refine ⟨w', addr, K', hret, hok, hq1.trans hq fun _ hc => hheld ▸ hc, ?_⟩
      unfold Tried at htried ⊢
      rw [hheld] at htried
      refine htried.imp_right ?_
      rintro ⟨b, haddr, hb, hplain, ⟨q, hq, hbq⟩, hclear⟩
      exact ⟨b, haddr, hb, hplain, ⟨q, mem_cons_of_mem _ hq, hbq⟩, hclear⟩
    · rw [hsome]
      have hq2 := hq1.trans hg.quiet fun _ hc => hheld ▸ hc
      refine ⟨w', _, K', if_neg (by omega), hg.ok, hq2.mono fun q hq => ?_,
        .inr ⟨b, rfl, ?_, hg.plain,
        ⟨p, mem_cons_self, hg.placed⟩, hc⟩⟩
      · simp only [cons_append, nil_append, mem_cons, not_mem_nil, or_false, or_self] at hq
        rw [hq]
        exact mem_cons_self
      · rw [hg.held, hheld]

/-! ### memcheck's table -/

variable {r q : MemchkRec} {L : List MemchkRec}

lemma mem_mc_record (h : q ∈ mc_record r L) : q = r ∨ q ∈ L := by
  induction L with
  | nil => cases h
  | cons u us ih =>
    unfold mc_record at h
    split at h
    · rcases mem_cons.mp h with h | h
      · exact .inl h
      · exact .inr (mem_cons_of_mem _ h)
    rcases mem_cons.mp h with rfl | h
    · exact .inr mem_cons_self
    · rcases ih h with h | h
      · exact .inl h
      · exact .inr (mem_cons_of_mem _ h)

lemma mc_record_once (hL : L.Pairwise MemchkRec.Distinct) (hnew : ∀ q ∈ L, q.Distinct r) :
    (mc_record r L).Pairwise MemchkRec.Distinct := by
  induction L with
  | nil => exact List.Pairwise.nil
  | cons u us ih =>
    rw [pairwise_cons] at hL
    unfold mc_record
    split
    · refine pairwise_cons.mpr ⟨fun v hv hpay heq hram => ?_, hL.2⟩
      exact hnew v (mem_cons_of_mem _ hv) (heq ▸ hpay) heq.symm hram.symm
    refine pairwise_cons.mpr
      ⟨fun v hv => ?_, ih hL.2 (forall_mem_cons.mp hnew).2⟩
    rcases mem_mc_record hv with rfl | hv
    · exact hnew u mem_cons_self
    · exact hL.1 v hv

/-- The record that is dropped is the only one about its block. -/
lemma mem_drop_rec (hL : L.Pairwise MemchkRec.Distinct) (h : q ∈ drop_rec r L)
    (hpay : q.payload ≠ 0) : q ∈ L ∧ ¬ (q.payload = r.payload ∧ q.ram = r.ram) := by
  induction L with
  | nil => cases h
  | cons u us ih =>
    rw [pairwise_cons] at hL
    unfold drop_rec at h
    split at h
    · rename_i hu
      rcases mem_cons.mp h with rfl | h
      · exact absurd rfl hpay
      · refine ⟨mem_cons_of_mem _ h, fun hq => ?_⟩
        have heq : u.payload = q.payload := hu.1.trans hq.1.symm
        exact hL.1 q h (heq ▸ hpay) heq (hu.2.trans hq.2.symm)
    · rename_i hu
      rcases mem_cons.mp h with rfl | h
      · exact ⟨mem_cons_self, hu⟩
      · obtain ⟨hmem, hne⟩ := ih hL.2 h
        exact ⟨mem_cons_of_mem _ hmem, hne⟩

lemma mem_drop_rec_cases (h : q ∈ drop_rec r L) : q ∈ L ∨ q.payload = 0 := by
  induction L with
  | nil => cases h
  | cons u us ih =>
    unfold drop_rec at h
    split at h
    · rcases mem_cons.mp h with rfl | h
      · exact .inr rfl
      · exact .inl (mem_cons_of_mem _ h)
    · rcases mem_cons.mp h with rfl | h
      · exact .inl mem_cons_self
      · exact (ih h).imp_left (mem_cons_of_mem _)

lemma drop_rec_once (hL : L.Pairwise MemchkRec.Distinct) :
    (drop_rec r L).Pairwise MemchkRec.Distinct := by
  induction L with
  | nil => exact List.Pairwise.nil
  | cons u us ih =>
    rw [pairwise_cons] at hL
    unfold drop_rec
    split
    · exact pairwise_cons.mpr ⟨fun v _ hpay => absurd rfl hpay, hL.2⟩
    refine pairwise_cons.mpr ⟨fun v hv => ?_, ih hL.2⟩
    rcases mem_drop_rec_cases hv with hv | hv
    · exact hL.1 v hv
    · intro hpay heq
      exact absurd (heq.trans hv) hpay

/-- A record that is found has the payload, and is one of the table. -/
lemma mc_find_spec (h : s.mc_find addr = some r) : r ∈ s.recs ∧ r.payload = addr := by
  unfold mc_find at h
  rw [Option.orElse_eq_orElse, Option.orElse_eq_or, Option.or_eq_some_iff] at h
  rcases h with h | ⟨-, h⟩
  · refine ⟨mem_of_find?_eq_some h, ?_⟩
    have := find?_some h
    rw [Bool.and_eq_true, beq_iff_eq] at this
    exact this.1
  · refine ⟨mem_of_find?_eq_some h, ?_⟩
    have := find?_some h
    exact beq_iff_eq.mp this

/-! ### AllocMem -/

lemma Sys.Ok.record (h : s.Ok H) (hb : b ∈ (H r.ram).held) (ht : Tracks r b)
    (hnew : ∀ q ∈ s.recs, q.Distinct r) : Sys.Ok { s with recs := mc_record r s.recs } H := by
  refine ⟨h.heaps, h.live, h.once, fun q hq hpay => ?_, mc_record_once h.recs_once hnew⟩
  rcases mem_mc_record hq with rfl | hq
  · exact ⟨b, hb, ht⟩
  · exact h.recs q hq hpay

lemma HeapOk.retag (h : HeapOk w K) (hheld : K.held = b :: held)
    (hblank : guest_read_be32 w.ram (b.pos + 8) < HEAP_MAGIC) :
    HeapOk w ⟨K.free, ⟨b.pos, b.size, true⟩ :: held⟩ := by
  have hmem : b ∈ K.held := hheld ▸ mem_cons_self
  obtain ⟨⟨p, hp⟩, hroom, hheader, -⟩ := h.kept b hmem
  have hb : (⟨b.pos, b.size, true⟩ : Blk).In p := ⟨hp.low, hp.high, hp.pos8, hp.size8, hp.some⟩
  refine ⟨h.listed, h.sized, h.placed, fun c hc => ?_, ?_, fun q hq => ⟨(h.fresh q hq).1, ?_⟩⟩
  · rcases mem_cons.mp hc with rfl | hc
    · exact ⟨⟨p, hb⟩, hroom, hheader, fun _ => hblank⟩
    · exact h.kept c (hheld ▸ mem_cons_of_mem _ hc)
  · have happ : (⟨K.free, b :: held⟩ : Heap).blocks.Pairwise Apart := by
      rw [← hheld]
      exact h.apart
    -- the tag does not move the block
    have hcut : Cut b p [⟨b.pos, b.size, true⟩] := Cut.nil.cons hb ⟨le_refl _, le_refl _⟩ (by simp)
    exact (apart_perm held_perm).mpr (hcut.pairwise ((apart_perm held_perm).mp happ))
  · intro c hc hcq
    rcases mem_cons.mp hc with rfl | hc
    · exact (h.fresh q hq).2 b hmem ⟨hcq.low, hcq.high, hcq.pos8, hcq.size8, hcq.some⟩
    · exact (h.fresh q hq).2 c (hheld ▸ mem_cons_of_mem _ hc) hcq

/-- The guard words and the fill of memcheck stay inside the block. -/
lemma guard_outside {j : Nat} (reqs : Nat) (hpay : 4 ≤ payload)
    (hlt : payload + size + 4 < 2 ^ 32) (hj : j < payload - 4 ∨ payload + size + 4 ≤ j) :
    (Sys.guard w payload size reqs).ram j = w.ram j := by
  unfold Sys.guard
  rw [u32_of_lt (by omega)]
  split
  · simp only [store_ram]
    rw [write_outside (by omega), write_outside (by omega)]
  · simp only [store_ram, fill_ram]
    rw [fill_outside (by omega), write_outside (by omega), write_outside (by omega)]

lemma guard_heads {reqs : Nat} : (Sys.guard w payload size reqs).heads = w.heads := by
  unfold Sys.guard
  split <;> rfl

/-- A block that memcheck puts its guard words in. -/
lemma HeapOk.guard (h : HeapOk w K) (hheld : K.held = b :: held)
    (hplain : b.guarded = false) (hclear : Clear w b (size + 20)) (reqs : Nat) :
    HeapOk (Sys.guard w (b.pos + 16) size reqs) ⟨K.free, ⟨b.pos, b.size, true⟩ :: held⟩ := by
  have hmem : b ∈ K.held := hheld ▸ mem_cons_self
  obtain ⟨⟨p, hp⟩, hroom, hheader, -⟩ := h.kept b hmem
  have hbb := hp.bounds
  have hsize := hclear.1
  have hwrite : HeapOk (Sys.guard w (b.pos + 16) size reqs) K := by
    refine h.write hmem guard_heads fun j hj => guard_outside reqs (by omega) (by omega) ?_
    unfold Blk.Payload Blk.stop at hj
    rw [hplain] at hj
    simp only [Bool.false_eq_true, if_false] at hj
    omega
  refine hwrite.retag hheld ?_
  have hzero : guest_read_be32 (Sys.guard w (b.pos + 16) size reqs).ram (b.pos + 8) = 0 := by
    refine read_zero fun j hj hj4 => ?_
    rw [guard_outside reqs (by omega) (by omega) (by omega)]
    exact hclear.2 j hj (by omega)
  rw [hzero]
  decide

/-- What a call leaves alone but for its window and memcheck's table. -/
structure Sys.Keeps (s s' : Sys) : Prop where
  cur : s'.cur = s.cur
  wins : ∀ i, i ≠ s.cur → s'.wins i = s.wins i
  ptr : s'.heap_ptr = s.heap_ptr
  memcheck : s'.memcheck_on = s.memcheck_on
  live : s'.live = s.live

/-- What AllocMem gives: nothing, or a block that the guest will own. -/
def Allots (s s' : Sys) (H : Fin MAX_M68K_TASKS → Heap) (K : Heap) (size reqs addr : Nat) : Prop :=
  addr = 0 ∧ K.held = (H s.cur).held ∨
    ∃ b, K.held = b :: (H s.cur).held ∧ Owns ⟨s.cur, addr, size, s.memcheck_on, false⟩ b ∧
      (∃ p ∈ pools_of reqs, b.In p) ∧
      (reqs.testBit MEMF_CLEAR = true → ∀ j, addr ≤ j → j < addr + size → s'.here.ram j = 0)

/-- The guard words are inside the new block. -/
lemma HeapOk.quiet_guard {w0 : Window} {free : Pool → List Blk}
    (h : HeapOk w K) (hheld : K.held = b :: held) (hp : p ∈ ps) (hbp : b.In p)
    (hroom : size + 20 ≤ b.size) (hq : Quiet ps ⟨free, held⟩ w0 w) (reqs : Nat) :
    Quiet ps ⟨free, held⟩ w0 (Sys.guard w (b.pos + 16) size reqs) := by
  have hbb := hbp.bounds
  have hlow := hbp.low
  have hhigh := hbp.high
  unfold Blk.stop at hhigh
  refine ⟨fun j hj hout => ?_, fun c hc j hj hj' => ?_, fun q hq' => ?_⟩
  · have := hout p hp
    rw [guard_outside reqs (by omega) (by omega) (by omega)]
    exact hq.outside j hj hout
  · have hbc : Apart b c := by
      refine h.held_apart (hheld ▸ mem_cons_self)
        (hheld ▸ mem_cons_of_mem _ hc) ?_
      rintro rfl
      exact h.new_pos hheld hc rfl
    unfold Apart Blk.stop at hbc
    unfold Blk.stop at hj'
    rw [guard_outside reqs (by omega) (by omega) (by omega)]
    exact hq.held c hc j hj hj'
  · rw [guard_heads]
    exact hq.heads q hq'

section guarded

variable {w1 : Window} (h : s.Ok H) (hmc : s.memcheck_on = true) (hok : HeapOk w1 K)
  (hheld : K.held = b :: (H s.cur).held) (hplain : b.guarded = false)
  (hclear : Clear w1 b (size + 20))
include h hmc hok hheld hplain hclear

/-- A block with guard words, and its record. -/
lemma Sys.Ok.track (reqs : Nat) :
    Sys.Ok { s.set_win s.cur (Sys.guard w1 (b.pos + 16) size reqs) with
      recs := mc_record ⟨b.pos + 16, size, b.pos, s.cur⟩ s.recs }
      (update H s.cur ⟨K.free, ⟨b.pos, b.size, true⟩ :: (H s.cur).held⟩) ∧
    Owns ⟨s.cur, b.pos + 16, size, s.memcheck_on, false⟩ ⟨b.pos, b.size, true⟩ ∧
    (reqs.testBit MEMF_CLEAR = true → ∀ j, b.pos + 16 ≤ j → j < b.pos + 16 + size →
      (Sys.guard w1 (b.pos + 16) size reqs).ram j = 0) := by
  have hroom := hclear.1
  have hbb := (hok.kept b (hheld ▸ mem_cons_self)).bounds
  have hguard := hok.guard hheld hplain hclear reqs
  have hgrow : (s.set_win s.cur (Sys.guard w1 (b.pos + 16) size reqs)).Ok (update H s.cur
      ⟨K.free, ⟨b.pos, b.size, true⟩ :: (H s.cur).held⟩) :=
    h.grow hguard fun c hc => mem_cons_of_mem _ hc
  refine ⟨hgrow.record (r := ⟨b.pos + 16, size, b.pos, s.cur⟩) (b := ⟨b.pos, b.size, true⟩)
    (by rw [update_self]; exact mem_cons_self) ⟨rfl, rfl, rfl⟩ ?_,
    ⟨hmc, rfl, ?_⟩, fun hbit j hj hj' => ?_⟩
  · intro q hq hne heq hram
    obtain ⟨c, hc, ht⟩ := h.recs q hq hne
    rw [hram] at hc
    have hpos := ht.payload
    simp only at heq
    exact hguard.new_pos rfl hc (by simp only; omega)
  · simp only [Blk.stop]
    omega
  · unfold Sys.guard
    rw [if_pos hbit, u32_of_lt (by omega)]
    simp only [store_ram]
    rw [write_outside (by omega), write_outside (by omega)]
    exact hclear.2 j (by omega) (by omega)

end guarded

lemma Sys.Ok.mc_alloc (h : s.Ok H) (hpos : 0 < size) (reqs : Nat) (fails : Bool)
    (hsize : (if s.memcheck_on then size + 12 else size) + 16 ≤ 2 ^ 32) :
    ∃ s' addr K, s.mc_alloc size reqs fails = some (s', addr) ∧ s'.Ok (update H s.cur K) ∧
      s.Keeps s' ∧ Quiet (pools_of reqs) (H s.cur) s.here s'.here ∧
      Allots s s' H K size reqs addr := by
  have hcur := h.heaps s.cur
  unfold Sys.mc_alloc
  cases fails with
  | true =>
    refine ⟨s, 0, H s.cur, rfl, ?_, ⟨rfl, fun _ _ => rfl, rfl, rfl, rfl⟩,
      hcur.quiet_low rfl fun _ _ => rfl, .inl ⟨rfl, rfl⟩⟩
    rw [update_eq_self]
    exact h
  | false =>
    generalize hmc : s.memcheck_on = r at hsize
    cases r with
    | false =>
      simp only [Bool.false_eq_true, if_false] at hsize ⊢
      obtain ⟨w', addr, K, hret, hok, hquiet, htried⟩ := hcur.alloc_any s.heap_ptr hsize hpos
        (reqs.testBit MEMF_REVERSE) (pools_of reqs)
      rw [Sys.here, hret]
      have hsub : ∀ c ∈ (H s.cur).held, c ∈ K.held := by
        rcases htried with ⟨-, hheld⟩ | ⟨b, -, hheld, -⟩
        · exact fun c hc => hheld ▸ hc
        · exact fun c hc => hheld ▸ mem_cons_of_mem _ hc
      refine ⟨_, addr, K, rfl, h.grow hok hsub, ⟨rfl, fun _ => set_win_ne, rfl, rfl, rfl⟩,
        by rw [here_set_win]; exact hquiet, ?_⟩
      rcases htried with ⟨haddr, hheld⟩ | ⟨b, haddr, hheld, hplain, hp, hclear⟩
      · exact .inl ⟨haddr, hheld⟩
      have hroom := hclear.1
      refine .inr ⟨b, hheld, ⟨hmc.trans hplain.symm, ?_, ?_⟩, hp, fun _ j hj hj' => ?_⟩
      · rw [hplain]
        exact haddr
      · simp only [Blk.stop]
        omega
      · rw [here_set_win]
        exact hclear.2 j (by omega) (by omega)
    | true =>
      simp only [if_true] at hsize ⊢
      rw [u32_of_lt (n := size + 12) (by omega)]
      obtain ⟨w', addr, K, hret, hok, hquiet, htried⟩ := hcur.alloc_any s.heap_ptr hsize (by omega)
        (reqs.testBit MEMF_REVERSE) (pools_of reqs)
      rw [Sys.here, hret]
      rcases htried with ⟨rfl, hheld⟩ | ⟨b, rfl, hheld, hplain, ⟨p, hp, hbp⟩, hclear⟩
      · exact ⟨_, 0, K, rfl, h.grow hok fun _ hb => hheld ▸ hb,
          ⟨rfl, fun _ => set_win_ne, rfl, rfl, rfl⟩,
          by rw [here_set_win]; exact hquiet, .inl ⟨rfl, hheld⟩⟩
      have hclear' : Clear w' b (size + 20) := hclear
      have hroom := hclear'.1
      have hbb := hbp.bounds
      have h8 := hbp.pos8
      have hpay : u32 (b.pos + 8 + 11) / 8 * 8 = b.pos + 16 := by
        rw [u32_of_lt (by omega)]
        omega
      have hblk : b.pos + 8 - HEAP_HDR = b.pos := by
        unfold HEAP_HDR
        omega
      obtain ⟨htrack, howns, hzero⟩ := h.track hmc hok hheld hplain hclear' reqs
      simp only [if_neg (show b.pos + 8 ≠ 0 by omega), hpay, hblk]
      have hhere := here_set_win (s := s) (w := Sys.guard w' (b.pos + 16) size reqs)
      have hq := hok.quiet_guard hheld hp hbp hroom hquiet reqs
      rw [← hhere] at hq hzero
      exact ⟨_, b.pos + 16, _, rfl, htrack, ⟨rfl, fun _ => set_win_ne, rfl, rfl, rfl⟩, hq,
        .inr ⟨⟨b.pos, b.size, true⟩, rfl, howns,
          ⟨p, hp, hbp.low, hbp.high, hbp.pos8, hbp.size8, hbp.some⟩, hzero⟩⟩

lemma Sys.Ok.alloc_mem (h : s.Ok H) (hpos : 0 < size) (reqs : Nat) (fails : Bool)
    (hsize : (if s.memcheck_on then size + 12 else size) + 16 ≤ 2 ^ 32) :
    ∃ s' H', (s.mc_alloc size reqs fails).map
      (fun r => r.1.note r.2 size s.memcheck_on false) = some s' ∧ s'.Ok H' := by
  obtain ⟨s', addr, K, hret, hok, hkeeps, -, hallots⟩ := h.mc_alloc hpos reqs fails hsize
  rw [hret]
  rcases hallots with ⟨rfl, -⟩ | ⟨b, hheld, howns, -, -⟩
  · exact ⟨_, _, rfl, hok⟩
  · exact ⟨_, _, rfl, h.note hok hkeeps.cur hkeeps.live hheld howns⟩

/-! ### FreeMem -/

lemma Sys.Ok.forget (h : s.Ok H) (addr : Nat) : (s.forget addr).Ok H :=
  ⟨h.heaps, fun l hl => h.live l (mem_filter.mp hl).1, h.once.filter _, h.recs, h.recs_once⟩

/-- A block that is freed, with no guest and no record left to it. -/
lemma Sys.Ok.release {recs : List MemchkRec} (h : s.Ok H) (hw : HeapOk w K)
    (hheld : K.held = (H i).held.erase b)
    (hlive : ∀ l ∈ s.live, l.win = i → Owns l b → i = s.cur ∧ l.addr = addr)
    (hrecs : ∀ r ∈ recs, r.payload ≠ 0 → r ∈ s.recs ∧ (r.ram = i → ¬ Tracks r b))
    (honce : recs.Pairwise MemchkRec.Distinct) :
    (Sys.forget { s.set_win i w with recs := recs } addr).Ok (update H i K) := by
  have hkeep : ∀ c ∈ (H i).held, c ≠ b → c ∈ K.held := by
    intro c hc hne
    rw [hheld]
    exact (mem_erase_of_ne hne).mpr hc
  have hforget : (Sys.forget { s with recs := recs } addr).Ok H :=
    ⟨h.heaps, fun l hl => h.live l (mem_filter.mp hl).1, h.once.filter _,
      fun r hr hpay => h.recs r (hrecs r hr hpay).1 hpay, honce⟩
  refine hforget.set_win hw (fun l hl hj => ?_) fun r hr hpay hj => ?_
  · obtain ⟨hl, hkept⟩ := mem_filter.mp hl
    obtain ⟨c, hc, ho⟩ := h.live l hl
    rw [hj] at hc
    refine ⟨c, hkeep c hc ?_, ho⟩
    rintro rfl
    obtain ⟨hcur, haddr⟩ := hlive l hl hj ho
    simp [hj.trans hcur, haddr] at hkept
  · obtain ⟨hmem, hno⟩ := hrecs r hr hpay
    obtain ⟨c, hc, ht⟩ := h.recs r hmem hpay
    rw [hj] at hc
    refine ⟨c, hkeep c hc ?_, ht⟩
    rintro rfl
    exact hno hj ht

lemma set_win_here : s.set_win s.cur s.here = s := by
  unfold set_win Sys.here
  rw [update_eq_self]

/-- A free under the address that the guest has. A guarded block is not freed by it. -/
lemma Sys.Ok.free_plain (h : s.Ok H) (hl : l ∈ s.live) (hwin : l.win = s.cur)
    (haddr : l.addr = addr) (mc : Bool) :
    ∃ H', ((s.set_win s.cur (s.here.heap_free_fl mc addr)).forget addr).Ok H' := by
  obtain ⟨b, hb, ho⟩ := h.live l hl
  rw [hwin] at hb
  have hpos := ho.addr
  generalize hg : b.guarded = r at hpos
  cases r with
  | true =>
    have hsame : s.here.heap_free_fl mc addr = s.here := by
      rw [← haddr, hpos]
      exact (h.heaps s.cur).free_guarded hb hg mc
    rw [hsame, set_win_here]
    exact ⟨H, h.forget addr⟩
  | false =>
    have haddr' : addr = b.pos + 8 := haddr.symm.trans hpos
    obtain ⟨K, hok, hheld⟩ := (h.heaps s.cur).free hb mc
    rw [haddr']
    refine ⟨_, h.release hok hheld (fun m _ _ hm => ⟨rfl, ?_⟩) (fun r hr _ => ⟨hr, fun _ ht => ?_⟩)
      h.recs_once⟩
    · rw [hm.addr, hg]
      rfl
    · rw [ht.guarded] at hg
      cases hg

lemma Sys.Ok.free_mem (h : s.Ok H) (hl : l ∈ s.live) (hwin : l.win = s.cur) (haddr : l.addr = addr)
    (hfit : s.memcheck_on = true → ∀ r, s.mc_find addr = some r → r.ram = s.cur) :
    ∃ H', ((s.mc_free addr).forget addr).Ok H' := by
  unfold mc_free
  cases hmc : s.memcheck_on with
  | false => exact h.free_plain hl hwin haddr false
  | true =>
    cases hfind : s.mc_find addr with
    | none => exact h.free_plain hl hwin haddr true
    | some r =>
      have hram := hfit hmc r hfind
      obtain ⟨hr, hpay⟩ := mc_find_spec hfind
      obtain ⟨b, hb, ho⟩ := h.live l hl
      have hbpos := ho.addr
      have hne : r.payload ≠ 0 := by
        split at hbpos <;> omega
      obtain ⟨c, hc, ht⟩ := h.recs r hr hne
      have hcb := ((h.heaps r.ram).kept c hc).bounds
      have hblk : u32 (r.blk + HEAP_HDR) = c.pos + 8 := by
        unfold HEAP_HDR
        rw [ht.blk, u32_of_lt (by omega)]
      obtain ⟨K, hok, hheld⟩ := (h.heaps r.ram).free hc true
      simp only [hblk]
      refine ⟨_, h.release hok hheld (fun m _ _ hm => ⟨hram, ?_⟩) (fun q hq hqpay => ?_)
        (drop_rec_once h.recs_once)⟩
      · rw [hm.addr, ht.guarded, if_pos rfl, ← hpay, ht.payload]
      · obtain ⟨hmem, hother⟩ := mem_drop_rec h.recs_once hq hqpay
        exact ⟨hmem, fun hqr htq => hother ⟨htq.payload.trans ht.payload.symm, hqr⟩⟩

/-! ### The other calls -/

lemma Sys.Ok.alloc_abs (h : s.Ok H) (haddr : 8 ∣ addr) (hround : 8 ∣ (size + 3) / 4 * 4)
    (hlt : addr + size + 4 ≤ 2 ^ 32) :
    ∃ s' H', (s.alloc_abs addr size).map (fun r => r.1.note r.2 size false true) = some s' ∧
      s'.Ok H' := by
  obtain ⟨w', K, hok, hret⟩ := (h.heaps s.cur).alloc_abs s.heap_ptr haddr hround hlt
  unfold Sys.alloc_abs Sys.here
  rcases hret with ⟨hret, hheld⟩ | ⟨b, hret, -, hpos, hlarge, hheld, hplain⟩
  · rw [hret]
    exact ⟨_, _, rfl, h.grow hok fun _ hb => hheld ▸ hb⟩
  rw [hret]
  have hgrow : (s.set_win s.cur w').Ok (update H s.cur K) :=
    h.grow hok fun _ hb => hheld ▸ mem_cons_of_mem _ hb
  refine ⟨_, _, rfl, h.note hgrow rfl rfl hheld ⟨hplain.symm, ?_, ?_⟩⟩
  · rw [hplain]
    exact hpos.symm
  · unfold Blk.stop
    simp only
    omega

/-- A guest's store into a block that it has. -/
lemma Sys.Ok.poke (h : s.Ok H) (hl : l ∈ s.live) (hwin : l.win = s.cur) (hlow : l.addr ≤ addr)
    (hhigh : addr < l.addr + l.size) (v : UInt8) :
    (s.set_win s.cur { s.here with ram := put s.here.ram addr [v] }).Ok
      (update H s.cur (H s.cur)) := by
  obtain ⟨b, hb, ho⟩ := h.live l hl
  rw [hwin] at hb
  have haddr := ho.addr
  have hroom := ho.room
  refine h.grow ((h.heaps s.cur).write hb rfl fun j hj => put_outside ?_) fun c hc => hc
  by_contra hin
  have hj' : j = addr := by
    simp only [length_singleton] at hin
    omega
  refine hj ⟨?_, by omega⟩
  split <;> split at haddr <;> omega

lemma Sys.Ok.step (h : s.Ok H) (op : Op) (hok : s.op_ok op = true) :
    ∃ s', s.step op = some s' ∧ ∃ H', s'.Ok H' := by
  obtain ⟨hlegal, hfit⟩ := (Bool.and_eq_true _ _).mp hok
  cases op with
  | bind i => exact ⟨_, rfl, H, h.heaps, h.live, h.once, h.recs, h.recs_once⟩
  | bump ptr => exact ⟨_, rfl, H, h.heaps, h.live, h.once, h.recs, h.recs_once⟩
  | memcheck on => exact ⟨_, rfl, H, h.heaps, h.live, h.once, h.recs, h.recs_once⟩
  | alloc_mem size reqs fails =>
    simp only [Sys.step, Sys.dos_AllocMem_glue]
    by_cases hsize : size.toNat = 0
    · rw [if_pos hsize]
      exact ⟨s, rfl, H, h⟩
    rw [if_neg hsize]
    obtain ⟨s', H', hstep, h'⟩ := h.alloc_mem (Nat.pos_of_ne_zero hsize) reqs.toNat fails
      (of_decide_eq_true hfit)
    exact ⟨s', hstep, H', h'⟩
  | alloc_abs addr size =>
    simp only [fit, Bool.and_eq_true, beq_iff_eq, decide_eq_true_eq] at hfit
    obtain ⟨s', H', hstep, h'⟩ := h.alloc_abs (Nat.dvd_of_mod_eq_zero hfit.1.1)
      (Nat.dvd_of_mod_eq_zero hfit.1.2) hfit.2
    exact ⟨s', hstep, H', h'⟩
  | free_mem addr =>
    simp only [legal, List.any_eq_true, Bool.and_eq_true, beq_iff_eq] at hlegal
    obtain ⟨l, hl, hwin, haddr⟩ := hlegal
    obtain ⟨H', h'⟩ := h.free_mem hl hwin haddr fun hmc r hr => by
      simp only [fit, hmc, hr, Bool.not_true, Bool.false_or, Option.all_some, beq_iff_eq] at hfit
      exact hfit
    exact ⟨_, rfl, H', h'⟩
  | poke addr v =>
    simp only [legal, List.any_eq_true, Bool.and_eq_true, beq_iff_eq, decide_eq_true_eq] at hlegal
    obtain ⟨l, hl, ⟨hwin, hlow⟩, hhigh⟩ := hlegal
    exact ⟨_, rfl, _, h.poke hl hwin hlow hhigh v⟩

/-- A window has no blocks when its task starts. -/
lemma Sys.Ok.boot (rams : Fin MAX_M68K_TASKS → Buf) (ptr : HeapPtr) :
    (boot rams ptr).Ok fun _ => ⟨fun _ => [], []⟩ := by
  refine ⟨fun i => ⟨fun p => ?_, fun p x hx => ?_, fun p x hx => ?_, fun b hb => ?_,
    List.Pairwise.nil, fun p _ => ⟨rfl, fun b hb => ?_⟩⟩, fun l hl => ?_, List.Pairwise.nil,
    fun r hr hpay => ?_, ?_⟩
  · have hslot := slot_lt p
    exact read_zero fun j hj hj4 => if_pos ⟨by omega, by omega⟩
  · cases hx
  · cases hx
  · cases hb
  · cases hb
  · cases hl
  · rw [eq_of_mem_replicate hr] at hpay
    exact absurd rfl hpay
  · exact pairwise_replicate.mpr (.inr fun hpay => absurd rfl hpay)

end steps

/-! ## Every run -/

/-- In every run of guests that free and write only what they have, with sizes that do not wrap,
AllocAbs in units of eight bytes and frees in their own window, the calls return and the blocks
are aligned, large enough and apart. -/
theorem blocks_are_apart_in_every_run (rams : Fin MAX_M68K_TASKS → Buf) (ptr : HeapPtr)
    (ops : List Op) (hok : RunOk Sys.step (fun s op => s.op_ok op = true) (boot rams ptr) ops) :
    ∃ s, run Sys.step (boot rams ptr) ops = some s ∧ s.Sound := by
  have hstep : ∀ s op, (∃ H, Sys.Ok s H) → s.op_ok op = true →
      ∃ t, s.step op = some t ∧ ∃ H, t.Ok H := fun s op ⟨_, h⟩ hop => h.step op hop
  obtain ⟨s, hrun, H, hs⟩ := run_invariant hstep ⟨_, Sys.Ok.boot rams ptr⟩ hok
  exact ⟨s, hrun, hs.sound⟩

/-- Two guests, with and without memcheck. -/
theorem two_guests_get_their_blocks : ∃ s, run Sys.step (boot (fun _ _ => 0xFF) 0x30000)
      [.alloc_mem 100 0 false, .alloc_mem 8 0x40002 false, .poke 0x800008 7, .alloc_abs 0x900000 16,
        .memcheck true, .bind ⟨1, by decide⟩, .alloc_mem 20 0x10000 false, .free_mem 0x800010,
        .bind ⟨0, by decide⟩, .free_mem 0x800008, .free_mem 0x900000, .alloc_mem 5000 4 false] =
          some s ∧ s.Sound :=
  blocks_are_apart_in_every_run _ _ _ (by decide +kernel)

/-- A guest's block that is not aligned, or too small, or on the free list of its window. -/
def Sys.broken (s : Sys) : Bool :=
  s.live.any fun l => !l.absolute && l.addr % 8 != 0 ||
    decide (l.blk + l.span s < l.addr + l.size) ||
    [Pool.chip, Pool.fast].any fun p =>
      (s.wins l.win).head_read p != 0 && decide (u32 ((s.wins l.win).head_read p * 4) = l.blk) &&
        l.span s != 0

lemma Sys.Sound.not_broken {s : Sys} (h : s.Sound) : s.broken = false := by
  rw [← Bool.not_eq_true]
  intro hb
  obtain ⟨l, hl, hb⟩ := List.any_eq_true.mp hb
  simp only [Bool.or_eq_true, Bool.and_eq_true, Bool.not_eq_true', bne_iff_ne, decide_eq_true_eq,
    List.any_eq_true] at hb
  rcases hb with (⟨habs, halign⟩ | hlarge) | ⟨p, -, ⟨hhead, hpos⟩, hspan⟩
  · exact halign (h.aligned l hl habs)
  · have := h.large l hl
    omega
  · have hon := h.unlisted l hl p _ _ (.here hhead)
    rw [hpos, ← Live.span] at hon
    omega

/-- AllocAbs of four bytes leaves a free block that is not aligned; a size that wraps gets a block
of no bytes; and memcheck frees the block of another guest that has the same address. -/
theorem blocks_are_lost_and_misplaced : (∃ s, run Sys.step (boot (fun _ _ => 0) 0x30000)
      [.alloc_abs 0x800008 4, .alloc_mem 8 4 false] = some s ∧ ¬ s.Sound) ∧
    (∃ s, run Sys.step (boot (fun _ _ => 0) 0x30000) [.alloc_mem 0xFFFFFFF9 4 false] = some s ∧
      ¬ s.Sound) ∧ RunOk Sys.step (fun s op => s.legal op = true) (boot (fun _ _ => 0) 0x30000)
      [.alloc_abs 0x800010 8, .memcheck true, .bind ⟨1, by decide⟩, .alloc_mem 8 4 false,
        .bind ⟨0, by decide⟩, .free_mem 0x800010] ∧
    ∃ s, run Sys.step (boot (fun _ _ => 0) 0x30000)
      [.alloc_abs 0x800010 8, .memcheck true, .bind ⟨1, by decide⟩, .alloc_mem 8 4 false,
        .bind ⟨0, by decide⟩, .free_mem 0x800010] = some s ∧ ¬ s.Sound := by
  have hbad : ∀ {is : List Op}, (∃ s, run Sys.step (boot (fun _ _ => 0) 0x30000) is = some s ∧
      s.broken = true) → ∃ s, run Sys.step (boot (fun _ _ => 0) 0x30000) is = some s ∧
      ¬ s.Sound := by
    rintro is ⟨s, hrun, hb⟩
    exact ⟨s, hrun, fun hs => absurd hs.not_broken (by simp [hb])⟩
  refine ⟨hbad (run_ends (by decide +kernel)), hbad (run_ends (by decide +kernel)),
    by decide +kernel, hbad (run_ends (by decide +kernel))⟩

end uaos.guest
