-- The operations of a guest's heap, one spec for each: AllocMem and AllocAbs cut a free block,
-- FreeMem puts a block back at the front of its list, and the rest writes into blocks that are
-- handed out.
import Uaos.GuestBlocks

namespace uaos.guest

open List Function

open chain Blk Window

variable {c : Blk} {parts : List Blk} {a bptr n : Nat} {v : Window}

variable {w w' : Window} {H : Heap} {p q : Pool} {x z b : Blk} {pre post xs : List Blk}
  {size need addr : Nat} {rev : Bool}

/-! ## The walk along a list -/

/-- A list is no longer than the walk. -/
lemma HeapOk.short (h : HeapOk w H) (p : Pool) : (H.free p).length < walk_limit := by
  have hapart : (H.free p).Pairwise Apart :=
    (pairwise_append.mp ((apart_perm (blocks_perm H p)).mp h.apart)).1
  have hnodup : ((H.free p).map fun x => x.pos / 8).Nodup := by
    refine pairwise_map.mpr (hapart.imp_of_mem fun {x y} hx hy hxy => ?_)
    have hxb := (h.placed p x hx).bounds
    have hyb := (h.placed p y hy).bounds
    unfold Apart stop at hxy
    omega
  have hsub : ((H.free p).map fun x => x.pos / 8) ⊆ List.range 0x1FE000 := by
    intro k hk
    obtain ⟨x, hx, rfl⟩ := List.mem_map.mp hk
    have hxb := (h.placed p x hx).bounds
    exact mem_range.mpr (by omega)
  have hlen := (subperm_of_subset hnodup hsub).length_le
  rw [length_map, length_range] at hlen
  unfold walk_limit GUEST_RAM_SIZE
  omega

/-- The block `x` as the walk finds it, behind the blocks `pre`. -/
abbrev fit_at (ram : Buf) (prev : Nat) (pre : List Blk) (x : Blk) : Fit :=
  ⟨prev_of prev pre, x.ptr, x.pos, x.size, link ram x⟩

/-- The walk finds the first block that fits, with the link to it. -/
lemma first_fit_spec {ram : Buf} (fits : Nat → Nat → Bool) (fuel prev : Nat) {a : Nat}
    (hlist : Path ptr (link ram) a xs 0) (hsized : ∀ x ∈ xs, guest_read_be32 ram x.pos = x.size)
    (hin : ∀ x ∈ xs, x.In p) (hfuel : xs.length < fuel) :
    first_fit ram fits fuel prev a = some none ∨
      ∃ pre x post, xs = pre ++ x :: post ∧ fits x.pos x.size = true ∧
        first_fit ram fits fuel prev a = some (some (fit_at ram prev pre x)) := by
  induction xs generalizing fuel prev a with
  | nil =>
    obtain ⟨fuel, rfl⟩ := Nat.exists_eq_add_of_lt hfuel
    obtain rfl : a = 0 := hlist
    exact .inl (if_pos rfl)
  | cons x xs ih =>
    cases fuel with
    | zero => cases hfuel
    | succ fuel =>
      obtain ⟨rfl, hnext⟩ := hlist
      have hx := hin x mem_cons_self
      have hxb := hx.bounds
      have hptr : x.ptr ≠ 0 := by
        unfold ptr
        omega
      have hsz : guest_read_be32 ram x.pos % HEAP_MAGIC = x.size := by
        rw [hsized x mem_cons_self]
        exact Nat.mod_eq_of_lt (by unfold HEAP_MAGIC; omega)
      have hlink : u32 (x.pos + 4) = x.pos + 4 := u32_of_lt (by omega)
      simp only [first_fit, if_neg hptr, hx.cur, hsz, hlink]
      by_cases hfit : fits x.pos x.size = true
      · rw [if_pos hfit]
        exact .inr ⟨[], x, xs, rfl, hfit, rfl⟩
      rw [if_neg hfit]
      rcases ih fuel (x.pos + 4) hnext
        (forall_mem_cons.mp hsized).2
        (forall_mem_cons.mp hin).2 (Nat.lt_of_succ_lt_succ hfuel) with
        hnone | ⟨pre, y, post, rfl, hyfit, hsome⟩
      · exact .inl hnone
      · exact .inr ⟨x :: pre, y, post, rfl, hyfit, hsome⟩

/-! ## AllocMem -/

/-- A request that does not wrap gets its size in units of eight bytes, and a header. -/
lemma need_spec (h : size + 16 ≤ 2 ^ 32) : need_of size = (size + 7) / 8 * 8 + 8 := by
  unfold need_of HEAP_HDR
  rw [u32_of_lt (n := size + 7) (by omega), u32_of_lt (by omega)]

lemma mark_lt (n : Nat) : mark n < 2 ^ 32 := by
  unfold mark HEAP_MAGIC
  omega

/-- Only free blocks of the pools `ps` and the words below the pools change. -/
structure Quiet (ps : List Pool) (H : Heap) (w w' : Window) : Prop where
  outside : ∀ j, 0x20 ≤ j → (∀ p ∈ ps, j < p.start ∨ p.stop ≤ j) → w'.ram j = w.ram j
  held : ∀ c ∈ H.held, ∀ j, c.pos ≤ j → j < c.stop → w'.ram j = w.ram j
  heads : ∀ q, q ∉ ps → w'.heads q = w.heads q

/-- A call that hands out the block `b` of the pool `p`. -/
structure Given (p : Pool) (w w' : Window) (H H' : Heap) (b : Blk) : Prop where
  ok : HeapOk w' H'
  held : H'.held = b :: H.held
  plain : b.guarded = false
  placed : b.In p
  quiet : Quiet [p] H w w'

/-- The first `need` bytes of a block are cleared, but for its header. -/
def Clear (w : Window) (b : Blk) (need : Nat) : Prop :=
  need ≤ b.size ∧ ∀ j, b.pos + 8 ≤ j → j < b.pos + need → w.ram j = 0

/-- A call that hands out a block of the pool `p`, with its first `need` bytes cleared. -/
abbrev HandsOut (p : Pool) (w : Window) (H : Heap) (need : Nat) (r : Window × Nat) : Prop :=
  ∃ H' b, r.2 = b.pos + 8 ∧ Given p w r.1 H H' b ∧ Clear r.1 b need

/-- A piece of a block, in units of eight bytes. -/
lemma Blk.In.piece (hx : x.In p) {g : Bool} (hlow : x.pos ≤ a)
    (hhigh : a + n ≤ x.pos + x.size) (ha : 8 ∣ a) (hn : 8 ∣ n) (hsome : 8 ≤ n) :
    (⟨a, n, g⟩ : Blk).In p := ⟨hx.low.trans hlow, hhigh.trans hx.high, ha, hn, hsome⟩

lemma Cut.nil : Cut x p [] := by
  refine ⟨fun c hc => ?_, fun c hc => ?_, List.Pairwise.nil⟩
  · cases hc
  · cases hc

lemma Cut.cons {cs : List Blk} (hcs : Cut x p cs) (hc : c.In p)
    (hcx : x.pos ≤ c.pos ∧ c.stop ≤ x.stop) (happ : ∀ d ∈ cs, Apart c d) : Cut x p (c :: cs) := by
  refine ⟨fun d hd => ?_, fun d hd => ?_, pairwise_cons.mpr ⟨happ, hcs.apart⟩⟩
  · rcases mem_cons.mp hd with rfl | hd
    · exact hcx
    · exact hcs.sub d hd
  · rcases mem_cons.mp hd with rfl | hd
    · exact hc
    · exact hcs.placed d hd

lemma cut_two {d : Blk} (hc : c.In p) (hd : d.In p) (happ : Apart c d)
    (hcx : x.pos ≤ c.pos ∧ c.stop ≤ x.stop) (hdx : x.pos ≤ d.pos ∧ d.stop ≤ x.stop) :
    Cut x p [c, d] := (Cut.nil.cons hd hdx (by simp)).cons hc hcx (by simpa using happ)

lemma cut_one (hx : x.In p) : Cut x p [⟨x.pos, x.size, false⟩] :=
  Cut.nil.cons (hx.piece (le_refl _) (le_refl _) hx.pos8 hx.size8 hx.some) ⟨le_refl _, le_refl _⟩
    (by simp)

/-- The two words of a header, written into a piece of `x`. -/
lemma node_spec {m : Nat} (hc : c.In p) (hcx : x.pos ≤ c.pos ∧ c.stop ≤ x.stop)
    (hin : Inside x w w') (hm : m < 2 ^ 32) (hn : n < 2 ^ 32)
    (hv : v = (w'.store c.pos m).store (c.pos + 4) n) :
    Inside x w v ∧ guest_read_be32 v.ram c.pos = m ∧ link v.ram c = n ∧
      ∀ d, Apart c d → 8 ≤ d.size → guest_read_be32 v.ram d.pos = guest_read_be32 w'.ram d.pos ∧
        link v.ram d = link w'.ram d := by
  subst hv
  have hcb := hc.bounds
  unfold stop at hcx
  refine ⟨?_, ?_, ?_, fun d hcd hd => ?_⟩
  · apply Inside.store
    · apply hin.store
      · exact hcx.1
      · omega
    · omega
    · omega
  · simp only [store_ram]
    rw [read_write_apart (by omega)]
    exact read_write_same (by unfold GUEST_RAM_SIZE; omega) hm
  · rw [link, store_ram]
    exact read_write_same (by unfold GUEST_RAM_SIZE; omega) hn
  · unfold Apart stop at hcd
    simp only [link, store_ram]
    rw [read_write_apart (by omega), read_write_apart (by omega), read_write_apart (by omega),
      read_write_apart (by omega)]
    exact ⟨rfl, rfl⟩

/-- The header and the cleared bytes of a block that is handed out. -/
lemma kept_of_fill (hb : b.In p) (hroom : 16 ≤ b.size) (hn : n ≤ b.size)
    (hplain : b.guarded = false) :
    (Inside b v ((v.store b.pos (mark b.size)).fill_with (b.pos + 8) (n - 8) 0) ∧
      Kept ((v.store b.pos (mark b.size)).fill_with (b.pos + 8) (n - 8) 0).ram b) ∧
      Clear ((v.store b.pos (mark b.size)).fill_with (b.pos + 8) (n - 8) 0) b n := by
  have hbb := hb.bounds
  refine ⟨⟨?_, ⟨p, hb⟩, hroom, ?_, fun hg => ?_⟩, hn, fun j hj hj' => ?_⟩
  · apply Inside.fill
    · apply (Inside.refl b v).store
      · exact le_refl _
      · omega
    · omega
    · omega
  · simp only [store_ram, fill_ram]
    rw [read_fill_apart (by omega)]
    exact read_write_same (by unfold GUEST_RAM_SIZE; omega) (mark_lt _)
  · rw [hplain] at hg
    cases hg
  · simp only [fill_ram]
    exact fill_inside hj (by omega) (by unfold GUEST_RAM_SIZE; omega)

section alloc

variable (h : HeapOk w H) (hfree : H.free p = pre ++ x :: post)
include h hfree

lemma HeapOk.beside : (∀ z ∈ pre, Apart x z) ∧ pre.Pairwise Apart := by
  obtain ⟨hx, hrest⟩ := pairwise_cons.mp (h.apart_free hfree)
  exact ⟨fun z hz => hx z (mem_append_left _ hz), (pairwise_append.mp hrest).1⟩

/-- A new link to a block changes nothing in the block. -/
lemma HeapOk.read_set_link (hlow : x.pos ≤ a) (hhigh : a + 4 ≤ x.pos + x.size) :
    guest_read_be32 (v.set_link p (prev_of p.slot pre) bptr).ram a = guest_read_be32 v.ram a := by
  have hxb := (h.in_free hfree).bounds
  refine read_congr fun j hj hj4 => set_link_outside (fun z hz => ?_) (by omega) fun z hz => ?_
  · have := (h.in_pre hfree z hz).bounds
    omega
  have hapart := (h.beside hfree).1 z hz
  have hz8 := (h.in_pre hfree z hz).some
  unfold Apart stop at hapart
  omega

/-- What a cut does not touch. -/
lemma HeapOk.quiet (hs : Spliced p pre x bptr w w') : Quiet [p] H w w' := by
  refine ⟨fun j hj hout => ?_, fun c hc j hj hj' => ?_, fun q hq => hs.heads q ?_⟩
  · have hp := hout p (mem_singleton_self p)
    have hxin := h.in_free hfree
    have hlow := hxin.low
    have hhigh := hxin.high
    refine hs.ram j hj (by omega) fun z hz => ?_
    have hzin := h.in_pre hfree z hz
    have hzlow := hzin.low
    have hzhigh := hzin.high
    have hz8 := hzin.some
    unfold stop at hzhigh
    omega
  · obtain ⟨q, hq⟩ := (h.kept c hc).placed
    exact h.spliced_bytes hfree hs (mem_append_right _ (mem_append_right _ hc)) hq hj hj'
  · simpa using hq

lemma HeapOk.given (hcut : Cut x p (b :: parts))
    (hs : Spliced p pre x bptr w w') (hparts : Path ptr (link w'.ram) bptr parts (link w.ram x))
    (hsized : ∀ c ∈ parts, guest_read_be32 w'.ram c.pos = c.size) (hkept : Kept w'.ram b)
    (hplain : b.guarded = false) : Given p w w' H (H.carve p (pre ++ (parts ++ post)) b) b :=
  ⟨h.carve hfree hcut hs hparts hsized hkept, rfl, hplain, hcut.placed b mem_cons_self,
    h.quiet hfree hs⟩

lemma carve_top_spec (h8 : 8 ∣ need) (hlow : 16 ≤ need) (hroom : need + 16 ≤ x.size) :
    HandsOut p w H need (w.carve_top (fit_at w.ram p.slot pre x) need) := by
  have hx := h.in_free hfree
  have hxb := hx.bounds
  have hx8 := hx.pos8
  have hs8 := hx.size8
  have hbase : u32 (x.pos + (x.size - need)) = x.pos + (x.size - need) := u32_of_lt (by omega)
  have hpay : u32 (x.pos + (x.size - need) + 8) = x.pos + (x.size - need) + 8 :=
    u32_of_lt (by omega)
  simp only [carve_top, HEAP_HDR, hbase, hpay]
  have hin : Inside x w (((w.store x.pos (x.size - need)).store (x.pos + (x.size - need))
      (mark need)).fill_with (x.pos + (x.size - need) + 8) (need - 8) 0) := by
    apply Inside.fill
    · apply Inside.store
      · apply (Inside.refl x w).store
        · omega
        · omega
      · omega
      · omega
    · omega
    · omega
  have hcut : Cut x p [⟨x.pos + (x.size - need), need, false⟩, ⟨x.pos, x.size - need, false⟩] :=
    cut_two (hx.piece (by omega) (by omega) (by omega) h8 (by omega))
      (hx.piece (by omega) (by omega) hx8 (by omega) (by omega)) (.inr (by simp [stop]))
      ⟨by simp, by simp [stop]; omega⟩ ⟨by simp, by simp [stop]⟩
  obtain ⟨⟨-, hkept⟩, hclear⟩ := kept_of_fill (v := w.store x.pos (x.size - need))
    (hcut.placed _ mem_cons_self) hlow (le_refl need) rfl
  refine ⟨_, ⟨x.pos + (x.size - need), need, false⟩, rfl,
    h.given hfree hcut (h.inside_spliced hfree hin) ?_ ?_ hkept rfl, hclear⟩
  · refine ⟨rfl, ?_⟩
    simp only [path_nil, link, store_ram, fill_ram]
    rw [read_fill_apart (by omega), read_write_apart (by omega), read_write_apart (by omega)]
  intro c hc
  rw [mem_singleton.mp hc]
  simp only [store_ram, fill_ram]
  rw [read_fill_apart (by omega), read_write_apart (by omega)]
  exact read_write_same (by unfold GUEST_RAM_SIZE; omega) (by omega)

/-- A free block whose pieces are written, then linked in its place, and then the piece that is
handed out is written. -/
lemma HeapOk.cut {w1 : Window} (hin : Inside x w w1)
    (hptr : bptr < 2 ^ 32) (hcut : Cut x p (b :: parts))
    (hpath : Path ptr (link w1.ram) bptr parts (link w.ram x))
    (hsized : ∀ c ∈ parts, guest_read_be32 w1.ram c.pos = c.size)
    (hfin : Inside b (w1.set_link p (prev_of p.slot pre) bptr) w' ∧ Kept w'.ram b)
    (hplain : b.guarded = false) : Given p w w' H (H.carve p (pre ++ (parts ++ post)) b) b := by
  obtain ⟨hbeside, hpre⟩ := h.beside hfree
  have hset := (h.inside_spliced hfree hin).set_link (h.in_pre hfree) hpre bptr hptr
  have hbx := hcut.sub b mem_cons_self
  have hfinx : Inside x (w1.set_link p (prev_of p.slot pre) bptr) w' :=
    ⟨hfin.1.heads, fun j hj => hfin.1.ram j (by omega)⟩
  have hword : ∀ c ∈ parts, ∀ k, k + 4 ≤ c.size →
      guest_read_be32 w'.ram (c.pos + k) = guest_read_be32 w1.ram (c.pos + k) := by
    intro c hc k hk
    have hbc := (pairwise_cons.mp hcut.apart).1 c hc
    obtain ⟨hcl, hch⟩ := hcut.sub c (mem_cons_of_mem _ hc)
    unfold Apart at hbc
    unfold stop at hbc hch
    rw [hfin.1.read (by unfold stop; omega), h.read_set_link hfree (by omega) (by omega)]
  have hlarge : ∀ c ∈ parts, 8 ≤ c.size := fun c hc =>
    (hcut.placed c (mem_cons_of_mem _ hc)).some
  refine h.given hfree hcut (hset.inside hfinx (h.in_free hfree) (h.in_pre hfree) hbeside)
    (hpath.congr fun c hc => ?_) (fun c hc => ?_) hfin.2 hplain
  · have := hlarge c hc
    exact hword c hc 4 (by omega)
  · have := hlarge c hc
    rw [← hsized c hc]
    exact hword c hc 0 (by omega)

lemma carve_bottom_spec (h8 : 8 ∣ need) (hlow : 16 ≤ need) (hroom : need + 16 ≤ x.size) :
    HandsOut p w H need (w.carve_bottom p (fit_at w.ram p.slot pre x) need) := by
  have hx := h.in_free hfree
  have hxb := hx.bounds
  have hx8 := hx.pos8
  have hs8 := hx.size8
  have hrem : u32 (x.pos + need) = x.pos + need := u32_of_lt (by omega)
  have hrem4 : u32 (x.pos + need + 4) = x.pos + need + 4 := u32_of_lt (by omega)
  have hpay : u32 (x.pos + 8) = x.pos + 8 := u32_of_lt (by omega)
  have hptr : (x.pos + need) / 4 < 2 ^ 32 := by omega
  simp only [carve_bottom, HEAP_HDR, hrem, hrem4, hpay]
  have hrest : (⟨x.pos + need, x.size - need, false⟩ : Blk).In p :=
    hx.piece (by omega) (by omega) (by omega) (by omega) (by omega)
  have hrestx : x.pos ≤ x.pos + need ∧ (⟨x.pos + need, x.size - need, false⟩ : Blk).stop ≤ x.stop :=
    ⟨by omega, by simp only [stop]; omega⟩
  have hcut : Cut x p [⟨x.pos, need, false⟩, ⟨x.pos + need, x.size - need, false⟩] :=
    cut_two (hx.piece (by omega) (by omega) hx8 h8 (by omega)) hrest (.inl (by simp [stop]))
      ⟨by simp, by simp [stop]; omega⟩ hrestx
  obtain ⟨hin, hsize, hlink, -⟩ := node_spec (m := x.size - need) hrest hrestx (Inside.refl x w)
    (by omega) (read_lt w.ram (x.pos + 4)) rfl
  have hfill {v : Window} := kept_of_fill (v := v) (hcut.placed _ mem_cons_self) hlow
    (le_refl need) rfl
  exact ⟨_, ⟨x.pos, need, false⟩, rfl, h.cut hfree hin hptr hcut ⟨rfl, hlink⟩
    (fun c hc => by rw [mem_singleton.mp hc]; exact hsize) hfill.1 rfl, hfill.2⟩

lemma take_whole_spec (hlow : 16 ≤ need) (hroom : need ≤ x.size) :
    HandsOut p w H need (w.take_whole p (fit_at w.ram p.slot pre x) need) := by
  have hx := h.in_free hfree
  have hxb := hx.bounds
  have hpay : u32 (x.pos + 8) = x.pos + 8 := u32_of_lt (by omega)
  simp only [take_whole, HEAP_HDR, hpay]
  have hfill {v : Window} := kept_of_fill (v := v) ((cut_one hx).placed _ mem_cons_self)
    (hlow.trans hroom) hroom rfl
  exact ⟨_, ⟨x.pos, x.size, false⟩, rfl, h.cut hfree (Inside.refl x w) (read_lt _ _)
    (cut_one hx) rfl
    (fun c hc => by cases hc) hfill.1 rfl, hfill.2⟩

end alloc

/-- A request that does not wrap gives nothing and changes nothing, or gives a block. -/
lemma HeapOk.alloc_pool (h : HeapOk w H) (hsize : size + 16 ≤ 2 ^ 32) (hpos : 0 < size) (p : Pool)
    (rev : Bool) : w.heap_alloc_fl_pool size p rev = some (w, 0) ∨
      ∃ w' H' b, w.heap_alloc_fl_pool size p rev = some (w', b.pos + 8) ∧ Given p w w' H H' b ∧
        Clear w' b (size + 8) := by
  have hneed := need_spec hsize
  simp only [heap_alloc_fl_pool]
  generalize need_of size = need at hneed ⊢
  have h8 : 8 ∣ need := by omega
  have hclear : ∀ {v : Window} {b : Blk}, Clear v b need → Clear v b (size + 8) := fun hc =>
    ⟨(by omega : size + 8 ≤ need).trans hc.1, fun j hj hj' => hc.2 j hj (by omega)⟩
  rcases first_fit_spec (fun _ n => decide (need ≤ n)) walk_limit p.slot (h.listed p) (h.sized p)
    (h.placed p) (h.short p) with hnone | ⟨pre, x, post, hfree, hfit, hsome⟩
  · rw [hnone]
    exact .inl rfl
  rw [hsome]
  refine .inr ?_
  have hfit : need ≤ x.size := of_decide_eq_true hfit
  have hxb := (h.in_free hfree).bounds
  have hsum : u32 (need + HEAP_HDR + 8) = need + 16 := by
    unfold HEAP_HDR
    rw [u32_of_lt (by omega)]
  simp only [hsum]
  by_cases hroom : need + 16 ≤ x.size
  · rw [if_pos hroom]
    cases rev with
    | true =>
      obtain ⟨H', b, hret, hg, hc⟩ := carve_top_spec h hfree h8 (by omega) hroom
      exact ⟨_, H', b, by rw [if_pos rfl, ← hret], hg, hclear hc⟩
    | false =>
      obtain ⟨H', b, hret, hg, hc⟩ := carve_bottom_spec h hfree h8 (by omega) hroom
      exact ⟨_, H', b, by rw [if_neg Bool.false_ne_true, ← hret], hg, hclear hc⟩
  · rw [if_neg hroom]
    obtain ⟨H', b, hret, hg, hc⟩ := take_whole_spec h hfree (by omega) hfit
    exact ⟨_, H', b, by rw [← hret], hg, hclear hc⟩

/-! ## Blocks that go on a list -/

/-- A window with the same heads in which every block has its words. -/
lemma HeapOk.frame (h : HeapOk w H) (hheads : w'.heads = w.heads)
    (hread : ∀ q, w'.head_read q = w.head_read q)
    (hfree : ∀ q, ∀ x ∈ H.free q, ∀ j, x.pos ≤ j → j < x.stop → w'.ram j = w.ram j)
    (hkept : ∀ b ∈ H.held, Kept w'.ram b) : HeapOk w' H := by
  unfold stop at hfree
  refine ⟨fun q => ?_, fun q x hx => ?_, h.placed, hkept, h.apart, fun q hq => ?_⟩
  · rw [hread q]
    refine (h.listed q).congr fun x hx => read_congr fun j hj hj4 => ?_
    have := (h.placed q x hx).some
    exact hfree q x hx j (by omega) (by omega)
  · rw [← h.sized q x hx]
    refine read_congr fun j hj hj4 => ?_
    have := (h.placed q x hx).some
    exact hfree q x hx j hj (by omega)
  · rw [hheads] at hq
    exact h.fresh q hq

/-- The words below the pools are no part of a block. -/
lemma HeapOk.low (h : HeapOk w H) (hheads : w'.heads = w.heads)
    (hread : ∀ q, w'.head_read q = w.head_read q) (hram : ∀ j, 0x20 ≤ j → w'.ram j = w.ram j) :
    HeapOk w' H := by
  refine h.frame hheads hread (fun q x hx j hj _ => ?_) fun b hb => ?_
  · have hxb := (h.placed q x hx).bounds
    exact hram j (by omega)
  · have hbb := (h.kept b hb).bounds
    exact (h.kept b hb).congr fun j hj hj' => hram j (by omega)

/-- The heap without some of the blocks that are handed out. -/
lemma HeapOk.drop (h : HeapOk w H) {held : List Blk} (hsub : held.Sublist H.held) :
    HeapOk w ⟨H.free, held⟩ := by
  refine ⟨h.listed, h.sized, h.placed, fun b hb => h.kept b (hsub.subset hb), ?_, fun q hq => ?_⟩
  · exact h.apart.sublist ((List.Sublist.refl _).append ((List.Sublist.refl _).append hsub))
  · exact ⟨(h.fresh q hq).1, fun b hb => (h.fresh q hq).2 b (hsub.subset hb)⟩

/-- The heap with a block at the front of a list. -/
def Heap.push (H : Heap) (p : Pool) (x : Blk) : Heap :=
  ⟨Function.update H.free p (x :: H.free p), H.held⟩

/-- `w'` is `w` with the block `x` at the front of a list. -/
structure Pushed (p : Pool) (x : Blk) (w w' : Window) : Prop where
  ram : ∀ j, 0x20 ≤ j → j < x.pos ∨ x.stop ≤ j → w'.ram j = w.ram j
  heads : ∀ q, q ≠ p → w'.heads q = w.heads q
  others : ∀ q, q ≠ p → w'.head_read q = w.head_read q
  head : w'.heads p = some x.ptr
  sized : guest_read_be32 w'.ram x.pos = x.size
  next : link w'.ram x = w.head_read p

lemma push_perm (H : Heap) (p : Pool) (x : Blk) : (H.push p x).blocks.Perm (x :: H.blocks) := by
  have hne : p.other ≠ p := by cases p <;> decide
  refine (blocks_perm _ p).trans ?_
  simp only [Heap.push, update_self, update_of_ne hne, cons_append]
  exact (blocks_perm H p).symm.cons x

lemma mem_push (hz : z ∈ (H.push p x).free q) : q = p ∧ z = x ∨ z ∈ H.free q := by
  by_cases hqp : q = p
  · subst hqp
    simp only [Heap.push, update_self, mem_cons] at hz
    exact hz.imp_left fun hz => ⟨rfl, hz⟩
  · simp only [Heap.push, update_of_ne hqp] at hz
    exact .inr hz

lemma HeapOk.push (h : HeapOk w H) (hx : x.In p) (happ : ∀ z ∈ H.blocks, Apart x z)
    (hp : Pushed p x w w') : HeapOk w' (H.push p x) := by
  have hbytes : ∀ z ∈ H.blocks, 0x20 ≤ z.pos → ∀ j, z.pos ≤ j → j < z.stop →
      w'.ram j = w.ram j := by
    intro z hz h20 j hj hj'
    have hxz := happ z hz
    unfold Apart at hxz
    exact hp.ram j (by omega) (by omega)
  have hwords : ∀ q, ∀ z ∈ H.free q, guest_read_be32 w'.ram z.pos = guest_read_be32 w.ram z.pos ∧
      link w'.ram z = link w.ram z := by
    intro q z hz
    have hzb := (h.placed q z hz).bounds
    have hb := hbytes z (mem_blocks.mpr (.inl ⟨q, hz⟩)) (by omega)
    unfold stop at hb
    exact ⟨read_congr fun j hj hj4 => hb j (by omega) (by omega),
      read_congr fun j hj hj4 => hb j (by omega) (by omega)⟩
  refine ⟨fun q => ?_, fun q z hz => ?_, fun q z hz => ?_, fun b hb => ?_, ?_, fun q hq => ?_⟩
  · by_cases hqp : q = p
    · subst hqp
      simp only [Heap.push, update_self]
      refine ⟨head_read_some hp.head, ?_⟩
      rw [hp.next]
      exact (h.listed q).congr fun z hz => (hwords q z hz).2
    · simp only [Heap.push, update_of_ne hqp]
      rw [hp.others q hqp]
      exact (h.listed q).congr fun z hz => (hwords q z hz).2
  · rcases mem_push hz with ⟨rfl, rfl⟩ | hz
    · exact hp.sized
    · rw [(hwords q z hz).1]
      exact h.sized q z hz
  · rcases mem_push hz with ⟨rfl, rfl⟩ | hz
    · exact hx
    · exact h.placed q z hz
  · have hk := h.kept b hb
    have hbb := hk.bounds
    exact hk.congr (hbytes b (mem_blocks.mpr (.inr hb)) (by omega))
  · exact (apart_perm (push_perm H p x)).mpr (pairwise_cons.mpr ⟨happ, h.apart⟩)
  · have hqp : q ≠ p := by
      rintro rfl
      rw [hp.head] at hq
      cases hq
    rw [hp.heads q hqp] at hq
    simp only [Heap.push, update_of_ne hqp]
    exact h.fresh q hq

/-- The head is set to a block that was written before. -/
lemma Pushed.of_inside (hx : x.In p) (hin : Inside x w w')
    (hsize : guest_read_be32 w'.ram x.pos = x.size) (hlink : link w'.ram x = w.head_read p) :
    Pushed p x w (w'.head_write p x.ptr) := by
  have hxb := hx.bounds
  have hslot := slot_lt p
  refine ⟨fun j hj hout => ?_, fun q hq => ?_, fun q hq => ?_, head_write_same, ?_, ?_⟩
  · rw [head_write_outside (by omega)]
    exact hin.ram j hout
  · rw [head_write_ne hq]
    exact congrFun hin.heads q
  · have hread : (w'.head_write p x.ptr).head_read q = w'.head_read q :=
      head_read_congr (head_write_ne hq) fun _ j hj hj4 => head_write_outside (by
        have := slot_apart hq
        omega)
    exact hread.trans (hin.head_read (by omega))
  · rw [← hsize, head_write_ram]
    exact read_write_apart (by omega)
  · rw [← hlink, link, link, head_write_ram]
    exact read_write_apart (by omega)

/-- What is behind the header of a free block does not matter. -/
lemma Pushed.congr {w'' : Window} (h : Pushed p x w w') (hx : x.In p)
    (hheads : w''.heads = w'.heads) (hread : ∀ q, w''.head_read q = w'.head_read q)
    (hram : ∀ j, 0x20 ≤ j → j < x.pos + 8 ∨ x.stop ≤ j → w''.ram j = w'.ram j) :
    Pushed p x w w'' := by
  have hxb := hx.bounds
  refine ⟨fun j hj hout => ?_, fun q hq => ?_, fun q hq => (hread q).trans (h.others q hq), ?_, ?_,
    ?_⟩
  · rw [hram j hj (by omega)]
    exact h.ram j hj hout
  · rw [hheads]
    exact h.heads q hq
  · rw [hheads]
    exact h.head
  · rw [← h.sized]
    exact read_congr fun j hj hj4 => hram j (by omega) (by omega)
  · rw [← h.next]
    exact read_congr fun j hj hj4 => hram j (by omega) (by omega)

/-- The other guest words of a pool are no part of a block. -/
lemma Pushed.magic (h : Pushed p x w w') (hx : x.In p) (v : Nat) :
    Pushed p x w (w'.store p.magic_slot v) := by
  have hmagic := magic_slot_lt p
  refine h.congr hx rfl (fun q => head_read_congr rfl fun _ j hj hj4 => write_outside ?_)
    fun j hj _ => write_outside (by omega)
  have := slot_lt q
  omega

lemma HeapOk.quiet_low (h : HeapOk w H) {ps : List Pool} (hheads : w'.heads = w.heads)
    (hram : ∀ j, 0x20 ≤ j → w'.ram j = w.ram j) : Quiet ps H w w' := by
  refine ⟨fun j hj _ => hram j hj, fun c hc j hj _ => ?_, fun q _ => congrFun hheads q⟩
  have hcb := (h.kept c hc).bounds
  exact hram j (by omega)

lemma HeapOk.quiet_push (h : HeapOk w H) (hx : x.In p) (happ : ∀ z ∈ H.blocks, Apart x z)
    (hp : Pushed p x w w') : Quiet [p] H w w' := by
  refine ⟨fun j hj hout => ?_, fun c hc j hj hj' => ?_, fun q hq => hp.heads q (by simpa using hq)⟩
  · have := hout p (mem_singleton_self p)
    have hlow := hx.low
    have hhigh := hx.high
    exact hp.ram j hj (by omega)
  · have hcb := (h.kept c hc).bounds
    have hxc := happ c (mem_blocks.mpr (.inr hc))
    unfold Apart at hxc
    exact hp.ram j (by omega) (by omega)

/-- The pool that a window gets first: one block from `pool_start` on. -/
lemma HeapOk.init_pool (h : HeapOk w H) {pool_start : Nat} (hhigh : pool_start ≤ HEAP_FAST_START)
    (hlow : p = .fast → pool_start = HEAP_FAST_START) :
    ∃ H', HeapOk (w.heap_freelist_init_pool p pool_start p.stop) H' ∧ H'.held = H.held ∧
      Quiet [p] H w (w.heap_freelist_init_pool p pool_start p.stop) := by
  have hslot := slot_lt p
  have hmagic := magic_slot_lt p
  unfold heap_freelist_init_pool
  cases hw : w.heads p with
  | some head =>
    simp only
    split
    · have hram : ∀ j, 0x20 ≤ j →
          ((w.store p.slot head).store p.magic_slot HEAP_POOL_MAGIC).ram j = w.ram j := by
        intro j hj
        simp only [store_ram]
        rw [write_outside (by omega), write_outside (by omega)]
      refine ⟨H, h.low rfl (fun q => ?_) hram, rfl, h.quiet_low rfl hram⟩
      · refine head_read_congr rfl fun hq j hj hj4 => ?_
        have hqp : q ≠ p := by
          rintro rfl
          rw [hw] at hq
          cases hq
        have := slot_apart hqp
        have := slot_lt q
        simp only [store_ram]
        rw [write_outside (by omega), write_outside (by omega)]
    · exact ⟨H, h, rfl, h.quiet_low rfl fun _ _ => rfl⟩
  | none =>
    simp only
    split
    · exact ⟨H, h, rfl, h.quiet_low rfl fun _ _ => rfl⟩
    rename_i hroom
    have hstart : max (u32 (pool_start + 7) / 8 * 8) HEAP_FREE_BASE % 8 = 0 ∧
        p.start ≤ max (u32 (pool_start + 7) / 8 * 8) HEAP_FREE_BASE := by
      cases p with
      | chip =>
        simp only [Pool.start, HEAP_FREE_BASE]
        omega
      | fast =>
        rw [hlow rfl]
        decide
    have hle : max (u32 (pool_start + 7) / 8 * 8) HEAP_FREE_BASE ≤ HEAP_FAST_START := by
      unfold HEAP_FAST_START at hhigh
      rw [u32_of_lt (by omega)]
      simp only [HEAP_FREE_BASE, HEAP_FAST_START]
      omega
    generalize max (u32 (pool_start + 7) / 8 * 8) HEAP_FREE_BASE = start at hstart hroom hle ⊢
    have hstop : p.stop ≤ 0xFF0000 ∧ 8 ∣ p.stop := by cases p <;> decide
    simp only [HEAP_FAST_START, HEAP_HDR] at hle hroom
    rw [u32_of_lt (by omega)] at hroom
    rw [u32_of_lt (by omega)]
    have hx : (⟨start, p.stop - start, false⟩ : Blk).In p :=
      ⟨hstart.2, by simp only [stop]; omega, by simp only; omega, by simp only; omega,
        by simp only; omega⟩
    obtain ⟨hnil, hheld⟩ := h.fresh p hw
    have hhead : w.head_read p = 0 := by
      have hlist := h.listed p
      rw [hnil] at hlist
      exact hlist
    -- every other block is in the other pool
    have happ : ∀ z ∈ H.blocks, Apart ⟨start, p.stop - start, false⟩ z := by
      intro z hz
      rcases mem_blocks.mp hz with ⟨q, hzq⟩ | hzh
      · refine hx.apart (h.placed q z hzq) ?_
        rintro rfl
        rw [hnil] at hzq
        cases hzq
      · obtain ⟨q, hq⟩ := (h.kept z hzh).placed
        refine hx.apart hq ?_
        rintro rfl
        exact hheld z hzh hq
    obtain ⟨hin, hsize, hlink, -⟩ := node_spec (m := p.stop - start) hx ⟨le_refl _, le_refl _⟩
      (Inside.refl _ w) (by omega) (Nat.two_pow_pos 32) rfl
    have hpush := (Pushed.of_inside hx hin hsize (hlink.trans hhead.symm)).magic hx HEAP_POOL_MAGIC
    exact ⟨_, h.push hx happ hpush, rfl, h.quiet_push hx happ hpush⟩

lemma HeapOk.init (h : HeapOk w H) (ptr : HeapPtr) (p : Pool) :
    ∃ H', HeapOk (w.heap_freelist_init ptr p) H' ∧ H'.held = H.held ∧
      Quiet [p] H w (w.heap_freelist_init ptr p) := by
  cases p with
  | chip =>
    refine h.init_pool (p := .chip) ?_ (fun hp => by cases hp)
    exact (Nat.le_of_lt_succ ptr.isLt).trans (by decide)
  | fast => exact h.init_pool (p := .fast) (le_refl _) fun _ => rfl

/-! ## FreeMem -/

/-- The pool of a block that is handed out. -/
lemma pool_of_in (hb : b.In p) : pool_of (b.pos + 8) = p := by
  have h1 := hb.low
  have h2 := hb.high
  unfold stop at h2
  cases p with
  | chip =>
    simp only [Pool.stop, HEAP_CHIP_END] at h2
    exact if_neg (by unfold HEAP_FAST_START; omega)
  | fast =>
    simp only [Pool.start] at h1
    exact if_pos (by omega)

lemma mark_spec (h : n < HEAP_MAGIC) : HEAP_MAGIC ≤ mark n ∧ mark n % HEAP_MAGIC = n := by
  unfold mark HEAP_MAGIC at *
  omega

lemma head_read_lt (h : HeapOk w H) (p : Pool) : w.head_read p < 2 ^ 32 := by
  have hlist := h.listed p
  cases hfree : H.free p with
  | nil =>
    rw [hfree] at hlist
    rw [path_nil.mp hlist]
    decide
  | cons x xs =>
    have hxb := (h.placed p x (by simp [hfree])).bounds
    rw [hfree] at hlist
    rw [hlist.1, ptr]
    omega

/-- The poison is behind the header. -/
lemma poison_outside {blk j : Nat} (hn : 16 ≤ n) (hblk : blk + n < 2 ^ 32)
    (hj : j < blk + 8 ∨ blk + n ≤ j) : (w.poison blk n).ram j = w.ram j := by
  unfold poison HEAP_HDR
  rw [u32_of_lt (by omega), u32_of_lt (by omega)]
  simp only [fill_ram, store_ram]
  rw [fill_outside (by omega), write_outside (by omega)]

/-- A block that is handed out goes back to the front of its list. -/
lemma HeapOk.free (h : HeapOk w H) (hb : b ∈ H.held) (mc : Bool) :
    ∃ H', HeapOk (w.heap_free_fl mc (b.pos + 8)) H' ∧ H'.held = H.held.erase b := by
  obtain ⟨⟨p, hp⟩, hroom, hheader, -⟩ := h.kept b hb
  have hbb := hp.bounds
  obtain ⟨hmagic, hsize⟩ := mark_spec (n := b.size) (by unfold HEAP_MAGIC; omega)
  have hperm : H.blocks.Perm (b :: (⟨H.free, H.held.erase b⟩ : Heap).blocks) :=
    (((perm_cons_erase hb).append_left _).append_left _).trans held_perm
  have happ := (pairwise_cons.mp ((apart_perm hperm).mp h.apart)).1
  have hdrop := h.drop (erase_sublist (a := b) (l := H.held))
  have hguard : ¬ (b.pos + 8 < HEAP_HDR ∨ GUEST_RAM_SIZE ≤ b.pos + 8) := by
    unfold HEAP_HDR GUEST_RAM_SIZE
    omega
  have hsane : ¬ (b.size < HEAP_HDR + 4 ∨ GUEST_RAM_SIZE < b.size ∨
      GUEST_RAM_SIZE < b.pos + b.size) := by
    unfold HEAP_HDR GUEST_RAM_SIZE
    omega
  unfold heap_free_fl heap_free_fl_pool
  rw [pool_of_in hp, if_neg hguard]
  simp only [show b.pos + 8 - HEAP_HDR = b.pos by unfold HEAP_HDR; omega, hheader, hsize,
    if_neg (Nat.not_lt.mpr hmagic), if_neg hsane]
  have hread : (w.store b.pos b.size).head_read p = w.head_read p := by
    refine head_read_congr rfl fun _ j hj hj4 => write_outside ?_
    have := slot_lt p
    omega
  obtain ⟨hin, hread_size, hlink, -⟩ := node_spec (m := b.size) hp ⟨le_refl _, le_refl _⟩
    (Inside.refl b w) (by omega) (hread.trans_lt (head_read_lt h p)) rfl
  have hpush := Pushed.of_inside hp hin hread_size (hlink.trans hread)
  refine ⟨_, hdrop.push hp happ ?_, rfl⟩
  split
  · refine hpush.congr hp rfl (fun q => head_read_congr rfl fun _ j hj hj4 => ?_)
      fun j _ hj => poison_outside (by omega) (by omega) hj
    have := slot_lt q
    exact poison_outside (by omega) (by omega) (by omega)
  · exact hpush

/-- A block of memcheck is not freed under its own address: the word before it is no header. -/
lemma HeapOk.free_guarded (h : HeapOk w H) (hb : b ∈ H.held) (hg : b.guarded = true) (mc : Bool) :
    w.heap_free_fl mc (b.pos + 16) = w := by
  obtain ⟨⟨p, hp⟩, hroom, -, hblank⟩ := h.kept b hb
  have hbb := hp.bounds
  have hguard : ¬ (b.pos + 16 < HEAP_HDR ∨ GUEST_RAM_SIZE ≤ b.pos + 16) := by
    unfold HEAP_HDR GUEST_RAM_SIZE
    omega
  unfold heap_free_fl heap_free_fl_pool
  rw [if_neg hguard]
  exact if_pos (hblank hg)

/-! ## AllocAbs -/

lemma kept_of_store (hb : b.In p) (hroom : 16 ≤ b.size) (hplain : b.guarded = false) :
    Inside b v ((v.store b.pos (mark b.size)).store (b.pos + 4) 0) ∧
      Kept ((v.store b.pos (mark b.size)).store (b.pos + 4) 0).ram b := by
  obtain ⟨hin, hsize, -, -⟩ := node_spec hb ⟨le_refl _, le_refl _⟩ (Inside.refl b v)
    (mark_lt b.size) (Nat.two_pow_pos 32) rfl
  refine ⟨hin, ⟨p, hb⟩, hroom, hsize, fun hg => ?_⟩
  rw [hplain] at hg
  cases hg

section absolute

variable (h : HeapOk w H) (hfree : H.free p = pre ++ x :: post) {lo hi : Nat}
include h hfree

/-- A range of a free block, with the slop before and after it back on the list. -/
lemma abs_spec (hlo : x.pos ≤ lo) (hhi : hi ≤ x.pos + x.size) (hlo8 : 8 ∣ lo) (hhi8 : 8 ∣ hi)
    (hroom : lo + 16 ≤ hi) :
    ∃ H', Given p w (((w.relink_edges p (fit_at w.ram p.slot pre x) (lo - x.pos)
      (x.pos + x.size - hi) hi).store lo (mark (hi - lo))).store (lo + 4) 0) H H'
        ⟨lo, hi - lo, false⟩ := by
  have hx := h.in_free hfree
  have hxb := hx.bounds
  have hx8 := hx.pos8
  have hs8 := hx.size8
  have hb : (⟨lo, hi - lo, false⟩ : Blk).In p := hx.piece hlo (by omega) hlo8 (by omega) (by omega)
  have hbx : x.pos ≤ lo ∧ (⟨lo, hi - lo, false⟩ : Blk).stop ≤ x.stop :=
    ⟨hlo, by simp only [stop]; omega⟩
  have hhi4 : u32 (hi + 4) = hi + 4 := u32_of_lt (by omega)
  have hpos4 : u32 (x.pos + 4) = x.pos + 4 := u32_of_lt (by omega)
  have hxptr : x.ptr < 2 ^ 32 := by
    unfold ptr
    omega
  have hhiptr : hi / 4 < 2 ^ 32 := by omega
  have hfin {v : Window} := kept_of_store (v := v) hb (by simp only; omega) rfl
  have hlead_in : lo - x.pos ≠ 0 → (⟨x.pos, lo - x.pos, false⟩ : Blk).In p := fun hlead =>
    hx.piece (le_refl _) (by omega) hx8 (by omega) (by omega)
  have hlx : x.pos ≤ x.pos ∧ (⟨x.pos, lo - x.pos, false⟩ : Blk).stop ≤ x.stop :=
    ⟨le_refl _, by simp only [stop]; omega⟩
  have htail_in : x.pos + x.size - hi ≠ 0 → (⟨hi, x.pos + x.size - hi, false⟩ : Blk).In p :=
    fun htail => hx.piece (by omega) (by omega) hhi8 (by omega) (by omega)
  have htx : x.pos ≤ hi ∧ (⟨hi, x.pos + x.size - hi, false⟩ : Blk).stop ≤ x.stop :=
    ⟨by omega, by simp only [stop]; omega⟩
  have hbl : Apart ⟨lo, hi - lo, false⟩ ⟨x.pos, lo - x.pos, false⟩ :=
    .inr (by simp only [stop]; omega)
  have hbt : Apart ⟨lo, hi - lo, false⟩ ⟨hi, x.pos + x.size - hi, false⟩ :=
    .inl (by simp only [stop]; omega)
  have hlt : Apart ⟨x.pos, lo - x.pos, false⟩ ⟨hi, x.pos + x.size - hi, false⟩ :=
    .inl (by simp only [stop]; omega)
  simp only [relink_edges, hhi4, hpos4]
  by_cases htail : x.pos + x.size - hi = 0
  · simp only [if_pos htail, if_neg (not_not.mpr htail)]
    by_cases hlead : lo - x.pos = 0
    · rw [if_neg (not_not.mpr hlead)]
      exact ⟨_, h.cut hfree (Inside.refl x w) (read_lt _ _)
        (Cut.nil.cons hb hbx (fun d hd => by cases hd)) rfl (fun c hc => by cases hc) hfin rfl⟩
    · rw [if_pos hlead]
      have hl := hlead_in hlead
      obtain ⟨hin, hsize, hlink, -⟩ :=
        node_spec (m := lo - x.pos) hl hlx (Inside.refl x w) (by omega)
        (read_lt w.ram (x.pos + 4)) rfl
      exact ⟨_, h.cut hfree hin hxptr (cut_two hb hl hbl hbx hlx) ⟨rfl, hlink⟩
        (fun c hc => by rw [mem_singleton.mp hc]; exact hsize) hfin rfl⟩
  · have ht := htail_in htail
    obtain ⟨htin, htsize, htlink, -⟩ := node_spec (m := x.pos + x.size - hi) ht htx
      (Inside.refl x w) (by omega) (read_lt w.ram (x.pos + 4)) rfl
    simp only [if_neg htail, if_pos (show x.pos + x.size - hi ≠ 0 from htail)]
    by_cases hlead : lo - x.pos = 0
    · rw [if_neg (not_not.mpr hlead)]
      exact ⟨_, h.cut hfree htin hhiptr (cut_two hb ht hbt hbx htx) ⟨rfl, htlink⟩
        (fun c hc => by rw [mem_singleton.mp hc]; exact htsize) hfin rfl⟩
    rw [if_pos hlead]
    have hl := hlead_in hlead
    obtain ⟨hin, hsize, hlink, hother⟩ := node_spec (m := lo - x.pos) hl hlx htin (by omega)
      hhiptr rfl
    have hcut : Cut x p [⟨lo, hi - lo, false⟩, ⟨x.pos, lo - x.pos, false⟩,
        ⟨hi, x.pos + x.size - hi, false⟩] := by
      refine (cut_two hl ht hlt hlx htx).cons hb hbx fun d hd => ?_
      simp only [mem_cons, not_mem_nil, or_false] at hd
      rcases hd with rfl | rfl
      · exact hbl
      · exact hbt
    obtain ⟨htsize', htlink'⟩ := hother _ hlt ht.some
    refine ⟨_, h.cut hfree hin hxptr hcut ⟨rfl, hlink, ?_⟩ (fun c hc => ?_) hfin rfl⟩
    · exact htlink'.trans htlink
    simp only [mem_cons, not_mem_nil, or_false] at hc
    rcases hc with rfl | rfl
    · exact hsize
    · exact htsize'.trans htsize

end absolute

/-- AllocAbs of a range in units of eight bytes gives nothing, or the block at the address. -/
lemma HeapOk.alloc_abs (h : HeapOk w H) (ptr : HeapPtr) (haddr : 8 ∣ addr)
    (hround : 8 ∣ (size + 3) / 4 * 4) (hlt : addr + size + 4 ≤ 2 ^ 32) : ∃ w' H', HeapOk w' H' ∧
      (w.dos_AllocAbs_glue ptr addr size = some (w', 0) ∧ H'.held = H.held ∨
        ∃ b, w.dos_AllocAbs_glue ptr addr size = some (w', addr) ∧ addr ≠ 0 ∧ b.pos + 8 = addr ∧
          size + 8 ≤ b.size ∧ H'.held = b :: H.held ∧ b.guarded = false) := by
  simp only [dos_AllocAbs_glue]
  by_cases hno : size = 0 ∨ addr < HEAP_HDR ∨ GUEST_RAM_SIZE ≤ addr
  · rw [if_pos hno]
    exact ⟨w, H, h, .inl ⟨rfl, rfl⟩⟩
  rw [if_neg hno]
  obtain ⟨H1, h1, hheld, -⟩ := h.init ptr (pool_of addr)
  generalize w.heap_freelist_init ptr (pool_of addr) = w1 at h1 ⊢
  generalize pool_of addr = p at h1 ⊢
  have hhi : u32 (addr + u32 (size + 3) / 4 * 4) = addr + (size + 3) / 4 * 4 := by
    rw [u32_of_lt (n := size + 3) (by omega), u32_of_lt (by omega)]
  have hlo : addr - HEAP_HDR = addr - 8 := rfl
  simp only [hhi, hlo]
  rcases first_fit_spec (fun cur n => decide (cur ≤ addr - 8) &&
      decide (addr + (size + 3) / 4 * 4 ≤ u32 (cur + n))) walk_limit p.slot (h1.listed p)
    (h1.sized p) (h1.placed p) (h1.short p) with hnone | ⟨pre, x, post, hfree, hfit, hsome⟩
  · rw [hnone]
    exact ⟨w1, H1, h1, .inl ⟨rfl, hheld⟩⟩
  rw [hsome]
  have hx := h1.in_free hfree
  have hxb := hx.bounds
  have hx8 := hx.pos8
  have hs8 := hx.size8
  have hstop : u32 (x.pos + x.size) = x.pos + x.size := u32_of_lt (by omega)
  rw [Bool.and_eq_true, decide_eq_true_eq, decide_eq_true_eq, hstop] at hfit
  simp only [hstop]
  -- in units of eight bytes a split edge is empty or has room for a header
  rw [if_neg (by unfold HEAP_HDR; omega), sub32_of_le (by omega) (by omega)]
  obtain ⟨H', hok, hheld', hplain, -, -⟩ := abs_spec h1 hfree hfit.1 hfit.2 (by omega) (by omega)
    (by omega)
  refine ⟨_, H', hok, .inr ⟨_, rfl, by omega, by simp only; omega, by simp only; omega, ?_, hplain⟩⟩
  rw [hheld', hheld]

/-! ## Stores into blocks that are handed out -/

lemma HeapOk.free_held (h : HeapOk w H) (hz : z ∈ H.free p) (hb : b ∈ H.held) : Apart z b :=
  (pairwise_append.mp ((apart_perm (blocks_perm H p)).mp h.apart)).2.2 z hz b
    (mem_append_right _ hb)

lemma HeapOk.held_apart (h : HeapOk w H) (hb : b ∈ H.held) (hc : c ∈ H.held) (hne : b ≠ c) :
    Apart b c := h.apart.forall (mem_blocks.mpr (.inr hb)) (mem_blocks.mpr (.inr hc)) hne

/-- The bytes behind the header of a block, and behind the word that memcheck keeps blank. -/
def Blk.Payload (b : Blk) (j : Nat) : Prop := b.pos + (if b.guarded then 12 else 8) ≤ j ∧ j < b.stop

lemma HeapOk.write (h : HeapOk w H) (hb : b ∈ H.held) (hheads : w'.heads = w.heads)
    (hram : ∀ j, ¬ b.Payload j → w'.ram j = w.ram j) : HeapOk w' H := by
  obtain ⟨⟨p, hp⟩, hroom, hheader, hblank⟩ := h.kept b hb
  have hbb := hp.bounds
  have hlow : ∀ j, j < b.pos + 8 ∨ b.stop ≤ j → w'.ram j = w.ram j := by
    intro j hj
    refine hram j fun ⟨h1, h2⟩ => ?_
    split at h1 <;> omega
  refine h.frame hheads (fun q => ?_) (fun q z hz j hj hj' => ?_) fun z hz => ?_
  · refine head_read_congr (congrFun hheads q) fun _ j hj hj4 => hlow j ?_
    have := slot_lt q
    omega
  · have happ := h.free_held hz hb
    unfold Apart at happ
    exact hlow j (by omega)
  · by_cases hzb : z = b
    · subst hzb
      refine ⟨⟨p, hp⟩, hroom, ?_, fun hg => ?_⟩
      · rw [← hheader]
        exact read_congr fun j hj hj4 => hlow j (by omega)
      have hword : guest_read_be32 w'.ram (z.pos + 8) = guest_read_be32 w.ram (z.pos + 8) := by
        refine read_congr fun j hj hj4 => hram j fun ⟨h1, h2⟩ => ?_
        rw [if_pos hg] at h1
        omega
      rw [hword]
      exact hblank hg
    · have happ := h.held_apart hb hz (Ne.symm hzb)
      unfold Apart at happ
      exact (h.kept z hz).congr fun j hj hj' => hlow j (by omega)

end uaos.guest
