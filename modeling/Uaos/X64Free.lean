-- Frees: a used block passes the check of its header, and a free gives it back and joins it with
-- its free neighbours. The loops over the used blocks of a range or of a task end.
import Uaos.X64Alloc

namespace uaos.x64

open List Heap

section frees

variable {A : Arena} {h : Heap} {a p x : Nat} {b c : Blk} {bs xs ys : List Blk}

/-! ## Neighbours -/

lemma Tiles.placed_size (ht : Tiles A h a bs) (hb : (x, b) ∈ placed a bs) : 48 ≤ b.size := by
  obtain ⟨xs, ys, rfl, -⟩ := placed_split hb
  exact (ht.sized b (mem_append_cons_self)).1

/-- There is one block at a place. -/
lemma Tiles.one_place (ht : Tiles A h a bs) (hb : (x, b) ∈ placed a bs)
    (hc : (x, c) ∈ placed a bs) : b = c := by
  have := ht.placed_size hb
  have := ht.placed_size hc
  rcases placed_apart hb hc with hsame | hapart | hapart
  · exact hsame.2
  · omega
  · omega

/-- The block before a block, if there is one. -/
lemma Tiles.before (ht : Tiles A h a (xs ++ b :: ys)) :
    (xs = [] ∧ h.get .prev (a + span xs) = 0) ∨
    ∃ zs c, xs = zs ++ [c] ∧ h.get .prev (a + span xs) = a + span zs ∧ a + span zs ≠ 0 := by
  have hprev := ht.header.prev
  have hlow := ht.low
  have hpos := A.low
  rcases eq_nil_or_concat xs with rfl | ⟨zs, c, rfl⟩
  · exact .inl ⟨rfl, hprev⟩
  · rw [concat_eq_append] at hprev ⊢
    rw [last_at_append, last_at, last_at] at hprev
    exact .inr ⟨zs, c, rfl, hprev, by omega⟩

/-- The block after a block, if there is one. -/
lemma Tiles.behind (ht : Tiles A h a (xs ++ b :: ys)) :
    (ys = [] ∧ h.get .next (a + span xs) = 0) ∨
    ∃ c zs, ys = c :: zs ∧ h.get .next (a + span xs) = a + span xs + b.size ∧
      a + span xs + b.size ≠ 0 := by
  have hnext := ht.header.next
  obtain ⟨-, -, hmin, -, hends⟩ := ht.place
  cases ys with
  | nil =>
    rw [span_nil, add_zero] at hends
    rw [link, if_pos hends] at hnext
    exact .inl ⟨rfl, hnext⟩
  | cons c zs =>
    have hc : 48 ≤ c.size := (ht.sized c (mem_append_right _ (mem_cons_of_mem _ mem_cons_self))).1
    rw [span_cons] at hends
    rw [link, if_neg (by omega)] at hnext
    exact .inr ⟨c, zs, rfl, hnext, by omega⟩

lemma Tiles.shift (ht : Tiles A h a (xs ++ c :: b :: ys)) :
    Tiles A h a ((xs ++ [c]) ++ b :: ys) := by
  rw [append_assoc]
  exact ht

lemma Tiles.unshift (ht : Tiles A h a ((xs ++ [c]) ++ b :: ys)) :
    Tiles A h a (xs ++ c :: b :: ys) := by
  rw [append_assoc] at ht
  exact ht

lemma span_concat : a + span (xs ++ [c]) = a + span xs + c.size := by
  rw [span_append, span_cons, span_nil, add_zero, add_assoc]

lemma Tiles.in_arena (ht : Tiles A h a (xs ++ b :: ys)) :
    Heap.in_arena A.heap0 (a + span xs) = true := by
  obtain ⟨-, hlow, hmin, -, hends⟩ := ht.place
  unfold Arena.stop at hends
  unfold Heap.in_arena
  rw [decide_eq_true_eq]
  omega

/-- The check of a free accepts every used block. -/
lemma Good.free_target (hg : Good A h a (xs ++ b :: ys)) (hb : b.used = true) :
    h.x64_free_target A.heap0 (a + span xs + 48) = some (a + span xs) := by
  obtain ⟨ha, hlow, hmin, hsize, hends⟩ := hg.tiles.place
  have hin : a + span xs + 48 < A.stop :=
    hg.inside _ b (⟨mem_placed, hb⟩)
  have hlt := A.stop_lt
  have hh := hg.tiles.header
  have hstop : A.heap0 + X64_HEAP_SIZE = A.stop := rfl
  unfold x64_free_target X64_BLK_HDR
  simp only [Nat.add_sub_cancel, hstop]
  rw [if_neg (by omega), if_neg (by rw [hh.magic]; exact not_not.mpr rfl),
    if_neg (by rw [hg.tiles.used_iff, hb]; exact Bool.true_eq_false.mp), hh.size,
    u64_of_lt (by omega), if_neg (by omega)]
  have hprev : ¬(h.get .prev (a + span xs) ≠ 0 ∧
      ¬(Heap.in_arena A.heap0 (h.get .prev (a + span xs)) = true ∧
        h.get .magic (h.get .prev (a + span xs)) = X64_BLK_MAGIC ∧
        h.get .next (h.get .prev (a + span xs)) = a + span xs)) := by
    rcases hg.tiles.before with ⟨-, hp⟩ | ⟨zs, c, rfl, hp, -⟩
    · exact fun hbad => hbad.1 hp
    have ht := hg.tiles.unshift
    have hlink : link A.stop (a + span zs + c.size) = a + span zs + c.size := by
      rw [span_concat] at hin
      exact if_neg (by omega)
    refine fun hbad => hbad.2 ?_
    rw [hp, ht.headers.1.magic, ht.headers.1.next, hlink, span_concat]
    exact ⟨ht.in_arena, rfl, rfl⟩
  have hfirst : ¬(h.get .prev (a + span xs) = 0 ∧ a + span xs ≠ h.first) := by
    rcases hg.tiles.before with ⟨rfl, -⟩ | ⟨zs, c, -, hp, hne⟩
    · exact fun hbad => hbad.2 hg.tiles.first.symm
    · exact fun hbad => hne (hp.symm.trans hbad.1)
  have hnext : ¬(h.get .next (a + span xs) ≠ 0 ∧
      ¬(Heap.in_arena A.heap0 (h.get .next (a + span xs)) = true ∧
        h.get .magic (h.get .next (a + span xs)) = X64_BLK_MAGIC ∧
        h.get .prev (h.get .next (a + span xs)) = a + span xs)) := by
    rcases hg.tiles.behind with ⟨-, hn⟩ | ⟨c, zs, rfl, hn, -⟩
    · exact fun hbad => hbad.1 hn
    have hc := hg.tiles.headers.2
    refine fun hbad => hbad.2 ?_
    rw [hn, hc.magic, hc.prev]
    refine ⟨?_, rfl, rfl⟩
    rw [← span_concat]
    exact hg.tiles.shift.in_arena
  rw [if_neg hprev, if_neg hfirst, if_neg hnext]

/-! ## Giving a block back -/

lemma Tiles.give (ht : Tiles A h a (xs ++ b :: ys)) (hb : b.used = true) :
    Tiles A (h.give (a + span xs)) a (xs ++ ⟨b.size, false, 0⟩ :: ys) := by
  have hflags : h.get .flags (a + span xs) = 1 := by rw [ht.header.flags, Blk.flags, hb]; rfl
  exact ht.mark (c := ⟨b.size, false, 0⟩) rfl (by rw [hflags]; rfl) (Nat.two_pow_pos 64)

lemma Tiles.give_live (ht : Tiles A h a (xs ++ b :: ys)) :
    (h.give (a + span xs)).live = sub64 h.live b.size := by
  unfold Heap.give
  rw [Heap.set_live_live, Heap.get_put_field (by decide), Heap.get_put_field (by decide),
    ht.header.size, Heap.put_live, Heap.put_live]

lemma Tiles.join (ht : Tiles A h a (xs ++ b :: c :: ys)) :
    Tiles A (h.join (a + span xs) (a + span xs + b.size)) a
      (xs ++ ⟨b.size + c.size, b.used, b.owner⟩ :: ys) := by
  obtain ⟨ha, -, hmin, hsize, hends⟩ := ht.place
  obtain ⟨hcmin, hcsize⟩ : 48 ≤ c.size ∧ 16 ∣ c.size :=
    ht.sized c (mem_append_right _ (mem_cons_of_mem _ mem_cons_self))
  rw [span_cons] at hends
  have hjoin := Heap.join_edit ht.headers.1 ht.headers.2 ha hsize hcsize hmin hcmin (by omega)
    A.stop_lt
  refine Tiles.edit [b, c] [_] ht ?_ ?_ (by simp [Heap.join]) ?_
  · simp only [span_cons, span_nil]
    omega
  · rintro d (_ | ⟨_, ⟨⟩⟩)
    exact sized_mk (by omega) (by omega)
  · simp only [span_cons, span_nil, add_zero, ← add_assoc]
    exact hjoin

lemma Heap.join_live {b n : Nat} : (h.join b n).live = h.live := by simp [Heap.join]

lemma uses_join (hb : b.used = false) (hc : c.used = false) {d : Blk} :
    Uses a (⟨b.size + c.size, b.used, b.owner⟩ :: ys) x d ↔ Uses a (b :: c :: ys) x d := by
  have hjoin : Uses a (⟨b.size + c.size, b.used, b.owner⟩ :: ys) x d ↔
      Uses (a + (b.size + c.size)) ys x d := uses_free hb
  rw [hjoin, uses_free hb, uses_free hc, add_assoc]

/-- The used blocks other than `b` are those of the list with `b` free. -/
lemma Tiles.uses_without (ht : Tiles A h a (xs ++ b :: ys)) {d : Blk} :
    Uses a (xs ++ ⟨b.size, false, 0⟩ :: ys) x d ↔ Uses a (xs ++ b :: ys) x d ∧ x ≠ a + span xs := by
  have hmin := ht.place.2.2.1
  have hfree : Uses (a + span xs) (⟨b.size, false, 0⟩ :: ys) x d ↔
      Uses (a + span xs + b.size) ys x d := uses_free rfl
  rw [uses_append, hfree, uses_append, uses_cons]
  constructor
  · rintro (hd | hd)
    · obtain ⟨us, vs, rfl, rfl⟩ := placed_split hd.1
      have hd48 : 48 ≤ d.size := (ht.sized d (by simp)).1
      refine ⟨.inl hd, ?_⟩
      rw [span_append, span_cons]
      omega
    · obtain ⟨us, vs, rfl, rfl⟩ := placed_split hd.1
      exact ⟨.inr (.inr hd), by omega⟩
  · rintro ⟨hd | ⟨rfl, -, -⟩ | hd, hne⟩
    · exact .inl hd
    · exact absurd rfl hne
    · exact .inr hd

/-- A heap in which the free block `b` may have free neighbours. -/
structure Loose (A : Arena) (h : Heap) (a : Nat) (xs : List Blk) (b : Blk) (ys : List Blk) :
    Prop where
  tiles : Tiles A h a (xs ++ b :: ys)
  free : b.used = false
  left : NoFreePair xs
  right : NoFreePair ys
  live : h.live = used_total xs + used_total ys
  blank : ∀ c ∈ xs ++ b :: ys, c.used = false → c.owner = 0
  inside : Inside A a (xs ++ b :: ys)

lemma Loose.forward (hl : Loose A h a xs b ys) :
    ∃ b' ys', Loose A (h.coalesce_forward (a + span xs)) a xs b' ys' ∧ NoFreePair (b' :: ys') ∧
      used_total ys' = used_total ys ∧
      ∀ x c, Uses (a + span xs) (b' :: ys') x c ↔ Uses (a + span xs) (b :: ys) x c := by
  unfold coalesce_forward
  rcases hl.tiles.behind with ⟨rfl, hn⟩ | ⟨c, zs, rfl, hn, hne⟩
  · simp only [hn, ne_eq, not_true_eq_false, false_and, if_false]
    exact ⟨b, [], hl, isChain_singleton b, rfl, fun x c => Iff.rfl⟩
  have hc : h.used (a + span xs + b.size) = c.used := by
    rw [← span_concat]
    exact hl.tiles.shift.used_iff
  simp only [hn, hc, ne_eq, hne, not_false_eq_true, true_and]
  by_cases hcu : c.used = false
  · rw [if_pos hcu]
    have hzs : NoFreePair (c :: zs) := hl.right
    have htotal : used_total (c :: zs) = used_total zs := by
      rw [used_total_cons, hcu, if_neg Bool.false_ne_true, zero_add]
    refine ⟨⟨b.size + c.size, b.used, b.owner⟩, zs,
      ⟨hl.tiles.join, hl.free, hl.left, ?_, ?_, ?_, ?_⟩, ?_, htotal.symm,
      fun x d => uses_join hl.free hcu⟩
    · exact (isChain_cons.mp hzs).2
    · rw [Heap.join_live, hl.live, htotal]
    · exact blank_insert (fun d hd => hl.blank d (mem_insert (mem_insert hd)))
        (hl.blank b mem_append_cons_self)
    · intro x d hd
      refine hl.inside x d ?_
      rw [uses_append, uses_join hl.free hcu] at hd
      exact uses_append.mpr hd
    · exact hzs.same_head (hl.free.trans hcu.symm)
  · rw [if_neg hcu]
    refine ⟨b, c :: zs, hl, ?_, rfl, fun x d => Iff.rfl⟩
    exact isChain_cons_cons.mpr ⟨.inr (Bool.eq_true_of_not_eq_false hcu), hl.right⟩

lemma Loose.backward (hl : Loose A h a xs b ys) (hpair : NoFreePair (b :: ys)) :
    ∃ bs', Good A (h.coalesce_backward (a + span xs)) a bs' ∧
      used_total bs' = used_total xs + used_total ys ∧
      ∀ x c, Uses a bs' x c ↔ Uses a (xs ++ b :: ys) x c := by
  have htotal : used_total (xs ++ b :: ys) = used_total xs + used_total ys := by
    rw [used_total_append, used_total_cons, hl.free, if_neg Bool.false_ne_true, zero_add]
  unfold coalesce_backward
  rcases hl.tiles.before with ⟨rfl, hp⟩ | ⟨zs, c, rfl, hp, hne⟩
  · simp only [hp, ne_eq, not_true_eq_false, false_and, if_false]
    exact ⟨_, ⟨hl.tiles, hpair, hl.live.trans htotal.symm, hl.blank, hl.inside⟩, htotal,
      fun x c => Iff.rfl⟩
  have ht := hl.tiles.unshift
  simp only [hp, ht.used_iff, ne_eq, hne, not_false_eq_true, true_and]
  by_cases hcu : c.used = false
  · rw [if_pos hcu, span_concat]
    have huses (x : Nat) (d : Blk) : Uses a (zs ++ ⟨c.size + b.size, c.used, c.owner⟩ :: ys) x d ↔
        Uses a (zs ++ [c] ++ b :: ys) x d := by
      rw [append_assoc, uses_append, uses_append, singleton_append, uses_join hcu hl.free]
    have hsum : used_total (zs ++ ⟨c.size + b.size, c.used, c.owner⟩ :: ys) =
        used_total (zs ++ [c]) + used_total ys := by
      rw [used_total_append, used_total_append, used_total_cons, used_total_cons, hcu,
        if_neg Bool.false_ne_true, if_neg Bool.false_ne_true, used_total_nil]
      omega
    refine ⟨_, ⟨ht.join, ?_, ?_, ?_, ?_⟩, hsum, huses⟩
    · refine isChain_split.mpr ⟨NoFreePair.same_last hl.left rfl, ?_⟩
      exact hpair.same_head (hcu.trans hl.free.symm)
    · rw [Heap.join_live, hl.live, hsum]
    · have hblank := hl.blank
      rw [append_assoc] at hblank
      exact blank_insert (fun d hd => hblank d (mem_insert (mem_insert hd)))
        (hblank c mem_append_cons_self)
    · exact fun x d hd => hl.inside x d ((huses x d).mp hd)
  · rw [if_neg hcu]
    refine ⟨_, ⟨hl.tiles, ?_, hl.live.trans htotal.symm, hl.blank, hl.inside⟩, htotal,
      fun x c => Iff.rfl⟩
    rw [append_assoc]
    refine isChain_split.mpr ⟨hl.left, ?_⟩
    exact isChain_cons_cons.mpr ⟨.inl (Bool.eq_true_of_not_eq_false hcu), hpair⟩

/-- A free gives exactly one used block back. -/
lemma Good.free (hg : Good A h a (xs ++ b :: ys)) (hb : b.used = true) :
    ∃ bs', Good A (h.x64_heap_free A.heap0 (a + span xs + 48)) a bs' ∧
      used_total bs' < used_total (xs ++ b :: ys) ∧
      ∀ x c, Uses a bs' x c ↔ Uses a (xs ++ b :: ys) x c ∧ x ≠ a + span xs := by
  obtain ⟨hleft, hright⟩ := hg.pairs.split
  have hlive : h.live = used_total xs + b.size + used_total ys := by
    rw [hg.live, used_total_append, used_total_cons, hb, if_pos rfl, add_assoc]
  obtain ⟨-, -, hmin, -, hends⟩ := hg.tiles.place
  have hlt := A.stop_lt
  have hle := used_total_le xs
  have hle' := used_total_le ys
  have hloose : Loose A (h.give (a + span xs)) a xs ⟨b.size, false, 0⟩ ys := by
    refine ⟨hg.tiles.give hb, rfl, hleft, hright, ?_, ?_, ?_⟩
    · rw [hg.tiles.give_live, hlive, sub64_of_le (by omega) (by omega)]
      omega
    · exact blank_insert (fun d hd => hg.blank d (mem_insert hd)) fun _ => rfl
    · exact fun x c hc => hg.inside x c (hg.tiles.uses_without.mp hc).1
  obtain ⟨b', ys', hloose', hpair, hsame, hfwd⟩ := hloose.forward
  obtain ⟨bs', hgood, htotal, hback⟩ := hloose'.backward hpair
  unfold x64_heap_free
  rw [hg.free_target hb]
  refine ⟨bs', hgood, ?_, fun x c => ?_⟩
  · rw [htotal, hsame, ← hg.live, hlive]
    omega
  · rw [hback, ← hg.tiles.uses_without, uses_append, uses_append, hfwd]

/-! ## Loops over the used blocks -/

/-- A loop over the used blocks with a property ends, and afterwards no used block has it. The
property of a block depends on its place and its header. -/
lemma Good.sweep {t : Heap → Nat → Bool} {q : Nat → Blk → Bool} {n : Nat} (hg : Good A h a bs)
    (htest : ∀ {h' xs b ys}, Tiles A h' a (xs ++ b :: ys) → t h' (a + span xs) = q (a + span xs) b)
    (hn : used_total bs < n) : ∃ h' bs', h.sweep A.heap0 t n = some h' ∧ Good A h' a bs' ∧
      ∀ x c, Uses a bs' x c ↔ Uses a bs x c ∧ q x c = false := by
  induction n generalizing h bs with
  | zero => exact absurd hn (Nat.not_lt_zero _)
  | succ n ih =>
    unfold sweep
    rcases search_tiles (t := used_and t) hg.tiles with
      ⟨xs, b, ys, rfl, hw, hp⟩ | ⟨hw, hall⟩
    · unfold used_and at hp
      rw [hg.tiles.used_iff, htest hg.tiles, Bool.and_eq_true] at hp
      obtain ⟨hb, hq⟩ := hp
      obtain ⟨bs', hgood, hless, huses⟩ := hg.free hb
      obtain ⟨h', bs'', hsweep, hgood', huses'⟩ := ih hgood (by omega)
      obtain ⟨-, -, hmin, -, hends⟩ := hg.tiles.place
      have hlt := A.stop_lt
      simp only [hw]
      unfold X64_BLK_HDR
      rw [u64_of_lt (by omega)]
      refine ⟨h', bs'', hsweep, hgood', fun x c => ?_⟩
      rw [huses', huses]
      refine ⟨fun hc => ⟨hc.1.1, hc.2⟩, fun hc => ⟨⟨hc.1, ?_⟩, hc.2⟩⟩
      rintro rfl
      rw [hg.tiles.one_place hc.1.1 mem_placed, hq] at hc
      exact Bool.false_ne_true hc.2.symm
    · simp only [hw]
      refine ⟨h, bs, rfl, hg, fun x c => ⟨fun hc => ⟨hc, ?_⟩, fun hc => hc.1⟩⟩
      obtain ⟨us, vs, rfl, rfl⟩ := placed_split hc.1
      have := hall _ c hc.1
      unfold used_and at this
      rwa [hg.tiles.used_iff, htest hg.tiles, hc.2, Bool.true_and] at this

/-! ## Owners -/

/-- The used block around an address gets another owner. -/
lemma Good.own {owner : Nat} (hg : Good A h a bs) (ptr : Nat) (howner : owner < 2 ^ 64) :
    ∃ h' bs', h.ELF64_HeapOwn owner ptr = some h' ∧ Good A h' a bs' ∧
      (∀ x b, Uses a bs x b → ∃ c, Uses a bs' x c ∧ c.size = b.size ∧
        c.owner = if x ≤ ptr ∧ ptr < x + b.size then owner else b.owner) ∧
      ∀ x c, Uses a bs' x c → ∃ b, Uses a bs x b := by
  have hspans {xs : List Blk} {b : Blk} {ys : List Blk} (he : bs = xs ++ b :: ys) :
    spans ptr h (a + span xs) =
      decide (a + span xs ≤ ptr ∧ ptr < a + span xs + b.size) := by
    subst he
    rw [spans, hg.tiles.blk_end]
  -- no other block than the one that the search finds spans the address
  have hunchanged (hnone : ∀ x b, Uses a bs x b → ¬(x ≤ ptr ∧ ptr < x + b.size)) :
      ∀ x b, Uses a bs x b → ∃ c, Uses a bs x c ∧ c.size = b.size ∧
        c.owner = if x ≤ ptr ∧ ptr < x + b.size then owner else b.owner :=
    fun x b hb => ⟨b, hb, rfl, (if_neg (hnone x b hb)).symm⟩
  unfold Heap.ELF64_HeapOwn x64_blk_containing
  rcases search_tiles (t := spans ptr) hg.tiles with
    ⟨xs, b, ys, he, hw, hin⟩ | ⟨hw, hall⟩
  · rw [hspans he, decide_eq_true_eq] at hin
    subst he
    simp only [hw, hg.tiles.used_iff]
    by_cases hb : b.used = true
    · rw [if_pos hb]
      have hother (x : Nat) (c : Blk) (hc : Uses a (xs ++ b :: ys) x c) (hne : x ≠ a + span xs) :
          ¬(x ≤ ptr ∧ ptr < x + c.size) := by
        rcases placed_apart hc.1 (mem_placed (b := b)) with hsame | hapart | hapart
        · exact absurd hsame.1 hne
        · omega
        · omega
      have hkept (x : Nat) (c : Blk) (hc : Uses a (xs ++ b :: ys) x c) :
          ∃ d, Uses a (xs ++ ⟨b.size, true, owner⟩ :: ys) x d ∧ d.size = c.size ∧
            d.owner = if x ≤ ptr ∧ ptr < x + c.size then owner else c.owner := by
        by_cases hx : x = a + span xs
        · subst hx
          have hcb : c = b := hg.tiles.one_place hc.1 mem_placed
          subst hcb
          exact ⟨_, ⟨mem_placed, rfl⟩, rfl,
            (if_pos hin).symm⟩
        · refine ⟨c, ?_, rfl, (if_neg (hother x c hc hx)).symm⟩
          rw [uses_append, uses_cons] at hc ⊢
          rcases hc with hc | ⟨he, -, -⟩ | hc
          · exact .inl hc
          · exact absurd he hx
          · exact .inr (.inr hc)
      have hold (x : Nat) (d : Blk) (hd : Uses a (xs ++ ⟨b.size, true, owner⟩ :: ys) x d) :
          ∃ c, Uses a (xs ++ b :: ys) x c := by
        rw [uses_append, uses_cons] at hd
        rcases hd with hd | ⟨rfl, -, -⟩ | hd
        · exact ⟨d, uses_append.mpr (.inl hd)⟩
        · exact ⟨b, ⟨mem_placed, hb⟩⟩
        · exact ⟨d, uses_append.mpr (.inr (uses_cons.mpr (.inr hd)))⟩
      refine ⟨_, _, rfl, ⟨?_, ?_, ?_, ?_, ?_⟩, hkept, hold⟩
      · refine hg.tiles.stamp rfl rfl (get_put_same howner) ?_ fun x hx h32 _ => ?_
        · rw [Heap.get_put_field (by decide), hg.tiles.header.flags, Blk.flags, hb]
          rfl
        · have := hg.tiles.place.1
          exact le64_put_outside (by simp only [Field.off]; omega)
      · exact (noFreePair_used rfl).mpr hg.pairs.split
      · rw [Heap.put_live, hg.live, used_total_append, used_total_cons, used_total_append,
          used_total_cons, hb]
      · exact blank_insert (fun d hd => hg.blank d (mem_insert hd)) fun hu =>
          absurd hu.symm Bool.false_ne_true
      · intro x d hd
        obtain ⟨c, hc⟩ := hold x d hd
        exact hg.inside x c hc
    · rw [if_neg hb]
      refine ⟨h, _, rfl, hg, hunchanged fun x c hc => ?_, fun x b hb => ⟨b, hb⟩⟩
      rcases placed_apart hc.1 (mem_placed (b := b)) with ⟨-, rfl⟩ | hapart | hapart
      · exact absurd hc.2 hb
      · omega
      · omega
  · simp only [hw]
    refine ⟨h, bs, rfl, hg, hunchanged fun x b hb => ?_, fun x b hb => ⟨b, hb⟩⟩
    obtain ⟨xs, ys, he, rfl⟩ := placed_split hb.1
    have := hall _ b hb.1
    rwa [hspans he, decide_eq_false_iff_not] at this

end frees

end uaos.x64
