-- The x64 heap calls as changes of the list of blocks: an allocation or a reservation turns a
-- part of one free block into a used one, and a free gives one used block back.
import Uaos.X64Edits

namespace uaos.x64

open List Heap

/-! ## The invariant -/

/-- No two neighbours are both free. -/
def NoFreePair (bs : List Blk) : Prop := bs.IsChain fun b c => b.used = true ∨ c.used = true

/-- The used blocks with their addresses. -/
def Uses (a : Nat) (bs : List Blk) (x : Nat) (b : Blk) : Prop :=
  (x, b) ∈ placed a bs ∧ b.used = true

/-- The payloads of used blocks start before the end of the arena. -/
def Inside (A : Arena) (a : Nat) (bs : List Blk) : Prop := ∀ x b, Uses a bs x b → x + 48 < A.stop

/-- The state of the heap between two calls. -/
structure Good (A : Arena) (h : Heap) (a : Nat) (bs : List Blk) : Prop where
  tiles : Tiles A h a bs
  pairs : NoFreePair bs
  live : h.live = used_total bs
  blank : ∀ b ∈ bs, b.used = false → b.owner = 0
  inside : Inside A a bs

section lists

variable {A : Arena} {h h' : Heap} {a x : Nat} {b c n : Blk} {bs xs ys : List Blk}

lemma noFreePair_used (hn : n.used = true) :
    NoFreePair (xs ++ n :: ys) ↔ NoFreePair xs ∧ NoFreePair ys := by
  unfold NoFreePair
  rw [isChain_append, isChain_cons]
  constructor
  · rintro ⟨hx, ⟨-, hy⟩, -⟩
    exact ⟨hx, hy⟩
  rintro ⟨hx, hy⟩
  refine ⟨hx, ⟨fun c _ => .inl hn, hy⟩, fun c _ d hd => .inr ?_⟩
  cases hd
  exact hn

lemma NoFreePair.split (hp : NoFreePair (xs ++ b :: ys)) : NoFreePair xs ∧ NoFreePair ys := by
  unfold NoFreePair at *
  rw [isChain_append, isChain_cons] at hp
  exact ⟨hp.1, hp.2.1.2⟩

/-- Whether two neighbours are free depends on their flags only. -/
lemma NoFreePair.same_head (hp : NoFreePair (b :: ys)) (hc : c.used = b.used) :
    NoFreePair (c :: ys) := by
  unfold NoFreePair at *
  rw [isChain_cons] at *
  exact ⟨fun d hd => by rw [hc]; exact hp.1 d hd, hp.2⟩

lemma NoFreePair.same_last (hp : NoFreePair (xs ++ [b])) (hc : c.used = b.used) :
    NoFreePair (xs ++ [c]) := by
  unfold NoFreePair at *
  rw [isChain_append] at *
  refine ⟨hp.1, isChain_singleton c, fun d hd e he => ?_⟩
  cases he
  rw [hc]
  exact hp.2.2 d hd b rfl

lemma sized_mk {size owner : Nat} {used : Bool} (hmin : 48 ≤ size) (hs : 16 ∣ size) :
    (⟨size, used, owner⟩ : Blk).Sized := ⟨hmin, hs⟩

lemma uses_append : Uses a (xs ++ ys) x b ↔ Uses a xs x b ∨ Uses (a + span xs) ys x b := by
  unfold Uses
  rw [placed_append, mem_append]
  tauto

lemma uses_cons :
    Uses a (c :: bs) x b ↔ (x = a ∧ b = c ∧ c.used = true) ∨ Uses (a + c.size) bs x b := by
  unfold Uses
  rw [placed, mem_cons, Prod.mk.injEq]
  constructor
  · rintro ⟨⟨rfl, rfl⟩ | hb, hu⟩
    · exact .inl ⟨rfl, rfl, hu⟩
    · exact .inr ⟨hb, hu⟩
  · rintro (⟨rfl, rfl, hu⟩ | ⟨hb, hu⟩)
    · exact ⟨.inl ⟨rfl, rfl⟩, hu⟩
    · exact ⟨.inr hb, hu⟩

lemma uses_nil : ¬ Uses a [] x b := fun hb => by cases hb.1

lemma uses_free (hc : c.used = false) : Uses a (c :: bs) x b ↔ Uses (a + c.size) bs x b := by
  rw [uses_cons, hc]
  simp

lemma Tiles.headers (ht : Tiles A h a (xs ++ c :: b :: ys)) :
    Header h A.stop (last_at 0 a xs) (a + span xs) c ∧
      Header h A.stop (a + span xs) (a + span xs + c.size) b := by
  have hlay := ht.lay
  rw [lay_append] at hlay
  exact ⟨hlay.2.1, hlay.2.2.1⟩

lemma blank_insert (hblank : ∀ b ∈ xs ++ ys, b.used = false → b.owner = 0)
    (hn : n.used = false → n.owner = 0) : ∀ b ∈ xs ++ n :: ys, b.used = false → b.owner = 0 := by
  intro b hb
  rcases mem_append.mp hb with hb | hb
  · exact hblank b (mem_append_left _ hb)
  · rcases mem_cons.mp hb with rfl | hb
    · exact hn
    · exact hblank b (mem_append_right _ hb)

section

variable (ht : Tiles A h a (xs ++ b :: ys))

include ht

lemma Tiles.back (hne : a + span xs + b.size ≠ A.stop) :
    h.get .prev (a + span xs + b.size) = a + span xs := by
  have hlay := ht.lay
  rw [lay_append] at hlay
  obtain ⟨-, -, hy⟩ := hlay
  have hends := ht.ends
  rw [span_append, span_cons] at hends
  cases ys with
  | nil =>
    rw [span_nil] at hends
    omega
  | cons c ys => exact hy.1.prev

/-- The owner and the flags of a block are rewritten. -/
lemma Tiles.stamp (hsize : c.size = b.size)
    (hfirst : h'.first = h.first) (howner : h'.get .owner (a + span xs) = c.owner)
    (hflags : h'.get .flags (a + span xs) = c.flags)
    (hw : ∀ x, 8 ∣ x → x ≠ a + span xs + 32 → x ≠ a + span xs + 40 → le64 h'.mem x = le64 h.mem x) :
    Tiles A h' a (xs ++ c :: ys) := by
  obtain ⟨ha, -, hmin, hs, -⟩ := ht.place
  have hb := ht.header
  have hback := ht.back
  have hsized : c.Sized := by
    unfold Blk.Sized
    rw [hsize]
    exact ⟨hmin, hs⟩
  refine Tiles.edit [b] [c] ht (by simp [hsize]) (by simpa using hsized) hfirst ?_
  have hget (f : Field) (hf : f.off < 32) : h'.get f (a + span xs) = h.get f (a + span xs) := by
    have := f.off_spec
    exact hw _ (by omega) (by omega) (by omega)
  refine ⟨⟨⟨?_, ?_, ?_, ?_, howner, hflags⟩, trivial⟩, fun x hx hout _ => ?_, fun hne => ?_⟩
  · rw [hget _ (by decide), hb.magic]
  · rw [hget _ (by decide), hb.size, hsize]
  · rw [hget _ (by decide), hb.prev]
  · rw [hget _ (by decide), hb.next, hsize]
  · rw [span_cons, span_nil] at hout
    exact hw x hx (by omega) (by omega)
  · rw [span_cons, span_nil, add_zero] at hne ⊢
    exact (hw (a + span xs + b.size + 16) (by omega) (by omega) (by omega)).trans (hback hne)

/-- A block gets new flags and a new owner. -/
lemma Tiles.mark {fl live : Nat} (hsize : c.size = b.size)
    (hfl : fl = c.flags) (howner : c.owner < 2 ^ 64) :
    Tiles A (((h.put .flags (a + span xs) fl).put .owner (a + span xs) c.owner).set_live live) a
      (xs ++ c :: ys) := by
  have hlt : fl < 2 ^ 64 := by
    rw [hfl, Blk.flags]
    split <;> decide
  refine ht.stamp hsize rfl (get_put_same howner) ?_ fun x hx h32 h40 => ?_
  · rw [get_set_live, Heap.get_put_field (by decide), get_put_same hlt, hfl]
  · have := ht.place.1
    exact (le64_put_outside (by simp only [Field.off]; omega)).trans
      (le64_put_outside (by simp only [Field.off]; omega))

end

end lists

/-! ## Making a used block -/

/-- A heap in which the free block `c` is about to be used. -/
structure Slot (A : Arena) (h : Heap) (a : Nat) (xs : List Blk) (c : Blk) (ys : List Blk) :
    Prop where
  tiles : Tiles A h a (xs ++ c :: ys)
  free : c.used = false
  left : NoFreePair xs
  right : NoFreePair (c :: ys)
  live : h.live = used_total xs + used_total ys
  blank : ∀ b ∈ xs ++ ys, b.used = false → b.owner = 0
  inside : Inside A a (xs ++ c :: ys)

section slots

variable {A : Arena} {h : Heap} {a nbs need owner : Nat} {b c : Blk} {xs ys : List Blk}

lemma Good.slot (hg : Good A h a (xs ++ b :: ys)) (hb : b.used = false) : Slot A h a xs b ys := by
  have hx : NoFreePair xs := List.IsChain.left_of_append hg.pairs
  have hy : NoFreePair (b :: ys) := List.IsChain.right_of_append hg.pairs
  refine ⟨hg.tiles, hb, hx, hy, ?_, fun c hc => hg.blank c ?_, hg.inside⟩
  · rw [hg.live, used_total_append, used_total_cons, hb]
    simp
  · exact mem_insert hc

lemma Heap.cut_first {b nb size : Nat} : (h.cut b nb size).first = h.first := by simp [cut]

lemma Heap.cut_live {b nb size : Nat} : (h.cut b nb size).live = h.live := by simp [cut]

lemma Slot.cut (hs : Slot A h a xs c ys) (nbs : Nat) (hn : 16 ∣ nbs)
    (hlead : a + span xs + 48 ≤ nbs)
    (hroom : nbs + 48 ≤ a + span xs + c.size) :
    Tiles A (h.cut (a + span xs) nbs (nbs - (a + span xs))) a (xs ++
      ⟨nbs - (a + span xs), false, c.owner⟩ :: ⟨a + span xs + c.size - nbs, false, 0⟩ :: ys) := by
  obtain ⟨ha, -, hmin, hsize, hends⟩ := hs.tiles.place
  have hlt := A.stop_lt
  have hcut := cut_edit hs.tiles.header ha hn hsize hlead hroom (by omega) hlt
  rw [hs.free] at hcut
  refine Tiles.edit [c] [_, _] hs.tiles ?_ ?_ Heap.cut_first hcut
  · simp only [span_cons, span_nil]
    omega
  · rintro b (_ | ⟨_, _ | ⟨_, ⟨⟩⟩⟩)
    · exact sized_mk (by omega) (by omega)
    · exact sized_mk (by omega) (by omega)

lemma Tiles.take (ht : Tiles A h a (xs ++ c :: ys)) (hfree : c.used = false)
    (howner : owner < 2 ^ 64) :
    Tiles A (h.take (a + span xs) owner) a (xs ++ ⟨c.size, true, owner⟩ :: ys) := by
  have hflags : h.get .flags (a + span xs) = 0 := by rw [ht.header.flags, Blk.flags, hfree]; rfl
  exact ht.mark (c := ⟨c.size, true, owner⟩) rfl (by rw [hflags]; rfl) howner

lemma Tiles.take_live (ht : Tiles A h a (xs ++ c :: ys)) :
    (h.take (a + span xs) owner).live = u64 (h.live + c.size) := by
  unfold Heap.take
  rw [Heap.set_live_live, Heap.get_put_field (by decide), Heap.get_put_field (by decide),
    ht.header.size, Heap.put_live, Heap.put_live]

lemma Slot.inside_after {n : Blk} {zs : List Blk} (hs : Slot A h a xs c ys)
    (hin : a + span xs + 48 < A.stop)
    (hzs : ∀ x b, Uses (a + span xs + n.size) zs x b ↔ Uses (a + span xs + c.size) ys x b) :
    Inside A a (xs ++ n :: zs) := by
  intro x b hb
  rw [uses_append, uses_cons, hzs] at hb
  rcases hb with hb | ⟨rfl, -, -⟩ | hb
  · exact hs.inside x b (uses_append.mpr (.inl hb))
  · exact hin
  · exact hs.inside x b (uses_append.mpr (.inr ((uses_free hs.free).mpr hb)))

/-- The free block becomes a used one of at least `need` bytes, with a free tail if there is
enough left for one. -/
lemma Slot.occupy (hs : Slot A h a xs c ys) (hneed : 48 ≤ need) (hfit : need ≤ c.size)
    (hcut : 16 ∣ need ∨ c.size < need + 64) (howner : owner < 2 ^ 64)
    (hin : a + span xs + 48 < A.stop) : ∃ s zs, need ≤ s ∧ s ≤ c.size ∧
      Good A ((h.x64_split_tail (a + span xs) need).take (a + span xs) owner) a
        (xs ++ ⟨s, true, owner⟩ :: zs) ∧
      ∀ x b, Uses (a + span xs + s) zs x b ↔ Uses (a + span xs + c.size) ys x b := by
  obtain ⟨ha, -, hmin, hsize, hends⟩ := hs.tiles.place
  have hlt := A.stop_lt
  have hlive : h.live = used_total xs + used_total ys := hs.live
  have hle : used_total xs + used_total ys + c.size < 2 ^ 64 := by
    have := used_total_le xs
    have := used_total_le ys
    omega
  have hend : h.x64_blk_end (a + span xs) = a + span xs + c.size :=
    Heap.Header.blk_end hs.tiles.header (by omega)
  have htail : sub64 (a + span xs + c.size) (a + span xs + need) = c.size - need := by
    rw [sub64_of_le (by omega) (by omega)]
    omega
  unfold x64_split_tail
  simp only [hend, u64_of_lt (show a + span xs + need < 2 ^ 64 by omega), htail]
  by_cases hmore : c.size - need < X64_MIN_SPLIT
  · rw [if_pos hmore]
    refine ⟨c.size, ys, hfit, le_refl _, ⟨hs.tiles.take hs.free howner, ?_, ?_, ?_, ?_⟩,
      fun x b => Iff.rfl⟩
    · exact (noFreePair_used rfl).mpr ⟨hs.left, (isChain_cons.mp hs.right).2⟩
    · rw [hs.tiles.take_live, hlive, u64_of_lt hle, used_total_append, used_total_cons, if_pos rfl]
      simp only
      omega
    · exact blank_insert hs.blank fun hu => absurd hu.symm Bool.false_ne_true
    · exact hs.inside_after hin fun x b => Iff.rfl
  rw [if_neg hmore]
  unfold X64_MIN_SPLIT X64_BLK_HDR at hmore
  have hneed' : need = a + span xs + need - (a + span xs) := by omega
  have hrest : a + span xs + c.size - (a + span xs + need) = c.size - need := by omega
  have ht := hs.cut (a + span xs + need) (by omega) (by omega) (by omega)
  rw [← hneed', hrest] at ht
  have hrest (x : Nat) (b : Blk) : Uses (a + span xs + need) (⟨c.size - need, false, 0⟩ :: ys) x b ↔
      Uses (a + span xs + c.size) ys x b := by
    rw [uses_free rfl]
    rw [show a + span xs + need + (c.size - need) = a + span xs + c.size by omega]
  refine ⟨need, ⟨c.size - need, false, 0⟩ :: ys, le_refl _, hfit,
    ⟨ht.take rfl howner, ?_, ?_, ?_, ?_⟩, hrest⟩
  · exact (noFreePair_used rfl).mpr ⟨hs.left, hs.right.same_head hs.free.symm⟩
  · have hless : used_total xs + used_total ys + need < 2 ^ 64 := by omega
    rw [ht.take_live, Heap.cut_live, hlive, u64_of_lt hless, used_total_append,
      used_total_cons, used_total_cons, if_pos rfl, if_neg Bool.false_ne_true]
    simp only
    omega
  · exact blank_insert (blank_insert hs.blank fun _ => rfl) fun hu =>
      absurd hu.symm Bool.false_ne_true
  · exact hs.inside_after hin hrest

/-- The used blocks are the same ones, of at least the size that they had. -/
structure Grown (a : Nat) (xs : List Blk) (a' : Nat) (xs' : List Blk) : Prop where
  kept : ∀ x b, Uses a xs x b → ∃ c, Uses a' xs' x c ∧ b.size ≤ c.size ∧ c.owner = b.owner
  old : ∀ x c, Uses a' xs' x c → ∃ b, Uses a xs x b

lemma Grown.refl (a : Nat) (xs : List Blk) : Grown a xs a xs :=
  ⟨fun _ b hb => ⟨b, hb, le_refl _, rfl⟩, fun _ b hb => ⟨b, hb⟩⟩

/-- A block in front of the place is left free if it has room for a header. -/
lemma Good.split_lead (hg : Good A h a (xs ++ b :: ys)) (hb : b.used = false) (hn : 16 ∣ nbs)
    (hlead : a + span xs + 48 ≤ nbs) (hroom : nbs + 48 ≤ a + span xs + b.size) :
    ∃ xs', Slot A (h.x64_split_lead (a + span xs) nbs) a xs'
        ⟨a + span xs + b.size - nbs, false, 0⟩ ys ∧ a + span xs' = nbs ∧ Grown a xs a xs' := by
  have hslot := hg.slot hb
  have hb0 : b.owner = 0 := hg.blank b (mem_append_cons_self) hb
  have hlt := A.stop_lt
  have hends := hg.tiles.place.2.2.2.2
  have ht := hslot.cut nbs hn hlead hroom
  rw [x64_split_lead, sub64_of_le (by omega) (by omega)]
  refine ⟨xs ++ [⟨nbs - (a + span xs), false, b.owner⟩], ⟨?_, rfl, ?_, ?_, ?_, ?_, ?_⟩, ?_, ?_, ?_⟩
  · rw [append_assoc]
    exact ht
  · exact NoFreePair.same_last (isChain_split.mp hg.pairs).1 hb.symm
  · exact hslot.right.same_head hb.symm
  · rw [Heap.cut_live, hslot.live, used_total_append, used_total_cons, if_neg Bool.false_ne_true]
    simp
  · rw [append_assoc]
    exact blank_insert hslot.blank fun _ => hb0
  · intro x c hc
    refine hg.inside x c ?_
    rw [append_assoc, uses_append, singleton_append, uses_free rfl, uses_free rfl] at hc
    rw [uses_append, uses_free hb]
    rwa [show a + span xs + (nbs - (a + span xs)) + (a + span xs + b.size - nbs)
      = a + span xs + b.size by omega] at hc
  · rw [span_append, span_cons, span_nil]
    simp only
    omega
  · intro x c hc
    exact ⟨c, uses_append.mpr (.inl hc), le_refl _, rfl⟩
  · intro x c hc
    rw [uses_append, uses_free rfl] at hc
    exact ⟨c, hc.resolve_right uses_nil⟩

/-- The used block before the place grows over a gap of 32 bytes. -/
lemma Good.absorb (hg : Good A h a (xs ++ c :: b :: ys)) (hb : b.used = false)
    (hroom : 80 ≤ b.size) :
    Slot A (h.x64_absorb_sliver (a + span xs + c.size) (a + span xs + c.size + 32)) a
        (xs ++ [⟨c.size + 32, c.used, c.owner⟩]) ⟨b.size - 32, false, 0⟩ ys ∧
      Grown a (xs ++ [c]) a (xs ++ [⟨c.size + 32, c.used, c.owner⟩]) := by
  obtain ⟨ha, hlow, hcmin, hcsize, hends⟩ := hg.tiles.place
  obtain ⟨hhc, hhb⟩ := hg.tiles.headers
  have hbsize : 16 ∣ b.size :=
    (hg.tiles.sized b (mem_append_right _ (mem_cons_of_mem _ mem_cons_self))).2
  obtain ⟨hleft, hright⟩ := isChain_split.mp hg.pairs
  have hcused : c.used = true := by
    have := (isChain_cons_cons.mp hright).1
    rw [hb] at this
    exact this.resolve_right Bool.false_ne_true
  have hlt := A.stop_lt
  have hpos := A.low
  rw [span_cons] at hends
  have hedit := absorb_edit hhc hhb ha hcsize hbsize hcmin hroom (by omega)
    (show _ ≤ A.stop by omega) hlt
  obtain ⟨hfirst, hlive⟩ := absorb_first hhc hhb hcmin (by omega) hroom (by omega)
  have hold : h.live = used_total xs + c.size + used_total ys := by
    rw [hg.live, used_total_append, used_total_cons, used_total_cons, hcused, hb, if_pos rfl,
      if_neg Bool.false_ne_true]
    omega
  have hle := used_total_le xs
  have hle' := used_total_le ys
  have hgrown : Grown a (xs ++ [c]) a (xs ++ [⟨c.size + 32, c.used, c.owner⟩]) := by
    constructor
    · intro x d hd
      rw [uses_append, uses_cons] at hd
      rcases hd with hd | ⟨rfl, rfl, hu⟩ | hd
      · exact ⟨d, uses_append.mpr (.inl hd), le_refl _, rfl⟩
      · exact ⟨_, ⟨mem_placed, hu⟩,
          le_self_add, rfl⟩
      · exact absurd hd uses_nil
    · intro x d hd
      rw [uses_append, uses_cons] at hd
      rcases hd with hd | ⟨rfl, rfl, hu⟩ | hd
      · exact ⟨d, uses_append.mpr (.inl hd)⟩
      · exact ⟨c, ⟨mem_placed, hu⟩⟩
      · exact absurd hd uses_nil
  refine ⟨⟨?_, rfl, NoFreePair.same_last hleft rfl, ?_, ?_, ?_, ?_⟩, hgrown⟩
  · rw [append_assoc]
    refine Tiles.edit [c, b] [_, _] hg.tiles ?_ ?_ hfirst ?_
    · simp only [span_cons, span_nil]
      omega
    · rintro d (_ | ⟨_, _ | ⟨_, ⟨⟩⟩⟩)
      · exact sized_mk (by omega) (by omega)
      · exact sized_mk (by omega) (by omega)
    · simp only [span_cons, span_nil, add_zero, ← add_assoc]
      exact hedit
  · exact NoFreePair.same_head (isChain_cons_cons.mp hright).2 hb.symm
  · rw [hlive, hcused, if_pos rfl, hold, u64_of_lt (by omega), used_total_append, used_total_cons,
      if_pos rfl]
    simp only [used_total_nil]
    omega
  · rw [append_assoc]
    exact blank_insert (fun d hd => hg.blank d (mem_insert (mem_insert hd)))
      (hg.blank c mem_append_cons_self)
  · intro x d hd
    rw [uses_append, uses_free rfl] at hd
    rcases hd with hd | hd
    · obtain ⟨d', hd'⟩ := hgrown.old x d hd
      rw [uses_append, uses_cons] at hd'
      refine hg.inside x d' ?_
      rw [uses_append, uses_cons]
      rcases hd' with hd' | hd' | hd'
      · exact .inl hd'
      · exact .inr (.inl hd')
      · exact absurd hd' uses_nil
    · refine hg.inside x d ?_
      rw [uses_append, uses_cons, uses_free hb]
      refine .inr (.inr ?_)
      rw [span_append, span_cons, span_nil] at hd
      rwa [show a + (span xs + (c.size + 32 + 0)) + (b.size - 32)
        = a + span xs + c.size + b.size by omega] at hd

/-- The bytes of the gap are lost if there is no block before the place. -/
lemma Good.absorb_head (hg : Good A h a (b :: ys)) (hb : b.used = false) (hroom : 80 ≤ b.size) :
    Slot A (h.x64_absorb_sliver a (a + 32)) (a + 32) [] ⟨b.size - 32, false, 0⟩ ys := by
  have hslot : Slot A h a [] b ys := (show Good A h a ([] ++ b :: ys) from hg).slot hb
  obtain ⟨hhb, hlay⟩ := hg.tiles.lay
  have hends := hg.tiles.ends
  rw [span_cons] at hends
  have hbsize : 16 ∣ b.size := (hg.tiles.sized b mem_cons_self).2
  have hys : ∀ c ∈ ys, c.Sized := (forall_mem_cons.mp hg.tiles.sized).2
  have ha := hg.tiles.aligned
  have hlow := hg.tiles.low
  obtain ⟨hheader, hframe, hback, hfirst, hlive⟩ :=
    Heap.absorb_head hhb ha hbsize hroom (by omega) A.stop_lt
  refine ⟨⟨hfirst, by omega, by omega, by omega, ⟨hheader, ?_⟩, ?_, ?_⟩, rfl, hslot.left,
    hslot.right.same_head hb.symm, hlive.trans hslot.live, hslot.blank, ?_⟩
  · simp only [show a + 32 + (b.size - 32) = a + b.size by omega]
    exact hlay.after (by omega) hys (by omega) hback hframe
  · rw [nil_append, span_cons]
    simp only
    omega
  · rintro c (_ | ⟨_, hc⟩)
    · exact sized_mk (by omega) (by omega)
    · exact hys c hc
  intro x c hc
  refine hg.inside x c ?_
  rw [nil_append, uses_free rfl] at hc
  rw [uses_free hb]
  rwa [show a + 32 + (b.size - 32) = a + b.size by omega] at hc

/-- A free block is ready at the place, whatever lies in front of it. -/
lemma Good.carve (hg : Good A h a (xs ++ b :: ys)) (hb : b.used = false) (hn : 16 ∣ nbs)
    (hlow : a + span xs ≤ nbs) (hgap : nbs ≠ a + span xs + 16)
    (hroom : nbs + 48 ≤ a + span xs + b.size) :
    ∃ a' xs', Slot A (h.carve (a + span xs) nbs) a' xs' ⟨a + span xs + b.size - nbs, false, 0⟩ ys ∧
      a' + span xs' = nbs ∧ Grown a xs a' xs' := by
  obtain ⟨ha, -, hmin, hsize, -⟩ := hg.tiles.place
  have hb0 : b.owner = 0 := hg.blank b (mem_append_cons_self) hb
  unfold Heap.carve X64_BLK_HDR
  by_cases hlead : a + span xs < nbs
  · rw [if_pos hlead]
    by_cases hsplit : 48 ≤ nbs - (a + span xs)
    · rw [if_pos hsplit]
      obtain ⟨xs', hslot, hplace, hgrown⟩ := hg.split_lead hb hn (by omega) hroom
      exact ⟨a, xs', hslot, hplace, hgrown⟩
    rw [if_neg hsplit]
    have hnbs : nbs = a + span xs + 32 := by omega
    have hrest : a + span xs + b.size - nbs = b.size - 32 := by omega
    rw [hrest, hnbs]
    rcases eq_nil_or_concat xs with rfl | ⟨zs, c, rfl⟩
    · refine ⟨a + 32, [], ?_, rfl, fun x c hc => absurd hc uses_nil,
        fun x c hc => absurd hc uses_nil⟩
      exact hg.absorb_head hb (by rw [span_nil] at hnbs; omega)
    have hg' : Good A h a (zs ++ c :: b :: ys) := by
      simpa only [concat_eq_append, append_assoc, singleton_append] using hg
    obtain ⟨hslot, hgrown⟩ := hg'.absorb hb (by omega)
    rw [concat_eq_append] at hnbs ⊢
    rw [span_append, span_cons, span_nil, add_zero, ← add_assoc]
    refine ⟨a, zs ++ [⟨c.size + 32, c.used, c.owner⟩], hslot, ?_, hgrown⟩
    rw [span_append, span_cons, span_nil]
    simp only
    omega
  · have hnbs : nbs = a + span xs := by omega
    have hsame : (⟨a + span xs + b.size - nbs, false, 0⟩ : Blk) = b := by
      rw [hnbs, Nat.add_sub_cancel_left, ← hb, ← hb0]
    rw [if_neg hlead, hsame]
    exact ⟨a, xs, hg.slot hb, hnbs.symm, .refl a xs⟩

end slots

end uaos.x64
