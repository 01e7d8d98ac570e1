-- The blocks of the x64 heap as one list in address order. A change of the heap is local: it
-- rewrites the headers of a few neighbours and the back link of the block after them.
import Uaos.X64Heap
import Mathlib.Tactic

namespace uaos.x64

open List

/-! ## Reading what was written -/

section words

variable {h : Heap} {f g : Field} {a b v x : Nat}

lemma Field.off_spec (f : Field) : 8 ∣ f.off ∧ f.off ≤ 40 := by cases f <;> decide

lemma Field.off_ne (hne : g ≠ f) : g.off + 8 ≤ f.off ∨ f.off + 8 ≤ g.off := by
  cases f <;> cases g <;> first | exact absurd rfl hne | decide

lemma word_put (hx : x + 8 ≤ a ∨ a + 48 ≤ x) : le64 (h.put f a v).mem x = le64 h.mem x := by
  have := f.off_spec
  exact le64_put_outside (by omega)

namespace Heap

lemma get_put_same (hv : v < 2 ^ 64) : (h.put f a v).get f a = v := le64_put_same hv

lemma get_put_field (hne : g ≠ f) : (h.put f a v).get g a = h.get g a := by
  have := Field.off_ne hne
  exact le64_put_outside (by omega)

lemma get_put_apart (hab : a + 48 ≤ b ∨ b + 48 ≤ a) : (h.put f a v).get g b = h.get g b := by
  have := g.off_spec
  exact word_put (by omega)

/-- A header 32 bytes further on covers the last two fields of a header only. -/
lemma get_put_over (hg : g.off < 32) : (h.put f (b + 32) v).get g b = h.get g b := by
  have := g.off_spec
  exact word_put (by omega)

lemma get_put_under (hf : f.off < 32) : (h.put f b v).get g (b + 32) = h.get g (b + 32) := by
  have := f.off_spec
  exact le64_put_outside (by omega)

@[simp] lemma get_set_live : (h.set_live v).get f a = h.get f a := rfl

@[simp] lemma get_set_first : (h.set_first v).get f a = h.get f a := rfl

@[simp] lemma set_live_mem : (h.set_live v).mem = h.mem := rfl

@[simp] lemma set_first_mem : (h.set_first v).mem = h.mem := rfl

@[simp] lemma set_live_first : (h.set_live v).first = h.first := rfl

@[simp] lemma set_live_live : (h.set_live v).live = v := rfl

@[simp] lemma set_first_first : (h.set_first v).first = v := rfl

@[simp] lemma set_first_live : (h.set_first v).live = h.live := rfl

@[simp] lemma put_first : (h.put f a v).first = h.first := rfl

@[simp] lemma put_live : (h.put f a v).live = h.live := rfl

end Heap

end words

/-- The link to the block at `a`, NULL at the end of the arena. -/
def link (stop a : Nat) : Nat := if a = stop then 0 else a

section back_links

variable {h : Heap} {g : Field} {stop hi a v x : Nat}

namespace Heap

@[simp] lemma link_back_first : (h.link_back a v).first = h.first := by
  unfold link_back
  split <;> rfl

@[simp] lemma link_back_live : (h.link_back a v).live = h.live := by
  unfold link_back
  split <;> rfl

lemma word_link_back (hx : x + 8 ≤ hi + 16 ∨ hi + 24 ≤ x) :
    le64 (h.link_back (link stop hi) v).mem x = le64 h.mem x := by
  unfold link link_back
  split
  · rfl
  · split
    · rfl
    · exact le64_put_outside hx

lemma get_link_back (hx : hi + 48 ≤ x ∨ x + 48 ≤ hi) :
    (h.link_back (link stop hi) v).get g x = h.get g x := by
  have := g.off_spec
  exact word_link_back (by omega)

lemma get_link_back_prev (hhi : hi ≠ stop) (h0 : hi ≠ 0) (hv : v < 2 ^ 64) :
    (h.link_back (link stop hi) v).get .prev hi = v := by
  rw [link, if_neg hhi, link_back, if_neg h0, get_put_same hv]

end Heap

end back_links

/-! ## The list of blocks -/

structure Blk where
  size : Nat
  used : Bool
  owner : Nat

def Blk.flags (b : Blk) : Nat := if b.used then X64_BLK_F_USED else 0

/-- The header at `a` is that of the block `b` with the block at `p` before it. -/
structure Header (h : Heap) (stop p a : Nat) (b : Blk) : Prop where
  magic : h.get .magic a = X64_BLK_MAGIC
  size : h.get .size a = b.size
  prev : h.get .prev a = p
  next : h.get .next a = link stop (a + b.size)
  owner : h.get .owner a = b.owner
  flags : h.get .flags a = b.flags

/-- The blocks `bs` lie one after the other from `a` on. -/
def Lay (h : Heap) (stop : Nat) : Nat → Nat → List Blk → Prop
  | _, _, [] => True
  | p, a, b :: bs => Header h stop p a b ∧ Lay h stop a (a + b.size) bs

def span (bs : List Blk) : Nat := (bs.map Blk.size).sum

/-- The bytes in used blocks. -/
def used_total (bs : List Blk) : Nat := ((bs.filter Blk.used).map Blk.size).sum

/-- The address of the last of the blocks, `p` if there is none. -/
def last_at : Nat → Nat → List Blk → Nat
  | p, _, [] => p
  | _, a, b :: bs => last_at a (a + b.size) bs

/-- The blocks with their addresses. -/
def placed : Nat → List Blk → List (Nat × Blk)
  | _, [] => []
  | a, b :: bs => (a, b) :: placed (a + b.size) bs

/-- A block has room for its header, and its size is a multiple of 16. -/
def Blk.Sized (b : Blk) : Prop := X64_BLK_HDR ≤ b.size ∧ 16 ∣ b.size

section lists

variable {h h' : Heap} {stop p q a : Nat} {b c : Blk} {bs xs ys : List Blk}

@[simp] lemma span_nil : span [] = 0 := rfl

@[simp] lemma span_cons : span (b :: bs) = b.size + span bs := rfl

@[simp] lemma span_append : span (xs ++ ys) = span xs + span ys := by simp [span]

@[simp] lemma used_total_nil : used_total [] = 0 := rfl

@[simp] lemma used_total_cons :
    used_total (b :: bs) = (if b.used then b.size else 0) + used_total bs := by
  unfold used_total
  by_cases hb : b.used <;> simp [hb]

@[simp] lemma used_total_append : used_total (xs ++ ys) = used_total xs + used_total ys := by
  simp [used_total]

lemma used_total_le (bs : List Blk) : used_total bs ≤ span bs := by
  induction bs with
  | nil => exact le_refl _
  | cons b bs ih =>
    rw [used_total_cons, span_cons]
    split <;> omega

lemma span_aligned (hs : ∀ b ∈ bs, b.Sized) : 16 ∣ span bs := by
  induction bs with
  | nil => exact dvd_zero 16
  | cons b bs ih =>
    have hb := (hs b mem_cons_self).2
    have hrest := ih fun c hc => hs c (mem_cons_of_mem b hc)
    rw [span_cons]
    omega

lemma length_le_span (hs : ∀ b ∈ bs, b.Sized) : bs.length ≤ span bs := by
  induction bs with
  | nil => exact le_refl _
  | cons b bs ih =>
    have hb : 48 ≤ b.size := (hs b mem_cons_self).1
    have hrest := ih fun c hc => hs c (mem_cons_of_mem b hc)
    rw [span_cons, length_cons]
    omega

@[simp] lemma last_at_append :
    last_at p a (xs ++ ys) = last_at (last_at p a xs) (a + span xs) ys := by
  induction xs generalizing p a with
  | nil => rfl
  | cons b xs ih =>
    rw [cons_append, last_at, last_at, ih, span_cons, add_assoc]

@[simp] lemma placed_append : placed a (xs ++ ys) = placed a xs ++ placed (a + span xs) ys := by
  induction xs generalizing a with
  | nil => rfl
  | cons b xs ih => rw [cons_append, placed, placed, ih, span_cons, add_assoc, cons_append]

lemma lay_append : Lay h stop p a (xs ++ ys) ↔
    Lay h stop p a xs ∧ Lay h stop (last_at p a xs) (a + span xs) ys := by
  induction xs generalizing p a with
  | nil => exact (iff_of_eq (true_and _)).symm
  | cons b xs ih =>
    rw [cons_append, Lay, ih, Lay, last_at, span_cons, and_assoc, add_assoc]

lemma placed_split {x : Nat} (hx : (x, b) ∈ placed a bs) :
    ∃ xs ys, bs = xs ++ b :: ys ∧ x = a + span xs := by
  induction bs generalizing a with
  | nil => cases hx
  | cons c bs ih =>
    rcases mem_cons.mp hx with he | hx
    · cases he
      exact ⟨[], bs, rfl, rfl⟩
    · obtain ⟨xs, ys, rfl, rfl⟩ := ih hx
      exact ⟨c :: xs, ys, rfl, by rw [span_cons, add_assoc]⟩

lemma mem_placed : (a + span xs, b) ∈ placed a (xs ++ b :: ys) := by
  rw [placed_append, placed]
  exact mem_append_cons_self

lemma mem_insert (hc : c ∈ xs ++ ys) : c ∈ xs ++ b :: ys :=
  ((sublist_cons_self b ys).append_left xs).subset hc

/-- Two blocks of the list are the same one or lie apart. -/
lemma placed_apart {x y : Nat} (hx : (x, b) ∈ placed a bs) (hy : (y, c) ∈ placed a bs) :
    x = y ∧ b = c ∨ x + b.size ≤ y ∨ y + c.size ≤ x := by
  obtain ⟨xs, ys, rfl, rfl⟩ := placed_split hx
  rw [placed_append, placed, mem_append, mem_cons] at hy
  rcases hy with hy | hy | hy
  · obtain ⟨us, vs, rfl, rfl⟩ := placed_split hy
    refine .inr (.inr ?_)
    rw [span_append, span_cons]
    omega
  · cases hy
    exact .inl ⟨rfl, rfl⟩
  · obtain ⟨us, vs, rfl, rfl⟩ := placed_split hy
    refine .inr (.inl ?_)
    omega

/-! ## Changes of a part of the list -/

lemma Header.set_prev (hb : Header h stop p a b) (hprev : h'.get .prev a = q)
    (hget : ∀ f, f ≠ .prev → h'.get f a = h.get f a) : Header h' stop q a b := by
  constructor
  · rw [hget .magic (by decide), hb.magic]
  · rw [hget .size (by decide), hb.size]
  · exact hprev
  · rw [hget .next (by decide), hb.next]
  · rw [hget .owner (by decide), hb.owner]
  · rw [hget .flags (by decide), hb.flags]

lemma Header.same (hb : Header h stop p a b) (hget : ∀ f, h'.get f a = h.get f a) :
    Header h' stop p a b := hb.set_prev ((hget .prev).trans hb.prev) fun f _ => hget f

/-- A layout is kept by changes that leave the words of its headers alone. -/
lemma Lay.keep (hl : Lay h stop p a bs)
    (hget : ∀ y c, (y, c) ∈ placed a bs → ∀ f, h'.get f y = h.get f y) : Lay h' stop p a bs := by
  induction bs generalizing p a with
  | nil => trivial
  | cons b bs ih =>
    obtain ⟨hb, hl⟩ := hl
    exact ⟨hb.same (hget a b mem_cons_self), ih hl fun y c hc => hget y c (mem_cons_of_mem _ hc)⟩

end lists

/-- The heap `h'` is `h` with the part from `lo` to `hi` laid out as `mid`. Other blocks keep
their headers, except that the block at `hi` has the last one of `mid` before it. -/
structure Edit (h h' : Heap) (stop p lo hi : Nat) (mid : List Blk) : Prop where
  lay : Lay h' stop p lo mid
  frame : ∀ x, 8 ∣ x → x < lo ∨ hi ≤ x → x ≠ hi + 16 → le64 h'.mem x = le64 h.mem x
  back : hi ≠ stop → h'.get .prev hi = last_at p lo mid

section edits

variable {h h' : Heap} {stop p q a lo hi : Nat} {b : Blk} {bs xs ys mid mid' : List Blk}

/-- Changes outside of a part of the list do not touch it. -/
lemma Lay.apart (hl : Lay h stop p a bs) (ha : 8 ∣ a) (hs : ∀ b ∈ bs, b.Sized)
    (hw : ∀ x, 8 ∣ x → a ≤ x → x < a + span bs → le64 h'.mem x = le64 h.mem x) :
    Lay h' stop p a bs := by
  refine hl.keep fun y c hc f => ?_
  obtain ⟨xs, ys, rfl, rfl⟩ := placed_split hc
  have hx := span_aligned fun b hb => hs b (mem_append_left _ hb)
  have hc48 : 48 ≤ c.size := (hs c mem_append_cons_self).1
  rw [span_append, span_cons] at hw
  have := f.off_spec
  exact hw _ (by omega) (by omega) (by omega)

/-- The blocks after the changed part have a new block before them. -/
lemma Lay.after (hl : Lay h stop p hi bs) (hhi : 8 ∣ hi) (hs : ∀ b ∈ bs, b.Sized)
    (hend : hi + span bs = stop) (hback : hi ≠ stop → h'.get .prev hi = q)
    (hw : ∀ x, 8 ∣ x → hi ≤ x → x ≠ hi + 16 → le64 h'.mem x = le64 h.mem x) :
    Lay h' stop q hi bs := by
  cases bs with
  | nil => trivial
  | cons b bs =>
    obtain ⟨hb, hl⟩ := hl
    obtain ⟨hmin, hsize⟩ : 48 ≤ b.size ∧ 16 ∣ b.size := hs b mem_cons_self
    rw [span_cons] at hend
    refine ⟨hb.set_prev (hback (by omega)) fun f hf => ?_, ?_⟩
    · have := f.off_spec
      refine hw _ (by omega) (by omega) ?_
      cases f <;> first | exact absurd rfl hf | (simp only [Field.off]; omega)
    · refine hl.apart (by omega) (fun c hc => hs c (mem_cons_of_mem b hc)) ?_
      exact fun x hx hax _ => hw x hx (by omega) (by omega)

end edits

/-! ## The arena -/

/-- Where the linker puts the arena. -/
structure Arena where
  heap0 : Nat
  aligned : 16 ∣ heap0
  low : 0 < heap0
  high : heap0 + X64_HEAP_SIZE ≤ 2 ^ 32

def Arena.stop (A : Arena) : Nat := A.heap0 + X64_HEAP_SIZE

/-- The blocks tile the arena from the first one, at `a`, to its end. -/
structure Tiles (A : Arena) (h : Heap) (a : Nat) (bs : List Blk) : Prop where
  first : h.first = a
  low : A.heap0 ≤ a
  start : a < A.stop
  aligned : 16 ∣ a
  lay : Lay h A.stop 0 a bs
  ends : a + span bs = A.stop
  sized : ∀ b ∈ bs, b.Sized

section tiles

variable {A : Arena} {h h' : Heap} {a : Nat} {b : Blk} {bs xs ys : List Blk}

lemma Arena.stop_lt (A : Arena) : A.stop ≤ 2 ^ 32 := A.high

/-- The middle of the list can be changed on its own. -/
lemma Tiles.edit (mid mid' : List Blk) (ht : Tiles A h a (xs ++ (mid ++ ys)))
    (hspan : span mid' = span mid)
    (hsized : ∀ b ∈ mid', b.Sized) (hfirst : h'.first = h.first)
    (he : Edit h h' A.stop (last_at 0 a xs) (a + span xs) (a + span xs + span mid) mid') :
    Tiles A h' a (xs ++ (mid' ++ ys)) := by
  have hends := ht.ends
  rw [span_append, span_append] at hends
  have hlay := ht.lay
  rw [lay_append, lay_append] at hlay
  obtain ⟨hx, -, hy⟩ := hlay
  have hsx : ∀ b ∈ xs, b.Sized := fun b hb => ht.sized b (mem_append_left _ hb)
  have hsm : ∀ b ∈ mid, b.Sized := fun b hb =>
    ht.sized b (mem_append_right _ (mem_append_left _ hb))
  have hsy : ∀ b ∈ ys, b.Sized := fun b hb =>
    ht.sized b (mem_append_right _ (mem_append_right _ hb))
  have ha := ht.aligned
  have hxa := span_aligned hsx
  have hma := span_aligned hsm
  refine ⟨hfirst.trans ht.first, ht.low, ht.start, ha, ?_, by rw [span_append, span_append]; omega,
    ?_⟩
  · rw [lay_append, lay_append]
    refine ⟨hx.apart (by omega) hsx ?_, he.lay, ?_⟩
    · exact fun x hx _ hlo => he.frame x hx (.inl hlo) (by omega)
    · rw [hspan]
      refine hy.after (by omega) hsy (by omega) he.back ?_
      exact fun x hx hhi hne => he.frame x hx (.inr hhi) hne
  · intro b hb
    rcases mem_append.mp hb with hb | hb
    · exact hsx b hb
    · rcases mem_append.mp hb with hb | hb
      · exact hsized b hb
      · exact hsy b hb

/-- A block of the list, with its neighbours. -/
lemma Tiles.header (ht : Tiles A h a (xs ++ b :: ys)) :
    Header h A.stop (last_at 0 a xs) (a + span xs) b := by
  have hlay := ht.lay
  rw [lay_append] at hlay
  exact hlay.2.1

/-- Where a block of the list lies. -/
lemma Tiles.place (ht : Tiles A h a (xs ++ b :: ys)) :
    16 ∣ a + span xs ∧ A.heap0 ≤ a + span xs ∧ 48 ≤ b.size ∧ 16 ∣ b.size ∧
      a + span xs + b.size + span ys = A.stop := by
  have hends := ht.ends
  rw [span_append, span_cons] at hends
  have hx := span_aligned fun b hb => ht.sized b (mem_append_left _ hb)
  obtain ⟨hmin, hsize⟩ : 48 ≤ b.size ∧ 16 ∣ b.size := ht.sized b (mem_append_cons_self)
  have := ht.aligned
  have := ht.low
  exact ⟨by omega, by omega, hmin, hsize, by omega⟩

end tiles

/-! ## Walks over the blocks -/

section walks

variable {A : Arena} {h : Heap} {stop p a n : Nat} {b : Blk} {bs xs ys : List Blk}
  {t : Heap → Nat → Bool}

namespace Heap

lemma seek_lay (hl : Lay h stop p a bs) (ha : 0 < a) (hs : ∀ b ∈ bs, b.Sized)
    (hend : a + span bs = stop) (hn : bs.length < n) :
    (∃ xs b ys, bs = xs ++ b :: ys ∧ h.seek t n (link stop a) = some (some (a + span xs)) ∧
      t h (a + span xs) = true) ∨
    h.seek t n (link stop a) = some none ∧ ∀ x b, (x, b) ∈ placed a bs → t h x = false := by
  induction bs generalizing p a n with
  | nil =>
    obtain ⟨n, rfl⟩ := one_more hn
    refine .inr ⟨?_, fun x b hx => by cases hx⟩
    have : link stop a = 0 := if_pos hend
    rw [this, seek, if_pos (.inl rfl)]
  | cons b bs ih =>
    obtain ⟨n, rfl⟩ := one_more hn
    obtain ⟨hb, hl⟩ := hl
    have hmin : 48 ≤ b.size := (hs b mem_cons_self).1
    rw [span_cons] at hend
    have hlink : link stop a = a := if_neg (by omega)
    rw [hlink, seek, if_neg
      (by rw [hb.magic]; simp only [ne_eq, not_true_eq_false, or_false]; omega)]
    by_cases hp : t h a = true
    · refine .inl ⟨[], b, bs, rfl, ?_, hp⟩
      rw [if_pos hp]
      rfl
    rw [if_neg hp, hb.next]
    rw [length_cons] at hn
    rcases ih hl (by omega) (fun c hc => hs c (mem_cons_of_mem b hc)) (by omega)
      (Nat.lt_of_succ_lt_succ hn) with ⟨xs, c, ys, rfl, hw, hc⟩ | ⟨hw, hall⟩
    · refine .inl ⟨b :: xs, c, ys, rfl, ?_, ?_⟩
      · rw [hw, span_cons, add_assoc]
      · rw [span_cons, ← add_assoc]
        exact hc
    · refine .inr ⟨hw, fun x c hx => ?_⟩
      rcases mem_cons.mp hx with he | hx
      · cases he
        exact Bool.eq_false_iff.mpr hp
      · exact hall x c hx

/-- A search ends at the first block that passes the test, or no block passes it. -/
lemma search_tiles (ht : Tiles A h a bs) :
    (∃ xs b ys, bs = xs ++ b :: ys ∧ h.search t = some (some (a + span xs)) ∧
      t h (a + span xs) = true) ∨
    h.search t = some none ∧ ∀ x b, (x, b) ∈ placed a bs → t h x = false := by
  have hlen := length_le_span ht.sized
  have hends := ht.ends
  have hstop := A.stop_lt
  have hlow := A.low
  have := ht.low
  have hw := seek_lay (n := walk) (t := t) ht.lay (by omega) ht.sized hends
    (by unfold walk; omega)
  have hlink : link A.stop a = a := if_neg (ne_of_lt ht.start)
  rw [hlink] at hw
  unfold search
  rw [ht.first]
  exact hw

end Heap

end walks

end uaos.x64
