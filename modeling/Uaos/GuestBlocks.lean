-- The blocks of a guest's heap: those on the two free lists and those that are handed out.
-- Every operation cuts a free block into pieces or puts a block back, and what it writes is in
-- that block, in the link before it and in the words that mirror the heads.
import Uaos.GuestHeap
import Uaos.Chain

namespace uaos.guest

open List Function

open chain

/-- A block with its header. `guarded` ones carry the guard words of memcheck. -/
structure Blk where
  pos : Nat
  size : Nat
  guarded : Bool
  deriving DecidableEq

namespace Blk

def stop (x : Blk) : Nat := x.pos + x.size

/-- The pointer to a block, in longwords. -/
def ptr (x : Blk) : Nat := x.pos / 4

end Blk

def Apart (x y : Blk) : Prop := x.stop ≤ y.pos ∨ y.stop ≤ x.pos

variable {p q : Pool} {x : Blk}

lemma Apart.symm {y : Blk} (h : Apart x y) : Apart y x := Or.symm h

instance : Std.Symm Apart := ⟨fun _ _ => Apart.symm⟩

def Pool.start : Pool → Nat
  | .chip => HEAP_FREE_BASE
  | .fast => HEAP_FAST_START

def Pool.stop : Pool → Nat
  | .chip => HEAP_CHIP_END
  | .fast => HEAP_FAST_END

def Pool.other : Pool → Pool
  | .chip => .fast
  | .fast => .chip

/-- A block of a pool, in units of eight bytes. -/
structure Blk.In (x : Blk) (p : Pool) : Prop where
  low : p.start ≤ x.pos
  high : x.stop ≤ p.stop
  pos8 : 8 ∣ x.pos
  size8 : 8 ∣ x.size
  some : 8 ≤ x.size

/-- The bounds that hold in either pool. -/
lemma Blk.In.bounds (h : x.In p) : 0x20000 ≤ x.pos ∧ x.pos + x.size ≤ 0xFF0000 ∧ 8 ≤ x.size := by
  obtain ⟨hlow, hhigh, -, -, hsome⟩ := h
  cases p with
  | chip =>
    simp only [Pool.start, Pool.stop, Blk.stop, HEAP_FREE_BASE, HEAP_CHIP_END] at hlow hhigh
    omega
  | fast =>
    simp only [Pool.start, Pool.stop, Blk.stop, HEAP_FAST_START, HEAP_FAST_END] at hlow hhigh
    omega

/-- The pointer to a block leads to it. -/
lemma Blk.In.cur (h : x.In p) : u32 (x.ptr * 4) = x.pos := by
  have hb := h.bounds
  have h8 := h.pos8
  unfold Blk.ptr
  rw [u32_of_lt (by omega)]
  omega

lemma Pool.eq_other (h : q ≠ p) : q = p.other := by
  cases p <;> cases q <;> first | rfl | exact absurd rfl h

/-- The pools do not overlap. -/
lemma Blk.In.apart {z : Blk} (hx : x.In p) (hz : z.In q) (h : q ≠ p) : Apart x z := by
  have hxlow := hx.low
  have hxhigh := hx.high
  have hzlow := hz.low
  have hzhigh := hz.high
  unfold Apart
  cases p <;> cases q
  · exact absurd rfl h
  · simp only [Pool.start, Pool.stop, HEAP_FAST_START, HEAP_CHIP_END] at hxhigh hzlow
    omega
  · simp only [Pool.start, Pool.stop, HEAP_FAST_START, HEAP_CHIP_END] at hxlow hzhigh
    omega
  · exact absurd rfl h

lemma Blk.In.unique (h : x.In p) (h' : x.In q) : p = q := by
  by_contra hne
  have happ := h'.apart h hne
  have hsome := h.some
  unfold Apart Blk.stop at happ
  omega

lemma slot_lt (p : Pool) : 0x10 ≤ p.slot ∧ p.slot + 4 ≤ 0x18 := by cases p <;> decide

lemma magic_slot_lt (p : Pool) : 0x18 ≤ p.magic_slot ∧ p.magic_slot + 4 ≤ 0x20 := by
  cases p <;> decide

lemma slot_apart (h : q ≠ p) : p.slot + 4 ≤ q.slot ∨ q.slot + 4 ≤ p.slot := by
  cases p <;> cases q <;> first | exact absurd rfl h | decide

/-- The link word of a free block. -/
def link (ram : Buf) (x : Blk) : Nat := guest_read_be32 ram (x.pos + 4)

/-- The blocks of a window. -/
structure Heap where
  free : Pool → List Blk
  held : List Blk

def Heap.blocks (H : Heap) : List Blk := H.free .chip ++ (H.free .fast ++ H.held)

/-- A block that is handed out. A guarded one has a word before its payload that is no header. -/
structure Kept (ram : Buf) (b : Blk) : Prop where
  placed : ∃ p, b.In p
  room : 16 ≤ b.size
  header : guest_read_be32 ram b.pos = mark b.size
  blank : b.guarded = true → guest_read_be32 ram (b.pos + 8) < HEAP_MAGIC

lemma Kept.bounds {ram : Buf} (h : Kept ram x) :
    0x20000 ≤ x.pos ∧ x.pos + x.size ≤ 0xFF0000 ∧ 8 ≤ x.size := by
  obtain ⟨p, hp⟩ := h.placed
  exact hp.bounds

lemma Kept.congr {ram ram' : Buf} {b : Blk} (h : Kept ram b)
    (hram : ∀ j, b.pos ≤ j → j < b.stop → ram' j = ram j) : Kept ram' b := by
  obtain ⟨hp, hroom, hheader, hblank⟩ := h
  unfold Blk.stop at hram
  have hword : ∀ k, k + 4 ≤ b.size →
      guest_read_be32 ram' (b.pos + k) = guest_read_be32 ram (b.pos + k) := fun k hk =>
    read_congr fun j hj hj4 => hram j (by omega) (by omega)
  refine ⟨hp, hroom, (hword 0 (by omega)).trans hheader, fun hg => ?_⟩
  rw [hword 8 (by omega)]
  exact hblank hg

/-- The window holds the blocks of `H`, and no two of them overlap. -/
structure HeapOk (w : Window) (H : Heap) : Prop where
  listed : ∀ p, Path Blk.ptr (link w.ram) (w.head_read p) (H.free p) 0
  sized : ∀ p, ∀ x ∈ H.free p, guest_read_be32 w.ram x.pos = x.size
  placed : ∀ p, ∀ x ∈ H.free p, x.In p
  kept : ∀ b ∈ H.held, Kept w.ram b
  apart : H.blocks.Pairwise Apart
  fresh : ∀ p, w.heads p = none → H.free p = [] ∧ ∀ b ∈ H.held, ¬ b.In p

/-! ## Lists of blocks -/

section lists

variable {H : Heap} {L : List Blk} {p q : Pool} {x y z b : Blk}

lemma blocks_perm (H : Heap) (p : Pool) :
    H.blocks.Perm (H.free p ++ (H.free p.other ++ H.held)) := by
  cases p with
  | chip => exact .refl _
  | fast =>
    unfold Heap.blocks Pool.other
    rw [← append_assoc, ← append_assoc]
    exact perm_append_comm.append_right _

lemma held_perm {free : Pool → List Blk} :
    (⟨free, b :: L⟩ : Heap).blocks.Perm (b :: (⟨free, L⟩ : Heap).blocks) :=
  (perm_middle.append_left _).trans perm_middle

lemma mem_blocks : x ∈ H.blocks ↔ (∃ p, x ∈ H.free p) ∨ x ∈ H.held := by
  unfold Heap.blocks
  rw [mem_append, mem_append, ← or_assoc]
  refine or_congr_left ⟨?_, ?_⟩
  · rintro (h | h)
    · exact ⟨_, h⟩
    · exact ⟨_, h⟩
  · rintro ⟨p, h⟩
    cases p with
    | chip => exact .inl h
    | fast => exact .inr h

lemma apart_perm {L M : List Blk} (h : L.Perm M) : L.Pairwise Apart ↔ M.Pairwise Apart :=
  h.pairwise_iff Apart.symm

/-- Blocks that do not overlap and have a size are different blocks. -/
lemma Apart.ne (h : Apart x y) (hx : 8 ≤ x.size) : x ≠ y := by
  rintro rfl
  unfold Apart Blk.stop at h
  omega

lemma apart_of_sub {c : Blk} (h : Apart x z) (hlow : x.pos ≤ c.pos) (hhigh : c.stop ≤ x.stop) :
    Apart c z := by
  unfold Apart at h ⊢
  omega

/-- The pieces that a free block is cut into. -/
structure Cut (x : Blk) (p : Pool) (cs : List Blk) : Prop where
  sub : ∀ c ∈ cs, x.pos ≤ c.pos ∧ c.stop ≤ x.stop
  placed : ∀ c ∈ cs, c.In p
  apart : cs.Pairwise Apart

/-- Pieces in the place of a block are as far from the others as the block was. -/
lemma Cut.pairwise {cs rest : List Blk} (hc : Cut x p cs) (h : (x :: rest).Pairwise Apart) :
    (cs ++ rest).Pairwise Apart := by
  rw [pairwise_cons] at h
  refine pairwise_append.mpr ⟨hc.apart, h.2, fun c hcs z hz => ?_⟩
  obtain ⟨hlow, hhigh⟩ := hc.sub c hcs
  exact apart_of_sub (h.1 z hz) hlow hhigh

end lists

/-! ## Stores into a window -/

section stores

variable {w w' : Window} {p q : Pool} {x y z : Blk} {a j n val bptr : Nat} {v : UInt8}

@[simp] lemma store_heads : (w.store a val).heads = w.heads := rfl

@[simp] lemma store_ram : (w.store a val).ram = guest_write_be32 w.ram a val := rfl

@[simp] lemma fill_ram : (w.fill_with a n v).ram = fill w.ram a n v := rfl

@[simp] lemma head_write_ram : (w.head_write p bptr).ram = guest_write_be32 w.ram p.slot bptr := rfl

@[simp] lemma head_write_same : (w.head_write p bptr).heads p = some bptr := by
  simp [Window.head_write]

lemma head_write_ne (h : q ≠ p) : (w.head_write p bptr).heads q = w.heads q := by
  simp [Window.head_write, h]

lemma head_read_some {h : Nat} (hw : w.heads p = some h) : w.head_read p = h := by
  rw [Window.head_read, hw, Option.getD_some]

/-- What is on the lists of a window only depends on its heads and its memory. -/
lemma head_read_congr (hheads : w'.heads p = w.heads p)
    (hram : w.heads p = none → ∀ j, p.slot ≤ j → j < p.slot + 4 → w'.ram j = w.ram j) :
    w'.head_read p = w.head_read p := by
  unfold Window.head_read
  rw [hheads]
  cases hw : w.heads p with
  | none =>
    exact read_congr (hram hw)
  | some h => rw [Option.getD_some, Option.getD_some]

/-- Only the bytes of `x` change. -/
structure Inside (x : Blk) (w w' : Window) : Prop where
  heads : w'.heads = w.heads
  ram : ∀ j, j < x.pos ∨ x.stop ≤ j → w'.ram j = w.ram j

lemma Inside.refl (x : Blk) (w : Window) : Inside x w w := ⟨rfl, fun _ _ => rfl⟩

lemma Inside.store (h : Inside x w w') (hlow : x.pos ≤ a) (hhigh : a + 4 ≤ x.pos + x.size) :
    Inside x w (w'.store a val) := by
  refine ⟨h.heads, fun j (hj : j < x.pos ∨ x.pos + x.size ≤ j) => ?_⟩
  rw [store_ram, write_outside (by omega)]
  exact h.ram j hj

lemma Inside.fill (h : Inside x w w') (hlow : x.pos ≤ a) (hhigh : a + n ≤ x.pos + x.size) :
    Inside x w (w'.fill_with a n v) := by
  refine ⟨h.heads, fun j (hj : j < x.pos ∨ x.pos + x.size ≤ j) => ?_⟩
  rw [fill_ram, fill_outside (by omega)]
  exact h.ram j hj

lemma Inside.head_read (h : Inside x w w') (hx : 0x20 ≤ x.pos) :
    w'.head_read p = w.head_read p := by
  have hp := slot_lt p
  exact head_read_congr (congrFun h.heads p) fun _ j hj hj4 => h.ram j (by omega)

lemma Inside.read (h : Inside x w w') (ha : a + 4 ≤ x.pos ∨ x.stop ≤ a) :
    guest_read_be32 w'.ram a = guest_read_be32 w.ram a :=
  read_congr fun j hj hj4 => h.ram j (by omega)

end stores

/-! ## The link before a block -/

/-- The address of the link after the blocks `pre`, which starts at `prev`. -/
def prev_of : Nat → List Blk → Nat
  | prev, [] => prev
  | _, z :: zs => prev_of (z.pos + 4) zs

lemma prev_of_snoc (prev : Nat) (zs : List Blk) (z : Blk) :
    prev_of prev (zs ++ [z]) = z.pos + 4 := by
  induction zs generalizing prev with
  | nil => rfl
  | cons y zs ih => exact ih _

section links

variable {w w' : Window} {p q : Pool} {x y z : Blk} {pre : List Blk} {a j bptr c : Nat}

lemma set_link_nil : w.set_link p (prev_of p.slot []) bptr = w.head_write p bptr := if_pos rfl

lemma set_link_snoc {zs : List Blk} (hz : 0x20 ≤ z.pos) :
    w.set_link p (prev_of p.slot (zs ++ [z])) bptr = w.store (z.pos + 4) bptr := by
  have := slot_lt p
  rw [prev_of_snoc, Window.set_link, if_neg (by omega)]

lemma head_read_write : (w.head_write p bptr).head_read p = bptr := head_read_some head_write_same

lemma head_write_outside (hj : j < p.slot ∨ p.slot + 4 ≤ j) :
    (w.head_write p bptr).ram j = w.ram j := write_outside hj

section

variable (hpre : ∀ z ∈ pre, 0x20 ≤ z.pos)
include hpre

/-- A new link changes the link word of the last block before it, or a head. -/
lemma set_link_cases : w.set_link p (prev_of p.slot pre) bptr = w.head_write p bptr ∨
    ∃ z ∈ pre, w.set_link p (prev_of p.slot pre) bptr = w.store (z.pos + 4) bptr := by
  rcases eq_nil_or_concat pre with rfl | ⟨zs, z, rfl⟩
  · exact .inl set_link_nil
  · rw [concat_eq_append] at hpre ⊢
    exact .inr ⟨z, by simp, set_link_snoc (hpre z (by simp))⟩

lemma set_link_outside (hj : 0x20 ≤ j) (hout : ∀ z ∈ pre, j < z.pos + 4 ∨ z.pos + 8 ≤ j) :
    (w.set_link p (prev_of p.slot pre) bptr).ram j = w.ram j := by
  have := slot_lt p
  rcases set_link_cases hpre with he | ⟨z, hz, he⟩
  · rw [he]
    exact head_write_outside (by omega)
  · have := hout z hz
    rw [he, store_ram]
    exact write_outside (by omega)

lemma set_link_heads (hq : q ≠ p) :
    (w.set_link p (prev_of p.slot pre) bptr).heads q = w.heads q := by
  rcases set_link_cases hpre with he | ⟨z, -, he⟩
  · rw [he, head_write_ne hq]
  · rw [he, store_heads]

lemma set_link_head_read (hq : q ≠ p) :
    (w.set_link p (prev_of p.slot pre) bptr).head_read q = w.head_read q := by
  refine head_read_congr (set_link_heads hpre hq) fun _ j hj hj4 => ?_
  have hslot := slot_lt q
  have happ := slot_apart hq
  rcases set_link_cases hpre with he | ⟨z, hz, he⟩
  · rw [he]
    exact head_write_outside (by omega)
  · have := hpre z hz
    rw [he, store_ram]
    exact write_outside (by omega)

lemma set_link_some (hw : w.heads p ≠ none) :
    (w.set_link p (prev_of p.slot pre) bptr).heads p ≠ none := by
  rcases set_link_cases hpre with he | ⟨z, -, he⟩
  · rw [he, head_write_same]
    exact Option.some_ne_none _
  · rw [he, store_heads]
    exact hw

end

/-- After a new link the blocks before it lead to where the link points. -/
lemma path_set_link (hw : w.heads p ≠ none)
    (hpath : Path Blk.ptr (link w.ram) (w.head_read p) pre c)
    (hin : ∀ z ∈ pre, z.In p) (hapart : pre.Pairwise Apart) (hb : bptr < 2 ^ 32) :
    Path Blk.ptr (link (w.set_link p (prev_of p.slot pre) bptr).ram)
      ((w.set_link p (prev_of p.slot pre) bptr).head_read p) pre bptr := by
  rcases eq_nil_or_concat pre with rfl | ⟨zs, z, rfl⟩
  · rw [set_link_nil]
    exact head_read_write
  rw [concat_eq_append] at hpath hin hapart ⊢
  have hz := (hin z (by simp)).bounds
  have happ : ∀ u ∈ zs, Apart u z := fun u hu =>
    (pairwise_append.mp hapart).2.2 u hu z (mem_singleton_self z)
  have hnot : z ∉ zs := fun hmem => (happ z hmem).ne hz.2.2 rfl
  obtain ⟨h, hh⟩ := Option.ne_none_iff_exists'.mp hw
  rw [set_link_snoc (by omega), head_read_some (w := w.store (z.pos + 4) bptr) hh,
    ← head_read_some hh]
  refine (hpath.relink hnot).congr fun u hu => ?_
  rcases mem_append.mp hu with hu | hu
  · have hub := (hin u (mem_append_left _ hu)).bounds
    have huz := happ u hu
    unfold Apart Blk.stop at huz
    have hne : u ≠ z := (happ u hu).ne hub.2.2
    rw [update_of_ne hne, link, link, store_ram]
    exact read_write_apart (by omega)
  · rw [mem_singleton.mp hu, update_self, link, store_ram]
    exact read_write_same (by unfold GUEST_RAM_SIZE; omega) hb

end links

/-! ## Cutting a free block -/

/-- `w'` is `w` after stores into the free block `x`, with the link to it set to `bptr`. -/
structure Spliced (p : Pool) (pre : List Blk) (x : Blk) (bptr : Nat) (w w' : Window) : Prop where
  path : Path Blk.ptr (link w'.ram) (w'.head_read p) pre bptr
  ram : ∀ j, 0x20 ≤ j → j < x.pos ∨ x.stop ≤ j → (∀ z ∈ pre, j < z.pos + 4 ∨ z.pos + 8 ≤ j) →
    w'.ram j = w.ram j
  heads : ∀ q, q ≠ p → w'.heads q = w.heads q
  others : ∀ q, q ≠ p → w'.head_read q = w.head_read q
  some : w'.heads p ≠ none

section cuts

variable {w w' w'' : Window} {H : Heap} {p q : Pool} {x z b : Blk} {pre post parts : List Blk}
  {a bptr : Nat}

/-- Stores into the block after the link was set. -/
lemma Spliced.inside (h : Spliced p pre x bptr w w') (hin : Inside x w' w'')
    (hx : x.In p) (hpre : ∀ z ∈ pre, z.In p) (happ : ∀ z ∈ pre, Apart x z) :
    Spliced p pre x bptr w w'' := by
  have hxb := hx.bounds
  refine ⟨?_, fun j h20 hj hz => (hin.ram j hj).trans (h.ram j h20 hj hz),
    fun q hq => (congrFun hin.heads q).trans (h.heads q hq),
    fun q hq => (hin.head_read (by omega)).trans (h.others q hq), ?_⟩
  · rw [hin.head_read (by omega)]
    refine h.path.congr fun z hz => ?_
    have hzb := (hpre z hz).bounds
    have hxz := happ z hz
    unfold Apart Blk.stop at hxz
    exact hin.read (by unfold Blk.stop; omega)
  · rw [congrFun hin.heads p]
    exact h.some

namespace HeapOk

/-- The blocks beside a free block. -/
lemma perm_free (hfree : H.free p = pre ++ x :: post) :
    H.blocks.Perm (x :: (pre ++ (post ++ (H.free p.other ++ H.held)))) := by
  refine (blocks_perm H p).trans ?_
  rw [hfree, append_assoc, cons_append]
  exact perm_middle

section

variable (h : HeapOk w H) (hfree : H.free p = pre ++ x :: post)
include h hfree

lemma apart_free : (x :: (pre ++ (post ++ (H.free p.other ++ H.held)))).Pairwise Apart :=
  (apart_perm (perm_free hfree)).mp h.apart

lemma free_some : w.heads p ≠ none := by
  intro hnone
  have hnil := (h.fresh p hnone).1
  rw [hfree] at hnil
  cases pre <;> cases hnil

lemma in_pre : ∀ z ∈ pre, z.In p := fun z hz => h.placed p z (hfree ▸ mem_append_left _ hz)

lemma in_post : ∀ z ∈ post, z.In p := fun z hz =>
  h.placed p z (hfree ▸ mem_append_right _ (mem_cons_of_mem _ hz))

lemma in_free : x.In p := h.placed p x (hfree ▸ mem_append_right _ mem_cons_self)

/-- Nothing is spliced yet: only the block itself was written to. -/
lemma inside_spliced (hin : Inside x w w') : Spliced p pre x x.ptr w w' := by
  have hlist := h.listed p
  rw [hfree, path_append] at hlist
  obtain ⟨m, hpre, rfl, -⟩ := hlist
  have hself : Spliced p pre x x.ptr w w :=
    ⟨hpre, fun _ _ _ _ => rfl, fun _ _ => rfl, fun _ _ => rfl, h.free_some hfree⟩
  exact hself.inside hin (h.in_free hfree) (h.in_pre hfree) fun z hz =>
    (pairwise_cons.mp (h.apart_free hfree)).1 z (mem_append_left _ hz)

end

end HeapOk

/-- The link to the block is set. -/
lemma Spliced.set_link (h : Spliced p pre x a w w') (hpre : ∀ z ∈ pre, z.In p)
    (happ : pre.Pairwise Apart) (bptr : Nat) (hb : bptr < 2 ^ 32) :
    Spliced p pre x bptr w (w'.set_link p (prev_of p.slot pre) bptr) := by
  have hlow : ∀ z ∈ pre, 0x20 ≤ z.pos := by
    intro z hz
    have := (hpre z hz).bounds
    omega
  exact ⟨path_set_link h.some h.path hpre happ hb,
    fun j h20 hj hz => (set_link_outside hlow h20 hz).trans (h.ram j h20 hj hz),
    fun q hq => (set_link_heads hlow hq).trans (h.heads q hq),
    fun q hq => (set_link_head_read hlow hq).trans (h.others q hq), set_link_some hlow h.some⟩

/-- The blocks after a free block of `p` was cut: `L` is the list of `p`, and `b` is handed out. -/
def Heap.carve (H : Heap) (p : Pool) (L : List Blk) (b : Blk) : Heap :=
  ⟨Function.update H.free p L, b :: H.held⟩

lemma carve_perm (H : Heap) (p : Pool) (b : Blk) (pre parts post : List Blk) :
    (H.carve p (pre ++ (parts ++ post)) b).blocks.Perm
      ((b :: parts) ++ (pre ++ (post ++ (H.free p.other ++ H.held)))) := by
  have hne : p.other ≠ p := by cases p <;> decide
  refine (blocks_perm _ p).trans ?_
  simp only [Heap.carve, update_self, update_of_ne hne]
  rw [← append_assoc]
  have h1 : (pre ++ (parts ++ post)).Perm (parts ++ (pre ++ post)) := by
    rw [← append_assoc, ← append_assoc]
    exact perm_append_comm.append_right _
  have h2 : (pre ++ (parts ++ post) ++ H.free p.other ++ b :: H.held).Perm
      (b :: (pre ++ (parts ++ post) ++ H.free p.other ++ H.held)) := perm_middle
  refine h2.trans (List.Perm.cons b ?_)
  refine ((h1.append_right _).append_right _).trans ?_
  simp only [append_assoc]
  exact .refl _

namespace HeapOk

section carve

variable (h : HeapOk w H) (hfree : H.free p = pre ++ x :: post) (hs : Spliced p pre x bptr w w')
include h hfree hs

/-- The blocks that are neither cut nor before the cut keep their bytes. -/
lemma spliced_bytes (hz : z ∈ post ++ (H.free p.other ++ H.held)) (hzq : z.In q) {j : Nat}
    (hj : z.pos ≤ j) (hj' : j < z.stop) : w'.ram j = w.ram j := by
  obtain ⟨hx, hrest⟩ := pairwise_cons.mp (h.apart_free hfree)
  have hxz := hx z (mem_append_right _ hz)
  have hzb := hzq.bounds
  unfold Apart at hxz
  refine hs.ram j (by omega) (by omega) fun u hu => ?_
  have huz := (pairwise_append.mp hrest).2.2 u hu z hz
  have hu8 := (h.in_pre hfree u hu).some
  unfold Apart Blk.stop at huz
  unfold Blk.stop at hj'
  omega

lemma spliced_word (hz : z ∈ post ++ (H.free p.other ++ H.held)) (hzq : z.In q) {k : Nat}
    (hk : k + 4 ≤ z.size) :
    guest_read_be32 w'.ram (z.pos + k) = guest_read_be32 w.ram (z.pos + k) := by
  refine read_congr fun j hj hj4 => h.spliced_bytes hfree hs hz hzq (by omega) ?_
  unfold Blk.stop
  omega

/-- A block before the cut keeps its header. -/
lemma spliced_pre (hz : z ∈ pre) : guest_read_be32 w'.ram z.pos = z.size := by
  obtain ⟨hx, hrest⟩ := pairwise_cons.mp (h.apart_free hfree)
  have hzb := (h.in_pre hfree z hz).bounds
  have hxz := hx z (mem_append_left _ hz)
  unfold Apart Blk.stop at hxz
  rw [← h.sized p z (hfree ▸ mem_append_left _ hz)]
  refine read_congr fun j hj hj4 => hs.ram j (by omega) (by unfold Blk.stop; omega) fun u hu => ?_
  by_cases huz : u = z
  · rw [huz]
    omega
  · have happ := (pairwise_append.mp hrest).1.forall hu hz huz
    have hu8 := (h.in_pre hfree u hu).some
    unfold Apart Blk.stop at happ
    omega

lemma carve_listed (hparts : Path Blk.ptr (link w'.ram) bptr parts (link w.ram x)) (q : Pool) :
    Path Blk.ptr (link w'.ram) (w'.head_read q)
      ((H.carve p (pre ++ (parts ++ post)) b).free q) 0 := by
  by_cases hqp : q = p
  · subst hqp
    have hlist := h.listed q
    rw [hfree, path_append] at hlist
    obtain ⟨m, -, -, hpost⟩ := hlist
    simp only [Heap.carve, update_self]
    refine path_append.mpr ⟨bptr, hs.path, path_append.mpr ⟨_, hparts, hpost.congr ?_⟩⟩
    intro z hz
    have hzq := h.in_post hfree z hz
    have hzb := hzq.bounds
    exact h.spliced_word hfree hs (mem_append_left _ hz) hzq (by omega)
  · simp only [Heap.carve, update_of_ne hqp]
    rw [hs.others q hqp]
    obtain rfl := Pool.eq_other hqp
    refine (h.listed _).congr fun z hz => ?_
    have hzq := h.placed _ z hz
    have hzb := hzq.bounds
    exact h.spliced_word hfree hs (mem_append_right _ (mem_append_left _ hz)) hzq
      (by omega)

lemma carve_sized (hsized : ∀ c ∈ parts, guest_read_be32 w'.ram c.pos = c.size) (q : Pool) :
    ∀ z ∈ (H.carve p (pre ++ (parts ++ post)) b).free q, guest_read_be32 w'.ram z.pos = z.size := by
  intro z hz
  have hold : ∀ {q}, z ∈ H.free q → z ∈ post ++ (H.free p.other ++ H.held) →
      guest_read_be32 w'.ram z.pos = z.size := by
    intro q hmem hz
    have hzq := h.placed q z hmem
    have hzb := hzq.bounds
    rw [← h.sized q z hmem]
    exact h.spliced_word hfree hs hz hzq (k := 0) (by omega)
  by_cases hqp : q = p
  · subst hqp
    simp only [Heap.carve, update_self, mem_append] at hz
    rcases hz with hz | hz | hz
    · exact h.spliced_pre hfree hs hz
    · exact hsized z hz
    · exact hold (hfree ▸ mem_append_right _ (mem_cons_of_mem _ hz)) (mem_append_left _ hz)
  · simp only [Heap.carve, update_of_ne hqp] at hz
    obtain rfl := Pool.eq_other hqp
    exact hold hz (mem_append_right _ (mem_append_left _ hz))

lemma spliced_kept (hz : z ∈ H.held) : Kept w'.ram z := by
  have hk := h.kept z hz
  obtain ⟨q, hzq⟩ := hk.placed
  exact hk.congr fun j hj hj' =>
    h.spliced_bytes hfree hs (mem_append_right _ (mem_append_right _ hz)) hzq hj hj'

end carve

/-- A free block that is cut into pieces leaves the heap in order. -/
lemma carve (h : HeapOk w H) (hfree : H.free p = pre ++ x :: post)
    (hcut : Cut x p (b :: parts)) (hs : Spliced p pre x bptr w w')
    (hparts : Path Blk.ptr (link w'.ram) bptr parts (link w.ram x))
    (hsized : ∀ c ∈ parts, guest_read_be32 w'.ram c.pos = c.size) (hkept : Kept w'.ram b) :
    HeapOk w' (H.carve p (pre ++ (parts ++ post)) b) := by
  refine ⟨h.carve_listed hfree hs hparts, h.carve_sized hfree hs hsized, fun q z hz => ?_,
    fun z hz => ?_, ?_, fun q hq => ?_⟩
  · by_cases hqp : q = p
    · subst hqp
      simp only [Heap.carve, update_self, mem_append] at hz
      rcases hz with hz | hz | hz
      · exact h.in_pre hfree z hz
      · exact hcut.placed z (mem_cons_of_mem _ hz)
      · exact h.in_post hfree z hz
    · simp only [Heap.carve, update_of_ne hqp] at hz
      exact h.placed q z hz
  · rcases mem_cons.mp hz with rfl | hz
    · exact hkept
    · exact h.spliced_kept hfree hs hz
  · rw [apart_perm (carve_perm H p b pre parts post)]
    exact hcut.pairwise (h.apart_free hfree)
  · have hqp : q ≠ p := by
      rintro rfl
      exact hs.some hq
    rw [hs.heads q hqp] at hq
    obtain ⟨hnil, hheld⟩ := h.fresh q hq
    simp only [Heap.carve, update_of_ne hqp]
    refine ⟨hnil, fun z hz => ?_⟩
    rcases mem_cons.mp hz with rfl | hz
    · exact fun hzq => hqp (hzq.unique (hcut.placed z mem_cons_self))
    · exact hheld z hz

end HeapOk

end cuts

end uaos.guest
