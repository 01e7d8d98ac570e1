-- The laws of the RAMFS data pool (ramfs.c): the chunks tile the pool, the free
-- list is in address order with no two neighbours, and every live block keeps
-- its room, for every order of allocations and frees that wraps no word.
import Mathlib.Data.List.Chain
import Mathlib.Data.List.Perm.Subperm
import Uaos.Chain
import Uaos.Run
import Uaos.Word

namespace uaos.ramfs

open List Function Option

open uaos.chain

variable {as : List Nat} {b bytes f x : Nat}

/-! ## The allocator -/

def POOL_HDR : Nat := 16
def POOL_ALIGN : Nat := 16
def POOL_NIL : Nat := 0xFFFFFFFF

/-- `sizeof(g_pool)`. -/
def POOL_SIZE : Nat := 8 * 1024 * 1024

/-- The pool. `size` and `next` are the two words of the chunk header at each
offset of `g_pool`. -/
structure Pool where
  size : Nat → Nat
  next : Nat → Nat
  top : Nat
  free_head : Nat
  used : Nat

/-- The pool that `RamFS_Init` sets up. The bytes of `g_pool` are in BSS. -/
def ramfs_init : Pool where
  size := fun _ => 0
  next := fun _ => 0
  top := 0
  free_head := POOL_NIL
  used := 0

/-- The chunk size that a request needs: the header and the bytes, rounded up
to the alignment. -/
def alloc_need (bytes : Nat) : Nat :=
  u32 (POOL_HDR + u32 (bytes + (POOL_ALIGN - 1)) / POOL_ALIGN * POOL_ALIGN)

/-- Point the link that the walk came from at `x`. -/
def Pool.link (p : Pool) (prev x : Nat) : Pool :=
  if prev = POOL_NIL then { p with free_head := x }
  else { p with next := update p.next prev x }

/-- The first-fit walk of the free list. It gives the chunk that fits and the
one before it, or `some none` at the end of the list. -/
def first_fit (p : Pool) (need : Nat) : Nat → Nat → Nat → Option (Option (Nat × Nat))
  | 0, _, _ => none
  | fuel + 1, prev, cur =>
    if cur = POOL_NIL then some none
    else if need ≤ p.size cur then some (some (prev, cur))
    else first_fit p need fuel cur (p.next cur)

/-- The walk to the insertion point of the chunk at `off`. -/
def insert_point (p : Pool) (off : Nat) : Nat → Nat → Nat → Option (Nat × Nat)
  | 0, _, _ => none
  | fuel + 1, prev, cur =>
    if cur ≠ POOL_NIL ∧ cur < off then insert_point p off fuel cur (p.next cur)
    else some (prev, cur)

/-- The pool holds at most this many chunks, so no walk of the list is longer. -/
def POOL_FUEL : Nat := POOL_SIZE + 1

/-- Take the chunk `cur` off the free list, and give back what the request does
not need when that is enough for a chunk. -/
def take_chunk (p : Pool) (need prev cur : Nat) : Pool :=
  let rem := sub32 (p.size cur) need
  if POOL_HDR + POOL_ALIGN ≤ rem then
    let r := u32 (cur + need)
    ({ p with
      size := update (update p.size r rem) cur need
      next := update p.next r (p.next cur) } : Pool).link prev r
  else p.link prev (p.next cur)

/-- `none` is a walk that never ends. A pointer is its offset in `g_pool`. -/
def ramfs_alloc_pool (p : Pool) (bytes : Nat) : Option (Option Nat × Pool) :=
  if bytes = 0 then some (none, p)
  else
    let need := alloc_need bytes
    match first_fit p need POOL_FUEL POOL_NIL p.free_head with
    | none => none
    | some (some (prev, cur)) =>
      let q := take_chunk p need prev cur
      some (some (cur + POOL_HDR), { q with used := u32 (q.used + q.size cur) })
    | some none =>
      if POOL_SIZE < u32 (p.top + need) then some (none, p)
      else
        some (some (p.top + POOL_HDR), { p with
            size := update p.size p.top need
            top := u32 (p.top + need)
            used := u32 (p.used + need) })

/-- Merge the chunk at `off` with the free chunk `cur` when it follows at once,
else link it to `cur`. -/
def merge_next (p : Pool) (off cur : Nat) : Pool :=
  if cur ≠ POOL_NIL ∧ u32 (off + p.size off) = cur then
    { p with
      size := update p.size off (u32 (p.size off + p.size cur))
      next := update p.next off (p.next cur) }
  else { p with next := update p.next off cur }

/-- Link the chunk at `off` in after `prev`, or merge it into `prev`. -/
def merge_prev (p : Pool) (off prev : Nat) : Pool :=
  if prev ≠ POOL_NIL then
    if u32 (prev + p.size prev) = off then
      { p with
        size := update p.size prev (u32 (p.size prev + p.size off))
        next := update p.next prev (p.next off) }
    else { p with next := update p.next prev off }
  else { p with free_head := off }

def ramfs_free_pool (p : Pool) (ptr : Option Nat) : Option Pool :=
  match ptr with
  | none => some p
  | some ptr =>
    let off := ptr - POOL_HDR
    let p := { p with used := sub32 p.used (p.size off) }
    match insert_point p off POOL_FUEL POOL_NIL p.free_head with
    | none => none
    | some (prev, cur) => some (merge_prev (merge_next p off cur) off prev)

/-! ## The chunks of a pool -/

/-- A chunk. `owner` is the request of the live block that it holds, and `none`
for a chunk on the free list. -/
structure Cell where
  off : Nat
  size : Nat
  owner : Option Nat

/-- A live block: the pointer that the caller holds, and the bytes it asked for. -/
structure Block where
  ptr : Nat
  bytes : Nat
deriving DecidableEq

def Cell.stop (c : Cell) : Nat := c.off + c.size

def Cell.free? (c : Cell) : Option Nat := if c.owner = none then some c.off else none

def Cell.block? (c : Cell) : Option Block := c.owner.map (fun b => ⟨c.off + POOL_HDR, b⟩)

def freeOffs (cs : List Cell) : List Nat := cs.filterMap Cell.free?

def blocks (cs : List Cell) : List Block := cs.filterMap Cell.block?

/-- The bytes of the live chunks, headers included. -/
def liveSize (cs : List Cell) : Nat := (cs.map (fun c => if c.owner = none then 0 else c.size)).sum

/-- The chunks of the pool are `cs`, in address order. -/
structure Shape (p : Pool) (cs : List Cell) : Prop where
  tile : Path Cell.off Cell.stop 0 cs p.top
  size : ∀ c ∈ cs, p.size c.off = c.size
  pos : ∀ c ∈ cs, POOL_HDR ≤ c.size
  free : Path id p.next p.free_head (freeOffs cs) POOL_NIL
  apart : cs.IsChain (fun c d => ¬ (c.owner = none ∧ d.owner = none))
  room : ∀ c ∈ cs, ∀ b, c.owner = some b → POOL_HDR + b ≤ c.size
  used : p.used = liveSize cs
  top : p.top ≤ POOL_SIZE

abbrev Tile := chain.Path Cell.off Cell.stop

variable {p : Pool} {cs pre mid post : List Cell} {c d : Cell} {a z need prev off : Nat}

@[simp] lemma freeOffs_append (cs ds : List Cell) :
    freeOffs (cs ++ ds) = freeOffs cs ++ freeOffs ds := filterMap_append

@[simp] lemma freeOffs_cons (c : Cell) (cs : List Cell) :
    freeOffs (c :: cs) = if c.owner = none then c.off :: freeOffs cs else freeOffs cs := by
  unfold freeOffs Cell.free?
  by_cases h : c.owner = none <;> simp [h]

@[simp] lemma freeOffs_nil : freeOffs [] = [] := rfl

@[simp] lemma blocks_append (cs ds : List Cell) :
    blocks (cs ++ ds) = blocks cs ++ blocks ds := filterMap_append

@[simp] lemma blocks_nil : blocks [] = [] := rfl

lemma blocks_cons_free (cs : List Cell) (h : c.owner = none) : blocks (c :: cs) = blocks cs := by
  simp [blocks, Cell.block?, h]

lemma blocks_cons_live (cs : List Cell) (h : c.owner = some b) :
    blocks (c :: cs) = ⟨c.off + POOL_HDR, b⟩ :: blocks cs := by
  simp [blocks, Cell.block?, h]

@[simp] lemma liveSize_append (cs ds : List Cell) :
    liveSize (cs ++ ds) = liveSize cs + liveSize ds := by simp [liveSize]

@[simp] lemma liveSize_cons (c : Cell) (cs : List Cell) :
    liveSize (c :: cs) = (if c.owner = none then 0 else c.size) + liveSize cs := by simp [liveSize]

/-- The free chunk in front of a chunk, and the one behind it. -/
abbrev lastFree (pre : List Cell) : Nat := (freeOffs pre).getLastD POOL_NIL

abbrev firstFree (post : List Cell) : Nat := (freeOffs post).headD POOL_NIL

lemma mem_freeOffs : f ∈ freeOffs cs ↔ ∃ c ∈ cs, c.owner = none ∧ c.off = f := by
  simp [freeOffs, Cell.free?, mem_filterMap]

/-- Chunks that tile a range stand inside it, and the live ones fit in it. -/
lemma tile_bounds (h : Tile a cs z) :
    a + liveSize cs ≤ z ∧ ∀ c ∈ cs, a ≤ c.off ∧ c.stop ≤ z := by
  induction cs generalizing a with
  | nil => simp [liveSize, path_nil.mp h]
  | cons c cs ih =>
    obtain ⟨rfl, h⟩ := h
    obtain ⟨hsum, hall⟩ := ih h
    have hstop : c.stop = c.off + c.size := rfl
    constructor
    · rw [liveSize_cons]
      split <;> omega
    intro d hd
    rcases mem_cons.mp hd with rfl | hd
    · omega
    · have := hall d hd
      omega

lemma tile_sorted (h : Tile a cs z) :
    cs.Pairwise (fun c d => c.stop ≤ d.off) := by
  induction cs generalizing a with
  | nil => exact List.Pairwise.nil
  | cons c cs ih =>
    exact List.Pairwise.cons (fun d hd => ((tile_bounds h.2).2 d hd).1) (ih h.2)

lemma tile_split (h : Tile a (pre ++ c :: post) z) :
    (∀ d ∈ pre, d.stop ≤ c.off) ∧ ∀ d ∈ post, c.stop ≤ d.off := by
  have hs := pairwise_append.mp (tile_sorted h)
  exact ⟨fun d hd => hs.2.2 d hd c (by simp), (pairwise_cons.mp hs.2.1).1⟩

lemma Shape.used_lt (h : Shape p cs) : p.used ≤ POOL_SIZE := by
  have h1 := (tile_bounds h.tile).1
  have h2 := h.used
  have h3 := h.top
  omega

lemma Shape.stop_le (h : Shape p cs) (hc : c ∈ cs) : c.stop ≤ POOL_SIZE :=
  ((tile_bounds h.tile).2 c hc).2.trans h.top

lemma room_of (hb : POOL_HDR + b ≤ x) (a : Nat) (ha : some b = some a) : POOL_HDR + a ≤ x := by
  cases ha
  exact hb

/-- What is in use when the front of the free chunk `c` is lent. -/
lemma Shape.used_take (h : Shape p (pre ++ c :: post)) (hc : c.owner = none) (hn : need ≤ c.size)
    (hmid : liveSize mid = 0) :
    u32 (p.used + need) = liveSize (pre ++ ⟨c.off, need, some b⟩ :: mid ++ post) := by
  have hlt := h.used_lt
  have hstop := h.stop_le (c := c) (by simp)
  rw [u32_of_lt (by unfold Cell.stop POOL_SIZE at *; omega), h.used]
  simp [hc, hmid]
  omega

/-- What is in use when the live chunk `c` is given back. -/
lemma Shape.used_free (h : Shape p (pre ++ c :: post)) (hc : c.owner ≠ none) :
    sub32 p.used c.size = liveSize pre + liveSize post := by
  have hlt := h.used_lt
  have hused : p.used = liveSize pre + (c.size + liveSize post) := by simpa [hc] using h.used
  rw [sub32_of_le (by omega) (by unfold POOL_SIZE at hlt; omega)]
  omega

lemma tile_free_sorted (h : Tile a cs z) (hpos : ∀ c ∈ cs, POOL_HDR ≤ c.size) :
    (freeOffs cs).Pairwise (· < ·) := by
  refine List.Pairwise.filterMap Cell.free? ?_ (List.Pairwise.and_mem.mp (tile_sorted h))
  rintro c d ⟨hc, _, hcd⟩ x hx y hy
  have := hpos c hc
  simp only [Cell.free?, ite_none_right_eq_some, Option.some.injEq] at hx hy
  unfold Cell.stop POOL_HDR at *
  omega

lemma tile_free_lt (h : Tile a cs z) (hpos : ∀ c ∈ cs, POOL_HDR ≤ c.size)
    (hf : f ∈ freeOffs cs) : f < z := by
  obtain ⟨c, hc, _, rfl⟩ := mem_freeOffs.mp hf
  have h1 := (tile_bounds h).2 c hc
  have h2 := hpos c hc
  unfold Cell.stop POOL_HDR at *
  omega

/-- The free chunks around a chunk of a tiling. -/
lemma tile_free (h : Tile a (pre ++ c :: post) z)
    (hpos : ∀ d ∈ pre ++ c :: post, POOL_HDR ≤ d.size) (hz : z ≤ POOL_SIZE) :
    (∀ f ∈ freeOffs pre, f < c.off) ∧ (∀ f ∈ freeOffs post, c.stop ≤ f) ∧
      (freeOffs pre).Nodup ∧ ∀ f ∈ freeOffs pre, f ≠ POOL_NIL := by
  obtain ⟨m, hpre, rfl, -⟩ := path_append.mp h
  have hlow : ∀ f ∈ freeOffs pre, f < c.off := fun f hf =>
    tile_free_lt hpre (fun d hd => hpos d (mem_append_left _ hd)) hf
  have hsort := tile_free_sorted h hpos
  rw [freeOffs_append] at hsort
  have hc := (tile_bounds h).2 c (by simp)
  refine ⟨hlow, fun f hf => ?_, (pairwise_append.mp hsort).1.imp fun hab => ne_of_lt hab,
    fun f hf => ?_⟩
  · obtain ⟨d, hd, _, rfl⟩ := mem_freeOffs.mp hf
    exact (tile_split h).2 d hd
  · have := hlow f hf
    unfold Cell.stop POOL_SIZE POOL_NIL at *
    omega

lemma Shape.free_lt (h : Shape p cs) : ∀ f ∈ freeOffs cs, f < POOL_SIZE := fun _ hf =>
  (tile_free_lt h.tile h.pos hf).trans_le h.top

/-- A free list never passes the pool's end, so its walks are short. -/
lemma Shape.free_length (h : Shape p cs) : (freeOffs cs).length < POOL_FUEL := by
  have hnd : (freeOffs cs).Nodup := (tile_free_sorted h.tile h.pos).imp (fun hlt => ne_of_lt hlt)
  have hsub : freeOffs cs ⊆ List.range POOL_SIZE := fun f hf => mem_range.mpr (h.free_lt f hf)
  have hle := (subperm_of_subset hnd hsub).length_le
  rw [length_range] at hle
  exact Nat.lt_succ_of_le hle

/-! ## The walks of the free list -/

lemma first_fit_spec {fs : List Nat} {fuel prev cur : Nat}
    (h : Path id p.next cur fs POOL_NIL) (hnil : ∀ f ∈ fs, f ≠ POOL_NIL)
    (hfuel : fs.length < fuel) :
    first_fit p need fuel prev cur = some none ∨ ∃ as f bs, fs = as ++ f :: bs ∧ need ≤ p.size f ∧
        first_fit p need fuel prev cur = some (some (as.getLastD prev, f)) := by
  induction fs generalizing fuel prev cur with
  | nil =>
    obtain ⟨fuel, rfl⟩ := one_more hfuel
    left
    simp [first_fit, path_nil.mp h]
  | cons f fs ih =>
    obtain ⟨fuel, rfl⟩ := one_more hfuel
    obtain ⟨hcur, h⟩ := h
    obtain rfl : cur = f := hcur
    have hf : cur ≠ POOL_NIL := hnil cur (by simp)
    by_cases hfit : need ≤ p.size cur
    · exact .inr ⟨[], cur, fs, rfl, hfit, by simp [first_fit, hf, hfit]⟩
    have hstep : first_fit p need (fuel + 1) prev cur = first_fit p need fuel cur (p.next cur) := by
      simp [first_fit, hf, hfit]
    rw [hstep]
    have hnil' : ∀ g ∈ fs, g ≠ POOL_NIL := fun g hg => hnil g (by simp [hg])
    rcases @ih fuel cur (p.next cur) h hnil' (by simpa using hfuel) with h0 | h1
    · exact .inl h0
    · obtain ⟨as, g, bs, rfl, hg, he⟩ := h1
      exact .inr ⟨cur :: as, g, bs, rfl, hg, by rw [he, getLastD_cons]⟩

/-- The walk stops between the chunks below `off` and those above. -/
lemma insert_point_spec {bs : List Nat} {fuel prev cur : Nat}
    (h : Path id p.next cur (as ++ bs) POOL_NIL) (hnil : ∀ f ∈ as, f ≠ POOL_NIL)
    (has : ∀ f ∈ as, f < off) (hbs : ∀ f ∈ bs, off ≤ f) (hfuel : as.length < fuel) :
    insert_point p off fuel prev cur = some (as.getLastD prev, bs.headD POOL_NIL) := by
  induction as generalizing fuel prev cur with
  | nil =>
    obtain ⟨fuel, rfl⟩ := one_more hfuel
    cases bs with
    | nil => simp [insert_point, path_nil.mp h]
    | cons f bs =>
      obtain rfl : cur = f := h.1
      have hf : ¬ (cur ≠ POOL_NIL ∧ cur < off) := fun hc => Nat.not_lt.mpr (hbs cur (by simp)) hc.2
      rw [insert_point, if_neg hf]
      rfl
  | cons f as ih =>
    obtain ⟨fuel, rfl⟩ := one_more hfuel
    obtain ⟨hcur, h⟩ := h
    obtain rfl : cur = f := hcur
    have hf : cur ≠ POOL_NIL ∧ cur < off := ⟨hnil cur (by simp), has cur (by simp)⟩
    rw [insert_point, if_pos hf, getLastD_cons]
    exact ih h (fun g hg => hnil g (by simp [hg])) (fun g hg => has g (by simp [hg]))
      (by simpa using hfuel)

/-! ## A link changed -/

@[simp] lemma link_size (p : Pool) (prev x : Nat) : (p.link prev x).size = p.size := by
  unfold Pool.link; split <;> rfl

@[simp] lemma link_top (p : Pool) (prev x : Nat) : (p.link prev x).top = p.top := by
  unfold Pool.link; split <;> rfl

@[simp] lemma link_used (p : Pool) (prev x : Nat) : (p.link prev x).used = p.used := by
  unfold Pool.link; split <;> rfl

/-- A cell that is not the one before keeps its link. -/
lemma link_next_of_ne (h : f ≠ prev) : (p.link prev x).next f = p.next f := by
  unfold Pool.link
  split
  · rfl
  · exact update_of_ne h _ _

/-- A link of the last free chunk of `as` to `x` makes the list `as` end at `x`. -/
lemma link_path {m : Nat} (h : Path id p.next p.free_head as m)
    (hnd : as.Nodup) (hnil : ∀ f ∈ as, f ≠ POOL_NIL) :
    Path id (p.link (as.getLastD POOL_NIL) x).next (p.link (as.getLastD POOL_NIL) x).free_head
      as x := by
  rcases eq_nil_or_concat as with rfl | ⟨as, f, rfl⟩
  · simp [Pool.link]
  rw [concat_eq_append] at *
  have hf := hnil f (by simp)
  have hfas : f ∉ as := fun hm => (nodup_append.mp hnd).2.2 f hm f (by simp) rfl
  rw [getLastD_concat]
  simp only [Pool.link, hf, if_false]
  exact h.relink hfas

/-- The free list around a chunk of the tiling. -/
lemma Shape.free_split (h : Shape p (pre ++ c :: post)) :
    (∀ f ∈ freeOffs pre, f < c.off) ∧ (∀ f ∈ freeOffs post, c.stop ≤ f) ∧
      (freeOffs pre).Nodup ∧ ∀ f ∈ freeOffs pre, f ≠ POOL_NIL := tile_free h.tile h.pos h.top

/-! ## An allocation -/

/-- The offsets of the other chunks are not inside this one. -/
lemma Shape.off_ne (h : Shape p (pre ++ c :: post)) (hd : d ∈ pre ∨ d ∈ post)
    (h1 : c.off ≤ x) (h2 : x < c.stop) : d.off ≠ x := by
  obtain ⟨hpre, hpost⟩ := tile_split h.tile
  rcases hd with hd | hd
  · have h3 := hpre d hd
    have h4 := h.pos d (by simp [hd])
    unfold Cell.stop POOL_HDR at *
    omega
  · have h3 := hpost d hd
    omega

lemma forall_around {P : Cell → Prop} :
    (∀ d ∈ pre ++ c :: post, P d) ↔ P c ∧ ∀ d, d ∈ pre ∨ d ∈ post → P d := by
  simp only [mem_append, mem_cons]
  exact ⟨fun h => ⟨h c (by simp), fun d hd => h d (by tauto)⟩,
    fun h d hd => by rcases hd with hd | rfl | hd <;> simp_all⟩

/-- New chunks in the place of `c` keep the shape when the free list still passes
every free chunk. -/
lemma Shape.replace {q : Pool} (h : Shape p (pre ++ c :: post))
    (htile : Tile c.off mid c.stop)
    (hsize : ∀ d, d ∈ pre ∨ d ∈ post → q.size d.off = p.size d.off)
    (hmid : ∀ d ∈ mid, q.size d.off = d.size ∧ POOL_HDR ≤ d.size ∧
      ∀ b, d.owner = some b → POOL_HDR + b ≤ d.size)
    (hfree : Path id q.next q.free_head (freeOffs (pre ++ mid ++ post)) POOL_NIL)
    (hapart : (pre ++ mid ++ post).IsChain (fun c d => ¬ (c.owner = none ∧ d.owner = none)))
    (hused : q.used = liveSize (pre ++ mid ++ post)) (htop : q.top = p.top) :
    Shape q (pre ++ mid ++ post) := by
  have hmem : ∀ d ∈ pre ++ mid ++ post, d ∈ mid ∨ (d ∈ pre ∨ d ∈ post) := by
    intro d hd
    simp only [mem_append] at hd
    tauto
  refine ⟨?_, ?_, ?_, hfree, hapart, ?_, hused, htop ▸ h.top⟩
  · obtain ⟨m, h1, h2⟩ := path_append.mp h.tile
    obtain ⟨rfl, h2⟩ := h2
    rw [htop]
    exact path_append.mpr ⟨_, path_append.mpr ⟨_, h1, htile⟩, h2⟩
  · intro d hd
    rcases hmem d hd with hd | hd
    · exact (hmid d hd).1
    · rw [hsize d hd]
      exact (forall_around.mp h.size).2 d hd
  · intro d hd
    rcases hmem d hd with hd | hd
    · exact (hmid d hd).2.1
    · exact (forall_around.mp h.pos).2 d hd
  · intro d hd
    rcases hmem d hd with hd | hd
    · exact (hmid d hd).2.2
    · exact (forall_around.mp h.room).2 d hd

/-- The free list on both sides of the free chunk `c`. -/
lemma Shape.free_around (h : Shape p (pre ++ c :: post)) (hc : c.owner = none) :
    Path id p.next p.free_head (freeOffs pre) c.off ∧
      Path id p.next (p.next c.off) (freeOffs post) POOL_NIL := by
  have hfree := h.free
  rw [freeOffs_append, freeOffs_cons, if_pos hc] at hfree
  obtain ⟨m, hpre, hrest⟩ := path_append.mp hfree
  obtain ⟨rfl, hpost⟩ := path_cons.mp hrest
  exact ⟨hpre, hpost⟩

/-- The last free chunk below an offset is no free chunk above it. -/
lemma last_free_lt (hlow : ∀ f ∈ freeOffs pre, f < off) (hf : off ≤ f) (hlt : f < POOL_SIZE) :
    f ≠ lastFree pre := by
  unfold lastFree
  rcases eq_nil_or_concat (freeOffs pre) with he | ⟨as, g, he⟩
  · rw [he]
    unfold POOL_SIZE at hlt
    simp only [getLastD_nil, POOL_NIL]
    omega
  · have hg := hlow g (by rw [he]; simp)
    rw [he, concat_eq_append, getLastD_concat]
    omega

/-- A chunk that was free and is now live, with or without a free rest, has no
free chunk on either side that the free chunk had not. -/
lemma apart_replace {e : Cell}
    (h : (pre ++ c :: post).IsChain (fun c d => ¬ (c.owner = none ∧ d.owner = none)))
    (hc : c.owner = none) (he : e.owner ≠ none)
    (hmid : (e :: mid).IsChain (fun c d => ¬ (c.owner = none ∧ d.owner = none))) :
    (pre ++ e :: mid ++ post).IsChain (fun c d => ¬ (c.owner = none ∧ d.owner = none)) := by
  obtain ⟨h1, h2, _⟩ := isChain_append.mp h
  obtain ⟨h3, h4⟩ := isChain_cons.mp h2
  rw [append_assoc]
  refine isChain_append.mpr ⟨h1, isChain_append.mpr ⟨hmid, h4, ?_⟩, ?_⟩
  · rintro x _ y hy ⟨_, hy0⟩
    exact h3 y hy ⟨hc, hy0⟩
  · intro x _ y hy hxy
    simp only [cons_append, head?_cons, mem_def, Option.some.injEq] at hy
    exact he (hy ▸ hxy.2)

lemma Shape.take_whole (h : Shape p (pre ++ c :: post)) (hc : c.owner = none)
    (hb : POOL_HDR + b ≤ c.size) :
    Shape { p.link (lastFree pre) (p.next c.off) with
      used := u32 (p.used + c.size) } (pre ++ [{ c with owner := some b }] ++ post) := by
  obtain ⟨hpre, hpost, hnd, hnil⟩ := h.free_split
  obtain ⟨hlow, hhigh⟩ := h.free_around hc
  have hlt : ∀ f ∈ freeOffs post, f < POOL_SIZE := fun f hf => h.free_lt f (by simp [hc, hf])
  refine h.replace ?_ (by simp) ?_ ?_ ?_ (h.used_take hc (le_refl _) rfl) (by simp)
  · exact ⟨rfl, rfl⟩
  · intro d hd
    obtain rfl := mem_singleton.mp hd
    exact ⟨by simpa using h.size c (by simp), h.pos c (by simp), room_of hb⟩
  · simp only [freeOffs_append, freeOffs_cons, freeOffs_nil, reduceCtorEq, if_false, append_nil]
    refine path_append.mpr ⟨_, link_path hlow hnd hnil, hhigh.congr ?_⟩
    intro f hf
    exact link_next_of_ne (last_free_lt hpre ((le_self_add).trans (hpost f hf)) (hlt f hf))
  · exact apart_replace h.apart hc (by simp) (isChain_singleton _)

/-- The free chunk `c`, cut in two: the front for the request, the rest free. -/
lemma Shape.take_split (h : Shape p (pre ++ c :: post)) (hc : c.owner = none)
    (hb : POOL_HDR + b ≤ need) (hrest : need + POOL_HDR ≤ c.size) : Shape { ({ p with
        size := update (update p.size (c.off + need) (c.size - need)) c.off need
        next := update p.next (c.off + need) (p.next c.off) } : Pool).link
          (lastFree pre) (c.off + need) with
      used := u32 (p.used + need) }
      (pre ++ [⟨c.off, need, some b⟩, ⟨c.off + need, c.size - need, none⟩] ++ post) := by
  obtain ⟨hpre, hpost, hnd, hnil⟩ := h.free_split
  obtain ⟨hlow, hhigh⟩ := h.free_around hc
  have hlt : ∀ f ∈ freeOffs post, f < POOL_SIZE := fun f hf => h.free_lt f (by simp [hc, hf])
  have hstop := h.stop_le (c := c) (by simp)
  have hcs : c.stop = c.off + c.size := rfl
  have hhdr : 0 < POOL_HDR := by decide
  refine h.replace ?_ ?_ ?_ ?_ ?_ (h.used_take hc (by omega) rfl) (by simp)
  · refine ⟨rfl, rfl, ?_⟩
    show c.off + need + (c.size - need) = c.stop
    omega
  · intro d hd
    simp only [link_size]
    rw [update_of_ne (h.off_ne hd (le_refl _) (by omega)),
      update_of_ne (h.off_ne hd (by omega) (by omega))]
  · intro d hd
    simp only [link_size, mem_cons, not_mem_nil, or_false] at hd ⊢
    rcases hd with rfl | rfl
    · exact ⟨by simp, (le_self_add).trans hb, room_of hb⟩
    · have hne : c.off + need ≠ c.off := by omega
      refine ⟨?_, Nat.le_sub_of_add_le' hrest, by simp⟩
      simp [update_of_ne hne]
  · have hrlt : c.off + need < POOL_SIZE := by omega
    have hrne := last_free_lt hpre (Nat.le_add_right c.off need) hrlt
    have hnext : ∀ f, f ≠ c.off + need →
        update p.next (c.off + need) (p.next c.off) f = p.next f :=
      fun f hf => update_of_ne hf _ _
    simp only [freeOffs_append, freeOffs_cons, freeOffs_nil, reduceCtorEq, if_false, if_true,
      append_assoc, singleton_append]
    refine path_append.mpr ⟨c.off + need, link_path (hlow.congr ?_) hnd hnil, rfl, ?_⟩
    · intro f hf
      exact hnext f (by have := hpre f hf; omega)
    rw [link_next_of_ne hrne]
    simp only [update_self]
    refine hhigh.congr ?_
    intro f hf
    have hf' := hpost f hf
    rw [link_next_of_ne (last_free_lt hpre (by omega) (hlt f hf))]
    exact hnext f (by omega)
  · exact apart_replace h.apart hc (by simp) (isChain_pair.mpr (by simp))

/-- A fresh chunk at the high-water mark. -/
lemma Shape.carve (h : Shape p cs) (hb : POOL_HDR + b ≤ need) (htop : p.top + need ≤ POOL_SIZE) :
    Shape { p with
      size := update p.size p.top need
      top := p.top + need
      used := p.used + need } (cs ++ [⟨p.top, need, some b⟩]) := by
  have hbound := (tile_bounds h.tile).2
  have hold : ∀ d ∈ cs, d.off ≠ p.top := by
    intro d hd
    have h1 := hbound d hd
    have h2 := h.pos d hd
    unfold Cell.stop POOL_HDR at *
    omega
  refine ⟨?_, ?_, ?_, ?_, ?_, ?_, ?_, htop⟩
  · exact path_append.mpr ⟨_, h.tile, rfl, rfl⟩
  · intro d hd
    rcases mem_append.mp hd with hd | hd
    · simp only [update_of_ne (hold d hd)]
      exact h.size d hd
    · obtain rfl := mem_singleton.mp hd
      simp
  · intro d hd
    rcases mem_append.mp hd with hd | hd
    · exact h.pos d hd
    · obtain rfl := mem_singleton.mp hd
      exact (le_self_add).trans hb
  · simpa using h.free
  · exact isChain_append.mpr ⟨h.apart, isChain_singleton _, by simp⟩
  · intro d hd b' hb'
    rcases mem_append.mp hd with hd | hd
    · exact h.room d hd b' hb'
    · obtain rfl := mem_singleton.mp hd
      exact room_of hb b' hb'
  · simp [h.used, liveSize]

/-! ## A free -/

/-- The pool in the middle of a free: the chunk `c` is merged with what follows
it and links on, but the free chunks below it do not link to it yet. -/
structure Half (p : Pool) (pre : List Cell) (c : Cell) (post : List Cell) : Prop where
  tile : Path Cell.off Cell.stop 0 (pre ++ c :: post) p.top
  size : ∀ d ∈ pre ++ c :: post, p.size d.off = d.size
  pos : ∀ d ∈ pre ++ c :: post, POOL_HDR ≤ d.size
  low : ∃ m, Path id p.next p.free_head (freeOffs pre) m
  high : Path id p.next (p.next c.off) (freeOffs post) POOL_NIL
  isFree : c.owner = none
  apart_low : pre.IsChain (fun c d => ¬ (c.owner = none ∧ d.owner = none))
  apart_high : (c :: post).IsChain (fun c d => ¬ (c.owner = none ∧ d.owner = none))
  room : ∀ d ∈ pre ++ c :: post, ∀ b, d.owner = some b → POOL_HDR + b ≤ d.size
  used : p.used = liveSize (pre ++ c :: post)
  top : p.top ≤ POOL_SIZE

/-- No free chunk stands at the end of `c` unless the next chunk is free. -/
lemma head_free_ne (h : Tile c.stop post z) (hpos : ∀ d ∈ post, POOL_HDR ≤ d.size)
    (hlive : ∀ d ∈ post.head?, d.owner ≠ none) :
    ¬ (firstFree post ≠ POOL_NIL ∧ c.stop = firstFree post) := by
  cases post with
  | nil => simp
  | cons d post =>
    obtain ⟨hd, h⟩ := h
    have hdl : d.owner ≠ none := hlive d (by simp)
    have hdp := hpos d (by simp)
    rw [firstFree, freeOffs_cons, if_neg hdl]
    rcases hf : freeOffs post with _ | ⟨f, fs⟩
    · simp
    obtain ⟨e, he, _, hef⟩ := mem_freeOffs.mp (hf ▸ mem_cons_self : f ∈ freeOffs post)
    have h1 := ((tile_bounds h).2 e he).1
    rw [headD_cons]
    rintro ⟨_, h2⟩
    unfold Cell.stop POOL_HDR at *
    omega

/-- The free list on both sides of the live chunk `c`. -/
lemma Shape.free_beside (h : Shape p (pre ++ c :: post)) (hc : c.owner ≠ none) :
    Path id p.next p.free_head (freeOffs pre ++ freeOffs post) POOL_NIL ∧
      Path id p.next p.free_head (freeOffs pre) (firstFree post) ∧
      Path id p.next (firstFree post) (freeOffs post) POOL_NIL := by
  have hfree := h.free
  rw [freeOffs_append, freeOffs_cons, if_neg hc] at hfree
  obtain ⟨m, hlow, hhigh⟩ := path_append.mp hfree
  have hm : m = firstFree post := by
    unfold firstFree
    cases hf : freeOffs post with
    | nil => exact path_nil.mp (hf ▸ hhigh)
    | cons f fs => exact (hf ▸ hhigh).1
  exact ⟨hfree, hm ▸ hlow, hm ▸ hhigh⟩

/-- The chunk `c` is not in use any more, and merged with what follows it. -/
abbrev freed (p : Pool) (c : Cell) (x : Nat) : Pool :=
  merge_next { p with used := sub32 p.used c.size } c.off x

/-- The freed chunk `c`, with no free chunk after it. -/
lemma Shape.half_apart (h : Shape p (pre ++ c :: post)) (hc : c.owner ≠ none)
    (hlive : ∀ d ∈ post.head?, d.owner ≠ none) :
    Half (freed p c (firstFree post)) pre { c with owner := none } post := by
  obtain ⟨hpre, hpost, _, _⟩ := h.free_split
  obtain ⟨_, hlow, hhigh⟩ := h.free_beside hc
  obtain ⟨_, htile, htail⟩ := path_append.mp h.tile
  obtain ⟨h1, h2, _⟩ := isChain_append.mp h.apart
  obtain ⟨_, h3⟩ := isChain_cons.mp h2
  have hcp := h.pos c (by simp)
  have hstop := h.stop_le (c := c) (by simp)
  have hmerge : ¬ (firstFree post ≠ POOL_NIL ∧
      u32 (c.off + p.size c.off) = firstFree post) := by
    rw [h.size c (by simp), u32_of_lt (by unfold Cell.stop POOL_SIZE at *; omega)]
    exact head_free_ne htail.2 (fun d hd => h.pos d (by simp [hd])) hlive
  have hnext : ∀ f, f ≠ c.off → update p.next c.off (firstFree post) f
      = p.next f := fun f hf => update_of_ne hf _ _
  simp only [merge_next, if_neg hmerge]
  refine ⟨?_, ?_, ?_, ⟨_, hlow.congr ?_⟩, ?_, rfl, h1, ?_, ?_, ?_, h.top⟩
  · exact path_append.mpr ⟨_, htile, htail⟩
  · exact forall_around.mpr (forall_around.mp h.size)
  · exact forall_around.mpr (forall_around.mp h.pos)
  · intro f hf
    exact hnext f (ne_of_lt (hpre f hf))
  · simp only [update_self]
    refine hhigh.congr (fun f hf => hnext f ?_)
    have := hpost f hf
    unfold Cell.stop POOL_HDR at *
    omega
  · exact isChain_cons.mpr ⟨fun d hd hn => hlive d hd hn.2, h3⟩
  · exact forall_around.mpr ⟨by simp, (forall_around.mp h.room).2⟩
  · simp [h.used_free hc]

/-- The freed chunk `c`, merged with the free chunk `d` after it. -/
lemma Shape.half_merge (h : Shape p (pre ++ c :: d :: post)) (hc : c.owner ≠ none)
    (hd : d.owner = none) : Half (freed p c d.off) pre ⟨c.off, c.size + d.size, none⟩ post := by
  obtain ⟨hpre, hpost, _, _⟩ := h.free_split
  obtain ⟨_, hlow, hhigh⟩ := h.free_beside hc
  obtain ⟨_, htile, htail⟩ := path_append.mp h.tile
  obtain ⟨hoff, hdoff, hrest⟩ := htail
  obtain ⟨h1, h2, _⟩ := isChain_append.mp h.apart
  obtain ⟨_, h3⟩ := isChain_cons.mp h2
  obtain ⟨h4, h5⟩ := isChain_cons.mp h3
  have hcp := h.pos c (by simp)
  have hsc := h.size c (by simp)
  have hsd := h.size d (by simp)
  have hstop := h.stop_le (c := d) (by simp)
  have hds : d.stop = c.off + (c.size + d.size) := by
    unfold Cell.stop at *
    omega
  have hmerge : d.off ≠ POOL_NIL ∧ u32 (c.off + p.size c.off) = d.off := by
    unfold Cell.stop POOL_SIZE POOL_NIL u32 at *
    omega
  have hnext : ∀ f, f ≠ c.off → update p.next c.off (p.next d.off) f = p.next f :=
    fun f hf => update_of_ne hf _ _
  have hsum : u32 (p.size c.off + p.size d.off) = c.size + d.size := by
    rw [hsc, hsd]
    exact u32_of_lt (by unfold POOL_SIZE at *; omega)
  simp only [merge_next, if_pos hmerge, hsum]
  have hold : ∀ {e}, e ∈ pre ∨ e ∈ post → e ∈ pre ∨ e ∈ d :: post :=
    fun he => he.imp_right (mem_cons_of_mem d)
  refine ⟨?_, ?_, ?_, ⟨_, hlow.congr ?_⟩, ?_, rfl, h1, ?_, ?_, ?_, h.top⟩
  · refine path_append.mpr ⟨_, htile, hoff, ?_⟩
    show Tile (c.off + (c.size + d.size)) post p.top
    exact hds ▸ hrest
  · refine forall_around.mpr ⟨by simp, fun e he => ?_⟩
    have hne := h.off_ne (hold he) (le_refl c.off) (by unfold Cell.stop POOL_HDR at *; omega)
    simp only [update_of_ne hne]
    exact (forall_around.mp h.size).2 e (hold he)
  · exact forall_around.mpr
      ⟨hcp.trans (le_self_add), fun e he => (forall_around.mp h.pos).2 e (hold he)⟩
  · intro f hf
    exact hnext f (ne_of_lt (hpre f hf))
  · simp only [update_self]
    rw [freeOffs_cons, if_pos hd] at hhigh hpost
    refine hhigh.2.congr (fun f hf => hnext f ?_)
    have := hpost f (by simp [hf])
    unfold Cell.stop POOL_HDR at *
    omega
  · exact isChain_cons.mpr ⟨fun e he hn => h4 e he ⟨hd, hn.2⟩, h5⟩
  · exact forall_around.mpr ⟨by simp, fun e he => (forall_around.mp h.room).2 e (hold he)⟩
  · simp [h.used_free hc, hd]

lemma Half.free_low (h : Half p pre c post) :
    (∀ f ∈ freeOffs pre, f < c.off) ∧ (∀ f ∈ freeOffs post, c.off < f) ∧
      (freeOffs pre).Nodup ∧ (∀ f ∈ freeOffs pre, f ≠ POOL_NIL) ∧ c.off < POOL_SIZE := by
  obtain ⟨hlow, hhigh, hnd, hnil⟩ := tile_free h.tile h.pos h.top
  have hc := ((tile_bounds h.tile).2 c (by simp)).2.trans h.top
  have hcp := h.pos c (by simp)
  unfold Cell.stop POOL_HDR at *
  exact ⟨hlow, fun f hf => by have := hhigh f hf; omega, hnd, hnil, by omega⟩

/-- No free chunk ends at `c` unless the chunk before it is free. -/
lemma last_free_ne (h : Tile a (pre ++ [d]) c.off)
    (hpos : ∀ e ∈ pre ++ [d], POOL_HDR ≤ e.size) (hd : d.owner ≠ none) :
    ∀ e ∈ pre ++ [d], e.owner = none → e.stop ≠ c.off := by
  intro e he hfree hstop
  obtain ⟨hpre, _⟩ := tile_split (show Tile a (pre ++ d :: []) c.off from h)
  obtain ⟨m, _, hm⟩ := path_append.mp h
  have hdp := hpos d (by simp)
  have hds : d.stop = c.off := hm.2
  rcases mem_append.mp he with he | he
  · have h1 := hpre e he
    unfold Cell.stop POOL_HDR at *
    omega
  · obtain rfl := mem_singleton.mp he
    exact hd hfree

/-- The chunk `c`, linked in after the free chunks below it. -/
lemma Half.link_in (h : Half p pre c post) (hlast : ∀ d ∈ pre.getLast?, d.owner ≠ none) :
    merge_prev p c.off (lastFree pre) =
        p.link (lastFree pre) c.off ∧
      Shape (p.link (lastFree pre) c.off) (pre ++ c :: post) := by
  obtain ⟨hlow, hhigh, hnd, hnil, hoff⟩ := h.free_low
  obtain ⟨m, hpath⟩ := h.low
  have hend : ∀ f ∈ freeOffs (c :: post), f < POOL_SIZE := by
    obtain ⟨m, -, hrest⟩ := path_append.mp h.tile
    exact fun f hf => (tile_free_lt hrest (fun e he => h.pos e (mem_append_right _ he)) hf).trans_le
      h.top
  constructor
  · unfold merge_prev Pool.link
    by_cases hn : lastFree pre = POOL_NIL
    · simp only [hn, ne_eq, not_true_eq_false, if_false, if_true]
    have hmem : lastFree pre ∈ freeOffs pre := by
      rcases mem_cons.mp (getLastD_mem_cons (l := freeOffs pre) (a := POOL_NIL)) with h1 | h1
      · exact absurd h1 hn
      · exact h1
    obtain ⟨e, he, hfree, heq⟩ := mem_freeOffs.mp hmem
    rw [← heq] at hn ⊢
    have hes : u32 (e.off + p.size e.off) ≠ c.off := by
      rw [h.size e (by simp [he])]
      rcases eq_nil_or_concat pre with rfl | ⟨pre', d, rfl⟩
      · simp at he
      rw [concat_eq_append] at *
      obtain ⟨k, htile, hk⟩ := path_append.mp h.tile
      obtain ⟨rfl, _⟩ := hk
      have h1 := last_free_ne htile (fun e he => h.pos e (by simp at he ⊢; tauto))
        (hlast d (by simp)) e he hfree
      have h2 := (tile_bounds htile).2 e he
      have h3 : c.off < 2 ^ 32 := hoff.trans (by decide)
      rw [u32_of_lt (by unfold Cell.stop at *; omega)]
      exact h1
    simp only [ne_eq, hn, not_false_eq_true, if_true, hes, if_false]
  · refine ⟨by simpa using h.tile, by simpa using h.size, h.pos, ?_, ?_,
      h.room, by simpa using h.used,
      by simpa using h.top⟩
    · rw [freeOffs_append, freeOffs_cons, if_pos h.isFree]
      refine path_append.mpr ⟨c.off, link_path hpath hnd hnil, rfl, ?_⟩
      rw [link_next_of_ne (last_free_lt hlow (le_refl _) hoff)]
      refine h.high.congr (fun f hf => link_next_of_ne (last_free_lt hlow (hhigh f hf).le ?_))
      exact hend f (by rw [freeOffs_cons, if_pos h.isFree]; exact mem_cons_of_mem _ hf)
    · refine isChain_append.mpr ⟨h.apart_low, h.apart_high, ?_⟩
      intro d hd e _ hde
      exact hlast d hd hde.1

/-- The chunk `c`, merged into the free chunk `d` before it. -/
lemma Half.merge_in (h : Half p (pre ++ [d]) c post) (hd : d.owner = none) :
    Shape (merge_prev p c.off d.off) (pre ++ ⟨d.off, d.size + c.size, none⟩ :: post) := by
  obtain ⟨hlow, hhigh, hnd, hnil, hoff⟩ := h.free_low
  obtain ⟨m, hpath⟩ := h.low
  have hdn : d.off ≠ POOL_NIL := hnil d.off (by simp [hd])
  have hdl : d.off < c.off := hlow d.off (by simp [hd])
  rw [freeOffs_append, freeOffs_cons, if_pos hd, freeOffs_nil] at hpath hnd
  have hdpre : d.off ∉ freeOffs pre :=
    fun hm => (nodup_append.mp hnd).2.2 d.off hm d.off (by simp) rfl
  obtain ⟨k, htile, hk⟩ := path_append.mp h.tile
  obtain ⟨l, htile', hl⟩ := path_append.mp htile
  obtain ⟨hl1, hl2⟩ := hl
  obtain ⟨hk1, hk2⟩ := hk
  have hadj : d.stop = c.off := hl2.trans hk1
  have hsd := h.size d (by simp)
  have hsc := h.size c (by simp)
  have hstop := ((tile_bounds h.tile).2 c (by simp)).2.trans h.top
  have hcs : c.stop = d.off + (d.size + c.size) := by
    unfold Cell.stop at *
    omega
  have hmerge : u32 (d.off + p.size d.off) = c.off := by
    rw [hsd, u32_of_lt (by unfold Cell.stop POOL_SIZE at *; omega)]
    exact hadj
  have hsum : u32 (p.size d.off + p.size c.off) = d.size + c.size := by
    rw [hsd, hsc]
    exact u32_of_lt (by unfold POOL_SIZE at *; omega)
  simp only [merge_prev, ne_eq, hdn, not_false_eq_true, if_true, hmerge, hsum]
  obtain ⟨h1, _, h2⟩ := isChain_append.mp h.apart_low
  obtain ⟨h3, h4⟩ := isChain_cons.mp h.apart_high
  have hold : ∀ {e}, e ∈ pre ∨ e ∈ post → e ∈ pre ++ [d] ∨ e ∈ post :=
    fun he => he.imp_left (mem_append_left [d])
  have hne : ∀ e, e ∈ pre ∨ e ∈ post → e.off ≠ d.off := by
    have hs : Tile 0 (pre ++ d :: (c :: post)) p.top := by
      simpa using h.tile
    obtain ⟨h5, h6⟩ := tile_split hs
    rintro e (he | he)
    · have h7 := h5 e he
      have h8 := h.pos e (by simp [he])
      unfold Cell.stop POOL_HDR at *
      omega
    · have h7 := h6 e (by simp [he])
      omega
  refine ⟨?_, ?_, ?_, ?_, ?_, ?_, ?_, h.top⟩
  · refine path_append.mpr ⟨_, htile', hl1, ?_⟩
    show Tile (d.off + (d.size + c.size)) post p.top
    exact hcs ▸ hk2
  · refine forall_around.mpr ⟨by simp, fun e he => ?_⟩
    simp only [update_of_ne (hne e he)]
    exact (forall_around.mp h.size).2 e (hold he)
  · exact forall_around.mpr ⟨(h.pos d (by simp)).trans (le_self_add),
      fun e he => (forall_around.mp h.pos).2 e (hold he)⟩
  · rw [freeOffs_append, freeOffs_cons, if_pos rfl]
    have hrel := hpath.relink (y := p.next c.off) hdpre
    obtain ⟨k', hk', hkd⟩ := path_append.mp hrel
    refine path_append.mpr ⟨k', hk', hkd.1, ?_⟩
    simp only [update_self]
    refine h.high.congr (fun f hf => update_of_ne ?_ _ _)
    have := hhigh f hf
    omega
  · refine isChain_append.mpr ⟨h1, isChain_cons.mpr ⟨?_, h4⟩, ?_⟩
    · exact fun e he hn => h3 e he ⟨h.isFree, hn.2⟩
    · intro x hx y hy hxy
      exact h2 x hx d (by simp) ⟨hxy.1, hd⟩
  · exact forall_around.mpr ⟨by simp, fun e he => (forall_around.mp h.room).2 e (hold he)⟩
  · simp [h.used, hd, h.isFree]

/-! ## The calls -/

lemma Shape.free_chunk (h : Shape p (pre ++ c :: post)) (hc : c.owner ≠ none) :
    ∃ q cs, ramfs_free_pool p (some (c.off + POOL_HDR)) = some q ∧ Shape q cs ∧
      blocks cs = blocks (pre ++ post) := by
  obtain ⟨hlow, hhigh, _, hnil⟩ := h.free_split
  obtain ⟨hfree, _, _⟩ := h.free_beside hc
  have hlen := h.free_length
  rw [freeOffs_append, length_append] at hlen
  have hwalk : insert_point { p with used := sub32 p.used c.size } c.off POOL_FUEL
    POOL_NIL p.free_head
      = some (lastFree pre, firstFree post) := by
    refine insert_point_spec hfree hnil hlow ?_ (by omega)
    intro f hf
    exact (le_self_add).trans (hhigh f hf)
  have hcall : ramfs_free_pool p (some (c.off + POOL_HDR)) =
      some (merge_prev (freed p c (firstFree post)) c.off (lastFree pre)) := by
    simp only [ramfs_free_pool, Nat.add_sub_cancel, h.size c (by simp), hwalk]
  -- the chunk is merged with what follows it first, then with what stands before it
  obtain ⟨e, post', hhalf, heoff, hblocks⟩ : ∃ e post',
      Half (freed p c (firstFree post)) pre e post' ∧ e.off = c.off ∧
      blocks (pre ++ e :: post') = blocks (pre ++ post) := by
    cases post with
    | nil =>
      exact ⟨_, _, h.half_apart hc (by simp), rfl, by simp [blocks_cons_free]⟩
    | cons d post =>
      by_cases hd : d.owner = none
      · refine ⟨⟨c.off, c.size + d.size, none⟩, post, ?_, rfl, by simp [blocks_cons_free, hd]⟩
        rw [firstFree, freeOffs_cons, if_pos hd, headD_cons]
        exact h.half_merge hc hd
      · refine ⟨_, _, h.half_apart hc ?_, rfl, by simp [blocks_cons_free]⟩
        simpa using hd
  rcases eq_nil_or_concat pre with rfl | ⟨pre, d, rfl⟩
  · obtain ⟨heq, hshape⟩ := hhalf.link_in (by simp)
    rw [← heq, heoff] at hshape
    exact ⟨_, _, hcall, hshape, hblocks⟩
  rw [concat_eq_append] at *
  by_cases hd : d.owner = none
  · have hshape := hhalf.merge_in hd
    rw [lastFree, freeOffs_append, freeOffs_cons, if_pos hd, freeOffs_nil, getLastD_concat] at hcall
    rw [heoff] at hshape
    refine ⟨_, _, hcall, hshape, ?_⟩
    rw [← hblocks]
    simp [blocks_cons_free, hd, hhalf.isFree]
  · obtain ⟨heq, hshape⟩ := hhalf.link_in (by simpa using hd)
    rw [← heq, heoff] at hshape
    exact ⟨_, _, hcall, hshape, hblocks⟩

/-- The request and the high-water mark fit a word together. -/
def NoWrap (p : Pool) (bytes : Nat) : Prop :=
  p.top + (POOL_HDR + (bytes + (POOL_ALIGN - 1)) / POOL_ALIGN * POOL_ALIGN) < 2 ^ 32

lemma alloc_need_of_noWrap (h : NoWrap p bytes) :
    p.top + alloc_need bytes < 2 ^ 32 ∧ POOL_HDR + bytes ≤ alloc_need bytes := by
  unfold NoWrap at h
  unfold alloc_need u32 POOL_HDR POOL_ALIGN at *
  omega

/-- The free chunk `c` fits, so the request takes it, whole or in part. -/
lemma Shape.take (h : Shape p (pre ++ c :: post)) (hc : c.owner = none)
    (hb : POOL_HDR + b ≤ need) (hfit : need ≤ c.size) :
    ∃ ds, Shape { take_chunk p need (lastFree pre) c.off with
        used := u32 ((take_chunk p need (lastFree pre) c.off).used +
          (take_chunk p need (lastFree pre) c.off).size c.off) } ds ∧
      (blocks ds).Perm (⟨c.off + POOL_HDR, b⟩ :: blocks (pre ++ c :: post)) := by
  have hsize := h.size c (by simp)
  have hcs := h.stop_le (c := c) (by simp)
  have hrem : sub32 (p.size c.off) need = c.size - need := by
    rw [hsize]
    exact sub32_of_le hfit (by unfold Cell.stop POOL_SIZE at hcs; omega)
  have hnext : u32 (c.off + need) = c.off + need :=
    u32_of_lt (by unfold Cell.stop POOL_SIZE at hcs; omega)
  simp only [take_chunk, hrem, hnext]
  by_cases hs : POOL_HDR + POOL_ALIGN ≤ c.size - need
  · simp only [if_pos hs, link_size, link_used, update_self]
    have hq := h.take_split hc hb (by unfold POOL_HDR POOL_ALIGN at *; omega)
    simp only [link_size] at hq
    refine ⟨_, hq, ?_⟩
    simp [blocks_cons_live, blocks_cons_free, hc]
  · simp only [if_neg hs, link_size, link_used, hsize]
    have hq := h.take_whole hc (hb.trans hfit)
    simp only [link_size] at hq
    refine ⟨_, hq, ?_⟩
    simp [blocks_cons_live, blocks_cons_free, hc]

lemma Shape.alloc (h : Shape p cs) (hw : NoWrap p bytes) :
    ∃ q ds r, ramfs_alloc_pool p bytes = some (r, q) ∧ Shape q ds ∧
      (blocks ds).Perm ((r.map (fun ptr => Block.mk ptr bytes)).toList ++ blocks cs) := by
  obtain ⟨hwrap, hneed⟩ := alloc_need_of_noWrap hw
  unfold ramfs_alloc_pool
  by_cases h0 : bytes = 0
  · exact ⟨p, cs, none, by simp [h0], h, by simp⟩
  simp only [if_neg h0]
  have hnil : ∀ f ∈ freeOffs cs, f ≠ POOL_NIL := by
    intro f hf
    have := h.free_lt f hf
    unfold POOL_SIZE at this
    unfold POOL_NIL
    omega
  have hfit := @first_fit_spec p (alloc_need bytes) _ _ POOL_NIL _ h.free hnil h.free_length
  rcases hfit with hnone | ⟨as, f, bs, hsplit, hfit, hfound⟩
  · -- no free chunk fits: carve one at the high-water mark
    rw [hnone]
    simp only [u32_of_lt hwrap]
    by_cases hroom : POOL_SIZE < p.top + alloc_need bytes
    · exact ⟨p, cs, none, by simp [hroom], h, by simp⟩
    have hle := (tile_bounds h.tile).1
    have hu : p.used + alloc_need bytes < 2 ^ 32 := by
      have := h.used
      omega
    refine ⟨_, _, some (p.top + POOL_HDR), ?_, h.carve hneed (Nat.not_lt.mp hroom), ?_⟩
    · simp [hroom, u32_of_lt hu]
    · have hb : blocks [⟨p.top, alloc_need bytes, some bytes⟩] = [⟨p.top + POOL_HDR, bytes⟩] := rfl
      rw [blocks_append, hb]
      exact perm_append_comm
  · rw [hfound]
    obtain ⟨pre, rest, rfl, hpre, hrest⟩ := filterMap_eq_append_iff.mp hsplit
    obtain ⟨skip, c, post, rfl, hskip, hcf, hpost⟩ := filterMap_eq_cons_iff.mp hrest
    have hc : c.owner = none ∧ c.off = f := by
      simpa [Cell.free?] using hcf
    obtain ⟨hc, rfl⟩ := hc
    have hfo : freeOffs (pre ++ skip) = as := by
      rw [freeOffs_append]
      have hs : freeOffs skip = [] := by
        rw [freeOffs, filterMap_eq_nil_iff]
        exact hskip
      rw [hs, append_nil]
      exact hpre
    rw [← append_assoc] at h ⊢
    rw [h.size c (by simp)] at hfit
    obtain ⟨ds, hds, hperm⟩ := h.take hc hneed hfit
    rw [lastFree, hfo] at hds
    exact ⟨_, ds, some (c.off + POOL_HDR), rfl, hds, hperm⟩

/-! ## Runs of the allocator -/

/-- The pool and the live blocks: those that a call returned and no call freed. -/
structure PoolRun where
  pool : Pool
  live : List Block

inductive PoolOp where
  | alloc (bytes : UInt32)
  | free (b : Block)

def pool_step (s : PoolRun) : PoolOp → Option PoolRun
  | .alloc bytes =>
    (ramfs_alloc_pool s.pool bytes.toNat).map fun (r, p) =>
      ⟨p, (r.map (fun ptr => Block.mk ptr bytes.toNat)).toList ++ s.live⟩
  | .free b => (ramfs_free_pool s.pool (some b.ptr)).map fun p => ⟨p, s.live.erase b⟩

/-- A caller frees only a block that it holds. -/
def Legal (s : PoolRun) : PoolOp → Prop
  | .alloc _ => True
  | .free b => b ∈ s.live

instance (s : PoolRun) : ∀ op, Decidable (Legal s op)
  | .alloc _ => inferInstanceAs (Decidable True)
  | .free b => inferInstanceAs (Decidable (b ∈ s.live))

/-- No allocation of the step wraps a word. -/
def StepNoWrap (s : PoolRun) : PoolOp → Prop
  | .alloc bytes => NoWrap s.pool bytes.toNat
  | .free _ => True

instance (s : PoolRun) : ∀ op, Decidable (StepNoWrap s op)
  | .alloc bytes => inferInstanceAs (Decidable (s.pool.top +
      (POOL_HDR + (bytes.toNat + (POOL_ALIGN - 1)) / POOL_ALIGN * POOL_ALIGN) < 2 ^ 32))
  | .free _ => inferInstanceAs (Decidable True)

/-- The pool as it must stand: `chunks` are the offsets of its chunks and `free`
those on the free list. -/
structure PoolLaid (s : PoolRun) (chunks free : List Nat) : Prop where
  tile : Path id (fun o => o + s.pool.size o) 0 chunks s.pool.top
  top : s.pool.top ≤ POOL_SIZE
  pos : ∀ o ∈ chunks, 0 < s.pool.size o
  free_list : Path id s.pool.next s.pool.free_head free POOL_NIL
  free_sorted : free.Pairwise (· < ·)
  free_apart : ∀ f ∈ free, f + s.pool.size f ∉ free
  split : (s.live.map (fun b => b.ptr - POOL_HDR) ++ free).Perm chunks
  room : ∀ b ∈ s.live, POOL_HDR ≤ b.ptr ∧ POOL_HDR + b.bytes ≤ s.pool.size (b.ptr - POOL_HDR)
  disjoint : s.live.Pairwise (fun a b => a.ptr - POOL_HDR + s.pool.size (a.ptr - POOL_HDR) ≤
    b.ptr - POOL_HDR ∨
    b.ptr - POOL_HDR + s.pool.size (b.ptr - POOL_HDR) ≤ a.ptr - POOL_HDR)
  used : s.pool.used = (s.live.map (fun b => s.pool.size (b.ptr - POOL_HDR))).sum

def PoolOk (s : PoolRun) : Prop := ∃ chunks free, PoolLaid s chunks free

def PoolInv (s : PoolRun) : Prop := ∃ cs, Shape s.pool cs ∧ s.live.Perm (blocks cs)

lemma pool_step_inv (s : PoolRun) (op : PoolOp) (h : PoolInv s)
    (hok : Legal s op ∧ StepNoWrap s op) : ∃ t, pool_step s op = some t ∧ PoolInv t := by
  obtain ⟨cs, hshape, hlive⟩ := h
  cases op with
  | alloc bytes =>
    obtain ⟨q, ds, r, hcall, hq, hperm⟩ := hshape.alloc hok.2
    refine ⟨⟨q, _⟩, by simp only [pool_step, hcall, map_some]; rfl, ds, hq, ?_⟩
    exact (List.Perm.append_left _ hlive).trans hperm.symm
  | free b =>
    have hb : b ∈ blocks cs := hlive.mem_iff.mp hok.1
    obtain ⟨c, hc, hcb⟩ := mem_filterMap.mp hb
    obtain ⟨pre, post, rfl⟩ := append_of_mem hc
    obtain ⟨n, hn, rfl⟩ := map_eq_some_iff.mp hcb
    obtain ⟨q, ds, hcall, hq, hds⟩ := hshape.free_chunk (by simp [hn])
    refine ⟨⟨q, _⟩, by simp only [pool_step, hcall, map_some]; rfl, ds, hq, ?_⟩
    rw [blocks_append, blocks_cons_live post hn] at hlive
    have hmid := (hlive.trans perm_middle).erase ⟨c.off + POOL_HDR, n⟩
    rw [erase_cons_head, ← blocks_append, ← hds] at hmid
    exact hmid

lemma tile_offs (h : Tile a cs z) (hs : ∀ c ∈ cs, p.size c.off = c.size) :
    Path id (fun o => o + p.size o) a (cs.map Cell.off) z := by
  induction cs generalizing a with
  | nil => exact h
  | cons c cs ih =>
    refine ⟨h.1, ?_⟩
    show Path id (fun o => o + p.size o) (c.off + p.size c.off) (cs.map Cell.off) z
    rw [hs c (by simp)]
    exact ih h.2 (fun d hd => hs d (by simp [hd]))

/-- Every chunk is on the free list or holds one live block. -/
lemma blocks_free_perm (cs : List Cell) :
    ((blocks cs).map (fun b => b.ptr - POOL_HDR) ++ freeOffs cs).Perm (cs.map Cell.off) := by
  induction cs with
  | nil => exact List.Perm.refl _
  | cons c cs ih =>
    cases hc : c.owner with
    | none =>
      rw [blocks_cons_free cs hc, freeOffs_cons, if_pos hc, map_cons]
      exact perm_middle.trans (ih.cons _)
    | some b =>
      rw [blocks_cons_live cs hc, freeOffs_cons, if_neg (by simp [hc])]
      exact ih.cons _

lemma blocks_sum (hs : ∀ c ∈ cs, p.size c.off = c.size) :
    ((blocks cs).map (fun b => p.size (b.ptr - POOL_HDR))).sum = liveSize cs := by
  induction cs with
  | nil => rfl
  | cons c cs ih =>
    have ih := ih (fun d hd => hs d (by simp [hd]))
    cases hc : c.owner with
    | none => rw [blocks_cons_free cs hc, ih, liveSize_cons, if_pos hc, zero_add]
    | some b =>
      rw [blocks_cons_live cs hc, liveSize_cons, if_neg (by simp [hc]), ← ih]
      simp [hs c (by simp)]

lemma poolOk_of_inv (s : PoolRun) (h : PoolInv s) : PoolOk s := by
  obtain ⟨cs, h, hlive⟩ := h
  have hblock : ∀ b ∈ blocks cs, ∃ c ∈ cs, c.off = b.ptr - POOL_HDR ∧ c.owner = some b.bytes ∧
      POOL_HDR ≤ b.ptr := by
    intro b hb
    obtain ⟨c, hc, hcb⟩ := mem_filterMap.mp hb
    obtain ⟨n, hn, rfl⟩ := map_eq_some_iff.mp hcb
    exact ⟨c, hc, by simp, hn, by simp⟩
  refine ⟨cs.map Cell.off, freeOffs cs, tile_offs h.tile h.size, h.top, ?_, h.free,
    (tile_free_sorted h.tile h.pos),
    ?_, ?_, ?_, ?_, ?_⟩
  · intro o ho
    obtain ⟨c, hc, rfl⟩ := List.mem_map.mp ho
    rw [h.size c hc]
    exact Nat.lt_of_lt_of_le (by decide) (h.pos c hc)
  · intro f hf hstop
    obtain ⟨c, hc, hcf, rfl⟩ := mem_freeOffs.mp hf
    rw [h.size c hc] at hstop
    obtain ⟨pre, post, rfl⟩ := append_of_mem hc
    obtain ⟨d, hd, hdf, hdo⟩ := mem_freeOffs.mp hstop
    obtain ⟨hpre, hpost⟩ := tile_split h.tile
    have hdp := h.pos d hd
    rcases mem_append.mp hd with hd | hd
    · have := hpre d hd
      unfold Cell.stop POOL_HDR at *
      omega
    rcases mem_cons.mp hd with rfl | hd
    · unfold POOL_HDR at *
      omega
    -- a free chunk that starts where `c` ends is the next one
    cases post with
    | nil => simp at hd
    | cons e post =>
      obtain ⟨_, h2, _⟩ := isChain_append.mp h.apart
      have hce := (isChain_cons_cons.mp h2).1
      have htail := (path_append.mp h.tile).choose_spec.2
      rcases mem_cons.mp hd with rfl | hd
      · exact hce ⟨hcf, hdf⟩
      have h3 := ((tile_bounds htail.2.2).2 d hd).1
      have h4 : c.stop = e.off := htail.2.1
      have h5 := h.pos e (by simp)
      unfold Cell.stop POOL_HDR at *
      omega
  · exact (List.Perm.append_right _ (hlive.map _)).trans (blocks_free_perm cs)
  · intro b hb
    obtain ⟨c, hc, hoff, hown, hptr⟩ := hblock b (hlive.mem_iff.mp hb)
    rw [← hoff, h.size c hc]
    exact ⟨hptr, h.room c hc b.bytes hown⟩
  · refine (hlive.pairwise_iff (fun hab => hab.symm)).mpr ?_
    refine List.Pairwise.filterMap Cell.block? ?_ (List.Pairwise.and_mem.mp (tile_sorted h.tile))
    rintro c d ⟨hc, hd, hcd⟩ x hx y hy
    obtain ⟨n, hn, rfl⟩ := map_eq_some_iff.mp hx
    obtain ⟨m, hm, rfl⟩ := map_eq_some_iff.mp hy
    simp only [Nat.add_sub_cancel, h.size c hc]
    exact .inl hcd
  · rw [h.used, ← blocks_sum h.size]
    exact ((hlive.map _).sum_nat).symm

lemma poolInv_init : PoolInv ⟨ramfs_init, []⟩ := by
  refine ⟨[], ⟨rfl, by simp, by simp, rfl, List.IsChain.nil, by simp, rfl, Nat.zero_le _⟩, ?_⟩
  exact List.Perm.refl _

/-- In every run of allocations and of frees of live blocks in which no request
wraps a word, every call returns and the pool stands as it must. -/
theorem pool_stands_in_every_run (ops : List PoolOp)
    (h : RunOk pool_step (fun s op => Legal s op ∧ StepNoWrap s op) ⟨ramfs_init, []⟩ ops) :
    ∃ s, run pool_step ⟨ramfs_init, []⟩ ops = some s ∧ PoolOk s := by
  obtain ⟨s, hs, hinv⟩ := run_invariant pool_step_inv poolInv_init h
  exact ⟨s, hs, poolOk_of_inv s hinv⟩

theorem pool_stands_after_a_free :
    ∃ s, run pool_step ⟨ramfs_init, []⟩ [.alloc 100, .alloc 7, .free ⟨16, 100⟩] = some s ∧
      PoolOk s := pool_stands_in_every_run _ (by decide)

/-- A pool without blocks is one free chunk up to its top. -/
theorem an_idle_pool_is_one_chunk (ops : List PoolOp)
    (h : RunOk pool_step (fun s op => Legal s op ∧ StepNoWrap s op) ⟨ramfs_init, []⟩ ops) :
    ∃ s, run pool_step ⟨ramfs_init, []⟩ ops = some s ∧ (s.live = [] → s.pool.used = 0 ∧
      (s.pool.top = 0 ∨ s.pool.free_head = 0 ∧ s.pool.size 0 = s.pool.top ∧
        s.pool.next 0 = POOL_NIL)) := by
  obtain ⟨s, hs, cs, hshape, hperm⟩ := run_invariant pool_step_inv poolInv_init h
  refine ⟨s, hs, fun hnone => ?_⟩
  have hfree : ∀ c ∈ cs, c.owner = none := by
    simpa [hnone, blocks, Cell.block?] using hperm
  obtain ⟨htile, hsize, -, hlinks, hapart, -, hused, -⟩ := hshape
  -- two chunks would be free neighbours
  rcases cs with _ | ⟨c, _ | ⟨d, cs⟩⟩
  · simp_all [liveSize]
  · simp_all [liveSize, Cell.stop]
    omega
  · simp_all

theorem two_blocks_are_freed : ∃ s, run pool_step ⟨ramfs_init, []⟩
      [.alloc 9, .alloc 7, .free ⟨16, 9⟩, .free ⟨48, 7⟩] = some s ∧ s.pool.used = 0 := by
  obtain ⟨s, hs, h⟩ := an_idle_pool_is_one_chunk
    [.alloc 9, .alloc 7, .free ⟨16, 9⟩, .free ⟨48, 7⟩] (by decide)
  have hl := congrArg (Option.map PoolRun.live) hs
  exact ⟨s, hs, (h (Option.some.inj hl).symm).1⟩

/-- A request of `0xFFFFFFFF` bytes wraps to a chunk of 16 bytes: the caller gets
a block with no room at all. -/
theorem a_huge_request_gets_no_room : RunOk pool_step Legal ⟨ramfs_init, []⟩ [.alloc 0xFFFFFFFF] ∧
      ∃ s, run pool_step ⟨ramfs_init, []⟩ [.alloc 0xFFFFFFFF] = some s ∧ ¬ PoolOk s := by
  refine ⟨by decide, _, rfl, ?_⟩
  rintro ⟨chunks, free, h⟩
  have hroom := (h.room ⟨16, 0xFFFFFFFF⟩ (by decide)).2
  revert hroom
  decide

end uaos.ramfs
