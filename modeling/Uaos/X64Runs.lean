-- Runs of the x64 heap: allocations, reservations, frees of one block, of a range and of a task,
-- and programs that write into what they were given. The loans beside the heap say what each
-- call that was not answered with NULL asked for.
import Uaos.X64Free
import Uaos.Run

namespace uaos.x64

open List Option Heap

variable {b : Blk} {h' : Heap} {bs' xs ys : List Blk} {addr align owner p ptr size : Nat}

/-! ## The system -/

/-- A payload that a call gave, with the range and the alignment that were asked for and the
owner that the block has now. -/
structure Loan where
  ptr : Nat
  addr : Nat
  size : Nat
  align : Nat
  owner : Nat

structure State where
  heap : Heap
  loans : List Loan

/-- Any sizes, any addresses and every power of two that fits in a word. -/
inductive HeapOp where
  | alloc (size : UInt64) (k : Fin 64) (owner : UInt64) (refused : Bool)
  | reserve (addr size owner : UInt64)
  | free (ptr : UInt64)
  | free_range (addr size : UInt64)
  | free_task (task : UInt64)
  | own (owner ptr : UInt64)
  | write (ptr i : Nat) (v : UInt8)

namespace State

def boot (mem : Buf) : State := ⟨⟨mem, 0, 0⟩, []⟩

def lend (s : State) (h : Heap) (l : Loan) : State :=
  ⟨h, if l.ptr = 0 then s.loans else l :: s.loans⟩

/-- An allocation, with the payload that it returns. -/
def alloc (A : Arena) (s : State) (size align owner : Nat) (refused : Bool) :
    Option (State × Nat) :=
  (s.heap.x64_heap_alloc A.heap0 size align owner refused).map fun r =>
    (s.lend r.1 ⟨r.2, r.2, size, align, owner⟩, r.2)

/-- A reservation, with the payload that it returns. -/
def reserve (A : Arena) (s : State) (addr size owner : Nat) : Option (State × Nat) :=
  (s.heap.x64_heap_reserve A.heap0 addr size owner).map fun r =>
    (s.lend r.1 ⟨r.2, addr, size, 1, owner⟩, r.2)

def free (A : Arena) (s : State) (ptr : Nat) : State :=
  ⟨s.heap.x64_heap_free A.heap0 ptr, s.loans.filter fun l => l.ptr ≠ ptr⟩

/-- The loan around an address gets another owner. -/
def own (s : State) (owner ptr : Nat) : Option State :=
  (s.heap.ELF64_HeapOwn owner ptr).map fun h =>
    ⟨h, s.loans.map fun l =>
      if spans ptr s.heap (l.ptr - X64_BLK_HDR) then { l with owner := owner } else l⟩

/-- The range of `HeapFreeRange`. -/
def range_end (addr size : Nat) : Nat := u64 (addr + if size = 0 then 1 else size)

def free_range (A : Arena) (s : State) (addr size : Nat) : Option State :=
  (s.heap.ELF64_HeapFreeRange A.heap0 addr size Heap.walk).map fun h =>
    ⟨h, s.loans.filter fun l =>
      !overlaps addr (range_end addr size) s.heap (l.ptr - X64_BLK_HDR)⟩

def free_task (A : Arena) (s : State) (task : Nat) : Option State :=
  (s.heap.ELF64_FreeTaskBlocks A.heap0 task Heap.walk).map fun h =>
    ⟨h, s.loans.filter fun l => l.owner ≠ task⟩

/-- A program writes a byte into memory that it was given. -/
def write (s : State) (ptr i : Nat) (v : UInt8) : State :=
  match s.loans.find? fun l => l.ptr = ptr ∧ i < l.size with
  | none => s
  | some l => { s with heap := { s.heap with mem := put s.heap.mem (l.addr + i) [v] } }

def step (A : Arena) (s : State) : HeapOp → Option State
  | .alloc size k owner refused =>
    (s.alloc A size.toNat (2 ^ k.val) owner.toNat refused).map Prod.fst
  | .reserve addr size owner => (s.reserve A addr.toNat size.toNat owner.toNat).map Prod.fst
  | .free ptr => some (s.free A ptr.toNat)
  | .free_range addr size => s.free_range A addr.toNat size.toNat
  | .free_task task => s.free_task A task.toNat
  | .own owner ptr => s.own owner.toNat ptr.toNat
  | .write ptr i v => some (s.write ptr i v)

def alloc_ok (A : Arena) (s : State) (size align : Nat) (refused : Bool) : Bool :=
  refused || s.heap.alloc_ok A.heap0 size align

def free_ok (A : Arena) (s : State) (ptr : Nat) : Bool :=
  (s.loans.any fun l => l.ptr = ptr) || s.heap.x64_free_target A.heap0 ptr = none

/-- An allocation finds a block that really has room and leaves no gap of 16 bytes in front, a
reservation ends at a multiple of 16 or needs no tail, and a pointer that is freed was given to
the caller or does not pass the check of its header. -/
def op_ok (A : Arena) (s : State) : HeapOp → Bool
  | .alloc size k _ refused => s.alloc_ok A size.toNat (2 ^ k.val) refused
  | .reserve addr size _ => s.heap.reserve_ok A.heap0 addr.toNat size.toNat
  | .free ptr => s.free_ok A ptr.toNat
  | _ => true

end State

/-! ## The invariant -/

/-- Every loan lies in the payload of its own used block, and every used block is on loan. -/
structure Booked (a : Nat) (bs : List Blk) (loans : List Loan) : Prop where
  held : ∀ l ∈ loans, ∃ b, Uses a bs (l.ptr - 48) b ∧ b.owner = l.owner ∧ 48 ≤ l.ptr ∧
    l.ptr ≤ l.addr ∧ l.addr + l.size ≤ l.ptr - 48 + b.size ∧ l.align ∣ l.addr
  listed : ∀ x b, Uses a bs x b → ∃ l ∈ loans, l.ptr = x + 48
  once : loans.Pairwise fun l m => l.ptr ≠ m.ptr

/-- The arena has not been set up yet, or the blocks tile it. -/
def Sound (A : Arena) (s : State) : Prop := (s.heap.first = 0 ∧ s.heap.live = 0 ∧ s.loans = []) ∨
  ∃ a bs, Good A s.heap a bs ∧ Booked a bs s.loans

section runs

variable {A : Arena} {h : Heap} {s : State} {a : Nat} {bs : List Blk} {loans : List Loan}

lemma Sound.good {l : Loan} (hs : Sound A s) (hl : l ∈ s.loans) :
    ∃ a bs, Good A s.heap a bs ∧ Booked a bs s.loans := by
  rcases hs with ⟨-, -, hloans⟩ | hs
  · rw [hloans] at hl
    cases hl
  · exact hs

lemma reset_good (A : Arena) (h : Heap) :
    Good A (h.x64_heap_reset A.heap0) A.heap0 [⟨X64_HEAP_SIZE, false, 0⟩] := by
  refine ⟨⟨rfl, le_refl _, ?_, A.aligned, ⟨?_, trivial⟩, rfl, ?_⟩, isChain_singleton _, rfl,
    ?_, ?_⟩
  · exact Nat.lt_add_of_pos_right (by decide)
  · have hend : link A.stop (A.heap0 + X64_HEAP_SIZE) = 0 := if_pos rfl
    unfold x64_heap_reset
    constructor <;>
      simp (disch := decide) only [get_set_live, get_set_first, get_put_same,
        get_put_field, hend, Blk.flags]
    rfl
  · rintro b (_ | ⟨_, ⟨⟩⟩)
    exact sized_mk (by decide) (by decide)
  · rintro b (_ | ⟨_, ⟨⟩⟩) _
    rfl
  · intro x b hb
    rw [uses_free rfl] at hb
    exact absurd hb uses_nil

lemma reset_booked (A : Arena) : Booked A.heap0 [⟨X64_HEAP_SIZE, false, 0⟩] [] := by
  refine ⟨fun l hl => absurd hl not_mem_nil, fun x b hb => ?_, .nil⟩
  rw [uses_free rfl] at hb
  exact absurd hb uses_nil

lemma Good.ready (hg : Good A h a bs) : h.ready A.heap0 = h := by
  have := hg.tiles.low
  have := hg.tiles.first
  have := A.low
  exact if_neg (by omega)

/-- Before an allocation or a reservation the arena is set up. -/
lemma Sound.ready (hs : Sound A s) :
    ∃ a bs, Good A (s.heap.ready A.heap0) a bs ∧ Booked a bs s.loans := by
  rcases hs with ⟨hfirst, -, hloans⟩ | ⟨a, bs, hg, hb⟩
  · refine ⟨A.heap0, [⟨X64_HEAP_SIZE, false, 0⟩], ?_, ?_⟩
    · rw [Heap.ready, if_pos hfirst]
      exact reset_good A s.heap
    · rw [hloans]
      exact reset_booked A
  · exact ⟨a, bs, by rwa [hg.ready], hb⟩

lemma ready_ready : (h.ready A.heap0).ready A.heap0 = h.ready A.heap0 := by
  by_cases hfirst : h.first = 0
  · rw [show h.ready A.heap0 = h.x64_heap_reset A.heap0 from if_pos hfirst]
    exact if_neg (ne_of_gt A.low)
  · rw [show h.ready A.heap0 = h from if_neg hfirst]
    exact if_neg hfirst

/-! ## What a call does to the loans -/

lemma Booked.add {a' : Nat}
    (hb : Booked a bs loans) (hg : Gave A a bs h' p addr size owner a' bs' b)
    (halign : align ∣ addr) : Booked a' bs' (⟨p, addr, size, align, owner⟩ :: loans) := by
  refine ⟨?_, ?_, ?_⟩
  · rintro l (_ | ⟨_, hl⟩)
    · exact ⟨b, hg.block, hg.owner, hg.header, hg.low, hg.high, halign⟩
    · obtain ⟨c, hc, howner, hptr, hlow, hhigh, hdvd⟩ := hb.held l hl
      obtain ⟨d, hd, hsize, hsame⟩ := hg.adds.kept _ c hc
      exact ⟨d, hd, hsame.trans howner, hptr, hlow, by omega, hdvd⟩
  · intro x c hc
    have hp := hg.header
    rcases hg.adds.old x c hc with rfl | ⟨d, hd⟩
    · exact ⟨_, mem_cons_self, by simp only; omega⟩
    · obtain ⟨l, hl, he⟩ := hb.listed x d hd
      exact ⟨l, mem_cons_of_mem _ hl, he⟩
  · refine pairwise_cons.mpr ⟨fun l hl he => ?_, hb.once⟩
    obtain ⟨c, hc, -⟩ := hb.held l hl
    rw [← he] at hc
    exact hg.adds.new c hc

/-- Blocks that are given back are no longer on loan. -/
lemma Booked.drop {q : Nat → Blk → Bool} {r : Loan → Bool}
    (hb : Booked a bs loans) (huses : ∀ x c, Uses a bs' x c ↔ Uses a bs x c ∧ q x c = false)
    (hr : ∀ l ∈ loans, ∀ b, Uses a bs (l.ptr - 48) b → (r l = true ↔ q (l.ptr - 48) b = false)) :
    Booked a bs' (loans.filter r) := by
  refine ⟨?_, ?_, hb.once.filter _⟩
  · intro l hl
    rw [mem_filter] at hl
    obtain ⟨c, hc, hrest⟩ := hb.held l hl.1
    exact ⟨c, (huses _ c).mpr ⟨hc, (hr l hl.1 c hc).mp hl.2⟩, hrest⟩
  · intro x c hc
    obtain ⟨hc, hq⟩ := (huses x c).mp hc
    obtain ⟨l, hl, he⟩ := hb.listed x c hc
    have hx : l.ptr - 48 = x := by omega
    refine ⟨l, mem_filter.mpr ⟨hl, (hr l hl c ?_).mpr ?_⟩, he⟩
    · rwa [hx]
    · rwa [hx]

/-- A byte in the payload of a used block is no part of a header. -/
lemma Good.write {x : Nat} {i : Nat} {v : UInt8} (hg : Good A h a bs)
    (hb : Uses a bs x b) (hlow : x + 48 ≤ i) (hhigh : i < x + b.size) :
    Good A { h with mem := put h.mem i [v] } a bs := by
  have hlay : Lay { h with mem := put h.mem i [v] } A.stop 0 a bs := by
    refine hg.tiles.lay.keep fun y c hc f => le64_congr fun k hk => put_outside ?_
    have := f.off_spec
    have := hg.tiles.placed_size hc
    simp only [length_singleton]
    rcases placed_apart hc hb.1 with ⟨rfl, -⟩ | hapart | hapart
    · omega
    · omega
    · omega
  exact ⟨⟨hg.tiles.first, hg.tiles.low, hg.tiles.start, hg.tiles.aligned, hlay, hg.tiles.ends,
    hg.tiles.sized⟩, hg.pairs, hg.live, hg.blank, hg.inside⟩

/-! ## One step -/

lemma alloc_ready (size align owner : Nat) :
    (h.ready A.heap0).x64_heap_alloc A.heap0 size align owner false =
      h.x64_heap_alloc A.heap0 size align owner false := by
  unfold x64_heap_alloc
  simp only [Bool.false_eq_true, if_false, ready_ready]

lemma reserve_ready (addr size owner : Nat) :
    (h.ready A.heap0).x64_heap_reserve A.heap0 addr size owner =
      h.x64_heap_reserve A.heap0 addr size owner := by
  unfold x64_heap_reserve
  simp only [ready_ready]

variable {t : Heap → Nat → Bool}

lemma search_before_setup (hfirst : h.first = 0) : h.search t = some none := by
  obtain ⟨n, hn⟩ : ∃ n, Heap.walk = n + 1 := ⟨2 ^ 64 - 1, rfl⟩
  rw [search, hn, hfirst, seek, if_pos (.inl rfl)]

/-- A loan that a call adds. -/
structure Lent (s t : State) (l : Loan) : Prop where
  loans : t.loans = l :: s.loans
  new : ∀ m ∈ s.loans, m.ptr ≠ l.ptr

lemma Sound.lend {g : Heap}
    (hb : Booked a bs s.loans) (hg : Good A g a bs) (halign : align ∣ addr)
    (hcall : h' = g ∧ p = 0 ∨ ∃ a' bs' b, Gave A a bs h' p addr size owner a' bs' b) :
    Sound A (s.lend h' ⟨p, addr, size, align, owner⟩) ∧
      (p ≠ 0 → Lent s (s.lend h' ⟨p, addr, size, align, owner⟩) ⟨p, addr, size, align, owner⟩) := by
  rcases hcall with ⟨rfl, rfl⟩ | ⟨a', bs', b, hgave⟩
  · exact ⟨.inr ⟨a, bs, hg, hb⟩, fun hp => absurd rfl hp⟩
  have hp : p ≠ 0 := by
    have := hgave.header
    omega
  have hnew := hb.add hgave halign
  unfold State.lend
  simp only [if_neg hp]
  refine ⟨.inr ⟨a', bs', hgave.good, hnew⟩, fun _ => ⟨rfl, fun m hm he => ?_⟩⟩
  exact (pairwise_cons.mp hnew.once).1 m hm he.symm

lemma Sound.alloc (hs : Sound A s) {k : Nat} {refused : Bool} (hk : k < 64)
    (howner : owner < 2 ^ 64) (hok : s.alloc_ok A size (2 ^ k) refused = true) :
    ∃ t p, s.alloc A size (2 ^ k) owner refused = some (t, p) ∧ Sound A t ∧
      (p = 0 → t.loans = s.loans) ∧ (p ≠ 0 → Lent s t ⟨p, p, size, 2 ^ k, owner⟩) := by
  cases refused with
  | true => exact ⟨s, 0, rfl, hs, fun _ => rfl, fun hp => absurd rfl hp⟩
  | false =>
    obtain ⟨a, bs, hg, hb⟩ := hs.ready
    have hok' : (s.heap.ready A.heap0).alloc_ok A.heap0 size (2 ^ k) = true := by
      unfold State.alloc_ok at hok
      unfold alloc_ok at hok ⊢
      rwa [ready_ready]
    unfold State.alloc
    rw [← alloc_ready]
    rcases hg.alloc hk howner ready_ready hok' with he | ⟨h', p, he, hdvd, hgave⟩
    · rw [he]
      refine ⟨_, _, rfl, ?_, fun _ => rfl, fun hp => absurd rfl hp⟩
      exact (Sound.lend hb hg (dvd_zero _) (.inl ⟨rfl, rfl⟩)).1
    · rw [he]
      obtain ⟨hsound, hlent⟩ := Sound.lend hb hg hdvd (.inr hgave)
      exact ⟨_, _, rfl, hsound, fun hp => if_pos hp, hlent⟩

lemma Sound.reserve (hs : Sound A s) (howner : owner < 2 ^ 64)
    (hok : s.heap.reserve_ok A.heap0 addr size = true) :
    ∃ t p, s.reserve A addr size owner = some (t, p) ∧ Sound A t ∧
      (p = 0 → t.loans = s.loans) ∧ (p ≠ 0 → Lent s t ⟨p, addr, size, 1, owner⟩) := by
  obtain ⟨a, bs, hg, hb⟩ := hs.ready
  have hok' : (s.heap.ready A.heap0).reserve_ok A.heap0 addr size = true := by
    unfold reserve_ok at hok ⊢
    rwa [ready_ready]
  unfold State.reserve
  rw [← reserve_ready]
  rcases hg.reserve howner ready_ready hok' with he | ⟨h', p, he, hgave⟩
  · rw [he]
    refine ⟨_, _, rfl, ?_, fun _ => rfl, fun hp => absurd rfl hp⟩
    exact (Sound.lend hb hg (one_dvd _) (.inl ⟨rfl, rfl⟩)).1
  · rw [he]
    obtain ⟨hsound, hlent⟩ := Sound.lend hb hg (one_dvd _) (.inr hgave)
    exact ⟨_, _, rfl, hsound, fun hp => if_pos hp, hlent⟩

lemma Sound.free (hs : Sound A s) (hok : s.free_ok A ptr = true) : Sound A (s.free A ptr) := by
  by_cases hany : ∃ l ∈ s.loans, l.ptr = ptr
  · obtain ⟨l, hl, hptr⟩ := hany
    obtain ⟨a, bs, hg, hb⟩ := hs.good hl
    obtain ⟨b, hub, -, h48, -⟩ := hb.held l hl
    obtain ⟨xs, ys, rfl, hx⟩ := placed_split hub.1
    obtain ⟨bs', hgood, -, huses⟩ := hg.free hub.2
    have hp : ptr = a + span xs + 48 := by omega
    refine .inr ⟨a, bs', ?_, ?_⟩
    · unfold State.free
      simp only
      rw [hp]
      exact hgood
    · refine hb.drop (q := fun x _ => x = a + span xs) (fun x c => ?_) fun m hm c hc => ?_
      · rw [huses, decide_eq_false_iff_not]
      · obtain ⟨-, -, -, hm48, -⟩ := hb.held m hm
        rw [decide_eq_true_eq, decide_eq_false_iff_not]
        omega
  · have htarget : s.heap.x64_free_target A.heap0 ptr = none := by
      simp only [State.free_ok, Bool.or_eq_true, List.any_eq_true, decide_eq_true_eq] at hok
      exact hok.resolve_left hany
    have hsame : s.heap.x64_heap_free A.heap0 ptr = s.heap := by
      rw [x64_heap_free, htarget]
    have hloans : (s.loans.filter fun l => l.ptr ≠ ptr) = s.loans := by
      rw [filter_eq_self]
      intro l hl
      rw [decide_eq_true_eq]
      exact fun he => hany ⟨l, hl, he⟩
    unfold State.free
    rw [hsame, hloans]
    exact hs

/-- The blocks of a property are given back, and with them their loans. -/
lemma Sound.sweep {q : Nat → Blk → Bool} {r : Loan → Bool} (hs : Sound A s)
    (htest : ∀ {h a xs b ys}, Tiles A h a (xs ++ b :: ys) → t h (a + span xs) = q (a + span xs) b)
    (hr : ∀ {a bs}, Good A s.heap a bs → ∀ l b, Uses a bs (l.ptr - 48) b → b.owner = l.owner →
      r l = !q (l.ptr - 48) b) :
    ∃ h', s.heap.sweep A.heap0 t Heap.walk = some h' ∧ Sound A ⟨h', s.loans.filter r⟩ ∧
      ((h'.first = 0) ∨ ∃ a bs, Good A h' a bs ∧ ∀ x b, Uses a bs x b → q x b = false) := by
  rcases hs with ⟨hfirst, hlive, hloans⟩ | ⟨a, bs, hg, hb⟩
  · refine ⟨s.heap, ?_, .inl ⟨hfirst, hlive, ?_⟩, .inl hfirst⟩
    · obtain ⟨n, hn⟩ : ∃ n, Heap.walk = n + 1 := ⟨2 ^ 64 - 1, rfl⟩
      rw [hn, Heap.sweep, search_before_setup hfirst]
    · rw [hloans]
      rfl
  have hfuel : used_total bs < Heap.walk := by
    have := used_total_le bs
    have := hg.tiles.ends
    have := A.stop_lt
    unfold Heap.walk
    omega
  obtain ⟨h', bs', hsweep, hgood, huses⟩ := hg.sweep htest hfuel
  refine ⟨h', hsweep, .inr ⟨a, bs', hgood, ?_⟩, .inr ⟨a, bs', hgood, ?_⟩⟩
  · refine hb.drop huses fun l hl c hc => ?_
    obtain ⟨b, hub, howner, -⟩ := hb.held l hl
    rw [hg.tiles.one_place hub.1 hc.1] at howner
    rw [hr hg l c hc howner, Bool.not_eq_true']
  · exact fun x b hxb => ((huses x b).mp hxb).2

lemma overlaps_eq {a0 a1 : Nat} (ht : Tiles A h a (xs ++ b :: ys)) :
    overlaps a0 a1 h (a + span xs) =
      decide (a + span xs < a1 ∧ a0 < a + span xs + b.size) := by
  rw [overlaps, ht.blk_end]

lemma owned_by_eq {task : Nat} (ht : Tiles A h a (xs ++ b :: ys)) :
    owned_by task h (a + span xs) = decide (b.owner = task) := by
  rw [owned_by, ht.header.owner]

lemma spans_eq (ht : Tiles A h a (xs ++ b :: ys)) : spans ptr h (a + span xs) =
      decide (a + span xs ≤ ptr ∧ ptr < a + span xs + b.size) := by
  rw [spans, ht.blk_end]

/-- The blocks that overlap a range are given back. -/
lemma Sound.free_range (hs : Sound A s) (addr size : Nat) :
    ∃ h', s.heap.ELF64_HeapFreeRange A.heap0 addr size Heap.walk = some h' ∧
      Sound A ⟨h', s.loans.filter fun l =>
        !overlaps addr (State.range_end addr size) s.heap (l.ptr - X64_BLK_HDR)⟩ ∧
      ((h'.first = 0) ∨ ∃ a bs, Good A h' a bs ∧ ∀ x b, Uses a bs x b →
        decide (x < State.range_end addr size ∧ addr < x + b.size) = false) := by
  refine hs.sweep (q := fun x b => decide (x < State.range_end addr size ∧ addr < x + b.size))
    overlaps_eq fun hg l b hb _ => ?_
  obtain ⟨xs, ys, rfl, hx⟩ := placed_split hb.1
  unfold X64_BLK_HDR
  rw [hx, overlaps_eq hg.tiles]

/-- The blocks of a task are given back. -/
lemma Sound.free_task (hs : Sound A s) (task : Nat) :
    ∃ h', s.heap.ELF64_FreeTaskBlocks A.heap0 task Heap.walk = some h' ∧
      Sound A ⟨h', s.loans.filter fun l => l.owner ≠ task⟩ ∧
      ((h'.first = 0) ∨ ∃ a bs, Good A h' a bs ∧ ∀ x b, Uses a bs x b →
        decide (b.owner = task) = false) := by
  refine hs.sweep (q := fun _ b => decide (b.owner = task)) owned_by_eq fun hg l b hb howner => ?_
  rw [howner]
  simp

lemma Sound.own (hs : Sound A s) (ptr : Nat) (howner : owner < 2 ^ 64) :
    ∃ t, s.own owner ptr = some t ∧ Sound A t := by
  unfold State.own
  rcases hs with ⟨hfirst, hlive, hloans⟩ | ⟨a, bs, hg, hb⟩
  · refine ⟨⟨s.heap, []⟩, ?_, .inl ⟨hfirst, hlive, rfl⟩⟩
    unfold Heap.ELF64_HeapOwn x64_blk_containing
    rw [search_before_setup hfirst, hloans]
    rfl
  obtain ⟨h', bs', he, hgood, hkept, hold⟩ := hg.own ptr howner
  rw [he]
  refine ⟨_, rfl, .inr ⟨a, bs', hgood, ?_, fun x c hc => ?_, ?_⟩⟩
  · intro m hm
    obtain ⟨l, hl, rfl⟩ := List.mem_map.mp hm
    obtain ⟨b, hub, hlo, hrest⟩ := hb.held l hl
    obtain ⟨c, hc, hsize, hco⟩ := hkept _ b hub
    obtain ⟨xs, ys, rfl, hx⟩ := placed_split hub.1
    have hspan : spans ptr s.heap (l.ptr - X64_BLK_HDR) =
        decide (l.ptr - 48 ≤ ptr ∧ ptr < l.ptr - 48 + b.size) := by
      unfold X64_BLK_HDR
      rw [hx, spans_eq hg.tiles]
    split
    · rename_i hin
      rw [hspan, decide_eq_true_eq] at hin
      rw [if_pos hin] at hco
      exact ⟨c, hc, hco, by rwa [hsize]⟩
    · rename_i hout
      rw [hspan, decide_eq_true_eq] at hout
      rw [if_neg hout] at hco
      exact ⟨c, hc, hco.trans hlo, by rwa [hsize]⟩
  · obtain ⟨b, hub⟩ := hold x c hc
    obtain ⟨l, hl, hptr⟩ := hb.listed x b hub
    refine ⟨_, List.mem_map.mpr ⟨l, hl, rfl⟩, ?_⟩
    split <;> exact hptr
  · rw [pairwise_map]
    refine hb.once.imp fun {l m} hne => ?_
    split <;> split <;> exact hne

lemma Sound.write (hs : Sound A s) (ptr i : Nat) (v : UInt8) : Sound A (s.write ptr i v) := by
  unfold State.write
  split
  · exact hs
  rename_i l hfind
  have hl := mem_of_find?_eq_some hfind
  have hi := find?_some hfind
  rw [decide_eq_true_eq] at hi
  obtain ⟨a, bs, hg, hb⟩ := hs.good hl
  obtain ⟨b, hub, -, hptr, hlow, hhigh, -⟩ := hb.held l hl
  exact .inr ⟨a, bs, hg.write hub (by omega) (by omega), hb⟩

lemma step_sound (s : State) (op : HeapOp) (hs : Sound A s) (hok : s.op_ok A op = true) :
    ∃ t, s.step A op = some t ∧ Sound A t := by
  cases op with
  | alloc size k owner refused =>
    obtain ⟨t, p, he, hsound, -⟩ := hs.alloc k.isLt owner.toNat_lt hok
    exact ⟨t, congrArg (Option.map Prod.fst) he, hsound⟩
  | reserve addr size owner =>
    obtain ⟨t, p, he, hsound, -⟩ := hs.reserve owner.toNat_lt hok
    exact ⟨t, congrArg (Option.map Prod.fst) he, hsound⟩
  | free ptr => exact ⟨_, rfl, hs.free hok⟩
  | free_range addr size =>
    obtain ⟨h', he, hsound, -⟩ := hs.free_range addr.toNat size.toNat
    exact ⟨_, congrArg (Option.map _) he, hsound⟩
  | free_task task =>
    obtain ⟨h', he, hsound, -⟩ := hs.free_task task.toNat
    exact ⟨_, congrArg (Option.map _) he, hsound⟩
  | own owner ptr => exact hs.own ptr.toNat owner.toNat_lt
  | write ptr i v => exact ⟨_, rfl, hs.write ptr i v⟩

lemma run_sound {mem : Buf} {ops : List HeapOp}
    (hok : RunOk (State.step A) (fun s op => s.op_ok A op = true) (State.boot mem) ops) :
    ∃ s, run (State.step A) (State.boot mem) ops = some s ∧ Sound A s :=
  run_invariant step_sound (.inl ⟨rfl, rfl, rfl⟩) hok

/-- Two ranges have no byte in common. -/
def Loan.Clear (l m : Loan) : Prop := l.addr + l.size ≤ m.addr ∨ m.addr + m.size ≤ l.addr

lemma Sound.clear (hs : Sound A s) : s.loans.Pairwise Loan.Clear := by
  rcases hs with ⟨-, -, hloans⟩ | ⟨a, bs, hg, hb⟩
  · rw [hloans]
    exact .nil
  refine hb.once.imp_of_mem fun {l m} hl hm hne => ?_
  obtain ⟨b, hub, -, hlptr, hllow, hlhigh, -⟩ := hb.held l hl
  obtain ⟨c, huc, -, hmptr, hmlow, hmhigh, -⟩ := hb.held m hm
  unfold Loan.Clear
  rcases placed_apart hub.1 huc.1 with ⟨he, -⟩ | hapart | hapart
  · omega
  · omega
  · omega

/-! ## Every run -/

/-- However the heap is used, its blocks tile the arena in address order with links in both
directions, their sizes are multiples of 16, no two neighbours are free, the counter is the size
of the used blocks, and the payloads that are out are aligned, large enough and apart. -/
theorem blocks_tile_the_arena_in_every_run (A : Arena) (mem : Buf) (ops : List HeapOp)
    (hok : RunOk (State.step A) (fun s op => s.op_ok A op = true) (State.boot mem) ops) :
    ∃ s, run (State.step A) (State.boot mem) ops = some s ∧ Sound A s ∧
      s.loans.Pairwise Loan.Clear := by
  obtain ⟨s, hrun, hs⟩ := run_sound hok
  exact ⟨s, hrun, hs, hs.clear⟩

/-- An arena at the address that the kernel is linked to. -/
def low_arena : Arena := ⟨0x1000000, by decide, by decide, by decide⟩

theorem a_short_run_tiles_the_arena : ∃ s, run (State.step low_arena) (State.boot fun _ => 0)
      [.alloc 100 12 7 false, .alloc 200 3 8 false, .reserve 0x1010000 0x1000 9,
        .write 0x1001000 3 255, .free 0x1001000, .free 0x1001000, .own 7 0x1010010,
        .free_range 0x1010020 1, .free_task 8] = some s ∧ Sound low_arena s ∧
      s.loans.Pairwise Loan.Clear := blocks_tile_the_arena_in_every_run _ _ _ (by decide +kernel)

/-- A heap without loans is one free block. -/
theorem an_idle_heap_is_one_block (A : Arena) (mem : Buf) (ops : List HeapOp)
    (hok : RunOk (State.step A) (fun s op => s.op_ok A op = true) (State.boot mem) ops) :
    ∃ s, run (State.step A) (State.boot mem) ops = some s ∧ (s.loans = [] → s.heap.live = 0 ∧
      (s.heap.first = 0 ∨ ∃ b, Tiles A s.heap s.heap.first [b] ∧ b.used = false)) := by
  obtain ⟨s, hs, hsound⟩ := run_sound hok
  refine ⟨s, hs, fun hnone => ?_⟩
  rcases hsound with ⟨hfirst, hlive, -⟩ | ⟨a, bs, hg, hb⟩
  · exact ⟨hlive, .inl hfirst⟩
  have hfree : ∀ b ∈ bs, b.used = false := by
    intro b hmem
    obtain ⟨xs, ys, rfl⟩ := append_of_mem hmem
    simpa [hnone, Uses, placed] using hb.listed (a + span xs) b
  obtain rfl := hg.tiles.first
  have hpairs := hg.pairs
  rcases bs with _ | ⟨b, _ | ⟨c, bs⟩⟩
  · have := hg.tiles.ends
    have := hg.tiles.start
    simp_all
  · exact ⟨by simp_all [hg.live, used_total], .inr ⟨b, hg.tiles, hfree b (by simp)⟩⟩
  · simp_all [NoFreePair]

theorem two_loans_are_returned : ∃ s, run (State.step low_arena) (State.boot fun _ => 0)
      [.alloc 9 0 7 false, .alloc 5 3 7 false, .free_task 7] = some s ∧
      s.heap.live = 0 := by
  obtain ⟨s, hs, h⟩ := an_idle_heap_is_one_block low_arena (fun _ => 0)
    [.alloc 9 0 7 false, .alloc 5 3 7 false, .free_task 7] (by decide +kernel)
  have hl := congrArg (Option.map State.loans) hs
  exact ⟨s, hs, (h (Option.some.inj hl).symm).1⟩

lemma Sound.first_block (hs : Sound A s) : s.heap.first = 0 ∨
      s.heap.get .prev s.heap.first = 0 ∧ s.heap.get .size s.heap.first % 16 = 0 := by
  rcases hs with ⟨hfirst, -⟩ | ⟨a, bs, hg, -⟩
  · exact .inl hfirst
  have hends := hg.tiles.ends
  have hstart := hg.tiles.start
  cases bs with
  | nil =>
    rw [span_nil] at hends
    omega
  | cons b bs =>
    have hb := hg.tiles.lay.1
    rw [hg.tiles.first, hb.prev, hb.size]
    exact .inr ⟨rfl, Nat.mod_eq_zero_of_dvd (hg.tiles.sized b mem_cons_self).2⟩

/-- A request for an alignment of 64 writes the new header over the links of the old one. A
reservation of one byte leaves a block of 49 bytes. -/
theorem headers_are_overwritten_and_cut_at_odd_sizes :
    (∃ s, run (State.step low_arena) (State.boot fun _ => 0) [.alloc 16 6 8 false] = some s ∧
      ¬ Sound low_arena s) ∧
    ∃ s, run (State.step low_arena) (State.boot fun _ => 0) [.reserve 0x1000030 1 7] = some s ∧
      ¬ Sound low_arena s := by
  constructor
  · obtain ⟨s, hrun, hbad⟩ : ∃ s, run (State.step low_arena) (State.boot fun _ => 0)
        [.alloc 16 6 8 false] = some s ∧ s.heap.first ≠ 0 ∧ s.heap.get .prev s.heap.first ≠ 0 :=
      run_ends (by decide +kernel)
    refine ⟨s, hrun, fun hs => ?_⟩
    rcases hs.first_block with hfirst | hblock
    · exact hbad.1 hfirst
    · exact hbad.2 hblock.1
  · obtain ⟨s, hrun, hbad⟩ : ∃ s, run (State.step low_arena) (State.boot fun _ => 0)
        [.reserve 0x1000030 1 7] = some s ∧ s.heap.first ≠ 0 ∧
        s.heap.get .size s.heap.first % 16 ≠ 0 := run_ends (by decide +kernel)
    refine ⟨s, hrun, fun hs => ?_⟩
    rcases hs.first_block with hfirst | hblock
    · exact hbad.1 hfirst
    · exact hbad.2 hblock.2

/-! ## Frees of a task and of a range -/

/-- There is no block yet, or every block has the property. -/
def EveryBlock (A : Arena) (h : Heap) (P : Nat → Blk → Prop) : Prop :=
  h.first = 0 ∨ ∃ a bs, Good A h a bs ∧ ∀ x b, (x, b) ∈ placed a bs → P x b

/-- In every state that can be reached, the loops that free the blocks of a task or of a range
end. Afterwards the task owns no block, and no used block overlaps the range. -/
theorem task_and_range_frees_end_and_leave_nothing (A : Arena) (mem : Buf) (ops : List HeapOp)
    (hok : RunOk (State.step A) (fun s op => s.op_ok A op = true) (State.boot mem) ops) :
    ∃ s, run (State.step A) (State.boot mem) ops = some s ∧
      (∀ task : UInt64, ∃ h', s.heap.ELF64_FreeTaskBlocks A.heap0 task.toNat Heap.walk = some h' ∧
        EveryBlock A h' fun _ b => b.used = true ∨ task.toNat ≠ 0 → b.owner ≠ task.toNat) ∧
      ∀ addr size : UInt64, addr.toNat + max size.toNat 1 < 2 ^ 64 →
        ∃ h', s.heap.ELF64_HeapFreeRange A.heap0 addr.toNat size.toNat Heap.walk = some h' ∧
          EveryBlock A h' fun x b => b.used = true →
            x + b.size ≤ addr.toNat ∨ addr.toNat + max size.toNat 1 ≤ x := by
  obtain ⟨s, hrun, hs⟩ := run_sound hok
  refine ⟨s, hrun, fun task => ?_, fun addr size hlt => ?_⟩
  · obtain ⟨h', he, -, hall⟩ := hs.free_task task.toNat
    refine ⟨h', he, hall.imp_right ?_⟩
    rintro ⟨a, bs, hg, hused⟩
    refine ⟨a, bs, hg, fun x b hb hcase howner => ?_⟩
    by_cases hu : b.used = true
    · have := hused x b ⟨hb, hu⟩
      rw [decide_eq_false_iff_not] at this
      exact this howner
    · obtain ⟨xs, ys, rfl, -⟩ := placed_split hb
      have hzero := hg.blank b (mem_append_cons_self)
        (Bool.eq_false_iff.mpr hu)
      exact (hcase.resolve_left hu) (howner.symm.trans hzero)
  · obtain ⟨h', he, -, hall⟩ := hs.free_range addr.toNat size.toNat
    refine ⟨h', he, hall.imp_right ?_⟩
    rintro ⟨a, bs, hg, hused⟩
    refine ⟨a, bs, hg, fun x b hb hu => ?_⟩
    have hclear := hused x b ⟨hb, hu⟩
    have hend : State.range_end addr.toNat size.toNat = addr.toNat + max size.toNat 1 := by
      unfold State.range_end
      split
      · rename_i hzero
        rw [hzero] at hlt ⊢
        exact u64_of_lt hlt
      · rw [Nat.max_eq_left (by omega)] at hlt ⊢
        exact u64_of_lt hlt
    rw [decide_eq_false_iff_not, hend] at hclear
    omega

theorem frees_after_a_short_run : ∃ s, run (State.step low_arena) (State.boot fun _ => 0)
      [.alloc 100 12 7 false, .reserve 0x1010000 0x1000 9] = some s ∧ (∀ task : UInt64,
        ∃ h', s.heap.ELF64_FreeTaskBlocks low_arena.heap0 task.toNat Heap.walk = some h' ∧
          EveryBlock low_arena h' fun _ b => b.used = true ∨ task.toNat ≠ 0 →
            b.owner ≠ task.toNat) ∧ ∀ addr size : UInt64, addr.toNat + max size.toNat 1 < 2 ^ 64 →
        ∃ h', s.heap.ELF64_HeapFreeRange low_arena.heap0 addr.toNat size.toNat Heap.walk = some h' ∧
          EveryBlock low_arena h' fun x b => b.used = true →
            x + b.size ≤ addr.toNat ∨ addr.toNat + max size.toNat 1 ≤ x :=
  task_and_range_frees_end_and_leave_nothing _ _ _ (by decide +kernel)

/-- A block that the check rejects is found again and again. -/
lemma sweep_never_ends {heap0 b : Nat} (hfind : h.search (used_and t) = some (some b))
    (htarget : h.x64_free_target heap0 (u64 (b + X64_BLK_HDR)) = none) (n : Nat) :
    h.sweep heap0 t n = none := by
  induction n with
  | zero => rfl
  | succ n ih =>
    rw [Heap.sweep, hfind]
    simp only
    rw [x64_heap_free, htarget]
    exact ih

/-- After a reservation of one byte neither loop ends. -/
theorem an_odd_reservation_is_freed_forever :
    ∃ s, run (State.step low_arena) (State.boot fun _ => 0) [.reserve 0x1000030 1 7] = some s ∧
      ∀ n, s.heap.ELF64_FreeTaskBlocks low_arena.heap0 7 n = none ∧
        s.heap.ELF64_HeapFreeRange low_arena.heap0 0x1000030 1 n = none := by
  obtain ⟨s, hrun, hbad⟩ : ∃ s, run (State.step low_arena) (State.boot fun _ => 0)
      [.reserve 0x1000030 1 7] = some s ∧
      s.heap.search (used_and (owned_by 7)) = some (some 0x1000000) ∧
      s.heap.search (used_and (overlaps 0x1000030 0x1000031)) = some (some 0x1000000) ∧
      s.heap.x64_free_target low_arena.heap0 0x1000030 = none := run_ends (by decide +kernel)
  exact ⟨s, hrun, fun n =>
    ⟨sweep_never_ends hbad.1 hbad.2.2 n, sweep_never_ends hbad.2.1 hbad.2.2 n⟩⟩

end runs

end uaos.x64
