-- Blocks in flight. Between the loading of a file and the second ELF64_HeapOwn a block is for a
-- child but has no owner, and a task between TASK_REMOVED and its end has blocks that nobody else
-- will free. The invariant says where each block is on its way.
import Uaos.X64Loans
import Uaos.X64Table

namespace uaos.task

open List Function

open x64

variable {l : Loan} {id ptr : Nat}

/-- The range that `ELF64_HeapFreeRange` is giving back. -/
def Point.range : Point → Option (Nat × Nat)
  | .undo_image r => some (r.image_base, r.image_size)
  | .undo_stack r => some (r.stack.base, r.stack.size)
  | _ => none

/-- The pieces that nobody has begun to give back. -/
def Point.flight : Point → List Piece
  | .undo_image r => [r.stack]
  | .undo_stack _ => []
  | p => p.pieces

/-- The points at which a task may lose the processor. -/
def Point.steady (p : Point) : Bool := !p.window && p.range.isNone

lemma Point.flight_subset {p : Point} {q : Piece} (h : q ∈ p.flight) : q ∈ p.pieces := by
  cases p with
  | undo_image r => exact mem_append_right _ h
  | undo_stack r => cases h
  | _ => exact h

namespace Sys

variable (M : Machine)

def in_flight (s : Sys) (ptr : Nat) : Bool :=
  (List.range s.count).any fun j => (s.tasks j).point.pieces.any fun q => q.ptr = ptr

/-- A pointer that is freed was given to a task, or the check of its header rejects it, and it is
not a piece in flight. -/
def free_fits (s : Sys) (ptr : Nat) : Bool := s.store.free_ok M.arena ptr && !s.in_flight ptr

def load_fits (s : Sys) (refused : Bool) : Segments → Bool
  | .empty => true
  | .dyn total => total ≠ 0 && s.store.alloc_ok M.arena total.toNat (2 ^ 12) refused
  | .exec lo hi => decide (lo.toNat < M.arena.heap0 ∨ M.arena.stop < hi.toNat) ||
      (decide (lo < hi) && s.store.heap.reserve_ok M.arena.heap0 lo.toNat (hi.toNat - lo.toNat))

def go_fits (s : Sys) (refused : Bool) : Point → Bool
  | .load_image elf _ => !elf.valid || s.load_fits M refused elf.segments
  | .load_stack _ _ _ => s.store.alloc_ok M.arena X64_STACK_SIZE (2 ^ 4) refused
  | .free_data data _ => data = 0 || s.free_fits M data
  | .reclaiming => !s.no_x64_left ||
      (List.range s.count).all fun j => (s.tasks j).point.pieces.isEmpty
  | _ => true

def act_fits (s : Sys) : Input → Bool
  | .alloc size refused => s.store.alloc_ok M.arena size.toNat (2 ^ 4) refused
  | .free ptr => s.free_fits M ptr.toNat
  | .spawn elf refused => s.me.type = .native ||
      s.store.alloc_ok M.arena elf.size.toNat (2 ^ 4) refused
  | _ => true

/-- A tick comes at a steady point, the arena is not reset while pieces are in flight, and the
calls of the heap meet the condition under which the blocks tile the arena. -/
def fits (s : Sys) : Input → Bool
  | .tick => s.me.point.steady
  | .wake _ => true
  | .go refused => s.go_fits M refused s.me.point
  | i => !s.at_user || s.act_fits M i

/-! ## The invariant -/

structure TaskInv (s : Sys) : Prop extends TableOk s where
  outside : ∀ j < s.count, j ≠ s.current → (s.tasks j).point.steady = true

structure KinInv (s : Sys) : Prop extends Families s where
  told : ∀ id < s.born, s.Alive id ∨ (s.me.id = id ∧ s.me.point = .signalling) ∨
    ∀ p, s.parent_of id = some p → s.Alive p → s.sent id = true

/-- The task can still free its blocks. -/
def Busy (s : Sys) (j : Nat) : Prop :=
  (s.tasks j).state ≠ .removed ∨ j = s.current ∧ (s.me.point = .signalling ∨ s.me.point = .freeing)

/-- A piece in flight lies in a loan without an owner. -/
def Held (loans : List Loan) (q : Piece) : Prop :=
  ∃ l ∈ loans, l.ptr = q.ptr ∧ l.owner = 0 ∧ l.addr ≤ q.base ∧ 0 < q.size ∧
    q.base + q.size ≤ l.addr + l.size

structure BlockInv (s : Sys) : Prop where
  held : ∀ j < s.count, ∀ q ∈ (s.tasks j).point.flight, Held s.store.loans q ∧
    s.whose q.ptr = (s.tasks j).point.heir.map fun c => (s.tasks c).id
  apart : ∀ i < s.count, ∀ j < s.count, ∀ q ∈ (s.tasks i).point.flight,
    ∀ r ∈ (s.tasks j).point.flight, q.ptr = r.ptr → i = j
  two : ∀ j < s.count, (s.tasks j).point.flight.Pairwise fun q r => q.ptr ≠ r.ptr
  owned : ∀ l ∈ s.store.loans, ∀ id, s.whose l.ptr = some id →
    ∃ j < s.count, (s.tasks j).id = id ∧ (s.tasks j).type = .x64 ∧ s.Busy j ∧
      (l.owner = (M.tcb j).toNat ∨
        s.me.point.heir = some j ∧ ∃ q ∈ s.me.point.flight, q.ptr = l.ptr)

/-- No piece in flight is in a block that `ELF64_HeapFreeRange` will find. -/
def Clear (s : Sys) : Prop := ∀ r, s.me.point.range = some r → ∀ l ∈ s.store.loans,
  Heap.overlaps r.1 (State.range_end r.1 r.2) s.store.heap (l.ptr - X64_BLK_HDR) = true →
    ∀ j < s.count, ∀ q ∈ (s.tasks j).point.flight, q.ptr ≠ l.ptr

structure Inv (s : Sys) : Prop where
  sound : Sound M.arena s.store
  table : TaskInv s
  kin : KinInv s
  block : BlockInv M s
  clear : Clear s

variable {M} {s t : Sys}

lemma steady_spec {p : Point} (h : p.steady = true) : p.window = false ∧ p.range = none := by
  obtain ⟨hw, hr⟩ := Bool.and_eq_true_iff.mp h
  exact ⟨Bool.not_eq_eq_eq_not.mp hw, Option.isNone_iff_eq_none.mp hr⟩

lemma steady_heir {p : Point} (h : p.steady = true) : p.heir = none := by
  cases p <;> first | rfl | cases h

lemma Clear.of_range (h : s.me.point.range = none) : Clear s := by
  intro r hr
  rw [h] at hr
  cases hr

/-! ## Steps of the scheduler -/

section

-- the processor goes to another task only at a steady point
variable (hi : Inv M s) (h : Same s t)
  (hcur : t.current = s.current ∨ t.current < s.count ∧ s.me.point.steady = true)
include hi h hcur

lemma Inv.same_table (hqueue : ∀ j ∈ t.ready, j < s.count) : TaskInv t := by
  have hlt : t.current < s.count := by
    rcases hcur with he | ⟨hlt, -⟩
    · exact he ▸ hi.table.cur
    · exact hlt
  refine ⟨hi.table.toTableOk.same h hlt hqueue, ?_⟩
  intro j hj hne
  rw [h.point]
  by_cases hjs : j = s.current
  · rcases hcur with he | ⟨-, hw⟩
    · exact absurd (hjs.trans he.symm) hne
    · rw [hjs]
      exact hw
  · exact hi.table.outside j (h.count ▸ hj) hjs

/-- The running task is the same one, or it stands at a steady point before and after. -/
lemma Inv.same_me : t.current = s.current ∧ t.me.point = s.me.point ∧ t.me.id = s.me.id ∨
    s.me.point.steady = true ∧ t.me.point.steady = true := by
  rcases hcur with he | ⟨hlt, hw⟩
  · refine .inl ⟨he, ?_⟩
    unfold me
    rw [he]
    exact ⟨h.point _, h.id _⟩
  · refine .inr ⟨hw, ?_⟩
    unfold me
    rw [h.point]
    by_cases hc : t.current = s.current
    · rw [hc]
      exact hw
    · exact hi.table.outside _ hlt hc

lemma Inv.same_kin : KinInv t := by
  refine ⟨hi.kin.toFamilies.same h, ?_⟩
  intro id hid
  rw [h.alive, h.sent, h.parent_of]
  simp only [h.alive]
  rcases hi.kin.told id (h.born ▸ hid) with ha | ⟨hmid, hp⟩ | htold
  · exact .inl ha
  · rcases hi.same_me h hcur with ⟨-, hpoint, hid'⟩ | ⟨hw, -⟩
    · refine .inr (.inl ?_)
      rw [hpoint, hid']
      exact ⟨hmid, hp⟩
    · rw [hp] at hw
      cases hw
  · exact .inr (.inr htold)

lemma Inv.same_block : BlockInv M t := by
  have hme := hi.same_me h hcur
  refine ⟨?_, ?_, ?_, ?_⟩
  · intro j hj q hq
    rw [h.point] at hq
    obtain ⟨hheld, hwhose⟩ := hi.block.held j (h.count ▸ hj) q hq
    refine ⟨h.store ▸ hheld, ?_⟩
    rw [h.whose, h.point, hwhose]
    simp only [h.id]
  · intro i hci j hcj q hq r hr
    rw [h.point] at hq hr
    exact hi.block.apart i (h.count ▸ hci) j (h.count ▸ hcj) q hq r hr
  · intro j hj
    rw [h.point]
    exact hi.block.two j (h.count ▸ hj)
  · intro l hl id hid
    rw [h.whose] at hid
    obtain ⟨j, hj, hjid, htype, hbusy, howner⟩ := hi.block.owned l (h.store ▸ hl) id hid
    refine ⟨j, h.count ▸ hj, (h.id j).trans hjid, (h.type j).trans htype, ?_, ?_⟩
    · rcases hbusy with hs | ⟨hjc, hp⟩
      · exact .inl fun hr => hs ((h.removed j).mp hr)
      rcases hme with ⟨he, hpoint, -⟩ | ⟨hw, -⟩
      · refine .inr ⟨hjc.trans he.symm, ?_⟩
        rw [hpoint]
        exact hp
      · rcases hp with hp | hp <;> rw [hp] at hw <;> cases hw
    · rcases howner with howner | ⟨hheir, hq⟩
      · exact .inl howner
      rcases hme with ⟨-, hpoint, -⟩ | ⟨hw, -⟩
      · refine .inr ?_
        rw [hpoint]
        exact ⟨hheir, hq⟩
      · rw [steady_heir hw] at hheir
        cases hheir

lemma Inv.same_clear : Clear t := by
  intro r hr l hl hin j hj q hq
  rcases hi.same_me h hcur with ⟨-, hpoint, -⟩ | ⟨-, hsteady⟩
  · rw [hpoint] at hr
    rw [h.store] at hl hin
    rw [h.point] at hq
    exact hi.clear r hr l hl hin j (h.count ▸ hj) q hq
  · rw [(steady_spec hsteady).2] at hr
    cases hr

lemma Inv.same (hqueue : ∀ j ∈ t.ready, j < s.count) : Inv M t :=
  ⟨h.store ▸ hi.sound, hi.same_table h hcur hqueue, hi.same_kin h hcur, hi.same_block h hcur,
    hi.same_clear h hcur⟩

end

lemma Inv.schedule (hi : Inv M s) (hw : s.me.point.steady = true) : Inv M s.do_schedule := by
  have h := hi.table.toTableOk.schedule
  exact hi.same h.toSame (.inr ⟨h.cur, hw⟩) h.queued

lemma Inv.wake (hi : Inv M s) (j : Nat) : Inv M (s.wake j) := by
  obtain ⟨h, hcur⟩ := hi.table.toTableOk.wake j
  exact hi.same h.toSame (.inl hcur) h.queued

lemma Inv.block_me (hi : Inv M s) (hw : s.me.point.steady = true) (hl : s.me.point.left = false)
    (waits : Bool) : Inv M (s.block waits) := by
  have h := hi.table.toTableOk.block hl waits
  exact hi.same h.toSame (.inr ⟨h.cur, hw⟩) h.queued

lemma Inv.clear_child (hi : Inv M s) (hl : s.me.point.left = false) : Inv M s.clear_child :=
  hi.same (hi.table.toTableOk.clear_child hl) (.inl rfl) hi.table.queued

/-! ## Steps of the current task -/

section goto

variable {p : Point} {j : Nat} {st : State} {wh : Nat → Option Nat}

/-- The current task goes on at another point, and the heap may have changed. -/
def moved (s : Sys) (st : State) (whose : Nat → Option Nat) (p : Point) : Sys :=
  { s.goto p with store := st, whose := whose }

lemma goto_stay (s : Sys) : s.goto s.me.point = s := by simp [goto, set, me]

lemma moved_stay (s : Sys) (st : State) (wh : Nat → Option Nat) :
    s.moved st wh s.me.point = { s with store := st, whose := wh } := by
  simp [moved, goto, set, me]

@[simp] lemma moved_tasks : (s.moved st wh p).tasks = (s.goto p).tasks := rfl

@[simp] lemma moved_me_point : (s.moved st wh p).me.point = p := goto_point.trans (if_pos rfl)

lemma moved_alive : (s.moved st wh p).Alive id ↔ s.Alive id := goto_alive (s := s) (p := p)

lemma TaskInv.moved (h : TaskInv s) (hleft : p.left = s.me.point.left) :
    TaskInv (s.moved st wh p) := by
  refine ⟨(h.toTableOk.goto hleft).stored st wh, ?_⟩
  intro i hci (hne : i ≠ s.current)
  rw [moved_tasks, goto_point, if_neg hne]
  exact h.outside i hci hne

lemma KinInv.moved (h : KinInv s)
    (hsig : s.me.point = .signalling → ∀ p, s.parent_of s.me.id = some p → s.Alive p →
      s.sent s.me.id = true) : KinInv (s.moved st wh p) := by
  refine ⟨h.toFamilies.goto.stored st wh, ?_⟩
  intro id hid
  simp only [moved_alive]
  rcases h.told id hid with ha | ⟨hme, hp⟩ | htold
  · exact .inl ha
  · rw [← hme]
    exact .inr (.inr (hsig hp))
  · exact .inr (.inr htold)

/-- What the new point and the new loans have to do with the pieces in flight and the owners. -/
lemma BlockInv.moved (h : BlockInv M s)
    (hothers : ∀ j < s.count, j ≠ s.current → ∀ q ∈ (s.tasks j).point.flight,
      Held s.store.loans q → Held st.loans q ∧ wh q.ptr = s.whose q.ptr)
    (hmine : ∀ q ∈ p.flight, Held st.loans q ∧ wh q.ptr = p.heir.map fun c => (s.tasks c).id)
    (hapart : ∀ q ∈ p.flight, ∀ j < s.count, j ≠ s.current →
      ∀ r ∈ (s.tasks j).point.flight, q.ptr ≠ r.ptr)
    (htwo : p.flight.Pairwise fun q r => q.ptr ≠ r.ptr)
    (howned : ∀ l ∈ st.loans, ∀ id, wh l.ptr = some id → ∃ j < s.count, (s.tasks j).id = id ∧
      (s.tasks j).type = .x64 ∧
      ((s.tasks j).state ≠ .removed ∨ j = s.current ∧ (p = .signalling ∨ p = .freeing)) ∧
      (l.owner = (M.tcb j).toNat ∨ p.heir = some j ∧ ∃ q ∈ p.flight, q.ptr = l.ptr)) :
    BlockInv M (s.moved st wh p) := by
  refine ⟨?_, ?_, ?_, ?_⟩
  · intro i hci
    simp only [moved_tasks, goto_id, goto_point]
    split
    · exact hmine
    rename_i hne
    intro q hq
    obtain ⟨hheld, hwhose⟩ := h.held i hci q hq
    obtain ⟨hheld', hsame⟩ := hothers i hci hne q hq hheld
    exact ⟨hheld', hsame.trans hwhose⟩
  · intro i hci k hck
    simp only [moved_tasks, goto_point]
    split <;> split
    · rename_i hi hk
      exact fun _ _ _ _ _ => hi.trans hk.symm
    · rename_i hi hk
      exact fun q hq r hr he => absurd he (hapart q hq k hck hk r hr)
    · rename_i hi hk
      exact fun q hq r hr he => absurd he.symm (hapart r hr i hci hi q hq)
    · exact h.apart i hci k hck
  · intro i hci
    simp only [moved_tasks, goto_point]
    split
    · exact htwo
    · exact h.two i hci
  · unfold Busy
    simp only [moved_tasks, goto_id, goto_type, goto_state, moved_me_point]
    exact howned

lemma Inv.moved (hi : Inv M s) (hleft : p.left = s.me.point.left)
    (hsig : s.me.point ≠ .signalling) (hsound : Sound M.arena st)
    (hblock : BlockInv M (s.moved st wh p)) (hclear : Clear (s.moved st wh p)) :
    Inv M (s.moved st wh p) :=
  ⟨hsound, hi.table.moved hleft, hi.kin.moved fun hp => absurd hp hsig, hblock, hclear⟩

lemma moved_clear (h : p.range = none) : Clear (s.moved st wh p) :=
  .of_range (moved_me_point.symm ▸ h)

end goto

/-! ## Points before the creation of a child -/

/-- A point at which the task has not been removed and has no child to hand blocks to. -/
structure Calm (p : Point) : Prop where
  heir : p.heir = none
  left : p.left = false

/-- A calm point at which the task may lose the processor. -/
def Plain (p : Point) : Prop := p.steady = true ∧ p.left = false

section plain

variable {p : Point} {st : State}

lemma Plain.calm (h : Plain p) : Calm p := ⟨steady_heir h.1, h.2⟩

lemma Plain.heir (h : Plain p) : p.heir = none := h.calm.heir

lemma Plain.range (h : Plain p) : p.range = none := (steady_spec h.1).2

lemma Calm.not_busy (h : Calm p) : ¬ (p = .signalling ∨ p = .freeing) := by
  rintro (rfl | rfl)
  · cases h.left
  · cases h.left

section

variable (hi : Inv M s)

include hi

lemma Inv.running (h : Plain s.me.point) : s.me.state ≠ .removed :=
  hi.table.running h.2

/-- What a task owns while no child is being made. -/
lemma Inv.owner (h : Calm s.me.point) (hl : l ∈ s.store.loans) (hid : s.whose l.ptr = some id) :
    ∃ j < s.count, (s.tasks j).id = id ∧ (s.tasks j).type = .x64 ∧
      (s.tasks j).state ≠ .removed ∧ l.owner = (M.tcb j).toNat := by
  obtain ⟨j, hj, hjid, htype, hbusy, howner⟩ := hi.block.owned l hl id hid
  refine ⟨j, hj, hjid, htype, ?_, ?_⟩
  · exact hbusy.resolve_right fun hb => h.not_busy hb.2
  · refine howner.resolve_right fun ho => ?_
    rw [h.heir] at ho
    cases ho.1

/-- The pieces of the current task. -/
lemma Inv.mine : ∀ q ∈ s.me.point.flight, Held s.store.loans q ∧
    s.whose q.ptr = s.me.point.heir.map fun c => (s.tasks c).id :=
  hi.block.held s.current hi.table.cur

lemma Inv.mine_apart : ∀ q ∈ s.me.point.flight, ∀ j < s.count, j ≠ s.current →
    ∀ r ∈ (s.tasks j).point.flight, q.ptr ≠ r.ptr := fun q hq j hj hne r hr he =>
  hne (hi.block.apart s.current hi.table.cur j hj q hq r hr he).symm

/-- The task keeps some of its pieces, and blocks that are in no piece may be gone. -/
lemma Inv.shed (hold : Calm s.me.point) (hnew : Calm p)
    (hpieces : p.flight.Sublist s.me.point.flight) (hsound : Sound M.arena st)
    (hloans : ∀ l ∈ st.loans, l ∈ s.store.loans)
    (hkeep : ∀ j < s.count, ∀ q ∈ ((s.goto p).tasks j).point.flight,
      Held s.store.loans q → Held st.loans q) (hclear : Clear (s.moved st s.whose p)) :
    Inv M (s.moved st s.whose p) := by
  refine hi.moved (hnew.left.trans hold.left.symm) ?_ hsound (hi.block.moved ?_ ?_ ?_ ?_ ?_) hclear
  · exact fun he => hold.not_busy (.inl he)
  · intro j hj hne q hq hheld
    refine ⟨hkeep j hj q ?_ hheld, rfl⟩
    rwa [goto_point, if_neg hne]
  · intro q hq
    obtain ⟨hheld, hwhose⟩ := hi.mine q (hpieces.subset hq)
    refine ⟨hkeep s.current hi.table.cur q ?_ hheld, ?_⟩
    · rwa [goto_point, if_pos rfl]
    · rw [hwhose, hnew.heir, hold.heir]
  · exact fun q hq => hi.mine_apart q (hpieces.subset hq)
  · exact (hi.block.two s.current hi.table.cur).sublist hpieces
  · intro l hl id hid
    obtain ⟨j, hj, hjid, htype, hbusy, howner⟩ := hi.owner hold (hloans l hl) hid
    exact ⟨j, hj, hjid, htype, .inl hbusy, .inl howner⟩

lemma Inv.pass (hold : Plain s.me.point) (hnew : Plain p)
    (hpieces : p.flight.Sublist s.me.point.flight) (hsound : Sound M.arena st)
    (hloans : st.loans = s.store.loans) : Inv M (s.moved st s.whose p) :=
  hi.shed hold.calm hnew.calm hpieces hsound (fun _ hl => hloans ▸ hl)
    (fun _ _ _ _ hheld => hloans ▸ hheld) (moved_clear hnew.range)

end

lemma Held.filter {loans : List Loan} {q : Piece} (h : Held loans q)
    (hne : q.ptr ≠ ptr) : Held (loans.filter fun l => l.ptr ≠ ptr) q := by
  obtain ⟨l, hl, hptr, hrest⟩ := h
  refine ⟨l, mem_filter.mpr ⟨hl, ?_⟩, hptr, hrest⟩
  rw [decide_eq_true_eq, hptr]
  exact hne

/-- One block is gone, and it is in no piece. -/
lemma Inv.drop (hi : Inv M s) (hold : Plain s.me.point) (hnew : Plain p)
    (hpieces : p.flight.Sublist s.me.point.flight) (hsound : Sound M.arena st)
    (hloans : st.loans = s.store.loans.filter fun l => l.ptr ≠ ptr)
    (hfree : ∀ j < s.count, ∀ q ∈ ((s.goto p).tasks j).point.flight, q.ptr ≠ ptr) :
    Inv M (s.moved st s.whose p) := by
  refine hi.shed hold.calm hnew.calm hpieces hsound (fun l hl => ?_) (fun j hj q hq hheld => ?_)
    (moved_clear hnew.range)
  · rw [hloans] at hl
    exact mem_of_mem_filter hl
  · rw [hloans]
    exact hheld.filter (hfree j hj q hq)

/-- A new block, in a new piece or for the current task. -/
lemma Inv.lend (hi : Inv M s) (id : Option Nat) (hold : Plain s.me.point) (hnew : Plain p)
    (hsound : Sound M.arena st) (hlent : Lent s.store st l)
    (hpieces : ∀ q ∈ p.flight, q ∈ s.me.point.flight ∨ q.ptr = l.ptr ∧ Held [l] q ∧ id = none)
    (htwo : p.flight.Pairwise fun q r => q.ptr ≠ r.ptr) (hid : ∀ i, id = some i →
      i = s.me.id ∧ s.me.type = .x64 ∧ l.owner = (M.tcb s.current).toNat) :
    Inv M (s.moved st (Function.update s.whose l.ptr id) p) := by
  have hkeep : ∀ q, Held s.store.loans q → Held st.loans q ∧ q.ptr ≠ l.ptr := by
    rintro q ⟨m, hm, hptr, hrest⟩
    rw [hlent.loans]
    exact ⟨⟨m, mem_cons_of_mem _ hm, hptr, hrest⟩, hptr ▸ hlent.new m hm⟩
  have hmine : ∀ q ∈ s.me.point.flight, Held s.store.loans q ∧ s.whose q.ptr = none := by
    intro q hq
    obtain ⟨hheld, hwhose⟩ := hi.mine q hq
    rw [hold.heir] at hwhose
    exact ⟨hheld, hwhose⟩
  refine hi.moved (hnew.2.trans hold.2.symm) ?_ hsound (hi.block.moved ?_ ?_ ?_ htwo ?_)
    (moved_clear hnew.range)
  · exact fun he => hold.calm.not_busy (.inl he)
  · intro j hj hne q hq hheld
    exact ⟨(hkeep q hheld).1, update_of_ne (hkeep q hheld).2 _ _⟩
  · intro q hq
    rw [hnew.heir]
    rcases hpieces q hq with hq | ⟨hptr, hheld, hnone⟩
    · obtain ⟨hheld, hwhose⟩ := hmine q hq
      exact ⟨(hkeep q hheld).1, (update_of_ne (hkeep q hheld).2 _ _).trans hwhose⟩
    obtain ⟨m, hm, hrest⟩ := hheld
    cases mem_singleton.mp hm
    rw [hlent.loans, hptr, update_self, hnone]
    exact ⟨⟨l, mem_cons_self, hrest⟩, rfl⟩
  · intro q hq j hj hne r hr he
    rcases hpieces q hq with hq | ⟨hptr, -⟩
    · exact hi.mine_apart q hq j hj hne r hr he
    · exact (hkeep r (hi.block.held j hj r hr).1).2 (he.symm.trans hptr)
  · intro m hm i hwhose
    rw [hlent.loans] at hm
    rcases mem_cons.mp hm with rfl | hm
    · rw [update_self] at hwhose
      obtain ⟨rfl, htype, howner⟩ := hid i hwhose
      exact ⟨s.current, hi.table.cur, rfl, htype, .inl (hi.running hold), .inl howner⟩
    · rw [update_of_ne (hlent.new m hm)] at hwhose
      obtain ⟨j, hj, hjid, htype, hbusy, howner⟩ := hi.owner hold.calm hm hwhose
      exact ⟨j, hj, hjid, htype, .inl hbusy, .inl howner⟩

end plain

section load

variable {elf : Elf} {data : Nat} {refused : Bool}

lemma free_fits_flight (h : s.free_fits M ptr = true) : s.store.free_ok M.arena ptr = true ∧
      ∀ j < s.count, ∀ q ∈ (s.tasks j).point.flight, q.ptr ≠ ptr := by
  obtain ⟨hok, hflight⟩ := Bool.and_eq_true_iff.mp h
  refine ⟨hok, fun j hj q hq he => ?_⟩
  rw [Bool.not_eq_true', in_flight, List.any_eq_false] at hflight
  refine hflight j (mem_range.mpr hj) (List.any_eq_true.mpr ⟨q, Point.flight_subset hq, ?_⟩)
  rwa [decide_eq_true_eq]

lemma Inv.load_block (hi : Inv M s) (hold : Plain s.me.point) {call : Option (State × Nat)}
    {piece : Nat → Piece} {ok : Piece → Point} {fail : Point} {loan : Nat → Loan}
    (hcall : ∃ st p, call = some (st, p) ∧ Sound M.arena st ∧
      (p = 0 → st.loans = s.store.loans) ∧ (p ≠ 0 → Lent s.store st (loan p)))
    (hloan : ∀ p, (loan p).ptr = p ∧ (piece p).ptr = p ∧ Held [loan p] (piece p))
    (hfail : Plain fail ∧ fail.flight = [])
    (hok : ∀ q, Plain (ok q) ∧ (ok q).flight = s.me.point.flight ++ [q]) :
    ∃ t, s.load_block call piece ok fail = some t ∧ Inv M t := by
  obtain ⟨st, p, rfl, hsound, hsame, hlent⟩ := hcall
  by_cases hp : p = 0
  · refine ⟨s.moved st s.whose fail, ?_, ?_⟩
    · exact congrArg some (if_pos hp)
    · refine hi.pass hold hfail.1 ?_ hsound (hsame hp)
      rw [hfail.2]
      exact nil_sublist _
  obtain ⟨hptr, hpiece, hheld⟩ := hloan p
  obtain ⟨hplain, hpieces⟩ := hok (piece p)
  have hinv := hi.lend none hold hplain hsound (hlent hp) ?_ ?_ fun i he => by cases he
  · rw [hptr] at hinv
    exact ⟨_, congrArg some (if_neg hp), hinv⟩
  · intro q hq
    rw [hpieces, mem_append, mem_singleton] at hq
    rcases hq with hq | rfl
    · exact .inl hq
    · exact .inr ⟨hpiece.trans hptr.symm, hheld, rfl⟩
  · rw [hpieces, pairwise_append]
    refine ⟨hi.block.two s.current hi.table.cur, pairwise_singleton _ _, ?_⟩
    intro q hq r hr he
    cases mem_singleton.mp hr
    obtain ⟨⟨m, hm, hmptr, -⟩, -⟩ := hi.mine q hq
    exact (hlent hp).new m hm (hmptr.trans (he.trans (hpiece.trans hptr.symm)))

lemma Inv.load_image (hi : Inv M s) (hp : s.me.point = .load_image elf data)
    (hfit : s.go_fits M refused (.load_image elf data) = true) :
    ∃ t, s.load_image M elf data refused = some t ∧ Inv M t := by
  have hold : Plain s.me.point := hp ▸ ⟨rfl, rfl⟩
  have hnone : s.me.point.flight = [] := hp ▸ rfl
  have hfail : Inv M (s.moved s.store s.whose (.free_data data none)) :=
    hi.pass hold ⟨rfl, rfl⟩ (nil_sublist _) hi.sound rfl
  unfold Sys.load_image
  by_cases hv : elf.valid = false
  · rw [if_pos hv]
    exact ⟨_, rfl, hfail⟩
  rw [if_neg hv]
  have hseg : s.load_fits M refused elf.segments = true := by
    simpa only [go_fits, hv, Bool.not_true, Bool.false_or] using hfit
  cases hs : elf.segments with
  | empty => exact ⟨_, rfl, hi.pass hold ⟨rfl, rfl⟩ (nil_sublist _) hi.sound rfl⟩
  | dyn total =>
    rw [hs, load_fits, Bool.and_eq_true, decide_eq_true_eq] at hseg
    have hpos : 0 < total.toNat := Nat.pos_of_ne_zero fun he => hseg.1 (UInt64.toNat_inj.mp he)
    refine hi.load_block hold (hi.sound.alloc (by decide) (by decide) hseg.2) ?_
      ⟨⟨rfl, rfl⟩, rfl⟩ fun q => ⟨⟨rfl, rfl⟩, ?_⟩
    · exact fun p => ⟨rfl, rfl, _, mem_singleton_self _, rfl, rfl, le_rfl, hpos, le_rfl⟩
    · rw [hnone]
      rfl
  | exec lo high =>
    simp only
    by_cases hout : lo.toNat < M.arena.heap0 ∨ M.arena.stop < high.toNat
    · rw [if_pos hout]
      exact ⟨_, rfl, hfail⟩
    rw [if_neg hout]
    rw [hs, load_fits, Bool.or_eq_true, decide_eq_true_eq, Bool.and_eq_true,
      decide_eq_true_eq] at hseg
    obtain ⟨hlt, hok⟩ := hseg.resolve_left hout
    have hsize : sub64 high.toNat lo.toNat = high.toNat - lo.toNat :=
      sub64_of_le hlt.le high.toNat_lt
    rw [hsize]
    refine hi.load_block hold (hi.sound.reserve (by decide) hok) ?_
      ⟨⟨rfl, rfl⟩, rfl⟩ fun q => ⟨⟨rfl, rfl⟩, ?_⟩
    · refine fun p => ⟨rfl, rfl, _, mem_singleton_self _, rfl, rfl, le_rfl, ?_, le_rfl⟩
      exact Nat.sub_pos_of_lt hlt
    · rw [hnone]
      rfl

lemma Inv.load_stack {image : Option Piece} (hi : Inv M s)
    (hp : s.me.point = .load_stack elf data image)
    (hfit : s.go_fits M refused (.load_stack elf data image) = true) :
    ∃ t, s.load_stack M elf data image refused = some t ∧ Inv M t := by
  have hold : Plain s.me.point := hp ▸ ⟨rfl, rfl⟩
  unfold Sys.load_stack
  cases ha : elf.args with
  | none => exact ⟨_, rfl, hi.pass hold ⟨rfl, rfl⟩ (nil_sublist _) hi.sound rfl⟩
  | some off =>
    refine hi.load_block hold (hi.sound.alloc (by decide) (by decide) hfit) ?_
      ⟨⟨rfl, rfl⟩, rfl⟩ fun q => ⟨⟨rfl, rfl⟩, ?_⟩
    · refine fun p => ⟨rfl, rfl, _, mem_singleton_self _, rfl, rfl, ?_, Nat.one_pos, ?_⟩
      · exact le_self_add
      · have := off.isLt
        simp only
        omega
    · rw [hp]
      rfl

lemma Inv.free_data {r : Option Loaded} (hi : Inv M s) (hp : s.me.point = .free_data data r)
    (hfit : s.go_fits M refused (.free_data data r) = true) : Inv M (s.free_data M data r) := by
  have hold : Plain s.me.point := hp ▸ ⟨rfl, rfl⟩
  obtain ⟨next, hnext, hplain, hpieces⟩ : ∃ next, s.free_data M data r =
      (if data = 0 then s else { s with store := s.store.free M.arena data }).goto next ∧
      Plain next ∧ next.flight = s.me.point.flight := by
    cases r with
    | none => exact ⟨.user, rfl, ⟨rfl, rfl⟩, hp ▸ rfl⟩
    | some r => exact ⟨.create r, rfl, ⟨rfl, rfl⟩, hp ▸ rfl⟩
  rw [hnext]
  by_cases hz : data = 0
  · rw [if_pos hz]
    exact hi.pass hold hplain (hpieces ▸ List.Sublist.refl _) hi.sound rfl
  rw [if_neg hz]
  simp only [go_fits, hz, decide_false, Bool.false_or] at hfit
  obtain ⟨hok, hflight⟩ := free_fits_flight hfit
  refine hi.drop hold hplain (hpieces ▸ List.Sublist.refl _) (hi.sound.free hok) rfl ?_
  intro j hj q hq
  rw [goto_point] at hq
  split at hq
  · rw [hpieces] at hq
    exact hflight s.current hi.table.cur q hq
  · exact hflight j hj q hq

end load

end Sys

end uaos.task
