-- Whose blocks there are when ELF64_ReclaimHeap resets the arena. It looks at the x64 tasks only.
-- What a native task has allocated, or is loading, is forgotten, so it must not lose the processor
-- in between.
import Uaos.X64Kin

namespace uaos.task

open x64

def Sys.Input.allocs : Sys.Input → Bool
  | .alloc _ _ => true
  | _ => false

def Point.reclaims : Point → Bool
  | .reclaiming => true
  | _ => false

def Point.waits : Point → Bool
  | .wait_child => true
  | _ => false

/-- The step may give the processor to another task. -/
def Sys.gives_up (s : Sys) : Sys.Input → Bool
  | .tick => true
  | .sleep | .yield => s.at_user
  | .go _ => s.me.point.waits
  | _ => false

/-- The kernel, and beside it which task has allocated a block for itself. -/
structure Noted where
  sys : Sys
  mine : Nat → Option Nat

namespace Noted

open Sys List

variable {n m : Noted} {i : Input} {j : Nat}

def boot (mem : Buf) : Noted := ⟨Sys.boot mem, fun _ => none⟩

def lent (n : Noted) (ptr : Nat) : Bool := n.sys.store.loans.any fun l => l.ptr = ptr

def note (n : Noted) (i : Input) (ptr : Nat) : Option Nat :=
  if n.lent ptr then n.mine ptr else if i.allocs then some n.sys.me.id else none

def step (M : Machine) (n : Noted) (i : Input) : Option Noted :=
  (n.sys.step M i).map fun t => ⟨t, n.note i⟩

/-- The task has allocated a block, it is the x64 task that the block is for, or the block is a
piece of the file that it is loading. -/
def Holds (n : Noted) (j : Nat) (l : Loan) : Prop := n.mine l.ptr = some (n.sys.tasks j).id ∨
    ((n.sys.tasks j).type = .x64 ∧ n.sys.whose l.ptr = some (n.sys.tasks j).id) ∨
    ∃ q ∈ (n.sys.tasks j).point.pieces, q.ptr = l.ptr

instance (n : Noted) (j : Nat) (l : Loan) : Decidable (n.Holds j l) :=
  inferInstanceAs (Decidable (_ ∨ _ ∨ _))

/-- The next step resets the arena. -/
def resets (n : Noted) : Bool :=
  n.sys.has_cpu && n.sys.me.point.reclaims && n.sys.no_x64_left && n.sys.store.heap.first ≠ 0

/-- The current task is no native task, or it neither loads a file nor has a block of its own. -/
def settled (n : Noted) : Bool := n.sys.me.type = .x64 || (n.sys.me.point.pieces.isEmpty &&
    n.sys.store.loans.all fun l => n.mine l.ptr ≠ some n.sys.me.id)

/-- A native task keeps the processor from its first block to its last. -/
def keeps_cpu (n : Noted) (i : Input) : Bool :=
  !n.sys.gives_up i || n.sys.me.state = .removed || n.settled

/-! ## The native tasks that are off the processor -/

def Has (n : Noted) (id : Nat) : Prop := ∃ l ∈ n.sys.store.loans, n.mine l.ptr = some id

/-- They have no blocks. -/
def Idle (s : Sys) (has : Nat → Prop) : Prop :=
  ∀ j < s.count, j ≠ s.current → (s.tasks j).type = .native → (s.tasks j).state ≠ .removed →
    (s.tasks j).point.pieces = [] ∧ ¬ has (s.tasks j).id

section idle

variable {s t : Sys} {has has' : Nat → Prop} {p : Point}

section

variable (h : Idle s has)

include h

lemma Idle.mono (ht : s.TableOk) (hhas : ∀ id, has' id → has id ∨ id = s.me.id) : Idle s has' := by
  intro j hj hne htype hstate
  obtain ⟨hpieces, hno⟩ := h j hj hne htype hstate
  refine ⟨hpieces, fun hid => ?_⟩
  rcases hhas _ hid with hid | hid
  · exact hno hid
  · exact hne (ht.one j hj s.current ht.cur hid)

/-- The processor may go to another task. -/
lemma Idle.scheduled (hs : s.Scheduled t)
    (hme : t.current = s.current ∨ (s.me.type = .native → s.me.state ≠ .removed →
      s.me.point.pieces = [] ∧ ¬ has s.me.id)) : Idle t has := by
  intro j hj hne htype hstate
  rw [hs.type] at htype
  rw [ne_eq, hs.removed] at hstate
  rw [hs.point, hs.id]
  by_cases hc : j = s.current
  · rcases hme with he | hme
    · exact absurd (hc.trans he.symm) hne
    · rw [hc] at htype hstate ⊢
      exact hme htype hstate
  · exact h j (hs.count ▸ hj) hc htype hstate

lemma Idle.goto : Idle (s.goto p) has := by
  intro j hj hne htype hstate
  rw [goto_type] at htype
  rw [goto_state] at hstate
  have hc : j ≠ s.current := hne
  rw [goto_point, goto_id, if_neg hc]
  exact h j hj hc htype hstate

lemma Idle.create {type : TaskType} {pri : Int} (hf : s.Fresh j)
    (hborn : ¬ has s.born) : Idle (s.create j type pri) has := by
  intro k hk hne htype hstate
  rcases hf.old k hk with rfl | ⟨hlt, hkj⟩
  · rw [create_new]
    exact ⟨rfl, hborn⟩
  · rw [create_old hkj] at htype hstate ⊢
    exact h k hlt hne htype hstate

lemma Idle.removed : Idle s.removed has := by
  intro j hj hne htype hstate
  have hc : j ≠ s.current := hne
  rw [removed_tasks, if_neg hc] at htype hstate ⊢
  exact h j hj hc htype hstate

end

lemma Idle.turn (ht : s.Turn i t) (htable : s.TableOk) (h : Idle s has) (hborn : ¬ has s.born)
    (hme : s.gives_up i = true → s.me.type = .native → s.me.state ≠ .removed →
      s.me.point.pieces = [] ∧ ¬ has s.me.id) : Idle t has := by
  have hsame {u : Sys} (hu : s.Same u) (hcur : u.current = s.current) (hq : u.ready = s.ready) :
      Idle u has :=
    h.scheduled ⟨hu, hcur ▸ htable.cur, hq ▸ htable.queued, .inl hcur⟩ (.inl hcur)
  cases ht with
  | stay => exact h
  | tick => exact h.scheduled htable.schedule (.inr (hme rfl))
  | wake j => exact h.scheduled (htable.wake j).1 (.inl (htable.wake j).2)
  | clear hu hp => exact (hsame (htable.clear_child (hp ▸ rfl)) rfl rfl).goto
  | hear refused hp => exact (hsame (htable.clear_child (hp ▸ rfl)) rfl rfl).goto
  | wait refused hp hsig =>
    have hwaits : s.gives_up (.go refused) = true := by simp [gives_up, hp, Point.waits]
    refine h.goto.scheduled (htable.wait hp) (.inr fun htype hstate => ⟨?_, ?_⟩)
    · rw [goto_me_point]
      rfl
    · have hid : (s.goto .user).me.id = s.me.id := goto_id
      rw [hid]
      exact (hme hwaits (goto_type.symm.trans htype) fun he => hstate (goto_state.trans he)).2
  | sleep hu hp => exact h.scheduled (htable.block (hp ▸ rfl) false) (.inr (hme hu))
  | yield hu hp => exact h.scheduled htable.schedule (.inr (hme hu))
  | leave refused hp =>
    refine h.scheduled htable.schedule (.inr fun _ hstate => absurd ?_ hstate)
    rw [me, htable.gone _ htable.cur, ← me, hp]
    rfl
  | goto => exact h.goto
  | create i j type pri p hi hslot hleft hp hb =>
      exact (h.create (htable.new_slot hslot) hborn).goto
  | removed => exact h.removed
  | signal refused hp =>
    obtain ⟨p, hgone, ⟨-, he⟩ | ⟨k, sent, hpar, hr, he⟩⟩ := s.signal_parent_cases
    · exact he ▸ h.goto
    · obtain ⟨hs, hcur⟩ := (htable.sent sent).signal_child (htable.rooted _ htable.cur k hpar) hr
      have hsent : Idle { s with sent := sent } has := h
      exact he ▸ (hsent.scheduled hs (.inl hcur)).goto

end idle

lemma born_le {s t : Sys} (ht : s.Turn i t) (h : s.TableOk) : s.born ≤ t.born :=
  ht.keeps (P := fun u => s.born ≤ u.born) h (fun hs hb => hs.born ▸ hb) (fun _ _ hb => hb)
    (fun _ _ _ hb => Nat.le_succ_of_le hb) (fun _ hb => hb) (fun _ hb => hb) le_rfl

/-! ## Every interleaving -/

structure Kept (n : Noted) : Prop where
  table : n.sys.TableOk
  idle : Idle n.sys n.Has
  known : ∀ ptr id, n.mine ptr = some id → id < n.sys.born

/-- Only the current task gets a block of its own. -/
lemma note_spec {t : Sys} {id : Nat} (h : Has ⟨t, n.note i⟩ id) :
    n.Has id ∨ i.allocs = true ∧ id = n.sys.me.id := by
  obtain ⟨l, hl, hmine⟩ := h
  simp only [note] at hmine
  split at hmine
  · rename_i hlent
    obtain ⟨l', hmem, hptr⟩ := any_eq_true.mp hlent
    exact .inl ⟨l', hmem, of_decide_eq_true hptr ▸ hmine⟩
  · split at hmine
    · rename_i ha
      exact .inr ⟨ha, (Option.some.inj hmine).symm⟩
    · cases hmine

lemma note_known (h : Kept n) {ptr id : Nat} (hid : n.note i ptr = some id) :
    id < n.sys.born := by
  unfold note at hid
  split at hid
  · exact h.known ptr id hid
  split at hid
  · cases hid
    exact h.table.fresh _ h.table.cur
  · cases hid

lemma settled_spec (hset : n.settled = true) (htype : n.sys.me.type = .native) :
    n.sys.me.point.pieces = [] ∧ ¬ n.Has n.sys.me.id := by
  simp only [settled, htype, Bool.or_eq_true, decide_eq_true_eq, Bool.and_eq_true,
    List.isEmpty_iff, List.all_eq_true, reduceCtorEq, false_or] at hset
  exact ⟨hset.1, fun ⟨l, hl, hmine⟩ => hset.2 l hl hmine⟩

lemma step_kept (M : Machine) (n : Noted) (i : Input) (m : Noted) (h : Kept n)
    (hok : n.keeps_cpu i = true) (hstep : n.step M i = some m) : Kept m := by
  obtain ⟨t, hsys, rfl⟩ := Option.map_eq_some_iff.mp hstep
  obtain ⟨u, ht, hb⟩ := step_turn hsys
  have hborn : ¬ Has ⟨t, n.note i⟩ n.sys.born := by
    rintro ⟨l, hl, hmine⟩
    exact Nat.lt_irrefl _ (note_known h hmine)
  have hidle : Idle u (Has ⟨t, n.note i⟩) := by
    refine (h.idle.mono h.table fun id hid => ?_).turn ht h.table hborn ?_
    · exact (note_spec hid).imp_right And.right
    intro hgives htype hstate
    simp only [keeps_cpu, hgives, hstate, Bool.not_true, Bool.false_or, decide_false] at hok
    obtain ⟨hpieces, hno⟩ := settled_spec hok htype
    refine ⟨hpieces, fun hhas => ?_⟩
    rcases note_spec hhas with hhas | ⟨ha, -⟩
    · exact hno hhas
    have hkeeps : n.sys.gives_up i = false := by
      cases i <;> first | rfl | cases ha
    rw [hkeeps] at hgives
    cases hgives
  refine ⟨hb.table (ht.table h.table), ?_, fun ptr id hid => ?_⟩
  · obtain ⟨st, wh, rfl⟩ := hb
    exact hidle
  · have hle := born_le ht h.table
    obtain ⟨st, wh, rfl⟩ := hb
    exact lt_of_lt_of_le (note_known h hid) hle

/-- In every run in which a native task keeps the processor as long as it has a block, nobody who
lives has a block when the arena is reset. -/
theorem the_arena_is_reset_when_nobody_has_a_block (M : Machine) (mem : Buf) (is : List Input)
    (hok : RunOk (step M) (fun n i => n.keeps_cpu i = true) (boot mem) is)
    (n : Noted) (hrun : run (step M) (boot mem) is = some n)
    (hreset : n.resets = true) : ∀ j < n.sys.count, (n.sys.tasks j).state ≠ .removed →
      ∀ l ∈ n.sys.store.loans, ¬ n.Holds j l := by
  have h0 : Kept (boot mem) := by
    refine ⟨boot_table mem, fun j hj hne => ?_, fun ptr id hid => by cases hid⟩
    exact absurd (Nat.lt_one_iff.mp hj) hne
  have h := run_ok_keeps (step_kept M) h0 hok hrun
  simp only [resets, Bool.and_eq_true, no_x64_left, List.all_eq_true, mem_range,
    decide_eq_true_eq] at hreset
  obtain ⟨⟨⟨-, hpoint⟩, hleft⟩, -⟩ := hreset
  intro j hj hstate l hl hholds
  have htype : (n.sys.tasks j).type = .native := by
    have hne := (hleft j hj).resolve_right hstate
    cases htype : (n.sys.tasks j).type with
    | native => rfl
    | x64 => exact absurd htype hne
  have hne : j ≠ n.sys.current := by
    rintro rfl
    refine hstate ((h.table.gone _ h.table.cur).mpr ?_)
    revert hpoint
    unfold me
    cases (n.sys.tasks n.sys.current).point <;> simp [Point.reclaims, Point.left]
  obtain ⟨hpieces, hno⟩ := h.idle j hj hne htype hstate
  rcases hholds with hmine | ⟨hx64, -⟩ | ⟨q, hq, -⟩
  · exact hno ⟨l, hl, hmine⟩
  · rw [htype] at hx64
    cases hx64
  · rw [hpieces] at hq
    cases hq

theorem the_arena_is_reset_after_a_child : ∃ n, run (step low_machine) (boot fun _ => 0)
      (.spawn small_elf false :: replicate 6 (.go false) ++ [.tick, .exit] ++
        replicate 5 (.go false)) = some n ∧ n.resets = true ∧
      ∀ j < n.sys.count, (n.sys.tasks j).state ≠ .removed →
        ∀ l ∈ n.sys.store.loans, ¬ n.Holds j l := by
  obtain ⟨n, hrun, hreset⟩ : ∃ n, run (step low_machine) (boot fun _ => 0)
      (.spawn small_elf false :: replicate 6 (.go false) ++ [.tick, .exit] ++
        replicate 5 (.go false)) = some n ∧ n.resets = true :=
    run_ends (by decide +kernel)
  exact ⟨n, hrun, hreset, the_arena_is_reset_when_nobody_has_a_block _ _ _ (by decide +kernel) n
    hrun hreset⟩

/-- The first task has a block, or it is loading a second file, when its child exits and takes the
whole arena with it. -/
theorem the_arena_is_reset_under_a_native_task :
    (∃ n, run (step low_machine) (boot fun _ => 0)
      (.alloc 50 false :: .spawn small_elf false :: replicate 6 (.go false) ++
        [.tick, .exit] ++ replicate 5 (.go false)) = some n ∧ n.resets = true ∧
      (n.sys.tasks 0).state ≠ .removed ∧ ∃ l ∈ n.sys.store.loans, n.Holds 0 l) ∧
    ∃ n, run (step low_machine) (boot fun _ => 0)
      (.spawn small_elf false :: replicate 6 (.go false) ++
        [.spawn small_elf false, .go false, .tick, .exit] ++ replicate 5 (.go false)) =
        some n ∧ n.resets = true ∧
      (n.sys.tasks 0).state ≠ .removed ∧ ∃ l ∈ n.sys.store.loans, n.Holds 0 l := by
  exact ⟨run_ends (by decide +kernel), run_ends (by decide +kernel)⟩

end Noted

end uaos.task
