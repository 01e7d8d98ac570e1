-- What the steps of the kernel do to the table of tasks, whatever they do to the heap. Each step
-- schedules, moves the current task to another point, makes a task, removes the current one or
-- sends a signal. The identities and the parents in the table stay in order.
import Uaos.X64Tasks

namespace uaos.task

open List Function Option

open x64

/-! ## Points -/

/-- The blocks of the loader that a spawn has not handed over yet. -/
def Point.pieces : Point → List Piece
  | .load_stack _ _ image => image.toList
  | .free_data _ (some r) => r.image.toList ++ [r.stack]
  | .create r => r.image.toList ++ [r.stack]
  | .own_image _ r => r.image.toList ++ [r.stack]
  | .own_stack _ r => [r.stack]
  | .undo_image r => r.image.toList ++ [r.stack]
  | .undo_stack r => [r.stack]
  | _ => []

/-- The slot of the child that they are for. -/
def Point.heir : Point → Option Nat
  | .own_image child _ => some child
  | .own_stack child _ => some child
  | _ => none

/-- The points from `TASK_REMOVED` on. -/
def Point.left : Point → Bool
  | .signalling | .freeing | .reclaiming | .leaving => true
  | _ => false

/-- The points at which nothing is said about the child signal. -/
def Point.bare : Point → Bool
  | .wait_child | .signalling => false
  | _ => true

/-- The points at which a task must not lose the processor: between the creation of a child and
the second `ELF64_HeapOwn`, and between `TASK_REMOVED` and the end of `ELF64_ReclaimHeap`. -/
def Point.window : Point → Bool
  | .own_image _ _ | .own_stack _ _ | .signalling | .freeing | .reclaiming => true
  | _ => false

namespace Sys

variable {s t : Sys}

/-! ## The table -/

/-- A task that has not been removed. -/
def Alive (s : Sys) (id : Nat) : Prop :=
  ∃ j < s.count, (s.tasks j).id = id ∧ (s.tasks j).state ≠ .removed

/-- The slots in use, the identities in them and the states. -/
structure TableOk (s : Sys) : Prop where
  cur : s.current < s.count
  cap : s.count ≤ MAX_TASKS
  queued : ∀ j ∈ s.ready, j < s.count
  fresh : ∀ j < s.count, (s.tasks j).id < s.born
  one : ∀ i < s.count, ∀ j < s.count, (s.tasks i).id = (s.tasks j).id → i = j
  rooted : ∀ j < s.count, ∀ k, (s.tasks j).parent = some k → k < s.count
  gone : ∀ j < s.count, (s.tasks j).state = .removed ↔ (s.tasks j).point.left = true

/-- The parent of a task is found in the slot that the task names, as long as it lives. -/
structure Families (s : Sys) : Prop where
  parent : ∀ j < s.count, ∀ p, s.parent_of (s.tasks j).id = some p →
    ∃ k < s.count, (s.tasks j).parent = some k ∧ ∀ i < s.count, (s.tasks i).id = p → i = k
  older : ∀ id p, s.parent_of id = some p → p < s.born

lemma boot_table (mem : Buf) : TableOk (boot mem) := by
  constructor <;> simp [boot, MAX_TASKS, Point.left]

lemma boot_families (mem : Buf) : Families (boot mem) := by
  constructor <;> simp [boot]

lemma TableOk.running (h : TableOk s) (hl : s.me.point.left = false) : s.me.state ≠ .removed := by
  rw [ne_eq, me, h.gone _ h.cur]
  exact Bool.eq_false_iff.mp hl

/-- The parent of a task is found, as long as it lives. -/
lemma Families.slot (hf : Families s) (h : TableOk s) {p : Nat}
    (hp : s.parent_of s.me.id = some p) (ha : s.Alive p) :
    ∃ k, s.me.parent = some k ∧ (s.tasks k).id = p ∧ (s.tasks k).state ≠ .removed := by
  obtain ⟨k, hk, hpar, hone⟩ := hf.parent s.current h.cur p hp
  obtain ⟨i, hci, hid, hs⟩ := ha
  have hik := hone i hci hid
  rw [hik] at hid hs
  exact ⟨k, hpar, hid, hs⟩

lemma TableOk.stored (h : TableOk s) (st : State) (wh : Nat → Option Nat) :
    TableOk { s with store := st, whose := wh } :=
  ⟨h.cur, h.cap, h.queued, h.fresh, h.one, h.rooted, h.gone⟩

lemma TableOk.sent (h : TableOk s) (sent : Nat → Bool) : TableOk { s with sent := sent } :=
  ⟨h.cur, h.cap, h.queued, h.fresh, h.one, h.rooted, h.gone⟩

lemma Families.stored (h : Families s) (st : State) (wh : Nat → Option Nat) :
    Families { s with store := st, whose := wh } := ⟨h.parent, h.older⟩

lemma Families.sent (h : Families s) (sent : Nat → Bool) : Families { s with sent := sent } :=
  ⟨h.parent, h.older⟩

/-! ## The scheduler -/

/-- Nothing but the states of tasks that are there, the queue and the processor changes. -/
structure Same (s t : Sys) : Prop where
  type : ∀ j, (t.tasks j).type = (s.tasks j).type
  parent : ∀ j, (t.tasks j).parent = (s.tasks j).parent
  point : ∀ j, (t.tasks j).point = (s.tasks j).point
  id : ∀ j, (t.tasks j).id = (s.tasks j).id
  removed : ∀ j, (t.tasks j).state = .removed ↔ (s.tasks j).state = .removed
  count : t.count = s.count
  store : t.store = s.store
  whose : t.whose = s.whose
  born : t.born = s.born
  parent_of : t.parent_of = s.parent_of
  sent : t.sent = s.sent

variable {id j : Nat}

lemma Same.alive (h : Same s t) : t.Alive id ↔ s.Alive id := by
  unfold Alive
  simp only [h.count, h.id, ne_eq, h.removed]

lemma TableOk.same (h : TableOk s) (he : Same s t) (hcur : t.current < s.count)
    (hqueue : ∀ j ∈ t.ready, j < s.count) : TableOk t := by
  refine ⟨?_, he.count ▸ h.cap, he.count ▸ hqueue, ?_, ?_, ?_, ?_⟩
  · rwa [he.count]
  · intro j hj
    rw [he.id, he.born]
    exact h.fresh j (he.count ▸ hj)
  · intro i hci j hcj heq
    rw [he.id, he.id] at heq
    exact h.one i (he.count ▸ hci) j (he.count ▸ hcj) heq
  · intro j hj k hk
    rw [he.count]
    exact h.rooted j (he.count ▸ hj) k ((he.parent j).symm.trans hk)
  · intro j hj
    rw [he.removed, he.point]
    exact h.gone j (he.count ▸ hj)

lemma Families.same (hf : Families s) (h : Same s t) : Families t := by
  refine ⟨?_, ?_⟩
  · intro j hj p hp
    rw [h.parent_of, h.id] at hp
    obtain ⟨k, hk, hpar, hone⟩ := hf.parent j (h.count ▸ hj) p hp
    refine ⟨k, h.count ▸ hk, (h.parent j).trans hpar, fun i hci he => ?_⟩
    exact hone i (h.count ▸ hci) ((h.id i).symm.trans he)
  · intro id p hp
    rw [h.born]
    exact hf.older id p (h.parent_of ▸ hp)

lemma Same.refl (s : Sys) : Same s s := by constructor <;> simp

lemma Same.trans {u : Sys} (h : Same s t) (h' : Same t u) : Same s u where
  type j := (h'.type j).trans (h.type j)
  parent j := (h'.parent j).trans (h.parent j)
  point j := (h'.point j).trans (h.point j)
  id j := (h'.id j).trans (h.id j)
  removed j := (h'.removed j).trans (h.removed j)
  count := h'.count.trans h.count
  store := h'.store.trans h.store
  whose := h'.whose.trans h.whose
  born := h'.born.trans h.born
  parent_of := h'.parent_of.trans h.parent_of
  sent := h'.sent.trans h.sent

/-- A task that has not been removed gets another state. -/
lemma Same.set_state {r : TaskState} {waits sig : Bool} {q : List Nat} {c : Nat}
    (hj : (s.tasks j).state ≠ .removed) (hr : r ≠ .removed) :
    Same s { s.set j { s.tasks j with state := r, child_sig := sig, waits := waits } with
      ready := q, current := c } := by
  constructor <;> first | rfl | (intro i; by_cases hi : i = j)
  all_goals simp [set, hi, hj, hr]

lemma same_enqueue (hj : (s.tasks j).state ≠ .removed) : Same s (s.ready_enqueue j) := by
  exact Same.set_state hj (by decide)

lemma best_mem {q : List Nat} (h : s.best q = some j) : j ∈ q := by
  have hfold : ∀ (q : List Nat) (b : Option Nat), q.foldl (fun b j => s.better j b) b = some j →
      b = some j ∨ j ∈ q := by
    intro q
    induction q with
    | nil => exact fun b hb => .inl hb
    | cons i q ih =>
      intro b hb
      rcases ih _ hb with hb | hb
      · cases b with
        | none =>
          cases hb
          exact .inr mem_cons_self
        | some k =>
          simp only [better] at hb
          split at hb
          · cases hb
            exact .inr mem_cons_self
          · exact .inl hb
      · exact .inr (mem_cons_of_mem _ hb)
  rcases hfold q none h with h | h
  · cases h
  · exact h

/-- The queue loses entries only, and the task that is taken from it has not been removed. -/
lemma dequeue_spec (n : Nat) (q : List Nat) : (∀ j ∈ (s.dequeue n q).2, j ∈ q) ∧
      ∀ j, (s.dequeue n q).1 = some j → j ∈ q ∧ (s.tasks j).state ≠ .removed := by
  induction n generalizing q with
  | zero => exact ⟨fun j hj => hj, fun j hj => by cases hj⟩
  | succ n ih =>
    unfold dequeue
    cases hb : s.best q with
    | none => exact ⟨fun j hj => hj, fun j hj => by cases hj⟩
    | some i =>
      by_cases hr : (s.tasks i).state = .removed
      · simp only [if_pos hr]
        refine ⟨fun j hj => mem_of_mem_erase ((ih _).1 j hj), fun j hj => ?_⟩
        obtain ⟨hmem, hne⟩ := (ih _).2 j hj
        exact ⟨mem_of_mem_erase hmem, hne⟩
      · simp only [if_neg hr]
        refine ⟨fun j hj => mem_of_mem_erase hj, fun j hj => ?_⟩
        cases hj
        exact ⟨best_mem hb, hr⟩

lemma enqueue_queued (hq : ∀ i ∈ s.ready, i < s.count) (hj : j < s.count) :
    ∀ i ∈ (s.ready_enqueue j).ready, i < s.count := by
  intro i hmem
  rcases mem_append.mp hmem with hmem | hmem
  · exact hq i hmem
  · cases mem_singleton.mp hmem
    exact hj

/-- The processor goes to a task of the table. -/
structure Scheduled (s t : Sys) : Prop extends Same s t where
  cur : t.current < s.count
  queued : ∀ j ∈ t.ready, j < s.count
  live : t.current = s.current ∨ (s.tasks t.current).state ≠ .removed

lemma Scheduled.after {u : Sys} (h : Scheduled t u) (hs : Same s t)
    (hcur : t.current = s.current) : Scheduled s u where
  toSame := hs.trans h.toSame
  cur := hs.count ▸ h.cur
  queued := hs.count ▸ h.queued
  live := h.live.imp (·.trans hcur) fun hne he => hne ((hs.removed _).mpr he)

lemma dispatch_scheduled (hcur : s.current < s.count) (hq : ∀ j ∈ s.ready, j < s.count) :
    Scheduled s (s.dispatch s.ready_dequeue_highest) := by
  obtain ⟨hrest, hnext⟩ := dequeue_spec (s := s) s.ready.length s.ready
  unfold ready_dequeue_highest
  generalize s.dequeue s.ready.length s.ready = r at hrest hnext
  obtain ⟨next, q⟩ := r
  cases next with
  | none =>
    refine ⟨?_, hcur, fun j hj => hq j (hrest j hj), .inl rfl⟩
    constructor <;> simp [dispatch]
  | some next =>
    obtain ⟨hmem, hne⟩ := hnext next rfl
    refine ⟨Same.set_state hne (by decide), hq next hmem, fun j hj => hq j (hrest j hj), ?_⟩
    exact .inr hne

lemma TableOk.schedule (h : TableOk s) : Scheduled s s.do_schedule := by
  unfold do_schedule
  by_cases hr : s.me.state = .running
  · simp only [if_pos hr]
    have hne : (s.tasks s.current).state ≠ .removed := by
      intro he
      rw [me, he] at hr
      cases hr
    have hsame := same_enqueue hne
    have hd := dispatch_scheduled (s := s.ready_enqueue s.current) h.cur
      (enqueue_queued h.queued h.cur)
    exact hd.after hsame rfl
  · simp only [if_neg hr]
    exact dispatch_scheduled h.cur h.queued

lemma TableOk.wake (h : TableOk s) (j : Nat) :
    Scheduled s (s.wake j) ∧ (s.wake j).current = s.current := by
  unfold Sys.wake
  split
  · rename_i hj
    have hne : (s.tasks j).state ≠ .removed := by
      rw [hj.2]
      decide
    exact ⟨⟨same_enqueue hne, h.cur, enqueue_queued h.queued hj.1, .inl rfl⟩, rfl⟩
  · exact ⟨⟨Same.refl s, h.cur, h.queued, .inl rfl⟩, rfl⟩

lemma TableOk.block (h : TableOk s) (hl : s.me.point.left = false) (waits : Bool) :
    Scheduled s (s.block waits) := by
  have hsame : Same s (s.set s.current { s.me with
      state := .waiting, child_sig := !waits && s.me.child_sig, waits := waits }) :=
    Same.set_state (h.running hl) (by decide)
  exact (h.same hsame h.cur h.queued).schedule.after hsame rfl

lemma clear_child_point (s : Sys) : s.clear_child.me.point = s.me.point := by
  simp [clear_child, set, me]

lemma TableOk.clear_child (h : TableOk s) (hl : s.me.point.left = false) : Same s s.clear_child :=
  Same.set_state (h.running hl) (h.running hl)

lemma TableOk.signal_child (h : TableOk s) {k : Nat} (hk : k < s.count)
    (hne : (s.tasks k).state ≠ .removed) :
    Scheduled s (s.signal_child k) ∧ (s.signal_child k).current = s.current := by
  have hsame : Same s (s.set k { s.tasks k with child_sig := true }) := Same.set_state hne hne
  unfold Sys.signal_child
  simp only
  split
  · have hne' := fun he => hne ((hsame.removed k).mp he)
    refine ⟨⟨hsame.trans (same_enqueue hne'), h.cur, ?_, .inl rfl⟩, rfl⟩
    exact enqueue_queued (s := s.set k { s.tasks k with child_sig := true }) h.queued hk
  · exact ⟨⟨hsame, h.cur, h.queued, .inl rfl⟩, rfl⟩

/-! ## Another point -/

section goto

variable {p : Point} {j : Nat}

lemma goto_tasks :
    (s.goto p).tasks = Function.update s.tasks s.current { s.me with point := p } := rfl

@[simp] lemma goto_point :
    ((s.goto p).tasks j).point = if j = s.current then p else (s.tasks j).point := by
  rw [goto_tasks, update_apply]
  split <;> rfl

/-- What is the same in the current task is the same in every task. -/
lemma set_other {α : Type} {t : Task} (f : Task → α) (hf : f t = f s.me) :
    f ((s.set s.current t).tasks j) = f (s.tasks j) := by
  simp only [set, update_apply]
  split
  · rename_i h
    rw [hf, h, me]
  · rfl

@[simp] lemma goto_id : ((s.goto p).tasks j).id = (s.tasks j).id := set_other Task.id rfl

@[simp] lemma goto_type : ((s.goto p).tasks j).type = (s.tasks j).type := set_other Task.type rfl

@[simp] lemma goto_state : ((s.goto p).tasks j).state = (s.tasks j).state :=
  set_other Task.state rfl

@[simp] lemma goto_parent : ((s.goto p).tasks j).parent = (s.tasks j).parent :=
  set_other Task.parent rfl

lemma goto_me_point : (s.goto p).me.point = p := goto_point.trans (if_pos rfl)

lemma goto_me (s : Sys) : s.goto s.me.point = s := by simp [goto, set, me]

lemma goto_alive : (s.goto p).Alive id ↔ s.Alive id := by
  unfold Alive
  simp only [goto_id, goto_state]
  rfl

lemma TableOk.goto (h : TableOk s) (hleft : p.left = s.me.point.left) : TableOk (s.goto p) := by
  refine ⟨h.cur, h.cap, h.queued, ?_, ?_, ?_, ?_⟩
  · simp only [goto_id]
    exact h.fresh
  · simp only [goto_id]
    exact h.one
  · simp only [goto_parent]
    exact h.rooted
  intro i hci
  rw [goto_state, goto_point, h.gone i hci]
  split
  · rename_i he
    rw [hleft, he, me]
  · rfl

lemma Families.goto (h : Families s) : Families (s.goto p) := by
  refine ⟨?_, h.older⟩
  simp only [goto_id, goto_parent]
  exact h.parent

end goto

/-! ## A new task -/

section create

variable {j : Nat} {type : TaskType} {pri : Int}

lemma free_slot_spec (h : s.free_slot = some j) :
    (j < s.count ∧ (s.tasks j).state = .removed) ∨ j = s.count ∧ s.count < MAX_TASKS := by
  unfold free_slot at h
  split at h
  · rename_i i hfind
    cases h
    have hr := find?_some hfind
    exact .inl ⟨mem_range.mp (mem_of_find?_eq_some hfind), of_decide_eq_true hr⟩
  · split at h
    · rename_i hlt
      cases h
      exact .inr ⟨rfl, hlt⟩
    · cases h

lemma create_old {i : Nat} (hne : i ≠ j) : (s.create j type pri).tasks i = s.tasks i :=
  update_of_ne hne _ _

lemma create_new (s : Sys) (j : Nat) (type : TaskType) (pri : Int) :
    (s.create j type pri).tasks j =
    ⟨.ready, type, pri, some s.current, false, false, .user, s.born⟩ := update_self _ _ _

/-- The tasks of a table with a new one in it. -/
structure Fresh (s : Sys) (j : Nat) : Prop where
  lt : j < max s.count (j + 1)
  cap : max s.count (j + 1) ≤ MAX_TASKS
  old : ∀ i < max s.count (j + 1), i = j ∨ i < s.count ∧ i ≠ j
  live : ∀ i < s.count, (s.tasks i).state ≠ .removed → i ≠ j

lemma TableOk.new_slot (h : TableOk s) (hslot : s.free_slot = some j) : Fresh s j := by
  have hcap := h.cap
  rcases free_slot_spec hslot with ⟨hlt, hr⟩ | ⟨rfl, hlt⟩
  · refine ⟨by omega, by omega, fun i hci => by omega, fun i _ hs he => ?_⟩
    rw [he] at hs
    exact hs hr
  · exact ⟨by omega, by omega, fun i hci => by omega, fun i hci _ => by omega⟩

lemma create_alive (hf : Fresh s j) (hid : id < s.born) :
    (s.create j type pri).Alive id ↔ s.Alive id := by
  constructor
  · rintro ⟨i, hci, he, hs⟩
    rcases hf.old i hci with rfl | ⟨hlt, hne⟩
    · rw [create_new] at he
      exact absurd he (ne_of_gt hid)
    · rw [create_old hne] at he hs
      exact ⟨i, hlt, he, hs⟩
  · rintro ⟨i, hci, he, hs⟩
    have hne := hf.live i hci hs
    refine ⟨i, lt_of_lt_of_le hci (le_max_left _ _), ?_, ?_⟩
    · rwa [create_old hne]
    · rwa [create_old hne]

lemma TableOk.create (h : TableOk s) (hf : Fresh s j) : TableOk (s.create j type pri) := by
  have hle : s.count ≤ max s.count (j + 1) := le_max_left _ _
  refine ⟨lt_of_lt_of_le h.cur hle, hf.cap, ?_, ?_, ?_, ?_, ?_⟩
  · intro i hmem
    rcases mem_append.mp hmem with hmem | hmem
    · exact lt_of_lt_of_le (h.queued i (mem_of_mem_erase hmem)) hle
    · cases mem_singleton.mp hmem
      exact hf.lt
  · intro i hci
    rcases hf.old i hci with rfl | ⟨hlt, hne⟩
    · rw [create_new]
      exact Nat.lt_succ_self _
    · rw [create_old hne]
      exact Nat.lt_succ_of_lt (h.fresh i hlt)
  · intro i hci k hck he
    rcases hf.old i hci with rfl | ⟨hlti, hnei⟩ <;> rcases hf.old k hck with rfl | ⟨hltk, hnek⟩
    · rfl
    · rw [create_new, create_old hnek] at he
      exact absurd he.symm (ne_of_lt (h.fresh k hltk))
    · rw [create_new, create_old hnei] at he
      exact absurd he (ne_of_lt (h.fresh i hlti))
    · rw [create_old hnei, create_old hnek] at he
      exact h.one i hlti k hltk he
  · intro i hci k hk
    rcases hf.old i hci with rfl | ⟨hlt, hne⟩
    · rw [create_new] at hk
      cases hk
      exact lt_of_lt_of_le h.cur hle
    · rw [create_old hne] at hk
      exact lt_of_lt_of_le (h.rooted i hlt k hk) hle
  · intro i hci
    rcases hf.old i hci with rfl | ⟨hlt, hne⟩
    · rw [create_new]
      simp [Point.left]
    · rw [create_old hne]
      exact h.gone i hlt

lemma create_parent_of (hid : id ≠ s.born) :
    (s.create j type pri).parent_of id = s.parent_of id := update_of_ne hid _ _

lemma create_parent_new : (s.create j type pri).parent_of s.born = some s.me.id :=
  update_self _ _ _

lemma Families.create (h : Families s) (htable : TableOk s) (hf : Fresh s j) :
    Families (s.create j type pri) := by
  have hle : s.count ≤ max s.count (j + 1) := le_max_left _ _
  -- a task that is found under an old identity is in its old slot
  have hslot {p k : Nat} (hp : p < s.born) (hone : ∀ i < s.count, (s.tasks i).id = p → i = k) :
      ∀ i < max s.count (j + 1), ((s.create j type pri).tasks i).id = p → i = k := by
    intro i hci he
    rcases hf.old i hci with rfl | ⟨hlt, hne⟩
    · rw [create_new] at he
      exact absurd he (ne_of_gt hp)
    · rw [create_old hne] at he
      exact hone i hlt he
  have hme : s.me.id < s.born := htable.fresh _ htable.cur
  refine ⟨?_, ?_⟩
  · intro i hci p hp
    rcases hf.old i hci with rfl | ⟨hlt, hne⟩
    · rw [create_new] at hp ⊢
      rw [create_parent_new] at hp
      cases hp
      refine ⟨s.current, lt_of_lt_of_le htable.cur hle, rfl, hslot hme fun i hci he => ?_⟩
      exact htable.one i hci s.current htable.cur he
    · rw [create_old hne] at hp ⊢
      rw [create_parent_of (ne_of_lt (htable.fresh i hlt))] at hp
      obtain ⟨k, hk, hpar, hone⟩ := h.parent i hlt p hp
      exact ⟨k, lt_of_lt_of_le hk hle, hpar, hslot (h.older _ p hp) hone⟩
  · intro id p hp
    by_cases he : id = s.born
    · rw [he, create_parent_new] at hp
      cases hp
      exact Nat.lt_succ_of_lt hme
    · rw [create_parent_of he] at hp
      exact Nat.lt_succ_of_lt (h.older id p hp)

end create

/-! ## The end of a task -/

/-- `Task_Exit` gives up the task before it does anything else. -/
def removed (s : Sys) : Sys := s.set s.current { s.me with state := .removed, point := .signalling }

section removed

variable {j : Nat}

lemma removed_tasks : s.removed.tasks j =
    if j = s.current then { s.me with state := .removed, point := .signalling } else s.tasks j :=
  update_apply _ _ _ _

lemma removed_id : (s.removed.tasks j).id = (s.tasks j).id := set_other Task.id rfl

lemma removed_type : (s.removed.tasks j).type = (s.tasks j).type := set_other Task.type rfl

lemma removed_parent : (s.removed.tasks j).parent = (s.tasks j).parent := set_other Task.parent rfl

lemma removed_point :
    (s.removed.tasks j).point = if j = s.current then .signalling else (s.tasks j).point := by
  rw [removed_tasks]
  split <;> rfl

lemma removed_state :
    (s.removed.tasks j).state = if j = s.current then .removed else (s.tasks j).state := by
  rw [removed_tasks]
  split <;> rfl

end removed

lemma removed_alive (h : s.removed.Alive id) : s.Alive id := by
  obtain ⟨i, hci, he, hs⟩ := h
  rw [removed_state] at hs
  rw [removed_id] at he
  split at hs
  · exact absurd rfl hs
  · exact ⟨i, hci, he, hs⟩

lemma TableOk.removed (h : TableOk s) : TableOk s.removed := by
  refine ⟨h.cur, h.cap, h.queued, ?_, ?_, ?_, ?_⟩
  · simp only [removed_id]
    exact h.fresh
  · simp only [removed_id]
    exact h.one
  · simp only [removed_parent]
    exact h.rooted
  intro i hci
  rw [removed_point, removed_state]
  split
  · exact ⟨fun _ => rfl, fun _ => rfl⟩
  · exact h.gone i hci

lemma Families.removed (h : Families s) : Families s.removed := by
  refine ⟨?_, h.older⟩
  simp only [removed_id, removed_parent]
  exact h.parent

/-! ## Every step -/

/-- The step makes a task if a slot is free. -/
def creates (s : Sys) : Input → Bool
  | .native _ => s.at_user
  | .go _ => match s.me.point with
    | .create _ => true
    | _ => false
  | _ => false

/-- What a step does to the table. The heap may change beside it. -/
inductive Turn (s : Sys) : Input → Sys → Prop where
  | stay (i : Input) : Turn s i s
  | tick : Turn s .tick s.do_schedule
  | wake (j : Nat) : Turn s (.wake j) (s.wake j)
  | clear (hu : s.at_user = true) (h : s.me.point = .user) :
    Turn s .wait (s.clear_child.goto .wait_child)
  | hear (refused : Bool) (h : s.me.point = .wait_child) :
    Turn s (.go refused) (s.clear_child.goto .user)
  | wait (refused : Bool) (h : s.me.point = .wait_child) (hsig : s.me.child_sig = false) :
    Turn s (.go refused) ((s.goto .user).block true)
  | sleep (hu : s.at_user = true) (h : s.me.point = .user) : Turn s .sleep (s.block false)
  | yield (hu : s.at_user = true) (h : s.me.point = .user) : Turn s .yield s.do_schedule
  | leave (refused : Bool) (h : s.me.point = .leaving) : Turn s (.go refused) s.do_schedule
  | goto (i : Input) (p : Point) (hleft : p.left = s.me.point.left)
    (h : s.me.point ≠ .signalling) (hp : p.bare = true) : Turn s i (s.goto p)
  | create (i : Input) (j : Nat) (type : TaskType) (pri : Int) (p : Point)
    (hi : s.creates i = true) (hslot : s.free_slot = some j) (hleft : s.me.point.left = false)
    (hp : p.left = false) (hb : p.bare = true) : Turn s i ((s.create j type pri).goto p)
  | removed (refused : Bool) (h : s.me.point = .removing) : Turn s (.go refused) s.removed
  | signal (refused : Bool) (h : s.me.point = .signalling) :
    Turn s (.go refused) s.signal_parent

/-- The same tables over another heap. -/
def Beside (s t : Sys) : Prop := ∃ st wh, t = { s with store := st, whose := wh }

section turns

variable {M : Machine} {i : Input}

lemma stays {st : State} {wh : Nat → Option Nat} :
    ∃ u, Turn s i u ∧ Beside u { s with store := st, whose := wh } := ⟨s, .stay i, st, wh, rfl⟩

lemma bare_ne {p : Point} (h : p.bare = true) : p ≠ .signalling ∧ p ≠ .wait_child := by
  constructor <;> rintro rfl <;> cases h

lemma load_block_turn {call : Option (State × Nat)} {piece : Nat → Piece} {ok : Piece → Point}
    {fail : Point} (h : s.load_block call piece ok fail = some t) :
    ∃ p, (p = fail ∨ ∃ q, p = ok q) ∧ Beside (s.goto p) t := by
  obtain ⟨⟨st, ptr⟩, -, rfl⟩ := map_eq_some_iff.mp h
  split
  · exact ⟨fail, .inl rfl, st, s.whose, rfl⟩
  · exact ⟨_, .inr ⟨_, rfl⟩, st, _, rfl⟩

lemma load_image_turn {elf : Elf} {data : Nat} {refused : Bool}
    (h : s.load_image M elf data refused = some t) :
    ∃ p, (p.left = false ∧ p.bare = true) ∧ Beside (s.goto p) t := by
  have hblock {call : Option (State × Nat)} {piece : Nat → Piece}
      (h : s.load_block call piece (fun q => .load_stack elf data (some q))
        (.free_data data none) = some t) : ∃ p, (p.left = false ∧ p.bare = true) ∧
          Beside (s.goto p) t := by
    obtain ⟨p, rfl | ⟨q, rfl⟩, hb⟩ := load_block_turn h
    · exact ⟨_, ⟨rfl, rfl⟩, hb⟩
    · exact ⟨_, ⟨rfl, rfl⟩, hb⟩
  unfold load_image at h
  by_cases hv : elf.valid = false
  · rw [if_pos hv] at h
    cases h
    exact ⟨.free_data data none, ⟨rfl, rfl⟩, s.store, s.whose, rfl⟩
  rw [if_neg hv] at h
  generalize hs : elf.segments = r at h
  cases r with
  | empty =>
    cases h
    exact ⟨.load_stack elf data none, ⟨rfl, rfl⟩, s.store, s.whose, rfl⟩
  | dyn total =>
    exact hblock h
  | exec lo high =>
    simp only at h
    split at h
    · cases h
      exact ⟨.free_data data none, ⟨rfl, rfl⟩, s.store, s.whose, rfl⟩
    · exact hblock h

lemma load_stack_turn {elf : Elf} {data : Nat} {image : Option Piece} {refused : Bool}
    (h : s.load_stack M elf data image refused = some t) :
    ∃ p, (p.left = false ∧ p.bare = true) ∧ Beside (s.goto p) t := by
  unfold load_stack at h
  generalize ha : elf.args = r at h
  cases r with
  | none =>
    cases h
    exact ⟨.free_data data none, ⟨rfl, rfl⟩, s.store, s.whose, rfl⟩
  | some off =>
    obtain ⟨p, rfl | ⟨q, rfl⟩, hb⟩ := load_block_turn h
    · exact ⟨_, ⟨rfl, rfl⟩, hb⟩
    · exact ⟨_, ⟨rfl, rfl⟩, hb⟩

lemma free_data_turn (s : Sys) (data : Nat) (r : Option Loaded) :
    ∃ p, (p.left = false ∧ p.bare = true) ∧ Beside (s.goto p) (s.free_data M data r) := by
  unfold free_data
  cases r with
  | none =>
    by_cases hz : data = 0
    · simp only [if_pos hz]
      exact ⟨.user, ⟨rfl, rfl⟩, s.store, s.whose, rfl⟩
    · simp only [if_neg hz]
      exact ⟨.user, ⟨rfl, rfl⟩, _, s.whose, rfl⟩
  | some r =>
    by_cases hz : data = 0
    · simp only [if_pos hz]
      exact ⟨.create r, ⟨rfl, rfl⟩, s.store, s.whose, rfl⟩
    · simp only [if_neg hz]
      exact ⟨.create r, ⟨rfl, rfl⟩, _, s.whose, rfl⟩

lemma create_turn (s : Sys) (r : Loaded) (refused : Bool) (hp : s.me.point = .create r) :
    ∃ u, Turn s (.go refused) u ∧ Beside u (s.Task_CreateX64 r) := by
  unfold Sys.Task_CreateX64
  cases hslot : s.free_slot with
  | none =>
    exact ⟨_, .goto _ (.undo_image r) (hp ▸ rfl) (by simp [hp]) rfl, s.store, s.whose, rfl⟩
  | some j =>
    have hi : s.creates (.go refused) = true := by simp [creates, hp]
    refine ⟨_, .create _ j .x64 r.pri (.own_image j r) hi hslot (hp ▸ rfl) rfl rfl, ?_⟩
    cases r.image with
    | none => exact ⟨s.store, _, rfl⟩
    | some q => exact ⟨s.store, _, rfl⟩

lemma free_round_turn {test : Heap → Nat → Bool} {next : Point} {refused : Bool}
    (h : s.free_round M test next = some t) (hleft : next.left = s.me.point.left)
    (hold : s.me.point ≠ .signalling) (hnew : next.bare = true) :
    ∃ u, Turn s (.go refused) u ∧ Beside u t := by
  unfold free_round at h
  split at h
  · cases h
  · cases h
    exact ⟨_, .goto _ next hleft hold hnew, s.store, s.whose, rfl⟩
  · cases h
    exact stays

/-- A step inside a call, up to the heap. -/
lemma go_turn {refused : Bool} (h : s.go M refused = some t) :
    ∃ u, Turn s (.go refused) u ∧ Beside u t := by
  unfold go at h
  generalize hp : s.me.point = r at h
  cases r with
  | user =>
    cases h
    exact stays
  | wait_child =>
    cases h
    unfold wait_child
    cases hsig : s.me.child_sig with
    | true => exact ⟨_, .hear refused hp, s.store, s.whose, rfl⟩
    | false => exact ⟨_, .wait refused hp hsig, _, _, rfl⟩
  | load_image elf data =>
    obtain ⟨p, hl, hb⟩ := load_image_turn h
    exact ⟨_, .goto _ p (hp ▸ hl.1) (by simp [hp]) hl.2, hb⟩
  | load_stack elf data image =>
    obtain ⟨p, hl, hb⟩ := load_stack_turn h
    exact ⟨_, .goto _ p (hp ▸ hl.1) (by simp [hp]) hl.2, hb⟩
  | free_data data r =>
    cases h
    obtain ⟨p, hl, hb⟩ := free_data_turn (M := M) s data r
    exact ⟨_, .goto _ p (hp ▸ hl.1) (by simp [hp]) hl.2, hb⟩
  | create r =>
    cases h
    exact create_turn s r refused hp
  | own_image child r =>
    obtain ⟨st, -, rfl⟩ := map_eq_some_iff.mp h
    exact ⟨_, .goto _ (.own_stack child r) (hp ▸ rfl) (by simp [hp]) rfl, st, s.whose, rfl⟩
  | own_stack child r =>
    obtain ⟨st, -, rfl⟩ := map_eq_some_iff.mp h
    exact ⟨_, .goto _ .user (hp ▸ rfl) (by simp [hp]) rfl, st, s.whose, rfl⟩
  | undo_image r | undo_stack r | freeing => exact free_round_turn h (hp ▸ rfl) (by simp [hp]) rfl
  | removing =>
    cases h
    exact ⟨_, .removed refused hp, s.store, s.whose, rfl⟩
  | signalling =>
    cases h
    exact ⟨_, .signal refused hp, s.signal_parent.store, s.signal_parent.whose, rfl⟩
  | reclaiming =>
    cases h
    refine ⟨_, .goto _ .leaving (hp ▸ rfl) (by simp [hp]) rfl, ?_⟩
    unfold ELF64_ReclaimHeap
    split
    · exact ⟨_, s.whose, rfl⟩
    · exact ⟨s.store, s.whose, rfl⟩
  | leaving =>
    cases h
    exact ⟨_, .leave refused hp, _, _, rfl⟩

lemma user_of_at_user (h : s.at_user = true) : s.me.point = .user := by
  unfold at_user at h
  split at h
  · assumption
  · cases h

lemma act_turn (hu : s.at_user = true) (h : s.act M i = some t) :
    ∃ u, Turn s i u ∧ Beside u t := by
  have hp := user_of_at_user hu
  have hgo (p : Point) (hl : p.left = false ∧ p.bare = true) : Turn s i (s.goto p) :=
    .goto i p (hp ▸ hl.1) (by simp [hp]) hl.2
  cases i with
  | tick | wake j | go refused =>
    cases h
    exact stays
  | alloc size refused =>
    simp only [act, sys_alloc] at h
    split at h
    · cases h
      exact stays
    obtain ⟨⟨st, ptr⟩, -, rfl⟩ := map_eq_some_iff.mp h
    split
    · exact stays
    · exact stays
  | free ptr | write ptr k v =>
    cases h
    exact stays
  | spawn elf refused =>
    simp only [act, sys_spawn] at h
    split at h
    · cases h
      exact ⟨_, hgo (.load_image elf 0) ⟨rfl, rfl⟩, s.store, s.whose, rfl⟩
    split at h
    · cases h
      exact stays
    obtain ⟨⟨st, ptr⟩, -, rfl⟩ := map_eq_some_iff.mp h
    split
    · exact stays
    · exact ⟨_, hgo (.load_image elf ptr) ⟨rfl, rfl⟩, st, _, rfl⟩
  | native pri =>
    cases h
    cases hslot : s.free_slot with
    | none => exact stays
    | some j =>
      have hme : (s.create j .native pri).me.point = .user := by
        by_cases hc : s.current = j
        · rw [← hc]
          exact congrArg Task.point (create_new s s.current .native pri)
        · exact (congrArg Task.point (create_old hc)).trans hp
      refine ⟨_, .create _ j .native pri _ hu hslot (hp ▸ rfl)
        (congrArg Point.left hme) (congrArg Point.bare hme), s.store, s.whose, ?_⟩
      rw [goto_me]
      rfl
  | wait =>
    cases h
    exact ⟨_, .clear hu hp, s.store, s.whose, rfl⟩
  | sleep =>
    cases h
    exact ⟨_, .sleep hu hp, _, _, rfl⟩
  | yield =>
    cases h
    exact ⟨_, .yield hu hp, _, _, rfl⟩
  | exit =>
    cases h
    exact ⟨_, hgo .removing ⟨rfl, rfl⟩, s.store, s.whose, rfl⟩

lemma step_turn (h : s.step M i = some t) : ∃ u, Turn s i u ∧ Beside u t := by
  have hact {i : Input} (h : (if s.at_user = true then s.act M i else some s) = some t) :
      ∃ u, Turn s i u ∧ Beside u t := by
    split at h
    · rename_i hu
      exact act_turn hu h
    · cases h
      exact stays
  cases i with
  | tick =>
    cases h
    exact ⟨_, .tick, _, _, rfl⟩
  | wake j =>
    cases h
    exact ⟨_, .wake j, _, _, rfl⟩
  | go refused =>
    simp only [step] at h
    split at h
    · exact go_turn h
    · cases h
      exact stays
  | _ => exact hact h

end turns

/-! ## Every run -/

lemma TableOk.scheduled (h : TableOk s) (hs : Scheduled s t) : TableOk t :=
  h.same hs.toSame hs.cur hs.queued

/-- The points after the signal. -/
lemma signal_parent_cases (s : Sys) : ∃ p, (p = .freeing ∨ p = .leaving) ∧
    (((∀ k, s.me.parent = some k → (s.tasks k).state = .removed) ∧ s.signal_parent = s.goto p) ∨
      ∃ k sent, s.me.parent = some k ∧ (s.tasks k).state ≠ .removed ∧
        s.signal_parent = ({ s with sent := sent }.signal_child k).goto p) := by
  have hnext : (if s.me.type = .x64 then Point.freeing else .leaving) = .freeing ∨
      (if s.me.type = .x64 then Point.freeing else .leaving) = .leaving := by
    split <;> simp
  refine ⟨_, hnext, ?_⟩
  unfold signal_parent
  cases hpar : s.me.parent with
  | none => exact .inl ⟨fun k hk => (by cases hk), rfl⟩
  | some k =>
    by_cases hr : (s.tasks k).state = .removed
    · refine .inl ⟨fun i he => ?_, if_pos hr⟩
      cases he
      exact hr
    · exact .inr ⟨k, _, rfl, hr, if_neg hr⟩

lemma left_of_gone {p : Point} (h : p = .freeing ∨ p = .leaving) : p.left = true := by
  rcases h with rfl | rfl <;> rfl

lemma TableOk.current_ne (h : TableOk s) (hf : Fresh s j)
    (hl : s.me.point.left = false) : s.current ≠ j := hf.live _ h.cur (h.running hl)

lemma TableOk.wait (h : TableOk s) (hp : s.me.point = .wait_child) :
    Scheduled (s.goto .user) ((s.goto .user).block true) := by
  have hl := congrArg Point.left (goto_me_point (s := s) (p := .user))
  exact (h.goto (hp ▸ rfl)).block hl true

/-- What every change of the table keeps, every step keeps. -/
lemma Turn.keeps {P : Sys → Prop} {i : Input} (ht : Turn s i t) (h : TableOk s)
    (hsched : ∀ {s t}, Scheduled s t → P s → P t)
    (hgoto : ∀ {s : Sys} {p}, p.left = s.me.point.left → p ≠ .signalling → P s → P (s.goto p))
    (hcreate : ∀ {j type pri}, s.creates i = true → s.free_slot = some j →
      s.me.point.left = false → P s → P (s.create j type pri))
    (hremoved : s.me.point.left = false → P s → P s.removed)
    (hsent : ∀ sent, P s → P { s with sent := sent }) (hs : P s) : P t := by
  have hclear {p : Point} (hl : s.me.point.left = false) (hp : p.left = false)
      (hne : p ≠ .signalling) : P (s.clear_child.goto p) := by
    refine hgoto ?_ hne (hsched ⟨h.clear_child hl, h.cur, h.queued, .inl rfl⟩ hs)
    rw [clear_child_point, hp, hl]
  cases ht with
  | stay => exact hs
  | tick => exact hsched h.schedule hs
  | wake j => exact hsched (h.wake j).1 hs
  | clear hu hp => exact hclear (hp ▸ rfl) rfl (by simp)
  | hear refused hp => exact hclear (hp ▸ rfl) rfl (by simp)
  | wait refused hp => exact hsched (h.wait hp) (hgoto (hp ▸ rfl) (by simp) hs)
  | sleep hu hp => exact hsched (h.block (hp ▸ rfl) false) hs
  | yield => exact hsched h.schedule hs
  | leave => exact hsched h.schedule hs
  | goto i p hleft hold hp => exact hgoto hleft (bare_ne hp).1 hs
  | create i j type pri p hi hslot hleft hp hb =>
    refine hgoto ?_ (bare_ne hb).1 (hcreate hi hslot hleft hs)
    have hme : (s.create j type pri).me = s.me := create_old (h.current_ne (h.new_slot hslot) hleft)
    rw [hp, hme, hleft]
  | removed refused hp => exact hremoved (hp ▸ rfl) hs
  | signal refused hp =>
    obtain ⟨p, hgone, hcase⟩ := signal_parent_cases s
    have hleft : p.left = s.me.point.left := by rw [left_of_gone hgone, hp]; rfl
    have hne : p ≠ .signalling := by
      rintro rfl
      rcases hgone with h | h <;> cases h
    rcases hcase with ⟨-, he⟩ | ⟨k, sent, hpar, hr, he⟩
    · exact he ▸ hgoto hleft hne hs
    obtain ⟨hsame, hcur⟩ := (h.sent sent).signal_child (h.rooted _ h.cur k hpar) hr
    refine he ▸ hgoto ?_ hne (hsched hsame (hsent sent hs))
    rw [hleft, me, me, hcur, hsame.point]

lemma Turn.table {i : Input} (ht : Turn s i t) (h : TableOk s) : TableOk t :=
  ht.keeps h (fun hs h => h.scheduled hs) (fun hleft _ h => h.goto hleft)
    (fun _ hslot _ h => h.create (h.new_slot hslot)) (fun _ h => h.removed)
    (fun sent h => h.sent sent) h

lemma Turn.families {i : Input} (ht : Turn s i t) (h : TableOk s) (hf : Families s) :
    Families t :=
  ht.keeps h (fun hs hf => hf.same hs.toSame) (fun _ _ hf => hf.goto)
    (fun _ hslot _ hf => hf.create h (h.new_slot hslot)) (fun _ hf => hf.removed)
    (fun sent hf => hf.sent sent) hf

end Sys

end uaos.task
