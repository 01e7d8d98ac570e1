-- What the exits of a run mean to the tasks that stay: who is sent the child signal, who still
-- waits for it, and whose blocks there are when the arena is reset.
import Uaos.X64Exits

namespace uaos.task

open Function

open x64

variable {pri : Int} {id : Nat} {m : Task} {type : TaskType}

def Point.signals : Point → Bool
  | .signalling => true
  | _ => false

lemma signals_of_ne {p : Point} (h : p ≠ .signalling) : p.signals = false := by
  cases p <;> first | rfl | exact absurd rfl h

namespace Sys

variable {M : Machine} {s t : Sys} {i : Input} {p : Point} {j : Nat}

/-! ## Tasks that have yet to send the child signal -/

def Due (s : Sys) (j : Nat) : Prop :=
  (s.tasks j).state ≠ .removed ∨ j = s.current ∧ (s.tasks j).point.signals = true

instance (s : Sys) (j : Nat) : Decidable (s.Due j) := inferInstanceAs (Decidable (_ ∨ _))

lemma Due.of_scheduled (hs : Scheduled s t) (h : t.Due j) : s.Due j := by
  rcases h with h | ⟨rfl, h⟩
  · exact .inl fun he => h ((hs.removed j).mpr he)
  · rw [hs.point] at h
    exact hs.live.symm.imp_right fun he => ⟨he, h⟩

lemma Due.scheduled (hs : Scheduled s t)
    (hp : t.current = s.current ∨ s.me.point.signals = false) (h : s.Due j) : t.Due j := by
  rcases h with h | ⟨rfl, h⟩
  · exact .inl fun he => h ((hs.removed j).mp he)
  rcases hp with he | hp
  · exact .inr ⟨he.symm, (hs.point _).symm ▸ h⟩
  · rw [me, h] at hp
    cases hp

lemma Due.of_goto (hp : p ≠ .signalling) (h : (s.goto p).Due j) : s.Due j := by
  rcases h with h | ⟨rfl, h⟩
  · rw [goto_state] at h
    exact .inl h
  · rw [← me, goto_me_point, signals_of_ne hp] at h
    cases h

lemma Due.goto (hp : s.me.point.signals = false) (h : s.Due j) : (s.goto p).Due j := by
  rcases h with h | ⟨rfl, h⟩
  · left
    rwa [goto_state]
  · rw [me, h] at hp
    cases hp

lemma Due.removed (h : s.Due j) : s.removed.Due j := by
  by_cases hj : j = s.current
  · refine .inr ⟨hj, ?_⟩
    rw [removed_point, if_pos hj]
    rfl
  · refine .inl ?_
    rw [removed_state, if_neg hj]
    exact h.resolve_right fun h => hj h.1

lemma Due.of_removed (hl : s.me.state ≠ .removed) (h : s.removed.Due j) : s.Due j := by
  by_cases hj : j = s.current
  · exact .inl (hj ▸ hl)
  refine .inl fun he => ?_
  rcases h with h | h
  · rw [removed_state, if_neg hj] at h
    exact h he
  · exact hj h.1

/-! ## Who is sent the child signal -/

/-- The slot that the next step signals. -/
def signalled (s : Sys) : Option Nat :=
  if s.me.point.signals then s.me.parent.filter fun k => (s.tasks k).state ≠ .removed else none

/-- A new task does not take a slot that a task which lives names as its parent. -/
def spares_parents (s : Sys) (i : Input) : Bool :=
  !s.creates i || s.free_slot.all fun j => (List.range s.count).all fun k =>
    (s.tasks k).state = .removed ∨ (s.tasks k).parent ≠ some j

/-- The slot that a task names holds the task that created it. -/
def Named (s : Sys) : Prop := ∀ j < s.count, s.Due j → ∀ k, (s.tasks j).parent = some k →
    s.parent_of (s.tasks j).id = some (s.tasks k).id

lemma Named.scheduled (h : Named s) (hs : Scheduled s t) : Named t := by
  intro j hj hdue k hk
  rw [hs.parent] at hk
  rw [hs.parent_of, hs.id, hs.id]
  exact h j (hs.count ▸ hj) (hdue.of_scheduled hs) k hk

lemma Named.goto (h : Named s) (hp : p ≠ .signalling) : Named (s.goto p) := by
  intro j hj hdue k hk
  rw [goto_parent] at hk
  rw [goto_id, goto_id]
  exact h j hj (hdue.of_goto hp) k hk

lemma Named.removed (h : Named s) (hl : s.me.state ≠ .removed) : Named s.removed := by
  intro j hj hdue k hk
  rw [removed_parent] at hk
  rw [removed_id, removed_id]
  exact h j hj (hdue.of_removed hl) k hk

lemma Named.create (h : Named s) (ht : TableOk s) (hf : Fresh s j) (hl : s.me.point.left = false)
    (hfree : ∀ k < s.count, (s.tasks k).state ≠ .removed → (s.tasks k).parent ≠ some j) :
    Named (s.create j type pri) := by
  intro i hci hdue k hk
  rcases hf.old i hci with rfl | ⟨hlt, hne⟩
  · -- the parent of the new task is the current one
    rw [create_new] at hk ⊢
    cases hk
    rw [create_parent_new, create_old (ht.current_ne hf hl)]
    rfl
  have hdue' : (s.tasks i).state ≠ .removed := by
    rcases hdue with hd | ⟨hic, hd⟩
    · rwa [create_old hne] at hd
    · rw [hic]
      exact ht.running hl
  rw [create_old hne] at hk ⊢
  have hkj : k ≠ j := by
    rintro rfl
    exact hfree i hlt hdue' hk
  rw [create_old hkj, create_parent_of (ne_of_lt (ht.fresh i hlt))]
  exact h i hlt (.inl hdue') k hk

lemma spares_parents_spec (h : s.spares_parents i = true) (hi : s.creates i = true)
    (hslot : s.free_slot = some j) :
    ∀ k < s.count, (s.tasks k).state ≠ .removed → (s.tasks k).parent ≠ some j := by
  intro k hk hs
  simp only [spares_parents, hi, hslot, Bool.not_true, Bool.false_or, Option.all_some,
    List.all_eq_true, List.mem_range, decide_eq_true_eq] at h
  exact (h k hk).resolve_left hs

lemma Turn.named (ht : Turn s i t) (h : TableOk s) (hn : Named s)
    (hok : s.spares_parents i = true) : Named t :=
  ht.keeps h (fun hs hn => hn.scheduled hs) (fun _ hp hn => hn.goto hp)
    (fun hi hslot hl hn => hn.create h (h.new_slot hslot) hl (spares_parents_spec hok hi hslot))
    (fun hl hn => hn.removed (h.running hl)) (fun _ hn => hn) hn

lemma Beside.table (hb : Beside s t) (h : TableOk s) : TableOk t := by
  obtain ⟨st, wh, rfl⟩ := hb
  exact h.stored st wh

lemma Beside.families (hb : Beside s t) (h : Families s) : Families t := by
  obtain ⟨st, wh, rfl⟩ := hb
  exact h.stored st wh

lemma Beside.named (hb : Beside s t) (h : Named s) : Named t := by
  obtain ⟨st, wh, rfl⟩ := hb
  exact h

lemma step_named (s : Sys) (i : Input) (t : Sys) (h : TableOk s ∧ Named s)
    (hok : s.spares_parents i = true) (hstep : s.step M i = some t) : TableOk t ∧ Named t := by
  obtain ⟨u, ht, hb⟩ := step_turn hstep
  exact ⟨hb.table (ht.table h.1), hb.named (ht.named h.1 h.2 hok)⟩

/-- In every run in which the slot of a parent stays its own as long as a child lives, a task that
exits signals the task that created it, and no other. -/
theorem the_child_signal_goes_to_the_creator (M : Machine) (mem : Buf) (is : List Input)
    (hok : RunOk (step M) (fun s i => s.spares_parents i = true) (boot mem) is)
    (s : Sys) (hrun : run (step M) (boot mem) is = some s) :
    ∀ k, s.signalled = some k → s.parent_of s.me.id = some (s.tasks k).id := by
  have h0 : TableOk (boot mem) ∧ Named (boot mem) := by
    refine ⟨boot_table mem, fun j hj hdue k hk => ?_⟩
    cases hk
  obtain ⟨htable, hnamed⟩ := run_ok_keeps step_named h0 hok hrun
  intro k hk
  unfold signalled at hk
  split at hk
  · rename_i hp
    obtain ⟨hpar, -⟩ := Option.filter_eq_some_iff.mp hk
    exact hnamed s.current htable.cur (.inr ⟨rfl, hp⟩) k hpar
  · cases hk

theorem a_child_signals_the_first_task : ∃ s, run (step low_machine) (boot fun _ => 0)
      [.native 0, .tick, .exit, .go false] = some s ∧
      s.signalled = some 0 ∧ s.parent_of s.me.id = some (s.tasks 0).id := by
  obtain ⟨s, hrun, hk⟩ : ∃ s, run (step low_machine) (boot fun _ => 0)
      [.native 0, .tick, .exit, .go false] = some s ∧ s.signalled = some 0 :=
    run_ends (by decide +kernel)
  exact ⟨s, hrun, hk, the_child_signal_goes_to_the_creator _ _ _ (by decide +kernel) s hrun 0 hk⟩

/-- The second task creates the third and exits, the first one creates a fourth task in its slot,
and the third task signals the fourth. -/
theorem an_orphan_signals_the_next_task_in_the_slot :
    ∃ s, run (step low_machine) (boot fun _ => 0)
      [.native 0, .tick, .native 0, .exit, .go false, .go false, .go false, .native 0, .tick,
        .exit, .go false] = some s ∧
      s.signalled = some 1 ∧ (s.tasks 1).id = 3 ∧ s.parent_of s.me.id = some 1 :=
  run_ends (by decide +kernel)

/-! ## Who waits for a child -/

/-- The task never had a child, or one of its children has yet to send the signal. -/
def Expects (s : Sys) (id : Nat) : Prop := (∀ c < s.born, s.parent_of c ≠ some id) ∨
    ∃ j < s.count, s.Due j ∧ s.parent_of (s.tasks j).id = some id

instance (s : Sys) (id : Nat) : Decidable (s.Expects id) := inferInstanceAs (Decidable (_ ∨ _))

/-- A task that starts to wait for a child has one that has yet to send the signal, and no tick
comes between `TASK_REMOVED` and the signal. -/
def hears (s : Sys) : Input → Bool
  | .tick => !s.me.point.signals
  | .wait => !s.at_user || decide (s.Expects s.me.id)
  | _ => true

/-- Nobody has missed the signal of a child. -/
structure Heard (s : Sys) : Prop where
  asleep : ∀ j < s.count, (s.tasks j).state = .waiting → (s.tasks j).waits = true →
    s.Expects (s.tasks j).id
  awake : ∀ j < s.count, (s.tasks j).point = .wait_child →
    (s.tasks j).child_sig = true ∨ s.Expects (s.tasks j).id

/-- Tasks are woken and the signals stay as they are. -/
structure Quiet (s t : Sys) : Prop where
  sig : ∀ j, (t.tasks j).child_sig = (s.tasks j).child_sig
  waits : ∀ j, (t.tasks j).waits = (s.tasks j).waits
  asleep : ∀ j, (t.tasks j).state = .waiting → (s.tasks j).state = .waiting

lemma Quiet.refl (s : Sys) : Quiet s s := ⟨fun _ => rfl, fun _ => rfl, fun _ h => h⟩

lemma Quiet.trans {u : Sys} (h : Quiet s t) (h' : Quiet t u) : Quiet s u where
  sig j := (h'.sig j).trans (h.sig j)
  waits j := (h'.waits j).trans (h.waits j)
  asleep j hj := h.asleep j (h'.asleep j hj)

/-- A task is put into a state in which it does not wait. -/
lemma set_quiet {r : TaskState} {q : List Nat} {c : Nat} (hr : r ≠ .waiting) :
    Quiet s { s.set j { s.tasks j with state := r } with ready := q, current := c } := by
  constructor <;> intro k <;> by_cases hk : k = j <;> simp [set, hk, hr]

lemma enqueue_quiet : Quiet s (s.ready_enqueue j) := set_quiet (by decide)

lemma dispatch_quiet (r : Option Nat × List Nat) : Quiet s (s.dispatch r) := by
  obtain ⟨next, q⟩ := r
  cases next with
  | none => exact ⟨fun _ => rfl, fun _ => rfl, fun _ h => h⟩
  | some next => exact set_quiet (by decide)

lemma schedule_quiet (s : Sys) : Quiet s s.do_schedule := by
  unfold do_schedule
  split
  · exact enqueue_quiet.trans (dispatch_quiet _)
  · exact dispatch_quiet _

lemma wake_quiet (s : Sys) (j : Nat) : Quiet s (s.wake j) := by
  unfold wake
  split
  · exact enqueue_quiet
  · exact Quiet.refl s

lemma Expects.scheduled (hs : Scheduled s t)
    (hp : t.current = s.current ∨ s.me.point.signals = false) (h : s.Expects id) :
    t.Expects id := by
  rcases h with h | ⟨j, hj, hdue, hpar⟩
  · left
    rwa [hs.born, hs.parent_of]
  · refine .inr ⟨j, hs.count ▸ hj, hdue.scheduled hs hp, ?_⟩
    rwa [hs.parent_of, hs.id]

lemma Heard.scheduled (h : Heard s) (hc : Scheduled s t) (hq : Quiet s t)
    (hp : t.current = s.current ∨ s.me.point.signals = false) : Heard t := by
  refine ⟨fun j hj hstate hwaits => ?_, fun j hj hpoint => ?_⟩
  · rw [hq.waits] at hwaits
    rw [hc.id]
    exact (h.asleep j (hc.count ▸ hj) (hq.asleep j hstate) hwaits).scheduled hc hp
  · rw [hc.point] at hpoint
    rw [hq.sig, hc.id]
    exact (h.awake j (hc.count ▸ hj) hpoint).imp_right fun he => he.scheduled hc hp

lemma Expects.goto (hp : s.me.point.signals = false) (h : s.Expects id) :
    (s.goto p).Expects id := by
  rcases h with h | ⟨j, hj, hdue, hpar⟩
  · exact .inl h
  · refine .inr ⟨j, hj, hdue.goto hp, ?_⟩
    rwa [goto_id]

lemma goto_waits : ((s.goto p).tasks j).waits = (s.tasks j).waits := set_other Task.waits rfl

lemma goto_child_sig : ((s.goto p).tasks j).child_sig = (s.tasks j).child_sig :=
  set_other Task.child_sig rfl

lemma Heard.goto (h : Heard s) (hp : s.me.point.signals = false) (hne : p ≠ .wait_child) :
    Heard (s.goto p) := by
  refine ⟨fun j hj hstate hwaits => ?_, fun j hj hpoint => ?_⟩
  · rw [goto_state] at hstate
    rw [goto_waits] at hwaits
    rw [goto_id]
    exact (h.asleep j hj hstate hwaits).goto hp
  · rw [goto_point] at hpoint
    split at hpoint
    · exact absurd hpoint hne
    · rw [goto_child_sig, goto_id]
      exact (h.awake j hj hpoint).imp_right fun he => he.goto hp

/-- The current task changes and is not removed. -/
lemma Expects.set_me (hid : m.id = s.me.id) (hm : m.state ≠ .removed)
    (h : s.Expects id) : (s.set s.current m).Expects id := by
  rcases h with h | ⟨j, hj, hdue, hpar⟩
  · exact .inl h
  refine .inr ⟨j, hj, ?_⟩
  by_cases hc : j = s.current
  · rw [hc] at hpar ⊢
    simp only [Due, set, update_self]
    exact ⟨.inl hm, hid ▸ hpar⟩
  · simp only [Due, set, update_of_ne hc]
    exact ⟨hdue, hpar⟩

lemma Heard.set_me (h : Heard s) (hid : m.id = s.me.id) (hm : m.state ≠ .removed)
    (hasleep : m.state = .waiting → m.waits = true → s.Expects s.me.id)
    (hawake : m.point = .wait_child → m.child_sig = true ∨ s.Expects s.me.id) :
    Heard (s.set s.current m) := by
  have hx {id : Nat} (h : s.Expects id) := h.set_me hid hm
  refine ⟨fun j hj hstate hwaits => ?_, fun j hj hpoint => ?_⟩ <;> by_cases hc : j = s.current
  · simp only [hc, set, update_self] at hstate hwaits ⊢
    exact hid ▸ hx (hasleep hstate hwaits)
  · simp only [set, update_of_ne hc] at hstate hwaits ⊢
    exact hx (h.asleep j hj hstate hwaits)
  · simp only [hc, set, update_self] at hpoint ⊢
    exact (hawake hpoint).imp_right fun he => hid ▸ hx he
  · simp only [set, update_of_ne hc] at hpoint ⊢
    exact (h.awake j hj hpoint).imp_right hx

lemma clear_goto (s : Sys) (p : Point) :
    s.clear_child.goto p = s.set s.current { s.me with child_sig := false, point := p } := by
  simp [clear_child, goto, set, me]

/-- The current task waits for a child that is due, or it took the signal of one. -/
lemma Heard.clear (h : Heard s) (ht : TableOk s) (hl : s.me.point.left = false)
    (hx : p = .wait_child → s.Expects s.me.id) : Heard (s.clear_child.goto p) := by
  rw [clear_goto]
  exact h.set_me rfl (ht.running hl) (h.asleep s.current ht.cur) fun hp => .inr (hx hp)

/-- The current task sleeps. -/
lemma Heard.block (h : Heard s) (ht : TableOk s) (hp : s.me.point = .user) (waits : Bool)
    (hx : waits = true → s.Expects s.me.id) : Heard (s.block waits) := by
  let m : Task :=
    { s.me with state := .waiting, child_sig := !waits && s.me.child_sig, waits := waits }
  have hsame : Same s (s.set s.current m) := Same.set_state (ht.running (hp ▸ rfl)) (by decide)
  have hm : Heard (s.set s.current m) := by
    refine h.set_me rfl (by simp [m]) (fun _ hw => hx hw) fun hpoint => ?_
    rw [show m.point = .user from hp] at hpoint
    cases hpoint
  have hpoint : (s.set s.current m).me.point.signals = false := by
    rw [me, hsame.point]
    exact congrArg Point.signals hp
  exact hm.scheduled (ht.same hsame ht.cur ht.queued).schedule (schedule_quiet _) (.inr hpoint)

lemma Expects.create (h : s.Expects id)
    (ht : TableOk s) (hf : Fresh s j) (hl : s.me.point.left = false) :
    (s.create j type pri).Expects id := by
  rcases h with h | ⟨c, hc, hdue, hpar⟩
  · by_cases hid : id = s.me.id
    · -- the new task is a child that is due
      refine .inr ⟨j, hf.lt, .inl ?_, ?_⟩
      · simp [create_new]
      · rw [create_new, create_parent_new, hid]
    · refine .inl fun c hc he => ?_
      by_cases hnew : c = s.born
      · rw [hnew, create_parent_new] at he
        exact hid (Option.some.inj he).symm
      · rw [create_parent_of hnew] at he
        exact h c (Nat.lt_of_le_of_ne (Nat.le_of_lt_succ hc) hnew) he
  · have hstate : (s.tasks c).state ≠ .removed := by
      rcases hdue with hd | ⟨rfl, -⟩
      · exact hd
      · exact ht.running hl
    have hne := hf.live c hc hstate
    refine .inr ⟨c, lt_of_lt_of_le hc (le_max_left _ _), .inl ?_, ?_⟩
    · rwa [create_old hne]
    · rwa [create_old hne, create_parent_of (ne_of_lt (ht.fresh c hc))]

lemma Heard.create (h : Heard s) (ht : TableOk s)
    (hf : Fresh s j) (hl : s.me.point.left = false) : Heard (s.create j type pri) := by
  refine ⟨fun k hk hstate hwaits => ?_, fun k hk hpoint => ?_⟩ <;>
    rcases hf.old k hk with rfl | ⟨hlt, hne⟩
  · rw [create_new] at hstate
    cases hstate
  · rw [create_old hne] at hstate hwaits ⊢
    exact (h.asleep k hlt hstate hwaits).create ht hf hl
  · rw [create_new] at hpoint
    cases hpoint
  · rw [create_old hne] at hpoint ⊢
    exact (h.awake k hlt hpoint).imp_right fun he => he.create ht hf hl

lemma Heard.removed (h : Heard s) : Heard s.removed := by
  have hx {id : Nat} (h : s.Expects id) : s.removed.Expects id := by
    rcases h with h | ⟨j, hj, hdue, hpar⟩
    · exact .inl h
    · refine .inr ⟨j, hj, hdue.removed, ?_⟩
      rwa [removed_id]
  refine ⟨fun j hj hstate hwaits => ?_, fun j hj hpoint => ?_⟩ <;> by_cases hc : j = s.current
  · rw [removed_state, if_pos hc] at hstate
    cases hstate
  · rw [removed_tasks, if_neg hc] at hstate hwaits ⊢
    exact hx (h.asleep j hj hstate hwaits)
  · rw [removed_point, if_pos hc] at hpoint
    cases hpoint
  · rw [removed_tasks, if_neg hc] at hpoint ⊢
    exact (h.awake j hj hpoint).imp_right hx

/-- A parent that lives is in the slot that the current task names. -/
lemma Families.not_parent (hf : Families s) (ht : TableOk s) (hj : j < s.count)
    (hl : (s.tasks j).state ≠ .removed) (hne : s.me.parent ≠ some j) :
    s.parent_of s.me.id ≠ some (s.tasks j).id := by
  intro hpar
  obtain ⟨k, hk, hid, -⟩ := hf.slot ht hpar ⟨j, hj, rfl, hl⟩
  have hkj := ht.one k (ht.rooted _ ht.cur k hk) j hj hid
  exact hne (hkj ▸ hk)

/-- The end of the current task changes nothing for those that it is no child of. -/
lemma Expects.past (h : s.Expects id) (hpar : s.parent_of s.me.id ≠ some id)
    (hs : Same s t) : (t.goto p).Expects id := by
  rcases h with h | ⟨j, hj, hdue, hpj⟩
  · left
    change ∀ c < t.born, t.parent_of c ≠ some id
    rwa [hs.born, hs.parent_of]
  rcases hdue with hd | ⟨rfl, -⟩
  · refine .inr ⟨j, hs.count.symm ▸ hj, .inl ?_, ?_⟩
    · rw [goto_state]
      exact fun he => hd ((hs.removed j).mp he)
    · change t.parent_of _ = _
      rwa [goto_id, hs.parent_of, hs.id]
  · exact absurd hpj hpar

lemma signal_child_other {k : Nat} (hne : j ≠ k) : (s.signal_child k).tasks j = s.tasks j := by
  unfold signal_child
  simp only
  split <;> simp [ready_enqueue, set, hne]

/-- A task that is signalled has the signal, and it does not sleep for it. -/
lemma signal_child_self (s : Sys) (k : Nat) : ((s.signal_child k).tasks k).child_sig = true ∧
      (((s.signal_child k).tasks k).state = .waiting →
        ((s.signal_child k).tasks k).waits = false) := by
  unfold signal_child
  simp only
  split
  · simp [ready_enqueue, set]
  · rename_i hno
    refine ⟨by simp [set], fun hw => ?_⟩
    exact Bool.eq_false_iff.mpr fun hwaits => hno ⟨hw, hwaits⟩

/-- The parent of the current task has the signal, and nobody else waits for it. -/
lemma Heard.past (h : Heard s) (ht : TableOk s) (hf : Families s) (hs : Same s t)
    (hp : p ≠ .wait_child) (htold : ∀ k, s.me.parent = some k → (s.tasks k).state ≠ .removed →
      (t.tasks k).child_sig = true ∧ ((t.tasks k).state = .waiting → (t.tasks k).waits = false))
    (hother : ∀ j, ¬ (s.me.parent = some j ∧ (s.tasks j).state ≠ .removed) →
      t.tasks j = s.tasks j) : Heard (t.goto p) := by
  have hx {j : Nat} (hj : j < s.count) (hl : (s.tasks j).state ≠ .removed)
      (hno : ¬ (s.me.parent = some j ∧ (s.tasks j).state ≠ .removed))
      (he : s.Expects (s.tasks j).id) : (t.goto p).Expects (s.tasks j).id :=
    he.past (hf.not_parent ht hj hl fun hpar => hno ⟨hpar, hl⟩) hs
  refine ⟨fun j hj hstate hwaits => ?_, fun j hj hpoint => ?_⟩ <;>
    have hj : j < s.count := hs.count ▸ hj <;>
    by_cases hpar : s.me.parent = some j ∧ (s.tasks j).state ≠ .removed
  · rw [goto_state] at hstate
    rw [goto_waits, (htold j hpar.1 hpar.2).2 hstate] at hwaits
    cases hwaits
  · rw [goto_state, hother j hpar] at hstate
    rw [goto_waits, hother j hpar] at hwaits
    rw [goto_id, hother j hpar]
    exact hx hj (by simp [hstate]) hpar (h.asleep j hj hstate hwaits)
  · rw [goto_child_sig]
    exact .inl (htold j hpar.1 hpar.2).1
  · rw [goto_point] at hpoint
    split at hpoint
    · exact absurd hpoint hp
    rw [hother j hpar] at hpoint
    rw [goto_child_sig, goto_id, hother j hpar]
    refine (h.awake j hj hpoint).imp_right fun he => hx hj ?_ hpar he
    rw [ne_eq, ht.gone j hj, hpoint]
    decide

lemma Heard.signal (h : Heard s) (ht : TableOk s) (hf : Families s) : Heard s.signal_parent := by
  obtain ⟨p, hgone, hcase⟩ := signal_parent_cases s
  have hp : p ≠ .wait_child := by
    rintro rfl
    rcases hgone with h | h <;> cases h
  rcases hcase with ⟨hnone, he⟩ | ⟨k, sent, hpar, hr, he⟩
  · rw [he]
    refine h.past ht hf (Same.refl s) hp (fun k hk hl => ?_) fun _ _ => rfl
    exact absurd (hnone k hk) hl
  rw [he]
  have hs := ((ht.sent sent).signal_child (ht.rooted _ ht.cur k hpar) hr).1
  have hsent : Heard { s with sent := sent } := ⟨h.asleep, h.awake⟩
  refine hsent.past (ht.sent sent) (hf.sent sent) hs.toSame hp (fun i hi _ => ?_) fun j hno => ?_
  · cases hpar.symm.trans hi
    exact signal_child_self _ k
  · refine signal_child_other ?_
    rintro rfl
    exact hno ⟨hpar, hr⟩

lemma Turn.heard (ht : Turn s i t) (h : TableOk s) (hf : Families s) (hh : Heard s)
    (hok : s.hears i = true) : Heard t := by
  have hquiet (hp : s.me.point.signals = false) : Heard s.do_schedule :=
    hh.scheduled h.schedule (schedule_quiet s) (.inr hp)
  cases ht with
  | stay => exact hh
  | tick => exact hquiet (Bool.not_eq_eq_eq_not.mp hok)
  | wake j => exact hh.scheduled (h.wake j).1 (wake_quiet s j) (.inl (h.wake j).2)
  | clear hu hp =>
    refine hh.clear h (hp ▸ rfl) fun _ => ?_
    simp only [hears, hu, Bool.not_true, Bool.false_or, decide_eq_true_eq] at hok
    exact hok
  | hear refused hp => exact hh.clear h (hp ▸ rfl) fun he => by cases he
  | wait refused hp hsig =>
    have hx : s.Expects s.me.id := by
      refine (hh.awake s.current h.cur hp).resolve_left fun he => ?_
      rw [← me, hsig] at he
      cases he
    have hsignals : s.me.point.signals = false := hp ▸ rfl
    refine (hh.goto hsignals (by simp)).block (h.goto (hp ▸ rfl)) goto_me_point true fun _ => ?_
    have hid : (s.goto .user).me.id = s.me.id := goto_id
    rw [hid]
    exact hx.goto hsignals
  | sleep hu hp => exact hh.block h hp false fun he => by cases he
  | yield hu hp => exact hquiet (hp ▸ rfl)
  | leave refused hp => exact hquiet (hp ▸ rfl)
  | goto i p hleft hold hp => exact hh.goto (signals_of_ne hold) (bare_ne hp).2
  | create i j type pri p hi hslot hleft hp hb =>
    have hf := h.new_slot hslot
    refine (hh.create h hf hleft).goto ?_ (bare_ne hb).2
    have hme : (s.create j type pri).me = s.me := create_old (h.current_ne hf hleft)
    rw [hme]
    exact signals_of_ne fun he => by simp [he, Point.left] at hleft
  | removed refused hp => exact hh.removed
  | signal refused hp => exact hh.signal h hf

lemma Beside.heard (hb : Beside s t) (h : Heard s) : Heard t := by
  obtain ⟨st, wh, rfl⟩ := hb
  exact ⟨h.asleep, h.awake⟩

lemma step_heard (s : Sys) (i : Input) (t : Sys) (h : TableOk s ∧ Families s ∧ Heard s)
    (hok : s.hears i = true) (hstep : s.step M i = some t) : TableOk t ∧ Families t ∧ Heard t := by
  obtain ⟨u, ht, hb⟩ := step_turn hstep
  refine ⟨hb.table (ht.table h.1), hb.families (ht.families h.1 h.2.1), ?_⟩
  exact hb.heard (ht.heard h.1 h.2.1 h.2.2 hok)

/-- A task that is blocked for the signal of its only child has a child that can still send it. -/
theorem nobody_waits_for_a_child_that_is_gone (M : Machine) (mem : Buf) (is : List Input)
    (hok : RunOk (step M) (fun s i => s.hears i = true) (boot mem) is)
    (s : Sys) (hrun : run (step M) (boot mem) is = some s) :
    ∀ j < s.count, (s.tasks j).state = .waiting → (s.tasks j).waits = true →
      ∀ c < s.born, s.parent_of c = some (s.tasks j).id →
        (∀ d < s.born, s.parent_of d = some (s.tasks j).id → d = c) → s.Active c := by
  have h0 : Heard (boot mem) := by constructor <;> simp [boot]
  obtain ⟨ht, -, hh⟩ := run_ok_keeps step_heard ⟨boot_table mem, boot_families mem, h0⟩ hok hrun
  intro j hj hstate hwaits c hc hpar hone
  rcases hh.asleep j hj hstate hwaits with hnone | ⟨k, hk, hdue, hpk⟩
  · exact absurd hpar (hnone c hc)
  · refine ⟨k, hk, hone _ (ht.fresh k hk) hpk, hdue.imp_right fun hd => ⟨hd.1, ?_⟩⟩
    revert hd
    cases (s.tasks k).point <;> simp [Point.signals, Point.window]

theorem the_first_task_waits_for_its_child : ∃ s, run (step low_machine) (boot fun _ => 0)
      [.native 0, .tick, .native 0, .wait, .go false] = some s ∧
      ((s.tasks 1).state = .waiting ∧ (s.tasks 1).waits = true) ∧ s.Active 2 := by
  obtain ⟨s, hrun, hj, hwait, hc, hpar, hone⟩ : ∃ s, run (step low_machine)
      (boot fun _ => 0) [.native 0, .tick, .native 0, .wait, .go false] = some s ∧
      1 < s.count ∧ ((s.tasks 1).state = .waiting ∧ (s.tasks 1).waits = true) ∧ 2 < s.born ∧
      s.parent_of 2 = some (s.tasks 1).id ∧
      ∀ d < s.born, s.parent_of d = some (s.tasks 1).id → d = 2 :=
    run_ends (by decide +kernel)
  exact ⟨s, hrun, hwait, nobody_waits_for_a_child_that_is_gone _ _ _ (by decide +kernel) s hrun
    1 hj hwait.1 hwait.2 2 hc hpar hone⟩

/-- A child that exits before `sys_wait` clears the signal is waited for in vain, and so is a
child that loses the processor between `TASK_REMOVED` and the signal. -/
theorem a_signal_that_is_cleared_is_waited_for :
    (∃ s, run (step low_machine) (boot fun _ => 0)
      (.spawn small_elf false :: List.replicate 6 (.go false) ++ [.tick, .exit] ++
        List.replicate 7 (.go false) ++ [.wait, .go false]) = some s ∧
      ((s.tasks 0).state = .waiting ∧ (s.tasks 0).waits = true) ∧
      s.parent_of 1 = some (s.tasks 0).id ∧ s.born = 2 ∧ ¬ s.Active 1) ∧
    ∃ s, run (step low_machine) (boot fun _ => 0)
      [.native 0, .tick, .native 0, .wait, .go false, .tick, .exit, .go false, .tick] = some s ∧
      ((s.tasks 1).state = .waiting ∧ (s.tasks 1).waits = true) ∧
      s.parent_of 2 = some (s.tasks 1).id ∧ s.born = 3 ∧ ¬ s.Active 2 := by
  exact ⟨run_ends (by decide +kernel), run_ends (by decide +kernel)⟩

end Sys

end uaos.task
