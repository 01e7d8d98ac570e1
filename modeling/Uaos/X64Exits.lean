-- What a task leaves behind. A task that is preempted on its way out is never dispatched again, and
-- a child can exit before its spawner has handed the image and the stack over. Apart from that,
-- a task that is gone has no block left and its parent knows.
import Uaos.X64Spawns

namespace uaos.task

open List

open x64

variable {refused : Bool} {p : Point} {st : State}

namespace Sys

variable {M : Machine} {s t : Sys}

/-! ## The way out -/

section leaving

/-- A point without pieces, after which the task may be done with its blocks. -/
lemma BlockInv.bare (hi : Inv M s) (hheir : s.me.point.heir = none)
    (hpieces : p.flight = []) (hloans : ∀ l ∈ st.loans, l ∈ s.store.loans)
    (hothers : ∀ j < s.count, j ≠ s.current → ∀ q ∈ (s.tasks j).point.flight,
      Held s.store.loans q → Held st.loans q)
    (hbusy : ∀ l ∈ st.loans, l.owner = (M.tcb s.current).toNat → s.me.type = .x64 →
      s.me.state ≠ .removed ∨ s.me.point = .signalling ∨ s.me.point = .freeing →
      s.me.state ≠ .removed ∨ p = .signalling ∨ p = .freeing) :
    BlockInv M (s.moved st s.whose p) := by
  refine hi.block.moved (fun j hj hne q hq hheld => ⟨hothers j hj hne q hq hheld, rfl⟩) ?_ ?_ ?_ ?_
  · rw [hpieces]
    exact fun q hq => absurd hq not_mem_nil
  · rw [hpieces]
    exact fun q hq => absurd hq not_mem_nil
  · rw [hpieces]
    exact .nil
  intro l hl id hid
  obtain ⟨j, hj, hjid, htype, hb, howner⟩ := hi.block.owned l (hloans l hl) id hid
  have howner := howner.resolve_right fun ho => by
    rw [hheir] at ho
    cases ho.1
  refine ⟨j, hj, hjid, htype, ?_, .inl howner⟩
  by_cases hjc : j = s.current
  · rw [hjc] at howner htype hb
    rw [hjc]
    exact (hbusy l hl howner htype (hb.imp_right And.right)).imp_right fun h => ⟨rfl, h⟩
  · exact .inl (hb.resolve_right fun h => hjc h.1)

lemma TaskInv.removed (h : TaskInv s) : TaskInv s.removed := by
  refine ⟨h.toTableOk.removed, ?_⟩
  intro i hci (hne : i ≠ s.current)
  rw [removed_point, if_neg hne]
  exact h.outside i hci hne

lemma KinInv.removed (h : KinInv s) (hsig : s.me.point ≠ .signalling) : KinInv s.removed := by
  refine ⟨h.toFamilies.removed, fun id hid => ?_⟩
  rcases h.told id hid with ⟨i, hci, he, hs⟩ | ⟨-, hp⟩ | htold
  · by_cases hc : i = s.current
    · refine .inr (.inl ⟨?_, ?_⟩)
      · rw [hc] at he
        exact removed_id.trans he
      · exact removed_point.trans (if_pos rfl)
    · refine .inl ⟨i, hci, removed_id.trans he, ?_⟩
      rwa [removed_state, if_neg hc]
  · exact absurd hp hsig
  · exact .inr (.inr fun p hp ha => htold p hp (removed_alive ha))

section

variable (hi : Inv M s)

include hi

lemma Inv.removed (hp : s.me.point = .removing) : Inv M s.removed := by
  have hblock : BlockInv M (s.moved s.store s.whose .signalling) :=
    BlockInv.bare hi (hp ▸ rfl) rfl (fun _ hl => hl) (fun _ _ _ _ _ hheld => hheld)
      fun _ _ _ _ _ => .inr (.inl rfl)
  have hpoint (j : Nat) : (s.removed.tasks j).point = ((s.goto .signalling).tasks j).point := by
    rw [removed_point, goto_point]
  have hid (j : Nat) : (s.removed.tasks j).id = ((s.goto .signalling).tasks j).id := by
    rw [removed_id, goto_id]
  have hme : s.removed.me.point = .signalling := removed_point.trans (if_pos rfl)
  refine ⟨hi.sound, hi.table.removed, hi.kin.removed (by simp [hp]), ⟨?_, ?_, ?_, ?_⟩,
    .of_range (hme ▸ rfl)⟩
  · simp only [hpoint, hid]
    exact hblock.held
  · simp only [hpoint]
    exact hblock.apart
  · simp only [hpoint]
    exact hblock.two
  intro l hl id hwhose
  obtain ⟨j, hj, he, htype, hbusy, howner⟩ := hblock.owned l hl id hwhose
  refine ⟨j, hj, (hid j).trans he, ?_, ?_, howner.imp_right fun ho => ?_⟩
  · rw [removed_type]
    exact goto_type.symm.trans htype
  · by_cases hc : j = s.current
    · exact .inr ⟨hc, .inl hme⟩
    · refine .inl ?_
      rw [removed_state, if_neg hc]
      exact goto_state (p := .signalling) ▸ hbusy.resolve_right fun hb => hc hb.1
  · rw [moved_me_point] at ho
    cases ho.1

/-- After the signal the task frees its blocks, if it is an x64 task. -/
lemma Inv.leave (hp : s.me.point = .signalling)
    (htold : ∀ p, s.parent_of s.me.id = some p → s.Alive p → s.sent s.me.id = true) :
    Inv M (s.goto (if s.me.type = .x64 then .freeing else .leaving)) := by
  obtain ⟨hleft, hflight, hrange⟩ :
      (if s.me.type = .x64 then Point.freeing else .leaving).left = s.me.point.left ∧
      (if s.me.type = .x64 then Point.freeing else .leaving).flight = [] ∧
      (if s.me.type = .x64 then Point.freeing else .leaving).range = none := by
    rw [hp]
    split <;> exact ⟨rfl, rfl, rfl⟩
  refine ⟨hi.sound, hi.table.moved hleft, hi.kin.moved fun _ => htold, ?_, moved_clear hrange⟩
  exact BlockInv.bare hi (hp ▸ rfl) hflight (fun _ hl => hl) (fun _ _ _ _ _ hheld => hheld)
    fun _ _ _ htype _ => .inr (.inr (if_pos htype))

lemma Inv.send (sent : Nat → Bool)
    (h : ∀ id, s.sent id = true → sent id = true) : Inv M { s with sent := sent } := by
  refine ⟨hi.sound, ⟨hi.table.toTableOk.sent sent, hi.table.outside⟩,
    ⟨hi.kin.toFamilies.sent sent, ?_⟩,
    ⟨hi.block.held, hi.block.apart, hi.block.two, hi.block.owned⟩, hi.clear⟩
  intro id hid
  refine (hi.kin.told id hid).imp_right (Or.imp_right fun htold p hp ha => ?_)
  exact h id (htold p hp ha)

lemma Inv.signal_parent (hp : s.me.point = .signalling) : Inv M s.signal_parent := by
  unfold Sys.signal_parent
  cases hpar : s.me.parent with
  | none =>
    refine hi.leave hp fun p hof ha => ?_
    obtain ⟨k, hk, -⟩ := hi.kin.slot hi.table.toTableOk hof ha
    rw [hpar] at hk
    cases hk
  | some k =>
    simp only
    by_cases hr : (s.tasks k).state = .removed
    · rw [if_pos hr]
      refine hi.leave hp fun p hof ha => ?_
      obtain ⟨i, hci, -, hs⟩ := hi.kin.slot hi.table.toTableOk hof ha
      rw [hpar] at hci
      cases hci
      exact absurd hr hs
    rw [if_neg hr]
    have hsend := hi.send (Function.update s.sent s.me.id (s.sent s.me.id ||
      s.parent_of s.me.id = some (s.tasks k).id)) fun id hid => by
        rw [Function.update_apply]
        split
        · rename_i he
          rw [← he, hid, Bool.true_or]
        · exact hid
    have hk : k < s.count := hi.table.rooted s.current hi.table.cur k hpar
    obtain ⟨hsched, hcur⟩ := hsend.table.toTableOk.signal_child hk hr
    have hsame := hsched.toSame
    have hu := hsend.same hsame (.inl hcur) hsched.queued
    generalize signal_child _ k = u at hu hsame hcur
    have hid : u.me.id = s.me.id := (congrArg (fun j => (u.tasks j).id) hcur).trans (hsame.id _)
    have htype : u.me.type = s.me.type :=
      (congrArg (fun j => (u.tasks j).type) hcur).trans (hsame.type _)
    have hpoint : u.me.point = s.me.point :=
      (congrArg (fun j => (u.tasks j).point) hcur).trans (hsame.point _)
    rw [← htype]
    refine hu.leave (hpoint.trans hp) fun p hof ha => ?_
    have hof : s.parent_of s.me.id = some p := by
      rw [hid, hsame.parent_of] at hof
      exact hof
    obtain ⟨i, hci, hip, -⟩ := hi.kin.slot hi.table.toTableOk hof (hsame.alive.mp ha)
    rw [hpar] at hci
    cases hci
    rw [hid, hsame.sent]
    simp [hof, hip]

/-- One more block of the task is given back, or it has none left. -/
lemma Inv.free_next (hp : s.me.point = .freeing) : ∃ t, s.free_next M = some t ∧ Inv M t := by
  unfold Sys.free_next free_round
  rcases hi.sound.search (Heap.owned_by (M.tcb s.current).toNat) with
    ⟨he, hnone⟩ | ⟨b, he, l, hl, hptr, hown⟩
  · rw [he]
    refine ⟨s.moved s.store s.whose .reclaiming, rfl, hi.moved (hp ▸ rfl) (by simp [hp]) hi.sound ?_
      (moved_clear rfl)⟩
    refine BlockInv.bare hi (hp ▸ rfl) rfl (fun _ hl => hl) (fun _ _ _ _ _ hheld => hheld) ?_
    intro l hl howner
    have hno := hnone l hl
    rw [hi.sound.owned_by_iff hl, decide_eq_false_iff_not] at hno
    exact absurd howner hno
  rw [hi.sound.owned_by_iff hl, decide_eq_true_eq] at hown
  rw [he]
  refine ⟨_, rfl, ?_⟩
  rw [hptr]
  have hstay := moved_stay s (s.store.free M.arena l.ptr) s.whose
  refine hstay ▸ hi.moved rfl (by simp [hp]) (hi.sound.free (free_ok_of_loan hl)) ?_
    (moved_clear (hp ▸ rfl))
  refine BlockInv.bare hi (hp ▸ rfl) (hp ▸ rfl) (fun m hm => mem_of_mem_filter hm) ?_
    fun _ _ _ _ _ => .inr (.inr hp)
  -- a piece in flight has no owner
  intro j hj hne q hq hheld
  refine hheld.filter fun heq => ?_
  obtain ⟨m, hm, hmptr, hzero, -⟩ := hheld
  rw [hi.sound.one_loan hm hl (hmptr.trans heq), hown] at hzero
  exact M.tcb_ne s.current (UInt64.toNat_inj.mp hzero)

lemma Inv.reclaim (hp : s.me.point = .reclaiming) (hfit : s.go_fits M refused .reclaiming = true) :
    Inv M ((s.ELF64_ReclaimHeap M).goto .leaving) := by
  unfold ELF64_ReclaimHeap
  by_cases hr : s.no_x64_left ∧ s.store.heap.first ≠ 0
  · rw [if_pos hr]
    refine hi.moved (hp ▸ rfl) (by simp [hp]) (.inr ⟨_, _, reset_good _ _, reset_booked _⟩) ?_
      (moved_clear rfl)
    refine BlockInv.bare hi (hp ▸ rfl) rfl (fun l hl => absurd hl not_mem_nil) ?_
      fun l hl => absurd hl not_mem_nil
    intro j hj hne q hq
    simp only [go_fits, hr.1, Bool.not_true, Bool.false_or, List.all_eq_true] at hfit
    have hin := Point.flight_subset hq
    rw [List.isEmpty_iff.mp (hfit j (mem_range.mpr hj))] at hin
    cases hin
  · rw [if_neg hr]
    refine hi.moved (hp ▸ rfl) (by simp [hp]) hi.sound ?_ (moved_clear rfl)
    refine BlockInv.bare hi (hp ▸ rfl) rfl (fun _ hl => hl) (fun _ _ _ _ _ hheld => hheld) ?_
    intro l hl howner htype hb
    refine .inl (hb.resolve_right ?_)
    rw [hp]
    rintro (h | h) <;> cases h

end

end leaving

/-! ## Every step -/

lemma Inv.clear_and_pass (hi : Inv M s) (hold : Plain s.me.point) (hnew : Plain p)
    (hpieces : p.flight = []) : Inv M (s.clear_child.goto p) := by
  have hc := hi.clear_child hold.2
  have hmoved : Inv M (s.clear_child.moved s.store s.whose p) := by
    refine hc.pass ?_ hnew ?_ hc.sound rfl
    · rwa [clear_child_point]
    · rw [hpieces]
      exact nil_sublist _
  exact hmoved

lemma Inv.wait_child (hi : Inv M s) (hp : s.me.point = .wait_child) : Inv M s.wait_child := by
  have hold : Plain s.me.point := hp ▸ ⟨rfl, rfl⟩
  have hmoved : Inv M (s.moved s.store s.whose .user) :=
    hi.pass hold ⟨rfl, rfl⟩ (nil_sublist _) hi.sound rfl
  have hplain : Plain (s.goto .user).me.point := by
    rw [goto_me_point]
    exact ⟨rfl, rfl⟩
  unfold Sys.wait_child
  split
  · exact hi.clear_and_pass hold ⟨rfl, rfl⟩ rfl
  · exact hmoved.block_me hplain.1 hplain.2 true

lemma Inv.go (hi : Inv M s) (hfit : s.go_fits M refused s.me.point = true) :
    ∃ t, s.go M refused = some t ∧ Inv M t := by
  unfold Sys.go
  cases hp : s.me.point with
  | user => exact ⟨s, rfl, hi⟩
  | wait_child => exact ⟨_, rfl, hi.wait_child hp⟩
  | load_image elf data => exact hi.load_image hp (hp ▸ hfit)
  | load_stack elf data image => exact hi.load_stack hp (hp ▸ hfit)
  | free_data data r => exact ⟨_, rfl, hi.free_data hp (hp ▸ hfit)⟩
  | create r => exact ⟨_, rfl, hi.Task_CreateX64 hp⟩
  | own_image child r => exact hi.own_image hp
  | own_stack child r => exact hi.own_stack hp
  | undo_image r => exact hi.undo_image hp
  | undo_stack r => exact hi.undo_stack hp
  | removing => exact ⟨_, rfl, hi.removed hp⟩
  | signalling => exact ⟨_, rfl, hi.signal_parent hp⟩
  | freeing => exact hi.free_next hp
  | reclaiming => exact ⟨_, rfl, hi.reclaim hp (hp ▸ hfit)⟩
  | leaving => exact ⟨_, rfl, hi.schedule (hp ▸ rfl)⟩

section act

lemma write_loans (st : State) (ptr i : Nat) (v : UInt8) : (st.write ptr i v).loans = st.loans := by
  unfold State.write
  split <;> rfl

/-- The heap changes and the task stays where it is. -/
lemma Inv.stay (hi : Inv M s) (hold : Plain s.me.point) (hsound : Sound M.arena st)
    (hloans : st.loans = s.store.loans) : Inv M { s with store := st } :=
  moved_stay s _ _ ▸ hi.pass hold hold (List.Sublist.refl _) hsound hloans

/-- A block for the current task, which may go on at a point without pieces. -/
lemma Inv.lend_me {l : Loan} (hi : Inv M s)
    (id : Option Nat) (hold : Plain s.me.point) (hnew : Plain p) (hpieces : p.flight = [])
    (hsound : Sound M.arena st) (hlent : Lent s.store st l)
    (howner : l.owner = (M.tcb s.current).toNat)
    (hid : ∀ i, id = some i → i = s.me.id ∧ s.me.type = .x64) :
    Inv M (s.moved st (Function.update s.whose l.ptr id) p) := by
  refine hi.lend id hold hnew hsound hlent ?_ ?_ fun i he => ⟨(hid i he).1, (hid i he).2, howner⟩
  · rw [hpieces]
    exact fun q hq => absurd hq not_mem_nil
  · rw [hpieces]
    exact .nil

lemma Inv.sys_alloc (hi : Inv M s) (hp : s.me.point = .user) {size : UInt32}
    (hfit : s.store.alloc_ok M.arena size.toNat (2 ^ 4) refused = true) :
    ∃ t, s.sys_alloc M size refused = some t ∧ Inv M t := by
  have hold : Plain s.me.point := hp ▸ ⟨rfl, rfl⟩
  unfold Sys.sys_alloc
  by_cases hz : size = 0
  · exact ⟨s, if_pos hz, hi⟩
  rw [if_neg hz]
  obtain ⟨st, p, he, hsound, hsame, hlent⟩ :=
    hi.sound.alloc (by decide) (M.tcb s.current).toNat_lt hfit
  rw [he]
  by_cases hnull : p = 0
  · exact ⟨_, congrArg some (if_pos hnull), hi.stay hold hsound (hsame hnull)⟩
  refine ⟨_, congrArg some (if_neg hnull), ?_⟩
  have hinv := hi.lend_me (if s.me.type = .x64 then some s.me.id else none) hold hold
    (hp ▸ rfl) hsound (hlent hnull) rfl fun i hid => ?_
  · exact moved_stay s _ _ ▸ hinv
  split at hid
  · rename_i htype
    cases hid
    exact ⟨rfl, htype⟩
  · cases hid

lemma Inv.sys_spawn (hi : Inv M s) (hp : s.me.point = .user) {elf : Elf}
    (hfit : s.act_fits M (.spawn elf refused) = true) :
    ∃ t, s.sys_spawn M elf refused = some t ∧ Inv M t := by
  have hold : Plain s.me.point := hp ▸ ⟨rfl, rfl⟩
  unfold Sys.sys_spawn
  by_cases hn : s.me.type = .native
  · rw [if_pos hn]
    exact ⟨_, rfl, hi.pass hold ⟨rfl, rfl⟩ (nil_sublist _) hi.sound rfl⟩
  rw [if_neg hn]
  by_cases hz : elf.size = 0
  · exact ⟨s, if_pos hz, hi⟩
  rw [if_neg hz]
  have hok := (Bool.or_eq_true_iff.mp hfit).resolve_left fun h => hn (of_decide_eq_true h)
  obtain ⟨st, p, he, hsound, hsame, hlent⟩ :=
    hi.sound.alloc (by decide) (M.tcb s.current).toNat_lt hok
  rw [he]
  by_cases hnull : p = 0
  · exact ⟨_, congrArg some (if_pos hnull), hi.stay hold hsound (hsame hnull)⟩
  refine ⟨_, congrArg some (if_neg hnull), ?_⟩
  refine hi.lend_me (some s.me.id) hold ⟨rfl, rfl⟩ rfl hsound (hlent hnull) rfl ?_
  intro i hid
  cases hid
  refine ⟨rfl, ?_⟩
  cases htype : s.me.type with
  | native => exact absurd htype hn
  | x64 => rfl

lemma Inv.act (hi : Inv M s) (hp : s.me.point = .user) {i : Input}
    (hfit : s.act_fits M i = true) : ∃ t, s.act M i = some t ∧ Inv M t := by
  have hold : Plain s.me.point := hp ▸ ⟨rfl, rfl⟩
  cases i with
  | tick | wake j | go refused => exact ⟨s, rfl, hi⟩
  | alloc size refused => exact hi.sys_alloc hp hfit
  | free ptr =>
    obtain ⟨hok, hflight⟩ := free_fits_flight hfit
    refine ⟨_, rfl, moved_stay s _ _ ▸ hi.drop hold hold (List.Sublist.refl _)
      (hi.sound.free hok) rfl fun j hj q hq => ?_⟩
    rw [goto_point] at hq
    split at hq
    · exact hflight s.current hi.table.cur q hq
    · exact hflight j hj q hq
  | write ptr k v => exact ⟨_, rfl, hi.stay hold (hi.sound.write ptr k v) (write_loans _ _ _ _)⟩
  | spawn elf refused => exact hi.sys_spawn hp hfit
  | native pri =>
    refine ⟨_, rfl, ?_⟩
    cases hslot : s.free_slot with
    | none => exact hi
    | some j => exact hi.create _ _ hold hslot
  | wait => exact ⟨_, rfl, hi.clear_and_pass hold ⟨rfl, rfl⟩ rfl⟩
  | sleep => exact ⟨_, rfl, hi.block_me hold.1 hold.2 false⟩
  | yield => exact ⟨_, rfl, hi.schedule hold.1⟩
  | exit => exact ⟨_, rfl, hi.pass hold ⟨rfl, rfl⟩ (nil_sublist _) hi.sound rfl⟩

lemma step_inv (s : Sys) (i : Input) (hi : Inv M s) (hfit : s.fits M i = true) :
    ∃ t, s.step M i = some t ∧ Inv M t := by
  have hact {i : Input} (hfit : (!s.at_user || s.act_fits M i) = true) :
      ∃ t, (if s.at_user = true then s.act M i else some s) = some t ∧ Inv M t := by
    by_cases hu : s.at_user = true
    · rw [if_pos hu]
      rw [hu] at hfit
      exact hi.act (user_of_at_user hu) hfit
    · rw [if_neg hu]
      exact ⟨s, rfl, hi⟩
  cases i with
  | tick => exact ⟨_, rfl, hi.schedule hfit⟩
  | wake j => exact ⟨_, rfl, hi.wake j⟩
  | go refused =>
    unfold step
    by_cases hc : s.has_cpu = true
    · simp only [if_pos hc]
      exact hi.go hfit
    · simp only [if_neg hc]
      exact ⟨s, rfl, hi⟩
  | _ => exact hact hfit

end act

lemma boot_inv (M : Machine) (mem : Buf) : Inv M (boot mem) := by
  refine ⟨.inl ⟨rfl, rfl, rfl⟩, ⟨boot_table mem, ?_⟩, ⟨boot_families mem, ?_⟩,
    ⟨?_, ?_, ?_, ?_⟩, .of_range rfl⟩
  all_goals simp [boot, Point.flight, Point.pieces, State.boot, Alive]

/-! ## Every interleaving -/

/-- A task that can still do something: it has not been removed, or it is on its way out. -/
def Active (s : Sys) (id : Nat) : Prop := ∃ j < s.count, (s.tasks j).id = id ∧
    ((s.tasks j).state ≠ .removed ∨ j = s.current ∧ (s.tasks j).point.window = true)

lemma Inv.done (hi : Inv M s) {id : Nat} (hid : id < s.born) (hdone : ¬ s.Active id) :
    (∀ l ∈ s.store.loans, s.whose l.ptr ≠ some id) ∧
      ∀ p, s.parent_of id = some p → s.Alive p → s.sent id = true := by
  constructor
  · intro l hl hwhose
    obtain ⟨j, hj, he, -, hbusy, -⟩ := hi.block.owned l hl id hwhose
    refine hdone ⟨j, hj, he, hbusy.imp_right fun hb => ⟨hb.1, ?_⟩⟩
    rw [hb.1]
    rcases hb.2 with hp | hp <;> exact hp ▸ rfl
  · rcases hi.kin.told id hid with ⟨j, hj, he, hs⟩ | ⟨he, hp⟩ | htold
    · exact absurd ⟨j, hj, he, .inl hs⟩ hdone
    · exact absurd ⟨s.current, hi.table.cur, he, .inr ⟨rfl, hp ▸ rfl⟩⟩ hdone
    · exact htold

instance (s : Sys) (id : Nat) : Decidable (s.Alive id) :=
  inferInstanceAs (Decidable (∃ j < s.count, (s.tasks j).id = id ∧ (s.tasks j).state ≠ .removed))

instance (s : Sys) (id : Nat) : Decidable (s.Active id) :=
  inferInstanceAs (Decidable (∃ j < s.count, (s.tasks j).id = id ∧
    ((s.tasks j).state ≠ .removed ∨ j = s.current ∧ (s.tasks j).point.window = true)))

def low_tcb (j : Nat) : UInt64 := UInt64.ofNat (j % MAX_TASKS + 1)

lemma low_tcb_toNat (j : Nat) : (low_tcb j).toNat = j % 64 + 1 := by
  simp only [low_tcb, MAX_TASKS, UInt64.toNat_ofNat']
  omega

lemma low_tcb_ne (j : Nat) : low_tcb j ≠ 0 := by
  intro h
  have h0 := congrArg UInt64.toNat h
  rw [low_tcb_toNat] at h0
  cases h0

lemma low_tcb_inj (i j : Nat) (hi : i < MAX_TASKS) (hj : j < MAX_TASKS)
    (h : low_tcb i = low_tcb j) : i = j := by
  have he := congrArg UInt64.toNat h
  rw [low_tcb_toNat, low_tcb_toNat] at he
  unfold MAX_TASKS at hi hj
  omega

/-- A task table in front of the arena. -/
def low_machine : Machine := ⟨low_arena, low_tcb, low_tcb_ne, low_tcb_inj⟩

def small_elf : Elf := ⟨100, true, .dyn 1000, some ⟨1000, by decide⟩, 0⟩

end Sys

end uaos.task
