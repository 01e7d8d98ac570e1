-- The end of a spawn: the way back when there is no slot for the new task, or else the task and
-- the handing over of its image and its stack.
import Uaos.X64Flight

namespace uaos.task

open x64

namespace Sys

variable {M : Machine} {s t : Sys}

/-! ## Giving back -/

section undo

variable {p : Point} {q : Piece} {r : Loaded} {addr size : Nat}

section

variable (hi : Inv M s)

include hi

/-- The first piece is given back from now on, and the others stay in flight. -/
lemma Inv.give_back (hold : Calm s.me.point) (hnew : Calm p)
    (hflight : s.me.point.flight = q :: p.flight) (hrange : p.range = some (q.base, q.size)) :
    Inv M (s.goto p) := by
  have hq : q ∈ s.me.point.flight := hflight ▸ List.mem_cons_self
  have htwo : (q :: p.flight).Pairwise fun q r => q.ptr ≠ r.ptr :=
    hflight ▸ hi.block.two s.current hi.table.cur
  obtain ⟨⟨m, hm, hptr, -, hlow, hpos, hhigh⟩, -⟩ := hi.mine q hq
  have hmoved : Inv M (s.moved s.store s.whose p) := by
    refine hi.shed hold hnew ?_ hi.sound (fun _ hl => hl) (fun _ _ _ _ hheld => hheld) ?_
    · rw [hflight]
      exact List.sublist_cons_self _ _
    intro range hr l hl hin j hj x hx hxl
    rw [moved_me_point, hrange] at hr
    cases hr
    have hlq : l.ptr = q.ptr :=
      ((hi.sound.overlaps_iff hm hlow hpos hhigh hl).mp hin).trans hptr
    rw [moved_tasks, goto_point] at hx
    split at hx
    · exact (List.pairwise_cons.mp htwo).1 x hx (hxl.trans hlq).symm
    · rename_i hne
      exact hi.mine_apart q hq j hj hne x hx (hxl.trans hlq).symm
  exact hmoved

/-- A file without an image has no block to give back. -/
lemma Inv.give_nothing (hold : Calm s.me.point) (hnew : Calm p)
    (hflight : s.me.point.flight = p.flight) (hrange : p.range = some (0, 0)) :
    Inv M (s.goto p) := by
  have hmoved : Inv M (s.moved s.store s.whose p) := by
    refine hi.shed hold hnew ?_ hi.sound (fun _ hl => hl) (fun _ _ _ _ hheld => hheld) ?_
    · rw [hflight]
    intro range hr l hl hin
    rw [moved_me_point, hrange] at hr
    cases hr
    have hlow : 0 + max 0 1 ≤ M.arena.heap0 := Nat.one_le_of_lt M.arena.low
    exact absurd hin (Bool.eq_false_iff.mp (hi.sound.overlaps_below hlow hl))
  exact hmoved

/-- There is no slot for the child. -/
lemma Inv.to_undo_image (hp : s.me.point = .create r) : Inv M (s.goto (.undo_image r)) := by
  have hold : Calm s.me.point := hp ▸ ⟨rfl, rfl⟩
  cases himage : r.image with
  | none =>
    refine hi.give_nothing hold ⟨rfl, rfl⟩ ?_ ?_
    · rw [hp]
      simp [Point.flight, Point.pieces, himage]
    · simp [Point.range, Loaded.image_base, Loaded.image_size, himage]
  | some q =>
    refine hi.give_back (q := q) hold ⟨rfl, rfl⟩ ?_ ?_
    · rw [hp]
      simp [Point.flight, Point.pieces, himage]
    · simp [Point.range, Loaded.image_base, Loaded.image_size, himage]

/-- One round of `ELF64_HeapFreeRange` -/
lemma Inv.undo (hold : Calm s.me.point) (hrange : s.me.point.range = some (addr, size))
    (hnext : Inv M (s.goto p)) : ∃ t, s.undo M addr size p = some t ∧ Inv M t := by
  unfold Sys.undo free_round
  rcases hi.sound.search (Heap.overlaps addr (State.range_end addr size)) with
    ⟨he, -⟩ | ⟨b, he, l, hl, hptr, hin⟩
  · rw [he]
    exact ⟨_, rfl, hnext⟩
  rw [he]
  refine ⟨_, rfl, ?_⟩
  rw [hptr]
  refine moved_stay s _ _ ▸ hi.shed hold hold (List.Sublist.refl _)
    (hi.sound.free (free_ok_of_loan hl)) (fun m hm => List.mem_of_mem_filter hm) ?_ ?_
  · intro j hj q hq hheld
    rw [goto_stay] at hq
    exact hheld.filter (hi.clear _ hrange l hl hin j hj q hq)
  -- a block that is left has not moved
  rw [moved_stay]
  intro range hr m hm hover j hj q hq
  obtain ⟨hm, hne⟩ := List.mem_filter.mp hm
  unfold Heap.overlaps at hover
  rw [hi.sound.free_blk_end hl hm (of_decide_eq_true hne)] at hover
  exact hi.clear range hr m hm hover j hj q hq

lemma Inv.undo_image (hp : s.me.point = .undo_image r) :
    ∃ t, s.undo M r.image_base r.image_size (.undo_stack r) = some t ∧ Inv M t := by
  have hold : Calm s.me.point := hp ▸ ⟨rfl, rfl⟩
  refine hi.undo hold (hp ▸ rfl) (hi.give_back (q := r.stack) hold ⟨rfl, rfl⟩ ?_ rfl)
  rw [hp]
  rfl

lemma Inv.undo_stack (hp : s.me.point = .undo_stack r) :
    ∃ t, s.undo M r.stack.base r.stack.size .user = some t ∧ Inv M t := by
  have hold : Calm s.me.point := hp ▸ ⟨rfl, rfl⟩
  have hmoved : Inv M (s.moved s.store s.whose .user) :=
    hi.shed hold ⟨rfl, rfl⟩ (List.nil_sublist _) hi.sound (fun _ hl => hl)
      (fun _ _ _ _ hheld => hheld) (moved_clear rfl)
  exact hi.undo hold (hp ▸ rfl) hmoved

end

end undo

/-! ## New tasks -/

section create

variable {j : Nat} {type : TaskType} {pri : Int}

lemma Inv.no_heir (hi : Inv M s) (hold : Plain s.me.point) {i : Nat} (hci : i < s.count) :
    (s.tasks i).point.heir = none := by
  by_cases hc : i = s.current
  · rw [hc]
    exact hold.heir
  cases hh : (s.tasks i).point.heir with
  | none => rfl
  | some c =>
    rw [steady_heir (hi.table.outside i hci hc)] at hh
    cases hh

lemma TaskInv.create (h : TaskInv s) (hf : Fresh s j) : TaskInv (s.create j type pri) := by
  refine ⟨h.toTableOk.create hf, fun i hci hc => ?_⟩
  rcases hf.old i hci with rfl | ⟨hlt, hne⟩
  · rw [create_new]
    rfl
  · rw [create_old hne]
    exact h.outside i hlt hc

lemma KinInv.create (h : KinInv s) (htable : TableOk s) (hf : Fresh s j)
    (hsig : s.me.point ≠ .signalling) : KinInv (s.create j type pri) := by
  refine ⟨h.toFamilies.create htable hf, fun id hid => ?_⟩
  rcases Nat.lt_succ_iff_lt_or_eq.mp hid with hid | rfl
  · rw [create_alive hf hid, create_parent_of (ne_of_lt hid)]
    rcases h.told id hid with ha | ⟨-, hp⟩ | htold
    · exact .inl ha
    · exact absurd hp hsig
    · refine .inr (.inr fun p hp ha => htold p hp ?_)
      exact (create_alive hf (h.older id p hp)).mp ha
  · refine .inl ⟨j, hf.lt, ?_, ?_⟩
    · rw [create_new]
    · rw [create_new]
      simp

lemma BlockInv.create (hi : Inv M s) (hold : Plain s.me.point) (hf : Fresh s j) :
    BlockInv M (s.create j type pri) := by
  have hnone : ((s.create j type pri).tasks j).point.flight = [] := by
    rw [create_new]
    rfl
  refine ⟨?_, ?_, ?_, ?_⟩
  · intro i hci q hq
    rcases hf.old i hci with rfl | ⟨hlt, hne⟩
    · rw [hnone] at hq
      cases hq
    rw [create_old hne] at hq ⊢
    obtain ⟨hheld, hwhose⟩ := hi.block.held i hlt q hq
    rw [hi.no_heir hold hlt] at hwhose ⊢
    exact ⟨hheld, hwhose⟩
  · intro i hci k hck q hq r hr he
    rcases hf.old i hci with rfl | ⟨hlti, hnei⟩
    · rw [hnone] at hq
      cases hq
    rcases hf.old k hck with rfl | ⟨hltk, hnek⟩
    · rw [hnone] at hr
      cases hr
    · rw [create_old hnei] at hq
      rw [create_old hnek] at hr
      exact hi.block.apart i hlti k hltk q hq r hr he
  · intro i hci
    rcases hf.old i hci with rfl | ⟨hlt, hne⟩
    · rw [hnone]
      exact .nil
    · rw [create_old hne]
      exact hi.block.two i hlt
  · intro l hl id hid
    obtain ⟨i, hci, he, htype, hs, howner⟩ := hi.owner hold.calm hl hid
    have hne := hf.live i hci hs
    refine ⟨i, lt_of_lt_of_le hci (le_max_left _ _), ?_, ?_, .inl ?_, .inl howner⟩
    · rwa [create_old hne]
    · rwa [create_old hne]
    · rwa [create_old hne]

lemma Inv.create (hi : Inv M s) (type : TaskType) (pri : Int) (hold : Plain s.me.point)
    (h : s.free_slot = some j) : Inv M (s.create j type pri) := by
  have hf := hi.table.new_slot h
  refine ⟨hi.sound, hi.table.create hf, ?_, BlockInv.create hi hold hf, .of_range ?_⟩
  · exact hi.kin.create hi.table.toTableOk hf fun he => hold.calm.not_busy (.inl he)
  · have hcur := hf.live s.current hi.table.cur (hi.running hold)
    exact (congrArg (·.point.range) (create_old hcur)).trans hold.range

/-- The pieces are for the child from now on, but they do not have its owner yet. -/
lemma Inv.bequeath {r : Loaded} (hi : Inv M s) (wh : Nat → Option Nat)
    (hp : s.me.point = .create r) (hj : j < s.count) (htype : (s.tasks j).type = .x64)
    (hstate : (s.tasks j).state ≠ .removed)
    (hmine : ∀ q ∈ s.me.point.flight, wh q.ptr = some (s.tasks j).id)
    (hother : ∀ x, (∀ q ∈ s.me.point.flight, q.ptr ≠ x) → wh x = s.whose x) :
    Inv M (s.moved s.store wh (.own_image j r)) := by
  have hold : Plain s.me.point := hp ▸ ⟨rfl, rfl⟩
  have hpieces : (Point.own_image j r).flight = s.me.point.flight := hp ▸ rfl
  refine hi.moved hold.2.symm (fun he => hold.calm.not_busy (.inl he)) hi.sound
    (hi.block.moved ?_ ?_ ?_ ?_ ?_) (moved_clear rfl)
  · intro i hci hne q hq hheld
    refine ⟨hheld, hother q.ptr fun r hr he => ?_⟩
    exact hi.mine_apart r hr i hci hne q hq he
  · rw [hpieces]
    exact fun q hq => ⟨(hi.mine q hq).1, hmine q hq⟩
  · rw [hpieces]
    exact hi.mine_apart
  · rw [hpieces]
    exact hi.block.two s.current hi.table.cur
  rw [hpieces]
  intro l hl id hid
  by_cases hin : ∃ q ∈ s.me.point.flight, q.ptr = l.ptr
  · have hid' : some (s.tasks j).id = some id := by
      obtain ⟨q, hq, he⟩ := hin
      rw [← hid, ← he, hmine q hq]
    cases hid'
    exact ⟨j, hj, rfl, htype, .inl hstate, .inr ⟨rfl, hin⟩⟩
  · rw [hother l.ptr fun q hq he => hin ⟨q, hq, he⟩] at hid
    obtain ⟨i, hci, he, htype, hs, howner⟩ := hi.owner hold.calm hl hid
    exact ⟨i, hci, he, htype, .inl hs, .inl howner⟩

lemma Inv.Task_CreateX64 {r : Loaded} (hi : Inv M s) (hp : s.me.point = .create r) :
    Inv M (s.Task_CreateX64 r) := by
  have hold : Plain s.me.point := hp ▸ ⟨rfl, rfl⟩
  unfold Sys.Task_CreateX64
  cases hslot : s.free_slot with
  | none => exact hi.to_undo_image hp
  | some j =>
    have hf := hi.table.new_slot hslot
    have hcur := hf.live s.current hi.table.cur (hi.running hold)
    have ht := hi.create .x64 r.pri hold hslot
    have hnew := create_new s j .x64 r.pri
    have hme : (s.create j .x64 r.pri).me.point = .create r :=
      (congrArg Task.point (create_old hcur)).trans hp
    have hgive := fun wh => ht.bequeath (j := j) wh hme hf.lt (by rw [hnew])
      (by simp [hnew])
    rw [hme, hnew] at hgive
    cases himage : r.image with
    | none =>
      refine hgive (Function.update s.whose r.stack.ptr (some s.born)) ?_ ?_
      · simp [Point.flight, Point.pieces, himage]
      · intro x hx
        refine Function.update_of_ne (fun he => hx r.stack ?_ he.symm) _ _
        simp [Point.flight, Point.pieces]
    | some image =>
      refine hgive (Function.update (Function.update s.whose r.stack.ptr (some s.born)) image.ptr
        (some s.born)) ?_ ?_
      · simp [Point.flight, Point.pieces, himage, Function.update_apply]
      intro x hx
      refine (Function.update_of_ne (fun he => hx image ?_ he.symm) _ _).trans
        (Function.update_of_ne (fun he => hx r.stack ?_ he.symm) _ _)
      · simp [Point.flight, Point.pieces, himage]
      · simp [Point.flight, Point.pieces]

end create

/-! ## Handing over -/

section pieces

variable {c : Nat} {p : Point} {q : Piece} {st : State} {r : Loaded}

lemma Busy.stays {j : Nat} (h : s.Busy j) (hheir : s.me.point.heir = some c) :
    (s.tasks j).state ≠ .removed := by
  refine h.resolve_right fun hb => ?_
  rcases hb.2 with hb | hb <;> rw [hb] at hheir <;> cases hheir

/-- The child that blocks are for is there. -/
lemma Inv.child (hi : Inv M s) (hheir : s.me.point.heir = some c) (hq : q ∈ s.me.point.flight) :
    c < s.count ∧ (s.tasks c).type = .x64 ∧ (s.tasks c).state ≠ .removed := by
  obtain ⟨⟨l, hl, hptr, hzero, -⟩, hwhose⟩ := hi.mine q hq
  rw [hheir, ← hptr] at hwhose
  obtain ⟨j, hj, -, htype, hbusy, howner⟩ := hi.block.owned l hl _ hwhose
  have hjc : j = c := by
    rcases howner with howner | ⟨hj', -⟩
    · rw [hzero] at howner
      exact absurd (UInt64.toNat_inj.mp howner.symm) (M.tcb_ne j)
    · rw [hheir] at hj'
      cases hj'
      rfl
  rw [hjc] at hj htype hbusy
  exact ⟨hj, htype, hbusy.stays hheir⟩

lemma plain_of_heir (hheir : p.heir = some c) : p.left = false ∧ p ≠ .signalling := by
  cases p <;> first | exact ⟨rfl, Point.noConfusion⟩ | cases hheir

lemma range_of_heir (hheir : p.heir = some c) : p.range = none := by
  cases p <;> first | rfl | cases hheir

section

variable (hi : Inv M s)

include hi

/-- A piece is owned by the child, and is no longer in flight. -/
lemma Inv.hand_over (hheir : s.me.point.heir = some c) (hleft : p.left = false)
    (hrange : p.range = none) (hpieces : s.me.point.flight = q :: p.flight)
    (hp : p.flight = [] ∨ p.heir = some c)
    (hsound : Sound M.arena st) (hloans : st.loans = s.store.loans.map fun m =>
      if m.ptr = q.ptr then { m with owner := (M.tcb c).toNat } else m) :
    Inv M (s.moved st s.whose p) := by
  have hq : q ∈ s.me.point.flight := hpieces ▸ List.mem_cons_self
  have hsub : ∀ r ∈ p.flight, r ∈ s.me.point.flight := fun r hr =>
    hpieces ▸ List.mem_cons_of_mem _ hr
  have htwo : (q :: p.flight).Pairwise fun q r => q.ptr ≠ r.ptr :=
    hpieces ▸ hi.block.two s.current hi.table.cur
  obtain ⟨hfirst, htwo⟩ := List.pairwise_cons.mp htwo
  have hkeep {r : Piece} (hne : r.ptr ≠ q.ptr) (h : Held s.store.loans r) : Held st.loans r := by
    obtain ⟨l, hl, hptr, hrest⟩ := h
    rw [hloans]
    refine ⟨l, List.mem_map.mpr ⟨l, hl, if_neg ?_⟩, hptr, hrest⟩
    rwa [hptr]
  obtain ⟨hc, htype, hstate⟩ := hi.child hheir hq
  obtain ⟨hl, hsig⟩ := plain_of_heir hheir
  refine hi.moved (hleft.trans hl.symm) hsig hsound (hi.block.moved ?_ ?_ ?_ htwo ?_)
    (moved_clear hrange)
  · intro i hci hne r hr hheld
    exact ⟨hkeep (hi.mine_apart q hq i hci hne r hr).symm hheld, rfl⟩
  · intro r hr
    obtain ⟨hheld, hwhose⟩ := hi.mine r (hsub r hr)
    refine ⟨hkeep (hfirst r hr).symm hheld, ?_⟩
    rcases hp with hp | hp
    · rw [hp] at hr
      cases hr
    · rw [hp, hwhose, hheir]
  · exact fun r hr => hi.mine_apart r (hsub r hr)
  · intro l hmem id hid
    rw [hloans] at hmem
    obtain ⟨m, hm, rfl⟩ := List.mem_map.mp hmem
    by_cases he : m.ptr = q.ptr
    · simp only [if_pos he] at hid ⊢
      have hwhose := (hi.mine q hq).2
      rw [hheir, ← he, hid] at hwhose
      cases hwhose
      exact ⟨c, hc, rfl, htype, .inl hstate, .inl rfl⟩
    simp only [if_neg he] at hid ⊢
    obtain ⟨j, hj, hjid, hjtype, hbusy, howner⟩ := hi.block.owned m hm id hid
    refine ⟨j, hj, hjid, hjtype, .inl (hbusy.stays hheir), ?_⟩
    refine howner.imp_right fun ⟨hh, x, hx, hxm⟩ => ?_
    rw [hpieces] at hx
    rcases List.mem_cons.mp hx with rfl | hx
    · exact absurd hxm.symm he
    refine ⟨?_, x, hx, hxm⟩
    rcases hp with hp | hp
    · rw [hp] at hx
      cases hx
    · rw [hp, ← hheir, hh]

/-- A file without an image has no block to hand over. -/
lemma Inv.hand_nothing (hheir : s.me.point.heir = some c)
    (hpieces : s.me.point.flight = p.flight) (hp : p.heir = some c) (hsound : Sound M.arena st)
    (hloans : st.loans = s.store.loans) : Inv M (s.moved st s.whose p) := by
  obtain ⟨hl, hsig⟩ := plain_of_heir hheir
  have hl' := (plain_of_heir hp).1
  refine hi.moved (hl'.trans hl.symm) hsig hsound (hi.block.moved ?_ ?_ ?_ ?_ ?_)
    (moved_clear (range_of_heir hp))
  · rw [hloans]
    exact fun _ _ _ _ _ hheld => ⟨hheld, rfl⟩
  · rw [← hpieces, hp, ← hheir, hloans]
    exact hi.mine
  · rw [← hpieces]
    exact hi.mine_apart
  · rw [← hpieces]
    exact hi.block.two s.current hi.table.cur
  rw [← hpieces, hp, ← hheir, hloans]
  intro l hmem id hid
  obtain ⟨j, hj, hjid, hjtype, hbusy, howner⟩ := hi.block.owned l hmem id hid
  exact ⟨j, hj, hjid, hjtype, .inl (hbusy.stays hheir), howner⟩

/-- `ELF64_HeapOwn` of an address in a piece -/
lemma Inv.own_piece (hheir : s.me.point.heir = some c) (hleft : p.left = false)
    (hrange : p.range = none) (hpieces : s.me.point.flight = q :: p.flight)
    (hp : p.flight = [] ∨ p.heir = some c) :
    ∃ t, s.own M c q.base p = some t ∧ Inv M t := by
  have hq : q ∈ s.me.point.flight := hpieces ▸ List.mem_cons_self
  obtain ⟨⟨l, hl, hptr, -, hlow, hpos, hhigh⟩, -⟩ := hi.mine q hq
  have hin : q.base < l.addr + l.size := by omega
  obtain ⟨st, he, hsound, hloans⟩ := hi.sound.own_loan (M.tcb c).toNat_lt hl hlow hin
  rw [hptr] at hloans
  exact ⟨_, congrArg (Option.map _) he, hi.hand_over hheir hleft hrange hpieces hp hsound hloans⟩

lemma Inv.own_image (hp : s.me.point = .own_image c r) :
    ∃ t, s.own M c r.image_base (.own_stack c r) = some t ∧ Inv M t := by
  have hheir : s.me.point.heir = some c := hp ▸ rfl
  cases himage : r.image with
  | none =>
    have hbase : r.image_base = 0 := by simp [Loaded.image_base, himage]
    rw [hbase]
    obtain ⟨st, he, hsound, hloans⟩ := hi.sound.own_below (M.tcb c).toNat_lt M.arena.low
    refine ⟨_, congrArg (Option.map _) he, hi.hand_nothing hheir ?_ rfl hsound hloans⟩
    rw [hp]
    simp [Point.flight, Point.pieces, himage]
  | some q =>
    have hbase : r.image_base = q.base := by simp [Loaded.image_base, himage]
    rw [hbase]
    refine hi.own_piece hheir rfl rfl ?_ (.inr rfl)
    rw [hp]
    simp [Point.flight, Point.pieces, himage]

lemma Inv.own_stack (hp : s.me.point = .own_stack c r) :
    ∃ t, s.own M c r.stack.base .user = some t ∧ Inv M t := by
  refine hi.own_piece (hp ▸ rfl) rfl rfl ?_ (.inl rfl)
  rw [hp]
  rfl

end

end pieces

end Sys

end uaos.task
