-- Who the descriptors belong to. The tables do not know, so it depends on the programs: they name
-- their own descriptors, close them before they exit, and are not cut off between the test of a
-- slot and its allocation.
import Uaos.Fds

namespace uaos.fd

open Function

variable {k l : Kind} {i n : Nat}

variable {ω π ν ρ ε : Type}

/-! ## Whose slots they are -/

/-- The slot that a call has in hand: it is not yet given to the program, or it is being closed. -/
def Point.slot : Point π ν → Option (Kind × Nat)
  | .fill req i => some (req.kind, i)
  | .drop i => some (.file, i)
  | .close i => some (.file, i)
  | .free k i => some (k, i)
  | _ => none

/-- The slot that the next step reads, writes or closes. -/
def Point.acts : Point π ν → Option (Kind × Nat)
  | .use op i => some (op.kind, i)
  | p => p.slot

/-- The slot that was found free and is taken next. -/
def Point.takes : Point π ν → Option (Kind × Nat)
  | .take req i => some (req.kind, i)
  | _ => none

def Task.Owns (t : Task π ν ε) (k : Kind) (i : Nat) : Prop :=
  i ∈ t.held k ∨ t.point.slot = some (k, i)

lemma takes_of_slot {p : Point π ν} {x : Kind × Nat} (h : p.slot = some x) : p.takes = none := by
  cases p <;> first | rfl | cases h

structure Task.Ok (t : Task π ν ε) : Prop where
  apart : ∀ k i, t.point.slot = some (k, i) → i ∉ t.held k
  nodup : ∀ k, (t.held k).Nodup
  use : ∀ op i, t.point = .use op i → i ∈ t.held op.kind

namespace Sys

variable {V : Vfs ω π ν ρ ε} {s t : Sys ω π ν ρ ε} {j : Nat}

/-- A program names a descriptor of its own, or one that is rejected. -/
def own_fd (s : Sys ω π ν ρ ε) (j : Nat) (k : Kind) (fd : Int) : Bool :=
  !s.valid k fd || fd.toNat ∈ (s.tasks j).held k

def honest_call (s : Sys ω π ν ρ ε) (j : Nat) : Call π → Bool
  | .open _ _ | .opendir _ => true
  | .close fd | .read_file fd _ | .write_file fd _ | .seek fd _ => s.own_fd j .file fd
  | .readdir dd _ | .closedir dd => s.own_fd j .dir dd

/-- No other task is between the test of a slot and its allocation. -/
def quiet (s : Sys ω π ν ρ ε) (j : Nat) : Bool := (List.range s.count).all fun k =>
    k = j || !(s.tasks k).alive || (s.tasks k).point.takes.isNone

/-- The task has closed what it opened. -/
def cleared (t : Task π ν ε) : Bool :=
  (t.held .file).isEmpty && (t.held .dir).isEmpty && t.point.slot.isNone

/-- Programs use their own descriptors and close them before they exit, and a task keeps the
processor from the test of a slot to its allocation. -/
def honest (s : Sys ω π ν ρ ε) : Input π → Bool
  | .start => true
  | .call j c => !(s.runs j && s.at_user j) || s.honest_call j c
  | .go j => s.quiet j
  | .exit j => !s.runs j || cleared (s.tasks j)

structure Inv (s : Sys ω π ν ρ ε) : Prop where
  own : ∀ j, s.runs j = true → ∀ k i,
    (s.tasks j).Owns k i ↔ s.used k i = true ∧ s.opener k i = some j
  opened : ∀ k i, s.used k i = true → ∃ j, s.runs j = true ∧ s.opener k i = some j
  ok : ∀ j, s.runs j = true → (s.tasks j).Ok
  free : ∀ j, s.runs j = true → ∀ k i, (s.tasks j).point.takes = some (k, i) → s.used k i = false

lemma mem_held_cons {held : Kind → List Nat} :
    n ∈ update held k (i :: held k) l ↔ n ∈ held l ∨ some (k, i) = some (l, n) := by
  by_cases hl : l = k
  · subst hl
    simp only [update_self, List.mem_cons, Option.some.injEq, Prod.mk.injEq, true_and]
    rw [or_comm, eq_comm]
  · rw [update_of_ne hl]
    simp only [Option.some.injEq, Prod.mk.injEq]
    exact ⟨.inl, fun h => h.resolve_right fun he => hl he.1.symm⟩

lemma mem_held_erase {held : Kind → List Nat} (hnodup : (held k).Nodup) (hi : i ∈ held k) :
    n ∈ update held k ((held k).erase i) l ∨ some (k, i) = some (l, n) ↔ n ∈ held l := by
  by_cases hl : l = k
  · subst hl
    simp only [update_self, hnodup.mem_erase_iff, Option.some.injEq, Prod.mk.injEq, true_and]
    constructor
    · rintro (h | rfl)
      · exact h.2
      · exact hi
    · intro h
      by_cases hn : n = i
      · exact .inr hn.symm
      · exact .inl ⟨hn, h⟩
  · rw [update_of_ne hl]
    simp only [Option.some.injEq, Prod.mk.injEq]
    exact ⟨fun h => h.resolve_right fun he => hl he.1.symm, .inl⟩

lemma update_slot {α : Type} {f : Kind → Nat → α} {a : α} (h : some (k, i) ≠ some (l, n)) :
    update f k (update (f k) i a) l n = f l n := by
  by_cases hl : l = k
  · subst hl
    rw [update_self, update_of_ne]
    rintro rfl
    exact h rfl
  · rw [update_of_ne hl]

lemma own_fd_spec {fd : Int} (h : s.own_fd j k fd = true)
    (hv : s.valid k fd = true) : fd.toNat ∈ (s.tasks j).held k := by
  simpa [own_fd, hv] using h

lemma alloc_tables (s : Sys ω π ν ρ ε) (j : Nat) (k : Kind) (i : Nat) :
    (s.alloc j k i).tasks = s.tasks ∧ (s.alloc j k i).count = s.count ∧
      (s.alloc j k i).used = update s.used k (update (s.used k) i true) ∧
      (s.alloc j k i).opener =
        update s.opener k (update (s.opener k) i (some j)) := by
  cases k <;> exact ⟨rfl, rfl, rfl, rfl⟩

lemma release_tables (s : Sys ω π ν ρ ε) (k : Kind) (i : Nat) :
    (s.release k i).tasks = s.tasks ∧ (s.release k i).count = s.count ∧
      (s.release k i).used = update s.used k (update (s.used k) i false) ∧
      (s.release k i).opener = s.opener := by
  cases k <;> exact ⟨rfl, rfl, rfl, rfl⟩

lemma quiet_spec (h : s.quiet j = true) {l : Nat} (hl : s.runs l = true) (hne : l ≠ j) :
    (s.tasks l).point.takes = none := by
  obtain ⟨hlt, ha⟩ := Bool.and_eq_true_iff.mp hl
  have hall := List.all_eq_true.mp h l (List.mem_range.mpr (of_decide_eq_true hlt))
  simpa [hne, ha] using hall

lemma cleared_spec {T : Task π ν ε} (h : cleared T = true) (k : Kind) (i : Nat) :
    ¬ T.Owns k i := by
  simp only [cleared, Bool.and_eq_true, List.isEmpty_iff, Option.isNone_iff_eq_none] at h
  rintro (hmem | he)
  · cases k
    · rw [h.1.1] at hmem
      cases hmem
    · rw [h.1.2] at hmem
      cases hmem
  · rw [h.2] at he
    cases he

/-! ## Steps that leave the tables alone -/

variable {T : Task π ν ε}

/-- One task of `s` has become `T` in `t`. -/
structure Moved (s t : Sys ω π ν ρ ε) (j : Nat) (T : Task π ν ε) : Prop where
  tasks : t.tasks = update s.tasks j T
  count : t.count = s.count
  alive : T.alive = (s.tasks j).alive

lemma Moved.runs (hm : Moved s t j T) (k : Nat) : t.runs k = s.runs k := by
  unfold Sys.runs
  rw [hm.count, hm.tasks]
  exact update_holds (fun hk => by rw [hk, hm.alive]) fun _ => rfl

/-- One task moves and owns what it did before. -/
lemma Inv.move (h : Inv s) (hm : Moved s t j T) (hu : t.used = s.used) (ho : t.opener = s.opener)
    (howns : ∀ k i, T.Owns k i ↔ (s.tasks j).Owns k i) (hok : T.Ok)
    (hfree : ∀ k i, T.point.takes = some (k, i) → s.used k i = false) : Inv t := by
  have hruns := hm.runs
  refine ⟨fun l hl k i => ?_, fun k i hki => ?_, fun l hl => ?_, fun l hl k i => ?_⟩
  · rw [hruns] at hl
    rw [hu, ho, hm.tasks, ← h.own l hl k i]
    exact update_holds (fun hlj => hlj ▸ howns k i) fun _ => Iff.rfl
  · rw [hu] at hki
    obtain ⟨l, hl, hopen⟩ := h.opened k i hki
    exact ⟨l, (hruns l).trans hl, ho ▸ hopen⟩
  · rw [hruns] at hl
    rw [hm.tasks]
    exact update_holds (fun _ => hok) fun _ => h.ok l hl
  · rw [hruns] at hl
    rw [hu, hm.tasks]
    exact update_holds (fun _ => hfree k i) fun _ => h.free l hl k i

section

variable (h : Inv s) (hj : s.runs j = true)

include h hj

/-- The task has no slot in hand before and after. -/
lemma Inv.hop (hm : Moved s t j T) (hu : t.used = s.used) (ho : t.opener = s.opener)
    (hheld : T.held = (s.tasks j).held) (hold : (s.tasks j).point.slot = none)
    (hnew : T.point.slot = none) (huse : ∀ op i, T.point = .use op i → i ∈ T.held op.kind)
    (hfree : ∀ k i, T.point.takes = some (k, i) → s.used k i = false) : Inv t := by
  refine h.move hm hu ho (fun k i => ?_) ⟨fun k i hs => ?_, ?_, huse⟩ hfree
  · simp only [Task.Owns, hheld, hold, hnew]
  · rw [hnew] at hs
    cases hs
  · rw [hheld]
    exact (h.ok j hj).nodup

/-- The task keeps the slot that it has in hand. -/
lemma Inv.carry (hm : Moved s t j T) (hu : t.used = s.used) (ho : t.opener = s.opener)
    (hheld : T.held = (s.tasks j).held) (hslot : T.point.slot = (s.tasks j).point.slot)
    (huse : ∀ op i, T.point ≠ .use op i) (htakes : T.point.takes = none) : Inv t := by
  refine h.move hm hu ho (fun k i => ?_) ⟨?_, ?_, fun op i he => absurd he (huse op i)⟩ ?_
  · simp only [Task.Owns, hheld, hslot]
  · rw [hslot, hheld]
    exact (h.ok j hj).apart
  · rw [hheld]
    exact (h.ok j hj).nodup
  · intro k i he
    rw [htakes] at he
    cases he

/-- The slot in hand is given to the program. -/
lemma Inv.give (ht : t.tasks = s.tasks) (hc : t.count = s.count) (hu : t.used = s.used)
    (ho : t.opener = s.opener) (hslot : (s.tasks j).point.slot = some (k, i)) :
    Inv (t.give j k i) := by
  refine h.move (j := j) ⟨congrArg (update · j _) ht, hc, by rw [ht]⟩ hu ho (fun l n => ?_)
    ⟨fun l n he => ?_, fun l => ?_, fun op n he => ?_⟩ fun l n he => ?_
  · have huser : (Point.user : Point π ν).slot = none := rfl
    simp only [Task.Owns, ht, huser, hslot, mem_held_cons, reduceCtorEq, or_false]
  · cases he
  · simp only [ht]
    refine update_holds (fun _ => ?_) fun _ => (h.ok j hj).nodup l
    exact List.nodup_cons.mpr ⟨(h.ok j hj).apart k i hslot, (h.ok j hj).nodup k⟩
  · cases he
  · cases he

/-- The program gives a descriptor back. -/
lemma Inv.give_up {p : Point π ν} (hold : (s.tasks j).point.slot = none)
    (hi : i ∈ (s.tasks j).held k)
    (hslot : p.slot = some (k, i)) : Inv (s.give_up j k i p) := by
  have hnodup := (h.ok j hj).nodup
  refine h.move (j := j) ⟨rfl, rfl, rfl⟩ rfl rfl (fun l n => ?_)
    ⟨fun l n he => ?_, fun l => ?_, fun op n he => ?_⟩ fun l n he => ?_
  · simp only [Task.Owns, hslot, hold, reduceCtorEq, or_false]
    exact mem_held_erase (hnodup k) hi
  · cases hslot.symm.trans he
    simp only [update_self]
    exact fun hmem => (hnodup k).not_mem_erase hmem
  · simp only
    exact update_holds (fun _ => (hnodup k).erase i) fun _ => hnodup l
  · rw [show p = .use op n from he] at hslot
    cases hslot
  · cases (takes_of_slot hslot).symm.trans he

/-! ## Slots that are taken and freed -/

/-- A free slot is taken while no other task is about to take one. -/
lemma Inv.alloc (hm : Moved s t j T)
    (hu : t.used = update s.used k (update (s.used k) i true))
    (ho : t.opener = update s.opener k (update (s.opener k) i (some j)))
    (hheld : T.held = (s.tasks j).held)
    (hold : (s.tasks j).point.slot = none) (hslot : T.point.slot = some (k, i))
    (hfree : s.used k i = false)
    (hquiet : ∀ l, s.runs l = true → l ≠ j → (s.tasks l).point.takes = none) : Inv t := by
  have ht := hm.tasks
  have hruns := hm.runs
  have hnew : t.used k i = true ∧ t.opener k i = some j := by
    simp only [hu, ho, update_self, and_self]
  have hrest {l : Kind} {n : Nat} (hne : some (k, i) ≠ some (l, n)) :
      t.used l n = s.used l n ∧ t.opener l n = s.opener l n := by
    rw [hu, ho]
    exact ⟨update_slot hne, update_slot hne⟩
  have hnone {l : Nat} (hl : s.runs l = true) : ¬ (s.tasks l).Owns k i := by
    intro howns
    rw [((h.own l hl k i).mp howns).1] at hfree
    cases hfree
  refine ⟨fun l hl m n => ?_, fun m n hmn => ?_, fun l hl => ?_, fun l hl m n he => ?_⟩
  · rw [hruns] at hl
    by_cases hlj : l = j
    · subst hlj
      simp only [ht, update_self, Task.Owns, hheld, hslot]
      by_cases hmn : some (k, i) = some (m, n)
      · cases hmn
        exact ⟨fun _ => hnew, fun _ => .inr rfl⟩
      · rw [(hrest hmn).1, (hrest hmn).2, ← h.own l hl m n]
        simp only [Task.Owns, hold, hmn, reduceCtorEq]
    · rw [ht, update_of_ne hlj]
      by_cases hmn : some (k, i) = some (m, n)
      · cases hmn
        refine ⟨fun howns => absurd howns (hnone hl), fun hn => ?_⟩
        exact absurd (Option.some.inj (hn.2.symm.trans hnew.2)) hlj
      · rw [(hrest hmn).1, (hrest hmn).2]
        exact h.own l hl m n
  · by_cases he : some (k, i) = some (m, n)
    · cases he
      exact ⟨j, (hruns j).trans hj, hnew.2⟩
    · rw [(hrest he).1] at hmn
      obtain ⟨l, hl, hopen⟩ := h.opened m n hmn
      exact ⟨l, (hruns l).trans hl, (hrest he).2.trans hopen⟩
  · rw [hruns] at hl
    rw [ht]
    refine update_holds (fun _ => ?_) fun _ => h.ok l hl
    refine ⟨fun m n he hmem => ?_, fun m => hheld ▸ (h.ok j hj).nodup m, fun op n he => ?_⟩
    · cases hslot.symm.trans he
      exact hnone hj (.inl (hheld ▸ hmem))
    · rw [he] at hslot
      cases hslot
  · rw [hruns] at hl
    rw [ht] at he
    by_cases hlj : l = j
    · rw [hlj, update_self, takes_of_slot hslot] at he
      cases he
    · rw [update_of_ne hlj, hquiet l hl hlj] at he
      cases he

/-- The slot in hand is freed. -/
lemma Inv.release (hm : Moved s t j T)
    (hu : t.used = update s.used k (update (s.used k) i false))
    (ho : t.opener = s.opener)
    (hheld : T.held = (s.tasks j).held) (hold : (s.tasks j).point.slot = some (k, i))
    (hpoint : T.point = .user) : Inv t := by
  have ht := hm.tasks
  have hruns := hm.runs
  have hgone : t.used k i = false := by
    simp only [hu, update_self]
  have hrest {l : Kind} {n : Nat} (hne : some (k, i) ≠ some (l, n)) : t.used l n = s.used l n := by
    rw [hu]
    exact update_slot hne
  have hfewer {l : Kind} {n : Nat} (hln : s.used l n = false) : t.used l n = false := by
    by_cases he : some (k, i) = some (l, n)
    · cases he
      exact hgone
    · rw [hrest he, hln]
  have howner := (h.own j hj k i).mp (.inr hold)
  refine ⟨fun l hl m n => ?_, fun m n hmn => ?_, fun l hl => ?_, fun l hl m n he => ?_⟩
  · rw [hruns] at hl
    by_cases hmn : some (k, i) = some (m, n)
    · -- the slot is nobody's now
      cases hmn
      refine ⟨fun howns => ?_, fun hn => ?_⟩
      · by_cases hlj : l = j
        · subst hlj
          simp only [ht, update_self, Task.Owns, hheld, hpoint] at howns
          rcases howns with hmem | he
          · exact absurd hmem ((h.ok l hl).apart k i hold)
          · cases he
        · rw [ht, update_of_ne hlj] at howns
          have hopen := ((h.own l hl k i).mp howns).2
          exact absurd (Option.some.inj (hopen.symm.trans howner.2)) hlj
      · rw [hgone] at hn
        cases hn.1
    · rw [hrest hmn, ho, ← h.own l hl m n, ht]
      by_cases hlj : l = j
      · subst hlj
        have huser : (Point.user : Point π ν).slot = none := rfl
        simp only [update_self, Task.Owns, hheld, hpoint, huser, hold, hmn, reduceCtorEq]
      · rw [update_of_ne hlj]
  · have hused : s.used m n = true := by
      by_contra hno
      rw [hfewer (Bool.eq_false_iff.mpr hno)] at hmn
      cases hmn
    obtain ⟨l, hl, hopen⟩ := h.opened m n hused
    exact ⟨l, (hruns l).trans hl, ho ▸ hopen⟩
  · rw [hruns] at hl
    rw [ht]
    refine update_holds (fun _ => ?_) fun _ => h.ok l hl
    refine ⟨fun m n he => ?_, fun m => hheld ▸ (h.ok j hj).nodup m, fun op n he => ?_⟩
    · rw [hpoint] at he
      cases he
    · rw [hpoint] at he
      cases he
  · rw [hruns] at hl
    rw [ht] at he
    by_cases hlj : l = j
    · rw [hlj, update_self, hpoint] at he
      cases he
    · rw [update_of_ne hlj] at he
      exact hfewer (h.free l hl m n he)

/-! ## Every step -/

/-- The call returns from a point without a slot. -/
lemma Inv.ret (hold : (s.tasks j).point.slot = none) (r : Int) : Inv (s.ret j r) :=
  h.hop hj ⟨rfl, rfl, rfl⟩ rfl rfl rfl hold rfl (fun _ _ he => by cases he)
    fun _ _ he => by cases he

lemma Inv.test {req : Req π ν} (hold : (s.tasks j).point.slot = none) :
    Inv (s.goto j (.test req i)) :=
  h.hop hj ⟨rfl, rfl, rfl⟩ rfl rfl rfl hold rfl (fun _ _ he => by cases he)
    fun _ _ he => by cases he

lemma Inv.start_use (op : Op) (hold : (s.tasks j).point.slot = none)
    (hi : i ∈ (s.tasks j).held op.kind) : Inv (s.goto j (.use op i)) := by
  refine h.hop hj ⟨rfl, rfl, rfl⟩ rfl rfl rfl hold rfl (fun op' n he => ?_)
    fun _ _ he => by cases he
  cases he
  exact hi

lemma Inv.call (hp : s.at_user j = true) {c : Call π}
    (hok : s.honest_call j c = true) : Inv (s.call V j c) := by
  have hold : (s.tasks j).point.slot = none := by
    unfold at_user at hp
    split at hp
    · rename_i hu
      rw [hu]
      rfl
    · cases hp
  -- a descriptor that fails the check makes the call return at once
  have hcheck {b : Bool} {t : Sys ω π ν ρ ε} (hgo : b = true → Inv t) :
      Inv (if b = true then t else s.ret j (-1)) := by
    split
    · rename_i hv
      exact hgo hv
    · exact h.ret hj hold _
  cases c with
  | «open» path flags => exact h.test hj hold
  | close fd => exact hcheck fun hv => h.give_up hj hold (own_fd_spec hok hv) rfl
  | read_file fd len => exact hcheck fun hv => h.start_use hj (.read len) hold (own_fd_spec hok hv)
  | write_file fd buf =>
    exact hcheck fun hv => h.start_use hj (.write buf) hold (own_fd_spec hok hv)
  | seek fd pos => exact hcheck fun hv => h.start_use hj (.seek pos) hold (own_fd_spec hok hv)
  | opendir path =>
    simp only [Sys.call]
    split
    · exact h.ret hj hold _
    · exact h.test hj hold
  | readdir dd null =>
    refine hcheck fun hv => h.start_use hj .readdir hold (own_fd_spec hok ?_)
    exact (Bool.and_eq_true_iff.mp hv).1
  | closedir dd => exact hcheck fun hv => h.give_up hj hold (own_fd_spec hok hv) rfl

/-- The tables behind a slot change, the task returns. -/
lemma Inv.use {op : Op} (hp : (s.tasks j).point = .use op i) : Inv (s.use V j i op) := by
  have hold : (s.tasks j).point.slot = none := hp ▸ rfl
  cases op <;>
    exact h.hop hj ⟨rfl, rfl, rfl⟩ rfl rfl rfl hold rfl (fun _ _ he => by cases he)
      fun _ _ he => by cases he

lemma Inv.fill {req : Req π ν} (hp : (s.tasks j).point = .fill req i) :
    Inv (s.fill V j i req) := by
  have hslot : (s.tasks j).point.slot = some (req.kind, i) := hp ▸ rfl
  cases req with
  | file path flags =>
    unfold Sys.fill
    simp only
    split
    · exact h.give hj rfl rfl rfl rfl hslot
    · refine h.carry hj ⟨rfl, rfl, rfl⟩ rfl rfl rfl ?_ (fun _ _ he => by cases he) rfl
      exact hslot.symm
  | dir path node => exact h.give hj rfl rfl rfl rfl hslot

lemma Inv.release_ret (hslot : (s.tasks j).point.slot = some (k, i)) (r : Int) :
    Inv ((s.release k i).ret j r) := by
  obtain ⟨ht, hc, hu, ho⟩ := s.release_tables k i
  refine h.release (k := k) (i := i) hj
    ⟨congrArg₂ (fun (f : Nat → Task π ν ε) (T : Task π ν ε) => update f j T) ht rfl, hc, ?_⟩
    hu ho ?_ hslot rfl
  · rw [ht]
  · rw [ht]

lemma Inv.go (hq : s.quiet j = true) : Inv (s.go V j) := by
  unfold Sys.go
  cases hp : (s.tasks j).point with
  | user => exact h
  | test req i =>
    have hold : (s.tasks j).point.slot = none := hp ▸ rfl
    simp only
    split
    · exact h.ret hj hold _
    split
    · exact h.test hj hold
    rename_i hfree
    refine h.hop hj ⟨rfl, rfl, rfl⟩ rfl rfl rfl hold rfl (fun _ _ he => by cases he) ?_
    intro k n he
    cases he
    exact Bool.eq_false_iff.mpr hfree
  | take req i =>
    obtain ⟨ht, hc, hu, ho⟩ := s.alloc_tables j req.kind i
    have hfree : s.used req.kind i = false := h.free j hj _ _ (by rw [hp]; rfl)
    refine h.alloc (k := req.kind) (i := i) hj
      ⟨congrArg (fun f : Nat → Task π ν ε => update f j _) ht, hc, ?_⟩ hu ho ?_
      (hp ▸ rfl) rfl hfree fun l hl hne => quiet_spec hq hl hne
    · rw [ht]
    · rw [ht]
  | fill req i => exact h.fill hj hp
  | drop i => exact h.release_ret hj (hp ▸ rfl) _
  | use op i => exact h.use hj hp
  | close i =>
    refine h.carry hj ⟨rfl, rfl, rfl⟩ rfl rfl rfl ?_ (fun _ _ he => by cases he) rfl
    exact hp ▸ rfl
  | free k i => exact h.release_ret hj (hp ▸ rfl) _

/-- A task that owns nothing exits. -/
lemma Inv.exit (hok : cleared (s.tasks j) = true) :
    Inv (s.set j { s.tasks j with alive := false }) := by
  have hold {l : Nat} (hl : l ≠ j) :
      update s.tasks j { s.tasks j with alive := false } l = s.tasks l :=
    update_of_ne hl _ _
  have hother {l : Nat} (hl : (s.set j { s.tasks j with alive := false }).runs l = true) :
      l ≠ j ∧ s.runs l = true := by
    have hne : l ≠ j := by
      rintro rfl
      simp [runs, set] at hl
    simp only [runs, set, hold hne] at hl ⊢
    exact ⟨hne, hl⟩
  refine ⟨fun l hl k i => ?_, fun k i hki => ?_, fun l hl => ?_, fun l hl k i he => ?_⟩
  · obtain ⟨hne, hl⟩ := hother hl
    simp only [set, hold hne]
    exact h.own l hl k i
  · obtain ⟨l, hl, hopen⟩ := h.opened k i hki
    have hne : l ≠ j := by
      rintro rfl
      exact cleared_spec hok k i ((h.own l hj k i).mpr ⟨hki, hopen⟩)
    refine ⟨l, ?_, hopen⟩
    simp only [runs, set, hold hne] at hl ⊢
    exact hl
  · obtain ⟨hne, hl⟩ := hother hl
    simp only [set, hold hne]
    exact h.ok l hl
  · obtain ⟨hne, hl⟩ := hother hl
    simp only [set, hold hne] at he
    exact h.free l hl k i he

/-- The slot that a task is about to act on is its own. -/
lemma Inv.acts (ha : (s.tasks j).point.acts = some (k, i)) : (s.tasks j).Owns k i := by
  cases hp : (s.tasks j).point with
  | use op n =>
    rw [hp] at ha
    cases ha
    exact .inl ((h.ok j hj).use op i hp)
  | _ =>
    exact .inr (hp ▸ ha)

end

/-- A new task owns nothing. -/
lemma Inv.start (h : Inv s) : Inv { s.set s.count new_task with count := s.count + 1 } := by
  have hold {l : Nat} (hl : l ≠ s.count) :
      update s.tasks s.count new_task l = s.tasks l := update_of_ne hl _ _
  have hruns {l : Nat} (hl : s.runs l = true) : l ≠ s.count := by
    rintro rfl
    simp [runs] at hl
  have hnew {l : Nat} (hl : runs { s.set s.count new_task with count := s.count + 1 } l = true)
      (hne : l ≠ s.count) : s.runs l = true := by
    simp only [runs, set, hold hne, Bool.and_eq_true, decide_eq_true_eq] at hl ⊢
    exact ⟨by omega, hl.2⟩
  refine ⟨fun l hl k i => ?_, fun k i hki => ?_, fun l hl => ?_, fun l hl k i he => ?_⟩
  · by_cases hl0 : l = s.count
    · simp only [set, hl0, update_self]
      refine ⟨fun howns => ?_, fun ⟨hu, ho⟩ => ?_⟩
      · rcases howns with h | h <;> cases h
      · obtain ⟨m, hm, hopen⟩ := h.opened k i hu
        exact absurd (Option.some.inj (hopen.symm.trans ho)) (hruns hm)
    · simp only [set, hold hl0]
      exact h.own l (hnew hl hl0) k i
  · obtain ⟨l, hl, hopen⟩ := h.opened k i hki
    refine ⟨l, ?_, hopen⟩
    have hne := hruns hl
    simp only [runs, set, hold hne, Bool.and_eq_true, decide_eq_true_eq] at hl ⊢
    exact ⟨by omega, hl.2⟩
  · by_cases hl0 : l = s.count
    · simp only [set, hl0, update_self]
      exact ⟨fun _ _ he => (by cases he), fun _ => List.nodup_nil, fun _ _ he => (by cases he)⟩
    · simp only [set, hold hl0]
      exact h.ok l (hnew hl hl0)
  · by_cases hl0 : l = s.count
    · simp only [set, hl0, update_self] at he
      cases he
    · simp only [set, hold hl0] at he
      exact h.free l (hnew hl hl0) k i he

lemma step_inv (V : Vfs ω π ν ρ ε) (s : Sys ω π ν ρ ε) (i : Input π) (h : Inv s)
    (hok : s.honest i = true) : ∃ t, s.step V i = some t ∧ Inv t := by
  cases i with
  | start => exact ⟨_, rfl, h.start⟩
  | call j c =>
    refine ⟨_, rfl, ?_⟩
    split
    · rename_i hc
      simp only [honest, hc, Bool.not_true, Bool.false_or] at hok
      obtain ⟨hj, hp⟩ := Bool.and_eq_true_iff.mp hc
      exact h.call hj hp hok
    · exact h
  | go j =>
    refine ⟨_, rfl, ?_⟩
    split
    · rename_i hj
      exact h.go hj hok
    · exact h
  | exit j =>
    refine ⟨_, rfl, ?_⟩
    split
    · rename_i hj
      simp only [honest, hj, Bool.not_true, Bool.false_or] at hok
      exact h.exit hj hok
    · exact h

lemma boot_inv (w : ω) (files : Nat → VfsFile ν ρ) : Inv (boot w files : Sys ω π ν ρ ε) := by
  constructor <;> simp [runs, boot]

/-- In every run of honest programs a task that has exited has left no slot in use, and what a
call reads, writes or closes was opened by its own task. -/
theorem descriptors_stay_with_their_task (V : Vfs ω π ν ρ ε) (w : ω) (files : Nat → VfsFile ν ρ)
    (is : List (Input π))
    (hok : RunOk (step V) (fun s i => s.honest i = true) (boot w files) is) :
    ∃ s, run (step V) (boot w files) is = some s ∧
      (∀ j < s.count, (s.tasks j).alive = false →
        ∀ k i, s.used k i = true → s.opener k i ≠ some j) ∧
      ∀ j < s.count, (s.tasks j).alive = true → ∀ k i, (s.tasks j).point.acts = some (k, i) →
          s.used k i = true ∧ s.opener k i = some j := by
  obtain ⟨s, hrun, h⟩ := run_invariant (step_inv V) (boot_inv w files) hok
  refine ⟨s, hrun, fun j hj hdead k i hu ho => ?_, fun j hj ha k i hacts => ?_⟩
  · obtain ⟨l, hl, hopen⟩ := h.opened k i hu
    cases Option.some.inj (hopen.symm.trans ho)
    simp [runs, hdead] at hl
  · have hruns : s.runs j = true := by simp [runs, hj, ha]
    exact (h.own j hruns k i).mp (h.acts hruns hacts)

/-- Every open succeeds and a file is empty. -/
def empty_vfs : Vfs Unit Unit Unit Unit Unit where
  VFS_Open _ f _ _ := (true, f, ())
  VFS_Close _ f := (f, ())
  VFS_Read _ f _ := ([], f, ())
  VFS_Write _ f buf := (buf.length, f, ())
  VFS_Seek _ f pos := { f with pos := pos }
  VFS_ResolveDir _ _ := none
  VFS_IsDir _ _ := true
  VFS_ReadDir _ _ := []
  first_child _ _ := none
  next_sibling _ _ := none
  entry _ _ := ()

def no_file : VfsFile Unit Unit := ⟨none, 0, false, 0, ()⟩

theorem a_file_is_opened_read_and_closed :
    ∃ s, run (step empty_vfs) (boot () fun _ => no_file)
      [.start, .start, .call 0 (.open () 0), .go 0, .go 0, .go 0, .call 0 (.read_file 3 10), .go 0,
        .call 0 (.close 3), .go 0, .go 0, .exit 0] = some s ∧
      (∀ j < s.count, (s.tasks j).alive = false →
        ∀ k i, s.used k i = true → s.opener k i ≠ some j) ∧
      ∀ j < s.count, (s.tasks j).alive = true → ∀ k i, (s.tasks j).point.acts = some (k, i) →
          s.used k i = true ∧ s.opener k i = some j :=
  descriptors_stay_with_their_task _ _ _ _ (by decide +kernel)

/-- A task exits and its file stays open, a task closes the file of another one, and two tasks
that open a file at the same time get the same descriptor. -/
theorem descriptors_are_everybodys : (∃ s, run (step empty_vfs) (boot () fun _ => no_file)
      [.start, .call 0 (.open () 0), .go 0, .go 0, .go 0, .exit 0] = some s ∧
      (s.tasks 0).alive = false ∧ s.used .file 3 = true ∧ s.opener .file 3 = some 0) ∧
    (∃ s, run (step empty_vfs) (boot () fun _ => no_file)
      [.start, .start, .call 0 (.open () 0), .go 0, .go 0, .go 0, .call 1 (.close 3)] = some s ∧
      (s.tasks 1).point.acts = some (.file, 3) ∧ s.used .file 3 = true ∧
      s.opener .file 3 = some 0) ∧ ∃ s, run (step empty_vfs) (boot () fun _ => no_file)
      [.start, .start, .call 0 (.open () 0), .call 1 (.open () 0), .go 0, .go 1, .go 0, .go 1,
        .go 0, .go 1] = some s ∧ (s.tasks 0).held .file = [3] ∧ (s.tasks 1).held .file = [3] := by
  exact ⟨run_ends (by decide +kernel), run_ends (by decide +kernel), run_ends (by decide +kernel)⟩

end Sys

end uaos.fd
