-- The DosList registry (dos_list.c). Devices, volumes and assigns are linked through a pool of
-- 32 nodes. A name is found under its last entry, and a node that was removed is never used again.
import Uaos.RamTree

namespace uaos.dos_list

open List Function ramfs chain

def MAX_DOSLIST : Nat := 32

/-- The calls `DosList_AddDevice`, `DosList_AddVolume` and `DosList_AddAssign`. -/
inductive Added where
  | device
  | volume
  | assign

/-- `DLT_DEVICE`, `DLT_VOLUME` and `DLT_ASSIGN`. -/
def Added.type : Added → UInt8
  | .device => 0
  | .volume => 2
  | .assign => 5

structure DosNode where
  next : Option Nat
  type : UInt8
  name : CStr

/-- A node is known by its place in `g_doslist_pool`. -/
structure DosList where
  pool : Nat → DosNode
  head : Option Nat
  used : Nat

namespace DosList

/-- A node of the pool at the front of the list. The three calls differ in the type, and in a
port or a lock that no search looks at. `dcpy` and `dcmp_ci` are `scopy` and `seq_ci` again. -/
def add (l : DosList) (name : CStr) (u : Added) : DosList × Option Nat :=
  if MAX_DOSLIST ≤ l.used then (l, none)
  else (⟨update l.pool l.used ⟨l.head, u.type, scopy name 32⟩, some l.used, l.used + 1⟩,
    some l.used)

/-- The walk to the first node that `p` accepts, with the node before it. -/
def seek (l : DosList) (p : DosNode → Bool) :
    Nat → Option Nat → Option Nat → Option (Option Nat × Option Nat)
  | 0, _, _ => none
  | _ + 1, prev, none => some (prev, none)
  | fuel + 1, prev, some n =>
    if p (l.pool n) then some (prev, some n) else l.seek p fuel (some n) (l.pool n).next

def seek_type (l : DosList) (name : CStr) (type : UInt8) : Option (Option Nat × Option Nat) :=
  l.seek (fun n => n.type == type && seq_ci n.name name) (MAX_DOSLIST + 1) none l.head

def remove (l : DosList) (name : CStr) (type : UInt8) : Option DosList :=
  (l.seek_type name type).map fun
    | (_, none) => l
    | (none, some n) => { l with head := (l.pool n).next }
    | (some p, some n) =>
      { l with pool := update l.pool p { l.pool p with next := (l.pool n).next } }

def find_by_type (l : DosList) (name : CStr) (type : UInt8) : Option (Option Nat) :=
  (l.seek_type name type).map Prod.snd

lemma seek_spec {l : DosList} {p : DosNode → Bool} {pre post : List Nat} {fuel : Nat}
    {prev cur : Option Nat} (h : Path some (fun n => (l.pool n).next) cur (pre ++ post) none)
    (hpre : ∀ n ∈ pre, p (l.pool n) = false) (hpost : ∀ n ∈ post.head?, p (l.pool n) = true)
    (hfuel : pre.length < fuel) :
    l.seek p fuel prev cur = some (pre.getLast?.or prev, post.head?) := by
  induction pre generalizing fuel prev cur with
  | nil =>
    obtain ⟨fuel, rfl⟩ := Nat.exists_eq_add_one.mpr hfuel
    cases post with
    | nil => simp [seek, show cur = none from h]
    | cons n post => simp [seek, h.1, hpost n rfl]
  | cons n pre ih =>
    obtain ⟨fuel, rfl⟩ := Nat.exists_eq_add_one.mpr (Nat.zero_lt_of_lt hfuel)
    obtain ⟨rfl, hrest⟩ := h
    rw [seek, hpre n mem_cons_self, if_neg Bool.false_ne_true,
      ih hrest (fun m hm => hpre m (mem_cons_of_mem _ hm)) (Nat.lt_of_succ_lt_succ hfuel),
      getLast?_cons]
    cases pre.getLast? <;> rfl

end DosList

/-! ## Runs -/

/-- An addition, with the name and type as they were given. -/
structure Entry where
  node : Nat
  name : CStr
  type : UInt8

def Entry.is (name : CStr) (type : UInt8) (e : Entry) : Bool := e.type == type && seq_ci e.name name

/-- The list, and the additions that were not removed, the last one first. -/
structure Known where
  list : DosList
  entries : List Entry

inductive Op where
  | add (name : CStr) (u : Added)
  | remove (name : CStr) (type : UInt8)

namespace Known

def step (k : Known) : Op → Option Known
  | .add name u =>
    let (l, n) := k.list.add name u
    some ⟨l, (n.map fun n => Entry.mk n name u.type).toList ++ k.entries⟩
  | .remove name type =>
    (k.list.remove name type).map fun l => ⟨l, k.entries.eraseP (Entry.is name type)⟩

/-- DosList_Init. -/
def init : Known := ⟨⟨fun _ => ⟨none, 0, []⟩, none, 0⟩, []⟩

/-- A node was never used, or every node is on the list. -/
def roomy (k : Known) : Bool := decide (k.list.used < MAX_DOSLIST ∨ k.entries.length = k.list.used)

/-- The name fits in a node with its terminating zero. -/
def fits : Op → Bool
  | .add name _ => name.length < 32
  | .remove _ _ => true

/-- A search gives the last entry. An addition fails only for a full list just when the pool
is roomy. -/
structure Sound (k : Known) : Prop where
  found : ∀ name type, k.list.find_by_type name type =
    some ((k.entries.find? (Entry.is name type)).map Entry.node)
  full : (∀ name u, (k.list.add name u).2 = none → k.entries.length = MAX_DOSLIST) ↔
    k.roomy = true

structure Ok (k : Known) : Prop where
  path : Path some (fun n => (k.list.pool n).next) k.list.head (k.entries.map Entry.node) none
  same : ∀ e ∈ k.entries, e.node < k.list.used ∧ (k.list.pool e.node).type = e.type ∧
    (k.list.pool e.node).name = e.name
  count : k.entries.length ≤ k.list.used
  used : k.list.used ≤ MAX_DOSLIST

variable {k : Known}

lemma split_at (q : Entry → Bool) (es : List Entry) : ∃ pre post, es = pre ++ post ∧
    (∀ e ∈ pre, q e = false) ∧ (∀ e ∈ post.head?, q e = true) ∧ es.find? q = post.head? ∧
    es.eraseP q = pre ++ post.tail := by
  induction es with
  | nil => exact ⟨[], [], by simp⟩
  | cons e es ih =>
    cases he : q e with
    | true => exact ⟨[], e :: es, by simp [he]⟩
    | false =>
      obtain ⟨pre, post, rfl, hpre, hpost, hfind, herase⟩ := ih
      exact ⟨e :: pre, post, rfl, by simpa [he] using hpre, hpost, by simp [he, hfind],
        by simp [he, herase]⟩

lemma Ok.seek (h : k.Ok) (name : CStr) (type : UInt8) : ∃ pre post, k.entries = pre ++ post ∧
    k.entries.find? (Entry.is name type) = post.head? ∧
    k.entries.eraseP (Entry.is name type) = pre ++ post.tail ∧ k.list.seek_type name type =
      some ((pre.map Entry.node).getLast?, (post.map Entry.node).head?) := by
  obtain ⟨pre, post, hes, hpre, hpost, hfind, herase⟩ := split_at (Entry.is name type) k.entries
  refine ⟨pre, post, hes, hfind, herase, ?_⟩
  have hsame : ∀ e ∈ k.entries, ((k.list.pool e.node).type == type &&
      seq_ci (k.list.pool e.node).name name) = Entry.is name type e := by
    intro e he
    rw [(h.same e he).2.1, (h.same e he).2.2, Entry.is]
  have hpath := h.path
  have hlen := h.count.trans h.used
  rw [hes, map_append] at hpath
  rw [hes, length_append] at hlen
  rw [DosList.seek_type, DosList.seek_spec hpath ?_ ?_ ?_, Option.or_none]
  · intro n hn
    obtain ⟨e, he, rfl⟩ := List.mem_map.mp hn
    rw [hsame e (hes ▸ mem_append_left _ he), hpre e he]
  · intro n hn
    rw [head?_map, Option.mem_map] at hn
    obtain ⟨e, he, rfl⟩ := hn
    rw [hsame e (hes ▸ mem_append_right _ (mem_of_mem_head? he)), hpost e he]
  · rw [length_map]
    omega

lemma Ok.sound (h : k.Ok) : k.Sound := by
  have hused := h.used
  refine ⟨fun name type => ?_, ?_⟩
  · obtain ⟨pre, post, -, hfind, -, hseek⟩ := h.seek name type
    rw [DosList.find_by_type, hseek, hfind, Option.map_some, head?_map]
  rw [roomy, decide_eq_true_eq]
  unfold DosList.add
  by_cases hfull : MAX_DOSLIST ≤ k.list.used
  · simp only [hfull, if_true, forall_const]
    constructor
    · intro hall
      have := hall .device
      omega
    · intro hroom _
      omega
  · simp [hfull, Nat.lt_of_not_le hfull]

lemma Ok.add (h : k.Ok) {name : CStr} (hname : name.length < 32) (u : Added) :
    ∃ t, k.step (.add name u) = some t ∧ t.Ok := by
  simp only [Known.step, DosList.add]
  split
  · exact ⟨_, rfl, h⟩
  rename_i hroom
  have hne : ∀ e ∈ k.entries, e.node ≠ k.list.used := fun e he => (h.same e he).1.ne
  refine ⟨_, rfl, ⟨rfl, ?_⟩, fun e he => ?_, Nat.succ_le_succ h.count, Nat.lt_of_not_le hroom⟩
  · simp only [update_self]
    refine h.path.congr fun n hn => ?_
    obtain ⟨e, he, rfl⟩ := List.mem_map.mp hn
    simp only [update_of_ne (hne e he)]
  · rcases mem_cons.mp he with rfl | he
    · simp [scopy, take_of_length_le (Nat.le_of_lt_succ hname)]
    · obtain ⟨hlt, hsame⟩ := h.same e he
      simp only [update_of_ne (hne e he)]
      exact ⟨hlt.trans (Nat.lt_succ_self _), hsame⟩

/-- A list that links fewer of the entries. -/
lemma Ok.fewer (h : k.Ok) {l : DosList} {es : List Entry} (hsub : es.Sublist k.entries)
    (hused : l.used = k.list.used) (hsame : ∀ n, (l.pool n).type = (k.list.pool n).type ∧
      (l.pool n).name = (k.list.pool n).name)
    (hpath : Path some (fun n => (l.pool n).next) l.head (es.map Entry.node) none) :
    Ok ⟨l, es⟩ := by
  refine ⟨hpath, fun e he => ?_, hused ▸ hsub.length_le.trans h.count, hused ▸ h.used⟩
  rw [(hsame e.node).1, (hsame e.node).2, hused]
  exact h.same e (hsub.subset he)

lemma Ok.remove (h : k.Ok) (name : CStr) (type : UInt8) :
    ∃ t, k.step (.remove name type) = some t ∧ t.Ok := by
  obtain ⟨pre, post, hes, -, herase, hseek⟩ := h.seek name type
  have hpath := h.path
  have hnd := hpath.nodup (Option.some_injective _) fun _ _ => Option.some_ne_none _
  rw [hes, map_append] at hpath hnd
  have hsub : (pre ++ post.tail).Sublist k.entries := by
    rw [hes]
    exact (tail_sublist post).append_left pre
  simp only [Known.step, DosList.remove, hseek, Option.map_some, herase]
  refine ⟨_, rfl, ?_⟩
  cases post with
  | nil => exact h.fewer hsub rfl (fun _ => ⟨rfl, rfl⟩) (by simpa using hpath)
  | cons e post =>
    obtain ⟨m, hlow, rfl, hhigh⟩ := path_append.mp hpath
    rcases eq_nil_or_concat pre with rfl | ⟨as, f, rfl⟩
    · exact h.fewer hsub rfl (fun _ => ⟨rfl, rfl⟩) hhigh
    -- the node before the one that goes is linked to the one behind it
    rw [concat_eq_append, map_append] at hlow
    rw [concat_eq_append, map_append, map_cons, map_cons, map_nil] at hnd
    obtain ⟨hnd, -, hapart⟩ := nodup_append.mp hnd
    have hf : f.node ∉ as.map Entry.node :=
      fun hm => (nodup_append.mp hnd).2.2 f.node hm f.node mem_cons_self rfl
    have hnext : (fun n => (update k.list.pool f.node { k.list.pool f.node with
        next := (k.list.pool e.node).next } n).next) =
          update (fun n => (k.list.pool n).next) f.node (k.list.pool e.node).next := by
      funext n
      by_cases hn : n = f.node <;> simp [hn]
    simp only [concat_eq_append, map_append, map_cons, map_nil, getLast?_concat, head?_cons,
      tail_cons] at hsub ⊢
    refine h.fewer hsub rfl (fun n => ?_) ?_
    · by_cases hn : n = f.node <;> simp [hn]
    simp only [hnext, map_append, map_cons, map_nil]
    refine path_append.mpr ⟨_, hlow.relink hf, hhigh.congr fun n hn => update_of_ne ?_ _ _⟩
    exact (hapart f.node (by simp) n (mem_cons_of_mem _ hn)).symm

lemma Ok.step (h : k.Ok) (op : Op) (hop : fits op = true) : ∃ t, k.step op = some t ∧ t.Ok := by
  cases op with
  | add name u => exact h.add (of_decide_eq_true hop) u
  | remove name type => exact h.remove name type

/-- After every run with names that fit, a search gives the last entry of the name, and an
addition fails only for a full list just when a node was never used or all are on the list. -/
theorem a_name_is_found_under_its_last_entry (ops : List Op)
    (h : RunOk step (fun _ op => fits op = true) init ops) :
    ∃ k, run step init ops = some k ∧ k.Sound := by
  have h0 : init.Ok := ⟨rfl, by simp [init], le_refl _, Nat.zero_le _⟩
  obtain ⟨k, hk, hok⟩ := run_invariant (fun k op hk hop => hk.step op hop) h0 h
  exact ⟨k, hk, hok.sound⟩

theorem a_device_is_mounted_twice :
    ∃ k, run step init [.add [80] .device, .add [112] .device, .remove [80] 0] = some k ∧
      k.Sound := a_name_is_found_under_its_last_entry _ (by decide)

/-- A device that is mounted and unmounted 32 times cannot be mounted again. -/
theorem a_device_is_mounted_too_often :
    ((run step init (replicate 32 [Op.add [80] .device, .remove [80] 0]).flatten).map
      fun k => (k.entries.length, (k.list.add [80] .device).2)) = some (0, none) := by
  decide +kernel

end Known

end uaos.dos_list
