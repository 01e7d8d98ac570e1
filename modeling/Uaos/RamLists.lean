-- The child lists of the RAM filesystem: what the list walks of ramfs.c find, and
-- what an insertion or a removal does to every list of the table.
import Uaos.RamTree

namespace uaos.ramfs

open List Function

open uaos.chain

variable {as : List Nat} {fuel y : Nat} {a : Option Nat}

variable {m : RamFs} {x d child : Nat} {kids : Nat → List Nat} {v : Option Nat}

/-! ## Links and the rest of a node -/

def RamFs.first (m : RamFs) (x : Nat) : Option Nat := (m.nodes x).first_child

def RamFs.next (m : RamFs) (x : Nat) : Option Nat := (m.nodes x).next_sibling

/-- The node without its list links, its size and its time. -/
def Node.core (n : Node) : Node :=
  { n with first_child := none, next_sibling := none, size := 0, mtime := 0 }

/-- The two states differ in list links, sizes and times only. -/
structure SameInfo (m m' : RamFs) : Prop where
  nodes : ∀ x, (m'.nodes x).core = (m.nodes x).core
  vols : m'.vols = m.vols
  pool : m'.pool = m.pool

lemma SameInfo.trans {m1 m2 m3 : RamFs} (h : SameInfo m1 m2) (h' : SameInfo m2 m3) :
    SameInfo m1 m3 :=
  ⟨fun x => (h'.nodes x).trans (h.nodes x), h'.vols.trans h.vols, h'.pool.trans h.pool⟩

@[simp] lemma set_self (f : Node → Node) : (m.set x f).nodes x = f (m.nodes x) := by
  simp [RamFs.set]

lemma set_ne (h : y ≠ x) (f : Node → Node) : (m.set x f).nodes y = m.nodes y := by
  simp [RamFs.set, h]

@[simp] lemma set_vols (f : Node → Node) : (m.set x f).vols = m.vols := rfl

@[simp] lemma set_pool (f : Node → Node) : (m.set x f).pool = m.pool := rfl

@[simp] lemma set_next_next :
    (m.set x fun n => { n with next_sibling := v }).next = update m.next x v := by
  funext y
  by_cases h : y = x
  · subst h
    simp [RamFs.next]
  · simp [RamFs.next, set_ne h, h]

@[simp] lemma set_next_first :
    (m.set x fun n => { n with next_sibling := v }).first = m.first := by
  funext y
  by_cases h : y = x
  · subst h
    simp [RamFs.first]
  · simp [RamFs.first, set_ne h]

@[simp] lemma set_first_first :
    (m.set x fun n => { n with first_child := v }).first = update m.first x v := by
  funext y
  by_cases h : y = x
  · subst h
    simp [RamFs.first]
  · simp [RamFs.first, set_ne h, h]

@[simp] lemma set_first_next : (m.set x fun n => { n with first_child := v }).next = m.next := by
  funext y
  by_cases h : y = x
  · subst h
    simp [RamFs.next]
  · simp [RamFs.next, set_ne h]

lemma sameInfo_set {f : Node → Node} (hf : ∀ n, (f n).core = n.core) :
    SameInfo m (m.set x f) := by
  refine ⟨fun y => ?_, rfl, rfl⟩
  by_cases h : y = x
  · subst h
    rw [set_self, hf]
  · rw [set_ne h]

/-! ## The lists -/

/-- The list of the children of every node `d` is `kids d`. -/
def Linked (m : RamFs) (kids : Nat → List Nat) : Prop :=
  ∀ d, Path some m.next (m.first d) (kids d) none

/-- No node stands in two lists. -/
def Apart (kids : Nat → List Nat) : Prop := ∀ d e x, x ∈ kids d → x ∈ kids e → d = e

lemma Linked.nodup (h : Linked m kids) (d : Nat) : (kids d).Nodup :=
  (h d).nodup (Option.some_injective _) (fun _ _ => Option.some_ne_none _)

/-- Lists are as they were when the links that they read are. -/
lemma Linked.congr {m' : RamFs} (h : Linked m kids) (hf : m'.first = m.first)
    (hn : ∀ d, ∀ x ∈ kids d, m'.next x = m.next x) : Linked m' kids := by
  intro d
  rw [hf]
  exact (h d).congr (hn d)

lemma Linked.next_outside (h : Linked m kids) (hx : ∀ d, x ∉ kids d) :
    Linked (m.set x fun n => { n with next_sibling := v }) kids := by
  refine h.congr set_next_first ?_
  intro d y hy
  have hyx : y ≠ x := fun he => hx d (he ▸ hy)
  rw [set_next_next, update_of_ne hyx]

lemma last_sibling_spec {z c : Nat}
    (h : Path some m.next (some c) (as ++ [z]) none) (hfuel : as.length < fuel) :
    last_sibling m fuel c = some z := by
  induction as generalizing c fuel with
  | nil =>
    obtain ⟨fuel, rfl⟩ := one_more hfuel
    obtain ⟨hc, hnext⟩ := h
    obtain rfl := Option.some.inj hc
    have hnone : (m.nodes c).next_sibling = none := hnext
    simp [last_sibling, hnone]
  | cons a as ih =>
    obtain ⟨fuel, rfl⟩ := one_more hfuel
    obtain ⟨hc, hrest⟩ := h
    obtain rfl := Option.some.inj hc
    have hsome : ∃ b, (m.nodes c).next_sibling = some b := by
      cases as with
      | nil => exact ⟨z, hrest.1⟩
      | cons b as => exact ⟨b, hrest.1⟩
    obtain ⟨b, hb⟩ := hsome
    have hpath : Path some m.next (some b) (as ++ [z]) none := hb ▸ hrest
    simp [last_sibling, hb, ih hpath (by simpa using hfuel)]

lemma dir_add_child_spec (h : Linked m kids) (hapart : Apart kids)
    (hnew : ∀ d, child ∉ kids d) (hlen : (kids d).length ≤ RAMFS_MAX_NODES) :
    ∃ m', dir_add_child m d child = some m' ∧ SameInfo m m' ∧
      Linked m' (update kids d (kids d ++ [child])) := by
  have h1 : Linked (m.set child fun n => { n with next_sibling := none }) kids :=
    h.next_outside hnew
  have hsame : SameInfo m (m.set child fun n => { n with next_sibling := none }) :=
    sameInfo_set fun _ => rfl
  have hend : (m.set child fun n => { n with next_sibling := none }).next child = none := by simp
  unfold dir_add_child
  generalize m.set child (fun n => { n with next_sibling := none }) = m1 at *
  rcases eq_nil_or_concat (kids d) with hnil | ⟨as, z, hz⟩
  · -- the first child of `d`
    have hpath := h1 d
    rw [hnil] at hpath
    have hfirst : (m1.nodes d).first_child = none := hpath
    simp only [hfirst]
    refine ⟨_, rfl, hsame.trans (sameInfo_set fun _ => rfl), ?_⟩
    intro e
    by_cases he : e = d
    · subst he
      simp [hnil, hend]
    · simpa [he] using h1 e
  rw [concat_eq_append] at hz
  have hpath := h1 d
  rw [hz] at hpath
  have hfirst : ∃ c, (m1.nodes d).first_child = some c := by
    cases as with
    | nil => exact ⟨z, hpath.1⟩
    | cons c as => exact ⟨c, hpath.1⟩
  obtain ⟨c, hc⟩ := hfirst
  have hc' : m1.first d = some c := hc
  have hlast : last_sibling m1 NODE_FUEL c = some z := by
    rw [hc'] at hpath
    refine last_sibling_spec hpath ?_
    rw [hz, length_append] at hlen
    exact Nat.lt_succ_of_le ((le_self_add).trans hlen)
  simp only [hc, hlast]
  refine ⟨_, rfl, hsame.trans (sameInfo_set fun _ => rfl), ?_⟩
  have hnd := h1.nodup d
  rw [hz] at hnd
  have hzas : z ∉ as := fun hm => (nodup_append.mp hnd).2.2 z hm z (by simp) rfl
  intro e
  rw [set_next_next, set_next_first]
  by_cases he : e = d
  · subst he
    rw [update_self, hz]
    refine path_append.mpr ⟨some child, hpath.relink hzas, rfl, ?_⟩
    have hcz : child ≠ z := fun hm => hnew e (by simp [hz, hm])
    rw [update_of_ne hcz]
    exact hend
  · rw [update_of_ne he]
    refine (h1 e).congr ?_
    intro y hy
    have hyz : y ≠ z := by
      rintro rfl
      exact he (hapart e d y hy (by simp [hz]))
    exact update_of_ne hyz _ _

lemma sibling_before_spec {bs : List Nat} (h : Path some m.next a (as ++ y :: child :: bs) none)
    (hnot : child ∉ as ++ [y]) (hfuel : as.length < fuel) :
    sibling_before m child fuel a = some (some y) := by
  induction as generalizing a fuel with
  | nil =>
    obtain ⟨fuel, rfl⟩ := one_more hfuel
    obtain ⟨rfl, hnext⟩ := h
    have hy : (m.nodes y).next_sibling = some child := hnext.1
    simp [sibling_before, hy]
  | cons c as ih =>
    obtain ⟨fuel, rfl⟩ := one_more hfuel
    obtain ⟨rfl, hrest⟩ := h
    have hne : (m.nodes c).next_sibling ≠ some child := by
      intro hc
      have hhead : m.next c = some child := hc
      apply hnot
      cases as with
      | nil =>
        have : some y = some child := hrest.1.symm.trans hhead
        simp [Option.some.inj this]
      | cons b as =>
        have : some b = some child := hrest.1.symm.trans hhead
        simp [Option.some.inj this]
    have hih := ih hrest (fun hm => hnot (mem_cons_of_mem c hm)) (by simpa using hfuel)
    simp only [sibling_before, hne, if_false]
    exact hih

lemma dir_remove_child_spec (h : Linked m kids) (hapart : Apart kids)
    (hmem : child ∈ kids d) (hlen : (kids d).length ≤ RAMFS_MAX_NODES) :
    ∃ m', dir_remove_child m d child = some m' ∧ SameInfo m m' ∧
      Linked m' (update kids d ((kids d).erase child)) := by
  obtain ⟨as, bs, hsplit⟩ := append_of_mem hmem
  have hnd := h.nodup d
  have hpath := h d
  rw [hsplit] at hnd hpath hlen
  have hnot : child ∉ as := fun hm => (nodup_append.mp hnd).2.2 child hm child (by simp) rfl
  have herase : (kids d).erase child = as ++ bs := by
    rw [hsplit, erase_append_right _ hnot, erase_cons_head]
  rw [herase]
  unfold dir_remove_child
  rcases eq_nil_or_concat as with rfl | ⟨as, y, rfl⟩
  · have hfirst : (m.nodes d).first_child = some child := hpath.1
    simp only [hfirst, if_true]
    refine ⟨_, rfl, sameInfo_set fun _ => rfl, ?_⟩
    intro e
    rw [set_first_next, set_first_first]
    by_cases he : e = d
    · subst he
      rw [update_self, update_self]
      exact hpath.2
    · simpa [he] using h e
  rw [concat_eq_append] at *
  obtain ⟨mid, hlow, hmid⟩ := path_append.mp hpath
  have hfirst : (m.nodes d).first_child ≠ some child := by
    intro hc
    have hhead : m.first d = some child := hc
    apply hnot
    cases as with
    | nil => simp [Option.some.inj (hhead.symm.trans hlow.1)]
    | cons b as => simp [Option.some.inj (hhead.symm.trans hlow.1)]
  have hbefore : sibling_before m child NODE_FUEL (m.nodes d).first_child = some (some y) := by
    rw [append_assoc] at hpath
    refine sibling_before_spec hpath hnot ?_
    simp only [length_append, length_cons, length_nil] at hlen
    unfold NODE_FUEL
    omega
  simp only [hfirst, if_false, hbefore]
  refine ⟨_, rfl, sameInfo_set fun _ => rfl, ?_⟩
  have hyas : y ∉ as := by
    intro hm
    have := (nodup_append.mp hnd).1
    exact (nodup_append.mp this).2.2 y hm y (by simp) rfl
  have hybs : y ∉ bs := fun hm => (nodup_append.mp hnd).2.2 y (by simp) y (by simp [hm]) rfl
  intro e
  rw [set_next_next, set_next_first]
  by_cases he : e = d
  · subst he
    rw [update_self]
    refine path_append.mpr ⟨m.next child, hlow.relink hyas, ?_⟩
    refine Path.congr hmid.2 ?_
    intro z hz
    have hzy : z ≠ y := fun hm => hybs (hm ▸ hz)
    exact update_of_ne hzy _ _
  · rw [update_of_ne he]
    refine (h e).congr ?_
    intro z hz
    have hzy : z ≠ y := by
      rintro rfl
      exact he (hapart e d z hz (by simp [hsplit]))
    exact update_of_ne hzy _ _

lemma find_sibling_spec {name : CStr}
    (h : Path some m.next a as none) (hfuel : as.length < fuel) :
    find_sibling m name fuel a = some (as.find? fun c => seq_ci (m.nodes c).name name) := by
  induction as generalizing a fuel with
  | nil =>
    obtain ⟨fuel, rfl⟩ := one_more hfuel
    obtain rfl : a = none := h
    rfl
  | cons c as ih =>
    obtain ⟨fuel, rfl⟩ := one_more hfuel
    obtain ⟨rfl, hrest⟩ := h
    have hih := @ih fuel _ hrest (by simpa using hfuel)
    rw [find_sibling, find?_cons]
    by_cases hc : seq_ci (m.nodes c).name name
    · simp [hc]
    · simp only [hc]
      exact hih

lemma find_child_spec (h : Linked m kids) (hlen : (kids d).length ≤ RAMFS_MAX_NODES)
    (name : CStr) :
    find_child m d name = some ((kids d).find? fun c => seq_ci (m.nodes c).name name) :=
  find_sibling_spec (h d) (Nat.lt_succ_of_le hlen)

end uaos.ramfs
