-- The laws of the RAM filesystem's tree: every live node stands in the child list
-- of its parent and nowhere else, and has a volume root above it, along every run
-- that makes no directory below a file and moves no directory into itself.
import Uaos.Forest
import Uaos.RamLists

namespace uaos.ramfs

open List Function

open uaos.chain uaos.forest

variable {m m' : RamFs} {x y d : Nat} {kids : Nat → List Nat}

/-! ## The tree -/

def Live (m : RamFs) (x : Nat) : Prop := (m.nodes x).type ≠ .free

instance (m : RamFs) (x : Nat) : Decidable (Live m x) :=
  inferInstanceAs (Decidable ((m.nodes x).type ≠ .free))

def RamFs.parent (m : RamFs) (x : Nat) : Option Nat := (m.nodes x).parent

/-- What the nodes say about the tree whose child lists are `kids`. -/
structure TreeOf (m : RamFs) (kids : Nat → List Nat) : Prop where
  member : ∀ d x, x ∈ kids d ↔ Live m x ∧ m.parent x = some d
  dirs : ∀ d, kids d ≠ [] → (m.nodes d).type = .dir
  bound : ∀ x, Live m x → x < RAMFS_MAX_NODES
  rooted : ∀ x, Live m x → Rooted m.parent x
  roots : ∀ x, Live m x → m.parent x = none → ∃ i, (m.vols i).valid ∧ (m.vols i).root = x
  vols : ∀ i, (m.vols i).valid →
    (m.nodes (m.vols i).root).type = .dir ∧ m.parent (m.vols i).root = none
  names : ∀ d, ∀ x ∈ kids d, ∀ y ∈ kids d, x ≠ y → seq_ci (m.nodes x).name (m.nodes y).name = false

lemma live_of_dir (h : (m.nodes x).type = .dir) : Live m x := by simp [Live, h]

lemma SameInfo.type (h : SameInfo m m') (x : Nat) : (m'.nodes x).type = (m.nodes x).type :=
  (congrArg Node.type (h.nodes x) :)

lemma SameInfo.name (h : SameInfo m m') (x : Nat) : (m'.nodes x).name = (m.nodes x).name :=
  (congrArg Node.name (h.nodes x) :)

lemma SameInfo.parent (h : SameInfo m m') : m'.parent = m.parent :=
  funext fun x => (congrArg Node.parent (h.nodes x) :)

section

variable (h : TreeOf m kids)

include h

lemma TreeOf.congr (hs : SameInfo m m') : TreeOf m' kids := by
  have hlive : ∀ x, Live m' x ↔ Live m x := fun x => by simp [Live, hs.type]
  constructor
  · intro d x
    rw [hlive, hs.parent]
    exact h.member d x
  · intro d hd
    rw [hs.type]
    exact h.dirs d hd
  · intro x hx
    exact h.bound x ((hlive x).mp hx)
  · intro x hx
    rw [hs.parent]
    exact h.rooted x ((hlive x).mp hx)
  · intro x hx hp
    rw [hs.vols]
    rw [hs.parent] at hp
    exact h.roots x ((hlive x).mp hx) hp
  · intro i hi
    rw [hs.vols] at hi ⊢
    rw [hs.type, hs.parent]
    exact h.vols i hi
  · intro d x hx y hy hxy
    rw [hs.name, hs.name]
    exact h.names d x hx y hy hxy

lemma TreeOf.apart : Apart kids := by
  intro d e x hd he
  have hpd := ((h.member d x).mp hd).2
  have hpe := ((h.member e x).mp he).2
  exact Option.some.inj (hpd.symm.trans hpe)

lemma TreeOf.length_le (hl : Linked m kids) (d : Nat) : (kids d).length ≤ RAMFS_MAX_NODES := by
  have hsub : kids d ⊆ List.range RAMFS_MAX_NODES := by
    intro x hx
    exact mem_range.mpr (h.bound x ((h.member d x).mp hx).1)
  simpa using (subperm_of_subset (hl.nodup d) hsub).length_le

lemma TreeOf.kids_of_not_dir (hd : (m.nodes d).type ≠ .dir) : kids d = [] := by
  by_contra hne
  exact hd (h.dirs d hne)

lemma TreeOf.not_mem_of_not_live (hx : ¬ Live m x) : ∀ d, x ∉ kids d :=
  fun d hm => hx ((h.member d x).mp hm).1

/-- The parent of a live node is a directory. -/
lemma TreeOf.parent_dir (hx : Live m x) (hp : m.parent x = some d) :
    (m.nodes d).type = .dir := h.dirs d (ne_nil_of_mem ((h.member d x).mpr ⟨hx, hp⟩))

lemma TreeOf.live_above (hx : Live m x) (hxy : Above m.parent x y) : Live m y := by
  induction hxy with
  | refl => exact hx
  | tail _ hbc ih => exact live_of_dir (h.parent_dir ih hbc)

/-- Nothing stands below a node without children but the node itself. -/
lemma TreeOf.not_above_leaf (hleaf : kids x = []) (hy : Live m y) (hyx : y ≠ x) :
    ¬ Above m.parent y x := by
  intro hab
  rcases Relation.ReflTransGen.cases_tail hab with he | ⟨c, hyc, hcx⟩
  · exact hyx he.symm
  · have hc : c ∈ kids x := (h.member x c).mpr ⟨h.live_above hy hyc, hcx⟩
    rw [hleaf] at hc
    cases hc

/-- A volume root stands above every live node. -/
lemma TreeOf.reaches_root (hx : Live m x) :
    ∃ i, (m.vols i).valid ∧ Above m.parent x (m.vols i).root := by
  obtain ⟨r, hr, hnone⟩ := h.rooted x hx
  obtain ⟨i, hi, rfl⟩ := h.roots r (h.live_above hx hr) hnone
  exact ⟨i, hi, hr⟩

end

lemma seq_ci_iff (a b : CStr) : seq_ci a b = true ↔ a.map lower = b.map lower := by
  induction a generalizing b with
  | nil => cases b <;> simp [seq_ci]
  | cons x as ih =>
    cases b with
    | nil => simp [seq_ci]
    | cons y bs => simp [seq_ci, ih]

lemma seq_ci_comm (a b : CStr) : seq_ci a b = seq_ci b a := by
  rw [Bool.eq_iff_iff, seq_ci_iff, seq_ci_iff, eq_comm]

/-! ## Changes of one node -/

/-- The two states differ in list links, sizes and times, and in the node `x`, only. -/
structure SameBut (x : Nat) (m m' : RamFs) : Prop where
  nodes : ∀ y, y ≠ x → (m'.nodes y).core = (m.nodes y).core
  vols : m'.vols = m.vols

lemma SameInfo.but (h : SameInfo m m') : SameBut x m m' := ⟨fun y _ => h.nodes y, h.vols⟩

lemma SameBut.trans {m1 m2 m3 : RamFs} (h : SameBut x m1 m2) (h' : SameBut x m2 m3) :
    SameBut x m1 m3 := ⟨fun y hy => (h'.nodes y hy).trans (h.nodes y hy), h'.vols.trans h.vols⟩

lemma sameBut_set (f : Node → Node) : SameBut x m (m.set x f) :=
  ⟨fun y hy => by rw [set_ne hy], rfl⟩

section

variable (h : SameBut x m m')

include h

lemma SameBut.type (hy : y ≠ x) : (m'.nodes y).type = (m.nodes y).type :=
  (congrArg Node.type (h.nodes y hy) :)

lemma SameBut.name (hy : y ≠ x) : (m'.nodes y).name = (m.nodes y).name :=
  (congrArg Node.name (h.nodes y hy) :)

lemma SameBut.parent (hy : y ≠ x) : m'.parent y = m.parent y :=
  (congrArg Node.parent (h.nodes y hy) :)

lemma SameBut.live (hy : y ≠ x) : Live m' y ↔ Live m y := by
  simp [Live, h.type hy]

lemma SameBut.parent_eq : m'.parent = update m.parent x (m'.parent x) := by
  funext y
  by_cases hy : y = x
  · subst hy
    simp
  · simp [hy, h.parent hy]

end

/-- The node `x`, new or moved here with what is below it, stands in the directory
`d` under a name that no other child has. -/
lemma TreeOf.place {kids' : Nat → List Nat} (h : TreeOf m kids) (hs : SameBut x m m')
    (hkids : ∀ e y, y ∈ kids' e ↔ (y ≠ x ∧ y ∈ kids e) ∨ (y = x ∧ e = d))
    (hx : Live m' x) (hp : m'.parent x = some d) (hb : x < RAMFS_MAX_NODES)
    (hd : (m.nodes d).type = .dir) (hout : ¬ Above m.parent d x)
    (hkeep : kids x ≠ [] → (m'.nodes x).type = .dir)
    (hroot : ∀ i, (m.vols i).valid → (m.vols i).root ≠ x)
    (hnames : ∀ y ∈ kids d, y ≠ x → seq_ci (m.nodes y).name (m'.nodes x).name = false) :
    TreeOf m' kids' := by
  have hdx : d ≠ x := fun he => hout (he ▸ .refl)
  have hmove : ∀ y, Live m y → Rooted m'.parent y := by
    intro y hy
    rw [hs.parent_eq, hp]
    exact (h.rooted y hy).move (h.rooted d (live_of_dir hd)) hout
  constructor
  · intro e y
    rw [hkids]
    by_cases hy : y = x
    · subst hy
      simp [hx, hp, eq_comm]
    · simp [hy, hs.live hy, hs.parent hy, h.member]
  · intro e he
    by_cases hex : e = x
    · subst hex
      refine hkeep ?_
      obtain ⟨y, hy⟩ := exists_mem_of_ne_nil _ he
      rcases (hkids e y).mp hy with ⟨_, hm⟩ | ⟨_, hed⟩
      · exact ne_nil_of_mem hm
      · exact absurd hed.symm hdx
    · rw [hs.type hex]
      obtain ⟨y, hy⟩ := exists_mem_of_ne_nil _ he
      rcases (hkids e y).mp hy with ⟨_, hm⟩ | ⟨_, rfl⟩
      · exact h.dirs e (ne_nil_of_mem hm)
      · exact hd
  · intro y hy
    by_cases hyx : y = x
    · exact hyx ▸ hb
    · exact h.bound y ((hs.live hyx).mp hy)
  · intro y hy
    by_cases hyx : y = x
    · subst hyx
      exact (hmove d (live_of_dir hd)).step hp
    · exact hmove y ((hs.live hyx).mp hy)
  · intro y hy hnone
    have hyx : y ≠ x := by
      rintro rfl
      rw [hp] at hnone
      cases hnone
    rw [hs.parent hyx] at hnone
    rw [hs.vols]
    exact h.roots y ((hs.live hyx).mp hy) hnone
  · intro i hi
    rw [hs.vols] at hi ⊢
    rw [hs.type (hroot i hi), hs.parent (hroot i hi)]
    exact h.vols i hi
  · intro e y hy z hz hyz
    rcases (hkids e y).mp hy with ⟨hyx, hy⟩ | ⟨rfl, rfl⟩
    · rcases (hkids e z).mp hz with ⟨hzx, hz⟩ | ⟨rfl, rfl⟩
      · rw [hs.name hyx, hs.name hzx]
        exact h.names e y hy z hz hyz
      · rw [hs.name hyx]
        exact hnames y hy hyx
    · rcases (hkids e z).mp hz with ⟨hzx, hz⟩ | ⟨rfl, _⟩
      · rw [seq_ci_comm, hs.name hzx]
        exact hnames z hz hzx
      · exact absurd rfl hyz

/-- The node `x`, which has no children, is gone. -/
lemma TreeOf.remove {kids' : Nat → List Nat} (h : TreeOf m kids) (hs : SameBut x m m')
    (hkids : ∀ e y, y ∈ kids' e ↔ y ≠ x ∧ y ∈ kids e) (hx : ¬ Live m' x)
    (hleaf : kids x = []) (hroot : ∀ i, (m.vols i).valid → (m.vols i).root ≠ x) :
    TreeOf m' kids' := by
  have hne : ∀ {y}, Live m' y → y ≠ x := fun hy he => hx (he ▸ hy)
  have hdirs : ∀ e, kids' e ≠ [] → e ≠ x ∧ kids e ≠ [] := by
    intro e he
    obtain ⟨y, hy⟩ := exists_mem_of_ne_nil _ he
    have hm := ((hkids e y).mp hy).2
    refine ⟨?_, ne_nil_of_mem hm⟩
    rintro rfl
    rw [hleaf] at hm
    cases hm
  constructor
  · intro e y
    rw [hkids]
    by_cases hy : y = x
    · subst hy
      simp [hx]
    · simp [hy, hs.live hy, hs.parent hy, h.member]
  · intro e he
    rw [hs.type (hdirs e he).1]
    exact h.dirs e (hdirs e he).2
  · intro y hy
    exact h.bound y ((hs.live (hne hy)).mp hy)
  · intro y hy
    have hy' := (hs.live (hne hy)).mp hy
    refine (h.rooted y hy').congr ?_
    intro z hz
    refine hs.parent ?_
    rintro rfl
    exact h.not_above_leaf hleaf hy' (hne hy) hz
  · intro y hy hnone
    rw [hs.parent (hne hy)] at hnone
    rw [hs.vols]
    exact h.roots y ((hs.live (hne hy)).mp hy) hnone
  · intro i hi
    rw [hs.vols] at hi ⊢
    rw [hs.type (hroot i hi), hs.parent (hroot i hi)]
    exact h.vols i hi
  · intro e y hy z hz hyz
    obtain ⟨hyx, hy⟩ := (hkids e y).mp hy
    obtain ⟨hzx, hz⟩ := (hkids e z).mp hz
    rw [hs.name hyx, hs.name hzx]
    exact h.names e y hy z hz hyz

/-! ## The data of the files -/

/-- The pool block that the live node `x` holds. -/
def owner (m : RamFs) (x : Nat) : Option Block :=
  if (m.nodes x).type = .free then none
  else (m.nodes x).data.map fun p => ⟨p, (m.nodes x).alloc⟩

/-- Every node that holds a block holds a live block of the pool, and no other
node holds it. -/
def Owned (pool : Pool) (own : Nat → Option Block) : Prop := ∃ live, PoolInv ⟨pool, live⟩ ∧
    ∀ x b, own x = some b → b ∈ live ∧ ∀ y, y ≠ x → own y ≠ some b

lemma Owned.free {pool : Pool} {own : Nat → Option Block} (h : Owned pool own) (x : Nat) :
    ∃ q, ramfs_free_pool pool ((own x).map Block.ptr) = some q ∧
      Owned q (update own x none) := by
  obtain ⟨live, hinv, hown⟩ := h
  cases hx : own x with
  | none =>
    refine ⟨pool, rfl, live, hinv, ?_⟩
    rwa [← hx, update_eq_self]
  | some b =>
    obtain ⟨hb, hone⟩ := hown x b hx
    obtain ⟨t, hcall, ht⟩ := pool_step_inv ⟨pool, live⟩ (.free b) hinv ⟨hb, trivial⟩
    obtain ⟨q, hq, rfl⟩ := Option.map_eq_some_iff.mp hcall
    refine ⟨q, hq, live.erase b, ht, ?_⟩
    intro y c hy
    have hyx : y ≠ x := by
      rintro rfl
      simp at hy
    rw [update_of_ne hyx] at hy
    obtain ⟨hc, hcone⟩ := hown y c hy
    have hcb : c ≠ b := by
      rintro rfl
      exact hone y hyx hy
    refine ⟨(mem_erase_of_ne hcb).mpr hc, ?_⟩
    intro z hz
    by_cases hzx : z = x
    · subst hzx
      simp
    · rw [update_of_ne hzx]
      exact hcone z hz

lemma owner_congr (h : (m'.nodes x).core = (m.nodes x).core) : owner m' x = owner m x := by
  show (if (m'.nodes x).core.type = .free then none
    else (m'.nodes x).core.data.map fun p => Block.mk p (m'.nodes x).core.alloc) = _
  rw [h]
  rfl

lemma SameInfo.owner (h : SameInfo m m') : owner m' = owner m :=
  funext fun x => owner_congr (h.nodes x)

lemma SameBut.owner (h : SameBut x m m') :
    owner m' = update (ramfs.owner m) x (ramfs.owner m' x) := by
  funext y
  by_cases hy : y = x
  · subst hy
    simp
  rw [update_of_ne hy, owner_congr (h.nodes y hy)]

/-! ## The steps of the calls -/

/-- The state as every call leaves it: the lists, the tree over them, and the
data blocks. -/
structure Good (m : RamFs) (kids : Nat → List Nat) : Prop where
  lists : Linked m kids
  tree : TreeOf m kids
  data : Owned m.pool (owner m)

lemma Good.length_le (h : Good m kids) (d : Nat) : (kids d).length ≤ RAMFS_MAX_NODES :=
  h.tree.length_le h.lists d

lemma Good.find_child_eq (h : Good m kids) (d : Nat) (name : CStr) :
    find_child m d name = some ((kids d).find? fun c => seq_ci (m.nodes c).name name) :=
  find_child_spec h.lists (h.length_le d) name

lemma alloc_node_some {m1 : RamFs} (h : alloc_node m = some (x, m1)) :
    x < RAMFS_MAX_NODES ∧ ¬ Live m x ∧ m1 = m.set x fun _ => claimed_node := by
  unfold alloc_node at h
  split at h
  · cases h
  rename_i i hi
  cases h
  obtain ⟨hfree, hmem, _⟩ := find?_range'_eq_some.mp hi
  exact ⟨by simpa using hmem, by simpa [Live] using hfree, rfl⟩

/-- Lists do not read a node that is on none of them and has no children. -/
lemma Linked.set_outside {f : Node → Node} (h : Linked m kids) (hx : ∀ d, x ∉ kids d)
    (hleaf : kids x = []) (hf : (f (m.nodes x)).first_child = none) : Linked (m.set x f) kids := by
  intro e
  have hpath : Path some (m.set x f).next (m.first e) (kids e) none := by
    refine (h e).congr ?_
    intro y hy
    have hyx : y ≠ x := fun he => hx e (he ▸ hy)
    simp [RamFs.next, set_ne hyx]
  by_cases hex : e = x
  · subst hex
    rw [hleaf]
    simpa [RamFs.first] using hf
  · simpa [RamFs.first, set_ne hex] using hpath

lemma TreeOf.root_live (h : TreeOf m kids) {i : Nat} (hi : (m.vols i).valid) :
    Live m (m.vols i).root := live_of_dir (h.vols i hi).1

lemma Good.add {type : NodeType} {name : CStr} (h : Good m kids) (now : Nat)
    (hx : ¬ Live m x) (hb : x < RAMFS_MAX_NODES) (hd : (m.nodes d).type = .dir)
    (htype : type ≠ .free)
    (hname : ∀ c ∈ kids d, seq_ci (m.nodes c).name (scopy name RAMFS_MAX_NAME) = false) :
    ∃ m', add_node (m.set x fun _ => claimed_node) d x type name now = some m' ∧
      Good m' (update kids d (kids d ++ [x])) ∧ (m'.nodes x).type = type ∧
      SameBut x m m' := by
  have hleaf : kids x = [] := by
    refine h.tree.kids_of_not_dir ?_
    intro hdir
    exact hx (live_of_dir hdir)
  have hnew := h.tree.not_mem_of_not_live hx
  obtain ⟨m1, hm1⟩ : ∃ m1, m1 = (m.set x fun _ => claimed_node).set x fun n =>
    n.setup d type name now := ⟨_, rfl⟩
  have hbut : SameBut x m m1 := hm1 ▸ (sameBut_set _).trans (sameBut_set _)
  have hl : Linked m1 kids := by
    rw [hm1]
    exact (h.lists.set_outside hnew hleaf rfl).set_outside hnew hleaf
      (by simp [Node.setup, claimed_node])
  have hnode : m1.nodes x = claimed_node.setup d type name now := by simp [hm1]
  have hpool : m1.pool = m.pool := by simp [hm1]
  rw [add_node, ← hm1]
  obtain ⟨m', hcall, hsame, hlinked⟩ := dir_add_child_spec hl h.tree.apart hnew (h.length_le d)
  have htx : (m'.nodes x).type = type := by
    rw [hsame.type, hnode]
    rfl
  have hnx : (m'.nodes x).name = scopy name RAMFS_MAX_NAME := by
    rw [hsame.name, hnode]
    rfl
  have hpx : m'.parent x = some d := by
    rw [hsame.parent, RamFs.parent, hnode]
    rfl
  have hall := hbut.trans hsame.but
  refine ⟨m', hcall, ⟨hlinked, ?_, ?_⟩, htx, hall⟩
  · refine h.tree.place (d := d) hall ?_ ?_ hpx hb hd ?_ (fun hne => absurd hleaf hne) ?_ ?_
    · intro e y
      by_cases he : e = d
      · subst he
        simp only [update_self, mem_append, mem_singleton, and_true]
        constructor
        · rintro (hy | rfl)
          · exact .inl ⟨fun hyx => hnew e (hyx ▸ hy), hy⟩
          · exact .inr rfl
        · rintro (⟨_, hy⟩ | rfl)
          · exact .inl hy
          · exact .inr rfl
      · simp only [update_of_ne he, he, and_false, or_false]
        exact ⟨fun hy => ⟨fun hyx => hnew e (hyx ▸ hy), hy⟩, And.right⟩
    · simpa [Live, htx] using htype
    · intro hab
      exact hx (h.tree.live_above (live_of_dir hd) hab)
    · rintro i hi rfl
      exact hx (h.tree.root_live hi)
    · intro y hy _
      rw [hnx]
      exact hname y hy
  · have hown : owner m' = owner m := by
      rw [hall.owner]
      have h1 : owner m' x = none := by
        rw [hsame.owner]
        simp [owner, hnode, Node.setup, claimed_node]
      have h2 : owner m x = none := if_pos (not_not.mp hx)
      rw [h1, ← h2, update_eq_self]
    rw [hown, hsame.pool, hpool]
    exact h.data

lemma TreeOf.root_ne (h : TreeOf m kids) (hx : x ∈ kids d) :
    ∀ i, (m.vols i).valid → (m.vols i).root ≠ x := by
  rintro i hi rfl
  have hp := ((h.member d _).mp hx).2
  rw [(h.vols i hi).2] at hp
  cases hp

/-- The lists after `x` was taken off the list of `d`. -/
lemma mem_update_erase (hnd : (kids d).Nodup) (hapart : Apart kids) (hx : x ∈ kids d) (e y : Nat) :
    y ∈ update kids d ((kids d).erase x) e ↔ y ≠ x ∧ y ∈ kids e := by
  by_cases he : e = d
  · subst he
    rw [update_self, hnd.mem_erase_iff]
  rw [update_of_ne he]
  refine ⟨fun hy => ⟨?_, hy⟩, And.right⟩
  rintro rfl
  exact he (hapart e d y hy hx)

lemma Good.drop (h : Good m kids) (hx : x ∈ kids d) (hleaf : kids x = []) :
    ∃ m1, drop_node m x = some m1 ∧
      ∀ f : Node → Node, (∀ n, (f n).type = .free ∧ (f n).first_child = none) →
        Good (m1.set x f) (update kids d ((kids d).erase x)) ∧ SameBut x m (m1.set x f) := by
  obtain ⟨hlive, hp⟩ := (h.tree.member d x).mp hx
  have hp' : (m.nodes x).parent = some d := hp
  have hdata : (owner m x).map Block.ptr = (m.nodes x).data := by
    rw [owner, if_neg hlive]
    simp [comp_def]
  obtain ⟨q, hfree, hq⟩ := h.data.free x
  rw [hdata] at hfree
  have hlq : Linked { m with pool := q } kids := h.lists
  obtain ⟨m1, hcall, hsame, hl1⟩ := dir_remove_child_spec hlq h.tree.apart hx (h.length_le d)
  have hmem := mem_update_erase (h.lists.nodup d) h.tree.apart hx
  have hdx : x ≠ d := by
    rintro rfl
    rw [hleaf] at hx
    cases hx
  refine ⟨m1, by simp [drop_node, hfree, hp', hcall], ?_⟩
  intro f hf
  have hbut : SameBut x m (m1.set x f) :=
    (show SameBut x m m1 from ⟨fun y _ => hsame.nodes y, hsame.vols⟩).trans (sameBut_set f)
  have hfx : ((m1.set x f).nodes x).type = .free := by simp [hf]
  refine ⟨⟨hl1.set_outside ?_ ?_ (hf _).2, ?_, ?_⟩, hbut⟩
  · intro e hm
    exact ((hmem e x).mp hm).1 rfl
  · rw [update_of_ne hdx, hleaf]
  · exact h.tree.remove hbut hmem (not_not.mpr hfx) hleaf (h.tree.root_ne hx)
  · have hnone : owner (m1.set x f) x = none := if_pos hfx
    rw [hbut.owner, hnone, set_pool, hsame.pool]
    exact hq

lemma Linked.set_info {f : Node → Node} (h : Linked m kids)
    (hf : ∀ n, (f n).first_child = n.first_child ∧ (f n).next_sibling = n.next_sibling) :
    Linked (m.set x f) kids := by
  have hboth : ∀ y, (m.set x f).first y = m.first y ∧ (m.set x f).next y = m.next y := by
    intro y
    by_cases hy : y = x
    · subst hy
      simp [RamFs.first, RamFs.next, hf]
    · simp [RamFs.first, RamFs.next, set_ne hy]
  exact h.congr (funext fun y => (hboth y).1) (fun _ y _ => (hboth y).2)

/-- The node `x` with another name, in the same directory or in another one that
is not below it. -/
lemma Good.rename_node {d0 : Nat} {name : CStr} (h : Good m kids) (hx : x ∈ kids d0)
    (hd : (m.nodes d).type = .dir) (hout : ¬ Above m.parent d x)
    (hnames : ∀ y ∈ kids d, y ≠ x → seq_ci (m.nodes y).name name = false) :
    ∃ m1 kids', move_node m x d = some m1 ∧
      Good (m1.set x fun n => { n with name := name }) kids' := by
  obtain ⟨hlive, hp⟩ := (h.tree.member d0 x).mp hx
  have hp' : (m.nodes x).parent = some d0 := hp
  -- it is enough to move the node and to say where it stands in the lists
  have hfinish : ∀ (m1 : RamFs) (kids' : Nat → List Nat), Linked m1 kids' → m1.pool = m.pool →
      m1.vols = m.vols → (∀ y, y ≠ x → (m1.nodes y).core = (m.nodes y).core) →
      (m1.nodes x).core = { (m.nodes x).core with parent := some d } →
      (∀ e y, y ∈ kids' e ↔ (y ≠ x ∧ y ∈ kids e) ∨ (y = x ∧ e = d)) →
      Good (m1.set x fun n => { n with name := name }) kids' := by
    intro m1 kids' hl hpool hvols hother hself hmem
    have hbut : SameBut x m (m1.set x fun n => { n with name := name }) :=
      (show SameBut x m m1 from ⟨hother, hvols⟩).trans (sameBut_set _)
    have htype : ((m1.set x fun n => { n with name := name }).nodes x).type = (m.nodes x).type := by
      rw [set_self]
      exact (congrArg Node.type hself :)
    refine ⟨hl.set_info fun _ => ⟨rfl, rfl⟩, ?_, ?_⟩
    · refine h.tree.place hbut hmem ?_ ?_ (h.tree.bound x hlive) hd hout ?_ (h.tree.root_ne hx) ?_
      · rw [Live, htype]
        exact hlive
      · rw [RamFs.parent, set_self]
        exact (congrArg Node.parent hself :)
      · intro hne
        rw [htype]
        exact h.tree.dirs x hne
      · intro y hy hyx
        rw [set_self]
        exact hnames y hy hyx
    · have hown : owner (m1.set x fun n => { n with name := name }) x = owner m x := by
        rw [owner, htype, set_self]
        have hd1 : (m1.nodes x).data = (m.nodes x).data := (congrArg Node.data hself :)
        have hd2 : (m1.nodes x).alloc = (m.nodes x).alloc := (congrArg Node.alloc hself :)
        simp [owner, hd1, hd2]
      rw [hbut.owner, hown, update_eq_self, set_pool, hpool]
      exact h.data
  by_cases hdd : d0 = d
  · subst hdd
    refine ⟨m, kids, by simp [move_node, hp'], hfinish m kids h.lists rfl rfl
      (fun _ _ => rfl) ?_ ?_⟩
    · have : (m.nodes x).core.parent = some d0 := hp
      rw [← this]
    intro e y
    by_cases hy : y = x
    · subst hy
      refine ⟨fun hm => .inr ⟨rfl, h.tree.apart e d0 y hm hx⟩, ?_⟩
      rintro (⟨hyy, _⟩ | ⟨_, rfl⟩)
      · exact absurd rfl hyy
      · exact hx
    · simp [hy]
  obtain ⟨m1, hremove, hsame, hl1⟩ := dir_remove_child_spec h.lists h.tree.apart hx (h.length_le d0)
  have hmem := mem_update_erase (h.lists.nodup d0) h.tree.apart hx
  have hnew : ∀ e, x ∉ update kids d0 ((kids d0).erase x) e :=
    fun e hm => ((hmem e x).mp hm).1 rfl
  have hapart : Apart (update kids d0 ((kids d0).erase x)) := by
    intro e e' y hy hy'
    exact h.tree.apart e e' y ((hmem e y).mp hy).2 ((hmem e' y).mp hy').2
  have hdk : update kids d0 ((kids d0).erase x) d = kids d :=
    update_of_ne (Ne.symm hdd) _ _
  have hlen : (update kids d0 ((kids d0).erase x) d).length ≤ RAMFS_MAX_NODES := by
    rw [hdk]
    exact h.length_le d
  have hl2 : Linked (m1.set x fun n => { n with parent := some d }) _ :=
    hl1.set_info fun _ => ⟨rfl, rfl⟩
  obtain ⟨m2, hadd, hsame2, hl3⟩ := dir_add_child_spec hl2 hapart hnew hlen
  refine ⟨m2, _, by simp [move_node, hp', hdd, hremove, hadd], hfinish m2 _ hl3 ?_ ?_ ?_ ?_ ?_⟩
  · rw [hsame2.pool, set_pool, hsame.pool]
  · rw [hsame2.vols, set_vols, hsame.vols]
  · intro y hy
    rw [hsame2.nodes, set_ne hy, hsame.nodes]
  · have hself := hsame.nodes x
    rw [hsame2.nodes, set_self, ← hself]
    rfl
  intro e y
  by_cases he : e = d
  · subst he
    rw [update_self, mem_append, mem_singleton, hmem]
    simp
  · rw [update_of_ne he, hmem]
    simp [he]

end uaos.ramfs
