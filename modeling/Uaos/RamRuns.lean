-- Runs of the RAM filesystem: what the path walks find, what each call of ramfs.c
-- keeps, and the forest that stands after every run.
import Uaos.RamForest

namespace uaos.ramfs

open List Function

open uaos.chain uaos.forest

variable {last s : CStr} {i n : Nat} {vol : Option Nat} {v : Vol}

variable {m m' : RamFs} {x d : Nat} {kids : Nat → List Nat} {rounds : List (CStr × CStr)}

/-! ## Paths of directories -/

/-- No component but the last one names a node that is no directory. This is what
RamFS_MkDir does not check on its way. -/
def through_dirs (m : RamFs) : Nat → List (CStr × CStr) → Bool
  | _, [] => true
  | dir, (comp, cur) :: rest =>
    if cur = [] then through_dirs m dir rest
    else
      match find_child m dir comp with
      | some (some child) => (m.nodes child).type = .dir && through_dirs m child rest
      | _ => true

/-! ## The walks -/

lemma scopy_scopy (s : CStr) (n : Nat) : scopy (scopy s n) n = scopy s n := by
  simp [scopy, take_take]

lemma scopy_nil : scopy [] n = [] := by simp [scopy]

lemma scopy_next_component {comp cur : CStr} {max : Nat}
    (h : next_component s max = some (comp, cur)) : scopy comp max = comp := by
  unfold next_component at h
  simp only [Option.ite_none_left_eq_some, Option.some.injEq, Prod.mk.injEq] at h
  obtain ⟨_, rfl, _⟩ := h
  exact scopy_scopy _ _

lemma scopy_components : ∀ r ∈ components n s, scopy r.1 RAMFS_MAX_NAME = r.1 := by
  induction n generalizing s with
  | zero => simp [components]
  | succ n ih =>
    unfold components
    split
    · simp
    rename_i comp cur hnext
    intro r hr
    rcases mem_cons.mp hr with rfl | hr
    · exact scopy_next_component hnext
    · exact ih r hr

lemma scopy_path_rounds (path : CStr) :
    ∀ r ∈ path_rounds path, scopy r.1 RAMFS_MAX_NAME = r.1 := scopy_components

/-- The child found under a name, and the names of all children when none is. -/
lemma Good.find_child_cases (h : Good m kids) (d : Nat) (name : CStr) :
    (find_child m d name = some none ∧ ∀ c ∈ kids d, seq_ci (m.nodes c).name name = false) ∨
      ∃ c ∈ kids d, find_child m d name = some (some c) ∧ seq_ci (m.nodes c).name name = true := by
  rw [h.find_child_eq]
  cases hfind : (kids d).find? fun c => seq_ci (m.nodes c).name name with
  | none =>
    refine .inl ⟨rfl, ?_⟩
    intro c hc
    simpa using find?_eq_none.mp hfind c hc
  | some c => exact .inr ⟨c, mem_of_find?_eq_some hfind, rfl, (find?_some hfind :)⟩

lemma Good.resolves (h : Good m kids) (hd : Live m d) :
    ∃ r, resolve_from m d rounds = some r ∧ ∀ x, r = some x → Live m x := by
  induction rounds generalizing d with
  | nil => exact ⟨some d, rfl, fun x hx => Option.some.inj hx ▸ hd⟩
  | cons r rounds ih =>
    obtain ⟨comp, cur⟩ := r
    rcases h.find_child_cases d comp with ⟨hnone, _⟩ | ⟨c, hc, hsome, _⟩
    · exact ⟨none, by simp [resolve_from, hnone], by simp⟩
    · obtain ⟨r, hr, hlive⟩ := ih ((h.tree.member d c).mp hc).1
      exact ⟨r, by simp [resolve_from, hsome, hr], hlive⟩

lemma valid_vol_some (h : valid_vol m vol = some v) : ∃ i, (m.vols i).valid ∧ m.vols i = v := by
  unfold valid_vol at h
  split at h
  · cases h
  rename_i i
  split at h
  · rename_i hv
    exact ⟨i, hv, Option.some.inj h⟩
  · cases h

section

variable (h : Good m kids)

include h

lemma Good.root_dir (hv : valid_vol m vol = some v) : (m.nodes v.root).type = .dir := by
  obtain ⟨i, hi, rfl⟩ := valid_vol_some hv
  exact (h.tree.vols i hi).1

lemma Good.path_resolves (vol : Option Nat) (path : CStr) :
    ∃ r, ramfs_resolve m vol path = some r ∧ ∀ x, r = some x → Live m x := by
  unfold ramfs_resolve
  cases hv : valid_vol m vol with
  | none => exact ⟨none, rfl, by simp⟩
  | some v => exact h.resolves (live_of_dir (h.root_dir hv))

/-- The walk to a parent directory ends at a directory, with a name that fits. -/
lemma Good.walks_to_parent (rounds : List (CStr × CStr)) (hd : (m.nodes d).type = .dir)
    (hlast : scopy last RAMFS_MAX_NAME = last) : ∃ r, parent_walk m d last rounds = some r ∧
      ∀ e l, r = some (e, l) → (m.nodes e).type = .dir ∧ scopy l RAMFS_MAX_NAME = l := by
  induction rounds generalizing d last with
  | nil =>
    refine ⟨some (d, last), rfl, ?_⟩
    rintro _ _ ⟨⟩
    exact ⟨hd, hlast⟩
  | cons r rounds ih =>
    obtain ⟨comp, cur⟩ := r
    have hcomp := scopy_scopy comp RAMFS_MAX_NAME
    by_cases hcur : cur = []
    · obtain ⟨r, hr, hres⟩ := ih hd hcomp
      exact ⟨r, by simp [parent_walk, hcur, hr], hres⟩
    rcases h.find_child_cases d comp with ⟨hnone, _⟩ | ⟨c, _, hsome, _⟩
    · exact ⟨none, by simp [parent_walk, hcur, hnone], by simp⟩
    by_cases hdir : (m.nodes c).type = .dir
    · obtain ⟨r, hr, hres⟩ := ih hdir hcomp
      exact ⟨r, by simp [parent_walk, hcur, hsome, hdir, hr], hres⟩
    · exact ⟨none, by simp [parent_walk, hcur, hsome, hdir], by simp⟩

lemma Good.through_empty_dir (hd : kids d = []) : through_dirs m d rounds = true := by
  induction rounds with
  | nil => rfl
  | cons r rounds ih =>
    obtain ⟨comp, cur⟩ := r
    unfold through_dirs
    split
    · exact ih
    · have hnone : find_child m d comp = some none := by simp [h.find_child_eq, hd]
      simp [hnone]

lemma Good.walks_making_dirs (now : Nat)
    (hd : (m.nodes d).type = .dir) (hlast : scopy last RAMFS_MAX_NAME = last)
    (hrounds : ∀ r ∈ rounds, scopy r.1 RAMFS_MAX_NAME = r.1)
    (hdirs : through_dirs m d rounds = true) :
    ∃ m' r kids', mkdir_walk now m d last rounds = some (m', r) ∧ Good m' kids' ∧
      ∀ e l, r = some (e, l) → (m'.nodes e).type = .dir ∧ scopy l RAMFS_MAX_NAME = l := by
  induction rounds generalizing m kids d last with
  | nil =>
    refine ⟨m, some (d, last), kids, rfl, h, ?_⟩
    rintro _ _ ⟨⟩
    exact ⟨hd, hlast⟩
  | cons r rounds ih =>
    obtain ⟨comp, cur⟩ := r
    have hcomp := scopy_scopy comp RAMFS_MAX_NAME
    have hfit : scopy comp RAMFS_MAX_NAME = comp := hrounds (comp, cur) (by simp)
    have hrest : ∀ r ∈ rounds, scopy r.1 RAMFS_MAX_NAME = r.1 :=
      fun r hr => hrounds r (by simp [hr])
    unfold mkdir_walk
    unfold through_dirs at hdirs
    by_cases hcur : cur = []
    · simp only [hcur, if_true] at hdirs ⊢
      exact ih h hd hcomp hrest hdirs
    simp only [hcur, if_false] at hdirs ⊢
    rcases h.find_child_cases d comp with ⟨hnone, hfree⟩ | ⟨c, _, hsome, _⟩
    · simp only [hnone]
      cases halloc : alloc_node m with
      | none => exact ⟨m, none, kids, rfl, h, by simp⟩
      | some r =>
        obtain ⟨child, m1⟩ := r
        obtain ⟨hb, hx, rfl⟩ := alloc_node_some halloc
        obtain ⟨m2, hadd, hgood, htype, _⟩ :=
          h.add now hx hb hd (show NodeType.dir ≠ .free by decide) (hfit ▸ hfree)
        have hempty : update kids d (kids d ++ [child]) child = [] := by
          have hcd : child ≠ d := by
            rintro rfl
            exact hx (live_of_dir hd)
          rw [update_of_ne hcd]
          exact h.tree.kids_of_not_dir fun hdir => hx (live_of_dir hdir)
        simp only [hadd]
        exact ih hgood htype hcomp hrest (hgood.through_empty_dir hempty)
    · simp only [hsome, Bool.and_eq_true, decide_eq_true_eq] at hdirs ⊢
      exact ih h hdirs.1 hcomp hrest hdirs.2

end

/-! ## The calls -/

/-- The state stands as it must, with some child lists. -/
def Sound (m : RamFs) : Prop := ∃ kids, Good m kids

lemma boot_sound : Sound boot := by
  have hnot : ∀ x, ¬ Live boot x := fun x hx => hx rfl
  refine ⟨fun _ => [], fun _ => rfl, ?_, [], ⟨[], ?_, List.Perm.refl _⟩, ?_⟩
  · constructor
    · intro d x
      simp [hnot]
    · simp
    · exact fun x hx => absurd hx (hnot x)
    · exact fun x hx => absurd hx (hnot x)
    · exact fun x hx => absurd hx (hnot x)
    · intro i hi
      cases hi
    · simp
  · exact ⟨rfl, by simp, by simp, rfl, List.IsChain.nil, by simp, rfl, Nat.zero_le _⟩
  · intro x b hb
    cases hb

lemma Good.set_vol (h : Good m kids)
    (hold : (m.vols i).valid → v.valid ∧ v.root = (m.vols i).root)
    (hnew : v.valid → (m.nodes v.root).type = .dir ∧ m.parent v.root = none) :
    Good { m with vols := update m.vols i v } kids := by
  refine ⟨h.lists, ⟨h.tree.member, h.tree.dirs, h.tree.bound, h.tree.rooted, ?_, ?_, h.tree.names⟩,
    h.data⟩
  · intro x hx hnone
    obtain ⟨j, hj, rfl⟩ := h.tree.roots x hx hnone
    by_cases hji : j = i
    · subst hji
      exact ⟨j, by simp [hold hj]⟩
    · exact ⟨j, by simp [hji, hj]⟩
  · intro j hj
    by_cases hji : j = i
    · subst hji
      simp only [update_self] at hj ⊢
      exact hnew hj
    · simp only [update_of_ne hji] at hj ⊢
      exact h.tree.vols j hj

lemma Sound.set_read_only (h : Sound m) (vol : Option Nat) (ro : Bool) :
    Sound (ramfs_set_read_only m vol ro) := by
  obtain ⟨kids, h⟩ := h
  unfold ramfs_set_read_only
  split
  · exact ⟨kids, h⟩
  split
  · rename_i i hi
    exact ⟨kids, h.set_vol (fun _ => ⟨hi, rfl⟩) (fun _ => h.tree.vols i hi)⟩
  · exact ⟨kids, h⟩

lemma Sound.mkdir (h : Sound m) (vol : Option Nat) (path : CStr) (now : Nat)
    (hdirs : ∀ v, valid_vol m vol = some v → through_dirs m v.root (path_rounds path) = true) :
    ∃ t, ramfs_mkdir m vol path now = some t ∧ Sound t.1 := by
  obtain ⟨kids, h⟩ := h
  unfold ramfs_mkdir
  cases hv : valid_vol m vol with
  | none => exact ⟨_, rfl, kids, h⟩
  | some v =>
    by_cases hro : v.read_only = true
    · exact ⟨(m, none), by simp [hro], kids, h⟩
    obtain ⟨m1, r, kids1, hwalk, h1, hr⟩ :=
      h.walks_making_dirs now (h.root_dir hv) scopy_nil (scopy_path_rounds path) (hdirs v hv)
    simp only [hro, Bool.false_eq_true, if_false, hwalk]
    cases r with
    | none => exact ⟨_, rfl, kids1, h1⟩
    | some r =>
      obtain ⟨dir, last⟩ := r
      obtain ⟨hdir, hfit⟩ := hr dir last rfl
      by_cases hl : last = []
      · exact ⟨(m1, none), by simp [hl], kids1, h1⟩
      simp only [hl, if_false]
      rcases h1.find_child_cases dir last with ⟨hnone, hfree⟩ | ⟨c, _, hsome, _⟩
      · simp only [hnone]
        cases halloc : alloc_node m1 with
        | none => exact ⟨_, rfl, kids1, h1⟩
        | some r =>
          obtain ⟨node, m2⟩ := r
          obtain ⟨hb, hx, rfl⟩ := alloc_node_some halloc
          obtain ⟨m3, hadd, h3, _⟩ :=
            h1.add now hx hb hdir (show NodeType.dir ≠ .free by decide) (hfit ▸ hfree)
          exact ⟨(m3, some node), by simp [hadd], _, h3⟩
      · exact ⟨(m1, some c), by simp [hsome], kids1, h1⟩

/-- The file `x`, with another size and time. -/
lemma Good.truncate (h : Good m kids) (size now : Nat) :
    Good (m.set x fun n => { n with size := size, mtime := now }) kids := by
  have hs : SameInfo m (m.set x fun n => { n with size := size, mtime := now }) :=
    sameInfo_set fun _ => rfl
  refine ⟨h.lists.set_info fun _ => ⟨rfl, rfl⟩, h.tree.congr hs, ?_⟩
  rw [hs.owner, hs.pool]
  exact h.data

lemma Sound.create (h : Sound m) (vol : Option Nat) (path : CStr) (now : Nat) :
    ∃ t, ramfs_create m vol path now = some t ∧ Sound t.1 := by
  obtain ⟨kids, h⟩ := h
  unfold ramfs_create
  cases hv : valid_vol m vol with
  | none => exact ⟨_, rfl, kids, h⟩
  | some v =>
    by_cases hro : v.read_only = true
    · exact ⟨(m, none), by simp [hro], kids, h⟩
    obtain ⟨r, hwalk, hr⟩ := h.walks_to_parent (path_rounds path) (h.root_dir hv) scopy_nil
    simp only [hro, Bool.false_eq_true, if_false, hwalk]
    cases r with
    | none => exact ⟨_, rfl, kids, h⟩
    | some r =>
      obtain ⟨dir, last⟩ := r
      obtain ⟨hdir, hfit⟩ := hr dir last rfl
      by_cases hl : last = []
      · exact ⟨(m, none), by simp [hl], kids, h⟩
      simp only [hl, if_false]
      rcases h.find_child_cases dir last with ⟨hnone, hfree⟩ | ⟨c, _, hsome, _⟩
      · simp only [hnone]
        cases halloc : alloc_node m with
        | none => exact ⟨_, rfl, kids, h⟩
        | some r =>
          obtain ⟨node, m2⟩ := r
          obtain ⟨hb, hx, rfl⟩ := alloc_node_some halloc
          obtain ⟨m3, hadd, h3, _⟩ :=
            h.add now hx hb hdir (show NodeType.file ≠ .free by decide) (hfit ▸ hfree)
          exact ⟨(m3, some node), by simp [hadd], _, h3⟩
      · simp only [hsome]
        by_cases hfile : (m.nodes c).type = .file
        · simp only [hfile, if_true]
          exact ⟨_, rfl, kids, h.truncate 0 now⟩
        · exact ⟨(m, none), by simp [hfile], kids, h⟩

/-- A live node that passes the checks of a removal has no children. -/
lemma Good.leaf (h : Good m kids)
    (hx : ¬ ((m.nodes x).type = .dir ∧ (m.nodes x).first_child.isSome)) :
    kids x = [] := by
  by_cases hdir : (m.nodes x).type = .dir
  · have hpath := h.lists x
    have hnone : (m.nodes x).first_child = none := by simpa [hdir] using hx
    cases hk : kids x with
    | nil => rfl
    | cons c cs =>
      rw [hk, RamFs.first, hnone] at hpath
      cases hpath.1
  · exact h.tree.kids_of_not_dir hdir

lemma Good.member_of_parent (h : Good m kids) (hx : Live m x) (hp : (m.nodes x).parent ≠ none) :
    ∃ d, x ∈ kids d := by
  obtain ⟨d, hd⟩ := Option.ne_none_iff_exists'.mp hp
  exact ⟨d, (h.tree.member d x).mpr ⟨hx, hd⟩⟩

lemma Sound.delete (h : Sound m) (vol : Option Nat) (path : CStr) :
    ∃ t, ramfs_delete m vol path = some t ∧ Sound t.1 := by
  obtain ⟨kids, h⟩ := h
  unfold ramfs_delete
  split
  · exact ⟨_, rfl, kids, h⟩
  obtain ⟨r, hres, hlive⟩ := h.path_resolves vol path
  rw [hres]
  cases r with
  | none => exact ⟨_, rfl, kids, h⟩
  | some x =>
    dsimp only
    split
    · exact ⟨_, rfl, kids, h⟩
    rename_i hleaf
    split
    · exact ⟨_, rfl, kids, h⟩
    rename_i hparent
    split
    · exact ⟨_, rfl, kids, h⟩
    obtain ⟨d, hd⟩ := h.member_of_parent (hlive x rfl) hparent
    obtain ⟨m1, hdrop, hgood⟩ := h.drop hd (h.leaf hleaf)
    rw [hdrop]
    exact ⟨_, rfl, _, (hgood Node.deleted fun _ => ⟨rfl, rfl⟩).1⟩

/-- What a plan to move says about the state that it was made in. -/
structure Plan (m : RamFs) (kids : Nat → List Nat) (src dst : Nat) (last : CStr)
    (existing : Option Nat) : Prop where
  moved : Live m src ∧ (m.nodes src).parent ≠ none
  dest : (m.nodes dst).type = .dir
  fit : scopy last RAMFS_MAX_NAME = last
  old : ∀ e, existing = some e → e ∈ kids dst ∧ e ≠ src ∧ kids e = []
  names : ∀ c ∈ kids dst, existing ≠ some c → seq_ci (m.nodes c).name last = false

lemma Good.plan (h : Good m kids) (vol : Option Nat) (old_path new_path : CStr) :
    ∃ plan, rename_plan m vol old_path new_path = some plan ∧
      ∀ src dst last existing, plan = .move src dst last existing →
        Plan m kids src dst last existing := by
  unfold rename_plan
  cases hv : valid_vol m vol with
  | none => exact ⟨_, rfl, by simp⟩
  | some v =>
    dsimp only
    split
    · exact ⟨_, rfl, by simp⟩
    obtain ⟨r, hres, hlive⟩ := h.path_resolves vol old_path
    rw [hres]
    cases r with
    | none => exact ⟨_, rfl, by simp⟩
    | some src =>
      dsimp only
      split
      · exact ⟨_, rfl, by simp⟩
      rename_i hparent
      split
      · exact ⟨_, rfl, by simp⟩
      obtain ⟨r, hwalk, hr⟩ := h.walks_to_parent (path_rounds new_path) (h.root_dir hv) scopy_nil
      rw [hwalk]
      cases r with
      | none => exact ⟨_, rfl, by simp⟩
      | some r =>
        obtain ⟨dst, last⟩ := r
        obtain ⟨hdst, hfit⟩ := hr dst last rfl
        dsimp only
        split
        · exact ⟨_, rfl, by simp⟩
        rcases h.find_child_cases dst last with ⟨hnone, hfree⟩ | ⟨e, he, hsome, hmatch⟩
        · rw [hnone]
          refine ⟨_, rfl, ?_⟩
          rintro _ _ _ _ ⟨rfl, rfl, rfl, rfl⟩
          exact ⟨⟨hlive src rfl, hparent⟩, hdst, hfit, by simp, fun c hc _ => hfree c hc⟩
        rw [hsome]
        dsimp only
        split
        · exact ⟨_, rfl, by simp⟩
        rename_i hne
        split
        · exact ⟨_, rfl, by simp⟩
        rename_i hleaf
        split
        · exact ⟨_, rfl, by simp⟩
        refine ⟨_, rfl, ?_⟩
        rintro _ _ _ _ ⟨rfl, rfl, rfl, rfl⟩
        refine ⟨⟨hlive src rfl, hparent⟩, hdst, hfit, ?_, ?_⟩
        · rintro _ ⟨rfl⟩
          exact ⟨he, hne, h.leaf hleaf⟩
        -- two children with the name would have each other's name
        intro c hc hce
        have hdiff := h.tree.names dst c hc e he (fun hx => hce (hx ▸ rfl))
        rw [Bool.eq_false_iff, ne_eq, seq_ci_iff] at hdiff ⊢
        rw [seq_ci_iff] at hmatch
        exact fun hc' => hdiff (hc'.trans hmatch.symm)

/-- The source and what stands above the destination, once the node that stood
there is gone. -/
lemma Good.clears {src dst : Nat} {existing : Option Nat}
    (h : Good m kids) (hplan : Plan m kids src dst last existing)
    (hout : ¬ Above m.parent dst src) :
    ∃ m1 kids1, remove_existing m existing = some m1 ∧ Good m1 kids1 ∧
      (∃ d, src ∈ kids1 d) ∧ (m1.nodes dst).type = .dir ∧ ¬ Above m1.parent dst src ∧
      ∀ c ∈ kids1 dst, seq_ci (m1.nodes c).name last = false := by
  obtain ⟨d, hd⟩ := h.member_of_parent hplan.moved.1 hplan.moved.2
  cases existing with
  | none =>
    exact ⟨m, kids, rfl, h, ⟨d, hd⟩, hplan.dest, hout, fun c hc => hplan.names c hc (by simp)⟩
  | some e =>
    obtain ⟨he, hne, hleaf⟩ := hplan.old e rfl
    obtain ⟨m1, hdrop, hgood⟩ := h.drop he hleaf
    obtain ⟨h1, hbut⟩ := hgood Node.replaced fun _ => ⟨rfl, rfl⟩
    have hmem := mem_update_erase (h.lists.nodup dst) h.tree.apart he
    have hdst : dst ≠ e := by
      rintro rfl
      rw [hleaf] at he
      cases he
    refine ⟨m1.set e Node.replaced, _, by simp [remove_existing, hdrop], h1, ⟨d, ?_⟩, ?_, ?_, ?_⟩
    · exact (hmem d src).mpr ⟨Ne.symm hne, hd⟩
    · rw [hbut.type hdst]
      exact hplan.dest
    · -- the links that are left are links of the old state
      intro hab
      refine hout (hab.mono ?_)
      intro a b hlink
      have hae : a ≠ e := by
        rintro rfl
        simp [RamFs.parent, Node.replaced] at hlink
      rwa [hbut.parent hae] at hlink
    · intro c hc
      obtain ⟨hce, hc⟩ := (hmem dst c).mp hc
      rw [hbut.name hce]
      exact hplan.names c hc (by simpa using Ne.symm hce)

lemma Sound.rename (h : Sound m) (vol : Option Nat) (old_path new_path : CStr)
    (hout : ∀ src dst last existing,
      rename_plan m vol old_path new_path = some (.move src dst last existing) →
        ¬ Above m.parent dst src) :
    ∃ t, ramfs_rename m vol old_path new_path = some t ∧ Sound t.1 := by
  obtain ⟨kids, h⟩ := h
  obtain ⟨plan, hplan, hmove⟩ := h.plan vol old_path new_path
  unfold ramfs_rename
  rw [hplan]
  cases plan with
  | done rc => exact ⟨_, rfl, kids, h⟩
  | move src dst last existing =>
    have hp := hmove src dst last existing rfl
    obtain ⟨m1, kids1, hremove, h1, ⟨d, hd⟩, hdst, hout1, hnames⟩ :=
      h.clears hp (hout src dst last existing hplan)
    obtain ⟨m2, kids2, hcall, h2⟩ := h1.rename_node hd hdst hout1 (fun c hc _ => hnames c hc)
    simp only [hremove, hcall, Option.map_some]
    rw [hp.fit]
    exact ⟨_, rfl, kids2, h2⟩

/-- A claimed node, set up as the root of a new volume. -/
lemma Good.plant {n : Node} (h : Good m kids) (hx : ¬ Live m x)
    (hb : x < RAMFS_MAX_NODES) (hi : (m.vols i).valid = false)
    (hn : n.type = .dir ∧ n.parent = none ∧ n.first_child = none ∧ n.data = none)
    (hv : v.valid = true ∧ v.root = x) :
    Good { m.set x (fun _ => n) with vols := update m.vols i v } kids := by
  obtain ⟨htype, hparent, hfirst, hdata⟩ := hn
  obtain ⟨hvalid, rfl⟩ := hv
  have hleaf : kids v.root = [] := h.tree.kids_of_not_dir fun hd => hx (live_of_dir hd)
  have hnew := h.tree.not_mem_of_not_live hx
  have hbut : SameBut v.root m (m.set v.root fun _ => n) := sameBut_set _
  have hself : (m.set v.root fun _ => n).parent v.root = none := by simp [RamFs.parent, hparent]
  have hne : ∀ {y d}, y ∈ kids d → y ≠ v.root := fun hy he => hnew _ (he ▸ hy)
  have hl : Linked (m.set v.root fun _ => n) kids := h.lists.set_outside hnew hleaf hfirst
  refine ⟨hl, ⟨?_, ?_, ?_, ?_, ?_, ?_, ?_⟩, ?_⟩
  · intro d y
    by_cases hy : y = v.root
    · subst hy
      refine ⟨fun hm => absurd hm (hnew d), ?_⟩
      rintro ⟨_, hp⟩
      cases hself.symm.trans hp
    · exact (h.tree.member d y).trans (and_congr (hbut.live hy).symm (by
        rw [← hbut.parent hy]
        rfl))
  · intro d hd
    have hdx : d ≠ v.root := by
      rintro rfl
      exact hd hleaf
    exact (hbut.type hdx).trans (h.tree.dirs d hd)
  · intro y hy
    by_cases hyx : y = v.root
    · exact hyx ▸ hb
    · exact h.tree.bound y ((hbut.live hyx).mp hy)
  · intro y hy
    by_cases hyx : y = v.root
    · subst hyx
      exact rooted_of_none hself
    have hy' := (hbut.live hyx).mp hy
    refine (h.tree.rooted y hy').congr ?_
    intro z hz
    refine hbut.parent ?_
    rintro rfl
    exact hx (h.tree.live_above hy' hz)
  · intro y hy hp
    by_cases hyx : y = v.root
    · exact ⟨i, by simp [hvalid, hyx]⟩
    obtain ⟨j, hj, hroot⟩ :=
      h.tree.roots y ((hbut.live hyx).mp hy) ((hbut.parent hyx).symm.trans hp)
    have hji : j ≠ i := by
      rintro rfl
      rw [hi] at hj
      cases hj
    exact ⟨j, by simp [hji, hj, hroot]⟩
  · intro j hj
    by_cases hji : j = i
    · subst hji
      simp only [update_self]
      exact ⟨by simp [htype], hself⟩
    · simp only [update_of_ne hji] at hj ⊢
      have hjx : (m.vols j).root ≠ v.root := fun he => hx (he ▸ h.tree.root_live hj)
      exact ⟨(hbut.type hjx).trans (h.tree.vols j hj).1,
        (hbut.parent hjx).trans (h.tree.vols j hj).2⟩
  · intro d y hy z hz hyz
    have hny := hbut.name (hne hy)
    have hnz := hbut.name (hne hz)
    rw [hny, hnz]
    exact h.tree.names d y hy z hz hyz
  · have hown : owner (m.set v.root fun _ => n) = owner m := by
      rw [hbut.owner]
      have h1 : owner (m.set v.root fun _ => n) v.root = none := by simp [owner, hdata]
      have h2 : owner m v.root = none := if_pos (not_not.mp hx)
      rw [h1, ← h2, update_eq_self]
    show Owned m.pool (owner (m.set v.root fun _ => n))
    rw [hown]
    exact h.data

lemma Sound.mount (h : Sound m) (name : CStr) : Sound (ramfs_mount_vol m name).1 := by
  obtain ⟨kids, h⟩ := h
  unfold ramfs_mount_vol
  split
  · exact ⟨kids, h⟩
  rename_i i hfind
  have hi : (m.vols i).valid = false := by
    simpa using (find?_range'_eq_some.mp hfind).1
  have h1 : Good
      { m with vols := update m.vols i { m.vols i with name := scopy name 16 } } kids :=
    h.set_vol (fun hv => by simp [hi] at hv) (fun hv => by simp [hi] at hv)
  dsimp only
  split
  · exact ⟨kids, h1⟩
  rename_i root m1 halloc
  obtain ⟨hb, hx, rfl⟩ := alloc_node_some halloc
  have hset : ∀ (m : RamFs) (f : Node → Node),
      (m.set root fun _ => claimed_node).set root f = m.set root fun _ => f claimed_node := by
    intro m f
    simp [RamFs.set]
  rw [hset]
  refine ⟨kids, h1.plant hx hb ?_ ⟨rfl, rfl, rfl, rfl⟩ ⟨rfl, rfl⟩⟩
  simp [hi]

/-! ## The forest along every run -/

/-- The node and all that stand above it, by its parent links. -/
def ancestors (m : RamFs) : Nat → Option Nat → List Nat
  | 0, _ => []
  | _ + 1, none => []
  | fuel + 1, some x => x :: ancestors m fuel (m.nodes x).parent

lemma ancestors_eq {l : List Nat} {fuel : Nat} {a : Option Nat}
    (h : Path some m.parent a l none) (hfuel : l.length < fuel) : ancestors m fuel a = l := by
  induction l generalizing a fuel with
  | nil =>
    obtain ⟨fuel, rfl⟩ := one_more hfuel
    obtain rfl : a = none := h
    rfl
  | cons x l ih =>
    obtain ⟨fuel, rfl⟩ := one_more hfuel
    obtain ⟨rfl, hrest⟩ := h
    exact congrArg (x :: ·) (ih hrest (by simpa using hfuel))

lemma Good.mem_ancestors (h : Good m kids) (hx : Live m x) {y : Nat} (hxy : Above m.parent x y) :
    y ∈ ancestors m NODE_FUEL (some x) := by
  obtain ⟨l, hl⟩ := (h.tree.rooted x hx).line
  have hnd := hl.nodup (Option.some_injective _) (fun _ _ => Option.some_ne_none _)
  have hsub : l ⊆ List.range RAMFS_MAX_NODES := by
    intro z hz
    have hlive := h.tree.live_above hx ((mem_line_iff hl).mp hz)
    exact mem_range.mpr (h.tree.bound z hlive)
  have hlen : l.length ≤ RAMFS_MAX_NODES := by
    simpa using (subperm_of_subset hnd hsub).length_le
  have hfuel : l.length < NODE_FUEL := Nat.lt_succ_of_le hlen
  rw [ancestors_eq hl hfuel]
  exact (mem_line_iff hl).mpr hxy

/-- The calls that change the tree. -/
inductive TreeOp where
  | mount (name : CStr)
  | set_read_only (vol : Option Nat) (ro : Bool)
  | mkdir (vol : Option Nat) (path : CStr) (now : Nat)
  | create (vol : Option Nat) (path : CStr) (now : Nat)
  | delete (vol : Option Nat) (path : CStr)
  | rename (vol : Option Nat) (old_path new_path : CStr)

def tree_step (m : RamFs) : TreeOp → Option RamFs
  | .mount name => some (ramfs_mount_vol m name).1
  | .set_read_only vol ro => some (ramfs_set_read_only m vol ro)
  | .mkdir vol path now => (ramfs_mkdir m vol path now).map Prod.fst
  | .create vol path now => (ramfs_create m vol path now).map Prod.fst
  | .delete vol path => (ramfs_delete m vol path).map Prod.fst
  | .rename vol old_path new_path => (ramfs_rename m vol old_path new_path).map Prod.fst

/-- The call makes no directory below a file, and moves no node below itself. -/
def keeps_tree (m : RamFs) : TreeOp → Bool
  | .mkdir vol path _ =>
    match valid_vol m vol with
    | none => true
    | some v => through_dirs m v.root (path_rounds path)
  | .rename vol old_path new_path =>
    match rename_plan m vol old_path new_path with
    | some (.move src dst_dir _ _) => src ∉ ancestors m NODE_FUEL (some dst_dir)
    | _ => true
  | _ => true

/-- The node graph is a forest, and `kids` are its child lists. -/
structure Forest (m : RamFs) (kids : Nat → List Nat) : Prop where
  lists : ∀ d, Path some m.next (m.first d) (kids d) none
  member : ∀ d x, x ∈ kids d ↔ Live m x ∧ m.parent x = some d
  only_dirs : ∀ d, kids d ≠ [] → (m.nodes d).type = .dir
  reaches : ∀ x, Live m x → ∃ i, (m.vols i).valid ∧ Above m.parent x (m.vols i).root
  names : ∀ d, (kids d).Pairwise fun x y =>
    (m.nodes x).name.map lower ≠ (m.nodes y).name.map lower

lemma Good.forest (h : Good m kids) : Forest m kids := by
  refine ⟨h.lists, h.tree.member, h.tree.dirs, fun x hx => h.tree.reaches_root hx, ?_⟩
  intro d
  refine (h.lists.nodup d).imp_of_mem ?_
  intro x y hx hy hxy heq
  have hdiff := h.tree.names d x hx y hy hxy
  rw [(seq_ci_iff _ _).mpr heq] at hdiff
  cases hdiff

lemma tree_step_sound (m : RamFs) (op : TreeOp) (h : Sound m) (hok : keeps_tree m op = true) :
    ∃ t, tree_step m op = some t ∧ Sound t := by
  have hmap : ∀ {α : Type} {r : Option (RamFs × α)}, (∃ t, r = some t ∧ Sound t.1) →
      ∃ t, r.map Prod.fst = some t ∧ Sound t := by
    rintro α r ⟨t, rfl, ht⟩
    exact ⟨t.1, rfl, ht⟩
  cases op with
  | mount name => exact ⟨_, rfl, h.mount name⟩
  | set_read_only vol ro => exact ⟨_, rfl, h.set_read_only vol ro⟩
  | mkdir vol path now =>
    refine hmap (h.mkdir vol path now ?_)
    intro v hv
    simpa only [keeps_tree, hv] using hok
  | create vol path now => exact hmap (h.create vol path now)
  | delete vol path => exact hmap (h.delete vol path)
  | rename vol old_path new_path =>
    refine hmap (h.rename vol old_path new_path ?_)
    intro src dst last existing hplan hab
    simp only [keeps_tree, hplan, decide_eq_true_eq] at hok
    obtain ⟨kids, h⟩ := h
    obtain ⟨plan, hplan', hmove⟩ := h.plan vol old_path new_path
    obtain rfl := Option.some.inj (hplan'.symm.trans hplan)
    have hdst := (hmove src dst last existing rfl).dest
    exact hok (h.mem_ancestors (live_of_dir hdst) hab)

/-- Along every run that keeps to the tree the calls return and the nodes stay a
forest: each live node is in the child list of its parent and in no other, only
directories have children, the parent links end at a volume root, and the names
in a directory differ in more than case. -/
theorem nodes_stay_a_forest (m : RamFs) (ops : List TreeOp) (h : Sound m)
    (hok : RunOk tree_step (fun m op => keeps_tree m op = true) m ops) :
    ∃ t kids, run tree_step m ops = some t ∧ Forest t kids := by
  obtain ⟨t, hrun, kids, ht⟩ := run_invariant tree_step_sound h hok
  exact ⟨t, kids, hrun, ht.forest⟩

/-- A directory, a file moved into it under another name, and the file deleted. -/
theorem forest_after_a_move :
    ∃ t kids, run tree_step boot [.mount [82], .mkdir (some 0) [97] 1, .create (some 0) [98] 2,
      .rename (some 0) [98] [97, 47, 99], .delete (some 0) [97, 47, 99]] = some t ∧ Forest t kids :=
  nodes_stay_a_forest boot _ boot_sound (by decide)

/-- The directory `a` renamed to `a/b` becomes its own parent, and the directory
`f/d` made below the file `f` is a child of the file. -/
theorem the_tree_breaks : (∃ t, run tree_step boot [.mount [82], .mkdir (some 0) [97] 1,
        .rename (some 0) [97] [97, 47, 98]] = some t ∧ ∀ kids, ¬ Forest t kids) ∧
      ∃ t, run tree_step boot [.mount [82], .create (some 0) [102] 1,
        .mkdir (some 0) [102, 47, 100] 2] = some t ∧ ∀ kids, ¬ Forest t kids := by
  refine ⟨⟨_, rfl, ?_⟩, _, rfl, ?_⟩
  · intro kids h
    obtain ⟨i, hi, hab⟩ := h.reaches 1 (by decide)
    have hroot := hab.of_self (by decide)
    rcases i with _ | i
    · revert hroot
      decide
    · cases hi
  · intro kids h
    have hmem := (h.member 1 2).mpr (by decide)
    have hdir := h.only_dirs 1 (ne_nil_of_mem hmem)
    revert hdir
    decide

end uaos.ramfs
