-- A load, phase by phase: what the loader stores is in blocks that it was given, and the blocks
-- of the hunks keep their size words until the program starts.
import Uaos.HunkMem

namespace uaos.hunk

open List

open guest chain

/-- The size of the block of a hunk, with its segment header. -/
def Hunk.size (h : Hunk) : Nat := u32 (h.bytes + 8)

def Hunk.block (h : Hunk) : Block := ⟨h.blk, h.size⟩

def Alloc.hunks : Alloc → List Hunk
  | .done _ hs _ => hs
  | .failed hs _ => hs

def Alloc.load : Alloc → Load
  | .done _ _ l => l
  | .failed _ l => l

/-- A load whose stores are all in memory that the loader was given. -/
structure Work (s : Sys) (bs : List Block) (l : Load) : Prop where
  placed : Placed l.sys (bs ++ others s)
  calm : Calm (others s) s l.sys
  inside : ∀ st ∈ l.log, st.inside = true

variable {e : Env} {f : Image} {s t : Sys} {bs : List Block} {b : Block} {l l' : Load} {ram : Buf}
  {st : Store} {hs : List Hunk} {h : Hunk} {a n i p j addr val blk : Nat}

/-! ## Stores -/

@[simp] lemma store_ram : (l.store ram st).ram = ram := congrArg Window.ram here_set_win

lemma write_ram : (l.write addr val blk n).ram = guest_write_be32 l.ram addr val := store_ram

lemma Work.start (h : Fresh s) : Work s [] ⟨s, []⟩ :=
  ⟨h.placed, Calm.refl, fun _ hst => absurd hst not_mem_nil⟩

lemma Work.bounds (h : Work s bs l) (hb : b ∈ bs) : 0x20000 ≤ b.addr ∧ b.stop ≤ 0xFF0000 := by
  obtain ⟨H, -, hhome⟩ := h.placed.home
  exact (hhome b (mem_append_left _ hb)).bounds

/-- A store into a block that the loader was given. -/
lemma Work.store (h : Work s bs l) (hb : b ∈ bs) (hlow : b.addr ≤ st.addr)
    (hhigh : st.addr + st.len ≤ b.stop) (hin : st.inside = true)
    (hram : ∀ j, j < st.addr ∨ st.addr + st.len ≤ j → ram j = l.ram j) :
    Work s bs (l.store ram st) := by
  have hb' : b ∈ bs ++ others s := mem_append_left _ hb
  have hout : ∀ j, j < b.addr ∨ b.stop ≤ j → ram j = l.sys.here.ram j :=
    fun j hj => hram j (by omega)
  refine ⟨h.placed.store hb' hout, h.calm.trans (h.placed.calm hb' (fun c hc => ?_) hout), ?_⟩
  · exact ((pairwise_append.mp h.placed.apart).2.2 b hb c hc).symm
  intro st' hst'
  rcases mem_cons.mp hst' with rfl | hst'
  · exact hin
  · exact h.inside st' hst'

lemma inside_of (hlow : b.addr ≤ addr) (hhigh : addr + n ≤ b.stop) (hb : b.stop ≤ 0xFF0000) :
    Store.inside ⟨addr, n, b.addr, b.addr + b.size⟩ = true := by
  exact decide_eq_true ⟨hlow, hhigh, hb.trans (by decide)⟩

lemma Work.write (h : Work s bs l) (hb : (⟨blk, n⟩ : Block) ∈ bs) (hlow : blk ≤ addr)
    (hhigh : addr + 4 ≤ blk + n) : Work s bs (l.write addr val blk n) :=
  h.store hb hlow hhigh (inside_of (b := ⟨blk, n⟩) hlow hhigh (h.bounds hb).2)
    fun _ h => write_outside h

/-- An allocation in the middle of a load. -/
lemma Work.gives (h : Work s bs l) (hg : Gives (bs ++ others s) l.sys t a n) :
    a = 0 ∧ Work s bs ⟨t, l.log⟩ ∨ a ≠ 0 ∧ Work s (⟨a, n⟩ :: bs) ⟨t, l.log⟩ := by
  obtain ⟨hcalm, hgave⟩ := hg
  have hothers := h.calm.trans (hcalm.mono fun b hb => mem_append_right _ hb)
  rcases hgave with ⟨ha, hp⟩ | ⟨ha, hp, -⟩
  · exact .inl ⟨ha, hp, hothers, h.inside⟩
  · exact .inr ⟨ha, hp, hothers, h.inside⟩

/-! ## The blocks of the hunks -/

def Hunk.Apart (g h : Hunk) : Prop := g.block.Apart h.block

instance : Std.Symm Hunk.Apart := ⟨fun _ _ => Or.symm⟩

/-- The hunks have their blocks, with the size words in them. -/
structure Ready (s : Sys) (hs : List Hunk) (bs : List Block) (l : Load) : Prop where
  work : Work s bs l
  blocks : ∀ h ∈ hs, h.block ∈ bs
  apart : hs.Pairwise Hunk.Apart
  sized : ∀ h ∈ hs, guest_read_be32 l.ram h.blk = h.size

/-- A block of the hunks stays as it is. -/
def Same (h : Hunk) (l l' : Load) : Prop := ∀ j, h.blk ≤ j → j < h.blk + h.size → l'.ram j = l.ram j

lemma Same.sized (hsame : Same h l l') (h4 : 4 ≤ h.size) :
    guest_read_be32 l'.ram h.blk = guest_read_be32 l.ram h.blk :=
  read_congr fun j hj hj' => hsame j hj (by omega)

lemma same_of_calm (hb : h.block ∈ bs) (hcalm : Calm bs l.sys l'.sys) : Same h l l' :=
  fun j hj hj' => hcalm.kept _ hb j hj hj'

/-- A size in the table is a multiple of four. -/
lemma read_size_spec {bytes q : Nat} {fast : Bool} (hr : read_size f p = some (bytes, fast, q)) :
    bytes % 4 = 0 ∧ bytes < 2 ^ 32 := by
  have hb : ∀ w : Nat, u32 (w * 4) % 4 = 0 ∧ u32 (w * 4) < 2 ^ 32 := by
    intro w
    unfold u32
    omega
  simp only [read_size] at hr
  split at hr
  · split at hr
    · split at hr
      · cases hr
        exact hb _
      · cases hr
    · cases hr
      exact hb _
  · cases hr

lemma size_spec {bytes : Nat} (h4 : bytes % 4 = 0) :
    u32 (bytes + 8) % 4 = 0 ∧ u32 (bytes + 8) < 2 ^ 32 := by
  unfold u32
  omega

/-- What one turn of the allocation loop does. -/
lemma alloc_hunks_step {r : Alloc} (hret : alloc_hunks e f (n + 1) i p hs l = some r) :
    r = .failed hs l ∨ ∃ bytes fast q t blk, read_size f p = some (bytes, fast, q) ∧
      hunk_alloc l.sys (u32 (bytes + 8)) fast (e.fails i) = some (t, blk) ∧
      (blk = 0 ∧ r = .failed hs { l with sys := t } ∨
        blk ≠ 0 ∧ alloc_hunks e f n (i + 1) q (hs ++ [⟨blk, bytes⟩])
          (({ l with sys := t } : Load).write blk (u32 (bytes + 8)) blk (u32 (bytes + 8))) =
            some r) := by
  unfold alloc_hunks at hret
  split at hret
  · exact .inl (Option.some.inj hret).symm
  rename_i bytes fast q hread
  simp only at hret
  split at hret
  · cases hret
  rename_i t blk halloc
  refine .inr ⟨bytes, fast, q, t, blk, hread, halloc, ?_⟩
  split at hret
  · rename_i hblk
    exact .inl ⟨hblk, (Option.some.inj hret).symm⟩
  · rename_i hblk
    exact .inr ⟨hblk, hret⟩

/-- The hunks that are there stay there. -/
lemma alloc_hunks_prefix {r : Alloc} (hret : alloc_hunks e f n i p hs l = some r) :
    ∃ new, r.hunks = hs ++ new ∧ ∀ q gs g, r = .done q gs g → new.length = n := by
  induction n generalizing i p hs l with
  | zero =>
    cases hret
    exact ⟨[], (append_nil hs).symm, fun _ _ _ _ => rfl⟩
  | succ n ih =>
    rcases alloc_hunks_step hret with rfl | ⟨bytes, fast, q, t, blk, -, -, ⟨-, rfl⟩ | ⟨-, hrest⟩⟩
    · exact ⟨[], (append_nil hs).symm, fun _ _ _ h => by cases h⟩
    · exact ⟨[], (append_nil hs).symm, fun _ _ _ h => by cases h⟩
    · obtain ⟨new, hnew, hlen⟩ := ih hrest
      refine ⟨⟨blk, bytes⟩ :: new, by rw [hnew, append_assoc]; rfl, fun q gs g hr => ?_⟩
      rw [length_cons, hlen q gs g hr]

/-- The blocks are in place, and cleared behind their size words. -/
lemma Ready.alloc {r : Alloc} (hr : Ready s hs bs l)
    (hzero : ∀ h ∈ hs, ∀ j, h.blk + 4 ≤ j → j < h.blk + h.size → l.ram j = 0)
    (hret : alloc_hunks e f n i p hs l = some r)
    (hfit : ∀ h ∈ r.hunks, 4 ≤ h.size ∧ h.size ≤ GUEST_RAM_SIZE) :
    ∃ bs', Ready s r.hunks bs' r.load ∧
      ∀ h ∈ r.hunks, ∀ j, h.blk + 4 ≤ j → j < h.blk + h.size → r.load.ram j = 0 := by
  induction n generalizing i p hs l bs with
  | zero =>
    cases hret
    exact ⟨bs, hr, hzero⟩
  | succ n ih =>
    rcases alloc_hunks_step hret with rfl | ⟨bytes, fast, q, t, blk, hread, halloc, hcase⟩
    · exact ⟨bs, hr, hzero⟩
    obtain ⟨hb4, -⟩ := read_size_spec hread
    obtain ⟨hn4, hn⟩ := size_spec hb4
    rcases hcase with ⟨rfl, rfl⟩ | ⟨hblk, hrest⟩
    · have hg := hunk_alloc_spec hr.work.placed hn4 hn (.inl rfl) halloc
      rcases hr.work.gives hg with ⟨-, hwork⟩ | ⟨hne, -⟩
      · have hsame : ∀ h ∈ hs, Same h l ⟨t, l.log⟩ := fun h hh =>
          same_of_calm (mem_append_left _ (hr.blocks h hh)) hg.1
        refine ⟨bs, ⟨hwork, hr.blocks, hr.apart, fun h hh => ?_⟩, fun h hh j hj hj' => ?_⟩
        · exact ((hsame h hh).sized (hfit h hh).1).trans (hr.sized h hh)
        · exact (hsame h hh j (by omega) hj').trans (hzero h hh j hj hj')
      · exact absurd rfl hne
    obtain ⟨new, hnew, -⟩ := alloc_hunks_prefix hrest
    have hfit' : ∀ h ∈ hs ++ [⟨blk, bytes⟩], 4 ≤ h.size ∧ h.size ≤ GUEST_RAM_SIZE := by
      intro h hh
      refine hfit h ?_
      rw [hnew]
      exact mem_append_left _ hh
    have hnew4 := hfit' ⟨blk, bytes⟩ (mem_append_right _ mem_cons_self)
    have hg := hunk_alloc_spec hr.work.placed hn4 hn (.inr hnew4) halloc
    obtain ⟨-, hwork⟩ := (hr.work.gives hg).resolve_left fun h => hblk h.1
    obtain ⟨-, hplaced, hclear⟩ := hg.2.resolve_left fun h => hblk h.1
    have hmem : (⟨blk, u32 (bytes + 8)⟩ : Block) ∈ ⟨blk, u32 (bytes + 8)⟩ :: bs := mem_cons_self
    have hstop := (hwork.bounds hmem).2
    simp only [Block.stop] at hstop
    have hsize : (⟨blk, bytes⟩ : Hunk).size = u32 (bytes + 8) := rfl
    rw [hsize] at hnew4
    have hfar : ∀ h ∈ hs, h.blk + h.size ≤ blk ∨ blk + u32 (bytes + 8) ≤ h.blk := fun h hh =>
      ((pairwise_cons.mp hplaced.apart).1 h.block (mem_append_left _ (hr.blocks h hh))).symm
    have hsame : ∀ h ∈ hs, Same h l ((⟨t, l.log⟩ : Load).write blk (u32 (bytes + 8)) blk
        (u32 (bytes + 8))) := by
      intro h hh j hj hj'
      have := hfar h hh
      rw [write_ram, write_outside (by omega)]
      exact hg.1.kept h.block (mem_append_left _ (hr.blocks h hh)) j hj hj'
    have hready : Ready s (hs ++ [⟨blk, bytes⟩]) (⟨blk, u32 (bytes + 8)⟩ :: bs)
        ((⟨t, l.log⟩ : Load).write blk (u32 (bytes + 8)) blk (u32 (bytes + 8))) := by
      refine ⟨hwork.write hmem (le_refl _) (by omega), fun h hh => ?_, ?_, fun h hh => ?_⟩
      · rcases mem_append.mp hh with hh | hh
        · exact mem_cons_of_mem _ (hr.blocks h hh)
        · rw [mem_singleton.mp hh]
          exact mem_cons_self
      · refine pairwise_append.mpr ⟨hr.apart, pairwise_singleton _ _, fun h hh g hg' => ?_⟩
        rw [mem_singleton.mp hg']
        exact hfar h hh
      · rcases mem_append.mp hh with hh | hh
        · exact ((hsame h hh).sized (hfit' h (mem_append_left _ hh)).1).trans (hr.sized h hh)
        · rw [mem_singleton.mp hh, write_ram]
          exact read_write_same (by unfold GUEST_RAM_SIZE; omega) hn
    refine ih hready (fun h hh j hj hj' => ?_) hrest
    rcases mem_append.mp hh with hh | hh
    · exact (hsame h hh j (by omega) hj').trans (hzero h hh j hj hj')
    · rw [mem_singleton.mp hh] at hj hj'
      rw [write_ram, write_outside (by simp only at hj; omega)]
      exact hclear j (by simp only at hj; omega) hj'

/-! ## The segment list -/

/-- A segment is known by the address of its link, in longwords. -/
def Hunk.seg (h : Hunk) : Nat := (h.blk + 4) / 4

/-- The link of a segment. -/
def next_seg (ram : Buf) (h : Hunk) : Nat := guest_read_be32 ram (h.blk + 4)

/-- Where the segment list of the hunks starts. -/
def first_seg : List Hunk → Nat
  | [] => 0
  | h :: _ => h.seg

/-- The links of the hunks `hs` are written and nothing else. -/
lemma link_hunks_spec (hw : Work s bs l) (hb : ∀ h ∈ hs, h.block ∈ bs ∧ 8 ≤ h.size)
    (hap : hs.Pairwise Hunk.Apart) : Work s bs (link_hunks hs l) ∧
      (∀ j, (∀ h ∈ hs, j < h.blk + 4 ∨ h.blk + 8 ≤ j) → (link_hunks hs l).ram j = l.ram j) ∧
      Path Hunk.seg (next_seg (link_hunks hs l).ram) (first_seg hs) hs 0 := by
  induction hs generalizing l with
  | nil => exact ⟨hw, fun _ _ => rfl, rfl⟩
  | cons h hs ih =>
    obtain ⟨hblock, h8⟩ := hb h mem_cons_self
    obtain ⟨hfar, hap⟩ := pairwise_cons.mp hap
    have hbnd := hw.bounds hblock
    simp only [Block.stop, Hunk.block] at hbnd
    have hnext : next_link hs = first_seg hs ∧ first_seg hs < 2 ^ 32 := by
      cases hs with
      | nil => exact ⟨rfl, by decide⟩
      | cons g gs =>
        have hg := hw.bounds (hb g (mem_cons_of_mem _ mem_cons_self)).1
        simp only [Block.stop, Hunk.block] at hg
        simp only [first_seg, next_link, Hunk.seg]
        rw [u32_of_lt (by omega)]
        exact ⟨rfl, by omega⟩
    have haddr : u32 (h.blk + 4) = h.blk + 4 := u32_of_lt (by omega)
    unfold link_hunks
    rw [hnext.1, haddr]
    have hw' : Work s bs (l.write (h.blk + 4) (first_seg hs) h.blk (u32 (h.bytes + 8))) := by
      refine hw.write hblock (by omega) ?_
      unfold Hunk.size at h8
      omega
    obtain ⟨hwork, hout, hpath⟩ := ih hw' (forall_mem_cons.mp hb).2 hap
    refine ⟨hwork, fun j hj => ?_, rfl, ?_⟩
    · rw [hout j (forall_mem_cons.mp hj).2, write_ram]
      exact write_outside (by have := hj h mem_cons_self; omega)
    -- the links of the other hunks are in other blocks
    have hread : next_seg (link_hunks hs (l.write (h.blk + 4) (first_seg hs) h.blk
        (u32 (h.bytes + 8)))).ram h = first_seg hs := by
      unfold next_seg
      rw [read_congr fun j hj hj' => hout j fun g hg => ?_, write_ram]
      · exact read_write_same (by unfold GUEST_RAM_SIZE; omega) hnext.2
      have hgh := hfar g hg
      have hg8 := (hb g (mem_cons_of_mem _ hg)).2
      unfold Hunk.Apart Block.Apart Block.stop Hunk.block at hgh
      simp only at hgh
      omega
    rw [hread]
    exact hpath

/-- The segment list does not touch the size words. -/
lemma Ready.link (hr : Ready s hs bs l) (h8 : ∀ h ∈ hs, 8 ≤ h.size) :
    Ready s hs bs (link_hunks hs l) := by
  obtain ⟨hwork, hout, -⟩ :=
    link_hunks_spec hr.work (fun h hh => ⟨hr.blocks h hh, h8 h hh⟩) hr.apart
  refine ⟨hwork, hr.blocks, hr.apart, fun h hh => ?_⟩
  rw [← hr.sized h hh]
  refine read_congr fun j hj hj' => hout j fun g hg => ?_
  by_cases hgh : g = h
  · subst hgh
    omega
  have happ := hr.apart.forall hg hh hgh
  have hg8 := h8 g hg
  unfold Hunk.Apart Block.Apart Block.stop Hunk.block at happ
  simp only at happ
  omega

/-! ## Tables -/

lemma write_table_spec (cs : List Block) (vs : List Nat) (addr : Nat) (hw : Work s bs l)
    (hb : (⟨blk, n⟩ : Block) ∈ bs) (hlow : blk ≤ addr) (hhigh : addr + 4 * vs.length ≤ blk + n)
    (hcs : ∀ c ∈ cs, c.Apart ⟨blk, n⟩) :
    Work s bs (write_table l blk n addr vs) ∧ Calm cs l.sys (write_table l blk n addr vs).sys ∧
      ∀ j, j < addr ∨ addr + 4 * vs.length ≤ j → (write_table l blk n addr vs).ram j = l.ram j := by
  induction vs generalizing l addr with
  | nil => exact ⟨hw, Calm.refl, fun _ _ => rfl⟩
  | cons v vs ih =>
    rw [length_cons] at hhigh
    have hbnd := (hw.bounds hb).2
    simp only [Block.stop] at hbnd
    have haddr : u32 addr = addr := u32_of_lt (by omega)
    unfold write_table
    rw [haddr]
    have hw' : Work s bs (l.write addr v blk n) := hw.write hb hlow (by omega)
    have hcalm : Calm cs l.sys (l.write addr v blk n).sys :=
      hw.placed.calm (mem_append_left _ hb) hcs fun j hj =>
        write_outside (by simp only [Block.stop] at hj; omega)
    obtain ⟨hwork, hcalm', hout⟩ := ih (addr + 4) hw' (by omega) (by omega)
    refine ⟨hwork, hcalm.trans hcalm', fun j hj => ?_⟩
    rw [length_cons] at hj
    rw [hout j (by omega), write_ram]
    exact write_outside (by omega)

/-- A new block is apart from the blocks that the loader has. -/
lemma Work.fresh (hw : Work s (b :: bs) l) : ∀ c ∈ bs, c.Apart b := fun c hc =>
  ((pairwise_cons.mp hw.placed.apart).1 c (mem_append_left _ hc)).symm

section

variable (hw : Work s bs l)

include hw

/-- An allocation that moves the bump pointer. -/
lemma Work.heap_alloc (hn : n + GUEST_RAM_SIZE ≤ 2 ^ 32) :
    ∃ t a, heap_alloc l.sys n = some (t, a) ∧ Calm bs l.sys t ∧
      (a = 0 ∧ Work s bs ⟨t, l.log⟩ ∨ a ≠ 0 ∧ Work s (⟨a, n⟩ :: bs) ⟨t, l.log⟩) := by
  obtain ⟨t, a, hret⟩ := heap_alloc_some hw.placed.chip hn
  have hg := heap_alloc_spec hw.placed (by unfold GUEST_RAM_SIZE at hn; omega) hret
  exact ⟨t, a, hret, hg.1.mono fun b hb => mem_append_left _ hb, hw.gives hg⟩

/-- The overlay tables get blocks of their own. -/
lemma Work.overlays (fuel p ovtab : Nat) :
    ∃ ov l' bs', overlays f fuel p ovtab l = some (ov, l') ∧ Work s bs' l' ∧
      (∀ b ∈ bs, b ∈ bs') ∧ Calm bs l.sys l'.sys := by
  induction fuel generalizing p ovtab l bs with
  | zero => exact ⟨ovtab, l, bs, rfl, hw, fun _ hb => hb, Calm.refl⟩
  | succ fuel ih =>
    have hstay : ∃ ov l' bs', some (ovtab, l) = some (ov, l') ∧ Work s bs' l' ∧
        (∀ b ∈ bs, b ∈ bs') ∧ Calm bs l.sys l'.sys :=
      ⟨ovtab, l, bs, rfl, hw, fun _ hb => hb, Calm.refl⟩
    simp only [hunk.overlays]
    split
    · split
      · split
        · exact hstay
        rename_i hcount
        rw [not_or, not_or] at hcount
        obtain ⟨t, tab, hret, hcalm, htab⟩ := hw.heap_alloc (n := f.be32 (p + 4) * 4)
          (by unfold GUEST_RAM_SIZE; omega)
        rw [hret]
        simp only
        rcases htab with ⟨rfl, hwork⟩ | ⟨hne, hwork⟩
        · rw [if_pos rfl]
          obtain ⟨ov, l', bs', hov, hwork', hsub, hcalm'⟩ := ih hwork (p + 8 + f.be32 (p + 4) * 4) 0
          exact ⟨ov, l', bs', hov, hwork', hsub, hcalm.trans hcalm'⟩
        rw [if_neg hne]
        obtain ⟨hwork1, hcalm1, -⟩ := write_table_spec bs
          ((List.range (f.be32 (p + 4))).map fun k => f.be32 (p + 8 + k * 4)) tab hwork
          mem_cons_self (le_refl tab)
          (by simp only [length_map, length_range]; omega) hwork.fresh
        obtain ⟨ov, l', bs', hov, hwork', hsub, hcalm'⟩ :=
          ih hwork1 (p + 8 + f.be32 (p + 4) * 4) tab
        exact ⟨ov, l', bs', hov, hwork', (forall_mem_cons.mp hsub).2,
          (hcalm.trans hcalm1).trans (hcalm'.mono fun b hb => mem_cons_of_mem _ hb)⟩
      · split
        · exact ih hw (p + 4) ovtab
        · exact hstay
    · exact hstay

lemma Work.keep_image : ∃ u img, hunk.heap_alloc l.sys f.size = some (u, img) ∧
      ∃ bs', Work s bs' (keep_image f img ⟨u, l.log⟩) ∧ (∀ b ∈ bs, b ∈ bs') ∧
        Calm bs l.sys (keep_image f img ⟨u, l.log⟩).sys := by
  have hfits := f.fits
  obtain ⟨u, img, hret, hcalm, himg⟩ := hw.heap_alloc (n := f.size) (by omega)
  refine ⟨u, img, hret, ?_⟩
  unfold hunk.keep_image
  rcases himg with ⟨h0, hwork⟩ | ⟨hne, hwork⟩
  · rw [if_pos h0]
    exact ⟨bs, hwork, fun _ hb => hb, hcalm⟩
  rw [if_neg hne]
  have hmem : (⟨img, f.size⟩ : Block) ∈ ⟨img, f.size⟩ :: bs := mem_cons_self
  have hout : ∀ j, j < img ∨ img + f.size ≤ j →
      put (⟨u, l.log⟩ : Load).ram img (slice f.bytes 0 f.size) j = (⟨u, l.log⟩ : Load).ram j :=
    fun j hj => put_outside (by rw [slice_length]; exact hj)
  refine ⟨⟨img, f.size⟩ :: bs, hwork.store hmem (le_refl _) (le_refl _) ?_ hout,
    fun _ hb => mem_cons_of_mem _ hb, hcalm.trans ?_⟩
  · exact inside_of (b := ⟨img, f.size⟩) (le_refl _) (le_refl _) (hwork.bounds hmem).2
  · exact hwork.placed.calm (mem_append_left _ hmem) hwork.fresh hout

lemma Work.fill_hunktab {cs : List Block} {tab : Nat}
    (htab : tab = 0 ∨ (⟨tab, hs.length * 4⟩ : Block) ∈ bs ∧ ∀ c ∈ cs,
      c.Apart ⟨tab, hs.length * 4⟩) :
    Work s bs (fill_hunktab hs tab l) ∧ Calm cs l.sys (fill_hunktab hs tab l).sys := by
  unfold hunk.fill_hunktab
  rcases htab with h0 | ⟨hmem, hfar⟩
  · rw [if_pos h0]
    exact ⟨hw, Calm.refl⟩
  have hne : tab ≠ 0 := by
    have := (hw.bounds hmem).1
    simp only at this
    omega
  rw [if_neg hne]
  obtain ⟨hwork, hcalm, -⟩ := write_table_spec cs (hs.map fun h => u32 (h.blk + 4) / 4) tab hw hmem
    (le_refl tab) (by rw [length_map]; omega) hfar
  exact ⟨hwork, hcalm⟩

/-- The marker of the first hunk gets the tables of the program, and the rest of the blocks stays
as it is. -/
lemma Work.publish {h0 : Hunk} (hb : h0.block ∈ bs) (h32 : 32 ≤ h0.bytes)
    (hroom : h0.bytes + 8 ≤ GUEST_RAM_SIZE) (hlen : hs.length ≤ MAX_HUNKS) (ovtab : Nat) :
    ∃ l' bs', publish e f hs h0 ovtab l = some l' ∧ Work s bs' l' ∧
      ∀ b ∈ bs, ∀ j, b.addr ≤ j → j < b.stop → j < h0.blk + 16 ∨ h0.blk + 32 ≤ j →
        l'.ram j = l.ram j := by
  unfold MAX_HUNKS at hlen
  obtain ⟨t, tab, hret, hcalm, htab⟩ := hw.heap_alloc (n := hs.length * 4)
    (by unfold GUEST_RAM_SIZE; omega)
  -- the hunk table is there or not
  obtain ⟨bs1, hw1, hsub1, htab⟩ : ∃ bs1, Work s bs1 ⟨t, l.log⟩ ∧ (∀ b ∈ bs, b ∈ bs1) ∧
      (tab = 0 ∨ (⟨tab, hs.length * 4⟩ : Block) ∈ bs1 ∧
        ∀ c ∈ bs, c.Apart ⟨tab, hs.length * 4⟩) := by
    rcases htab with ⟨h0, hwork⟩ | ⟨hne, hwork⟩
    · exact ⟨bs, hwork, fun _ hb => hb, .inl h0⟩
    · exact ⟨_, hwork, fun _ hb => mem_cons_of_mem _ hb, .inr ⟨mem_cons_self, hwork.fresh⟩⟩
  obtain ⟨u, img, hret', bs2, hw2, hsub2, hcalm2⟩ := hw1.keep_image (f := f)
  obtain ⟨hw3, hcalm3⟩ := hw2.fill_hunktab (htab.imp_right fun h => ⟨hsub2 _ h.1, h.2⟩)
  have hcalmA := (hcalm.trans (hcalm2.mono hsub1)).trans hcalm3
  have hmem0 := hsub2 _ (hsub1 _ hb)
  have hbnd := hw3.bounds hmem0
  simp only [Block.stop, Hunk.block] at hbnd
  have hsize : h0.size = h0.bytes + 8 := by
    unfold Hunk.size
    unfold GUEST_RAM_SIZE at hroom
    exact u32_of_lt (by omega)
  have hbase : h0.base = h0.blk + 8 := u32_of_lt (by omega)
  obtain ⟨hwork, -, hout⟩ := write_table_spec []
    [if img = 0 then 0 else e.fh, ovtab, tab / 4, e.dos_base / 4] (h0.base + 8) hw3 hmem0 (by omega)
    (by simp only [length_cons, length_nil, hsize]; omega)
    (fun c hc => by cases hc)
  refine ⟨_, bs2, ?_, hwork, fun b hb j hj hj' hoff => ?_⟩
  · unfold hunk.publish
    rw [hret]
    simp only
    rw [show hunk.heap_alloc t f.size = some (u, img) from hret']
    rfl
  · refine (hout j ?_).trans (hcalmA.kept b hb j hj hj')
    simp only [length_cons, length_nil]
    omega

end

end uaos.hunk
