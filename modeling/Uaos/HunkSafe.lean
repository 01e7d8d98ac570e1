-- What a load file can make the loader write: everything stays in the blocks of the load exactly
-- when no declared size wraps, no body is longer than its hunk was declared, and every relocated
-- longword that is in memory at all is in its hunk. The loader checks none of it.
import Uaos.HunkWork

namespace uaos.hunk

open List

open guest chain Bool

/-! ## The condition -/

/-- The block of the hunk fits in the window. -/
def Hunk.roomy (h : Hunk) : Bool := decide (h.bytes + 8 ≤ GUEST_RAM_SIZE)

/-- The longword is behind the memory, where nothing is written. -/
def Hunk.drops (h : Hunk) (offset : Nat) : Bool :=
  let addr := u32 (h.base + offset)
  decide (GUEST_RAM_SIZE < u32 (addr + 4)) ||
    (!Load.in_chip_window addr && decide (GUEST_RAM_SIZE - 3 ≤ addr))

/-- What the records ask for is in the hunk. -/
def act_ok (hs : List Hunk) : Act → Bool
  | .copy cur _ bytes =>
    match hs[cur]? with
    | none => true
    | some h => decide (bytes ≤ h.bytes)
  | .patch cur ref_hunk offset =>
    match hs[cur]?, hs[ref_hunk]? with
    | some h, some _ => decide (offset + 4 ≤ h.bytes) || h.drops offset
    | _, _ => true

/-- The checks that the loader leaves out. When the size table ends early only the size words are
written, for which a block of four bytes is enough. -/
def checked (e : Env) (s : Sys) (f : Image) : Bool :=
  match read_header f with
  | none => true
  | some (n_hunks, p) =>
    match alloc_hunks e f n_hunks 0 p [] ⟨s, []⟩ with
    | none => false
    | some (.failed hs _) => hs.all fun h => h.roomy || h.bytes == 2 ^ 32 - 4
    | some (.done p hs _) => hs.all Hunk.roomy && (records f n_hunks f.size 0 p).1.all (act_ok hs)

/-- The load returns, each store is in the block or the hunk that it belongs in, and the rest of
memory is as it was. -/
def Contained (e : Env) (s : Sys) (f : Image) : Prop :=
  ∃ r, hunk_load e s f = some r ∧ (∀ st ∈ r.load.log, st.inside = true) ∧
    Calm (others s) s r.load.sys

variable {e : Env} {f : Image} {s t : Sys} {bs : List Block} {l l' : Load} {hs : List Hunk}
  {h : Hunk} {n i p : Nat} {act : Act}

/-! ## Loads that are checked -/

lemma roomy_size (hr : h.roomy = true) : h.size = h.bytes + 8 := by
  have := of_decide_eq_true hr
  unfold GUEST_RAM_SIZE at this
  exact u32_of_lt (by omega)

/-- The data of a hunk in its block. -/
lemma Work.data (hw : Work s bs l) (hb : h.block ∈ bs) (hr : h.roomy = true) :
    h.base = h.blk + 8 ∧ 0x20000 ≤ h.blk ∧ h.blk + 8 + h.bytes ≤ 0xFF0000 := by
  have hbnd := hw.bounds hb
  simp only [Hunk.block, Block.stop, roomy_size hr] at hbnd
  exact ⟨u32_of_lt (by omega), by omega⟩

variable {acts : List Act} {n_hunks fuel addr cur : Nat}

/-- A store into the data of a hunk. -/
lemma Ready.store {ram : Buf} {len : Nat} (hr : Ready s hs bs l) (hh : h ∈ hs)
    (hroomy : ∀ g ∈ hs, g.roomy = true) (hlow : h.base ≤ addr)
    (hhigh : addr + len ≤ h.base + h.bytes)
    (hram : ∀ j, j < addr ∨ addr + len ≤ j → ram j = l.ram j) :
    Ready s hs bs (l.store ram ⟨addr, len, h.base, h.base + h.bytes⟩) := by
  have hsize := roomy_size (hroomy h hh)
  obtain ⟨hbase, -, hstop⟩ := hr.work.data (hr.blocks h hh) (hroomy h hh)
  rw [hbase] at hlow hhigh
  refine ⟨hr.work.store (hr.blocks h hh) ?_ ?_ ?_ hram, hr.blocks, hr.apart, fun g hg => ?_⟩
  · simp only [Hunk.block]
    omega
  · simp only [Hunk.block, Block.stop, hsize]
    omega
  · refine decide_eq_true ⟨?_, ?_, ?_⟩ <;> simp only [hbase]
    · exact hlow
    · exact hhigh
    · unfold GUEST_RAM_SIZE
      omega
  · rw [← hr.sized g hg, store_ram]
    refine read_congr fun j hj hj' => hram j ?_
    by_cases hgh : g = h
    · subst hgh
      omega
    have happ := hr.apart.forall hg hh hgh
    unfold Hunk.Apart Block.Apart Block.stop Hunk.block at happ
    simp only at happ
    omega

lemma drops_patch (hd : h.drops n = true) (base : Nat) : l.patch e h base n = l := by
  unfold Hunk.drops at hd
  unfold Load.patch
  simp only [or_eq_true, and_eq_true, not_eq_true', decide_eq_true_eq] at hd ⊢
  rcases hd with hd | ⟨hwin, hd⟩
  · exact if_neg (by omega)
  · simp only [hwin, false_eq_true, if_false]
    rw [if_neg (by omega : ¬ u32 (h.base + n) < GUEST_RAM_SIZE - 3), ite_self]

lemma Ready.perform (hr : Ready s hs bs l) (hroomy : ∀ g ∈ hs, g.roomy = true)
    (hok : act_ok hs act = true) : Ready s hs bs (perform e f hs l act) := by
  cases act with
  | copy cur p bytes =>
    cases hcur : hs[cur]? with
    | none =>
      simp only [hunk.perform, hcur]
      exact hr
    | some h =>
      simp only [act_ok, hunk.perform, hcur, decide_eq_true_eq] at hok ⊢
      refine hr.store (mem_of_getElem? hcur) hroomy (le_refl _) (by omega) fun j hj => ?_
      exact put_outside (by rw [slice_length]; exact hj)
  | patch cur ref_hunk offset =>
    cases hcur : hs[cur]? with
    | none =>
      simp only [hunk.perform, hcur]
      exact hr
    | some h =>
      cases href : hs[ref_hunk]? with
      | none =>
        simp only [hunk.perform, hcur, href]
        exact hr
      | some t =>
        simp only [act_ok, hunk.perform, hcur, href, or_eq_true, decide_eq_true_eq] at hok ⊢
        have hh := mem_of_getElem? hcur
        rcases hok with hle | hdrops
        · obtain ⟨hbase, -, hstop⟩ := hr.work.data (hr.blocks h hh) (hroomy h hh)
          have haddr : u32 (h.base + offset) = h.base + offset := u32_of_lt (by omega)
          unfold Load.patch
          simp only [haddr]
          split
          · split
            · exact hr.store hh hroomy (by omega) (by omega) fun _ _ => rfl
            · split
              · exact hr.store hh hroomy (by omega) (by omega) fun j hj => put_outside hj
              · exact hr
          · exact hr
        · rw [drops_patch hdrops]
          exact hr

lemma Ready.performs (hr : Ready s hs bs l) (hroomy : ∀ g ∈ hs, g.roomy = true)
    (hok : acts.all (act_ok hs) = true) : Ready s hs bs (acts.foldl (hunk.perform e f hs) l) := by
  rw [all_eq_true] at hok
  exact foldlRecOn acts _ hr fun l hl act hact => hl.perform hroomy (hok act hact)

/-- What comes after the records stays in the blocks too. -/
lemma Ready.finish (hr : Ready s hs bs l) (hroomy : ∀ g ∈ hs, g.roomy = true)
    (hlen : hs.length ≤ MAX_HUNKS) (p : Nat) :
    ∃ r bs', finish e f hs p l = some r ∧ Work s bs' r.load := by
  obtain ⟨ov, l1, bs1, hov, hw1, hsub, hcalm⟩ := hr.work.overlays (f := f) f.size p 0
  unfold hunk.finish
  rw [hov]
  cases hs with
  | nil => exact ⟨_, bs1, rfl, hw1⟩
  | cons h0 hs =>
    simp only
    split
    · rename_i hmark
      have hmem := hr.blocks h0 mem_cons_self
      have hsize := roomy_size (hroomy h0 mem_cons_self)
      have hroom := of_decide_eq_true (hroomy h0 mem_cons_self)
      -- the size word of the first hunk still says how large it is
      have hword : guest_read_be32 l1.ram h0.blk = h0.bytes + 8 := by
        rw [← hsize, ← hr.sized h0 mem_cons_self]
        exact (same_of_calm hmem hcalm).sized (by omega)
      have h32 : 32 ≤ h0.bytes := by
        unfold marked at hmark
        simp only [and_eq_true, decide_eq_true_eq, hword] at hmark
        unfold sub32 u32 at hmark
        unfold GUEST_RAM_SIZE at hroom
        omega
      obtain ⟨l2, bs2, hpub, hw2, -⟩ :=
        hw1.publish (e := e) (f := f) (hsub _ hmem) h32 hroom hlen ov
      rw [hpub]
      exact ⟨_, bs2, rfl, hw2⟩
    · exact ⟨_, bs1, rfl, hw1⟩

lemma read_header_le {p : Nat} (hh : read_header f = some (n_hunks, p)) : n_hunks ≤ MAX_HUNKS := by
  simp only [read_header] at hh
  split at hh
  · cases hh
  split at hh
  · cases hh
  split at hh
  · split at hh
    · cases hh
    · rename_i hle
      cases hh
      omega
  · cases hh

/-- A load that is checked stays in its blocks. -/
lemma contained_of_checked (hs : Fresh s) (hc : checked e s f = true) : Contained e s f := by
  unfold checked at hc
  unfold Contained hunk_load
  cases hhead : read_header f with
  | none => exact ⟨_, rfl, fun st hst => absurd hst not_mem_nil, Calm.refl⟩
  | some np =>
    obtain ⟨n_hunks, p⟩ := np
    simp only [hhead] at hc ⊢
    have hstart : Ready s [] [] ⟨s, []⟩ :=
      ⟨Work.start hs, fun h hh => absurd hh not_mem_nil, List.Pairwise.nil,
        fun h hh => absurd hh not_mem_nil⟩
    cases halloc : alloc_hunks e f n_hunks 0 p [] ⟨s, []⟩ with
    | none =>
      rw [halloc] at hc
      cases hc
    | some r =>
      cases r with
      | failed hs l =>
        simp only [halloc, List.all_eq_true] at hc
        have hfit : ∀ h ∈ hs, 4 ≤ h.size ∧ h.size ≤ GUEST_RAM_SIZE := by
          intro h hh
          have hh := hc h hh
          rw [or_eq_true] at hh
          rcases hh with hh | hh
          · have hroom := of_decide_eq_true hh
            rw [roomy_size hh]
            exact ⟨by omega, hroom⟩
          · have hbytes : h.bytes = 2 ^ 32 - 4 := eq_of_beq hh
            unfold Hunk.size
            rw [hbytes]
            exact ⟨by decide, by decide⟩
        obtain ⟨bs, hr, -⟩ := hstart.alloc (fun h hh => absurd hh not_mem_nil) halloc hfit
        exact ⟨_, rfl, hr.work.inside, hr.work.calm⟩
      | done q hs l =>
        simp only [halloc, and_eq_true] at hc
        have hroomy : ∀ h ∈ hs, h.roomy = true := List.all_eq_true.mp hc.1
        obtain ⟨bs, hr, -⟩ := hstart.alloc (fun h hh => absurd hh not_mem_nil) halloc
          fun h hh => ⟨by rw [roomy_size (hroomy h hh)]; omega,
            by rw [roomy_size (hroomy h hh)]; exact of_decide_eq_true (hroomy h hh)⟩
        have hlink := hr.link fun h hh => by
          rw [roomy_size (hroomy h hh)]
          omega
        have hdone := hlink.performs (e := e) (f := f) hroomy hc.2
        have hlen : hs.length ≤ MAX_HUNKS := by
          obtain ⟨new, hnew, hlen⟩ := alloc_hunks_prefix halloc
          have hn := hlen q hs l rfl
          simp only [Alloc.hunks, nil_append] at hnew
          rw [hnew, hn]
          exact read_header_le hhead
        simp only
        cases hpos : (records f n_hunks f.size 0 q).2 with
        | none => exact ⟨_, rfl, hdone.work.inside, hdone.work.calm⟩
        | some p' =>
          obtain ⟨r, bs', hfin, hw⟩ := hdone.finish (e := e) (f := f) hroomy hlen p'
          exact ⟨r, hfin, hw.inside, hw.calm⟩

/-! ## Loads that stay in their blocks -/

/-- The log of a load only grows. -/
def Grows (l l' : Load) : Prop := ∀ st ∈ l.log, st ∈ l'.log

lemma Grows.refl : Grows l l := fun _ h => h

lemma Grows.trans {l'' : Load} (h : Grows l l') (h' : Grows l' l'') : Grows l l'' :=
  fun st hst => h' st (h st hst)

lemma grows_store {ram : Buf} {st : Store} : Grows l (l.store ram st) :=
  fun _ h => mem_cons_of_mem _ h

lemma grows_write_table {vs : List Nat} {blk : Nat} : Grows l (write_table l blk n addr vs) := by
  induction vs generalizing l addr with
  | nil => exact Grows.refl
  | cons v vs ih => exact grows_store.trans ih

lemma grows_overlays {ovtab ov : Nat} (hret : overlays f fuel p ovtab l = some (ov, l')) :
    Grows l l' := by
  induction fuel generalizing p ovtab l with
  | zero =>
    cases hret
    exact Grows.refl
  | succ fuel ih =>
    have hstay : some (ovtab, l) = some (ov, l') → Grows l l' := by
      intro h
      cases h
      exact Grows.refl
    simp only [overlays] at hret
    split at hret
    · split at hret
      · split at hret
        · exact hstay hret
        split at hret
        · cases hret
        rename_i t tab halloc
        have htab : Grows l (if tab = 0 then ⟨t, l.log⟩ else write_table ⟨t, l.log⟩ tab
            (f.be32 (p + 4) * 4) tab
            ((List.range (f.be32 (p + 4))).map fun k => f.be32 (p + 8 + k * 4))) := by
          split
          · exact fun _ h => h
          · exact grows_write_table (l := ⟨t, l.log⟩)
        exact htab.trans (ih hret)
      · split at hret
        · exact ih hret
        · exact hstay hret
    · exact hstay hret

lemma grows_finish {r : Loaded} (hret : finish e f hs p l = some r) : Grows l r.load := by
  unfold finish at hret
  split at hret
  · cases hret
  rename_i ovtab l1 hov
  refine (grows_overlays hov).trans ?_
  split at hret
  · cases hret
    exact Grows.refl
  rename_i h0 _
  split at hret
  · obtain ⟨l2, hpub, rfl⟩ := Option.map_eq_some_iff.mp hret
    unfold publish at hpub
    split at hpub
    · cases hpub
    rename_i t tab ht
    split at hpub
    · cases hpub
    rename_i u img hu
    cases hpub
    have himg : Grows l1 (keep_image f img ⟨u, l1.log⟩) := by
      unfold keep_image
      split
      · exact fun _ h => h
      · exact fun _ h => mem_cons_of_mem _ h
    refine himg.trans (Grows.trans ?_ grows_write_table)
    unfold fill_hunktab
    split
    · exact Grows.refl
    · exact grows_write_table
  · cases hret
    exact Grows.refl

lemma grows_patch (base : Nat) : Grows l (l.patch e h base n) := by
  unfold Load.patch
  simp only
  split
  · split
    · exact grows_store
    · split
      · exact grows_store
      · exact Grows.refl
  · exact Grows.refl

lemma grows_perform : Grows l (perform e f hs l act) := by
  unfold perform
  split
  · split
    · exact Grows.refl
    · exact grows_store
  · split
    · exact grows_patch _
    · exact Grows.refl

lemma grows_performs : Grows l (acts.foldl (perform e f hs) l) :=
  foldlRecOn acts _ Grows.refl fun _ h _ _ => h.trans grows_perform

lemma grows_link : Grows l (link_hunks hs l) := by
  induction hs generalizing l with
  | nil => exact Grows.refl
  | cons h hs ih => exact grows_store.trans ih

/-- Each hunk has its size word in the log. -/
lemma alloc_hunks_log {r : Alloc} (hret : alloc_hunks e f n i p hs l = some r) :
    Grows l r.load ∧ ∀ h ∈ r.hunks, h ∈ hs ∨ h.bytes % 4 = 0 ∧ h.bytes < 2 ^ 32 ∧
      (⟨h.blk, 4, h.blk, h.blk + h.size⟩ : Store) ∈ r.load.log := by
  induction n generalizing i p hs l with
  | zero =>
    cases hret
    exact ⟨Grows.refl, fun h hh => .inl hh⟩
  | succ n ih =>
    rcases alloc_hunks_step hret with rfl | ⟨bytes, fast, q, t, blk, hread, -,
      ⟨-, rfl⟩ | ⟨-, hrest⟩⟩
    · exact ⟨Grows.refl, fun h hh => .inl hh⟩
    · exact ⟨fun _ h => h, fun h hh => .inl hh⟩
    obtain ⟨hgrows, hnew⟩ := ih hrest
    obtain ⟨h4, hlt⟩ := read_size_spec hread
    refine ⟨(forall_mem_cons.mp hgrows).2, fun h hh => ?_⟩
    rcases hnew h hh with hh | hh
    · rcases mem_append.mp hh with hh | hh
      · exact .inl hh
      · rw [mem_singleton.mp hh]
        exact .inr ⟨h4, hlt, hgrows _ mem_cons_self⟩
    · exact .inr hh

/-- Each hunk has its link in the log. -/
lemma link_hunks_log (hh : h ∈ hs) :
    (⟨u32 (h.blk + 4), 4, h.blk, h.blk + h.size⟩ : Store) ∈ (link_hunks hs l).log := by
  induction hs generalizing l with
  | nil => cases hh
  | cons g hs ih =>
    unfold link_hunks
    rcases mem_cons.mp hh with rfl | hh
    · exact grows_link _ mem_cons_self
    · exact ih hh

/-! ### Offsets -/

/-- An offset in the file has at most 32 bits. -/
def Act.short : Act → Prop
  | .copy _ _ _ => True
  | .patch _ _ offset => offset < 2 ^ 32

lemma entry_lt (short : Bool) (p : Nat) : f.entry short p < 2 ^ 32 := by
  unfold Image.entry
  split
  · unfold Image.be16
    have h0 := (f.bytes p).toNat_lt
    have h1 := (f.bytes (p + 1)).toNat_lt
    omega
  · exact ffs.be32_lt ..

lemma offsets_short {short : Bool} {ref_hunk : Nat} :
    ∀ act ∈ (offsets f short cur ref_hunk n p).1, act.short := by
  induction n generalizing p with
  | zero => exact fun act hact => absurd hact not_mem_nil
  | succ n ih =>
    intro act hact
    unfold offsets at hact
    split at hact
    · rcases mem_cons.mp hact with rfl | hact
      · exact entry_lt short p
      · exact ih act hact
    · cases hact

lemma relocs_short {short : Bool} : ∀ act ∈ (relocs f short n_hunks cur fuel p).1, act.short := by
  induction fuel generalizing p with
  | zero => exact fun act hact => absurd hact not_mem_nil
  | succ fuel ih =>
    intro act hact
    simp only [relocs] at hact
    split at hact
    · split at hact
      · cases hact
      split at hact
      · split at hact
        · exact ih act hact
        · rcases mem_append.mp hact with hact | hact
          · exact offsets_short act hact
          · exact ih act hact
      · cases hact
    · cases hact

lemma records_short : ∀ act ∈ (records f n_hunks fuel cur p).1, act.short := by
  induction fuel generalizing cur p with
  | zero => exact fun act hact => absurd hact not_mem_nil
  | succ fuel ih =>
    intro act hact
    simp only [records] at hact
    split at hact
    · split at hact
      · split at hact
        · split at hact
          · rcases mem_cons.mp hact with rfl | hact
            · trivial
            · exact ih act hact
          · cases hact
        · cases hact
      split at hact
      · split at hact
        · exact ih act hact
        · cases hact
      split at hact
      · rcases mem_append.mp hact with hact | hact
        · exact relocs_short act hact
        · exact ih act hact
      split at hact
      · rcases mem_append.mp hact with hact | hact
        · exact relocs_short act hact
        · exact ih act hact
      split at hact
      · exact ih act hact
      · split at hact
        · exact ih act hact
        · cases hact
    · cases hact

/-! ### The log tells -/

lemma inside_iff {len lo hi : Nat} : Store.inside ⟨addr, len, lo, hi⟩ = true ↔
    lo ≤ addr ∧ addr + len ≤ hi ∧ hi ≤ 0x1000000 := decide_eq_true_iff

lemma patch_log (hd : h.drops n = false) (base : Nat) :
    (⟨u32 (h.base + n), 4, h.base, h.base + h.bytes⟩ : Store) ∈ (l.patch e h base n).log := by
  unfold Hunk.drops at hd
  simp only [or_eq_false_iff, decide_eq_false_iff_not] at hd
  unfold Load.patch
  rw [if_pos (by omega)]
  split
  · exact mem_cons_self
  rename_i hwin
  have hlt : u32 (h.base + n) < GUEST_RAM_SIZE - 3 := by
    have hout := hd.2
    rw [Bool.not_eq_true] at hwin
    rw [hwin] at hout
    simp only [Bool.not_false, Bool.true_and, decide_eq_false_iff_not] at hout
    omega
  rw [if_pos hlt]
  exact mem_cons_self

lemma act_ok_of_log (hshort : act.short)
    (hin : ∀ st ∈ (perform e f hs l act).log, st.inside = true) : act_ok hs act = true := by
  cases act with
  | copy cur p bytes =>
    cases hcur : hs[cur]? with
    | none => simp only [act_ok, hcur]
    | some h =>
      simp only [act_ok, perform, hcur] at hin ⊢
      have hst := inside_iff.mp (hin _ mem_cons_self)
      exact decide_eq_true (by omega)
  | patch cur ref_hunk offset =>
    cases hcur : hs[cur]? with
    | none => simp only [act_ok, hcur]
    | some h =>
      cases href : hs[ref_hunk]? with
      | none => simp only [act_ok, hcur, href]
      | some t =>
        simp only [act_ok, perform, hcur, href, or_eq_true, decide_eq_true_eq] at hin ⊢
        cases hdrops : h.drops offset with
        | true => exact .inr rfl
        | false =>
          -- a longword that wraps round is in front of the hunk
          have hst := inside_iff.mp (hin _ (patch_log hdrops t.base))
          have hoff : offset < 2 ^ 32 := hshort
          unfold u32 at hst
          exact .inl (by omega)

lemma acts_ok_of_log (hshort : ∀ act ∈ acts, act.short)
    (hin : ∀ st ∈ (acts.foldl (perform e f hs) l).log, st.inside = true) :
    acts.all (act_ok hs) = true := by
  induction acts generalizing l with
  | nil => rfl
  | cons act acts ih =>
    rw [all_cons, and_eq_true]
    refine ⟨act_ok_of_log (e := e) (f := f) (l := l) (hshort act mem_cons_self) fun st hst => ?_,
      ih (forall_mem_cons.mp hshort).2 hin⟩
    have hgrows : Grows (perform e f hs l act)
      (acts.foldl (perform e f hs) (perform e f hs l act)) :=
      grows_performs
    exact hin st (hgrows st hst)

/-- The size words tell that the blocks fit. -/
lemma size_of_log (h4 : h.bytes % 4 = 0) (hlt : h.bytes < 2 ^ 32)
    (hin : Store.inside ⟨h.blk, 4, h.blk, h.blk + h.size⟩ = true) :
    h.roomy = true ∨ h.bytes = 2 ^ 32 - 4 := by
  have hst := inside_iff.mp hin
  unfold Hunk.roomy
  unfold Hunk.size u32 at hst
  unfold GUEST_RAM_SIZE
  rw [decide_eq_true_eq]
  omega

lemma checked_of_contained (hc : Contained e s f) : checked e s f = true := by
  obtain ⟨r, hret, hin, -⟩ := hc
  unfold hunk_load at hret
  unfold checked
  cases hhead : read_header f with
  | none => rfl
  | some np =>
    obtain ⟨n_hunks, p⟩ := np
    simp only [hhead] at hret ⊢
    cases halloc : alloc_hunks e f n_hunks 0 p [] ⟨s, []⟩ with
    | none =>
      rw [halloc] at hret
      cases hret
    | some a =>
      have hlog := (alloc_hunks_log halloc).2
      cases a with
      | failed hs l =>
        simp only [halloc] at hret ⊢
        cases hret
        refine List.all_eq_true.mpr fun h hh => ?_
        obtain ⟨h4, hlt, hmem⟩ := (hlog h hh).resolve_left not_mem_nil
        rw [or_eq_true, beq_iff_eq]
        exact size_of_log h4 hlt (hin _ hmem)
      | done q hs l =>
        simp only [halloc] at hret ⊢
        have hin' : ∀ st ∈ ((records f n_hunks f.size 0 q).1.foldl (perform e f hs)
            (link_hunks hs l)).log, st.inside = true := by
          intro st hst
          generalize hpos : (records f n_hunks f.size 0 q).2 = r at hret
          cases r with
          | none =>
            cases hret
            exact hin st hst
          | some p' =>
            exact hin st (grows_finish hret st hst)
        rw [and_eq_true]
        refine ⟨List.all_eq_true.mpr fun h hh => ?_, acts_ok_of_log records_short hin'⟩
        obtain ⟨h4, hlt, hmem⟩ := (hlog h hh).resolve_left not_mem_nil
        refine (size_of_log h4 hlt (hin' _ (grows_performs _ (grows_link _ hmem)))).resolve_right ?_
        intro hbytes
        -- the link of a block of four bytes is behind it
        have hst := inside_iff.mp (hin' _ (grows_performs _ (link_hunks_log hh)))
        have hsize : h.size = 4 := by
          unfold Hunk.size
          rw [hbytes]
          rfl
        rw [u32_of_lt (by omega)] at hst
        omega

/-! ## The law -/

/-- For every byte string the loader stays in the blocks of the load exactly when the checks that
it leaves out would pass. -/
theorem load_stays_in_its_blocks_iff (e : Env) (f : Image) (hs : Fresh s) :
    Contained e s f ↔ checked e s f = true := ⟨checked_of_contained, contained_of_checked hs⟩

/-- A file of longwords. -/
def longs (ws : List Nat) : Buf := fun j => (ws.flatMap ffs.be32_bytes).getD j 0

/-- A load file that is given as longwords. -/
def Image.of_longs (ws : List Nat) (h : 4 * ws.length + GUEST_RAM_SIZE ≤ 2 ^ 32) : Image :=
  ⟨longs ws, 4 * ws.length, 0, by omega⟩

/-- Empty windows. -/
def blank : Sys := Sys.boot (fun _ _ => 0) ⟨PROG_BASE, by decide⟩

lemma blank_fresh : Fresh blank := ⟨⟨_, Sys.Ok.boot _ _⟩, rfl, rfl⟩

/-- No fault injection, and no program before. -/
def plain : Env := ⟨fun _ => false, false, 0, 0, 0⟩

/-- Two hunks with a body, a longword that is relocated and cleared memory. -/
def good_file : Image :=
  .of_longs [HUNK_HEADER, 0, 2, 0, 1, 2, 3, HUNK_CODE, 2, 0x4E75, 8, HUNK_RELOC32, 1, 1, 4,
    0, HUNK_END,
    HUNK_BSS, 3, HUNK_END] (by decide)

theorem good_file_stays_in_its_blocks : Fresh blank ∧ Contained plain blank good_file :=
  ⟨blank_fresh, (load_stays_in_its_blocks_iff plain good_file blank_fresh).mpr (by decide +kernel)⟩

/-- A hunk of four bytes with a body of twelve. -/
def long_body : Image :=
  .of_longs [HUNK_HEADER, 0, 1, 0, 0, 1, HUNK_CODE, 3, 1, 2, 3, HUNK_END] (by decide)

/-- A hunk of four bytes with a longword to relocate far behind it. -/
def far_patch : Image :=
  .of_longs [HUNK_HEADER, 0, 1, 0, 0, 1, HUNK_CODE, 1, 1, HUNK_RELOC32, 1, 0, 0x100, 0, HUNK_END]
    (by decide)

/-- The load succeeds and changes the byte at `j`, which is in no block of it. -/
def spills (f : Image) (j : Nat) : Bool :=
  (hunk_load plain blank f).any fun r => decide (r.entry ≠ 0) &&
    decide (r.load.sys.heap_ptr.val ≤ j ∧ j < HEAP_FAST_START) && r.load.ram j != blank.here.ram j

theorem bodies_and_patches_spill : Fresh blank ∧
    spills long_body 0x2000F = true ∧ ¬ Contained plain blank long_body ∧
    spills far_patch 0x2010B = true ∧ ¬ Contained plain blank far_patch := by
  refine ⟨blank_fresh, by decide +kernel, fun hc => ?_, by decide +kernel, fun hc => ?_⟩
  · exact absurd (checked_of_contained hc) (by decide +kernel)
  · exact absurd (checked_of_contained hc) (by decide +kernel)

end uaos.hunk
