-- Which files the loader handles safely. It is safe for a file that its header gives away, for
-- one that the heap has no room for, and for one whose file ranges, segments and relocations are
-- what the loader does not check.
import Uaos.Elf

namespace uaos.elf

open List Option Phdr

variable {phs segs : List Phdr} {n : Nat} {ph : Phdr}

section checks

variable {σ : Type} (H : Allocator σ) (f : File)

/-! ## What a load should guarantee -/

/-- Every file range lies in the file, and every segment and every patched word in the image. -/
structure Fits (phs : List Phdr) (m : Image) : Prop where
  files : ∀ ph ∈ phs, ph.p_filesz = 0 ∨ ph.p_offset + ph.p_filesz ≤ f.size
  segments : ∀ ph ∈ phs, ph.loads = true → m.holds (m.dest ph.p_vaddr) ph.p_memsz = true
  relocs : ∀ i < sections f, ∀ t, rela_table f i = some (some t) → ∀ r < t.count,
    ∀ offset value, rela_entry f t r = some (some (offset, value)) →
      m.holds (u64 (m.bias + offset)) 8 = true

/-- The end of a load that began with the heap `s`: it succeeds only if everything fits, and one
that fails leaves no block behind. -/
def SafeEnd (s : σ) : Option (σ × Buf × Except Error Loaded) → Prop
  | none => False
  | some (t, _, .error _) => H.live t = H.live s
  | some (_, _, .ok r) => ∃ phs, f.phdrs = some phs ∧ Fits f phs r.image

def Safe (s : σ) (mem : Buf) (argv : List (List UInt8)) : Prop :=
  SafeEnd H f s (ELF64_Load H f s mem argv)

/-! ## What the loader does not check -/

def files_inside (phs : List Phdr) : Bool :=
  phs.all fun ph => ph.p_filesz = 0 || ph.p_offset + ph.p_filesz ≤ f.size

/-- Every segment ends in the image that was measured for all of them. -/
def segments_inside (m : Image) (segs : List Phdr) : Bool := m.base + m.size ≤ 2 ^ 64 &&
    segs.all fun ph => sub64 ph.p_vaddr m.min_vaddr + ph.p_memsz ≤ m.size

/-- A relocation is read from the file, and what it patches lies in the image. -/
def entry_inside (m : Image) (t : RelaTable) (r : Nat) : Bool :=
  match rela_entry f t r with
  | none => false
  | some none => true
  | some (some (offset, _)) => sub64 offset m.min_vaddr + 8 ≤ m.size

def entries_inside (m : Image) (t : RelaTable) : Nat → Nat → Bool
  | 0, _ => true
  | n + 1, r => entry_inside f m t r && entries_inside m t n (r + 1)

def section_inside (m : Image) (i : Nat) : Bool :=
  match rela_table f i with
  | none => false
  | some none => true
  | some (some t) => entries_inside f m t t.count 0

def sections_inside (m : Image) : Nat → Nat → Bool
  | 0, _ => true
  | n + 1, i => section_inside f m i && sections_inside m n (i + 1)

/-- The stack pointer, or none if the arguments are too long or the heap has no room. -/
def stack_of (s : σ) (argv : List (List UInt8)) : Option (Option Nat) :=
  if args_too_long argv then some none
  else match H.alloc s X64_STACK_SIZE 16 with
  | none => none
  | some (_, stack) =>
    if stack = 0 then some none
    else if 64 < argv.length then none
    else some (some (stack_pointer stack argv))

/-- The header is rejected, the heap has no room for the image, or everything is inside and the
heap has room for the stack too. A file without an image may be refused a stack. -/
def checked (s : σ) (argv : List (List UInt8)) : Bool :=
  match f.rejects with
  | some _ => true
  | none =>
    match f.phdrs with
    | none => false
    | some phs =>
      let segs := phs.filter loads
      match place H f s segs with
      | none => false
      | some (_, .error _) => true
      | some (t, .ok m) =>
        sections_inside f m (sections f) 0 &&
          match stack_of H t argv with
          | none => false
          | some none => (footprint segs).2 = 0
          | some (some rsp) => rsp ≠ 0 && files_inside f phs && segments_inside m segs

end checks

section proofs

variable {σ : Type} {H : Allocator σ} {f : File} {m : Image} {mem : Buf}

/-! ## Ranges in the image -/

lemma sub64_lt (a b : Nat) : sub64 a b < 2 ^ 64 := Nat.mod_lt _ (by decide)

/-- A range that starts `d` bytes into the image. -/
lemma holds_iff {d : Nat} (hm : m.base + m.size ≤ 2 ^ 64) (hd : d < 2 ^ 64) (hn : 0 < n) :
    m.holds (u64 (m.base + d)) n = true ↔ d + n ≤ m.size := by
  simp only [Image.holds, Bool.and_eq_true, decide_eq_true_eq]
  unfold u64
  omega

lemma bias_add (offset : Nat) :
    u64 (m.bias + offset) = u64 (m.base + sub64 offset m.min_vaddr) := by
  unfold Image.bias sub64 u64
  omega

/-! ## The segments -/

lemma footprint_spec (segs : List Phdr) :
    ∀ ph ∈ segs, (footprint segs).1 ≤ ph.p_vaddr ∧ phdr_end ph ≤ (footprint segs).2 := by
  have hfold : ∀ (segs : List Phdr) (a : Nat × Nat),
      let b := segs.foldl (fun a ph => (min a.1 ph.p_vaddr, max a.2 (phdr_end ph))) a
      (b.1 ≤ a.1 ∧ a.2 ≤ b.2) ∧ ∀ ph ∈ segs, b.1 ≤ ph.p_vaddr ∧ phdr_end ph ≤ b.2 := by
    intro segs
    induction segs with
    | nil => exact fun a => ⟨⟨le_refl _, le_refl _⟩, fun ph hph => absurd hph not_mem_nil⟩
    | cons seg segs ih =>
      intro a
      obtain ⟨⟨hlo, hhi⟩, hall⟩ := ih (min a.1 seg.p_vaddr, max a.2 (phdr_end seg))
      rw [Nat.le_min] at hlo
      rw [Nat.max_le] at hhi
      refine ⟨⟨hlo.1, hhi.1⟩, fun ph hph => ?_⟩
      rcases mem_cons.mp hph with rfl | hph
      · exact ⟨hlo.2, hhi.2⟩
      · exact hall ph hph
  exact (hfold segs _).2

lemma copy_segments_holds {mem' : Buf} (h : copy_segments H f m segs mem = some (.ok mem')) :
    ∀ ph ∈ segs, m.holds (m.dest ph.p_vaddr) ph.p_memsz = true := by
  induction segs generalizing mem with
  | nil => exact fun ph hph => absurd hph not_mem_nil
  | cons seg segs ih =>
    unfold copy_segments at h
    split at h
    · cases h
    generalize hc : copy_segment f m mem seg = r at h
    cases r with
    | none =>
      cases h
    | some mem'' =>
      intro ph hph
      rcases mem_cons.mp hph with rfl | hph
      · unfold copy_segment at hc
        simp only at hc
        split at hc
        · assumption
        · cases hc
      · exact ih h ph hph

lemma copy_segments_ok (h : ∀ ph ∈ segs, recheck_fails H f m ph = false ∧
      m.holds (m.dest ph.p_vaddr) ph.p_memsz = true) :
    ∃ mem', copy_segments H f m segs mem = some (.ok mem') := by
  induction segs generalizing mem with
  | nil => exact ⟨mem, rfl⟩
  | cons seg segs ih =>
    obtain ⟨hcheck, hholds⟩ := h seg mem_cons_self
    unfold copy_segments
    rw [hcheck]
    simp only [Bool.false_eq_true, if_false, copy_segment, hholds, if_true]
    exact ih (forall_mem_cons.mp h).2

/-- What a place for the image is. -/
structure Placed (H : Allocator σ) (f : File) (segs : List Phdr) (s t : σ) (m : Image) : Prop where
  live : ∃ p, H.live t = p :: H.live s
  size : m.size = sub64 (footprint segs).2 (footprint segs).1
  min : m.min_vaddr = (footprint segs).1
  exec : f.e_type ≠ ET_DYN →
    m.base = (footprint segs).1 ∧ H.heap0 ≤ m.base ∧ (footprint segs).2 ≤ H.stop

variable {t s : σ}

lemma taken_spec {r : Option (σ × Nat)} {img : Nat → Image} {x : Except Error Image}
    (h : taken r img = some (t, x)) :
    ∃ p, r = some (t, p) ∧ (p = 0 ∧ x = .error .no_heap ∨ p ≠ 0 ∧ x = .ok (img p)) := by
  obtain ⟨⟨t', p⟩, hr, he⟩ := map_eq_some_iff.mp h
  cases he
  refine ⟨p, hr, ?_⟩
  split_ifs with hp
  · exact .inl ⟨hp, rfl⟩
  · exact .inr ⟨hp, rfl⟩

lemma place_spec {x : Except Error Image} (h : place H f s segs = some (t, x)) :
    (∃ e, x = .error e ∧ H.live t = H.live s) ∨
      (∃ m, x = .ok m ∧ (footprint segs).2 = 0 ∧ m = .empty ∧ t = s) ∨
      ∃ m, x = .ok m ∧ (footprint segs).2 ≠ 0 ∧ Placed H f segs s t m := by
  unfold place at h
  simp only at h
  split at h
  · rename_i hz
    cases h
    exact .inr (.inl ⟨_, rfl, hz, rfl, rfl⟩)
  rename_i hz
  split at h
  · rename_i hdyn
    obtain ⟨p, hr, ⟨rfl, rfl⟩ | ⟨hp, rfl⟩⟩ := taken_spec h
    · exact .inl ⟨_, rfl, H.alloc_live _ _ _ _ _ hr⟩
    · have hlive := H.alloc_live _ _ _ _ _ hr
      rw [if_neg hp] at hlive
      exact .inr (.inr ⟨_, rfl, hz, ⟨p, hlive⟩, rfl, rfl, fun hne => absurd hdyn hne⟩)
  · split at h
    · cases h
      exact .inl ⟨_, rfl, rfl⟩
    rename_i hin
    rw [not_or, not_lt, not_lt] at hin
    obtain ⟨p, hr, ⟨rfl, rfl⟩ | ⟨hp, rfl⟩⟩ := taken_spec h
    · exact .inl ⟨_, rfl, H.reserve_live _ _ _ _ _ hr⟩
    · have hlive := H.reserve_live _ _ _ _ _ hr
      rw [if_neg hp] at hlive
      exact .inr (.inr ⟨_, rfl, hz, ⟨p, hlive⟩, rfl, rfl, fun _ => ⟨rfl, hin.1, hin.2⟩⟩)

/-- The second check of an ET_EXEC file never fails. -/
lemma recheck_passes (hp : Placed H f segs s t m)
    (hph : ph ∈ segs) (hlt : ph.p_vaddr < 2 ^ 64) : recheck_fails H f m ph = false := by
  unfold recheck_fails
  by_cases hexec : f.e_type = ET_EXEC
  · obtain ⟨hbase, hlow, hhigh⟩ := hp.exec (by rw [hexec]; decide)
    obtain ⟨hlo, hhi⟩ := footprint_spec segs ph hph
    have hdest : m.dest ph.p_vaddr = ph.p_vaddr := by
      unfold Image.dest
      rw [hp.min, hbase, sub64_of_le hlo hlt, Nat.add_sub_cancel' hlo, u64_of_lt hlt]
    rw [hdest]
    unfold phdr_end at hhi
    simp only [Bool.and_eq_false_imp, Bool.or_eq_false_iff, decide_eq_false_iff_not, not_lt]
    exact fun _ => ⟨by omega, by omega⟩
  · simp [hexec]

/-! ## The relocations -/

section

variable (hm : m.base + m.size ≤ 2 ^ 64)

include hm

lemma relocate_inside (t : RelaTable) (r : Nat) :
    (relocate f m t r mem).isSome = entry_inside f m t r := by
  unfold relocate entry_inside
  cases rela_entry f t r with
  | none => rfl
  | some e =>
    cases e with
    | none => rfl
    | some e =>
      simp only [Image.store, bias_add]
      rw [Bool.eq_iff_iff, decide_eq_true_eq, ← holds_iff hm (sub64_lt _ _) (by decide)]
      split <;> simp_all

lemma relocate_from_inside (t : RelaTable) (n r : Nat) :
    (relocate_from f m t n r mem).isSome = entries_inside f m t n r := by
  induction n generalizing r mem with
  | zero => rfl
  | succ n ih =>
    have hone : (relocate f m t r mem).isSome = entry_inside f m t r := relocate_inside hm t r
    unfold relocate_from entries_inside
    generalize hr : relocate f m t r mem = r at hone
    cases r with
    | none =>
      rw [← hone]
      rfl
    | some mem' =>
      rw [← hone]
      exact ih (r + 1)

lemma relocate_section_inside (i : Nat) :
    (relocate_section f m i mem).isSome = section_inside f m i := by
  unfold relocate_section section_inside
  cases rela_table f i with
  | none => rfl
  | some t =>
    cases t with
    | none => rfl
    | some t => exact relocate_from_inside hm t t.count 0

lemma relocate_sections_inside (n i : Nat) :
    (relocate_sections f m n i mem).isSome = sections_inside f m n i := by
  induction n generalizing i mem with
  | zero => rfl
  | succ n ih =>
    have hone : (relocate_section f m i mem).isSome = section_inside f m i :=
      relocate_section_inside hm i
    unfold relocate_sections sections_inside
    generalize hr : relocate_section f m i mem = r at hone
    cases r with
    | none =>
      rw [← hone]
      rfl
    | some mem' =>
      rw [← hone]
      exact ih (i + 1)

end

lemma all_from {p : Nat → Bool} {all : Nat → Nat → Bool} {i : Nat}
    (hall : ∀ n i, all (n + 1) i = (p i && all n (i + 1))) (h : all n i = true) :
    ∀ k, i ≤ k → k < i + n → p k = true := by
  induction n generalizing i with
  | zero => exact fun k hk hlt => by omega
  | succ n ih =>
    intro k hk hlt
    rw [hall, Bool.and_eq_true] at h
    by_cases he : k = i
    · rw [he]
      exact h.1
    · exact ih h.2 k (by omega) (by omega)

lemma entries_inside_spec {t : RelaTable} {r : Nat} (h : entries_inside f m t n r = true) :
    ∀ k, r ≤ k → k < r + n → entry_inside f m t k = true := all_from (fun _ _ => rfl) h

lemma sections_inside_spec {i : Nat} (h : sections_inside f m n i = true) :
    ∀ k, i ≤ k → k < i + n → section_inside f m k = true := all_from (fun _ _ => rfl) h

/-- Every word that is patched lies in the image. -/
lemma relocs_hold (hm : m.base + m.size ≤ 2 ^ 64)
    (h : sections_inside f m (sections f) 0 = true) :
    ∀ i < sections f, ∀ t, rela_table f i = some (some t) → ∀ r < t.count,
      ∀ offset value, rela_entry f t r = some (some (offset, value)) →
        m.holds (u64 (m.bias + offset)) 8 = true := by
  intro i hi t ht r hr offset value he
  have hsection := sections_inside_spec h i (Nat.zero_le _) (by omega)
  unfold section_inside at hsection
  rw [ht] at hsection
  have hentry := entries_inside_spec hsection r (Nat.zero_le _) (by omega)
  unfold entry_inside at hentry
  rw [he] at hentry
  rw [bias_add, holds_iff hm (sub64_lt _ _) (by decide)]
  exact of_decide_eq_true hentry

/-! ## The stack -/

/-- What `build_initial_stack` returns, and what it takes from the heap. -/
lemma stack_of_spec (s : σ) (argv : List (List UInt8)) (mem : Buf) :
    (stack_of H s argv = none ∧ build_initial_stack H s argv mem = none) ∨
      (∃ t mem', stack_of H s argv = some none ∧
        build_initial_stack H s argv mem = some (t, mem', 0) ∧ H.live t = H.live s) ∨
      ∃ t mem' rsp p, stack_of H s argv = some (some rsp) ∧
        build_initial_stack H s argv mem = some (t, mem', rsp) ∧ H.live t = p :: H.live s := by
  unfold stack_of build_initial_stack
  split
  · exact .inr (.inl ⟨s, mem, rfl, rfl, rfl⟩)
  cases ha : H.alloc s X64_STACK_SIZE 16 with
  | none => exact .inl ⟨rfl, rfl⟩
  | some r =>
    obtain ⟨t, stack⟩ := r
    have hlive := H.alloc_live _ _ _ _ _ ha
    simp only
    by_cases hz : stack = 0
    · rw [if_pos hz] at hlive ⊢
      rw [if_pos hz]
      exact .inr (.inl ⟨t, mem, rfl, rfl, hlive⟩)
    simp only [hz, if_false] at hlive ⊢
    by_cases hargs : 64 < argv.length
    · simp only [hargs, if_true]
      exact .inl ⟨trivial, trivial⟩
    · simp only [hargs, if_false]
      exact .inr (.inr ⟨t, _, _, stack, rfl, rfl, hlive⟩)

/-! ## The whole load -/

lemma segments_hold (hloads : ∀ ph ∈ segs, ph.loads = true) (hm : m.base + m.size ≤ 2 ^ 64) :
    segments_inside m segs = true ↔ ∀ ph ∈ segs, m.holds (m.dest ph.p_vaddr) ph.p_memsz = true := by
  have hpos {ph : Phdr} (hph : ph ∈ segs) : 0 < ph.p_memsz := by
    have := hloads ph hph
    simp only [loads, Bool.and_eq_true, decide_eq_true_eq] at this
    exact Nat.pos_of_ne_zero this.2
  simp only [segments_inside, hm, decide_true, Bool.true_and, List.all_eq_true, decide_eq_true_eq]
  constructor
  · intro h ph hph
    exact (holds_iff hm (sub64_lt _ _) (hpos hph)).mpr (h ph hph)
  · intro h ph hph
    exact (holds_iff hm (sub64_lt _ _) (hpos hph)).mp (h ph hph)

lemma holds_bound {addr : Nat} (h : m.holds addr n = true) : m.base + m.size ≤ 2 ^ 64 := by
  simp only [Image.holds, Bool.and_eq_true, decide_eq_true_eq] at h
  exact h.2

lemma files_hold : files_inside f phs = true ↔
    ∀ ph ∈ phs, ph.p_filesz = 0 ∨ ph.p_offset + ph.p_filesz ≤ f.size := by
  simp [files_inside]

/-- The end of a load whose segments have been copied, if the relocations are inside. -/
def end_ok (H : Allocator σ) (f : File) (s t : σ) (m : Image) (phs : List Phdr) :
    Option (Option Nat) → Bool
  | none => false
  | some none => H.live t = H.live s
  | some (some rsp) =>
    rsp ≠ 0 && files_inside f phs && segments_inside m (phs.filter loads)

lemma fits_iff (hm : m.base + m.size ≤ 2 ^ 64)
    (hinside : sections_inside f m (sections f) 0 = true) : Fits f phs m ↔
      files_inside f phs = true ∧ segments_inside m (phs.filter loads) = true := by
  rw [files_hold, segments_hold (fun ph hph => (mem_filter.mp hph).2) hm]
  constructor
  · intro h
    refine ⟨h.files, fun ph hph => ?_⟩
    rw [mem_filter] at hph
    exact h.segments ph hph.1 hph.2
  · intro h
    refine ⟨h.1, fun ph hph hload => ?_, relocs_hold hm hinside⟩
    exact h.2 ph (mem_filter.mpr ⟨hph, hload⟩)

/-- Relocations and stack. -/
lemma finish_safe {argv : List (List UInt8)}
    (hphs : f.phdrs = some phs) (hm : m.base + m.size ≤ 2 ^ 64)
    (hlive : (H.live s).length ≤ (H.live t).length) : SafeEnd H f s (finish H f t m argv mem) ↔
      (sections_inside f m (sections f) 0 && end_ok H f s t m phs (stack_of H t argv)) = true := by
  have hrelocs : (relocate_sections f m (sections f) 0 mem).isSome =
      sections_inside f m (sections f) 0 := relocate_sections_inside hm (sections f) 0
  unfold finish apply_relocations
  generalize hr : relocate_sections f m (sections f) 0 mem = r at hrelocs
  cases r with
  | none =>
    rw [← hrelocs]
    simp [SafeEnd]
  | some mem1 =>
    have hinside : sections_inside f m (sections f) 0 = true := hrelocs.symm
    rw [hinside, Bool.true_and]
    rcases stack_of_spec (H := H) t argv mem1 with
      ⟨hs, hb⟩ | ⟨u, mem2, hs, hb, hu⟩ | ⟨u, mem2, rsp, p, hs, hb, hu⟩
    · simp [hs, hb, SafeEnd, end_ok]
    · simp [hs, hb, SafeEnd, end_ok, hu]
    simp only [hs, hb, end_ok]
    by_cases hz : rsp = 0
    · -- the stack would be left behind
      simp only [hz, if_true, SafeEnd, ne_eq, not_true, decide_false, Bool.false_and,
        Bool.false_eq_true, iff_false]
      intro he
      have := congrArg List.length (hu.symm.trans he)
      rw [length_cons] at this
      omega
    · simp only [hz, if_false, SafeEnd, ne_eq, not_false_iff, decide_true, Bool.true_and,
        Bool.and_eq_true, hphs, Option.some.injEq, exists_eq_left']
      exact fits_iff hm hinside

lemma mem_mapM {α β : Type} {g : α → Option β} {l : List α} {r : List β}
    (h : l.mapM g = some r) : ∀ y ∈ r, ∃ x, g x = some y := by
  induction l generalizing r with
  | nil =>
    cases h
    exact fun y hy => absurd hy not_mem_nil
  | cons x l ih =>
    simp only [mapM_cons, Option.pure_def, bind_eq_bind, bind_eq_some_iff] at h
    obtain ⟨z, hz, rs, hrs, he⟩ := h
    cases he
    intro y hy
    rcases mem_cons.mp hy with rfl | hy
    · exact ⟨x, hz⟩
    · exact ih hrs y hy

lemma phdr_vaddr_lt (h : f.phdrs = some phs) (hph : ph ∈ phs) : ph.p_vaddr < 2 ^ 64 := by
  obtain ⟨i, hi⟩ := mem_mapM h ph hph
  unfold File.phdr at hi
  simp only at hi
  split at hi
  · cases hi
    exact le64_lt _ _
  · cases hi

lemma segs_ne_nil (h : (footprint segs).2 ≠ 0) : ∃ ph, ph ∈ segs := by
  cases segs with
  | nil => exact absurd rfl h
  | cons ph segs => exact ⟨ph, mem_cons_self⟩

/-- The segments are copied exactly if they all lie in the image. -/
lemma copy_segments_iff (hphs : f.phdrs = some phs) (hnz : (footprint (phs.filter loads)).2 ≠ 0)
    (hp : Placed H f (phs.filter loads) s t m) :
    (∃ mem', copy_segments H f m (phs.filter loads) mem = some (.ok mem')) ↔
      segments_inside m (phs.filter loads) = true := by
  have hloads : ∀ ph ∈ phs.filter loads, ph.loads = true := fun ph hph => (mem_filter.mp hph).2
  constructor
  · rintro ⟨mem', hcopy⟩
    have hall := copy_segments_holds hcopy
    obtain ⟨ph, hph⟩ := segs_ne_nil hnz
    exact (segments_hold hloads (holds_bound (hall ph hph))).mpr hall
  · intro h
    have hm : m.base + m.size ≤ 2 ^ 64 := by
      simp only [segments_inside, Bool.and_eq_true, decide_eq_true_eq] at h
      exact h.1
    refine copy_segments_ok fun ph hph => ⟨recheck_passes hp hph ?_, ?_⟩
    · exact phdr_vaddr_lt hphs (mem_filter.mp hph).1
    · exact (segments_hold hloads hm).mp h ph hph

/-- The loader is safe for exactly the files and heaps that pass the checks it does not make. -/
theorem the_load_is_safe_iff_checked (H : Allocator σ) (f : File) (s : σ) (mem : Buf)
    (argv : List (List UInt8)) : Safe H f s mem argv ↔ checked H f s argv = true := by
  unfold Safe ELF64_Load checked
  cases hrej : f.rejects with
  | some e => simp [SafeEnd]
  | none =>
    cases hphs : f.phdrs with
    | none => simp [SafeEnd]
    | some phs =>
      simp only
      unfold load_segments
      cases hpl : place H f s (phs.filter loads) with
      | none => simp [SafeEnd]
      | some r =>
        obtain ⟨t, x⟩ := r
        rcases place_spec hpl with ⟨e, rfl, hlive⟩ | ⟨m, rfl, hz, rfl, rfl⟩ | ⟨m, rfl, hnz, hp⟩
        · simp [SafeEnd, hlive]
        · -- no image: nothing is copied
          simp only [hz, if_true, copy_segments]
          rw [finish_safe hphs (by decide) (le_refl _)]
          rcases hs : stack_of H t argv with _ | _ | rsp
          · simp [end_ok]
          · simp [end_ok]
          · simp [end_ok]
        · obtain ⟨p, hlive⟩ := hp.live
          have hne : H.live t ≠ H.live s := by
            rw [hlive]
            exact cons_ne_self _ _
          have hiff : (∃ mem', copy_segments H f m (phs.filter loads) mem = some (.ok mem')) ↔
              segments_inside m (phs.filter loads) = true := copy_segments_iff hphs hnz hp
          simp only [hnz, if_false]
          by_cases hseg : segments_inside m (phs.filter loads) = true
          · obtain ⟨mem1, hcopy⟩ := hiff.mpr hseg
            have hm : m.base + m.size ≤ 2 ^ 64 := by
              simp only [segments_inside, Bool.and_eq_true, decide_eq_true_eq] at hseg
              exact hseg.1
            simp only [hcopy]
            rw [finish_safe hphs hm (by simp [hlive])]
            rcases stack_of H t argv with _ | _ | rsp
            · simp [end_ok]
            · simp [end_ok, hne]
            · simp [end_ok]
          · -- the copy leaves the image, or the image is left behind
            have hno : ∀ mem1, copy_segments H f m (phs.filter loads) mem ≠ some (.ok mem1) :=
              fun mem1 hcopy => hseg (hiff.mp ⟨mem1, hcopy⟩)
            have hend : ∀ o, copy_segments H f m (phs.filter loads) mem = o →
                o = none ∨ ∃ e, o = some (.error e) := by
              rintro (_ | e | mem1) ho
              · exact .inl rfl
              · exact .inr ⟨e, rfl⟩
              · exact absurd ho (hno mem1)
            rcases hend _ rfl with hcopy | ⟨e, hcopy⟩
            · rcases stack_of H t argv with _ | _ | rsp <;> simp [hcopy, SafeEnd, hseg]
            · rcases stack_of H t argv with _ | _ | rsp <;> simp [hcopy, SafeEnd, hne, hseg]

end proofs

/-! ## The x64 heap -/

/-- The heap of the kernel, with the allocations that are made to fail. -/
def x64_allocator (A : x64.Arena) : Allocator (x64.State × List Bool) where
  heap0 := A.heap0
  stop := A.stop
  live s := s.1.loans.map x64.Loan.ptr
  alloc s size align :=
    (s.1.alloc A size align 0 (s.2.headD false)).map fun r => ((r.1, s.2.tail), r.2)
  reserve s addr size := (s.1.reserve A addr size 0).map fun r => ((r.1, s.2), r.2)
  alloc_live s size align t p h := by
    obtain ⟨⟨st, q⟩, hst, he⟩ := map_eq_some_iff.mp h
    obtain ⟨⟨g, r⟩, -, hg⟩ := map_eq_some_iff.mp hst
    cases hg
    cases he
    simp only [x64.State.lend]
    split <;> rfl
  reserve_live s addr size t p h := by
    obtain ⟨⟨st, q⟩, hst, he⟩ := map_eq_some_iff.mp h
    obtain ⟨⟨g, r⟩, -, hg⟩ := map_eq_some_iff.mp hst
    cases hg
    cases he
    simp only [x64.State.lend]
    split <;> rfl

/-- The bytes of a file, each run of them with its offset, and zeros between them. -/
def bytes_of (runs : List (Nat × List UInt8)) : Buf :=
  runs.foldl (fun b r => put b r.1 r.2) fun _ => 0

/-- The header of a shared object with one program header and `n` sections behind it. -/
def dyn_header (n : UInt8) : List (Nat × List UInt8) :=
  [(0, [0x7f, 0x45, 0x4c, 0x46, 2, 1, 1]), (16, [3]), (18, [62]), (32, [64]),
    (40, [120]), (54, [56]),
    (56, [1]), (58, [64]), (60, [n]), (64, [1]), (104, [16])]

/-- The 16 bytes of its segment lie behind the end of the file. -/
def short_file : File := ⟨bytes_of (dyn_header 0 ++ [(73, [1]), (96, [16])]), 120, by decide⟩

/-- Its only relocation patches a word at 0x10000, the image has 16 bytes. -/
def stray_file : File :=
  ⟨bytes_of (dyn_header 2 ++ [(124, [4]), (144, [248]), (152, [24]), (160, [1]), (176, [24]),
    (188, [2]), (250, [1]), (256, [8])]), 272, by decide⟩

/-- Nothing is wrong with it. -/
def plain_file : File := ⟨bytes_of (dyn_header 0), 120, by decide⟩

def loads {σ : Type} (r : σ × Buf × Except Error Loaded) : Bool :=
  match r.2.2 with
  | .ok _ => true
  | .error _ => false

/-- The load of a file into the empty heap, with the allocations that are made to fail. -/
def load_at_boot (f : File) (refused : List Bool) :
    Option ((x64.State × List Bool) × Buf × Except Error Loaded) :=
  ELF64_Load (x64_allocator x64.low_arena) f (x64.State.boot fun _ => 0, refused) (fun _ => 0) []

/-- A file that ends before its segment is loaded all the same, a relocation is applied outside
the image, and a load that finds no room for the stack keeps the image. -/
theorem the_loader_trusts_the_file : ((∃ r, load_at_boot short_file [] = some r ∧ loads r = true) ∧
      ∃ ph ∈ short_file.phdrs.getD [], short_file.size < ph.p_offset + ph.p_filesz) ∧
    (load_at_boot stray_file [] = none ∧
      ∃ t, rela_table stray_file 0 = some (some t) ∧ t.count = 1 ∧
        rela_entry stray_file t 0 = some (some (0x10000, 0))) ∧
    ∃ r, load_at_boot plain_file [false, true] = some r ∧ loads r = false ∧
      (x64_allocator x64.low_arena).live r.1 ≠ [] := by
  refine ⟨⟨?_, ?_⟩, ⟨?_, ?_⟩, ?_⟩
  · exact (Option.any_eq_true _ _).mp (by decide +kernel)
  · decide +kernel
  · exact isNone_iff_eq_none.mp (by decide +kernel)
  · exact ⟨_, rfl, by decide +kernel, by decide +kernel⟩
  have hany : (load_at_boot plain_file [false, true]).any
      (fun r => !loads r && (x64_allocator x64.low_arena).live r.1 ≠ []) = true := by
    decide +kernel
  obtain ⟨r, hr, hrest⟩ := (Option.any_eq_true _ _).mp hany
  simp only [Bool.and_eq_true, Bool.not_eq_true', decide_eq_true_eq] at hrest
  exact ⟨r, hr, hrest⟩

end uaos.elf
