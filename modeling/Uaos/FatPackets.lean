-- Runs of the packets that share one file: closing a handle that nothing was written
-- through leaves the directory entry, as long as no such handle is open when the
-- entry changes. When one is, its close puts the old values back.
import Uaos.FatSharing
import Uaos.FatBytes

namespace uaos.fat32

variable {g : Geom} {D : Nat → Prop} {e : Slot} {h h' : Handler} {w : Nat → Bool} {i j : Nat}
  {handle : UInt32}

/-! ## The tables -/

/-- A handle number, in the table of open files or in that of the locks. -/
inductive Ref where
  | file (k : Nat)
  | lock (k : Nat)
  deriving DecidableEq

/-- The pool index behind a handle number. -/
def node (h : Handler) : Ref → Option Nat
  | .file k => if k < FAT_MAX_FILES then h.fat_files k else none
  | .lock k =>
    if k < MAX_HANDLES then
      match h.entries k with
      | .lock i => some i
      | _ => none
    else none

/-- Every handle number stands for a handle in use, and no two for the same one. -/
structure Tables (h : Handler) : Prop where
  live : ∀ r i, node h r = some i → i < FAT32_MAX_FILES ∧ (h.fs.files i).in_use = true
  inj : ∀ r r' i, node h r = some i → node h r' = some i → r = r'

variable {r : Ref}

lemma handle_ne_zero (hh : handle ≠ 0) : handle.toNat ≠ 0 :=
  fun h0 => hh (UInt32.toNat_inj.mp h0)

lemma get_file_node (hget : fat_get_file_handle h handle = some i) :
    node h (.file (handle.toNat - 1)) = some i := by
  unfold fat_get_file_handle at hget
  split at hget
  · cases hget
  rename_i hh
  rw [not_or] at hh
  have h0 := handle_ne_zero hh.1
  rw [node, if_pos (by omega)]
  exact hget

lemma get_lock_node_eq (hget : get_lock_node h handle = some i) :
    node h (.lock (handle.toNat - 1)) = some i := by
  unfold get_lock_node at hget
  split at hget
  · cases hget
  rename_i hh
  rw [not_or] at hh
  have h0 := handle_ne_zero hh.1
  rw [node, if_pos (by omega)]
  exact hget

/-- Freeing a number of the table of open files takes away its handle, if it has one. -/
lemma node_free_file (r : Ref) :
    node { fat_free_file_handle h handle with fs := fs } r =
      if r = .file (handle.toNat - 1) ∧ (fat_get_file_handle h handle).isSome then none
      else node h r := by
  cases r with
  | lock k =>
    unfold fat_free_file_handle
    split <;> rfl
  | file k =>
    unfold fat_free_file_handle fat_get_file_handle
    by_cases hh : handle = 0 ∨ FAT_MAX_FILES < handle.toNat
    · rw [if_pos hh, if_pos hh, if_neg (by rintro ⟨_, hc⟩; cases hc)]
      rfl
    rw [if_neg hh, if_neg hh]
    by_cases hk : k = handle.toNat - 1
    · subst hk
      cases hf : h.fat_files (handle.toNat - 1) with
      | none => simp [node, hf]
      | some i => simp [node]
    · simp [node, hk]

/-- The same for the table of the locks. -/
lemma node_free_lock (r : Ref) :
    node { handle_table_free h handle with fs := fs } r =
      if r = .lock (handle.toNat - 1) ∧ (get_lock_node h handle).isSome then none
        else node h r := by
  cases r with
  | file k =>
    rw [if_neg (by rintro ⟨hc, _⟩; cases hc)]
    unfold handle_table_free
    split <;> rfl
  | lock k =>
    unfold handle_table_free get_lock_node
    by_cases hh : handle = 0 ∨ MAX_HANDLES < handle.toNat
    · rw [if_pos hh, if_pos hh, if_neg (by rintro ⟨_, hc⟩; cases hc)]
      rfl
    rw [if_neg hh, if_neg hh]
    by_cases hk : k = handle.toNat - 1
    · subst hk
      cases hf : h.entries (handle.toNat - 1) with
      | free => simp [node, hf]
      | other => simp [node, hf]
      | lock i => simp [node]
    · simp [node, hk]

/-- The handles keep their places in the pool. -/
lemma Tables.same (ht : Tables h) (hn : ∀ r, node h' r = node h r)
    (hu : ∀ i, (h.fs.files i).in_use = true → (h'.fs.files i).in_use = true) : Tables h' := by
  refine ⟨?_, ?_⟩
  · intro r i hr
    rw [hn] at hr
    exact ⟨(ht.live r i hr).1, hu i (ht.live r i hr).2⟩
  · intro r r' i hr hr'
    rw [hn] at hr hr'
    exact ht.inj r r' i hr hr'

/-- The number `r` is given up with its handle. -/
lemma Tables.drop (ht : Tables h) (hr : node h r = some i)
    (hn : ∀ r', node h' r' = if r' = r then none else node h r')
    (hu : ∀ j, j ≠ i → (h'.fs.files j).in_use = (h.fs.files j).in_use) : Tables h' := by
  refine ⟨?_, ?_⟩
  · intro r' j hj
    rw [hn] at hj
    split at hj
    · cases hj
    rename_i hne
    have hji : j ≠ i := by
      rintro rfl
      exact hne (ht.inj r' r j hj hr)
    rw [hu j hji]
    exact ht.live r' j hj
  · intro r1 r2 j h1 h2
    rw [hn] at h1 h2
    split at h1
    · cases h1
    · split at h2
      · cases h2
      · exact ht.inj r1 r2 j h1 h2

/-- A free number `r` is given to a new handle. -/
lemma Tables.add (ht : Tables h) (hi : i < FAT32_MAX_FILES)
    (hfree : (h.fs.files i).in_use = false)
    (hn : ∀ r', node h' r' = if r' = r then some i else node h r')
    (hu : ∀ j, j ≠ i → (h'.fs.files j).in_use = (h.fs.files j).in_use)
    (hnew : (h'.fs.files i).in_use = true) : Tables h' := by
  have hne : ∀ r' j, node h r' = some j → j ≠ i := by
    rintro r' j hj rfl
    rw [(ht.live r' j hj).2] at hfree
    cases hfree
  refine ⟨?_, ?_⟩
  · intro r' j hj
    rw [hn] at hj
    split at hj
    · cases hj
      exact ⟨hi, hnew⟩
    · rw [hu j (hne r' j hj)]
      exact ht.live r' j hj
  · intro r1 r2 j h1 h2
    rw [hn] at h1 h2
    split at h1
    · rename_i he1
      cases h1
      split at h2
      · rename_i he2
        exact he1.trans he2.symm
      · exact absurd rfl (hne r2 i h2)
    · split at h2
      · cases h2
        exact absurd rfl (hne r1 i h1)
      · exact ht.inj r1 r2 j h1 h2

/-! ## Steps -/

/-- The handler, and through which handles something was written. -/
structure Traced where
  handler : Handler
  written : Nat → Bool

variable {t : Traced}

/-- The packet is a write through the handle `i` that wrote something. -/
def wrote (g : Geom) (h : Handler) (p : Packet) (i : Nat) : Bool :=
  match p with
  | .action_write handle bs =>
    fat_get_file_handle h handle = some i &&
      match fat32_write g h.fs.vol (h.fs.files i) bs with
      | some (_, _, n) => 0 < n
      | none => false
  | _ => false

/-- Through a handle that was not in use before the packet nothing was written. -/
def traced_step (g : Geom) (t : Traced) (p : Packet × Stamp) : Option Traced :=
  (process_packet g t.handler p.1 p.2).map fun (h, _) =>
    ⟨h, fun i => (t.handler.fs.files i).in_use && (t.written i || wrote g t.handler p.1 i)⟩

/-- The packet is about the file at `e`. It empties the file only when no handle is
open on it, it writes at least one byte to an empty file and not behind an end mark,
and it closes a handle that was written through only when no other handle is open that
was not and has another first cluster or size. -/
def packet_ok (g : Geom) (e : Slot) (t : Traced) (p : Packet × Stamp) : Prop :=
  let h := t.handler
  match p.1 with
  | .find_input path => opens g h.fs path e = true
  | .find_output path => opens g h.fs path e = true ∧ Unused h.fs.files e
  | .find_update path =>
    opens g h.fs path e = true ∧ ((fat32_alloc_file h.fs).isSome = true ∨ Unused h.fs.files e)
  | .action_read handle _ => ∀ i ∈ fat_get_file_handle h handle, OnSlot (h.fs.files i) e
  | .action_write handle bs =>
    ∀ i ∈ fat_get_file_handle h handle, OnSlot (h.fs.files i) e ∧
      ((h.fs.files i).start_cluster ≠ 0 → is_eoc (h.fs.files i).cluster = false) ∧
      ((h.fs.files i).start_cluster ≠ 0 ∨ bs ≠ [])
  | .action_end handle =>
    ∀ i ∈ fat_get_file_handle h handle, OnSlot (h.fs.files i) e ∧
      LastWriter h.fs.files t.written e i
  | .locate_object path => opens g h.fs path e = true
  | .free_lock handle =>
    ∀ i ∈ get_lock_node h handle, OnSlot (h.fs.files i) e ∧ LastWriter h.fs.files t.written e i

instance (g : Geom) (e : Slot) (t : Traced) : ∀ p, Decidable (packet_ok g e t p)
  | (.find_input _, _) => inferInstanceAs (Decidable (_ = true))
  | (.find_output _, _) => inferInstanceAs (Decidable (_ = true ∧ Unused _ e))
  | (.find_update _, _) => inferInstanceAs (Decidable (_ = true ∧ (_ = true ∨ Unused _ e)))
  | (.action_read _ _, _) => inferInstanceAs (Decidable (∀ i ∈ _, OnSlot _ e))
  | (.action_write _ bs, _) =>
    inferInstanceAs (Decidable (∀ i ∈ _, OnSlot _ e ∧ (_ ≠ _ → _ = _) ∧ (_ ≠ _ ∨ bs ≠ [])))
  | (.action_end _, _) => inferInstanceAs (Decidable (∀ i ∈ _, OnSlot _ e ∧ LastWriter _ _ e i))
  | (.locate_object _, _) => inferInstanceAs (Decidable (_ = true))
  | (.free_lock _, _) => inferInstanceAs (Decidable (∀ i ∈ _, OnSlot _ e ∧ LastWriter _ _ e i))

/-- The invariant of the runs. -/
structure SharesOk (g : Geom) (D : Nat → Prop) (e : Slot) (t : Traced) : Prop where
  shares : Shares g D e t.handler.fs.vol.bdev t.handler.fs.files t.written
  tables : Tables t.handler

variable {fs : Fs} {f : Fat32File} {now : Stamp}

/-- Through the handles in use as much was written as before, and through a new one
nothing. -/
def kept (h : Handler) (w : Nat → Bool) : Nat → Bool := fun j => (h.fs.files j).in_use && w j

lemma kept_false (hon : OnSlot (h.fs.files j) e) (hw : kept h w j = false) :
    w j = false := by
  rwa [kept, hon.1, Bool.true_and] at hw

section

variable (ho : Opened g D e h.fs.files w fs i f)

include ho

lemma Opened.all : Shares g D e fs.vol.bdev fs.files (kept h w) := by
  rw [ho.files]
  refine ho.shares.set ?_ (fun _ => ho.safe) fun _ _ => ho.cached
  exact fun j _ hon hw => kept_false hon hw

lemma Opened.others (hj : j ≠ i) : fs.files j = h.fs.files j := by
  rw [ho.files]
  exact if_neg hj

lemma Opened.this : fs.files i = f := by
  rw [ho.files]
  exact if_pos rfl

/-- No table has room for the handle, and it is closed again. -/
lemma Opened.close (ht : Tables h) :
    SharesOk g D e ⟨{ h with fs := fat32_close fs i now }, kept h w⟩ := by
  have hw : kept h w i = false := by rw [kept, ho.free, Bool.false_and]
  obtain ⟨hS, _⟩ := ho.all.close now ho.range (by rw [ho.this]; exact ho.on) fun hc => by
    rw [hw] at hc
    cases hc
  refine ⟨hS, ht.same (fun r => rfl) ?_⟩
  intro j hj
  have hji : j ≠ i := by
    rintro rfl
    rw [ho.free] at hj
    cases hj
  show (set_handle fs.files i _ j).in_use = true
  rw [set_handle, if_neg hji, ho.others hji]
  exact hj

/-- The handle gets the number `r`. -/
lemma Opened.keep (ht : Tables h) (hfs : h'.fs = fs)
    (hn : ∀ r', node h' r' = if r' = r then some i else node h r') :
    SharesOk g D e ⟨h', kept h w⟩ := by
  subst hfs
  refine ⟨ho.all, ht.add ho.range ho.free hn (fun j hj => by rw [ho.others hj]) ?_⟩
  rw [ho.this]
  exact ho.on.1

lemma Opened.finish_open (ht : Tables h) :
    SharesOk g D e ⟨(finish_open { h with fs := fs } (some i) now).1, kept h w⟩ := by
  unfold fat32.finish_open
  dsimp only
  rw [if_neg (by rw [ho.this, ho.safe.is_file]; exact Bool.false_ne_true)]
  cases hk : fat_alloc_file_handle { h with fs := fs } with
  | none => exact ho.close ht
  | some k =>
    have hlt : k < FAT_MAX_FILES := List.mem_range.mp (List.mem_of_find?_eq_some hk)
    refine ho.keep ht (r := .file k) rfl fun r => ?_
    cases r with
    | lock j => rfl
    | file j =>
      by_cases hjk : j = k
      · subst hjk
        simp [node, hlt]
      · simp [node, hjk]

lemma Opened.finish_lock (ht : Tables h) :
    SharesOk g D e ⟨(finish_lock { h with fs := fs } (some i) now).1, kept h w⟩ := by
  unfold fat32.finish_lock
  dsimp only
  cases hk : find_free_slot { h with fs := fs } with
  | none => exact ho.close ht
  | some k =>
    have hlt : k < MAX_HANDLES := List.mem_range.mp (List.mem_of_find?_eq_some hk)
    refine ho.keep ht (r := .lock k) rfl fun r => ?_
    cases r with
    | file j => rfl
    | lock j =>
      by_cases hjk : j = k
      · subst hjk
        simp [node, hlt]
      · simp [node, hjk]

end

/-- A packet that changes no handle. -/
lemma SharesOk.no_handle (ht : Tables h) (hS : Shares g D e fs.vol.bdev h.fs.files w)
    (hfiles : fs.files = h.fs.files) (hn : ∀ r, node h' r = node h r) (hfs : h'.fs = fs) :
    SharesOk g D e ⟨h', kept h w⟩ := by
  subst hfs
  refine ⟨?_, ht.same hn fun j hj => by rwa [hfiles]⟩
  rw [hfiles]
  exact hS.weaken fun j hon hw => kept_false hon hw

lemma Attempt.finish_open {file : Option Nat} (ha : Attempt g D e h.fs.files w fs file)
    (ht : Tables h) :
    SharesOk g D e ⟨(fat32.finish_open { h with fs := fs } file now).1, kept h w⟩ := by
  cases ha with
  | full hS hfiles => exact SharesOk.no_handle ht hS hfiles (fun _ => rfl) rfl
  | opened ho => exact ho.finish_open ht

lemma Attempt.finish_lock {file : Option Nat} (ha : Attempt g D e h.fs.files w fs file)
    (ht : Tables h) :
    SharesOk g D e ⟨(fat32.finish_lock { h with fs := fs } file now).1, kept h w⟩ := by
  cases ha with
  | full hS hfiles => exact SharesOk.no_handle ht hS hfiles (fun _ => rfl) rfl
  | opened ho => exact ho.finish_lock ht

/-- FAT32_Close through the number `r`. -/
lemma SharesOk.close (hs : SharesOk g D e ⟨h, w⟩) (hr : node h r = some i)
    (hon : OnSlot (h.fs.files i) e) (hlast : LastWriter h.fs.files w e i)
    (hfs : h'.fs = fat32_close h.fs i now)
    (hn : ∀ r', node h' r' = if r' = r then none else node h r') :
    SharesOk g D e ⟨h', kept h w⟩ := by
  have hi := (hs.tables.live r i hr).1
  obtain ⟨hS, _⟩ := hs.shares.close now hi hon hlast
  refine ⟨?_, hs.tables.drop hr hn ?_⟩
  · dsimp only
    rw [hfs]
    refine hS.weaken fun j hjon hw => ?_
    have huse : (h.fs.files j).in_use = true := by
      have := hjon.1
      unfold set_handle at this
      split at this
      · cases this
      · exact this
    rwa [kept, huse, Bool.true_and] at hw
  · intro j hj
    rw [hfs]
    show (set_handle h.fs.files i _ j).in_use = _
    rw [set_handle, if_neg hj]

/-- Every packet that `packet_ok` allows returns and keeps the invariant. -/
lemma packet_step {p : Packet × Stamp} (hs : SharesOk g D e t)
    (hok : packet_ok g e t p) : ∃ t', traced_step g t p = some t' ∧ SharesOk g D e t' := by
  obtain ⟨h, w⟩ := t
  obtain ⟨p, now⟩ := p
  have hS := hs.shares
  have ht := hs.tables
  -- packets that are no writes
  have hkept : ∀ p, (∀ i, wrote g h p i = false) →
      (fun i => (h.fs.files i).in_use && (w i || wrote g h p i)) = kept h w := by
    intro p hp
    funext i
    rw [hp, Bool.or_false, kept]
  unfold traced_step
  cases p with
  | find_input path =>
    rw [hkept _ fun _ => rfl]
    dsimp only [process_packet]
    obtain ⟨fs', r, hcall, ha, -⟩ := open_shares hS hok
    rw [hcall]
    exact ⟨_, rfl, ha.finish_open ht⟩
  | find_output path =>
    rw [hkept _ fun _ => rfl]
    dsimp only [process_packet]
    obtain ⟨fs', r, hcall, ha⟩ := create_shares now hS hok.1 hok.2
    rw [hcall]
    exact ⟨_, rfl, ha.finish_open ht⟩
  | find_update path =>
    rw [hkept _ fun _ => rfl]
    dsimp only [process_packet]
    obtain ⟨fs1, r, hcall, ha, hnone⟩ := open_shares hS hok.1
    rw [hcall]
    cases ha with
    | opened ho => exact ⟨_, rfl, ho.finish_open ht⟩
    | full hS1 hfiles =>
      -- the pool is full, and the file is created once more
      obtain ⟨hfull, hopens⟩ := hnone rfl
      have hun : Unused h.fs.files e := hok.2.resolve_left (by rw [hfull]; exact Bool.false_ne_true)
      rw [← hfiles] at hS1 hun
      obtain ⟨fs', r, hcall', ha⟩ := create_shares now hS1 hopens hun
      rw [hfiles] at ha
      dsimp only
      rw [hcall']
      exact ⟨_, rfl, ha.finish_open ht⟩
  | locate_object path =>
    rw [hkept _ fun _ => rfl]
    dsimp only [process_packet]
    obtain ⟨fs', r, hcall, ha, -⟩ := open_shares hS hok
    rw [hcall]
    exact ⟨_, rfl, ha.finish_lock ht⟩
  | action_read handle len =>
    rw [hkept _ fun _ => rfl]
    dsimp only [process_packet]
    cases hget : fat_get_file_handle h handle with
    | none => exact ⟨_, rfl, SharesOk.no_handle ht hS rfl (fun _ => rfl) rfl⟩
    | some i =>
      have hon := hok i hget
      have hi := (ht.live _ i (get_file_node hget)).1
      have hf := hS.safe i hi hon
      obtain ⟨f', bs, hread, hf', hk, hst, hsz⟩ := read_safe hS.apart hf len.toNat
      dsimp only
      rw [if_neg (ne_true_of_eq_false hf.is_file), hread]
      refine ⟨_, rfl, ?_, ht.same (fun _ => rfl) ?_⟩
      · refine hS.set ?_ (fun _ => hf') ?_
        · exact fun j _ hjon hw => kept_false hjon hw
        · intro _ hw
          have hc := hS.cached i hi hon (kept_false hon hw)
          exact ⟨hst.trans hc.1, hsz.trans hc.2⟩
      · intro j hj
        show (set_handle h.fs.files i f' j).in_use = true
        unfold set_handle
        split
        · exact hk.in_use.trans hon.1
        · exact hj
  | action_write handle bs =>
    dsimp only [process_packet]
    cases hget : fat_get_file_handle h handle with
    | none =>
      rw [hkept _ fun i => by simp [wrote, hget]]
      exact ⟨_, rfl, SharesOk.no_handle ht hS rfl (fun _ => rfl) rfl⟩
    | some i =>
      obtain ⟨hon, hgo, hsome⟩ := hok i hget
      have hi := (ht.live _ i (get_file_node hget)).1
      have hf := hS.safe i hi hon
      obtain ⟨v', f', k, hwrite, ha, hf', hk, hsame⟩ := write_safe hS.apart hf hgo bs
      dsimp only
      rw [if_neg (ne_true_of_eq_false hf.is_file), hwrite]
      refine ⟨_, rfl, ?_, ht.same (fun _ => rfl) ?_⟩
      · refine (hS.aside ha).set ?_ (fun _ => hf') ?_
        · intro j _ hjon hw
          change ((h.fs.files j).in_use && _) = false at hw
          rw [hjon.1, Bool.true_and, Bool.or_eq_false_iff] at hw
          exact hw.1
        · intro _ hw
          change ((h.fs.files i).in_use && _) = false at hw
          rw [hon.1, Bool.true_and, Bool.or_eq_false_iff] at hw
          have hk0 : k = 0 := by simpa [wrote, hget, hwrite] using hw.2
          obtain ⟨hst, hsz⟩ := hsame hk0 hsome
          have hc := (hS.aside ha).cached i hi hon hw.1
          exact ⟨hst.trans hc.1, hsz.trans hc.2⟩
      · intro j hj
        show (set_handle h.fs.files i f' j).in_use = true
        unfold set_handle
        split
        · exact hk.in_use.trans hon.1
        · exact hj
  | action_end handle =>
    rw [hkept _ fun _ => rfl]
    refine ⟨_, rfl, ?_⟩
    cases hget : fat_get_file_handle h handle with
    | none =>
      refine SharesOk.no_handle ht hS rfl (fun r => ?_) rfl
      rw [node_free_file, hget, if_neg (by rintro ⟨_, hc⟩; cases hc)]
    | some i =>
      obtain ⟨hon, hlast⟩ := hok i hget
      refine hs.close (get_file_node hget) hon hlast rfl fun r => ?_
      simp only [node_free_file, hget, Option.isSome_some, and_true]
  | free_lock handle =>
    rw [hkept _ fun _ => rfl]
    refine ⟨_, rfl, ?_⟩
    cases hget : get_lock_node h handle with
    | none =>
      refine SharesOk.no_handle ht hS rfl (fun r => ?_) rfl
      rw [node_free_lock, hget, if_neg (by rintro ⟨_, hc⟩; cases hc)]
    | some i =>
      obtain ⟨hon, hlast⟩ := hok i hget
      refine hs.close (get_lock_node_eq hget) hon hlast rfl fun r => ?_
      simp only [node_free_lock, hget, Option.isSome_some, and_true]

/-! ## Closing a handle -/

/-- The handle that a packet ends or frees. -/
def closes (h : Handler) : Packet → Option Nat
  | .action_end handle => fat_get_file_handle h handle
  | .free_lock handle => get_lock_node h handle
  | _ => none

/-- The first cluster and the size in the entry at `e`. -/
def entry_values (h : Handler) (e : Slot) : Nat × Nat :=
  (first_cluster (entry_at h.fs.vol.bdev e), le32 (entry_at h.fs.vol.bdev e) 28)

lemma clean_close (hs : SharesOk g D e t) {p : Packet}
    (hcl : closes t.handler p = some i) (hon : OnSlot (t.handler.fs.files i) e)
    (hw : t.written i = false) :
    ∃ h' r, process_packet g t.handler p now = some (h', r) ∧
      entry_values h' e = entry_values t.handler e := by
  have hkeep : ∀ r, node t.handler r = some i →
      (first_cluster (entry_at (close_flush t.handler.fs.vol (t.handler.fs.files i) now).bdev e),
        le32 (entry_at (close_flush t.handler.fs.vol (t.handler.fs.files i) now).bdev e) 28) =
      entry_values t.handler e := by
    intro r hr
    obtain ⟨hbefore, hafter⟩ := (hs.shares.close now (hs.tables.live r i hr).1 hon fun hc => by
      rw [hw] at hc
      cases hc).2 hw
    unfold entry_values
    rw [← hafter.1, ← hafter.2, hbefore.1, hbefore.2]
  cases p with
  | action_end handle =>
    have hget : fat_get_file_handle t.handler handle = some i := hcl
    dsimp only [process_packet]
    rw [hget]
    exact ⟨_, _, rfl, hkeep _ (get_file_node hget)⟩
  | free_lock handle =>
    have hget : get_lock_node t.handler handle = some i := hcl
    dsimp only [process_packet]
    rw [hget]
    exact ⟨_, _, rfl, hkeep _ (get_lock_node_eq hget)⟩
  | find_input path => cases hcl
  | find_output path => cases hcl
  | find_update path => cases hcl
  | action_read handle len => cases hcl
  | action_write handle bs => cases hcl
  | locate_object path => cases hcl

/-- After every run of such packets, ending or freeing a handle on the file that
nothing was written through leaves the first cluster and the size in its entry. -/
theorem a_clean_close_leaves_the_entry (g : Geom) (D : Nat → Prop) (e : Slot) (t : Traced)
    (ps : List (Packet × Stamp)) (h0 : SharesOk g D e t)
    (hok : RunOk (traced_step g) (packet_ok g e) t ps) :
    ∃ u, run (traced_step g) t ps = some u ∧
      ∀ p now i, closes u.handler p = some i → OnSlot (u.handler.fs.files i) e →
        u.written i = false →
        ∃ h' r, process_packet g u.handler p now = some (h', r) ∧
          entry_values h' e = entry_values u.handler e := by
  obtain ⟨u, hrun, hu⟩ := run_invariant (fun s p hs hp => packet_step hs hp) h0 hok
  exact ⟨u, hrun, fun p now i hcl hon hw => clean_close hu hcl hon hw⟩

/-! ## Two handles on an empty file -/

/-- The small volume with an empty file `F` as the only entry of its root. -/
def shared_dev : BlockDev where
  data t j :=
    if t = 1 ∧ j < 12 then (if j % 4 = 3 then 0x0F else 0xFF)
    else if t = 2 then ([70, 32, 32, 32, 32, 32, 32, 32, 32, 32, 32, 0x20] : List UInt8).getD j 0
    else 0
  num_sectors := 6
  part_offset := 0

/-- The handler of the volume with no file open. -/
def shared_start : Traced where
  handler :=
    { fs :=
        { vol :=
            { bdev := shared_dev, free_clusters := 3, fsinfo_stale := false, dir_buf_cluster := 0 }
          files := fun _ => { new_file 0 0 false ⟨0, 0⟩ 0 with in_use := false }
          lfn_find := []
          dir_buf := fun _ => 0 }
      fat_files := fun _ => none
      entries := fun _ => .free }
  written := fun _ => false

lemma shared_start_ok : SharesOk small_geom (fun c => c = 2) ⟨2, 0⟩ shared_start := by
  have hrange : ∀ x, InRange small_geom x → x = 2 ∨ x = 3 ∨ x = 4 ∨ x = 5 := by
    intro x hx
    simp only [InRange, small_geom] at hx
    omega
  refine ⟨⟨⟨small_geom_ok, ?_, ?_⟩, ⟨2, rfl, ⟨by decide, by decide⟩⟩, by decide, by decide +kernel,
    ?_, ?_, ?_⟩, ?_, ?_⟩
  · rintro x rfl
    exact ⟨by decide, by decide +kernel⟩
  · intro x hx hD
    obtain rfl | rfl | rfl | rfl := hrange x hx
    · exact absurd rfl hD
    · exact ⟨by decide +kernel, .inr (.inl (by decide +kernel))⟩
    · exact ⟨by decide +kernel, .inr (.inl (by decide +kernel))⟩
    · exact ⟨by decide +kernel, .inr (.inl (by decide +kernel))⟩
  · exact ⟨by decide +kernel, .inr (.inl (by decide +kernel))⟩
  · rintro i _ ⟨hc, _⟩
    cases hc
  · rintro i _ ⟨hc, _⟩
    cases hc
  · intro r i hr
    cases r with
    | file k => simp [node, shared_start] at hr
    | lock k => simp [node, shared_start] at hr
  · intro r r' i hr
    cases r with
    | file k => simp [node, shared_start] at hr
    | lock k => simp [node, shared_start] at hr

/-- A time of the clock. -/
def noon : Stamp := ⟨0, 0⟩

/-- A byte is written and the file closed before it is opened and locked again. -/
def write_then_read : List (Packet × Stamp) :=
  [(.find_update [70], noon), (.action_write 1 [9], noon), (.action_end 1, noon),
    (.find_input [70], noon), (.locate_object [70], noon), (.action_read 1 1, noon)]

theorem readers_after_a_writer_leave_the_entry :
    ∃ u, run (traced_step small_geom) shared_start write_then_read = some u ∧
      ∀ p now i, closes u.handler p = some i → OnSlot (u.handler.fs.files i) ⟨2, 0⟩ →
        u.written i = false → ∃ h' r, process_packet small_geom u.handler p now = some (h', r) ∧
          entry_values h' ⟨2, 0⟩ = entry_values u.handler ⟨2, 0⟩ :=
  a_clean_close_leaves_the_entry small_geom _ ⟨2, 0⟩ shared_start write_then_read shared_start_ok
    (by decide +kernel)

/-- The file is open twice while a byte is written through the first handle. -/
def read_while_written : List (Packet × Stamp) :=
  [(.find_update [70], noon), (.find_input [70], noon), (.action_write 1 [9], noon),
    (.action_end 1, noon)]

/-- The first handle leaves one byte in cluster 3. Ending the second one, through
which nothing was written, empties the file again. -/
theorem a_reader_brings_the_old_size_back :
    SharesOk small_geom (fun c => c = 2) ⟨2, 0⟩ shared_start ∧
    (run (traced_step small_geom) shared_start read_while_written).map (fun u =>
      (closes u.handler (.action_end 2), u.written 1, entry_values u.handler ⟨2, 0⟩)) =
        some (some 1, false, 3, 1) ∧
    (run (traced_step small_geom) shared_start (read_while_written ++ [(.action_end 2, noon)])).map
      (fun u => entry_values u.handler ⟨2, 0⟩) = some (0, 0) :=
  ⟨shared_start_ok, by decide +kernel, by decide +kernel⟩

end uaos.fat32
