-- The clipboard device (clipboard_device.c). A write stream stages a clip, CMD_UPDATE publishes
-- it, and readers are served from the same buffer that the next stream is written to.
import Uaos.GuestMem
import Uaos.Refine

namespace uaos.clip

open List guest

/-! ## The device -/

def CLIP_BUF_SIZE : Nat := 32 * 1024
def CLIP_MAX_PENDING : Nat := 8
def CBERR_OBSOLETEID : Int := 1
def IOERR_ABORTED : Int := -2
def IOERR_NOCMD : Int := -3

/-- What a CMD_READ asks for, with its request, the memory it lies in and the task. -/
structure Read where
  io : Nat
  ram : Nat
  task : Nat
  data : Nat
  len : Nat
  off : Nat

/-- A read that was served: the bytes and the id of their clip. -/
structure Reply where
  read : Read
  bytes : List UInt8
  clipid : Nat

structure Clip where
  buf : Buf
  len : Nat
  avail : Nat
  write_id : Nat
  read_id : Nat
  write_active : Bool
  stopped : Bool
  pending : List (Option Read)

def boot : Clip := ⟨fun _ => 0, 0, 0, 0, 0, false, false, replicate CLIP_MAX_PENDING none⟩

def clip_serve (c : Clip) (r : Read) : List UInt8 :=
  if c.avail ≤ r.off ∨ r.data = 0 ∨ GUEST_RAM_SIZE ≤ r.data then []
  else slice c.buf r.off (min (min (c.avail - r.off) r.len) (GUEST_RAM_SIZE - r.data))

/-- Every queued read is served. -/
def clip_flush_pending (c : Clip) : Clip × List Reply :=
  ({ c with pending := c.pending.map fun _ => none },
    (c.pending.filterMap id).map fun r => ⟨r, clip_serve c r, c.read_id⟩)

/-- The first free slot takes the read. -/
def queue (r : Read) : List (Option Read) → Option (List (Option Read))
  | [] => none
  | none :: slots => some (some r :: slots)
  | some q :: slots => (queue r slots).map (some q :: ·)

/-- The first slot with the request is freed. -/
def unqueue (io ram : Nat) : List (Option Read) → Option (List (Option Read))
  | [] => none
  | none :: slots => (unqueue io ram slots).map (none :: ·)
  | some q :: slots =>
    if q.io = io ∧ q.ram = ram then some (none :: slots)
    else (unqueue io ram slots).map (some q :: ·)

/-- The text as an IFF FTXT file, as `ClipDev_SetText` builds it. -/
def ftxt (text : List UInt8) : List UInt8 :=
  let body := text.take (CLIP_BUF_SIZE - 20)
  let pad := body.length % 2
  [70, 79, 82, 77] ++ ffs.be32_bytes (12 + body.length + pad) ++ [70, 84, 88, 84, 67, 72, 82, 83] ++
    ffs.be32_bytes body.length ++ body ++ replicate pad 0

/-- CMD_FLUSH, a close and the end of a task drop the reads of the task. `other` stands for
the commands that touch neither the clips nor the reads. -/
inductive Cmd where
  | write (data len off : Nat) (ram : Buf)
  | update
  | clear
  | read (r : Read) (clipid : Nat)
  | stop
  | start
  | flush (task : Nat)
  | reset
  | abort (io ram : Nat)
  | set_text (text : List UInt8)
  | other

/-- The bytes that a CMD_WRITE copies. -/
def stored (data len off : Nat) (ram : Buf) : Option (List UInt8) :=
  if off < CLIP_BUF_SIZE ∧ data ≠ 0 ∧ data < GUEST_RAM_SIZE then
    some (slice ram data (min (min (CLIP_BUF_SIZE - off) len) (GUEST_RAM_SIZE - data)))
  else none

/-- A command, with the error that it stores and the reads that it serves. -/
def begin_io (c : Clip) : Cmd → Clip × Int × List Reply
  | .write data len off ram =>
    if off ≠ 0 ∧ c.write_active = false then (c, CBERR_OBSOLETEID, [])
    else
      let c := if off = 0 then
          { c with len := 0, write_active := true, write_id := u32 (c.write_id + 1) }
        else c
      match stored data len off ram with
      | some bytes =>
        ({ c with buf := put c.buf off bytes, len := max c.len (off + bytes.length) }, 0, [])
      | none => (c, 0, [])
  | .update =>
    let (c, rs) := clip_flush_pending
      { c with avail := c.len, read_id := c.write_id, write_active := false }
    (c, 0, rs)
  | .clear => ({ c with len := 0, write_active := false }, 0, [])
  | .read r clipid =>
    if clipid ≠ 0 ∧ clipid ≠ c.read_id then (c, CBERR_OBSOLETEID, [])
    else if c.stopped ∨ c.avail = 0 then
      match queue r c.pending with
      | some pending => ({ c with pending := pending }, 0, [])
      | none => (c, IOERR_NOCMD, [])
    else (c, 0, [⟨r, clip_serve c r, c.read_id⟩])
  | .stop => ({ c with stopped := true }, 0, [])
  | .start => ({ c with stopped := false }, 0, [])
  | .flush task => ({ c with pending := c.pending.map (Option.filter (·.task ≠ task)) }, 0, [])
  | .reset => ({ c with len := 0, avail := 0, write_active := false, stopped := false }, 0, [])
  | .abort io ram =>
    match unqueue io ram c.pending with
    | some pending => ({ c with pending := pending }, IOERR_ABORTED, [])
    | none => (c, -1, [])
  | .set_text text =>
    let clip := ftxt text
    let id := u32 (c.write_id + 1)
    let (c, rs) := clip_flush_pending
      { c with buf := put c.buf 0 clip, len := clip.length, avail := clip.length,
               write_id := id, read_id := id, write_active := false }
    (c, 0, rs)
  | .other => (c, 0, [])

/-! ## The two clips -/

/-- The clip that is published, the one that is written, and whether a stream is open. -/
structure Board where
  published : List UInt8
  staged : List UInt8
  writing : Bool

def Board.next (b : Board) : Cmd → Board
  | .write data len off ram =>
    if off ≠ 0 ∧ b.writing = false then b
    else
      let old := if off = 0 then [] else b.staged
      let staged := match stored data len off ram with
        | some bytes => old.take off ++ bytes ++ old.drop (off + bytes.length)
        | none => old
      ⟨b.published, staged, true⟩
  | .update => ⟨b.staged, b.staged, false⟩
  | .clear => ⟨b.published, [], false⟩
  | .reset => ⟨[], [], false⟩
  | .set_text text => ⟨ftxt text, ftxt text, false⟩
  | _ => b

def Board.empty : Board := ⟨[], [], false⟩

/-- What a reader may see of a clip. -/
def shown (clip : List UInt8) (r : Read) : List UInt8 :=
  if r.data = 0 ∨ GUEST_RAM_SIZE ≤ r.data then []
  else (clip.drop r.off).take (min r.len (GUEST_RAM_SIZE - r.data))

/-- Readers are shown the published clip. -/
def Board.spec (b : Board) (op : Cmd) (out : Int × List Reply) (b' : Board) : Prop :=
  b' = b.next op ∧ ∀ r ∈ out.2, r.bytes = shown b'.published r.read

/-- A stream is written without gaps. While it is open no read is served, and it is not
thrown away when it was written over a published clip. -/
def calm (c : Clip) : Cmd → Bool
  | .write _ _ off _ => !c.write_active || off ≤ c.len
  | .read _ _ => !c.write_active || c.stopped || c.avail = 0
  | .clear => !c.write_active || c.avail = 0
  | _ => true

/-- The buffer holds the staged clip. While no stream is open it holds the published one. -/
structure Shows (c : Clip) (b : Board) : Prop where
  published : c.write_active = false → slice c.buf 0 c.avail = b.published
  size : b.published.length = c.avail
  staged : slice c.buf 0 c.len = b.staged
  writing : c.write_active = b.writing

variable {c : Clip} {b : Board} {op : Cmd} {clip : List UInt8}

lemma Shows.intact (h : Shows c b) (hc : c.write_active = false ∨ c.avail = 0) :
    slice c.buf 0 c.avail = b.published := by
  rcases hc with hidle | hnone
  · exact h.published hidle
  · have hnil : b.published = [] := length_eq_zero_iff.mp (h.size.trans hnone)
    simp [hnil, hnone, slice]

lemma serve_eq (h : slice c.buf 0 c.avail = clip) (r : Read) : clip_serve c r = shown clip r := by
  unfold clip_serve shown
  rw [← h, take_drop_slice]
  by_cases hoff : c.avail ≤ r.off
  · simp [hoff, slice]
  · simp only [hoff, false_or, min_comm (c.avail - r.off), min_right_comm r.len]

/-- A clip is published, and the queued reads are served from it. -/
lemma publish {w : Clip} (hclip : slice w.buf 0 w.avail = clip) (hall : w.len = w.avail)
    (hidle : w.write_active = false) : Shows (clip_flush_pending w).1 ⟨clip, clip, false⟩ ∧
      ∀ r ∈ (clip_flush_pending w).2, r.bytes = shown clip r.read := by
  refine ⟨⟨fun _ => hclip, ?_, ?_, hidle⟩, ?_⟩
  · simp [clip_flush_pending, ← hclip]
  · simpa [clip_flush_pending, hall] using hclip
  · intro r hr
    obtain ⟨q, -, rfl⟩ := mem_map.mp hr
    exact serve_eq hclip q

lemma Shows.write {data len off : Nat} {ram : Buf} (h : Shows c b)
    (hok : calm c (.write data len off ram) = true) :
    Shows (begin_io c (.write data len off ram)).1 (b.next (.write data len off ram)) := by
  simp only [calm, Bool.or_eq_true, Bool.not_eq_true', decide_eq_true_eq] at hok
  simp only [begin_io, Board.next, ← h.writing]
  by_cases hno : off ≠ 0 ∧ c.write_active = false
  · rw [if_pos hno, if_pos hno]
    exact h
  rw [if_neg hno, if_neg hno]
  -- the stream goes on, or a new one begins with nothing staged
  obtain ⟨c1, hc1⟩ : ∃ c1, c1 = if off = 0 then
    { c with len := 0, write_active := true, write_id := u32 (c.write_id + 1) } else c := ⟨_, rfl⟩
  have hopen : c1.avail = c.avail ∧ c1.write_active = true ∧ off ≤ c1.len ∧
      slice c1.buf 0 c1.len = if off = 0 then [] else b.staged := by
    by_cases h0 : off = 0
    · simp [hc1, h0, slice]
    · have hactive : c.write_active = true := by simpa [h0] using hno
      have hle : off ≤ c.len := by simpa [hactive] using hok
      simp [hc1, h0, h.staged, hactive, hle]
  obtain ⟨havail, hactive, hle, hold⟩ := hopen
  have hsize : b.published.length = c1.avail := h.size.trans havail.symm
  rw [← hc1, ← hold]
  cases stored data len off ram with
  | none => exact ⟨fun hidle => absurd hidle (by simp [hactive]), hsize, rfl, hactive⟩
  | some bytes =>
    exact ⟨fun hidle => absurd hidle (by simp [hactive]), hsize, slice_put hle fun _ _ => rfl,
      hactive⟩

lemma begin_io_shows (h : Shows c b) (hok : calm c op = true) :
    Shows (begin_io c op).1 (b.next op) ∧
      ∀ r ∈ (begin_io c op).2.2, r.bytes = shown (b.next op).published r.read := by
  cases op with
  | write data len off ram =>
    have hnone : (begin_io c (.write data len off ram)).2.2 = [] := by
      simp only [begin_io]
      split
      · rfl
      · split <;> rfl
    exact ⟨h.write hok, by simp [hnone]⟩
  | update => exact publish h.staged rfl rfl
  | clear =>
    simp only [calm, Bool.or_eq_true, Bool.not_eq_true', decide_eq_true_eq] at hok
    exact ⟨⟨fun _ => h.intact hok, h.size, rfl, rfl⟩, by simp [begin_io]⟩
  | read r clipid =>
    simp only [calm, Bool.or_eq_true, Bool.not_eq_true', decide_eq_true_eq] at hok
    simp only [begin_io]
    split
    · exact ⟨h, by simp⟩
    split
    · split
      · exact ⟨⟨h.published, h.size, h.staged, h.writing⟩, by simp⟩
      · exact ⟨h, by simp⟩
    · rename_i hserved
      rw [not_or] at hserved
      have hidle : c.write_active = false := by
        rcases hok with (hidle | hstopped) | hnone
        · exact hidle
        · exact absurd hstopped hserved.1
        · exact absurd hnone hserved.2
      exact ⟨h, by simpa [Board.next] using serve_eq (h.published hidle) r⟩
  | reset => exact ⟨⟨fun _ => rfl, rfl, rfl, rfl⟩, by simp [begin_io]⟩
  | set_text text =>
    have hclip : slice (put c.buf 0 (ftxt text)) 0 (ftxt text).length = ftxt text := slice_put_same
    exact publish hclip rfl rfl
  | abort io ram =>
    simp only [begin_io]
    split
    · exact ⟨⟨h.published, h.size, h.staged, h.writing⟩, by simp⟩
    · exact ⟨h, by simp⟩
  | _ => exact ⟨⟨h.published, h.size, h.staged, h.writing⟩, by simp [begin_io]⟩

def step (c : Clip) (op : Cmd) : Option (Clip × Int × List Reply) := some (begin_io c op)

/-- A write of the byte `v` at the place `off` of the clip. -/
def put_byte (v : UInt8) (off : Nat) : Cmd := .write 1 1 off fun _ => v

def read_byte (off : Nat) : Cmd := .read ⟨0, 0, 0, 1, 1, off⟩ 0

/-- Two clips are written, published and read one after the other. -/
def two_clips : List Cmd :=
  [put_byte 7 0, .update, read_byte 0, put_byte 8 0, put_byte 9 1, .update, read_byte 1]

end uaos.clip
