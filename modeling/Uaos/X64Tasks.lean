-- The tasks of the kernel around the x64 heap (task.c, syscall_dispatch.c, elf64_loader.c). A call
-- that a timer tick can cut in two is a sequence of program points, and every task goes on from
-- the point where it was preempted.
import Uaos.X64Runs

namespace uaos.task

open x64

/-! ## Tasks -/

def MAX_TASKS : Nat := 64
def X64_STACK_SIZE : Nat := 256 * 1024

inductive TaskState where
  | waiting
  | ready
  | running
  | removed
  deriving DecidableEq

inductive TaskType where
  | native
  | x64
  deriving DecidableEq

/-- What the PT_LOAD segments of a file ask for: nothing, a place for `total` bytes, or a fixed
range. -/
inductive Segments where
  | empty
  | dyn (total : UInt64)
  | exec (min_vaddr max_end : UInt64)

/-- A file that is spawned. `args` is where the argument block ends up in the stack, none if the
arguments do not fit. -/
structure Elf where
  size : UInt32
  valid : Bool
  segments : Segments
  args : Option (Fin X64_STACK_SIZE)
  pri : Int

/-- A range in a block of the loader, with the payload of the block. -/
structure Piece where
  ptr : Nat
  base : Nat
  size : Nat

/-- What `ELF64_Load` returns. -/
structure Loaded where
  image : Option Piece
  stack : Piece
  pri : Int

def Loaded.image_base (r : Loaded) : Nat := (r.image.map Piece.base).getD 0
def Loaded.image_size (r : Loaded) : Nat := (r.image.map Piece.size).getD 0

/-- Where a task goes on. Outside `user` it is inside `sys_wait`, `sys_spawn` or `Task_Exit`. -/
inductive Point where
  | user
  | wait_child
  | load_image (elf : Elf) (data : Nat)
  | load_stack (elf : Elf) (data : Nat) (image : Option Piece)
  | free_data (data : Nat) (r : Option Loaded)
  | create (r : Loaded)
  | own_image (child : Nat) (r : Loaded)
  | own_stack (child : Nat) (r : Loaded)
  | undo_image (r : Loaded)
  | undo_stack (r : Loaded)
  | removing
  | signalling
  | freeing
  | reclaiming
  | leaving

/-- A slot of the task table. `id` tells the tasks apart that use the slot one after the other. -/
structure Task where
  state : TaskState
  type : TaskType
  pri : Int
  parent : Option Nat
  child_sig : Bool
  waits : Bool
  point : Point
  id : Nat

/-- The addresses of the arena and of the slots of the task table. -/
structure Machine where
  arena : Arena
  tcb : Nat → UInt64
  tcb_ne : ∀ j, tcb j ≠ 0
  tcb_inj : ∀ i j, i < MAX_TASKS → j < MAX_TASKS → tcb i = tcb j → i = j

/-- The kernel. Beside it stands what happened to each task: `whose` says for which task a block
was allocated, `parent_of` which task created it, and `sent` whether its parent was sent the
child signal. -/
structure Sys where
  tasks : Nat → Task
  count : Nat
  ready : List Nat
  current : Nat
  store : State
  whose : Nat → Option Nat
  born : Nat
  parent_of : Nat → Option Nat
  sent : Nat → Bool

namespace Sys

def me (s : Sys) : Task := s.tasks s.current

def set (s : Sys) (j : Nat) (t : Task) : Sys := { s with tasks := Function.update s.tasks j t }

/-- The current task goes on at another point. -/
def goto (s : Sys) (p : Point) : Sys := s.set s.current { s.me with point := p }

/-- A block is for a task from now on. -/
def assign (s : Sys) (ptr : Nat) (id : Option Nat) : Sys :=
  { s with whose := Function.update s.whose ptr id }

/-- One native task runs and nothing has been allocated. -/
def boot (mem : Buf) : Sys where
  tasks := fun j => ⟨if j = 0 then .running else .removed, .native, 0, none, false, false, .user, 0⟩
  count := 1
  ready := []
  current := 0
  store := State.boot mem
  whose := fun _ => none
  born := 1
  parent_of := fun _ => none
  sent := fun _ => false

/-! ## The scheduler -/

def ready_enqueue (s : Sys) (j : Nat) : Sys :=
  { s.set j { s.tasks j with state := .ready } with ready := s.ready ++ [j] }

def better (s : Sys) (j : Nat) : Option Nat → Option Nat
  | none => some j
  | some i => if (s.tasks i).pri < (s.tasks j).pri then some j else some i

/-- The first of the tasks with the highest priority. -/
def best (s : Sys) (q : List Nat) : Option Nat := q.foldl (fun b j => s.better j b) none

/-- A removed task that is still queued is dropped. -/
def dequeue (s : Sys) : Nat → List Nat → Option Nat × List Nat
  | 0, q => (none, q)
  | n + 1, q =>
    match s.best q with
    | none => (none, q)
    | some j =>
      if (s.tasks j).state = .removed then dequeue s n (q.erase j) else (some j, q.erase j)

def ready_dequeue_highest (s : Sys) : Option Nat × List Nat := s.dequeue s.ready.length s.ready

/-- If no task is ready the current one stays. -/
def dispatch (s : Sys) : Option Nat × List Nat → Sys
  | (none, q) => { s with ready := q }
  | (some next, q) =>
    { s.set next { s.tasks next with state := .running } with ready := q, current := next }

/-- A task that still runs goes back to the queue. -/
def do_schedule (s : Sys) : Sys :=
  let s := if s.me.state = .running then s.ready_enqueue s.current else s
  s.dispatch s.ready_dequeue_highest

/-- `Signal(task, SIGF_CHILD)` -/
def signal_child (s : Sys) (j : Nat) : Sys :=
  let s := s.set j { s.tasks j with child_sig := true }
  if (s.tasks j).state = .waiting ∧ (s.tasks j).waits then s.ready_enqueue j else s

/-- The current task sleeps until it is readied. -/
def block (s : Sys) (waits : Bool) : Sys := (s.set s.current { s.me with
    state := .waiting, child_sig := !waits && s.me.child_sig, waits := waits }).do_schedule

/-- `Task_ClearSig(SIGF_CHILD)` -/
def clear_child (s : Sys) : Sys := s.set s.current { s.me with child_sig := false }

/-- `Wait(SIGF_CHILD)`, which takes a signal that is pending. -/
def wait_child (s : Sys) : Sys :=
  if s.me.child_sig then s.clear_child.goto .user else (s.goto .user).block true

/-! ## New tasks -/

/-- A slot that is free again, or the next one. -/
def free_slot (s : Sys) : Option Nat :=
  match (List.range s.count).find? fun i => (s.tasks i).state = .removed with
  | some i => some i
  | none => if s.count < MAX_TASKS then some s.count else none

/-- A new task of the current one, in the slot `j`. -/
def create (s : Sys) (j : Nat) (type : TaskType) (pri : Int) : Sys :=
  { s.set j ⟨.ready, type, pri, some s.current, false, false, .user, s.born⟩ with
    count := max s.count (j + 1)
    ready := s.ready.erase j ++ [j]
    born := s.born + 1
    parent_of := Function.update s.parent_of s.born (some s.me.id) }

/-! ## Points inside a call -/

variable (M : Machine)

/-- The payload of an allocation for the loader, which no task owns yet. -/
def load_block (s : Sys) (r : Option (State × Nat)) (piece : Nat → Piece) (ok : Piece → Point)
    (fail : Point) : Option Sys :=
  r.map fun r =>
    let s := { s with store := r.1 }
    if r.2 = 0 then s.goto fail else (s.assign r.2 none).goto (ok (piece r.2))

def load_image (s : Sys) (elf : Elf) (data : Nat) (refused : Bool) : Option Sys :=
  let fail := Point.free_data data none
  if elf.valid = false then some (s.goto fail)
  else match elf.segments with
  | .empty => some (s.goto (.load_stack elf data none))
  | .dyn total =>
    s.load_block (s.store.alloc M.arena total.toNat (2 ^ 12) 0 refused)
      (fun p => ⟨p, p, total.toNat⟩) (fun q => .load_stack elf data (some q)) fail
  | .exec lo hi =>
    if lo.toNat < M.arena.heap0 ∨ M.arena.stop < hi.toNat then some (s.goto fail)
    else
      s.load_block (s.store.reserve M.arena lo.toNat (sub64 hi.toNat lo.toNat) 0)
        (fun p => ⟨p, lo.toNat, sub64 hi.toNat lo.toNat⟩) (fun q => .load_stack elf data (some q))
        fail

def load_stack (s : Sys) (elf : Elf) (data : Nat) (image : Option Piece) (refused : Bool) :
    Option Sys :=
  match elf.args with
  | none => some (s.goto (.free_data data none))
  | some off =>
    s.load_block (s.store.alloc M.arena X64_STACK_SIZE (2 ^ 4) 0 refused)
      (fun p => ⟨p, p + off.val, 1⟩) (fun q => .free_data data (some ⟨image, q, elf.pri⟩))
      (.free_data data none)

/-- The file is freed. A shell has the file in a buffer of its own. -/
def free_data (s : Sys) (data : Nat) (r : Option Loaded) : Sys :=
  let s := if data = 0 then s else { s with store := s.store.free M.arena data }
  s.goto (match r with
    | none => .user
    | some r => .create r)

def Task_CreateX64 (s : Sys) (r : Loaded) : Sys :=
  match s.free_slot with
  | none => s.goto (.undo_image r)
  | some j =>
    let id := some s.born
    let t := (s.create j .x64 r.pri).goto (.own_image j r)
    let t := t.assign r.stack.ptr id
    match r.image with
    | none => t
    | some q => t.assign q.ptr id

def own (s : Sys) (child ptr : Nat) (next : Point) : Option Sys :=
  (s.store.own (M.tcb child).toNat ptr).map fun st => { s with store := st }.goto next

/-- One round of the loops of `ELF64_HeapFreeRange` and `ELF64_FreeTaskBlocks`: the first block in
use that passes the test is freed, or the task goes on. -/
def free_round (s : Sys) (test : Heap → Nat → Bool) (next : Point) : Option Sys :=
  match s.store.heap.search (Heap.used_and test) with
  | none => none
  | some none => some (s.goto next)
  | some (some b) => some { s with store := s.store.free M.arena (u64 (b + X64_BLK_HDR)) }

def undo (s : Sys) (addr size : Nat) (next : Point) : Option Sys :=
  s.free_round M (Heap.overlaps addr (State.range_end addr size)) next

/-- The parent is signalled if it has not been removed. -/
def signal_parent (s : Sys) : Sys :=
  let next := if s.me.type = .x64 then Point.freeing else .leaving
  match s.me.parent with
  | none => s.goto next
  | some k =>
    if (s.tasks k).state = .removed then s.goto next
    else
      let reached := s.parent_of s.me.id = some (s.tasks k).id
      let t := { s with sent := Function.update s.sent s.me.id (s.sent s.me.id || reached) }
      (t.signal_child k).goto next

def free_next (s : Sys) : Option Sys :=
  s.free_round M (Heap.owned_by (M.tcb s.current).toNat) .reclaiming

/-- No x64 task is left. -/
def no_x64_left (s : Sys) : Bool :=
  (List.range s.count).all fun i => (s.tasks i).type ≠ .x64 ∨ (s.tasks i).state = .removed

/-- The arena is reset when no x64 task is left. -/
def ELF64_ReclaimHeap (s : Sys) : Sys :=
  if s.no_x64_left ∧ s.store.heap.first ≠ 0 then
    { s with store := ⟨s.store.heap.x64_heap_reset M.arena.heap0, []⟩ }
  else s

/-- The current task goes on inside its call. -/
def go (s : Sys) (refused : Bool) : Option Sys :=
  match s.me.point with
  | .user => some s
  | .wait_child => some s.wait_child
  | .load_image elf data => s.load_image M elf data refused
  | .load_stack elf data image => s.load_stack M elf data image refused
  | .free_data data r => some (s.free_data M data r)
  | .create r => some (s.Task_CreateX64 r)
  | .own_image child r => s.own M child r.image_base (.own_stack child r)
  | .own_stack child r => s.own M child r.stack.base .user
  | .undo_image r => s.undo M r.image_base r.image_size (.undo_stack r)
  | .undo_stack r => s.undo M r.stack.base r.stack.size .user
  | .removing => some (s.set s.current { s.me with state := .removed, point := .signalling })
  | .signalling => some s.signal_parent
  | .freeing => s.free_next M
  | .reclaiming => some ((s.ELF64_ReclaimHeap M).goto .leaving)
  | .leaving => some s.do_schedule

/-! ## Inputs -/

/-- What happens next: a timer tick, a signal or a timeout that readies a task, or a step of the
current task. -/
inductive Input where
  | tick
  | wake (j : Nat)
  | go (refused : Bool)
  | alloc (size : UInt32) (refused : Bool)
  | free (ptr : UInt64)
  | write (ptr i : Nat) (v : UInt8)
  | spawn (elf : Elf) (refused : Bool)
  | native (pri : Int)
  | wait
  | sleep
  | yield
  | exit

/-- The current task runs its own program. -/
def at_user (s : Sys) : Bool :=
  match s.me.point with
  | .user => s.me.state = .running
  | _ => false

def sys_alloc (s : Sys) (size : UInt32) (refused : Bool) : Option Sys :=
  if size = 0 then some s
  else (s.store.alloc M.arena size.toNat (2 ^ 4) (M.tcb s.current).toNat refused).map fun r =>
    let t := { s with store := r.1 }
    if r.2 = 0 then t
    else t.assign r.2 (if s.me.type = .x64 then some s.me.id else none)

/-- An x64 task reads the file into a block of its own. A shell does not. -/
def sys_spawn (s : Sys) (elf : Elf) (refused : Bool) : Option Sys :=
  if s.me.type = .native then some (s.goto (.load_image elf 0))
  else if elf.size = 0 then some s
  else (s.store.alloc M.arena elf.size.toNat (2 ^ 4) (M.tcb s.current).toNat refused).map fun r =>
    let t := { s with store := r.1 }
    if r.2 = 0 then t else (t.assign r.2 (some s.me.id)).goto (.load_image elf r.2)

def wake (s : Sys) (j : Nat) : Sys :=
  if j < s.count ∧ (s.tasks j).state = .waiting then s.ready_enqueue j else s

/-- What the current task does in its own program. -/
def act (s : Sys) : Input → Option Sys
  | .alloc size refused => s.sys_alloc M size refused
  | .free ptr => some { s with store := s.store.free M.arena ptr.toNat }
  | .write ptr i v => some { s with store := s.store.write ptr i v }
  | .spawn elf refused => s.sys_spawn M elf refused
  | .native pri => some (match s.free_slot with
    | none => s
    | some j => s.create j .native pri)
  | .wait => some (s.clear_child.goto .wait_child)
  | .sleep => some (s.block false)
  | .yield => some s.do_schedule
  | .exit => some (s.goto .removing)
  | _ => some s

/-- The current task has the processor: it runs, or it is on its way out. -/
def has_cpu (s : Sys) : Bool := s.me.state = .running ∨ s.me.state = .removed

def step (s : Sys) : Input → Option Sys
  | .tick => some s.do_schedule
  | .wake j => some (s.wake j)
  | .go refused => if s.has_cpu then s.go M refused else some s
  | i => if s.at_user then s.act M i else some s

end Sys

end uaos.task
