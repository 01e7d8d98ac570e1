-- The descriptors of the system calls (syscall_dispatch.c). One table of files and one of
-- directories serve all tasks. A call can be cut in two by a timer tick, so it is a sequence of
-- points, and any task may go on at any time.
import Uaos.Run
import Mathlib.Tactic.Common
import Mathlib.Logic.Function.Basic

namespace uaos.fd

open Function

/-! ## The tables -/

def MAX_FD : Nat := 16
def MAX_DIR_FD : Nat := 16
def MAX_DIR_ENTRIES : Nat := 256

/-- The two tables. -/
inductive Kind where
  | file
  | dir
  deriving DecidableEq

/-- The first slot that is given out. The descriptors 0, 1 and 2 are the console. -/
def Kind.first : Kind → Nat
  | .file => 3
  | .dir => 0

def Kind.slots : Kind → Nat
  | .file => MAX_FD
  | .dir => MAX_DIR_FD

section system

-- the file systems, paths, nodes of the RAM disk, the rest of a file handle, directory entries
variable (ω π ν ρ ε : Type)

structure VfsFile where
  node : Option ν
  pos : Nat
  nil : Bool
  handle_id : Nat
  rest : ρ

structure SysDirHandle where
  ram_next : Option ν
  entries : List ε
  index : Nat

/-- The calls of the VFS. -/
structure Vfs where
  VFS_Open : ω → VfsFile ν ρ → π → Int → Bool × VfsFile ν ρ × ω
  VFS_Close : ω → VfsFile ν ρ → VfsFile ν ρ × ω
  VFS_Read : ω → VfsFile ν ρ → Nat → List UInt8 × VfsFile ν ρ × ω
  VFS_Write : ω → VfsFile ν ρ → List UInt8 → Nat × VfsFile ν ρ × ω
  VFS_Seek : ω → VfsFile ν ρ → Nat → VfsFile ν ρ
  VFS_ResolveDir : ω → π → Option ν
  VFS_IsDir : ω → π → Bool
  VFS_ReadDir : ω → π → List ε
  first_child : ω → ν → Option ν
  next_sibling : ω → ν → Option ν
  entry : ω → ν → ε

/-- What a slot is allocated for. -/
inductive Req where
  | file (path : π) (flags : Int)
  | dir (path : π) (node : Option ν)

inductive Op where
  | read (len : Nat)
  | write (buf : List UInt8)
  | seek (pos : Nat)
  | readdir

/-- Where a task goes on. Outside `user` it is inside a system call. -/
inductive Point where
  | user
  | test (req : Req π ν) (i : Nat)
  | take (req : Req π ν) (i : Nat)
  | fill (req : Req π ν) (i : Nat)
  | drop (i : Nat)
  | use (op : Op) (i : Nat)
  | close (i : Nat)
  | free (k : Kind) (i : Nat)

/-- A task, with the results of its last call. Beside it stand the descriptors that it was given
and has not closed. -/
structure Task where
  alive : Bool
  point : Point π ν
  ret : Int
  buf : List UInt8
  ent : Option ε
  held : Kind → List Nat

/-- The kernel. `opener` says which task a slot was allocated by. -/
structure Sys where
  tasks : Nat → Task π ν ε
  count : Nat
  used : Kind → Nat → Bool
  files : Nat → VfsFile ν ρ
  dirs : Nat → SysDirHandle ν ε
  world : ω
  opener : Kind → Nat → Option Nat

inductive Call where
  | open (path : π) (flags : Int)
  | close (fd : Int)
  | read_file (fd : Int) (len : Nat)
  | write_file (fd : Int) (buf : List UInt8)
  | seek (fd : Int) (pos : Nat)
  | opendir (path : π)
  | readdir (dd : Int) (null : Bool)
  | closedir (dd : Int)

/-- A task is made, makes a call, goes on inside one, or exits. -/
inductive Input where
  | start
  | call (j : Nat) (c : Call π)
  | go (j : Nat)
  | exit (j : Nat)

end system

variable {ω π ν ρ ε : Type}

def Req.kind : Req π ν → Kind
  | .file _ _ => .file
  | .dir _ _ => .dir

def Op.kind : Op → Kind
  | .readdir => .dir
  | _ => .file

namespace Sys

/-! ## The system calls -/

variable (V : Vfs ω π ν ρ ε)

def set (s : Sys ω π ν ρ ε) (j : Nat) (t : Task π ν ε) : Sys ω π ν ρ ε :=
  { s with tasks := update s.tasks j t }

/-- The task goes on at another point. -/
def goto (s : Sys ω π ν ρ ε) (j : Nat) (p : Point π ν) : Sys ω π ν ρ ε :=
  s.set j { s.tasks j with point := p }

/-- The call returns. -/
def ret (s : Sys ω π ν ρ ε) (j : Nat) (r : Int) : Sys ω π ν ρ ε :=
  s.set j { s.tasks j with point := .user, ret := r }

/-- The call returns a descriptor. -/
def give (s : Sys ω π ν ρ ε) (j : Nat) (k : Kind) (i : Nat) : Sys ω π ν ρ ε :=
  let t := s.tasks j
  s.set j { t with
    point := .user
    ret := i
    held := update t.held k (i :: t.held k) }

/-- The task closes a descriptor. -/
def give_up (s : Sys ω π ν ρ ε) (j : Nat) (k : Kind) (i : Nat) (p : Point π ν) :
    Sys ω π ν ρ ε :=
  let t := s.tasks j
  s.set j { t with point := p, held := update t.held k ((t.held k).erase i) }

/-- The check of a descriptor that a program passes. -/
def valid (s : Sys ω π ν ρ ε) (k : Kind) (fd : Int) : Bool :=
  0 ≤ fd && fd < k.slots && s.used k fd.toNat

/-- The beginning of a system call. -/
def call (s : Sys ω π ν ρ ε) (j : Nat) : Call π → Sys ω π ν ρ ε
  | .open path flags => s.goto j (.test (.file path flags) Kind.file.first)
  | .close fd =>
    if s.valid .file fd then s.give_up j .file fd.toNat (.close fd.toNat) else s.ret j (-1)
  | .read_file fd len =>
    if s.valid .file fd then s.goto j (.use (.read len) fd.toNat) else s.ret j (-1)
  | .write_file fd buf =>
    if s.valid .file fd then s.goto j (.use (.write buf) fd.toNat) else s.ret j (-1)
  | .seek fd pos =>
    if s.valid .file fd then s.goto j (.use (.seek pos) fd.toNat) else s.ret j (-1)
  | .opendir path =>
    let dir := V.VFS_ResolveDir s.world path
    if dir.isNone && !V.VFS_IsDir s.world path then s.ret j (-1)
    else s.goto j (.test (.dir path dir) Kind.dir.first)
  | .readdir dd null =>
    if s.valid .dir dd && !null then s.goto j (.use .readdir dd.toNat) else s.ret j (-1)
  | .closedir dd =>
    if s.valid .dir dd then s.give_up j .dir dd.toNat (.free .dir dd.toNat) else s.ret j (-1)

/-- A slot is taken and reset, as at the end of `fd_alloc` and `dir_alloc`. -/
def alloc (s : Sys ω π ν ρ ε) (j : Nat) (k : Kind) (i : Nat) : Sys ω π ν ρ ε :=
  let s := { s with
    used := update s.used k (update (s.used k) i true)
    opener := update s.opener k (update (s.opener k) i (some j)) }
  match k with
  | .file =>
    let f := { s.files i with node := none, pos := 0, nil := false, handle_id := 0 }
    { s with files := update s.files i f }
  | .dir => { s with dirs := update s.dirs i ⟨none, [], 0⟩ }

/-- `fd_free` and `dir_free` -/
def release (s : Sys ω π ν ρ ε) (k : Kind) (i : Nat) : Sys ω π ν ρ ε :=
  let s := { s with used := update s.used k (update (s.used k) i false) }
  match k with
  | .file => { s with files := update s.files i { s.files i with node := none } }
  | .dir => { s with dirs := update s.dirs i ⟨none, [], 0⟩ }

/-- A file or a directory is opened in the new slot. -/
def fill (s : Sys ω π ν ρ ε) (j i : Nat) : Req π ν → Sys ω π ν ρ ε
  | .file path flags =>
    let (ok, f, w) := V.VFS_Open s.world (s.files i) path flags
    let s := { s with files := update s.files i f, world := w }
    if ok then s.give j .file i else s.goto j (.drop i)
  | .dir path node =>
    let d := match node with
      | some n => { s.dirs i with ram_next := V.first_child s.world n }
      | none => { s.dirs i with entries := (V.VFS_ReadDir s.world path).take MAX_DIR_ENTRIES }
    { s with dirs := update s.dirs i d }.give j .dir i

/-- The next entry of a directory, and the handle behind it. -/
def next_entry (w : ω) (d : SysDirHandle ν ε) : Option ε × SysDirHandle ν ε :=
  match d.ram_next with
  | some n => (some (V.entry w n), { d with ram_next := V.next_sibling w n })
  | none =>
    match d.entries[d.index]? with
    | some e => (some e, { d with index := d.index + 1 })
    | none => (none, d)

/-- The slot is read, written or moved in. -/
def use (s : Sys ω π ν ρ ε) (j i : Nat) : Op → Sys ω π ν ρ ε
  | .read len =>
    let (bytes, f, w) := V.VFS_Read s.world (s.files i) len
    let s := { s with files := update s.files i f, world := w }
    s.set j { s.tasks j with point := .user, ret := bytes.length, buf := bytes }
  | .write buf =>
    let (n, f, w) := V.VFS_Write s.world (s.files i) buf
    { s with files := update s.files i f, world := w }.ret j n
  | .seek pos =>
    let f := V.VFS_Seek s.world (s.files i) pos
    { s with files := update s.files i f }.ret j f.pos
  | .readdir =>
    let (e, d) := next_entry V s.world (s.dirs i)
    let s := { s with dirs := update s.dirs i d }
    s.set j { s.tasks j with point := .user, ret := if e.isSome then 1 else 0, ent := e }

/-- The task goes on inside its call. -/
def go (s : Sys ω π ν ρ ε) (j : Nat) : Sys ω π ν ρ ε :=
  match (s.tasks j).point with
  | .user => s
  | .test req i =>
    if req.kind.slots ≤ i then s.ret j (-1)
    else if s.used req.kind i then s.goto j (.test req (i + 1))
    else s.goto j (.take req i)
  | .take req i => (s.alloc j req.kind i).goto j (.fill req i)
  | .fill req i => s.fill V j i req
  | .drop i => (s.release .file i).ret j (-1)
  | .use op i => s.use V j i op
  | .close i =>
    let (f, w) := V.VFS_Close s.world (s.files i)
    { s with files := update s.files i f, world := w }.goto j (.free .file i)
  | .free k i => (s.release k i).ret j 0

/-- The task can move. -/
def runs (s : Sys ω π ν ρ ε) (j : Nat) : Bool := j < s.count && (s.tasks j).alive

def at_user (s : Sys ω π ν ρ ε) (j : Nat) : Bool :=
  match (s.tasks j).point with
  | .user => true
  | _ => false

def new_task : Task π ν ε := ⟨true, .user, 0, [], none, fun _ => []⟩

/-- `Task_Exit` leaves the tables alone. It also ends a task that faults inside a call. -/
def step (s : Sys ω π ν ρ ε) : Input π → Option (Sys ω π ν ρ ε)
  | .start => some { s.set s.count new_task with count := s.count + 1 }
  | .call j c => some (if s.runs j && s.at_user j then s.call V j c else s)
  | .go j => some (if s.runs j then s.go V j else s)
  | .exit j => some (if s.runs j then s.set j { s.tasks j with alive := false } else s)

/-- Nothing is open and there is no task. -/
def boot (w : ω) (files : Nat → VfsFile ν ρ) : Sys ω π ν ρ ε where
  tasks _ := { new_task with alive := false }
  count := 0
  used _ _ := false
  files := files
  dirs _ := ⟨none, [], 0⟩
  world := w
  opener _ _ := none

end Sys

end uaos.fd
