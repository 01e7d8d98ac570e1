-- The node tree of the RAM filesystem (ramfs.c): the node table, the child lists
-- and the path walks of RamFS_MkDir, RamFS_Create, RamFS_Delete and RamFS_Rename.
-- A walk over links that never ends is the outer `none` of its result.
import Uaos.Pool

namespace uaos.ramfs

/-! ## The tables -/

def RAMFS_MAX_NODES : Nat := 1024
def RAMFS_MAX_NAME : Nat := 32
def MAX_VOLS : Nat := 16

def FIBF_DELETE : UInt16 := 1
def DEFAULT_PROTECTION : UInt16 := 0x8800

/-- The bytes of a C string before its NUL. -/
abbrev CStr := List UInt8

/-- `RAMFS_TYPE_*`, and the 0xFF of a node that `alloc_node` has just claimed. -/
inductive NodeType where
  | free
  | claimed
  | dir
  | file
  deriving DecidableEq, Repr

/-- A node. A pointer to a node is its index in `g_nodes`, and `data` is an
offset in `g_pool`. -/
structure Node where
  type : NodeType
  attrs : UInt8
  protection : UInt16
  name : CStr
  comment : CStr
  mtime : Nat
  parent : Option Nat
  first_child : Option Nat
  next_sibling : Option Nat
  data : Option Nat
  size : Nat
  alloc : Nat
  ext_bdev : Option Nat
  ext_lba : Nat
  ext_blksz : Nat

/-- A mounted volume. `root` is only read while `valid` is set. -/
structure Vol where
  name : CStr
  root : Nat
  valid : Bool
  read_only : Bool

structure RamFs where
  nodes : Nat → Node
  vols : Nat → Vol
  pool : Pool

/-- The tables at boot: they are in BSS, so every node is free. -/
def boot : RamFs where
  nodes := fun _ => ⟨.free, 0, 0, [], [], 0, none, none, none, none, 0, 0, none, 0, 0⟩
  vols := fun _ => ⟨[], 0, false, false⟩
  pool := ramfs_init

/-- Change the node `x` by `f`. -/
def RamFs.set (m : RamFs) (x : Nat) (f : Node → Node) : RamFs :=
  { m with nodes := Function.update m.nodes x (f (m.nodes x)) }

/-! ## Strings and paths -/

def SLASH : UInt8 := 47
def COLON : UInt8 := 58

/-- A capital letter of ASCII as the small one. -/
def lower (c : UInt8) : UInt8 := if 65 ≤ c ∧ c ≤ 90 then c + 32 else c

/-- When only one string is at its end, a NUL is compared with another byte. -/
def seq_ci : CStr → CStr → Bool
  | a :: as, b :: bs => if lower a = lower b then seq_ci as bs else false
  | [], [] => true
  | _, _ => false

def scopy (src : CStr) (max : Nat) : CStr := src.take (max - 1)

/-- The next component of the path `s` and what follows it, or `none` when
nothing is left or the component is empty. -/
def next_component (s : CStr) (max : Nat) : Option (CStr × CStr) :=
  let comp := (s.takeWhile (· ≠ SLASH)).take (max - 1)
  let rest := s.drop comp.length
  let rest := if rest.head? = some SLASH then rest.tail else rest
  if comp = [] then none else some (comp, rest)

/-- The rounds of a `while (next_component(&cur, ...))` loop: each component with
what `cur` points at after it. -/
def components : Nat → CStr → List (CStr × CStr)
  | 0, _ => []
  | n + 1, s =>
    match next_component s RAMFS_MAX_NAME with
    | none => []
    | some (comp, cur) => (comp, cur) :: components n cur

def skip_vol_prefix (path : CStr) : CStr :=
  match path.dropWhile (· ≠ COLON) with
  | _ :: p => p
  | [] => path

/-- The path below the volume root: no volume name, and no leading slash. A
component has at least one byte, so the rounds are at most the bytes. -/
def path_rounds (path : CStr) : List (CStr × CStr) :=
  let p := skip_vol_prefix path
  let p := if p.head? = some SLASH then p.tail else p
  components p.length p

/-! ## The child lists -/

/-- The table has this many nodes, so no walk that ends is longer. -/
def NODE_FUEL : Nat := RAMFS_MAX_NODES + 1

/-- A node as `alloc_node` hands it out. -/
def claimed_node : Node :=
  ⟨.claimed, 0, DEFAULT_PROTECTION, [], [], 0, none, none, none, none, 0, 0, none, 0, 0⟩

/-- The first free node, cleared and claimed. -/
def alloc_node (m : RamFs) : Option (Nat × RamFs) :=
  match (List.range' 0 RAMFS_MAX_NODES).find? (fun i => (m.nodes i).type = .free) with
  | none => none
  | some i => some (i, m.set i fun _ => claimed_node)

/-- Walk from `cur` to the last sibling. -/
def last_sibling (m : RamFs) : Nat → Nat → Option Nat
  | 0, _ => none
  | fuel + 1, cur =>
    match (m.nodes cur).next_sibling with
    | none => some cur
    | some c => last_sibling m fuel c

def dir_add_child (m : RamFs) (dir child : Nat) : Option RamFs :=
  let m := m.set child fun n => { n with next_sibling := none }
  match (m.nodes dir).first_child with
  | none => some (m.set dir fun n => { n with first_child := some child })
  | some c =>
    match last_sibling m NODE_FUEL c with
    | none => none
    | some cur => some (m.set cur fun n => { n with next_sibling := some child })

/-- Walk from `cur` to the sibling before `child`. -/
def sibling_before (m : RamFs) (child : Nat) : Nat → Option Nat → Option (Option Nat)
  | 0, _ => none
  | _ + 1, none => some none
  | fuel + 1, some cur =>
    if (m.nodes cur).next_sibling = some child then some (some cur)
    else sibling_before m child fuel (m.nodes cur).next_sibling

def dir_remove_child (m : RamFs) (dir child : Nat) : Option RamFs :=
  let next := (m.nodes child).next_sibling
  if (m.nodes dir).first_child = some child then
    some (m.set dir fun n => { n with first_child := next })
  else
    match sibling_before m child NODE_FUEL (m.nodes dir).first_child with
    | none => none
    | some none => some m
    | some (some cur) => some (m.set cur fun n => { n with next_sibling := next })

/-- Walk the siblings from `c` on to the one named `name`. -/
def find_sibling (m : RamFs) (name : CStr) : Nat → Option Nat → Option (Option Nat)
  | 0, _ => none
  | _ + 1, none => some none
  | fuel + 1, some c =>
    if seq_ci (m.nodes c).name name then some (some c)
    else find_sibling m name fuel (m.nodes c).next_sibling

def find_child (m : RamFs) (dir : Nat) (name : CStr) : Option (Option Nat) :=
  find_sibling m name NODE_FUEL (m.nodes dir).first_child

/-! ## Volumes and path walks -/

/-- The new volume's index, or `none` when no slot or no node is left. -/
def ramfs_mount_vol (m : RamFs) (name : CStr) : RamFs × Option Nat :=
  match (List.range' 0 MAX_VOLS).find? (fun i => !(m.vols i).valid) with
  | none => (m, none)
  | some i =>
    let m := { m with vols := Function.update m.vols i { m.vols i with name := scopy name 16 } }
    match alloc_node m with
    | none => (m, none)
    | some (root, m) =>
      let m := m.set root fun n => { n with type := .dir, name := [] }
      ({ m with vols := Function.update m.vols i ⟨scopy name 16, root, true, false⟩ }, some i)

/-- A volume pointer: the index of a valid volume, or nothing. -/
def valid_vol (m : RamFs) (vol : Option Nat) : Option Vol :=
  match vol with
  | none => none
  | some i => if (m.vols i).valid then some (m.vols i) else none

def ramfs_set_read_only (m : RamFs) (vol : Option Nat) (ro : Bool) : RamFs :=
  match vol with
  | none => m
  | some i =>
    if (m.vols i).valid then
      { m with vols := Function.update m.vols i { m.vols i with read_only := ro } }
    else m

def resolve_from (m : RamFs) : Nat → List (CStr × CStr) → Option (Option Nat)
  | dir, [] => some (some dir)
  | dir, (comp, _) :: rest =>
    match find_child m dir comp with
    | none => none
    | some none => some none
    | some (some child) => resolve_from m child rest

def ramfs_resolve (m : RamFs) (vol : Option Nat) (path : CStr) : Option (Option Nat) :=
  match valid_vol m vol with
  | none => some none
  | some v => resolve_from m v.root (path_rounds path)

/-- The walk of RamFS_Create and RamFS_Rename to the parent directory and the
leaf name. It ends at a component that is missing or no directory. -/
def parent_walk (m : RamFs) : Nat → CStr → List (CStr × CStr) → Option (Option (Nat × CStr))
  | dir, last, [] => some (some (dir, last))
  | dir, _, (comp, cur) :: rest =>
    if cur = [] then parent_walk m dir (scopy comp RAMFS_MAX_NAME) rest
    else
      match find_child m dir comp with
      | none => none
      | some none => some none
      | some (some child) =>
        if (m.nodes child).type ≠ .dir then some none
        else parent_walk m child (scopy comp RAMFS_MAX_NAME) rest

/-- The fields that a call sets in the node that it makes. -/
def Node.setup (n : Node) (dir : Nat) (type : NodeType) (name : CStr) (now : Nat) : Node :=
  { n with type := type, mtime := now, name := scopy name RAMFS_MAX_NAME, parent := some dir }

/-- Set up the claimed node `x` and append it to the children of `dir`. -/
def add_node (m : RamFs) (dir x : Nat) (type : NodeType) (name : CStr) (now : Nat) :
    Option RamFs :=
  dir_add_child (m.set x fun n => n.setup dir type name now) dir x

/-- The walk of RamFS_MkDir: it makes the missing directories on the way, and it
goes on from whatever node has the name. The inner `none` is a full table. -/
def mkdir_walk (now : Nat) :
    RamFs → Nat → CStr → List (CStr × CStr) → Option (RamFs × Option (Nat × CStr))
  | m, dir, last, [] => some (m, some (dir, last))
  | m, dir, _, (comp, cur) :: rest =>
    if cur = [] then mkdir_walk now m dir (scopy comp RAMFS_MAX_NAME) rest
    else
      match find_child m dir comp with
      | none => none
      | some (some child) => mkdir_walk now m child (scopy comp RAMFS_MAX_NAME) rest
      | some none =>
        match alloc_node m with
        | none => some (m, none)
        | some (child, m) =>
          match add_node m dir child .dir comp now with
          | none => none
          | some m => mkdir_walk now m child (scopy comp RAMFS_MAX_NAME) rest

/-! ## The calls -/

/-- The node at the end, and `none` for NULL. `now` is the clock. -/
def ramfs_mkdir (m : RamFs) (vol : Option Nat) (path : CStr) (now : Nat) :
    Option (RamFs × Option Nat) :=
  match valid_vol m vol with
  | none => some (m, none)
  | some v =>
    if v.read_only then some (m, none)
    else
      match mkdir_walk now m v.root [] (path_rounds path) with
      | none => none
      | some (m, none) => some (m, none)
      | some (m, some (dir, last)) =>
        if last = [] then some (m, none)
        else
          match find_child m dir last with
          | none => none
          | some (some existing) => some (m, some existing)
          | some none =>
            match alloc_node m with
            | none => some (m, none)
            | some (node, m) => (add_node m dir node .dir last now).map fun m => (m, some node)

def ramfs_create (m : RamFs) (vol : Option Nat) (path : CStr) (now : Nat) :
    Option (RamFs × Option Nat) :=
  match valid_vol m vol with
  | none => some (m, none)
  | some v =>
    if v.read_only then some (m, none)
    else
      match parent_walk m v.root [] (path_rounds path) with
      | none => none
      | some none => some (m, none)
      | some (some (dir, last)) =>
        if last = [] then some (m, none)
        else
          match find_child m dir last with
          | none => none
          | some (some existing) =>
            if (m.nodes existing).type = .file then
              some (m.set existing fun n => { n with size := 0, mtime := now }, some existing)
            else some (m, none)
          | some none =>
            match alloc_node m with
            | none => some (m, none)
            | some (node, m) =>
              (add_node m dir node .file last now).map fun m => (m, some node)

/-- Give the data of the node `x` back to the pool and take `x` off its parent's
list. -/
def drop_node (m : RamFs) (x : Nat) : Option RamFs :=
  match ramfs_free_pool m.pool (m.nodes x).data, (m.nodes x).parent with
  | some pool, some dir => dir_remove_child { m with pool := pool } dir x
  | _, _ => none

/-- A node as RamFS_Delete leaves it. -/
def Node.deleted (n : Node) : Node := { n with
    type := .free, name := [], attrs := 0, protection := DEFAULT_PROTECTION
    size := 0, alloc := 0, data := none, ext_bdev := none, ext_lba := 0, ext_blksz := 0
    parent := none, first_child := none, next_sibling := none }

def ramfs_delete (m : RamFs) (vol : Option Nat) (path : CStr) : Option (RamFs × Int) :=
  if vol.any fun i => (m.vols i).read_only then some (m, -5)
  else
    match ramfs_resolve m vol path with
    | none => none
    | some none => some (m, -1)
    | some (some x) =>
      let n := m.nodes x
      if n.type = .dir ∧ n.first_child.isSome then some (m, -2)
      else if n.parent = none then some (m, -3)
      else if n.protection &&& FIBF_DELETE ≠ 0 then some (m, -4)
      else (drop_node m x).map fun m => (m.set x Node.deleted, 0)

/-- What RamFS_Rename decides before it changes a node. -/
inductive RenamePlan where
  | done (rc : Int)
  | move (src dst_dir : Nat) (last : CStr) (existing : Option Nat)

def rename_plan (m : RamFs) (vol : Option Nat) (old_path new_path : CStr) : Option RenamePlan :=
  match valid_vol m vol with
  | none => some (.done (-1))
  | some v =>
    if v.read_only then some (.done (-5))
    else
      match ramfs_resolve m vol old_path with
      | none => none
      | some none => some (.done (-1))
      | some (some src) =>
        if (m.nodes src).parent = none then some (.done (-3))
        else if (m.nodes src).protection &&& FIBF_DELETE ≠ 0 then some (.done (-4))
        else
          match parent_walk m v.root [] (path_rounds new_path) with
          | none => none
          | some none => some (.done (-1))
          | some (some (dst_dir, last)) =>
            if last = [] then some (.done (-1))
            else
              match find_child m dst_dir last with
              | none => none
              | some none => some (.move src dst_dir last none)
              | some (some existing) =>
                let e := m.nodes existing
                if existing = src then some (.done 0)
                else if e.type = .dir ∧ e.first_child.isSome then some (.done (-2))
                else if e.protection &&& FIBF_DELETE ≠ 0 then some (.done (-4))
                else some (.move src dst_dir last (some existing))

/-- A node as RamFS_Rename leaves the one that stood at the destination. -/
def Node.replaced (n : Node) : Node :=
  { n with type := .free, parent := none, first_child := none, next_sibling := none }

def remove_existing (m : RamFs) : Option Nat → Option RamFs
  | none => some m
  | some x => (drop_node m x).map fun m => m.set x Node.replaced

/-- Move `src` into `dst_dir`, unless it is there. -/
def move_node (m : RamFs) (src dst_dir : Nat) : Option RamFs :=
  match (m.nodes src).parent with
  | none => none
  | some dir =>
    if dir = dst_dir then some m
    else
      match dir_remove_child m dir src with
      | none => none
      | some m => dir_add_child (m.set src fun n => { n with parent := some dst_dir }) dst_dir src

def ramfs_rename (m : RamFs) (vol : Option Nat) (old_path new_path : CStr) :
    Option (RamFs × Int) :=
  match rename_plan m vol old_path new_path with
  | none => none
  | some (.done rc) => some (m, rc)
  | some (.move src dst_dir last existing) =>
    match remove_existing m existing with
    | none => none
    | some m =>
      (move_node m src dst_dir).map fun m =>
        (m.set src fun n => { n with name := scopy last RAMFS_MAX_NAME }, 0)

end uaos.ramfs
