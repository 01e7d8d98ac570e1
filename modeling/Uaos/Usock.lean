-- Sockets for tasks in user space (usock.c). A call blocks in a loop, so that other tasks,
-- segments and ticks come between its pieces. A socket remembers only the index of its TCP
-- socket, so it keeps to its own connection only while the slot is not given to another.
import Uaos.Run
import Uaos.TcpStack

namespace uaos.usock

open Function

open uaos.tcp Stack

/-! ## Results -/

def USOCK_OK : Int := 0
def USOCK_EBADF : Int := -1
def USOCK_ETIMEDOUT : Int := -2
def USOCK_ECONN : Int := -3
def USOCK_ENETDOWN : Int := -4
def USOCK_EINVAL : Int := -5
def USOCK_EMFILE : Int := -6

def USOCK_STREAM : Int := 1

abbrev MAX_USOCKS : Nat := 8

abbrev Handle := Fin MAX_USOCKS

/-- A task, by its number. -/
abbrev Task := Nat

def MS_TO_TICKS (ms : UInt32) : Nat := (ms + 9).toNat / 10

/-- A socket that is in use. `nsock` is the index of the TCP socket, and -1 before there is
one. -/
structure Usock where
  owner : Task
  nsock : Int
  conn_to_ms : UInt32
  recv_to_ms : UInt32
  send_to_ms : UInt32
  deriving DecidableEq

/-- Where a blocked call on a socket goes on. `ns` and `made` are the index and the
generation of the connection that `usock_connect` has opened. -/
inductive Call where
  | connecting (ns : Slot) (made : UInt32) (deadline : Nat)
  | aborting (ns : Slot) (made : UInt32)
  | sending (buf : Buf) (len total deadline : Nat)
  | send_failed (buf : Buf) (len total deadline : Nat)
  | receiving (len deadline : Nat)
  | recv_failed (len deadline : Nat)

/-- The connection that a blocked call of `usock_connect` waits for. -/
def Call.opened : Call → Option (Slot × UInt32)
  | .connecting ns made _ => some (ns, made)
  | .aborting ns made => some (ns, made)
  | _ => none

/-- A userspace socket has read from, written to or closed a TCP socket. `made` is the
generation of the connection that `usock_connect` made for it, `touched` the generation of
the connection that was in the slot. -/
structure Touch where
  us : Handle
  made : Option UInt32
  touched : UInt32
  deriving DecidableEq

/-- The network stack, the sockets, the call that their owner is blocked in, and the last
results of the tasks. The last two fields only keep track: the generation of the connection
that was made for each socket, and what the sockets have touched. -/
structure World where
  stack : Stack
  up : Bool
  ticks : Nat
  usocks : Handle → Option Usock
  calls : Handle → Option Call
  result : Task → Int
  made : Handle → Option UInt32
  log : List Touch

def World.boot (local_ip : UInt32) : World where
  stack := Stack.boot local_ip
  up := true
  ticks := 0
  usocks := fun _ => none
  calls := fun _ => none
  result := fun _ => 0
  made := fun _ => none
  log := []

namespace World

def handles : List Handle := List.finRange MAX_USOCKS

def returns (w : World) (task : Task) (r : Int) : World :=
  { w with result := update w.result task r }

/-- The call on a socket ends with a result for its owner. -/
def done (w : World) (us : Handle) (u : Usock) (r : Int) : World :=
  { w with calls := update w.calls us none }.returns u.owner r

def goes_on (w : World) (us : Handle) (c : Call) : World :=
  { w with calls := update w.calls us (some c) }

/-- A task that is blocked in a call makes no other. -/
def idle (w : World) (task : Task) : Bool :=
  handles.all fun us => (w.calls us).isNone ∨ (w.usocks us).map (·.owner) ≠ some task

/-- Only the owner can use a socket. -/
def usock_lookup (w : World) (task : Task) (us : Int) : Option (Handle × Usock) :=
  match handles.find? fun i => (i.val : Int) = us with
  | none => none
  | some i =>
    match w.usocks i with
    | none => none
    | some u => if u.owner = task then some (i, u) else none

/-- The socket `us` does something with the TCP socket `sock`. -/
def touch (w : World) (us : Handle) (sock : Int) (stack : Stack) : World :=
  match slot_of sock with
  | none => { w with stack }
  | some i => { w with stack, log := w.log ++ [⟨us, w.made us, w.stack.gen i⟩] }

/-- Gives the TCP socket back. -/
def usock_release_native (w : World) (us : Handle) (u : Usock) : World :=
  if 0 ≤ u.nsock then
    w.touch us u.nsock (if w.up then w.stack.tcp_close u.nsock else w.stack.tcp_abort u.nsock)
  else w

def free (w : World) (us : Handle) : World := { w with
    usocks := update w.usocks us none
    calls := update w.calls us none
    made := update w.made us none }

/-! ## The calls up to where they block -/

def usock_socket (w : World) (task : Task) (type : Int) : World :=
  if type ≠ USOCK_STREAM then w.returns task USOCK_EINVAL
  else if !w.up then w.returns task USOCK_ENETDOWN
  else
    match handles.find? fun i => (w.usocks i).isNone with
    | none => w.returns task USOCK_EMFILE
    | some i =>
      { w with usocks := update w.usocks i (some ⟨task, -1, 8000, 30000, 30000⟩) }.returns
        task i.val

def usock_connect (w : World) (task : Task) (us : Int) (ip : UInt32) (port : UInt16) : World :=
  match w.usock_lookup task us with
  | none => w.returns task USOCK_EBADF
  | some (i, u) =>
    if 0 ≤ u.nsock then w.returns task USOCK_EINVAL
    else if !w.up then w.returns task USOCK_ENETDOWN
    else
      let (stack, ns) := w.stack.tcp_connect ip port 0
      match ns with
      | none => w.returns task USOCK_EMFILE
      | some ns =>
        { w with stack }.goes_on i
          (.connecting ns (stack.gen ns) (w.ticks + MS_TO_TICKS u.conn_to_ms))

/-- A timeout of 0 stands for no deadline. -/
def deadline (w : World) (ms : UInt32) : Nat := if ms = 0 then 0 else w.ticks + MS_TO_TICKS ms

def usock_send (w : World) (task : Task) (us : Int) (buf : Buf) (len : Int) : World :=
  match w.usock_lookup task us with
  | none => w.returns task USOCK_EBADF
  | some (i, u) =>
    if u.nsock < 0 ∨ len < 0 then w.returns task USOCK_EBADF
    else if !w.up then w.returns task USOCK_ENETDOWN
    else w.goes_on i (.sending buf len.toNat 0 (w.deadline u.send_to_ms))

def usock_recv (w : World) (task : Task) (us : Int) (len : Int) : World :=
  match w.usock_lookup task us with
  | none => w.returns task USOCK_EBADF
  | some (i, u) =>
    if u.nsock < 0 ∨ len ≤ 0 then w.returns task USOCK_EBADF
    else w.goes_on i (.receiving len.toNat (w.deadline u.recv_to_ms))

def usock_close (w : World) (task : Task) (us : Int) : World :=
  match w.usock_lookup task us with
  | none => w.returns task USOCK_EBADF
  | some (i, u) => ((w.usock_release_native i u).free i).returns task USOCK_OK

/-- The number of a state in the enumeration of the source. -/
def state_number : TcpState → Int
  | .closed => 0
  | .syn_sent => 1
  | .syn_received => 2
  | .established => 3
  | .fin_wait_1 => 4
  | .fin_wait_2 => 5
  | .close_wait => 6
  | .last_ack => 7
  | .time_wait => 8
  | .listen => 9

def usock_state (w : World) (task : Task) (us : Int) : World :=
  match w.usock_lookup task us with
  | none => w.returns task USOCK_EBADF
  | some (_, u) =>
    if u.nsock < 0 then w.returns task (state_number .closed)
    else w.returns task (state_number (w.stack.tcp_state u.nsock))

/-- The socket with one of its timeouts changed. -/
def with_opt (u : Usock) (opt : Int) (val : UInt32) : Option Usock :=
  if opt = 1 then some { u with conn_to_ms := val }
  else if opt = 2 then some { u with recv_to_ms := val }
  else if opt = 3 then some { u with send_to_ms := val }
  else none

def usock_setopt (w : World) (task : Task) (us opt : Int) (val : UInt32) : World :=
  match w.usock_lookup task us with
  | none => w.returns task USOCK_EBADF
  | some (i, u) =>
    match with_opt u opt val with
    | none => w.returns task USOCK_EINVAL
    | some u => { w with usocks := update w.usocks i (some u) }.returns task USOCK_OK

/-- One socket of a task that ends. -/
def cleanup_one (task : Task) (w : World) (us : Handle) : World :=
  match w.usocks us with
  | none => w
  | some u => if u.owner = task then (w.usock_release_native us u).free us else w

def usock_cleanup_task (w : World) (task : Task) : World := handles.foldl (cleanup_one task) w

/-! ## One more piece of a blocked call -/

/-- The result of a send that has to stop. -/
def send_stops (total : Nat) (err : Int) : Int := if total = 0 then err else total

/-- The next piece of the call on the socket `us`, with one call into the TCP layer. -/
def piece (w : World) (us : Handle) (u : Usock) : Call → World
  | .connecting ns made deadline =>
    let st := (w.stack.socks ns).state
    if st = .established then
      { w with
        usocks := update w.usocks us (some { u with nsock := ns.val })
        made := update w.made us (some made) }.done us u USOCK_OK
    else if st = .closed then w.done us u USOCK_ECONN
    else if u.conn_to_ms ≠ 0 ∧ deadline ≤ w.ticks then w.goes_on us (.aborting ns made)
    else w
  | .aborting ns made =>
    { w with
      stack := w.stack.on ns tcp_abort
      log := w.log ++ [(⟨us, some made, w.stack.gen ns⟩ : Touch)] }.done us u USOCK_ETIMEDOUT
  | .sending buf len total deadline =>
    if len ≤ total then w.done us u total
    else
      let (stack, n) := w.stack.tcp_send u.nsock (fun i => buf (total + i)) (len - total).toUInt16
      let w := w.touch us u.nsock stack
      if 0 < n then w.goes_on us (.sending buf len (total + n) deadline)
      else w.goes_on us (.send_failed buf len total deadline)
  | .send_failed buf len total deadline =>
    let st := w.stack.tcp_state u.nsock
    if st ≠ .established ∧ st ≠ .close_wait then w.done us u (send_stops total USOCK_ECONN)
    else if deadline ≠ 0 ∧ deadline ≤ w.ticks then w.done us u (send_stops total USOCK_ETIMEDOUT)
    else w.goes_on us (.sending buf len total deadline)
  | .receiving len deadline =>
    let (stack, out) := w.stack.tcp_recv u.nsock len.toUInt16
    let w := w.touch us u.nsock stack
    if 0 < out.length then w.done us u out.length else w.goes_on us (.recv_failed len deadline)
  | .recv_failed len deadline =>
    let st := w.stack.tcp_state u.nsock
    if st = .closed ∨ st = .close_wait ∨ st = .last_ack ∨ st = .time_wait then w.done us u 0
    else if st ≠ .established ∧ st ≠ .fin_wait_1 ∧ st ≠ .fin_wait_2 then w.done us u USOCK_ECONN
    else if deadline ≠ 0 ∧ deadline ≤ w.ticks then w.done us u USOCK_ETIMEDOUT
    else w.goes_on us (.receiving len deadline)

/-- The owner of a socket runs on, if it is blocked in a call. -/
def resume (w : World) (us : Handle) : World :=
  match w.usocks us, w.calls us with
  | some u, some c => w.piece us u c
  | _, _ => w

/-! ## Steps -/

/-- The calls that a task can make. -/
inductive Op where
  | socket (type : Int)
  | connect (us : Int) (ip : UInt32) (port : UInt16)
  | send (us : Int) (buf : Buf) (len : Int)
  | recv (us : Int) (len : Int)
  | close (us : Int)
  | state (us : Int)
  | setopt (us opt : Int) (val : UInt32)

/-- What the servers in the kernel can do with TCP sockets. -/
inductive KernelOp where
  | connect (ip : UInt32) (port local_port : UInt16)
  | listen (port : UInt16)
  | accept (sock : Int)
  | send (sock : Int) (data : Buf) (len : UInt16)
  | recv (sock : Int) (maxlen : UInt16)
  | close (sock : Int)
  | abort (sock : Int)
  | conn_send (sock : Int) (g : UInt32) (data : Buf) (len : UInt16)
  | conn_recv (sock : Int) (g : UInt32) (maxlen : UInt16)
  | conn_close (sock : Int) (g : UInt32)
  | conn_abort (sock : Int) (g : UInt32)

inductive Input where
  | rx (src_ip dst_ip : UInt32) (pkt : Buf) (len : Nat)
  | tick
  | net (up : Bool)
  | call (task : Task) (op : Op)
  | resume (us : Handle)
  | exit (task : Task)
  | kernel (op : KernelOp)

def call (w : World) (task : Task) : Op → World
  | .socket type => w.usock_socket task type
  | .connect us ip port => w.usock_connect task us ip port
  | .send us buf len => w.usock_send task us buf len
  | .recv us len => w.usock_recv task us len
  | .close us => w.usock_close task us
  | .state us => w.usock_state task us
  | .setopt us opt val => w.usock_setopt task us opt val

def kernel (st : Stack) : KernelOp → Stack
  | .connect ip port local_port => (st.tcp_connect ip port local_port).1
  | .listen port => (st.tcp_listen port).1
  | .accept sock => (st.tcp_accept sock).1
  | .send sock data len => (st.tcp_send sock data len).1
  | .recv sock maxlen => (st.tcp_recv sock maxlen).1
  | .close sock => st.tcp_close sock
  | .abort sock => st.tcp_abort sock
  | .conn_send sock g data len => (st.tcp_conn_send sock g data len).1
  | .conn_recv sock g maxlen => (st.tcp_conn_recv sock g maxlen).1
  | .conn_close sock g => st.tcp_conn_close sock g
  | .conn_abort sock g => st.tcp_conn_abort sock g

def next (w : World) : Input → World
  | .rx src_ip dst_ip pkt len => { w with stack := w.stack.tcp_rx src_ip dst_ip pkt len }
  | .tick => { w with ticks := w.ticks + 1, stack := if w.up then w.stack.tcp_tick else w.stack }
  | .net up => { w with up }
  | .call task op => if w.idle task then w.call task op else w
  | .resume us => w.resume us
  | .exit task => w.usock_cleanup_task task
  | .kernel op => { w with stack := kernel w.stack op }

def step (w : World) (i : Input) : Option World := some (w.next i)

/-! ## Slots that are held -/

/-- A userspace socket has the slot, or a call of `usock_connect` is waiting for it. -/
def held (w : World) (i : Slot) : Bool := handles.any fun us =>
    (w.usocks us).any (fun u => u.nsock = (i.val : Int)) || (w.calls us).any
      fun c => c.opened.any (·.1 = i)

/-- The slot that a step gives to a new connection. -/
def slot_given (w : World) : Input → Option Slot
  | .rx src_ip _ pkt len => (Stack.parse pkt len).bind (w.stack.rx_slot src_ip)
  | .call _ (.connect _ _ _) => w.stack.alloc_sock
  | .kernel (.connect _ _ _) => w.stack.alloc_sock
  | .kernel (.listen _) => w.stack.alloc_sock
  | _ => none

/-- No slot is given to a new connection while a userspace socket holds it. -/
def Spares (w : World) (i : Input) : Prop := (w.slot_given i).all fun s => !w.held s

instance (w : World) (i : Input) : Decidable (w.Spares i) := inferInstanceAs (Decidable (_ = true))

/-! ## The invariant -/

/-- Every userspace socket and every call of `usock_connect` has the connection that was
made for it, and nothing else has been touched. -/
structure Own (w : World) : Prop where
  socks : ∀ us u i, w.usocks us = some u → slot_of u.nsock = some i →
    w.made us = some (w.stack.gen i)
  calls : ∀ us c i g, w.calls us = some c → c.opened = some (i, g) → w.stack.gen i = g
  log : ∀ t ∈ w.log, t.made = some t.touched

lemma slot_of_eq {sock : Int} {i : Slot} (h : slot_of sock = some i) : sock = i.val := by
  have := List.find?_some h
  simpa using (of_decide_eq_true this).symm

lemma slot_of_val (i : Slot) : slot_of (i.val : Int) = some i := by
  revert i
  decide

variable {w : World} {us : Handle} {u : Usock} {st : Stack}

section

variable (h : Own w)

include h

/-- The stack may change where nobody holds the slot. -/
lemma Own.new_stack (hs : ∀ i, w.held i → st.gen i = w.stack.gen i) :
    Own { w with stack := st } := by
  refine ⟨fun us u i hu hi => ?_, fun us c i g hc ho => ?_, h.log⟩
  · have hheld : w.held i := by
      refine List.any_eq_true.mpr ⟨us, List.mem_finRange us, ?_⟩
      have hu : w.usocks us = some u := hu
      simp [hu, slot_of_eq hi]
    rw [show w.made us = _ from h.socks us u i hu hi]
    exact congrArg some (hs i hheld).symm
  · have hheld : w.held i := by
      refine List.any_eq_true.mpr ⟨us, List.mem_finRange us, ?_⟩
      have hc : w.calls us = some c := hc
      simp [hc, ho]
    exact (hs i hheld).trans (h.calls us c i g hc ho)

lemma Own.returns (task : Task) (r : Int) : Own (w.returns task r) :=
  ⟨h.socks, h.calls, h.log⟩

lemma Own.done (us : Handle) (u : Usock) (r : Int) : Own (w.done us u r) := by
  refine ⟨h.socks, fun us' c i g hc ho => ?_, h.log⟩
  rcases update_some hc with ⟨-, hn⟩ | ⟨-, hc⟩
  · cases hn
  · exact h.calls us' c i g hc ho

lemma Own.goes_on (us : Handle) {c : Call}
    (hc : ∀ i g, c.opened = some (i, g) → w.stack.gen i = g) : Own (w.goes_on us c) := by
  refine ⟨h.socks, fun us' c' i g hc' ho => ?_, h.log⟩
  rcases update_some hc' with ⟨-, hn⟩ | ⟨-, hc'⟩
  · cases hn
    exact hc i g ho
  · exact h.calls us' c' i g hc' ho

lemma Own.free (us : Handle) : Own (w.free us) := by
  refine ⟨fun us' u i hu hi => ?_, fun us' c i g hc ho => ?_, h.log⟩
  · rcases update_some hu with ⟨-, hn⟩ | ⟨he, hu⟩
    · cases hn
    · exact (update_of_ne he _ _).trans (h.socks us' u i hu hi)
  · rcases update_some hc with ⟨-, hn⟩ | ⟨-, hc⟩
    · cases hn
    · exact h.calls us' c i g hc ho

/-- What a socket touches is its own connection. -/
lemma Own.touch (hu : w.usocks us = some u) (hs : ∀ i, st.gen i = w.stack.gen i) :
    Own (w.touch us u.nsock st) := by
  have hstack : Own { w with stack := st } := h.new_stack fun i _ => hs i
  unfold World.touch
  split
  · exact hstack
  rename_i i hi
  refine ⟨hstack.socks, hstack.calls, fun t ht => ?_⟩
  rcases List.mem_append.mp ht with ht | ht
  · exact h.log t ht
  · rw [List.mem_singleton.mp ht]
    exact h.socks us u i hu hi

lemma Own.release (hu : w.usocks us = some u) : Own (w.usock_release_native us u) := by
  unfold usock_release_native
  split
  · refine h.touch hu fun i => ?_
    split
    · exact (tcp_close_acts _).gen
    · exact (tcp_abort_acts _).gen
  · exact h

end

lemma usock_lookup_some {task : Task} {h : Int} (hl : w.usock_lookup task h = some (us, u)) :
    w.usocks us = some u := by
  unfold usock_lookup at hl
  split at hl
  · cases hl
  split at hl
  · cases hl
  split at hl
  · cases hl
    assumption
  · cases hl

section

variable (h : Own w)

include h

/-- A socket record may change as long as it stays with the TCP socket. -/
lemma Own.new_usock (us : Handle) {u' : Usock}
    (hu : ∀ i, slot_of u'.nsock = some i → w.made us = some (w.stack.gen i)) :
    Own { w with usocks := update w.usocks us (some u') } := by
  refine ⟨fun us' u i hu' hi => ?_, h.calls, h.log⟩
  rcases update_some hu' with ⟨rfl, hn⟩ | ⟨-, hu'⟩
  · cases hn
    exact hu i hi
  · exact h.socks us' u i hu' hi

/-! ## Every step keeps it -/

lemma Own.socket (task : Task) (type : Int) : Own (w.usock_socket task type) := by
  unfold usock_socket
  split
  · exact h.returns _ _
  split
  · exact h.returns _ _
  split
  · exact h.returns _ _
  refine Own.returns (h.new_usock _ fun i hi => ?_) _ _
  cases hi

lemma Own.connect (task : Task) (us : Int) (ip : UInt32) (port : UInt16)
    (hs : ∀ i, w.stack.alloc_sock = some i → w.held i = false) :
    Own (w.usock_connect task us ip port) := by
  have hstack : Own { w with stack := (w.stack.tcp_connect ip port 0).1 } := by
    refine h.new_stack fun i hi => congrArg TcpSocket.conn_gen (connect_keeps fun ha => ?_)
    rw [hs i ha] at hi
    cases hi
  unfold usock_connect
  split
  · exact h.returns _ _
  split
  · exact h.returns _ _
  split
  · exact h.returns _ _
  dsimp only
  split
  · exact h.returns _ _
  · refine hstack.goes_on _ fun i g hg => ?_
    cases hg
    rfl

lemma Own.send (task : Task) (us : Int) (buf : Buf) (len : Int) :
    Own (w.usock_send task us buf len) := by
  unfold usock_send
  split
  · exact h.returns _ _
  split
  · exact h.returns _ _
  · split
    · exact h.returns _ _
    · exact h.goes_on _ (by simp [Call.opened])

lemma Own.recv (task : Task) (us : Int) (len : Int) : Own (w.usock_recv task us len) := by
  unfold usock_recv
  split
  · exact h.returns _ _
  · split
    · exact h.returns _ _
    · exact h.goes_on _ (by simp [Call.opened])

lemma Own.close (task : Task) (us : Int) : Own (w.usock_close task us) := by
  unfold usock_close
  split
  · exact h.returns _ _
  · rename_i hl
    exact ((h.release (usock_lookup_some hl)).free _).returns _ _

lemma Own.state (task : Task) (us : Int) : Own (w.usock_state task us) := by
  unfold usock_state
  split
  · exact h.returns _ _
  · split <;> exact h.returns _ _

end

lemma with_opt_nsock {opt : Int} {val : UInt32} {u' : Usock} (h : with_opt u opt val = some u') :
    u'.nsock = u.nsock := by
  unfold with_opt at h
  split at h
  · cases h
    rfl
  split at h
  · cases h
    rfl
  split at h
  · cases h
    rfl
  · cases h

lemma Own.setopt (h : Own w) (task : Task) (us opt : Int) (val : UInt32) :
    Own (w.usock_setopt task us opt val) := by
  unfold usock_setopt
  split
  · exact h.returns _ _
  rename_i hl
  split
  · exact h.returns _ _
  rename_i hopt
  refine Own.returns (h.new_usock _ fun i hi => ?_) _ _
  rw [with_opt_nsock hopt] at hi
  exact h.socks _ _ i (usock_lookup_some hl) hi

lemma Own.cleanup (h : Own w) (task : Task) : Own (w.usock_cleanup_task task) := by
  have hone : ∀ w us, Own w → Own (cleanup_one task w us) := by
    intro w us h
    unfold cleanup_one
    split
    · exact h
    rename_i hu
    split
    · exact (h.release hu).free us
    · exact h
  exact List.foldlRecOn handles _ h fun w hw us _ => hone w us hw

lemma Own.piece (h : Own w) (hu : w.usocks us = some u) {c : Call} (hc : w.calls us = some c) :
    Own (w.piece us u c) := by
  cases c with
  | connecting ns made deadline =>
    have hgen := h.calls us _ ns made hc rfl
    unfold World.piece
    dsimp only
    split
    · refine Own.done ?_ _ _ _
      refine ⟨fun us' u' i hu' hi => ?_, h.calls, h.log⟩
      rcases update_some hu' with ⟨rfl, hn⟩ | ⟨he, hu'⟩
      · cases hn
        rw [slot_of_val] at hi
        cases hi
        exact (update_self _ _ _).trans (congrArg some hgen.symm)
      · exact (update_of_ne he _ _).trans (h.socks us' u' i hu' hi)
    · split
      · exact h.done _ _ _
      split
      · refine h.goes_on _ fun i g hg => ?_
        cases hg
        exact hgen
      · exact h
  | aborting ns made =>
    have hgen := h.calls us _ ns made hc rfl
    have hstack : Own { w with stack := w.stack.on ns tcp_abort } :=
      h.new_stack fun i _ => (on_quietly (e := .abort) rfl).gen
    refine Own.done ?_ _ _ _
    refine ⟨hstack.socks, hstack.calls, fun t ht => ?_⟩
    rcases List.mem_append.mp ht with ht | ht
    · exact h.log t ht
    · rw [List.mem_singleton.mp ht]
      exact congrArg some hgen.symm
  | sending buf len total deadline =>
    unfold World.piece
    dsimp only
    have hto : Own (w.touch us u.nsock
        (w.stack.tcp_send u.nsock (fun i => buf (total + i)) (len - total).toUInt16).1) :=
      h.touch hu fun i => (tcp_send_acts _ _ _).gen
    split
    · exact h.done _ _ _
    · split <;> exact hto.goes_on _ (by simp [Call.opened])
  | send_failed buf len total deadline =>
    unfold World.piece
    dsimp only
    split
    · exact h.done _ _ _
    · split
      · exact h.done _ _ _
      · exact h.goes_on _ (by simp [Call.opened])
  | receiving len deadline =>
    unfold World.piece
    dsimp only
    have hto : Own (w.touch us u.nsock (w.stack.tcp_recv u.nsock len.toUInt16).1) :=
      h.touch hu fun i => (tcp_recv_acts _ _).gen
    split
    · exact hto.done _ _ _
    · exact hto.goes_on _ (by simp [Call.opened])
  | recv_failed len deadline =>
    unfold World.piece
    dsimp only
    split
    · exact h.done _ _ _
    split
    · exact h.done _ _ _
    · split
      · exact h.done _ _ _
      · exact h.goes_on _ (by simp [Call.opened])

/-- The calls that make a new socket. -/
def KernelOp.opens : KernelOp → Bool
  | .connect _ _ _ | .listen _ => true
  | _ => false

/-- Every other call does at most one thing to one socket. -/
lemma kernel_acts {st : Stack} {op : KernelOp} (h : op.opens = false) : st.Acts (kernel st op) := by
  cases op with
  | connect => cases h
  | listen => cases h
  | accept sock => exact tcp_accept_acts sock
  | send sock data len => exact tcp_send_acts sock data len
  | recv sock maxlen => exact tcp_recv_acts sock maxlen
  | close sock => exact tcp_close_acts sock
  | abort sock => exact tcp_abort_acts sock
  | conn_send sock g data len =>
    show st.Acts (st.tcp_conn_send sock g data len).1
    unfold tcp_conn_send
    split
    · exact tcp_send_acts sock data len
    · exact .inl rfl
  | conn_recv sock g maxlen =>
    show st.Acts (st.tcp_conn_recv sock g maxlen).1
    unfold tcp_conn_recv
    split
    · exact tcp_recv_acts sock maxlen
    · exact .inl rfl
  | conn_close sock g =>
    show st.Acts (st.tcp_conn_close sock g)
    unfold tcp_conn_close
    dsimp only
    split
    · exact tcp_close_acts sock
    · exact .inl rfl
  | conn_abort sock g =>
    show st.Acts (st.tcp_conn_abort sock g)
    unfold tcp_conn_abort
    split
    · exact tcp_abort_acts sock
    · exact .inl rfl

lemma Own.kernel (h : Own w) (op : KernelOp)
    (hs : ∀ i, w.slot_given (.kernel op) = some i → w.held i = false) :
    Own { w with stack := kernel w.stack op } := by
  refine h.new_stack fun i hi => ?_
  have hfree : w.slot_given (.kernel op) ≠ some i := fun ha => by
    rw [hs i ha] at hi
    cases hi
  cases op with
  | connect ip port local_port => exact congrArg TcpSocket.conn_gen (connect_keeps hfree)
  | listen port => exact tcp_listen_gen hfree
  | _ => exact (kernel_acts rfl).gen

lemma Own.rx (h : Own w) {src_ip dst_ip : UInt32} {pkt : Buf} {len : Nat}
    (hs : ∀ i, w.slot_given (.rx src_ip dst_ip pkt len) = some i → w.held i = false) :
    Own { w with stack := w.stack.tcp_rx src_ip dst_ip pkt len } := by
  refine h.new_stack fun i hi => ?_
  have hfree : w.slot_given (.rx src_ip dst_ip pkt len) ≠ some i := fun ha => by
    rw [hs i ha] at hi
    cases hi
  have hfree : (Stack.parse pkt len).bind (w.stack.rx_slot src_ip) ≠ some i := hfree
  unfold Stack.tcp_rx
  split
  · rename_i seg hseg
    rw [hseg] at hfree
    exact rx_segment_gen hfree
  · rfl

lemma Own.next (h : Own w) {i : Input} (hs : w.Spares i) : Own (w.next i) := by
  have hfree : ∀ s, w.slot_given i = some s → w.held s = false := by
    intro s hg
    have hs : (w.slot_given i).all (fun s => !w.held s) = true := hs
    rw [hg] at hs
    simpa using hs
  cases i with
  | rx src_ip dst_ip pkt len => exact h.rx hfree
  | tick =>
    have hstack : Own { w with stack := if w.up then w.stack.tcp_tick else w.stack } := by
      refine h.new_stack fun i _ => ?_
      split
      · exact tick_quietly.gen
      · rfl
    exact ⟨hstack.socks, hstack.calls, hstack.log⟩
  | net up => exact ⟨h.socks, h.calls, h.log⟩
  | call task op =>
    show Own (if w.idle task then w.call task op else w)
    split
    · cases op with
      | socket type => exact h.socket task type
      | connect us ip port => exact h.connect task us ip port hfree
      | send us buf len => exact h.send task us buf len
      | recv us len => exact h.recv task us len
      | close us => exact h.close task us
      | state us => exact h.state task us
      | setopt us opt val => exact h.setopt task us opt val
    · exact h
  | resume us =>
    show Own (w.resume us)
    unfold World.resume
    split
    · rename_i hu hc
      exact h.piece hu hc
    · exact h
  | exit task => exact h.cleanup task
  | kernel op => exact h.kernel op hfree

/-- When no slot is given to a new connection while a userspace socket holds it, every
userspace socket only touches the connection that `usock_connect` made for it. -/
theorem a_userspace_socket_keeps_to_its_connection {ip : UInt32} {is : List Input}
    (h : RunOk step Spares (boot ip) is) :
    ∃ w, run step (boot ip) is = some w ∧ ∀ t ∈ w.log, t.made = some t.touched := by
  have hkeep : ∀ (w : World) (i : Input), Own w → w.Spares i → ∃ w', step w i = some w' ∧ Own w' :=
    fun w i h hs => ⟨_, rfl, h.next hs⟩
  have hboot : Own (boot ip) := by
    refine ⟨fun us u i hu => ?_, fun us c i g hc => ?_, fun t ht => ?_⟩
    · cases hu
    · cases hc
    · cases ht
  obtain ⟨w, hw, hown⟩ := run_invariant hkeep hboot h
  exact ⟨w, hw, hown.log⟩

/-! ## Two small runs -/

/-- A segment of 20 bytes from port 80. -/
def header (dst_port : UInt8) (ack : List UInt8) (flags : UInt8) : Buf := fun i =>
  ([0, 80, 192, dst_port, 0, 0, 3, 232] ++ ack ++ [80, flags, 19, 136, 0, 0, 0, 0]).getD i 0

/-- Task 1 connects to the host 20 and the handshake completes. -/
def connect_first : List Input := [.call 1 (.socket USOCK_STREAM), .call 1 (.connect 0 20 80),
    .rx 20 10 (header 0 [0x12, 0x34, 0x56, 0x79] (TCP_SYN ||| TCP_ACK)) 20, .resume 0]

/-- The handle that the first task gets. -/
def first_handle : Handle := 0

/-- Task 2 does the same with the host 21. -/
def connect_second : List Input := [.call 2 (.socket USOCK_STREAM), .call 2 (.connect 1 21 80),
    .rx 21 10 (header 1 [0x12, 0x35, 0x56, 0x79] (TCP_SYN ||| TCP_ACK)) 20, .resume 1]

/-- Task 1 sends three bytes. -/
def send_first : List Input := [.call 1 (.send 0 (fun _ => 7) 3), .resume 0, .resume 0]

theorem two_sockets_keep_to_their_connections : RunOk step Spares (boot 10)
        (connect_first ++ connect_second ++ send_first ++ [.call 1 (.close 0), .exit 2]) ∧
      ∃ w, run step (boot 10)
          (connect_first ++ connect_second ++ send_first ++ [.call 1 (.close 0), .exit 2]) =
            some w ∧
        ∀ t ∈ w.log, t.made = some t.touched :=
  have h : RunOk step Spares (boot 10)
      (connect_first ++ connect_second ++ send_first ++ [.call 1 (.close 0), .exit 2]) := by
    decide +kernel
  ⟨h, a_userspace_socket_keeps_to_its_connection h⟩

/-- The host 20 resets the connection of task 1 and task 2 gets its slot. What task 1 then
sends goes to the host 21. -/
theorem a_socket_writes_to_the_next_connection_in_its_slot :
    (run step (boot 10) (connect_first ++ [.rx 20 10 (header 0 [0, 0, 0, 0] TCP_RST) 20] ++
      connect_second ++ send_first)).map
        (fun w => (w.log, w.stack.sent.map fun p => (p.dst_ip, p.seg.data))) =
      some ([⟨0, some 1, 2⟩], [(20, []), (20, []), (21, []), (21, []), (21, [7, 7, 7])]) := by
  decide +kernel

end World

end uaos.usock
