-- The calls of userspace sockets (usock.c) as steps of the TCP layer. Every input of the
-- system is a list of steps below, and for every slot of the TCP table it is told what such a
-- list does to the socket and to the history of its connection.
import Uaos.TcpPairs

namespace uaos.usock

open uaos.tcp

namespace World

/-! ## The steps of the TCP layer -/

def release_moves (w : World) (u : Usock) : List Stack.Move :=
  if 0 ≤ u.nsock then [.call (if w.up then .close u.nsock else .abort u.nsock)] else []

def call_moves (w : World) (task : Task) : Op → List Stack.Move
  | .connect us ip port =>
    match w.usock_lookup task us with
    | none => []
    | some (_, u) => if 0 ≤ u.nsock ∨ !w.up then [] else [.call (.connect ip port 0)]
  | .close us =>
    match w.usock_lookup task us with
    | none => []
    | some (_, u) => w.release_moves u
  | _ => []

def piece_moves (u : Usock) : Call → List Stack.Move
  | .aborting ns _ => [.call (.abort ns.val)]
  | .sending buf len total _ =>
    if len ≤ total then []
    else [.call (.send u.nsock (fun i => buf (total + i)) (len - total).toUInt16)]
  | .receiving len _ => [.call (.recv u.nsock len.toUInt16)]
  | _ => []

def exit_moves (w : World) (task : Task) (us : Handle) : List Stack.Move :=
  match w.usocks us with
  | none => []
  | some u => if u.owner = task then w.release_moves u else []

/-- What an input asks of the TCP layer. -/
def moves (w : World) : Input → List Stack.Move
  | .rx src_ip dst_ip pkt len => [.rx src_ip dst_ip pkt len]
  | .tick => if w.up then [.tick] else []
  | .net _ => []
  | .call task op => if w.idle task then w.call_moves task op else []
  | .resume us =>
    match w.usocks us, w.calls us with
    | some u, some c => piece_moves u c
    | _, _ => []
  | .exit task => handles.flatMap (w.exit_moves task)
  | .kernel op => [.call op]

variable {w : World} {task : Task} {us : Handle} {u : Usock} {st : Stack}

@[simp] lemma touch_stack (sock : Int) : (w.touch us sock st).stack = st := by
  unfold touch
  split <;> rfl

lemma release_stack :
    (w.usock_release_native us u).stack = (w.release_moves u).foldl Stack.next w.stack := by
  unfold usock_release_native release_moves
  split
  · rw [touch_stack]
    cases w.up <;> rfl
  · rfl

lemma connect_none {ip : UInt32} {port local_port : UInt16}
    (h : (st.tcp_connect ip port local_port).2 = none) :
    (st.tcp_connect ip port local_port).1 = st := by
  unfold Stack.tcp_connect at h ⊢
  split at h
  · rfl
  · cases h

lemma call_stack (op : Op) :
    (w.call task op).stack = (w.call_moves task op).foldl Stack.next w.stack := by
  cases op with
  | socket type =>
    simp only [call, call_moves, usock_socket]
    repeat' split
    all_goals rfl
  | connect us ip port =>
    simp only [call, call_moves, usock_connect]
    cases w.usock_lookup task us with
    | none => rfl
    | some r =>
      by_cases hn : 0 ≤ r.2.nsock
      · simp [hn]
        rfl
      by_cases hup : w.up
      · simp only [hn, hup, if_false, Bool.not_true, Bool.false_eq_true, or_self]
        cases hc : (w.stack.tcp_connect ip port 0).2 with
        | none =>
          exact (connect_none hc).symm
        | some ns => rfl
      · simp [hn, hup]
        rfl
  | send us buf len =>
    simp only [call, call_moves, usock_send]
    repeat' split
    all_goals rfl
  | recv us len =>
    simp only [call, call_moves, usock_recv]
    repeat' split
    all_goals rfl
  | close us =>
    simp only [call, call_moves, usock_close]
    cases w.usock_lookup task us with
    | none => rfl
    | some r => exact release_stack
  | state us =>
    simp only [call, call_moves, usock_state]
    repeat' split
    all_goals rfl
  | setopt us opt val =>
    simp only [call, call_moves, usock_setopt]
    repeat' split
    all_goals rfl

lemma piece_stack (c : Call) :
    (w.piece us u c).stack = (piece_moves u c).foldl Stack.next w.stack := by
  cases c with
  | connecting ns made deadline =>
    simp only [piece, piece_moves]
    repeat' split
    all_goals rfl
  | aborting ns made =>
    show w.stack.on ns tcp_abort = w.stack.tcp_abort ns.val
    unfold Stack.tcp_abort
    rw [slot_of_val]
  | sending buf len total deadline =>
    simp only [piece, piece_moves]
    split
    · rfl
    · split <;> exact touch_stack _
  | send_failed buf len total deadline =>
    simp only [piece, piece_moves]
    repeat' split
    all_goals rfl
  | receiving len deadline =>
    simp only [piece, piece_moves]
    split <;> exact touch_stack _
  | recv_failed len deadline =>
    simp only [piece, piece_moves]
    repeat' split
    all_goals rfl

lemma release_usocks (w : World) (us : Handle) (u : Usock) :
    (w.usock_release_native us u).usocks = w.usocks ∧
      (w.usock_release_native us u).calls = w.calls ∧ (w.usock_release_native us u).up = w.up := by
  unfold usock_release_native touch
  repeat' split
  all_goals exact ⟨rfl, rfl, rfl⟩

lemma cleanup_one_keeps (task : Task) (w : World) {v : Handle} (h : v ≠ us) :
    (cleanup_one task w us).usocks v = w.usocks v ∧ (cleanup_one task w us).up = w.up := by
  unfold cleanup_one
  split
  · exact ⟨rfl, rfl⟩
  split
  · rename_i u _ _
    obtain ⟨hus, -, hup⟩ := release_usocks w us u
    refine ⟨?_, hup⟩
    show Function.update (w.usock_release_native us u).usocks us none v = w.usocks v
    rw [Function.update_of_ne h, hus]
  · exact ⟨rfl, rfl⟩

lemma exit_stack (hs : List Handle) (hnd : hs.Nodup) (w : World) :
    (hs.foldl (cleanup_one task) w).stack =
      (hs.flatMap (w.exit_moves task)).foldl Stack.next w.stack := by
  induction hs generalizing w with
  | nil => rfl
  | cons us hs ih =>
    obtain ⟨hnot, hnd⟩ := List.nodup_cons.mp hnd
    have hstack : (cleanup_one task w us).stack =
        (w.exit_moves task us).foldl Stack.next w.stack := by
      unfold cleanup_one exit_moves
      cases w.usocks us with
      | none => rfl
      | some u =>
        dsimp only
        split
        · exact release_stack
        · rfl
    -- The sockets that are still to come are as they were.
    have hrest : hs.flatMap ((cleanup_one task w us).exit_moves task) =
        hs.flatMap (w.exit_moves task) := by
      refine List.flatMap_congr fun v hv => ?_
      have hne : v ≠ us := fun he => hnot (he ▸ hv)
      obtain ⟨husock, hup⟩ := cleanup_one_keeps task w hne
      simp only [exit_moves, release_moves, husock, hup]
    rw [List.foldl_cons, ih hnd, hrest, hstack, List.flatMap_cons, List.foldl_append]

/-- Every input acts on the TCP layer by its list of steps. -/
lemma next_stack (i : Input) : (w.next i).stack = (w.moves i).foldl Stack.next w.stack := by
  cases i with
  | rx => rfl
  | tick =>
    simp only [next, moves]
    split <;> rfl
  | net => rfl
  | call task op =>
    simp only [next, moves]
    split
    · exact call_stack op
    · rfl
  | resume us =>
    simp only [next, moves, resume]
    cases w.usocks us with
    | none => rfl
    | some u =>
      cases w.calls us with
      | none => rfl
      | some c => exact piece_stack c
  | exit task => exact exit_stack handles (List.nodup_finRange _) w
  | kernel op => rfl

end World

end uaos.usock
