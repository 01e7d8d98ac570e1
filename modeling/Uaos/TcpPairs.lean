-- Saved pairs of a socket index and a generation (tcp.c). Every socket that is ever made gets
-- a number of its own, and below 2^32 sockets the generation is that number. So a saved pair
-- reaches no other connection, and `tcp_accept` hands out every connection once.
import Uaos.TcpRuns

namespace uaos.tcp

open List Stack

open uaos.usock.World (KernelOp kernel)

variable {seg : Segment} {dst_ip src_ip : UInt32}

/-! ## What a step keeps of the sockets that it does not make -/

/-- The same connection, which has not lost its claim and has not come back to life. -/
structure Kept (s t : TcpSocket) : Prop where
  gen : t.conn_gen = s.conn_gen
  accepted : s.accepted → t.accepted
  closed : s.state = .closed → t.state = .closed

lemma act_kept (l : Link) (e : Event) : Kept l.sock (act l e).sock := by
  obtain ⟨a, ha, h⟩ := act_name l e
  refine ⟨congrArg Prod.fst h, fun hacc => ?_, fun hc => ?_⟩
  · have hacc' : (act l e).sock.accepted = a := congrArg (·.2.1) h
    rw [hacc']
    exact ha hacc
  · exact (act_idle (.inl hc)).elim (·.trans hc) id

namespace Stack

variable {st : Stack} {m : Move} {i j : Slot}

lemma next_kept (h : st.given m ≠ some j) : Kept (st.socks j) ((st.next m).socks j) := by
  rcases Traced.next_acts h with he | ⟨e, sent, he⟩
  · rw [he]
    exact ⟨rfl, id, id⟩
  · rw [he]
    exact act_kept ⟨st.socks j, sent⟩ e

/-- The counter after a step that gives a slot away, if it gives one. -/
abbrev moved (st : Stack) (given : Option Slot) : UInt32 :=
  if given.isSome then st.next_conn_gen.2 else st.conn_gen_next

lemma rx_unmatched_counter : (st.rx_unmatched src_ip dst_ip seg).conn_gen_next =
      st.moved (st.spawn_slot src_ip seg) := by
  unfold rx_unmatched
  cases st.spawn_slot src_ip seg with
  | some i => rfl
  | none =>
    unfold refuse
    dsimp only
    split
    · split <;> rfl
    · rfl

lemma rx_segment_counter : (st.rx_segment src_ip dst_ip seg).conn_gen_next =
      st.moved (st.rx_slot src_ip seg) := by
  unfold rx_segment rx_slot
  cases st.find_sock src_ip seg.src_port seg.dst_port false with
  | none => exact rx_unmatched_counter
  | some i =>
    dsimp only
    split
    · exact rx_unmatched_counter
    · rfl

lemma tick_counter : st.tcp_tick.conn_gen_next = st.conn_gen_next :=
  List.foldlRecOn (motive := fun t : Stack => t.conn_gen_next = st.conn_gen_next) slots _ rfl
    fun _ h _ _ => h

lemma Acts.counter {st' : Stack} (h : st.Acts st') : st'.conn_gen_next = st.conn_gen_next := by
  rcases h with rfl | ⟨i, e, -, rfl⟩ <;> rfl

lemma connect_counter (ip : UInt32) (port local_port : UInt16) :
    (st.tcp_connect ip port local_port).1.conn_gen_next =
      st.moved st.alloc_sock := by
  unfold tcp_connect
  cases st.alloc_sock <;> rfl

lemma listen_counter (port : UInt16) : (st.tcp_listen port).1.conn_gen_next =
    st.moved (st.given (.call (.listen port))) := by
  have hgiven : st.given (.call (.listen port)) =
      if st.listens port then none else st.alloc_sock := rfl
  rw [hgiven]
  unfold tcp_listen
  split
  · rfl
  · cases st.alloc_sock <;> rfl

lemma call_counter (op : KernelOp) : (kernel st op).conn_gen_next =
    st.moved (st.given (.call op)) := by
  cases op with
  | connect ip port local_port => exact connect_counter ip port local_port
  | listen port => exact listen_counter port
  | _ => exact (usock.World.kernel_acts rfl).counter

/-- The counter for the generations moves when a slot is given away, and only then. -/
lemma next_counter : (st.next m).conn_gen_next =
    st.moved (st.given m) := by
  cases m with
  | rx src_ip dst_ip pkt len =>
    have hgiven : st.given (.rx src_ip dst_ip pkt len) =
        (parse pkt len).bind (st.rx_slot src_ip) := rfl
    rw [hgiven]
    show (st.tcp_rx src_ip dst_ip pkt len).conn_gen_next = _
    unfold tcp_rx
    cases parse pkt len with
    | some seg => exact rx_segment_counter
    | none => rfl
  | tick => exact tick_counter
  | call op => exact call_counter op

/-- The pair that a step gives to a caller of `tcp_accept`. -/
def accepts (st : Stack) : Move → Option (Slot × UInt32)
  | .call (.accept sock) => (st.tcp_accept sock).2
  | _ => none

/-- A pair comes from a connection that had not been claimed and now is. -/
lemma accepts_spec {g : UInt32} (h : st.accepts m = some (i, g)) :
    st.given m = none ∧ g = st.gen i ∧ (st.socks i).state ≠ .closed ∧
      (st.socks i).accepted = false ∧ ((st.next m).socks i).accepted = true := by
  cases m with
  | rx => cases h
  | tick => cases h
  | call op =>
    cases op with
    | accept sock =>
      have h : (st.tcp_accept sock).2 = some (i, g) := h
      refine ⟨rfl, ?_⟩
      show g = _ ∧ _ ∧ _ ∧ ((st.tcp_accept sock).1.socks i).accepted = true
      unfold tcp_accept at h ⊢
      split at h
      · cases h
      split at h
      · cases h
      rename_i hl
      dsimp only at h
      split at h
      · cases h
      rename_i k hk
      cases h
      have hfound := find?_some hk
      simp only [decide_eq_true_eq, Bool.not_eq_true'] at hfound
      refine ⟨rfl, ?_, hfound.2.1, ?_⟩
      · rcases hfound.1 with hs | hs <;> simp [hs]
      rw [if_neg hl]
      rw [hk]
      show (Function.update st.socks i _ i).accepted = true
      rw [Function.update_self]
    | _ => cases h

end Stack

/-! ## Numbers for the sockets -/

/-- A pair that has been given out, and the number of the connection that it was issued for. -/
structure Pair where
  sock : Slot
  conn_gen : UInt32
  conn : Nat

/-- The table, how many sockets have been made, the number of the last one in every slot, the
pairs that have been given out, and the numbers that `tcp_accept` has handed out. -/
structure Ledger where
  stack : Stack
  created : Nat
  conn : Slot → Nat
  issued : List Pair
  handed : List Nat

namespace Ledger

def boot (local_ip : UInt32) : Ledger := ⟨Stack.boot local_ip, 0, fun _ => 0, [], []⟩

/-- A step of the table, or somebody asks for the generation of a socket. -/
inductive Input where
  | move (m : Stack.Move)
  | conn_gen (sock : Int)

def create (w : Ledger) (i : Slot) : Ledger :=
  { w with created := w.created + 1, conn := Function.update w.conn i (w.created + 1) }

def issue (w : Ledger) (i : Slot) (g : UInt32) : Ledger :=
  { w with issued := w.issued ++ [⟨i, g, w.conn i⟩] }

def hand_out (w : Ledger) (i : Slot) : Ledger := { w with handed := w.handed ++ [w.conn i] }

/-- What a step of the table adds to the ledger. -/
def enter (w : Ledger) (m : Stack.Move) : Ledger :=
  match w.stack.given m with
  | some i => w.create i
  | none =>
    match w.stack.accepts m with
    | some (i, g) => (w.issue i g).hand_out i
    | none => w

def next (w : Ledger) : Input → Ledger
  | .move m => { w.enter m with stack := w.stack.next m }
  | .conn_gen sock =>
    match slot_of sock with
    | some i => w.issue i (w.stack.tcp_conn_gen sock)
    | none => w

def step (w : Ledger) (i : Input) : Option Ledger := some (w.next i)

/-- The generations are the numbers, and a connection that has been handed out is claimed. -/
structure Numbered (w : Ledger) : Prop where
  counter : w.created + 1 < 2 ^ 32 → w.stack.conn_gen_next.toNat = w.created + 1
  gens : ∀ i, (w.stack.gen i).toNat = w.conn i
  made : ∀ i, w.conn i ≤ w.created
  apart : ∀ i j, w.conn i = w.conn j → i = j ∨ w.conn i = 0
  unused : ∀ i, w.conn i = 0 → (w.stack.socks i).state = .closed
  issued : ∀ p ∈ w.issued, p.conn_gen.toNat = p.conn
  once : w.handed.Nodup
  earlier : ∀ c ∈ w.handed, c ≤ w.created
  claimed : ∀ c ∈ w.handed, ∀ i, w.conn i = c → (w.stack.socks i).accepted

variable {w : Ledger} {m : Stack.Move} {i : Slot} {g : UInt32}

section

variable (h : w.Numbered)

include h

lemma Numbered.issue (hg : g = w.stack.gen i) : (w.issue i g).Numbered := by
  refine ⟨h.counter, h.gens, h.made, h.apart, h.unused, fun p hp => ?_, h.once,
    h.earlier, h.claimed⟩
  rcases mem_append.mp hp with hp | hp
  · exact h.issued p hp
  · cases mem_singleton.mp hp
    rw [hg]
    exact h.gens i

/-- A step that makes no socket and hands none out. -/
lemma Numbered.keep (hg : w.stack.given m = none) :
    Numbered { w with stack := w.stack.next m } := by
  have hkept : ∀ j, Kept (w.stack.socks j) ((w.stack.next m).socks j) := fun j =>
    next_kept (by simp [hg])
  refine ⟨fun hc => ?_, fun j => ?_, h.made, h.apart,
    fun j hj => (hkept j).closed (h.unused j hj), h.issued, h.once, h.earlier, fun c hc j hj => ?_⟩
  · show (w.stack.next m).conn_gen_next.toNat = w.created + 1
    rw [next_counter, hg]
    exact h.counter hc
  · show ((w.stack.next m).socks j).conn_gen.toNat = w.conn j
    rw [(hkept j).gen]
    exact h.gens j
  · exact (hkept j).accepted (h.claimed c hc j hj)

/-- A step that makes a socket. -/
lemma Numbered.create (hg : w.stack.given m = some i)
    (hfew : w.created + 1 < 2 ^ 32) : Numbered { w.create i with stack := w.stack.next m } := by
  have hconn : ∀ j, (w.create i).conn j = if j = i then w.created + 1 else w.conn j := fun j => by
    simp only [Ledger.create, Function.update_apply]
  have hcount := h.counter hfew
  have hkept : ∀ j, j ≠ i → Kept (w.stack.socks j) ((w.stack.next m).socks j) := fun j hj =>
    next_kept (by simpa [hg] using fun he => hj he.symm)
  refine ⟨fun hc => ?_, fun j => ?_, fun j => ?_, fun j k hjk => ?_, fun j hj => ?_, h.issued,
    h.once, fun c hc => ?_, fun c hc j hj => ?_⟩
  · show (w.stack.next m).conn_gen_next.toNat = w.created + 1 + 1
    have hc : w.created + 1 + 1 < 2 ^ 32 := hc
    rw [next_counter, hg]
    show (if w.stack.conn_gen_next + 1 = 0 then 1 else w.stack.conn_gen_next + 1).toNat = _
    have hsucc : (w.stack.conn_gen_next + 1).toNat = w.created + 1 + 1 := by
      rw [UInt32.toNat_add, hcount, UInt32.toNat_one]
      omega
    have hne : w.stack.conn_gen_next + 1 ≠ 0 := fun he => by simp [he] at hsucc
    rw [if_neg hne, hsucc]
  · show ((w.stack.next m).socks j).conn_gen.toNat = (w.create i).conn j
    rw [hconn]
    split
    · rename_i hj
      rw [hj, (next_fresh hg).gen]
      exact hcount
    · rename_i hj
      rw [(hkept j hj).gen]
      exact h.gens j
  · show (w.create i).conn j ≤ w.created + 1
    rw [hconn]
    have := h.made j
    split <;> omega
  · have hjk : (w.create i).conn j = (w.create i).conn k := hjk
    have := h.made j
    have := h.made k
    rw [hconn] at hjk ⊢
    rw [hconn] at hjk
    by_cases hj : j = i <;> by_cases hk : k = i
    · exact .inl (hj.trans hk.symm)
    · rw [if_pos hj, if_neg hk] at hjk
      omega
    · rw [if_neg hj, if_pos hk] at hjk
      omega
    · rw [if_neg hj, if_neg hk] at hjk
      rw [if_neg hj]
      exact h.apart j k hjk
  · have hj : (w.create i).conn j = 0 := hj
    rw [hconn] at hj
    split at hj
    · omega
    · rename_i hne
      exact (hkept j hne).closed (h.unused j hj)
  · have := h.earlier c hc
    show c ≤ w.created + 1
    omega
  · have hj : (w.create i).conn j = c := hj
    have := h.earlier c hc
    rw [hconn] at hj
    split at hj
    · omega
    · rename_i hne
      exact (hkept j hne).accepted (h.claimed c hc j hj)

/-- A step that hands a connection out. -/
lemma Numbered.hand_out (ha : w.stack.accepts m = some (i, g)) :
    Numbered { (w.issue i g).hand_out i with stack := w.stack.next m } := by
  obtain ⟨hg, hgen, hlive, hfree, htaken⟩ := accepts_spec ha
  have hk := (h.issue hgen).keep hg
  have hnew : w.conn i ∉ w.handed := fun hc => by
    have := h.claimed _ hc i rfl
    rw [hfree] at this
    cases this
  refine ⟨hk.counter, hk.gens, hk.made, hk.apart, hk.unused, hk.issued, ?_, fun c hc => ?_,
    fun c hc j hj => ?_⟩
  · show (w.handed ++ [w.conn i]).Nodup
    rw [nodup_append]
    refine ⟨h.once, nodup_singleton _, fun c hc d hd hcd => ?_⟩
    cases mem_singleton.mp hd
    exact hnew (hcd ▸ hc)
  · rcases mem_append.mp hc with hc | hc
    · exact h.earlier c hc
    · cases mem_singleton.mp hc
      exact h.made i
  · rcases mem_append.mp hc with hc | hc
    · exact hk.claimed c hc j hj
    cases mem_singleton.mp hc
    rcases h.apart j i hj with hji | hzero
    · rw [hji]
      exact htaken
    · exact absurd (h.unused i (hj.symm.trans hzero)) hlive

lemma Numbered.next (inp : Input) (hfew : (w.next inp).created < 2 ^ 32) :
    (w.next inp).Numbered := by
  cases inp with
  | move m =>
    have hfew : (w.enter m).created < 2 ^ 32 := hfew
    show Numbered { w.enter m with stack := w.stack.next m }
    unfold enter at hfew ⊢
    cases hg : w.stack.given m with
    | some i =>
      rw [hg] at hfew
      exact h.create hg hfew
    | none =>
      cases ha : w.stack.accepts m with
      | some r => exact h.hand_out ha
      | none => exact h.keep hg
  | conn_gen sock =>
    unfold Ledger.next
    dsimp only
    split
    · rename_i i hi
      refine h.issue ?_
      unfold tcp_conn_gen
      rw [hi]
      rfl
    · exact h

end

lemma created_next (inp : Input) : w.created ≤ (w.next inp).created := by
  cases inp with
  | move m =>
    show w.created ≤ (w.enter m).created
    unfold enter
    repeat' split
    · exact Nat.le_succ _
    · exact le_refl _
    · exact le_refl _
  | conn_gen sock =>
    unfold next
    dsimp only
    split <;> exact le_refl _

end Ledger

/-! ## Operations on a saved pair -/

/-- The operations that are given a saved pair. -/
inductive PairOp where
  | send (data : Buf) (len : UInt16)
  | recv (maxlen : UInt16)
  | close
  | abort

def PairOp.call (op : PairOp) (p : Pair) : KernelOp :=
  match op with
  | .send data len => .conn_send p.sock.val p.conn_gen data len
  | .recv maxlen => .conn_recv p.sock.val p.conn_gen maxlen
  | .close => .conn_close p.sock.val p.conn_gen
  | .abort => .conn_abort p.sock.val p.conn_gen

/-- Nothing but the socket `i`, and what is sent for it, is changed. -/
structure OnlyAt (i : Slot) (st st' : Stack) : Prop where
  socks : ∀ k, k ≠ i → st'.socks k = st.socks k
  isn_counter : st'.isn_counter = st.isn_counter
  conn_gen_next : st'.conn_gen_next = st.conn_gen_next
  eph_next : st'.eph_next = st.eph_next
  local_ip : st'.local_ip = st.local_ip

lemma on_onlyAt (st : Stack) (i : Slot) (f : Link → Link) : OnlyAt i st (st.on i f) :=
  ⟨fun _ hk => on_socks_ne hk, rfl, rfl, rfl, rfl⟩

/-- An operation on a pair does nothing, or the slot still has the generation of the pair and
only this slot is changed. -/
lemma pair_op_cases (st : Stack) (p : Pair) (op : PairOp) : kernel st (op.call p) = st ∨
      st.gen p.sock = p.conn_gen ∧ OnlyAt p.sock st (kernel st (op.call p)) := by
  have hslot := usock.World.slot_of_val p.sock
  by_cases hm : st.conn_matches p.sock.val p.conn_gen
  · have hgen : st.gen p.sock = p.conn_gen := by
      unfold conn_matches at hm
      rw [hslot] at hm
      exact (of_decide_eq_true hm).2
    cases op with
    | send data len =>
      refine .inr ⟨hgen, ?_⟩
      simp only [PairOp.call, kernel, Stack.tcp_conn_send, hm, if_true, Stack.tcp_send, hslot]
      exact on_onlyAt st p.sock _
    | recv maxlen =>
      refine .inr ⟨hgen, ?_⟩
      simp only [PairOp.call, kernel, Stack.tcp_conn_recv, hm, if_true, Stack.tcp_recv, hslot]
      exact on_onlyAt st p.sock _
    | close =>
      simp only [PairOp.call, kernel, Stack.tcp_conn_close, hm, true_and, Stack.tcp_close, hslot]
      split
      · exact .inr ⟨hgen, on_onlyAt st p.sock _⟩
      · exact .inl rfl
    | abort =>
      refine .inr ⟨hgen, ?_⟩
      simp only [PairOp.call, kernel, Stack.tcp_conn_abort, hm, if_true, Stack.tcp_abort, hslot]
      exact on_onlyAt st p.sock _
  · refine .inl ?_
    cases op <;>
      simp [PairOp.call, kernel, Stack.tcp_conn_send, Stack.tcp_conn_recv, Stack.tcp_conn_close,
        Stack.tcp_conn_abort, hm]

namespace Ledger

/-- A connection of the host 20 at a listener is accepted and reset, and another one gets its
slot. -/
def recycled : List Input := [.move (.call (.listen 49152)),
    .move (.rx 20 10 (usock.World.header 0 [0, 0, 0, 0] TCP_SYN) 20),
    .move (.rx 20 10 (usock.World.header 0 [0x12, 0x34, 0x56, 0x79] TCP_ACK) 20),
    .move (.call (.accept 0)), .move (.rx 20 10 (usock.World.header 0 [0, 0, 0, 0] TCP_RST) 20),
    .move (.rx 20 10 (usock.World.header 0 [0, 0, 0, 0] TCP_SYN) 20), .conn_gen 1]

example : (recycled.foldl next (boot 10)).issued.map (fun p => (p.sock, p.conn_gen, p.conn)) =
    [(1, 2, 2), (1, 3, 3)] := by decide +kernel

end Ledger

end uaos.tcp
