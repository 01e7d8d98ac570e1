-- What one step of the TCP layer does to one slot of its table (tcp.c). Apart from the slot
-- that a new socket gets, a slot is left alone or one function of a connection runs on it.
-- From this follows which segments can change a listener.
import Uaos.Usock

namespace uaos.tcp

open Function

open uaos.usock.World (KernelOp kernel)

variable {e : Endpoint} {seg : Segment} {port : UInt16} {src_ip : UInt32}

namespace Stack

/-! ## Steps of the table -/

/-- What can happen to the table: a packet, a tick, or a call of some part of the system. -/
inductive Move where
  | rx (src_ip dst_ip : UInt32) (pkt : Buf) (len : Nat)
  | tick
  | call (op : KernelOp)

/-- A call is one step: no packet, no tick and no other task comes inside it. -/
def next (st : Stack) : Move → Stack
  | .rx src_ip dst_ip pkt len => st.tcp_rx src_ip dst_ip pkt len
  | .tick => st.tcp_tick
  | .call op => kernel st op

/-- The slot that a step gives to a new socket. -/
def given (st : Stack) : Move → Option Slot
  | .rx src_ip _ pkt len => (parse pkt len).bind (st.rx_slot src_ip)
  | .call (.connect _ _ _) => st.alloc_sock
  | .call (.listen port) => if st.listens port then none else st.alloc_sock
  | _ => none

/-- The step brings a segment. -/
def Move.arrives : Move → Bool
  | .rx _ _ _ _ => true
  | _ => false

variable {st : Stack} {m : Move} {i j : Slot}

lemma listen_keeps (h : st.given (.call (.listen port)) ≠ some j) :
    (st.tcp_listen port).1.socks j = st.socks j := by
  unfold tcp_listen
  split
  · rfl
  rename_i hl
  split
  · rfl
  rename_i k hk
  have hjk : j ≠ k := by
    intro hjk
    simp [given, hl, hk, hjk] at h
  exact update_of_ne hjk _ _

/-- Without a segment, a slot that gets no new socket is left alone or sees one event. -/
lemma next_quietly (hm : m.arrives = false) (h : st.given m ≠ some j) :
    Quietly (st.socks j) ((st.next m).socks j) := by
  cases m with
  | rx => cases hm
  | tick => exact tick_quietly
  | call op =>
    cases op with
    | connect ip port local_port => exact .inl (connect_keeps h)
    | listen port => exact .inl (listen_keeps h)
    | _ => exact (usock.World.kernel_acts rfl).quietly

/-! ## New sockets -/

lemma alloc_sock_closed (h : st.alloc_sock = some j) : (st.socks j).state = .closed := by
  simpa using List.find?_some h

lemma spawn_slot_alloc (h : st.spawn_slot src_ip seg = some j) : st.alloc_sock = some j := by
  unfold spawn_slot at h
  split at h
  · exact h
  · cases h

/-- A new connection gets a free slot, or that of a connection that is waiting out its time. -/
lemma rx_slot_free (h : st.rx_slot src_ip seg = some j) :
    (st.socks j).state = .closed ∨ (st.socks j).state = .time_wait := by
  unfold rx_slot at h
  split at h
  · rename_i i _
    split at h
    · rename_i hre
      by_cases hji : j = i
      · subst hji
        exact .inr hre.2
      · have hfree := alloc_sock_closed (spawn_slot_alloc h)
        rw [on_socks_ne hji] at hfree
        exact .inl hfree
    · cases h
  · exact .inl (alloc_sock_closed (spawn_slot_alloc h))

/-- A socket that has just been made: it has the next generation, and as a connection it has
sent its SYN and nothing else. -/
structure Fresh (st : Stack) (s : TcpSocket) : Prop where
  gen : s.conn_gen = st.conn_gen_next
  empty : s.rx_head = s.rx_tail
  listening : s.state = .listen → s.remote_ip = 0 ∧ s.remote_port = 0
  opening : s.state ≠ .listen → (s.state = .syn_sent ∨ s.state = .syn_received) ∧
    s.snd_una = st.isn_counter ∧ s.snd_nxt = st.isn_counter + 1

/-- What a SYN leaves behind in the socket that sends it. -/
lemma syn_sock (s : TcpSocket) (flags : UInt8) (h : has flags (TCP_SYN ||| TCP_FIN)) :
    let t := (tcp_send_seg ⟨s, []⟩ flags []).sock
    t.state = s.state ∧ t.conn_gen = s.conn_gen ∧ t.rx_head = s.rx_head ∧ t.rx_tail = s.rx_tail ∧
      t.snd_una = s.snd_una ∧ t.snd_nxt = s.snd_nxt + 1 := by
  simp [tcp_send_seg, h, enqueue, tcp_emit, one_if]

lemma fresh_open_active (hg : e.conn_gen = st.conn_gen_next)
    (hi : e.isn = st.isn_counter) : Fresh st (open_active e).sock := by
  obtain ⟨hst, hgen, hh, ht, hu, hn⟩ :=
    syn_sock { e.sock with state := .syn_sent, accepted := true } TCP_SYN (by decide)
  refine ⟨hgen.trans hg, hh.trans ht.symm, fun h => ?_,
    fun _ => ⟨.inl hst, hu.trans hi, hn.trans ?_⟩⟩
  · cases hst.symm.trans h
  · rw [← hi]
    rfl

lemma fresh_open_passive {seq : UInt32} (hg : e.conn_gen = st.conn_gen_next)
    (hi : e.isn = st.isn_counter) : Fresh st (open_passive e seq).sock := by
  obtain ⟨hst, hgen, hh, ht, hu, hn⟩ :=
    syn_sock { e.sock with state := .syn_received, rcv_nxt := seq + 1 } (TCP_SYN ||| TCP_ACK)
      (by decide)
  refine ⟨hgen.trans hg, hh.trans ht.symm, fun h => ?_,
    fun _ => ⟨.inr hst, hu.trans hi, hn.trans ?_⟩⟩
  · cases hst.symm.trans h
  · rw [← hi]
    rfl

lemma spawn_fresh {dst_ip : UInt32} (h : st.spawn_slot src_ip seg = some j) :
    Fresh st ((st.rx_unmatched src_ip dst_ip seg).socks j) := by
  unfold rx_unmatched
  rw [h]
  show Fresh st (update st.socks j _ j)
  rw [update_self]
  exact fresh_open_passive rfl rfl

/-- The slot that a step gives away holds a fresh socket. -/
lemma next_fresh (h : st.given m = some j) : Fresh st ((st.next m).socks j) := by
  cases m with
  | rx src_ip dst_ip pkt len =>
    obtain ⟨seg, hp, h⟩ := Option.bind_eq_some_iff.mp h
    show Fresh st ((st.tcp_rx src_ip dst_ip pkt len).socks j)
    unfold tcp_rx
    rw [hp]
    unfold rx_slot at h
    show Fresh st ((st.rx_segment src_ip dst_ip seg).socks j)
    unfold rx_segment
    split at h
    · split at h
      · rename_i i _ hre
        simp only [hre, if_true]
        have hs : Fresh (st.on i tcp.tcp_abort)
            (((st.on i tcp.tcp_abort).rx_unmatched src_ip dst_ip seg).socks j) := spawn_fresh h
        exact ⟨hs.gen, hs.empty, hs.listening, hs.opening⟩
      · cases h
    · exact spawn_fresh h
  | tick => cases h
  | call op =>
    cases op with
    | connect ip port local_port =>
      show Fresh st ((st.tcp_connect ip port local_port).1.socks j)
      have h : st.alloc_sock = some j := h
      unfold tcp_connect
      rw [h]
      show Fresh st (update st.socks j _ j)
      rw [update_self]
      exact fresh_open_active rfl rfl
    | listen port =>
      show Fresh st ((st.tcp_listen port).1.socks j)
      have h : (if st.listens port then none else st.alloc_sock) = some j := h
      unfold tcp_listen
      split at h
      · cases h
      rename_i hl
      rw [if_neg hl, h]
      show Fresh st (update st.socks j _ j)
      rw [update_self]
      exact ⟨rfl, rfl, fun _ => ⟨rfl, rfl⟩, fun hne => absurd rfl hne⟩
    | _ => cases h

/-! ## Listeners -/

/-- The ACK number lies behind `snd_una` and not behind `snd_nxt`. -/
def acks_new (s : TcpSocket) (seg : Segment) : Bool :=
  seq_gt seg.ack s.snd_una && !seq_gt seg.ack s.snd_nxt

/-- The packet finds a listener as if it were its connection, and says something that the
code then takes over: a RST, a new window or a new ACK number. -/
def alters_listener (st : Stack) (src_ip : UInt32) (pkt : Buf) (len : Nat) : Bool :=
  match parse pkt len with
  | none => false
  | some seg =>
    match st.find_sock src_ip seg.src_port seg.dst_port false with
    | none => false
    | some i =>
      let s := st.socks i
      s.state = .listen ∧ (has seg.flags TCP_RST ∨
          has seg.flags TCP_ACK ∧ (seg.window ≠ s.snd_wnd ∨ acks_new s seg))

lemma seq_gt_ne {a b : UInt32} (h : seq_gt a b) : a ≠ b := by
  rintro rfl
  simp [seq_gt, serial.ahead] at h

/-- An acknowledgement changes a socket if it brings a new window or a new ACK number. -/
lemma rx_ack_eq_self {s : TcpSocket} :
    rx_ack s seg = s ↔ ¬(seg.window ≠ s.snd_wnd ∨ acks_new s seg) := by
  unfold rx_ack
  by_cases hn : acks_new s seg
  · have hc : (seq_gt seg.ack s.snd_una && !seq_gt seg.ack s.snd_nxt) = true := hn
    simp only [hc, if_true, hn, or_true, not_true, iff_false]
    intro he
    have hu : seg.ack = s.snd_una := congrArg TcpSocket.snd_una he
    simp only [Bool.and_eq_true] at hc
    exact seq_gt_ne hc.1 hu
  · have hc : ¬(seq_gt seg.ack s.snd_una && !seq_gt seg.ack s.snd_nxt) = true := hn
    simp only [if_neg hc, hn, Bool.false_eq_true, or_false, not_not]
    refine ⟨fun he => (congrArg TcpSocket.snd_wnd he : _), fun he => ?_⟩
    rw [he]

lemma rx_sock_listen {l : Link} (h : l.sock.state = .listen) : (tcp.tcp_rx l seg).sock = l.sock ↔
      ¬(has seg.flags TCP_RST ∨
        has seg.flags TCP_ACK ∧ (seg.window ≠ l.sock.snd_wnd ∨ acks_new l.sock seg)) := by
  have hrx : tcp.tcp_rx l seg = rx_sock l seg := by simp [tcp.tcp_rx, h]
  have hack : (rx_ack l.sock seg).state = .listen := by
    unfold rx_ack
    split <;> exact h
  rw [hrx]
  unfold rx_sock
  by_cases hr : has seg.flags TCP_RST
  · simp only [hr, if_true, true_or, not_true, iff_false]
    intro he
    have := congrArg TcpSocket.state he
    rw [h] at this
    cases this
  · by_cases ha : has seg.flags TCP_ACK
    · simp only [hr, ha, if_true, Bool.false_eq_true, if_false, false_or, true_and]
      have hsw : rx_switch { l with sock := rx_ack l.sock seg } seg =
          { l with sock := rx_ack l.sock seg } := by
        unfold rx_switch
        rw [hack]
      rw [hsw]
      exact rx_ack_eq_self
    · simp [hr, ha, rx_switch, h]

/-- A packet leaves every listener as it is, unless it finds one by the address and port 0
that stand in its own fields and brings a RST, another window or a new ACK number. -/
theorem a_listener_is_left_alone (st : Stack) (src_ip dst_ip : UInt32) (pkt : Buf) (len : Nat) :
    (∀ i, (st.socks i).state = .listen → (st.tcp_rx src_ip dst_ip pkt len).socks i = st.socks i) ↔
      st.alters_listener src_ip pkt len = false := by
  unfold tcp_rx alters_listener
  cases parse pkt len with
  | none => simp
  | some seg =>
    have hsock : ∀ i, (st.socks i).state = .listen → (st.rx_segment src_ip dst_ip seg).socks i =
          if st.find_sock src_ip seg.src_port seg.dst_port false = some i then
            (tcp.tcp_rx ⟨st.socks i, st.sent⟩ seg).sock
          else st.socks i := by
      intro i hi
      refine rx_segment_socks fun hslot => ?_
      rcases rx_slot_free hslot with hc | hc <;> rw [hi] at hc <;> cases hc
    dsimp only
    cases hf : st.find_sock src_ip seg.src_port seg.dst_port false with
    | none =>
      simp only [iff_true]
      intro i hi
      rw [hsock i hi, hf, if_neg (by simp)]
    | some k =>
      simp only [decide_eq_false_iff_not, not_and]
      constructor
      · intro h hk
        have he := h k hk
        rw [hsock k hk, if_pos hf] at he
        exact (rx_sock_listen hk).mp he
      · intro h i hi
        rw [hsock i hi, hf]
        split
        · rename_i hki
          cases hki
          exact (rx_sock_listen hi).mpr (h hi)
        · rfl

/-- A segment with the RST flag from the port 0 to the port 80. -/
def stray_reset : Buf := fun i => ([0, 0, 0, 80, 0, 0, 0, 0, 0, 0, 0, 0, 80, TCP_RST]).getD i 0

/-- The address 0.0.0.0 and the port 0 find the listener itself, and its RST closes it. -/
theorem a_stray_reset_closes_the_listener :
    let st := ((boot 10).tcp_listen 80).1
    (st.socks 0).state = .listen ∧ ((st.tcp_rx 0 10 stray_reset 20).socks 0).state = .closed := by
  decide +kernel

end Stack

end uaos.tcp
