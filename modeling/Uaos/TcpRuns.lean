-- Runs of the TCP layer with its history. For every slot the history keeps the first sequence
-- number of the connection in it and the segments that were given to it. A connection is
-- beyond the handshake only when the peer has acknowledged its SYN, as long as no SYN-ACK
-- with another acknowledgement arrives.
import Uaos.Run
import Uaos.TcpTurns

namespace uaos.tcp

open Stack

/-! ## The history of a connection -/

structure Past where
  isn : UInt32
  heard : List Segment

/-- A segment has arrived that acknowledges the first sequence number, that of the SYN. -/
def Past.SynAcked (p : Past) : Prop := ∃ seg ∈ p.heard, has seg.flags TCP_ACK ∧ seg.ack = p.isn + 1

instance (p : Past) : Decidable p.SynAcked := inferInstanceAs (Decidable (∃ seg ∈ p.heard, _))

def Past.hear (p : Past) (seg : Segment) : Past := { p with heard := p.heard ++ [seg] }

/-- The states from ESTABLISHED on. -/
def synchronized : TcpState → Bool
  | .established | .fin_wait_1 | .fin_wait_2 | .close_wait | .last_ack | .time_wait => true
  | .closed | .syn_sent | .syn_received | .listen => false

lemma Past.SynAcked.hear {p : Past} (h : p.SynAcked) (seg : Segment) : (p.hear seg).SynAcked := by
  obtain ⟨a, ha, hack⟩ := h
  exact ⟨a, List.mem_append_left _ ha, hack⟩

lemma synAcked_hear {p : Past} {seg : Segment} (hf : has seg.flags TCP_ACK)
    (ha : seg.ack = p.isn + 1) : (p.hear seg).SynAcked := ⟨seg, by simp [Past.hear], hf, ha⟩

/-! ## One connection -/

/-- How far the handshake has come. Before it is over, only the SYN has been sent. -/
structure Handshake (p : Past) (s : TcpSocket) : Prop where
  nxt : s.state = .syn_sent ∨ s.state = .syn_received → s.snd_nxt = p.isn + 1
  sent : s.state = .syn_sent → s.snd_una = p.isn ∨ p.SynAcked
  received : s.state = .syn_received → s.snd_una = p.isn
  done : synchronized s.state → p.SynAcked

variable {p : Past} {s t : TcpSocket} {l : Link} {seg : Segment}

lemma handshake_closed (h : t.state = .closed) : Handshake p t := by
  constructor <;> simp [h, synchronized]

lemma handshake_over (h : p.SynAcked) (ht : synchronized t.state ∨ t.state = .closed) :
    Handshake p t := by
  rcases ht with ht | ht
  · constructor
    · rintro (h | h) <;> simp [h, synchronized] at ht
    · exact fun _ => .inr h
    · exact fun h => by simp [h, synchronized] at ht
    · exact fun _ => h
  · exact handshake_closed ht

lemma Handshake.same (h : Handshake p s) (hst : t.state = s.state) (hn : t.snd_nxt = s.snd_nxt)
    (hu : t.snd_una = s.snd_una) : Handshake p t := by
  refine ⟨fun hs => ?_, fun hs => ?_, fun hs => ?_, fun hs => ?_⟩
  · rw [hn]
    exact h.nxt (by rwa [hst] at hs)
  · rw [hu]
    exact h.sent (hst ▸ hs)
  · rw [hu]
    exact h.received (hst ▸ hs)
  · exact h.done (hst ▸ hs)

lemma ne_succ (a : UInt32) : a ≠ a + 1 := by
  intro he
  have hn := congrArg UInt32.toNat he
  rw [UInt32.toNat_add] at hn
  simp only [UInt32.toNat_one] at hn
  omega

lemma Handshake.una_ne (h : Handshake p s) (hs : s.state = .syn_received) :
    s.snd_una ≠ s.snd_nxt := by
  rw [h.received hs, h.nxt (.inr hs)]
  exact ne_succ p.isn

lemma fin_state_synchronized (st : TcpState) : synchronized (fin_state st) := by
  unfold fin_state
  split <;> rfl

lemma Handshake.turns {l' : Link} (h : Handshake p l.sock) (ht : Turns l l') :
    Handshake p l'.sock := by
  induction ht with
  | mark => exact h.same rfl rfl rfl
  | shut => exact handshake_closed rfl
  | reset => exact h
  | again l => rwa [tcp_retransmit_sock]
  | fin l _ hst hu =>
    have hack : p.SynAcked := by
      refine h.done ?_
      rcases hst with hs | hs | hs
      · simp [hs, synchronized]
      · exact absurd hu (h.una_ne hs)
      · simp [hs, synchronized]
    refine handshake_over hack (.inl ?_)
    exact fin_state_synchronized _
  | trans _ _ ih ih' => exact ih' (ih h)

lemma Handshake.send (h : Handshake p l.sock) (data : Buf) (len : UInt16) :
    Handshake p (tcp_send l data len).1.sock := by
  by_cases ho : l.sock.state ≠ .established ∧ l.sock.state ≠ .close_wait
  · rw [tcp_send_idle ho]
    exact h
  · have hsync : synchronized l.sock.state := by
      cases hs : l.sock.state <;> simp [hs, synchronized] at ho ⊢
    exact handshake_over (h.done hsync) (.inl (by rwa [tcp_send_state]))

lemma Handshake.recv (h : Handshake p l.sock) (maxlen : UInt16) :
    Handshake p (tcp_recv l maxlen).1.sock := by
  unfold tcp_recv
  dsimp only
  repeat' split
  all_goals
    refine h.same ?_ ?_ ?_ <;> simp

/-- An ACK number that moves `snd_una` while only the SYN is out is the one behind the SYN. -/
lemma ack_of_syn {isn : UInt32} (hu : s.snd_una = isn) (hn : s.snd_nxt = isn + 1)
    (h : acks_new s seg) : seg.ack = isn + 1 := by
  simp only [acks_new, seq_gt, hu, hn, Bool.and_eq_true, decide_eq_true_eq,
    Bool.not_eq_true', decide_eq_false_iff_not, serial.ahead_eq] at h
  obtain ⟨hlow, hhigh⟩ := h
  apply UInt32.toNat.inj
  rw [UInt32.toNat_add]
  rw [UInt32.toNat_sub] at hlow
  rw [UInt32.toNat_sub, UInt32.toNat_add] at hhigh
  have := isn.toNat_lt
  have := seg.ack.toNat_lt
  simp only [UInt32.toNat_one] at *
  split at hlow <;> split at hhigh <;> omega

lemma rx_ack_una (s : TcpSocket) (seg : Segment) :
    (rx_ack s seg).snd_una = if acks_new s seg then seg.ack else s.snd_una := by
  unfold rx_ack acks_new
  split <;> rfl

/-- A segment that completes the handshake of a socket in SYN_SENT acknowledges its SYN, or
the SYN has been acknowledged before. -/
def answers (s : TcpSocket) (seg : Segment) : Bool :=
  s.state = .syn_sent ∧ seg.flags &&& (TCP_SYN ||| TCP_ACK) = TCP_SYN ||| TCP_ACK ∧
      has seg.flags TCP_RST = false →
    seg.ack = s.snd_nxt ∨ s.snd_una = s.snd_nxt

lemma rx_switch_synchronized (h : synchronized l.sock.state) :
    synchronized (rx_switch l seg).sock.state ∨ (rx_switch l seg).sock.state = .closed := by
  have hpay := rx_payload_state l seg
  unfold rx_switch rx_last_fin
  dsimp only
  split <;> repeat' split
  all_goals simp_all [synchronized, tcp_rx_data_state]

/-- While only the SYN is out, the ACK part moves `snd_una` only for an ACK of the SYN. -/
lemma acked_sock_una (hu : s.snd_una = p.isn) (hn : s.snd_nxt = p.isn + 1) :
    (acked_sock s seg).snd_una = p.isn ∨ has seg.flags TCP_ACK ∧ seg.ack = p.isn + 1 := by
  unfold acked_sock
  split
  · rename_i hf
    rw [rx_ack_una]
    split
    · rename_i hnew
      exact .inr ⟨hf, ack_of_syn hu hn hnew⟩
    · exact .inl hu
  · exact .inl hu

lemma Handshake.switch_syn_sent (h : Handshake p l.sock) (hs : l.sock.state = .syn_sent)
    (hr : has seg.flags TCP_RST = false) (hok : answers l.sock seg) :
    Handshake (p.hear seg) (rx_switch { l with sock := acked_sock l.sock seg } seg).sock := by
  obtain ⟨hst, hnxt⟩ := acked_sock_state_nxt l.sock seg
  have hn := h.nxt (.inl hs)
  have hu : (acked_sock l.sock seg).snd_una = p.isn ∨ (p.hear seg).SynAcked := by
    rcases h.sent hs with hu | hack
    · exact (acked_sock_una hu hn).imp_right fun ha => synAcked_hear ha.1 ha.2
    · exact .inr (hack.hear seg)
  unfold rx_switch
  rw [hst, hs]
  dsimp only
  split
  · rename_i hboth
    refine handshake_over ?_ (.inl ?_)
    · rcases of_decide_eq_true hok ⟨hs, hboth, hr⟩ with ha | ha
      · exact synAcked_hear (has_of_both hboth).2 (ha.trans hn)
      rcases h.sent hs with hu | hack
      · rw [hu, hn] at ha
        exact absurd ha (ne_succ p.isn)
      · exact hack.hear seg
    · rw [tcp_send_seg_state]
      rfl
  · refine ⟨fun _ => hnxt.trans hn, fun _ => hu, fun hs' => ?_, fun hs' => ?_⟩
    · rw [hst, hs] at hs'
      cases hs'
    · rw [hst, hs] at hs'
      cases hs'

lemma Handshake.switch_syn_received (h : Handshake p l.sock) (hs : l.sock.state = .syn_received) :
    Handshake (p.hear seg) (rx_switch { l with sock := acked_sock l.sock seg } seg).sock := by
  obtain ⟨hst, hnxt⟩ := acked_sock_state_nxt l.sock seg
  have hn := h.nxt (.inr hs)
  unfold rx_switch
  rw [hst, hs]
  dsimp only
  split
  · rename_i hall
    simp only [acks_all, Bool.and_eq_true, beq_iff_eq] at hall
    rw [hnxt, hn] at hall
    exact handshake_over (synAcked_hear hall.1 hall.2) (.inl rfl)
  rename_i hall
  have hu : (acked_sock l.sock seg).snd_una = p.isn := by
    rcases acked_sock_una (h.received hs) hn with hu | ⟨hf, ha⟩
    · exact hu
    · refine absurd ?_ hall
      simp [acks_all, hf, ha, hnxt, hn]
  have hkeep : Handshake (p.hear seg) (acked_sock l.sock seg) := by
    refine ⟨fun _ => hnxt.trans hn, fun _ => .inl hu, fun _ => hu, fun hs' => ?_⟩
    rw [hst, hs] at hs'
    cases hs'
  split
  · rw [tcp_retransmit_sock]
    exact hkeep
  · exact hkeep

lemma Handshake.rx (h : Handshake p l.sock) (hok : answers l.sock seg) :
    Handshake (p.hear seg) (tcp_rx l seg).sock := by
  unfold tcp_rx
  split
  · rename_i hc
    exact handshake_closed hc
  split
  · exact handshake_closed rfl
  rw [rx_sock_eq]
  split
  · exact handshake_closed rfl
  rename_i hr
  obtain ⟨hst, -⟩ := acked_sock_state_nxt l.sock seg
  cases hs : l.sock.state with
  | syn_sent => exact h.switch_syn_sent hs (by simpa using hr) hok
  | syn_received => exact h.switch_syn_received hs
  | closed => exact absurd hs ‹_›
  | listen =>
    have hl : rx_switch { l with sock := acked_sock l.sock seg } seg =
        { l with sock := acked_sock l.sock seg } := by
      unfold rx_switch
      rw [hst, hs]
    rw [hl]
    constructor <;> simp [hst, hs, synchronized]
  | _ =>
    refine handshake_over ((h.done (by simp [hs, synchronized])).hear seg)
      (rx_switch_synchronized ?_)
    simp [hst, hs, synchronized]

/-- A socket that is closed or listens stays so, or is closed. -/
lemma act_idle {e : Event} (h : l.sock.state = .closed ∨ l.sock.state = .listen) :
    (act l e).sock.state = l.sock.state ∨ (act l e).sock.state = .closed := by
  cases e with
  | rx seg =>
    have hst := (acked_sock_state_nxt l.sock seg).1
    rcases h with h | h
    · simp [act, tcp_rx, h]
    · simp only [act, tcp_rx, rx_sock_eq, h, reduceCtorEq, and_false, if_false]
      split
      · exact .inr rfl
      · simp [rx_switch, hst, h]
  | recv maxlen =>
    refine .inl ?_
    simp only [act, tcp_recv]
    repeat' split
    all_goals rfl
  | _ => rcases h with h | h <;> simp [act, tcp_send, tcp_close, tcp_abort, tcp_tick, h]

lemma Handshake.act (h : Handshake p s) {e : Event} (he : e.quiet) (sent : List Packet) :
    Handshake p (act ⟨s, sent⟩ e).sock := by
  have h : Handshake p (Link.mk s sent).sock := h
  cases e with
  | rx => cases he
  | send data len => exact h.send data len
  | recv maxlen => exact h.recv maxlen
  | accept => exact h.same rfl rfl rfl
  | close => exact h.turns (tcp_close_turns _)
  | abort => exact handshake_closed rfl
  | tick => exact h.turns (tcp_tick_turns _)

lemma Handshake.quietly (h : Handshake p s) (hq : Quietly s t) : Handshake p t := by
  rcases hq with rfl | ⟨e, sent, he, rfl⟩
  · exact h
  · exact h.act he sent

variable {st : Stack} {j : Slot}

lemma handshake_fresh (h : st.Fresh s) : Handshake ⟨st.isn_counter, []⟩ s := by
  by_cases hl : s.state = .listen
  · constructor <;> simp [hl, synchronized]
  · obtain ⟨hst, hu, hn⟩ := h.opening hl
    refine ⟨fun _ => hn, fun _ => .inl hu, fun _ => hu, fun hs => ?_⟩
    rcases hst with hst | hst <;> simp [hst, synchronized] at hs

/-! ## Runs of the table -/

/-- The table with the history of the connection in every slot. -/
structure Traced where
  stack : Stack
  past : Slot → Past

namespace Traced

def boot (local_ip : UInt32) : Traced := ⟨Stack.boot local_ip, fun _ => ⟨0, []⟩⟩

/-- The connection that a step brings a segment to. -/
def receiver (st : Stack) : Stack.Move → Option (Slot × Segment)
  | .rx src_ip _ pkt len =>
    (Stack.parse pkt len).bind fun seg =>
      (st.find_sock src_ip seg.src_port seg.dst_port false).map fun i => (i, seg)
  | _ => none

/-- A new connection starts a new history, and a segment is added to that of its receiver. -/
def remember (st : Stack) (past : Slot → Past) (m : Stack.Move) : Slot → Past :=
  match st.given m with
  | some i => Function.update past i ⟨st.isn_counter, []⟩
  | none =>
    match receiver st m with
    | some (i, seg) => Function.update past i ((past i).hear seg)
    | none => past

def step (w : Traced) (m : Stack.Move) : Option Traced :=
  some ⟨w.stack.next m, remember w.stack w.past m⟩

/-- No SYN-ACK completes a handshake without an acknowledgement of the SYN. -/
def Answered (w : Traced) (m : Stack.Move) : Prop :=
  (receiver w.stack m).all fun r => answers (w.stack.socks r.1) r.2

instance (w : Traced) (m : Stack.Move) : Decidable (w.Answered m) :=
  inferInstanceAs (Decidable (_ = true))

def Shaken (w : Traced) : Prop := ∀ i, Handshake (w.past i) (w.stack.socks i)

variable {w : Traced} {m : Stack.Move}

lemma receiver_of_arrives (h : m.arrives = false) (st : Stack) : receiver st m = none := by
  cases m with
  | rx => cases h
  | tick => rfl
  | call => rfl

/-- What a segment does to a slot that gets no new socket. -/
lemma next_arrives (hm : m.arrives) (h : st.given m ≠ some j) :
    (st.next m).socks j = st.socks j ∧ (∀ seg, receiver st m ≠ some (j, seg)) ∨
      ∃ seg, receiver st m = some (j, seg) ∧
        (st.next m).socks j = (tcp_rx ⟨st.socks j, st.sent⟩ seg).sock := by
  cases m with
  | rx src_ip dst_ip pkt len =>
    show (st.tcp_rx src_ip dst_ip pkt len).socks j = st.socks j ∧ _ ∨ ∃ seg, _ ∧
      (st.tcp_rx src_ip dst_ip pkt len).socks j = _
    simp only [given, receiver] at h ⊢
    unfold Stack.tcp_rx
    cases hp : Stack.parse pkt len with
    | none => exact .inl ⟨rfl, by simp⟩
    | some seg =>
      rw [hp] at h
      have hsock : (st.rx_segment src_ip dst_ip seg).socks j = _ := rx_segment_socks h
      simp only [Option.bind_some]
      cases hf : st.find_sock src_ip seg.src_port seg.dst_port false with
      | none =>
        rw [hf, if_neg (by simp)] at hsock
        exact .inl ⟨hsock, by simp⟩
      | some k =>
        by_cases hjk : k = j
        · subst hjk
          rw [if_pos hf] at hsock
          exact .inr ⟨seg, rfl, hsock⟩
        · rw [hf, if_neg (by simpa using hjk)] at hsock
          exact .inl ⟨hsock, by simp [hjk]⟩
  | tick => cases hm
  | call => cases hm

/-- A slot that gets no new socket is left alone or sees one event. -/
lemma next_acts (h : st.given m ≠ some j) :
    (st.next m).socks j = st.socks j ∨ ∃ (e : Event) (sent : List Packet),
      (st.next m).socks j = (act ⟨st.socks j, sent⟩ e).sock := by
  cases hm : m.arrives with
  | false => exact (next_quietly hm h).imp_right fun ⟨e, sent, _, he⟩ => ⟨e, sent, he⟩
  | true => exact (next_arrives hm h).imp And.left fun ⟨seg, _, he⟩ => ⟨.rx seg, st.sent, he⟩

/-- A segment that opens a new connection can only have belonged to one that it closes. -/
lemma closed_of_given {k : Slot} {seg : Segment} (sent : List Packet)
    (hg : st.given m = some k) (hr : receiver st m = some (j, seg)) :
    (st.socks j).state = .time_wait ∧
      (tcp_rx ⟨st.socks j, sent⟩ seg).sock = { st.socks j with state := .closed } := by
  cases m with
  | rx src_ip dst_ip pkt len =>
    obtain ⟨seg', hp, hf⟩ := Option.bind_eq_some_iff.mp hr
    obtain ⟨i, hf, he⟩ := Option.map_eq_some_iff.mp hf
    cases he
    have hg : (Stack.parse pkt len).bind (st.rx_slot src_ip) = some k := hg
    rw [hp, Option.bind_some, rx_slot, hf] at hg
    dsimp only at hg
    split at hg
    · rename_i hre
      refine ⟨hre.2, ?_⟩
      unfold tcp_rx
      rw [if_neg (by simp [hre.2]), if_pos ⟨hre.1, hre.2⟩]
    · cases hg
  | tick => cases hr
  | call => cases hr

lemma remember_same {past : Slot → Past} (hg : st.given m ≠ some j)
    (hno : ∀ seg, receiver st m ≠ some (j, seg)) : remember st past m j = past j := by
  unfold remember
  cases hk : st.given m with
  | some k =>
    have hjk : j ≠ k := fun hjk => hg (hjk ▸ hk)
    exact Function.update_of_ne hjk _ _
  | none =>
    cases hr : receiver st m with
    | none => rfl
    | some r =>
      have hjr : j ≠ r.1 := fun hjr => hno r.2 (by rw [hr, hjr])
      exact Function.update_of_ne hjr _ _

lemma Shaken.next (h : w.Shaken) (hok : w.Answered m) :
    Shaken ⟨w.stack.next m, remember w.stack w.past m⟩ := by
  intro j
  show Handshake (remember w.stack w.past m j) ((w.stack.next m).socks j)
  by_cases hg : w.stack.given m = some j
  · have hpast : remember w.stack w.past m j = ⟨w.stack.isn_counter, []⟩ := by simp [remember, hg]
    rw [hpast]
    exact handshake_fresh (next_fresh hg)
  cases hm : m.arrives with
  | false =>
    rw [remember_same hg (by simp [receiver_of_arrives hm])]
    exact (h j).quietly (next_quietly hm hg)
  | true =>
    rcases next_arrives hm hg with ⟨hsock, hno⟩ | ⟨seg, hr, hsock⟩
    · rw [remember_same hg hno, hsock]
      exact h j
    rw [hsock]
    cases hk : w.stack.given m with
    | some k =>
      rw [(closed_of_given w.stack.sent hk hr).2]
      exact handshake_closed rfl
    | none =>
      have hpast : remember w.stack w.past m j = (w.past j).hear seg := by
        simp [remember, hk, hr]
      have hans : answers (w.stack.socks j) seg := by
        have hok : (receiver w.stack m).all _ = true := hok
        rwa [hr] at hok
      rw [hpast]
      exact Handshake.rx (l := ⟨w.stack.socks j, w.stack.sent⟩) (h j) hans

/-- A connection to the host 20 from the port 49152, and the SYN-ACK of that host with a given
ACK number. -/
def open_and_answer (ack : List UInt8) : List Stack.Move :=
  [.call (.connect 20 80 0), .rx 20 10 (usock.World.header 0 ack (TCP_SYN ||| TCP_ACK)) 20]

end Traced

end uaos.tcp
