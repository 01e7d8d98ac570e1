-- The end of a connection in the TCP layer (tcp.c). With everything that was sent and heard
-- before it, a connection is in FIN_WAIT_2 or TIME_WAIT only when the peer has acknowledged its
-- FIN, as long as no FIN of the peer arrives in FIN_WAIT_1 without that acknowledgement.
import Uaos.TcpRuns

namespace uaos.tcp

open List

variable {l l' : Link} {seg : Segment}

/-! ## The connection with its history -/

/-- A connection, the packets that it has sent, and the segments that it has heard, each with
what had been sent by then. -/
structure Talk where
  conn : Conn
  sent : List Packet
  heard : List (Segment × List Packet)

namespace Talk

def start (o : Opening) : Talk := ⟨o.conn, o.conn.link.sent, []⟩

def step (t : Talk) (e : Event) : Option Talk :=
  let conn := tcp.step t.conn e
  some {
    conn
    sent := t.sent ++ conn.link.sent
    heard := match e with
      | .rx seg => t.heard ++ [(seg, t.sent)]
      | _ => t.heard }

def state (t : Talk) : TcpState := t.conn.link.sock.state

end Talk

/-- The packet is a FIN, and `n` is the sequence number behind it. -/
def Packet.FinTo (p : Packet) (n : UInt32) : Prop :=
  has p.seg.flags TCP_FIN ∧ p.seg.seq + UInt32.ofNat p.seg.data.length + 1 = n

instance (p : Packet) (n : UInt32) : Decidable (p.FinTo n) := inferInstanceAs (Decidable (_ ∧ _))

/-- A segment has acknowledged a FIN that had been sent before. -/
def Talk.FinAcked (t : Talk) : Prop :=
  ∃ x ∈ t.heard, has x.1.flags TCP_ACK ∧ ∃ p ∈ x.2, p.FinTo x.1.ack

instance (t : Talk) : Decidable t.FinAcked := inferInstanceAs (Decidable (∃ x ∈ t.heard, _))

/-- A FIN of the peer that arrives in FIN_WAIT_1 acknowledges all that was sent. -/
def Talk.answered (t : Talk) : Event → Bool
  | .rx seg => t.state = .fin_wait_1 ∧ has seg.flags TCP_FIN → acks_all t.conn.link.sock seg
  | _ => true

/-! ## Without a segment -/

/-- What a connection can go through without hearing from the peer: FIN_WAIT_1 begins with the
FIN, and the states behind it do not begin. -/
structure Onward (l l' : Link) : Prop where
  sent : l.sent ⊆ l'.sent
  fin : l'.sock.state = .fin_wait_1 → l.sock.state = .fin_wait_1 ∧ l'.sock.snd_nxt =
    l.sock.snd_nxt ∨
    ∃ p ∈ l'.sent, p.FinTo l'.sock.snd_nxt
  done : l'.sock.state = .fin_wait_2 ∨ l'.sock.state = .time_wait → l'.sock.state = l.sock.state

lemma onward_same (hsent : l.sent ⊆ l'.sent) (hs : l'.sock.state = l.sock.state)
    (hn : l'.sock.snd_nxt = l.sock.snd_nxt) : Onward l l' :=
  ⟨hsent, fun h => .inl ⟨hs ▸ h, hn⟩, fun _ => hs⟩

lemma onward_closed (hsent : l.sent ⊆ l'.sent) (hs : l'.sock.state = .closed) : Onward l l' := by
  refine ⟨hsent, fun h => ?_, fun h => ?_⟩ <;> simp [hs] at h

lemma Onward.trans {l'' : Link} (h : Onward l l') (h' : Onward l' l'') : Onward l l'' := by
  refine ⟨fun p hp => h'.sent (h.sent hp), fun hs => ?_, fun hs => ?_⟩
  · rcases h'.fin hs with ⟨hs', hn⟩ | hp
    · rcases h.fin hs' with ⟨hs, hn'⟩ | ⟨p, hp, hfin⟩
      · exact .inl ⟨hs, hn.trans hn'⟩
      · exact .inr ⟨p, h'.sent hp, hn ▸ hfin⟩
    · exact .inr hp
  · have hs' := h'.done hs
    exact hs'.trans (h.done (hs' ▸ hs))

lemma Turns.onward (h : Turns l l') : Onward l l' := by
  induction h with
  | mark => exact onward_same (Subset.refl _) rfl rfl
  | shut => exact onward_closed (Subset.refl _) rfl
  | reset => exact onward_same (subset_append_left _ _) rfl rfl
  | again l =>
    refine onward_same ?_ (by simp) (by simp)
    unfold tcp_retransmit
    split
    · exact Subset.refl _
    · exact subset_append_left _ _
  | fin l =>
    refine ⟨subset_append_left _ _, fun _ => .inr ?_, fun hs => ?_⟩
    · have hf : has (TCP_FIN ||| TCP_ACK) (TCP_SYN ||| TCP_FIN) = true := by decide
      refine ⟨_, mem_append_right _ (mem_singleton_self _),
        show has (TCP_FIN ||| TCP_ACK) TCP_FIN by decide, ?_⟩
      simp [tcp_send_seg, enqueue, one_if, hf]
    · rw [tcp_send_seg_state] at hs
      simp only [fin_state] at hs
      split at hs <;> simp at hs
  | trans _ _ h h' => exact h.trans h'

lemma send_onward (l : Link) (data : Buf) (len : UInt16) : Onward l (tcp_send l data len).1 := by
  by_cases ho : l.sock.state ≠ .established ∧ l.sock.state ≠ .close_wait
  · rw [tcp_send_idle ho]
    exact onward_same (Subset.refl _) rfl rfl
  have hs := tcp_send_state l data len
  refine ⟨?_, fun h => ?_, fun _ => hs⟩
  · unfold tcp_send
    dsimp only
    repeat' split
    all_goals first | exact Subset.refl _ | exact subset_append_left _ _
  · rw [hs] at h
    simp [h] at ho

lemma recv_onward (l : Link) (maxlen : UInt16) : Onward l (tcp_recv l maxlen).1 := by
  unfold tcp_recv
  simp only [tcp_send_seg_ack]
  repeat' split
  all_goals first
    | exact onward_same (subset_append_left _ _) rfl rfl
    | exact onward_same (Subset.refl _) rfl rfl

/-! ## With a segment -/

lemma rx_payload_nxt (l : Link) (seg : Segment) :
    (rx_payload l seg).sock.snd_nxt = l.sock.snd_nxt := by
  unfold rx_payload
  split
  · rw [tcp_rx_data_sock]
    split <;> rfl
  · rfl

/-- What a segment can do: it does not lead into FIN_WAIT_1, and it leads on from there when it
acknowledges the FIN or is one itself. -/
structure Hears (l : Link) (seg : Segment) (l' : Link) : Prop where
  fin : l'.sock.state = .fin_wait_1 →
    l.sock.state = .fin_wait_1 ∧ l'.sock.snd_nxt = l.sock.snd_nxt
  done : l'.sock.state = .fin_wait_2 ∨ l'.sock.state = .time_wait →
    (l.sock.state = .fin_wait_2 ∨ l.sock.state = .time_wait) ∨
      l.sock.state = .fin_wait_1 ∧ (acks_all l.sock seg ∨ has seg.flags TCP_FIN)

lemma rx_switch_hears (l : Link) (seg : Segment) : Hears l seg (rx_switch l seg) := by
  have hst := rx_payload_state l seg
  have hnxt := rx_payload_nxt l seg
  unfold rx_switch rx_last_fin fin_in_order acks_all
  dsimp only
  constructor
  all_goals
    split <;> repeat' split
    all_goals simp_all [tcp_rx_data_state, acks_all]

lemma tcp_rx_hears (l : Link) (seg : Segment) : Hears l seg (tcp_rx l seg) := by
  have hclosed : ∀ l' : Link, l'.sock.state = .closed → Hears l seg l' := by
    intro l' hc
    constructor <;> simp [hc]
  unfold tcp_rx
  split
  · exact hclosed l ‹_›
  split
  · exact hclosed _ rfl
  rw [rx_sock_eq]
  split
  · exact hclosed _ rfl
  obtain ⟨hst, hn⟩ := acked_sock_state_nxt l.sock seg
  have h := rx_switch_hears { l with sock := acked_sock l.sock seg } seg
  refine ⟨fun hs => ?_, fun hs => ?_⟩
  · rw [← hst, ← hn]
    exact h.fin hs
  · have hd := h.done hs
    simp only [acks_all, hst, hn] at hd
    exact hd

/-! ## Runs -/

namespace Talk

variable {t : Talk}

/-- In FIN_WAIT_1 the FIN has been sent, and behind it it has been acknowledged. -/
structure Ends (t : Talk) : Prop where
  fin : t.state = .fin_wait_1 → ∃ p ∈ t.sent, p.FinTo t.conn.link.sock.snd_nxt
  done : t.state = .fin_wait_2 ∨ t.state = .time_wait → t.FinAcked

lemma Ends.onward {c : Conn} (h : t.Ends) (ho : Onward { t.conn.link with sent := [] } c.link) :
    Ends ⟨c, t.sent ++ c.link.sent, t.heard⟩ := by
  refine ⟨fun hs => ?_, fun hs => ?_⟩
  · rcases ho.fin hs with ⟨hs', hn⟩ | ⟨p, hp, hfin⟩
    · obtain ⟨p, hp, hfin⟩ := h.fin hs'
      exact ⟨p, mem_append_left _ hp, hn ▸ hfin⟩
    · exact ⟨p, mem_append_right _ hp, hfin⟩
  · have hs' : c.link.sock.state = t.state := ho.done hs
    exact h.done (hs' ▸ hs)

lemma Ends.hears {c : Conn} (h : t.Ends) (hok : t.answered (.rx seg))
    (hh : Hears { t.conn.link with sent := [] } seg c.link) :
    Ends ⟨c, t.sent ++ c.link.sent, t.heard ++ [(seg, t.sent)]⟩ := by
  refine ⟨fun hs => ?_, fun hs => ?_⟩
  · obtain ⟨hs', hn⟩ := hh.fin hs
    obtain ⟨p, hp, hfin⟩ := h.fin hs'
    exact ⟨p, mem_append_left _ hp, hn ▸ hfin⟩
  rcases hh.done hs with hs' | ⟨hs', hack⟩
  · obtain ⟨x, hx, hacked⟩ := h.done hs'
    exact ⟨x, mem_append_left _ hx, hacked⟩
  have hall : acks_all t.conn.link.sock seg :=
    hack.elim id fun hf => of_decide_eq_true hok ⟨hs', hf⟩
  simp only [acks_all, Bool.and_eq_true, beq_iff_eq] at hall
  obtain ⟨p, hp, hfin⟩ := h.fin hs'
  refine ⟨(seg, t.sent), mem_append_right _ (mem_singleton_self _), hall.1, p, hp, ?_⟩
  rw [hall.2]
  exact hfin

lemma Ends.step (h : t.Ends) {e : Event} (hok : t.answered e) :
    ∃ t', t.step e = some t' ∧ t'.Ends := by
  refine ⟨_, rfl, ?_⟩
  cases e with
  | rx seg => exact h.hears hok (tcp_rx_hears _ seg)
  | send data len => exact h.onward (send_onward _ data len)
  | recv maxlen => exact h.onward (recv_onward _ maxlen)
  | accept => exact h.onward (onward_same (Subset.refl _) rfl rfl)
  | close => exact h.onward (tcp_close_turns _).onward
  | abort => exact h.onward (onward_closed (Subset.refl _) rfl)
  | tick => exact h.onward (tcp_tick_turns _).onward

/-- A connection is opened and closed, and then the FIN of the peer arrives with an ACK number. -/
def close_both (ack : UInt32) : List Event :=
  [.rx ⟨80, 49152, 500, 1001, TCP_SYN ||| TCP_ACK, 5000, []⟩, .close,
    .rx ⟨80, 49152, 501, ack, TCP_FIN ||| TCP_ACK, 5000, []⟩]

def our_opening : Opening := .active ⟨1, 10, 49152, 20, 80, 1000⟩

end Talk

end uaos.tcp
