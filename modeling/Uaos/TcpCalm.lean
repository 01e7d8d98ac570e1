-- The end of a stream in the TCP layer (tcp.c). Only the FIN of the peer leads to the states
-- that stand for the end of its stream, only its data fills the receive ring, and for every
-- slot of the table it is told what a step does to the socket and to its history.
import Uaos.TcpRuns

namespace uaos.tcp

open Traced

/-! ## Without a segment -/

/-- The states that only the FIN of the peer leads to. -/
def ended : TcpState → Bool
  | .close_wait | .last_ack | .time_wait => true
  | _ => false

/-- A FIN or a RST has arrived. -/
def PeerClosed (p : Past) : Prop := ∃ seg ∈ p.heard, has seg.flags (TCP_FIN ||| TCP_RST)

instance (p : Past) : Decidable (PeerClosed p) := inferInstanceAs (Decidable (∃ seg ∈ p.heard, _))

/-- What a connection can go through without hearing from the peer. -/
structure Calm (s t : TcpSocket) : Prop where
  closed : s.state = .closed → t.state = .closed
  ended : ended t.state → ended s.state
  empty : s.rx_head = s.rx_tail → t.rx_head = t.rx_tail

lemma Calm.refl (s : TcpSocket) : Calm s s := ⟨id, id, id⟩

lemma Calm.trans {s t u : TcpSocket} (h : Calm s t) (h' : Calm t u) : Calm s u :=
  ⟨fun hs => h'.closed (h.closed hs), fun hu => h.ended (h'.ended hu),
    fun hs => h'.empty (h.empty hs)⟩

variable {l : Link} {s t : TcpSocket} {p q : Past} {seg : Segment}

lemma tcp_send_seg_ring (l : Link) (flags : UInt8) (data : List UInt8) :
    (tcp_send_seg l flags data).sock.rx_head = l.sock.rx_head ∧
      (tcp_send_seg l flags data).sock.rx_tail = l.sock.rx_tail := by
  unfold tcp_send_seg
  dsimp only
  split <;> exact ⟨rfl, rfl⟩

/-- A socket that only differs in other fields, or is closed. -/
lemma calm_of_same (hst : t.state = s.state ∨ t.state = .closed) (hh : t.rx_head = s.rx_head)
    (ht : t.rx_tail = s.rx_tail) : Calm s t := by
  refine ⟨fun hs => ?_, fun he => ?_, fun hs => ?_⟩
  · rcases hst with hst | hst
    · exact hst.trans hs
    · exact hst
  · rcases hst with hst | hst
    · rwa [hst] at he
    · rw [hst] at he
      cases he
  · rw [hh, ht, hs]

lemma calm_send (l : Link) (data : Buf) (len : UInt16) :
    Calm l.sock (tcp_send l data len).1.sock := by
  rcases tcp_send_sock l data len with he | ⟨d, timer, he⟩
  · rw [he]
    exact Calm.refl _
  · rw [he]
    exact calm_of_same (.inl (tcp_send_seg_state l _ d)) (tcp_send_seg_ring l _ d).1
      (tcp_send_seg_ring l _ d).2

lemma rbuf_get_empty (buf : Buf) (head size : Nat) (n : Nat) :
    rbuf_get buf head head size n = ([], head) := by
  cases n <;> simp [rbuf_get]

lemma tcp_recv_ring (l : Link) (maxlen : UInt16) :
    let r := rbuf_get l.sock.rx_buf l.sock.rx_head l.sock.rx_tail TCP_RX_BUF_SIZE maxlen.toNat
    (tcp_recv l maxlen).1.sock.state = l.sock.state ∧ (tcp_recv l maxlen).1.sock.rx_head = r.2 ∧
      (tcp_recv l maxlen).1.sock.rx_tail = l.sock.rx_tail ∧ (tcp_recv l maxlen).2 = r.1 := by
  unfold tcp_recv
  dsimp only
  repeat' split
  all_goals exact ⟨rfl, rfl, rfl, rfl⟩

lemma calm_recv (l : Link) (maxlen : UInt16) : Calm l.sock (tcp_recv l maxlen).1.sock := by
  obtain ⟨hst, hh, ht, -⟩ := tcp_recv_ring l maxlen
  refine ⟨fun h => hst.trans h, fun h => by rwa [hst] at h, fun h => ?_⟩
  rw [hh, ht, h, rbuf_get_empty]

lemma calm_turns {l' : Link} (h : Turns l l') : Calm l.sock l'.sock := by
  induction h with
  | mark => exact calm_of_same (.inl rfl) rfl rfl
  | shut => exact calm_of_same (.inr rfl) rfl rfl
  | reset => exact Calm.refl _
  | again l =>
    rw [tcp_retransmit_sock]
    exact Calm.refl _
  | fin l b hst _ =>
    obtain ⟨hh, ht⟩ := tcp_send_seg_ring { l with
      sock := { l.sock with fin_pending := b, state := fin_state l.sock.state } }
        (TCP_FIN ||| TCP_ACK) []
    refine ⟨fun hc => ?_, fun he => ?_, fun h => ?_⟩
    · rw [hc] at hst
      simp at hst
    · rw [tcp_send_seg_state] at he
      rcases hst with hs | hs | hs <;> rw [hs] at he ⊢
      · cases he
      · cases he
      · rfl
    · rw [hh, ht]
      exact h
  | trans _ _ ih ih' => exact ih.trans ih'

lemma act_calm {e : Event} (he : e.quiet) (l : Link) : Calm l.sock (act l e).sock := by
  cases e with
  | rx => cases he
  | send data len => exact calm_send l data len
  | recv maxlen => exact calm_recv l maxlen
  | accept => exact calm_of_same (.inl rfl) rfl rfl
  | close => exact calm_turns (tcp_close_turns l)
  | abort => exact calm_of_same (.inr rfl) rfl rfl
  | tick => exact calm_turns (tcp_tick_turns l)

lemma calm_of_quietly (h : Quietly s t) : Calm s t := by
  rcases h with rfl | ⟨e, sent, he, rfl⟩
  · exact Calm.refl _
  · exact act_calm he ⟨s, sent⟩

/-! ## With a segment -/

lemma rx_switch_ended (h : ended (rx_switch l seg).sock.state) :
    ended l.sock.state ∨ has seg.flags TCP_FIN := by
  have hpay := rx_payload_state l seg
  unfold rx_switch rx_last_fin fin_in_order at h
  dsimp only at h
  split at h <;> repeat' split at h
  all_goals simp_all [ended, tcp_rx_data_state]

lemma rx_switch_closed (h : (rx_switch l seg).sock.state = .closed) :
    l.sock.state = .closed ∨ ended l.sock.state := by
  have hpay := rx_payload_state l seg
  unfold rx_switch rx_last_fin at h
  dsimp only at h
  split at h <;> repeat' split at h
  all_goals simp_all [ended, tcp_rx_data_state]

lemma rx_switch_ring (hd : seg.data = []) (h : l.sock.rx_head = l.sock.rx_tail) :
    (rx_switch l seg).sock.rx_head = (rx_switch l seg).sock.rx_tail := by
  have hpay : rx_payload l seg = l := by simp [rx_payload, hd]
  unfold rx_switch rx_last_fin
  dsimp only
  split <;> repeat' split
  all_goals simp_all

lemma acked_sock_ring (s : TcpSocket) (seg : Segment) :
    (acked_sock s seg).rx_head = s.rx_head ∧ (acked_sock s seg).rx_tail = s.rx_tail := by
  unfold acked_sock rx_ack
  repeat' split
  all_goals exact ⟨rfl, rfl⟩

/-- What a segment can do: only a FIN ends the stream, only a RST closes a connection whose
stream has not ended, and only data fills the ring. -/
lemma tcp_rx_spec (l : Link) (seg : Segment) :
    (ended (tcp_rx l seg).sock.state → ended l.sock.state ∨ has seg.flags TCP_FIN) ∧
      ((tcp_rx l seg).sock.state = .closed →
        l.sock.state = .closed ∨ ended l.sock.state ∨ has seg.flags TCP_RST) ∧
      (seg.data = [] → l.sock.rx_head = l.sock.rx_tail →
        (tcp_rx l seg).sock.rx_head = (tcp_rx l seg).sock.rx_tail) := by
  obtain ⟨hst, -⟩ := acked_sock_state_nxt l.sock seg
  obtain ⟨hh, ht⟩ := acked_sock_ring l.sock seg
  unfold tcp_rx
  split
  · rename_i hc
    exact ⟨.inl, fun _ => .inl hc, fun _ h => h⟩
  split
  · rename_i htw
    refine ⟨fun h => ?_, fun _ => .inr (.inl ?_), fun _ h => h⟩
    · cases h
    · rw [htw.2]
      rfl
  rw [rx_sock_eq]
  split
  · rename_i hr
    refine ⟨fun h => ?_, fun _ => .inr (.inr hr), fun _ h => ?_⟩
    · cases h
    · show (acked_sock l.sock seg).rx_head = (acked_sock l.sock seg).rx_tail
      rw [hh, ht, h]
  · refine ⟨fun h => ?_, fun h => ?_, fun hd h => ?_⟩
    · have := rx_switch_ended h
      rwa [hst] at this
    · have := rx_switch_closed h
      rw [hst] at this
      exact this.imp_right .inl
    · refine rx_switch_ring hd ?_
      rw [hh, ht, h]

/-! ## One step of the TCP layer -/

/-- What a step does to the history and the socket of a slot. `r` is the segment that it brings
to this slot, if it does. -/
inductive Effect (arrives : Bool) (r : Option Segment) (p : Past) (s : TcpSocket) :
    Past → TcpSocket → Prop
  | kept : Effect arrives r p s p s
  | calm {t : TcpSocket} (hm : arrives = false) (h : Calm s t) : Effect arrives r p s p t
  | fresh {q : Past} {t : TcpSocket} (hst : t.state ≠ .closed) (he : ended t.state = false)
      (hr : t.rx_head = t.rx_tail) : Effect arrives r p s q t
  | heard {seg : Segment} {sent : List Packet} (hr : r = some seg) :
      Effect arrives r p s (p.hear seg) (tcp_rx ⟨s, sent⟩ seg).sock
  | retired (he : s.state = .time_wait) : Effect arrives r p s p { s with state := .closed }

/-- The segment that a step brings to a slot. -/
def brings (st : Stack) (m : Stack.Move) (j : Slot) : Option Segment :=
  (receiver st m).bind fun r => if r.1 = j then some r.2 else none

lemma move_effect (st : Stack) (past : Slot → Past) (m : Stack.Move) (j : Slot) :
    Effect m.arrives (brings st m j) (past j) (st.socks j)
      (remember st past m j) ((st.next m).socks j) := by
  by_cases hg : st.given m = some j
  · have hf := Stack.next_fresh hg
    refine .fresh ?_ ?_ hf.empty
    · intro hc
      have := (hf.opening (by simp [hc])).1
      simp [hc] at this
    · by_cases hl : ((st.next m).socks j).state = .listen
      · rw [hl]
        rfl
      · rcases (hf.opening hl).1 with hs | hs <;> rw [hs] <;> rfl
  cases hm : m.arrives with
  | false =>
    rw [remember_same hg (by simp [receiver_of_arrives hm])]
    exact .calm rfl (calm_of_quietly (Stack.next_quietly hm hg))
  | true =>
    rcases next_arrives hm hg with ⟨hsock, hno⟩ | ⟨seg, hr, hsock⟩
    · rw [remember_same hg hno, hsock]
      exact .kept
    rw [hsock]
    cases hk : st.given m with
    | some k =>
      obtain ⟨htw, hc⟩ := closed_of_given st.sent hk hr
      have hpast : remember st past m j = past j := by
        have hjk : j ≠ k := fun hjk => hg (hjk ▸ hk)
        simp [remember, hk, hjk]
      rw [hpast, hc]
      exact .retired htw
    | none =>
      have hpast : remember st past m j = (past j).hear seg := by
        simp [remember, hk, hr]
      rw [hpast]
      exact .heard (by simp [brings, hr])

end uaos.tcp
