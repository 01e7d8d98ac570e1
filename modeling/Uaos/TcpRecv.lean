-- The receiving half of a TCP connection. The bytes that the owner has been given and the
-- bytes in the ring are the beginning of the peer's stream, as far as the sequence numbers
-- say, when every segment is near enough and no SYN carries data.
import Uaos.Run
import Uaos.Tcp

namespace uaos.tcp

open List

open uaos.ring uaos.serial

variable {data : List UInt8} {head p r size tail : Nat}

/-! ## The peer -/

/-- The peer has one stream of bytes, and `irs` is the sequence number of its SYN. -/
structure Peer where
  stream : List UInt8
  irs : UInt32

/-- The segment carries the bytes of the stream from `pos` on. A SYN comes before the
first byte, a FIN after the last one. -/
@[mk_iff]
structure FromPeer (peer : Peer) (pos : Nat) (seg : Segment) : Prop where
  bytes : seg.data <+: peer.stream.drop pos
  syn : has seg.flags TCP_SYN → pos = 0 ∧ seg.seq = peer.irs
  seq : has seg.flags TCP_SYN = false → seg.seq = num (peer.irs + 1) pos
  fin : has seg.flags TCP_FIN → pos + seg.data.length = peer.stream.length

/-! ## The ring -/

lemma rbuf_put_spec (buf : Buf) (hh : head < size) (ht : tail < size) (data : List UInt8) :
    (rbuf_put buf tail head size data).2.1 < size ∧
      (rbuf_put buf tail head size data).2.2 ≤ data.length ∧
      between (rbuf_put buf tail head size data).1 size head
        (rbuf_put buf tail head size data).2.1 =
        between buf size head tail ++ data.take (rbuf_put buf tail head size data).2.2 := by
  induction data generalizing buf tail with
  | nil => exact ⟨ht, le_refl 0, (append_nil _).symm⟩
  | cons b bs ih =>
    unfold rbuf_put
    dsimp only
    split
    · exact ⟨ht, Nat.zero_le _, (append_nil _).symm⟩
    rename_i hfull
    obtain ⟨h1, h2, h3⟩ := ih (Function.update buf tail b) (Nat.mod_lt (tail + 1) (by omega))
    refine ⟨h1, Nat.succ_le_succ h2, ?_⟩
    rw [h3, between_push hh ht hfull, append_assoc]
    rfl

lemma rbuf_get_spec (buf : Buf) (hh : head < size) (ht : tail < size) (maxlen : Nat) :
    (rbuf_get buf head tail size maxlen).2 < size ∧
      between buf size head tail = (rbuf_get buf head tail size maxlen).1 ++
        between buf size (rbuf_get buf head tail size maxlen).2 tail := by
  induction maxlen generalizing head with
  | zero => exact ⟨hh, rfl⟩
  | succ n ih =>
    unfold rbuf_get
    split
    · exact ⟨hh, rfl⟩
    rename_i hne
    obtain ⟨h1, h2⟩ := ih (Nat.mod_lt (head + 1) (by omega))
    refine ⟨h1, ?_⟩
    rw [between_pop hh ht hne, h2]
    rfl

/-! ## The invariant of the receiving half -/

/-- What the states say about the receiving half. -/
inductive Stage where
  | unsynced
  | flowing
  | ended
  | over
  deriving DecidableEq

def stage : TcpState → Stage
  | .syn_sent => .unsynced
  | .syn_received | .established | .fin_wait_1 | .fin_wait_2 => .flowing
  | .close_wait => .ended
  | .closed | .last_ack | .time_wait | .listen => .over

variable {peer : Peer} {got : List UInt8} {s t : TcpSocket}

/-- After `r` bytes of the stream, `rcv_nxt` is the number of the next byte. -/
def AtByte (peer : Peer) (r : Nat) (s : TcpSocket) : Prop := s.rcv_nxt = num (peer.irs + 1) r

/-- The FIN has been taken behind the last byte. -/
def AtEnd (peer : Peer) (r : Nat) (s : TcpSocket) : Prop :=
  r = peer.stream.length ∧ s.rcv_nxt = num (peer.irs + 1) (r + 1)

/-- No SYN of the peer has been taken. -/
def Unsynced (r : Nat) (s : TcpSocket) : Prop :=
  (s.state = .syn_sent ∨ s.state = .closed) ∧ r = 0 ∧ s.rcv_nxt = 0

/-- The bytes given to the owner and the bytes in the ring are the stream up to `rcv_nxt`. -/
def UpToDate (peer : Peer) (got : List UInt8) (s : TcpSocket) : Prop :=
  got ++ s.ring <+: peer.stream ∧
    (AtByte peer (got ++ s.ring).length s ∨ AtEnd peer (got ++ s.ring).length s ∨
      Unsynced (got ++ s.ring).length s)

/-- Where the receiving half is in the stream, by its stage. -/
def Place (peer : Peer) (r : Nat) (s : TcpSocket) : Prop :=
  (stage s.state = .flowing ∨ stage s.state = .over) ∧ AtByte peer r s ∨
    (stage s.state = .ended ∨ stage s.state = .over) ∧ AtEnd peer r s ∨ Unsynced r s

structure RecvOk (peer : Peer) (got : List UInt8) (s : TcpSocket) : Prop where
  head : s.rx_head < TCP_RX_BUF_SIZE
  tail : s.rx_tail < TCP_RX_BUF_SIZE
  bytes : got ++ s.ring <+: peer.stream
  place : Place peer (got ++ s.ring).length s

section

variable (h : RecvOk peer got s)

include h

lemma RecvOk.upToDate : UpToDate peer got s := by
  refine ⟨h.bytes, ?_⟩
  rcases h.place with hp | hp | hp
  · exact .inl hp.2
  · exact .inr (.inl hp.2)
  · exact .inr (.inr hp)

lemma RecvOk.atByte (hs : stage s.state = .flowing) : AtByte peer (got ++ s.ring).length s := by
  rcases h.place with hp | hp | hp
  · exact hp.2
  · rw [hs] at hp
    simp at hp
  · rcases hp.1 with h0 | h0 <;> rw [h0] at hs <;> cases hs

lemma RecvOk.atEnd (hs : stage s.state = .ended) : AtEnd peer (got ++ s.ring).length s := by
  rcases h.place with hp | hp | hp
  · rw [hs] at hp
    simp at hp
  · exact hp.2
  · rcases hp.1 with h0 | h0 <;> rw [h0] at hs <;> cases hs

lemma RecvOk.nothing (hs : s.state = .syn_sent) : (got ++ s.ring).length = 0 := by
  rcases h.place with hp | hp | hp
  · rw [hs] at hp
    simp [stage] at hp
  · rw [hs] at hp
    simp [stage] at hp
  · exact hp.2.1

end

/-- The fields that the receiving half is about. -/
structure SameRecv (s t : TcpSocket) : Prop where
  nxt : t.rcv_nxt = s.rcv_nxt
  buf : t.rx_buf = s.rx_buf
  head : t.rx_head = s.rx_head
  tail : t.rx_tail = s.rx_tail

lemma SameRecv.ring (h : SameRecv s t) : t.ring = s.ring := by
  rw [TcpSocket.ring, h.buf, h.head, h.tail, ← TcpSocket.ring]

/-- A change of state that says nothing new about the receiving half. -/
def Moves (a b : TcpState) : Prop :=
  b = a ∨ b = .closed ∨ a ≠ .syn_sent ∧ a ≠ .closed ∧ (stage b = stage a ∨ stage b = .over)

instance (a b : TcpState) : Decidable (Moves a b) := inferInstanceAs (Decidable (_ ∨ _ ∨ _))

lemma RecvOk.congr (h : RecvOk peer got s) (hs : SameRecv s t) (hm : Moves s.state t.state) :
    RecvOk peer got t := by
  refine ⟨hs.head ▸ h.head, hs.tail ▸ h.tail, hs.ring ▸ h.bytes, ?_⟩
  rw [hs.ring]
  unfold Place AtByte AtEnd Unsynced
  rw [hs.nxt]
  rcases hm with hm | hm | ⟨h1, h2, hm⟩
  · rw [hm]
    exact h.place
  · rw [hm]
    rcases h.place with hp | hp | hp
    · exact .inl ⟨.inr rfl, hp.2⟩
    · exact .inr (.inl ⟨.inr rfl, hp.2⟩)
    · exact .inr (.inr ⟨.inr rfl, hp.2⟩)
  · rcases h.place with hp | hp | hp
    · refine .inl ⟨?_, hp.2⟩
      rcases hm with hm | hm <;> simp [hm, hp.1]
    · refine .inr (.inl ⟨?_, hp.2⟩)
      rcases hm with hm | hm <;> simp [hm, hp.1]
    · rcases hp.1 with h0 | h0
      · exact absurd h0 h1
      · exact absurd h0 h2

lemma RecvOk.closed (h : RecvOk peer got s) : RecvOk peer got { s with state := .closed } :=
  h.congr ⟨rfl, rfl, rfl, rfl⟩ (.inr (.inl rfl))

/-! ## Data -/

/-- Data at the count `p` changes nothing unless the next byte, of the count `r`, is in it.
Then the bytes from there on go in. -/
lemma tcp_rx_data_cases {base : UInt32} {l : Link}
    (hr : l.sock.rcv_nxt = num base r) (hd : 0 < data.length) (hback : r < p + 2 ^ 32)
    (hfar : p + data.length < r + 2 ^ 32) : (tcp_rx_data l (num base p) data).sock = l.sock ∨
      p ≤ r ∧ r < p + data.length ∧
        (tcp_rx_data l (num base p) data).sock = take_in l.sock (data.drop (r - p)) := by
  rw [tcp_rx_data_sock, hr]
  have hdist := ahead_eq (num base p) (num base r)
  rcases Nat.lt_trichotomy p r with hlt | rfl | hgt
  · -- Bytes from before the next one.
    rw [toNat_num_sub_of_lt hlt hback] at hdist
    rw [toNat_num_sub (le_of_lt hlt) hback]
    by_cases hskip : ahead (num base p) (num base r) < 0 ∧ r - p < data.length
    · refine .inr ⟨le_of_lt hlt, by omega, ?_⟩
      rw [if_neg (by omega), if_pos hskip.1]
    · rw [if_pos (by split at hdist <;> omega)]
      exact .inl rfl
  · rw [UInt32.sub_self] at hdist
    have h0 : ahead (num base p) (num base p) = 0 := hdist
    rw [h0, if_neg (by omega), if_neg (by omega), Nat.sub_self, drop_zero]
    exact .inr ⟨le_refl p, by omega, rfl⟩
  · -- A gap, also when the distance is so large that it looks like a step back.
    rw [toNat_num_sub (le_of_lt hgt) (by omega)] at hdist
    rw [toNat_num_sub_of_lt hgt (by omega), if_pos (by split at hdist <;> omega)]
    exact .inl rfl

/-- The bytes that go in are the next ones of the stream. -/
lemma RecvOk.take_in (h : RecvOk peer got s)
    (hr : (got ++ s.ring).length = r) (hs : stage s.state = .flowing)
    (hd : data <+: peer.stream.drop p) (hp : p ≤ r) :
      RecvOk peer got (take_in s (data.drop (r - p))) := by
  obtain ⟨h1, h2, h3⟩ := rbuf_put_spec s.rx_buf h.head h.tail (data.drop (r - p))
  obtain ⟨n, hn⟩ : ∃ n,
    (rbuf_put s.rx_buf s.rx_tail s.rx_head TCP_RX_BUF_SIZE (data.drop (r - p))).2.2 = n :=
    ⟨_, rfl⟩
  rw [hn] at h2 h3
  have hring : (tcp.take_in s (data.drop (r - p))).ring = s.ring ++ (data.drop (r - p)).take n := h3
  have hlen : (got ++ (s.ring ++ (data.drop (r - p)).take n)).length = r + n := by
    rw [← append_assoc, length_append, hr, length_take, min_eq_left h2]
  refine ⟨h.head, h1, ?_, .inl ⟨.inl hs, ?_⟩⟩
  · have hnext : (data.drop (r - p)).take n <+: peer.stream.drop r := by
      have := hd.drop (r - p)
      rw [drop_drop, Nat.add_sub_cancel' hp] at this
      exact (List.take_prefix n _).trans this
    rw [hring, ← append_assoc, ← List.prefix_iff_eq_append.mp h.bytes, hr]
    exact (List.prefix_append_right_inj _).mpr hnext
  · rw [hring, hlen]
    show s.rcv_nxt + UInt32.ofNat _ = _
    rw [hn, h.atByte hs, hr, num_add]

lemma RecvOk.take_in_length (h : RecvOk peer got s) (data : List UInt8) :
    (got ++ s.ring).length ≤ (got ++ (tcp.take_in s data).ring).length := by
  have hring : (tcp.take_in s data).ring = s.ring ++ _ :=
    (rbuf_put_spec s.rx_buf h.head h.tail data).2.2
  rw [hring, ← append_assoc]
  exact (List.prefix_append _ _).length_le

/-! ## Segments -/

/-- A segment that carries data or a FIN is less than a round of the sequence numbers away
from the next byte, and no SYN carries data once the numbers are known. -/
def Settled (got : List UInt8) (s : TcpSocket) (pos : Nat) (seg : Segment) : Prop :=
  (has seg.flags TCP_SYN → stage s.state = .flowing ∨ stage s.state = .ended → seg.data = []) ∧
    (seg.data ≠ [] ∨ has seg.flags TCP_FIN → (got ++ s.ring).length + 1 < pos + 2 ^ 32 ∧
      pos + seg.data.length < (got ++ s.ring).length + 2 ^ 32)

variable {l : Link} {pos : Nat} {seg : Segment}

lemma FromPeer.no_syn (h : FromPeer peer pos seg) (hset : Settled got s pos seg)
    (hs : stage s.state = .flowing ∨ stage s.state = .ended) (hd : seg.data ≠ []) :
    seg.seq = num (peer.irs + 1) pos := by
  refine h.seq (Bool.eq_false_iff.mpr fun hsyn => hd (hset.1 hsyn hs))

/-- While the stream is flowing the payload of a segment is taken in where it belongs. -/
lemma RecvOk.payload (h : RecvOk peer got l.sock) (hs : stage l.sock.state = .flowing)
    (hf : FromPeer peer pos seg) (hset : Settled got l.sock pos seg) :
    RecvOk peer got (rx_payload l seg).sock ∧
      (got ++ l.sock.ring).length ≤ (got ++ (rx_payload l seg).sock.ring).length := by
  unfold rx_payload
  split
  · rename_i hd
    have hne : seg.data ≠ [] := length_pos_iff.mp hd
    obtain ⟨hback, hfar⟩ := hset.2 (.inl hne)
    rw [hf.no_syn hset (.inl hs) hne]
    rcases tcp_rx_data_cases (h.atByte hs) hd (by omega) hfar with he | ⟨hp, _, he⟩
    · rw [he]
      exact ⟨h, le_refl _⟩
    · rw [he]
      exact ⟨h.take_in rfl hs hf.bytes hp, h.take_in_length _⟩
  · exact ⟨h, le_refl _⟩

/-- A FIN is taken only behind the last byte. -/
lemma RecvOk.fin (h : RecvOk peer got s) (hs : stage s.state = .flowing)
    (hf : FromPeer peer pos seg) (hfar : pos + seg.data.length < (got ++ s.ring).length + 2 ^ 32)
    (hsyn : has seg.flags TCP_SYN → seg.data = []) (hfin : fin_in_order s seg)
    (ht : t.rcv_nxt = s.rcv_nxt + 1) (hbuf : t.rx_buf = s.rx_buf) (hhead : t.rx_head = s.rx_head)
    (htail : t.rx_tail = s.rx_tail) (hst : stage t.state = .ended ∨ stage t.state = .over) :
    RecvOk peer got t := by
  have hring : t.ring = s.ring := by rw [TcpSocket.ring, hbuf, hhead, htail, ← TcpSocket.ring]
  simp only [fin_in_order, Bool.and_eq_true, beq_iff_eq] at hfin
  have hlast := hf.fin hfin.1
  have hle : (got ++ s.ring).length ≤ peer.stream.length := h.bytes.length_le
  have hat := h.atByte hs
  have hend : (got ++ s.ring).length = peer.stream.length := by
    cases hb : has seg.flags TCP_SYN with
    | false =>
      have hnum := hfin.2
      rw [hf.seq hb, num_add, hlast, hat] at hnum
      exact ((num_inj_of_near hle (by omega)).mp hnum.symm)
    | true =>
      obtain ⟨hpos, hseq⟩ := hf.syn hb
      rw [hsyn hb, hpos] at hlast
      rw [← hlast] at hle ⊢
      exact Nat.le_zero.mp hle
  refine ⟨hhead ▸ h.head, htail ▸ h.tail, hring ▸ h.bytes, .inr (.inl ⟨hst, ?_, ?_⟩)⟩
  · rw [hring, hend]
  · rw [hring, ht, hat, num_succ]

lemma tcp_send_seg_recv (l : Link) (flags : UInt8) (data : List UInt8) :
    SameRecv l.sock (tcp_send_seg l flags data).sock := by
  unfold tcp_send_seg
  dsimp only
  split <;> exact ⟨rfl, rfl, rfl, rfl⟩

lemma RecvOk.last_fin (h : RecvOk peer got l.sock) (hs : stage l.sock.state = .flowing)
    (hf : FromPeer peer pos seg)
    (hfar : has seg.flags TCP_FIN → pos + seg.data.length < (got ++ l.sock.ring).length + 2 ^ 32)
    (hsyn : has seg.flags TCP_SYN → seg.data = []) : RecvOk peer got (rx_last_fin l seg).sock := by
  unfold rx_last_fin
  split
  · rename_i hfin
    have hfl : has seg.flags TCP_FIN := (Bool.and_eq_true _ _ ▸ hfin : _ ∧ _).1
    exact h.fin hs hf (hfar hfl) hsyn hfin rfl rfl rfl rfl (.inr rfl)
  · exact h

lemma RecvOk.switch (h : RecvOk peer got l.sock) (hf : FromPeer peer pos seg)
    (hset : Settled got l.sock pos seg) : RecvOk peer got (rx_switch l seg).sock := by
  have hstate := rx_payload_state l seg
  -- What the three states with data have in common.
  have hdata : stage l.sock.state = .flowing → RecvOk peer got (rx_payload l seg).sock ∧
      (has seg.flags TCP_FIN →
        pos + seg.data.length < (got ++ (rx_payload l seg).sock.ring).length + 2 ^ 32) ∧
      (has seg.flags TCP_SYN → seg.data = []) := by
    intro hs
    obtain ⟨hok, hle⟩ := h.payload hs hf hset
    refine ⟨hok, fun hfin => ?_, fun hsyn => hset.1 hsyn (.inl hs)⟩
    have := (hset.2 (.inr hfin)).2
    omega
  unfold rx_switch
  simp only [tcp_send_seg_ack]
  split
  · rename_i hs
    split
    · rename_i hboth
      have hseq := (hf.syn (has_of_both hboth).1).2
      refine ⟨h.head, h.tail, h.bytes, .inl ⟨.inl rfl, ?_⟩⟩
      show seg.seq + 1 = num (peer.irs + 1) (got ++ l.sock.ring).length
      rw [h.nothing hs, num_zero, hseq]
    · exact h
  · rename_i hs
    split
    · refine h.congr ⟨rfl, rfl, rfl, rfl⟩ ?_
      rw [hs]
      show Moves .syn_received .established
      decide
    · split
      · rw [tcp_retransmit_sock]
        exact h
      · exact h
  · rename_i hs
    obtain ⟨hok, hfar, hsyn⟩ := hdata (by rw [hs]; rfl)
    split
    · rename_i hfin
      have hfl : has seg.flags TCP_FIN := (Bool.and_eq_true _ _ ▸ hfin : _ ∧ _).1
      exact hok.fin (by rw [hstate, hs]; rfl) hf (hfar hfl) hsyn hfin rfl rfl rfl rfl (.inl rfl)
    · exact hok
  · rename_i hs
    obtain ⟨hok, hfar, hsyn⟩ := hdata (by rw [hs]; rfl)
    split
    · refine RecvOk.last_fin (hok.congr ⟨rfl, rfl, rfl, rfl⟩ ?_) rfl hf hfar hsyn
      rw [hstate, hs]
      show Moves .fin_wait_1 .fin_wait_2
      decide
    · exact hok.last_fin (by rw [hstate, hs]; rfl) hf hfar hsyn
  · rename_i hs
    obtain ⟨hok, hfar, hsyn⟩ := hdata (by rw [hs]; rfl)
    split
    · refine RecvOk.last_fin (hok.congr ⟨rfl, rfl, rfl, rfl⟩ (.inl rfl)) ?_ hf hfar hsyn
      rw [hstate, hs]
      rfl
    · exact hok.last_fin (by rw [hstate, hs]; rfl) hf hfar hsyn
  · rename_i hs
    split
    · rename_i hd
      have hne : seg.data ≠ [] := length_pos_iff.mp hd
      have hended : stage l.sock.state = .ended := by rw [hs]; rfl
      obtain ⟨hback, hfar⟩ := hset.2 (.inl hne)
      obtain ⟨hend, hat⟩ := h.atEnd hended
      have hlen := hf.bytes.length_le
      rw [length_drop] at hlen
      rw [hf.no_syn hset (.inr hended) hne]
      rcases tcp_rx_data_cases hat hd (by omega) (by omega) with he | ⟨_, hlt, _⟩
      · rw [he]
        exact h
      · omega
    · split <;> exact h
  · split
    · exact h.closed
    · exact h
  · split
    · exact h.congr ⟨rfl, rfl, rfl, rfl⟩ (.inl rfl)
    · exact h
  · exact h
  · exact h

lemma Settled.congr (h : Settled got s pos seg) (hs : SameRecv s t) (hst : t.state = s.state) :
    Settled got t pos seg := by
  unfold Settled
  rw [hst, hs.ring]
  exact h

lemma RecvOk.rx (h : RecvOk peer got l.sock) (hf : FromPeer peer pos seg)
    (hset : Settled got l.sock pos seg) : RecvOk peer got (tcp_rx l seg).sock := by
  unfold tcp_rx
  split
  · exact h
  split
  · exact h.closed
  have hst := (acked_sock_state_nxt l.sock seg).1
  have hack : SameRecv l.sock (acked_sock l.sock seg) := by
    obtain ⟨_, _, _, _, _, _, he⟩ := acked_sock_eq l.sock seg
    exact he ▸ ⟨rfl, rfl, rfl, rfl⟩
  have hok := h.congr hack (.inl hst)
  rw [rx_sock_eq]
  split
  · exact hok.closed
  · exact RecvOk.switch hok hf (hset.congr hack hst)

/-! ## Calls and ticks -/

lemma moves_fin {st : TcpState} (h : st = .established ∨ st = .syn_received ∨ st = .close_wait) :
    Moves st (fin_state st) := by
  rcases h with rfl | rfl | rfl <;> decide

section

variable (h : RecvOk peer got l.sock)

include h

lemma RecvOk.send_seg (flags : UInt8) (data : List UInt8) :
    RecvOk peer got (tcp_send_seg l flags data).sock :=
  h.congr (tcp_send_seg_recv l flags data) (.inl (tcp_send_seg_state l flags data))

lemma RecvOk.turns {l' : Link} (ht : Turns l l') : RecvOk peer got l'.sock := by
  induction ht with
  | mark => exact h.congr ⟨rfl, rfl, rfl, rfl⟩ (.inl rfl)
  | shut => exact h.congr ⟨rfl, rfl, rfl, rfl⟩ (.inr (.inl rfl))
  | reset => exact h
  | again l => rwa [tcp_retransmit_sock]
  | fin l _ hst _ =>
    refine RecvOk.send_seg ?_ _ _
    exact h.congr ⟨rfl, rfl, rfl, rfl⟩ (moves_fin hst)
  | trans _ _ ih ih' => exact ih' (ih h)

lemma RecvOk.send (data : Buf) (len : UInt16) : RecvOk peer got (tcp_send l data len).1.sock := by
  rcases tcp_send_sock l data len with he | ⟨d, timer, he⟩
  · rwa [he]
  · rw [he]
    exact (h.send_seg _ d).congr ⟨rfl, rfl, rfl, rfl⟩ (.inl rfl)

/-- What `tcp_recv` gives comes off the front of the ring. -/
lemma RecvOk.recv (maxlen : UInt16) :
    RecvOk peer (got ++ (tcp_recv l maxlen).2) (tcp_recv l maxlen).1.sock := by
  obtain ⟨h1, h2⟩ := rbuf_get_spec l.sock.rx_buf h.head h.tail maxlen.toNat
  obtain ⟨out, hout⟩ : ∃ out, (rbuf_get l.sock.rx_buf l.sock.rx_head l.sock.rx_tail TCP_RX_BUF_SIZE
    maxlen.toNat).1 = out := ⟨_, rfl⟩
  obtain ⟨rx_head, hhead⟩ : ∃ rx_head, (rbuf_get l.sock.rx_buf l.sock.rx_head l.sock.rx_tail
    TCP_RX_BUF_SIZE maxlen.toNat).2 = rx_head := ⟨_, rfl⟩
  rw [hout, hhead] at h2
  rw [hhead] at h1
  have hring : got ++ out ++ ({ l.sock with rx_head } : TcpSocket).ring = got ++ l.sock.ring := by
    rw [append_assoc]
    exact congrArg (got ++ ·) h2.symm
  have hok : RecvOk peer (got ++ out) { l.sock with rx_head } :=
    ⟨h1, h.tail, hring ▸ h.bytes, hring.symm ▸ h.place⟩
  unfold tcp_recv
  simp only [tcp_send_seg_ack, hout, hhead]
  split
  · split
    · exact hok.congr ⟨rfl, rfl, rfl, rfl⟩ (.inl rfl)
    · exact hok.congr ⟨rfl, rfl, rfl, rfl⟩ (.inl rfl)
  · split <;> exact hok

end

/-! ## Runs -/

/-- An event, and for a segment where in the stream its bytes come from. -/
structure Input where
  event : Event
  pos : Nat

def recv_step (c : Conn) (i : Input) : Option Conn := some (step c i.event)

/-- Every segment is one of the peer's. -/
def AllFromPeer (peer : Peer) (_ : Conn) (i : Input) : Prop :=
  match i.event with
  | .rx seg => FromPeer peer i.pos seg
  | _ => True

/-- Every segment is one of the peer's and meets the condition. -/
def AllSettled (peer : Peer) (c : Conn) (i : Input) : Prop :=
  match i.event with
  | .rx seg => FromPeer peer i.pos seg ∧ Settled c.got c.link.sock i.pos seg
  | _ => True

/-- The SYN that a listener has answered is the peer's. -/
def Opening.Fits (peer : Peer) : Opening → Prop
  | .active _ => True
  | .passive _ seq => seq = peer.irs

/-- An empty ring begins every stream. -/
lemma recvOk_empty (hh : s.rx_head = 0) (ht : s.rx_tail = 0) (hp : Place peer 0 s) :
    RecvOk peer [] s := by
  have hring : s.ring = [] := by simp [TcpSocket.ring, between, used, hh, ht]
  refine ⟨hh ▸ by decide, ht ▸ by decide, ?_, ?_⟩
  · rw [hring]
    exact List.nil_prefix
  · rw [hring]
    exact hp

lemma recvOk_opening {o : Opening} (h : o.Fits peer) : RecvOk peer o.conn.got o.conn.link.sock := by
  cases o with
  | active e =>
    refine RecvOk.send_seg (recvOk_empty rfl rfl (.inr (.inr ?_))) _ _
    exact ⟨.inl rfl, rfl, rfl⟩
  | passive e seq =>
    obtain rfl : seq = peer.irs := h
    refine RecvOk.send_seg (recvOk_empty rfl rfl (.inl ⟨.inl rfl, ?_⟩)) _ _
    exact num_zero.symm

lemma RecvOk.step {c : Conn} {i : Input} (h : RecvOk peer c.got c.link.sock)
    (hi : AllSettled peer c i) :
    ∃ c', recv_step c i = some c' ∧ RecvOk peer c'.got c'.link.sock := by
  refine ⟨_, rfl, ?_⟩
  obtain ⟨ev, pos⟩ := i
  cases ev with
  | rx seg => exact RecvOk.rx h hi.1 hi.2
  | send data len => exact RecvOk.send (l := { c.link with sent := [] }) h data len
  | recv maxlen => exact RecvOk.recv (l := { c.link with sent := [] }) h maxlen
  | accept => exact h.congr ⟨rfl, rfl, rfl, rfl⟩ (.inl rfl)
  | close => exact RecvOk.turns (l := { c.link with sent := [] }) h (tcp_close_turns _)
  | abort => exact h.closed
  | tick => exact RecvOk.turns (l := { c.link with sent := [] }) h (tcp_tick_turns _)

/-- When every segment is near the next byte and no SYN carries data, the bytes that
`tcp_recv` has given and the bytes in the ring are the peer's stream up to `rcv_nxt`. -/
theorem the_bytes_received_begin_the_stream {o : Opening} (ho : o.Fits peer) {is : List Input}
    (h : RunOk recv_step (AllSettled peer) o.conn is) :
    ∃ c, run recv_step o.conn is = some c ∧ UpToDate peer c.got c.link.sock := by
  have hkeep : ∀ (c : Conn) (i : Input), RecvOk peer c.got c.link.sock → AllSettled peer c i →
      ∃ c', recv_step c i = some c' ∧ RecvOk peer c'.got c'.link.sock := fun c i h hi => h.step hi
  obtain ⟨c, hc, hok⟩ := run_invariant hkeep (recvOk_opening ho) h
  exact ⟨c, hc, hok.upToDate⟩

/-! ## Runs of one small connection -/

instance (peer : Peer) (pos : Nat) (seg : Segment) : Decidable (FromPeer peer pos seg) :=
  decidable_of_iff _ (fromPeer_iff peer pos seg).symm

instance (got : List UInt8) (s : TcpSocket) (pos : Nat) (seg : Segment) :
    Decidable (Settled got s pos seg) := inferInstanceAs (Decidable (_ ∧ _))

instance (peer : Peer) (c : Conn) : ∀ i, Decidable (AllFromPeer peer c i)
  | ⟨.rx seg, pos⟩ => inferInstanceAs (Decidable (FromPeer peer pos seg))
  | ⟨.send _ _, _⟩ | ⟨.recv _, _⟩ | ⟨.accept, _⟩ | ⟨.close, _⟩ | ⟨.abort, _⟩ | ⟨.tick, _⟩ =>
      isTrue trivial

instance (peer : Peer) (c : Conn) : ∀ i, Decidable (AllSettled peer c i)
  | ⟨.rx seg, pos⟩ =>
    inferInstanceAs (Decidable (FromPeer peer pos seg ∧ Settled c.got c.link.sock pos seg))
  | ⟨.send _ _, _⟩ | ⟨.recv _, _⟩ | ⟨.accept, _⟩ | ⟨.close, _⟩ | ⟨.abort, _⟩ | ⟨.tick, _⟩ =>
      isTrue trivial

/-- A client whose peer sends three bytes. The numbers of the stream wrap after the first. -/
def small_opening : Opening := .active ⟨1, 10, 49152, 20, 80, 1000⟩

def small_peer : Peer := ⟨[1, 2, 3], 4294967294⟩

def small_input (pos : Nat) (flags : UInt8) (seq : UInt32) (data : List UInt8) : Input :=
  ⟨.rx ⟨80, 49152, seq, 1001, flags, 5000, data⟩, pos⟩

/-- The second segment comes first, the first one twice, and the FIN comes with data that
is already here. -/
def small_run : List Input :=
  [small_input 0 (TCP_SYN ||| TCP_ACK) 4294967294 [], small_input 1 TCP_ACK 0 [2, 3],
    small_input 0 TCP_ACK 4294967295 [1, 2], ⟨.recv 1, 0⟩, small_input 0 TCP_ACK 4294967295 [1, 2],
    small_input 1 (TCP_FIN ||| TCP_ACK) 0 [2, 3]]

theorem a_small_stream_is_received :
    RunOk recv_step (AllSettled small_peer) small_opening.conn small_run ∧
      ∃ c, run recv_step small_opening.conn small_run = some c ∧
        UpToDate small_peer c.got c.link.sock :=
  have h : RunOk recv_step (AllSettled small_peer) small_opening.conn small_run := by
    decide +kernel
  ⟨h, the_bytes_received_begin_the_stream (show small_opening.Fits small_peer from trivial) h⟩

/-- A SYN that is sent again with data, after the connection is established, loses the
first byte. -/
def syn_again : List Input := [small_input 0 (TCP_SYN ||| TCP_ACK) 4294967294 [],
    small_input 0 (TCP_SYN ||| TCP_ACK) 4294967294 [1, 2, 3]]

theorem data_on_a_second_syn_loses_a_byte :
    RunOk recv_step (AllFromPeer small_peer) small_opening.conn syn_again ∧
      (run recv_step small_opening.conn syn_again).map (fun c => c.got ++ c.link.sock.ring) =
        some [2, 3] := by
  decide +kernel

end uaos.tcp
