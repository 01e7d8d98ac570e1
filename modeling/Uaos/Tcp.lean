-- One TCP connection (tcp.c): the socket record, the segments it sends, and what an arriving
-- segment, a call of the owner and a tick of the clock do to it. The table of sockets and
-- the choice of the socket for a segment are built on this.
import Uaos.Disk
import Uaos.Ring
import Uaos.Serial

namespace uaos.tcp

open uaos.ring uaos.serial

/-! ## Constants and flags -/

def TCP_FIN : UInt8 := 0x01
def TCP_SYN : UInt8 := 0x02
def TCP_RST : UInt8 := 0x04
def TCP_PSH : UInt8 := 0x08
def TCP_ACK : UInt8 := 0x10

def TCP_RX_BUF_SIZE : Nat := 4096
def TCP_MSS : Nat := 1460
def TCP_RETX_SLOTS : Nat := 8
def TCP_RETX_TICKS_INIT : UInt16 := 10
def TCP_RETX_BACKOFF_MAX : UInt8 := 4
def TCP_RETX_MAX_TRIES : UInt8 := 5
def TCP_CONN_TIMEOUT_TICKS : UInt16 := 500
def TCP_TIMEWAIT_TICKS : UInt16 := 20
def TCP_CLOSEWAIT_TICKS : UInt16 := 3000
def TCP_FINWAIT2_TICKS : UInt16 := 12000

/-- One of the flags of `mask` is set. -/
def has (flags mask : UInt8) : Bool := flags &&& mask != 0

/-- The sequence number that a flag takes up. -/
def one_if (b : Bool) : Nat := if b then 1 else 0

inductive TcpState where
  | closed
  | syn_sent
  | syn_received
  | established
  | fin_wait_1
  | fin_wait_2
  | close_wait
  | last_ack
  | time_wait
  | listen
  deriving DecidableEq

/-- The fields of a TCP header that the code looks at, and the payload. -/
structure Segment where
  src_port : UInt16
  dst_port : UInt16
  seq : UInt32
  ack : UInt32
  flags : UInt8
  window : UInt16
  data : List UInt8
  deriving DecidableEq

/-- A segment on its way to an address. -/
structure Packet where
  dst_ip : UInt32
  seg : Segment
  deriving DecidableEq

/-- A segment that has been sent and is not yet acknowledged. Its length is that of the
payload copy. -/
structure TcpRetxSeg where
  seq : UInt32
  flags : UInt8
  data : List UInt8
  deriving DecidableEq

structure TcpSocket where
  state : TcpState
  local_ip : UInt32
  local_port : UInt16
  remote_ip : UInt32
  remote_port : UInt16
  snd_nxt : UInt32
  snd_una : UInt32
  rcv_nxt : UInt32
  snd_wnd : UInt16
  rx_buf : Buf
  rx_head : Nat
  rx_tail : Nat
  retx_q : Nat → TcpRetxSeg
  retx_head : Nat
  retx_nseg : Nat
  retx_timer : UInt16
  retx_count : UInt8
  fin_pending : Bool
  accepted : Bool
  conn_timer : UInt16
  conn_gen : UInt32

/-- A socket after it has been cleared. -/
def TcpSocket.zero : TcpSocket where
  state := .closed
  local_ip := 0
  local_port := 0
  remote_ip := 0
  remote_port := 0
  snd_nxt := 0
  snd_una := 0
  rcv_nxt := 0
  snd_wnd := 0
  rx_buf := fun _ => 0
  rx_head := 0
  rx_tail := 0
  retx_q := fun _ => ⟨0, 0, []⟩
  retx_head := 0
  retx_nseg := 0
  retx_timer := 0
  retx_count := 0
  fin_pending := false
  accepted := false
  conn_timer := 0
  conn_gen := 0

/-- The bytes in the receive ring, oldest first. -/
def TcpSocket.ring (s : TcpSocket) : List UInt8 :=
  between s.rx_buf TCP_RX_BUF_SIZE s.rx_head s.rx_tail

/-- The retransmit queue, oldest first. -/
def TcpSocket.queue (s : TcpSocket) : List TcpRetxSeg :=
  items s.retx_q TCP_RETX_SLOTS s.retx_head s.retx_nseg

/-- A socket and the packets that have been handed to the IP layer for it. -/
structure Link where
  sock : TcpSocket
  sent : List Packet

/-- The comparison of sequence numbers. -/
def seq_gt (a b : UInt32) : Bool := 0 < ahead a b

/-! ## The receive ring -/

/-- Puts bytes in until the ring is full. Gives the new buffer, the new tail and how many
bytes went in. -/
def rbuf_put (buf : Buf) (tail head size : Nat) : List UInt8 → Buf × Nat × Nat
  | [] => (buf, tail, 0)
  | b :: bs =>
    let next := (tail + 1) % size
    if next = head then (buf, tail, 0)
    else
      let (buf', tail', n) := rbuf_put (Function.update buf tail b) next head size bs
      (buf', tail', n + 1)

/-- Takes up to `maxlen` bytes out. Gives them and the new head. -/
def rbuf_get (buf : Buf) (head tail size : Nat) : Nat → List UInt8 × Nat
  | 0 => ([], head)
  | maxlen + 1 =>
    if head = tail then ([], head)
    else
      let (out, head') := rbuf_get buf ((head + 1) % size) tail size maxlen
      (buf head :: out, head')

def rbuf_used (head tail size : Nat) : Nat := used head tail size

def rbuf_free (head tail size : Nat) : Nat := size - 1 - rbuf_used head tail size

/-! ## Sending -/

/-- Sends a segment with the sequence number `seq`. -/
def tcp_emit (l : Link) (seq : UInt32) (flags : UInt8) (data : List UInt8) : Link :=
  let s := l.sock
  { l with sent := l.sent ++ [{
      dst_ip := s.remote_ip
      seg := {
        src_port := s.local_port
        dst_port := s.remote_port
        seq
        ack := if has flags TCP_ACK then s.rcv_nxt else 0
        flags
        window := (rbuf_free s.rx_head s.rx_tail TCP_RX_BUF_SIZE).toUInt16
        data := data.take TCP_MSS } }] }

/-- The copy of a segment goes behind the others, and the timer starts if it stands. -/
def enqueue (s : TcpSocket) (r : TcpRetxSeg) : TcpSocket := { s with
    retx_q := Function.update s.retx_q ((s.retx_head + s.retx_nseg) % TCP_RETX_SLOTS) r
    retx_nseg := s.retx_nseg + 1
    retx_timer := if s.retx_timer = 0 then TCP_RETX_TICKS_INIT else s.retx_timer }

/-- Sends a new segment at `snd_nxt` and queues it unless it is a bare acknowledgement. -/
def tcp_send_seg (l : Link) (flags : UInt8) (data : List UInt8) : Link :=
  let data := data.take TCP_MSS
  let seq_before := l.sock.snd_nxt
  let l := tcp_emit l seq_before flags data
  let snd_nxt := seq_before + UInt32.ofNat (one_if (has flags (TCP_SYN ||| TCP_FIN)))
    + UInt32.ofNat data.length
  let s := { l.sock with snd_nxt }
  { l with
    sock :=
      if has flags (TCP_SYN ||| TCP_FIN) || 0 < data.length then
        enqueue s { seq := seq_before, flags, data }
      else s }

/-- `tcp_send_seg` as far as the new `snd_nxt`. The calls of the owner run with interrupts on, so a
segment or a tick can come behind it. -/
def send_seg_front (l : Link) (flags : UInt8) (data : List UInt8) : Link :=
  let data := data.take TCP_MSS
  { tcp_emit l l.sock.snd_nxt flags data with
    sock.snd_nxt := l.sock.snd_nxt + UInt32.ofNat (one_if (has flags (TCP_SYN ||| TCP_FIN)))
      + UInt32.ofNat data.length }

/-- The rest of `tcp_send_seg`: the copy is queued. -/
def send_seg_back (seq_before : UInt32) (flags : UInt8) (data : List UInt8) (l : Link) : Link :=
  let data := data.take TCP_MSS
  if has flags (TCP_SYN ||| TCP_FIN) || 0 < data.length then
    { l with sock := enqueue l.sock { seq := seq_before, flags, data } }
  else l

lemma tcp_send_seg_parts (l : Link) (flags : UInt8) (data : List UInt8) :
    tcp_send_seg l flags data =
      send_seg_back l.sock.snd_nxt flags data (send_seg_front l flags data) := by
  unfold tcp_send_seg send_seg_back
  dsimp only
  split <;> rfl

/-- Sends the oldest segment of the queue again. -/
def tcp_retransmit (l : Link) : Link :=
  if l.sock.retx_nseg = 0 then l
  else
    let r := l.sock.retx_q l.sock.retx_head
    tcp_emit l r.seq r.flags r.data

/-! ## Segments that come in -/

/-- Takes stream data in. Bytes that are already here are cut off, a segment that leaves a
gap is dropped, and a full ring takes what fits. -/
def tcp_rx_data (l : Link) (seq : UInt32) (data : List UInt8) : Link :=
  let s := l.sock
  let dist := ahead seq s.rcv_nxt
  let skip := (s.rcv_nxt - seq).toNat
  if dist < 0 ∧ data.length ≤ skip then tcp_send_seg l TCP_ACK []
  else if 0 < dist then tcp_send_seg l TCP_ACK []
  else
    let data := if dist < 0 then data.drop skip else data
    let (rx_buf, rx_tail, n) := rbuf_put s.rx_buf s.rx_tail s.rx_head TCP_RX_BUF_SIZE data
    let s := { s with rx_buf, rx_tail, rcv_nxt := s.rcv_nxt + UInt32.ofNat n }
    tcp_send_seg { l with sock := s } TCP_ACK []

/-- The sequence number behind a queued segment. -/
def seq_end (r : TcpRetxSeg) : UInt32 :=
  r.seq + UInt32.ofNat r.data.length + UInt32.ofNat (one_if (has r.flags TCP_SYN))
    + UInt32.ofNat (one_if (has r.flags TCP_FIN))

/-- Drops the queued segments that an acknowledgement covers. Gives the new head and the
new number of segments. -/
def retire (q : Nat → TcpRetxSeg) (ack : UInt32) : Nat → Nat → Nat × Nat
  | head, 0 => (head, 0)
  | head, n + 1 =>
    if seq_gt (seq_end (q head)) ack then (head, n + 1)
    else retire q ack ((head + 1) % TCP_RETX_SLOTS) n

/-- What a segment with the ACK flag does before anything else. -/
def rx_ack (s : TcpSocket) (seg : Segment) : TcpSocket :=
  let s :=
    if seq_gt seg.ack s.snd_una && !seq_gt seg.ack s.snd_nxt then
      let (retx_head, retx_nseg) := retire s.retx_q seg.ack s.retx_head s.retx_nseg
      { s with
        snd_una := seg.ack
        retx_head
        retx_nseg
        retx_timer := if seg.ack = s.snd_nxt then 0 else TCP_RETX_TICKS_INIT
        retx_count := 0 }
    else s
  { s with snd_wnd := seg.window }

/-- The segment has the FIN flag and ends where the next byte is awaited. -/
def fin_in_order (s : TcpSocket) (seg : Segment) : Bool :=
  has seg.flags TCP_FIN && seg.seq + UInt32.ofNat seg.data.length == s.rcv_nxt

/-- A segment with data is taken in. -/
def rx_payload (l : Link) (seg : Segment) : Link :=
  if 0 < seg.data.length then tcp_rx_data l seg.seq seg.data else l

/-- The acknowledgement covers all that has been sent. -/
def acks_all (s : TcpSocket) (seg : Segment) : Bool := has seg.flags TCP_ACK && seg.ack == s.snd_nxt

/-- In either FIN_WAIT state the FIN of the peer leads to TIME_WAIT. -/
def rx_last_fin (l : Link) (seg : Segment) : Link :=
  if fin_in_order l.sock seg then
    let l := tcp_send_seg { l with sock.rcv_nxt := l.sock.rcv_nxt + 1 } TCP_ACK []
    { l with sock.state := .time_wait, sock.conn_timer := 0 }
  else l

/-- The transitions of `tcp_rx` for the socket that the segment belongs to. -/
def rx_switch (l : Link) (seg : Segment) : Link :=
  match l.sock.state with
  | .syn_sent =>
    if seg.flags &&& (TCP_SYN ||| TCP_ACK) = TCP_SYN ||| TCP_ACK then
      tcp_send_seg { l with sock.rcv_nxt := seg.seq + 1, sock.state := .established } TCP_ACK []
    else l
  | .syn_received =>
    if acks_all l.sock seg then { l with sock.state := .established }
    else if has seg.flags TCP_SYN then tcp_retransmit l
    else l
  | .established =>
    let l := rx_payload l seg
    if fin_in_order l.sock seg then
      tcp_send_seg { l with
        sock.rcv_nxt := l.sock.rcv_nxt + 1
        sock.state := .close_wait
        sock.conn_timer := 0 } TCP_ACK []
    else l
  | .fin_wait_1 =>
    let l := rx_payload l seg
    let l :=
      if acks_all l.sock seg then { l with sock.state := .fin_wait_2, sock.conn_timer := 0 } else l
    rx_last_fin l seg
  | .fin_wait_2 =>
    let l := rx_payload l seg
    let l := if 0 < seg.data.length then { l with sock.conn_timer := 0 } else l
    rx_last_fin l seg
  | .close_wait =>
    if 0 < seg.data.length then tcp_rx_data l seg.seq seg.data
    else if has seg.flags TCP_FIN then tcp_send_seg l TCP_ACK []
    else l
  | .last_ack => if acks_all l.sock seg then { l with sock.state := .closed } else l
  | .time_wait =>
    if has seg.flags TCP_FIN then
      let l := tcp_send_seg l TCP_ACK []
      { l with sock.conn_timer := 0 }
    else l
  | .closed => l
  | .listen => l

/-- What `tcp_rx` does to the socket that the segment belongs to. -/
def rx_sock (l : Link) (seg : Segment) : Link :=
  let l := if has seg.flags TCP_ACK then { l with sock := rx_ack l.sock seg } else l
  if has seg.flags TCP_RST then { l with sock.state := .closed } else rx_switch l seg

/-- The socket behind the ACK part of `tcp_rx`. -/
def acked_sock (s : TcpSocket) (seg : Segment) : TcpSocket :=
  if has seg.flags TCP_ACK then rx_ack s seg else s

lemma rx_sock_eq (l : Link) (seg : Segment) : rx_sock l seg =
      if has seg.flags TCP_RST then
        { l with sock := { acked_sock l.sock seg with state := .closed } }
      else rx_switch { l with sock := acked_sock l.sock seg } seg := by
  unfold rx_sock acked_sock
  cases has seg.flags TCP_ACK <;> rfl

/-- The ACK part keeps everything but what it says about the other half. -/
lemma acked_sock_eq (s : TcpSocket) (seg : Segment) : ∃ una head nseg timer count wnd,
    acked_sock s seg = { s with
      snd_una := una, retx_head := head, retx_nseg := nseg, retx_timer := timer,
      retx_count := count, snd_wnd := wnd } := by
  unfold acked_sock rx_ack
  repeat' split
  all_goals exact ⟨_, _, _, _, _, _, rfl⟩

lemma acked_sock_state_nxt (s : TcpSocket) (seg : Segment) :
    (acked_sock s seg).state = s.state ∧ (acked_sock s seg).snd_nxt = s.snd_nxt := by
  obtain ⟨_, _, _, _, _, _, he⟩ := acked_sock_eq s seg
  exact he ▸ ⟨rfl, rfl⟩

lemma has_of_both {flags : UInt8} (h : flags &&& (TCP_SYN ||| TCP_ACK) = TCP_SYN ||| TCP_ACK) :
    has flags TCP_SYN ∧ has flags TCP_ACK := by
  have hand (b : UInt8) (hb : (TCP_SYN ||| TCP_ACK) &&& b = b) : flags &&& b = b := by
    rw [← hb, ← UInt8.and_assoc, h]
  unfold has
  rw [hand TCP_SYN rfl, hand TCP_ACK rfl]
  decide

/-- A segment for the addresses and ports of this connection. A closed socket is never
found, and a SYN ends a connection that is only waiting out its time. -/
def tcp_rx (l : Link) (seg : Segment) : Link :=
  if l.sock.state = .closed then l
  else if has seg.flags TCP_SYN ∧ l.sock.state = .time_wait then { l with sock.state := .closed }
  else rx_sock l seg

/-! ## Calls of the owner -/

/-- Sends up to `len` bytes. Gives how many were taken. -/
def tcp_send (l : Link) (data : Buf) (len : UInt16) : Link × Nat :=
  let s := l.sock
  if s.state ≠ .established ∧ s.state ≠ .close_wait then (l, 0)
  else if len = 0 ∨ s.fin_pending then (l, 0)
  else if TCP_RETX_SLOTS ≤ s.retx_nseg then (l, 0)
  else
    let in_flight := (s.snd_nxt - s.snd_una).toNat
    if s.snd_wnd.toNat ≤ in_flight then (l, 0)
    else
      let avail := s.snd_wnd.toNat - in_flight
      let len := min (min len.toNat avail) TCP_MSS
      let l := tcp_send_seg l (TCP_PSH ||| TCP_ACK) (slice data 0 len)
      let l := if l.sock.state = .close_wait then { l with sock.conn_timer := 0 } else l
      (l, len)

/-- Takes up to `maxlen` bytes out of the ring, and tells the peer of the room. -/
def tcp_recv (l : Link) (maxlen : UInt16) : Link × List UInt8 :=
  let s := l.sock
  let free_before := rbuf_free s.rx_head s.rx_tail TCP_RX_BUF_SIZE
  let (out, rx_head) := rbuf_get s.rx_buf s.rx_head s.rx_tail TCP_RX_BUF_SIZE maxlen.toNat
  let s := { s with rx_head }
  let s := if 0 < out.length ∧ s.state = .close_wait then { s with conn_timer := 0 } else s
  let l := { l with sock := s }
  let l :=
    if 0 < out.length ∧ free_before < TCP_RX_BUF_SIZE ∧ s.state ≠ .closed ∧ s.state ≠ .listen then
      tcp_send_seg l TCP_ACK []
    else l
  (l, out)

/-- The state after this side's FIN. -/
def fin_state (st : TcpState) : TcpState := if st = .close_wait then .last_ack else .fin_wait_1

/-- Closes the connection. The FIN waits while something is not acknowledged. -/
def tcp_close (l : Link) : Link :=
  let s := l.sock
  if s.state = .established ∨ s.state = .syn_received ∨ s.state = .close_wait then
    if s.snd_una ≠ s.snd_nxt then { l with sock.fin_pending := true }
    else tcp_send_seg { l with sock.state := fin_state s.state } (TCP_FIN ||| TCP_ACK) []
  else { l with sock.state := .closed }

def tcp_abort (l : Link) : Link := { l with sock.state := .closed }

/-! ## The clock -/

/-- The deferred FIN, the retransmit timer and its limit. -/
def tcp_tick_retx (l : Link) : Link :=
  let s := l.sock
  if s.fin_pending ∧ s.snd_una = s.snd_nxt ∧ (s.state = .established ∨ s.state = .close_wait) then
    tcp_send_seg { l with sock.fin_pending := false, sock.state := fin_state s.state }
      (TCP_FIN ||| TCP_ACK) []
  else if s.snd_una = s.snd_nxt then { l with sock.retx_timer := 0, sock.retx_count := 0 }
  else
    let timer := (if s.retx_timer = 0 then TCP_RETX_TICKS_INIT else s.retx_timer) - 1
    if 0 < timer then { l with sock.retx_timer := timer }
    else
      let count := s.retx_count + 1
      let l := { l with sock.retx_timer := timer, sock.retx_count := count }
      if TCP_RETX_MAX_TRIES < count then
        let l := tcp_send_seg l TCP_RST []
        { l with sock.state := .closed }
      else
        let l := tcp_retransmit l
        let shift := if count < TCP_RETX_BACKOFF_MAX then count else TCP_RETX_BACKOFF_MAX
        { l with sock.retx_timer := TCP_RETX_TICKS_INIT <<< shift.toUInt16 }

/-- One tick for one socket. -/
def tcp_tick (l : Link) : Link :=
  let timer := l.sock.conn_timer + 1
  match l.sock.state with
  | .time_wait =>
    if l.sock.conn_timer < TCP_TIMEWAIT_TICKS then { l with sock.conn_timer := timer }
    else { l with sock.state := .closed }
  | .syn_sent | .syn_received =>
    let l := { l with sock.conn_timer := timer }
    if TCP_CONN_TIMEOUT_TICKS ≤ timer then { l with sock.state := .closed }
    else tcp_tick_retx l
  | .fin_wait_2 =>
    let l := { l with sock.conn_timer := timer }
    if TCP_FINWAIT2_TICKS ≤ timer then { l with sock.state := .closed } else l
  | .close_wait =>
    let l := { l with sock.conn_timer := timer }
    let l :=
      if TCP_CLOSEWAIT_TICKS ≤ timer then tcp_close { l with sock.conn_timer := 0 } else l
    tcp_tick_retx l
  | .established | .fin_wait_1 | .last_ack => tcp_tick_retx l
  | .closed | .listen => l

/-! ## New connections -/

/-- What a new connection is given: its generation, its addresses and its first sequence
number. -/
structure Endpoint where
  conn_gen : UInt32
  local_ip : UInt32
  local_port : UInt16
  remote_ip : UInt32
  remote_port : UInt16
  isn : UInt32
  deriving DecidableEq

def Endpoint.sock (e : Endpoint) : TcpSocket := { TcpSocket.zero with
    conn_gen := e.conn_gen
    local_ip := e.local_ip
    local_port := e.local_port
    remote_ip := e.remote_ip
    remote_port := e.remote_port
    snd_nxt := e.isn
    snd_una := e.isn }

/-- The socket that `tcp_connect` makes, with its SYN. -/
def open_active (e : Endpoint) : Link :=
  tcp_send_seg { sock := { e.sock with state := .syn_sent, accepted := true }, sent := [] } TCP_SYN
    []

/-- The socket that a SYN with the sequence number `seq` makes at a listener. -/
def open_passive (e : Endpoint) (seq : UInt32) : Link :=
  tcp_send_seg { sock := { e.sock with state := .syn_received, rcv_nxt := seq + 1 }, sent := [] }
    (TCP_SYN ||| TCP_ACK) []

/-! ## Runs of one connection -/

/-- What can happen to a connection. -/
inductive Event where
  | rx (seg : Segment)
  | send (data : Buf) (len : UInt16)
  | recv (maxlen : UInt16)
  | accept
  | close
  | abort
  | tick

/-- A connection with its history: the packets of the last step, the bytes that `tcp_send`
has taken so far and the bytes that `tcp_recv` has given so far. -/
structure Conn where
  link : Link
  taken : List UInt8
  got : List UInt8

/-- A call of the owner is one step: no segment and no tick comes inside it. -/
def step (c : Conn) (e : Event) : Conn :=
  let l := { c.link with sent := [] }
  match e with
  | .rx seg => { c with link := tcp_rx l seg }
  | .send data len =>
    let (l, n) := tcp_send l data len
    { c with link := l, taken := c.taken ++ slice data 0 n }
  | .recv maxlen =>
    let (l, out) := tcp_recv l maxlen
    { c with link := l, got := c.got ++ out }
  | .accept => { c with link := { l with sock.accepted := true } }
  | .close => { c with link := tcp_close l }
  | .abort => { c with link := tcp_abort l }
  | .tick => { c with link := tcp_tick l }

/-- How a connection comes to be. -/
inductive Opening where
  | active (e : Endpoint)
  | passive (e : Endpoint) (seq : UInt32)

/-- The first sequence number of this side. -/
def Opening.isn : Opening → UInt32
  | .active e => e.isn
  | .passive e _ => e.isn

def Opening.conn : Opening → Conn
  | .active e => ⟨open_active e, [], []⟩
  | .passive e seq => ⟨open_passive e seq, [], []⟩

/-! ## What sending leaves alone -/

@[simp] lemma tcp_emit_sock (l : Link) (seq : UInt32) (flags : UInt8) (data : List UInt8) :
    (tcp_emit l seq flags data).sock = l.sock := rfl

/-- A segment that takes up no sequence numbers is sent and forgotten. -/
lemma tcp_send_seg_bare {l : Link} {flags : UInt8} (h : has flags (TCP_SYN ||| TCP_FIN) = false) :
    tcp_send_seg l flags [] = tcp_emit l l.sock.snd_nxt flags [] := by
  simp [tcp_send_seg, tcp_emit, h, one_if]

@[simp] lemma tcp_send_seg_ack (l : Link) :
    tcp_send_seg l TCP_ACK [] = tcp_emit l l.sock.snd_nxt TCP_ACK [] :=
      tcp_send_seg_bare (by decide)

@[simp] lemma tcp_send_seg_rst (l : Link) :
    tcp_send_seg l TCP_RST [] = tcp_emit l l.sock.snd_nxt TCP_RST [] :=
      tcp_send_seg_bare (by decide)

@[simp] lemma tcp_retransmit_sock (l : Link) : (tcp_retransmit l).sock = l.sock := by
  unfold tcp_retransmit
  split <;> rfl

lemma tcp_send_seg_state (l : Link) (flags : UInt8) (data : List UInt8) :
    (tcp_send_seg l flags data).sock.state = l.sock.state := by
  unfold tcp_send_seg
  dsimp only
  split <;> rfl

/-- What `tcp_send` does to the socket: nothing, or one segment goes out and the timer of the
connection may start again. -/
lemma tcp_send_sock (l : Link) (data : Buf) (len : UInt16) :
    (tcp_send l data len).1 = l ∨ ∃ d timer, (tcp_send l data len).1.sock =
      { (tcp_send_seg l (TCP_PSH ||| TCP_ACK) d).sock with conn_timer := timer } := by
  unfold tcp_send
  dsimp only
  split
  · exact .inl rfl
  split
  · exact .inl rfl
  split
  · exact .inl rfl
  split
  · exact .inl rfl
  generalize slice data 0 _ = d
  split
  · exact .inr ⟨d, 0, rfl⟩
  · exact .inr ⟨d, (tcp_send_seg l (TCP_PSH ||| TCP_ACK) d).sock.conn_timer, rfl⟩

lemma tcp_send_state (l : Link) (data : Buf) (len : UInt16) :
    (tcp_send l data len).1.sock.state = l.sock.state := by
  rcases tcp_send_sock l data len with he | ⟨d, timer, he⟩
  · rw [he]
  · rw [he]
    exact tcp_send_seg_state l _ d

lemma tcp_send_idle {l : Link} (h : l.sock.state ≠ .established ∧ l.sock.state ≠ .close_wait)
    (data : Buf) (len : UInt16) : tcp_send l data len = (l, 0) := by
  unfold tcp_send
  exact if_pos h

/-! ## What a close and a tick are made of -/

/-- The steps that `tcp_close` and `tcp_tick` take: a timer or a flag is set, the socket is closed,
a RST goes out, the oldest segment goes out again, or the FIN goes out behind all that has been
acknowledged. -/
inductive Turns : Link → Link → Prop
  | mark (l : Link) (retx_timer : UInt16) (retx_count : UInt8) (conn_timer : UInt16)
      (fin_pending : Bool) :
      Turns l { l with sock := { l.sock with retx_timer, retx_count, conn_timer, fin_pending } }
  | shut (l : Link) (conn_timer : UInt16) :
      Turns l { l with sock := { l.sock with state := .closed, conn_timer } }
  | reset (l : Link) : Turns l (tcp_emit l l.sock.snd_nxt TCP_RST [])
  | again (l : Link) : Turns l (tcp_retransmit l)
  | fin (l : Link) (fin_pending : Bool)
      (h : l.sock.state = .established ∨ l.sock.state = .syn_received ∨ l.sock.state = .close_wait)
      (hu : l.sock.snd_una = l.sock.snd_nxt) :
      Turns l (tcp_send_seg { l with
        sock := { l.sock with fin_pending, state := fin_state l.sock.state } }
          (TCP_FIN ||| TCP_ACK) [])
  | trans {l l' l'' : Link} : Turns l l' → Turns l' l'' → Turns l l''

lemma tcp_close_turns (l : Link) : Turns l (tcp_close l) := by
  unfold tcp_close
  dsimp only
  split
  · rename_i hst
    split
    · exact .mark l _ _ _ _
    · rename_i hu
      exact .fin l _ hst (Decidable.not_not.mp hu)
  · exact .shut l _

lemma tcp_tick_retx_turns (l : Link) : Turns l (tcp_tick_retx l) := by
  unfold tcp_tick_retx
  dsimp only
  split
  · rename_i hf
    exact .fin l _ (hf.2.2.imp_right .inr) hf.2.1
  split
  · exact .mark l _ _ _ _
  generalize (if l.sock.retx_timer = 0 then TCP_RETX_TICKS_INIT else l.sock.retx_timer) - 1 = timer
  split
  · exact .mark l _ _ _ _
  split
  · rw [tcp_send_seg_rst]
    exact .trans (.mark l _ _ _ _) (.trans (.reset _) (.shut _ _))
  · exact .trans (.mark l _ _ _ _) (.trans (.again _) (.mark _ _ _ _ _))

lemma tcp_tick_turns (l : Link) : Turns l (tcp_tick l) := by
  unfold tcp_tick
  dsimp only
  split
  · split
    · exact .mark l _ _ _ _
    · exact .shut l _
  · split
    · exact .shut l _
    · exact .trans (.mark l _ _ _ _) (tcp_tick_retx_turns _)
  · split
    · exact .shut l _
    · exact .trans (.mark l _ _ _ _) (tcp_tick_retx_turns _)
  · split
    · exact .shut l _
    · exact .mark l _ _ _ _
  · refine .trans ?_ (tcp_tick_retx_turns _)
    split
    · exact .trans (.mark l _ _ _ _) (tcp_close_turns _)
    · exact .mark l _ _ _ _
  · exact tcp_tick_retx_turns l
  · exact tcp_tick_retx_turns l
  · exact tcp_tick_retx_turns l
  · exact .mark l _ _ _ _
  · exact .mark l _ _ _ _

/-! ## What data does -/

/-- The socket after the ring has taken what it can of `data`. -/
def take_in (s : TcpSocket) (data : List UInt8) : TcpSocket :=
  let (rx_buf, rx_tail, n) := rbuf_put s.rx_buf s.rx_tail s.rx_head TCP_RX_BUF_SIZE data
  { s with rx_buf, rx_tail, rcv_nxt := s.rcv_nxt + UInt32.ofNat n }

lemma tcp_rx_data_sock (l : Link) (seq : UInt32) (data : List UInt8) :
    (tcp_rx_data l seq data).sock =
      if ahead seq l.sock.rcv_nxt < 0 ∧ data.length ≤ (l.sock.rcv_nxt - seq).toNat ∨
          0 < ahead seq l.sock.rcv_nxt then l.sock
      else take_in l.sock
        (if ahead seq l.sock.rcv_nxt < 0 then data.drop (l.sock.rcv_nxt - seq).toNat
          else data) := by
  unfold tcp_rx_data
  simp only [tcp_send_seg_ack]
  split
  · rename_i h
    rw [if_pos (.inl h)]
    rfl
  rename_i h1
  split
  · rename_i h2
    rw [if_pos (.inr h2)]
    rfl
  · rename_i h2
    rw [if_neg (not_or.mpr ⟨h1, h2⟩)]
    rfl

lemma tcp_rx_data_state (l : Link) (seq : UInt32) (data : List UInt8) :
    (tcp_rx_data l seq data).sock.state = l.sock.state := by
  rw [tcp_rx_data_sock]
  split <;> rfl

lemma rx_payload_state (l : Link) (seg : Segment) :
    (rx_payload l seg).sock.state = l.sock.state := by
  unfold rx_payload
  split
  · exact tcp_rx_data_state _ _ _
  · rfl

end uaos.tcp
