-- The table of TCP sockets (tcp.c): which socket a segment goes to, new connections, and
-- the calls that name a socket by its index. Every operation leaves the generation of every
-- slot alone, except that of the slot that it gives to a new connection.
import Uaos.Ip
import Uaos.Tcp

namespace uaos.tcp

open uaos.net

variable {seg : Segment} {port : UInt16} {dst_ip src_ip : UInt32}

/-! ## The table -/

abbrev TCP_MAX_SOCKETS : Nat := 8

abbrev Slot := Fin TCP_MAX_SOCKETS

/-- The sockets, the counters beside them, and the packets handed to the IP layer. -/
structure Stack where
  socks : Slot → TcpSocket
  isn_counter : UInt32
  conn_gen_next : UInt32
  eph_next : UInt16
  local_ip : UInt32
  sent : List Packet

/-- The table at the start. -/
def Stack.boot (local_ip : UInt32) : Stack where
  socks := fun _ => TcpSocket.zero
  isn_counter := 0x12345678
  conn_gen_next := 1
  eph_next := 49152
  local_ip
  sent := []

namespace Stack

/-- What a function of one socket does to the table. -/
def on (st : Stack) (i : Slot) (f : Link → Link) : Stack :=
  let l := f ⟨st.socks i, st.sent⟩
  { st with socks := Function.update st.socks i l.sock, sent := l.sent }

def slots : List Slot := List.finRange TCP_MAX_SOCKETS

/-- The socket with the number `sock`, if there is one. -/
def slot_of (sock : Int) : Option Slot := slots.find? fun i => (i.val : Int) = sock

/-- The generation for a new connection is never 0. -/
def next_conn_gen (st : Stack) : UInt32 × UInt32 :=
  let g := st.conn_gen_next
  (g, if g + 1 = 0 then 1 else g + 1)

def find_sock (st : Stack) (src_ip : UInt32) (src_port dst_port : UInt16) (want_listen : Bool) :
    Option Slot :=
  slots.find? fun i =>
    let s := st.socks i
    s.state ≠ .closed ∧ (want_listen ∧ s.state = .listen ∧ s.local_port = dst_port ∨
        !want_listen ∧ s.remote_ip = src_ip ∧ s.remote_port = src_port ∧ s.local_port = dst_port)

def alloc_sock (st : Stack) : Option Slot := slots.find? fun i => (st.socks i).state = .closed

/-! ## Segments that come in -/

def TCP_HDR_LEN : Nat := 20

/-- The header of a segment. -/
def parse (pkt : Buf) (len : Nat) : Option Segment :=
  let data_off := (pkt 12).toNat / 16 * 4
  if len < TCP_HDR_LEN then none
  else if data_off < TCP_HDR_LEN ∨ len < data_off then none
  else some {
    src_port := (net_ntohs pkt 0).toUInt16
    dst_port := (net_ntohs pkt 2).toUInt16
    seq := (net_ntohl pkt 4).toUInt32
    ack := (net_ntohl pkt 8).toUInt32
    flags := pkt 13
    window := (net_ntohs pkt 14).toUInt16
    data := slice pkt data_off (len - data_off) }

/-- A RST for a segment that belongs to no socket. -/
def tcp_send_reset (st : Stack) (dst_ip : UInt32) (dst_port src_port : UInt16) (seq ack : UInt32)
    (flags : UInt8) : Stack :=
  { st with sent := st.sent ++ [⟨dst_ip, ⟨src_port, dst_port, seq, ack, flags, 0, []⟩⟩] }

/-- A segment that belongs to no socket is refused. -/
def refuse (st : Stack) (src_ip dst_ip : UInt32) (seg : Segment) : Stack :=
  if has seg.flags TCP_RST = false ∧ dst_ip = st.local_ip then
    if has seg.flags TCP_ACK then
      st.tcp_send_reset src_ip seg.src_port seg.dst_port seg.ack 0 TCP_RST
    else
      st.tcp_send_reset src_ip seg.src_port seg.dst_port 0
        (seg.seq + UInt32.ofNat seg.data.length
          + UInt32.ofNat (one_if (has seg.flags (TCP_SYN ||| TCP_FIN))))
        (TCP_RST ||| TCP_ACK)
  else st

/-- A new connection in the slot `i`, which `opened` sets up. -/
def install (st : Stack) (i : Slot) (local_port : UInt16) (remote_ip : UInt32)
    (remote_port : UInt16)
    (opened : Endpoint → Link) : Stack :=
  let (conn_gen, conn_gen_next) := st.next_conn_gen
  let l := opened ⟨conn_gen, st.local_ip, local_port, remote_ip, remote_port, st.isn_counter⟩
  { st with
    socks := Function.update st.socks i l.sock
    sent := st.sent ++ l.sent
    conn_gen_next
    isn_counter := st.isn_counter + 0x10000 }

/-- The slot for the connection that a segment opens at a listener. -/
def spawn_slot (st : Stack) (src_ip : UInt32) (seg : Segment) : Option Slot :=
  if has seg.flags TCP_SYN ∧ (st.find_sock src_ip seg.src_port seg.dst_port true).isSome then
    st.alloc_sock
  else none

/-- A segment that belongs to no connection. -/
def rx_unmatched (st : Stack) (src_ip dst_ip : UInt32) (seg : Segment) : Stack :=
  match st.spawn_slot src_ip seg with
  | some i => st.install i seg.dst_port src_ip seg.src_port fun e => open_passive e seg.seq
  | none => st.refuse src_ip dst_ip seg

/-- A SYN for a connection that is only waiting out its time. -/
def reopens (st : Stack) (i : Slot) (seg : Segment) : Prop :=
  has seg.flags TCP_SYN ∧ (st.socks i).state = .time_wait

instance (st : Stack) (i : Slot) (seg : Segment) : Decidable (st.reopens i seg) :=
  inferInstanceAs (Decidable (_ ∧ _))

def rx_segment (st : Stack) (src_ip dst_ip : UInt32) (seg : Segment) : Stack :=
  match st.find_sock src_ip seg.src_port seg.dst_port false with
  | some i =>
    if st.reopens i seg then (st.on i tcp_abort).rx_unmatched src_ip dst_ip seg
    else st.on i (rx_sock · seg)
  | none => st.rx_unmatched src_ip dst_ip seg

def tcp_rx (st : Stack) (src_ip dst_ip : UInt32) (pkt : Buf) (len : Nat) : Stack :=
  match parse pkt len with
  | some seg => st.rx_segment src_ip dst_ip seg
  | none => st

/-! ## New connections -/

def port_in_use (socks : Slot → TcpSocket) (port : UInt16) : Bool :=
  slots.any fun i => (socks i).state ≠ .closed ∧ (socks i).local_port = port

/-- The next port of the dynamic range that no socket has, and where to go on. -/
def pick_ephemeral_port (socks : Slot → TcpSocket) : Nat → UInt16 → UInt16 × UInt16
  | 0, next => (next, next)
  | tries + 1, cand =>
    let next := if cand + 1 < 49152 then 49152 else cand + 1
    if port_in_use socks cand then pick_ephemeral_port socks tries next else (cand, next)

/-- Opens a connection and gives its slot. -/
def tcp_connect (st : Stack) (dst_ip : UInt32) (dst_port local_port : UInt16) :
    Stack × Option Slot :=
  match st.alloc_sock with
  | none => (st, none)
  | some i =>
    -- The slot is already taken, without a port, while a port is looked for.
    let taken := Function.update st.socks i { TcpSocket.zero with state := .syn_sent }
    let (port, eph_next) :=
      if local_port ≠ 0 then (local_port, st.eph_next)
      else pick_ephemeral_port taken 16384 st.eph_next
    ({ st with eph_next }.install i port dst_ip dst_port open_active, some i)

/-! ## A connect in parts

`tcp_connect` runs with interrupts on, so a packet, a tick or another task can come between its
stores. -/

/-- The slot is cleared and has its generation, but still counts as closed. -/
def claim (st : Stack) (i : Slot) : Stack :=
  let (conn_gen, conn_gen_next) := st.next_conn_gen
  { st with socks := Function.update st.socks i { TcpSocket.zero with conn_gen }, conn_gen_next }

/-- The slot is taken, and has no port yet. -/
def hold (st : Stack) (i : Slot) : Stack := { st with
    socks := Function.update st.socks i
      { st.socks i with state := .syn_sent, local_ip := st.local_ip } }

/-- The next candidate for a port. -/
def bump (st : Stack) : Stack :=
  { st with eph_next := if st.eph_next + 1 < 49152 then 49152 else st.eph_next + 1 }

/-- The rest, with the port that was found. -/
def finish (st : Stack) (i : Slot) (local_port : UInt16) (dst_ip : UInt32) (dst_port : UInt16) :
    Stack :=
  { st.on i fun l => tcp_send_seg { l with sock := { l.sock with
      local_port, remote_ip := dst_ip, remote_port := dst_port, accepted := true
      snd_nxt := st.isn_counter, snd_una := st.isn_counter } } TCP_SYN [] with
    isn_counter := st.isn_counter + 0x10000 }

/-- The parts in a row are the call, here with the first candidate for a port. -/
lemma tcp_connect_parts {st : Stack} {i : Slot} (hi : st.alloc_sock = some i)
    (hfree : port_in_use ((st.claim i).hold i).socks st.eph_next = false) (dst_ip : UInt32)
    (dst_port : UInt16) : st.tcp_connect dst_ip dst_port 0 =
      (((st.claim i).hold i).bump.finish i st.eph_next dst_ip dst_port, some i) := by
  have hport : port_in_use (Function.update st.socks i { TcpSocket.zero with state := .syn_sent })
      st.eph_next = false := by
    rw [← hfree]
    unfold port_in_use
    congr 1
    funext j
    by_cases hj : j = i
    · subst hj
      simp [claim, hold, TcpSocket.zero]
    · simp [claim, hold, hj]
  have hpick : pick_ephemeral_port (Function.update st.socks i
      { TcpSocket.zero with state := .syn_sent }) (16383 + 1) st.eph_next =
        (st.eph_next, st.bump.eph_next) :=
    if_neg (by simp [hport])
  unfold tcp_connect
  rw [hi]
  simp only [ne_eq, not_true_eq_false, if_false, hpick]
  simp [install, finish, bump, hold, claim, on, next_conn_gen, open_active, tcp_send_seg, tcp_emit,
    Endpoint.sock]

def listens (st : Stack) (port : UInt16) : Bool :=
  slots.any fun i => (st.socks i).state = .listen ∧ (st.socks i).local_port = port

def tcp_listen (st : Stack) (local_port : UInt16) : Stack × Option Slot :=
  if st.listens local_port then (st, none)
  else
    match st.alloc_sock with
    | none => (st, none)
    | some i =>
      let (conn_gen, conn_gen_next) := st.next_conn_gen
      let s :=
        { TcpSocket.zero with conn_gen, state := .listen, local_ip := st.local_ip, local_port }
      ({ st with socks := Function.update st.socks i s, conn_gen_next }, some i)

/-- The first connection at the port of a listener that is complete and not yet claimed,
and its generation. -/
def tcp_accept (st : Stack) (listen_sock : Int) : Stack × Option (Slot × UInt32) :=
  match slot_of listen_sock with
  | none => (st, none)
  | some j =>
    if (st.socks j).state ≠ .listen then (st, none)
    else
      let claimable := slots.find? fun i =>
        let s := st.socks i
        (s.state = .established ∨ s.state = .close_wait) ∧ !s.accepted ∧
          s.local_port = (st.socks j).local_port
      match claimable with
      | none => (st, none)
      | some i => (st.on i fun l => { l with sock.accepted := true },
          some (i, (st.socks i).conn_gen))

/-! ## Calls by index -/

def tcp_send (st : Stack) (sock : Int) (data : Buf) (len : UInt16) : Stack × Nat :=
  match slot_of sock with
  | none => (st, 0)
  | some i => (st.on i fun l => (tcp.tcp_send l data len).1,
      (tcp.tcp_send ⟨st.socks i, st.sent⟩ data len).2)

def tcp_recv (st : Stack) (sock : Int) (maxlen : UInt16) : Stack × List UInt8 :=
  match slot_of sock with
  | none => (st, [])
  | some i => (st.on i fun l => (tcp.tcp_recv l maxlen).1,
      (tcp.tcp_recv ⟨st.socks i, st.sent⟩ maxlen).2)

def tcp_close (st : Stack) (sock : Int) : Stack :=
  match slot_of sock with
  | none => st
  | some i => st.on i tcp.tcp_close

def tcp_abort (st : Stack) (sock : Int) : Stack :=
  match slot_of sock with
  | none => st
  | some i => st.on i tcp.tcp_abort

def tcp_state (st : Stack) (sock : Int) : TcpState :=
  match slot_of sock with
  | none => .closed
  | some i => (st.socks i).state

def tcp_conn_gen (st : Stack) (sock : Int) : UInt32 :=
  match slot_of sock with
  | none => 0
  | some i => (st.socks i).conn_gen

/-! ## Calls by index and generation -/

/-- The slot still holds the connection that was given this generation. -/
def conn_matches (st : Stack) (sock : Int) (g : UInt32) : Bool :=
  match slot_of sock with
  | none => false
  | some i => (st.socks i).state ≠ .closed ∧ (st.socks i).conn_gen = g

def tcp_conn_send (st : Stack) (sock : Int) (g : UInt32) (data : Buf) (len : UInt16) :
    Stack × Nat :=
  if st.conn_matches sock g then st.tcp_send sock data len else (st, 0)

def tcp_conn_recv (st : Stack) (sock : Int) (g : UInt32) (maxlen : UInt16) : Stack × List UInt8 :=
  if st.conn_matches sock g then st.tcp_recv sock maxlen else (st, [])

def tcp_conn_close (st : Stack) (sock : Int) (g : UInt32) : Stack :=
  let state := st.tcp_state sock
  if st.conn_matches sock g ∧
      (state = .syn_received ∨ state = .established ∨ state = .close_wait) then st.tcp_close sock
  else st

def tcp_conn_abort (st : Stack) (sock : Int) (g : UInt32) : Stack :=
  if st.conn_matches sock g then st.tcp_abort sock else st

/-- One tick for every socket. -/
def tcp_tick (st : Stack) : Stack := slots.foldl (fun st i => st.on i tcp.tcp_tick) st

/-! ## Generations -/

/-- The generation of the socket in a slot. -/
def gen (st : Stack) (i : Slot) : UInt32 := (st.socks i).conn_gen

end Stack

/-! ## Functions of one socket keep what names its connection -/

/-- What names the connection in a socket: its generation, whether it has been claimed, and
its address and ports. -/
def TcpSocket.name (s : TcpSocket) : UInt32 × Bool × UInt32 × UInt16 × UInt16 :=
  (s.conn_gen, s.accepted, s.remote_ip, s.remote_port, s.local_port)

lemma gen_of_name {s t : TcpSocket} (h : t.name = s.name) : t.conn_gen = s.conn_gen :=
  congrArg Prod.fst h

lemma tcp_send_seg_name (l : Link) (flags : UInt8) (data : List UInt8) :
    (tcp_send_seg l flags data).sock.name = l.sock.name := by
  unfold tcp_send_seg
  dsimp only
  split <;> rfl

lemma tcp_rx_data_name (l : Link) (seq : UInt32) (data : List UInt8) :
    (tcp_rx_data l seq data).sock.name = l.sock.name := by
  rw [tcp_rx_data_sock]
  split <;> rfl

lemma rx_payload_name (l : Link) (seg : Segment) : (rx_payload l seg).sock.name = l.sock.name := by
  unfold rx_payload
  split
  · exact tcp_rx_data_name _ _ _
  · rfl

lemma rx_last_fin_name (l : Link) (seg : Segment) :
    (rx_last_fin l seg).sock.name = l.sock.name := by
  unfold rx_last_fin
  split
  · exact tcp_send_seg_name _ _ _
  · rfl

lemma tcp_retransmit_name (l : Link) : (tcp_retransmit l).sock.name = l.sock.name := by
  rw [tcp_retransmit_sock]

lemma rx_switch_name (l : Link) (seg : Segment) : (rx_switch l seg).sock.name = l.sock.name := by
  have hpay := rx_payload_name l seg
  unfold rx_switch
  dsimp only
  split <;> repeat' split
  all_goals first
    | rfl
    | exact tcp_send_seg_name _ _ _
    | exact tcp_retransmit_name _
    | exact hpay
    | exact tcp_rx_data_name _ _ _
    | exact (tcp_send_seg_name _ _ _).trans hpay
    | exact (rx_last_fin_name _ _).trans hpay

lemma rx_sock_name (l : Link) (seg : Segment) : (rx_sock l seg).sock.name = l.sock.name := by
  have hack : (acked_sock l.sock seg).name = l.sock.name := by
    obtain ⟨_, _, _, _, _, _, he⟩ := acked_sock_eq l.sock seg
    exact he ▸ rfl
  rw [rx_sock_eq]
  split
  · exact hack
  · exact (rx_switch_name _ _).trans hack

lemma tcp_rx_name (l : Link) (seg : Segment) : (tcp_rx l seg).sock.name = l.sock.name := by
  unfold tcp_rx
  repeat' split
  · rfl
  · rfl
  · exact rx_sock_name l seg

lemma tcp_send_name (l : Link) (data : Buf) (len : UInt16) :
    (tcp_send l data len).1.sock.name = l.sock.name := by
  rcases tcp_send_sock l data len with he | ⟨d, timer, he⟩
  · rw [he]
  · rw [he]
    exact tcp_send_seg_name l _ d

lemma tcp_recv_name (l : Link) (maxlen : UInt16) :
    (tcp_recv l maxlen).1.sock.name = l.sock.name := by
  unfold tcp_recv
  dsimp only
  repeat' split
  all_goals rfl

lemma Turns.name {l l' : Link} (h : Turns l l') : l'.sock.name = l.sock.name := by
  induction h with
  | mark | shut | reset => rfl
  | again l => exact tcp_retransmit_name l
  | fin => exact tcp_send_seg_name _ _ _
  | trans _ _ h h' => exact h'.trans h

/-! ## One event on a socket -/

/-- What an event does to a connection. -/
def act (l : Link) : Event → Link
  | .rx seg => tcp_rx l seg
  | .send data len => (tcp_send l data len).1
  | .recv maxlen => (tcp_recv l maxlen).1
  | .accept => { l with sock.accepted := true }
  | .close => tcp_close l
  | .abort => tcp_abort l
  | .tick => tcp_tick l

/-- The event is no segment of the peer. -/
def Event.quiet : Event → Bool
  | .rx _ => false
  | _ => true

/-- The socket `t` is `s`, or what one event without a segment makes of it. -/
def Quietly (s t : TcpSocket) : Prop :=
  t = s ∨ ∃ (e : Event) (sent : List Packet), e.quiet ∧ t = (act ⟨s, sent⟩ e).sock

/-- An event may claim a connection, and else keeps what names it. -/
lemma act_name (l : Link) (e : Event) : ∃ accepted, (l.sock.accepted → accepted = true) ∧
    (act l e).sock.name = TcpSocket.name { l.sock with accepted } := by
  cases e with
  | rx seg => exact ⟨_, id, tcp_rx_name l seg⟩
  | send data len => exact ⟨_, id, tcp_send_name l data len⟩
  | recv maxlen => exact ⟨_, id, tcp_recv_name l maxlen⟩
  | accept => exact ⟨true, fun _ => rfl, rfl⟩
  | close => exact ⟨_, id, (tcp_close_turns l).name⟩
  | abort => exact ⟨_, id, rfl⟩
  | tick => exact ⟨_, id, (tcp_tick_turns l).name⟩

lemma Quietly.gen {s t : TcpSocket} (h : Quietly s t) : t.conn_gen = s.conn_gen := by
  rcases h with rfl | ⟨e, sent, -, rfl⟩
  · rfl
  · obtain ⟨_, -, h⟩ := act_name ⟨s, sent⟩ e
    exact congrArg Prod.fst h

/-! ## What an operation does to the slots -/

namespace Stack

variable {st : Stack} {i j : Slot}

/-- The table is left alone, or one event without a segment runs on one socket. -/
def Acts (st st' : Stack) : Prop := st' = st ∨ ∃ i, ∃ e : Event, e.quiet ∧ st' = st.on i (act · e)

lemma on_socks_ne {f : Link → Link} (h : j ≠ i) : (st.on i f).socks j = st.socks j :=
  Function.update_of_ne h _ _

lemma on_quietly {e : Event} (he : e.quiet) :
    Quietly (st.socks j) ((st.on i (act · e)).socks j) := by
  by_cases hij : j = i
  · subst hij
    exact .inr ⟨e, st.sent, he, Function.update_self ..⟩
  · exact .inl (on_socks_ne hij)

lemma tick_quietly : Quietly (st.socks j) (st.tcp_tick.socks j) := by
  -- The slots are walked through once, so that a slot that is done is not touched again.
  have hfold : ∀ (is : List Slot) (st : Stack), is.Nodup →
      let t := is.foldl (fun st i => st.on i tcp.tcp_tick) st
      Quietly (st.socks j) (t.socks j) ∧ (j ∉ is → t.socks j = st.socks j) := by
    intro is
    induction is with
    | nil => exact fun st _ => ⟨.inl rfl, fun _ => rfl⟩
    | cons i is ih =>
      intro st hnd
      obtain ⟨hnot, hnd⟩ := List.nodup_cons.mp hnd
      obtain ⟨hq, hkeep⟩ := ih (st.on i tcp.tcp_tick) hnd
      by_cases hij : j = i
      · subst hij
        refine ⟨?_, fun h => absurd List.mem_cons_self h⟩
        simp only [List.foldl_cons]
        rw [hkeep hnot]
        exact on_quietly (e := .tick) rfl
      · have hne : (st.on i tcp.tcp_tick).socks j = st.socks j := on_socks_ne hij
        rw [hne] at hq hkeep
        exact ⟨hq, fun h => hkeep fun hj => h (List.mem_cons_of_mem _ hj)⟩
  exact (hfold slots st (List.nodup_finRange _)).1

lemma Acts.quietly {st' : Stack} (h : st.Acts st') : Quietly (st.socks j) (st'.socks j) := by
  rcases h with rfl | ⟨i, e, he, rfl⟩
  · exact .inl rfl
  · exact on_quietly he

lemma Acts.gen {st' : Stack} (h : st.Acts st') : st'.gen j = st.gen j := h.quietly.gen

lemma tcp_send_acts (sock : Int) (data : Buf) (len : UInt16) :
    st.Acts (st.tcp_send sock data len).1 := by
  unfold tcp_send
  split
  · exact .inl rfl
  · exact .inr ⟨_, .send data len, rfl, rfl⟩

lemma tcp_recv_acts (sock : Int) (maxlen : UInt16) : st.Acts (st.tcp_recv sock maxlen).1 := by
  unfold tcp_recv
  split
  · exact .inl rfl
  · exact .inr ⟨_, .recv maxlen, rfl, rfl⟩

lemma tcp_close_acts (sock : Int) : st.Acts (st.tcp_close sock) := by
  unfold tcp_close
  split
  · exact .inl rfl
  · exact .inr ⟨_, .close, rfl, rfl⟩

lemma tcp_abort_acts (sock : Int) : st.Acts (st.tcp_abort sock) := by
  unfold tcp_abort
  split
  · exact .inl rfl
  · exact .inr ⟨_, .abort, rfl, rfl⟩

lemma tcp_accept_acts (sock : Int) : st.Acts (st.tcp_accept sock).1 := by
  unfold tcp_accept
  split
  · exact .inl rfl
  split
  · exact .inl rfl
  dsimp only
  split
  · exact .inl rfl
  · exact .inr ⟨_, .accept, rfl, rfl⟩

/-- The slot that a segment gives to a new connection. -/
def rx_slot (st : Stack) (src_ip : UInt32) (seg : Segment) : Option Slot :=
  match st.find_sock src_ip seg.src_port seg.dst_port false with
  | some i => if st.reopens i seg then (st.on i tcp.tcp_abort).spawn_slot src_ip seg else none
  | none => st.spawn_slot src_ip seg

lemma rx_unmatched_socks (h : st.spawn_slot src_ip seg ≠ some j) :
    (st.rx_unmatched src_ip dst_ip seg).socks j = st.socks j := by
  unfold rx_unmatched
  split
  · rename_i k hk
    have hjk : j ≠ k := fun hjk => h (hjk ▸ hk)
    exact Function.update_of_ne hjk _ _
  · unfold refuse
    split
    · split <;> rfl
    · rfl

/-- In a slot that is not given to a new connection, a segment does what `tcp_rx` does to one
connection if it belongs there, and else nothing. -/
lemma rx_segment_socks (h : st.rx_slot src_ip seg ≠ some j) :
    (st.rx_segment src_ip dst_ip seg).socks j =
      if st.find_sock src_ip seg.src_port seg.dst_port false = some j then
        (tcp.tcp_rx ⟨st.socks j, st.sent⟩ seg).sock
      else st.socks j := by
  unfold rx_slot at h
  unfold rx_segment
  split
  · rename_i k hk
    have hopen : (st.socks k).state ≠ .closed := by
      have := List.find?_some hk
      simp only [decide_eq_true_eq] at this
      exact this.1
    rw [hk] at h
    dsimp only at h
    by_cases hjk : j = k
    · subst hjk
      unfold tcp.tcp_rx
      split
      · rename_i hre
        rw [if_pos hre] at h
        rw [rx_unmatched_socks h, if_pos (show _ ∧ (st.socks j).state = .time_wait from hre)]
        exact Function.update_self ..
      · rename_i hre
        rw [if_neg (show ¬(_ ∧ (st.socks j).state = .time_wait) from hre)]
        exact Function.update_self ..
    · have hne : st.find_sock src_ip seg.src_port seg.dst_port false ≠ some j := fun he =>
        hjk (Option.some.inj (he.symm.trans hk))
      split
      · rename_i hre
        rw [if_pos hre] at h
        rw [rx_unmatched_socks h, on_socks_ne hjk]
      · exact on_socks_ne hjk
  · rename_i hk
    rw [hk] at h
    rw [if_neg (by simp [hk])]
    exact rx_unmatched_socks h

lemma rx_segment_gen (h : st.rx_slot src_ip seg ≠ some j) :
    (st.rx_segment src_ip dst_ip seg).gen j = st.gen j := by
  unfold gen
  rw [rx_segment_socks h]
  split
  · exact gen_of_name (tcp_rx_name _ seg)
  · rfl

lemma connect_keeps {ip : UInt32} {local_port : UInt16} (h : st.alloc_sock ≠ some j) :
    (st.tcp_connect ip port local_port).1.socks j = st.socks j := by
  unfold tcp_connect
  split
  · rfl
  · rename_i k hk
    have hjk : j ≠ k := fun hjk => h (hjk ▸ hk)
    exact Function.update_of_ne hjk _ _

lemma tcp_listen_gen (h : st.alloc_sock ≠ some j) : (st.tcp_listen port).1.gen j = st.gen j := by
  unfold tcp_listen
  split
  · rfl
  split
  · rfl
  · rename_i k hk
    have hjk : j ≠ k := fun hjk => h (hjk ▸ hk)
    simp [gen, hjk]

end Stack

end uaos.tcp
