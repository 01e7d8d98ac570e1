-- The addresses and ports of the connections in the TCP table (tcp.c). When every caller of
-- tcp_connect leaves the choice of the port to it, no two connections have the same local port,
-- remote address and remote port.
import Uaos.TcpRuns

namespace uaos.tcp

open Function List

/-! ## Connections -/

/-- The socket is neither closed nor listening. -/
def TcpSocket.Live (s : TcpSocket) : Prop := s.state ≠ .closed ∧ s.state ≠ .listen

def TcpSocket.tuple (s : TcpSocket) : UInt16 × UInt32 × UInt16 :=
  (s.local_port, s.remote_ip, s.remote_port)

lemma tuple_of_name {s t : TcpSocket} (h : t.name = s.name) : t.tuple = s.tuple :=
  congrArg (fun n => (n.2.2.2.2, n.2.2.1, n.2.2.2.1)) h

lemma act_tuple (l : Link) (e : Event) : (act l e).sock.tuple = l.sock.tuple := by
  obtain ⟨_, -, h⟩ := act_name l e
  exact congrArg (fun n => (n.2.2.2.2, n.2.2.1, n.2.2.2.1)) h

lemma act_live {l : Link} {e : Event} (h : (act l e).sock.Live) : l.sock.Live := by
  by_contra hl
  have hidle : l.sock.state = .closed ∨ l.sock.state = .listen := by
    unfold TcpSocket.Live at hl
    tauto
  rcases act_idle (e := e) hidle with hs | hs
  · simp only [TcpSocket.Live, hs] at h
    exact hl h
  · exact h.1 hs

namespace Stack

variable {st : Stack} {m : Move} {i j : Slot} {socks : Slot → TcpSocket}

/-- A step makes no connection in a slot that it does not give away. -/
lemma next_live (h : st.given m ≠ some i) : ((st.next m).socks i).tuple = (st.socks i).tuple ∧
    (((st.next m).socks i).Live → (st.socks i).Live) := by
  rcases Traced.next_acts h with he | ⟨e, sent, he⟩
  · rw [he]
    exact ⟨rfl, id⟩
  · rw [he]
    exact ⟨act_tuple _ e, act_live⟩

/-! ## The choice of a port -/

/-- The candidate behind `port`. -/
def port_after (port : UInt16) : UInt16 := if port + 1 < 49152 then 49152 else port + 1

lemma port_after_toNat (port : UInt16) : (port_after port).toNat =
    if port.toNat < 49152 ∨ port.toNat = 65535 then 49152 else port.toNat + 1 := by
  have hlt := port.toNat_lt
  have hadd : (port + 1).toNat = (port.toNat + 1) % 65536 := UInt16.toNat_add port 1
  have hrange : (49152 : UInt16).toNat = 49152 := rfl
  unfold port_after
  simp only [UInt16.lt_iff_toNat_lt, apply_ite UInt16.toNat, hadd, hrange]
  split <;> split <;> omega

/-- The candidates go round the dynamic range. -/
lemma port_after_iterate (port : UInt16) (k : Nat) : (port_after^[k + 1] port).toNat =
    49152 + ((port_after port).toNat - 49152 + k) % 16384 := by
  induction k with
  | zero =>
    have h := port_after_toNat port
    have := port.toNat_lt
    simp only [zero_add, iterate_one]
    split at h <;> omega
  | succ k ih =>
    rw [iterate_succ_apply', port_after_toNat, ih]
    have := port_after_toNat port
    split <;> omega

/-- A free port among the candidates is found. -/
lemma pick_free (tries : Nat) (port : UInt16)
    (h : ∃ k < tries, port_in_use socks (port_after^[k] port) = false) :
    port_in_use socks (pick_ephemeral_port socks tries port).1 = false := by
  induction tries generalizing port with
  | zero =>
    obtain ⟨k, hk, -⟩ := h
    omega
  | succ tries ih =>
    rw [pick_ephemeral_port]
    split
    · rename_i huse
      refine ih _ ?_
      obtain ⟨k, hk, hfree⟩ := h
      obtain _ | k := k
      · rw [iterate_zero, id_eq, huse] at hfree
        cases hfree
      · exact ⟨k, by omega, hfree⟩
    · rename_i huse
      simpa using huse

/-- Eight sockets do not have nine ports. -/
lemma picked_is_free (port : UInt16) :
    port_in_use socks (pick_ephemeral_port socks 16384 port).1 = false := by
  refine pick_free _ _ ?_
  by_contra hno
  push Not at hno
  have huse : ∀ k : Fin 9, ∃ i : Slot, (socks i).local_port = port_after^[k.val + 1] port := by
    intro k
    have h := hno (k.val + 1) (by omega)
    simp only [port_in_use, ne_eq, Bool.not_eq_false, any_eq_true, decide_eq_true_eq] at h
    obtain ⟨i, -, -, hi⟩ := h
    exact ⟨i, hi⟩
  choose f hf using huse
  obtain ⟨a, b, hab, he⟩ := Fintype.exists_ne_map_eq_of_card_lt f (by decide)
  have hport := congrArg UInt16.toNat
    ((hf a).symm.trans ((congrArg (fun i => (socks i).local_port) he).trans (hf b)))
  rw [port_after_iterate, port_after_iterate] at hport
  have := a.isLt
  have := b.isLt
  exact hab (Fin.ext (by omega))

/-! ## New connections -/

/-- The caller of tcp_connect leaves the choice of the port to it. -/
def Move.auto_port : Move → Bool
  | .call (.connect _ _ local_port) => local_port = 0
  | _ => true

/-- No two connections have the same ports and address. -/
def Distinct (st : Stack) : Prop :=
  ∀ i j, (st.socks i).Live → (st.socks j).Live → (st.socks i).tuple = (st.socks j).tuple → i = j

variable {port : UInt16} {ip : UInt32}

lemma connect_apart (hj : st.alloc_sock = some j) (hij : i ≠ j) (hi : (st.socks i).Live) :
    (st.socks i).tuple ≠ ((st.tcp_connect ip port 0).1.socks j).tuple := by
  obtain ⟨taken, htaken⟩ : ∃ t, t = update st.socks j { TcpSocket.zero with state := .syn_sent } :=
    ⟨_, rfl⟩
  have htuple : ((st.tcp_connect ip port 0).1.socks j).tuple =
      ((pick_ephemeral_port taken 16384 st.eph_next).1, ip, port) := by
    unfold tcp_connect
    rw [hj, htaken]
    show (update st.socks j _ j).tuple = _
    rw [update_self]
    exact tuple_of_name (tcp_send_seg_name _ _ _)
  have hfree : port_in_use taken _ = false := picked_is_free st.eph_next
  rw [htuple]
  intro he
  rw [← congrArg Prod.fst he] at hfree
  simp only [port_in_use, any_eq_false, decide_eq_true_eq] at hfree
  refine hfree i (mem_finRange i) ?_
  rw [htaken, update_of_ne hij]
  exact ⟨hi.1, rfl⟩

lemma spawn_tuple {src_ip dst_ip : UInt32} {seg : Segment} (h : st.spawn_slot src_ip seg = some j) :
    ((st.rx_unmatched src_ip dst_ip seg).socks j).tuple = (seg.dst_port, src_ip, seg.src_port) := by
  unfold rx_unmatched
  rw [h]
  show (update st.socks j _ j).tuple = _
  rw [update_self]
  exact tuple_of_name (tcp_send_seg_name _ _ _)

lemma find_sock_some {port' : UInt16}
    (h : st.find_sock ip port port' false = some i) : (st.socks i).tuple = (port', ip, port) := by
  have hi := find?_some h
  simp only [Bool.false_eq_true, false_and, Bool.not_false, true_and, false_or,
    decide_eq_true_eq] at hi
  obtain ⟨-, h1, h2, h3⟩ := hi
  rw [TcpSocket.tuple, h1, h2, h3]

lemma find_sock_none {port' : UInt16}
    (h : st.find_sock ip port port' false = none) (hi : (st.socks i).Live) :
    (st.socks i).tuple ≠ (port', ip, port) := by
  intro he
  have hno := find?_eq_none.mp h i (mem_finRange i)
  simp only [TcpSocket.tuple, Prod.mk.injEq] at he
  simp [he, hi.1] at hno

/-- A SYN opens a connection that nobody has, or that of a socket which it closes. -/
lemma rx_apart {src_ip dst_ip : UInt32} {seg : Segment} (hd : st.Distinct)
    (hj : st.rx_slot src_ip seg = some j) (hij : i ≠ j) (hi : (st.socks i).Live)
    (hlive : ((st.rx_segment src_ip dst_ip seg).socks i).Live) :
    (st.socks i).tuple ≠ ((st.rx_segment src_ip dst_ip seg).socks j).tuple := by
  rw [rx_segment_socks fun he => hij (Option.some.inj (he.symm.trans hj))] at hlive
  unfold rx_slot at hj
  unfold rx_segment
  cases hf : st.find_sock src_ip seg.src_port seg.dst_port false with
  | none =>
    rw [hf] at hj
    dsimp only at hj ⊢
    rw [spawn_tuple hj]
    exact find_sock_none hf hi
  | some k =>
    rw [hf] at hj hlive
    dsimp only at hj ⊢
    split at hj
    · rename_i hre
      have hwait : (st.socks k).state = .time_wait := hre.2
      rw [if_pos hre, spawn_tuple hj, ← find_sock_some hf]
      intro he
      obtain rfl := hd i k hi (by simp [TcpSocket.Live, hwait]) he
      rw [if_pos rfl, tcp.tcp_rx, if_neg (by simp [hwait]), if_pos ⟨hre.1, hwait⟩] at hlive
      exact hlive.1 rfl
    · cases hj

/-! ## Runs -/

/-- A step in which the port is chosen by tcp_connect makes no second connection with the same
ports and address. -/
lemma next_apart (hd : st.Distinct) (hm : m.auto_port) (hj : st.given m = some j) (hij : i ≠ j)
    (hi : ((st.next m).socks i).Live) (hnew : ((st.next m).socks j).Live) :
    ((st.next m).socks i).tuple ≠ ((st.next m).socks j).tuple := by
  have hne : st.given m ≠ some i := fun he => hij (Option.some.inj (he.symm.trans hj))
  obtain ⟨htuple, hback⟩ := next_live hne
  rw [htuple]
  have hold := hback hi
  cases m with
  | rx src_ip dst_ip pkt len =>
    obtain ⟨seg, hp, hslot⟩ := Option.bind_eq_some_iff.mp hj
    have hnext : st.next (.rx src_ip dst_ip pkt len) = st.rx_segment src_ip dst_ip seg := by
      simp [next, tcp_rx, hp]
    rw [hnext] at hi ⊢
    exact rx_apart hd hslot hij hold hi
  | tick => cases hj
  | call op =>
    cases op with
    | connect ip port local_port =>
      obtain rfl : local_port = 0 := of_decide_eq_true hm
      exact connect_apart hj hij hold
    | listen port =>
      have hj : (if st.listens port then none else st.alloc_sock) = some j := hj
      split at hj
      · cases hj
      · rename_i hl
        refine absurd ?_ hnew.2
        simp [next, usock.World.kernel, tcp_listen, hl, hj]
    | _ => cases hj

lemma Distinct.next (hd : st.Distinct) (hm : m.auto_port) : (st.next m).Distinct := by
  intro i j hi hj he
  by_contra hij
  by_cases hgi : st.given m = some i
  · exact next_apart hd hm hgi (Ne.symm hij) hj hi he.symm
  by_cases hgj : st.given m = some j
  · exact next_apart hd hm hgj hij hi hj he
  obtain ⟨hti, hli⟩ := next_live hgi
  obtain ⟨htj, hlj⟩ := next_live hgj
  exact hij (hd i j (hli hi) (hlj hj) (hti.symm.trans (he.trans htj)))

end Stack

end uaos.tcp
