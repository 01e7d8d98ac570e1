-- What the loops of `usock_send` and `usock_recv` (usock.c) promise: a send offers all that
-- is left, and a receive reports the end of the stream only when the peer has closed and the
-- ring is empty. Both narrow lengths to 16 bits, and a receive looks at the ring and at the
-- state of the connection at two different moments.
import Uaos.TcpCalm
import Uaos.UsockMoves

namespace uaos.usock

open List Function

open uaos.tcp Stack

variable {b : Bool} {v : Handle} {k : Int} {c : Option Call} {n : Option Int} {r : Option Segment}
  {p q : Past} {seg : Segment} {st' : Stack} {s t : TcpSocket} {w' : World}

/-! ## The system with its history -/

/-- The system, the history of the connection in every slot, what `usock_send` has offered to
`tcp_send` (the bytes that were left, and how many it offered), and the ring and the history of
the connection whenever `usock_recv` has returned 0. -/
structure Watched where
  world : World
  past : Slot → Past
  offers : List (Nat × Nat)
  ends : List (List UInt8 × Past)

namespace Watched

def boot (local_ip : UInt32) : Watched := ⟨World.boot local_ip, fun _ => ⟨0, []⟩, [], []⟩

/-- The history along the steps of the TCP layer. -/
def remember_all (st : Stack) (past : Slot → Past) : List Stack.Move → Slot → Past
  | [] => past
  | m :: ms => remember_all (st.next m) (Traced.remember st past m) ms

/-- The turn of the send loop that an input runs. -/
def offered (w : World) : World.Input → List (Nat × Nat)
  | .resume us =>
    match w.usocks us, w.calls us with
    | some _, some (.sending _ len total _) =>
      if len ≤ total then [] else [(len - total, (len - total).toUInt16.toNat)]
    | _, _ => []
  | _ => []

/-- The connection of a TCP socket number: its ring and its history. -/
def conn_of (w : Watched) (sock : Int) : List UInt8 × Past :=
  match slot_of sock with
  | some s => ((w.world.stack.socks s).ring, w.past s)
  | none => ([], ⟨0, []⟩)

/-- The end of a stream that an input lets `usock_recv` report. -/
def reported (w : Watched) : World.Input → List (List UInt8 × Past)
  | .resume us =>
    match w.world.usocks us, w.world.calls us with
    | some u, some (.recv_failed _ _) =>
      let st := w.world.stack.tcp_state u.nsock
      if st = .closed ∨ ended st then [w.conn_of u.nsock] else []
    | _, _ => []
  | _ => []

def step (w : Watched) (i : World.Input) : Option Watched := some {
    world := w.world.next i
    past := remember_all w.world.stack w.past (w.world.moves i)
    offers := w.offers ++ offered w.world i
    ends := w.ends ++ w.reported i }

/-! ## The condition -/

def arrives : World.Input → Bool
  | .rx _ _ _ _ => true
  | _ => false

/-- The segment that an input brings to a slot. -/
def segment_for (w : Watched) (i : World.Input) (s : Slot) : Option Segment :=
  match i with
  | .rx src_ip dst_ip pkt len => brings w.world.stack (.rx src_ip dst_ip pkt len) s
  | _ => none

/-- The length of a send fits 16 bits, and that of a receive does not become 0. -/
def lengths_fit : World.Input → Bool
  | .call _ (.send _ _ len) => len < 65536
  | .call _ (.recv _ len) => len ≤ 0 ∨ len % 65536 ≠ 0
  | _ => true

/-- No data comes for a connection between the look of `usock_recv` at its empty ring and the
look at its state. -/
def no_late_data (w : Watched) (i : World.Input) : Bool := World.handles.all fun us =>
    match w.world.usocks us, w.world.calls us with
    | some u, some (.recv_failed _ _) =>
      (slot_of u.nsock).all fun s => (w.segment_for i s).all fun seg => seg.data = []
    | _, _ => true

/-- A connection that a userspace socket has after the step is not closed by it, unless the
peer does it or has closed before. -/
def not_closed_here (w : Watched) (i : World.Input) : Bool := World.handles.all fun us =>
    ((w.world.next i).usocks us).all fun u =>
      (slot_of u.nsock).all fun s =>
        (w.world.stack.socks s).state = .closed ∨ ((w.world.next i).stack.socks s).state ≠ .closed ∨
          arrives i ∨ PeerClosed (w.past s)

def Fits (w : Watched) (i : World.Input) : Prop :=
  lengths_fit i ∧ w.no_late_data i ∧ w.not_closed_here i

instance (w : Watched) (i : World.Input) : Decidable (w.Fits i) :=
  inferInstanceAs (Decidable (_ ∧ _ ∧ _))

/-! ## What an input does to one slot -/

variable {w : Watched} {i : World.Input} {st : Stack} {past : Slot → Past} {us : Handle}

/-- Steps that bring no segment and make no socket. -/
lemma calm_moves {ms : List Stack.Move} (h : ∀ m ∈ ms, m.arrives = false ∧ ∀ st : Stack,
    st.given m = none)
    (st : Stack) (past : Slot → Past) (s : Slot) :
    Calm (st.socks s) ((ms.foldl next st).socks s) ∧ remember_all st past ms s = past s := by
  induction ms generalizing st past with
  | nil => exact ⟨Calm.refl _, rfl⟩
  | cons m ms ih =>
    obtain ⟨hm, hg⟩ := h m mem_cons_self
    have hno : st.given m ≠ some s := by simp [hg]
    obtain ⟨hcalm, hpast⟩ := ih (forall_mem_cons.mp h).2 (st.next m)
      (Traced.remember st past m)
    refine ⟨(calm_of_quietly (next_quietly hm hno)).trans hcalm, hpast.trans ?_⟩
    exact Traced.remember_same hno (by simp [Traced.receiver_of_arrives hm])

/-- At most one step that brings no segment. -/
lemma single_effect {ms : List Stack.Move} (h : ∀ m ∈ ms, m.arrives = false) (hl : ms.length ≤ 1)
    (s : Slot) : Effect false none (past s) (st.socks s) (remember_all st past ms s)
      ((ms.foldl next st).socks s) := by
  cases ms with
  | nil => exact .kept
  | cons m ms =>
    cases ms with
    | cons => simp at hl
    | nil =>
      have hm := h m mem_cons_self
      have heff := move_effect st past m s
      have hb : brings st m s = none := by simp [brings, Traced.receiver_of_arrives hm]
      rw [hm, hb] at heff
      exact heff

lemma release_moves_quiet (w : World) (u : Usock) : (w.release_moves u).length ≤ 1 ∧
      ∀ m ∈ w.release_moves u, m.arrives = false ∧ ∀ st : Stack, st.given m = none := by
  unfold World.release_moves
  split
  · refine ⟨le_refl _, fun m hm => ?_⟩
    cases mem_singleton.mp hm
    split <;> exact ⟨rfl, fun _ => rfl⟩
  · exact ⟨Nat.zero_le _, fun m hm => absurd hm not_mem_nil⟩

lemma call_moves_quiet (w : World) (task : Task) (op : World.Op) :
    (w.call_moves task op).length ≤ 1 ∧ ∀ m ∈ w.call_moves task op, m.arrives = false := by
  unfold World.call_moves
  split
  · repeat' split
    all_goals simp [Stack.Move.arrives]
  · split
    · simp
    · obtain ⟨hl, hq⟩ := release_moves_quiet w _
      exact ⟨hl, fun m hm => (hq m hm).1⟩
  · simp

lemma piece_moves_quiet (u : Usock) (c : Call) :
    (World.piece_moves u c).length ≤ 1 ∧ ∀ m ∈ World.piece_moves u c, m.arrives = false := by
  unfold World.piece_moves
  repeat' split
  all_goals simp [Stack.Move.arrives]

lemma exit_moves_quiet (w : World) (task : Task) :
    ∀ m ∈ World.handles.flatMap (w.exit_moves task), m.arrives = false ∧ ∀ st : Stack,
      st.given m = none := by
  intro m hm
  obtain ⟨us, -, hm⟩ := mem_flatMap.mp hm
  unfold World.exit_moves at hm
  split at hm
  · exact absurd hm not_mem_nil
  · split at hm
    · exact (release_moves_quiet w _).2 m hm
    · exact absurd hm not_mem_nil

/-- What an input does to the history and the socket of a slot. -/
lemma next_effect (w : Watched) (i : World.Input) (s : Slot) :
    Effect (arrives i) (w.segment_for i s) (w.past s) (w.world.stack.socks s)
      (remember_all w.world.stack w.past (w.world.moves i) s) ((w.world.next i).stack.socks s) := by
  rw [World.next_stack]
  cases i with
  | rx src_ip dst_ip pkt len => exact move_effect w.world.stack w.past (.rx src_ip dst_ip pkt len) s
  | tick =>
    simp only [World.moves]
    split
    · refine single_effect (fun m hm => ?_) (le_refl _) s
      cases mem_singleton.mp hm
      rfl
    · exact .kept
  | net up => exact .kept
  | call task op =>
    obtain ⟨hl, hq⟩ := call_moves_quiet w.world task op
    by_cases hidle : w.world.idle task
    · simp only [World.moves, hidle, if_true]
      exact single_effect hq hl s
    · simp only [World.moves, hidle]
      exact .kept
  | resume us =>
    simp only [World.moves]
    split
    · obtain ⟨hl, hq⟩ := piece_moves_quiet _ _
      exact single_effect hq hl s
    · exact .kept
  | exit task =>
    obtain ⟨hcalm, hpast⟩ := calm_moves (exit_moves_quiet w.world task) w.world.stack w.past s
    simp only [World.moves]
    rw [hpast]
    exact .calm rfl hcalm
  | kernel op =>
    refine single_effect (fun m hm => ?_) (le_refl _) s
    cases mem_singleton.mp hm
    rfl

/-! ## The invariant -/

/-- What holds of a blocked call on a socket with the TCP socket number `n`. -/
def CallOk (st : Stack) (n : Option Int) : Call → Prop
  | .sending _ len _ _ => len < 65536
  | .send_failed _ len _ _ => len < 65536
  | .receiving len _ => len % 65536 ≠ 0 ∧ ∃ k, n = some k ∧ 0 ≤ k
  | .recv_failed len _ => len % 65536 ≠ 0 ∧ ∃ k s, n = some k ∧ slot_of k = some s ∧
      (st.socks s).rx_head = (st.socks s).rx_tail
  | _ => True

/-- What holds of a handle, with its TCP socket number and the call on it. -/
structure HandleOk (st : Stack) (past : Slot → Past) (n : Option Int) (c : Option Call) : Prop where
  slot : ∀ k, n = some k → 0 ≤ k → ∃ s, slot_of k = some s
  alive : ∀ k s, n = some k → slot_of k = some s → (st.socks s).state = .closed →
    PeerClosed (past s)
  call : ∀ c', c = some c' → CallOk st n c'

/-- The number of the TCP socket behind a handle. -/
def number (w : World) (us : Handle) : Option Int := (w.usocks us).map (·.nsock)

structure Sound (w : Watched) : Prop where
  streams : ∀ s, ended (w.world.stack.socks s).state → PeerClosed (w.past s)
  handles : ∀ us, HandleOk w.world.stack w.past (number w.world us) (w.world.calls us)
  offers : ∀ o ∈ w.offers, 0 < o.2 ∧ o.2 ≤ o.1
  ends : ∀ e ∈ w.ends, e.1 = [] ∧ PeerClosed e.2

lemma peerClosed_hear (h : PeerClosed p) (seg : Segment) : PeerClosed (p.hear seg) := by
  obtain ⟨a, ha, hf⟩ := h
  exact ⟨a, mem_append_left _ ha, hf⟩

lemma peerClosed_flag
    (h : has seg.flags TCP_FIN ∨ has seg.flags TCP_RST) : PeerClosed (p.hear seg) := by
  refine ⟨seg, by simp [Past.hear], ?_⟩
  have hmask : ∀ m : UInt8, (TCP_FIN ||| TCP_RST) &&& m = m → has seg.flags m →
      has seg.flags (TCP_FIN ||| TCP_RST) := by
    intro m hm hf
    by_contra hno
    simp only [has, bne_iff_ne, ne_eq, not_not] at hf hno
    rw [← hm, ← UInt8.and_assoc, hno] at hf
    exact hf (UInt8.zero_and ..)
  rcases h with h | h
  · exact hmask TCP_FIN rfl h
  · exact hmask TCP_RST rfl h

/-- The end of a stream stays behind a FIN or a RST. -/
lemma stream_effect
    (h : Effect b r p s q t) (hs : ended s.state → PeerClosed p) (ht : ended t.state) :
    PeerClosed q := by
  cases h with
  | kept => exact hs ht
  | calm hm h => exact hs (h.ended ht)
  | fresh hst he hr =>
    rw [he] at ht
    cases ht
  | heard hr =>
    rename_i seg sent
    rcases (tcp_rx_spec ⟨s, sent⟩ seg).1 ht with he | hf
    · exact peerClosed_hear (hs he) seg
    · exact peerClosed_flag (.inl hf)
  | retired he => cases ht

/-- A connection that is closed in the end has been closed by the peer, unless it is closed
by a step that brings no segment. -/
lemma closed_effect (h : Effect b r p s q t) (hs : ended s.state → PeerClosed p)
    (hc : s.state = .closed → PeerClosed p) (ht : t.state = .closed)
    (hb : s.state = .closed ∨ b = true ∨ PeerClosed p) : PeerClosed q := by
  cases h with
  | kept => exact hc ht
  | calm hm h =>
    rcases hb with hb | hb | hb
    · exact hc hb
    · rw [hm] at hb
      cases hb
    · exact hb
  | fresh hst he hr => exact absurd ht hst
  | heard hr =>
    rename_i seg sent
    rcases (tcp_rx_spec ⟨s, sent⟩ seg).2.1 ht with he | he | hf
    · exact peerClosed_hear (hc he) seg
    · exact peerClosed_hear (hs he) seg
    · exact peerClosed_flag (.inr hf)
  | retired he =>
    refine hs ?_
    rw [he]
    rfl

lemma ring_effect (h : Effect b r p s q t) (hd : ∀ seg, r = some seg → seg.data = [])
    (hs : s.rx_head = s.rx_tail) : t.rx_head = t.rx_tail := by
  cases h with
  | kept => exact hs
  | calm hm h => exact h.empty hs
  | fresh hst he hr => exact hr
  | heard hr =>
    rename_i seg sent
    exact (tcp_rx_spec ⟨s, sent⟩ seg).2.2 (hd seg hr) hs
  | retired he => exact hs

lemma HandleOk.effect {past' : Slot → Past} {r : Slot → Option Segment} (h : HandleOk st past n c)
    (heff : ∀ s, Effect b (r s) (past s) (st.socks s) (past' s) (st'.socks s))
    (hstreams : ∀ s, ended (st.socks s).state → PeerClosed (past s))
    (hlate : ∀ k s len deadline seg, c = some (.recv_failed len deadline) → n = some k →
      slot_of k = some s → r s = some seg → seg.data = [])
    (hclose : ∀ k s, n = some k → slot_of k = some s → (st'.socks s).state = .closed →
      (st.socks s).state = .closed ∨ b = true ∨ PeerClosed (past s)) : HandleOk st' past' n c := by
  refine ⟨h.slot, fun k s hk hs hc => ?_, fun c' hc' => ?_⟩
  · exact closed_effect (heff s) (hstreams s) (h.alive k s hk hs) hc (hclose k s hk hs hc)
  have hold := h.call c' hc'
  cases c' with
  | recv_failed len deadline =>
    obtain ⟨hlen, k, s, hk, hs, hring⟩ := hold
    refine ⟨hlen, k, s, hk, hs, ring_effect (heff s) (fun seg hseg => ?_) hring⟩
    exact hlate k s len deadline seg hc' hk hs hseg
  | _ => exact hold

/-- How a step can change a handle: its number and the call on it. -/
inductive Table (w : World) (st' : Stack) (us : Handle) : Option Int → Option Call → Prop
  | same : Table w st' us (number w us) (w.calls us)
  | returned : Table w st' us (number w us) none
  | freed : Table w st' us none none
  | made (h : number w us = none) : Table w st' us (some (-1)) (w.calls us)
  | connected (s : Slot) (h : (st'.socks s).state ≠ .closed) : Table w st' us (some s.val) none
  | blocked {c : Call} (h : CallOk st' (number w us) c) : Table w st' us (number w us) (some c)

lemma HandleOk.table {w : World} {past' : Slot → Past}
    (hold : HandleOk st past (number w us) (w.calls us))
    (h : n = number w us → HandleOk st' past' (number w us) (w.calls us))
    (ht : Table w st' us n c) : HandleOk st' past' n c := by
  cases ht with
  | same => exact h rfl
  | returned => exact ⟨(h rfl).slot, (h rfl).alive, fun _ hc => by cases hc⟩
  | freed => exact ⟨fun _ hk => (by cases hk), fun _ _ hk => (by cases hk), fun _ hc => by cases hc⟩
  | made hn =>
    refine ⟨fun k hk hpos => ?_, fun k s hk hs => ?_, fun c' hc' => ?_⟩
    · cases hk
      omega
    · cases hk
      cases World.slot_of_eq hs
    have hcall := hold.call c' hc'
    rw [hn] at hcall
    cases c' with
    | receiving len deadline =>
      obtain ⟨-, k, hk, -⟩ := hcall
      cases hk
    | recv_failed len deadline =>
      obtain ⟨-, k, s, hk, -⟩ := hcall
      cases hk
    | _ => exact hcall
  | connected s hs =>
    refine ⟨fun k hk _ => ?_, fun k s' hk hs' hc => ?_, fun _ hc => by cases hc⟩
    · cases hk
      exact ⟨s, World.slot_of_val s⟩
    cases hk
    rw [World.slot_of_val] at hs'
    cases hs'
    exact absurd hc hs
  | blocked hc =>
    refine ⟨(h rfl).slot, (h rfl).alive, fun c' hc' => ?_⟩
    cases hc'
    exact hc

lemma number_eq {w : World} (h : w'.usocks us = w.usocks us) : number w' us = number w us := by
  simp only [number, h]

/-- A step that leaves the table of handles alone. -/
lemma table_same {w : World} (hu : w'.usocks us = w.usocks us)
    (hc : w'.calls us = w.calls us) : Table w st' us (number w' us) (w'.calls us) := by
  rw [number_eq hu, hc]
  exact .same

/-- The call on the handle `v` is now `c`. -/
lemma table_goes_on {w : World} {c : Call} (hu : w'.usocks = w.usocks)
    (hc : w'.calls = update w.calls v (some c)) (hok : CallOk st' (number w v) c) :
    Table w st' us (number w' us) (w'.calls us) := by
  by_cases hv : us = v
  · subst hv
    rw [number_eq (congrFun hu us), hc, update_self]
    exact .blocked hok
  · refine table_same (congrFun hu us) ?_
    rw [hc, update_of_ne hv]

/-- The call on the handle `v` has returned. -/
lemma table_done {w : World} (hu : w'.usocks = w.usocks)
    (hc : w'.calls = update w.calls v none) :
    Table w st' us (number w' us) (w'.calls us) := by
  by_cases hv : us = v
  · subst hv
    rw [number_eq (congrFun hu us), hc, update_self]
    exact .returned
  · refine table_same (congrFun hu us) ?_
    rw [hc, update_of_ne hv]

/-- The handle `v` is free again. -/
lemma table_freed {w : World} (hu : w'.usocks = update w.usocks v none)
    (hc : w'.calls = update w.calls v none) :
    Table w st' us (number w' us) (w'.calls us) := by
  by_cases hv : us = v
  · subst hv
    have hn : number w' us = none := by simp [number, hu]
    rw [hn, hc, update_self]
    exact .freed
  · refine table_same ?_ ?_
    · rw [hu, update_of_ne hv]
    · rw [hc, update_of_ne hv]

lemma table_call {w : World} {task : Task} {op : World.Op} (hfit : lengths_fit (.call task op)) :
    Table w st' us (number (w.call task op) us) ((w.call task op).calls us) := by
  cases op with
  | socket type =>
    simp only [World.call, World.usock_socket]
    split
    · exact .same
    split
    · exact .same
    split
    · exact .same
    rename_i v hv
    have hfree : (w.usocks v).isNone := by simpa using find?_some hv
    by_cases hus : us = v
    · subst hus
      have hn : number w us = none := by simpa [number] using hfree
      have hmade : Table w st' us (some (-1)) (w.calls us) := .made hn
      simpa [number, World.returns] using hmade
    · refine table_same ?_ rfl
      simp [World.returns, hus]
  | connect v ip port =>
    simp only [World.call, World.usock_connect]
    repeat' split
    all_goals first
      | exact .same
      | exact table_goes_on rfl rfl trivial
  | send v buf len =>
    simp only [World.call, World.usock_send]
    have hfit : len < 65536 := of_decide_eq_true hfit
    repeat' split
    · exact .same
    · exact .same
    · exact .same
    · refine table_goes_on rfl rfl ?_
      show len.toNat < 65536
      omega
  | recv v len =>
    simp only [World.call, World.usock_recv]
    have hfit : len ≤ 0 ∨ len % 65536 ≠ 0 := of_decide_eq_true hfit
    split
    · exact .same
    rename_i i u hl
    split
    · exact .same
    · rename_i hpos
      refine table_goes_on rfl rfl ⟨by omega, u.nsock, ?_, by omega⟩
      simp [number, World.usock_lookup_some hl]
  | close v =>
    simp only [World.call, World.usock_close]
    split
    · exact .same
    rename_i i u _
    obtain ⟨hu, hc, -⟩ := World.release_usocks w i u
    refine table_freed (v := i) ?_ ?_
    · simp [World.returns, World.free, hu]
    · simp [World.returns, World.free, hc]
  | state v =>
    simp only [World.call, World.usock_state]
    repeat' split
    all_goals exact .same
  | setopt v opt val =>
    simp only [World.call, World.usock_setopt]
    split
    · exact .same
    rename_i i u hl
    split
    · exact .same
    rename_i u' hu'
    have hn : number { w with usocks := update w.usocks i (some u') } us =
        number w us := by
      by_cases hi : us = i
      · subst hi
        simp [number, World.usock_lookup_some hl, World.with_opt_nsock hu']
      · simp [number, hi]
    show Table w st' us (number { w with usocks := update w.usocks i (some u') } us)
      (w.calls us)
    rw [hn]
    exact .same

lemma touch_table (w : World) (v : Handle) (sock : Int) (st : Stack) :
    (w.touch v sock st).usocks = w.usocks ∧ (w.touch v sock st).calls = w.calls := by
  unfold World.touch
  split <;> exact ⟨rfl, rfl⟩

/-- A receive of at least one byte gives nothing only when the ring is empty. -/
lemma recv_nothing {sock : Int} {s : Slot} {maxlen : UInt16} (hs : slot_of sock = some s)
    (hlen : maxlen.toNat ≠ 0) (hout : (st.tcp_recv sock maxlen).2.length = 0) :
    ((st.tcp_recv sock maxlen).1.socks s).rx_head =
    ((st.tcp_recv sock maxlen).1.socks s).rx_tail := by
  obtain ⟨n, hn⟩ := Nat.exists_eq_succ_of_ne_zero hlen
  obtain ⟨-, hh, ht, ho⟩ := tcp_recv_ring ⟨st.socks s, st.sent⟩ maxlen
  unfold Stack.tcp_recv at hout ⊢
  rw [hs] at hout ⊢
  rw [ho, hn, rbuf_get] at hout
  show (update st.socks s (tcp.tcp_recv ⟨st.socks s, st.sent⟩ maxlen).1.sock s).rx_head = _
  have hsock : ((st.on s fun l => (tcp.tcp_recv l maxlen).1).socks s) =
      (tcp.tcp_recv ⟨st.socks s, st.sent⟩ maxlen).1.sock := update_self ..
  rw [update_self, hsock, hh, ht, hn, rbuf_get]
  split at hout
  · rename_i he
    rw [if_pos he]
    exact he
  · simp at hout

lemma table_piece {w : World} {u : Usock} {c : Call} (hu : w.usocks v = some u)
    (hok : CallOk w.stack (number w v) c)
    (hslot : ∀ k, number w v = some k → 0 ≤ k → ∃ s, slot_of k = some s) :
    Table w (w.piece v u c).stack us (number (w.piece v u c) us) ((w.piece v u c).calls us) := by
  have hn : number w v = some u.nsock := by simp [number, hu]
  cases c with
  | connecting ns made deadline =>
    simp only [World.piece]
    split
    · rename_i hest
      by_cases hus : us = v
      · subst hus
        have hcon : Table w w.stack us (some ns.val) none := .connected ns (by simp [hest])
        simpa [number, World.done, World.returns] using hcon
      · refine table_same ?_ ?_ <;> simp [World.done, World.returns, hus]
    · repeat' split
      · exact table_done rfl rfl
      · exact table_goes_on rfl rfl trivial
      · exact .same
  | aborting ns made => exact table_done rfl rfl
  | sending buf len total deadline =>
    have hlen : len < 65536 := hok
    simp only [World.piece]
    split
    · exact table_done rfl rfl
    obtain ⟨htu, htc⟩ := touch_table w v u.nsock
      (w.stack.tcp_send u.nsock (fun i => buf (total + i)) (len - total).toUInt16).1
    split
    · refine table_goes_on (c := .sending buf len _ deadline) htu (congrArg (update · v _) htc) ?_
      exact hlen
    · refine table_goes_on (c := .send_failed buf len total deadline) htu
        (congrArg (update · v _) htc) ?_
      exact hlen
  | send_failed buf len total deadline =>
    have hlen : len < 65536 := hok
    simp only [World.piece]
    repeat' split
    · exact table_done rfl rfl
    · exact table_done rfl rfl
    · exact table_goes_on rfl rfl (show _ < _ from hlen)
  | receiving len deadline =>
    obtain ⟨hlen, k, hk, hpos⟩ := hok
    cases hn.symm.trans hk
    obtain ⟨s, hs⟩ := hslot _ hn hpos
    simp only [World.piece]
    obtain ⟨htu, htc⟩ := touch_table w v u.nsock (w.stack.tcp_recv u.nsock len.toUInt16).1
    split
    · refine table_done (v := v) htu ?_
      show update (w.touch v u.nsock _).calls v none = _
      rw [htc]
    refine table_goes_on (c := .recv_failed len deadline) htu
      (congrArg (update · v _) htc) ⟨hlen, u.nsock, s, hn, hs, ?_⟩
    simp only [World.goes_on, World.touch_stack]
    refine recv_nothing hs ?_ (by omega)
    simpa using hlen
  | recv_failed len deadline =>
    obtain ⟨hlen, k, s, hk, hs, -⟩ := hok
    cases hn.symm.trans hk
    have hpos : 0 ≤ u.nsock := by
      rw [World.slot_of_eq hs]
      exact Int.natCast_nonneg _
    simp only [World.piece]
    repeat' split
    · exact table_done rfl rfl
    · exact table_done rfl rfl
    · exact table_done rfl rfl
    · exact table_goes_on rfl rfl ⟨hlen, u.nsock, hn, hpos⟩

lemma table_exit {w : World} (task : Task) (hs : List Handle) (w' : World)
    (h : Table w st' us (number w' us) (w'.calls us)) :
    Table w st' us (number (hs.foldl (World.cleanup_one task) w') us)
      ((hs.foldl (World.cleanup_one task) w').calls us) := by
  induction hs generalizing w' with
  | nil => exact h
  | cons v hs ih =>
    refine ih _ ?_
    unfold World.cleanup_one
    split
    · exact h
    rename_i u hu
    split
    · obtain ⟨hru, hrc, -⟩ := World.release_usocks w' v u
      by_cases hus : us = v
      · subst hus
        have hfreed : Table w st' us none none := .freed
        simpa [number, World.free] using hfreed
      · simpa [number, World.free, hus, hru, hrc] using h
    · exact h

lemma table_next (w : Watched) (i : World.Input) (hfit : lengths_fit i)
    (hok : ∀ us, HandleOk w.world.stack w.past (number w.world us) (w.world.calls us)) :
    Table w.world (w.world.next i).stack us (number (w.world.next i) us)
      ((w.world.next i).calls us) := by
  cases i with
  | rx => exact .same
  | tick => exact .same
  | net => exact .same
  | call task op =>
    simp only [World.next]
    split
    · exact table_call hfit
    · exact .same
  | resume v =>
    simp only [World.next, World.resume]
    split
    · rename_i u c hu hc
      exact table_piece hu ((hok v).call c hc) (hok v).slot
    · exact .same
  | exit task => exact table_exit task World.handles w.world .same
  | kernel op => exact .same

/-! ## Runs -/

lemma late_of_fits (hfit : w.no_late_data i) {s : Slot} {len deadline : Nat}
    (hc : w.world.calls us = some (.recv_failed len deadline))
    (hk : number w.world us = some k) (hs : slot_of k = some s)
    (hseg : w.segment_for i s = some seg) : seg.data = [] := by
  obtain ⟨u, hu, rfl⟩ := Option.map_eq_some_iff.mp hk
  have := List.all_eq_true.mp hfit us (mem_finRange us)
  simpa [hu, hc, hs, hseg] using this

lemma close_of_fits (hfit : w.not_closed_here i) {s : Slot}
    (hk : number (w.world.next i) us = some k) (hs : slot_of k = some s)
    (hc : ((w.world.next i).stack.socks s).state = .closed) :
    (w.world.stack.socks s).state = .closed ∨ arrives i = true ∨ PeerClosed (w.past s) := by
  obtain ⟨u, hu, rfl⟩ := Option.map_eq_some_iff.mp hk
  have := List.all_eq_true.mp hfit us (mem_finRange us)
  simpa [hu, hs, hc] using this

/-- A turn of the send loop offers what is left. -/
lemma Sound.offered (h : w.Sound) {o : Nat × Nat} (ho : o ∈ offered w.world i) :
    0 < o.2 ∧ o.2 ≤ o.1 := by
  unfold Watched.offered at ho
  split at ho
  · rename_i us
    split at ho
    · rename_i buf len total deadline hu hc
      split at ho
      · cases ho
      cases mem_singleton.mp ho
      have hlen : len < 65536 := (h.handles us).call _ hc
      show 0 < (len - total).toUInt16.toNat ∧ (len - total).toUInt16.toNat ≤ len - total
      have hnat : (len - total).toUInt16.toNat = (len - total) % 65536 := by simp
      omega
    · cases ho
  · cases ho

lemma ring_of_empty (h : s.rx_head = s.rx_tail) : s.ring = [] := by
  simp [TcpSocket.ring, ring.between, ring.used, h]

/-- The end of a stream is reported with an empty ring and behind the FIN or the RST. -/
lemma Sound.reported (h : w.Sound) {e : List UInt8 × Past} (he : e ∈ w.reported i) :
    e.1 = [] ∧ PeerClosed e.2 := by
  unfold Watched.reported at he
  split at he
  · rename_i us
    split at he
    · rename_i u len deadline hu hc
      dsimp only at he
      split at he
      · rename_i hst
        cases mem_singleton.mp he
        have hn : number w.world us = some u.nsock := by simp [number, hu]
        obtain ⟨-, k, s, hk, hs, hring⟩ := (h.handles us).call _ hc
        cases hn.symm.trans hk
        simp only [tcp_state, hs] at hst
        simp only [conn_of, hs]
        refine ⟨ring_of_empty hring, ?_⟩
        rcases hst with hst | hst
        · exact (h.handles us).alive _ s hn hs hst
        · exact h.streams s hst
      · cases he
    · cases he
  · cases he

lemma Sound.next (h : w.Sound) (hfit : w.Fits i) : ∃ w', step w i = some w' ∧ w'.Sound := by
  obtain ⟨hlen, hlate, hclose⟩ := hfit
  refine ⟨_, rfl, fun s hs => ?_, fun us => ?_, fun o ho => ?_, fun e he => ?_⟩
  · exact stream_effect (next_effect w i s) (h.streams s) hs
  · refine HandleOk.table (h.handles us) (fun hn => ?_) (table_next w i hlen h.handles)
    refine (h.handles us).effect (next_effect w i) h.streams ?_ ?_
    · exact fun k s len deadline seg hc hk hs hseg => late_of_fits hlate hc hk hs hseg
    · exact fun k s hk hs hc => close_of_fits hclose (hn.trans hk) hs hc
  · rcases mem_append.mp ho with ho | ho
    · exact h.offers o ho
    · exact h.offered ho
  · rcases mem_append.mp he with he | he
    · exact h.ends e he
    · exact h.reported he

/-- When lengths fit 16 bits, no data comes between the two looks of `usock_recv`, and only the
peer closes a connection that a userspace socket has, `usock_send` always offers something
and not more than is left, and `usock_recv` returns 0 only when the peer has closed and the
ring is empty. -/
theorem sends_offer_the_rest_and_receives_end_with_the_stream {local_ip : UInt32}
    {is : List World.Input}
    (h : RunOk step Fits (boot local_ip) is) :
    ∃ w, run step (boot local_ip) is = some w ∧ (∀ o ∈ w.offers, 0 < o.2 ∧ o.2 ≤ o.1) ∧
      ∀ e ∈ w.ends, e.1 = [] ∧ PeerClosed e.2 := by
  have hboot : Sound (boot local_ip) := by
    refine ⟨fun _ hs => ?_, fun us => ⟨fun _ hk => ?_, fun _ _ hk => ?_, fun _ hc => ?_⟩,
      fun _ ho => ?_, fun _ he => ?_⟩
    · cases hs
    · cases hk
    · cases hk
    · cases hc
    · cases ho
    · cases he
  obtain ⟨w, hw, hs⟩ := run_invariant (fun _ _ => Sound.next) hboot h
  exact ⟨w, hw, hs.offers, hs.ends⟩

/-! ## Small runs -/

/-- A segment of the host 20 to the first connection, with the last byte of its sequence
number. -/
def from_host (seq flags : UInt8) (data : List UInt8) : World.Input :=
  .rx 20 10 (fun i => ([0, 80, 192, 0, 0, 0, 3, seq, 0x12, 0x34, 0x56, 0x79, 80, flags, 19,
    136, 0, 0, 0, 0]
    ++ data).getD i 0) (20 + data.length)

/-- Task 1 connects, sends three bytes, receives one and then the end of the stream. -/
def a_short_talk : List World.Input :=
  let us := World.first_handle
  World.connect_first ++ World.send_first ++ [.resume us, from_host 233 TCP_ACK [7],
    .call 1 (.recv us 16), .resume us, .call 1 (.recv us 16), .resume us,
    from_host 234 (TCP_FIN ||| TCP_ACK) [], .resume us]

theorem a_short_talk_ends_with_the_stream : RunOk step Fits (boot 10) a_short_talk ∧
      ∃ w, run step (boot 10) a_short_talk = some w ∧ (∀ o ∈ w.offers, 0 < o.2 ∧ o.2 ≤ o.1) ∧
        ∀ e ∈ w.ends, e.1 = [] ∧ PeerClosed e.2 :=
  have h : RunOk step Fits (boot 10) a_short_talk := by decide +kernel
  ⟨h, sends_offer_the_rest_and_receives_end_with_the_stream h⟩

/-- Of 65536 bytes nothing is offered. A receive of 65536 bytes takes nothing out of the ring and
reports the end of the stream. So does one whose data comes between its two looks, and one
whose connection is given up because nobody answers. -/
theorem nothing_is_offered_and_the_stream_ends_early :
    (run step (boot 10) (World.connect_first ++ [.call 1 (.send 0 (fun _ => 7) 65536),
      .resume 0])).map
        (·.offers) = some [(65536, 0)] ∧
      (run step (boot 10) (World.connect_first ++ [from_host 233 TCP_ACK [7],
        from_host 234 (TCP_FIN ||| TCP_ACK) [], .call 1 (.recv 0 65536), .resume 0, .resume 0])).map
        (·.ends.map (·.1)) = some [[7]] ∧
      (run step (boot 10) (World.connect_first ++ [.call 1 (.recv 0 16), .resume 0,
        from_host 233 (TCP_FIN ||| TCP_ACK) [7], .resume 0])).map (·.ends.map (·.1)) = some [[7]] ∧
      (run step (boot 10) (World.connect_first ++ World.send_first ++ [.resume 0,
        .call 1 (.recv 0 16),
        .resume 0] ++ List.replicate 480 .tick ++ [.resume 0])).map
        (·.ends.map fun e => decide (PeerClosed e.2)) = some [false] := by
  decide +kernel

end Watched

end uaos.usock
