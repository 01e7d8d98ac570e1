-- The sending half of a TCP connection. The retransmit queue is the part of the stream that
-- is not acknowledged, cut into segments, and every segment that goes out carries the bytes
-- that the stream has at its sequence number.
import Uaos.Tcp

namespace uaos.tcp

open List

open uaos.ring uaos.serial

/-! ## Segments on the wire and in the queue -/

/-- The payload of a segment is the part of the stream `acc` that its sequence number
names, where the first byte has the number after `iss`. The last clause picks the one
offset when the stream is longer than the numbers reach. -/
def Carries (iss : UInt32) (acc : List UInt8) (seg : Segment) : Prop := seg.data = [] ∨
    ∃ o, seg.seq = num (iss + 1) o ∧ seg.data <+: acc.drop o ∧ acc.length < o + 2 ^ 32

/-- The queue has at most eight segments, each begins where the one before ends, the last
one ends at `snd_nxt`, and there are none exactly when everything is acknowledged. -/
structure QueueOk (s : TcpSocket) : Prop where
  slots : s.queue.length ≤ 8
  contiguous : s.queue.IsChain fun r r' => seq_end r = r'.seq
  ends : ∀ r ∈ s.queue.getLast?, seq_end r = s.snd_nxt
  empty : s.queue = [] ↔ s.snd_una = s.snd_nxt

/-! ## The queue as a piece of the stream -/

/-- How many sequence numbers a queued segment takes up. -/
def span (r : TcpRetxSeg) : Nat :=
  r.data.length + one_if (has r.flags TCP_SYN) + one_if (has r.flags TCP_FIN)

/-- The segment stands at the count `k` of the sequence numbers, where 0 is the SYN. -/
structure Entry (iss : UInt32) (acc : List UInt8) (k : Nat) (r : TcpRetxSeg) : Prop where
  seq : r.seq = num iss k
  pos : 0 < span r
  small : r.data.length ≤ TCP_MSS
  bytes : r.data = [] ∨ 1 ≤ k ∧ r.data <+: acc.drop (k - 1)

/-- The segments cover the counts from `k` up to `e`, one after the other. -/
def Covers (iss : UInt32) (acc : List UInt8) : Nat → List TcpRetxSeg → Nat → Prop
  | k, [], e => k = e
  | k, r :: rs, e => Entry iss acc k r ∧ Covers iss acc (k + span r) rs e

variable {iss : UInt32} {acc more : List UInt8} {k e : Nat} {r : TcpRetxSeg} {rs : List TcpRetxSeg}

lemma one_if_le (b : Bool) : one_if b ≤ 1 := by cases b <;> decide

lemma span_le (h : r.data.length ≤ TCP_MSS) : span r ≤ 1462 := by
  have h1 := one_if_le (has r.flags TCP_SYN)
  have h2 := one_if_le (has r.flags TCP_FIN)
  unfold span
  unfold TCP_MSS at h
  omega

lemma seq_end_num (h : r.seq = num iss k) : seq_end r = num iss (k + span r) := by
  rw [seq_end, h, num_add, num_add, num_add, span]
  congr 1
  omega

lemma Entry.append (h : Entry iss acc k r) : Entry iss (acc ++ more) k r := by
  refine ⟨h.seq, h.pos, h.small, ?_⟩
  rcases h.bytes with h0 | ⟨hk, hb⟩
  · exact .inl h0
  by_cases hd : r.data = []
  · exact .inl hd
  have hlt : k - 1 ≤ acc.length := by
    have := hb.length_le
    have := length_pos_iff.mpr hd
    simp only [length_drop] at *
    omega
  rw [drop_append_of_le_length hlt]
  exact .inr ⟨hk, hb.trans (List.prefix_append _ _)⟩

section

variable (h : Covers iss acc k rs e)

include h

lemma Covers.le : k ≤ e := by
  induction rs generalizing k with
  | nil => exact Nat.le_of_eq h
  | cons r rs ih =>
    have := ih h.2
    omega

lemma Covers.append : Covers iss (acc ++ more) k rs e := by
  induction rs generalizing k with
  | nil => exact h
  | cons r rs ih => exact ⟨h.1.append, ih h.2⟩

lemma Covers.push (hr : Entry iss acc e r) : Covers iss acc k (rs ++ [r]) (e + span r) := by
  induction rs generalizing k with
  | nil =>
    obtain rfl : k = e := h
    exact ⟨hr, rfl⟩
  | cons r' rs ih => exact ⟨h.1, ih h.2⟩

lemma Covers.chain : rs.IsChain fun r r' => seq_end r = r'.seq := by
  induction rs generalizing k with
  | nil => exact isChain_nil
  | cons r rs ih =>
    cases rs with
    | nil => exact isChain_singleton r
    | cons r' rs =>
      refine isChain_cons_cons.mpr ⟨?_, ih h.2⟩
      rw [seq_end_num h.1.seq, h.2.1.seq]

lemma Covers.last : ∀ r ∈ rs.getLast?, seq_end r = num iss e := by
  induction rs generalizing k with
  | nil => simp
  | cons r rs ih =>
    cases rs with
    | nil =>
      intro x hx
      simp only [getLast?_singleton, Option.mem_some_iff] at hx
      subst hx
      rw [seq_end_num h.1.seq, show k + span r = e from h.2]
    | cons r' rs =>
      intro x hx
      exact ih h.2 x hx

end

/-! ## Acknowledgements -/

lemma seq_gt_num {m n : Nat} (h1 : m ≤ n + 2 ^ 31) (h2 : n < m + 2 ^ 31) :
    seq_gt (num iss n) (num iss m) = decide (m < n) := by
  rw [seq_gt, ahead_num h1 h2]
  congr 1
  simp

/-- The entries that an acknowledgement covers. -/
def covered (ack : UInt32) (r : TcpRetxSeg) : Bool := !seq_gt (seq_end r) ack

lemma retire_items (q : Nat → TcpRetxSeg) (ack : UInt32) (head n : Nat)
    (h : head < TCP_RETX_SLOTS) :
    (retire q ack head n).1 < TCP_RETX_SLOTS ∧ (retire q ack head n).2 ≤ n ∧
      items q TCP_RETX_SLOTS (retire q ack head n).1 (retire q ack head n).2 =
        (items q TCP_RETX_SLOTS head n).dropWhile (covered ack) := by
  induction n generalizing head with
  | zero => exact ⟨h, le_refl 0, rfl⟩
  | succ n ih =>
    rw [items_pop h, retire]
    by_cases hgt : seq_gt (seq_end (q head)) ack
    · rw [if_pos hgt, dropWhile_cons_of_neg (by simp [covered, hgt])]
      exact ⟨h, le_refl _, items_pop h⟩
    · rw [if_neg hgt, dropWhile_cons_of_pos (by simp [covered, hgt])]
      obtain ⟨h1, h2, h3⟩ := ih ((head + 1) % TCP_RETX_SLOTS) (Nat.mod_lt _ (by decide))
      exact ⟨h1, by omega, h3⟩

/-- What is left of the queue after an acknowledgement of the count `a` begins with the
entry that `a` falls in. -/
lemma Covers.retire {a : Nat} (h : Covers iss acc k rs e) (hk : k ≤ a) (ha : a ≤ e)
    (he : e < k + 2 ^ 31) :
    ∃ k', k ≤ k' ∧ k' ≤ a ∧ Covers iss acc k' (rs.dropWhile (covered (num iss a))) e ∧
      ∀ r rest, rs.dropWhile (covered (num iss a)) = r :: rest → a < k' + span r := by
  induction rs generalizing k with
  | nil => exact ⟨k, le_refl k, hk, h, fun r rest hr => by cases hr⟩
  | cons r rs ih =>
    have hle := h.2.le
    have hgt : seq_gt (seq_end r) (num iss a) = decide (a < k + span r) := by
      rw [seq_end_num h.1.seq]
      exact seq_gt_num (by omega) (by omega)
    by_cases hin : a < k + span r
    · rw [dropWhile_cons_of_neg (by simp [covered, hgt, hin])]
      refine ⟨k, le_refl k, hk, h, fun x rest hx => ?_⟩
      cases hx
      exact hin
    · rw [dropWhile_cons_of_pos (by simp [covered, hgt, hin])]
      obtain ⟨k', h1, h2⟩ := ih h.2 (by omega) (by omega)
      exact ⟨k', by omega, h2⟩

/-! ## The invariant of the sending half -/

/-- This side has not sent its FIN in these states. -/
def fin_unsent (st : TcpState) : Bool :=
  st = .syn_sent ∨ st = .syn_received ∨ st = .established ∨ st = .close_wait

/-- `U` counts the sequence numbers that are acknowledged, `N` those that are sent, and the
queue covers what is between, from `k` on. -/
structure SendOk (iss : UInt32) (acc : List UInt8) (s : TcpSocket) (k U N : Nat) : Prop where
  nxt : s.snd_nxt = num iss N
  una : s.snd_una = num iss U
  le : U ≤ N
  near : N ≤ U + 65535
  head : s.retx_head < TCP_RETX_SLOTS
  nseg : s.retx_nseg ≤ TCP_RETX_SLOTS
  covers : Covers iss acc k s.queue N
  first_le : k ≤ U
  first : ∀ r rest, s.queue = r :: rest → U < k + span r
  all : acc.length < N
  unsent : fin_unsent s.state → N = acc.length + 1

def Sending (iss : UInt32) (acc : List UInt8) (s : TcpSocket) : Prop :=
  ∃ k U N, SendOk iss acc s k U N

variable {s t : TcpSocket} {U N : Nat}

lemma SendOk.queue_nil (h : SendOk iss acc s k U N) : s.queue = [] ↔ U = N := by
  have hc := h.covers
  have h1 := h.first_le
  have h2 := h.le
  constructor
  · intro h0
    rw [h0] at hc
    obtain rfl : k = N := hc
    omega
  intro h0
  cases hq : s.queue with
  | nil => rfl
  | cons r rest =>
    have h3 := h.first r rest hq
    rw [hq] at hc
    have := hc.2.le
    omega

lemma SendOk.una_eq_nxt (h : SendOk iss acc s k U N) : s.snd_una = s.snd_nxt ↔ U = N := by
  rw [h.una, h.nxt]
  exact num_inj_of_near h.le (by have := h.near; omega)

/-- The queue reaches back less than half of the sequence numbers. -/
lemma SendOk.back (h : SendOk iss acc s k U N) : N ≤ k + 67000 := by
  have h1 := h.near
  cases hq : s.queue with
  | nil =>
    have hc := h.covers
    rw [hq] at hc
    obtain rfl : k = N := hc
    omega
  | cons r rest =>
    have h3 := h.first r rest hq
    have hc := h.covers
    rw [hq] at hc
    have := span_le hc.1.small
    omega

lemma Sending.queueOk (h : Sending iss acc s) : QueueOk s := by
  obtain ⟨k, U, N, h⟩ := h
  refine ⟨?_, h.covers.chain, ?_, ?_⟩
  · rw [TcpSocket.queue, length_items]
    exact h.nseg
  · rw [h.nxt]
    exact h.covers.last
  · rw [h.queue_nil, h.una_eq_nxt]

/-- The fields that the sending half is about. -/
structure SameSend (s t : TcpSocket) : Prop where
  nxt : t.snd_nxt = s.snd_nxt
  una : t.snd_una = s.snd_una
  head : t.retx_head = s.retx_head
  nseg : t.retx_nseg = s.retx_nseg
  q : t.retx_q = s.retx_q
  state : fin_unsent t.state → fin_unsent s.state

lemma Sending.congr (h : Sending iss acc s) (hs : SameSend s t) : Sending iss acc t := by
  obtain ⟨k, U, N, h⟩ := h
  have hq : t.queue = s.queue := by rw [TcpSocket.queue, hs.q, hs.head, hs.nseg, ← TcpSocket.queue]
  exact ⟨k, U, N, hs.nxt.trans h.nxt, hs.una.trans h.una, h.le, h.near, hs.head ▸ h.head,
    hs.nseg ▸ h.nseg, hq ▸ h.covers, h.first_le, hq ▸ h.first, h.all,
      fun hf => h.unsent (hs.state hf)⟩

/-- An acknowledgement is taken only when it is for something that is sent and not yet
acknowledged. -/
lemma ack_in_window (h : SendOk iss acc s k U N) {ack : UInt32}
    (h1 : seq_gt ack s.snd_una) (h2 : seq_gt ack s.snd_nxt = false) :
    ∃ a, ack = num iss a ∧ U < a ∧ a ≤ N := by
  have hack := exists_num iss ack U
  obtain ⟨d, hd⟩ : ∃ d, (ack - num iss U).toNat = d := ⟨_, rfl⟩
  rw [hd] at hack
  have hgt : 0 < d ∧ d < 2 ^ 31 := by
    have hpos : 0 < ahead ack s.snd_una := by simpa [seq_gt] using h1
    rw [ahead_eq, h.una, hd] at hpos
    have := (ack - num iss U).toNat_lt
    split at hpos <;> omega
  refine ⟨U + d, hack, by omega, ?_⟩
  by_contra hlt
  have hle := h.le
  rw [h.nxt, hack, seq_gt_num (by omega) (by omega)] at h2
  exact absurd (decide_eq_false_iff_not.mp h2) (by omega)

lemma Sending.rx_ack (h : Sending iss acc s) (seg : Segment) : Sending iss acc (rx_ack s seg) := by
  obtain ⟨k, U, N, h⟩ := h
  unfold tcp.rx_ack
  split
  · rename_i hin
    simp only [Bool.and_eq_true, Bool.not_eq_true'] at hin
    obtain ⟨a, ha, hU, hN⟩ := ack_in_window h hin.1 hin.2
    have hback := h.back
    have hfirst := h.first_le
    have hnear := h.near
    obtain ⟨hh, hn, hit⟩ := retire_items s.retx_q seg.ack s.retx_head s.retx_nseg h.head
    obtain ⟨k', _, hk', hc, hf⟩ := h.covers.retire (a := a) (by omega) hN (by omega)
    rw [← ha, TcpSocket.queue, ← hit] at hc hf
    exact ⟨k', a, N, h.nxt, ha, hN, by omega, hh, hn.trans h.nseg, hc, hk', hf, h.all, h.unsent⟩
  · exact ⟨k, U, N, h.nxt, h.una, h.le, h.near, h.head, h.nseg, h.covers, h.first_le,
      h.first, h.all,
      h.unsent⟩

/-! ## New segments -/

lemma queue_enqueue (h : s.retx_nseg < TCP_RETX_SLOTS) : (enqueue s r).queue = s.queue ++ [r] :=
  items_push h r

/-- A new segment goes behind the queue. The stream may have grown by its bytes. -/
lemma SendOk.enqueue (h : SendOk iss acc s k U N) (hfree : s.retx_nseg < TCP_RETX_SLOTS)
    (hr : Entry iss (acc ++ more) N r) (hnear : N + span r ≤ U + 65535)
    (hall : (acc ++ more).length < N + span r) (ht : t.snd_nxt = num iss (N + span r))
    (hu : t.snd_una = s.snd_una) (hh : t.retx_head = s.retx_head) (hn : t.retx_nseg = s.retx_nseg)
    (hq : t.retx_q = s.retx_q) (hst : fin_unsent t.state → N + span r = (acc ++ more).length + 1) :
    SendOk iss (acc ++ more) (enqueue t r) k U (N + span r) := by
  have hqueue : (tcp.enqueue t r).queue = s.queue ++ [r] := by
    rw [queue_enqueue (hn ▸ hfree), TcpSocket.queue, hq, hh, hn, ← TcpSocket.queue]
  refine ⟨ht, hu.trans h.una, by have := h.le; omega, hnear, hh.symm ▸ h.head, ?_, ?_,
    h.first_le, ?_,
    hall, hst⟩
  · show t.retx_nseg + 1 ≤ _
    omega
  · rw [hqueue]
    exact h.covers.append.push hr
  intro x rest hx
  rw [hqueue] at hx
  generalize hs : s.queue = r at hx
  cases r with
  | nil =>
    cases hx
    have hc := h.covers
    rw [hs] at hc
    obtain rfl : k = N := hc
    have := h.le
    have := hr.pos
    omega
  | cons y ys =>
    cases hx
    exact h.first _ _ hs

/-- A segment without data takes up the numbers of its flags. -/
lemma span_flags (seq : UInt32) (flags : UInt8) :
    span { seq, flags, data := [] } = one_if (has flags TCP_SYN) + one_if (has flags TCP_FIN) := by
  simp [span]

lemma fin_state_sent (st : TcpState) : fin_unsent (fin_state st) = false := by
  cases st <;> decide

/-- The FIN goes out when everything is acknowledged. -/
lemma Sending.fin (h : Sending iss acc s) (hd : s.snd_una = s.snd_nxt) (hs : SameSend s t)
    (hopen : fin_unsent s.state) (ht : fin_unsent t.state = false) (sent : List Packet) :
    Sending iss acc (tcp_send_seg ⟨t, sent⟩ (TCP_FIN ||| TCP_ACK) []).sock := by
  obtain ⟨k, U, N, h⟩ := h
  have hUN := h.una_eq_nxt.mp hd
  have hq0 := h.queue_nil.mpr hUN
  have hn0 : s.retx_nseg = 0 := items_eq_nil.mp hq0
  have hN := h.unsent hopen
  have hspan : span { seq := t.snd_nxt, flags := TCP_FIN ||| TCP_ACK, data := [] } = 1 := by
    rw [span_flags]
    decide
  have hseq : t.snd_nxt = num iss N := hs.nxt.trans h.nxt
  have hent : Entry iss (acc ++ []) N
      { seq := t.snd_nxt, flags := TCP_FIN ||| TCP_ACK, data := [] } :=
    ⟨hseq, by rw [hspan]; exact Nat.one_pos, Nat.zero_le _, .inl rfl⟩
  have hnext : t.snd_nxt + UInt32.ofNat 1 + UInt32.ofNat 0 = num iss (N + 1) := by
    rw [hseq, num_add, num_add]
  have hpush := h.enqueue (t := { t with snd_nxt := t.snd_nxt + UInt32.ofNat 1 + UInt32.ofNat 0 })
    (by rw [hn0]; decide) hent (by rw [hspan]; omega) (by rw [hspan, append_nil]; omega)
    (by rw [hspan]; exact hnext) hs.una hs.head hs.nseg hs.q (fun hf => by
      rw [show fin_unsent t.state = true from hf] at ht
      cases ht)
  rw [append_nil] at hpush
  exact ⟨k, U, _, hpush⟩

/-! ## Everything that goes out -/

/-- The sending half is in order and what has been sent carries the stream. -/
structure LinkOk (iss : UInt32) (acc : List UInt8) (l : Link) : Prop where
  sending : Sending iss acc l.sock
  sent : ∀ p ∈ l.sent, Carries iss acc p.seg

variable {l : Link}

lemma LinkOk.update (h : LinkOk iss acc l) (hs : SameSend l.sock t) :
    LinkOk iss acc { l with sock := t } := ⟨h.sending.congr hs, h.sent⟩

lemma LinkOk.emit (h : LinkOk iss acc l) (seq : UInt32) (flags : UInt8) :
    LinkOk iss acc (tcp_emit l seq flags []) := by
  refine ⟨h.sending, fun p hp => ?_⟩
  rcases mem_append.mp hp with hp | hp
  · exact h.sent p hp
  · rw [mem_singleton.mp hp]
    exact .inl rfl

lemma LinkOk.fin (h : LinkOk iss acc l) (hd : l.sock.snd_una = l.sock.snd_nxt)
    (hs : SameSend l.sock t) (hopen : fin_unsent l.sock.state) (ht : fin_unsent t.state = false) :
    LinkOk iss acc (tcp_send_seg { l with sock := t } (TCP_FIN ||| TCP_ACK) []) := by
  refine ⟨h.sending.fin hd hs hopen ht l.sent, ?_⟩
  exact ((h.update hs).emit t.snd_nxt _).sent

/-- A segment that is sent from a queue entry carries the stream. -/
lemma Entry.carries (h : Entry iss acc k r) (hk : acc.length < k + 2 ^ 31) {seg : Segment}
    (hseq : seg.seq = r.seq) (hdata : seg.data = r.data.take TCP_MSS) : Carries iss acc seg := by
  rw [take_of_length_le h.small] at hdata
  rcases h.bytes with h0 | ⟨hpos, hb⟩
  · exact .inl (hdata.trans h0)
  refine .inr ⟨k - 1, ?_, hdata ▸ hb, by omega⟩
  rw [hseq, h.seq, num_succ_base]
  congr 1
  omega

section

variable (h : LinkOk iss acc l)

include h

lemma LinkOk.retransmit : LinkOk iss acc (tcp_retransmit l) := by
  unfold tcp_retransmit
  split
  · exact h
  rename_i hq
  refine ⟨h.sending, fun p hp => ?_⟩
  rcases mem_append.mp hp with hp | hp
  · exact h.sent p hp
  obtain ⟨k, U, N, hs⟩ := h.sending
  obtain ⟨n, hn⟩ : ∃ n, l.sock.retx_nseg = n + 1 := Nat.exists_eq_succ_of_ne_zero hq
  have hc := hs.covers
  rw [TcpSocket.queue, hn, items_pop hs.head] at hc
  have hback := hs.back
  have hall := hs.all
  rw [mem_singleton.mp hp]
  exact hc.1.carries (by omega) rfl rfl

/-! ## Every function keeps the sending half in order -/

lemma LinkOk.rx_data (seq : UInt32) (data : List UInt8) :
    LinkOk iss acc (tcp_rx_data l seq data) := by
  unfold tcp_rx_data
  simp only [tcp_send_seg_ack]
  split
  · exact h.emit _ _
  split
  · exact h.emit _ _
  · refine (h.update ?_).emit _ _
    exact ⟨rfl, rfl, rfl, rfl, rfl, id⟩

lemma LinkOk.payload (seg : Segment) : LinkOk iss acc (rx_payload l seg) := by
  unfold rx_payload
  split
  · exact h.rx_data _ _
  · exact h

lemma LinkOk.last_fin (seg : Segment) : LinkOk iss acc (rx_last_fin l seg) := by
  unfold rx_last_fin
  simp only [tcp_send_seg_ack]
  split
  · refine ((h.update ?_).emit _ _).update ?_
    · exact ⟨rfl, rfl, rfl, rfl, rfl, id⟩
    · exact ⟨rfl, rfl, rfl, rfl, rfl, by simp [fin_unsent]⟩
  · exact h

lemma LinkOk.switch (seg : Segment) : LinkOk iss acc (rx_switch l seg) := by
  have hpay := h.payload seg
  have hst := rx_payload_state l seg
  unfold rx_switch
  simp only [tcp_send_seg_ack]
  split
  · rename_i hs
    split
    · refine (h.update ?_).emit _ _
      exact ⟨rfl, rfl, rfl, rfl, rfl, by simp [fin_unsent, hs]⟩
    · exact h
  · rename_i hs
    split
    · exact h.update ⟨rfl, rfl, rfl, rfl, rfl, by simp [fin_unsent, hs]⟩
    · split
      · exact h.retransmit
      · exact h
  · rename_i hs
    split
    · refine (hpay.update ?_).emit _ _
      exact ⟨rfl, rfl, rfl, rfl, rfl, by simp [fin_unsent, hst, hs]⟩
    · exact hpay
  · refine LinkOk.last_fin ?_ seg
    split
    · exact hpay.update ⟨rfl, rfl, rfl, rfl, rfl, by simp [fin_unsent]⟩
    · exact hpay
  · refine LinkOk.last_fin ?_ seg
    split
    · exact hpay.update ⟨rfl, rfl, rfl, rfl, rfl, id⟩
    · exact hpay
  · split
    · exact h.rx_data _ _
    · split
      · exact h.emit _ _
      · exact h
  · split
    · exact h.update ⟨rfl, rfl, rfl, rfl, rfl, by simp [fin_unsent]⟩
    · exact h
  · split
    · exact (h.emit _ _).update ⟨rfl, rfl, rfl, rfl, rfl, id⟩
    · exact h
  · exact h
  · exact h

lemma LinkOk.rx (seg : Segment) : LinkOk iss acc (tcp_rx l seg) := by
  have hclose : ∀ l', LinkOk iss acc l' → LinkOk iss acc { l' with sock.state := .closed } :=
    fun l' h' => h'.update ⟨rfl, rfl, rfl, rfl, rfl, by simp [fin_unsent]⟩
  have hack : LinkOk iss acc
      (if has seg.flags TCP_ACK then { l with sock := rx_ack l.sock seg } else l) := by
    split
    · exact ⟨h.sending.rx_ack seg, h.sent⟩
    · exact h
  unfold tcp_rx rx_sock
  split
  · exact h
  split
  · exact hclose l h
  dsimp only
  split
  · exact hclose _ hack
  · exact hack.switch seg

lemma LinkOk.turns {l' : Link} (ht : Turns l l') : LinkOk iss acc l' := by
  induction ht with
  | mark => exact h.update ⟨rfl, rfl, rfl, rfl, rfl, id⟩
  | shut => exact h.update ⟨rfl, rfl, rfl, rfl, rfl, by simp [fin_unsent]⟩
  | reset => exact h.emit _ _
  | again => exact h.retransmit
  | fin l _ hst hu =>
    have hopen : fin_unsent l.sock.state := by
      rcases hst with hst | hst | hst <;> simp [fin_unsent, hst]
    exact h.fin hu ⟨rfl, rfl, rfl, rfl, rfl, fun _ => hopen⟩ hopen (fin_state_sent _)
  | trans _ _ ih ih' => exact ih' (ih h)

lemma LinkOk.recv (maxlen : UInt16) : LinkOk iss acc (tcp_recv l maxlen).1 := by
  unfold tcp_recv
  simp only [tcp_send_seg_ack]
  -- The timer of CLOSE_WAIT first, then the segment that tells of the room.
  split
  · split
    · refine (h.update ?_).emit _ _
      exact ⟨rfl, rfl, rfl, rfl, rfl, id⟩
    · exact h.update ⟨rfl, rfl, rfl, rfl, rfl, id⟩
  · split
    · refine (h.update ?_).emit _ _
      exact ⟨rfl, rfl, rfl, rfl, rfl, id⟩
    · exact h.update ⟨rfl, rfl, rfl, rfl, rfl, id⟩

end

lemma span_data (seq : UInt32) (data : List UInt8) :
    span { seq, flags := TCP_PSH ||| TCP_ACK, data } = data.length := by
  show data.length + one_if (has (TCP_PSH ||| TCP_ACK) TCP_SYN)
    + one_if (has (TCP_PSH ||| TCP_ACK) TCP_FIN) = data.length
  rw [show one_if (has (TCP_PSH ||| TCP_ACK) TCP_SYN) = 0 by decide,
    show one_if (has (TCP_PSH ||| TCP_ACK) TCP_FIN) = 0 by decide, Nat.add_zero]

/-- A data segment goes behind the stream and into the queue. -/
lemma LinkOk.send_seg (h : LinkOk iss acc l) (hnone : l.sent = []) (hopen : fin_unsent l.sock.state)
    (hfree : l.sock.retx_nseg < TCP_RETX_SLOTS) {d : List UInt8} (hd : 0 < d.length)
    (hmss : d.length ≤ TCP_MSS)
    (hwnd : (l.sock.snd_nxt - l.sock.snd_una).toNat + d.length ≤ 65535) :
    LinkOk iss (acc ++ d) (tcp_send_seg l (TCP_PSH ||| TCP_ACK) d) := by
  obtain ⟨k, U, N, hs⟩ := h.sending
  have hN := hs.unsent hopen
  have hle := hs.le
  have hnear := hs.near
  rw [hs.nxt, hs.una, toNat_num_sub hle (by omega)] at hwnd
  have hspan := span_data l.sock.snd_nxt d
  have hent : Entry iss (acc ++ d) N
      { seq := l.sock.snd_nxt, flags := TCP_PSH ||| TCP_ACK, data := d } := by
    refine ⟨hs.nxt, hspan.symm ▸ hd, hmss, .inr ⟨by omega, ?_⟩⟩
    rw [hN, Nat.add_sub_cancel, drop_left]
  have hpush := hs.enqueue (t := { l.sock with snd_nxt := l.sock.snd_nxt + UInt32.ofNat d.length })
    hfree hent (by rw [hspan]; omega) (by rw [hspan, length_append]; omega)
    (by rw [hspan, hs.nxt, num_add]) rfl rfl rfl rfl
    (fun _ => by rw [hspan, length_append]; omega)
  have hseg : tcp_send_seg l (TCP_PSH ||| TCP_ACK) d =
    { tcp_emit l l.sock.snd_nxt (TCP_PSH ||| TCP_ACK) d with
      sock := tcp.enqueue { l.sock with snd_nxt := l.sock.snd_nxt + UInt32.ofNat d.length }
        { seq := l.sock.snd_nxt, flags := TCP_PSH ||| TCP_ACK, data := d } } := by
    have hno : has (TCP_PSH ||| TCP_ACK) (TCP_SYN ||| TCP_FIN) = false := by decide
    simp [tcp_send_seg, take_of_length_le hmss, hno, one_if, hd, tcp_emit]
  rw [hseg]
  refine ⟨⟨k, U, _, hpush⟩, fun p hp => ?_⟩
  rcases mem_append.mp hp with hp | hp
  · rw [hnone] at hp
    cases hp
  · rw [mem_singleton.mp hp]
    exact hent.carries (by rw [length_append]; omega) rfl rfl

/-- The bytes that `tcp_send` takes go behind the stream and into the queue. -/
lemma LinkOk.send (h : LinkOk iss acc l) (hnone : l.sent = []) (data : Buf) (len : UInt16) :
    LinkOk iss (acc ++ slice data 0 (tcp_send l data len).2) (tcp_send l data len).1 := by
  have hstay : LinkOk iss (acc ++ slice data 0 0) l := by
    rw [show slice data 0 0 = [] from rfl, append_nil]
    exact h
  unfold tcp_send
  dsimp only
  split
  · exact hstay
  rename_i hst
  split
  · exact hstay
  rename_i hlen
  split
  · exact hstay
  split
  · exact hstay
  have hopen : fin_unsent l.sock.state := by
    rcases Decidable.not_and_iff_not_or_not.mp hst with hst | hst <;>
      simp [fin_unsent, Decidable.not_not.mp hst]
  have hpos : 0 < len.toNat := by
    have : len.toNat ≠ 0 := fun h0 => hlen (.inl (UInt16.toNat_inj.mp h0))
    omega
  have hsend := h.send_seg hnone hopen (by omega)
    (d := slice data 0 (min (min len.toNat
      (l.sock.snd_wnd.toNat - (l.sock.snd_nxt - l.sock.snd_una).toNat)) TCP_MSS))
    (by rw [slice_length]; unfold TCP_MSS; omega)
    (by rw [slice_length]; omega)
    (by rw [slice_length]; have := l.sock.snd_wnd.toNat_lt; omega)
  split
  · exact hsend.update ⟨rfl, rfl, rfl, rfl, rfl, id⟩
  · exact hsend

/-! ## Runs -/

/-- The SYN of a new connection is all that is in the queue. -/
lemma linkOk_syn {flags : UInt8} (hn : s.snd_nxt = iss) (hu : s.snd_una = iss)
    (hh : s.retx_head = 0) (hq : s.retx_nseg = 0) (hflags : has flags (TCP_SYN ||| TCP_FIN))
    (hsyn : one_if (has flags TCP_SYN) + one_if (has flags TCP_FIN) = 1) :
    LinkOk iss [] (tcp_send_seg ⟨s, []⟩ flags []) := by
  have hspan : span { seq := s.snd_nxt, flags, data := [] } = 1 := (span_flags _ _).trans hsyn
  have hseg : tcp_send_seg ⟨s, []⟩ flags [] = { tcp_emit ⟨s, []⟩ s.snd_nxt flags [] with
      sock := enqueue { s with snd_nxt := s.snd_nxt + UInt32.ofNat 1 + UInt32.ofNat 0 }
        { seq := s.snd_nxt, flags, data := [] } } := by
    simp [tcp_send_seg, hflags, one_if, tcp_emit]
  have hqueue : (enqueue { s with snd_nxt := s.snd_nxt + UInt32.ofNat 1 + UInt32.ofNat 0 }
      { seq := s.snd_nxt, flags, data := [] }).queue =
      [{ seq := s.snd_nxt, flags, data := [] }] := by
    rw [queue_enqueue]
    · show items s.retx_q TCP_RETX_SLOTS s.retx_head s.retx_nseg ++ _ = _
      rw [hq, items_zero, nil_append]
    · show s.retx_nseg < TCP_RETX_SLOTS
      rw [hq]
      decide
  rw [hseg]
  refine ⟨⟨0, 0, 1, ?_, hu.trans num_zero.symm, by omega, by omega, ?_, ?_, ?_, le_refl 0, ?_,
    Nat.one_pos, fun _ => rfl⟩, fun p hp => ?_⟩
  · show s.snd_nxt + UInt32.ofNat 1 + UInt32.ofNat 0 = num iss 1
    have h0 : s.snd_nxt = num iss 0 := hn.trans num_zero.symm
    rw [h0, num_add, num_add]
  · show s.retx_head < TCP_RETX_SLOTS
    rw [hh]
    decide
  · show s.retx_nseg + 1 ≤ TCP_RETX_SLOTS
    rw [hq]
    decide
  · rw [hqueue]
    exact ⟨⟨hn.trans num_zero.symm, by rw [hspan]; decide, Nat.zero_le _,
      .inl rfl⟩, by rw [hspan]; rfl⟩
  · intro r rest hr
    rw [hqueue] at hr
    cases hr
    rw [hspan]
    decide
  · rw [mem_singleton.mp hp]
    exact .inl rfl

lemma linkOk_opening (o : Opening) : LinkOk o.isn [] o.conn.link := by
  cases o with
  | active e => exact linkOk_syn rfl rfl rfl rfl (by decide) (by decide)
  | passive e seq => exact linkOk_syn rfl rfl rfl rfl (by decide) (by decide)

lemma LinkOk.step {c : Conn} (h : LinkOk iss c.taken c.link) (ev : Event) :
    LinkOk iss (step c ev).taken (step c ev).link := by
  have h0 : LinkOk iss c.taken { c.link with sent := [] } := ⟨h.sending, by simp⟩
  cases ev with
  | rx seg => exact h0.rx seg
  | send data len => exact h0.send rfl data len
  | recv maxlen => exact h0.recv maxlen
  | accept => exact h0.update ⟨rfl, rfl, rfl, rfl, rfl, id⟩
  | close => exact h0.turns (tcp_close_turns _)
  | abort => exact h0.update ⟨rfl, rfl, rfl, rfl, rfl, by simp [fin_unsent]⟩
  | tick => exact h0.turns (tcp_tick_turns _)

/-- A connection to the host 20 that is established. -/
def talking : Conn :=
  step (Opening.active ⟨1, 10, 49152, 20, 80, 1000⟩).conn
    (.rx ⟨80, 49152, 500, 1001, TCP_SYN ||| TCP_ACK, 5000, []⟩)

/-- Three bytes that nobody acknowledges are sent again after ten ticks. -/
example :
    let c := (Event.send (fun _ => 7) 3 :: List.replicate 10 .tick).foldl step talking
    c.link.sent.map (fun p => (p.seg.seq, p.seg.data)) = [(1001, [7, 7, 7])] := by
  decide +kernel

end uaos.tcp
