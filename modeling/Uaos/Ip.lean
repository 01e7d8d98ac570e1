-- Packets that come in from the network (ip.c, icmp.c, udp.c): the header checks of ip_rx
-- and what the next layer is given. A packet is the memory from its first byte on, so that
-- reading past its length is reading something.
import Uaos.Disk

namespace uaos.net

/-! ## Numbers in network order -/

def u16 (n : Nat) : Nat := n % 65536

/-- The 16 bit number at the offset `i`. -/
def net_ntohs (b : Buf) (i : Nat) : Nat := (b i).toNat * 256 + (b (i + 1)).toNat

/-- The 32 bit number at the offset `i`. -/
def net_ntohl (b : Buf) (i : Nat) : Nat := net_ntohs b i * 65536 + net_ntohs b (i + 2)

/-- A 16 bit number with its bytes the other way round. -/
def net_htons (v : Nat) : Nat := v / 256 + v % 256 * 256

/-- The sum of the 16 bit words of the first `len` bytes. An odd byte is the high byte of
a word. -/
def sum_words (b : Buf) : Nat → Nat → Nat
  | _, 0 => 0
  | i, 1 => (b i).toNat * 256
  | i, len + 2 => net_ntohs b i + sum_words b (i + 2) len

/-- Carries are added in until there are none. -/
def fold_carry : Nat → Nat → Nat
  | 0, sum => sum
  | n + 1, sum => if sum / 65536 = 0 then sum else fold_carry n (sum % 65536 + sum / 65536)

/-- The Internet checksum. Three rounds fold any 32 bit sum. -/
def inet_cksum (b : Buf) (len : Nat) : Nat := 65535 - fold_carry 3 (u32 (sum_words b 0 len))

lemma net_ntohs_lt (b : Buf) (i : Nat) : net_ntohs b i < 65536 := by
  have h0 := (b i).toNat_lt
  have h1 := (b (i + 1)).toNat_lt
  unfold net_ntohs
  omega

/-! ## ip_rx -/

inductive Proto where
  | icmp
  | udp
  | tcp
  deriving DecidableEq

def proto_of (n : Nat) : Option Proto :=
  if n = 1 then some .icmp else if n = 17 then some .udp else if n = 6 then some .tcp else none

/-- What a handler of the next layer is called with: the payload is `plen` bytes from the
offset `off` of the packet on. -/
structure Delivery where
  proto : Proto
  src_ip : Nat
  dst_ip : Nat
  ttl : Nat
  off : Nat
  plen : Nat
  deriving DecidableEq

def IP_HDR_LEN : Nat := 20

/-- The header length that the packet claims. -/
def ihl_of (pkt : Buf) : Nat := (pkt 0).toNat % 16 * 4

/-- The total length that the packet claims. -/
def tot_len_of (pkt : Buf) : Nat := net_ntohs pkt 2

/-- The checksum of the header with the checksum field zero. -/
def header_cksum (pkt : Buf) : Nat := net_htons (inet_cksum (put pkt 10 [0, 0]) (ihl_of pkt))

/-- The packet is dropped, or its payload is delivered. -/
def ip_rx (pkt : Buf) (len : Nat) : Option Delivery :=
  if len < IP_HDR_LEN then none
  else if (pkt 0).toNat / 16 ≠ 4 then none
  else
    let ihl := ihl_of pkt
    let tot_len := tot_len_of pkt
    if len < tot_len ∨ ihl < IP_HDR_LEN then none
    else if header_cksum pkt ≠ le16 pkt 10 then none
    else if net_ntohs pkt 6 % 16384 ≠ 0 then none
    else
      (proto_of (pkt 9).toNat).map fun p =>
        { proto := p
          src_ip := net_ntohl pkt 12
          dst_ip := net_ntohl pkt 16
          ttl := (pkt 8).toNat
          off := ihl
          plen := u16 (tot_len + 65536 - ihl) }

/-- The payload as the handler sees it. -/
def payload (pkt : Buf) (dl : Delivery) : Buf := fun j => pkt (dl.off + j)

variable {pkt : Buf} {len : Nat} {dl : Delivery}

/-- What a packet that is delivered has passed. -/
lemma ip_rx_some (h : ip_rx pkt len = some dl) :
    tot_len_of pkt ≤ len ∧ dl.off = ihl_of pkt ∧ 20 ≤ ihl_of pkt ∧
      dl.plen = u16 (tot_len_of pkt + 65536 - ihl_of pkt) := by
  unfold ip_rx at h
  dsimp only at h
  split at h
  · cases h
  split at h
  · cases h
  split at h
  · cases h
  rename_i hlen
  split at h
  · cases h
  split at h
  · cases h
  obtain ⟨p, _, rfl⟩ := Option.map_eq_some_iff.mp h
  unfold IP_HDR_LEN at hlen
  exact ⟨by omega, rfl, by omega, rfl⟩

/-- The payload lies in what was received and in what the header claims, and its length is
the difference of the two lengths in the header. -/
structure Consistent (pkt : Buf) (len : Nat) (dl : Delivery) : Prop where
  received : dl.off + dl.plen ≤ len
  claimed : dl.off + dl.plen ≤ tot_len_of pkt
  exact : (dl.plen : Int) = (tot_len_of pkt : Int) - (ihl_of pkt : Int)

lemma consistent_of_cover (hcover : ihl_of pkt ≤ tot_len_of pkt) (h : ip_rx pkt len = some dl) :
    Consistent pkt len dl := by
  obtain ⟨hlen, hoff, h20, hplen⟩ := ip_rx_some h
  have htot := net_ntohs_lt pkt 2
  change tot_len_of pkt < 65536 at htot
  have hexact : dl.plen = tot_len_of pkt - ihl_of pkt := by
    rw [hplen]
    unfold u16
    omega
  refine ⟨by omega, by omega, ?_⟩
  omega

/-- A packet that claims fewer bytes than its header has is never delivered with a
consistent payload. -/
lemma short_total_never_consistent (hshort : tot_len_of pkt < ihl_of pkt) :
    ¬ Consistent pkt len dl := by
  intro hc
  have := hc.exact
  omega

/-- The payload of a delivered packet is consistent with its length fields and with what was
received exactly if its total length covers its header. -/
theorem a_delivered_payload_is_consistent_iff (pkt : Buf) (len : Nat) (dl : Delivery)
    (h : ip_rx pkt len = some dl) : Consistent pkt len dl ↔ ihl_of pkt ≤ tot_len_of pkt := by
  constructor
  · intro hc
    by_contra hshort
    exact short_total_never_consistent (not_le.mp hshort) hc
  · intro hcover
    exact consistent_of_cover hcover h

/-! ## The next layer -/

def ICMP_HDR_LEN : Nat := 8

/-- What the ping code waits for and has got. -/
structure IcmpState where
  got_reply : Bool
  expect_ident : Nat
  expect_seq : Nat
  expect_src : Nat
  reply_ttl : Nat
  reply_src : Nat

/-- The echo reply to a request of `len` bytes: at most 64 bytes of its data come back. -/
def echo_reply (pkt : Buf) (len : Nat) : List UInt8 :=
  let data_len := min (len - ICMP_HDR_LEN) 64
  let body := [0, 0, 0, 0] ++ slice pkt 4 4 ++ slice pkt ICMP_HDR_LEN data_len
  let sum := inet_cksum (fun j => body.getD j 0) (ICMP_HDR_LEN + data_len)
  body.take 2 ++ le16_bytes (net_htons sum) ++ body.drop 4

/-- The new state and the reply that is sent, if there is one. -/
def icmp_rx (s : IcmpState) (src_ip ttl : Nat) (pkt : Buf) (len : Nat) :
    IcmpState × Option (List UInt8) :=
  if len < ICMP_HDR_LEN then (s, none)
  else if pkt 0 = 8 then (s, some (echo_reply pkt len))
  else if pkt 0 = 0 ∧ net_ntohs pkt 4 = s.expect_ident ∧ net_ntohs pkt 6 = s.expect_seq ∧
      (s.expect_src = 0 ∨ src_ip = s.expect_src) then
    ({ s with reply_ttl := ttl, reply_src := src_ip, got_reply := true }, none)
  else (s, none)

def UDP_HDR_LEN : Nat := 8

/-- A datagram for the socket with the port `dst_port`. -/
structure Datagram where
  src_ip : Nat
  src_port : Nat
  dst_port : Nat
  data : List UInt8
  deriving DecidableEq

def udp_rx (src_ip : Nat) (pkt : Buf) (len : Nat) : Option Datagram :=
  if len < UDP_HDR_LEN then none
  else
    let data_len := u16 (net_ntohs pkt 4 + 65536 - UDP_HDR_LEN)
    if len - UDP_HDR_LEN < data_len then none
    else
      some
        { src_ip := src_ip
          src_port := net_ntohs pkt 0
          dst_port := net_ntohs pkt 2
          data := slice pkt UDP_HDR_LEN data_len }

/-- What the network can make the host answer or queue: an echo reply, a datagram or the
payload of a TCP segment. -/
inductive Effect where
  | reply (dst_ip : Nat) (bytes : List UInt8)
  | datagram (d : Datagram)
  | segment (src_ip dst_ip : Nat) (bytes : List UInt8)
  deriving DecidableEq

/-- The effect of a packet. -/
def rx_effect (s : IcmpState) (pkt : Buf) (len : Nat) : Option Effect :=
  match ip_rx pkt len with
  | none => none
  | some dl =>
    match dl.proto with
    | .icmp => (icmp_rx s dl.src_ip dl.ttl (payload pkt dl) dl.plen).2.map (Effect.reply dl.src_ip)
    | .udp => (udp_rx dl.src_ip (payload pkt dl) dl.plen).map Effect.datagram
    | .tcp => some (.segment dl.src_ip dl.dst_ip (slice (payload pkt dl) 0 dl.plen))

/-! ## Two packets -/

/-- A packet of an IP header of 20 bytes and an echo request of 8 bytes and no data. The
byte behind it is 99. -/
def ping_packet : Buf := fun j =>
  ([0x45, 0, 0, 28, 0, 1, 0, 0, 64, 1, 0x66, 0xDE, 10, 0, 0, 2, 10, 0, 0, 1,
    8, 0, 0xB6, 0xBD, 0x41, 0x41, 0, 1] : List UInt8).getD j 99

theorem a_ping_is_consistent :
    ∃ dl, ip_rx ping_packet 28 = some dl ∧ Consistent ping_packet 28 dl := by
  have h : (ip_rx ping_packet 28).isSome = true := by decide +kernel
  obtain ⟨dl, hdl⟩ := Option.isSome_iff_exists.mp h
  exact ⟨dl, hdl, (a_delivered_payload_is_consistent_iff ping_packet 28 dl hdl).mpr (by decide)⟩

/-- The same with a total length of 19 in the header. -/
def short_packet : Buf := fun j =>
  ([0x45, 0, 0, 19, 0, 1, 0, 0, 64, 1, 0x66, 0xE7, 10, 0, 0, 2, 10, 0, 0, 1,
    8, 0, 0xB6, 0xBD, 0x41, 0x41, 0, 1] : List UInt8).getD j 99

/-- The payload length wraps around, and the ping code is given 65535 bytes of a packet
of 28. The reply has 64 bytes from behind the packet. -/
theorem a_short_total_length_wraps_around :
    (ip_rx short_packet 28).map (fun dl => (dl.off, dl.plen)) = some (20, 65535) ∧
      (∀ dl, ip_rx short_packet 28 = some dl → ¬ Consistent short_packet 28 dl) ∧
      rx_effect ⟨false, 0x4141, 0, 0, 0, 0⟩ short_packet 28 =
        some (.reply 0x0A000002 ([0, 0, 0x52, 0x51, 0x41, 0x41, 0, 1] ++ List.replicate 64 99)) :=
  ⟨by decide +kernel, fun _ _ => short_total_never_consistent (by decide), by decide +kernel⟩

end uaos.net
