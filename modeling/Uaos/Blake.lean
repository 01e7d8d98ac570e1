-- A BLAKE2b message in pieces: the code keeps the last block back until it knows that it is the
-- last, so the digest does not depend on where the pieces end. At the end the same is said of all
-- the five hash functions.
import Uaos.HashStream

namespace uaos.hash

open List hiding Vector
open blocks rfc7693

/-! ## The digest of a whole message -/

/-- The chaining value after the first `k` blocks. The counter has the bytes up to the end of each
of them. -/
def blake2b_chain (s : Vector UInt64 8) (msg : List UInt8) : Nat → Vector UInt64 8
  | 0 => s
  | k + 1 => blake2b_mix (blake2b_chain s msg k) (words ((k + 1) * 128)) (0, 0) (block msg k)

/-- The digest of a message: its blocks, and the last of them filled up with zeros. -/
def blake2b_digest (s : Vector UInt64 8) (msg : List UInt8) : List UInt8 :=
  let k := block_count msg.length - 1
  (blake2b_mix (blake2b_chain s msg k) (words msg.length) (~~~0, 0) (block msg k)).toList.flatMap
    fun w => octets_le 8 w.toNat

variable {ctx : Blake2bCtx} {s : Vector UInt64 8} {msg data : List UInt8} {k n : Nat}

/-- A block that is not filled up. -/
lemma block_full (h : (k + 1) * 128 ≤ msg.length) :
    block msg k = (msg.drop (k * 128)).take 128 := by
  have hlen : ((msg.drop (k * 128)).take 128).length = 128 := by
    rw [length_take, length_drop]
    omega
  rw [block, hlen, Nat.sub_self, replicate_zero, append_nil]

lemma blake2b_chain_append (h : k * 128 ≤ msg.length) :
    blake2b_chain s (msg ++ data) k = blake2b_chain s msg k := by
  induction k with
  | zero => rfl
  | succ k ih =>
    have hblock : block (msg ++ data) k = block msg k := by
      rw [block_full h, block_full (by rw [length_append]; omega),
        drop_append_of_le_length (by omega),
        take_append_of_le_length (by rw [length_drop]; omega)]
    rw [blake2b_chain, blake2b_chain, ih (by omega), hblock]

lemma count_up_eq (t : Nat) {n : Nat} (hn : n ≤ 128) : count_up (words t) n = words (t + n) := by
  have ht0 : t.toUInt64 + n.toUInt64 = (t + n).toUInt64 := by
    simp [Nat.toUInt64, UInt64.ofNat_add]
  have hlow : (t + n).toUInt64.toNat = (t + n) % 2 ^ 64 := by simp [Nat.toUInt64]
  have hn' : n.toUInt64.toNat = n := by
    simp only [Nat.toUInt64, UInt64.toNat_ofNat']
    omega
  unfold count_up words
  simp only [ht0, Prod.mk.injEq, true_and]
  split
  · rename_i hlt
    rw [UInt64.lt_iff_toNat_lt, hlow, hn'] at hlt
    have hcarry : (t + n) / 2 ^ 64 = t / 2 ^ 64 + 1 := by omega
    rw [hcarry]
    simp [Nat.toUInt64, UInt64.ofNat_add]
  · rename_i hge
    rw [UInt64.lt_iff_toNat_lt, hlow, hn'] at hge
    have hcarry : (t + n) / 2 ^ 64 = t / 2 ^ 64 := by omega
    rw [hcarry]

/-! ## The pieces -/

/-- The context has taken in `msg`: `k` blocks are in the chaining value, and the rest is in the
buffer. -/
structure Blake2bCtx.Took (s : Vector UInt64 8) (k : Nat) (msg : List UInt8) (ctx : Blake2bCtx) :
    Prop where
  chain : ctx.h = blake2b_chain s msg k
  counter : ctx.t = words (k * 128)
  flags : ctx.f = (0, 0)
  count : msg.length = k * 128 + ctx.buflen
  room : ctx.buflen ≤ 128
  buffer : slice ctx.buffer 0 ctx.buflen = msg.drop (k * 128)

section

variable (h : Blake2bCtx.Took s k msg ctx)

include h

/-- Bytes that fit in the buffer. -/
lemma Blake2bCtx.Took.put (hroom : ctx.buflen + data.length ≤ 128) :
    Blake2bCtx.Took s k (msg ++ data) { ctx with buffer := put ctx.buffer ctx.buflen data,
                                                 buflen := ctx.buflen + data.length } := by
  have hcount := h.count
  refine ⟨?_, h.counter, h.flags, ?_, hroom, ?_⟩
  · rw [blake2b_chain_append (by omega)]
    exact h.chain
  · rw [length_append, hcount, add_assoc]
  · rw [slice_put_end, h.buffer, drop_append_of_le_length (by omega)]

/-- A full buffer that is taken in. -/
lemma Blake2bCtx.Took.block (hfull : ctx.buflen = 128) :
    Blake2bCtx.Took s (k + 1) msg { blake2b_compress { ctx with t := count_up ctx.t 128 }
      (slice ctx.buffer 0 128) with buflen := 0 } := by
  have hcount := h.count
  have hbuf := h.buffer
  rw [hfull] at hcount hbuf
  have hblock : rfc7693.block msg k = msg.drop (k * 128) := by
    rw [block_full (by omega)]
    exact take_of_length_le (by rw [length_drop]; omega)
  have hup : count_up ctx.t 128 = words ((k + 1) * 128) := by
    rw [h.counter, count_up_eq _ (le_refl _), add_mul, one_mul]
  refine ⟨?_, hup, h.flags, ?_, Nat.zero_le _, ?_⟩
  · simp only [blake2b_compress, blake2b_chain, hup, hbuf, hblock, h.flags, h.chain]
  · simp only [hcount]
    ring
  · simp only [slice, range_zero, map_nil]
    exact (drop_eq_nil_of_le (by omega)).symm

/-- The loop takes in all the bytes, and keeps some of them back. -/
lemma loop_spec (hdata : 0 < data.length)
    (hfuel : data.length + (if ctx.buflen = 128 then 1 else 0) < n) :
    ∃ k', Blake2bCtx.Took s k' (msg ++ data) (blake2b_loop n ctx data) ∧
      0 < (blake2b_loop n ctx data).buflen := by
  induction n generalizing k msg ctx data with
  | zero => omega
  | succ n ih =>
    have hroom := h.room
    unfold blake2b_loop
    rw [if_neg (by omega)]
    by_cases hmore : 128 - ctx.buflen < data.length
    · simp only [if_pos hmore]
      have htake : (data.take (128 - ctx.buflen)).length = 128 - ctx.buflen := by
        rw [length_take]
        omega
      have hfull : ctx.buflen + (data.take (128 - ctx.buflen)).length = 128 := by
        omega
      have hnext := (h.put hfull.le).block hfull
      have hsplit : msg ++ data = (msg ++ data.take (128 - ctx.buflen)) ++
          data.drop (128 - ctx.buflen) := by
        rw [append_assoc, take_append_drop]
      rw [hsplit]
      refine ih hnext (by rw [length_drop]; omega) ?_
      split at hfuel <;> simp <;> omega
    · simp only [if_neg hmore]
      exact ⟨k, h.put (by omega), by omega⟩

/-- After every update some bytes wait in the buffer, if there were any. -/
lemma updates_spec (hkeep : 0 < ctx.buflen ∨ msg = []) (chunks : List (List UInt8)) :
    ∃ k', Blake2bCtx.Took s k' (msg ++ chunks.flatten) (chunks.foldl blake2b_update ctx) ∧
      (0 < (chunks.foldl blake2b_update ctx).buflen ∨ msg ++ chunks.flatten = []) := by
  induction chunks generalizing k msg ctx with
  | nil =>
    rw [flatten_nil, append_nil]
    exact ⟨k, h, hkeep⟩
  | cons data chunks ih =>
    rw [flatten_cons, ← append_assoc, foldl_cons]
    rcases Nat.eq_zero_or_pos data.length with hzero | hpos
    · have hnil := length_eq_zero_iff.mp hzero
      subst hnil
      rw [append_nil]
      exact ih h hkeep
    · obtain ⟨k', hk', hbuf⟩ := loop_spec h hpos (n := data.length + 2) (by split <;> omega)
      exact ih hk' (.inl hbuf)

lemma final_spec (hkeep : 0 < ctx.buflen ∨ msg = []) :
    blake2b_final ctx = blake2b_digest s msg := by
  have hcount := h.count
  have hroom := h.room
  have hk : block_count msg.length - 1 = k := by
    unfold block_count
    rcases hkeep with hpos | rfl
    · omega
    · simp only [length_nil] at hcount ⊢
      omega
  have hfill := slice_put_end ctx.buffer ctx.buflen (replicate (128 - ctx.buflen) 0)
  rw [length_replicate, Nat.add_sub_cancel' hroom, h.buffer] at hfill
  have hblock : rfc7693.block msg k = msg.drop (k * 128) ++ replicate (128 - ctx.buflen) 0 := by
    have hlast : (msg.drop (k * 128)).length = ctx.buflen := by
      rw [length_drop]
      omega
    rw [rfc7693.block, take_of_length_le (by omega), hlast]
  have hup : count_up ctx.t ctx.buflen = words msg.length := by
    rw [h.counter, count_up_eq _ hroom, hcount]
  have hout : blake2b_out = fun h => h.toList.flatMap fun w => octets_le 8 w.toNat := by
    funext h
    exact congrArg h.toList.flatMap (funext bytes_le64_eq)
  unfold blake2b_final blake2b_digest
  simp only [hk, hup, hout, hblock, hfill, blake2b_compress, h.chain, h.flags]

end

/-- A context that nothing was put into. -/
structure Blake2bCtx.Fresh (s : Vector UInt64 8) (ctx : Blake2bCtx) : Prop where
  chain : ctx.h = s
  counter : ctx.t = (0, 0)
  flags : ctx.f = (0, 0)
  empty : ctx.buflen = 0

/-- However the message is cut into updates, the digest is that of the whole message. -/
lemma blake2b_stream (h : Blake2bCtx.Fresh s ctx) (chunks : List (List UInt8)) :
    blake2b_final (chunks.foldl blake2b_update ctx) = blake2b_digest s chunks.flatten := by
  have hstart : Blake2bCtx.Took s 0 [] ctx := by
    refine ⟨h.chain, h.counter, h.flags, ?_, ?_, ?_⟩ <;> simp [h.empty, slice]
  obtain ⟨k, hk, hkeep⟩ := updates_spec hstart (.inr rfl) chunks
  exact final_spec hk hkeep

/-! ## The five hash functions -/

/-- However a message is cut into updates, each digest is that of its compression function run
over the blocks of the message and its padding. -/
theorem digests_do_not_depend_on_the_split (buffer : Buf) (chunks : List (List UInt8))
    (hmsg : chunks.flatten.length < 2 ^ 61) :
    md5_final (chunks.foldl md5_update (md5_init buffer)) =
      (digest64 md5_transform md5_iv (octets_le 8) chunks.flatten).toList.flatMap
        (fun w => octets_le 4 w.toNat) ∧
    sha1_final (chunks.foldl sha1_update (sha1_init buffer)) =
      (digest64 sha1_transform sha1_iv (octets_be 8) chunks.flatten).toList.flatMap
        (fun w => octets_be 4 w.toNat) ∧
    sha256_final (chunks.foldl sha256_update (sha256_init buffer)) =
      (digest64 sha256_transform sha256_iv (octets_be 8) chunks.flatten).toList.flatMap
        (fun w => octets_be 4 w.toNat) ∧
    sha512_final (chunks.foldl sha512_update (sha512_init buffer)) =
      (digest128 chunks.flatten).toList.flatMap (fun w => octets_be 8 w.toNat) ∧
    blake2b_final (chunks.foldl blake2b_update (blake2b_init buffer)) =
      blake2b_digest (blake2b_start 0x01010000) chunks.flatten := by
  have hle : (fun w : UInt32 => octets_le 4 w.toNat) = bytes_le32 :=
    funext fun w => (bytes_le32_eq w).symm
  have hbe : (fun w : UInt32 => octets_be 4 w.toNat) = bytes_be32 :=
    funext fun w => (bytes_be32_eq w).symm
  have hbe64 : (fun w : UInt64 => octets_be 8 w.toNat) = bytes_be64 :=
    funext fun w => (bytes_be64_eq w).symm
  rw [hle, hbe, hbe64, ← bits_le_eq, ← bits_be_eq]
  have hlen_le : ∀ bits, (bits_le bits).length = 8 := by
    rw [bits_le_eq]
    exact octets_le_length 8
  have hlen_be : ∀ bits, (bits_be bits).length = 8 := by
    rw [bits_be_eq]
    exact octets_be_length 8
  refine ⟨congrArg md5_out ?_, congrArg sha1_out ?_, congrArg sha256_out ?_, ?_, ?_⟩
  · exact stream64 buffer chunks hmsg bits_le hlen_le
  · exact stream64 buffer chunks hmsg bits_be hlen_be
  · exact stream64 buffer chunks hmsg bits_be hlen_be
  · exact stream128 buffer chunks hmsg
  · exact blake2b_stream ⟨rfl, rfl, rfl, rfl⟩ chunks

theorem abc_in_three_pieces : ([[97], [], [98, 99]] : List (List UInt8)).flatten.length < 2 ^ 61 ∧
    sha256_final ([[97], [], [98, 99]].foldl sha256_update (sha256_init fun _ => 0)) =
      (digest64 sha256_transform sha256_iv (octets_be 8) [97, 98, 99]).toList.flatMap
        (fun w => octets_be 4 w.toNat) :=
  ⟨by decide, (digests_do_not_depend_on_the_split (fun _ => 0) [[97], [], [98, 99]]
    (by decide)).2.2.1⟩

end uaos.hash
