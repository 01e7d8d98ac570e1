-- Messages in pieces: however a message is cut into updates, the digest is the one of the whole
-- message, taken block by block with the padding behind it.
import Uaos.Hash

namespace uaos.hash

open List hiding Vector

open blocks Nat

variable {S : Type} {size idx n : Nat} {transform : S → List UInt8 → S} {iv state : S}
    {buffer : Buf}
  {msg data field : List UInt8}

/-! ## Bytes that wait in the buffer -/

/-- The context has taken in `msg`: its whole blocks are in the state and the rest is in the
buffer. -/
structure Holds (size : Nat) (transform : S → List UInt8 → S) (iv : S)
    (msg : List UInt8) (state : S)
    (buffer : Buf) : Prop where
  state : state = absorb size transform iv msg
  buffer : slice buffer 0 (msg.length % size) = rest size msg

lemma slice_put_end (buffer : Buf) (n : Nat) (data : List UInt8) :
    slice (put buffer n data) 0 (n + data.length) = slice buffer 0 n ++ data := by
  rw [slice_append]
  congr 1
  · exact slice_congr fun k hk => put_outside (by omega)
  rw [zero_add]
  exact slice_put_same

lemma take_in_spec (hsize : 0 < size) (h : Holds size transform iv msg state buffer)
    (data : List UInt8) : Holds size transform iv (msg ++ data)
      (take_in size transform (msg.length % size) state buffer data).1
      (take_in size transform (msg.length % size) state buffer data).2 := by
  have hidx := mod_lt msg.length hsize
  have hlen : (rest size msg).length = msg.length % size := rest_length
  have hstate : absorb size transform iv (msg ++ data) =
      absorb size transform state (rest size msg ++ data) := by
    rw [h.state, absorb_append hsize]
  have hmod : (msg ++ data).length % size = (rest size msg ++ data).length % size := by
    rw [length_append, length_append, hlen, mod_add_mod]
  unfold take_in
  by_cases hshort : msg.length % size ≠ 0 ∧ data.length < size - msg.length % size
  · -- the bytes do not fill the block
    rw [if_pos hshort]
    have hlt : (rest size msg ++ data).length < size := by
      rw [length_append, hlen]
      omega
    refine ⟨?_, ?_⟩
    · rw [hstate, absorb_short hlt]
    · rw [hmod, mod_eq_of_lt hlt, rest_append hsize, rest_short hlt, length_append, hlen,
        slice_put_end, h.buffer]
  rw [if_neg hshort]
  by_cases hzero : msg.length % size = 0
  · -- the buffer is empty
    have hnil : rest size msg = [] := by
      rw [← length_eq_zero_iff, hlen, hzero]
    rw [hnil, nil_append] at hstate hmod
    simp only [hzero, if_true]
    refine ⟨hstate.symm, ?_⟩
    rw [hmod, rest_append hsize, hnil, nil_append, ← rest_length]
    have hput := slice_put_end buffer 0 (rest size data)
    rw [zero_add] at hput
    exact hput
  -- the block is filled and taken in
  have hneed : (data.take (size - msg.length % size)).length = size - msg.length % size := by
    rw [length_take]
    omega
  have hblock : slice (put buffer (msg.length % size) (data.take (size - msg.length % size))) 0
      size = rest size msg ++ data.take (size - msg.length % size) := by
    have hput := slice_put_end buffer (msg.length % size) (data.take (size - msg.length % size))
    rw [hneed, h.buffer] at hput
    rw [← hput]
    congr 1
    omega
  have hfull : (rest size msg ++ data.take (size - msg.length % size)).length = size := by
    rw [length_append, hlen, hneed]
    omega
  have hsplit : rest size msg ++ data = (rest size msg ++ data.take (size - msg.length % size)) ++
      data.drop (size - msg.length % size) := by
    rw [append_assoc, take_append_drop]
  simp only [hzero, if_false, hblock]
  rw [hsplit] at hstate hmod
  refine ⟨?_, ?_⟩
  · rw [hstate, absorb_block hsize hfull]
  have hrest : rest size (msg ++ data) = rest size (data.drop (size - msg.length % size)) := by
    rw [rest_append hsize, hsplit, rest_block hsize hfull]
  have hmod' : (msg ++ data).length % size =
      (rest size (data.drop (size - msg.length % size))).length := by
    rw [← hrest, rest_length]
  rw [hmod', hrest]
  have hput := slice_put_end (put buffer (msg.length % size) (data.take (size - msg.length % size)))
    0 (rest size (data.drop (size - msg.length % size)))
  rw [zero_add] at hput
  exact hput

/-! ## The padding -/

/-- The mark, as few zeros as make whole blocks, and the length field. -/
def padding (size n : Nat) (field : List UInt8) : List UInt8 :=
  0x80 :: (List.replicate ((size - (n + 1 + field.length) % size) % size) 0 ++ field)

/-- How many zeros there are, by where the mark falls. -/
lemma zeros_eq (hfield : field.length < size) : (size - (n + 1 + field.length) % size) % size =
      if size - field.length < n % size + 1 then 2 * size - field.length - (n % size + 1)
      else size - field.length - (n % size + 1) := by
  have hidx : n % size < size := mod_lt _ (by omega)
  have hmod : (n + 1 + field.length) % size = (n % size + 1 + field.length) % size := by
    rw [add_assoc, add_assoc, mod_add_mod]
  rw [hmod]
  split
  · have hsub : n % size + 1 + field.length =
      size + (n % size + 1 + field.length - size) := by omega
    have hlt : n % size + 1 + field.length - size < size := by omega
    rw [hsub, add_mod_left, mod_eq_of_lt hlt, mod_eq_of_lt (by omega)]
    omega
  · rcases lt_or_ge (n % size + 1 + field.length) size with hlt | hge
    · rw [mod_eq_of_lt hlt, mod_eq_of_lt (by omega)]
      omega
    · have heq : n % size + 1 + field.length = size := by omega
      rw [heq, Nat.mod_self, Nat.sub_zero, Nat.mod_self]
      omega

/-- The last blocks are those of the message with its padding. -/
lemma pad_out_spec (hfield : field.length < size) (h : Holds size transform iv msg state buffer) :
    pad_out size transform (msg.length % size) state buffer field =
      absorb size transform iv (msg ++ padding size msg.length field) := by
  have hsize : 0 < size := by omega
  have hidx := mod_lt msg.length hsize
  have hlen : (rest size msg).length = msg.length % size := rest_length
  have hmark := slice_put_end buffer (msg.length % size) [0x80]
  rw [h.buffer, length_singleton] at hmark
  rw [absorb_append hsize, ← h.state, padding, zeros_eq hfield]
  unfold pad_out
  by_cases hlate : size - field.length < msg.length % size + 1
  · -- the length does not fit behind the mark, so there is one more block
    simp only [hlate, if_true]
    have hfirst := slice_put_end (put buffer (msg.length % size) [0x80]) (msg.length % size + 1)
      (List.replicate (size - (msg.length % size + 1)) 0)
    rw [hmark, length_replicate, Nat.add_sub_cancel' (by omega)] at hfirst
    rw [hfirst]
    have hzeros : 2 * size - field.length - (msg.length % size + 1) =
        (size - (msg.length % size + 1)) + (size - field.length) := by omega
    have hsplit : rest size msg ++ 0x80 :: (List.replicate (2 * size - field.length -
          (msg.length % size + 1)) 0 ++ field) =
        (rest size msg ++ [0x80] ++ List.replicate (size - (msg.length % size + 1)) 0) ++
          ((List.replicate (size - field.length) 0 ++ field) ++ []) := by
      rw [hzeros, replicate_add]
      simp only [append_assoc, cons_append, nil_append, append_nil]
    rw [hsplit, absorb_block hsize (by simp [hlen]; omega), absorb_block hsize (by simp; omega)]
    have hlast := slice_put_end (put (put (put buffer (msg.length % size) [0x80])
      (msg.length % size + 1) (List.replicate (size - (msg.length % size + 1)) 0)) 0
      (List.replicate (size - field.length - 0) 0)) (size - field.length) field
    have hzero := slice_put_end (put (put buffer (msg.length % size) [0x80])
      (msg.length % size + 1) (List.replicate (size - (msg.length % size + 1)) 0)) 0
      (List.replicate (size - field.length - 0) 0)
    rw [length_replicate, zero_add, Nat.sub_zero] at hzero
    rw [Nat.sub_zero, hzero, Nat.sub_add_cancel (by omega)] at hlast
    rw [Nat.sub_zero, hlast, absorb_short (by simpa using hsize)]
    rfl
  · simp only [hlate, if_false]
    have hzero := slice_put_end (put buffer (msg.length % size) [0x80]) (msg.length % size + 1)
      (List.replicate (size - field.length - (msg.length % size + 1)) 0)
    rw [hmark, length_replicate, Nat.add_sub_cancel' (by omega)] at hzero
    have hlast := slice_put_end (put (put buffer (msg.length % size) [0x80]) (msg.length % size + 1)
      (List.replicate (size - field.length - (msg.length % size + 1)) 0))
      (size - field.length) field
    rw [hzero, Nat.sub_add_cancel (by omega)] at hlast
    have hsplit : rest size msg ++ 0x80 :: (List.replicate (size - field.length -
          (msg.length % size + 1)) 0 ++ field) =
        (rest size msg ++ [0x80] ++ List.replicate
          (size - field.length - (msg.length % size + 1)) 0 ++
          field) ++ [] := by
      simp
    rw [hlast, hsplit, absorb_block hsize (by simp [hlen]; omega),
      absorb_short (by simpa using hsize)]

/-! ## Numbers in bytes -/

/-- The `k` lowest bytes of a number, the lowest first. -/
def octets_le (k n : Nat) : List UInt8 := (List.range k).map fun i => UInt8.ofNat (n / 256 ^ i)

/-- The same bytes, the highest first. -/
def octets_be (k n : Nat) : List UInt8 := (octets_le k n).reverse

lemma octets_be_eq (k n : Nat) :
    octets_be k n = (range k).map fun i => UInt8.ofNat (n / 256 ^ (k - 1 - i)) := by
  refine ext_getElem (by simp [octets_be, octets_le]) fun i _ _ => ?_
  simp [octets_be, octets_le]

lemma shift_octet (n i : Nat) : (n >>> (i * 8)).toUInt8 = UInt8.ofNat (n / 256 ^ i) := by
  rw [Nat.shiftRight_eq_div_pow, mul_comm, pow_mul]
  rfl

lemma bits_le_eq : bits_le = octets_le 8 := by
  funext n
  exact map_congr_left fun i _ => shift_octet n i

lemma bits_be_eq : bits_be = octets_be 8 := by
  funext n
  rw [octets_be_eq]
  refine map_congr_left fun i hi => ?_
  rw [mem_range] at hi
  rw [← shift_octet, Nat.mul_sub_right_distrib]

lemma octets_be_add (j k n : Nat) :
    octets_be (j + k) n = octets_be j (n / 256 ^ k) ++ octets_be k n := by
  have hsplit : octets_le (k + j) n = octets_le k n ++ octets_le j (n / 256 ^ k) := by
    simp only [octets_le, range_add, map_append, map_map, Function.comp_def, pow_add,
      Nat.div_div_eq_div_mul]
  rw [octets_be, add_comm, hsplit, reverse_append]
  rfl

lemma word_octet32 (w : UInt32) {i : Nat} (hi : i < 4) :
    (w >>> (i * 8).toUInt32).toUInt8 = UInt8.ofNat (w.toNat / 256 ^ i) := by
  rw [← shift_octet, ← UInt8.toNat_inj]
  have hmod : i * 8 % 32 = i * 8 := Nat.mod_eq_of_lt (by omega)
  simp [Nat.toUInt32, hmod]

lemma word_octet64 (w : UInt64) {i : Nat} (hi : i < 8) :
    (w >>> (i * 8).toUInt64).toUInt8 = UInt8.ofNat (w.toNat / 256 ^ i) := by
  rw [← shift_octet, ← UInt8.toNat_inj]
  have hmod : i * 8 % 64 = i * 8 := Nat.mod_eq_of_lt (by omega)
  simp [Nat.toUInt64, hmod]

lemma bytes_le64_eq (w : UInt64) : bytes_le64 w = octets_le 8 w.toNat :=
  map_congr_left fun _ hi => word_octet64 w (mem_range.mp hi)

lemma bytes_be64_eq (w : UInt64) : bytes_be64 w = octets_be 8 w.toNat := by
  rw [octets_be_eq]
  refine map_congr_left fun i hi => ?_
  rw [mem_range] at hi
  rw [← word_octet64 w (by omega), Nat.mul_sub_right_distrib]

lemma bytes_le32_eq (w : UInt32) : bytes_le32 w = octets_le 4 w.toNat := by
  have h : octets_le 4 w.toNat = (range 4).map fun i => (w >>> (i * 8).toUInt32).toUInt8 :=
    map_congr_left fun _ hi => (word_octet32 w (mem_range.mp hi)).symm
  rw [h]
  simp [bytes_le32, range_succ]

lemma bytes_be32_eq (w : UInt32) : bytes_be32 w = octets_be 4 w.toNat := by
  rw [octets_be, ← bytes_le32_eq]
  rfl

/-! ## MD5, SHA-1 and SHA-256 -/

/-- The context has taken in `msg`. -/
structure Ctx.Took (transform : S → List UInt8 → S) (iv : S) (msg : List UInt8) (ctx : Ctx S) :
    Prop where
  count : ctx.count = u64 msg.length
  holds : Holds 64 transform iv msg ctx.state ctx.buffer

variable {ctx : Ctx S}

lemma Ctx.Took.index (h : Ctx.Took transform iv msg ctx) : ctx.count % 64 = msg.length % 64 := by
  rw [h.count]
  unfold u64
  omega

lemma Holds.start (hsize : 0 < size) : Holds size transform iv [] iv buffer :=
  ⟨(absorb_short hsize).symm, by rw [rest_short hsize]; rfl⟩

lemma Ctx.Took.start : Ctx.Took transform iv [] (Ctx.init iv buffer) :=
  ⟨rfl, Holds.start (by decide)⟩

section

variable (h : Ctx.Took transform iv msg ctx)

include h

lemma Ctx.Took.update (data : List UInt8) :
    Ctx.Took transform iv (msg ++ data) (ctx.update transform data) := by
  unfold Ctx.update
  rw [h.index]
  refine ⟨?_, take_in_spec (by decide) h.holds data⟩
  simp only [h.count, length_append]
  unfold u64
  omega

lemma Ctx.Took.updates (chunks : List (List UInt8)) :
    Ctx.Took transform iv (msg ++ chunks.flatten) (chunks.foldl (Ctx.update transform) ctx) := by
  induction chunks generalizing msg ctx with
  | nil =>
    rw [flatten_nil, append_nil]
    exact h
  | cons data chunks ih =>
    rw [flatten_cons, ← append_assoc]
    exact ih (h.update data)

/-- The state after the whole message and its padding, with the length in bits. -/
def digest64 (transform : S → List UInt8 → S) (iv : S) (field : Nat → List UInt8)
    (msg : List UInt8) : S :=
  absorb 64 transform iv (msg ++ padding 64 msg.length (field (8 * msg.length)))

lemma Ctx.Took.final (hmsg : msg.length < 2 ^ 61)
    (field : Nat → List UInt8) (hfield : ∀ bits, (field bits).length = 8) :
    ctx.final transform field = digest64 transform iv field msg := by
  have hbits : u64 (ctx.count * 8) = 8 * msg.length := by
    rw [h.count, u64_of_lt (n := msg.length) (by omega), u64_of_lt (by omega), mul_comm]
  unfold Ctx.final
  rw [h.index, hbits]
  exact pad_out_spec (by rw [hfield]; decide) h.holds

end

lemma octets_le_length (k n : Nat) : (octets_le k n).length = k := by simp [octets_le]

lemma octets_be_length (k n : Nat) : (octets_be k n).length = k := by
  rw [octets_be, length_reverse, octets_le_length]

/-- The three hash functions with 64-byte blocks. -/
lemma stream64 (buffer : Buf) (chunks : List (List UInt8)) (hmsg : chunks.flatten.length < 2 ^ 61)
    (field : Nat → List UInt8) (hfield : ∀ bits, (field bits).length = 8) :
    (chunks.foldl (Ctx.update transform) (Ctx.init iv buffer)).final transform field =
      digest64 transform iv field chunks.flatten :=
  (Ctx.Took.start.updates chunks).final hmsg field hfield

/-! ## SHA-512 -/

/-- The state after the whole message and its padding, with a length of sixteen bytes. -/
def digest128 (msg : List UInt8) : Vector UInt64 8 :=
  absorb 128 sha512_transform sha512_iv
    (msg ++ padding 128 msg.length (octets_be 16 (8 * msg.length)))

/-- The context has taken in `msg`, whose length fits in the low word. -/
structure Sha512Ctx.Took (msg : List UInt8) (ctx : Sha512Ctx) : Prop where
  low : ctx.count_lo = msg.length
  high : ctx.count_hi = 0
  holds : Holds 128 sha512_transform sha512_iv msg ctx.state ctx.buffer

lemma Sha512Ctx.Took.updates {ctx : Sha512Ctx} (h : Sha512Ctx.Took msg ctx)
    (chunks : List (List UInt8)) (hmsg : (msg ++ chunks.flatten).length < 2 ^ 61) :
    Sha512Ctx.Took (msg ++ chunks.flatten) (chunks.foldl sha512_update ctx) := by
  induction chunks generalizing msg ctx with
  | nil =>
    rw [flatten_nil, append_nil]
    exact h
  | cons data chunks ih =>
    rw [flatten_cons, ← append_assoc] at hmsg ⊢
    have hlen : msg.length + data.length < 2 ^ 61 := by
      simp only [length_append] at hmsg
      omega
    have hlow : u64 (ctx.count_lo + data.length) = (msg ++ data).length := by
      rw [h.low, length_append, u64_of_lt (by omega)]
    refine ih ⟨hlow, ?_, ?_⟩ hmsg
    · -- the low word does not wrap
      simp only [sha512_update, hlow, length_append]
      rw [if_neg (by omega)]
      exact h.high
    · have hput := take_in_spec (by decide) h.holds data
      rw [← h.low] at hput
      exact hput

lemma stream128 (buffer : Buf) (chunks : List (List UInt8))
    (hmsg : chunks.flatten.length < 2 ^ 61) :
    sha512_final (chunks.foldl sha512_update (sha512_init buffer)) =
      sha512_out (digest128 chunks.flatten) := by
  have hstart : Sha512Ctx.Took [] (sha512_init buffer) := ⟨rfl, rfl, Holds.start (by decide)⟩
  have h := hstart.updates chunks hmsg
  rw [nil_append] at h
  have hfield : bits_be (u64 (0 * 8 + chunks.flatten.length / 2 ^ 61 % 8)) ++
      bits_be (u64 (chunks.flatten.length * 8)) = octets_be 16 (8 * chunks.flatten.length) := by
    have hhigh : u64 (0 * 8 + chunks.flatten.length / 2 ^ 61 % 8) =
        8 * chunks.flatten.length / 256 ^ 8 := by
      unfold u64
      omega
    have hlow : u64 (chunks.flatten.length * 8) = 8 * chunks.flatten.length := by
      unfold u64
      omega
    rw [hhigh, hlow, bits_be_eq, ← octets_be_add 8 8]
  simp only [sha512_final, h.low, h.high, hfield]
  congr 1
  refine pad_out_spec ?_ h.holds
  rw [octets_be_length]
  decide

end uaos.hash
