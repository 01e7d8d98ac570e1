-- The hash functions of the gnu: tools (uaos_hash.h): MD5, SHA-1, SHA-256, SHA-512 and BLAKE2b with
-- their compression functions and streaming interfaces, and BLAKE2b as RFC 7693 defines it.
import Uaos.Blocks
import Uaos.Mem64

namespace uaos.hash

open blocks

/-! ## Words of a block -/

def byte32 (block : List UInt8) (i : Nat) : UInt32 := (block.getD i 0).toUInt32

/-- The little-endian word at `i`. -/
def word_le32 (block : List UInt8) (i : Nat) : UInt32 :=
  byte32 block i ||| (byte32 block (i + 1) <<< 8) ||| (byte32 block (i + 2) <<< 16) |||
    (byte32 block (i + 3) <<< 24)

/-- The big-endian word at `i`. -/
def word_be32 (block : List UInt8) (i : Nat) : UInt32 :=
  (byte32 block i <<< 24) ||| (byte32 block (i + 1) <<< 16) ||| (byte32 block (i + 2) <<< 8) |||
    byte32 block (i + 3)

/-- The big-endian word at `i`, built up byte by byte. -/
def word_be64 (block : List UInt8) (i : Nat) : UInt64 :=
  (List.range 8).foldl (fun w j => (w <<< 8) ||| (block.getD (i + j) 0).toUInt64) 0

/-- The bytes of a word, lowest first. -/
def bytes_le32 (w : UInt32) : List UInt8 :=
  [w.toUInt8, (w >>> 8).toUInt8, (w >>> 16).toUInt8, (w >>> 24).toUInt8]

def bytes_be32 (w : UInt32) : List UInt8 :=
  [(w >>> 24).toUInt8, (w >>> 16).toUInt8, (w >>> 8).toUInt8, w.toUInt8]

def bytes_be64 (w : UInt64) : List UInt8 :=
  (List.range 8).map fun j => (w >>> (56 - j * 8).toUInt64).toUInt8

/-- The bytes of the length field, lowest first. -/
def bits_le (bits : Nat) : List UInt8 := (List.range 8).map fun i => (bits >>> (i * 8)).toUInt8

/-- The bytes of the length field, highest first. -/
def bits_be (bits : Nat) : List UInt8 := (List.range 8).map fun i => (bits >>> (56 - i * 8)).toUInt8

def rol32 (x n : UInt32) : UInt32 := (x <<< n) ||| (x >>> (32 - n))

def ror32 (x n : UInt32) : UInt32 := (x >>> n) ||| (x <<< (32 - n))

def ror64 (x n : UInt64) : UInt64 := (x >>> n) ||| (x <<< (64 - n))

/-! ## MD5 -/

def md5_k : Vector UInt32 64 := #v[
  0xd76aa478, 0xe8c7b756, 0x242070db, 0xc1bdceee, 0xf57c0faf, 0x4787c62a,
  0xa8304613, 0xfd469501, 0x698098d8, 0x8b44f7af, 0xffff5bb1, 0x895cd7be,
  0x6b901122, 0xfd987193, 0xa679438e, 0x49b40821, 0xf61e2562, 0xc040b340,
  0x265e5a51, 0xe9b6c7aa, 0xd62f105d, 0x02441453, 0xd8a1e681, 0xe7d3fbc8,
  0x21e1cde6, 0xc33707d6, 0xf4d50d87, 0x455a14ed, 0xa9e3e905, 0xfcefa3f8,
  0x676f02d9, 0x8d2a4c8a, 0xfffa3942, 0x8771f681, 0x6d9d6122, 0xfde5380c,
  0xa4beea44, 0x4bdecfa9, 0xf6bb4b60, 0xbebfbc70, 0x289b7ec6, 0xeaa127fa,
  0xd4ef3085, 0x04881d05, 0xd9d4d039, 0xe6db99e5, 0x1fa27cf8, 0xc4ac5665,
  0xf4292244, 0x432aff97, 0xab9423a7, 0xfc93a039, 0x655b59c3, 0x8f0ccc92,
  0xffeff47d, 0x85845dd1, 0x6fa87e4f, 0xfe2ce6e0, 0xa3014314, 0x4e0811a1,
  0xf7537e82, 0xbd3af235, 0x2ad7d2bb, 0xeb86d391]

def md5_s : Vector UInt32 64 := #v[7, 12, 17, 22, 7, 12, 17, 22, 7, 12, 17, 22, 7, 12, 17, 22,
  5, 9, 14, 20, 5, 9, 14, 20, 5, 9, 14, 20, 5, 9, 14, 20,
  4, 11, 16, 23, 4, 11, 16, 23, 4, 11, 16, 23, 4, 11, 16, 23,
  6, 10, 15, 21, 6, 10, 15, 21, 6, 10, 15, 21, 6, 10, 15, 21]

/-- The function and the word of round `i`. -/
def md5_f (i : Nat) (b c d : UInt32) : UInt32 × Nat :=
  if i < 16 then ((b &&& c) ||| (~~~b &&& d), i)
  else if i < 32 then ((d &&& b) ||| (~~~d &&& c), (5 * i + 1) % 16)
  else if i < 48 then (b ^^^ c ^^^ d, (3 * i + 5) % 16)
  else (c ^^^ (b ||| ~~~d), 7 * i % 16)

def md5_round (block : List UInt8) (v : Vector UInt32 4) (i : Fin 64) : Vector UInt32 4 :=
  let (f, g) := md5_f i v[1] v[2] v[3]
  #v[v[3], v[1] + rol32 (v[0] + f + md5_k[i] + word_le32 block (g * 4)) md5_s[i], v[1], v[2]]

def md5_transform (st : Vector UInt32 4) (block : List UInt8) : Vector UInt32 4 :=
  st.zipWith (· + ·) ((List.finRange 64).foldl (md5_round block) st)

/-! ## SHA-1 -/

/-- The message schedule: each further word is made of four earlier ones. -/
def sha1_w (block : List UInt8) : List UInt32 := (List.range 64).foldl (fun w k =>
    let i := k + 16
    let x := w.getD (i - 3) 0 ^^^ w.getD (i - 8) 0 ^^^ w.getD (i - 14) 0 ^^^ w.getD (i - 16) 0
    w ++ [(x <<< 1) ||| (x >>> 31)]) ((List.range 16).map fun i => word_be32 block (i * 4))

/-- The function and the constant of round `i`. -/
def sha1_f (i : Nat) (b c d : UInt32) : UInt32 × UInt32 :=
  if i < 20 then ((b &&& c) ||| (~~~b &&& d), 0x5A827999)
  else if i < 40 then (b ^^^ c ^^^ d, 0x6ED9EBA1)
  else if i < 60 then ((b &&& c) ||| (b &&& d) ||| (c &&& d), 0x8F1BBCDC)
  else (b ^^^ c ^^^ d, 0xCA62C1D6)

def sha1_round (w : List UInt32) (v : Vector UInt32 5) (i : Nat) : Vector UInt32 5 :=
  let (f, k) := sha1_f i v[1] v[2] v[3]
  let temp := ((v[0] <<< 5) ||| (v[0] >>> 27)) + f + v[4] + k + w.getD i 0
  #v[temp, v[0], (v[1] <<< 30) ||| (v[1] >>> 2), v[2], v[3]]

def sha1_transform (st : Vector UInt32 5) (block : List UInt8) : Vector UInt32 5 :=
  st.zipWith (· + ·) ((List.range 80).foldl (sha1_round (sha1_w block)) st)

/-! ## SHA-256 -/

def sha256_k : Vector UInt32 64 := #v[
  0x428a2f98, 0x71374491, 0xb5c0fbcf, 0xe9b5dba5, 0x3956c25b, 0x59f111f1,
  0x923f82a4, 0xab1c5ed5, 0xd807aa98, 0x12835b01, 0x243185be, 0x550c7dc3,
  0x72be5d74, 0x80deb1fe, 0x9bdc06a7, 0xc19bf174, 0xe49b69c1, 0xefbe4786,
  0x0fc19dc6, 0x240ca1cc, 0x2de92c6f, 0x4a7484aa, 0x5cb0a9dc, 0x76f988da,
  0x983e5152, 0xa831c66d, 0xb00327c8, 0xbf597fc7, 0xc6e00bf3, 0xd5a79147,
  0x06ca6351, 0x14292967, 0x27b70a85, 0x2e1b2138, 0x4d2c6dfc, 0x53380d13,
  0x650a7354, 0x766a0abb, 0x81c2c92e, 0x92722c85, 0xa2bfe8a1, 0xa81a664b,
  0xc24b8b70, 0xc76c51a3, 0xd192e819, 0xd6990624, 0xf40e3585, 0x106aa070,
  0x19a4c116, 0x1e376c08, 0x2748774c, 0x34b0bcb5, 0x391c0cb3, 0x4ed8aa4a,
  0x5b9cca4f, 0x682e6ff3, 0x748f82ee, 0x78a5636f, 0x84c87814, 0x8cc70208,
  0x90befffa, 0xa4506ceb, 0xbef9a3f7, 0xc67178f2]

def sha256_w (block : List UInt8) : List UInt32 := (List.range 48).foldl (fun w k =>
    let i := k + 16
    let x := w.getD (i - 15) 0
    let y := w.getD (i - 2) 0
    let s0 := ror32 x 7 ^^^ ror32 x 18 ^^^ (x >>> 3)
    let s1 := ror32 y 17 ^^^ ror32 y 19 ^^^ (y >>> 10)
    w ++ [w.getD (i - 16) 0 + s0 + w.getD (i - 7) 0 + s1])
    ((List.range 16).map fun i => word_be32 block (i * 4))

def sha256_round (w : List UInt32) (v : Vector UInt32 8) (i : Fin 64) : Vector UInt32 8 :=
  let S1 := ror32 v[4] 6 ^^^ ror32 v[4] 11 ^^^ ror32 v[4] 25
  let ch := (v[4] &&& v[5]) ^^^ (~~~v[4] &&& v[6])
  let t1 := v[7] + S1 + ch + sha256_k[i] + w.getD i 0
  let S0 := ror32 v[0] 2 ^^^ ror32 v[0] 13 ^^^ ror32 v[0] 22
  let maj := (v[0] &&& v[1]) ^^^ (v[0] &&& v[2]) ^^^ (v[1] &&& v[2])
  let t2 := S0 + maj
  #v[t1 + t2, v[0], v[1], v[2], v[3] + t1, v[4], v[5], v[6]]

def sha256_transform (st : Vector UInt32 8) (block : List UInt8) : Vector UInt32 8 :=
  st.zipWith (· + ·) ((List.finRange 64).foldl (sha256_round (sha256_w block)) st)

/-! ## SHA-512 -/

def sha512_k : Vector UInt64 80 := #v[
  0x428a2f98d728ae22, 0x7137449123ef65cd, 0xb5c0fbcfec4d3b2f, 0xe9b5dba58189dbbc,
  0x3956c25bf348b538, 0x59f111f1b605d019, 0x923f82a4af194f9b, 0xab1c5ed5da6d8118,
  0xd807aa98a3030242, 0x12835b0145706fbe, 0x243185be4ee4b28c, 0x550c7dc3d5ffb4e2,
  0x72be5d74f27b896f, 0x80deb1fe3b1696b1, 0x9bdc06a725c71235, 0xc19bf174cf692694,
  0xe49b69c19ef14ad2, 0xefbe4786384f25e3, 0x0fc19dc68b8cd5b5, 0x240ca1cc77ac9c65,
  0x2de92c6f592b0275, 0x4a7484aa6ea6e483, 0x5cb0a9dcbd41fbd4, 0x76f988da831153b5,
  0x983e5152ee66dfab, 0xa831c66d2db43210, 0xb00327c898fb213f, 0xbf597fc7beef0ee4,
  0xc6e00bf33da88fc2, 0xd5a79147930aa725, 0x06ca6351e003826f, 0x142929670a0e6e70,
  0x27b70a8546d22ffc, 0x2e1b21385c26c926, 0x4d2c6dfc5ac42aed, 0x53380d139d95b3df,
  0x650a73548baf63de, 0x766a0abb3c77b2a8, 0x81c2c92e47edaee6, 0x92722c851482353b,
  0xa2bfe8a14cf10364, 0xa81a664bbc423001, 0xc24b8b70d0f89791, 0xc76c51a30654be30,
  0xd192e819d6ef5218, 0xd69906245565a910, 0xf40e35855771202a, 0x106aa07032bbd1b8,
  0x19a4c116b8d2d0c8, 0x1e376c085141ab53, 0x2748774cdf8eeb99, 0x34b0bcb5e19b48a8,
  0x391c0cb3c5c95a63, 0x4ed8aa4ae3418acb, 0x5b9cca4f7763e373, 0x682e6ff3d6b2b8a3,
  0x748f82ee5defb2fc, 0x78a5636f43172f60, 0x84c87814a1f0ab72, 0x8cc702081a6439ec,
  0x90befffa23631e28, 0xa4506cebde82bde9, 0xbef9a3f7b2c67915, 0xc67178f2e372532b,
  0xca273eceea26619c, 0xd186b8c721c0c207, 0xeada7dd6cde0eb1e, 0xf57d4f7fee6ed178,
  0x06f067aa72176fba, 0x0a637dc5a2c898a6, 0x113f9804bef90dae, 0x1b710b35131c471b,
  0x28db77f523047d84, 0x32caab7b40c72493, 0x3c9ebe0a15c9bebc, 0x431d67c49c100d4c,
  0x4cc5d4becb3e42b6, 0x597f299cfc657e2a, 0x5fcb6fab3ad6faec, 0x6c44198c4a475817]

def sha512_w (block : List UInt8) : List UInt64 := (List.range 64).foldl (fun w k =>
    let i := k + 16
    let x := w.getD (i - 15) 0
    let y := w.getD (i - 2) 0
    let s0 := ror64 x 1 ^^^ ror64 x 8 ^^^ (x >>> 7)
    let s1 := ror64 y 19 ^^^ ror64 y 61 ^^^ (y >>> 6)
    w ++ [w.getD (i - 16) 0 + s0 + w.getD (i - 7) 0 + s1])
    ((List.range 16).map fun i => word_be64 block (i * 8))

def sha512_round (w : List UInt64) (v : Vector UInt64 8) (i : Fin 80) : Vector UInt64 8 :=
  let S1 := ror64 v[4] 14 ^^^ ror64 v[4] 18 ^^^ ror64 v[4] 41
  let ch := (v[4] &&& v[5]) ^^^ (~~~v[4] &&& v[6])
  let t1 := v[7] + S1 + ch + sha512_k[i] + w.getD i 0
  let S0 := ror64 v[0] 28 ^^^ ror64 v[0] 34 ^^^ ror64 v[0] 39
  let maj := (v[0] &&& v[1]) ^^^ (v[0] &&& v[2]) ^^^ (v[1] &&& v[2])
  let t2 := S0 + maj
  #v[t1 + t2, v[0], v[1], v[2], v[3] + t1, v[4], v[5], v[6]]

def sha512_transform (st : Vector UInt64 8) (block : List UInt8) : Vector UInt64 8 :=
  st.zipWith (· + ·) ((List.finRange 80).foldl (sha512_round (sha512_w block)) st)

/-! ## The streaming interface

The four hash functions take bytes in and pad the last block in the same way. They differ in the
size of a block, in the compression function and in the length field. -/

variable {S : Type}

/-- Bytes that go into the state and the buffer. `idx` bytes wait in the buffer. -/
def take_in (size : Nat) (transform : S → List UInt8 → S) (idx : Nat) (state : S) (buffer : Buf)
    (data : List UInt8) : S × Buf :=
  let need := size - idx
  if idx ≠ 0 ∧ data.length < need then (state, put buffer idx data)
  else
    let full := put buffer idx (data.take need)
    let state := if idx = 0 then state else transform state (slice full 0 size)
    let buffer := if idx = 0 then buffer else full
    let data := if idx = 0 then data else data.drop need
    (absorb size transform state data, put buffer 0 (rest size data))

/-- The last one or two blocks: the mark, zeros and the `field` with the length. -/
def pad_out (size : Nat) (transform : S → List UInt8 → S) (idx : Nat) (state : S) (buffer : Buf)
    (field : List UInt8) : S :=
  let last := size - field.length
  let buffer := put buffer idx [0x80]
  let idx := idx + 1
  let full := put buffer idx (List.replicate (size - idx) 0)
  let state := if last < idx then transform state (slice full 0 size) else state
  let buffer := if last < idx then full else buffer
  let idx := if last < idx then 0 else idx
  let buffer := put buffer idx (List.replicate (last - idx) 0)
  transform state (slice (put buffer last field) 0 size)

/-- The context of MD5, SHA-1 and SHA-256. -/
structure Ctx (S : Type) where
  state : S
  count : Nat
  buffer : Buf

/-- A context in memory whose buffer holds anything. -/
def Ctx.init (iv : S) (buffer : Buf) : Ctx S := ⟨iv, 0, buffer⟩

def Ctx.update (transform : S → List UInt8 → S) (ctx : Ctx S) (data : List UInt8) : Ctx S :=
  let r := take_in 64 transform (ctx.count % 64) ctx.state ctx.buffer data
  ⟨r.1, u64 (ctx.count + data.length), r.2⟩

def Ctx.final (transform : S → List UInt8 → S) (field : Nat → List UInt8) (ctx : Ctx S) : S :=
  pad_out 64 transform (ctx.count % 64) ctx.state ctx.buffer (field (u64 (ctx.count * 8)))

def md5_iv : Vector UInt32 4 := #v[0x67452301, 0xefcdab89, 0x98badcfe, 0x10325476]

def md5_init : Buf → Ctx (Vector UInt32 4) := Ctx.init md5_iv

def md5_update : Ctx (Vector UInt32 4) → List UInt8 → Ctx (Vector UInt32 4) :=
  Ctx.update md5_transform

def md5_out (st : Vector UInt32 4) : List UInt8 := st.toList.flatMap bytes_le32

def md5_final (ctx : Ctx (Vector UInt32 4)) : List UInt8 :=
  md5_out (ctx.final md5_transform bits_le)

def sha1_iv : Vector UInt32 5 := #v[0x67452301, 0xEFCDAB89, 0x98BADCFE, 0x10325476, 0xC3D2E1F0]

def sha1_init : Buf → Ctx (Vector UInt32 5) := Ctx.init sha1_iv

def sha1_update : Ctx (Vector UInt32 5) → List UInt8 → Ctx (Vector UInt32 5) :=
  Ctx.update sha1_transform

def sha1_out (st : Vector UInt32 5) : List UInt8 := st.toList.flatMap bytes_be32

def sha1_final (ctx : Ctx (Vector UInt32 5)) : List UInt8 :=
  sha1_out (ctx.final sha1_transform bits_be)

def sha256_iv : Vector UInt32 8 := #v[0x6a09e667, 0xbb67ae85, 0x3c6ef372, 0xa54ff53a, 0x510e527f,
  0x9b05688c, 0x1f83d9ab, 0x5be0cd19]

def sha256_init : Buf → Ctx (Vector UInt32 8) := Ctx.init sha256_iv

def sha256_update : Ctx (Vector UInt32 8) → List UInt8 → Ctx (Vector UInt32 8) :=
  Ctx.update sha256_transform

def sha256_out (st : Vector UInt32 8) : List UInt8 := st.toList.flatMap bytes_be32

def sha256_final (ctx : Ctx (Vector UInt32 8)) : List UInt8 :=
  sha256_out (ctx.final sha256_transform bits_be)

/-- The context of SHA-512, which counts in two words. -/
structure Sha512Ctx where
  state : Vector UInt64 8
  count_lo : Nat
  count_hi : Nat
  buffer : Buf

def sha512_iv : Vector UInt64 8 := #v[0x6a09e667f3bcc908, 0xbb67ae8584caa73b, 0x3c6ef372fe94f82b,
  0xa54ff53a5f1d36f1, 0x510e527fade682d1, 0x9b05688c2b3e6c1f, 0x1f83d9abfb41bd6b,
    0x5be0cd19137e2179]

def sha512_init (buffer : Buf) : Sha512Ctx := ⟨sha512_iv, 0, 0, buffer⟩

def sha512_update (ctx : Sha512Ctx) (data : List UInt8) : Sha512Ctx :=
  let count_lo := u64 (ctx.count_lo + data.length)
  let count_hi := if count_lo < data.length then u64 (ctx.count_hi + 1) else ctx.count_hi
  let r := take_in 128 sha512_transform (ctx.count_lo % 128) ctx.state ctx.buffer data
  ⟨r.1, count_lo, count_hi, r.2⟩

def sha512_out (st : Vector UInt64 8) : List UInt8 := st.toList.flatMap bytes_be64

def sha512_final (ctx : Sha512Ctx) : List UInt8 :=
  let bits_lo := u64 (ctx.count_lo * 8)
  let bits_hi := u64 (ctx.count_hi * 8 + ctx.count_lo / 2 ^ 61 % 8)
  sha512_out (pad_out 128 sha512_transform (ctx.count_lo % 128) ctx.state ctx.buffer
    (bits_be bits_hi ++ bits_be bits_lo))

/-! ## BLAKE2b -/

def blake2b_iv : Vector UInt64 8 := #v[0x6a09e667f3bcc908, 0xbb67ae8584caa73b, 0x3c6ef372fe94f82b,
  0xa54ff53a5f1d36f1, 0x510e527fade682d1, 0x9b05688c2b3e6c1f, 0x1f83d9abfb41bd6b,
    0x5be0cd19137e2179]

def blake2b_sigma : Vector (Vector (Fin 16) 16) 12 := #v[
  #v[0, 1, 2, 3, 4, 5, 6, 7, 8, 9, 10, 11, 12, 13, 14, 15],
  #v[14, 10, 4, 8, 9, 15, 13, 6, 1, 12, 0, 2, 11, 7, 5, 3],
  #v[11, 8, 12, 0, 5, 2, 15, 13, 10, 14, 3, 6, 7, 1, 9, 4],
  #v[7, 9, 3, 1, 13, 12, 11, 14, 2, 6, 5, 10, 4, 0, 15, 8],
  #v[9, 0, 5, 7, 2, 4, 10, 15, 14, 1, 11, 12, 3, 6, 8, 13],
  #v[2, 12, 6, 10, 0, 11, 8, 3, 4, 13, 7, 5, 15, 14, 1, 9],
  #v[12, 5, 1, 15, 14, 13, 4, 10, 0, 7, 6, 3, 9, 2, 8, 11],
  #v[13, 11, 7, 14, 12, 1, 3, 9, 5, 0, 15, 4, 8, 6, 2, 10],
  #v[6, 15, 14, 9, 11, 3, 0, 8, 12, 2, 13, 7, 1, 4, 10, 5],
  #v[10, 2, 8, 4, 7, 6, 1, 5, 15, 11, 9, 14, 3, 12, 13, 0],
  #v[0, 1, 2, 3, 4, 5, 6, 7, 8, 9, 10, 11, 12, 13, 14, 15],
  #v[14, 10, 4, 8, 9, 15, 13, 6, 1, 12, 0, 2, 11, 7, 5, 3]]

/-- The mixing of four words with two words of the message. -/
def B2B_G (v : Vector UInt64 16) (a b c d : Fin 16) (x y : UInt64) : Vector UInt64 16 :=
  let v := v.set a (v[a] + (v[b] + x))
  let v := v.set d (ror64 (v[d] ^^^ v[a]) 32)
  let v := v.set c (v[c] + v[d])
  let v := v.set b (ror64 (v[b] ^^^ v[c]) 24)
  let v := v.set a (v[a] + (v[b] + y))
  let v := v.set d (ror64 (v[d] ^^^ v[a]) 16)
  let v := v.set c (v[c] + v[d])
  v.set b (ror64 (v[b] ^^^ v[c]) 63)

/-- One round: the columns and then the diagonals. -/
def blake2b_round (m : Fin 16 → UInt64) (v : Vector UInt64 16) (s : Vector (Fin 16) 16) :
    Vector UInt64 16 :=
  let v := B2B_G v 0 4 8 12 (m s[0]) (m s[1])
  let v := B2B_G v 1 5 9 13 (m s[2]) (m s[3])
  let v := B2B_G v 2 6 10 14 (m s[4]) (m s[5])
  let v := B2B_G v 3 7 11 15 (m s[6]) (m s[7])
  let v := B2B_G v 0 5 10 15 (m s[8]) (m s[9])
  let v := B2B_G v 1 6 11 12 (m s[10]) (m s[11])
  let v := B2B_G v 2 7 8 13 (m s[12]) (m s[13])
  B2B_G v 3 4 9 14 (m s[14]) (m s[15])

/-- The chaining value after a block. `t` is the counter and `f` the flags. -/
def blake2b_mix (h : Vector UInt64 8) (t f : UInt64 × UInt64) (block : List UInt8) :
    Vector UInt64 8 :=
  let iv := blake2b_iv
  let v := h ++ #v[iv[0], iv[1], iv[2], iv[3], iv[4] ^^^ t.1, iv[5] ^^^ t.2, iv[6] ^^^ f.1,
    iv[7] ^^^ f.2]
  let v := blake2b_sigma.toList.foldl (blake2b_round fun i => word_be64 block (i * 8)) v
  Vector.ofFn fun i : Fin 8 => h[i] ^^^ (v[i.val] ^^^ v[i.val + 8])

/-- The counter `n` bytes on, in two words. -/
def count_up (t : UInt64 × UInt64) (n : Nat) : UInt64 × UInt64 :=
  let t0 := t.1 + n.toUInt64
  (t0, if t0 < n.toUInt64 then t.2 + 1 else t.2)

/-- The context. `t` counts the bytes that were taken in, and `f` marks the last block. -/
structure Blake2bCtx where
  h : Vector UInt64 8
  t : UInt64 × UInt64
  f : UInt64 × UInt64
  buffer : Buf
  buflen : Nat

def blake2b_compress (ctx : Blake2bCtx) (block : List UInt8) : Blake2bCtx :=
  { ctx with h := blake2b_mix ctx.h ctx.t ctx.f block }

/-- The first chaining value, with the word `parameter` of the parameter block. -/
def blake2b_start (parameter : UInt64) : Vector UInt64 8 :=
  blake2b_iv.set 0 (blake2b_iv[0] ^^^ parameter)

def blake2b_init (buffer : Buf) : Blake2bCtx :=
  ⟨blake2b_start 0x01010000, (0, 0), (0, 0), buffer, 0⟩

/-- The loop over the data. A full buffer is only emptied when more bytes come. -/
def blake2b_loop : Nat → Blake2bCtx → List UInt8 → Blake2bCtx
  | 0, ctx, _ => ctx
  | fuel + 1, ctx, data =>
    if data.length = 0 then ctx
    else
      let need := 128 - ctx.buflen
      if need < data.length then
        let ctx := { ctx with buffer := put ctx.buffer ctx.buflen (data.take need),
                              t := count_up ctx.t 128 }
        let ctx := blake2b_compress ctx (slice ctx.buffer 0 128)
        blake2b_loop fuel { ctx with buflen := 0 } (data.drop need)
      else
        { ctx with buffer := put ctx.buffer ctx.buflen data, buflen := ctx.buflen + data.length }

/-- Every turn of the loop but the first takes in at least one byte. -/
def blake2b_update (ctx : Blake2bCtx) (data : List UInt8) : Blake2bCtx :=
  blake2b_loop (data.length + 2) ctx data

/-- The bytes of a word, lowest first. -/
def bytes_le64 (w : UInt64) : List UInt8 :=
  (List.range 8).map fun j => (w >>> (j * 8).toUInt64).toUInt8

def blake2b_out (h : Vector UInt64 8) : List UInt8 := h.toList.flatMap bytes_le64

def blake2b_final (ctx : Blake2bCtx) : List UInt8 :=
  let ctx := { ctx with t := count_up ctx.t ctx.buflen, f := (~~~0, ctx.f.2),
                        buffer := put ctx.buffer ctx.buflen (List.replicate (128 - ctx.buflen) 0) }
  blake2b_out (blake2b_compress ctx (slice ctx.buffer 0 128)).h

end uaos.hash

/-! ## BLAKE2b as RFC 7693 defines it -/

namespace uaos.rfc7693

/-- How eight bytes make a word. -/
abbrev Reader := List UInt8 → UInt64

/-- The lowest byte comes first. -/
def little : Reader := fun bs => bs.foldr (fun b w => (w <<< 8) ||| b.toUInt64) 0

/-- The highest byte comes first. -/
def big : Reader := fun bs => bs.foldl (fun w b => (w <<< 8) ||| b.toUInt64) 0

def rotr (x n : UInt64) : UInt64 := (x >>> n) ||| (x <<< (64 - n))

/-- The initialization vector. -/
def IV : Vector UInt64 8 := #v[0x6A09E667F3BCC908, 0xBB67AE8584CAA73B, 0x3C6EF372FE94F82B,
  0xA54FF53A5F1D36F1, 0x510E527FADE682D1, 0x9B05688C2B3E6C1F, 0x1F83D9ABFB41BD6B,
    0x5BE0CD19137E2179]

/-- The message word permutations of the ten rounds that are not repeated. -/
def SIGMA : Vector (Vector (Fin 16) 16) 10 := #v[
  #v[0, 1, 2, 3, 4, 5, 6, 7, 8, 9, 10, 11, 12, 13, 14, 15],
  #v[14, 10, 4, 8, 9, 15, 13, 6, 1, 12, 0, 2, 11, 7, 5, 3],
  #v[11, 8, 12, 0, 5, 2, 15, 13, 10, 14, 3, 6, 7, 1, 9, 4],
  #v[7, 9, 3, 1, 13, 12, 11, 14, 2, 6, 5, 10, 4, 0, 15, 8],
  #v[9, 0, 5, 7, 2, 4, 10, 15, 14, 1, 11, 12, 6, 8, 3, 13],
  #v[2, 12, 6, 10, 0, 11, 8, 3, 4, 13, 7, 5, 15, 14, 1, 9],
  #v[12, 5, 1, 15, 14, 13, 4, 10, 0, 7, 6, 3, 9, 2, 8, 11],
  #v[13, 11, 7, 14, 12, 1, 3, 9, 5, 0, 15, 4, 8, 6, 2, 10],
  #v[6, 15, 14, 9, 11, 3, 0, 8, 12, 2, 13, 7, 1, 4, 10, 5],
  #v[10, 2, 8, 4, 7, 6, 1, 5, 15, 11, 9, 14, 3, 12, 13, 0]]

/-- What the definition fixes and the code has got wrong: the first word of the parameter block, the
order of the bytes in a word, and the permutation of each round. -/
structure Setting where
  parameter : UInt64
  read : Reader
  sigma : Fin 12 → Vector (Fin 16) 16

/-- BLAKE2b with `kk` bytes of key and a digest of `nn` bytes. -/
def standard (kk nn : Nat) : Setting where
  parameter := (0x01010000 : UInt64) ^^^ (kk.toUInt64 <<< 8) ^^^ nn.toUInt64
  read := little
  sigma i := SIGMA.get ⟨i.val % 10, Nat.mod_lt _ (by decide)⟩

/-- The mixing function. -/
def G (v : Vector UInt64 16) (a b c d : Fin 16) (x y : UInt64) : Vector UInt64 16 :=
  let v := v.set a (v[a] + v[b] + x)
  let v := v.set d (rotr (v[d] ^^^ v[a]) 32)
  let v := v.set c (v[c] + v[d])
  let v := v.set b (rotr (v[b] ^^^ v[c]) 24)
  let v := v.set a (v[a] + v[b] + y)
  let v := v.set d (rotr (v[d] ^^^ v[a]) 16)
  let v := v.set c (v[c] + v[d])
  v.set b (rotr (v[b] ^^^ v[c]) 63)

/-- A round of the compression function. -/
def mixing (m : Fin 16 → UInt64) (v : Vector UInt64 16) (s : Vector (Fin 16) 16) :
    Vector UInt64 16 :=
  let v := G v 0 4 8 12 (m s[0]) (m s[1])
  let v := G v 1 5 9 13 (m s[2]) (m s[3])
  let v := G v 2 6 10 14 (m s[4]) (m s[5])
  let v := G v 3 7 11 15 (m s[6]) (m s[7])
  let v := G v 0 5 10 15 (m s[8]) (m s[9])
  let v := G v 1 6 11 12 (m s[10]) (m s[11])
  let v := G v 2 7 8 13 (m s[12]) (m s[13])
  G v 3 4 9 14 (m s[14]) (m s[15])

/-- The compression function. `t` is the offset counter and `last` the final block flag. -/
def F (c : Setting) (h : Vector UInt64 8) (d : List UInt8) (t : Nat) (last : Bool) :
    Vector UInt64 8 :=
  let v := h ++ IV
  let v := v.set 12 (v[12] ^^^ t.toUInt64)
  let v := v.set 13 (v[13] ^^^ (t / 2 ^ 64).toUInt64)
  let v := if last then v.set 14 (v[14] ^^^ 0xFFFFFFFFFFFFFFFF) else v
  let m := fun i : Fin 16 => c.read ((d.drop (i * 8)).take 8)
  let v := (List.finRange 12).foldl (fun v i => mixing m v (c.sigma i)) v
  Vector.ofFn fun i : Fin 8 => h[i] ^^^ v[i.val] ^^^ v[i.val + 8]

/-- Block `i` of the message, filled up with zeros. -/
def block (msg : List UInt8) (i : Nat) : List UInt8 :=
  let d := (msg.drop (i * 128)).take 128
  d ++ List.replicate (128 - d.length) 0

/-- How many blocks there are. An empty message has one too. -/
def block_count (ll : Nat) : Nat := max 1 ((ll + 127) / 128)

def word_bytes (w : UInt64) : List UInt8 :=
  (List.range 8).map fun j => (w >>> (j * 8).toUInt64).toUInt8

/-- The digest of 64 bytes. -/
def digest (c : Setting) (msg : List UInt8) : List UInt8 :=
  let dd := block_count msg.length
  let h := IV.set 0 (IV[0] ^^^ c.parameter)
  let h := (List.range (dd - 1)).foldl (fun h i => F c h (block msg i) ((i + 1) * 128) false) h
  (F c h (block msg (dd - 1)) msg.length true).toList.flatMap word_bytes

/-- BLAKE2b-512 without a key. -/
def blake2b_512 (msg : List UInt8) : List UInt8 := digest (standard 0 64) msg

/-- The counter in two words. -/
def words (t : Nat) : UInt64 × UInt64 := (t.toUInt64, (t / 2 ^ 64).toUInt64)

/-- The flags of a block. -/
def flags (last : Bool) : UInt64 × UInt64 := (if last then ~~~0 else 0, 0)

/-- The working vector that the rounds start from. -/
lemma start_eq (h : Vector UInt64 8) (t : Nat) (last : Bool) :
    h ++ #v[hash.blake2b_iv[0], hash.blake2b_iv[1], hash.blake2b_iv[2], hash.blake2b_iv[3],
        hash.blake2b_iv[4] ^^^ (words t).1, hash.blake2b_iv[5] ^^^ (words t).2,
        hash.blake2b_iv[6] ^^^ (flags last).1, hash.blake2b_iv[7] ^^^ (flags last).2] =
      (let v := h ++ IV
      let v := v.set 12 (v[12] ^^^ t.toUInt64)
      let v := v.set 13 (v[13] ^^^ (t / 2 ^ 64).toUInt64)
      if last then v.set 14 (v[14] ^^^ 0xFFFFFFFFFFFFFFFF) else v) := by
  refine Vector.ext fun i hi => ?_
  rcases Nat.lt_or_ge i 8 with hlow | hhigh
  · -- the chaining value
    have h12 : ¬ 12 = i := by omega
    have h13 : ¬ 13 = i := by omega
    have h14 : ¬ 14 = i := by omega
    cases last <;>
      simp only [Bool.false_eq_true, if_false, if_true, Vector.getElem_set, h12, h13, h14,
        Vector.getElem_append_left hlow]
  · -- the initialization vector with the counter and the flag
    have happ : ∀ x : Vector UInt64 8, (h ++ x)[i] = x[i - 8] := fun x =>
      Vector.getElem_append_right hi hhigh
    have h12 : (h ++ IV)[12] = IV[4] := Vector.getElem_append_right (by decide) (by decide)
    have h13 : (h ++ IV)[13] = IV[5] := Vector.getElem_append_right (by decide) (by decide)
    have h14 : (h ++ IV)[14] = IV[6] := Vector.getElem_append_right (by decide) (by decide)
    cases last <;>
      simp only [Bool.false_eq_true, if_false, if_true, Vector.getElem_set, happ, h12, h13, h14] <;>
      interval_cases i <;> rfl

end uaos.rfc7693
