-- What the code computes in place of RFC 7693: the digest length is missing from the parameter
-- block, the words of a message are read with their highest byte first, and the permutation of the
-- fifth round has three entries in another order. Messages that read the same either way get the
-- right digest from a context that is set up right.
import Uaos.Blake

namespace uaos.rfc7693

open List hiding Vector
open hash blocks

/-- What the code has in place of the standard. -/
def as_coded : Setting := ⟨0x01010000, big, fun i => blake2b_sigma[i]⟩

lemma G_eq : B2B_G = G := by
  funext v a b c d x y
  simp only [B2B_G, G, UInt64.add_assoc]
  rfl

lemma mixing_eq : blake2b_round = mixing := by
  funext m v s
  simp only [blake2b_round, mixing, G_eq]

/-- A word of a block, read as the code reads it. -/
lemma word_be64_eq {d : List UInt8} {p : Nat} (h : p + 8 ≤ d.length) :
    word_be64 d p = big ((d.drop p).take 8) := by
  have hbytes : (d.drop p).take 8 = (range 8).map fun j => d.getD (p + j) 0 := by
    refine ext_getElem (by simp; omega) fun k hk hk' => ?_
    simp only [length_map, length_range] at hk'
    simp only [getElem_take, getElem_drop, getElem_map, getElem_range]
    rw [getD_eq_getElem _ _ (by omega)]
  rw [hbytes, big, foldl_map]
  rfl

/-- The rounds of the code. -/
lemma rounds_eq (m : Fin 16 → UInt64) (v : Vector UInt64 16) :
    blake2b_sigma.toList.foldl (blake2b_round m) v =
      (finRange 12).foldl (fun v i => mixing m v (as_coded.sigma i)) v := by
  have htable : blake2b_sigma.toList = (finRange 12).map as_coded.sigma := by decide
  rw [htable, foldl_map, mixing_eq]

lemma mix_eq {d : List UInt8} (hd : d.length = 128) (h : Vector UInt64 8) (t : Nat) (last : Bool) :
    blake2b_mix h (words t) (flags last) d = F as_coded h d t last := by
  have hwords : (fun i : Fin 16 => word_be64 d (i * 8)) =
      fun i : Fin 16 => as_coded.read ((d.drop (i * 8)).take 8) := by
    funext i
    exact word_be64_eq (by omega)
  simp only [blake2b_mix, F]
  rw [start_eq, rounds_eq, hwords]
  simp only [UInt64.xor_assoc]

/-! ## Messages that read the same -/

variable {ctx : Blake2bCtx} {h : Vector UInt64 8} {msg d : List UInt8} {k t : Nat} {last : Bool}

/-- The bytes of word `i` of a block. -/
def word (d : List UInt8) (i : Nat) : List UInt8 := (d.drop (i * 8)).take 8

/-- A block that is the same with the settings of the code: every word reads the same from both
ends, and the three words that the fifth round has in another order are equal. -/
structure Plain (d : List UInt8) : Prop where
  mirrored : ∀ i < 16, (word d i).reverse = word d i
  three : word d 3 = word d 6 ∧ word d 6 = word d 8

instance : Decidable (Plain d) :=
  decidable_of_iff ((∀ i < 16, (word d i).reverse = word d i) ∧
    word d 3 = word d 6 ∧ word d 6 = word d 8)
    ⟨fun ⟨h, h'⟩ => ⟨h, h'⟩, fun ⟨h, h'⟩ => ⟨h, h'⟩⟩

/-- The words of a plain block, whichever byte of them comes first. -/
lemma Plain.words_eq (hd : Plain d) :
    (fun i : Fin 16 => big (word d i)) = fun i : Fin 16 => little (word d i) := by
  funext i
  have hrev : big (word d i) = little (word d i).reverse := by
    rw [little, foldr_reverse, big]
  rw [hrev, hd.mirrored i i.isLt]

/-- A round of the code is the round of the standard, also where the tables differ. -/
lemma Plain.round_eq (hd : Plain d) (v : Vector UInt64 16) (i : Fin 12) :
    mixing (fun j : Fin 16 => little (word d j)) v (as_coded.sigma i) =
      mixing (fun j : Fin 16 => little (word d j)) v ((standard 0 64).sigma i) := by
  by_cases h4 : i = 4
  · subst h4
    have h36 : little (word d (3 : Fin 16)) = little (word d (6 : Fin 16)) :=
      congrArg little hd.three.1
    have h68 : little (word d (6 : Fin 16)) = little (word d (8 : Fin 16)) :=
      congrArg little hd.three.2
    have hcode : as_coded.sigma 4 = #v[9, 0, 5, 7, 2, 4, 10, 15, 14, 1, 11, 12, 3, 6, 8, 13] := by
      decide
    have hrfc : (standard 0 64).sigma 4 =
        #v[9, 0, 5, 7, 2, 4, 10, 15, 14, 1, 11, 12, 6, 8, 3, 13] := by
      decide
    rw [hcode, hrfc]
    simp only [mixing]
    simp only [Vector.getElem_mk, List.getElem_toArray, getElem_cons_succ, getElem_cons_zero, h36,
      h68]
  · have hrow : ∀ j : Fin 12, j ≠ 4 → as_coded.sigma j = (standard 0 64).sigma j := by decide
    rw [hrow i h4]

/-- The compression function of the code on a plain block. -/
lemma Plain.mix_eq (hd : Plain d) (hlen : d.length = 128) :
    blake2b_mix h (words t) (flags last) d = F (standard 0 64) h d t last := by
  rw [rfc7693.mix_eq hlen]
  simp only [F]
  have hwords : (fun i : Fin 16 => as_coded.read ((d.drop (i * 8)).take 8)) =
      fun i : Fin 16 => (standard 0 64).read ((d.drop (i * 8)).take 8) := hd.words_eq
  rw [hwords]
  have hrounds : ∀ v : Vector UInt64 16, (finRange 12).foldl (fun v i =>
        mixing (fun i : Fin 16 => (standard 0 64).read ((d.drop (i * 8)).take 8)) v
          (as_coded.sigma i)) v =
      (finRange 12).foldl (fun v i =>
        mixing (fun i : Fin 16 => (standard 0 64).read ((d.drop (i * 8)).take 8)) v
          ((standard 0 64).sigma i)) v := by
    intro v
    exact foldl_ext _ _ _ fun v i _ => hd.round_eq v i
  rw [hrounds]

/-! ## The law -/

lemma block_length (msg : List UInt8) (i : Nat) : (block msg i).length = 128 := by
  simp only [block, length_append, length_replicate, length_take, length_drop]
  omega

lemma no_flags : ((0, 0) : UInt64 × UInt64) = flags false := rfl

lemma last_flags : ((~~~0, 0) : UInt64 × UInt64) = flags true := rfl

/-- The blocks before the last one. -/
lemma chain_eq (hmsg : ∀ i < k, Plain (block msg i)) : blake2b_chain h msg k =
    (range k).foldl (fun h i => F (standard 0 64) h (block msg i) ((i + 1) * 128) false) h := by
  induction k with
  | zero => rfl
  | succ k ih =>
    rw [range_succ, foldl_append, ← ih fun i hi => hmsg i (by omega), blake2b_chain, no_flags,
      (hmsg k (by omega)).mix_eq (block_length msg k)]
    simp only [foldl_cons, foldl_nil]

/-- The context with the word that `blake2b_init` should store. -/
def set_512 (buffer : Buf) : Blake2bCtx :=
  { blake2b_init buffer with h := blake2b_start 0x01010040 }

end uaos.rfc7693
