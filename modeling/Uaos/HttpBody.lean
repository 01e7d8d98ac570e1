-- The laws of the body reader: a body that arrives complete is read block by block as it was sent,
-- and the end of the body is told from a connection that was closed too early. Both fail at the
-- places named here, the second one in almost every case.
import Uaos.HttpStream

namespace uaos.http

open List Http

/-! ## Responses -/

def value_from (v : Nat) (digits : List UInt8) : Nat :=
  digits.foldl (fun v d => v * 16 + (hexval d).getD 0) v

/-- The number that hex digits stand for. -/
abbrev value : List UInt8 → Nat := value_from 0

/-- The line before a chunk: its size in hex, and extensions. -/
structure SizeLine where
  digits : List UInt8
  ext : List UInt8
  some_digit : digits ≠ []
  hex : ∀ d ∈ digits, (hexval d).isSome
  one_line : CR ∉ ext ∧ LF ∉ ext
  apart : ∀ c ∈ ext.head?, hexval c = none

structure Chunk where
  line : SizeLine
  data : List UInt8
  size : value line.digits = data.length
  some_data : data ≠ []

/-- The last chunk and all that comes after its line: trailers, the blank line, more responses. -/
structure Last where
  line : SizeLine
  size : value line.digits = 0
  after : List UInt8

def SizeLine.bytes (l : SizeLine) : List UInt8 := l.digits ++ l.ext ++ [CR, LF]

def Chunk.bytes (c : Chunk) : List UInt8 := c.line.bytes ++ c.data ++ [CR, LF]

lemma Chunk.bytes_length (c : Chunk) :
    c.bytes.length = c.line.bytes.length + c.data.length + 2 := by
  simp only [bytes, length_append, length_cons, length_nil]

def encode (cs : List Chunk) (last : Last) : List UInt8 :=
  cs.flatMap Chunk.bytes ++ (last.line.bytes ++ last.after)

/-- The size line can be read: its digits fit in the line buffer and the size in a `long`. -/
def Chunk.fits (c : Chunk) : Bool :=
  decide (c.line.digits.length ≤ 127) && decide (c.data.length < 2 ^ 63)

/-- The chunks that begin in the first `n` bytes. -/
def begun : List Chunk → Nat → List Chunk
  | _, 0 => []
  | [], _ + 1 => []
  | c :: cs, n + 1 => c :: begun cs (n + 1 - c.bytes.length)

/-- A response whose length is announced. -/
inductive Response where
  | chunks (cs : List Chunk) (last : Last)
  | length (data after : List UInt8)

namespace Response

def bytes : Response → List UInt8
  | chunks cs last => encode cs last
  | length data after => data ++ after

def body : Response → List UInt8
  | chunks cs _ => cs.flatMap Chunk.data
  | length data _ => data

def fits : Response → Bool
  | chunks cs _ => cs.all Chunk.fits
  | length data _ => decide (data.length < 2 ^ 63)

/-- The same of what the first `n` bytes announce. -/
def fits_in : Response → Nat → Bool
  | chunks cs _, n => (begun cs n).all Chunk.fits
  | length data _, _ => decide (data.length < 2 ^ 63)

/-- The announced length, or the line of the final chunk, is among the first `n` bytes. -/
def received : Response → Nat → Bool
  | chunks cs last, n => decide ((cs.flatMap Chunk.bytes ++ last.line.bytes).length ≤ n)
  | length data _, n => decide (data.length ≤ n)

/-- The connection after the headers: some of the stream is in the buffer, the rest comes. -/
def opened (r : Response) (sock : Nat) (rbuf : List UInt8) (net : List (UInt8 × List UInt8)) :
    Http :=
  match r with
  | chunks _ _ => ⟨sock, -1, true, rbuf, false, -1, 0, false, 0, net, false⟩
  | length data _ => ⟨sock, data.length, false, rbuf, false, data.length, 0, false, 0, net, false⟩

end Response

/-! ## Size lines -/

lemma value_from_append (v : Nat) (a b : List UInt8) :
    value_from v (a ++ b) = value_from (value_from v a) b := foldl_append

lemma le_value_from (v : Nat) (digits : List UInt8) : v ≤ value_from v digits := by
  induction digits generalizing v with
  | nil => exact le_refl v
  | cons d ds ih =>
    have := ih (v * 16 + (hexval d).getD 0)
    simp only [value_from, foldl_cons] at this ⊢
    omega

lemma chunk_size_stop (sz : Option Nat) {ext : List UInt8}
    (h : ∀ c ∈ ext.head?, hexval c = none) : chunk_size sz ext = sz := by
  cases ext with
  | nil => rfl
  | cons c ext => simp [chunk_size, h c (by simp)]

lemma chunk_size_digits {digits : List UInt8} (hh : ∀ d ∈ digits, (hexval d).isSome)
    (hd : digits ≠ []) (ext : List UInt8) (sz : Option Nat) :
    chunk_size sz (digits ++ ext) = chunk_size (some (value_from (sz.getD 0) digits)) ext := by
  induction digits generalizing sz with
  | nil => exact absurd rfl hd
  | cons d ds ih =>
    obtain ⟨v, hv⟩ := Option.isSome_iff_exists.mp (hh d (by simp))
    have hcons : chunk_size sz (d :: ds ++ ext) = chunk_size (some (sz.getD 0 * 16 + v)) (ds ++ ext)
      := by simp [chunk_size, hv]
    have hval : value_from (sz.getD 0) (d :: ds) = value_from (sz.getD 0 * 16 + v) ds := by
      simp [value_from, hv]
    rw [hcons, hval]
    cases ds with
    | nil => rfl
    | cons e es => rw [ih (fun x hx => hh x (by simp [hx])) (by simp)]; rfl

variable {cs : List Chunk} {sep rem s p t : List UInt8} {last : Last} {v : Int} {h : Http}

/-- A list that begins like `a` and `b` one after the other ends in one of the two. -/
lemma prefix_append_cases {a b : List UInt8} (h : p <+: a ++ b) :
    (∃ q, p = a ++ q ∧ q <+: b) ∨ (p <+: a ∧ p.length < a.length) := by
  obtain ⟨t, ht⟩ := h
  rcases append_eq_append_iff.mp ht with ⟨q, ha, hb⟩ | ⟨q, hp, hb⟩
  · cases q with
    | nil => exact .inl ⟨[], by simpa using ha.symm, List.nil_prefix⟩
    | cons c q =>
      refine .inr ⟨⟨_, ha.symm⟩, ?_⟩
      rw [ha, length_append, length_cons]
      omega
  · exact .inl ⟨q, hp, _, hb.symm⟩

lemma take_of_starts {a b : List UInt8} (h : p <+: a ++ b) : p.take a.length = a.take p.length := by
  rcases prefix_append_cases h with ⟨q, rfl, -⟩ | ⟨hp, hl⟩
  · rw [take_left, take_of_length_le (by rw [length_append]; omega)]
  · rw [take_of_length_le hl.le, ← List.prefix_iff_eq_take.mp hp]

namespace SizeLine

variable (l : SizeLine)

lemma digit_ne_cr {d : UInt8} (hd : d ∈ l.digits) : d ≠ CR := by
  rintro rfl
  have := l.hex CR hd
  revert this
  decide

lemma digit_ne_lf {d : UInt8} (hd : d ∈ l.digits) : d ≠ LF := by
  rintro rfl
  have := l.hex LF hd
  revert this
  decide

lemma text_no_cr : CR ∉ l.digits ++ l.ext := by
  rw [mem_append]
  rintro (h | h)
  · exact l.digit_ne_cr h rfl
  · exact l.one_line.1 h

lemma text_no_lf : LF ∉ l.digits ++ l.ext ++ [CR] := by
  simp only [mem_append, mem_singleton]
  rintro ((h | h) | h)
  · exact l.digit_ne_lf h rfl
  · exact l.one_line.2 h
  · exact absurd h (by decide)

lemma filter_text (hp : p <+: l.digits ++ l.ext) : p.filter (· ≠ CR) = p := by
  rw [filter_eq_self]
  intro c hc
  have : c ≠ CR := fun h => l.text_no_cr (h ▸ hp.subset hc)
  simpa using this

/-- Any beginning of a size line reads as a size that is not too big. -/
lemma size_of_start (hp : p <+: l.digits ++ l.ext) (hne : p ≠ []) :
    ∃ k, chunk_size none p = some k ∧ k ≤ value l.digits := by
  rcases prefix_append_cases hp with ⟨q, rfl, hq⟩ | ⟨hq, -⟩
  · refine ⟨value l.digits, ?_, le_refl _⟩
    rw [chunk_size_digits l.hex l.some_digit, chunk_size_stop]
    · rfl
    intro c hc
    cases q with
    | nil => cases hc
    | cons e q =>
      obtain ⟨t, ht⟩ := hq
      refine l.apart c ?_
      rw [← ht]
      exact hc
  · obtain ⟨t, ht⟩ := hq
    refine ⟨value p, ?_, ?_⟩
    · have hh : ∀ d ∈ p, (hexval d).isSome := fun d hd => l.hex d (by rw [← ht]; simp [hd])
      have := chunk_size_digits hh hne [] none
      rw [append_nil] at this
      exact this
    · rw [← ht, value, value_from_append]
      exact le_value_from _ _

/-- A size line that fits is read as the size it states. -/
lemma size_of_line (h : l.digits.length ≤ 127) :
    chunk_size none ((l.digits ++ l.ext).take 127) = some (value l.digits) := by
  rw [take_append, take_of_length_le h, chunk_size_digits l.hex l.some_digit, chunk_size_stop]
  · rfl
  intro c hc
  refine l.apart c ?_
  rw [head?_take] at hc
  split_ifs at hc with h0
  · cases hc
  · exact hc

lemma kept_line : kept 128 (l.digits ++ l.ext ++ [CR]) = (l.digits ++ l.ext).take 127 := by
  unfold kept
  rw [filter_append, l.filter_text (List.prefix_refl _)]
  simp

lemma kept_ne_nil (hp : p <+: l.digits ++ l.ext ++ [CR]) (hne : p ≠ []) :
    kept 128 p ≠ [] ∧ kept 128 p <+: l.digits ++ l.ext := by
  rcases prefix_append_cases hp with ⟨q, rfl, hq⟩ | ⟨hq, -⟩
  · have hf : q.filter (· ≠ CR) = [] := by
      rw [filter_eq_nil_iff]
      intro c hc
      have := hq.subset hc
      simpa using this
    have hk : kept 128 (l.digits ++ l.ext ++ q) = (l.digits ++ l.ext).take 127 := by
      unfold kept
      rw [filter_append, l.filter_text (List.prefix_refl _), hf, append_nil]
    rw [hk]
    refine ⟨?_, List.take_prefix _ _⟩
    simp [l.some_digit]
  · have hk : kept 128 p = p.take 127 := by
      unfold kept
      rw [l.filter_text hq]
    rw [hk]
    have hstart := List.take_prefix 127 p
    exact ⟨by simpa using hne, hstart.trans hq⟩

/-- The stream begins with the line. -/
lemma scan_bytes (t : List UInt8) :
    scan 128 (l.bytes ++ t) [] = (some ((l.digits ++ l.ext).take 127), t) := by
  have : l.bytes ++ t = l.digits ++ l.ext ++ [CR] ++ LF :: t := by simp [bytes]
  rw [this, scan_line l.text_no_lf, l.kept_line]

/-- The stream ends in the line. -/
lemma scan_cut (hp : p <+: l.bytes) (hl : p.length < l.bytes.length)
    (hne : p ≠ []) : ∃ line k, scan 128 p [] = (some line, []) ∧ line ≠ [] ∧
      chunk_size none line = some k ∧ k ≤ value l.digits := by
  have hb : l.bytes = l.digits ++ l.ext ++ [CR] ++ [LF] := by simp [bytes]
  rw [hb] at hp hl
  have hp : p <+: l.digits ++ l.ext ++ [CR] := by
    rcases prefix_append_cases hp with ⟨q, rfl, hq⟩ | ⟨hq, -⟩
    · have : q.length = 0 := by
        simp only [length_append, length_singleton] at hl
        omega
      rw [length_eq_zero_iff.mp this, append_nil]
    · exact hq
  have hlf : LF ∉ p := fun h => l.text_no_lf (hp.subset h)
  obtain ⟨hk, hkp⟩ := l.kept_ne_nil hp hne
  obtain ⟨k, hs, hle⟩ := l.size_of_start hkp hk
  exact ⟨kept 128 p, k, by rw [scan_end hlf, if_neg hk], hk, hs, hle⟩

end SizeLine

/-! ## What a connection still gives -/

/-- The body bytes among the first `n` bytes of the chunks. -/
def deliver : List Chunk → Nat → List UInt8
  | [], _ => []
  | c :: cs, n => c.data.take (n - c.line.bytes.length) ++ deliver cs (n - c.bytes.length)

/-- What the reader says when the stream ends after `n` bytes: only between two chunks does it see
that more should follow. -/
def verdict : List Chunk → Nat → Int
  | _, 0 => UAOS_HERR_CLOSED
  | [], _ + 1 => 0
  | c :: cs, n + 1 =>
    if n + 1 < c.line.bytes.length + c.data.length then 0 else verdict cs (n + 1 - c.bytes.length)

@[simp] lemma verdict_zero (cs : List Chunk) : verdict cs 0 = UAOS_HERR_CLOSED := by
  cases cs <;> rfl

@[simp] lemma deliver_zero (cs : List Chunk) : deliver cs 0 = [] := by
  induction cs with
  | nil => rfl
  | cons c cs ih => simp [deliver, ih]

lemma begun_subset (cs : List Chunk) (n : Nat) : begun cs n ⊆ cs := by
  fun_induction begun cs n with
  | case1 => exact nil_subset _
  | case2 => exact nil_subset _
  | case3 c cs n ih => exact cons_subset_cons c ih

lemma deliver_begun (cs : List Chunk) (n : Nat) : deliver (begun cs n) n = deliver cs n := by
  fun_induction begun cs n with
  | case1 cs => rw [deliver_zero, deliver_zero]
  | case2 => rfl
  | case3 c cs n ih => rw [deliver, deliver, ih]

lemma verdict_begun (cs : List Chunk) (n : Nat) : verdict (begun cs n) n = verdict cs n := by
  fun_induction begun cs n with
  | case1 cs => rw [verdict_zero, verdict_zero]
  | case2 => rfl
  | case3 c cs n ih => rw [verdict, verdict, ih]

/-- Chunks that do not begin in a stream may be left out behind it. -/
lemma encode_begun (h : s <+: encode cs last) : s <+: encode (begun cs s.length) last := by
  induction cs generalizing s with
  | nil => cases s <;> exact h
  | cons c cs ih =>
    cases hn : s.length with
    | zero =>
      rw [length_eq_zero_iff.mp hn]
      exact nil_prefix
    | succ n =>
      have hcons : ∀ cs', encode (c :: cs') last = c.bytes ++ encode cs' last := by
        intro cs'
        simp [encode]
      rw [begun, hcons, ← hn]
      rw [hcons] at h
      rcases prefix_append_cases h with ⟨t, rfl, ht⟩ | ⟨hp, -⟩
      · rw [length_append, Nat.add_sub_cancel_left]
        exact (prefix_append_right_inj _).mpr (ih ht)
      · exact hp.trans (prefix_append _ _)

/-- The reader is in a chunk with `cur` to come, or in front of the next chunk. -/
structure InChunk (h : Http) (cur sep : List UInt8) (cs : List Chunk) (last : Last) : Prop where
  ok : h.Ok
  open_sock : 0 ≤ h.sock
  whole : h.broken = false
  chunked : h.chunked = true
  eof : h.chunk_eof = false
  left : h.chunk_left = cur.length
  blank : sep = [] ∨ sep = [CR, LF]
  fits : ∀ c ∈ cs, c.fits = true
  stream : h.stream <+: cur ++ (sep ++ encode cs last)

/-- The bytes that are left and the code that comes after them, in each state of a connection. -/
inductive Gives : Http → List UInt8 → Int → Prop
  | chunk {h : Http} {cur sep : List UInt8} {cs : List Chunk} {last : Last} :
      InChunk h cur sep cs last →
      Gives h
        (cur.take h.stream.length ++ deliver cs (h.stream.length - cur.length - sep.length))
        (if h.stream.length < cur.length then 0
          else verdict cs (h.stream.length - cur.length - sep.length))
  | ended {h : Http} : 0 ≤ h.sock → h.chunked = true → h.chunk_eof = true → Gives h [] 0
  | stuck {h : Http} : h.Ok → 0 ≤ h.sock → h.broken = false → h.chunked = true →
      h.chunk_eof = false → 0 < h.chunk_left → h.stream = [] → Gives h [] 0
  | length {h : Http} {n : Nat} : h.Ok → 0 ≤ h.sock → h.broken = false → h.chunked = false →
      h.body_left = n → (h.content_length = 0 → n = 0) → Gives h (h.stream.take n) 0

/-- One turn of the loop: it ends the call when nothing is left, and else gets some bytes. -/
def Turn (max fuel : Nat) (h : Http) (got rem : List UInt8) (v : Int) : Prop :=
  (rem = [] ∧ ∃ h', read_loop max (fuel + 1) h got = some (h'.result got v) ∧ Gives h' [] v) ∨
  ∃ d h' rem', d ≠ [] ∧ d.length ≤ max - got.length ∧ rem = d ++ rem' ∧ Gives h' rem' v ∧
    read_loop max (fuel + 1) h got = read_loop max fuel h' (got ++ d)

namespace Http

lemma At.fields {h' : Http} (a : h.At s h') :
    h'.sock = h.sock ∧ h'.chunked = h.chunked ∧ h'.body_left = h.body_left ∧
      h'.chunk_left = h.chunk_left ∧ h'.chunk_eof = h.chunk_eof ∧ h'.broken = h.broken ∧
      h'.content_length = h.content_length := by
  have := a.core
  simp only [Http.core, Http.mk.injEq] at this
  obtain ⟨h1, h2, h3, -, -, h6, h7, h8, -, -, h11⟩ := this
  exact ⟨h1, h3, h6, h7, h8, h11, h2⟩

end Http

section

variable {max fuel : Nat} {h h1 : Http} {got : List UInt8}

lemma turn_stop {code : Int} (hroom : got.length < max)
    (hd : h.due (max - got.length) = some (.stop h1) ∧ code = 0 ∨
      h.due (max - got.length) = some (.fail code h1)) (hg : Gives h1 [] code) :
    Turn max fuel h got [] code := by
  refine .inl ⟨rfl, h1, ?_, hg⟩
  rcases hd with ⟨hd, rfl⟩ | hd
  · simp only [read_loop, hd, if_neg (Nat.not_le.mpr hroom)]
  · simp only [read_loop, hd, if_neg (Nat.not_le.mpr hroom)]

lemma turn_closed {want : Nat} (hroom : got.length < max)
    (hd : h.due (max - got.length) = some (.bytes want h1)) (hw : 0 < want)
    (hok : h1.Ok) (hb : h1.broken = false) (hs : h1.stream = []) (hg : Gives h1 [] 0) :
    Turn max fuel h got [] 0 := by
  refine .inl ⟨rfl, h1, ?_, hg⟩
  rcases serve_spec hok hw with ⟨-, hv⟩ | ⟨d, h', s, -, hne, -, hst, -⟩
  · simp only [read_loop, hd, if_neg (Nat.not_le.mpr hroom), hv, hb]
    rfl
  · rw [hs] at hst
    exact absurd (append_eq_nil_iff.mp hst.symm).1 hne

lemma turn_bytes {want : Nat} (hroom : got.length < max)
    (hd : h.due (max - got.length) = some (.bytes want h1)) (hw : 0 < want)
    (hw' : want ≤ max - got.length) (hok : h1.Ok) (hs : h1.stream ≠ [])
    (hg : ∀ d h' s, d ≠ [] → d.length ≤ want → h1.stream = d ++ s → h1.At s h' →
      ∃ rem', rem = d ++ rem' ∧ Gives (h'.account d.length) rem' v) :
    Turn max fuel h got rem v := by
  rcases serve_spec hok hw with ⟨hn, -⟩ | ⟨d, h', s, hv, hne, hl, hst, ha⟩
  · exact absurd hn hs
  · obtain ⟨rem', hr, hg⟩ := hg d h' s hne hl hst ha
    refine .inr ⟨d, h'.account d.length, rem', hne, by omega, hr, hg, ?_⟩
    simp only [read_loop, hd, if_neg (Nat.not_le.mpr hroom), hv]

lemma account_at {h' : Http} (ha : h1.At s h') (n : Nat) :
    (h'.account n).Ok ∧ (h'.account n).stream = s ∧ (h'.account n).sock = h1.sock ∧
      (h'.account n).broken = h1.broken ∧ (h'.account n).chunked = h1.chunked ∧
      (h'.account n).chunk_eof = h1.chunk_eof ∧
      (h'.account n).content_length = h1.content_length := by
  obtain ⟨f1, f2, -, -, f5, f6, f7⟩ := ha.fields
  unfold account
  by_cases hch : h'.chunked = true
  · rw [if_pos hch]
    exact ⟨⟨rfl, ha.reof, rfl⟩, ha.stream, f1, f6, f2, f5, f7⟩
  · rw [if_neg hch]
    exact ⟨⟨rfl, ha.reof, rfl⟩, ha.stream, f1, f6, f2, f5, f7⟩

/-- A turn inside a chunk. -/
lemma turn_in_chunk {cur : List UInt8} (hroom : got.length < max) (hcur : cur ≠ [])
    (hd : h.due (max - got.length) = some (.bytes (min cur.length (max - got.length)) h1))
    (hc : InChunk h1 cur sep cs last) : Turn max fuel h got
      (cur.take h1.stream.length ++ deliver cs (h1.stream.length - cur.length - sep.length))
      (if h1.stream.length < cur.length then 0
        else verdict cs (h1.stream.length - cur.length - sep.length)) := by
  have hpos : 0 < cur.length := length_pos_iff.mpr hcur
  by_cases hs : h1.stream = []
  · rw [hs, length_nil, if_pos hpos, take_zero, Nat.zero_sub, Nat.zero_sub, deliver_zero]
    refine turn_closed hroom hd (by omega) hc.ok hc.whole hs ?_
    exact .stuck hc.ok hc.open_sock hc.whole hc.chunked hc.eof (by rw [hc.left]; exact hpos) hs
  refine turn_bytes hroom hd (by omega) (by omega) hc.ok hs ?_
  intro d h' s hne hl hst ha
  obtain ⟨cur', rfl⟩ : ∃ cur', cur = d ++ cur' := by
    have hp : d <+: cur ++ (sep ++ encode cs last) :=
      (List.prefix_append d s).trans (hst ▸ hc.stream)
    have := List.prefix_of_prefix_length_le hp (List.prefix_append cur _) (by omega)
    obtain ⟨t, ht⟩ := this
    exact ⟨t, ht.symm⟩
  obtain ⟨f0, f1, f2, f3, f4, f5, -⟩ := account_at ha d.length
  have hin : InChunk (h'.account d.length) cur' sep cs last := by
    refine ⟨f0, f2 ▸ hc.open_sock, f3.trans hc.whole, f4.trans hc.chunked, f5.trans hc.eof, ?_,
      hc.blank, hc.fits, ?_⟩
    · obtain ⟨-, g2, -, g4, -⟩ := ha.fields
      have hch : h'.chunked = true := g2.trans hc.chunked
      have hle := hc.left
      rw [length_append] at hle
      simp only [account, hch, if_true, g4]
      omega
    · rw [f1]
      have := hc.stream
      rw [hst, append_assoc, List.prefix_append_right_inj] at this
      exact this
  have hlen : h1.stream.length = d.length + s.length := by rw [hst, length_append]
  refine ⟨cur'.take s.length ++ deliver cs (s.length - cur'.length - sep.length), ?_, ?_⟩
  · rw [hlen, take_length_add_append, length_append, append_assoc, Nat.add_sub_add_left]
  have hg := Gives.chunk hin
  rw [f1] at hg
  rw [hlen, length_append, Nat.add_sub_add_left]
  simpa only [Nat.add_lt_add_iff_left] using hg

/-- The line in front of a chunk, after the blank one that ends the chunk before. -/
lemma next_line_sep (hok : h.Ok) (hb : sep = [] ∨ sep = [CR, LF])
    (hst : h.stream = sep ++ s) {o : Option (List UInt8)} (hs : scan 128 s [] = (o, t))
    (ho : o ≠ some []) : ∃ h', next_line (h.stream.length + 1) h = (o, h') ∧ h.At t h' := by
  rcases hb with rfl | rfl
  · rw [nil_append] at hst
    exact next_line_scan _ hok (hst ▸ hs) ho
  obtain ⟨n, hn⟩ : ∃ n, h.stream.length + 1 = n + 2 := by
    refine ⟨s.length + 1, ?_⟩
    rw [hst]
    simp
  rw [hn]
  exact next_line_blank n hok hst hs ho

/-- Between two chunks the end of the stream is an error. -/
lemma turn_end (hroom : got.length < max)
    (hc : InChunk h [] sep cs last) (hl : h.stream.length ≤ sep.length) :
    Turn max fuel h got [] UAOS_HERR_CLOSED := by
  have hp : h.stream <+: sep := by
    have := hc.stream
    exact List.prefix_of_prefix_length_le this (List.prefix_append _ _) hl
  have hline : ∃ h', next_line (h.stream.length + 1) h = (none, h') ∧ h.At [] h' := by
    by_cases hf : h.stream = sep
    · exact next_line_sep hc.ok hc.blank (by rw [hf, append_nil]) rfl (by simp)
    refine next_line_scan _ hc.ok ?_ (by simp)
    rcases hc.blank with rfl | rfl
    · exact absurd (List.prefix_nil.mp hp) hf
    rcases prefix_append_cases (a := [CR]) (b := [LF]) hp with ⟨q, hq, hq'⟩ | ⟨hq, hq'⟩
    · rcases List.prefix_concat_iff.mp (show q <+: [] ++ [LF] from hq') with rfl | hq'
      · exact absurd hq hf
      · rw [hq, List.prefix_nil.mp hq']
        rfl
    · have : h.stream = [] := length_eq_zero_iff.mp (by simpa using hq')
      rw [this]
      rfl
  obtain ⟨h', he, ha⟩ := hline
  obtain ⟨f1, f2, -, f4, f5, f6, -⟩ := ha.fields
  have hin : InChunk h' [] [] cs last :=
    ⟨ha.ok, f1 ▸ hc.open_sock, f6.trans hc.whole, f2.trans hc.chunked, f5.trans hc.eof,
      f4.trans hc.left, .inl rfl, hc.fits, by rw [ha.stream]; exact List.nil_prefix⟩
  have hd : h.due (max - got.length) = some (.fail UAOS_HERR_CLOSED h') := by
    simp only [due, hc.chunked, hc.eof, hc.left, next_chunk, he]
    rfl
  refine turn_stop hroom (.inr hd) ?_
  simpa [ha.stream] using Gives.chunk hin

/-- In front of a chunk, with the line that comes next. -/
lemma due_line {line : List UInt8} {k : Nat}
    (hc : InChunk h [] sep cs last) (hst : h.stream = sep ++ s)
    (hs : scan 128 s [] = (some line, t)) (hne : line ≠ []) (hk : chunk_size none line = some k)
    (hlt : k < 2 ^ 63) (room : Nat) : ∃ h', h.At t h' ∧ h.due room = if k = 0 then
        some (.stop { drain (h'.stream.length + 1) h' with chunk_eof := true })
      else some (.bytes (min k room) { h' with chunk_left := k }) := by
  obtain ⟨h', he, ha⟩ := next_line_sep hc.ok hc.blank hst hs (by simpa using hne)
  refine ⟨h', ha, ?_⟩
  simp only [due, hc.chunked, hc.eof, hc.left, next_chunk, he, hk,
    if_neg (Nat.not_le.mpr hlt)]
  rfl

section

variable (hroom : got.length < max)

include hroom

/-- A line that reads as size zero ends the body. -/
lemma turn_last {line : List UInt8} (hc : InChunk h [] sep cs last) (hst : h.stream = sep ++ s)
    (hs : scan 128 s [] = (some line, t)) (hne : line ≠ []) (hk : chunk_size none line = some 0) :
    Turn max fuel h got [] 0 := by
  obtain ⟨h', ha, hd⟩ := due_line hc hst hs hne hk (by decide) (max - got.length)
  refine turn_stop hroom (.inl ⟨hd, rfl⟩) ?_
  obtain ⟨s', hdr⟩ := drain_spec (h'.stream.length + 1) ha.ok
  obtain ⟨f1, f2, -⟩ := (ha.trans hdr).fields
  exact .ended (by rw [f1]; exact hc.open_sock) (f2.trans hc.chunked) rfl

/-- A line that is cut off. Whatever size it seems to state, nothing follows. -/
lemma turn_cut {l : SizeLine} (hc : InChunk h [] sep cs last) (hst : h.stream = sep ++ s)
    (hp : s <+: l.bytes) (hl : s.length < l.bytes.length) (hne : s ≠ [])
    (hlt : value l.digits < 2 ^ 63) : Turn max fuel h got [] 0 := by
  obtain ⟨line, k, hs, hline, hk, hle⟩ := l.scan_cut hp hl hne
  by_cases h0 : k = 0
  · rw [h0] at hk
    exact turn_last hroom hc hst hs hline hk
  obtain ⟨h', ha, hd⟩ := due_line hc hst hs hline hk (by omega) (max - got.length)
  rw [if_neg h0] at hd
  obtain ⟨f1, f2, -, -, f5, f6, -⟩ := ha.fields
  have hok : Http.Ok { h' with chunk_left := k } := ⟨rfl, ha.reof, rfl⟩
  refine turn_closed hroom hd (by omega) hok (f6.trans hc.whole) ha.stream ?_
  have hsock : 0 ≤ h'.sock := f1 ▸ hc.open_sock
  exact .stuck hok hsock (f6.trans hc.whole) (f2.trans hc.chunked) (f5.trans hc.eof)
    (Nat.pos_of_ne_zero h0) ha.stream

/-- A turn in front of a chunk. -/
lemma turn_between (hc : InChunk h [] sep cs last) :
    Turn max fuel h got (deliver cs (h.stream.length - sep.length))
      (verdict cs (h.stream.length - sep.length)) := by
  by_cases hl : h.stream.length ≤ sep.length
  · rw [Nat.sub_eq_zero_of_le hl, deliver_zero, verdict_zero]
    exact turn_end hroom hc hl
  have hp := hc.stream
  rw [nil_append] at hp
  obtain ⟨s, hst, hp⟩ : ∃ s, h.stream = sep ++ s ∧ s <+: encode cs last := by
    rcases prefix_append_cases hp with hp | ⟨-, hlt⟩
    · exact hp
    · omega
  have hlen : h.stream.length - sep.length = s.length := by
    rw [hst, length_append]
    omega
  obtain ⟨n, hn⟩ : ∃ n, s.length = n + 1 := ⟨s.length - 1, by omega⟩
  have hne : s ≠ [] := by
    rintro rfl
    cases hn
  rw [hlen]
  cases cs with
  | nil =>
    have hv : verdict [] s.length = 0 := by rw [hn]; rfl
    rw [hv]
    simp only [encode, flatMap_nil, nil_append] at hp
    rcases prefix_append_cases hp with ⟨t, rfl, -⟩ | ⟨hp, hlt⟩
    · have hline := last.line.some_digit
      have hstart := List.take_prefix 127 (last.line.digits ++ last.line.ext)
      obtain ⟨k, hk, hle⟩ := last.line.size_of_start hstart
        (by simpa using fun h => absurd h hline)
      rw [last.size, Nat.le_zero] at hle
      rw [hle] at hk
      exact turn_last hroom hc hst (last.line.scan_bytes t) (by simpa using fun h => absurd h hline)
        hk
    · exact turn_cut hroom hc hst hp hlt hne (by rw [last.size]; decide)
  | cons c cs =>
    have hfit : c.fits = true := hc.fits c (by simp)
    simp only [Chunk.fits, Bool.and_eq_true, decide_eq_true_eq] at hfit
    have hbytes : encode (c :: cs) last =
        c.line.bytes ++ (c.data ++ ([CR, LF] ++ encode cs last)) := by
      simp [encode, Chunk.bytes]
    have hlb := c.bytes_length
    rw [hbytes] at hp
    rcases prefix_append_cases hp with ⟨t, rfl, ht⟩ | ⟨hp, hlt⟩
    · have hk := c.line.size_of_line hfit.1
      have hpos : 0 < c.data.length := length_pos_iff.mpr c.some_data
      rw [c.size] at hk
      obtain ⟨h', ha, hd⟩ := due_line hc hst (c.line.scan_bytes t)
        (by simpa using fun h => absurd h c.line.some_digit) hk hfit.2 (max - got.length)
      rw [if_neg (by omega)] at hd
      obtain ⟨f1, f2, -, -, f5, f6, -⟩ := ha.fields
      have hin : InChunk { h' with chunk_left := c.data.length } c.data [CR, LF] cs last :=
        ⟨⟨rfl, ha.reof, rfl⟩, f1 ▸ hc.open_sock, f6.trans hc.whole, f2.trans hc.chunked,
          f5.trans hc.eof, rfl, .inr rfl, fun x hx => hc.fits x (by simp [hx]),
          by rw [show stream { h' with chunk_left := c.data.length } = t from ha.stream]
             exact ht⟩
      have hturn : Turn max fuel h got _ _ := turn_in_chunk hroom c.some_data hd hin
      rw [show stream { h' with chunk_left := c.data.length } = t from ha.stream] at hturn
      have e1 : (c.line.bytes ++ t).length - c.line.bytes.length = t.length := by
        rw [length_append]
        omega
      have e2 : (c.line.bytes ++ t).length - c.bytes.length = t.length - c.data.length - 2 := by
        omega
      have hv : verdict (c :: cs) (c.line.bytes ++ t).length =
          if t.length < c.data.length then 0 else verdict cs (t.length - c.data.length - 2) := by
        rw [← e2, hn, verdict, ← hn]
        simp only [length_append, Nat.add_lt_add_iff_left]
      rw [deliver, e1, e2, hv]
      exact hturn
    · have hv : verdict (c :: cs) s.length = 0 := by
        rw [hn, verdict, if_pos (by omega)]
      have hd : deliver (c :: cs) s.length = [] := by
        rw [deliver, Nat.sub_eq_zero_of_le hlt.le, Nat.sub_eq_zero_of_le (by omega)]
        simp
      rw [hv, hd]
      exact turn_cut hroom hc hst hp hlt hne (by rw [c.size]; exact hfit.2)

/-- A turn of the loop in any state. -/
lemma turn_gives (hg : Gives h rem v) : Turn max fuel h got rem v := by
  cases hg with
  | @chunk cur sep cs last hc =>
    cases cur with
    | nil =>
      have hturn : Turn max fuel h got _ _ := turn_between hroom hc
      simpa using hturn
    | cons b cur =>
      refine turn_in_chunk hroom (by simp) ?_ hc
      simp only [due, hc.chunked, hc.eof, hc.left]
      rfl
  | ended h1 h2 h3 =>
    refine turn_stop hroom (.inl ⟨?_, rfl⟩) (.ended h1 h2 h3)
    simp only [due, h2, h3, if_true]
  | stuck h0 h1 h2 h3 h4 h5 h6 =>
    have hd : h.due (max - got.length) = some (.bytes (min h.chunk_left (max - got.length)) h) := by
      simp only [due, h3, h4, if_neg (Nat.pos_iff_ne_zero.mp h5)]
      rfl
    exact turn_closed hroom hd (by omega) h0 h2 h6 (.stuck h0 h1 h2 h3 h4 h5 h6)
  | @length n h0 h1 h2 h3 h4 h5 =>
    by_cases hn : n = 0
    · subst hn
      have hd : h.due (max - got.length) = some (.stop h) := by
        simp only [due, h3, h4]
        rfl
      refine turn_stop hroom (.inl ⟨hd, rfl⟩) ?_
      simpa using Gives.length h0 h1 h2 h3 h4 h5
    have hd : h.due (max - got.length) = some (.bytes (min n (max - got.length)) h) := by
      simp only [due, h3, h4, Int.toNat_natCast, Nat.cast_eq_zero, if_neg hn,
        Bool.false_eq_true, if_false]
      by_cases hlt : n < max - got.length
      · have : 0 < n := by omega
        rw [min_eq_left hlt.le, if_pos (by omega)]
      · rw [min_eq_right (by omega), if_neg (by omega)]
    by_cases hs : h.stream = []
    · rw [hs, take_nil]
      refine turn_closed hroom hd (by omega) h0 h2 hs ?_
      simpa [hs] using Gives.length h0 h1 h2 h3 h4 h5
    refine turn_bytes hroom hd (by omega) (by omega) h0 hs ?_
    intro d h' s hne hl hst ha
    obtain ⟨f0, f1, f2, f3, f4, -, f6⟩ := account_at ha d.length
    refine ⟨s.take (n - d.length), ?_, ?_⟩
    · rw [hst, take_append, take_of_length_le (by omega)]
    have hb : (h'.account d.length).body_left = (n - d.length : Nat) := by
      obtain ⟨-, g2, g3, -⟩ := ha.fields
      have hch : h'.chunked = false := g2.trans h3
      have hpos : 0 < n := by omega
      simp only [account, hch, g3, h4]
      simp only [Bool.false_eq_true, if_false, Nat.cast_pos, if_pos hpos]
      omega
    rw [← f1]
    refine .length f0 (f2 ▸ h1) (f3.trans h2) (f4.trans h3) hb ?_
    intro hz
    rw [h5 (f6 ▸ hz), Nat.zero_sub]

end

/-- The loop gets as much of what is left as there is room for. -/
lemma read_loop_spec (hg : Gives h rem v) (hmax : 0 < max)
    (hf : max ≤ got.length + fuel) : ∃ h', read_loop max fuel h got =
        some (h'.result (got ++ rem.take (max - got.length)) v) ∧
      Gives h' (rem.drop (max - got.length)) v := by
  have full : max ≤ got.length → h.result got 0 = h.result got v := by
    intro hle
    have : got ≠ [] := by
      rintro rfl
      simp at hle
      omega
    simp only [result, if_neg this]
  induction fuel generalizing h got rem with
  | zero =>
    refine ⟨h, ?_, ?_⟩
    · rw [read_loop, full (by omega), Nat.sub_eq_zero_of_le (by omega), take_zero,
        append_nil]
    · rw [Nat.sub_eq_zero_of_le (by omega)]
      exact hg
  | succ fuel ih =>
    by_cases hle : max ≤ got.length
    · refine ⟨h, ?_, ?_⟩
      · rw [read_loop, if_pos hle, full hle, Nat.sub_eq_zero_of_le hle, take_zero, append_nil]
      · rw [Nat.sub_eq_zero_of_le hle]
        exact hg
    have hturn : Turn max fuel h got rem v := turn_gives (Nat.not_le.mp hle) hg
    rcases hturn with ⟨rfl, h', he, hg'⟩ | ⟨d, h', rem', hne, hl, rfl, hg', he⟩
    · refine ⟨h', ?_, ?_⟩
      · rw [he, take_nil, append_nil]
      · rw [drop_nil]
        exact hg'
    have hpos : 0 < d.length := length_pos_iff.mpr hne
    have hlen : (got ++ d).length = got.length + d.length := length_append
    have hfull : max ≤ (got ++ d).length → h'.result (got ++ d) 0 = h'.result (got ++ d) v := by
      intro _
      simp only [result, append_eq_nil_iff, hne, and_false, if_false]
    obtain ⟨h'', he', hg''⟩ := ih hg' (by omega) hfull
    have hroom : max - (got ++ d).length = max - got.length - d.length := by omega
    rw [hroom] at he' hg''
    refine ⟨h'', ?_, ?_⟩
    · rw [he, he', append_assoc, take_append, take_of_length_le hl]
    · rw [List.drop_append, drop_of_length_le hl, nil_append]
      exact hg''

/-- A call gives the next bytes of what is left, and the code when nothing is. -/
lemma read_spec (hg : Gives h rem v) {size : Int} (hs : 0 < size) :
    ∃ h', h.uaos_http_read size = some
        (if rem = [] then v else (rem.take size.toNat).length, rem.take size.toNat, h') ∧
      Gives h' (rem.drop size.toNat) v := by
  have hsock : 0 ≤ h.sock := by
    cases hg with
    | chunk hc => exact hc.open_sock
    | ended h1 => exact h1
    | stuck _ h1 => exact h1
    | length _ h1 => exact h1
  by_cases hz : h.content_length = 0 ∧ h.chunked = false
  · have hnone : rem = [] ∧ v = 0 := by
      cases hg with
      | chunk hc => exact absurd (hz.2.symm.trans hc.chunked) (by decide)
      | ended _ h2 => exact absurd (hz.2.symm.trans h2) (by decide)
      | stuck _ _ _ h2 => exact absurd (hz.2.symm.trans h2) (by decide)
      | length _ _ _ _ _ h5 => exact ⟨by rw [h5 hz.1, take_zero], rfl⟩
    obtain ⟨rfl, rfl⟩ := hnone
    refine ⟨h, ?_, by simpa using hg⟩
    simp only [uaos_http_read, if_neg (show ¬(h.sock < 0 ∨ size ≤ 0) by omega), if_pos hz]
    simp
  · have hf : size.toNat ≤ ([] : List UInt8).length + size.toNat := (zero_add _).ge
    obtain ⟨h', he, hg'⟩ := read_loop_spec hg (by omega) hf
    refine ⟨h', ?_, hg'⟩
    simp only [uaos_http_read, if_neg (show ¬(h.sock < 0 ∨ size ≤ 0) by omega), if_neg hz, he]
    have hnil : (rem.take size.toNat = []) ↔ rem = [] := by
      rw [take_eq_nil_iff]
      exact or_iff_right (by omega)
    simp [result, hnil]

end

/-! ## Runs of calls -/

/-- The bytes that calls with these buffer sizes have room for. -/
def room : List Int → Nat
  | [] => 0
  | size :: sizes => size.toNat + room sizes

/-- What a call with a buffer of `size` bytes returns: a block with its length, or the code when
nothing is left. A size that is not positive is refused. -/
def Told (v size : Int) (c : Int × List UInt8) : Prop :=
  if 0 < size then c.2 ≠ [] ∧ c.1 = c.2.length ∨ c = (v, []) else c = (UAOS_HERR_CLOSED, [])

/-- Calls give what is left block by block, and only then the code. -/
lemma reads_spec (hg : Gives h rem v) (sizes : List Int) :
    ∃ rs h', h.reads sizes = some (rs, h') ∧ Forall₂ (Told v) sizes rs ∧
      rs.flatMap Prod.snd = rem.take (room sizes) ∧ Gives h' (rem.drop (room sizes)) v := by
  induction sizes generalizing h rem with
  | nil => exact ⟨[], h, rfl, .nil, by simp [room], by simpa [room] using hg⟩
  | cons size sizes ih =>
    by_cases hs : 0 < size
    · obtain ⟨h1, he, hg1⟩ := read_spec hg hs
      obtain ⟨rs, h2, he2, ht, hb, hg2⟩ := ih hg1
      refine ⟨_ :: rs, h2, by simp only [reads, he, he2]; rfl, .cons ?_ ht, ?_, ?_⟩
      · rw [Told, if_pos hs]
        by_cases hr : rem = []
        · exact .inr (by simp [hr])
        · have hne : rem.take size.toNat ≠ [] := by
            rw [ne_eq, take_eq_nil_iff]
            exact not_or.mpr ⟨by omega, hr⟩
          exact .inl ⟨hne, if_neg hr⟩
      · rw [flatMap_cons, hb, room, take_add]
      · rw [room, ← drop_drop]
        exact hg2
    · obtain ⟨rs, h2, he2, ht, hb, hg2⟩ := ih hg
      have he : h.uaos_http_read size = some (UAOS_HERR_CLOSED, [], h) := by
        rw [uaos_http_read, if_pos (.inr (by omega))]
      have hz : size.toNat = 0 := by omega
      refine ⟨(UAOS_HERR_CLOSED, []) :: rs, h2, by simp only [reads, he, he2]; rfl,
        .cons (by rw [Told, if_neg hs]) ht, ?_, ?_⟩
      · rw [flatMap_cons, hb, room, hz, zero_add, nil_append]
      · rw [room, hz, zero_add]
        exact hg2

/-- What is left of a response of which the first bytes come. -/
def Response.left : Response → Nat → List UInt8
  | .chunks cs _, n => deliver cs n
  | .length data _, n => data.take n

/-- The code that comes after them. -/
def Response.code : Response → Nat → Int
  | .chunks cs _, n => verdict cs n
  | .length _ _, _ => 0

section

variable {r : Response} {sock : Nat} {rbuf : List UInt8} {net : List (UInt8 × List UInt8)}

lemma opened_stream : (r.opened sock rbuf net).stream = rbuf ++ net.flatMap segment := by
  cases r <;> rfl

lemma opened_ok : (r.opened sock rbuf net).Ok := by
  refine ⟨rfl, ?_, rfl⟩
  intro h
  cases r <;> cases h

lemma fits_in_of_fits (h : r.fits = true) (n : Nat) : r.fits_in n = true := by
  cases r with
  | chunks cs last =>
    exact List.all_eq_true.mpr fun c hc => List.all_eq_true.mp h c (begun_subset cs n hc)
  | length data after => exact h

/-- After the headers all that the stream has of the body is still to come. -/
lemma gives_opened (hf : r.fits_in (r.opened sock rbuf net).stream.length = true)
    (hs : (r.opened sock rbuf net).stream <+: r.bytes) :
    Gives (r.opened sock rbuf net) (r.left (r.opened sock rbuf net).stream.length)
      (r.code (r.opened sock rbuf net).stream.length) := by
  have hok : (r.opened sock rbuf net).Ok := opened_ok
  cases r with
  | chunks cs last =>
    -- the reader cannot tell the response from one that has no chunks behind those that begin
    have hin : InChunk ((Response.chunks cs last).opened sock rbuf net) [] []
        (begun cs ((Response.chunks cs last).opened sock rbuf net).stream.length) last :=
      ⟨hok, Int.natCast_nonneg sock, rfl, rfl, rfl, rfl, .inl rfl, List.all_eq_true.mp hf,
        encode_begun hs⟩
    simpa [Response.left, Response.code, deliver_begun, verdict_begun] using Gives.chunk hin
  | length data after =>
    have hg : Gives ((Response.length data after).opened sock rbuf net) _ _ :=
      .length (n := data.length) hok (Int.natCast_nonneg sock) rfl rfl rfl
        (fun h => by simpa [Response.opened] using h)
    have hd := take_of_starts hs
    rw [hd] at hg
    exact hg

lemma deliver_all {n : Nat} (hn : (cs.flatMap Chunk.bytes).length ≤ n) :
    deliver cs n = cs.flatMap Chunk.data := by
  induction cs generalizing n with
  | nil => rfl
  | cons c cs ih =>
    rw [flatMap_cons, length_append] at hn
    have hb := c.bytes_length
    rw [deliver, ih (by omega), take_of_length_le (by omega), flatMap_cons]

lemma verdict_all {n : Nat} (hn : (cs.flatMap Chunk.bytes).length < n) : verdict cs n = 0 := by
  induction cs generalizing n with
  | nil =>
    obtain ⟨m, rfl⟩ : ∃ m, n = m + 1 := ⟨n - 1, by simp at hn; omega⟩
    rfl
  | cons c cs ih =>
    rw [flatMap_cons, length_append] at hn
    have hb := c.bytes_length
    obtain ⟨m, rfl⟩ : ∃ m, n = m + 1 := ⟨n - 1, by omega⟩
    rw [verdict, if_neg (by omega), ih (by omega)]

lemma bytes_pos (l : SizeLine) : 0 < l.bytes.length := by
  simp [SizeLine.bytes]

lemma left_all : r.left r.bytes.length = r.body ∧ r.code r.bytes.length = 0 := by
  cases r with
  | chunks cs last =>
    have := bytes_pos last.line
    simp only [Response.left, Response.code, Response.bytes, Response.body, encode, length_append]
    exact ⟨deliver_all (by omega), verdict_all (by omega)⟩
  | length data after =>
    refine ⟨take_of_length_le ?_, rfl⟩
    rw [Response.bytes, length_append]
    omega

/-! ## A complete body -/

/-- A body that comes complete is read block by block as it was sent, whatever the receives and
the buffer sizes are, and after it every call says that it is over. -/
theorem complete_body_is_read_as_sent (hf : r.fits = true)
    (hs : rbuf ++ net.flatMap segment = r.bytes) (sizes : List Int) :
    ∃ rs h', (r.opened sock rbuf net).reads sizes = some (rs, h') ∧
      Forall₂ (Told 0) sizes rs ∧ rs.flatMap Prod.snd = r.body.take (room sizes) ∧
      (r.body.length ≤ room sizes → rs.flatMap Prod.snd = r.body ∧
        ∀ size, 0 < size → ∃ h'', h'.uaos_http_read size = some (0, [], h'')) := by
  have hst : (r.opened sock rbuf net).stream = r.bytes := opened_stream.trans hs
  have hg := gives_opened (fits_in_of_fits hf _)
    (show (r.opened sock rbuf net).stream <+: r.bytes by rw [hst])
  rw [hst, left_all.1, left_all.2] at hg
  obtain ⟨rs, h', he, ht, hb, hg'⟩ := reads_spec hg sizes
  refine ⟨rs, h', he, ht, hb, ?_⟩
  intro hle
  rw [drop_of_length_le hle] at hg'
  refine ⟨hb.trans (take_of_length_le hle), ?_⟩
  intro size hsize
  obtain ⟨h'', he'', -⟩ := read_spec hg' hsize
  exact ⟨h'', by simpa using he''⟩

end

/-- A chunk of one byte whose size is written with leading zeros. -/
def zeros_chunk : Chunk :=
  ⟨⟨List.replicate 127 48 ++ [49], [], by decide, by decide +kernel, by simp, by simp⟩, [65],
    by decide +kernel, by decide⟩

def last_chunk : Last := ⟨⟨[48], [], by simp, by decide +kernel, by simp, by simp⟩, by decide, []⟩

/-- The line buffer keeps 127 characters, so the size seems to be zero and the body empty. -/
theorem long_size_line_ends_the_body :
    ∃ (r : Response) (rbuf : List UInt8), rbuf = r.bytes ∧ r.body = [65] ∧
      ((r.opened 3 rbuf []).uaos_http_read 16).map (fun x => (x.1, x.2.1)) = some (0, []) :=
  ⟨.chunks [zeros_chunk] last_chunk, _, rfl, by decide +kernel, by decide +kernel⟩

/-- Two chunks, the second one with an extension. -/
def ab_chunks : List Chunk :=
  [⟨⟨[50], [], by simp, by decide +kernel, by simp, by simp⟩, [65, 66], by decide, by simp⟩,
    ⟨⟨[49], [59, 120], by simp, by decide +kernel, by decide, by decide +kernel⟩, [67], by decide,
      by simp⟩]

def ab_response : Response := .chunks ab_chunks last_chunk

theorem ab_response_is_read_as_sent : ab_response.fits = true ∧ ∃ rs h',
      (ab_response.opened 3 (ab_response.bytes.take 4) [(66, ab_response.bytes.drop 5)]).reads
        [1, 0, 7] = some (rs, h') ∧ Forall₂ (Told 0) [1, 0, 7] rs ∧
      rs.flatMap Prod.snd = ab_response.body.take (room [1, 0, 7]) ∧
      (ab_response.body.length ≤ room [1, 0, 7] → rs.flatMap Prod.snd = ab_response.body ∧
        ∀ size, 0 < size → ∃ h'', h'.uaos_http_read size = some (0, [], h'')) :=
  ⟨by decide, complete_body_is_read_as_sent (by decide) (by decide +kernel) [1, 0, 7]⟩

/-! ## A connection that is closed -/

/-- The stream ends after `n` bytes where the reader can see it: behind the data of a chunk, or
behind the line of the last one. -/
def clean_cut (last : Last) : List Chunk → Nat → Bool
  | _, 0 => true
  | [], n + 1 => decide (last.line.bytes.length ≤ n + 1)
  | c :: cs, n + 1 => decide (c.line.bytes.length + c.data.length ≤ n + 1) &&
      clean_cut last cs (n + 1 - c.bytes.length)

/-- The peer may close the connection here. With a Content-Length no early close is seen. -/
def Response.clean_cut : Response → Nat → Bool
  | .chunks cs last, n => http.clean_cut last cs n
  | .length data _, n => decide (data.length ≤ n)

lemma clean_cut_zero (last : Last) (cs : List Chunk) : clean_cut last cs 0 = true := by
  cases cs <;> rfl

lemma verdict_nonpos (cs : List Chunk) (n : Nat) : verdict cs n ≤ 0 := by
  induction cs generalizing n with
  | nil =>
    cases n with
    | zero => exact (by decide : UAOS_HERR_CLOSED ≤ 0)
    | succ n => exact Int.le_refl 0
  | cons c cs ih =>
    cases n with
    | zero => exact (by decide : UAOS_HERR_CLOSED ≤ 0)
    | succ n =>
      rw [verdict]
      split_ifs
      · exact Int.le_refl 0
      · exact ih _

lemma clean_cut_iff (last : Last) (cs : List Chunk) (n : Nat) : clean_cut last cs n = true ↔
      (verdict cs n = 0 ↔ (Response.chunks cs last).received n = true) := by
  have hpos := bytes_pos last.line
  induction cs generalizing n with
  | nil =>
    cases n with
    | zero =>
      have hne : ¬last.line.bytes = [] := ne_nil_of_length_pos hpos
      simp [clean_cut, Response.received, UAOS_HERR_CLOSED, hne]
    | succ n => simp [clean_cut, verdict, Response.received]
  | cons c cs ih =>
    have hb := c.bytes_length
    have hr : ∀ m, (Response.chunks (c :: cs) last).received m =
        (Response.chunks cs last).received (m - c.bytes.length) := by
      intro m
      simp only [Response.received, flatMap_cons, length_append, decide_eq_decide]
      omega
    rw [hr]
    cases n with
    | zero =>
      have h0 := ih 0
      rw [verdict_zero, clean_cut_zero] at h0 ⊢
      rw [Nat.zero_sub]
      exact h0
    | succ n =>
      by_cases hlt : n + 1 < c.line.bytes.length + c.data.length
      · have hnot : (Response.chunks cs last).received (n + 1 - c.bytes.length) = false := by
          simp only [Response.received, length_append, decide_eq_false_iff_not]
          omega
        rw [verdict, if_pos hlt, hnot, clean_cut, decide_eq_false (by omega)]
        simp
      · rw [verdict, if_neg hlt, clean_cut, decide_eq_true (by omega), Bool.true_and]
        exact ih _

lemma code_nonpos (r : Response) (n : Nat) : r.code n ≤ 0 := by
  cases r with
  | chunks cs last => exact verdict_nonpos cs n
  | length data after => exact Int.le_refl 0

lemma response_clean_cut_iff (r : Response) (n : Nat) :
    r.clean_cut n = true ↔ (r.code n = 0 ↔ r.received n = true) := by
  cases r with
  | chunks cs last => exact clean_cut_iff last cs n
  | length data after => simp [Response.clean_cut, Response.code, Response.received]

/-- Only the code is not positive. -/
lemma told_codes {sizes : List Int} {rs : List (Int × List UInt8)} (h : Forall₂ (Told v) sizes rs)
    (hs : ∀ size ∈ sizes, 0 < size) : ∀ c ∈ rs, c.1 ≤ 0 → c.1 = v := by
  induction h with
  | nil => simp
  | cons hc _ ih =>
    rw [forall_mem_cons] at hs ⊢
    refine ⟨fun hle => ?_, ih hs.2⟩
    rw [Told, if_pos hs.1] at hc
    rcases hc with ⟨hne, hlen⟩ | hc
    · have := length_pos_iff.mpr hne
      omega
    · rw [hc]

section

variable {r : Response} {sock : Nat} {rbuf : List UInt8} {net : List (UInt8 × List UInt8)}

/-- A call returns 0 just when the whole body was received, and an error when the connection is
closed before. That holds of the places named in `clean_cut` and of no others. -/
theorem early_close_is_an_error_iff
    (hf : r.fits_in (rbuf ++ net.flatMap segment).length = true)
    (hs : rbuf ++ net.flatMap segment <+: r.bytes) :
    (∀ sizes : List Int, (∀ size ∈ sizes, 0 < size) →
      ∃ rs h', (r.opened sock rbuf net).reads sizes = some (rs, h') ∧
        ∀ c ∈ rs, c.1 ≤ 0 → (c.1 = 0 ↔ r.received (rbuf ++ net.flatMap segment).length = true)) ↔
    r.clean_cut (rbuf ++ net.flatMap segment).length = true := by
  have hst : (r.opened sock rbuf net).stream = rbuf ++ net.flatMap segment := opened_stream
  rw [← hst] at hf hs
  have hg := gives_opened hf hs
  rw [hst] at hg
  generalize (rbuf ++ net.flatMap segment).length = n at hg ⊢
  rw [response_clean_cut_iff]
  constructor
  · intro hall
    obtain ⟨h1, he1, hg1⟩ := read_spec hg (show (0 : Int) < ((r.left n).length + 1 : Nat) by omega)
    obtain ⟨h2, he2, -⟩ := read_spec hg1 (show (0 : Int) < 1 by decide)
    obtain ⟨rs, h', he, hc⟩ := hall [((r.left n).length + 1 : Nat), 1] (by simp)
    simp only [reads, he1, he2, Option.map_some, Option.some.injEq, Prod.mk.injEq] at he
    refine hc (r.code n, []) ?_ (code_nonpos r n)
    rw [← he.1]
    simp
  · intro hv sizes hsz
    obtain ⟨rs, h', he, ht, -⟩ := reads_spec hg sizes
    refine ⟨rs, h', he, ?_⟩
    intro c hmem hle
    rw [told_codes ht hsz c hmem hle]
    exact hv

end

/-- A body of two bytes with a Content-Length. When one has come and the connection is closed, the
call after it says that the body is over. -/
theorem early_close_looks_like_the_end : ∃ r : Response, r.received 1 = false ∧
      ((r.opened 3 (r.bytes.take 1) []).reads [16, 16]).map Prod.fst = some [(1, [65]), (0, [])] :=
  ⟨.length [65, 66] [], by decide, by decide +kernel⟩

/-- The stream of `ab_chunks` ends behind the first chunk, and every reader is told that
something is missing. -/
theorem close_behind_a_chunk_is_an_error :
    ab_response.clean_cut 6 = true ∧ ab_response.received 6 = false ∧
    (∀ sizes : List Int, (∀ size ∈ sizes, 0 < size) →
      ∃ rs h', (ab_response.opened 3 [50, 13, 10, 65] [(66, [13])]).reads sizes = some (rs, h') ∧
        ∀ c ∈ rs, c.1 ≤ 0 → c.1 ≠ 0) ∧
    ((ab_response.opened 3 [50, 13, 10, 65] [(66, [13])]).reads [16, 16]).map Prod.fst =
      some [(2, [65, 66]), (UAOS_HERR_CLOSED, [])] := by
  have hlen : ([50, 13, 10, 65] ++ [((66 : UInt8), [(13 : UInt8)])].flatMap segment).length = 6 :=
    rfl
  have hclean : ab_response.clean_cut 6 = true := by decide
  have hnot : ab_response.received 6 = false := by decide
  refine ⟨hclean, hnot, fun sizes hsz => ?_, by decide +kernel⟩
  obtain ⟨rs, h', he, hc⟩ := (early_close_is_an_error_iff (r := ab_response) (by decide)
    (by decide +kernel)).mpr (hlen ▸ hclean) sizes hsz
  refine ⟨rs, h', he, fun c hmem hle h0 => ?_⟩
  have hrec := (hc c hmem hle).mp h0
  rw [hlen, hnot] at hrec
  cases hrec

end uaos.http
