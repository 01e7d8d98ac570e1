-- What the buffered reader does, said of the byte stream alone: where the receives end and how much
-- of the stream is in the buffer makes no difference to the lines it reads.
import Uaos.Http

namespace uaos.http

open List

variable {h : Http} {s t : List UInt8} {max : Nat} {o : Option (List UInt8)}

namespace Http

/-- All of the connection but the place in the stream. -/
def core (h : Http) : Http := { h with rbuf := [], reof := false, net := [] }

/-- The same connection with `s` still to come. The end is only noticed when it is there. -/
structure At (h : Http) (s : List UInt8) (h' : Http) : Prop where
  stream : h'.stream = s
  reof : h'.reof = true → h'.net = []
  core : h'.core = h.core

lemma At.trans {h1 h2 : Http} (a : h.At s h1) (b : h1.At t h2) : h.At t h2 :=
  ⟨b.stream, b.reof, b.core.trans a.core⟩

/-- A connection that can be read from. -/
abbrev Ok (h : Http) : Prop := h.At h.stream h

lemma stream_put_back (rest : List UInt8) (net : List (UInt8 × List UInt8)) :
    (put_back rest net).flatMap segment = rest ++ net.flatMap segment := by
  cases rest with
  | nil => rfl
  | cons b bs => simp [put_back, segment]

/-- A receive gives the next bytes, at least one and at most as many as asked for. -/
lemma recv_spec (hok : h.Ok) (hr : h.rbuf = []) (len : Nat) (hlen : 0 < len) :
    (h.stream = [] ∧ h.recv len = if h.broken then .error else .closed) ∨
    ∃ c d h', h.recv len = .bytes (c :: d) h' ∧ (c :: d).length ≤ len ∧ h'.rbuf = [] ∧
      ∃ s, h.stream = c :: d ++ s ∧ h.At s h' := by
  obtain ⟨n, rfl⟩ : ∃ n, len = n + 1 := ⟨len - 1, by omega⟩
  cases hn : h.net with
  | nil => exact .inl ⟨by simp [stream, hr, hn], by simp [recv, hn]⟩
  | cons seg net =>
    right
    refine ⟨seg.1, seg.2.take n,
      { h with net := put_back ((segment seg).drop (n + 1)) net }, ?_, ?_, hr, ?_⟩
    · simp [recv, hn, segment]
    · rw [length_cons, length_take]
      omega
    refine ⟨(segment seg).drop (n + 1) ++ net.flatMap segment, ?_, ?_, ?_, rfl⟩
    · simp [stream, hr, hn, segment, ← append_assoc]
    · simp [stream, hr, stream_put_back]
    · intro he
      have := hok.reof he
      rw [hn] at this
      cases this

lemma getc_spec (hok : h.Ok) : (h.stream = [] ∧ ∃ h', h.getc = (none, h') ∧ h.At [] h') ∨
    ∃ c s h', h.stream = c :: s ∧ h.getc = (some c, h') ∧ h.At s h' := by
  cases hr : h.rbuf with
  | cons c rest =>
    right
    refine ⟨c, rest ++ h.net.flatMap segment, { h with rbuf := rest }, ?_, ?_, rfl, hok.reof, rfl⟩
    · simp [stream, hr]
    · simp only [getc, hr]
  | nil =>
    by_cases he : h.reof = true
    · left
      have hs : h.stream = [] := by simp [stream, hr, hok.reof he]
      refine ⟨hs, h, by simp [getc, hr, he], hs, hok.reof, rfl⟩
    rcases recv_spec hok hr UAOS_HTTP_SOCKBUF (by decide) with
      ⟨hs, hv⟩ | ⟨c, d, h', hv, -, hr', s, hs, ha⟩
    · left
      have hn : h.net = [] := by
        cases hn : h.net with
        | nil => rfl
        | cons seg net => simp [stream, hr, hn, segment] at hs
      refine ⟨hs, { h with reof := true }, ?_, hs, fun _ => hn, rfl⟩
      simp only [getc, hr, he, hv]
      split_ifs <;> simp_all
    · right
      refine ⟨c, d ++ s, { h' with rbuf := d }, by simpa using hs, ?_, ?_, ha.reof, ha.core⟩
      · simp only [getc, hr, he, hv]
        simp
      · have hn : h'.stream = h'.net.flatMap segment := by simp [stream, hr']
        have hn' : h'.net.flatMap segment = s := hn.symm.trans ha.stream
        simp [stream, hn']

end Http

/-! ## Lines -/

/-- The line at the start of the stream, and what follows it. -/
def scan (max : Nat) : List UInt8 → List UInt8 → Option (List UInt8) × List UInt8
  | [], line => (if line = [] then none else some line, [])
  | c :: s, line =>
    if c = CR then scan max s line
    else if c = LF then (some line, s)
    else scan max s (if line.length < max - 1 then line ++ [c] else line)

/-- The characters of a line that are kept. -/
def kept (max : Nat) (s : List UInt8) : List UInt8 := (s.filter (· ≠ CR)).take (max - 1)

lemma scan_kept {line : List UInt8} (hs : LF ∉ s) (t : List UInt8) (hl : line.length ≤ max - 1) :
    scan max (s ++ t) line = scan max t (line ++ (s.filter (· ≠ CR)).take (max - 1 - line.length))
      := by
  induction s generalizing line with
  | nil => simp
  | cons c s ih =>
    have hc : c ≠ LF := fun h => hs (by simp [h])
    have hs' : LF ∉ s := fun h => hs (by simp [h])
    simp only [cons_append, scan, hc, if_false]
    split_ifs with hcr hroom
    · rw [ih hs' hl]
      simp [hcr]
    · obtain ⟨k, hk⟩ : ∃ k, max - 1 - line.length = k + 1 := ⟨max - 1 - line.length - 1, by omega⟩
      have hk' : max - 1 - (line ++ [c]).length = k := by
        rw [length_append, length_singleton]
        omega
      rw [ih hs' (by rw [length_append, length_singleton]; omega), hk', hk,
        filter_cons_of_pos (by simpa using hcr), take_succ_cons, append_assoc]
      rfl
    · rw [ih hs' hl]
      simp [show max - 1 - line.length = 0 by omega]

/-- A line with its end. -/
lemma scan_line (hs : LF ∉ s) (t : List UInt8) :
    scan max (s ++ LF :: t) [] = (some (kept max s), t) := by
  rw [scan_kept hs _ (Nat.zero_le _)]
  simp [scan, kept, show LF ≠ CR by decide]

/-- A line that the stream ends in. -/
lemma scan_end (hs : LF ∉ s) :
    scan max s [] = (if kept max s = [] then none else some (kept max s), []) := by
  have hk : scan max (s ++ []) [] = scan max [] _ := scan_kept hs [] (Nat.zero_le _)
  rw [append_nil] at hk
  rw [hk]
  simp [scan, kept]

namespace Http

lemma readline_loop_spec (max fuel : Nat) (hok : h.Ok) (line : List UInt8)
    (hf : h.stream.length < fuel) :
    ∃ h', readline_loop max fuel h line = ((scan max h.stream line).1, h') ∧
      h.At (scan max h.stream line).2 h' := by
  induction fuel generalizing h line with
  | zero => omega
  | succ fuel ih =>
    rcases getc_spec hok with ⟨hs, h', hg, ha⟩ | ⟨c, s, h', hs, hg, ha⟩
    · refine ⟨h', ?_, ?_⟩
      · simp only [readline_loop, hg, hs, scan]
      · simpa only [hs, scan] using ha
    have hlen : h'.stream.length < fuel := by
      rw [ha.stream]
      rw [hs, length_cons] at hf
      omega
    have hok' : h'.Ok := ⟨rfl, ha.reof, rfl⟩
    simp only [readline_loop, hg, hs, scan]
    split_ifs
    · obtain ⟨h'', he, ha'⟩ := ih hok' line hlen
      rw [ha.stream] at he ha'
      exact ⟨h'', he, ha.trans ha'⟩
    · exact ⟨h', rfl, ha⟩
    · obtain ⟨h'', he, ha'⟩ := ih hok' (line ++ [c]) hlen
      rw [ha.stream] at he ha'
      exact ⟨h'', he, ha.trans ha'⟩
    · obtain ⟨h'', he, ha'⟩ := ih hok' line hlen
      rw [ha.stream] at he ha'
      exact ⟨h'', he, ha.trans ha'⟩

lemma At.ok {h' : Http} (a : h.At s h') : h'.Ok := ⟨rfl, a.reof, rfl⟩

/-- Reading a line depends on the stream alone. -/
lemma readline_spec (hok : h.Ok) (max : Nat) :
    ∃ h', h.readline max = ((scan max h.stream []).1, h') ∧ h.At (scan max h.stream []).2 h' :=
  readline_loop_spec max _ hok [] (Nat.lt_succ_self _)

/-- The line that is read when the stream ends, or begins with a line that is not blank. -/
lemma next_line_scan (fuel : Nat) (hok : h.Ok) (hs : scan 128 h.stream [] = (o, t))
    (ho : o ≠ some []) :
    ∃ h', next_line (fuel + 1) h = (o, h') ∧ h.At t h' := by
  obtain ⟨h', he, ha⟩ := readline_spec hok 128
  rw [hs] at he ha
  refine ⟨h', ?_, ha⟩
  cases o with
  | none => simp only [next_line, he]
  | some line =>
    cases line with
    | nil => exact absurd rfl ho
    | cons c line => simp only [next_line, he]

/-- The line after a blank one. -/
lemma next_line_blank (fuel : Nat) (hok : h.Ok) (hst : h.stream = CR :: LF :: s)
    (hs : scan 128 s [] = (o, t)) (ho : o ≠ some []) :
    ∃ h', next_line (fuel + 2) h = (o, h') ∧ h.At t h' := by
  obtain ⟨h1, he, ha⟩ := readline_spec hok 128
  have hb : scan 128 h.stream [] = (some [], s) := by
    rw [hst]
    exact scan_line (s := [CR]) (by decide) s
  rw [hb] at he ha
  have hs : scan 128 h1.stream [] = (o, t) := by
    rw [ha.stream]
    exact hs
  obtain ⟨h2, he2, ha2⟩ := next_line_scan fuel ha.ok hs ho
  refine ⟨h2, ?_, ha.trans ha2⟩
  rw [← he2]
  simp only [next_line, he]

lemma drain_spec (fuel : Nat) (hok : h.Ok) : ∃ s, h.At s (drain fuel h) := by
  induction fuel generalizing h with
  | zero => exact ⟨_, hok⟩
  | succ fuel ih =>
    obtain ⟨h', he, ha⟩ := readline_spec hok 128
    generalize ho : (scan 128 h.stream []).1 = r at he
    cases r with
    | none =>
      simp only [drain, he]
      exact ⟨_, ha⟩
    | some line =>
      cases line with
      | nil =>
        simp only [drain, he]
        exact ⟨_, ha⟩
      | cons c line =>
        obtain ⟨s, hd⟩ := ih ha.ok
        simp only [drain, he]
        exact ⟨s, ha.trans hd⟩

/-- Body bytes are the next bytes of the stream, from the buffer or from a receive. -/
lemma serve_spec (hok : h.Ok) {want : Nat} (hw : 0 < want) :
    (h.stream = [] ∧ h.serve want = if h.broken then .error else .closed) ∨
    ∃ d h' s, h.serve want = .bytes d h' ∧ d ≠ [] ∧ d.length ≤ want ∧ h.stream = d ++ s ∧
      h.At s h' := by
  by_cases hr : h.rbuf = []
  · rcases recv_spec hok hr want hw with ⟨hs, hv⟩ | ⟨c, d, h', hv, hl, -, s, hs, ha⟩
    · exact .inl ⟨hs, by simp only [serve, hr, if_true, hv]⟩
    · exact .inr ⟨c :: d, h', s, by simp only [serve, hr, if_true, hv], by simp, hl, hs, ha⟩
  right
  refine ⟨h.rbuf.take want, { h with rbuf := h.rbuf.drop want },
    h.rbuf.drop want ++ h.net.flatMap segment, by simp only [serve, hr, if_false], ?_, ?_, ?_,
    rfl, hok.reof, rfl⟩
  · intro h0
    rcases take_eq_nil_iff.mp h0 with h0 | h0
    · omega
    · exact hr h0
  · exact length_take_le _ _
  · simp [stream, ← append_assoc]

end Http

end uaos.http
