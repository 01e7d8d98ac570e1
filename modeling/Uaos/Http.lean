-- The body reader of the HTTP client (uaos_http.h): one buffer that the header lines, the chunk
-- lines and the body share, and direct receives into the caller's buffer once it is empty.
import Uaos.Disk

namespace uaos.http

def UAOS_HERR_RECV : Int := -6
def UAOS_HERR_CLOSED : Int := -7
def UAOS_HERR_HDR : Int := -8
def UAOS_HTTP_SOCKBUF : Nat := 1460

def CR : UInt8 := 13
def LF : UInt8 := 10

/-- The connection of a response. `rbuf` has the bytes that were received and not used yet, and
`net` is what the next receives give, none of it empty. At the end a receive gives 0, or an error if
the connection is `broken`. -/
structure Http where
  sock : Int
  content_length : Int
  chunked : Bool
  rbuf : List UInt8
  reof : Bool
  body_left : Int
  chunk_left : Nat
  chunk_eof : Bool
  body_total : Nat
  net : List (UInt8 × List UInt8)
  broken : Bool

/-- The bytes of a receive. -/
def segment (s : UInt8 × List UInt8) : List UInt8 := s.1 :: s.2

/-- What a receive gives. -/
inductive Recv where
  | bytes (data : List UInt8) (h : Http)
  | closed
  | error

namespace Http

variable (h : Http)

/-- Every byte that is still to come. -/
def stream : List UInt8 := h.rbuf ++ h.net.flatMap segment

/-- The rest of a segment that was received in part. -/
def put_back (rest : List UInt8) (net : List (UInt8 × List UInt8)) : List (UInt8 × List UInt8) :=
  match rest with
  | [] => net
  | b :: bs => (b, bs) :: net

def recv (len : Nat) : Recv :=
  match h.net with
  | [] => if h.broken then .error else .closed
  | s :: net => .bytes ((segment s).take len) { h with net := put_back ((segment s).drop len) net }

def getc : Option UInt8 × Http :=
  match h.rbuf with
  | c :: rest => (some c, { h with rbuf := rest })
  | [] =>
    if h.reof then (none, h)
    else
      match h.recv UAOS_HTTP_SOCKBUF with
      | .bytes (c :: rest) h => (some c, { h with rbuf := rest })
      | _ => (none, { h with reof := true })

/-- The next line without its CR bytes, as far as it fits in `max` bytes. At the end of the stream
a part of a line counts as a line. -/
def readline_loop (max : Nat) : Nat → Http → List UInt8 → Option (List UInt8) × Http
  | 0, h, _ => (none, h)
  | fuel + 1, h, line =>
    match h.getc with
    | (none, h) => (if line = [] then none else some line, h)
    | (some c, h) =>
      if c = CR then readline_loop max fuel h line
      else if c = LF then (some line, h)
      else readline_loop max fuel h (if line.length < max - 1 then line ++ [c] else line)

/-- Every turn takes a byte, and the last one finds the end. -/
def readline (max : Nat) : Option (List UInt8) × Http :=
  readline_loop max (h.stream.length + 1) h []

/-- The next line that is not blank. -/
def next_line : Nat → Http → Option (List UInt8) × Http
  | 0, h => (none, h)
  | fuel + 1, h =>
    match h.readline 128 with
    | (none, h) => (none, h)
    | (some [], h) => next_line fuel h
    | (some line, h) => (some line, h)

/-- The trailer lines up to a blank one. -/
def drain : Nat → Http → Http
  | 0, h => h
  | fuel + 1, h =>
    match h.readline 128 with
    | (none, h) => h
    | (some [], h) => h
    | (some _, h) => drain fuel h

end Http

def hexval (c : UInt8) : Option Nat :=
  if 48 ≤ c ∧ c ≤ 57 then some (c.toNat - 48)
  else if 97 ≤ c ∧ c ≤ 102 then some (c.toNat - 97 + 10)
  else if 65 ≤ c ∧ c ≤ 70 then some (c.toNat - 65 + 10)
  else none

/-- The digits at the start of a line. There is no size without a digit. -/
def chunk_size : Option Nat → List UInt8 → Option Nat
  | sz, [] => sz
  | sz, c :: line =>
    match hexval c with
    | none => sz
    | some hv => chunk_size (some (sz.getD 0 * 16 + hv)) line

/-- What is due next: body bytes, the end of the body, or an error. -/
inductive Due where
  | bytes (want : Nat) (h : Http)
  | stop (h : Http)
  | fail (code : Int) (h : Http)

namespace Http

variable (h : Http)

/-- The next chunk. A size that does not fit in a `long` has no meaning. -/
def next_chunk (room : Nat) : Option Due :=
  match next_line (h.stream.length + 1) h with
  | (none, h) => some (.fail UAOS_HERR_CLOSED h)
  | (some line, h) =>
    match chunk_size none line with
    | none => some (.fail UAOS_HERR_HDR h)
    | some sz =>
      if 2 ^ 63 ≤ sz then none
      else if sz = 0 then some (.stop { drain (h.stream.length + 1) h with chunk_eof := true })
      else some (.bytes (min sz room) { h with chunk_left := sz })

/-- How many bytes of the body can be produced now, with `room` for them. -/
def due (room : Nat) : Option Due :=
  if h.chunked then
    if h.chunk_eof then some (.stop h)
    else if h.chunk_left = 0 then h.next_chunk room
    else some (.bytes (min h.chunk_left room) h)
  else if h.body_left = 0 then some (.stop h)
  else if 0 < h.body_left ∧ h.body_left < room then some (.bytes h.body_left.toNat h)
  else some (.bytes room h)

/-- Body bytes, from the buffer as long as there are some. -/
def serve (want : Nat) : Recv :=
  if h.rbuf = [] then h.recv want else .bytes (h.rbuf.take want) { h with rbuf := h.rbuf.drop want }

/-- The account of the body after `n` more bytes. -/
def account (n : Nat) : Http :=
  if h.chunked then { h with body_total := h.body_total + n, chunk_left := h.chunk_left - n }
  else
    { h with body_total := h.body_total + n,
             body_left := if 0 < h.body_left then h.body_left - n else h.body_left }

/-- What a call returns: the bytes it got, or else the code. -/
def result (got : List UInt8) (code : Int) : Int × List UInt8 × Http :=
  (if got = [] then code else got.length, got, h)

def read_loop (max : Nat) : Nat → Http → List UInt8 → Option (Int × List UInt8 × Http)
  | 0, h, got => some (h.result got 0)
  | fuel + 1, h, got =>
    if max ≤ got.length then some (h.result got 0)
    else
      match h.due (max - got.length) with
      | none => none
      | some (.stop h) => some (h.result got 0)
      | some (.fail code h) => some (h.result got code)
      | some (.bytes want h) =>
        match h.serve want with
        | .error => some (h.result got UAOS_HERR_RECV)
        | .closed => some (h.result got 0)
        | .bytes data h => read_loop max fuel (h.account data.length) (got ++ data)

/-- Every turn of the loop gets at least one byte. -/
def uaos_http_read (max : Int) : Option (Int × List UInt8 × Http) :=
  if h.sock < 0 ∨ max ≤ 0 then some (UAOS_HERR_CLOSED, [], h)
  else if h.content_length = 0 ∧ h.chunked = false then some (0, [], h)
  else read_loop max.toNat max.toNat h []

/-- Calls with one buffer size after the other. -/
def reads : Http → List Int → Option (List (Int × List UInt8) × Http)
  | h, [] => some ([], h)
  | h, max :: sizes =>
    match h.uaos_http_read max with
    | none => none
    | some (code, block, h) => (reads h sizes).map fun r => ((code, block) :: r.1, r.2)

end Http

end uaos.http
