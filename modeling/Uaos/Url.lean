-- URLs and redirects of the HTTP client (uaos_http.h): how a URL is taken apart, how a path is
-- cleaned of dot segments and how a Location is resolved against the URL of the request. A C string
-- is the list of its bytes without the zero at the end.
import Uaos.Rfc3986

namespace uaos.url

open rfc3986 (DOT SLASH COLON QUESTION HASH)

def UAOS_HERR_URL : Int := -1
def UAOS_HERR_PROTO : Int := -2
def UAOS_HTTP_PATH_MAX : Nat := 512
def UAOS_HTTP_HOST_MAX : Nat := 128

/-- "http" and "https" -/
def HTTP : List UInt8 := [104, 116, 116, 112]
def HTTPS : List UInt8 := [104, 116, 116, 112, 115]

structure UaosUrl where
  scheme : List UInt8
  host : List UInt8
  port : Nat
  path : List UInt8
  userinfo : List UInt8
deriving DecidableEq

def tolower (c : UInt8) : UInt8 := if 65 ≤ c ∧ c ≤ 90 then c - 65 + 97 else c

def scheme_char (c : UInt8) : Bool :=
  let c := tolower c
  decide (97 ≤ c ∧ c ≤ 122) || decide (48 ≤ c ∧ c ≤ 57) || c == 43 || c == 45 || c == 46

/-- What stands before the first colon and behind it. A colon at the start does not count. -/
def split_colon (s : List UInt8) : Option (List UInt8 × List UInt8) :=
  match s.takeWhile (· ≠ COLON), s.dropWhile (· ≠ COLON) with
  | c :: name, _ :: rest => some (c :: name, rest)
  | _, _ => none

/-- What stands before the last `mark` and behind it. -/
def split_last (mark : UInt8) (s : List UInt8) : Option (List UInt8 × List UInt8) :=
  match s.reverse.dropWhile (· ≠ mark) with
  | [] => none
  | _ :: before => some (before.reverse, (s.reverse.takeWhile (· ≠ mark)).reverse)

/-! ## Taking a URL apart -/

/-- The scheme in lower case, and what stands behind its "://". -/
def parse_scheme (url : List UInt8) : Except Int (List UInt8 × List UInt8) :=
  match split_colon url with
  | none => .ok (HTTP, url)
  | some (name, rest) =>
    if 8 ≤ name.length then .error UAOS_HERR_URL
    else if name.all scheme_char = false then .error UAOS_HERR_URL
    else if [SLASH, SLASH] <+: rest then .ok (name.map tolower, rest.drop 2)
    else .error UAOS_HERR_URL

def port_digits : Nat → List UInt8 → Except Int Nat
  | port, [] => .ok port
  | port, c :: s =>
    if 48 ≤ c ∧ c ≤ 57 then
      let port := port * 10 + (c.toNat - 48)
      if 65535 < port then .error UAOS_HERR_URL else port_digits port s
    else .error UAOS_HERR_URL

def parse_userinfo (authority : List UInt8) : Except Int (List UInt8 × List UInt8) :=
  match split_last 64 authority with
  | none => .ok ([], authority)
  | some (info, rest) => if 96 ≤ info.length then .error UAOS_HERR_URL else .ok (info, rest)

/-- The host and its port. Port 0 stands for the default. -/
def parse_host (port : Nat) (s : List UInt8) : Except Int (List UInt8 × Nat) :=
  let (host, digits) := (split_last COLON s).elim (s, none) fun (h, d) => (h, some d)
  if host = [] ∨ UAOS_HTTP_HOST_MAX ≤ host.length then .error UAOS_HERR_URL
  else
    match digits with
    | none => .ok (host, port)
    | some digits => (port_digits 0 digits).map fun n => (host, if 0 < n then n else port)

/-- The path and query, as they are and as far as they fit. -/
def parse_path (s : List UInt8) : List UInt8 :=
  if s = [] then [SLASH]
  else ((if s.head? = some QUESTION then [SLASH] else []) ++ s).take (UAOS_HTTP_PATH_MAX - 1)

def ends_authority (c : UInt8) : Bool := c == SLASH || c == QUESTION

def uaos_http_parse_url (url : List UInt8) : Except Int UaosUrl := do
  let (scheme, p) ← parse_scheme url
  if scheme ≠ HTTP ∧ scheme ≠ HTTPS then .error UAOS_HERR_PROTO
  else
    let (userinfo, p') ← parse_userinfo (p.takeWhile (!ends_authority ·))
    let (host, port) ← parse_host (if scheme = HTTPS then 443 else 80) p'
    .ok ⟨scheme, host, port, parse_path (p.dropWhile (!ends_authority ·)), userinfo⟩

/-! ## Cleaning a path -/

/-- The last name of the output goes, and the slash in front of it if there is one. -/
def up (out : List UInt8) : List UInt8 := ((out.reverse.dropWhile (· ≠ SLASH)).drop 1).reverse

/-- A name is put behind a slash, but not the first one. -/
def put_name (out name : List UInt8) : List UInt8 :=
  let out := if out = [] then out else out ++ [SLASH]
  out ++ name.take (UAOS_HTTP_PATH_MAX - 1 - out.length)

def norm_loop : Nat → List UInt8 → List UInt8 → List UInt8
  | 0, _, out => out
  | fuel + 1, r, out =>
    if r = [] then out
    else
      let name := r.takeWhile (· ≠ SLASH)
      let r := (r.dropWhile (· ≠ SLASH)).drop 1
      if name = [] ∨ name = [DOT] then norm_loop fuel r out
      else if name = [DOT, DOT] then norm_loop fuel r (up out)
      else norm_loop fuel r (put_name out name)

def uaos_http_norm_path (path : List UInt8) : List UInt8 :=
  let out := norm_loop path.length path []
  if out = [] then [SLASH] else out

/-! ## Redirects -/

/-- What a Location is taken for. -/
inductive Kind where
  | absolute
  | network
  | rooted
  | query
  | relative
deriving DecidableEq

def kind (loc : List UInt8) : Kind :=
  if (split_colon loc).any (fun (name, rest) =>
    name.all scheme_char && decide ([SLASH, SLASH] <+: rest)) then .absolute
  else if [SLASH, SLASH] <+: loc then .network
  else if loc.head? = some SLASH then .rooted
  else if loc.head? = some QUESTION then .query
  else .relative

/-- The text up to the query. -/
def path_part (path : List UInt8) : List UInt8 := path.takeWhile (· ≠ QUESTION)

/-- The path up to its last slash. -/
def dir_part (path : List UInt8) : List UInt8 :=
  ((path_part path).reverse.dropWhile (· ≠ SLASH)).reverse

/-- A relative Location behind the directory of the request's path, as far as it fits. -/
def merged (path loc : List UInt8) : List UInt8 :=
  dir_part path ++ loc.take (UAOS_HTTP_PATH_MAX - 1 - (dir_part path).length)

/-- A Location that leaves no room for the zero at the end of the path, or of the text that is then
taken apart, has no result: what is read is not the string that was written. -/
def uaos_http_resolve_redirect (base : UaosUrl) (loc : List UInt8) :
    Option (Except Int UaosUrl) :=
  match kind loc with
  | .absolute => some (uaos_http_parse_url loc)
  | .network =>
    if (base.scheme ++ COLON :: loc).length < UAOS_HTTP_PATH_MAX + UAOS_HTTP_HOST_MAX + 16 then
      some (uaos_http_parse_url (base.scheme ++ COLON :: loc))
    else none
  | .rooted =>
    if loc.length < UAOS_HTTP_PATH_MAX then some (.ok { base with path := loc }) else none
  | .query =>
    some (.ok { base with path := (path_part base.path ++ loc).take (UAOS_HTTP_PATH_MAX - 1) })
  | .relative =>
    some (.ok { base with path := uaos_http_norm_path (merged base.path loc) })

end uaos.url
