-- The law of redirects: the path of a resolved Location is the one of RFC 3986. It holds where the
-- client keeps the text of a Location as it is and there is nothing to clean, and else only for the
-- root, because a path that is cleaned loses its first slash.
import Uaos.Url
import Uaos.Word

namespace uaos.url

open List

open rfc3986

variable {st : List (List UInt8)} {name o rest s t url : List UInt8} {c : UInt8} {u : UaosUrl}

/-! ## URLs of requests -/

/-- What every URL that was taken apart has. -/
structure UaosUrl.Ok (u : UaosUrl) : Prop where
  scheme : u.scheme = HTTP ∨ u.scheme = HTTPS
  root : u.path.head? = some SLASH
  fits : u.path.length < UAOS_HTTP_PATH_MAX

/-- A URL that parses, part by part. -/
lemma parse_url_ok (h : uaos_http_parse_url url = .ok u) :
    ∃ p, parse_scheme url = .ok (u.scheme, p) ∧ (u.scheme = HTTP ∨ u.scheme = HTTPS) ∧
      u.path = parse_path (p.dropWhile (!ends_authority ·)) := by
  unfold uaos_http_parse_url at h
  cases hs : parse_scheme url with
  | error e => simp [hs, bind, Except.bind] at h
  | ok sp =>
    obtain ⟨scheme, p⟩ := sp
    simp only [hs, bind, Except.bind] at h
    by_cases hsc : scheme ≠ HTTP ∧ scheme ≠ HTTPS
    · rw [if_pos hsc] at h
      cases h
    rw [if_neg hsc] at h
    cases hu : parse_userinfo (p.takeWhile (!ends_authority ·)) with
    | error e => simp [hu] at h
    | ok ui =>
      simp only [hu] at h
      cases hh : parse_host (if scheme = HTTPS then 443 else 80) ui.2 with
      | error e => simp [hh] at h
      | ok hp =>
        simp only [hh, Except.ok.injEq] at h
        subst h
        exact ⟨p, rfl, by tauto, rfl⟩

lemma parse_path_root (s : List UInt8) :
    (parse_path (s.dropWhile (!ends_authority ·))).head? = some SLASH := by
  cases hd : s.dropWhile (!ends_authority ·) with
  | nil => rfl
  | cons c t =>
    have hc := dropWhile_head hd
    simp only [Bool.not_eq_eq_eq_not, Bool.not_false, ends_authority, Bool.or_eq_true,
      beq_iff_eq] at hc
    rcases hc with rfl | rfl
    · rfl
    · rfl

lemma parse_path_fits (s : List UInt8) : (parse_path s).length < UAOS_HTTP_PATH_MAX := by
  unfold parse_path
  split_ifs
  · decide
  · refine lt_of_le_of_lt (length_take_le _ _) (by decide)
  · refine lt_of_le_of_lt (length_take_le _ _) (by decide)

/-- The URL of every request is rooted, as its record says. -/
lemma ok_of_parse (h : uaos_http_parse_url url = .ok u) : u.Ok := by
  obtain ⟨p, -, hs, hp⟩ := parse_url_ok h
  exact ⟨hs, hp ▸ parse_path_root p, hp ▸ parse_path_fits _⟩

/-! ## Locations -/

/-- What stands behind the "//" of a Location that has one. -/
def behind_slashes (loc : List UInt8) : List UInt8 :=
  match kind loc with
  | .absolute => (loc.dropWhile (· ≠ COLON)).drop 3
  | _ => loc.drop 2

/-- The path, query and fragment that a Location states, or that it makes of the request's. -/
def text (base : UaosUrl) (loc : List UInt8) : List UInt8 :=
  match kind loc with
  | .absolute | .network =>
    (behind_slashes loc).dropWhile (fun c => c ≠ SLASH ∧ c ≠ QUESTION ∧ c ≠ HASH)
  | .query => path_part base.path ++ loc
  | _ => loc

/-- The part of it that the client keeps. A fragment right behind the host counts as a part of the
host. -/
def kept (base : UaosUrl) (loc : List UInt8) : List UInt8 :=
  match kind loc with
  | .absolute | .network => parse_path ((behind_slashes loc).dropWhile (!ends_authority ·))
  | .query => (path_part base.path ++ loc).take (UAOS_HTTP_PATH_MAX - 1)
  | _ => loc

/-- There is room for the zero at the end. -/
def roomy (base : UaosUrl) (loc : List UInt8) : Bool :=
  match kind loc with
  | .network => decide (base.scheme.length + 1 + loc.length < 656)
  | .rooted => decide (loc.length < UAOS_HTTP_PATH_MAX)
  | _ => true

/-- The path is the one of RFC 3986, rooted and without dot segments. -/
structure AsInRfc (base : UaosUrl) (loc : List UInt8) (out : UaosUrl) : Prop where
  root : out.path.head? = some SLASH
  plain : ∀ s ∈ segments (path_part out.path), Plain s
  same : out.path = resolve base.path loc

section

variable {base out : UaosUrl} {loc : List UInt8}

/-- A path that is kept as it is. -/
lemma as_in_rfc_iff (ht : Behind t) (hr : resolve base.path loc = target t) :
    AsInRfc base loc out ↔ Clean out.path ∧ target out.path = target t := by
  constructor
  · intro h
    have hc : Clean out.path := by
      rw [h.same, hr]
      exact clean_target ht
    exact ⟨hc, by rw [hc.target_eq, h.same, hr]⟩
  · rintro ⟨hc, he⟩
    exact ⟨hc.root, hc.plain, by rw [hr, ← he, hc.target_eq]⟩

lemma split_colon_some (h : split_colon s = some (name, rest)) :
    s = name ++ COLON :: rest ∧ COLON ∉ name ∧ name ≠ [] := by
  unfold split_colon at h
  have happ : s.takeWhile (· ≠ COLON) ++ s.dropWhile (· ≠ COLON) = s := takeWhile_append_dropWhile
  have hnot := not_mem_takeWhile COLON s
  cases ht : s.takeWhile (· ≠ COLON) with
  | nil =>
    simp only [ht] at h
    cases h
  | cons c n =>
    cases hd : s.dropWhile (· ≠ COLON) with
    | nil =>
      simp only [ht, hd] at h
      cases h
    | cons d r =>
      simp only [ht, hd, Option.some.injEq, Prod.mk.injEq] at h
      obtain ⟨rfl, rfl⟩ := h
      have hd' : d = COLON := by simpa using dropWhile_head hd
      rw [ht, hd, hd'] at happ
      rw [ht] at hnot
      exact ⟨happ.symm, hnot, by simp⟩

abbrev before_path (c : UInt8) : Bool := c ≠ SLASH ∧ c ≠ QUESTION ∧ c ≠ HASH

lemma text_behind (s : List UInt8) : Behind (s.dropWhile before_path) := by
  cases hd : s.dropWhile before_path with
  | nil => exact .inl rfl
  | cons c t =>
    have hc := dropWhile_head hd
    simp only [decide_eq_false_iff_not] at hc
    right
    simp only [head?_cons, Option.some.injEq]
    tauto

lemma text_authority (s : List UInt8) : Authority (s.takeWhile before_path) := by
  have hall : ∀ c ∈ s.takeWhile before_path, c ≠ SLASH ∧ c ≠ QUESTION ∧ c ≠ HASH :=
    fun c hc => by simpa using mem_takeWhile_imp hc
  exact ⟨fun h => (hall _ h).1 rfl, fun h => (hall _ h).2.1 rfl, fun h => (hall _ h).2.2 rfl⟩

/-- A reference with "//" resolves to the text behind its authority. -/
lemma resolve_slashes (pre s : List UInt8) {scheme : Option (List UInt8)}
    (hh : HASH ∉ pre) (hq : QUESTION ∉ pre)
    (hs : ∀ s, cut_scheme (pre ++ SLASH :: SLASH :: s) = (scheme, SLASH :: SLASH :: s))
    (b : List UInt8) : resolve b (pre ++ SLASH :: SLASH :: s) =
      target (s.dropWhile before_path) := by
  have happ : s.takeWhile before_path ++ s.dropWhile before_path = s := takeWhile_append_dropWhile
  have := resolve_authority hh hq hs (text_authority s) (text_behind s) b
  rwa [happ] at this

lemma two_slashes (h : [SLASH, SLASH] <+: s) : s = SLASH :: SLASH :: s.drop 2 := by
  obtain ⟨t, rfl⟩ := h
  rfl

lemma cut_scheme_slashes (s : List UInt8) :
    cut_scheme ([] ++ SLASH :: SLASH :: s) = (none, SLASH :: SLASH :: s) := by
  refine cut_scheme_none ?_
  intro c hc
  have : c = SLASH := by simpa using hc.symm
  rw [this]
  decide

lemma is_scheme_char_of : scheme_char c = true → is_scheme_char c = true := by
  revert c
  apply forall_byte
  decide +kernel

lemma is_alpha_of_lower : tolower c = 104 → is_alpha c = true := by
  revert c
  apply forall_byte
  decide +kernel

/-- A name that is "http" or "https" in lower case is a scheme. -/
lemma is_scheme_of_lower (hall : name.all scheme_char = true)
    (hn : name.map tolower = HTTP ∨ name.map tolower = HTTPS) : is_scheme name = true := by
  cases name with
  | nil => rcases hn with h | h <;> cases h
  | cons c name =>
    rw [all_cons, Bool.and_eq_true] at hall
    have hc : tolower c = 104 := by
      rcases hn with h | h
      · exact (List.cons.inj h).1
      · exact (List.cons.inj h).1
    rw [is_scheme, is_alpha_of_lower hc, Bool.true_and, List.all_eq_true]
    exact fun x hx => is_scheme_char_of (List.all_eq_true.mp hall.2 x hx)

/-- A scheme and what stands behind its "://". -/
lemma parse_scheme_some {p scheme : List UInt8}
    (hc : split_colon url = some (name, rest)) (h : parse_scheme url = .ok (scheme, p)) :
    name.all scheme_char = true ∧ scheme = name.map tolower ∧ rest = SLASH :: SLASH :: p := by
  unfold parse_scheme at h
  simp only [hc] at h
  split_ifs at h with h1 h2 h3
  simp only [Except.ok.injEq, Prod.mk.injEq] at h
  refine ⟨by simpa using h2, h.1.symm, ?_⟩
  rw [← h.2]
  exact two_slashes h3

/-! ### Absolute URLs -/

lemma absolute_split (hk : kind loc = .absolute) : ∃ name rest,
    split_colon loc = some (name, rest) := by
  unfold kind at hk
  cases hs : split_colon loc with
  | none =>
    simp only [hs, Option.any_none, Bool.false_eq_true, if_false] at hk
    split_ifs at hk
  | some x => exact ⟨x.1, x.2, rfl⟩

lemma not_mem_scheme (h : ∀ x ∈ name, scheme_char x = true)
    (hc : scheme_char c = false) (hcol : c ≠ COLON) : c ∉ name ++ [COLON] := by
  rw [mem_append, mem_singleton]
  rintro (hm | hm)
  · have := h c hm
    rw [hc] at this
    cases this
  · exact hcol hm

lemma absolute_iff (hk : kind loc = .absolute) (hp : uaos_http_parse_url loc = .ok out) :
    AsInRfc base loc out ↔
      Clean (kept base loc) ∧ target (kept base loc) = target (text base loc) := by
  obtain ⟨p, hs, hsc, hpath⟩ := parse_url_ok hp
  obtain ⟨name, rest, hcol⟩ := absolute_split hk
  obtain ⟨hall, hlow, hrest⟩ := parse_scheme_some hcol hs
  obtain ⟨hloc, hnc, -⟩ := split_colon_some hcol
  rw [hlow] at hsc
  have hname := is_scheme_of_lower hall hsc
  have hmem : ∀ c ∈ name, scheme_char c = true := List.all_eq_true.mp hall
  have hbehind : behind_slashes loc = p := by
    unfold behind_slashes
    simp only [hk]
    rw [hloc, dropWhile_append_not_mem hnc, hrest]
    simp
  have hres : resolve base.path loc = target (text base loc) := by
    have hpre : loc = (name ++ [COLON]) ++ SLASH :: SLASH :: p := by
      rw [hloc, hrest]
      simp
    have hcut : ∀ s, cut_scheme (name ++ [COLON] ++ SLASH :: SLASH :: s) =
        (some name, SLASH :: SLASH :: s) := by
      intro s
      have := cut_scheme_name hname hnc (SLASH :: SLASH :: s)
      simpa using this
    have hsl := resolve_slashes (name ++ [COLON]) p (not_mem_scheme hmem (by decide) (by decide))
      (not_mem_scheme hmem (by decide) (by decide)) hcut base.path
    rw [← hpre] at hsl
    rw [hsl]
    unfold text
    simp only [hk, hbehind]
  have hkept : kept base loc = out.path := by
    unfold kept
    simp only [hk, hbehind, hpath]
  have hb : Behind (text base loc) := by
    unfold text
    simp only [hk]
    exact text_behind _
  rw [hkept]
  exact as_in_rfc_iff hb hres

/-! ### The other texts that are kept -/

lemma kind_rooted (hk : kind loc = .rooted) :
    loc.head? = some SLASH ∧ ¬[SLASH, SLASH] <+: loc := by
  unfold kind at hk
  split_ifs at hk with h1 h2 h3
  exact ⟨h3, h2⟩

lemma kind_query (hk : kind loc = .query) : ∃ q, loc = QUESTION :: q := by
  unfold kind at hk
  split_ifs at hk with h1 h2 h3 h4
  cases loc with
  | nil => cases h4
  | cons c q => exact ⟨q, by rw [Option.some.inj h4]⟩

lemma split_colon_scheme (hn : name = HTTP ∨ name = HTTPS) :
    split_colon (name ++ COLON :: s) = some (name, s) := by
  rcases hn with rfl | rfl
  · simp [split_colon, HTTP, COLON]
  · simp [split_colon, HTTPS, COLON]

lemma network_iff (hb : base.Ok) (hk : kind loc = .network)
    (hp : uaos_http_parse_url (base.scheme ++ COLON :: loc) = .ok out) : AsInRfc base loc out ↔
      Clean (kept base loc) ∧ target (kept base loc) = target (text base loc) := by
  obtain ⟨p, hs, -, hpath⟩ := parse_url_ok hp
  obtain ⟨-, -, hloc⟩ := parse_scheme_some (split_colon_scheme hb.scheme) hs
  have hbehind : behind_slashes loc = p := by
    unfold behind_slashes
    simp only [hk]
    rw [hloc]
    rfl
  have hres : resolve base.path loc = target (text base loc) := by
    have hsl := resolve_slashes [] p (by simp) (by simp) cut_scheme_slashes base.path
    rw [nil_append, ← hloc] at hsl
    rw [hsl]
    unfold text
    simp only [hk, hbehind]
  have hkept : kept base loc = out.path := by
    unfold kept
    simp only [hk, hbehind, hpath]
  have ht : Behind (text base loc) := by
    unfold text
    simp only [hk]
    exact text_behind _
  rw [hkept]
  exact as_in_rfc_iff ht hres

lemma takeWhile_takeWhile_of {p q : UInt8 → Bool}
    (h : ∀ c ∈ s.takeWhile q, p c = true) : (s.takeWhile p).takeWhile q = s.takeWhile q := by
  induction s with
  | nil => rfl
  | cons c s ih =>
    by_cases hq : q c = true
    · have hp : p c = true := h c (by simp [hq])
      simp only [takeWhile_cons, hp, hq, if_true]
      rw [ih (fun x hx => h x (by simp [hq, hx]))]
    · by_cases hp : p c = true
      · simp [hq, hp]
      · simp [hq, hp]

/-- The path of the request as RFC 3986 reads it. -/
lemma front_base (h : HASH ∉ path_part base.path) : front base.path = path_part base.path := by
  exact takeWhile_takeWhile_of (ne_of_not_mem h)

lemma path_part_head (hb : base.Ok) : (path_part base.path).head? = some SLASH :=
  head_takeWhile hb.root (by decide)

lemma path_part_fits (hb : base.Ok) : (path_part base.path).length ≤ UAOS_HTTP_PATH_MAX - 1 := by
  have h1 : (path_part base.path).length ≤ base.path.length :=
    List.IsPrefix.length_le <| List.takeWhile_prefix _
  have h2 := hb.fits
  omega

lemma query_iff (hb : base.Ok) (hk : kind loc = .query)
    (hp : out.path = (path_part base.path ++ loc).take (UAOS_HTTP_PATH_MAX - 1)) :
    AsInRfc base loc out ↔
      Clean (kept base loc) ∧ target (kept base loc) = target (text base loc) := by
  obtain ⟨q, hq⟩ := kind_query hk
  have hkept : kept base loc = out.path := by
    unfold kept
    simp only [hk, hp]
  have htext : text base loc = path_part base.path ++ loc := by
    unfold text
    simp only [hk]
  -- the query does not reach into the path that is kept
  have hout : out.path = path_part base.path ++
      loc.take (UAOS_HTTP_PATH_MAX - 1 - (path_part base.path).length) := by
    rw [hp, take_append, take_of_length_le (path_part_fits hb)]
  have hno : QUESTION ∉ path_part base.path := not_mem_takeWhile _ _
  have hpart : path_part out.path = path_part base.path := by
    rw [hout, path_part, takeWhile_append_not_mem hno, hq]
    cases UAOS_HTTP_PATH_MAX - 1 - (path_part base.path).length <;> simp
  have hres : HASH ∉ out.path → (∀ s ∈ segments (path_part out.path), Plain s) →
      resolve base.path loc = target (text base loc) := by
    intro hh hpl
    rw [hpart] at hpl
    have hbh : HASH ∉ path_part base.path := fun h => hh (by rw [hout]; simp [h])
    have hcut : (cut HASH (path_part base.path ++ QUESTION :: q)).1 =
        path_part base.path ++ QUESTION :: q.takeWhile (· ≠ HASH) := by
      rw [cut_append hbh]
      simp [cut, show QUESTION ≠ HASH by decide]
    have hroot := path_part_head hb
    rw [htext, hq, resolve_query, front_base hbh, target, front, hcut, cut_append hno, cut_mark,
      append_nil, remove_dot_segments_plain hroot hpl, rooted_of_head hroot]
  have hb' : Behind (text base loc) := by
    right
    left
    rw [htext]
    have hroot := path_part_head hb
    cases hpp : path_part base.path with
    | nil => rw [hpp] at hroot; cases hroot
    | cons c t => rw [hpp] at hroot; exact hroot
  rw [hkept]
  constructor
  · intro h
    have hh : HASH ∉ out.path := by
      rw [h.same, hq, resolve_query]
      unfold compose
      rw [mem_append]
      rintro (hm | hm)
      · exact not_mem_takeWhile HASH _ (List.takeWhile_subset _ hm)
      · rcases mem_cons.mp hm with hm | hm
        · exact absurd hm (by decide)
        · exact not_mem_takeWhile HASH _ hm
    exact (as_in_rfc_iff hb' (hres hh h.plain)).mp h
  · rintro ⟨hc, he⟩
    exact (as_in_rfc_iff hb' (hres hc.no_hash hc.plain)).mpr ⟨hc, he⟩

/-! ### Relative Locations -/

/-- A name on the way down, or up again. -/
def depth (n : Nat) (name : List UInt8) : Nat :=
  if name = [] ∨ name = [DOT] then n else if name = [DOT, DOT] then n - 1 else n + 1

/-- How deep a path ends. -/
def levels (path : List UInt8) : Nat := (path.splitOn SLASH).foldl depth 0

/-- The next name and the rest, as the loop takes them off. -/
lemma levels_step (r : List UInt8) (n : Nat) : (r.splitOn SLASH).foldl depth n =
      (((r.dropWhile (· ≠ SLASH)).drop 1).splitOn SLASH).foldl depth
        (depth n (r.takeWhile (· ≠ SLASH))) := by
  by_cases hm : SLASH ∈ r
  · obtain ⟨a, b, rfl, ha⟩ := eq_append_cons_of_mem hm
    rw [splitOn_append_cons_self_of_not_mem ha, takeWhile_append_not_mem ha,
      dropWhile_append_not_mem ha]
    simp
  · have hd : r.dropWhile (· ≠ SLASH) = [] := by
      have := dropWhile_append_not_mem hm []
      simpa using this
    rw [splitOn_eq_singleton hm, takeWhile_of_not_mem hm, hd]
    simp [depth]

/-- The output holds these names. -/
structure Names (out : List UInt8) (st : List (List UInt8)) : Prop where
  text : out = (join st).drop 1
  names : ∀ s ∈ st, s ≠ [] ∧ SLASH ∉ s

lemma Names.eq_nil (h : Names o st) : o = [] ↔ st = [] := by
  cases st with
  | nil => simp [h.text]
  | cons s st =>
    have := (h.names s (by simp)).1
    rw [h.text]
    simp [this]

lemma Names.up (h : Names o st) : Names (up o) st.dropLast := by
  have hn : ∀ s ∈ st.dropLast, s ≠ [] ∧ SLASH ∉ s := fun s hs => h.names s (dropLast_subset _ hs)
  refine ⟨?_, hn⟩
  have hu : ∀ o, url.up o = drop_segment o := fun _ => rfl
  rcases eq_nil_or_concat st with rfl | ⟨st', s, rfl⟩
  · rw [h.text]
    rfl
  rw [concat_eq_append] at h ⊢
  have hs := (h.names s (by simp)).2
  rw [h.text, dropLast_concat, hu, join_append, join_cons, join_nil, append_nil]
  cases st' with
  | nil =>
    have hd : s.reverse.dropWhile (· ≠ SLASH) = [] := by
      have := dropWhile_append_not_mem (fun hm => hs (mem_reverse.mp hm)) []
      simpa using this
    simp only [join_nil, nil_append, drop_succ_cons, drop_zero, drop_segment, hd]
    rfl
  | cons t st' =>
    exact drop_segment_append _ hs

lemma Names.put (h : Names o st) (hne : name ≠ []) (hs : SLASH ∉ name)
    (hroom : (if o = [] then 0 else o.length + 1) + name.length ≤ UAOS_HTTP_PATH_MAX - 1) :
    Names (put_name o name) (st ++ [name]) := by
  refine ⟨?_, ?_⟩
  · unfold put_name
    by_cases h0 : o = []
    · have hst := h.eq_nil.mp h0
      simp only [h0, if_true] at hroom ⊢
      rw [take_of_length_le (by simp; omega), hst]
      simp
    · simp only [h0, if_false] at hroom ⊢
      rw [take_of_length_le (by rw [length_append, length_singleton]; omega),
        h.text]
      cases st with
      | nil => exact absurd (h.eq_nil.mpr rfl) h0
      | cons s st => simp
  · intro s hm
    rcases mem_append.mp hm with hm | hm
    · exact h.names s hm
    · rw [mem_singleton.mp hm]
      exact ⟨hne, hs⟩

lemma length_put_name_le (o name : List UInt8) :
    (put_name o name).length ≤ (if o = [] then 0 else o.length + 1) + name.length := by
  unfold put_name
  by_cases h0 : o = []
  · simp only [h0, if_true, nil_append, length_take]
    omega
  · simp only [h0, if_false, length_append, length_singleton, length_take]
    omega

lemma length_up_le (o : List UInt8) : (up o).length ≤ o.length := by
  unfold up
  rw [length_reverse, length_drop]
  have := (dropWhile_suffix (l := o.reverse) (fun x => decide (x ≠ SLASH))).length_le
  rw [length_reverse] at this
  omega

/-- There is room for what the loop can still put out. -/
def Room (o r : List UInt8) : Prop :=
  r = [] ∨ (if o = [] then 0 else o.length + 1) + r.length ≤ UAOS_HTTP_PATH_MAX - 1

lemma next_name (r : List UInt8) :
    (r.dropWhile (· ≠ SLASH)).drop 1 = [] ∧ (r.takeWhile (· ≠ SLASH)).length ≤ r.length ∨
    r.length = (r.takeWhile (· ≠ SLASH)).length + 1 +
      ((r.dropWhile (· ≠ SLASH)).drop 1).length := by
  have hl : (r.takeWhile (· ≠ SLASH)).length + (r.dropWhile (· ≠ SLASH)).length = r.length := by
    rw [← length_append, takeWhile_append_dropWhile]
  cases hd : r.dropWhile (· ≠ SLASH) with
  | nil => exact .inl ⟨rfl, by omega⟩
  | cons c t =>
    rw [hd, length_cons] at hl
    right
    simp only [drop_succ_cons, drop_zero]
    omega

lemma norm_loop_spec {fuel : Nat} {r : List UInt8}
    (hf : r.length ≤ fuel) (h : Names o st) (hroom : Room o r) :
    ∃ st', Names (norm_loop fuel r o) st' ∧
      st'.length = (r.splitOn SLASH).foldl depth st.length := by
  induction fuel generalizing r o st with
  | zero =>
    have hr : r = [] := length_eq_zero_iff.mp (by omega)
    subst hr
    exact ⟨st, h, by simp [depth]⟩
  | succ fuel ih =>
    by_cases hr : r = []
    · subst hr
      exact ⟨st, by simpa [norm_loop] using h, by simp [depth]⟩
    have hnext := next_name r
    have hs : SLASH ∉ r.takeWhile (· ≠ SLASH) := not_mem_takeWhile _ _
    have hroom' := hroom.resolve_left hr
    rw [levels_step]
    simp only [norm_loop, if_neg hr]
    generalize r.takeWhile (· ≠ SLASH) = name at *
    generalize (r.dropWhile (· ≠ SLASH)).drop 1 = r' at *
    have hf' : r'.length ≤ fuel := by
      rcases hnext with ⟨rfl, -⟩ | hl
      · exact Nat.zero_le _
      · omega
    by_cases h1 : name = [] ∨ name = [DOT]
    · rw [if_pos h1, depth, if_pos h1]
      refine ih hf' h ?_
      rcases hnext with ⟨rfl, -⟩ | hl
      · exact .inl rfl
      · exact .inr (by omega)
    rw [if_neg h1, depth, if_neg h1]
    by_cases h2 : name = [DOT, DOT]
    · rw [if_pos h2, if_pos h2, ← length_dropLast]
      refine ih hf' h.up ?_
      rcases hnext with ⟨rfl, -⟩ | hl
      · exact .inl rfl
      right
      have := length_up_le o
      by_cases h0 : o = []
      · rw [h0] at hroom' ⊢
        simp only [show up [] = [] from rfl, if_true]
        omega
      · rw [if_neg h0] at hroom'
        split_ifs
        · omega
        · omega
    · rw [if_neg h2, if_neg h2]
      have hput : Names (put_name o name) (st ++ [name]) := by
        refine h.put (fun h0 => h1 (.inl h0)) hs ?_
        rcases hnext with ⟨-, hl⟩ | hl <;> omega
      have hl' : st.length + 1 = (st ++ [name]).length := by simp
      rw [hl']
      refine ih hf' hput ?_
      rcases hnext with ⟨rfl, -⟩ | hl
      · exact .inl rfl
      right
      have := length_put_name_le o name
      split_ifs
      · omega
      · omega

/-- A path that was cleaned begins with a slash only if nothing is left of it. -/
lemma norm_path_root {path : List UInt8} (hl : path.length < UAOS_HTTP_PATH_MAX) :
    (levels path = 0 ∧ uaos_http_norm_path path = [SLASH]) ∨
    (levels path ≠ 0 ∧ (uaos_http_norm_path path).head? ≠ some SLASH) := by
  have hroom : Room [] path := .inr (by simp only [if_true]; omega)
  have hnone : Names [] [] := ⟨rfl, by simp⟩
  obtain ⟨st, hn, hlev⟩ := norm_loop_spec (le_refl path.length) hnone hroom
  cases st with
  | nil =>
    left
    refine ⟨hlev.symm, ?_⟩
    simp only [uaos_http_norm_path, hn.eq_nil.mpr rfl, if_true]
  | cons s st =>
    right
    refine ⟨fun h0 => by rw [levels] at h0; simp [h0] at hlev, ?_⟩
    have hne : norm_loop path.length path [] ≠ [] := fun h0 => by simpa using hn.eq_nil.mp h0
    obtain ⟨hs0, hs1⟩ := hn.names s (by simp)
    have hout : uaos_http_norm_path path = norm_loop path.length path [] := if_neg hne
    rw [hout, hn.text]
    obtain ⟨c, t, rfl⟩ := exists_cons_of_ne_nil hs0
    simp only [join_cons, drop_succ_cons, drop_zero, cons_append, head?_cons,
      ne_eq, Option.some.injEq]
    rintro rfl
    simp at hs1

lemma dir_part_starts (path : List UInt8) : dir_part path <+: path_part path := by
  have := (dropWhile_suffix (l := (path_part path).reverse) (fun x => decide (x ≠ SLASH))).reverse
  rwa [reverse_reverse] at this

lemma dir_part_length (hb : base.Ok) : (dir_part base.path).length < UAOS_HTTP_PATH_MAX := by
  have h1 := (dir_part_starts base.path).length_le
  have h2 := path_part_fits hb
  have h3 : 0 < UAOS_HTTP_PATH_MAX := by decide
  omega

lemma merged_length (hb : base.Ok) (loc : List UInt8) :
    (merged base.path loc).length < UAOS_HTTP_PATH_MAX := by
  have := dir_part_length hb
  rw [merged, length_append, length_take]
  omega

/-! ## The law -/

/-- The text fits in the path with a slash in front of it, and has no fragment. Then nothing of it
is cut off. -/
def Whole (base : UaosUrl) (loc : List UInt8) : Prop :=
  HASH ∉ text base loc ∧ (text base loc).length + 1 < UAOS_HTTP_PATH_MAX

instance : Decidable (Whole base loc) := inferInstanceAs (Decidable (_ ∧ _))

/-- When a Location resolves as in RFC 3986. What is cut off of a text that is not whole must be
what RFC 3986 drops too. -/
def Good (base : UaosUrl) (loc : List UInt8) : Prop :=
  match kind loc with
  | .relative => resolve base.path loc = [SLASH] ∧ levels (merged base.path loc) = 0
  | _ => roomy base loc = true ∧ Clean (kept base loc) ∧
      (Whole base loc ∨ target (kept base loc) = target (text base loc))

instance : Decidable (Good base loc) := by
  unfold Good
  split <;> infer_instance

/-- Without a fragment the host ends at the same place for the client. -/
lemma dropWhile_authority (h : HASH ∉ s.dropWhile (fun c => c ≠ SLASH ∧ c ≠ QUESTION ∧ c ≠ HASH)) :
    s.dropWhile (!ends_authority ·) =
      s.dropWhile (fun c => c ≠ SLASH ∧ c ≠ QUESTION ∧ c ≠ HASH) := by
  induction s with
  | nil => rfl
  | cons c s ih =>
    rw [dropWhile_cons] at h
    rw [dropWhile_cons, dropWhile_cons]
    by_cases hend : ends_authority c = true
    · have hc : ¬(c ≠ SLASH ∧ c ≠ QUESTION ∧ c ≠ HASH) := by
        simp only [ends_authority, Bool.or_eq_true, beq_iff_eq] at hend
        tauto
      simp [hend, hc]
    · simp only [ends_authority, Bool.or_eq_true, beq_iff_eq, not_or] at hend
      by_cases hhash : c = HASH
      · rw [if_neg (by simp [hhash])] at h
        exact absurd mem_cons_self (hhash ▸ h)
      · rw [if_pos (by simp [hend, hhash])] at h
        simp only [ends_authority, hend, hhash, Bool.or_false, not_false_eq_true,
          ne_eq, and_self, decide_true, if_true, beq_eq_false_iff_ne.mpr hend.1,
          beq_eq_false_iff_ne.mpr hend.2, Bool.not_false]
        exact ih h

/-- A slash in front of a query is what RFC 3986 puts there. -/
lemma target_slash_query (q : List UInt8) :
    target (SLASH :: QUESTION :: q) = target (QUESTION :: q) := by
  have hroot : rooted (remove_dot_segments [SLASH]) = rooted (remove_dot_segments []) := by decide
  have hslash : front (SLASH :: QUESTION :: q) = [SLASH] := by
    simp [front, cut, SLASH, QUESTION, HASH]
  have hnone : front (QUESTION :: q) = [] := by simp [front, cut, QUESTION, HASH]
  unfold target
  rw [hslash, hnone, hroot]
  simp [cut, SLASH, QUESTION, HASH]

lemma target_parse_path (h : s.length + 1 < UAOS_HTTP_PATH_MAX) :
    target (parse_path s) = target s := by
  unfold parse_path
  split_ifs with hnil hq
  · rw [hnil]
    decide
  · obtain ⟨q, rfl⟩ : ∃ q, s = QUESTION :: q := by
      cases s with
      | nil => cases hq
      | cons c q => exact ⟨q, by rw [Option.some.inj hq]⟩
    rw [take_of_length_le (by simp at h ⊢; omega)]
    exact target_slash_query q
  · rw [nil_append, take_of_length_le (by omega)]

lemma Whole.target_kept (h : Whole base loc) : target (kept base loc) = target (text base loc) := by
  obtain ⟨hhash, hlen⟩ := h
  unfold kept
  unfold text at *
  cases hk : kind loc <;> simp only [hk] at hhash hlen ⊢
  · rw [dropWhile_authority hhash, target_parse_path hlen]
  · rw [dropWhile_authority hhash, target_parse_path hlen]
  · rw [take_of_length_le (by omega)]

lemma whole_or_iff : Whole base loc ∨ target (kept base loc) = target (text base loc) ↔
    target (kept base loc) = target (text base loc) :=
  or_iff_right_of_imp Whole.target_kept

lemma relative_iff (hb : base.Ok) (hp : out.path = uaos_http_norm_path (merged base.path loc)) :
    AsInRfc base loc out ↔ resolve base.path loc = [SLASH] ∧ levels (merged base.path loc) = 0 := by
  have hroot := norm_path_root (merged_length hb loc)
  constructor
  · intro h
    rcases hroot with ⟨hl, hn⟩ | ⟨-, hn⟩
    · exact ⟨by rw [← h.same, hp, hn], hl⟩
    · exact absurd (hp ▸ h.root) hn
  · rintro ⟨hr, hl⟩
    rcases hroot with ⟨-, hn⟩ | ⟨hl', -⟩
    · have hout : out.path = [SLASH] := hp.trans hn
      exact ⟨by rw [hout]; rfl, by rw [hout]; decide, by rw [hout, hr]⟩
    · exact absurd hl hl'

/-- The path of every Location that is accepted is the one of RFC 3986, rooted, without dot
segments and with its query as it is, just when it is good. -/
theorem redirect_resolves_as_in_rfc_iff (hb : base.Ok)
    (hacc : ∀ e, uaos_http_resolve_redirect base loc ≠ some (.error e)) :
    (∃ out, uaos_http_resolve_redirect base loc = some (.ok out) ∧ AsInRfc base loc out) ↔
      Good base loc := by
  have one : ∀ u, uaos_http_resolve_redirect base loc = some (.ok u) →
      ((∃ out, uaos_http_resolve_redirect base loc = some (.ok out) ∧ AsInRfc base loc out) ↔
        AsInRfc base loc u) := by
    intro u hu
    constructor
    · rintro ⟨out, ho, h⟩
      rw [hu] at ho
      cases ho
      exact h
    · exact fun h => ⟨u, hu, h⟩
  cases hk : kind loc with
  | absolute =>
    have he : uaos_http_resolve_redirect base loc = some (uaos_http_parse_url loc) := by
      simp only [uaos_http_resolve_redirect, hk]
    cases hp : uaos_http_parse_url loc with
    | error e => exact absurd (he.trans (by rw [hp])) (hacc e)
    | ok u =>
      rw [one u (he.trans (by rw [hp])), absolute_iff hk hp]
      simp [Good, roomy, hk, whole_or_iff]
  | network =>
    have hlen : (base.scheme ++ COLON :: loc).length = base.scheme.length + 1 + loc.length := by
      rw [length_append, length_cons]
      omega
    by_cases hroom : base.scheme.length + 1 + loc.length < 656
    · have he : uaos_http_resolve_redirect base loc =
          some (uaos_http_parse_url (base.scheme ++ COLON :: loc)) := by
        simp only [uaos_http_resolve_redirect, hk, hlen]
        exact if_pos hroom
      cases hp : uaos_http_parse_url (base.scheme ++ COLON :: loc) with
      | error e => exact absurd (he.trans (by rw [hp])) (hacc e)
      | ok u =>
        rw [one u (he.trans (by rw [hp])), network_iff hb hk hp]
        simp [Good, roomy, hk, hroom, whole_or_iff]
    · have he : uaos_http_resolve_redirect base loc = none := by
        simp only [uaos_http_resolve_redirect, hk, hlen]
        exact if_neg hroom
      simp [Good, roomy, hk, hroom, he]
  | rooted =>
    obtain ⟨hroot, hnet⟩ := kind_rooted hk
    by_cases hroom : loc.length < UAOS_HTTP_PATH_MAX
    · have he : uaos_http_resolve_redirect base loc = some (.ok { base with path := loc }) := by
        simp only [uaos_http_resolve_redirect, hk, if_pos hroom]
      rw [one _ he, as_in_rfc_iff (.inr (.inl hroot)) (resolve_rooted hroot hnet base.path)]
      simp [Good, roomy, hk, hroom, kept, text]
    · have he : uaos_http_resolve_redirect base loc = none := by
        simp only [uaos_http_resolve_redirect, hk, if_neg hroom]
      simp [Good, roomy, hk, hroom, he]
  | query =>
    have he : uaos_http_resolve_redirect base loc = some (.ok { base with
        path := (path_part base.path ++ loc).take (UAOS_HTTP_PATH_MAX - 1) }) := by
      simp only [uaos_http_resolve_redirect, hk]
    rw [one _ he, query_iff hb hk rfl]
    simp [Good, roomy, hk, whole_or_iff]
  | relative =>
    have he : uaos_http_resolve_redirect base loc = some (.ok { base with
        path := uaos_http_norm_path (merged base.path loc) }) := by
      simp only [uaos_http_resolve_redirect, hk]
    rw [one _ he, relative_iff hb rfl]
    simp [Good, hk]

end

/-- "http://h/d/x" -/
def plain_base : UaosUrl := ⟨HTTP, [104], 80, [47, 100, 47, 120], []⟩

/-- The relative Location "y" should resolve to "/d/y" and resolves to "d/y". -/
theorem relative_location_loses_its_slash :
    ∃ base out : UaosUrl, uaos_http_parse_url [104, 116, 116, 112, 58, 47, 47, 104, 47,
      100, 47, 120]
        = .ok base ∧ uaos_http_resolve_redirect base [121] = some (.ok out) ∧
      out.path = [100, 47, 121] ∧ resolve base.path [121] = [47, 100, 47, 121] :=
  ⟨plain_base, { plain_base with path := [100, 47, 121] }, by decide +kernel, by decide +kernel,
    rfl,
    by decide +kernel⟩

/-- "/a?b/../c" and ".." resolve as in RFC 3986, "/a/../c" does not. -/
theorem good_locations :
    ((∃ out, uaos_http_resolve_redirect plain_base [47, 97, 63, 98, 47, 46, 46, 47, 99] =
        some (.ok out) ∧ AsInRfc plain_base [47, 97, 63, 98, 47, 46, 46, 47, 99] out) ↔
      Good plain_base [47, 97, 63, 98, 47, 46, 46, 47, 99]) ∧
    Good plain_base [47, 97, 63, 98, 47, 46, 46, 47, 99] ∧ Good plain_base [46, 46] ∧
    ¬Good plain_base [47, 97, 47, 46, 46, 47, 99] :=
  have hout : uaos_http_resolve_redirect plain_base [47, 97, 63, 98, 47, 46, 46, 47, 99] =
      some (.ok { plain_base with path := [47, 97, 63, 98, 47, 46, 46, 47, 99] }) := by
    decide +kernel
  ⟨redirect_resolves_as_in_rfc_iff ⟨.inl rfl, rfl, by decide⟩ (fun e => by rw [hout]; simp),
    by decide +kernel, by decide +kernel, by decide +kernel⟩

end uaos.url
