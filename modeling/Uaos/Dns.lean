-- The query that dns.c sends: a header, the name of the host as length-prefixed labels,
-- and the type and class of the question. A host name is the list of its characters.
import Uaos.Ip

namespace uaos.net

open List

variable {ls : List (List UInt8)} {bs l src : List UInt8}

/-! ## dns_build_query -/

def DNS_HDR_LEN : Nat := 12
def DNS_FLAG_RD : Nat := 0x0100
def DNS_TYPE_A : UInt8 := 1
def DNS_CLASS_IN : UInt8 := 1

/-- The character between two labels. -/
def dot : UInt8 := 46

def skip_dot : List UInt8 → List UInt8
  | [] => []
  | c :: src => if c = dot then src else c :: src

/-- The label at the front of a name. -/
def next_label (src : List UInt8) : List UInt8 := src.takeWhile (· ≠ dot)

/-- The loop over the labels. It writes at `p` and gives the buffer and, when no label is
refused, the place behind the last one. The length that is checked and written has 8 bits,
and the copy goes up to the dot. -/
def put_labels : Nat → Buf → Nat → Nat → List UInt8 → Option (Buf × Option Nat)
  | _, b, p, _, [] => some (b, some p)
  | 0, _, _, _, _ :: _ => none
  | fuel + 1, b, p, stop, src@(_ :: _) =>
    let label := next_label src
    let llen := label.length % 256
    if llen = 0 ∨ 63 < llen then some (b, none)
    else if stop ≤ p + 1 + llen then some (b, none)
    else
      put_labels fuel (put b p (UInt8.ofNat llen :: label)) (p + 1 + label.length) stop
        (skip_dot (src.drop label.length))

def dns_header (txid : UInt16) : List UInt8 :=
  le16_bytes (net_htons txid.toNat) ++ le16_bytes (net_htons DNS_FLAG_RD) ++
    le16_bytes (net_htons 1) ++ [0, 0, 0, 0, 0, 0]

/-- The buffer afterwards and the length of the query, 0 when it was refused. -/
def dns_build_query (buf : Buf) (buflen txid : UInt16) (hostname : List UInt8) :
    Option (Buf × Nat) :=
  if buflen.toNat < DNS_HDR_LEN + 4 then some (buf, 0)
  else
    let stop := buflen.toNat - 4
    match put_labels hostname.length (put buf 0 (dns_header txid)) DNS_HDR_LEN stop hostname with
    | none => none
    | some (b, none) => some (b, 0)
    | some (b, some p) =>
      if stop ≤ p then some (b, 0)
      else some (put b p [0, 0, DNS_TYPE_A, 0, DNS_CLASS_IN], u16 (p + 5))

/-- The loop of dns_name_end: the offset behind the name at `off`. -/
def dns_name_end : Nat → Buf → Nat → Nat → Option Nat
  | 0, _, _, _ => none
  | fuel + 1, buf, buflen, off =>
    if off < buflen then
      let c := (buf off).toNat
      if c = 0 then some (off + 1)
      else if 192 ≤ c then some (off + 2)
      else dns_name_end fuel buf buflen (off + 1 + c % 64)
    else none

/-! ## Names and their labels -/

/-- The labels of a host name. A dot at the end closes the last label, and what is behind
it is the root. -/
def labels_of (hostname : List UInt8) : List (List UInt8) :=
  let labels := hostname.splitOn dot
  if labels.getLast? = some [] then labels.dropLast else labels

/-- A name read from a packet, label by label: the labels and the offset behind the root. -/
def decode_name : Nat → Buf → Nat → Option (List (List UInt8) × Nat)
  | 0, _, _ => none
  | fuel + 1, b, off =>
    let n := (b off).toNat
    if n = 0 then some ([], off + 1)
    else if 63 < n then none
    else
      (decode_name fuel b (off + 1 + n)).map fun r => (slice b (off + 1) n :: r.1, r.2)

/-- Labels with their lengths in front. -/
def wire (labels : List (List UInt8)) : List UInt8 :=
  labels.flatMap fun l => UInt8.ofNat l.length :: l

def LabelOk (l : List UInt8) : Prop := 1 ≤ l.length ∧ l.length ≤ 63

/-- The `n` bytes of `b` are a query for `labels`: the header, the name, and the question
for an address. -/
structure QueryFor (txid : UInt16) (labels : List (List UInt8)) (b : Buf) (n : Nat) : Prop where
  header : slice b 0 DNS_HDR_LEN = dns_header txid
  name : decode_name n b DNS_HDR_LEN = some (labels, n - 4)
  sizes : ∀ l ∈ labels, LabelOk l
  name_end : dns_name_end n b n DNS_HDR_LEN = some (n - 4)
  question : slice b (n - 4) 4 = [0, DNS_TYPE_A, 0, DNS_CLASS_IN]

variable {b buf : Buf} {off fuel n p stop : Nat} {hostname : List UInt8}

lemma labels_of_nil : labels_of [] = [] := by decide

lemma labels_of_last (hdot : dot ∉ l) (hne : l ≠ []) : labels_of l = [l] := by
  unfold labels_of
  simp [splitOn_eq_singleton hdot, hne]

lemma labels_of_cons (hdot : dot ∉ l) (r : List UInt8) :
    labels_of (l ++ dot :: r) = l :: labels_of r := by
  have hsplit : (l ++ dot :: r).splitOn dot = l :: r.splitOn dot := by
    refine splitOnP_append_cons_of_forall_mem (fun x hx => ?_) dot (by simp) r
    have hne : x ≠ dot := fun h => hdot (h ▸ hx)
    simp [hne]
  have hne : r.splitOn dot ≠ [] := splitOn_ne_nil dot r
  unfold labels_of
  dsimp only
  rw [hsplit, getLast?_cons_of_ne_nil hne, dropLast_cons_of_ne_nil hne]
  split <;> rfl

/-- A name is its first label, or its first label, a dot and the rest. -/
lemma next_label_cases (src : List UInt8) : dot ∉ next_label src ∧
      (src = next_label src ∨ ∃ r, src = next_label src ++ dot :: r) := by
  refine ⟨fun h => ?_, ?_⟩
  · have := List.all_eq_true.mp all_takeWhile dot h
    simp at this
  have happ := takeWhile_append_dropWhile (p := fun c => decide (c ≠ dot)) (l := src)
  cases hdrop : src.dropWhile (fun c => decide (c ≠ dot)) with
  | nil =>
    rw [hdrop, append_nil] at happ
    exact .inl happ.symm
  | cons c r =>
    have hc := head_dropWhile_not (fun c => decide (c ≠ dot)) (l := src) (by rw [hdrop]; simp)
    simp only [hdrop, head_cons, ne_eq, decide_eq_false_iff_not, Decidable.not_not] at hc
    rw [hdrop, hc] at happ
    exact .inr ⟨r, happ.symm⟩

/-- What the loop goes on with, and the labels of it. -/
lemma labels_of_next (hne : src ≠ []) :
    labels_of src = next_label src :: labels_of (skip_dot (src.drop (next_label src).length)) ∧
      (skip_dot (src.drop (next_label src).length)).length < src.length := by
  obtain ⟨hdot, h⟩ := next_label_cases src
  generalize next_label src = l at hdot h ⊢
  rcases h with rfl | ⟨r, rfl⟩
  · rw [drop_length, skip_dot, labels_of_nil, labels_of_last hdot hne]
    exact ⟨rfl, length_pos_iff.mpr hne⟩
  · rw [drop_left, skip_dot, if_pos rfl, labels_of_cons hdot, length_append, length_cons]
    exact ⟨rfl, by omega⟩

/-! ## What stands in a buffer -/

/-- The bytes of `b` from `off` on begin with `bs`. -/
def Spells (b : Buf) (off : Nat) (bs : List UInt8) : Prop := slice b off bs.length = bs

lemma spells_append {xs ys : List UInt8} :
    Spells b off (xs ++ ys) ↔ Spells b off xs ∧ Spells b (off + xs.length) ys := by
  unfold Spells
  rw [length_append, slice_append]
  exact ⟨fun h => append_inj h slice_length, fun h => by rw [h.1, h.2]⟩

lemma spells_cons {c : UInt8} : Spells b off (c :: bs) ↔ b off = c ∧ Spells b (off + 1) bs := by
  rw [← singleton_append, spells_append]
  simp [Spells, slice]

lemma wire_nil : wire [] = [] := rfl

lemma wire_cons (l : List UInt8) (ls : List (List UInt8)) :
    wire (l :: ls) = UInt8.ofNat l.length :: l ++ wire ls := flatMap_cons

lemma label_byte (h : LabelOk l) : (UInt8.ofNat l.length).toNat = l.length := by
  have := h.2
  rw [UInt8.toNat_ofNat']
  omega

/-- A name that was written label by label is read label by label. -/
lemma decode_wire (hok : ∀ l ∈ ls, LabelOk l)
    (h : Spells b off (wire ls ++ [0])) (hfuel : ls.length < fuel) :
    decode_name fuel b off = some (ls, off + (wire ls).length + 1) := by
  induction ls generalizing off fuel with
  | nil =>
    obtain ⟨fuel, rfl⟩ : ∃ m, fuel = m + 1 := ⟨fuel - 1, by omega⟩
    have h0 : b off = 0 := (spells_cons.mp h).1
    rw [decode_name, h0]
    rfl
  | cons l ls ih =>
    obtain ⟨fuel, rfl⟩ : ∃ m, fuel = m + 1 := ⟨fuel - 1, by omega⟩
    have hl := hok l mem_cons_self
    rw [wire_cons, append_assoc, cons_append, spells_cons, spells_append] at h
    obtain ⟨h0, hbytes, hrest⟩ := h
    have hn : (b off).toNat = l.length := by rw [h0, label_byte hl]
    have hnext : decode_name fuel b _ = _ :=
      ih (forall_mem_cons.mp hok).2 hrest (by rw [length_cons] at hfuel; omega)
    rw [decode_name, hn, if_neg (by have := hl.1; omega), if_neg (by have := hl.2; omega), hnext,
      Option.map_some,
      show slice b (off + 1) l.length = l from hbytes, wire_cons, length_append, length_cons]
    refine congrArg _ (congrArg _ ?_)
    omega

/-- A name that can be decoded ends where dns_name_end says. -/
lemma name_end_of_decode {stop : Nat} (h : decode_name fuel b off = some (ls, stop))
    (hlen : stop ≤ n) :
    off < stop ∧ dns_name_end fuel b n off = some stop := by
  induction fuel generalizing off ls with
  | zero => cases h
  | succ fuel ih =>
    rw [decode_name] at h
    split at h
    · rename_i h0
      cases h
      refine ⟨by omega, ?_⟩
      rw [dns_name_end, if_pos (by omega), if_pos h0]
    split at h
    · cases h
    rename_i h0 hlow
    obtain ⟨⟨ls, stop⟩, hrest, he⟩ := Option.map_eq_some_iff.mp h
    cases he
    obtain ⟨hlt, hend⟩ := ih hrest
    refine ⟨by omega, ?_⟩
    rw [dns_name_end, if_pos (by omega), if_neg h0, if_neg (by omega),
      Nat.mod_eq_of_lt (by omega), hend]

lemma labels_le_wire (ls : List (List UInt8)) : ls.length ≤ (wire ls).length := by
  induction ls with
  | nil => exact Nat.zero_le _
  | cons l ls ih =>
    rw [wire_cons, length_append, length_cons, length_cons]
    omega

/-! ## The loop -/

/-- The labels that the loop takes from the place `p` on: those before the first whose
length, cut to 8 bits, is refused or does not fit. -/
def taken (stop : Nat) : Nat → List (List UInt8) → List (List UInt8)
  | _, [] => []
  | p, l :: ls =>
    let llen := l.length % 256
    if llen = 0 ∨ 63 < llen ∨ stop ≤ p + 1 + llen then []
    else l :: taken stop (p + 1 + l.length) ls

lemma ofNat_mod (n : Nat) : UInt8.ofNat (n % 256) = UInt8.ofNat n := by
  rw [← UInt8.toNat_inj, UInt8.toNat_ofNat', UInt8.toNat_ofNat']
  omega

/-- The loop writes the labels that it takes one behind the other. -/
lemma put_labels_spec (stop : Nat) (hfuel : src.length ≤ fuel) :
    put_labels fuel b p stop src = some (put b p (wire (taken stop p (labels_of src))),
      if taken stop p (labels_of src) = labels_of src then some (p + (wire (labels_of src)).length)
      else none) := by
  induction fuel generalizing b p src with
  | zero =>
    obtain rfl : src = [] := length_eq_zero_iff.mp (by omega)
    rw [put_labels, labels_of_nil, taken, if_pos rfl, wire_nil, put_nil]
    rfl
  | succ fuel ih =>
    cases hsrc : src with
    | nil =>
      rw [put_labels, labels_of_nil, taken, if_pos rfl, wire_nil, put_nil]
      rfl
    | cons c cs =>
      obtain ⟨hlabels, hless⟩ := labels_of_next (show src ≠ [] by rw [hsrc]; simp)
      rw [put_labels, ← hsrc, hlabels, taken]
      generalize next_label src = l at hlabels hless ⊢
      by_cases hllen : l.length % 256 = 0 ∨ 63 < l.length % 256
      · rw [if_pos hllen, if_pos (hllen.imp_right .inl), wire_nil, put_nil, if_neg (by simp)]
      rw [if_neg hllen]
      by_cases hfit : stop ≤ p + 1 + l.length % 256
      · rw [if_pos hfit, if_pos (.inr (.inr hfit)), wire_nil, put_nil, if_neg (by simp)]
      rw [if_neg hfit, if_neg (by tauto), ih (by omega), ofNat_mod, wire_cons, wire_cons,
        ← put_append,
        length_append, length_cons, add_assoc p, add_comm 1]
      simp only [cons.injEq, true_and, add_assoc]

/-- Taken labels end below `stop`, but for a label that is longer than its 8 bits say. -/
lemma taken_below (hsmall : ∀ l ∈ taken stop p ls, l.length < 256) :
    (∀ l ∈ taken stop p ls, LabelOk l) ∧
      (p + (wire (taken stop p ls)).length < stop ∨ taken stop p ls = []) := by
  induction ls generalizing p with
  | nil => exact ⟨by simp [taken], .inr rfl⟩
  | cons l ls ih =>
    rw [taken] at hsmall ⊢
    split at hsmall
    · rename_i hno
      rw [if_pos hno]
      exact ⟨by simp, .inr rfl⟩
    rename_i hok
    rw [if_neg hok]
    obtain ⟨hl, hrest⟩ := forall_mem_cons.mp hsmall
    rw [Nat.mod_eq_of_lt hl] at hok
    obtain ⟨hsizes, hend⟩ := ih hrest
    refine ⟨forall_mem_cons.mpr ⟨⟨by omega, by omega⟩, hsizes⟩, .inl ?_⟩
    rw [wire_cons, length_append, length_cons]
    rcases hend with hend | hnil
    · omega
    · rw [hnil, wire_nil, length_nil]
      omega

/-- The labels that the loop takes are below 256 bytes, or the name is refused behind
labels that fit into the buffer. -/
def Narrow (buflen : UInt16) (hostname : List UInt8) : Prop :=
  let stop := buflen.toNat - 4
  let ls := taken stop DNS_HDR_LEN (labels_of hostname)
  let p := DNS_HDR_LEN + (wire ls).length
  buflen.toNat < DNS_HDR_LEN + 4 ∨ (∀ l ∈ ls, l.length < 256) ∨
    p ≤ buflen.toNat ∧ (ls ≠ labels_of hostname ∨ stop ≤ p)

def no_bytes : Buf := fun _ => 0

/-- What is asked of a call: it returns, writes nothing behind the buffer, and refuses the
name or writes a query that spells it. -/
def Spelled (buf : Buf) (buflen txid : UInt16) (hostname : List UInt8) : Prop :=
  ∃ b n, dns_build_query buf buflen txid hostname = some (b, n) ∧
    (∀ j, buflen.toNat ≤ j → b j = buf j) ∧
    (n = 0 ∨ n ≤ buflen.toNat ∧ QueryFor txid (labels_of hostname) b n)

/-- The packet that is made of labels spells them. -/
lemma query_of_labels {txid : UInt16} (hok : ∀ l ∈ ls, LabelOk l) :
    QueryFor txid ls (put (put (put buf 0 (dns_header txid)) 12 (wire ls)) (12 + (wire ls).length)
      [0, 0, DNS_TYPE_A, 0, DNS_CLASS_IN]) (12 + (wire ls).length + 5) := by
  have hhead : (dns_header txid).length = 12 := rfl
  have hspell : Spells (put (put (put buf 0 (dns_header txid)) 12 (wire ls)) (12 + (wire ls).length)
      [0, 0, DNS_TYPE_A, 0, DNS_CLASS_IN]) 0
      (dns_header txid ++ ((wire ls ++ [0]) ++ [0, DNS_TYPE_A, 0, DNS_CLASS_IN])) := by
    rw [put_append, show (12 : Nat) = 0 + (dns_header txid).length from rfl, put_append,
      append_assoc (wire _)]
    exact slice_put_same
  rw [spells_append, spells_append, hhead, length_append] at hspell
  obtain ⟨hheader, hname, hquestion⟩ := hspell
  have hcount := labels_le_wire ls
  have hdecode := decode_wire hok hname (show ls.length < 12 + (wire ls).length + 5 by omega)
  exact
    { header := hheader
      name := hdecode
      sizes := hok
      name_end := (name_end_of_decode hdecode (by omega)).2
      question := hquestion }

/-- The call by the labels that are taken. -/
lemma build_query_eq {buflen txid : UInt16} (hroom : ¬ buflen.toNat < 16)
    (hls : taken (buflen.toNat - 4) 12 (labels_of hostname) = ls) :
    dns_build_query buf buflen txid hostname =
      if ls = labels_of hostname ∧ 12 + (wire ls).length < buflen.toNat - 4 then
        some (put (put (put buf 0 (dns_header txid)) 12 (wire ls)) (12 + (wire ls).length)
          [0, 0, DNS_TYPE_A, 0, DNS_CLASS_IN], 12 + (wire ls).length + 5)
      else some (put (put buf 0 (dns_header txid)) 12 (wire ls), 0) := by
  have h16 := buflen.toNat_lt
  unfold dns_build_query
  rw [show DNS_HDR_LEN = 12 from rfl, if_neg hroom]
  dsimp only
  rw [put_labels_spec _ (le_refl hostname.length), hls]
  by_cases hall : ls = labels_of hostname
  · rw [← hall, if_pos rfl]
    dsimp only
    by_cases hend : buflen.toNat - 4 ≤ 12 + (wire ls).length
    · rw [if_pos hend, if_neg (by omega)]
    · rw [if_neg hend, if_pos ⟨rfl, by omega⟩, u16, Nat.mod_eq_of_lt (by omega)]
  · rw [if_neg hall, if_neg fun hc => hall hc.1]

/-- A host name is refused, or the query that is written spells its labels, and nothing is
written behind the buffer, for exactly the names whose labels are narrow. -/
theorem a_query_spells_the_host_name (buflen txid : UInt16) (hostname : List UInt8) :
    (∀ buf, Spelled buf buflen txid hostname) ↔ Narrow buflen hostname := by
  have hhead : (dns_header txid).length = 12 := rfl
  unfold Spelled Narrow
  rw [show DNS_HDR_LEN = 12 from rfl]
  dsimp only
  by_cases hroom : buflen.toNat < 12 + 4
  · simp only [hroom, true_or, iff_true]
    exact fun buf => ⟨buf, 0, if_pos hroom, fun _ _ => rfl, .inl rfl⟩
  have htaken : (∀ l ∈ taken (buflen.toNat - 4) 12 (labels_of hostname), l.length < 256) → _ :=
    taken_below
  generalize hls : taken (buflen.toNat - 4) 12 (labels_of hostname) = ls at htaken ⊢
  simp only [hroom, false_or, build_query_eq hroom hls]
  have hframe : ∀ (buf : Buf) j, 12 + (wire ls).length ≤ j →
      put (put buf 0 (dns_header txid)) 12 (wire ls) j = buf j := by
    intro buf j hj
    rw [put_outside (by omega), put_outside (by omega)]
  by_cases hend : ls = labels_of hostname ∧ 12 + (wire ls).length < buflen.toNat - 4
  · -- a query is sent
    simp only [if_pos hend]
    constructor
    · intro h
      obtain ⟨b, n, hcall, -, hq⟩ := h no_bytes
      cases hcall
      rcases hq with h0 | ⟨-, hq⟩
      · omega
      · exact .inl fun l hl => lt_of_le_of_lt (hq.sizes l (hend.1 ▸ hl)).2 (by decide)
    · intro h buf
      have hsmall := h.resolve_right fun hc => hc.2.elim (fun hne => hne hend.1) (by omega)
      refine ⟨_, _, rfl, fun j hj => ?_, .inr ⟨by omega, ?_⟩⟩
      · rw [put_outside (by simp only [length_cons, length_nil]; omega)]
        exact hframe buf j (by omega)
      · rw [← hend.1]
        exact query_of_labels (htaken hsmall).1
  · -- the name is refused behind the labels that were copied
    simp only [if_neg hend]
    constructor
    · intro h
      refine .inr ⟨by_contra fun hlong => ?_, ?_⟩
      · -- the copy over the end is seen where another byte stood
        obtain ⟨b, n, hcall, hkeep, -⟩ := h fun _ => (wire ls).getD (buflen.toNat - 12) 0 + 1
        cases hcall
        have h0 := hkeep buflen.toNat (le_refl _)
        rw [put_inside (by omega) (by omega)] at h0
        exact absurd h0 (by simp)
      · rw [not_and, not_lt] at hend
        exact or_iff_not_imp_left.mpr fun hc => hend (not_not.mp hc)
    · intro h buf
      refine ⟨_, 0, rfl, fun j hj => hframe buf j ?_, .inl rfl⟩
      rcases h with hsmall | ⟨hle, -⟩
      · rcases (htaken hsmall).2 with hlt | rfl
        · omega
        · rw [wire_nil, length_nil]
          omega
      · omega

/-- In a buffer of 280 bytes, as the resolver has it, a label of 257 bytes is sent as a
label of one byte with 256 bytes of garbage behind it, and one of 319 bytes is copied over
the end of the buffer before the name is refused. -/
theorem a_label_of_257_bytes_is_sent : (dns_build_query no_bytes 280 7 (List.replicate 257 97)).map
        (fun r => (r.2, r.1 12, decode_name r.2 r.1 DNS_HDR_LEN)) = some (275, 1, none) ∧
      ¬ Spelled no_bytes 280 7 (List.replicate 257 97) ∧
      (dns_build_query no_bytes 280 7 (List.replicate 319 97)).map (fun r => (r.2, r.1 300)) =
        some (0, 97) := by
  have hsent : (dns_build_query no_bytes 280 7 (List.replicate 257 97)).map
      (fun r => (r.2, r.1 12, decode_name r.2 r.1 DNS_HDR_LEN)) = some (275, 1, none) := by
    decide +kernel
  refine ⟨hsent, ?_, by decide +kernel⟩
  rintro ⟨b, n, h, -, hq⟩
  rw [h, Option.map_some, Option.some.injEq, Prod.mk.injEq, Prod.mk.injEq] at hsent
  obtain ⟨rfl, -, hnone⟩ := hsent
  rcases hq with h0 | ⟨-, hq⟩
  · cases h0
  · have hname := hq.name
    rw [hnone] at hname
    cases hname

/-! ## dns_parse_response -/

def DNS_FLAG_QR : Nat := 0x8000
def DNS_FLAG_RCODE : Nat := 0x000F

/-- The reply is not for the query, says that there is no address, or gives one. -/
inductive Verdict where
  | ignored
  | refused
  | found (ip : Nat)
deriving DecidableEq

/-- The offset behind `n` questions. Every turn of dns_name_end moves on, so the fuel is enough. -/
def skip_questions (buf : Buf) (len : Nat) : Nat → Nat → Option Nat
  | 0, off => some off
  | n + 1, off =>
    match dns_name_end (len + 1) buf len off with
    | none => none
    | some off => if len < off + 4 then none else skip_questions buf len n (off + 4)

/-- The loop over `n` answers. -/
def walk_answers (buf : Buf) (len : Nat) : Nat → Nat → Verdict
  | 0, _ => .refused
  | n + 1, off =>
    match dns_name_end (len + 1) buf len off with
    | none => .refused
    | some off =>
      if len < off + 10 then .refused
      else
        let rtype := net_ntohs buf off
        let rdlen := net_ntohs buf (off + 8)
        if rtype = DNS_TYPE_A.toNat ∧ rdlen = 4 ∧ off + 14 ≤ len then
          .found (net_ntohl buf (off + 10))
        else walk_answers buf len n (off + 10 + rdlen)

def dns_parse_response (buf : Buf) (len txid : UInt16) (query : Buf) (qlen : UInt16) : Verdict :=
  let flags := net_ntohs buf 2
  let qdcount := net_ntohs buf 4
  let ancount := net_ntohs buf 6
  let n := sub32 qlen.toNat DNS_HDR_LEN
  if len.toNat < DNS_HDR_LEN then .ignored
  else if net_ntohs buf 0 ≠ txid.toNat then .ignored
  else if flags &&& DNS_FLAG_QR = 0 then .ignored
  else if qdcount ≠ 1 ∨ len < qlen ∨ slice buf DNS_HDR_LEN n ≠ slice query DNS_HDR_LEN n then
    .ignored
  else if flags &&& DNS_FLAG_RCODE ≠ 0 then .refused
  else if ancount = 0 then .refused
  else
    match skip_questions buf len.toNat qdcount DNS_HDR_LEN with
    | none => .refused
    | some off => walk_answers buf len.toNat ancount off

section
variable {b c : Buf} {i len n off : Nat} (h : ∀ i, i < len → b i = c i)
include h

lemma ntohs_same (hi : i + 2 ≤ len) : net_ntohs b i = net_ntohs c i := by
  rw [net_ntohs, net_ntohs, h i (by omega), h (i + 1) (by omega)]

lemma name_end_same (fuel : Nat) : dns_name_end fuel b len off = dns_name_end fuel c len off := by
  induction fuel generalizing off with
  | zero => rfl
  | succ fuel ih =>
    unfold dns_name_end
    split
    · rename_i hoff
      simp only [h off hoff, ih]
    · rfl

lemma skip_questions_same : skip_questions b len n off = skip_questions c len n off := by
  induction n generalizing off with
  | zero => rfl
  | succ n ih => simp only [skip_questions, name_end_same h, ih]

lemma walk_answers_same : walk_answers b len n off = walk_answers c len n off := by
  induction n generalizing off with
  | zero => rfl
  | succ n ih =>
    unfold walk_answers
    rw [name_end_same h]
    split
    · rfl
    rename_i off _
    by_cases hlong : len < off + 10
    · simp only [if_pos hlong]
    have htype : net_ntohs b off = net_ntohs c off := ntohs_same h (by omega)
    have hlen : net_ntohs b (off + 8) = net_ntohs c (off + 8) := ntohs_same h (by omega)
    simp only [if_neg hlong, htype, hlen, ih]
    by_cases hip : off + 14 ≤ len
    · rw [net_ntohl, net_ntohl, ntohs_same h (by omega), ntohs_same h (by omega)]
    · simp only [hip, and_false, if_false]

end

/-- What a reply says is in its bytes, the identifier and the question that was sent. -/
theorem a_verdict_comes_from_the_reply_and_the_question (b c query query' : Buf)
    (len txid qlen : UInt16) (hb : ∀ i, i < len.toNat → b i = c i) (hlen : DNS_HDR_LEN ≤ qlen.toNat)
    (hquery : ∀ i, DNS_HDR_LEN ≤ i → i < qlen.toNat → query i = query' i) :
    dns_parse_response b len txid query qlen = dns_parse_response c len txid query' qlen := by
  have hn : sub32 qlen.toNat DNS_HDR_LEN = qlen.toNat - DNS_HDR_LEN :=
    sub32_of_le hlen (by have := qlen.toNat_lt; omega)
  have hsent : slice query DNS_HDR_LEN (qlen.toNat - DNS_HDR_LEN) =
      slice query' DNS_HDR_LEN (qlen.toNat - DNS_HDR_LEN) :=
    slice_congr fun k hk => hquery _ (by omega) (by omega)
  unfold dns_parse_response
  simp only [hn, hsent]
  by_cases hhdr : len.toNat < DNS_HDR_LEN
  · rw [if_pos hhdr, if_pos hhdr]
  unfold DNS_HDR_LEN at hhdr
  have hwords : ∀ i, i + 2 ≤ 12 → net_ntohs b i = net_ntohs c i := fun i hi =>
    ntohs_same hb (by omega)
  simp only [hwords 0, hwords 2, hwords 4, hwords 6, Nat.reduceAdd, Nat.reduceLeDiff,
    skip_questions_same hb, walk_answers_same hb]
  by_cases hq : len < qlen
  · simp only [hq, true_or, or_true]
  · have hecho : slice b DNS_HDR_LEN (qlen.toNat - DNS_HDR_LEN) =
        slice c DNS_HDR_LEN (qlen.toNat - DNS_HDR_LEN) :=
      slice_congr fun k hk => hb _ (by rw [UInt16.lt_iff_toNat_lt] at hq; omega)
    simp only [hecho]

/-- The query 7 for a host. -/
def asked (hostname : List UInt8) : Buf :=
  ((dns_build_query no_bytes 280 7 hostname).map Prod.fst).getD no_bytes

/-- The answer to the query for the host `a`: the question again, and its address 10.0.2.15. -/
def answer : Buf :=
  put (put (asked [97]) 2 [0x81, 0x80, 0, 1, 0, 1]) 19
    [0xC0, 12, 0, 1, 0, 1, 0, 0, 0, 60, 0, 4, 10, 0, 2, 15]

theorem bytes_behind_the_reply_do_not_matter :
    dns_parse_response answer 35 7 (asked [97]) 19 = .found 0x0A00020F ∧
      dns_parse_response answer 35 7 (asked [97]) 19 =
        dns_parse_response (put answer 35 [1]) 35 7 (put (asked [97]) 0 [9]) 19 :=
  ⟨by decide +kernel, a_verdict_comes_from_the_reply_and_the_question _ _ _ _ 35 7 19
    (fun i hi => (put_outside (.inl hi)).symm) (by decide)
    fun i hi _ => (put_outside (.inr (Nat.le_trans (by decide) hi))).symm⟩

/-- The same reply to the same identifier is ignored when another host was asked for. -/
theorem another_question_gives_another_verdict :
    dns_parse_response answer 35 7 (asked [97]) 19 ≠ dns_parse_response answer 35 7
      (asked [98]) 19 := by
  decide +kernel

end uaos.net
