-- References and their resolution as RFC 3986 states them (sections 3, 5.2 and appendix B), on the
-- bytes of a reference. The path algorithm works on text, and a lemma says what it does segment by
-- segment.
import Mathlib.Data.List.Basic
import Mathlib.Data.List.TakeWhile
import Mathlib.Tactic.Common

namespace uaos.rfc3986

open List

variable {segs st : List (List UInt8)} {a p s t text : List UInt8} {fuel : Nat} {c mark : UInt8}

def DOT : UInt8 := 46
def SLASH : UInt8 := 47
def COLON : UInt8 := 58
def QUESTION : UInt8 := 63
def HASH : UInt8 := 35

/-! ## Texts up to a mark -/

lemma ne_of_not_mem (h : mark ∉ s) : ∀ c ∈ s, decide (c ≠ mark) = true :=
  fun _ hc => decide_eq_true fun he => h (he ▸ hc)

lemma takeWhile_append_not_mem (h : mark ∉ a)
    (s : List UInt8) : (a ++ s).takeWhile (· ≠ mark) = a ++ s.takeWhile (· ≠ mark) :=
  takeWhile_append_of_pos (ne_of_not_mem h)

lemma dropWhile_append_not_mem (h : mark ∉ a)
    (s : List UInt8) : (a ++ s).dropWhile (· ≠ mark) = s.dropWhile (· ≠ mark) :=
  dropWhile_append_of_pos (ne_of_not_mem h)

lemma takeWhile_of_not_mem (h : mark ∉ s) : s.takeWhile (· ≠ mark) = s :=
  takeWhile_eq_self_iff.mpr (ne_of_not_mem h)

lemma dropWhile_head {p : UInt8 → Bool} (h : s.dropWhile p = c :: t) : p c = false := by
  have hn : s.dropWhile p ≠ [] := by rw [h]; simp
  have := head_dropWhile_not p hn
  simpa only [h, head_cons] using this

/-! ## Paths without dot segments -/

/-- The last segment goes, and the slash in front of it if there is one. -/
def drop_segment (out : List UInt8) : List UInt8 :=
  ((out.reverse.dropWhile (· ≠ SLASH)).drop 1).reverse

/-- One step of the algorithm of section 5.2.4: what is left of the input, and the output. -/
def dot_step (inp out : List UInt8) : List UInt8 × List UInt8 :=
  if [DOT, DOT, SLASH] <+: inp then (inp.drop 3, out)
  else if [DOT, SLASH] <+: inp then (inp.drop 2, out)
  else if [SLASH, DOT, SLASH] <+: inp then (inp.drop 2, out)
  else if inp = [SLASH, DOT] then ([SLASH], out)
  else if [SLASH, DOT, DOT, SLASH] <+: inp then (inp.drop 3, drop_segment out)
  else if inp = [SLASH, DOT, DOT] then ([SLASH], drop_segment out)
  else if inp = [DOT] ∨ inp = [DOT, DOT] then ([], out)
  else ((inp.drop 1).dropWhile (· ≠ SLASH), out ++ inp.take 1 ++ (inp.drop 1).takeWhile (· ≠ SLASH))

def dot_loop : Nat → List UInt8 → List UInt8 → List UInt8
  | 0, _, out => out
  | fuel + 1, inp, out =>
    if inp = [] then out else dot_loop fuel (dot_step inp out).1 (dot_step inp out).2

/-- Every step takes something off the input. -/
def remove_dot_segments (path : List UInt8) : List UInt8 := dot_loop path.length path []

/-! ## Segment by segment -/

/-- The text of a rooted path. -/
def join (segs : List (List UInt8)) : List UInt8 := segs.flatMap (SLASH :: ·)

/-- The segments that are left: a dot segment goes, and a double dot takes the one before it along.
At the end of a path both leave a slash. -/
def walk : List (List UInt8) → List (List UInt8) → List (List UInt8)
  | st, [] => st
  | st, s :: segs =>
    if s = [DOT] then if segs = [] then st ++ [[]] else walk st segs
    else if s = [DOT, DOT] then
      if segs = [] then st.dropLast ++ [[]] else walk st.dropLast segs
    else walk (st ++ [s]) segs

/-- Not a dot segment. -/
def Plain (s : List UInt8) : Prop := s ≠ [DOT] ∧ s ≠ [DOT, DOT]

instance (s : List UInt8) : Decidable (Plain s) := by unfold Plain; infer_instance

@[simp] lemma join_nil : join [] = [] := rfl

@[simp] lemma join_cons (s : List UInt8) (segs : List (List UInt8)) :
    join (s :: segs) = SLASH :: (s ++ join segs) := rfl

@[simp] lemma join_append (a b : List (List UInt8)) : join (a ++ b) = join a ++ join b :=
  flatMap_append

lemma join_eq_nil : join segs = [] ↔ segs = [] := by
  cases segs <;> simp

lemma drop_segment_append (out : List UInt8) (hs : SLASH ∉ s) :
    drop_segment (out ++ SLASH :: s) = out := by
  unfold drop_segment
  rw [reverse_append, reverse_cons, append_assoc, dropWhile_append_not_mem (by rwa [mem_reverse])]
  simp

lemma drop_segment_join (hst : ∀ s ∈ st, SLASH ∉ s) :
    drop_segment (join st) = join st.dropLast := by
  rcases eq_nil_or_concat st with rfl | ⟨st', s, rfl⟩
  · rfl
  · rw [concat_eq_append] at hst ⊢
    rw [join_append, dropLast_concat, join_cons, join_nil, append_nil]
    exact drop_segment_append _ (hst s (by simp))

/-- A segment at the start of a rooted path, with what follows. -/
lemma prefix_segment {rest : List UInt8} (hs : SLASH ∉ s) (ht : SLASH ∉ t)
    (hrest : rest.head? = some SLASH ∨ rest = []) :
    SLASH :: (t ++ [SLASH]) <+: SLASH :: (s ++ rest) ↔ s = t ∧ rest ≠ [] := by
  rw [List.cons_prefix_cons, and_iff_right rfl]
  constructor
  · rintro ⟨u, hu⟩
    rw [append_assoc, singleton_append] at hu
    rcases append_eq_append_iff.mp hu with ⟨a, rfl, ha⟩ | ⟨a, rfl, ha⟩
    · cases a with
      | nil =>
        refine ⟨by simp, ?_⟩
        rintro rfl
        cases ha
      | cons c a =>
        have hc : c = SLASH := by simpa using (List.cons.inj ha).1.symm
        exact absurd (by simp [hc]) hs
    · cases a with
      | nil =>
        refine ⟨by simp, ?_⟩
        rintro rfl
        cases ha
      | cons c a =>
        have hc : rest.head? = some c := by rw [ha]; rfl
        rcases hrest with h | h
        · rw [h] at hc
          exact absurd (by simp [Option.some.inj hc]) ht
        · rw [h] at hc
          cases hc
  · rintro ⟨rfl, hne⟩
    rcases hrest with h | h
    · obtain ⟨c, rest, rfl⟩ : ∃ c r, rest = c :: r := exists_cons_of_ne_nil hne
      cases h
      exact ⟨rest, by simp⟩
    · exact absurd h hne

lemma join_head (segs : List (List UInt8)) : (join segs).head? = some SLASH ∨ join segs = [] := by
  cases segs <;> simp

/-- A step on a rooted path. -/
lemma dot_step_join (hs : SLASH ∉ s) (out : List UInt8) : dot_step (join (s :: segs)) out =
      if s = [DOT] then (if segs = [] then [SLASH] else join segs, out)
      else if s = [DOT, DOT] then (if segs = [] then [SLASH] else join segs, drop_segment out)
      else (join segs, out ++ SLASH :: s) := by
  have h1 : ¬[DOT, DOT, SLASH] <+: join (s :: segs) := by
    rw [join_cons, List.cons_prefix_cons]
    exact fun h => absurd h.1 (by decide)
  have h2 : ¬[DOT, SLASH] <+: join (s :: segs) := by
    rw [join_cons, List.cons_prefix_cons]
    exact fun h => absurd h.1 (by decide)
  have h3 : [SLASH, DOT, SLASH] <+: join (s :: segs) ↔ s = [DOT] ∧ join segs ≠ [] :=
    prefix_segment (t := [DOT]) hs (by decide) (join_head segs)
  have h4 : [SLASH, DOT, DOT, SLASH] <+: join (s :: segs) ↔ s = [DOT, DOT] ∧ join segs ≠ [] :=
    prefix_segment (t := [DOT, DOT]) hs (by decide) (join_head segs)
  have h5 : ∀ t : List UInt8, SLASH ∉ t → (join (s :: segs) = SLASH :: t ↔ s = t ∧ segs = []) := by
    intro t ht
    rw [join_cons, List.cons.injEq, and_iff_right rfl]
    constructor
    · intro h
      have hj : join segs = [] := by
        rcases join_head segs with hj | hj
        · have : SLASH ∈ s ++ join segs := mem_append_right _ (mem_of_head? hj)
          rw [h] at this
          exact absurd this ht
        · exact hj
      rw [hj, append_nil] at h
      exact ⟨h, join_eq_nil.mp hj⟩
    · rintro ⟨rfl, rfl⟩
      simp
  have h6 : ¬(join (s :: segs) = [DOT] ∨ join (s :: segs) = [DOT, DOT]) := by
    rintro (h | h)
    · exact absurd (List.cons.inj h).1 (by decide)
    · exact absurd (List.cons.inj h).1 (by decide)
  rw [dot_step, if_neg h1, if_neg h2, if_neg h6]
  simp only [h3, h4, h5 [DOT] (by decide), h5 [DOT, DOT] (by decide), ne_eq, join_eq_nil]
  by_cases hd : s = [DOT]
  · subst hd
    by_cases hn : segs = []
    · simp [hn]
    · simp [hn]
  by_cases hdd : s = [DOT, DOT]
  · subst hdd
    by_cases hn : segs = []
    · simp [hn]
    · simp [hn]
  have hw : (join segs).takeWhile (fun x => decide (x ≠ SLASH)) = [] ∧
      (join segs).dropWhile (fun x => decide (x ≠ SLASH)) = join segs := by
    cases segs <;> simp
  simp only [hd, hdd, false_and, if_false, join_cons, drop_one, tail_cons]
  rw [dropWhile_append_not_mem hs, takeWhile_append_not_mem hs, hw.1, hw.2]
  simp

lemma dot_loop_nil (fuel : Nat) (out : List UInt8) : dot_loop fuel [] out = out := by
  cases fuel <;> rfl

/-- A path that a dot segment ended is a slash, which moves to the output as it is. -/
lemma dot_loop_slash (hf : 0 < fuel) (out : List UInt8) :
    dot_loop fuel [SLASH] out = out ++ [SLASH] := by
  obtain ⟨n, rfl⟩ : ∃ n, fuel = n + 1 := ⟨fuel - 1, by omega⟩
  have hs : dot_step (join [[]]) out = ([], out ++ [SLASH]) := dot_step_join (by decide) out
  change dot_loop (n + 1) (join [[]]) out = _
  rw [dot_loop, if_neg (by decide), hs, dot_loop_nil]

lemma dot_loop_join (hf : (join segs).length ≤ fuel)
    (hs : ∀ s ∈ segs, SLASH ∉ s) (hst : ∀ s ∈ st, SLASH ∉ s) :
    dot_loop fuel (join segs) (join st) = join (walk st segs) := by
  induction segs generalizing st fuel with
  | nil => rw [join_nil, dot_loop_nil, walk]
  | cons s segs ih =>
    rw [join_cons, length_cons, length_append] at hf
    obtain ⟨n, rfl⟩ : ∃ n, fuel = n + 1 := ⟨fuel - 1, by omega⟩
    have hs' : ∀ t ∈ segs, SLASH ∉ t := fun t ht => hs t (by simp [ht])
    have hdl : ∀ t ∈ st.dropLast, SLASH ∉ t := fun t ht => hst t (dropLast_subset _ ht)
    rw [dot_loop, if_neg (by simp), dot_step_join (hs s (by simp)), walk]
    by_cases hd : s = [DOT]
    · subst hd
      rw [length_singleton] at hf
      by_cases hn : segs = []
      · simp only [if_true, hn]
        rw [dot_loop_slash (by omega)]
        simp
      · simp only [if_true, hn, if_false]
        exact ih (by omega) hs' hst
    by_cases hdd : s = [DOT, DOT]
    · subst hdd
      rw [length_cons, length_singleton] at hf
      simp only [hd, if_false, if_true, drop_segment_join hst]
      by_cases hn : segs = []
      · simp only [hn, if_true]
        rw [dot_loop_slash (by omega)]
        simp
      · simp only [hn, if_false]
        exact ih (by omega) hs' hdl
    · simp only [hd, hdd, if_false]
      have hj : join st ++ SLASH :: s = join (st ++ [s]) := by simp
      rw [hj]
      refine ih (by omega) hs' ?_
      intro t ht
      rcases mem_append.mp ht with h | h
      · exact hst t h
      · rw [mem_singleton.mp h]
        exact hs s (by simp)

/-- The segments of a rooted path. -/
def segments (path : List UInt8) : List (List UInt8) := (path.drop 1).splitOn SLASH

lemma mem_splitOn_no_slash (path : List UInt8) : ∀ s ∈ path.splitOn SLASH, SLASH ∉ s := by
  induction h : path.length using Nat.strongRecOn generalizing path with
  | ind n ih =>
    by_cases hm : SLASH ∈ path
    · obtain ⟨a, b, rfl, ha⟩ := eq_append_cons_of_mem hm
      rw [splitOn_append_cons_self_of_not_mem ha, forall_mem_cons]
      refine ⟨ha, ih b.length ?_ b rfl⟩
      rw [length_append, length_cons] at h
      omega
    · rw [splitOn_eq_singleton hm]
      simpa using hm

lemma segments_no_slash (h : s ∈ segments path) : SLASH ∉ s := mem_splitOn_no_slash _ s h

lemma join_eq_intercalate (hne : segs ≠ []) : join segs = SLASH :: [SLASH].intercalate segs := by
  induction segs with
  | nil => exact absurd rfl hne
  | cons s segs ih =>
    cases segs with
    | nil => simp
    | cons t segs =>
      rw [join_cons, ih (by simp), intercalate_cons_cons]
      simp

lemma segments_ne_nil (path : List UInt8) : segments path ≠ [] := splitOn_ne_nil _ _

lemma join_segments (h : path.head? = some SLASH) : join (segments path) = path := by
  rw [join_eq_intercalate (segments_ne_nil path), segments, intercalate_splitOn]
  cases path with
  | nil => cases h
  | cons c path => rw [Option.some.inj h]; rfl

lemma segments_join (hne : segs ≠ []) (hs : ∀ s ∈ segs, SLASH ∉ s) :
    segments (join segs) = segs := by
  rw [segments, join_eq_intercalate hne]
  exact splitOn_intercalate SLASH hs hne

/-- What the algorithm does to a rooted path. -/
lemma remove_dot_segments_eq (h : path.head? = some SLASH) :
    remove_dot_segments path = join (walk [] (segments path)) := by
  have hj := join_segments h
  have hl : dot_loop path.length (join (segments path)) (join []) = _ :=
    dot_loop_join (by rw [hj]) (fun s hs => segments_no_slash hs) (by simp)
  rw [hj] at hl
  exact hl

lemma walk_ne_nil (hne : segs ≠ []) (st : List (List UInt8)) : walk st segs ≠ [] := by
  induction segs generalizing st with
  | nil => exact absurd rfl hne
  | cons s segs ih =>
    have last : ∀ st', segs = [] → st' ≠ [] → walk st' segs ≠ [] := by
      rintro st' rfl h
      exact h
    simp only [walk]
    split_ifs with h1 h2 h3 h4
    · simp
    · exact ih h2 st
    · simp
    · exact ih h4 _
    · by_cases hn : segs = []
      · exact last _ hn (by simp)
      · exact ih hn _

/-- What holds of the segments on the stack, of an empty one and of those that are pushed, holds of
all that is left. -/
lemma walk_all {p : List UInt8 → Prop} (h0 : p [])
    (hs : ∀ s ∈ segs, Plain s → p s) (hst : ∀ s ∈ st, p s) : ∀ s ∈ walk st segs, p s := by
  have push : ∀ st' : List (List UInt8), (∀ s ∈ st', p s) → ∀ t, p t → ∀ s ∈ st' ++ [t], p s := by
    intro st' h t ht s hm
    rcases mem_append.mp hm with hm | hm
    · exact h s hm
    · rw [mem_singleton.mp hm]
      exact ht
  induction segs generalizing st with
  | nil => exact hst
  | cons s segs ih =>
    have hs' : ∀ t ∈ segs, Plain t → p t := fun t ht => hs t (by simp [ht])
    have hdl : ∀ t ∈ st.dropLast, p t := fun t ht => hst t (dropLast_subset _ ht)
    simp only [walk]
    split_ifs with h1 h2 h3 h4
    · exact push _ hst _ h0
    · exact ih hs' hst
    · exact push _ hdl _ h0
    · exact ih hs' hdl
    · exact ih hs' (push _ hst _ (hs s (by simp) ⟨h1, h3⟩))

lemma walk_plain (h : ∀ s ∈ segs, Plain s) (st : List (List UInt8)) :
    walk st segs = st ++ segs := by
  induction segs generalizing st with
  | nil => simp [walk]
  | cons s segs ih =>
    have hs : Plain s := h s (by simp)
    rw [walk, if_neg hs.1, if_neg hs.2, ih (fun t ht => h t (by simp [ht]))]
    simp

/-- A path without dot segments stays as it is. -/
lemma remove_dot_segments_plain (h : path.head? = some SLASH)
    (hp : ∀ s ∈ segments path, Plain s) : remove_dot_segments path = path := by
  rw [remove_dot_segments_eq h, walk_plain hp, nil_append, join_segments h]

section

variable {path : List UInt8} (h : path.head? = some SLASH)
include h

lemma segments_remove : segments (remove_dot_segments path) = walk [] (segments path) := by
  rw [remove_dot_segments_eq h]
  refine segments_join (walk_ne_nil (segments_ne_nil path) []) ?_
  exact walk_all (by simp) (fun s hs _ => segments_no_slash hs) (by simp)

/-- No dot segment is left. -/
lemma remove_dot_segments_clean : ∀ s ∈ segments (remove_dot_segments path), Plain s := by
  rw [segments_remove h]
  exact walk_all (by decide) (fun s _ hp => hp) (by simp)

lemma remove_dot_segments_head : (remove_dot_segments path).head? = some SLASH := by
  rw [remove_dot_segments_eq h]
  rcases join_head (walk [] (segments path)) with hj | hj
  · exact hj
  · exact absurd (join_eq_nil.mp hj) (walk_ne_nil (segments_ne_nil path) [])

lemma mem_remove_dot_segments (hc : c ∈ remove_dot_segments path) : c ∈ path := by
  rw [remove_dot_segments_eq h, join, mem_flatMap] at hc
  obtain ⟨s, hs, hc⟩ := hc
  rcases mem_cons.mp hc with rfl | hc
  · exact mem_of_head? h
  have hall : ∀ s ∈ walk [] (segments path), ∀ c ∈ s, c ∈ path := by
    refine walk_all (by simp) ?_ (by simp)
    intro t ht _ c hct
    rw [← join_segments h, join, mem_flatMap]
    exact ⟨t, ht, by simp [hct]⟩
  exact hall s hs c hc

end

/-! ## References -/

structure Ref where
  scheme : Option (List UInt8)
  authority : Option (List UInt8)
  path : List UInt8
  query : Option (List UInt8)

/-- The text up to a mark, and what stands behind it. -/
def cut (mark : UInt8) (s : List UInt8) : List UInt8 × Option (List UInt8) :=
  (s.takeWhile (· ≠ mark), (s.dropWhile (· ≠ mark)).tail?)

def is_alpha (c : UInt8) : Bool := decide (65 ≤ c ∧ c ≤ 90 ∨ 97 ≤ c ∧ c ≤ 122)

def is_scheme_char (c : UInt8) : Bool :=
  is_alpha c || decide (48 ≤ c ∧ c ≤ 57) || c == 43 || c == 45 || c == 46

/-- A letter, and then letters, digits, plus, minus and dot. -/
def is_scheme : List UInt8 → Bool
  | [] => false
  | c :: cs => is_alpha c && cs.all is_scheme_char

/-- The scheme and what comes after it. -/
def cut_scheme (s : List UInt8) : Option (List UInt8) × List UInt8 :=
  match cut COLON s with
  | (name, some rest) => if is_scheme name then (some name, rest) else (none, s)
  | (_, none) => (none, s)

/-- The authority and the path. -/
def cut_authority (s : List UInt8) : Option (List UInt8) × List UInt8 :=
  if [SLASH, SLASH] <+: s then
    (some ((s.drop 2).takeWhile (· ≠ SLASH)), (s.drop 2).dropWhile (· ≠ SLASH))
  else (none, s)

/-- The parts of a reference. The fragment is not part of what is requested. -/
def parse (s : List UInt8) : Ref :=
  let (s, query) := cut QUESTION (cut HASH s).1
  let (scheme, s) := cut_scheme s
  let (authority, path) := cut_authority s
  ⟨scheme, authority, path, query⟩

/-- Behind an authority an empty path stands for the root. -/
def rooted (path : List UInt8) : List UInt8 := if path = [] then [SLASH] else path

/-- All but the last segment of a path. -/
def directory (path : List UInt8) : List UInt8 := (path.reverse.dropWhile (· ≠ SLASH)).reverse

/-- A path and its query as text. -/
def compose (path : List UInt8) (query : Option (List UInt8)) : List UInt8 :=
  path ++ query.elim [] (QUESTION :: ·)

/-- Path and query of the target of section 5.2.2, for a base with an authority whose own path and
query are the text `base`. -/
def resolve (base s : List UInt8) : List UInt8 :=
  let b := cut QUESTION (cut HASH base).1
  let r := parse s
  if r.scheme.isSome || r.authority.isSome then
    compose (if r.authority.isSome then rooted (remove_dot_segments r.path)
      else remove_dot_segments r.path) r.query
  else if r.path = [] then compose b.1 (r.query <|> b.2)
  else if r.path.head? = some SLASH then compose (remove_dot_segments r.path) r.query
  else compose (remove_dot_segments (directory b.1 ++ r.path)) r.query

/-- The text in which scheme, authority and path stand. -/
abbrev front (s : List UInt8) : List UInt8 := (cut QUESTION (cut HASH s).1).1

/-- What becomes of a text that stands behind an authority. -/
def target (text : List UInt8) : List UInt8 :=
  compose (rooted (remove_dot_segments (front text))) (cut QUESTION (cut HASH text).1).2

/-! ## Texts that are their own target -/

/-- A rooted path without dot segments, with its query and without a fragment. -/
@[mk_iff]
structure Clean (text : List UInt8) : Prop where
  root : text.head? = some SLASH
  no_hash : HASH ∉ text
  plain : ∀ s ∈ segments (text.takeWhile (· ≠ QUESTION)), Plain s

instance (text : List UInt8) : Decidable (Clean text) :=
  decidable_of_iff _ (clean_iff text).symm

lemma not_mem_takeWhile (c : UInt8) (s : List UInt8) : c ∉ s.takeWhile (· ≠ c) := by
  intro h
  simpa using mem_takeWhile_imp h

lemma compose_cut (s : List UInt8) : compose (cut QUESTION s).1 (cut QUESTION s).2 = s := by
  have h : s.takeWhile (· ≠ QUESTION) ++ s.dropWhile (· ≠ QUESTION) = s :=
    takeWhile_append_dropWhile
  unfold compose cut
  cases hd : s.dropWhile (· ≠ QUESTION) with
  | nil =>
    rw [hd] at h
    exact h
  | cons c t =>
    have hc : c = QUESTION := by simpa using dropWhile_head hd
    rw [hd, hc] at h
    exact h

lemma head_takeWhile (hs : s.head? = some SLASH) (hc : SLASH ≠ c) :
    (s.takeWhile (· ≠ c)).head? = some SLASH := by
  cases s with
  | nil => cases hs
  | cons x s =>
    cases hs
    simp [hc]

lemma rooted_of_head (h : p.head? = some SLASH) : rooted p = p := by
  unfold rooted
  rw [if_neg]
  rintro rfl
  cases h

lemma Clean.target_eq (h : Clean text) : target text = text := by
  have hh : (cut HASH text).1 = text := takeWhile_of_not_mem h.no_hash
  have hf : front text = (cut QUESTION text).1 := by rw [front, hh]
  have hp : (cut QUESTION text).1.head? = some SLASH := head_takeWhile h.root (by decide)
  unfold target
  rw [hh, hf, remove_dot_segments_plain hp h.plain, rooted_of_head hp, compose_cut]

/-- A target is clean when its path part is. -/
lemma clean_compose {q : Option (List UInt8)} (hp : p.head? = some SLASH)
    (hh : HASH ∉ p) (hq : ∀ t ∈ q, HASH ∉ t) (hm : QUESTION ∉ p) (hs : ∀ s ∈ segments p, Plain s) :
    Clean (compose p q) := by
  have ht : (compose p q).takeWhile (· ≠ QUESTION) = p := by
    unfold compose
    rw [takeWhile_append_not_mem hm]
    cases q <;> simp
  refine ⟨?_, ?_, by rw [ht]; exact hs⟩
  · unfold compose
    cases p with
    | nil => cases hp
    | cons c p => exact hp
  unfold compose
  rw [mem_append]
  rintro (h | h)
  · exact hh h
  cases q with
  | none => cases h
  | some t =>
    rcases mem_cons.mp h with h | h
    · exact absurd h (by decide)
    · exact hq t rfl h

/-- What can stand behind an authority. -/
def Behind (t : List UInt8) : Prop :=
  t = [] ∨ t.head? = some SLASH ∨ t.head? = some QUESTION ∨ t.head? = some HASH

lemma front_root (h : Behind t) : front t = [] ∨ (front t).head? = some SLASH := by
  cases t with
  | nil => exact .inl rfl
  | cons c t =>
    rcases h with h | h | h | h
    · cases h
    · exact .inr (head_takeWhile (head_takeWhile h (by decide)) (by decide))
    · cases h
      exact .inl (by simp [front, cut, show QUESTION ≠ HASH by decide])
    · cases h
      exact .inl (by simp [front, cut])

lemma clean_target (h : Behind text) : Clean (target text) := by
  have hq : ∀ t ∈ (cut QUESTION (cut HASH text).1).2, HASH ∉ t := by
    intro t ht hm
    refine not_mem_takeWhile HASH text ?_
    rw [← compose_cut (text.takeWhile (· ≠ HASH))]
    unfold compose
    rw [mem_append]
    right
    rw [show (cut QUESTION (text.takeWhile (· ≠ HASH))).2 = some t from ht]
    simp [hm]
  unfold target
  rcases front_root h with hr | hr
  · rw [hr]
    exact clean_compose (by decide) (by decide) hq (by decide) (by decide)
  have hh := remove_dot_segments_head hr
  rw [rooted_of_head hh]
  refine clean_compose hh ?_ hq ?_ (remove_dot_segments_clean hr)
  · intro hm
    have := mem_remove_dot_segments hr hm
    exact not_mem_takeWhile HASH text (List.takeWhile_subset _ this)
  · intro hm
    exact not_mem_takeWhile QUESTION _ (mem_remove_dot_segments hr hm)

/-! ## The kinds of references -/

lemma cut_append (h : mark ∉ a) (s : List UInt8) :
    cut mark (a ++ s) = (a ++ (cut mark s).1, (cut mark s).2) := by
  unfold cut
  rw [takeWhile_append_not_mem h, dropWhile_append_not_mem h]

lemma cut_mark (mark : UInt8) (s : List UInt8) : cut mark (mark :: s) = ([], some s) := by
  simp [cut]

lemma cut_starts (mark : UInt8) (s : List UInt8) : (cut mark s).1 <+: s := List.takeWhile_prefix _

lemma front_starts (s : List UInt8) : front s <+: s := (cut_starts _ _).trans (cut_starts _ _)

/-- An authority does not reach into the path, the query or the fragment. -/
structure Authority (a : List UInt8) : Prop where
  slash : SLASH ∉ a
  question : QUESTION ∉ a
  hash : HASH ∉ a

lemma front_behind (h : Behind t) :
    (front t).takeWhile (· ≠ SLASH) = [] ∧ (front t).dropWhile (· ≠ SLASH) = front t := by
  rcases front_root h with hr | hr
  · rw [hr]
    exact ⟨rfl, rfl⟩
  obtain ⟨c, r, he⟩ : ∃ c r, front t = c :: r := by
    refine exists_cons_of_ne_nil ?_
    intro h0
    rw [h0] at hr
    cases hr
  rw [he] at hr ⊢
  cases hr
  simp

/-- A reference with an authority resolves to what stands behind it. -/
lemma resolve_authority {pre : List UInt8} {scheme : Option (List UInt8)}
    (hh : HASH ∉ pre) (hq : QUESTION ∉ pre)
    (hs : ∀ s, cut_scheme (pre ++ SLASH :: SLASH :: s) = (scheme, SLASH :: SLASH :: s))
    (ha : Authority a) (ht : Behind t) (base : List UInt8) :
    resolve base (pre ++ SLASH :: SLASH :: (a ++ t)) = target t := by
  have happ : pre ++ SLASH :: SLASH :: (a ++ t) = (pre ++ [SLASH, SLASH] ++ a) ++ t := by simp
  have h1 : HASH ∉ pre ++ [SLASH, SLASH] ++ a := by
    simp only [mem_append, not_or]
    exact ⟨⟨hh, by decide⟩, ha.hash⟩
  have h2 : QUESTION ∉ pre ++ [SLASH, SLASH] ++ a := by
    simp only [mem_append, not_or]
    exact ⟨⟨hq, by decide⟩, ha.question⟩
  have hsch : cut_scheme (pre ++ [SLASH, SLASH] ++ a ++ front t) =
      (scheme, SLASH :: SLASH :: (a ++ front t)) := by
    simpa using hs (a ++ front t)
  obtain ⟨htw, hdw⟩ := front_behind ht
  have hp : parse (pre ++ SLASH :: SLASH :: (a ++ t)) =
      ⟨scheme, some a, front t, (cut QUESTION (cut HASH t).1).2⟩ := by
    rw [happ]
    simp only [parse, cut_append h1, cut_append h2, hsch, cut_authority]
    rw [if_pos (by simp)]
    simp only [drop_succ_cons, drop_zero]
    rw [takeWhile_append_not_mem ha.slash, dropWhile_append_not_mem ha.slash, htw, hdw, append_nil]
  unfold resolve target
  simp only [hp, Option.isSome_some, Bool.or_true, if_true]

lemma cut_scheme_name {name : List UInt8} (hn : is_scheme name = true) (hc : COLON ∉ name)
    (s : List UInt8) : cut_scheme (name ++ COLON :: s) = (some name, s) := by
  simp only [cut_scheme, cut_append hc, cut_mark, append_nil, hn, if_true]

/-- A text that begins with none of the characters of a scheme has none. -/
lemma cut_scheme_none (h : ∀ c ∈ s.head?, is_alpha c = false) : cut_scheme s = (none, s) := by
  unfold cut_scheme
  cases hc : cut COLON s with
  | mk name rest =>
    have hname : is_scheme name = false := by
      have hp : name <+: s := by
        have := cut_starts COLON s
        rwa [hc] at this
      cases name with
      | nil => rfl
      | cons c name =>
        obtain ⟨t, rfl⟩ := hp
        simp [is_scheme, h c (by simp)]
    cases rest with
    | none => rfl
    | some rest => simp [hname]

lemma resolve_rooted (hr : s.head? = some SLASH)
    (hn : ¬[SLASH, SLASH] <+: s) (base : List UInt8) : resolve base s = target s := by
  have hf : (front s).head? = some SLASH :=
    head_takeWhile (head_takeWhile hr (by decide)) (by decide)
  have hsch : cut_scheme (front s) = (none, front s) := by
    refine cut_scheme_none ?_
    intro c hc
    rw [hf] at hc
    cases hc
    decide
  have hauth : cut_authority (front s) = (none, front s) :=
    if_neg fun h => hn (h.trans (front_starts s))
  have hp : parse s = ⟨none, none, front s, (cut QUESTION (cut HASH s).1).2⟩ := by
    simp only [parse, hsch, hauth]
  have hne : front s ≠ [] := by
    intro h
    rw [h] at hf
    cases hf
  have hrd := rooted_of_head (remove_dot_segments_head hf)
  unfold resolve target
  simp [hp, hne, hf, hrd]

lemma resolve_query {q base : List UInt8} :
    resolve base (QUESTION :: q) = compose (front base) (some (q.takeWhile (· ≠ HASH))) := by
  have hp : parse (QUESTION :: q) = ⟨none, none, [], some (q.takeWhile (· ≠ HASH))⟩ := by
    rfl
  unfold resolve
  simp [hp]

end uaos.rfc3986
