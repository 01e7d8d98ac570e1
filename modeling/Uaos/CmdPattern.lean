-- The file name patterns of the shell (cmd_internal.h): a match that goes back to the last star
-- only finds every way to fill in the wildcards.
import Uaos.RamTree

namespace uaos.cmd

open List

open ramfs (CStr lower)

/-- Where the match stands. `star` is the pattern behind the last star and the name behind what
the star takes. -/
structure At where
  name : CStr
  pat : CStr
  star : Option (CStr × CStr)

namespace At

/-- The last star takes one more character. -/
def back (a : At) : Option At := a.star.map fun (q, s) => ⟨s.tail, q, some (q, s.tail)⟩

/-- One turn of the loop at the character `c`. The characters are those of `%`, `*`, `#` and `?`. -/
def turn (a : At) (c : UInt8) (n : CStr) : Option At :=
  match a.pat with
  | 37 :: p => some { a with pat := p }
  | 42 :: p => some ⟨a.name, p, some (p, a.name)⟩
  | 35 :: 63 :: p => some ⟨a.name, p, some (p, a.name)⟩
  | 63 :: p => some ⟨n, p, a.star⟩
  | d :: p => if lower d = lower c then some ⟨n, p, a.star⟩ else a.back
  | [] => a.back

end At

/-- Nothing is left but `*`, `#?` and `%`. -/
def trailing : CStr → Bool
  | 42 :: p => trailing p
  | 35 :: 63 :: p => trailing p
  | 37 :: p => trailing p
  | p => p.isEmpty

def At.loop : Nat → At → Option Bool
  | 0, _ => none
  | fuel + 1, a =>
    match a.name with
    | [] => some (trailing a.pat)
    | c :: n =>
      match a.turn c n with
      | none => some false
      | some b => At.loop fuel b

/-- The loop ends: it takes the last star at most once to each character. -/
def cmd_pattern_match (name pat : CStr) : Option Bool :=
  At.loop ((name.length + 2) * (pat.length + 1)) ⟨name, pat, none⟩

/-! ## What a pattern means -/

/-- What stands in a pattern: a character, `?`, `*` or `#?`, and `%`. -/
inductive Item where
  | lit (c : UInt8)
  | one
  | any
  | nothing

def items : CStr → List Item
  | 37 :: p => .nothing :: items p
  | 42 :: p => .any :: items p
  | 35 :: 63 :: p => .any :: items p
  | 63 :: p => .one :: items p
  | c :: p => .lit c :: items p
  | [] => []

/-- The texts that an item stands for. -/
def Item.Fills : Item → CStr → Prop
  | .lit d, w => ∃ c, w = [c] ∧ lower d = lower c
  | .one, w => ∃ c, w = [c]
  | .any, _ => True
  | .nothing, w => w = []

/-- The name is the pattern with a text for each item. -/
def Matches : List Item → CStr → Prop
  | [], n => n = []
  | i :: p, n => ∃ w r, n = w ++ r ∧ i.Fills w ∧ Matches p r

variable {p : List Item} {n : CStr} {c d : UInt8} {a b : At}

@[simp] lemma matches_nothing : Matches (.nothing :: p) n ↔ Matches p n := by
  simp [Matches, Item.Fills]

@[simp] lemma matches_any : Matches (.any :: p) n ↔ ∃ t, t <:+ n ∧ Matches p t := by
  simp only [Matches, Item.Fills, true_and]
  exact ⟨fun ⟨w, r, hn, h⟩ => ⟨r, ⟨w, hn.symm⟩, h⟩, fun ⟨t, ⟨w, hn⟩, h⟩ => ⟨w, t, hn.symm, h⟩⟩

@[simp] lemma matches_one : Matches (.one :: p) n ↔ ∃ t, (∃ c, n = c :: t) ∧ Matches p t := by
  simp [Matches, Item.Fills]

@[simp] lemma matches_lit :
    Matches (.lit d :: p) n ↔ ∃ t c, n = c :: t ∧ lower d = lower c ∧ Matches p t := by
  simp [Matches, Item.Fills]

lemma matches_trailing (p : CStr) : Matches (items p) [] ↔ trailing p = true := by
  fun_induction items p with
  | case6 => simp [trailing, Matches]
  | _ => simp_all [trailing]

/-- The longest end of a text first, and then the shorter ones. -/
lemma exists_suffix {P : CStr → Prop} : (∃ t, t <:+ n ∧ P t) ↔ P n ∨ ∃ t, t <:+ n.tail ∧ P t := by
  cases n with
  | nil => simp
  | cons c n => simp [suffix_cons_iff, or_and_right, exists_or]

namespace At

/-- The name matches from here, or when the last star takes more. -/
def Good (a : At) : Prop :=
  Matches (items a.pat) a.name ∨ ∃ q s, a.star = some (q, s) ∧ ∃ t, t <:+ s.tail ∧
    Matches (items q) t

/-- Whatever the star takes, the pattern behind it reaches the present one. -/
def Safe (k : Nat) (a : At) : Prop :=
  (items a.pat).length ≤ k ∧ ∀ q s, a.star = some (q, s) → (items q).length ≤ k ∧ a.name <:+ s ∧
    ∀ t, t <:+ s → Matches (items q) t → ∃ r, r <:+ a.name ∧ Matches (items a.pat) r

/-- A bound on the turns that are left. -/
def weight (k : Nat) (a : At) : Nat :=
  (a.star.elim (a.name.length + 1) fun qs => qs.2.length) * (k + 1) + (items a.pat).length

/-- A turn that leads to `b`. -/
def Turns (k : Nat) (a b : At) : Prop := b.Safe k ∧ b.weight k < a.weight k ∧ (b.Good ↔ a.Good)

/-- What a turn says about the match. -/
abbrev Leads (k : Nat) (a : At) : Option At → Prop
  | none => ¬ a.Good
  | some b => Turns k a b

variable {k : Nat} {i : Item} {q : CStr}

lemma Safe.back (h : a.Safe k) (hn : a.name = c :: n) (hno : ¬ Matches (items a.pat) a.name) :
    Leads k a a.back := by
  obtain ⟨n, p, star⟩ := a
  cases star with
  | none => simpa [Leads, Good, At.back] using hno
  | some qs =>
    obtain ⟨q, s⟩ := qs
    obtain ⟨hq, hs, -⟩ := h.2 q s rfl
    refine ⟨⟨hq, ?_⟩, ?_, ?_⟩
    · rintro _ _ ⟨⟩
      exact ⟨hq, suffix_rfl, fun t ht hm => ⟨t, ht, hm⟩⟩
    · have hlen := hs.length_le
      rw [hn, length_cons] at hlen
      obtain ⟨m, hm⟩ := one_more hlen
      simp only [weight, Option.elim_some, length_tail, hm, Nat.add_sub_cancel, add_mul]
      omega
    · simp [Good, hno, exists_suffix (n := s.tail)]

/-- A character that the next item stands for. -/
lemma Safe.next (h : a.Safe k) (hn : a.name = c :: n) (hp : items a.pat = i :: items q)
    (hi : ∀ m, Matches (i :: items q) m → ∃ t, (∃ c, m = c :: t) ∧ Matches (items q) t)
    (hc : Matches (items q) n → Matches (i :: items q) (c :: n)) : Turns k a ⟨n, q, a.star⟩ := by
  obtain ⟨name, pat, star⟩ := a
  obtain rfl : name = c :: n := hn
  simp only [Turns, Safe, Good, weight, hp, length_cons] at h ⊢
  refine ⟨⟨Nat.le_of_succ_le h.1, fun q s he => ?_⟩, ?_, or_congr_left ⟨hc, fun hm => ?_⟩⟩
  · obtain ⟨hq, hs, hall⟩ := h.2 q s he
    refine ⟨hq, (suffix_cons c n).trans hs, fun t ht hm => ?_⟩
    obtain ⟨r, hr, hm⟩ := hall t ht hm
    obtain ⟨u, ⟨d, rfl⟩, hu⟩ := hi r hm
    refine ⟨u, ?_, hu⟩
    rcases suffix_cons_iff.mp hr with he | hr
    · rw [(cons.inj he).2]
    · exact (suffix_cons d u).trans hr
  · cases star <;> simp [add_mul]
    omega
  · obtain ⟨t, ⟨d, he⟩, hm⟩ := hi _ hm
    rw [(cons.inj he).2]
    exact hm

/-- A star that takes nothing yet. -/
lemma Safe.any (h : a.Safe k) (hp : items a.pat = .any :: items q) :
    Turns k a ⟨a.name, q, some (q, a.name)⟩ := by
  have hlen := h.1
  rw [hp, length_cons] at hlen
  refine ⟨⟨Nat.le_of_succ_le hlen, ?_⟩, ?_, ?_⟩
  · rintro _ _ ⟨⟩
    exact ⟨Nat.le_of_succ_le hlen, suffix_rfl, fun t ht hm => ⟨t, ht, hm⟩⟩
  · cases hs : a.star with
    | none => simp [weight, hp, hs, add_mul]; omega
    | some qs =>
      have hle := Nat.mul_le_mul_right (k + 1) (h.2 qs.1 qs.2 hs).2.1.length_le
      simp [weight, hp, hs]
      omega
  · have hgood : Good ⟨a.name, q, some (q, a.name)⟩ ↔ Matches (items a.pat) a.name := by
      simp [Good, hp, exists_suffix (n := a.name)]
    rw [hgood]
    refine ⟨.inl, ?_⟩
    rintro (hm | ⟨q, s, he, t, ht, hm⟩)
    · exact hm
    obtain ⟨r, hr, hm⟩ := (h.2 q s he).2.2 t (ht.trans (tail_suffix s)) hm
    rw [hp, matches_any] at hm ⊢
    obtain ⟨t, ht, hm⟩ := hm
    exact ⟨t, ht.trans hr, hm⟩

lemma Safe.turn (h : a.Safe k) (hn : a.name = c :: n) : Leads k a (a.turn c n) := by
  unfold At.turn
  split <;> rename_i hp
  · rename_i q
    have hi : items a.pat = .nothing :: items q := by rw [hp, items]
    refine ⟨⟨?_, ?_⟩, ?_, ?_⟩
    · have := h.1
      rw [hi] at this
      exact Nat.le_of_succ_le this
    · simpa [hi] using h.2
    · simp [weight, hi]
    · simp [Good, hi]
  · exact h.any (by rw [hp, items])
  · exact h.any (by rw [hp, items])
  · refine h.next hn (by rw [hp, items]) (fun m => matches_one.mp) fun hm => ?_
    exact matches_one.mpr ⟨n, ⟨c, rfl⟩, hm⟩
  · rename_i d q h1 h2 h3 h4
    have hi : items a.pat = .lit d :: items q := by
      rw [hp]
      simp [items, *]
    by_cases hd : lower d = lower c
    · simp only [if_pos hd]
      refine h.next hn hi (fun m hm => ?_) fun hm => matches_lit.mpr ⟨n, c, rfl, hd, hm⟩
      obtain ⟨t, c, he, -, hm⟩ := matches_lit.mp hm
      exact ⟨t, ⟨c, he⟩, hm⟩
    · simp only [if_neg hd]
      exact h.back hn (by simp [hi, hn, hd])
  · exact h.back hn (by simp [hp, hn, items, Matches])

lemma Safe.loop {n : Nat} (h : a.Safe k) (hfuel : a.weight k < n) :
    ∃ r, a.loop n = some r ∧ (r = true ↔ a.Good) := by
  induction n generalizing a with
  | zero => cases hfuel
  | succ n ih =>
    unfold At.loop
    cases hn : a.name with
    | nil =>
      refine ⟨_, rfl, (matches_trailing _).symm.trans ⟨fun hm => .inl (hn ▸ hm), ?_⟩⟩
      rintro (hm | ⟨q, s, he, t, ht, hm⟩)
      · exact hn ▸ hm
      obtain ⟨r, hr, hm⟩ := (h.2 q s he).2.2 t (ht.trans (tail_suffix s)) hm
      rw [hn, suffix_nil] at hr
      exact hr ▸ hm
    | cons c n =>
      have hturn := h.turn hn
      dsimp only
      generalize hb : a.turn c n = r at hturn
      cases r with
      | none =>
        exact ⟨false, rfl, by simpa using hturn⟩
      | some b =>
        obtain ⟨hsafe, hlt, hgood⟩ := hturn
        obtain ⟨r, hr, hiff⟩ := ih hsafe (by omega)
        exact ⟨r, hr, hiff.trans hgood⟩

end At

lemma items_length (p : CStr) : (items p).length ≤ p.length := by
  fun_induction items p <;> simp_all
  omega

/-- Every match returns, and gives 1 exactly for the names that the pattern stands for. -/
theorem a_pattern_matches_what_it_stands_for (name pat : CStr) :
    ∃ r, cmd_pattern_match name pat = some r ∧ (r = true ↔ Matches (items pat) name) := by
  have hlen := items_length pat
  have hsafe : At.Safe pat.length ⟨name, pat, none⟩ := ⟨hlen, by simp⟩
  obtain ⟨r, hr, hiff⟩ := hsafe.loop (n := (name.length + 2) * (pat.length + 1)) (by
    simp only [At.weight, Option.elim_none, add_mul]
    omega)
  exact ⟨r, hr, hiff.trans (by simp [At.Good])⟩

end uaos.cmd
