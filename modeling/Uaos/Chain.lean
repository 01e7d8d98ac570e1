-- Linked chains: a path of links through a list of cells. The free list of a
-- pool, the children of a directory, the clusters of a file and the entries of
-- a hash slot are all chains, so their proofs share the laws below.
import Mathlib.Tactic.Lemma
import Mathlib.Data.List.Basic
import Mathlib.Data.List.Nodup

namespace uaos.chain

variable {α β : Type}

/-- The links from `a` pass the cells `xs` in order and end at `z`. `ptr x` is
the link that points at the cell `x`, and `next x` is the link that it holds. -/
def Path (ptr next : β → α) : α → List β → α → Prop
  | a, [], z => a = z
  | a, x :: xs, z => a = ptr x ∧ Path ptr next (next x) xs z

variable {ptr next next' : β → α} {a z : α} {x : β} {xs ys : List β}

@[simp] lemma path_nil : Path ptr next a [] z ↔ a = z := Iff.rfl

@[simp] lemma path_cons :
    Path ptr next a (x :: xs) z ↔ a = ptr x ∧ Path ptr next (next x) xs z := Iff.rfl

lemma path_append :
    Path ptr next a (xs ++ ys) z ↔ ∃ m, Path ptr next a xs m ∧ Path ptr next m ys z := by
  induction xs generalizing a with
  | nil => simp
  | cons x xs ih => simp [ih, and_assoc]

/-- A path only reads the links of its own cells. -/
lemma Path.congr (h : Path ptr next a xs z) (hn : ∀ x ∈ xs, next' x = next x) :
    Path ptr next' a xs z := by
  induction xs generalizing a with
  | nil => exact h
  | cons x xs ih =>
    refine ⟨h.1, ?_⟩
    rw [hn x (by simp)]
    exact ih h.2 (fun y hy => hn y (by simp [hy]))

/-- Two paths from one link to an end that is no cell of them pass the same cells. -/
lemma Path.unique (hinj : Function.Injective ptr) (hxs : ∀ x ∈ xs, ptr x ≠ z)
    (hys : ∀ y ∈ ys, ptr y ≠ z) (h : Path ptr next a xs z) (h' : Path ptr next a ys z) :
      xs = ys := by
  induction xs generalizing a ys with
  | nil =>
    cases ys with
    | nil => rfl
    | cons y ys => exact absurd (h'.1.symm.trans h) (hys y (by simp))
  | cons x xs ih =>
    cases ys with
    | nil => exact absurd (h.1.symm.trans h') (hxs x (by simp))
    | cons y ys =>
      have hxy : x = y := hinj (h.1.symm.trans h'.1)
      subst hxy
      rw [ih (fun y hy => hxs y (by simp [hy])) (fun y hy => hys y (by simp [hy])) h.2 h'.2]

/-- A path to an end that is no cell of it never passes a cell twice. -/
lemma Path.nodup (hinj : Function.Injective ptr) (hz : ∀ x ∈ xs, ptr x ≠ z)
    (h : Path ptr next a xs z) : xs.Nodup := by
  induction xs generalizing a with
  | nil => exact List.nodup_nil
  | cons x xs ih =>
    have hz' : ∀ y ∈ xs, ptr y ≠ z := fun y hy => hz y (by simp [hy])
    refine List.nodup_cons.mpr ⟨?_, ih hz' h.2⟩
    intro hx
    -- the tail would start again at `x`, so it would be as long as itself plus a round
    obtain ⟨as, bs, rfl⟩ := List.append_of_mem hx
    obtain ⟨m, _, hm⟩ := path_append.mp h.2
    have htail : Path ptr next (next x) bs z := hm.2
    have hbs : ∀ y ∈ bs, ptr y ≠ z := fun y hy => hz' y (by simp [hy])
    have hlen := congrArg List.length (Path.unique hinj hz' hbs h.2 htail)
    rw [List.length_append, List.length_cons] at hlen
    omega

/-- The last link of a path, changed to `y`, moves the end of the path to `y`. -/
lemma Path.relink [DecidableEq β] {y : α} (h : Path ptr next a (xs ++ [x]) z)
    (hx : x ∉ xs) : Path ptr (Function.update next x y) a (xs ++ [x]) y := by
  obtain ⟨m, h1, h2⟩ := path_append.mp h
  refine path_append.mpr ⟨m, h1.congr ?_, h2.1, by simp⟩
  intro c hc
  have hcx : c ≠ x := fun he => hx (he ▸ hc)
  exact Function.update_of_ne hcx _ _

end uaos.chain
