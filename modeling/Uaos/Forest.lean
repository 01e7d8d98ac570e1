-- Forests given by parent links: who stands above a node, and how the links may
-- change so that every node still has a root above it.
import Mathlib.Tactic.Lemma
import Mathlib.Logic.Relation
import Mathlib.Logic.Function.Basic
import Uaos.Chain

namespace uaos.forest

open Function

open uaos.chain

variable {α : Type}

/-- `y` is `x` or stands above it: the parent links lead from `x` to `y`. -/
def Above (parent : α → Option α) : α → α → Prop :=
  Relation.ReflTransGen fun a b => parent a = some b

/-- The links from `x` end: a node without a parent is above it. -/
def Rooted (parent : α → Option α) (x : α) : Prop := ∃ r, Above parent x r ∧ parent r = none

variable {parent parent' : α → Option α} {x y z : α}

lemma Above.step (h : parent x = some y) (hz : Above parent y z) : Above parent x z :=
  Relation.ReflTransGen.head h hz

/-- Nothing but itself stands above a node that is its own parent. -/
lemma Above.of_self (hx : parent x = some x) (h : Above parent x y) : y = x := by
  induction h with
  | refl => rfl
  | tail _ hbc ih =>
    subst ih
    exact Option.some.inj (hbc.symm.trans hx)

/-- Fewer links put fewer nodes above one. -/
lemma Above.mono (h : Above parent' x y) (hsub : ∀ a b, parent' a = some b → parent a = some b) :
    Above parent x y := Relation.ReflTransGen.mono hsub x y h

lemma rooted_of_none (h : parent x = none) : Rooted parent x := ⟨x, .refl, h⟩

lemma Rooted.step (h : parent x = some y) (hy : Rooted parent y) : Rooted parent x := by
  obtain ⟨r, hr, hnone⟩ := hy
  exact ⟨r, hr.step h, hnone⟩

/-- Links that agree on all nodes above `x` give `x` the same root. -/
lemma Rooted.congr (hx : Rooted parent x)
    (h : ∀ y, Above parent x y → parent' y = parent y) : Rooted parent' x := by
  obtain ⟨r, hr, hnone⟩ := hx
  induction hr using Relation.ReflTransGen.head_induction_on with
  | refl => exact rooted_of_none ((h r .refl).trans hnone)
  | head hac _ ih =>
    have hlink := (h _ .refl).trans hac
    exact (ih fun y hy => h y (hy.step hac)).step hlink

/-- The nodes above a rooted node form a line that ends. -/
lemma Rooted.line (hx : Rooted parent x) : ∃ l, Path some parent (some x) l none := by
  obtain ⟨r, hr, hnone⟩ := hx
  induction hr using Relation.ReflTransGen.head_induction_on with
  | refl => exact ⟨[r], rfl, hnone⟩
  | @head a c hac _ ih =>
    obtain ⟨l, hl⟩ := ih
    exact ⟨a :: l, rfl, hac ▸ hl⟩

lemma mem_line_iff {l : List α} (h : Path some parent (some x) l none) :
    y ∈ l ↔ Above parent x y := by
  induction l generalizing x with
  | nil => cases h
  | cons a l ih =>
    obtain ⟨hxa, hrest⟩ := h
    obtain rfl := Option.some.inj hxa
    generalize hp : parent x = r at hrest
    cases r with
    | none =>
      have hl : l = [] := by
        cases l with
        | nil => rfl
        | cons b l => cases hrest.1
      subst hl
      rw [List.mem_singleton]
      refine ⟨fun he => he ▸ .refl, fun hab => ?_⟩
      rcases Relation.ReflTransGen.cases_head hab with rfl | ⟨c, hc, _⟩
      · rfl
      · cases hp.symm.trans hc
    | some p =>
      rw [List.mem_cons, ih hrest]
      constructor
      · rintro (rfl | hab)
        · exact .refl
        · exact hab.step hp
      intro hab
      rcases Relation.ReflTransGen.cases_head hab with rfl | ⟨c, hc, hcy⟩
      · exact .inl rfl
      · obtain rfl := Option.some.inj (hp.symm.trans hc)
        exact .inr hcy

variable [DecidableEq α]

/-- A subtree moved below a node outside of it leaves every node its root. -/
lemma Rooted.move (hx : Rooted parent x) (hy : Rooted parent y) (hout : ¬ Above parent y z) :
    Rooted (Function.update parent z (some y)) x := by
  have hy' : Rooted (Function.update parent z (some y)) y := by
    refine hy.congr ?_
    intro w hw
    have hwz : w ≠ z := fun he => hout (he ▸ hw)
    exact update_of_ne hwz _ _
  obtain ⟨r, hr, hnone⟩ := hx
  induction hr using Relation.ReflTransGen.head_induction_on with
  | refl =>
    by_cases hrz : r = z
    · subst hrz
      exact hy'.step (update_self _ _ _)
    · exact rooted_of_none ((update_of_ne hrz _ _).trans hnone)
  | @head a c hac _ ih =>
    by_cases haz : a = z
    · subst haz
      exact hy'.step (update_self _ _ _)
    · exact ih.step ((update_of_ne haz _ _).trans hac)

end uaos.forest
