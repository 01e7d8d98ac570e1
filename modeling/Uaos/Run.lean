-- Runs of a step function, and the rule that carries an invariant along them.
import Mathlib.Tactic.Lemma
import Mathlib.Data.List.Basic
import Mathlib.Logic.Function.Basic

namespace uaos

variable {σ ι : Type}

/-- The state after the inputs `is`, taken one by one. A step that gives `none`
is a call that never returns. -/
def run (step : σ → ι → Option σ) (s : σ) (is : List ι) : Option σ := is.foldlM step s

/-- Every input of the run meets `ok` in the state that it is taken in. -/
def RunOk (step : σ → ι → Option σ) (ok : σ → ι → Prop) : σ → List ι → Prop
  | _, [] => True
  | s, i :: is => ok s i ∧ ∀ t, step s i = some t → RunOk step ok t is

variable {step : σ → ι → Option σ} {ok : σ → ι → Prop} {is : List ι} {s t : σ} {inv : σ → Prop}

lemma runOk_none {i : ι} (h : step s i = none) :
    ok s i ↔ RunOk step ok s (i :: is) := by simp [RunOk, h]

lemma runOk_some {i : ι} (h : step s i = some t) :
    ok s i ∧ RunOk step ok t is ↔ RunOk step ok s (i :: is) := by simp [RunOk, h]

instance decRunOk [∀ s i, Decidable (ok s i)] : ∀ s is, Decidable (RunOk step ok s is)
  | _, [] => isTrue trivial
  | s, i :: is =>
    match h : step s i with
    | none => decidable_of_iff (ok s i) (runOk_none h)
    | some t =>
      have : Decidable (RunOk step ok t is) := decRunOk t is
      decidable_of_iff (ok s i ∧ RunOk step ok t is) (runOk_some h)

@[simp] lemma run_nil (s : σ) : run step s [] = some s := rfl

@[simp] lemma run_cons (s : σ) (i : ι) (is : List ι) :
    run step s (i :: is) = (step s i).bind (fun t => run step t is) := rfl

/-- What every step keeps, every run keeps, and a run of steps that all return
returns. -/
lemma run_invariant (hstep : ∀ s i, inv s → ok s i → ∃ t, step s i = some t ∧ inv t)
    (h0 : inv s) (hok : RunOk step ok s is) :
    ∃ t, run step s is = some t ∧ inv t := by
  induction is generalizing s with
  | nil => exact ⟨s, rfl, h0⟩
  | cons i is ih =>
    obtain ⟨t, ht, hinv⟩ := hstep s i h0 hok.1
    obtain ⟨u, hu, huinv⟩ := ih hinv (hok.2 t ht)
    exact ⟨u, by simp [ht, hu], huinv⟩

/-- What every step that meets `ok` keeps, every such run that returns keeps. -/
lemma run_ok_keeps (hstep : ∀ s i t, inv s → ok s i → step s i = some t → inv t)
    (h0 : inv s) (hok : RunOk step ok s is)
    (hrun : run step s is = some t) : inv t := by
  induction is generalizing s with
  | nil =>
    cases hrun
    exact h0
  | cons i is ih =>
    rw [run_cons, Option.bind_eq_some_iff] at hrun
    obtain ⟨u, hu, hrun⟩ := hrun
    exact ih (hstep s i u h0 hok.1 hu) (hok.2 u hu) hrun

lemma runOk_true (s : σ) (is : List ι) : RunOk step (fun _ _ => True) s is := by
  induction is generalizing s with
  | nil => trivial
  | cons i is ih => exact ⟨trivial, fun t _ => ih t⟩

/-- What every step keeps, every run that returns keeps. -/
lemma run_keeps (hstep : ∀ s i t, inv s → step s i = some t → inv t)
    (h0 : inv s) (hrun : run step s is = some t) : inv t :=
  run_ok_keeps (fun s i t hs _ ht => hstep s i t hs ht) h0 (runOk_true s is) hrun

/-- A run that returns, with what can be checked of its last state. -/
lemma run_ends {P : σ → Prop} [DecidablePred P]
    (h : (run step s is).any (fun t => decide (P t)) = true) : ∃ t, run step s is =
      some t ∧ P t := by
  generalize hrun : run step s is = r at h
  cases r with
  | none =>
    cases h
  | some t =>
    exact ⟨t, rfl, of_decide_eq_true h⟩

lemma RunOk.append {js : List ι} (h : RunOk step ok s (is ++ js)) :
    RunOk step ok s is ∧ ∀ t, run step s is = some t → RunOk step ok t js := by
  induction is generalizing s with
  | nil =>
    refine ⟨trivial, fun t ht => ?_⟩
    cases ht
    exact h
  | cons i is ih =>
    refine ⟨⟨h.1, fun t ht => (ih (h.2 t ht)).1⟩, fun u hu => ?_⟩
    rw [run_cons, Option.bind_eq_some_iff] at hu
    obtain ⟨t, ht, hu⟩ := hu
    exact (ih (h.2 t ht)).2 u hu

/-! ## Tables that change at one place -/

section update

variable {α β : Type} [DecidableEq α] {a x : α}

/-- What the new entry and the old ones have, every entry has. -/
@[elab_as_elim]
lemma update_holds {f : α → β} {b : β} {motive : β → Prop} (hnew : x = a → motive b)
    (hold : x ≠ a → motive (f x)) : motive (Function.update f a b x) := by
  by_cases hx : x = a
  · rw [hx, Function.update_self]
    exact hnew hx
  · rw [Function.update_of_ne hx]
    exact hold hx

lemma update_some {f : α → Option β} {o : Option β} {b : β} (h : Function.update f a o x = some b) :
    x = a ∧ o = some b ∨ x ≠ a ∧ f x = some b := by
  revert h
  exact update_holds (fun hx h => .inl ⟨hx, h⟩) fun hx h => .inr ⟨hx, h⟩

end update

end uaos
