-- Runs of a step function that gives an output at every step, and the rule that
-- carries a simulation of a specification along them.
import Mathlib.Tactic.Lemma
import Uaos.Run

namespace uaos

variable {σ β ι ο : Type}

/-- The state after the inputs `is`, and the output of each step. -/
def runOut (step : σ → ι → Option (σ × ο)) : σ → List ι → Option (σ × List ο)
  | s, [] => some (s, [])
  | s, i :: is =>
    match step s i with
    | none => none
    | some (t, o) => (runOut step t is).map fun (u, os) => (u, o :: os)

/-- The outputs `os` are those of a run of the specification. -/
def SpecRun (spec : β → ι → ο → β → Prop) : β → List ι → List ο → β → Prop
  | b, [], [], c => b = c
  | b, i :: is, o :: os, c => ∃ b', spec b i o b' ∧ SpecRun spec b' is os c
  | _, _, _, _ => False

/-- When every step that meets `ok` does what the specification does, so does every
run of such steps. -/
lemma run_refines {step : σ → ι → Option (σ × ο)} {ok : σ → ι → Prop}
    {spec : β → ι → ο → β → Prop} {R : σ → β → Prop}
    (hstep : ∀ s b i, R s b → ok s i → ∃ t o c, step s i = some (t, o) ∧ spec b i o c ∧ R t c)
    {s : σ} {b : β} {is : List ι} (h0 : R s b)
    (hok : RunOk (fun s i => (step s i).map Prod.fst) ok s is) :
    ∃ t os c, runOut step s is = some (t, os) ∧ SpecRun spec b is os c ∧ R t c := by
  induction is generalizing s b with
  | nil => exact ⟨s, [], b, rfl, rfl, h0⟩
  | cons i is ih =>
    obtain ⟨t, o, c, hcall, hspec, hR⟩ := hstep s b i h0 hok.1
    obtain ⟨u, os, e, hrun, hrest, hRu⟩ := ih hR (hok.2 t (by simp [hcall]))
    exact ⟨u, o :: os, e, by simp [runOut, hcall, hrun], ⟨c, hspec, hrest⟩, hRu⟩

end uaos
