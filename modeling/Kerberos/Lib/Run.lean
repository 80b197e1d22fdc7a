import Mathlib.Tactic

/-!
# Runs of a labelled transition system

`Run step w es w'`: the events `es` lead from `w` to `w'`. A condition on the steps
of a run is a condition on the relation (`Guarded`), so that one rule covers plain
and conditional invariants.

* `Run.invariant`: what every step keeps, every run keeps.
* `Run.append`: a run splits where its events do.
* `AtMostOnce.of_barred`: nothing is accepted twice, if what is accepted is barred from
  then on.

A deterministic system is run by `List.foldl`, and its stages are the folds over the
prefixes of the events (`stages_invariant`, `stages_related`).
-/

namespace Transition

open List

variable {σ ε : Type*} {step : σ → ε → σ → Prop}

/-- The events lead from the first state to the last. -/
inductive Run (step : σ → ε → σ → Prop) : σ → List ε → σ → Prop
  | nil (w : σ) : Run step w [] w
  | cons {w w' w'' : σ} {e : ε} {es : List ε} (h : step w e w') (hr : Run step w' es w'') :
      Run step w (e :: es) w''

/-- The steps that meet a condition. -/
def Guarded (step : σ → ε → σ → Prop) (guard : σ → ε → Prop) (w : σ) (e : ε) (w' : σ) : Prop :=
  step w e w' ∧ guard w e

namespace Run

/-- **Step rule.** What every step keeps, every run keeps. -/
theorem invariant {P : σ → Prop} (hstep : ∀ w e w', P w → step w e w' → P w') {w w' : σ}
    {es : List ε}
    (hr : Run step w es w') (h : P w) : P w' := by
  induction hr with
  | nil => exact h
  | cons hs _ ih => exact ih (hstep _ _ _ h hs)

theorem single {w w' : σ} {e : ε} (h : step w e w') : Run step w [e] w' := .cons h (.nil _)

end Run

/-- No run from `start` accepts a second time. -/
def AtMostOnce (step : σ → ε → σ → Prop) (accepts : σ → ε → Prop) (start : σ) : Prop :=
  ∀ es w e w₁ es' w₂ e' w₃, Run step start es w → step w e w₁ → accepts w e →
    Run step w₁ es' w₂ → step w₂ e' w₃ → ¬ accepts w₂ e'

/-- **Bar rule.** Acceptance bars, a bar stays, and what is barred is not accepted. -/
theorem AtMostOnce.of_barred {accepts : σ → ε → Prop} (Barred : σ → Prop)
    (hset : ∀ w e w', step w e w' → accepts w e → Barred w')
    (hkeep : ∀ w e w', Barred w → step w e w' → Barred w')
    (hbar : ∀ w e w', Barred w → step w e w' → ¬ accepts w e) (start : σ) :
    AtMostOnce step accepts start := by
  intro es w e w₁ es' w₂ e' w₃ _ hs hacc hr hs'
  have hb : Barred w₂ := hr.invariant hkeep (hset _ _ _ hs hacc)
  exact hbar _ _ _ hb hs'

/-! ## Stages of a deterministic run -/

section Stages

variable {next : σ → ε → σ} {start : σ} {es : List ε}

/-- What the steps of this run keep holds at all its stages. -/
theorem stages_invariant {P : σ → Prop} (h : P start)
    (hstep : ∀ done e, done ++ [e] <+: es → P (done.foldl next start) →
      P (next (done.foldl next start) e))
    {done : List ε} (hdone : done <+: es) : P (done.foldl next start) := by
  induction done using reverseRecOn with
  | nil => exact h
  | append_singleton done e ih =>
    rw [foldl_concat]
    exact hstep done e hdone (ih ((prefix_append _ _).trans hdone))

/-- What the steps of this run relate, any earlier and later stages of it are related by. -/
theorem stages_related {R : σ → σ → Prop} (hrefl : ∀ w, R w w)
    (htrans : ∀ a b c, R a b → R b c → R a c)
    (hstep : ∀ done e, done ++ [e] <+: es →
      R (done.foldl next start) (next (done.foldl next start) e))
    {past done : List ε} (hpast : past <+: done) (hdone : done <+: es) :
    R (past.foldl next start) (done.foldl next start) := by
  obtain ⟨rest, rfl⟩ := hpast
  induction rest using reverseRecOn with
  | nil =>
    rw [append_nil]
    exact hrefl _
  | append_singleton rest e ih =>
    rw [← append_assoc] at hdone ⊢
    rw [foldl_concat]
    exact htrans _ _ _ (ih ((prefix_append _ _).trans hdone)) (hstep _ e hdone)

end Stages

end Transition
