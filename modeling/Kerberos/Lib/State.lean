import Mathlib.Tactic

/-!
# Programs that keep their state when they fail

Rules for `EStateM`: a program is run step by step (`ok_bind`, `error_bind`), or taken apart
from its outcome (`bind_eq_ok`, `bind_eq_error`).
-/

universe u

namespace EStateM

variable {ε σ α β : Type u} {x : EStateM ε σ α} {f : α → EStateM ε σ β} {s s' : σ}

theorem ok_bind {a : α} (h : x s = .ok a s') : (x >>= f) s = f a s' := by
  show EStateM.bind x f s = _
  rw [EStateM.bind, h]

theorem error_bind {e : ε} (h : x s = .error e s') : (x >>= f) s = .error e s' := by
  show EStateM.bind x f s = _
  rw [EStateM.bind, h]

theorem get_bind {f : σ → EStateM ε σ β} : ((get : EStateM ε σ σ) >>= f) s = f s s := rfl

theorem modify_bind {f : PUnit → EStateM ε σ β} {g : σ → σ} :
    ((modify g : EStateM ε σ PUnit) >>= f) s = f ⟨⟩ (g s) := rfl

theorem bind_eq_ok {b : β} {s'' : σ} :
    (x >>= f) s = .ok b s'' ↔ ∃ a s', x s = .ok a s' ∧ f a s' = .ok b s'' := by
  cases hx : x s with
  | ok a s' => simp [ok_bind hx]
  | error e s' => simp [error_bind hx]

theorem bind_eq_error {e : ε} {s'' : σ} : (x >>= f) s = .error e s'' ↔
      x s = .error e s'' ∨ ∃ a s', x s = .ok a s' ∧ f a s' = .error e s'' := by
  cases hx : x s with
  | ok a s' => simp [ok_bind hx]
  | error e s' => simp [error_bind hx]

/-- The state at the end, whatever the outcome. -/
def Result.state : Result ε σ α → σ
  | .ok _ s => s
  | .error _ s => s

def Result.succeeded : Result ε σ α → Bool
  | .ok _ _ => true
  | .error _ _ => false

theorem Result.eq_error {r : Result ε σ α} (h : r.succeeded = false) :
    ∃ e, r = .error e r.state := by
  cases r with
  | ok a s => cases h
  | error e s => exact ⟨e, rfl⟩

/-- What holds of the state where the first program stops, and still does where the rest stops. -/
theorem state_bind {P : σ → Prop} (hx : P (x s).state)
    (hf : ∀ a s', x s = .ok a s' → P s' → P (f a s').state) :
    P ((x >>= f) s).state := by
  cases h : x s with
  | ok a s' =>
    rw [h] at hx
    rw [ok_bind h]
    exact hf a s' h hx
  | error e s' =>
    rw [h] at hx
    rw [error_bind h]
    exact hx

end EStateM
