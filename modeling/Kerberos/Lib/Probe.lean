import Mathlib.Data.List.Basic
import Mathlib.Tactic.Common

/-!
# Probing a file of cells

A list of cells that grows when it is written behind its end, and a search that looks
at pairs of neighbouring cells, one pair after the other, until a pair has room.
`Found` says that the search comes upon a hit: a hit is in the first pair, or both its
cells are occupied and the search of the other pairs comes upon one. A write keeps
what is found unless it is a write to the hit (`Found.write`).
-/

namespace Probe

open List

variable {α : Type*} {hole : α} {cells : List α} {k i : ℕ} {a b : α}

/-- Write a cell. The cells between the end and it become holes. -/
def write (hole : α) (cells : List α) (k : ℕ) (a : α) : List α :=
  if k < cells.length then cells.set k a
  else cells ++ List.replicate (k - cells.length) hole ++ [a]

theorem write_self : (write hole cells k a)[k]? = some a := by
  unfold write
  split
  · rename_i h
    simp [h]
  · rename_i h
    rw [getElem?_append_right (by simp; omega)]
    simp [Nat.add_sub_cancel' (Nat.not_lt.1 h)]

theorem write_of_ne (hne : i ≠ k) (h : cells[i]? = some b) :
    (write hole cells k a)[i]? = some b := by
  have hi : i < cells.length := (List.getElem?_eq_some_iff.1 h).1
  unfold write
  split
  · rw [getElem?_set_ne (Ne.symm hne), h]
  · rw [append_assoc, getElem?_append_left hi, h]

/-- One of the two cells at `k` satisfies `p`. -/
def EitherAt (p : α → Prop) (cells : List α) (k : ℕ) : Prop :=
  ∃ i ∈ [k, k + 1], ∃ a ∈ cells[i]?, p a

/-- Both cells at `k` are there and satisfy `p`. -/
def BothAt (p : α → Prop) (cells : List α) (k : ℕ) : Prop := ∀ i ∈ [k, k + 1], ∃ a ∈ cells[i]?, p a

/-- The search over the pairs at the given positions comes upon a hit. -/
def Found (hit occupied : α → Prop) (cells : List α) : List ℕ → Prop
  | [] => False
  | k :: ks => EitherAt hit cells k ∨ BothAt occupied cells k ∧ Found hit occupied cells ks

variable {hit occupied : α → Prop} {ks : List ℕ} {p : ℕ}

theorem EitherAt.write (h : EitherAt hit cells p) (hk : ∀ b ∈ cells[k]?, ¬ hit b) :
    EitherAt hit (write hole cells k a) p := by
  obtain ⟨i, hi, b, hb, hhit⟩ := h
  have hne : i ≠ k := by
    rintro rfl
    exact hk b hb hhit
  exact ⟨i, hi, b, write_of_ne hne hb, hhit⟩

theorem BothAt.write (h : BothAt occupied cells p) (ha : occupied a) :
    BothAt occupied (write hole cells k a) p := by
  intro i hi
  by_cases hik : i = k
  · exact ⟨a, hik ▸ write_self, ha⟩
  · obtain ⟨b, hb, hocc⟩ := h i hi
    exact ⟨b, write_of_ne hik hb, hocc⟩

/-- **A write keeps what is found**, if it leaves an occupied cell and does not write to
a hit. -/
theorem Found.write (h : Found hit occupied cells ks) (ha : occupied a)
    (hk : ∀ b ∈ cells[k]?, ¬ hit b) : Found hit occupied (write hole cells k a) ks := by
  induction ks with
  | nil => exact h
  | cons p ks ih =>
    rcases h with h | ⟨h, h'⟩
    · exact Or.inl (h.write hk)
    · exact Or.inr ⟨h.write ha, ih h'⟩

end Probe
