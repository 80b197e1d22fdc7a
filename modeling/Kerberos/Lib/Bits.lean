import Mathlib.Data.BitVec

/-!
# Edited flag words

`Edit off on old new`: `new` is `old` with some of the bits of `off` cleared and some
of those of `on` set. Edits compose, and leave the bits outside the two masks alone.
-/

namespace Bits

variable {w : ℕ} {off on a b c m : BitVec w}

/-- Every bit gained is in `on`, every bit lost is in `off`. -/
structure Edit (off on old new : BitVec w) : Prop where
  gained : ∀ i, new.getLsbD i = true → old.getLsbD i = true ∨ on.getLsbD i = true
  lost : ∀ i, old.getLsbD i = true → new.getLsbD i = true ∨ off.getLsbD i = true

theorem getLsbD_of_subset (h : m &&& a = m) {i : ℕ} (hi : m.getLsbD i = true) :
    a.getLsbD i = true := by
  rw [← h, BitVec.getLsbD_and, Bool.and_eq_true] at hi
  exact hi.2

theorem Edit.refl (off on a : BitVec w) : Edit off on a a :=
  ⟨fun _ => Or.inl, fun _ => Or.inl⟩

theorem Edit.trans (h : Edit off on a b) (h' : Edit off on b c) : Edit off on a c where
  gained i hi := (h'.gained i hi).elim (h.gained i) Or.inr
  lost i hi := (h.lost i hi).elim (h'.lost i) Or.inr

theorem Edit.clear (h : m &&& off = m) (a : BitVec w) : Edit off on a (a &&& ~~~m) where
  gained i hi := by
    rw [BitVec.getLsbD_and, Bool.and_eq_true] at hi
    exact Or.inl hi.1
  lost i hi := by
    by_cases hm : m.getLsbD i = true
    · exact Or.inr (getLsbD_of_subset h hm)
    · left
      rw [BitVec.getLsbD_and, BitVec.getLsbD_not, hi, Bool.eq_false_of_not_eq_true hm]
      simpa using BitVec.lt_of_getLsbD hi

theorem Edit.set (h : m &&& on = m) (a : BitVec w) : Edit off on a (a ||| m) where
  gained i hi := by
    rw [BitVec.getLsbD_or, Bool.or_eq_true] at hi
    exact hi.imp id (getLsbD_of_subset h)
  lost i hi := Or.inl (by simp [hi])

/-- A bit of `m` is never gained. -/
theorem Edit.and_ne_zero (h : Edit off on a b) (hon : m &&& on = 0#w) (hb : b &&& m ≠ 0#w) :
    a &&& m ≠ 0#w := by
  intro ha
  apply hb
  ext i hi
  have ham : (a &&& m).getLsbD i = false := by rw [ha, BitVec.getLsbD_zero]
  have hom : (m &&& on).getLsbD i = false := by rw [hon, BitVec.getLsbD_zero]
  have hg := h.gained i
  simp only [BitVec.getLsbD_and] at ham hom
  cases hm : m.getLsbD i <;> simp_all

/-- Undoing an edit swaps the masks. -/
theorem Edit.symm (h : Edit off on a b) : Edit on off b a := ⟨h.lost, h.gained⟩

end Bits
