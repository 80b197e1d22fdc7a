import Mathlib.Tactic

/-!
# Files whose accesses may fail

A `Disk` is the content of one file and the outcome of the accesses to come: an access
succeeds, or fails after some of its bytes have been written. A list of outcomes decides
the accesses in turn; behind its end all succeed.

Reads and writes are at offsets. What a read finds after a write: the bytes written
(`slice_overwrite`), or, outside of them, what was there before (`slice_overwrite_of_disjoint`).
-/

/-- The content of a file, and how the accesses to come end: `none` is a success, `some n` a
failure after `n` bytes. -/
structure Disk where
  content : List UInt8
  faults : List (Option ℕ) := []

namespace Disk

open List

section Content

variable {α : Type*}

/-- The `n` symbols at `off`. -/
def slice (l : List α) (off n : ℕ) : List α := (l.drop off).take n

/-- `data` in place of the bytes at `off`; a gap before it is filled with zeros. -/
def overwrite (content : List UInt8) (off : ℕ) (data : List UInt8) : List UInt8 :=
  content.takeD off 0 ++ data ++ content.drop (off + data.length)

theorem getElem?_slice (l : List α) (off n i : ℕ) :
    (slice l off n)[i]? = if i < n then l[off + i]? else none := by
  rw [slice, getElem?_take, getElem?_drop]

theorem slice_take {l : List α} {off n m : ℕ} (h : off + n ≤ m) :
    slice (l.take m) off n = slice l off n := by
  rw [slice, slice, drop_take, take_take, min_eq_left (by omega)]

variable {content data : List UInt8} {off : ℕ}

theorem overwrite_nil (h : off ≤ content.length) : overwrite content off [] = content := by
  rw [overwrite, takeD_eq_take _ h, append_nil]
  exact take_append_drop off content

theorem length_overwrite (h : off + data.length ≤ content.length) :
    (overwrite content off data).length = content.length := by
  simp only [overwrite, length_append, takeD_length, length_drop]
  omega

theorem getElem?_overwrite (h : off + data.length ≤ content.length) (i : ℕ) :
    (overwrite content off data)[i]? =
      if off ≤ i ∧ i < off + data.length then data[i - off]? else content[i]? := by
  have hfront : content.takeD off 0 = content.take off := takeD_eq_take _ (by omega)
  have hlen : (content.take off).length = off := by
    rw [length_take]
    omega
  rw [overwrite, hfront, append_assoc]
  by_cases hi : i < off
  · rw [getElem?_append_left (by omega), getElem?_take_of_lt hi, if_neg (by omega)]
  · rw [getElem?_append_right (by omega), hlen]
    by_cases hin : i < off + data.length
    · rw [getElem?_append_left (by omega), if_pos ⟨by omega, hin⟩]
    · rw [getElem?_append_right (by omega), getElem?_drop, if_neg (by omega)]
      congr 1
      omega

/-- A read finds what was written. -/
theorem slice_overwrite (h : off + data.length ≤ content.length) :
    slice (overwrite content off data) off data.length = data := by
  refine ext_getElem? fun i => ?_
  rw [getElem?_slice, getElem?_overwrite h]
  by_cases hi : i < data.length
  · rw [if_pos hi, if_pos (by omega), Nat.add_sub_cancel_left]
  · rw [if_neg hi, getElem?_eq_none (by omega)]

/-- A read from inside of what was written. -/
theorem slice_slice_overwrite {m i n : ℕ} (h : off + data.length ≤ content.length)
    (hdata : i + n ≤ data.length)
    (hm : i + n ≤ m) : slice (slice (overwrite content off data) off m) i n = slice data i n := by
  refine ext_getElem? fun j => ?_
  rw [getElem?_slice, getElem?_slice, getElem?_slice, getElem?_overwrite h]
  by_cases hj : j < n
  · rw [if_pos hj, if_pos hj, if_pos (by omega), if_pos (by omega), Nat.add_sub_cancel_left]
  · rw [if_neg hj, if_neg hj]

/-- A write leaves alone what it does not touch. -/
theorem slice_overwrite_of_disjoint {off' n : ℕ}
    (h : off + data.length ≤ content.length) (hd : off' + n ≤ off ∨ off + data.length ≤ off') :
    slice (overwrite content off data) off' n = slice content off' n := by
  refine ext_getElem? fun i => ?_
  rw [getElem?_slice, getElem?_slice]
  by_cases hi : i < n
  · rw [if_pos hi, if_pos hi, getElem?_overwrite h, if_neg (by omega)]
  · rw [if_neg hi, if_neg hi]

end Content

/-! ## Accesses -/

variable (d : Disk)

/-- The outcome of the next access. -/
def fault : Option ℕ := d.faults.head?.join

/-- `File.ReadAt`: `n` bytes, or nothing at a fault or past the end. -/
def readAt (off n : ℕ) : Option (List UInt8) × Disk :=
  let next := { d with faults := d.faults.tail }
  match d.fault with
  | some _ => (none, next)
  | none => (if off + n ≤ d.content.length then some (slice d.content off n) else none, next)

/-- `File.WriteAt`: a fault leaves the first bytes written. -/
def writeAt (off : ℕ) (data : List UInt8) : Bool × Disk :=
  match d.fault with
  | some n => (false, ⟨overwrite d.content off (data.take n), d.faults.tail⟩)
  | none => (true, ⟨overwrite d.content off data, d.faults.tail⟩)

/-- `File.Truncate`. -/
def truncate (size : ℕ) : Bool × Disk :=
  match d.fault with
  | some _ => (false, { d with faults := d.faults.tail })
  | none => (true, ⟨d.content.takeD size 0, d.faults.tail⟩)

end Disk
