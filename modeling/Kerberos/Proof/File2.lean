import Kerberos.Lib.Probe
import Kerberos.Spec.AP

/-!
# One call of `File2.Store`

`store` writes one record, over an empty or an expired one, at a place where the next
search for the tag finds it; and it reports a tag that the search comes upon.

* `storeAt_replay`: a tag that is found is a replay.
* `storeAt_ok`: what a call that succeeds writes, and where.
-/

namespace Kerberos.RCache

open Probe List

variable {records records' : List Record} {tag : Bytes} {now skew : UInt32} {position : ℕ}
  {available : Option ℕ} {ks : List ℕ}

/-- The record is there, under the tag. -/
def Occupied (r : Record) : Prop := r.timestamp ≠ 0

/-- A record that `store` may write over. -/
def Writable (now skew : UInt32) (r : Record) : Prop :=
  r.timestamp = 0 ∨ expired r.timestamp now skew = true

theorem mem_readRecords {r : Record} :
    r ∈ readRecords records position ↔ ∃ i ∈ [position, position + 1], r ∈ records[i]? := by
  unfold readRecords
  rw [mem_iff_getElem?]
  simp only [getElem?_take, getElem?_drop, mem_cons, not_mem_nil, or_false, exists_eq_or_imp,
    exists_eq_left]
  constructor
  · rintro ⟨i, hi⟩
    split at hi
    · interval_cases i
      · exact Or.inl hi
      · exact Or.inr hi
    · cases hi
  · rintro (h | h)
    · exact ⟨0, by simpa using h⟩
    · exact ⟨1, by simpa using h⟩

theorem bothAt_readRecords (hlen : ¬ (readRecords records position).length < 2)
    (hocc : ∀ r ∈ readRecords records position, Occupied r) : BothAt Occupied records position := by
  have hlen' : position + 1 < records.length := by
    simp only [readRecords, length_take, length_drop] at hlen
    omega
  intro i hi
  have hlt : i < records.length := by
    simp only [mem_cons, not_mem_nil, or_false] at hi
    omega
  have hmem : records[i] ∈ records[i]? := by simp [hlt]
  exact ⟨records[i], hmem, hocc _ (mem_readRecords.2 ⟨i, hi, hmem⟩)⟩

/-! ## The loop over a pair -/

variable {pair : List Record}

theorem scanRecords_replay {r : Record} (hr : r ∈ pair) (hocc : Occupied r)
    (htag : r.tag = tag) : scanRecords tag now skew position pair available = .error .replay := by
  induction pair generalizing position available with
  | nil => cases hr
  | cons r' rest ih =>
    unfold scanRecords
    split
    · rfl
    · rename_i hmiss
      rcases mem_cons.1 hr with rfl | hr
      · exact absurd ⟨hocc, htag⟩ hmiss
      · exact ih hr

variable {slot : Option ℕ}

/-- The position the loop answers with: the one it was given, or the first of the pair
that is writable. -/
theorem scanRecords_ok (h : scanRecords tag now skew position pair available = .ok slot) :
    (∀ k ∈ available, slot = some k) ∧
      (available = none → ∀ k ∈ slot, ∃ i r, pair[i]? = some r ∧ k = position + i ∧
        Writable now skew r) := by
  induction pair generalizing position available with
  | nil =>
    cases h
    exact ⟨fun k hk => hk, by rintro rfl k hk; cases hk⟩
  | cons r rest ih =>
    unfold scanRecords at h
    split at h
    · cases h
    · obtain ⟨h1, h2⟩ := ih h
      constructor
      · intro k hk
        apply h1
        rw [Option.mem_def.1 hk]
        rfl
      · rintro rfl k hk
        split at h1
        · rename_i hw
          have hslot := h1 _ rfl
          rw [hslot] at hk
          cases hk
          exact ⟨0, r, rfl, rfl, hw⟩
        · rename_i hw
          obtain ⟨i, r', hi, rfl, hw'⟩ := h2 (if_neg hw) k hk
          exact ⟨i + 1, r', hi, by omega, hw'⟩

/-- In the file: the position is writable, and it is one of the pair. -/
theorem scanRecords_slot {k : ℕ}
    (h : scanRecords tag now skew position (readRecords records position) none = .ok (some k)) :
    k ∈ [position, position + 1] ∧ ∀ r ∈ records[k]?, Writable now skew r := by
  obtain ⟨i, r, hi, rfl, hw⟩ := (scanRecords_ok h).2 rfl k rfl
  simp only [readRecords, getElem?_take, getElem?_drop] at hi
  split at hi
  · refine ⟨?_, ?_⟩
    · simp only [mem_cons]
      omega
    · intro r' hr'
      rw [hi] at hr'
      cases hr'
      exact hw
  · cases hi

/-! ## The loop over the pairs -/

theorem bothAt_of_not_hasRoom (h : hasRoom (readRecords records position) = false) :
    BothAt Occupied records position := by
  simp only [hasRoom, Bool.or_eq_false_iff, decide_eq_false_iff_not, any_eq_false, beq_iff_eq] at h
  exact bothAt_readRecords h.1 h.2

theorem not_hasRoom_of_bothAt (h : BothAt Occupied records position) :
    hasRoom (readRecords records position) = false := by
  simp only [hasRoom, Bool.or_eq_false_iff, decide_eq_false_iff_not, any_eq_false, beq_iff_eq]
  constructor
  · obtain ⟨r, hr, -⟩ := h (position + 1) (by simp)
    have hlt := (List.getElem?_eq_some_iff.1 hr).1
    simp only [readRecords, length_take, length_drop]
    omega
  · intro r hr
    obtain ⟨i, hi, hri⟩ := mem_readRecords.1 hr
    obtain ⟨r', hr', hocc⟩ := h i hi
    rw [Option.mem_def.1 hri] at hr'
    cases hr'
    exact hocc

theorem length_of_not_hasRoom (h : hasRoom pair = false) : ¬ pair.length < 2 := by
  simp only [hasRoom, Bool.or_eq_false_iff, decide_eq_false_iff_not] at h
  exact h.1

/-- A pair without room: the search goes on. -/
theorem storeAt_full (hfull : hasRoom (readRecords records position) = false)
    (hscan : scanRecords tag now skew position (readRecords records position) available =
      .ok slot) :
    storeAt records tag now skew (position :: ks) available =
      storeAt records tag now skew ks slot := by
  rw [storeAt]
  simp only [hscan, hfull, length_of_not_hasRoom, if_false, Option.or_none, Bool.false_eq_true]

theorem scanRecords_error {e : StoreError}
    (h : scanRecords tag now skew position pair available = .error e) : e = .replay := by
  induction pair generalizing position available with
  | nil => cases h
  | cons r rest ih =>
    unfold scanRecords at h
    split at h
    · cases h; rfl
    · exact ih h

/-- **A tag that is found is a replay.** -/
theorem storeAt_replay {ts : UInt32} (hts : ts ≠ 0)
    (h : Found (· = ⟨tag, ts⟩) Occupied records ks) :
    storeAt records tag now skew ks available = .error .replay := by
  induction ks generalizing available with
  | nil => cases h
  | cons position ks ih =>
    cases hscan : scanRecords tag now skew position (readRecords records position) available with
    | error e =>
      rw [storeAt, scanRecords_error hscan] at *
      simp only [hscan]
    | ok slot =>
      rcases h with ⟨i, hi, r, hr, rfl⟩ | ⟨hboth, h⟩
      · have hmem := mem_readRecords.2 ⟨i, hi, hr⟩
        rw [scanRecords_replay hmem hts rfl] at hscan
        cases hscan
      · rw [storeAt_full (not_hasRoom_of_bothAt hboth) hscan]
        exact ih h

/-- A pair with room that `store` writes to: at the position found so far, or behind
the end of the file. -/
theorem storeAt_room (hroom : hasRoom (readRecords records position) = true)
    (hscan : scanRecords tag now skew position (readRecords records position) available = .ok slot)
    (h : storeAt records tag now skew (position :: ks) available = .ok records') :
    ∃ k, records' = writeRecord records k ⟨tag, now⟩ ∧ (slot = some k ∨ slot = none ∧
      k ∈ [position, position + 1] ∧ records[k]? = none) := by
  rw [storeAt] at h
  simp only [hscan, hroom, if_true] at h
  split at h
  · cases h
  · rename_i k hk
    cases h
    refine ⟨k, rfl, ?_⟩
    cases slot with
    | some a => exact Or.inl hk
    | none =>
      right
      split at hk
      · rename_i hlen
        cases hk
        simp only [readRecords, length_take, length_drop] at hlen ⊢
        refine ⟨trivial, ?_, getElem?_eq_none (by omega)⟩
        simp only [mem_cons]
        omega
      · cases hk

/-- **A call that succeeds** writes the tag with the time it is told, over a record that
is empty or expired, where a search finds it. -/
theorem storeAt_ok (hnow : now ≠ 0) (h : storeAt records tag now skew ks available = .ok records') :
    ∃ k, records' = writeRecord records k ⟨tag, now⟩ ∧ (∀ a ∈ available, k = a) ∧
      (available = none → (∀ r ∈ records[k]?, Writable now skew r) ∧
        Found (· = ⟨tag, now⟩) Occupied records' ks) := by
  induction ks generalizing available with
  | nil => cases h
  | cons position ks ih =>
    cases hscan : scanRecords tag now skew position (readRecords records position) available with
    | error e =>
      rw [storeAt] at h
      simp only [hscan] at h
      cases h
    | ok slot =>
      have hgiven := (scanRecords_ok hscan).1
      -- a position of this pair that is written is found at once
      have here {k : ℕ} (hk : k ∈ [position, position + 1]) :
          Found (· = ⟨tag, now⟩) Occupied (writeRecord records k ⟨tag, now⟩) (position :: ks) :=
        Or.inl ⟨k, hk, _, write_self, rfl⟩
      cases hroom : hasRoom (readRecords records position) with
      | true =>
        obtain ⟨k, rfl, hk⟩ := storeAt_room hroom hscan h
        refine ⟨k, rfl, ?_, ?_⟩
        · intro a ha
          rw [hgiven a ha] at hk
          simpa using symm (hk.resolve_right (by simp))
        · rintro rfl
          rcases hk with rfl | ⟨-, hk, hnone⟩
          · obtain ⟨hk, hw⟩ := scanRecords_slot hscan
            exact ⟨hw, here hk⟩
          · exact ⟨by simp [hnone], here hk⟩
      | false =>
        rw [storeAt_full hroom hscan] at h
        obtain ⟨k, rfl, hslot, hnone⟩ := ih h
        refine ⟨k, rfl, fun a ha => hslot a (hgiven a ha), ?_⟩
        rintro rfl
        cases slot with
        | none =>
          obtain ⟨hw, hfound⟩ := hnone rfl
          exact ⟨hw, Or.inr ⟨(bothAt_of_not_hasRoom hroom).write hnow, hfound⟩⟩
        | some a =>
          obtain rfl := hslot a rfl
          obtain ⟨hk, hw⟩ := scanRecords_slot hscan
          exact ⟨hw, here hk⟩

end Kerberos.RCache
