import Mathlib.Tactic

/-!
# Strings as runes

What Go's `range` finds in a string of bytes: the UTF-8 encodings at the front, one
after the other, and for a byte that begins none the replacement character, of which
`WriteRune` makes three bytes. A string is `Valid` if writing its runes gives it back.

* `runes_flatten`: a sequence of runes is found again in the bytes it is written as.
* `Valid.runes_append`: behind a valid string the runes begin anew.
* `Valid.of_append_cons`: a valid string may be cut at any ASCII byte.
-/

namespace Runes

open List

/-- The bytes that follow the first one, the range of the next of them given. -/
def follows : ℕ → UInt8 → UInt8 → List UInt8 → Bool
  | 0, _, _, _ => true
  | _ + 1, _, _, [] => false
  | more + 1, low, high, b :: rest => low ≤ b && b ≤ high && follows more 0x80 0xBF rest

/-- What has to follow a first byte that is not ASCII: the number of bytes, and the range of the
first of them. -/
def lead (a : UInt8) : Option (ℕ × UInt8 × UInt8) :=
  if 0xC2 ≤ a ∧ a ≤ 0xDF then some (1, 0x80, 0xBF)
  else if a = 0xE0 then some (2, 0xA0, 0xBF)
  else if a = 0xED then some (2, 0x80, 0x9F)
  else if 0xE1 ≤ a ∧ a ≤ 0xEF then some (2, 0x80, 0xBF)
  else if a = 0xF0 then some (3, 0x90, 0xBF)
  else if 0xF1 ≤ a ∧ a ≤ 0xF3 then some (3, 0x80, 0xBF)
  else if a = 0xF4 then some (3, 0x80, 0x8F)
  else none

/-- The number of bytes of the encoding at the front, if there is one. -/
def width : List UInt8 → Option ℕ
  | [] => none
  | a :: rest =>
    if a < 0x80 then some 1
    else match lead a with
      | none => none
      | some (more, low, high) => if follows more low high rest then some (more + 1) else none

/-- The runes from the place `skip` bytes further on, as `WriteRune` writes them. -/
def runesAfter : ℕ → List UInt8 → List (List UInt8)
  | _, [] => []
  | skip + 1, _ :: rest => runesAfter skip rest
  | 0, a :: rest =>
    match width (a :: rest) with
    | some n => (a :: rest).take n :: runesAfter (n - 1) rest
    | none => [0xEF, 0xBF, 0xBD] :: runesAfter 0 rest

def runes (s : List UInt8) : List (List UInt8) := runesAfter 0 s

/-- One complete encoding. -/
def IsRune (c : List UInt8) : Prop := width c = some c.length

instance (c : List UInt8) : Decidable (IsRune c) := inferInstanceAs (Decidable (_ = _))

def Valid (s : List UInt8) : Prop := (runes s).flatten = s

instance (s : List UInt8) : Decidable (Valid s) := inferInstanceAs (Decidable (_ = _))

/-! ## One rune -/

variable {more : ℕ} {low high : UInt8} {s : List UInt8}

theorem follows_append (h : follows more low high s = true)
    (t : List UInt8) : follows more low high (s ++ t) = true := by
  induction more generalizing low high s with
  | zero => rfl
  | succ more ih =>
    cases s with
    | nil => cases h
    | cons b rest =>
      simp only [follows, Bool.and_eq_true] at h
      simp only [cons_append, follows, Bool.and_eq_true]
      exact ⟨h.1, ih h.2⟩

theorem follows_take (h : follows more low high s = true) :
    more ≤ s.length ∧ follows more low high (s.take more) = true := by
  induction more generalizing low high s with
  | zero => exact ⟨Nat.zero_le _, rfl⟩
  | succ more ih =>
    cases s with
    | nil => cases h
    | cons b rest =>
      simp only [follows, Bool.and_eq_true] at h
      obtain ⟨hlen, hrest⟩ := ih h.2
      refine ⟨Nat.succ_le_succ hlen, ?_⟩
      simp only [take_succ_cons, follows, Bool.and_eq_true]
      exact ⟨h.1, hrest⟩

theorem ge_of_follows (hlow : 0x80 ≤ low)
    (h : follows more low high s = true) {b : UInt8} (hb : b ∈ s.take more) : 0x80 ≤ b := by
  induction more generalizing low high s with
  | zero => simp at hb
  | succ more ih =>
    cases s with
    | nil => cases h
    | cons c rest =>
      simp only [follows, Bool.and_eq_true, decide_eq_true_eq] at h
      rw [take_succ_cons, mem_cons] at hb
      rcases hb with rfl | hb
      · exact UInt8.le_trans hlow h.1.1
      · exact ih (by decide) h.2 hb

variable {a : UInt8}

theorem lead_low (h : lead a = some (more, low, high)) : 0x80 ≤ low := by
  unfold lead at h
  split_ifs at h <;> · cases h; decide

theorem width_ascii (ha : a < 0x80) (rest : List UInt8) : width (a :: rest) = some 1 := by
  rw [width, if_pos ha]

variable {n : ℕ}

/-- An encoding at the front is one ASCII byte, or a first byte and the bytes it calls for. -/
theorem width_some (h : width s = some n) :
    ∃ a rest, s = a :: rest ∧ ((a < 0x80 ∧ n = 1) ∨ (0x80 ≤ a ∧ ∃ more low high,
      lead a = some (more, low, high) ∧ follows more low high rest = true ∧ n = more + 1)) := by
  cases s with
  | nil => cases h
  | cons a rest =>
    refine ⟨a, rest, rfl, ?_⟩
    rw [width] at h
    split_ifs at h with ha
    · exact .inl ⟨ha, (Option.some.inj h).symm⟩
    · refine .inr ⟨UInt8.not_lt.1 ha, ?_⟩
      cases hlead : lead a with
      | none =>
        rw [hlead] at h
        cases h
      | some entry =>
        obtain ⟨more, low, high⟩ := entry
        rw [hlead] at h
        simp only [Option.ite_none_right_eq_some, Option.some.injEq] at h
        exact ⟨more, low, high, rfl, h.1, h.2.symm⟩

theorem width_pos (h : width s = some n) : 0 < n := by
  obtain ⟨_, _, _, ⟨_, rfl⟩ | ⟨_, _, _, _, _, _, rfl⟩⟩ := width_some h <;> omega

/-- What stands behind an encoding does not matter. -/
theorem width_append (h : width s = some n) (t : List UInt8) : width (s ++ t) = some n := by
  obtain ⟨a, rest, rfl, ⟨ha, rfl⟩ | ⟨ha, more, low, high, hlead, hfollows, rfl⟩⟩ := width_some h
  · exact width_ascii ha _
  · rw [cons_append, width, if_neg (UInt8.not_lt.2 ha), hlead]
    simp only [follows_append hfollows, if_true]

/-- The bytes of an encoding are one themselves. -/
theorem isRune_take (h : width s = some n) : n ≤ s.length ∧ IsRune (s.take n) := by
  obtain ⟨a, rest, rfl, ⟨ha, rfl⟩ | ⟨ha, more, low, high, hlead, hfollows, rfl⟩⟩ := width_some h
  · exact ⟨by simp, width_ascii ha _⟩
  · obtain ⟨hlen, htake⟩ := follows_take hfollows
    refine ⟨by simp only [length_cons]; omega, ?_⟩
    unfold IsRune
    rw [take_succ_cons, width, if_neg (UInt8.not_lt.2 ha), hlead]
    simp only [htake, if_true, length_cons, length_take, min_eq_left hlen]

variable {c : List UInt8}

theorem IsRune.ne_nil (h : IsRune c) : c ≠ [] := by
  rintro rfl
  cases h

theorem isRune_ascii (ha : a < 0x80) : IsRune [a] := width_ascii ha []

/-- A rune is an ASCII byte, or has none. -/
theorem IsRune.ascii_or (h : IsRune c) : (∃ a, a < 0x80 ∧ c = [a]) ∨ ∀ b ∈ c, 0x80 ≤ b := by
  obtain ⟨a, rest, rfl, ⟨ha, hlen⟩ | ⟨ha, more, low, high, hlead, hfollows, hlen⟩⟩ := width_some h
  · refine .inl ⟨a, ha, ?_⟩
    rw [length_cons, add_eq_right, length_eq_zero_iff] at hlen
    rw [hlen]
  · refine .inr fun b hb => ?_
    rcases mem_cons.1 hb with rfl | hb
    · exact ha
    · refine ge_of_follows (lead_low hlead) hfollows ?_
      rwa [take_of_length_le (by rw [length_cons] at hlen; omega)]

/-- An ASCII byte in a rune is the whole of it. -/
theorem IsRune.eq_of_mem (h : IsRune c) (ha : a < 0x80) (hmem : a ∈ c) : c = [a] := by
  rcases h.ascii_or with ⟨b, -, rfl⟩ | hge
  · rw [mem_singleton.1 hmem]
  · exact absurd ha (UInt8.not_lt.2 (hge a hmem))

/-! ## Sequences of runes -/

theorem runesAfter_eq_drop (n : ℕ) (s : List UInt8) : runesAfter n s = runes (s.drop n) := by
  induction n generalizing s with
  | zero => rfl
  | succ n ih =>
    cases s with
    | nil => rfl
    | cons a rest => exact ih rest

theorem runes_of_width (h : width s = some n) : runes s = s.take n :: runes (s.drop n) := by
  obtain ⟨a, rest, rfl, -⟩ := width_some h
  obtain ⟨m, rfl⟩ := Nat.exists_eq_add_of_lt (width_pos h)
  rw [runes, runesAfter, h]
  simp only [runesAfter_eq_drop, Nat.add_sub_cancel, drop_succ_cons]

theorem runes_of_not_width {rest : List UInt8} (h : width (a :: rest) = none) :
    runes (a :: rest) = [0xEF, 0xBF, 0xBD] :: runes rest := by
  rw [runes, runesAfter, h]
  rfl

@[simp] theorem runes_nil : runes [] = [] := rfl

theorem runes_append_of_isRune (h : IsRune c) (t : List UInt8) : runes (c ++ t) = c :: runes t := by
  rw [runes_of_width (width_append h t), take_left, drop_left]

theorem runes_cons_ascii (ha : a < 0x80) (t : List UInt8) : runes (a :: t) = [a] :: runes t :=
  runes_append_of_isRune (isRune_ascii ha) t

theorem isRune_of_mem (h : c ∈ runes s) : IsRune c := by
  induction hn : s.length using Nat.strong_induction_on generalizing s with
  | _ n ih =>
    cases s with
    | nil => cases h
    | cons a rest =>
      cases hwidth : width (a :: rest) with
      | none =>
        rw [runes_of_not_width hwidth, mem_cons] at h
        rcases h with rfl | h
        · decide
        · exact ih rest.length (by rw [← hn]; simp) h rfl
      | some m =>
        have hpos := width_pos hwidth
        rw [runes_of_width hwidth, mem_cons] at h
        rcases h with rfl | h
        · exact (isRune_take hwidth).2
        · refine ih ((a :: rest).drop m).length ?_ h rfl
          rw [length_drop, hn]
          rw [length_cons] at hn
          omega

variable {cs : List (List UInt8)}

/-- **Runes are found again** in the bytes they are written as. -/
theorem runes_flatten_append (h : ∀ c ∈ cs, IsRune c) (t : List UInt8) :
    runes (cs.flatten ++ t) = cs ++ runes t := by
  induction cs with
  | nil => rfl
  | cons c cs ih =>
    rw [flatten_cons, append_assoc, runes_append_of_isRune (h c mem_cons_self),
      ih fun d hd => h d (mem_cons_of_mem _ hd), cons_append]

theorem runes_flatten (h : ∀ c ∈ cs, IsRune c) : runes cs.flatten = cs := by
  have hrunes := runes_flatten_append h []
  rwa [append_nil, runes_nil, append_nil] at hrunes

theorem valid_flatten (h : ∀ c ∈ cs, IsRune c) : Valid cs.flatten := by
  rw [Valid, runes_flatten h]

theorem Valid.runes_append (h : Valid s) (t : List UInt8) :
    runes (s ++ t) = runes s ++ runes t := by
  have hmem : ∀ c ∈ runes s, IsRune c := fun c hc => isRune_of_mem hc
  have hrunes := runes_flatten_append hmem t
  rwa [h] at hrunes

theorem valid_nil : Valid [] := rfl

variable {t : List UInt8}

theorem Valid.append (hs : Valid s) (ht : Valid t) : Valid (s ++ t) := by
  rw [Valid, hs.runes_append, flatten_append, hs, ht]

theorem Valid.of_append (hs : Valid s) (h : Valid (s ++ t)) : Valid t := by
  rw [Valid, hs.runes_append, flatten_append, hs] at h
  exact append_cancel_left h

theorem IsRune.valid (h : IsRune c) : Valid c := by
  have hmem : ∀ d ∈ [c], IsRune d := fun d hd => mem_singleton.1 hd ▸ h
  have hvalid := valid_flatten hmem
  rwa [flatten_singleton] at hvalid

/-- A valid string cut at an ASCII byte gives valid strings: no longer encoding has that byte. -/
theorem Valid.of_append_cons (ha : a < 0x80) (h : Valid (s ++ a :: t)) : Valid s ∧ Valid t := by
  have hsplit : ∀ (cs : List (List UInt8)) (s : List UInt8), (∀ c ∈ cs, IsRune c) →
    cs.flatten = s ++ a :: t →
      Valid s ∧ Valid t := by
    intro cs
    induction cs with
    | nil => simp
    | cons c cs ih =>
      intro s hcs heq
      have hc := hcs c mem_cons_self
      have hrest : ∀ d ∈ cs, IsRune d := fun d hd => hcs d (mem_cons_of_mem _ hd)
      rw [flatten_cons, append_eq_append_iff] at heq
      rcases heq with ⟨u, rfl, hu⟩ | ⟨u, rfl, hu⟩
      · -- the first rune ends before the byte
        obtain ⟨hvalid, ht⟩ := ih u hrest hu
        exact ⟨hc.valid.append hvalid, ht⟩
      · cases u with
        | nil =>
          rw [append_nil] at hc
          exact ⟨hc.valid, (ih [] hrest hu.symm).2⟩
        | cons b u =>
          -- the byte is in the first rune, and so is all of it
          obtain ⟨rfl, rfl⟩ := hu
          have heq := hc.eq_of_mem ha (mem_append_right _ mem_cons_self)
          rw [append_eq_singleton_iff] at heq
          rcases heq with ⟨rfl, hu⟩ | ⟨_, hu⟩
          · rw [cons.injEq] at hu
            rw [hu.2]
            exact ⟨valid_nil, valid_flatten hrest⟩
          · cases hu
  exact hsplit (runes (s ++ a :: t)) s (fun c hc => isRune_of_mem hc) h

end Runes
