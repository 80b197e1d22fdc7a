import Mathlib.Tactic

/-!
# Machine words as bytes

Fixed-width words in either byte order. A word that fits its width reads back
(`ofLE_leBytes`, `ofBE_beBytes`), and bytes are the word they are read as (`beBytes_ofBE`).
-/

namespace Words

open List

/-- The `width` low bytes of `n`, least significant first. -/
def leBytes : ℕ → ℕ → List UInt8
  | 0, _ => []
  | width + 1, n => UInt8.ofNat (n % 256) :: leBytes width (n / 256)

def ofLE : List UInt8 → ℕ
  | [] => 0
  | b :: rest => b.toNat + 256 * ofLE rest

variable (width n : ℕ)

/-- The `width` low bytes of `n`, most significant first. -/
def beBytes : List UInt8 := (leBytes width n).reverse

variable (data : List UInt8)

def ofBE : ℕ := ofLE data.reverse

@[simp]
theorem length_leBytes : (leBytes width n).length = width := by
  induction width generalizing n with
  | zero => rfl
  | succ width ih => simp [leBytes, ih]

@[simp]
theorem length_beBytes : (beBytes width n).length = width := by simp [beBytes]

theorem ofLE_leBytes {width n : ℕ} (hn : n < 256 ^ width) : ofLE (leBytes width n) = n := by
  induction width generalizing n with
  | zero =>
    simp only [pow_zero, Nat.lt_one_iff] at hn
    rw [hn]
    rfl
  | succ width ih =>
    have hrest : n / 256 < 256 ^ width := by
      omega
    have hlow : (UInt8.ofNat (n % 256)).toNat = n % 256 := by
      rw [UInt8.toNat_ofNat']
      omega
    simp only [leBytes, ofLE, ih hrest]
    omega

theorem ofBE_beBytes {width n : ℕ} (hn : n < 256 ^ width) : ofBE (beBytes width n) = n := by
  unfold ofBE beBytes
  rw [reverse_reverse]
  exact ofLE_leBytes hn

theorem ofLE_append (a b : List UInt8) : ofLE (a ++ b) = ofLE a + 256 ^ a.length * ofLE b := by
  induction a with
  | nil => simp [ofLE]
  | cons c a ih =>
    rw [cons_append, ofLE, ih, ofLE, length_cons]
    ring

theorem ofBE_append (a b : List UInt8) : ofBE (a ++ b) = ofBE a * 256 ^ b.length + ofBE b := by
  rw [ofBE, reverse_append, ofLE_append, length_reverse, ← ofBE, ← ofBE]
  ring

theorem ofBE_cons (c : UInt8) (rest : List UInt8) :
    ofBE (c :: rest) = c.toNat * 256 ^ rest.length + ofBE rest := by
  have h := ofBE_append [c] rest
  rwa [show ofBE [c] = c.toNat by simp [ofBE, ofLE]] at h

theorem ofBE_lt : ofBE data < 256 ^ data.length := by
  induction data with
  | nil => decide
  | cons c rest ih =>
    have hc := c.toNat_lt
    rw [ofBE_cons, length_cons, pow_succ]
    nlinarith

theorem ofLE_lt : ofLE data < 256 ^ data.length := by
  have h := ofBE_lt data.reverse
  rwa [ofBE, reverse_reverse, length_reverse] at h

theorem leBytes_ofLE : leBytes data.length (ofLE data) = data := by
  induction data with
  | nil => rfl
  | cons c rest ih =>
    have hc : c.toNat < 256 := c.toNat_lt
    have hmod : (c.toNat + 256 * ofLE rest) % 256 = c.toNat := by omega
    have hdiv : (c.toNat + 256 * ofLE rest) / 256 = ofLE rest := by omega
    rw [length_cons, ofLE, leBytes, hmod, hdiv, ih, UInt8.ofNat_toNat]

theorem beBytes_ofBE : beBytes data.length (ofBE data) = data := by
  rw [beBytes, ofBE, ← length_reverse, leBytes_ofLE, reverse_reverse]

theorem ofBE_inj {a b : List UInt8} (hlen : a.length = b.length) (h : ofBE a = ofBE b) : a = b := by
  rw [← beBytes_ofBE a, hlen, h, beBytes_ofBE]

/-! ## As many octets as it takes -/

/-- The octets of `n`, most significant first, without leading zeros. -/
def octetsBE : List UInt8 := ((Nat.digits 256 n).map UInt8.ofNat).reverse

variable {n}

theorem ofBE_octetsBE (n : ℕ) : ofBE (octetsBE n) = n := by
  induction n using Nat.strong_induction_on with
  | _ n ih =>
    rcases Nat.eq_zero_or_pos n with rfl | hpos
    · rfl
    have hmod : (UInt8.ofNat (n % 256)).toNat = n % 256 :=
      UInt8.toNat_ofNat_of_lt' (Nat.mod_lt _ (by decide))
    have hone : ofBE [UInt8.ofNat (n % 256)] = n % 256 := by simp [ofBE, ofLE, hmod]
    have hrest := ih (n / 256) (Nat.div_lt_self hpos (by decide))
    unfold octetsBE at hrest ⊢
    rw [Nat.digits_def' (by decide) hpos, map_cons, reverse_cons, ofBE_append]
    simp only [length_singleton]
    omega

theorem head_octetsBE (hpos : 0 < n) : (octetsBE n).head? ≠ some 0 := by
  have hne : Nat.digits 256 n ≠ [] := Nat.digits_ne_nil_iff_ne_zero.2 hpos.ne'
  have hlast := Nat.getLast_digit_ne_zero 256 hpos.ne'
  have hlt : (Nat.digits 256 n).getLast hne < 256 :=
    Nat.digits_lt_base (by decide) (getLast_mem hne)
  rw [octetsBE, head?_reverse, getLast?_map, getLast?_eq_some_getLast hne, Option.map_some,
    ne_eq, Option.some.injEq]
  intro hzero
  have hnat := congrArg UInt8.toNat hzero
  rw [UInt8.toNat_ofNat_of_lt' hlt] at hnat
  exact hlast hnat

theorem length_octetsBE_le {k : ℕ} : (octetsBE n).length ≤ k ↔ n < 256 ^ k := by
  simpa [octetsBE] using Nat.digits_length_le_iff (by decide) n

/-- A first octet other than zero needs its place. -/
theorem le_ofBE_cons {a : UInt8} (h : a ≠ 0) (rest : List UInt8) :
    256 ^ rest.length ≤ ofBE (a :: rest) := by
  have ha : 1 ≤ a.toNat := Nat.one_le_iff_ne_zero.2 fun hzero => h (UInt8.toNat_inj.1 hzero)
  have hmul := Nat.mul_le_mul_right (256 ^ rest.length) ha
  rw [ofBE_cons]
  omega

theorem octetsBE_ofBE {data : List UInt8} (hhead : data.head? ≠ some 0) :
    octetsBE (ofBE data) = data := by
  refine ofBE_inj (le_antisymm (length_octetsBE_le.2 (ofBE_lt data)) ?_) (ofBE_octetsBE _)
  cases data with
  | nil => exact Nat.zero_le _
  | cons c rest =>
    by_contra hshort
    rw [length_cons, not_le, Nat.lt_succ_iff, length_octetsBE_le] at hshort
    have hle := le_ofBE_cons (fun hzero => hhead (congrArg some hzero)) rest
    omega

end Words
