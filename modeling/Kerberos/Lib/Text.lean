import Mathlib.Data.Nat.Digits.Defs
import Mathlib.Tactic

/-!
# Numbers and octets as text

Decimal numbers, hexadecimal octets and separated fields over ASCII bytes, with the
readers of Go's `strconv` and `encoding/hex`.

* `parseUint_decimal`, `parseInt_formatInt`: a printed number reads back, within
  the range the reader is given.
* `decodeHex_encodeHex`: printed octets read back.
* `fields_joinFields`: fields that are free of the separator are found again.
-/

namespace Text

open List

/-! ## Decimal numbers -/

def digitChar (d : ℕ) : UInt8 := UInt8.ofNat (48 + d)

variable (c : UInt8)

def isDigit : Bool := 48 ≤ c && c ≤ 57

def digitValue : ℕ := c.toNat - 48

/-- `%d` of a natural number. -/
def decimal (n : ℕ) : List UInt8 :=
  if n = 0 then [48] else (Nat.digits 10 n).reverse.map digitChar

/-- `%d` of an integer. -/
def formatInt (z : ℤ) : List UInt8 :=
  if z < 0 then 45 :: decimal z.natAbs else decimal z.toNat

/-- The number a string of digits denotes. -/
def digitsValue (s : List UInt8) : ℕ := Nat.ofDigits 10 (s.reverse.map digitValue)

/-- `strconv.ParseUint` in base ten. -/
def parseUint (bits : ℕ) (s : List UInt8) : Option ℕ :=
  if s = [] ∨ ¬ s.all isDigit ∨ 2 ^ bits ≤ digitsValue s then none else some (digitsValue s)

/-- `strconv.ParseInt` in base ten: one sign may stand in front. -/
def parseInt (bits : ℕ) (s : List UInt8) : Option ℤ :=
  match s with
  | 45 :: rest => (parseUint bits rest).bind fun n => if n ≤ 2 ^ (bits - 1) then some (-n) else none
  | 43 :: rest => (parseUint bits rest).bind fun n => if n < 2 ^ (bits - 1) then some n else none
  | s => (parseUint bits s).bind fun n => if n < 2 ^ (bits - 1) then some n else none

theorem digitChar_toNat {d : ℕ} (hd : d < 10) : (digitChar d).toNat = 48 + d := by
  unfold digitChar
  rw [UInt8.toNat_ofNat']
  omega

theorem isDigit_digitChar {d : ℕ} (hd : d < 10) : isDigit (digitChar d) = true := by
  have h := digitChar_toNat hd
  simp only [isDigit, UInt8.le_iff_toNat_le]
  simp
  omega

theorem decimal_ne_nil (n : ℕ) : decimal n ≠ [] := by
  unfold decimal
  split_ifs with h
  · simp
  · simpa using Nat.digits_ne_nil_iff_ne_zero.2 h

variable {n : ℕ}

theorem isDigit_of_mem_decimal {c : UInt8} (hc : c ∈ decimal n) : isDigit c = true := by
  unfold decimal at hc
  split_ifs at hc with h
  · rw [mem_singleton.1 hc]
    decide
  · obtain ⟨d, hd, rfl⟩ := mem_map.1 hc
    exact isDigit_digitChar (Nat.digits_lt_base (by norm_num) (mem_reverse.1 hd))

theorem digitsValue_decimal (n : ℕ) : digitsValue (decimal n) = n := by
  unfold decimal digitsValue
  split_ifs with h
  · simp [h, digitValue]
  · have hdigits : ∀ d ∈ Nat.digits 10 n, (digitValue ∘ digitChar) d = id d := by
      intro d hd
      have := digitChar_toNat (Nat.digits_lt_base (by norm_num) hd)
      simp only [Function.comp, digitValue, id]
      omega
    rw [← map_reverse, reverse_reverse, map_map, map_congr_left hdigits,
      map_id, Nat.ofDigits_digits]

variable {bits : ℕ}

theorem parseUint_decimal (hn : n < 2 ^ bits) : parseUint bits (decimal n) = some n := by
  have hall : (decimal n).all isDigit = true :=
    all_eq_true.2 fun c hc => isDigit_of_mem_decimal hc
  simp [parseUint, decimal_ne_nil, hall, digitsValue_decimal, hn]

/-- A number printed out of the reader's range is refused. -/
theorem parseUint_decimal_none (hn : 2 ^ bits ≤ n) : parseUint bits (decimal n) = none := by
  simp [parseUint, digitsValue_decimal, hn]

/-- The first digit of a number is not a sign. -/
theorem parseInt_decimal (bits n : ℕ) : parseInt bits (decimal n) =
      (parseUint bits (decimal n)).bind fun n => if n < 2 ^ (bits - 1) then some (n : ℤ)
        else none := by
  have hdigit : ∀ c ∈ decimal n, isDigit c = true := fun c hc => isDigit_of_mem_decimal hc
  cases hs : decimal n with
  | nil => exact absurd hs (decimal_ne_nil n)
  | cons c rest =>
    have hc := hdigit c (by simp [hs])
    unfold parseInt
    split
    · next heq =>
      rw [cons.injEq] at heq
      rw [heq.1] at hc
      exact absurd hc (by decide)
    · next heq =>
      rw [cons.injEq] at heq
      rw [heq.1] at hc
      exact absurd hc (by decide)
    · rfl

theorem parseInt_formatInt {z : ℤ} (hbits : 0 < bits) (hlow : -2 ^ (bits - 1) ≤ z)
    (hhigh : z < 2 ^ (bits - 1)) : parseInt bits (formatInt z) = some z := by
  have hpow : (2 : ℕ) ^ (bits - 1) < 2 ^ bits := Nat.pow_lt_pow_right (by norm_num) (by omega)
  have hcast : ((2 ^ (bits - 1) : ℕ) : ℤ) = 2 ^ (bits - 1) := by push_cast; rfl
  unfold formatInt
  split_ifs with hneg
  · have hle : z.natAbs ≤ 2 ^ (bits - 1) := by omega
    show (parseUint bits (decimal z.natAbs)).bind _ = _
    rw [parseUint_decimal (by omega)]
    simp only [Option.bind_some, if_pos hle, Option.some.injEq]
    omega
  · have hlt : z.toNat < 2 ^ (bits - 1) := by omega
    rw [parseInt_decimal, parseUint_decimal (by omega)]
    simp only [Option.bind_some, if_pos hlt, Option.some.injEq]
    omega

theorem parseInt_decimal_none (hn : 2 ^ (bits - 1) ≤ n) : parseInt bits (decimal n) = none := by
  rw [parseInt_decimal]
  by_cases h : n < 2 ^ bits
  · rw [parseUint_decimal h, Option.bind_some, if_neg (by omega)]
  · rw [parseUint_decimal_none (by omega), Option.bind_none]

theorem length_decimal_le {k : ℕ} (hk : 0 < k) (hn : n < 10 ^ k) : (decimal n).length ≤ k := by
  unfold decimal
  split_ifs
  · exact hk
  · rw [length_map, length_reverse, Nat.digits_length_le_iff (by norm_num)]
    exact hn

theorem length_formatInt_le {z : ℤ} {k : ℕ} (hk : 0 < k) (hz : z.natAbs < 10 ^ k) :
    (formatInt z).length ≤ k + 1 := by
  unfold formatInt
  split_ifs
  · simpa using length_decimal_le hk hz
  · have := length_decimal_le hk (n := z.toNat) (by omega)
    omega

/-! ## Octets -/

def hexDigit (n : ℕ) : UInt8 := UInt8.ofNat (if n < 10 then 48 + n else 87 + n)

variable (data : List UInt8)

/-- `hex.EncodeToString`. -/
def encodeHex : List UInt8 :=
  data.flatMap fun b => [hexDigit (b.toNat / 16), hexDigit (b.toNat % 16)]

/-- The value of a hexadecimal digit of either case. -/
def fromHexChar : Option ℕ :=
  if 48 ≤ c ∧ c ≤ 57 then some (c.toNat - 48)
  else if 97 ≤ c ∧ c ≤ 102 then some (c.toNat - 87)
  else if 65 ≤ c ∧ c ≤ 70 then some (c.toNat - 55)
  else none

/-- `hex.DecodeString`. -/
def decodeHex : List UInt8 → Option (List UInt8)
  | [] => some []
  | [_] => none
  | high :: low :: rest =>
    (fromHexChar high).bind fun h => (fromHexChar low).bind fun l =>
      (decodeHex rest).map (UInt8.ofNat (16 * h + l) :: ·)

theorem fromHexChar_hexDigit : ∀ n < 16, fromHexChar (hexDigit n) = some n := by decide

theorem decodeHex_encodeHex : decodeHex (encodeHex data) = some data := by
  induction data with
  | nil => rfl
  | cons b data ih =>
    have hb : b.toNat < 256 := b.toNat_lt
    have hbyte : UInt8.ofNat (16 * (b.toNat / 16) + b.toNat % 16) = b := by
      rw [Nat.div_add_mod, UInt8.ofNat_toNat]
    show (fromHexChar (hexDigit (b.toNat / 16))).bind _ = _
    rw [fromHexChar_hexDigit _ (by omega), Option.bind_some, fromHexChar_hexDigit _ (by omega),
      Option.bind_some, hbyte]
    exact congrArg (Option.map (b :: ·)) ih

@[simp]
theorem length_encodeHex : (encodeHex data).length = 2 * data.length := by
  induction data with
  | nil => rfl
  | cons b data ih =>
    show (encodeHex data).length + 2 = _
    simp only [ih, length_cons]
    ring

/-! ## Separated fields -/

/-- No byte of the text is one of the separators. -/
def FreeOf (separators s : List UInt8) : Prop := ∀ c ∈ s, c ∉ separators

instance (separators s : List UInt8) : Decidable (FreeOf separators s) :=
  List.decidableBAll (fun c => c ∉ separators) s

variable {separators : List UInt8}

theorem FreeOf.append {s t : List UInt8} (hs : FreeOf separators s)
    (ht : FreeOf separators t) : FreeOf separators (s ++ t) := by
  intro c hc
  rcases mem_append.1 hc with hc | hc
  · exact hs c hc
  · exact ht c hc

theorem FreeOf.of_isDigit {s : List UInt8} (hsep : ∀ c ∈ separators, isDigit c = false)
    (hs : ∀ c ∈ s, isDigit c = true) : FreeOf separators s := by
  intro c hc hmem
  have := hsep c hmem
  rw [hs c hc] at this
  cases this

theorem freeOf_decimal (hsep : ∀ c ∈ separators, isDigit c = false) (n : ℕ) :
    FreeOf separators (decimal n) := .of_isDigit hsep fun _ hc => isDigit_of_mem_decimal hc

theorem freeOf_formatInt (hsep : ∀ c ∈ separators, isDigit c = false)
    (hminus : (45 : UInt8) ∉ separators) (z : ℤ) : FreeOf separators (formatInt z) := by
  unfold formatInt
  split_ifs
  · intro c hc
    rcases mem_cons.1 hc with rfl | hc
    · exact hminus
    · exact freeOf_decimal hsep _ c hc
  · exact freeOf_decimal hsep _

theorem fromHexChar_of_mem_encodeHex {data : List UInt8} {c : UInt8} (hc : c ∈ encodeHex data) :
    fromHexChar c ≠ none := by
  obtain ⟨b, _, hc⟩ := mem_flatMap.1 hc
  have hb : b.toNat < 256 := b.toNat_lt
  rcases mem_pair.1 hc with rfl | rfl
  · rw [fromHexChar_hexDigit _ (by omega)]
    simp
  · rw [fromHexChar_hexDigit _ (by omega)]
    simp

theorem freeOf_encodeHex (hsep : ∀ c ∈ separators, fromHexChar c = none)
    (data : List UInt8) : FreeOf separators (encodeHex data) :=
  fun c hc hmem => fromHexChar_of_mem_encodeHex hc (hsep c hmem)

variable (separator : UInt8) (fields : List (List UInt8))

/-- The fields with the separator between them. -/
def joinFields : List UInt8 :=
  [separator].intercalate fields

/-- `strings.Split`. -/
def splitFields (text : List UInt8) : List (List UInt8) := text.splitOn separator

theorem fields_joinFields {separator : UInt8} {fields : List (List UInt8)} (hne : fields ≠ [])
    (h : ∀ f ∈ fields, separator ∉ f) :
    splitFields separator (joinFields separator fields) = fields :=
  splitOn_intercalate separator h hne

@[simp]
theorem joinFields_cons_cons (f g : List UInt8) (fields : List (List UInt8)) :
    joinFields separator (f :: g :: fields) =
      f ++ separator :: joinFields separator (g :: fields) := by
  simp [joinFields]

@[simp]
theorem joinFields_singleton (f : List UInt8) : joinFields separator [f] = f := by
  simp [joinFields]

/-- The joined text has a separator less than it has fields. -/
theorem length_joinFields :
    (joinFields separator fields).length ≤ (fields.map fun f => f.length + 1).sum := by
  induction fields with
  | nil => simp [joinFields, intercalate]
  | cons f fields ih =>
    cases fields with
    | nil => simp
    | cons g fields =>
      rw [joinFields_cons_cons, map_cons, sum_cons, length_append, length_cons]
      omega

theorem mem_joinFields {separator c : UInt8} {fields : List (List UInt8)}
    (hc : c ∈ joinFields separator fields) : c = separator ∨ ∃ f ∈ fields, c ∈ f := by
  induction fields with
  | nil => simp [joinFields, intercalate] at hc
  | cons f fields ih =>
    cases fields with
    | nil =>
      rw [joinFields_singleton] at hc
      exact .inr ⟨f, by simp, hc⟩
    | cons g fields =>
      rw [joinFields_cons_cons, mem_append, mem_cons] at hc
      rcases hc with hc | hc | hc
      · exact .inr ⟨f, by simp, hc⟩
      · exact .inl hc
      · rcases ih hc with h | ⟨x, hx, hcx⟩
        · exact .inl h
        · exact .inr ⟨x, mem_cons_of_mem _ hx, hcx⟩

theorem getLast?_joinFields (last : List UInt8)
    (h : last ≠ []) : (joinFields separator (fields ++ [last])).getLast? = last.getLast? := by
  induction fields with
  | nil => rw [nil_append, joinFields_singleton]
  | cons f fields ih =>
    rw [cons_append]
    cases hrest : fields ++ [last] with
    | nil => simp at hrest
    | cons g rest =>
      have hne : joinFields separator (g :: rest) ≠ [] := by
        intro hnil
        rw [← hrest] at hnil
        rw [hnil] at ih
        exact h (getLast?_eq_none_iff.1 ih.symm)
      rw [joinFields_cons_cons, getLast?_append, getLast?_cons, ← ih, hrest,
        getLast?_eq_some_getLast hne]
      rfl

end Text
