import Kerberos.Lib.Text

/-!
# Dates and GeneralizedTime

An instant by its fields in UTC, and its form `YYYYMMDDHHMMSSZ`. The fields of a `DateTime` are
those of a day that exists, so the form determines the instant up to its fraction of a second.

* `parse_format`: an instant with four digits for its year and no fraction reads back.
* `format_parse`: a form that is read is the form of what was read.
-/

namespace Calendar

open Text List

structure Civil where
  year : ℤ
  month : ℕ
  day : ℕ
  hour : ℕ
  minute : ℕ
  second : ℕ
  nanosecond : ℕ
  deriving DecidableEq, Repr

variable (year : ℤ)

def isLeap : Bool := year % 4 = 0 ∧ (year % 100 ≠ 0 ∨ year % 400 = 0)

def daysIn (month : ℕ) : ℕ :=
  if month = 2 then if isLeap year then 29 else 28
  else if month = 4 ∨ month = 6 ∨ month = 9 ∨ month = 11 then 30
  else 31

structure Civil.Valid (c : Civil) : Prop where
  month : 1 ≤ c.month ∧ c.month ≤ 12
  day : 1 ≤ c.day ∧ c.day ≤ daysIn c.year c.month
  hour : c.hour < 24
  minute : c.minute < 60
  second : c.second < 60
  nanosecond : c.nanosecond < 1000000000

instance (c : Civil) : Decidable c.Valid :=
  decidable_of_iff ((1 ≤ c.month ∧ c.month ≤ 12) ∧ (1 ≤ c.day ∧ c.day ≤ daysIn c.year c.month) ∧
    c.hour < 24 ∧ c.minute < 60 ∧ c.second < 60 ∧ c.nanosecond < 1000000000)
    ⟨fun ⟨h₁, h₂, h₃, h₄, h₅, h₆⟩ => ⟨h₁, h₂, h₃, h₄, h₅, h₆⟩,
      fun ⟨h₁, h₂, h₃, h₄, h₅, h₆⟩ => ⟨h₁, h₂, h₃, h₄, h₅, h₆⟩⟩

/-- An instant, as a day that exists and a time of that day. -/
abbrev DateTime := { c : Civil // c.Valid }

/-- The first instant of the year 1. -/
def DateTime.first : DateTime := ⟨⟨1, 1, 1, 0, 0, 0, 0⟩, by decide⟩

/-! ## Numbers of a fixed width -/

/-- The `width` low decimal digits of `n`. -/
def fixed : ℕ → ℕ → List UInt8
  | 0, _ => []
  | width + 1, n => fixed width (n / 10) ++ [digitChar (n % 10)]

@[simp] theorem length_fixed (width n : ℕ) : (fixed width n).length = width := by
  induction width generalizing n with
  | zero => rfl
  | succ width ih => simp [fixed, ih]

variable {c : UInt8}

theorem isDigit_fixed {width n : ℕ} (hc : c ∈ fixed width n) : isDigit c = true := by
  induction width generalizing n with
  | zero => simp [fixed] at hc
  | succ width ih =>
    rw [fixed, mem_append, mem_singleton] at hc
    rcases hc with hc | rfl
    · exact ih hc
    · exact isDigit_digitChar (Nat.mod_lt _ (by norm_num))

theorem digitsValue_concat (s : List UInt8) (c : UInt8) :
    digitsValue (s ++ [c]) = digitsValue s * 10 + digitValue c := by
  simp only [digitsValue, reverse_append, reverse_singleton, singleton_append, map_cons,
    Nat.ofDigits_cons]
  omega

theorem digitsValue_fixed {width n : ℕ} (hn : n < 10 ^ width) :
    digitsValue (fixed width n) = n := by
  induction width generalizing n with
  | zero =>
    rw [pow_zero, Nat.lt_one_iff] at hn
    rw [hn]
    rfl
  | succ width ih =>
    have hdiv : n / 10 < 10 ^ width := by
      omega
    have hdigit := digitChar_toNat (d := n % 10) (Nat.mod_lt _ (by norm_num))
    rw [fixed, digitsValue_concat, ih hdiv, digitValue]
    omega

theorem digitChar_digitValue (hc : isDigit c = true) : digitChar (digitValue c) = c := by
  simp only [isDigit, Bool.and_eq_true, decide_eq_true_eq, UInt8.le_iff_toNat_le] at hc
  apply UInt8.toNat_inj.1
  have hlow : (48 : UInt8).toNat = 48 := rfl
  have hhigh : (57 : UInt8).toNat = 57 := rfl
  rw [digitValue, digitChar_toNat (by omega)]
  omega

theorem digitValue_lt (hc : isDigit c = true) : digitValue c < 10 := by
  simp only [isDigit, Bool.and_eq_true, decide_eq_true_eq, UInt8.le_iff_toNat_le] at hc
  have hhigh : (57 : UInt8).toNat = 57 := rfl
  unfold digitValue
  omega

variable {s : List UInt8}

theorem fixed_digitsValue (hs : s.all isDigit = true) :
    fixed s.length (digitsValue s) = s ∧ digitsValue s < 10 ^ s.length := by
  induction s using reverseRecOn with
  | nil => exact ⟨rfl, by decide⟩
  | append_singleton s c ih =>
    rw [all_append, Bool.and_eq_true, all_cons, all_nil, Bool.and_true] at hs
    obtain ⟨hfixed, hlt⟩ := ih hs.1
    have hdigit := digitValue_lt hs.2
    have hdiv : (digitsValue s * 10 + digitValue c) / 10 = digitsValue s := by omega
    have hmod : (digitsValue s * 10 + digitValue c) % 10 = digitValue c := by omega
    rw [digitsValue_concat, length_append, length_singleton, fixed, hdiv, hmod, hfixed,
      digitChar_digitValue hs.2]
    exact ⟨rfl, by omega⟩

/-! ## GeneralizedTime -/

/-- A number of at least four digits. -/
def atLeastFour (n : ℕ) : List UInt8 := if n < 10000 then fixed 4 n else decimal n

def formatYear : List UInt8 :=
  if year < 0 then 45 :: atLeastFour year.natAbs else atLeastFour year.toNat

/-- The form `YYYYMMDDHHMMSSZ`, without the fraction of a second. -/
def format (c : Civil) : List UInt8 :=
  formatYear c.year ++ fixed 2 c.month ++ fixed 2 c.day ++ fixed 2 c.hour ++ fixed 2 c.minute ++
    fixed 2 c.second ++ [90]

/-- The fields that fourteen digits give. -/
def fields (s : List UInt8) : Civil where
  year := digitsValue (s.take 4)
  month := digitsValue ((s.drop 4).take 2)
  day := digitsValue ((s.drop 6).take 2)
  hour := digitsValue ((s.drop 8).take 2)
  minute := digitsValue ((s.drop 10).take 2)
  second := digitsValue ((s.drop 12).take 2)
  nanosecond := 0

def parse (s : List UInt8) : Option DateTime :=
  if s.length = 15 ∧ s.getLast? = some 90 ∧ s.dropLast.all isDigit then
    if h : (fields s).Valid then some ⟨fields s, h⟩ else none
  else none

/-- The instants of which the form says everything. -/
structure Plain (c : Civil) : Prop where
  year : 0 ≤ c.year ∧ c.year ≤ 9999
  nanosecond : c.nanosecond = 0

theorem daysIn_le (month : ℕ) : daysIn year month ≤ 31 := by
  unfold daysIn
  split_ifs <;> omega

/-- Seven pieces of known lengths are found again in their concatenation. -/
theorem fields_append {y mo d h mi : List UInt8} (hy : y.length = 4) (hmo : mo.length = 2)
    (hd : d.length = 2)
    (hh : h.length = 2) (hmi : mi.length = 2) (hs : s.length = 2) (z : List UInt8) :
    fields (y ++ mo ++ d ++ h ++ mi ++ s ++ z) =
      ⟨digitsValue y, digitsValue mo, digitsValue d, digitsValue h,
      digitsValue mi, digitsValue s, 0⟩ := by
  obtain ⟨y₁, y₂, y₃, y₄, rfl⟩ : ∃ a b c d, y = [a, b, c, d] := by
    rcases y with _ | ⟨a, _ | ⟨b, _ | ⟨c, _ | ⟨d, _ | ⟨e, y⟩⟩⟩⟩⟩ <;> simp at hy
    exact ⟨a, b, c, d, rfl⟩
  obtain ⟨mo₁, mo₂, rfl⟩ := length_eq_two.1 hmo
  obtain ⟨d₁, d₂, rfl⟩ := length_eq_two.1 hd
  obtain ⟨h₁, h₂, rfl⟩ := length_eq_two.1 hh
  obtain ⟨mi₁, mi₂, rfl⟩ := length_eq_two.1 hmi
  obtain ⟨s₁, s₂, rfl⟩ := length_eq_two.1 hs
  rfl

/-- **An instant reads back** if its year has four digits and it has no fraction. -/
theorem parse_format (t : DateTime) (ht : Plain t.1) : parse (format t.1) = some t := by
  obtain ⟨c, hc⟩ := t
  have hyear : ((c.year.toNat : ℕ) : ℤ) = c.year := Int.toNat_of_nonneg ht.year.1
  have hlt : c.year.toNat < 10000 := by
    have hle : c.year ≤ 9999 := ht.year.2
    omega
  have hform : formatYear c.year = fixed 4 c.year.toNat := by
    rw [formatYear, if_neg (by have := ht.year.1; omega), atLeastFour, if_pos hlt]
  have hday : c.day < 100 := by have := daysIn_le c.year c.month; have := hc.day.2; omega
  have hmonth : c.month < 100 := by have := hc.month.2; omega
  have hhour : c.hour < 100 := by have := hc.hour; omega
  have hminute : c.minute < 100 := by have := hc.minute; omega
  have hsecond : c.second < 100 := by have := hc.second; omega
  have hfields : fields (format c) = c := by
    rw [format, hform, fields_append (by simp) (by simp) (by simp) (by simp) (by simp) (by simp),
      digitsValue_fixed hlt, digitsValue_fixed hmonth, digitsValue_fixed hday,
        digitsValue_fixed hhour,
      digitsValue_fixed hminute, digitsValue_fixed hsecond, hyear, ← ht.nanosecond]
  have hshape : (format c).length = 15 ∧ (format c).getLast? = some 90 ∧
      (format c).dropLast.all isDigit := by
    rw [format, hform]
    refine ⟨by simp, by simp, ?_⟩
    rw [dropLast_concat, all_eq_true]
    intro b hb
    simp only [mem_append] at hb
    rcases hb with ((((hb | hb) | hb) | hb) | hb) | hb <;> exact isDigit_fixed hb
  rw [parse, if_pos hshape]
  simp only [hfields, dif_pos hc]

theorem exists_front {n : ℕ} (h : n ≤ s.length) :
    ∃ a b, s = a ++ b ∧ a.length = n ∧ b.length = s.length - n :=
  ⟨s.take n, s.drop n, (take_append_drop n s).symm, length_take_of_le h, length_drop⟩

/-- **What is read has the form it was read from.** -/
theorem format_parse {t : DateTime} (h : parse s = some t) : format t.1 = s ∧ Plain t.1 := by
  unfold parse at h
  split_ifs at h with hshape hvalid
  cases h
  obtain ⟨hlen, hlast, hdigits⟩ := hshape
  obtain ⟨ds, rfl⟩ := getLast?_eq_some_iff.1 hlast
  rw [dropLast_concat] at hdigits
  rw [length_append, length_singleton] at hlen
  obtain ⟨y, r₁, rfl, hy, hr₁⟩ := exists_front (s := ds) (n := 4) (by omega)
  obtain ⟨mo, r₂, rfl, hmo, hr₂⟩ := exists_front (s := r₁) (n := 2) (by omega)
  obtain ⟨d, r₃, rfl, hd, hr₃⟩ := exists_front (s := r₂) (n := 2) (by omega)
  obtain ⟨h, r₄, rfl, hh, hr₄⟩ := exists_front (s := r₃) (n := 2) (by omega)
  obtain ⟨mi, sec, rfl, hmi, hsec⟩ := exists_front (s := r₄) (n := 2) (by omega)
  have hs : sec.length = 2 := by omega
  simp only [all_append, Bool.and_eq_true] at hdigits
  have hfields := fields_append hy hmo hd hh hmi hs [90]
  simp only [← append_assoc] at hfields ⊢
  -- each piece is the number it was read as, in its own width
  have hpiece : ∀ {w : ℕ} {piece : List UInt8}, piece.length = w → piece.all isDigit = true →
      fixed w (digitsValue piece) = piece := by
    rintro w piece rfl hpiece
    exact (fixed_digitsValue hpiece).1
  have hlt : digitsValue y < 10000 := by
    have hyear := (fixed_digitsValue hdigits.1).2
    rwa [hy] at hyear
  rw [hfields]
  refine ⟨?_, ⟨Int.natCast_nonneg _, by dsimp only; omega⟩, rfl⟩
  have hyear : formatYear (digitsValue y) = y := by
    rw [formatYear, if_neg (by omega), Int.toNat_natCast, atLeastFour, if_pos hlt,
      hpiece hy hdigits.1]
  rw [format, hyear, hpiece hmo hdigits.2.1, hpiece hd hdigits.2.2.1, hpiece hh hdigits.2.2.2.1,
    hpiece hmi hdigits.2.2.2.2.1, hpiece hs hdigits.2.2.2.2.2]

end Calendar
