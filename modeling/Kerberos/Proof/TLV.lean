import Kerberos.Spec.TLV

/-!
# Elements and scalars read and written

Each reader of the codec has two facts: it reads what its writer wrote, and what it reads is
what the writer writes for the result. The second is what makes the encoding unique; the reader of
implicit integers is the one that does not have it.

* `readTLV_ok`: the elements at the front of a byte string.
* `decodeInteger_ok`, `decodeUnsignedInteger_ok`: the numbers of 64 and of 32 bits.
* `decodeFlags_ok`, `parseKerberosTime_ok`.
-/

namespace Kerberos.ASN1

open Words List Except Nat

/-! ## Elements -/

variable {n : ℕ} {data : Bytes}

theorem and_high_iff (b : UInt8) : b &&& 0x80 = 0 ↔ b.toNat < 128 := by
  have h : ∀ n : Fin 256, UInt8.ofFin n &&& 0x80 = 0 ↔ n.val < 128 := by decide +kernel
  exact h b.toFin

/-- The first octet of a long length gives the number of the others. -/
theorem longForm {count : ℕ} (hpos : 0 < count) (hle : count ≤ 4) :
    (0x80 ||| UInt8.ofNat count) &&& 0x80 ≠ 0 ∧
      ((0x80 ||| UInt8.ofNat count) &&& 0x7f).toNat = count := by
  have h : ∀ n : Fin 5, 0 < n.val → (0x80 ||| UInt8.ofNat n.val) &&& 0x80 ≠ 0 ∧
      ((0x80 ||| UInt8.ofNat n.val) &&& 0x7f).toNat = n.val := by decide
  exact h ⟨count, by omega⟩ hpos

/-- A first octet of a long length is the one its count is written with. -/
theorem longForm_eq {first : UInt8} (hhigh : first &&& 0x80 ≠ 0) :
    0x80 ||| UInt8.ofNat (first &&& 0x7f).toNat = first := by
  have h : ∀ n : Fin 256, UInt8.ofFin n &&& 0x80 ≠ 0 →
      0x80 ||| UInt8.ofNat (UInt8.ofFin n &&& 0x7f).toNat = UInt8.ofFin n := by decide +kernel
  exact h first.toFin hhigh

theorem readLength_encodeLength (hn : n < 2 ^ 32) (rest : Bytes) :
    readLength (encodeLength n ++ rest) = .ok (n, (encodeLength n).length) := by
  unfold encodeLength
  split_ifs with hshort
  · have hnat : (UInt8.ofNat n).toNat = n := UInt8.toNat_ofNat_of_lt' (by show n < 256; omega)
    rw [singleton_append, readLength, if_pos ((and_high_iff _).2 (hnat.trans_lt hshort)), hnat]
    rfl
  · have hdigits := ofBE_octetsBE n
    have hhead := head_octetsBE (n := n) (by omega)
    have hle : (octetsBE n).length ≤ 4 := length_octetsBE_le.2 (hn.trans_eq (by norm_num))
    have hpos : 0 < (octetsBE n).length := by
      rw [length_pos_iff]
      intro hnil
      rw [hnil] at hdigits
      exact hshort (by rw [← hdigits]; decide)
    obtain ⟨hhigh, hcount⟩ := longForm hpos hle
    have hbad : ¬ ((octetsBE n).length > 4 ∨ (octetsBE n ++ rest).length < (octetsBE n).length ∨
        (octetsBE n ++ rest).head? = some 0) := by
      rw [head?_append_of_ne_nil _ (length_pos_iff.1 hpos), length_append]
      rintro (hlong | hmissing | hzero)
      · omega
      · omega
      · exact hhead hzero
    rw [cons_append, readLength, if_neg hhigh]
    simp only [hcount, if_neg hpos.ne', if_neg hbad, take_left, hdigits, if_neg hshort, length_cons]

theorem readLength_ok {header : ℕ} (h : readLength data = .ok (n, header)) :
    ∃ rest, data = encodeLength n ++ rest ∧ header = (encodeLength n).length ∧ n < 2 ^ 32 := by
  cases data with
  | nil => cases h
  | cons first rest =>
    rw [readLength] at h
    dsimp only at h
    split_ifs at h with hlow hzero hbad hminimal
    · -- one octet
      obtain ⟨rfl, rfl⟩ := h
      have hlt := (and_high_iff first).1 hlow
      refine ⟨rest, ?_, ?_, by omega⟩
      · rw [encodeLength, if_pos hlt, UInt8.ofNat_toNat, singleton_append]
      · rw [encodeLength, if_pos hlt, length_singleton]
    · obtain ⟨rfl, rfl⟩ := h
      rw [not_or, not_or, not_lt, not_lt] at hbad
      set count := (first &&& 0x7f).toNat with hcount
      have htake : (rest.take count).length = count := length_take_of_le hbad.2.1
      have hhead : (rest.take count).head? ≠ some 0 := by
        rw [head?_take, if_neg hzero]
        exact hbad.2.2
      have hoctets := octetsBE_ofBE hhead
      have hlt : ofBE (rest.take count) < 2 ^ 32 := by
        calc ofBE (rest.take count)
          _ < 256 ^ count := by simpa [htake] using ofBE_lt (rest.take count)
          _ ≤ 256 ^ 4 := Nat.pow_le_pow_right (by decide) (by omega)
      refine ⟨rest.drop count, ?_, ?_, hlt⟩
      · rw [encodeLength, if_neg hminimal, hoctets, htake, longForm_eq hlow, cons_append,
          take_append_drop]
      · rw [encodeLength, if_neg hminimal, hoctets, length_cons, htake]

theorem length_encodeTLV (tag : UInt8) (content : Bytes) :
    (encodeTLV tag content).length = 1 + (encodeLength content.length).length + content.length := by
  simp only [encodeTLV, length_cons, length_append]
  omega

theorem encodeLength_ne_nil (n : ℕ) : encodeLength n ≠ [] := by
  unfold encodeLength
  split_ifs <;> simp

variable {tag : UInt8} {content : Bytes}

theorem readTLV_encodeTLV (h : content.length < 2 ^ 32) (rest : Bytes) :
    readTLV (encodeTLV tag content ++ rest) =
      .ok ⟨tag, content, (encodeTLV tag content).length⟩ := by
  have hread := readLength_encodeLength h (content ++ rest)
  have hlength := length_encodeTLV tag content
  rw [encodeTLV, cons_append, append_assoc]
  obtain ⟨next, octets, hnext⟩ := exists_cons_of_ne_nil (encodeLength_ne_nil content.length)
  rw [hnext, cons_append] at hread ⊢
  rw [readTLV, hread, ok_bind]
  have hroom : ¬ content.length > (tag :: next :: (octets ++ (content ++ rest))).length -
      (next :: octets).length - 1 := by
    simp only [length_cons, length_append]
    omega
  have hcontent : ((next :: (octets ++ (content ++ rest))).drop (next :: octets).length).take
    content.length =
      content := by
    rw [← cons_append, drop_left, take_left]
  simp only [if_neg hroom, hcontent]
  rw [encodeTLV, hnext] at hlength
  rw [hlength]

variable {e : Element}

/-- **The element at the front of a byte string** is what its tag and content are written as. -/
theorem readTLV_ok : readTLV data = .ok e ↔
    ∃ rest, data = encodeTLV e.tag e.content ++ rest ∧ e.size = (encodeTLV e.tag e.content).length ∧
      e.content.length < 2 ^ 32 := by
  constructor
  · intro h
    rcases data with _ | ⟨tag, _ | ⟨next, data⟩⟩
    · cases h
    · cases h
    · rw [readTLV, bind_ok] at h
      obtain ⟨⟨length, header⟩, hlength, h⟩ := h
      obtain ⟨rest, hdata, hheader, hlt⟩ := readLength_ok hlength
      dsimp only at h
      split_ifs at h with hroom
      cases h
      have hle : length ≤ rest.length := by
        have hlen := congrArg List.length hdata
        simp only [length_cons, length_append] at hroom hlen
        omega
      have hcontent : ((next :: data).drop header).take length = rest.take length := by
        rw [hdata, hheader, drop_left]
      have htake : (rest.take length).length = length := length_take_of_le hle
      simp only [hcontent, htake, length_encodeTLV]
      refine ⟨rest.drop length, ?_, by rw [hheader], hlt⟩
      rw [encodeTLV, htake, cons_append, append_assoc, take_append_drop, hdata]
  · rintro ⟨rest, rfl, hsize, hlt⟩
    rw [readTLV_encodeTLV hlt, ← hsize]

theorem readWhole_ok {err : String} : readWhole data err = .ok e ↔
    data = encodeTLV e.tag e.content ∧ e.size = data.length ∧ e.content.length < 2 ^ 32 := by
  rw [readWhole]
  simp only [bind_ok, ensure_ok, ok.injEq, readTLV_ok]
  constructor
  · rintro ⟨e, ⟨rest, rfl, hsize, hlt⟩, _, hwhole, rfl⟩
    rw [hsize, length_append, left_eq_add, length_eq_zero_iff] at hwhole
    rw [hwhole, append_nil]
    exact ⟨rfl, hsize, hlt⟩
  · rintro ⟨hdata, hsize, hlt⟩
    exact ⟨e, ⟨[], by rw [append_nil, hdata], by rw [hsize, hdata], hlt⟩, (), hsize, rfl⟩

theorem readWhole_encodeTLV (h : content.length < 2 ^ 32) (err : String) :
    readWhole (encodeTLV tag content) err = .ok ⟨tag, content, (encodeTLV tag content).length⟩ :=
  readWhole_ok.2 ⟨rfl, rfl, h⟩

variable {content' : Bytes} {tag' : UInt8}

/-- Elements are told apart in what they are written into. -/
theorem encodeTLV_append_inj {rest rest' : Bytes} (h : content.length < 2 ^ 32)
    (h' : content'.length < 2 ^ 32)
    (heq : encodeTLV tag content ++ rest = encodeTLV tag' content' ++ rest') :
    tag = tag' ∧ content = content' ∧ rest = rest' := by
  have hread := @readTLV_encodeTLV tag _ h rest
  rw [heq, readTLV_encodeTLV h'] at hread
  obtain ⟨rfl, rfl, -⟩ := hread
  exact ⟨rfl, rfl, append_cancel_left heq⟩

theorem readTLV_whole (h : content.length < 2 ^ 32) :
    readTLV (encodeTLV tag content) = .ok ⟨tag, content, (encodeTLV tag content).length⟩ := by
  have hread := @readTLV_encodeTLV tag content h []
  rwa [append_nil] at hread

theorem readWhole_of_readTLV (h : readTLV data = .ok e) (hsize : e.size = data.length)
    (err : String) : readWhole data err = .ok e := by
  rw [readWhole, h, ok_bind, ensure_bind hsize]

/-- A longer length takes no fewer octets. -/
theorem length_encodeLength_le {m : ℕ} (h : m ≤ n) :
    (encodeLength m).length ≤ (encodeLength n).length := by
  unfold encodeLength
  have hdigits := le_length_digits_le 256 m n h
  split_ifs
  · exact le_rfl
  · simp
  · omega
  · simpa [octetsBE] using hdigits

theorem length_encodeTLV_le_iff :
    (encodeTLV tag content).length ≤ (encodeTLV tag' content').length ↔
      content.length ≤ content'.length := by
  rw [length_encodeTLV, length_encodeTLV]
  constructor
  · intro h
    by_contra hlt
    have hle := length_encodeLength_le (Nat.le_of_not_le hlt)
    omega
  · intro h
    have hle := length_encodeLength_le h
    omega

theorem encodeTLV_inj (h : encodeTLV tag content = encodeTLV tag' content') :
    tag = tag' ∧ content = content' := by
  have hlength : content.length = content'.length := by
    have hle := length_encodeTLV_le_iff.1 (congrArg length h).le
    have hge := length_encodeTLV_le_iff.1 (congrArg length h).ge
    omega
  rw [encodeTLV, hlength] at h
  obtain ⟨htag, h⟩ := cons.inj h
  exact ⟨htag, append_cancel_left h⟩

/-- Elements of one tag are the same if their contents are. -/
theorem encodeTLV_eq_iff : encodeTLV tag content = encodeTLV tag content' ↔ content = content' :=
  ⟨fun heq => (encodeTLV_inj heq).2, congrArg (encodeTLV tag)⟩

theorem length_lt_encodeTLV : content.length < (encodeTLV tag content).length := by
  rw [length_encodeTLV]
  omega

/-! ## Integers -/

theorem isNegative_iff (b : UInt8) : isNegative b = true ↔ 128 ≤ b.toNat := by
  rw [isNegative, decide_eq_true_iff, ne_eq, and_high_iff, not_lt]

theorem not_isNegative_iff (b : UInt8) : isNegative b = false ↔ b.toNat < 128 := by
  rw [← Bool.not_eq_true, isNegative_iff, not_le]

variable (a b : UInt8)

theorem redundant_iff : redundant a b = true ↔ (a = 0 ∧ isNegative b = false) ∨
    (a = 0xff ∧ isNegative b = true) := by
  simp [redundant]

variable (rest : Bytes)

theorem dropRedundant_cons : dropRedundant (a :: b :: rest) =
    if redundant a b then dropRedundant (b :: rest) else a :: b :: rest := rfl

theorem minimal_cons : minimal (a :: b :: rest) = !redundant a b := rfl

theorem dropRedundant_ne_nil (h : data ≠ []) : dropRedundant data ≠ [] := by
  fun_induction dropRedundant data with
  | case1 a b rest _ ih => exact ih (by simp)
  | case2 a b rest => simp
  | case3 data => exact h

theorem length_dropRedundant (data : Bytes) : (dropRedundant data).length ≤ data.length := by
  fun_induction dropRedundant data with
  | case1 a b rest _ ih => exact ih.trans (le_succ _)
  | case2 a b rest => exact le_rfl
  | case3 data => exact le_rfl

theorem minimal_dropRedundant (data : Bytes) : minimal (dropRedundant data) = true := by
  fun_induction dropRedundant data with
  | case1 a b rest _ ih => exact ih
  | case2 a b rest h =>
    rw [minimal_cons, Bool.not_eq_true']
    exact Bool.not_eq_true _ ▸ h
  | case3 data h =>
    rcases data with _ | ⟨a, _ | ⟨b, rest⟩⟩
    · rfl
    · rfl
    · exact absurd rfl (h a b rest)

theorem dropRedundant_eq_self_iff : dropRedundant data = data ↔ minimal data = true := by
  constructor
  · intro h
    rw [← h]
    exact minimal_dropRedundant data
  · intro h
    rcases data with _ | ⟨a, _ | ⟨b, rest⟩⟩
    · rfl
    · rfl
    · rw [minimal_cons, Bool.not_eq_true'] at h
      rw [dropRedundant_cons, h]
      rfl

theorem signedValue_redundant {a b : UInt8} (h : redundant a b = true) (rest : Bytes) :
    signedValue (a :: b :: rest) = signedValue (b :: rest) := by
  have hvalue : ofBE (a :: b :: rest) = a.toNat * 256 ^ (b :: rest).length + ofBE (b :: rest) :=
    ofBE_cons a _
  rcases (redundant_iff a b).1 h with ⟨rfl, hb⟩ | ⟨rfl, hb⟩
  · simp only [signedValue, headD_cons, hb, hvalue]
    simp [isNegative]
  · simp only [signedValue, headD_cons, hb, hvalue]
    rw [if_pos (by decide), length_cons (a := 0xff)]
    push_cast
    ring

theorem signedValue_dropRedundant (data : Bytes) :
    signedValue (dropRedundant data) = signedValue data := by
  fun_induction dropRedundant data with
  | case1 a b rest h ih => rw [ih, signedValue_redundant h]
  | case2 a b rest => rfl
  | case3 data => rfl

/-- The octet that continues a number in two's complement. -/
def signFill (data : Bytes) : UInt8 := if isNegative (data.headD 0) then 0xff else 0

theorem redundant_signFill {a : UInt8} {rest : Bytes} :
    redundant (signFill (a :: rest)) a = true := by
  rw [redundant_iff, signFill, headD_cons]
  cases h : isNegative a <;> simp

theorem dropRedundant_replicate (k : ℕ) (hne : data ≠ []) :
    dropRedundant (List.replicate k (signFill data) ++ data) = dropRedundant data := by
  obtain ⟨a, rest, rfl⟩ := exists_cons_of_ne_nil hne
  have hfill : ∀ s : UInt8, s = signFill (a :: rest) → redundant s s = true := by
    rintro s rfl
    rw [signFill]
    split_ifs <;> decide
  induction k with
  | zero => rfl
  | succ k ih =>
    cases k with
    | zero =>
      rw [replicate_one, singleton_append, dropRedundant_cons, if_pos redundant_signFill]
    | succ k =>
      rw [replicate_succ, replicate_succ, cons_append, cons_append, dropRedundant_cons,
        if_pos (hfill _ rfl), ← cons_append, ← replicate_succ, ih]

theorem ofBE_replicate_ff (k : ℕ) : ofBE (List.replicate k 0xff) + 1 = 256 ^ k := by
  induction k with
  | zero => rfl
  | succ k ih =>
    rw [replicate_succ, ofBE_cons, length_replicate, add_assoc, ih,
      show (0xff : UInt8).toNat = 255 by rfl]
    ring

theorem ofBE_replicate_zero (k : ℕ) : ofBE (List.replicate k 0) = 0 := by
  induction k with
  | zero => rfl
  | succ k ih => simp [replicate_succ, ofBE_cons, ih]

/-- Eight octets of a number, from fewer. -/
theorem beBytes_signedValue (hlen : data.length ≤ 8) :
    beBytes 8 (signedValue data % 2 ^ 64).toNat =
      List.replicate (8 - data.length) (signFill data) ++ data := by
  have hpow : 256 ^ (8 - data.length) * 256 ^ data.length = 2 ^ 64 := by
    rw [← pow_add, Nat.sub_add_cancel hlen]
    norm_num
  have hlt := ofBE_lt data
  have hff := ofBE_replicate_ff (8 - data.length)
  refine ofBE_inj (by simp; omega) ?_
  rw [ofBE_append, ofBE_beBytes (by norm_num; omega), signedValue, signFill]
  have hcast : (256 : ℤ) ^ data.length = ((256 ^ data.length : ℕ) : ℤ) := by push_cast; rfl
  rw [hcast]
  -- both sides are linear in the two powers
  generalize 256 ^ data.length = p at hpow hlt
  split_ifs
  · rw [← hff, add_mul] at hpow
    omega
  · have hle : p ≤ 2 ^ 64 := by
      rw [← hpow]
      exact Nat.le_mul_of_pos_left p (by positivity)
    rw [ofBE_replicate_zero]
    omega

theorem signedValue_range (a : UInt8) (rest : Bytes) :
    -(128 * 256 ^ rest.length) ≤ signedValue (a :: rest) ∧
      signedValue (a :: rest) < 128 * 256 ^ rest.length := by
  have hrest : (ofBE rest : ℤ) < 256 ^ rest.length := by exact_mod_cast ofBE_lt rest
  have ha : (a.toNat : ℤ) < 256 := by exact_mod_cast a.toNat_lt
  have hvalue : (ofBE (a :: rest) : ℤ) = a.toNat * 256 ^ rest.length + ofBE rest := by
    exact_mod_cast ofBE_cons a rest
  rw [signedValue, length_cons, pow_succ]
  split_ifs with hneg
  · have hhigh : (128 : ℤ) ≤ a.toNat := by exact_mod_cast (isNegative_iff a).1 hneg
    constructor <;> nlinarith
  · have hlow : (a.toNat : ℤ) ≤ 127 := by
      have hlt := (not_isNegative_iff a).1 (Bool.not_eq_true _ ▸ hneg)
      omega
    constructor <;> nlinarith

variable {z : ℤ}

/-- The octets of a number, as many as it fits into. -/
theorem signedValue_beBytes {k : ℕ} (hlow : -(128 * 256 ^ k) ≤ z) (hhigh : z < 128 * 256 ^ k) :
    signedValue (beBytes (k + 1) (z % 256 ^ (k + 1)).toNat) = z := by
  have hmod : z % 256 ^ (k + 1) = if 0 ≤ z then z else z + 256 ^ (k + 1) := by
    split_ifs
    · exact Int.emod_eq_of_lt (by omega) (by omega)
    · rw [← Int.add_emod_right, Int.emod_eq_of_lt (by omega) (by omega)]
  set data := beBytes (k + 1) (z % 256 ^ (k + 1)).toNat with hdata
  have hlength : data.length = k + 1 := length_beBytes (k + 1) _
  have hvalue : (ofBE data : ℤ) = z % 256 ^ (k + 1) := by
    rw [ofBE_beBytes]
    · exact Int.toNat_of_nonneg (Int.emod_nonneg _ (by positivity))
    · zify
      rw [Int.toNat_of_nonneg (Int.emod_nonneg _ (by positivity))]
      exact Int.emod_lt_of_pos _ (by positivity)
  obtain ⟨a, rest, hcons⟩ := exists_cons_of_ne_nil (ne_nil_of_length_eq_add_one hlength)
  have hrange := signedValue_range a rest
  have hrest : rest.length = k := by simpa [hcons] using hlength
  rw [← hcons, hrest, signedValue, hlength] at hrange
  rw [signedValue, hlength]
  split_ifs at hrange ⊢ <;> omega

theorem decodeInteger_ok : decodeInteger data = .ok z ↔
    (data ≠ [] ∧ data.length ≤ 8) ∧ minimal data = true ∧ signedValue data = z := by
  simp only [decodeInteger, bind_ok, ensure_ok, ok.injEq, exists_const]

/-- A number of 64 bits reads back. -/
theorem decodeInteger_encodeInteger (hlow : -2 ^ 63 ≤ z) (hhigh : z < 2 ^ 63) :
    decodeInteger (encodeInteger z) = .ok z := by
  rw [decodeInteger_ok, encodeInteger, signedValue_dropRedundant]
  refine ⟨⟨dropRedundant_ne_nil ?_, ?_⟩, minimal_dropRedundant _, signedValue_beBytes hlow hhigh⟩
  · exact ne_nil_of_length_pos (by rw [length_beBytes]; decide)
  · exact (length_dropRedundant _).trans (length_beBytes 8 _).le

/-- An encoding that is read is the encoding of its number. -/
theorem encodeInteger_of_decode (h : decodeInteger data = .ok z) : encodeInteger z = data := by
  obtain ⟨⟨hne, hlen⟩, hminimal, rfl⟩ := decodeInteger_ok.1 h
  rw [encodeInteger, beBytes_signedValue hlen, dropRedundant_replicate _ hne,
    dropRedundant_eq_self_iff.2 hminimal]

theorem length_encodeInteger_le_four (hlow : -2 ^ 31 ≤ z) (hhigh : z < 2 ^ 31) :
    (encodeInteger z).length ≤ 4 := by
  set data := beBytes 4 (z % 2 ^ 32).toNat
  have hlength : data.length = 4 := length_beBytes 4 _
  have hsigned : signedValue data = z := signedValue_beBytes hlow hhigh
  have hdecode : decodeInteger (dropRedundant data) = .ok z := by
    have hne : data ≠ [] := ne_nil_of_length_eq_add_one hlength
    have hle := length_dropRedundant data
    exact decodeInteger_ok.2 ⟨⟨dropRedundant_ne_nil hne, by omega⟩, minimal_dropRedundant data,
      (signedValue_dropRedundant data).trans hsigned⟩
  rw [encodeInteger_of_decode hdecode]
  exact (length_dropRedundant data).trans hlength.le

theorem signedValue_of_nonneg (h : isNegative (data.headD 0) = false) :
    signedValue data = ofBE data := by
  rw [signedValue, if_neg (by rw [h]; decide)]

theorem signedValue_neg (h : isNegative (data.headD 0) = true) : signedValue data < 0 := by
  have hlt := ofBE_lt data
  rw [signedValue, if_pos h]
  have hcast : (256 : ℤ) ^ data.length = ((256 ^ data.length : ℕ) : ℤ) := by push_cast; rfl
  omega

theorem dropZeros_cons : dropZeros (a :: b :: rest) =
    if a == 0 then dropZeros (b :: rest) else a :: b :: rest := rfl

/-- Leading zeros dropped, and one put back before a sign bit. -/
theorem dropZeros_eq (h : isNegative (data.headD 0) = false) :
    (if isNegative ((dropZeros data).headD 0) then 0 :: dropZeros data else dropZeros data) =
      dropRedundant data := by
  induction data with
  | nil => rfl
  | cons a data ih =>
    rw [headD_cons] at h
    cases data with
    | nil =>
      change (if isNegative a then [0, a] else [a]) = [a]
      rw [h]
      rfl
    | cons b rest =>
      rw [dropZeros_cons, dropRedundant_cons]
      by_cases ha : a = 0
      · subst ha
        cases hb : isNegative b with
        | false =>
          rw [if_pos (redundant_iff _ _ |>.2 (.inl ⟨rfl, hb⟩)), ← ih hb]
          rfl
        | true =>
          have hne : (b == 0) = false := by
            rw [beq_eq_false_iff_ne]
            rintro rfl
            exact absurd hb (by decide)
          have hdrop : dropZeros (b :: rest) = b :: rest := by
            cases rest with
            | nil => rfl
            | cons c rest => rw [dropZeros_cons, hne]; rfl
          have hred : redundant 0 b = false := by simp [redundant, hb]
          simp only [hred, beq_self_eq_true, if_true, hdrop, headD_cons, hb]
          rfl
      · have hred : redundant a b = false := by
          rw [← Bool.not_eq_true, redundant_iff]
          rintro (⟨rfl, -⟩ | ⟨rfl, -⟩)
          · exact ha rfl
          · exact absurd h (by decide)
        rw [beq_eq_false_iff_ne.2 ha, hred]
        simp [h]

theorem encodeUnsignedInteger_eq (hn : n < 2 ^ 63) : encodeUnsignedInteger n = encodeInteger n := by
  have hmod : ((n : ℤ) % 2 ^ 64).toNat = n := by
    omega
  have hvalue : signedValue (beBytes 8 ((n : ℤ) % 2 ^ 64).toNat) = n :=
    signedValue_beBytes (by omega) (by norm_num; omega)
  have hneg : isNegative ((beBytes 8 n).headD 0) = false := by
    rw [← Bool.not_eq_true]
    intro hneg
    have hneg := signedValue_neg hneg
    rw [hmod] at hvalue
    omega
  rw [encodeInteger, hmod, ← dropZeros_eq hneg]
  rfl

/-- The number of a minimal encoding has as many octets as it needs. -/
theorem le_ofBE_of_minimal {k : ℕ} (hminimal : minimal data = true)
    (h : isNegative (data.headD 0) = false) (hlen : k + 2 ≤ data.length) :
    128 * 256 ^ k ≤ ofBE data := by
  rcases data with _ | ⟨a, _ | ⟨b, rest⟩⟩
  · simp at hlen
  · simp at hlen
  · rw [minimal_cons, Bool.not_eq_true', ← Bool.not_eq_true, redundant_iff, not_or] at hminimal
    rw [length_cons, length_cons] at hlen
    have hpow : 256 ^ k ≤ 256 ^ rest.length := Nat.pow_le_pow_right (by decide) (by omega)
    by_cases ha : a = 0
    · have hb : 128 ≤ b.toNat := by
        rw [← isNegative_iff, ← Bool.not_eq_false]
        exact fun hb => hminimal.1 ⟨ha, hb⟩
      have hmul := mul_le_mul hb hpow
      rw [ofBE_cons, ofBE_cons]
      omega
    · have hle := le_ofBE_cons ha (b :: rest)
      rw [length_cons] at hle
      omega

theorem minimal_iff (h : isNegative (data.headD 0) = false) : minimal data = true ↔
    ¬ (data.length > 1 ∧ data.head? = some 0 ∧ isNegative (data.tail.headD 0) = false) := by
  rcases data with _ | ⟨a, _ | ⟨b, rest⟩⟩
  · simp [minimal]
  · simp [minimal]
  · have ha : a ≠ 0xff := by
      rintro rfl
      exact absurd h (show ¬ isNegative 0xff = false by decide)
    simp [minimal_cons, redundant, ha, imp_iff_not_or]

theorem lt_of_octets (hminimal : minimal data = true) (h : isNegative (data.headD 0) = false) :
    ofBE data < 2 ^ 32 ↔ data.length ≤ 5 ∧ ¬ (data.length = 5 ∧ data.head? ≠ some 0) := by
  have hlt := ofBE_lt data
  constructor
  · intro hvalue
    refine ⟨?_, ?_⟩
    · by_contra hlong
      have hle := le_ofBE_of_minimal (k := 4) hminimal h (by omega)
      omega
    · rintro ⟨hfive, hhead⟩
      obtain ⟨a, rest, rfl⟩ := exists_cons_of_ne_nil (ne_nil_of_length_eq_add_one hfive)
      have hle := le_ofBE_cons (fun hzero => hhead (congrArg some hzero)) rest
      rw [length_cons, add_right_cancel_iff] at hfive
      rw [hfive] at hle
      omega
  · rintro ⟨hlen, hfive⟩
    by_cases hshort : data.length ≤ 4
    · exact hlt.trans_le (Nat.pow_le_pow_right (by decide) hshort)
    · -- five octets, the first of them zero
      have hlen5 : data.length = 5 := by omega
      obtain ⟨a, rest, rfl⟩ := exists_cons_of_ne_nil (ne_nil_of_length_eq_add_one hlen5)
      have ha : a = 0 := Option.some.inj (not_not.1 fun hhead => hfive ⟨hlen5, hhead⟩)
      have hrest := ofBE_lt rest
      rw [length_cons, add_right_cancel_iff] at hlen5
      rw [hlen5] at hrest
      rwa [ofBE_cons, ha, UInt8.toNat_zero, zero_mul, zero_add]

/-- The unsigned reader is the signed one for numbers of 32 bits. -/
theorem decodeUnsignedInteger_ok : decodeUnsignedInteger data = .ok n ↔
    decodeInteger data = .ok (n : ℤ) ∧ n < 2 ^ 32 := by
  rw [decodeInteger_ok]
  simp only [decodeUnsignedInteger, bind_ok, ensure_ok, ok.injEq, Bool.not_eq_true',
    not_or, not_lt, exists_const]
  cases hsign : isNegative (data.headD 0) with
  | true =>
    have hneg := signedValue_neg hsign
    refine iff_of_false (fun h => ?_) (fun h => ?_)
    · cases h.2.2.1
    · omega
  | false =>
    rw [← minimal_iff hsign, signedValue_of_nonneg hsign, Nat.cast_inj]
    constructor
    · rintro ⟨⟨hne, -⟩, hminimal, -, hfew, rfl⟩
      exact ⟨⟨⟨hne, by omega⟩, hminimal, rfl⟩, (lt_of_octets hminimal hsign).2 hfew⟩
    · rintro ⟨⟨⟨hne, hlen⟩, hminimal, rfl⟩, hlt⟩
      exact ⟨⟨hne, by omega⟩, hminimal, rfl, (lt_of_octets hminimal hsign).1 hlt, rfl⟩

theorem decodeUnsignedInteger_encode (hn : n < 2 ^ 32) :
    decodeUnsignedInteger (encodeUnsignedInteger n) = .ok n := by
  rw [decodeUnsignedInteger_ok, encodeUnsignedInteger_eq (by omega)]
  exact ⟨decodeInteger_encodeInteger (by omega) (by omega), hn⟩

theorem encodeUnsignedInteger_of_decode (h : decodeUnsignedInteger data = .ok n) :
    encodeUnsignedInteger n = data ∧ n < 2 ^ 32 := by
  obtain ⟨hdecode, hlt⟩ := decodeUnsignedInteger_ok.1 h
  rw [encodeUnsignedInteger_eq (by omega)]
  exact ⟨encodeInteger_of_decode hdecode, hlt⟩

/-! ## Unsigned numbers written as signed ones -/

theorem toInt_toInt32 (v : UInt32) :
    v.toInt32.toInt = if v.toNat < 2 ^ 31 then (v.toNat : ℤ) else v.toNat - 2 ^ 32 := by
  have hint : v.toInt32.toInt = v.toBitVec.toInt := rfl
  have hnat : v.toBitVec.toNat = v.toNat := rfl
  rw [hint, BitVec.toInt_eq_toNat_cond]
  split_ifs <;> omega

theorem toNat_ofInt (z : ℤ) : (UInt32.ofInt z).toNat = (z % 2 ^ 32).toNat := by
  unfold UInt32.ofInt
  rw [UInt32.toNat_ofNat']
  omega

theorem ofInt_toInt32 (v : UInt32) : UInt32.ofInt v.toInt32.toInt = v := by
  have hlt := v.toNat_lt
  apply UInt32.toNat_inj.1
  rw [toNat_ofInt, toInt_toInt32]
  split_ifs <;> omega

/-- The number is kept if it has 32 bits, and only then. -/
theorem toInt32_ofInt (z : ℤ) : (UInt32.ofInt z).toInt32.toInt = z ↔ -2 ^ 31 ≤ z ∧ z < 2 ^ 31 := by
  rw [toInt_toInt32, toNat_ofInt]
  split_ifs <;> omega

theorem int32_of_truncated (z : ℤ) :
    -2 ^ 31 ≤ (UInt32.ofInt z).toInt32.toInt ∧ (UInt32.ofInt z).toInt32.toInt < 2 ^ 31 :=
  (toInt32_ofInt _).1 (by rw [ofInt_toInt32])

/-- A number cut to 32 bits is written as it was read if it has 32 bits, and only then. -/
theorem encodeInteger_truncated_iff (h : decodeInteger data = .ok z) :
    encodeInteger (UInt32.ofInt z).toInt32.toInt = data ↔ -2 ^ 31 ≤ z ∧ z < 2 ^ 31 := by
  rw [← toInt32_ofInt]
  constructor
  · intro heq
    have hrange := int32_of_truncated z
    have hback := @decodeInteger_encodeInteger (UInt32.ofInt z).toInt32.toInt (by omega) (by omega)
    rw [heq, h] at hback
    exact (ok.inj hback).symm
  · intro heq
    rw [heq]
    exact encodeInteger_of_decode h

/-- It is never written longer. -/
theorem length_encodeInteger_truncated (h : decodeInteger data = .ok z) :
    (encodeInteger (UInt32.ofInt z).toInt32.toInt).length ≤ data.length := by
  by_cases hrange : -2 ^ 31 ≤ z ∧ z < 2 ^ 31
  · rw [(encodeInteger_truncated_iff h).2 hrange]
  · have htruncated := int32_of_truncated z
    have hfour := length_encodeInteger_le_four htruncated.1 htruncated.2
    obtain ⟨⟨hne, -⟩, -, rfl⟩ := decodeInteger_ok.1 h
    obtain ⟨a, rest, rfl⟩ := exists_cons_of_ne_nil hne
    by_contra hlt
    have hshort : rest.length ≤ 3 := by
      rw [length_cons] at hlt
      omega
    -- a number of four octets is in range
    have hbounds := signedValue_range a rest
    have hpow : (256 : ℤ) ^ rest.length ≤ 256 ^ 3 := pow_le_pow_right₀ (by norm_num) hshort
    exact hrange (by constructor <;> omega)

/-! ## Flags and times -/

theorem decodeFlags_encodeFlags (flags : Flags) : decodeFlags (encodeFlags flags) = .ok flags := by
  have hlt : (swapFlags flags).toNat < 256 ^ 4 :=
    lt_of_lt_of_eq (swapFlags flags).isLt (by norm_num)
  have hshape : (encodeFlags flags).length = 5 ∧ (encodeFlags flags).head? = some 0 :=
    ⟨by simp [encodeFlags], rfl⟩
  rw [decodeFlags, ensure_bind hshape, encodeFlags, tail_cons, ofBE_beBytes hlt,
    BitVec.ofNat_toNat, BitVec.setWidth_eq, swapFlags, swapFlags, BitVec.reverse_reverse_eq]

theorem encodeFlags_of_decode {flags : Flags} (h : decodeFlags content = .ok flags) :
    encodeFlags flags = content := by
  simp only [decodeFlags, bind_ok, ensure_ok, ok.injEq, exists_const] at h
  obtain ⟨⟨hlen, hhead⟩, rfl⟩ := h
  obtain ⟨a, rest, rfl⟩ := exists_cons_of_ne_nil (ne_nil_of_length_eq_add_one hlen)
  rw [head?_cons, Option.some.injEq] at hhead
  rw [length_cons, add_right_cancel_iff] at hlen
  have hlt : ofBE rest < 2 ^ 32 := by
    have hrest := ofBE_lt rest
    rw [hlen] at hrest
    exact hrest
  rw [encodeFlags, swapFlags, swapFlags, tail_cons, BitVec.reverse_reverse_eq, BitVec.toNat_ofNat,
    mod_eq_of_lt hlt, ← hlen, beBytes_ofBE, hhead]

/-- The times of which the encoding says everything. -/
structure KerberosTime.Plain (t : KerberosTime) : Prop where
  present : t.present = true
  microseconds : t.microseconds = 0
  time : Calendar.Plain t.time.1

variable {t : KerberosTime}

theorem parseKerberosTime_encode (h : t.Plain) :
    parseKerberosTime (encodeGeneralizedTime t) = .ok t := by
  rw [encodeGeneralizedTime, if_pos h.present, parseKerberosTime, Calendar.parse_format _ h.time]
  obtain ⟨time, microseconds, present⟩ := t
  obtain ⟨rfl, rfl, -⟩ := h
  rfl

theorem encodeGeneralizedTime_of_parse {value : Bytes} (h : parseKerberosTime value = .ok t) :
    encodeGeneralizedTime t = value := by
  unfold parseKerberosTime at h
  split at h
  · next time htime =>
    cases h
    exact (Calendar.format_parse htime).1
  · cases h

theorem encodeGeneralizedTime_ne_nil (h : t.present = true) : encodeGeneralizedTime t ≠ [] := by
  rw [encodeGeneralizedTime, if_pos h, Calendar.format]
  simp

end Kerberos.ASN1
