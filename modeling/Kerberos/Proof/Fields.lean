import Kerberos.Proof.KADM
import Kerberos.Proof.Names
import Kerberos.Spec.Load

/-!
# Fields of a dump read back

Each kind of field the writer produces is read back by the parser of that kind, one
lemma for each: numbers, durations, instants (`parseEpoch_dumpEpoch`), octets, tagged
data (`reads_tlData`) and key data (`reads_key`).
-/

namespace Kerberos.MITDump

open Reader List Except Text Reads

/-! ## Numbers and octets -/

variable {n : ℕ}

theorem parseUint_decimal (hn : n < 2 ^ 64) (field : String) :
    parseUint (Text.decimal n) field = .ok n := by
  rw [parseUint, if_neg (decimal_ne_nil n), ofOption_ok]
  exact Text.parseUint_decimal hn

theorem parseInt_formatInt {z : ℤ} (hlow : -2 ^ 31 ≤ z) (hhigh : z < 2 ^ 31) (field : String) :
    parseInt (Text.formatInt z) field = .ok z := by
  rw [parseInt, ofOption_ok]
  exact Text.parseInt_formatInt (by norm_num) hlow hhigh

theorem formatInt_natCast (n : ℕ) : formatInt (n : ℤ) = Text.decimal n := by
  unfold formatInt
  rw [if_neg (by omega), Int.toNat_natCast]

theorem parseInt_decimal (hn : n < 2 ^ 31) (field : String) :
    parseInt (Text.decimal n) field = .ok (n : ℤ) := by
  rw [← formatInt_natCast]
  exact parseInt_formatInt (by omega) (by omega) field

variable {s : Bytes}

theorem dumpAttributes_ok {flags : Flags} :
    dumpAttributes flags = .ok s ↔ flags.toNat < 2 ^ 31 ∧ s = Text.decimal flags.toNat := by
  simp only [dumpAttributes, Except.bind_ok, ensure_ok]
  constructor
  · rintro ⟨_, h, hs⟩
    cases hs
    exact ⟨h, rfl⟩
  · rintro ⟨h, rfl⟩
    exact ⟨(), h, rfl⟩

variable {value : ℤ} {field : String}

theorem dumpDuration_ok : dumpDuration value field = .ok s ↔
      (0 ≤ value ∧ value % second = 0 ∧ value / second < 2 ^ 31) ∧
        s = Text.decimal (value / second).toNat := by
  simp only [dumpDuration, Except.bind_ok, ensure_ok]
  constructor
  · rintro ⟨_, ⟨h0, hsec⟩, _, hmax, hs⟩
    cases hs
    exact ⟨⟨h0, hsec, hmax⟩, rfl⟩
  · rintro ⟨⟨h0, hsec, hmax⟩, rfl⟩
    exact ⟨(), ⟨h0, hsec⟩, (), hmax, rfl⟩

theorem parseDuration_dumpDuration (field : String) {field' : String}
    (h : dumpDuration value field = .ok s) : parseDurationSeconds s field' = .ok value := by
  obtain ⟨⟨h0, hsec, hmax⟩, rfl⟩ := dumpDuration_ok.1 h
  have hnonneg : 0 ≤ value / second := Int.ediv_nonneg h0 (by decide)
  have hwhole : value / second * second = value :=
    Int.ediv_mul_cancel (Int.dvd_of_emod_eq_zero hsec)
  unfold parseDurationSeconds
  rw [parseInt_decimal (by omega), ok_bind, Int.toNat_of_nonneg hnonneg,
    ensure_bind hnonneg, hwhole]
  rfl

/-- An instant as a dump gives it back: in whole seconds, and the epoch is no instant. -/
def restoredTime (t : ℤ) : ℤ := if t = zeroTime ∨ t / second = 0 then zeroTime else truncSec t

theorem dumpEpoch_ok : dumpEpoch value field = .ok s ↔
      (value = zeroTime ∨ (0 ≤ value / second ∧ value / second < 2 ^ 32)) ∧
        s = if value = zeroTime then Text.decimal 0 else Text.decimal (value / second).toNat := by
  unfold dumpEpoch
  split_ifs with hz
  · simp [hz, eq_comm]
  · simp only [Except.bind_ok, ensure_ok]
    constructor
    · rintro ⟨_, h, hs⟩
      cases hs
      exact ⟨.inr h, rfl⟩
    · rintro ⟨h, rfl⟩
      exact ⟨(), h.resolve_left hz, rfl⟩

theorem parseEpoch_dumpEpoch (field : String) {field' : String}
    (h : dumpEpoch value field = .ok s) : parseEpoch s field' = .ok (restoredTime value) := by
  obtain ⟨hrange, rfl⟩ := dumpEpoch_ok.1 h
  have hzero : parseEpoch (Text.decimal 0) field' = .ok zeroTime := by
    rfl
  unfold restoredTime
  by_cases hz : value = zeroTime
  · rw [if_pos hz, if_pos (.inl hz)]
    exact hzero
  · obtain ⟨hlow, hhigh⟩ := hrange.resolve_left hz
    rw [if_neg hz]
    by_cases h0 : value / second = 0
    · rw [if_pos (.inr h0), h0]
      exact hzero
    · rw [if_neg (not_or.2 ⟨hz, h0⟩)]
      have hne : (value / second).toNat ≠ 0 := by omega
      have hsmall : (value / second).toNat < 2 ^ 63 := by omega
      have htrunc : value / second * second = truncSec value := by
        have := Int.mul_ediv_add_emod value second
        unfold truncSec
        linarith [mul_comm (value / second) second]
      unfold parseEpoch
      rw [parseUint_decimal (by omega), ok_bind, if_neg hne, ensure_bind hsmall,
        Int.toNat_of_nonneg hlow, htrunc]
      rfl

theorem encodeHex_ne_minus (data : Bytes) : Text.encodeHex data ≠ str "-1" := by
  intro h
  have hmem : (45 : UInt8) ∈ encodeHex data := by
    rw [h]
    decide
  exact fromHexChar_of_mem_encodeHex hmem (by decide)

variable {data : Bytes}

theorem validateOctets_encodeHex (hlen : data.length < 2 ^ 32) (field : String) :
    validateOctets (encodeHex data) data.length field = .ok () := by
  have hsize : data.length ≤ (2 ^ 63 - 1) / 2 := by
    omega
  simp only [validateOctets, if_neg (encodeHex_ne_minus data), Except.bind_ok, ensure_ok]
  refine ⟨(), hsize, (), ?_, ?_⟩
  · rw [length_encodeHex]
    omega
  · simp [decodeHex_encodeHex]

theorem parseOctets_encodeHex (hlen : data.length < 2 ^ 32) (field : String) :
    parseOctets (encodeHex data) data.length field = .ok data := by
  simp only [parseOctets, if_neg (encodeHex_ne_minus data), validateOctets_encodeHex hlen,
    ok_bind, ofOption_ok, decodeHex_encodeHex]

theorem parseOctets_dumpOctets (hlen : data.length < 2 ^ 32) (field : String) :
    parseOctets (dumpOctets data) data.length field = .ok data := by
  unfold dumpOctets
  split_ifs with hnil
  · subst hnil
    rfl
  · exact parseOctets_encodeHex hlen field

/-! ## Reading fields -/

variable {α : Type}

theorem reads_field {parser : Bytes → String → Except String α}
    {value : Bytes} {a : α} (h : parser value field = .ok a) :
    Reads (parseField parser field) [value] (.ok a) := by
  refine final (next _ _) ?_
  rw [h]
  exact lift _

theorem reads_need {text : String} {f : PUnit → FieldReader α} {enc : List Bytes}
    {x : Except String α} (hn : n ≤ enc.length) (hf : Reads (f ⟨⟩) enc x) :
    Reads (needFields n text >>= f) enc x := by
  intro rest
  have hcheck : needFields n text (enc ++ rest) = .ok (⟨⟩, enc ++ rest) := by
    show Reader.check _ text (enc ++ rest) = _
    rw [Reader.check, if_pos]
    simp only [length_append, decide_eq_true_eq]
    omega
  show (needFields n text (enc ++ rest)).bind _ = _
  rw [hcheck]
  exact hf rest

theorem ends_need {text : String} {f : PUnit → FieldReader α} {input : List Bytes}
    {x : Except String α} (hn : n ≤ input.length) (hf : Ends (f ⟨⟩) input x) :
    Ends (needFields n text >>= f) input x := by
  have hcheck : needFields n text input = .ok (⟨⟩, input) := by
    show Reader.check _ text input = _
    rw [Reader.check, if_pos (decide_eq_true hn)]
  show (needFields n text input).bind _ = _
  rw [hcheck]
  exact hf

/-! ## Tagged data -/

/-- What the writer asks of tagged data. -/
def TLFits (data : TLData) : Prop := 0 ≤ data.type.toInt ∧ data.data.length ≤ maxUint16

variable {fields : List Bytes}

theorem tlFields_ok {data : TLData} : tlFields data = .ok fields ↔ TLFits data ∧
      fields =
        [formatInt data.type.toInt, Text.decimal data.data.length, dumpOctets data.data] := by
  simp only [tlFields, Except.bind_ok, ensure_ok]
  constructor
  · rintro ⟨_, htype, _, hlen, hf⟩
    cases hf
    exact ⟨⟨htype, hlen⟩, rfl⟩
  · rintro ⟨⟨htype, hlen⟩, rfl⟩
    exact ⟨(), htype, (), hlen, rfl⟩

theorem reads_tlData {data : TLData} (h : tlFields data = .ok fields) :
    Reads readTLData fields (.ok data) := by
  obtain ⟨⟨htype, hlen⟩, rfl⟩ := tlFields_ok.1 h
  have hhigh : data.type.toInt < 2 ^ 15 := data.type.toInt_lt
  simp only [maxUint16] at hlen
  refine reads_need (by simp) (step (reads_field (parseInt_formatInt (by omega) (by omega) _)) ?_)
  refine quiet (check (decide_eq_true ⟨htype, hhigh⟩) _) ?_
  refine step (reads_field (parseUint_decimal (by omega) _)) (final (next _ _) ?_)
  rw [parseOctets_dumpOctets (by omega)]
  refine quiet (lift _) (pure_eq ?_)
  rw [Int16.ofInt_toInt]

/-! ## Key data -/

/-- What the writer asks of a key. -/
def KeyFits (env : KDB.Env) (name : Principal) (key : Key) : Prop :=
  usableKey env key = true ∧ key.kvno ≠ 0 ∧ key.kvno.toNat ≤ maxUint16 ∧
    key.key.length ≤ maxUint16 ∧
    (specialSalt (normalSalt name) key.salt → key.salt.length ≤ maxUint16)

/-- The fields of a key sealed to `ciphertext`. -/
def keyFields (name : Principal) (key : Key) (ciphertext : Bytes) : List Bytes :=
  let contents := sealedContents key.key ciphertext
  let special := specialSalt (normalSalt name) key.salt
  [Text.decimal (if special then 2 else 1), Text.decimal key.kvno.toNat,
      formatInt key.enctype.toInt, Text.decimal contents.length, encodeHex contents] ++
    if special then [Text.decimal 4, Text.decimal key.salt.length, encodeHex key.salt] else []

variable {env : KDB.Env} {key : Key}

theorem usableKey_iff : usableKey env key = true ↔ ∃ etype, env.etype key.enctype = some etype ∧
      key.key.length = etype.keySize := by
  unfold usableKey
  cases env.etype key.enctype with
  | none => simp
  | some etype => simp

theorem encodeKeyData_ok {name : Principal} {etype : EType} {masterKey : Bytes} :
    encodeKeyData env name key etype masterKey = .ok fields ↔ KeyFits env name key ∧
        ∃ ct, etype.encrypt masterKey 0 key.key = some ct ∧ fields = keyFields name key ct := by
  simp only [encodeKeyData, Except.bind_ok, ensure_ok, ofOption_ok, KeyFits,
    usableKey_iff]
  constructor
  · rintro ⟨t, ht, _, hsize, _, hkvno, _, hlen, ct, hct, _, hsalt, hf⟩
    cases hf
    exact ⟨⟨⟨t, ht, hsize⟩, hkvno.1, hkvno.2, hlen, hsalt⟩, ct, hct, rfl⟩
  · rintro ⟨⟨⟨t, ht, hsize⟩, hkvno0, hkvno, hlen, hsalt⟩, ct, hct, rfl⟩
    exact ⟨t, ht, (), hsize, (), ⟨hkvno0, hkvno⟩, (), hlen, ct, hct, (), hsalt, rfl⟩

/-- A key as a dump gives it back before its contents are opened. -/
def sealedKey (name : Principal) (key : Key) (ciphertext : Bytes) : Key :=
  { key with
    key := sealedContents key.key ciphertext
    salt := effectiveSalt (normalSalt name) key.salt }

theorem reads_keyContents (type : ℤ) {contents : Bytes} (hlow : -2 ^ 31 ≤ type)
    (hhigh : type < 2 ^ 31)
    (hlen : contents.length < 2 ^ 32) : Reads readKeyContents
      [formatInt type, Text.decimal contents.length, encodeHex contents]
        (.ok (type, contents)) := by
  refine reads_need (by simp) (step (reads_field (parseInt_formatInt hlow hhigh _)) ?_)
  refine step (reads_field (parseUint_decimal (by omega) _)) (final (next _ _) ?_)
  rw [parseOctets_encodeHex hlen]
  exact quiet (lift _) (pure _)

theorem reads_key {name : Principal} (hfits : KeyFits env name key)
    {ciphertext : Bytes} (hct : ciphertext.length < 2 ^ 31) :
    Reads (readKey name.plain) (keyFields name key ciphertext)
      (.ok (sealedKey name key ciphertext)) := by
  obtain ⟨_, hkvno0, hkvno, _, hsalt⟩ := hfits
  have hne : key.kvno.toNat ≠ 0 := fun h => hkvno0 (UInt32.toNat_inj.1 h)
  have hlow : -2 ^ 31 ≤ key.enctype.toInt := key.enctype.le_toInt
  have hhigh : key.enctype.toInt < 2 ^ 31 := key.enctype.toInt_lt
  have hcontents : (sealedContents key.key ciphertext).length < 2 ^ 32 := by
    simp only [sealedContents, le16, length_append, Words.length_leBytes]
    omega
  simp only [maxUint16] at hkvno hsalt
  unfold readKey keyFields
  -- the salt is a second part of the key data where it is not the default
  cases hspecial : specialSalt (normalSalt name) key.salt with
  | true =>
    have hsalt := hsalt hspecial
    simp only [cons_append]
    refine reads_need (by simp) (step (reads_field (parseUint_decimal (by norm_num) _)) ?_)
    refine quiet (check (by simp) _) ?_
    refine step (reads_field (parseUint_decimal (by omega) _)) ?_
    refine quiet (check (by simpa using hne) _) ?_
    refine step (reads_keyContents _ hlow hhigh hcontents) ?_
    refine final (reads_keyContents 4 (by norm_num)
      (by norm_num) (by omega)) (pure_eq ?_)
    simp [sealedKey, saltOf, effectiveSalt_special hspecial]
  | false =>
    simp only [Bool.false_eq_true, if_false, append_nil]
    refine reads_need (by simp) (step (reads_field (parseUint_decimal (by norm_num) _)) ?_)
    refine quiet (check (by simp) _) ?_
    refine step (reads_field (parseUint_decimal (by omega) _)) ?_
    refine quiet (check (by simpa using hne) _) ?_
    refine final (reads_keyContents _ hlow hhigh hcontents) (pure_eq ?_)
    simp [sealedKey, effectiveSalt_normal hspecial]

end Kerberos.MITDump
