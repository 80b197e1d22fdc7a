import Kerberos.Proof.Lines

/-!
# How long the lines of a dump are

The parser gives up on a line of 16 MiB. `length_recordFields` bounds the line of a
record by the sizes of its name, its tagged data and the salts of its keys.
-/

namespace Kerberos.MITDump

open List Text

/-- The room the tagged data of a line needs. -/
def tlSize (tl : List TLData) : ℕ := (tl.map fun data => 64 + 2 * data.data.length).sum

/-- The room the keys of a line need. -/
def keySize (keys : List Key) : ℕ := (keys.map fun key => 512 + 2 * key.salt.length).sum

/-- The length of a list of fields with a separator behind each. -/
def fieldsLength (fields : List Bytes) : ℕ := (fields.map fun f => f.length + 1).sum

theorem fieldsLength_append (a b : List Bytes) :
    fieldsLength (a ++ b) = fieldsLength a + fieldsLength b := by
  simp [fieldsLength]

theorem fieldsLength_le {fields : List Bytes} {n : ℕ} (h : ∀ f ∈ fields, f.length ≤ n) :
    fieldsLength fields ≤ fields.length * (n + 1) := by
  induction fields with
  | nil => simp [fieldsLength]
  | cons f fields ih =>
    obtain ⟨hf, h⟩ := forall_mem_cons.1 h
    have hrest := ih h
    simp only [fieldsLength, map_cons, sum_cons, length_cons] at *
    rw [add_mul]
    omega

theorem length_decimal_word {n : ℕ} (hn : n < 2 ^ 64) : (Text.decimal n).length ≤ 20 :=
  length_decimal_le (by norm_num) (lt_of_lt_of_le hn (by norm_num))

theorem length_formatInt_word {z : ℤ} (hlow : -2 ^ 31 ≤ z) (hhigh : z < 2 ^ 31) :
    (formatInt z).length ≤ 21 :=
  length_formatInt_le (by norm_num) (lt_of_lt_of_le (b := 2 ^ 32) (by omega) (by norm_num))

theorem fieldsLength_tlText {data : TLData} (h : TLFits data) :
    fieldsLength (tlText data) ≤ 64 + 2 * data.data.length := by
  have htype : (formatInt data.type.toInt).length ≤ 21 := by
    have hlow : -2 ^ 15 ≤ data.type.toInt := data.type.le_toInt
    have hhigh : data.type.toInt < 2 ^ 15 := data.type.toInt_lt
    exact length_formatInt_word (by omega) (by omega)
  have hlen : (Text.decimal data.data.length).length ≤ 20 := by
    have := h.2
    simp only [maxUint16] at this
    exact length_decimal_word (by omega)
  have hdata : (dumpOctets data.data).length ≤ 2 * data.data.length + 2 := by
    unfold dumpOctets
    split_ifs
    · simp [str]
    · rw [length_encodeHex]
      omega
  simp only [fieldsLength, tlText, map_cons, map_nil, sum_cons, sum_nil]
  omega

variable {tl : List TLData}

theorem fieldsLength_flatMap_tlText (h : ∀ data ∈ tl, TLFits data) :
    fieldsLength (tl.flatMap tlText) ≤ tlSize tl := by
  induction tl with
  | nil => simp [fieldsLength, tlSize]
  | cons data tl ih =>
    obtain ⟨hd, h⟩ := forall_mem_cons.1 h
    have h1 := fieldsLength_tlText hd
    have h2 := ih h
    rw [flatMap_cons, fieldsLength_append]
    simp only [tlSize, map_cons, sum_cons] at *
    omega

variable {env : KDB.Env}

theorem fieldsLength_keyFields (laws : KDB.Laws env) {name : Principal} {key : Key}
    (h : KeyFits env name key) {ct : Bytes} (hct : ct.length ≤ key.key.length + 64) :
    fieldsLength (keyFields name key ct) ≤ 512 + 2 * key.salt.length := by
  obtain ⟨husable, _, hkvno, _, hsalt⟩ := h
  obtain ⟨t, ht, hsize⟩ := usableKey_iff.1 husable
  have hkey := (laws.keySize ht).2
  have hversion : ∀ b : Bool, (Text.decimal (if b then 2 else 1)).length ≤ 20 := by
    intro b
    refine length_decimal_word ?_
    split_ifs <;> norm_num
  have h1 := hversion (specialSalt (normalSalt name) key.salt)
  simp only [maxUint16] at hkvno hsalt
  have h2 : (Text.decimal key.kvno.toNat).length ≤ 20 := length_decimal_word (by omega)
  have h3 : (formatInt key.enctype.toInt).length ≤ 21 :=
    length_formatInt_word key.enctype.le_toInt key.enctype.toInt_lt
  have hcontents : (sealedContents key.key ct).length = 2 + ct.length := by
    simp [sealedContents, le16]
  have h4 : (Text.decimal (sealedContents key.key ct).length).length ≤ 20 :=
    length_decimal_word (by omega)
  have h5 : (encodeHex (sealedContents key.key ct)).length ≤ 260 := by
    rw [length_encodeHex]
    omega
  rw [keyFields]
  by_cases hs : specialSalt (normalSalt name) key.salt = true
  · have h6 : (Text.decimal 4).length ≤ 20 := length_decimal_word (by norm_num)
    have h7 : (Text.decimal key.salt.length).length ≤ 20 := by
      have := hsalt hs
      exact length_decimal_word (by omega)
    simp only [if_pos hs, fieldsLength, cons_append, nil_append, map_cons, map_nil, sum_cons,
      sum_nil, length_encodeHex] at h1 h5 ⊢
    omega
  · simp only [if_neg hs, append_nil, fieldsLength, map_cons, map_nil, sum_cons, sum_nil] at h1 ⊢
    omega

variable {record : PrincipalRecord}

theorem fieldsLength_keyDataFields (laws : KDB.Laws env)
    {e : Int32} {etype : EType} (hetype : env.etype e = some etype) {key : Bytes} {cts : List Bytes}
    (hfits : ∀ k ∈ dumpedKeys env record, KeyFits env record.name k)
    (hsealed : Sealed env etype key record cts) :
    fieldsLength (keyDataFields env record cts).flatten ≤ keySize (dumpedKeys env record) := by
  unfold keyDataFields
  unfold Sealed at hsealed
  generalize dumpedKeys env record = keys at hfits hsealed
  induction hsealed with
  | nil => simp [fieldsLength, keySize]
  | cons hct _ ih =>
    obtain ⟨hfit, hfits⟩ := forall_mem_cons.1 hfits
    have h1 := fieldsLength_keyFields laws hfit (laws.length_encrypt hetype hct).2
    have h2 := ih hfits
    rw [zipWith_cons_cons, flatten_cons, fieldsLength_append]
    simp only [keySize, map_cons, sum_cons] at *
    omega

theorem length_durationText {value : ℤ} (h : DurationFits value) :
    (durationText value).length ≤ 20 := by
  obtain ⟨_, _, hmax⟩ := h
  exact length_decimal_word (by omega)

theorem length_epochText {value : ℤ} (h : EpochFits value) : (epochText value).length ≤ 20 := by
  unfold epochText
  split_ifs with hz
  · exact length_decimal_word (by norm_num)
  · have := h.resolve_left hz
    exact length_decimal_word (by omega)

theorem fieldsLength_leadingFields {name : Bytes}
    (hname : record.name.format = .ok name) (hfits : RecordFits env record tl) :
    fieldsLength (leadingFields env record name tl) ≤ 330 + name.length := by
  have hlen := hfits.name name hname
  have hcounts := hfits.tlCount
  have hkeyCounts := hfits.keyCount
  simp only [maxUint16] at hcounts hkeyCounts
  have hfail : record.failAuthCount.toNat < 2 ^ 32 := record.failAuthCount.toNat_lt
  have hother : ∀ f ∈ (leadingFields env record name tl).eraseIdx 6, f.length ≤ 20 := by
    simp only [leadingFields, eraseIdx_cons_succ, eraseIdx_zero, tail_cons, forall_mem_cons,
      not_mem_nil, false_implies, implies_true, and_true]
    exact ⟨by decide, length_decimal_word (by norm_num), length_decimal_word (by omega),
      length_decimal_word (by omega), length_decimal_word (by omega),
        length_decimal_word (by norm_num),
      length_decimal_word (by omega), length_durationText hfits.maxLife,
        length_durationText hfits.maxRenew,
      length_epochText hfits.expiration, length_epochText hfits.passwordExpiration,
      length_epochText hfits.lastSuccess, length_epochText hfits.lastFailed,
        length_decimal_word (by omega)⟩
  have hperm : (name :: (leadingFields env record name tl).eraseIdx 6).Perm
      (leadingFields env record name tl) :=
    @getElem_cons_eraseIdx_perm _ (leadingFields env record name tl) 6 (show 6 < 15 by decide)
  have hsum := (hperm.map fun f => f.length + 1).sum_eq
  have hle : _ ≤ 14 * (20 + 1) := fieldsLength_le hother
  rw [map_cons, sum_cons] at hsum
  unfold fieldsLength at hle ⊢
  omega

/-- **A line is as long as what it carries.** -/
theorem length_recordFields (laws : KDB.Laws env) {name : Bytes}
    (hname : record.name.format = .ok name) {e : Int32}
    {etype : EType} (hetype : env.etype e = some etype) {key : Bytes} {cts : List Bytes}
    (hfits : RecordFits env record tl) (hsealed : Sealed env etype key record cts) :
    (joinFields tab (recordFields env record name tl cts)).length ≤
      512 + name.length + tlSize tl + keySize (dumpedKeys env record) := by
  refine (length_joinFields tab _).trans ?_
  show fieldsLength _ ≤ _
  have hlead := fieldsLength_leadingFields hname hfits
  have htl := fieldsLength_flatMap_tlText hfits.tlData
  have hkeys := fieldsLength_keyDataFields laws hetype hfits.keys hsealed
  have hend : fieldsLength [str "-1;"] = 4 := by decide
  unfold recordFields
  simp only [fieldsLength_append]
  omega

/-- The room a policy's line needs. -/
def policySize (policy : PolicyRecord) : ℕ :=
  512 + policy.name.length + policy.allowedKeySalts.length

theorem length_policyText (policy : PolicyRecord) :
    (policyText policy).length ≤ policySize policy := by
  have hint : ∀ v : Int32, (formatInt v.toInt).length ≤ 21 := fun v =>
    length_formatInt_word v.le_toInt v.toInt_lt
  have hnat : ∀ n : ℕ, n < 2 ^ 32 → (Text.decimal n).length ≤ 21 := fun n hn =>
    (length_decimal_word (by omega)).trans (by norm_num)
  have hnumbers : ∀ f ∈ ((policyFields policy).drop 2).take 12, f.length ≤ 21 := by
    simp only [policyFields, drop_succ_cons, drop_zero, take_succ_cons, forall_mem_cons, hint,
      hnat _ policy.maxFailure.toNat_lt, hnat 0 (by norm_num), true_and]
    exact fun f hf => absurd hf not_mem_nil
  have hsalts : (if policy.allowedKeySalts = [] then str "-" else policy.allowedKeySalts).length ≤
      policy.allowedKeySalts.length + 1 := by
    split_ifs
    · simp [str]
    · omega
  have hsplit : policyFields policy = [str "policy", policy.name] ++
      (((policyFields policy).drop 2).take 12 ++
        [(if policy.allowedKeySalts = [] then str "-" else policy.allowedKeySalts),
          Text.decimal 0]) :=
    rfl
  have hfront : fieldsLength [str "policy", policy.name] = 7 + (policy.name.length + 1) := rfl
  have hmiddle := fieldsLength_le hnumbers
  have hback : fieldsLength
    [(if policy.allowedKeySalts = [] then str "-" else policy.allowedKeySalts),
      Text.decimal 0] = _ + 1 + (1 + 1) := rfl
  have hcount : (((policyFields policy).drop 2).take 12).length = 12 := rfl
  refine (length_joinFields tab _).trans ?_
  show fieldsLength (policyFields policy) ≤ policySize policy
  rw [hsplit, fieldsLength_append, fieldsLength_append]
  unfold policySize
  omega

end Kerberos.MITDump
