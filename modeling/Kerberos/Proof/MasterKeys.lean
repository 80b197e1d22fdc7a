import Kerberos.Proof.Lines

/-!
# The metadata of the master keys reads back

The tagged data of the K/M record: the version word, the activations and the auxiliary
entries come back as they were encoded (`decodeMKVNO_le16`, `decodeACTKVNO_encode`,
`decodeMKEYAux_encode`), and no other bytes are read as such
(`masterKeyMetadata_round_trip`). `masterKeyTLData_ok` says what the writer puts there.
-/

namespace Kerberos

open List Except Int32 Words

theorem ofLE_le16 {n : ℕ} (hn : n ≤ maxUint16) : ofLE (le16 n) = n := by
  refine ofLE_leBytes ?_
  simp only [maxUint16] at hn
  omega

theorem ofLE_uint16 (v : UInt16) : ofLE (le16 v.toNat) = v.toNat := by
  refine ofLE_le16 ?_
  have := v.toNat_lt
  simp only [maxUint16]
  omega

@[simp]
theorem length_le16 (n : ℕ) : (le16 n).length = 2 := length_leBytes 2 n

theorem le16_ofLE {a : Bytes} (h : a.length = 2) : le16 (ofLE a) = a := by
  rw [le16, ← h, leBytes_ofLE]

theorem le16_uint16 {a : Bytes} (h : a.length = 2) : le16 (UInt16.ofNat (ofLE a)).toNat = a := by
  have hlt := ofLE_lt a
  rw [h] at hlt
  rw [UInt16.toNat_ofNat_of_lt' hlt, le16_ofLE h]

variable {data : Bytes}

/-- The version word in front of the entries. -/
theorem version_append (hlen : 2 ≤ data.length) (h : ofLE (data.take 2) = 1) :
    le16 1 ++ data.drop 2 = data := by
  rw [← h, le16_ofLE (length_take_of_le hlen), take_append_drop]

/-! ## Versions -/

theorem encodeMKVNO_ok {kvno : UInt32} :
    encodeMKVNO kvno = .ok data ↔ (kvno ≠ 0 ∧ kvno.toNat ≤ maxUint16) ∧ data = le16 kvno.toNat := by
  unfold encodeMKVNO
  split_ifs with h
  · constructor
    · intro h'
      cases h'
    · rintro ⟨⟨h0, hmax⟩, _⟩
      rcases h with h | h
      · exact absurd h h0
      · omega
  · rw [not_or] at h
    constructor
    · intro h'
      exact ⟨⟨h.1, by omega⟩, (ok.inj h').symm⟩
    · rintro ⟨_, rfl⟩
      rfl

theorem decodeMKVNO_le16 {kvno : UInt32} (h : kvno.toNat ≤ maxUint16) :
    decodeMKVNO (le16 kvno.toNat) = .ok kvno := by
  have hne : le16 kvno.toNat ≠ [] := by
    rw [← length_pos_iff]
    norm_num
  unfold decodeMKVNO
  rw [if_neg hne, if_neg (by simp), ofLE_le16 h, UInt32.ofNat_toNat]

/-! ## Activations -/

/-- An activation that can be encoded. -/
def ActFits (value : ActKVNO) : Prop :=
  value.kvno ≠ 0 ∧ -2 ^ 31 ≤ value.actTime ∧ value.actTime ≤ 2 ^ 31 - 1

theorem encodeACTKVNO_ok {values : List ActKVNO} : encodeACTKVNO values = .ok data ↔
      values ≠ [] ∧ (∀ v ∈ values, ActFits v) ∧ data = le16 1 ++ values.flatMap actEntry := by
  simp only [encodeACTKVNO, bind_ok, ensure_ok, forM_ok, checkActKVNO]
  constructor
  · rintro ⟨_, hne, _, hall, hpure⟩
    cases hpure
    refine ⟨hne, fun v hv => ?_, rfl⟩
    obtain ⟨_, h0, hrange⟩ := hall v hv
    exact ⟨h0, hrange⟩
  · rintro ⟨hne, hall, rfl⟩
    exact ⟨(), hne, (), fun v hv => ⟨(), (hall v hv).1, (hall v hv).2⟩, rfl⟩

theorem toInt_ofNat_emod {z : ℤ} (hlow : -2 ^ 31 ≤ z) (hhigh : z ≤ 2 ^ 31 - 1) :
    (Int32.ofNat (z % 2 ^ 32).toNat).toInt = z := by
  have hnonneg : 0 ≤ z % 2 ^ 32 := Int.emod_nonneg z (by norm_num)
  have heq : ofNat (z % 2 ^ 32).toNat = ofInt z := by
    rw [← ofInt_eq_ofNat, Int.toNat_of_nonneg hnonneg]
    apply toInt_inj.1
    rw [toInt_ofInt, toInt_ofInt]
    exact Int.emod_bmod z 4294967296
  rw [heq, toInt_ofInt_of_le (by omega) (by omega)]

theorem actEntries_append {value : ActKVNO} (h : ActFits value) (rest : Bytes) :
    actEntries (actEntry value ++ rest) = (actEntries rest).map (value :: ·) := by
  obtain ⟨h0, hlow, hhigh⟩ := h
  have htime : (value.actTime % 2 ^ 32).toNat < 256 ^ 4 := by omega
  -- the six bytes of the entry
  obtain ⟨a, b, hab⟩ : ∃ a b, le16 value.kvno.toNat = [a, b] := ⟨_, _, rfl⟩
  obtain ⟨c, d, e, f, hcf⟩ : ∃ c d e f, leBytes 4 (value.actTime % 2 ^ 32).toNat = [c, d, e, f] :=
    ⟨_, _, _, _, rfl⟩
  have hkvno : UInt16.ofNat (ofLE [a, b]) = value.kvno := by
    rw [← hab, ofLE_uint16, UInt16.ofNat_toNat]
  have htimeval : (ofNat (ofLE [c, d, e, f])).toInt = value.actTime := by
    rw [← hcf, ofLE_leBytes htime, toInt_ofNat_emod hlow hhigh]
  unfold actEntry
  rw [hab, hcf]
  show actEntries (a :: b :: c :: d :: e :: f :: rest) = _
  rw [actEntries]
  simp only [hkvno, htimeval]
  rw [ensure_bind h0]
  cases actEntries rest with
  | error e => rfl
  | ok values => rfl

theorem actEntries_flatMap {values : List ActKVNO} (h : ∀ v ∈ values, ActFits v) :
    actEntries (values.flatMap actEntry) = .ok values := by
  induction values with
  | nil => rfl
  | cons value values ih =>
    obtain ⟨hv, h⟩ := forall_mem_cons.1 h
    rw [flatMap_cons, actEntries_append hv, ih h]
    rfl

theorem length_flatMap_actEntry (values : List ActKVNO) :
    (values.flatMap actEntry).length = 6 * values.length := by
  induction values with
  | nil => rfl
  | cons value values ih =>
    rw [flatMap_cons]
    simp only [actEntry, length_append, length_le16, length_leBytes, length_cons]
    omega

theorem decodeACTKVNO_encode {values : List ActKVNO}
    (h : encodeACTKVNO values = .ok data) : decodeACTKVNO data = .ok values := by
  obtain ⟨hne, hall, rfl⟩ := encodeACTKVNO_ok.1 h
  have hpos : 0 < values.length := length_pos_iff.2 hne
  have hlen : (le16 1 ++ values.flatMap actEntry).length = 2 + 6 * values.length := by
    rw [length_append, length_le16, length_flatMap_actEntry]
  unfold decodeACTKVNO
  rw [if_neg (by omega), take_left' (length_le16 1), if_neg (by decide),
    drop_left' (length_le16 1), actEntries_flatMap hall]

theorem leBytes_toInt {a : Bytes} (h : a.length = 4) :
    leBytes 4 ((Int32.ofNat (ofLE a)).toInt % 2 ^ 32).toNat = a := by
  have hlt := ofLE_lt a
  rw [h] at hlt
  have htime : ((Int32.ofNat (ofLE a)).toInt % 2 ^ 32).toNat = ofLE a := by
    have hsize : ((ofLE a : ℤ).bmod Int32.size) % 2 ^ 32 = (ofLE a : ℤ) % 2 ^ 32 := Int.bmod_emod
    rw [toInt_ofNat', hsize]
    omega
  rw [htime, ← h, leBytes_ofLE]

/-- What is read as activations is their encoding. -/
theorem actEntries_ok : {data : Bytes} → {values : List ActKVNO} → actEntries data = .ok values →
    data.length % 6 = 0 → (∀ v ∈ values, ActFits v) ∧ data = values.flatMap actEntry
  | [], _, h, _ => by
    obtain rfl := ok.inj h
    exact ⟨fun _ hv => absurd hv not_mem_nil, rfl⟩
  | a :: b :: c :: d :: e :: f :: rest, values, h, hlen => by
    obtain ⟨hkvno, h⟩ := ensure_bind_ok.1 h
    obtain ⟨values, hrest, h⟩ := bind_ok.1 h
    obtain rfl := ok.inj h
    simp only [length_cons] at hlen
    obtain ⟨hall, rfl⟩ := actEntries_ok hrest (by omega)
    refine ⟨forall_mem_cons.2 ⟨⟨hkvno, le_toInt _, toInt_le _⟩, hall⟩, ?_⟩
    rw [flatMap_cons, actEntry, le16_uint16 rfl, leBytes_toInt rfl]
    rfl
  | [_], _, _, h | [_, _], _, _, h | [_, _, _], _, _, h | [_, _, _, _], _, _, h | [_, _, _, _, _],
    _, _, h => by cases h

theorem encodeACTKVNO_decode {values : List ActKVNO} (h : decodeACTKVNO data = .ok values) :
    encodeACTKVNO values = .ok data := by
  unfold decodeACTKVNO at h
  split_ifs at h with hlen hversion
  obtain ⟨hall, hdata⟩ := actEntries_ok h (by rw [length_drop]; omega)
  refine encodeACTKVNO_ok.2 ⟨?_, hall, ?_⟩
  · rintro rfl
    have hnil := drop_eq_nil_iff.1 hdata
    omega
  · rw [← hdata, version_append (by omega) (not_not.1 hversion)]

/-! ## Auxiliary entries -/

/-- An auxiliary entry that can be encoded. -/
def AuxFits (value : MKeyAuxEntry) : Prop :=
  (value.mKeyKVNO ≠ 0 ∧ value.latestKeyKVNO ≠ 0) ∧
    (0 ≤ value.latestKeyEnctype.toInt ∧ value.latestKeyEnctype.toInt ≤ maxUint16) ∧
    value.latestKeyData.length ≤ maxUint16

variable {values : List MKeyAuxEntry}

theorem encodeMKEYAux_ok : encodeMKEYAux values = .ok data ↔ (∀ v ∈ values, AuxFits v) ∧
      data = if values = [] then [] else le16 1 ++ values.flatMap auxEntry := by
  unfold encodeMKEYAux
  split_ifs with hnil
  · subst hnil
    exact ⟨fun h => ⟨fun _ hv => absurd hv not_mem_nil, (ok.inj h).symm⟩,
      fun h => congrArg ok h.2.symm⟩
  · simp only [bind_ok, forM_ok, checkMKEYAux, ensure_ok]
    constructor
    · rintro ⟨_, hall, hpure⟩
      cases hpure
      refine ⟨fun v hv => ?_, rfl⟩
      obtain ⟨_, h0, _, he, hd⟩ := hall v hv
      exact ⟨h0, he, hd⟩
    · rintro ⟨hall, rfl⟩
      exact ⟨(), fun v hv => ⟨(), (hall v hv).1, (), (hall v hv).2.1, (hall v hv).2.2⟩, rfl⟩

theorem length_auxEntry (value : MKeyAuxEntry) :
    (auxEntry value).length = 8 + value.latestKeyData.length := by
  simp only [auxEntry, length_append, length_le16]

theorem auxEntries_append {value : MKeyAuxEntry} (h : AuxFits value) (fuel : ℕ) (rest : Bytes) :
    auxEntries (fuel + 1) (auxEntry value ++ rest) = (auxEntries fuel rest).map (value :: ·) := by
  obtain ⟨_, ⟨hlow, hhigh⟩, hdata⟩ := h
  have hlen : (auxEntry value ++ rest).length = 8 + value.latestKeyData.length + rest.length := by
    rw [length_append, length_auxEntry]
  -- the five fields of the entry
  have h0 : (auxEntry value ++ rest).take 2 = le16 value.mKeyKVNO.toNat := rfl
  have h2 : ((auxEntry value ++ rest).drop 2).take 2 = le16 value.latestKeyKVNO.toNat := rfl
  have h4 : ((auxEntry value ++ rest).drop 4).take 2 =
      le16 value.latestKeyEnctype.toInt.toNat := rfl
  have h6 : ((auxEntry value ++ rest).drop 6).take 2 = le16 value.latestKeyData.length := rfl
  have h8 : (auxEntry value ++ rest).drop 8 = value.latestKeyData ++ rest := rfl
  have hrest : (auxEntry value ++ rest).drop (8 + value.latestKeyData.length) = rest :=
    drop_left' (length_auxEntry value)
  have henctype : ofNat (ofLE (le16 value.latestKeyEnctype.toInt.toNat)) =
      value.latestKeyEnctype := by
    rw [ofLE_le16 (by omega), ← ofInt_eq_ofNat, Int.toNat_of_nonneg hlow, ofInt_toInt]
  rw [auxEntries]
  · simp only [h0, h2, h4, h6, h8, ofLE_le16 hdata, hrest, ofLE_uint16, UInt16.ofNat_toNat,
      henctype, take_left]
    rw [ensure_bind (by omega), ensure_bind (by omega)]
    cases auxEntries fuel rest with
    | error e => rfl
    | ok values => rfl
  · exact fun h => nomatch h

theorem auxEntries_flatMap (h : ∀ v ∈ values, AuxFits v) {fuel : ℕ}
    (hfuel : values.length < fuel) : auxEntries fuel (values.flatMap auxEntry) = .ok values := by
  induction values generalizing fuel with
  | nil =>
    cases fuel with
    | zero => rfl
    | succ fuel => rfl
  | cons value values ih =>
    obtain ⟨hv, h⟩ := forall_mem_cons.1 h
    cases fuel with
    | zero => exact absurd hfuel (Nat.not_lt_zero _)
    | succ fuel =>
      rw [flatMap_cons, auxEntries_append hv, ih h (by simpa using hfuel)]
      rfl

theorem length_flatMap_auxEntry (values : List MKeyAuxEntry) :
    values.length * 8 ≤ (values.flatMap auxEntry).length := by
  induction values with
  | nil => simp
  | cons value values ih =>
    rw [flatMap_cons, length_append, length_auxEntry, length_cons]
    omega

theorem decodeMKEYAux_encode (h : encodeMKEYAux values = .ok data) :
    decodeMKEYAux data = .ok values := by
  obtain ⟨hall, rfl⟩ := encodeMKEYAux_ok.1 h
  split_ifs with hnil
  · rw [hnil]
    rfl
  · have hpos : 0 < values.length := length_pos_iff.2 hnil
    have hlen := length_flatMap_auxEntry values
    have htotal : (le16 1 ++ values.flatMap auxEntry).length =
        2 + (values.flatMap auxEntry).length := by
      rw [length_append, length_le16]
    have hne : le16 1 ++ values.flatMap auxEntry ≠ [] := by
      rw [← length_pos_iff]
      omega
    unfold decodeMKEYAux
    rw [if_neg hne, if_neg, drop_left' (length_le16 1), auxEntries_flatMap hall (by omega)]
    rw [take_left' (length_le16 1), not_or]
    exact ⟨by omega, by decide⟩

/-- What is read as auxiliary entries is their encoding. -/
theorem auxEntries_ok {fuel : ℕ} (h : auxEntries fuel data = .ok values)
    (hfuel : data.length ≤ fuel) :
    data = values.flatMap auxEntry ∧ ∀ v ∈ values, v.mKeyKVNO ≠ 0 ∧ v.latestKeyKVNO ≠ 0 →
      AuxFits v := by
  induction fuel generalizing data values with
  | zero =>
    obtain rfl := ok.inj h
    exact ⟨length_eq_zero_iff.1 (by omega), fun _ hv => absurd hv not_mem_nil⟩
  | succ fuel ih =>
    by_cases hnil : data = []
    · subst hnil
      obtain rfl := ok.inj h
      exact ⟨rfl, fun _ hv => absurd hv not_mem_nil⟩
    rw [auxEntries] at h
    · obtain ⟨hlen, h⟩ := ensure_bind_ok.1 h
      obtain ⟨hlength, h⟩ := ensure_bind_ok.1 h
      obtain ⟨rest, hrest, h⟩ := bind_ok.1 h
      obtain rfl := ok.inj h
      obtain ⟨hdrop, hall⟩ := ih hrest (by rw [length_drop]; omega)
      -- the four words in front of the key
      have htwo : ∀ n ≤ 6, ((data.drop n).take 2).length = 2 := by
        intro n hn
        rw [length_take, length_drop]
        omega
      have hbound : ∀ n ≤ 6, ofLE ((data.drop n).take 2) ≤ maxUint16 := by
        intro n hn
        have hlt := ofLE_lt ((data.drop n).take 2)
        rw [htwo n hn] at hlt
        exact Nat.le_of_lt_succ hlt
      have hfirst : (data.take 2).length = 2 := htwo 0 (by omega)
      have henctype : (Int32.ofNat (ofLE ((data.drop 4).take 2))).toInt =
          ofLE ((data.drop 4).take 2) :=
        toInt_ofNat_of_lt ((hbound 4 (by omega)).trans_lt (by decide))
      have hdata : ((data.drop 8).take (ofLE ((data.drop 6).take 2))).length =
          ofLE ((data.drop 6).take 2) := by
        rw [length_take, length_drop]
        omega
      refine ⟨?_, forall_mem_cons.2 ⟨fun hversions => ⟨hversions, ?_, ?_⟩, hall⟩⟩
      · rw [flatMap_cons, ← hdrop, auxEntry, henctype, hdata, Int.toNat_natCast,
          le16_ofLE (htwo 4 (by omega)), le16_ofLE (htwo 6 le_rfl), le16_uint16 hfirst,
            le16_uint16 (htwo 2 (by omega)), ← take_add, ← take_add,
          ← take_add, ← take_add, take_append_drop]
      · rw [henctype]
        exact ⟨Int.natCast_nonneg _, Int.ofNat_le.2 (hbound 4 (by omega))⟩
      · rw [hdata]
        exact hbound 6 le_rfl
    · exact hnil

theorem encodeMKEYAux_decode (h : decodeMKEYAux data = .ok values)
    (hversions : ∀ v ∈ values, v.mKeyKVNO ≠ 0 ∧ v.latestKeyKVNO ≠ 0) :
    encodeMKEYAux values = .ok data := by
  unfold decodeMKEYAux at h
  split_ifs at h with hnil hlen
  · obtain rfl := ok.inj h
    rw [hnil]
    rfl
  · obtain ⟨hdata, hall⟩ := auxEntries_ok h (by rw [length_drop]; omega)
    refine encodeMKEYAux_ok.2 ⟨fun v hv => hall v hv (hversions v hv), ?_⟩
    rw [if_neg, ← hdata, version_append (by omega) (by omega)]
    rintro rfl
    have hshort := drop_eq_nil_iff.1 hdata
    omega

/-- **The metadata of the master keys.** The lists that can be written are those read back from
their bytes, and what is read with non-zero versions is written as the same bytes: nothing truncated
is taken, and nothing behind the last entry. -/
theorem masterKeyMetadata_round_trip :
    (∀ (values : List ActKVNO) (data : Bytes), encodeACTKVNO values = .ok data ↔
      decodeACTKVNO data = .ok values) ∧
      ∀ (values : List MKeyAuxEntry) (data : Bytes), encodeMKEYAux values = .ok data ↔
        decodeMKEYAux data = .ok values ∧ ∀ v ∈ values, v.mKeyKVNO ≠ 0 ∧ v.latestKeyKVNO ≠ 0 := by
  refine ⟨fun values data => ⟨decodeACTKVNO_encode, encodeACTKVNO_decode⟩,
    fun values data => ⟨fun h => ?_, ?_⟩⟩
  · exact ⟨decodeMKEYAux_encode h, fun v hv => ((encodeMKEYAux_ok.1 h).1 v hv).1⟩
  · rintro ⟨h, hversions⟩
    exact encodeMKEYAux_decode h hversions

end Kerberos
