import Kerberos.Proof.Fields

/-!
# A principal's line reads back

`writePrincipalRecord_ok` says what the writer asks of a record (`RecordFits`) and
which fields it writes. `parseRecord_written` is what the parser makes of them: the
record with its keys still sealed (`sealedRecord`), or an error where the record has no
keys to write.
-/

namespace Kerberos.MITDump

open Reader List Except Text Reads Ends

variable (value : ℤ)

/-- A duration a dump can hold: whole seconds, in 31 bits. -/
def DurationFits : Prop := 0 ≤ value ∧ value % second = 0 ∧ value / second < 2 ^ 31

/-- An instant a dump can hold. -/
def EpochFits : Prop := value = zeroTime ∨ (0 ≤ value / second ∧ value / second < 2 ^ 32)

/-- What the writer asks of a record that it writes with the tagged data `tl`. -/
structure RecordFits (env : KDB.Env) (record : PrincipalRecord) (tl : List TLData) : Prop where
  name : ∀ name, record.name.format = .ok name → name.length < 2 ^ 31
  tlCount : tl.length ≤ maxUint16
  tlData : ∀ data ∈ tl, TLFits data
  flags : record.flags.toNat < 2 ^ 31
  maxLife : DurationFits record.maxLife
  maxRenew : DurationFits record.maxRenew
  expiration : EpochFits record.expiration
  passwordExpiration : EpochFits record.passwordExpiration
  lastSuccess : EpochFits record.lastSuccess
  lastFailed : EpochFits record.lastFailed
  keyCount : (dumpedKeys env record).length ≤ maxUint16
  keys : ∀ key ∈ dumpedKeys env record, KeyFits env record.name key

def durationText : Bytes := Text.decimal (value / second).toNat

def epochText : Bytes :=
  if value = zeroTime then Text.decimal 0 else Text.decimal (value / second).toNat

def tlText (data : TLData) : List Bytes :=
  [formatInt data.type.toInt, Text.decimal data.data.length, dumpOctets data.data]

/-- The fields of a record's line in front of its tagged data. -/
def leadingFields (env : KDB.Env) (record : PrincipalRecord) (name : Bytes) (tl : List TLData) :
    List Bytes :=
  [str "princ", Text.decimal 38, Text.decimal name.length, Text.decimal tl.length,
    Text.decimal (dumpedKeys env record).length, Text.decimal 0, name,
    Text.decimal record.flags.toNat, durationText record.maxLife, durationText record.maxRenew,
    epochText record.expiration, epochText record.passwordExpiration, epochText record.lastSuccess,
    epochText record.lastFailed, Text.decimal record.failAuthCount.toNat]

/-- The fields of the keys of a record sealed to the ciphertexts `cts`. -/
def keyDataFields (env : KDB.Env) (record : PrincipalRecord) (cts : List Bytes) :
    List (List Bytes) :=
  List.zipWith (keyFields record.name) (dumpedKeys env record) cts

/-- The fields of a record's line. -/
def recordFields (env : KDB.Env) (record : PrincipalRecord) (name : Bytes) (tl : List TLData)
    (cts : List Bytes) : List Bytes :=
  leadingFields env record name tl ++ tl.flatMap tlText ++ (keyDataFields env record cts).flatten ++
    [str "-1;"]

/-- The keys of a record sealed to `cts` by `etype` under `key`. -/
def Sealed (env : KDB.Env) (etype : EType) (key : Bytes) (record : PrincipalRecord)
    (cts : List Bytes) : Prop :=
  List.Forall₂ (fun k ct => etype.encrypt key 0 k.key = some ct) (dumpedKeys env record) cts

/-! ## The writer -/

variable {tl : List TLData}

theorem mapM_tlFields {fields : List (List Bytes)} :
    tl.mapM tlFields = .ok fields ↔ (∀ data ∈ tl, TLFits data) ∧ fields = tl.map tlText := by
  rw [mapM_ok]
  constructor
  · intro h
    induction h with
    | nil => simp
    | cons hx _ ih =>
      obtain ⟨hfit, rfl⟩ := tlFields_ok.1 hx
      obtain ⟨hall, rfl⟩ := ih
      exact ⟨forall_mem_cons.2 ⟨hfit, hall⟩, rfl⟩
  · rintro ⟨hall, rfl⟩
    induction tl with
    | nil => exact .nil
    | cons data tl ih =>
      obtain ⟨hfit, hall⟩ := forall_mem_cons.1 hall
      exact .cons (tlFields_ok.2 ⟨hfit, rfl⟩) (ih hall)

variable {env : KDB.Env} {etype : EType}

theorem mapM_encodeKeyData {name : Principal} {masterKey : Bytes} {keys : List Key}
    {fields : List (List Bytes)} :
    (keys.mapM fun key => encodeKeyData env name key etype masterKey) = .ok fields ↔
      (∀ key ∈ keys, KeyFits env name key) ∧
        ∃ cts, List.Forall₂ (fun k ct => etype.encrypt masterKey 0 k.key = some ct) keys cts ∧
          fields = List.zipWith (keyFields name) keys cts := by
  rw [mapM_ok]
  constructor
  · intro h
    induction h with
    | nil => exact ⟨by simp, [], .nil, rfl⟩
    | cons hx _ ih =>
      obtain ⟨hfit, ct, hct, rfl⟩ := encodeKeyData_ok.1 hx
      obtain ⟨hall, cts, hcts, rfl⟩ := ih
      exact ⟨forall_mem_cons.2 ⟨hfit, hall⟩, ct :: cts, .cons hct hcts, rfl⟩
  · rintro ⟨hall, cts, hcts, rfl⟩
    induction hcts with
    | nil => exact .nil
    | cons hct _ ih =>
      obtain ⟨hfit, hall⟩ := forall_mem_cons.1 hall
      exact .cons (encodeKeyData_ok.2 ⟨hfit, _, hct, rfl⟩) (ih hall)

variable {record : PrincipalRecord}

/-- **The writer.** A record is written exactly when it fits and the keys can be sealed. -/
theorem writePrincipalRecord_ok {masterKeys : List Key}
    {masterEType : EType} {masterKey : Bytes} {historyKey : Option Key} {text : Bytes} :
    writePrincipalRecord env record masterKeys masterEType masterKey historyKey = .ok text ↔
      ∃ name tl etype cts, record.name.format = .ok name ∧
        writtenTLData env record historyKey = .ok tl ∧ RecordFits env record tl ∧
        env.etype (selectMasterKey record masterKeys masterEType masterKey).enctype = some etype ∧
        Sealed env etype (selectMasterKey record masterKeys masterEType masterKey).key record cts ∧
        text = line (recordFields env record name tl cts) := by
  simp only [writePrincipalRecord, Except.bind_ok, within_ok, ensure_ok,
    ofOption_ok, dumpAttributes_ok, dumpDuration_ok, dumpEpoch_ok, mapM_tlFields,
    mapM_encodeKeyData]
  constructor
  · rintro ⟨name, hname, _, hlen, tl, htl, _, htlCount, _, ⟨hflags, rfl⟩, _, ⟨hlife, rfl⟩, _,
      ⟨hrenew, rfl⟩, _, ⟨hexp, rfl⟩, _, ⟨hpwexp, rfl⟩, _, hkeyCount, _, ⟨hsucc, rfl⟩, _,
        ⟨hfail, rfl⟩,
      _, ⟨htlFits, rfl⟩, etype, hetype, _, ⟨hkeys, cts, hcts, rfl⟩, htext⟩
    cases htext
    refine ⟨name, tl, etype, cts, hname, htl, ?_, hetype, hcts, rfl⟩
    refine ⟨?_, htlCount, htlFits, hflags, hlife, hrenew, hexp, hpwexp, hsucc, hfail,
      hkeyCount, hkeys⟩
    intro name' hname'
    rw [hname] at hname'
    cases hname'
    exact hlen
  · rintro ⟨name, tl, etype, cts, hname, htl, hfits, hetype, hcts, rfl⟩
    exact ⟨name, hname, (), hfits.name name hname, tl, htl, (), hfits.tlCount, _,
      ⟨hfits.flags, rfl⟩, _, ⟨hfits.maxLife, rfl⟩, _, ⟨hfits.maxRenew, rfl⟩, _,
        ⟨hfits.expiration, rfl⟩, _,
      ⟨hfits.passwordExpiration, rfl⟩, (), hfits.keyCount, _, ⟨hfits.lastSuccess, rfl⟩, _,
      ⟨hfits.lastFailed, rfl⟩, _, ⟨hfits.tlData, rfl⟩, etype, hetype, _,
      ⟨hfits.keys, cts, hcts, rfl⟩, rfl⟩

/-! ## The parser -/

/-- The keys of a record as a dump gives them back before they are opened. -/
def sealedKeys (env : KDB.Env) (record : PrincipalRecord) (cts : List Bytes) : List Key :=
  List.zipWith (sealedKey record.name) (dumpedKeys env record) cts

/-- A record as a dump gives it back before its keys are opened. -/
def sealedRecord (env : KDB.Env) (record : PrincipalRecord) (tl : List TLData) (cts : List Bytes) :
    PrincipalRecord :=
  tl.foldl noteKADM
    { name := record.name.plain
      keys := firstKeys (sealedKeys env record cts)
      keyData := sealedKeys env record cts
      kvno := maxKVNO (firstKeys (sealedKeys env record cts))
      flags := record.flags
      maxLife := record.maxLife
      maxRenew := record.maxRenew
      expiration := restoredTime record.expiration
      passwordExpiration := restoredTime record.passwordExpiration
      lastSuccess := restoredTime record.lastSuccess
      lastFailed := restoredTime record.lastFailed
      failAuthCount := record.failAuthCount
      tlData := tl }

/-- What the parser makes of a line without key data. -/
def parsedRecord (env : KDB.Env) (record : PrincipalRecord) (tl : List TLData) (cts : List Bytes) :
    Except String PrincipalRecord :=
  if dumpedKeys env record = [] then .error "principal has no keys"
  else .ok (sealedRecord env record tl cts)

theorem parseDuration_text {value : ℤ} (h : DurationFits value) (field : String) :
    parseDurationSeconds (durationText value) field = .ok value :=
  parseDuration_dumpDuration "" (dumpDuration_ok.2 ⟨h, rfl⟩)

theorem parseEpoch_text {value : ℤ} (h : EpochFits value) (field : String) :
    parseEpoch (epochText value) field = .ok (restoredTime value) :=
  parseEpoch_dumpEpoch "" (dumpEpoch_ok.2 ⟨h, rfl⟩)

theorem reads_tagged (h : ∀ data ∈ tl, TLFits data) :
    Reads (Reader.many tl.length readTLData) (tl.flatMap tlText) (.ok tl) := by
  refine many_ok (forall₂_map_right_iff.2 (forall₂_same.2 fun data hdata => ?_))
  exact reads_tlData (tlFields_ok.2 ⟨h data hdata, rfl⟩)

variable {key : Bytes} {cts : List Bytes}

theorem reads_keys (hfits : ∀ k ∈ dumpedKeys env record, KeyFits env record.name k)
    (hsealed : Sealed env etype key record cts) (hct : ∀ ct ∈ cts, ct.length < 2 ^ 31) :
    Reads (Reader.many (dumpedKeys env record).length (readKey record.name.plain))
      (keyDataFields env record cts).flatten (.ok (sealedKeys env record cts)) := by
  unfold keyDataFields sealedKeys
  unfold Sealed at hsealed
  generalize dumpedKeys env record = keys at hfits hsealed
  induction hsealed with
  | nil => exact pure []
  | cons _ _ ih =>
    obtain ⟨hfit, hfits⟩ := forall_mem_cons.1 hfits
    obtain ⟨hlen, hct⟩ := forall_mem_cons.1 hct
    exact step (reads_key hfit hlen) (final (ih hct hfits) (pure _))

theorem length_keyDataFields (hsealed : Sealed env etype key record cts) :
    (dumpedKeys env record).length ≤ (keyDataFields env record cts).flatten.length := by
  have hlen : (keyDataFields env record cts).length = (dumpedKeys env record).length := by
    rw [keyDataFields, length_zipWith, ← hsealed.length_eq, min_self]
  have hfields : ∀ fields ∈ keyDataFields env record cts, 1 ≤ fields.length := by
    intro fields hmem
    obtain ⟨i, hi, rfl⟩ := getElem_of_mem hmem
    simp only [keyDataFields, getElem_zipWith, keyFields, cons_append, length_cons]
    omega
  have := length_le_flatten hfields
  omega

variable {name : Bytes}

theorem readRecord_fields (hname : record.name.format = .ok name) (hfits : RecordFits env record tl)
    (hsealed : Sealed env etype key record cts) (hct : ∀ ct ∈ cts, ct.length < 2 ^ 31) (count : ℕ)
    (htlCount : tl.length ≤ count) (hkeyCount : (dumpedKeys env record).length ≤ count) :
    Ends (readRecord count)
      ((leadingFields env record name tl).tail ++ (tl.flatMap tlText ++
        ((keyDataFields env record cts).flatten ++ [str "-1"])))
          (parsedRecord env record tl cts) := by
  have hlen := hfits.name name hname
  have h16 : maxUint16 < 2 ^ 64 := by decide
  have htl := hfits.tlCount
  have hkeys := hfits.keyCount
  have hfail : record.failAuthCount.toNat < 2 ^ 32 := record.failAuthCount.toNat_lt
  have hflags : BitVec.ofInt 32 (record.flags.toNat : ℤ) = record.flags := by simp
  have hparse : within "principal name: " (parsePrincipal name) = .ok record.name.plain :=
    within_ok.2 (parsePrincipal_format hname)
  unfold readRecord leadingFields
  simp only [tail_cons, cons_append]
  -- the five counts of the header
  refine step (reads_field (parseUint_decimal (by norm_num) _)) ?_
  refine step (reads_field (parseUint_decimal (by omega) _)) ?_
  refine step (reads_field (parseUint_decimal (by omega) _)) ?_
  refine step (reads_field (parseUint_decimal (by omega) _)) ?_
  refine step (reads_field (parseUint_decimal (by norm_num) _)) ?_
  refine quiet (check (decide_eq_true ⟨htlCount, hkeyCount⟩) _) ?_
  -- the name
  refine step (next _ _) ?_
  rw [hparse]
  refine quiet (lift _) (quiet (check (decide_eq_true rfl) _) ?_)
  -- the attributes
  refine ends_need (by simp) ?_
  refine step (reads_field (parseInt_decimal hfits.flags _)) ?_
  refine quiet (check (decide_eq_true (by omega)) _) ?_
  refine step (reads_field (parseDuration_text hfits.maxLife _)) ?_
  refine step (reads_field (parseDuration_text hfits.maxRenew _)) ?_
  refine step (reads_field (parseEpoch_text hfits.expiration _)) ?_
  refine step (reads_field (parseEpoch_text hfits.passwordExpiration _)) ?_
  refine step (reads_field (parseEpoch_text hfits.lastSuccess _)) ?_
  refine step (reads_field (parseEpoch_text hfits.lastFailed _)) ?_
  refine step (reads_field (parseUint_decimal (by omega) _)) ?_
  refine quiet (check (decide_eq_true hfail) _) ?_
  -- tagged data and keys
  refine step (reads_tagged hfits.tlData) (step (reads_keys hfits.keys hsealed hct) ?_)
  refine step (next _ _) ?_
  have hnil : sealedKeys env record cts ≠ [] ↔ dumpedKeys env record ≠ [] := by
    rw [← length_pos_iff, ← length_pos_iff, sealedKeys, length_zipWith,
      ← hsealed.length_eq, min_self]
  have hparsed : parsedRecord env record tl cts =
      (ensure (sealedKeys env record cts ≠ []) "principal has no keys" >>= fun _ =>
        .ok (sealedRecord env record tl cts)) := by
    unfold parsedRecord Except.ensure
    by_cases hk : dumpedKeys env record = []
    · rw [if_pos hk, if_neg (mt hnil.1 (not_not_intro hk))]
      rfl
    · rw [if_neg hk, if_pos (hnil.2 hk)]
      rfl
  rw [hparsed]
  refine (last (ensure _ _) fun _ _ => pure_eq ?_).ends
  rw [hflags, UInt32.ofNat_toNat]
  rfl

/-! ## The line -/

/-- The bytes that separate the fields and the lines of a dump. -/
def separators : Bytes := [tab, newline]

theorem forall_separators {p : UInt8 → Prop} (htab : p tab) (hnewline : p newline) :
    ∀ c ∈ separators, p c :=
  forall_mem_cons.2 ⟨htab, forall_mem_singleton.2 hnewline⟩

theorem freeOf_number (n : ℕ) : Text.FreeOf separators (Text.decimal n) :=
  freeOf_decimal (forall_separators (by decide) (by decide)) n

theorem freeOf_int (z : ℤ) : Text.FreeOf separators (formatInt z) :=
  freeOf_formatInt (forall_separators (by decide) (by decide)) (by decide) z

theorem freeOf_hex (data : Bytes) : Text.FreeOf separators (encodeHex data) :=
  freeOf_encodeHex (forall_separators (by decide) (by decide)) data

theorem freeOf_tlText {data : TLData} {f : Bytes} (hf : f ∈ tlText data) :
    Text.FreeOf separators f := by
  simp only [tlText, mem_cons, not_mem_nil, or_false] at hf
  rcases hf with rfl | rfl | rfl
  · exact freeOf_int _
  · exact freeOf_number _
  · unfold dumpOctets
    split_ifs
    · decide
    · exact freeOf_hex _

theorem freeOf_keyFields {name : Principal} {key : Key} {ct f : Bytes}
    (hf : f ∈ keyFields name key ct) :
    Text.FreeOf separators f := by
  simp only [keyFields, mem_append, mem_cons, not_mem_nil, or_false] at hf
  rcases hf with (rfl | rfl | rfl | rfl | rfl) | hf
  · exact freeOf_number _
  · exact freeOf_number _
  · exact freeOf_int _
  · exact freeOf_number _
  · exact freeOf_hex _
  · split_ifs at hf
    · simp only [mem_cons, not_mem_nil, or_false] at hf
      rcases hf with rfl | rfl | rfl
      · exact freeOf_number _
      · exact freeOf_number _
      · exact freeOf_hex _
    · cases hf

theorem freeOf_epochText : Text.FreeOf separators (epochText value) := by
  unfold epochText
  split_ifs
  · exact freeOf_number _
  · exact freeOf_number _

theorem freeOf_recordFields (hname : record.name.format = .ok name) (tl : List TLData)
    (cts : List Bytes) {f : Bytes}
    (hf : f ∈ recordFields env record name tl cts) : Text.FreeOf separators f := by
  simp only [recordFields, mem_append, mem_singleton] at hf
  rcases hf with ((hf | hf) | hf) | rfl
  · simp only [leadingFields, mem_cons, not_mem_nil, or_false] at hf
    rcases hf with rfl | rfl | rfl | rfl | rfl | rfl | rfl | rfl | rfl | rfl | rfl | rfl | rfl |
      rfl | rfl
    · decide
    all_goals first
      | exact freeOf_format hname
      | exact freeOf_epochText _
      | exact freeOf_number _
  · obtain ⟨data, _, hf⟩ := mem_flatMap.1 hf
    exact freeOf_tlText hf
  · obtain ⟨fields, hmem, hf⟩ := mem_flatten.1 hf
    obtain ⟨i, hi, rfl⟩ := getElem_of_mem hmem
    simp only [keyDataFields, getElem_zipWith] at hf
    exact freeOf_keyFields hf
  · decide

/-- **A line reads back.** -/
theorem parseRecord_written (hname : record.name.format = .ok name)
    (hfits : RecordFits env record tl)
    (hsealed : Sealed env etype key record cts) (hct : ∀ ct ∈ cts, ct.length < 2 ^ 31) :
    parseRecord (joinFields tab (recordFields env record name tl cts)) =
      parsedRecord env record tl cts := by
  have hsplit : splitFields tab (joinFields tab (recordFields env record name tl cts)) =
      recordFields env record name tl cts :=
    fields_joinFields (by simp [recordFields]) fun f hf hmem =>
      freeOf_recordFields hname tl cts hf tab hmem (by decide)
  have htl : (tl.flatMap tlText).length = 3 * tl.length := by
    simp [tlText, mul_comm]
  have hkeys := length_keyDataFields hsealed
  have hlen : (recordFields env record name tl cts).length =
      16 + 3 * tl.length + (keyDataFields env record cts).flatten.length := by
    simp only [recordFields, length_append, leadingFields, length_cons, length_nil]
    omega
  have hread := readRecord_fields hname hfits hsealed hct
    (recordFields env record name tl cts).length (by omega) (by omega)
  have hlast : (recordFields env record name tl cts).getLast? = some (str "-1;") := by
    simp [recordFields]
  have hhead : (recordFields env record name tl cts).head? = some (str "princ") := by
    simp [recordFields, leadingFields]
  have hbody : (recordFields env record name tl cts).tail.dropLast ++ [(str "-1;").dropLast] =
      (leadingFields env record name tl).tail ++ (tl.flatMap tlText ++
        ((keyDataFields env record cts).flatten ++ [str "-1"])) := by
    have htail : (recordFields env record name tl cts).tail =
        ((leadingFields env record name tl).tail ++ (tl.flatMap tlText ++
          (keyDataFields env record cts).flatten)) ++ [str "-1;"] := by
      simp [recordFields, leadingFields]
    rw [htail, dropLast_concat]
    simp only [append_assoc]
    rfl
  unfold parseRecord
  simp only [hsplit, hlast, Option.getD_some]
  rw [ensure_of ⟨by omega, hhead⟩, hbody, hread]
  cases parsedRecord env record tl cts with
  | error e => rfl
  | ok r => rfl

end Kerberos.MITDump
