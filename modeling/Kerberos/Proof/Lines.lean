import Kerberos.Proof.Records

/-!
# A dump reads back line by line

`parse_written`: what `Parse` makes of a header, policy lines and principal lines. It
succeeds exactly when every policy's failure limit fits 31 bits and every principal has
keys, and then has each of them.
-/

namespace Kerberos.MITDump

open List Except Text

/-! ## Lines -/

theorem flatten_lines (ls : List Bytes) :
    (ls.map fun l => l ++ [newline]).flatten = joinFields newline (ls ++ [[]]) := by
  induction ls with
  | nil => simp
  | cons l ls ih =>
    cases ls with
    | nil => simp
    | cons m ls =>
      rw [map_cons, flatten_cons, ih]
      simp

theorem scanLines_flatten {ls : List Bytes} (h : ∀ l ∈ ls, newline ∉ l) :
    scanLines (ls.map fun l => l ++ [newline]).flatten = ls := by
  have hsplit : splitFields newline (ls.map fun l => l ++ [newline]).flatten = ls ++ [[]] := by
    rw [flatten_lines]
    refine fields_joinFields (by simp) fun l hl => ?_
    rcases mem_append.1 hl with hl | hl
    · exact h l hl
    · rw [mem_singleton.1 hl]
      simp
  unfold scanLines
  rw [hsplit]
  simp

/-! ## Policies -/

/-- The fields of a policy's line. -/
def policyFields (policy : PolicyRecord) : List Bytes :=
  [str "policy", policy.name, Text.formatInt policy.minLife.toInt,
    formatInt policy.maxLife.toInt, formatInt policy.minLength.toInt,
    formatInt policy.minClasses.toInt, formatInt policy.historyNum.toInt, Text.decimal 0,
    Text.decimal policy.maxFailure.toNat, formatInt policy.failureCountInterval.toInt,
    formatInt policy.lockoutDuration.toInt, formatInt policy.attributes.toInt,
    formatInt policy.maxTicketLife.toInt, formatInt policy.maxRenewableLife.toInt,
    (if policy.allowedKeySalts = [] then str "-" else policy.allowedKeySalts), Text.decimal 0]

/-- The texts of a policy do not break its line. -/
def PolicyPlain (policy : PolicyRecord) : Prop :=
  Text.FreeOf separators policy.name ∧ Text.FreeOf separators policy.allowedKeySalts

/-- A policy as a dump gives it back: a single dash stands for no key salts. -/
def restoredPolicy (policy : PolicyRecord) : PolicyRecord :=
  { policy with allowedKeySalts := if policy.allowedKeySalts = str "-" then []
      else policy.allowedKeySalts }

variable {policy : PolicyRecord}

theorem freeOf_policyFields (h : PolicyPlain policy) {f : Bytes}
    (hf : f ∈ policyFields policy) : Text.FreeOf separators f := by
  simp only [policyFields, mem_cons, not_mem_nil, or_false] at hf
  rcases hf with rfl | rfl | rfl | rfl | rfl | rfl | rfl | rfl | rfl | rfl | rfl | rfl | rfl |
    rfl | rfl | rfl
  · decide
  · exact h.1
  all_goals first
    | exact freeOf_int _
    | exact freeOf_number _
    | skip
  split_ifs
  · decide
  · exact h.2

theorem parseInt_int32 (v : Int32) (field : String) :
    parseInt (formatInt v.toInt) field = .ok v.toInt :=
  parseInt_formatInt v.le_toInt v.toInt_lt field

theorem ofInt_toUInt32 (v : UInt32) : (Int32.ofInt (v.toNat : ℤ)).toUInt32 = v := by
  simp [Int32.ofInt]

/-- The numbers of a policy's line. -/
def policyNumbers (policy : PolicyRecord) : List ℤ :=
  [policy.minLife.toInt, policy.maxLife.toInt, policy.minLength.toInt, policy.minClasses.toInt,
    policy.historyNum.toInt, 0, policy.maxFailure.toNat, policy.failureCountInterval.toInt,
    policy.lockoutDuration.toInt, policy.attributes.toInt, policy.maxTicketLife.toInt,
    policy.maxRenewableLife.toInt]

/-- All numbers of a policy's line but its failure limit are sure to fit. -/
theorem mapM_policyNumbers (policy : PolicyRecord) :
    (((policyFields policy).drop 2).take 12).mapM (fun value => parseInt value "policy field") =
      if policy.maxFailure.toNat < 2 ^ 31 then .ok (policyNumbers policy)
      else .error "invalid policy field" := by
  have hzero : parseInt (Text.decimal 0) "policy field" = .ok 0 := parseInt_decimal (by norm_num) _
  simp only [policyFields, drop_succ_cons, drop_zero, take_succ_cons, take_zero, mapM_cons,
    parseInt_int32]
  split_ifs with hmax
  · rw [parseInt_decimal hmax]
    rfl
  · have hrange : parseInt (Text.decimal policy.maxFailure.toNat) "policy field" =
        .error "invalid policy field" := by
      unfold parseInt
      rw [parseInt_decimal_none (by omega)]
      rfl
    rw [hrange]
    rfl

theorem policyOf_written (policy : PolicyRecord) :
    policyOf (policyFields policy) (policyNumbers policy) = restoredPolicy policy := by
  have hsalts :
    (if (if policy.allowedKeySalts = [] then str "-" else policy.allowedKeySalts) = str "-"
      then [] else if policy.allowedKeySalts = [] then str "-" else policy.allowedKeySalts) =
      if policy.allowedKeySalts = str "-" then [] else policy.allowedKeySalts := by
    by_cases h : policy.allowedKeySalts = []
    · simp [h]
    · simp [h]
  simp only [policyOf, policyFields, policyNumbers, getD_cons_succ, getD_cons_zero,
    Int32.ofInt_toInt, ofInt_toUInt32, length_cons, Nat.reduceLeDiff, if_true, hsalts]
  rfl

/-- A policy's line reads back if its failure limit is one of 31 bits. -/
theorem parsePolicyRecord_written (h : PolicyPlain policy) :
    parsePolicyRecord (joinFields tab (policyFields policy)) =
      if policy.maxFailure.toNat < 2 ^ 31 then .ok (restoredPolicy policy)
      else .error "invalid policy field" := by
  have hsplit : splitFields tab (joinFields tab (policyFields policy)) =
      policyFields policy :=
    fields_joinFields (by simp [policyFields]) fun f hf hmem =>
      freeOf_policyFields h hf tab hmem (by decide)
  unfold parsePolicyRecord
  simp only [hsplit, mapM_policyNumbers]
  split_ifs with hmax
  · rw [ok_bind, policyOf_written]
    rfl
  · rfl

/-! ## One line -/

theorem dropCR_of_last {text : Bytes} {c : UInt8} (h : text.getLast? = some c) (hc : c ≠ 13) :
    dropCR text = text := by
  unfold dropCR
  rw [h, if_neg (by simpa using hc)]

theorem scanned_line {text : Bytes} {c : UInt8} (h : text.getLast? = some c) (hc : c ≠ 13)
    (hlen : text.length < maxLineSize) (error : String) : scanned text error = .ok text := by
  unfold scanned
  rw [ensure_bind hlen, dropCR_of_last h hc, dropCR_of_last h hc]
  rfl

/-- The text of a policy's line. -/
def policyText (policy : PolicyRecord) : Bytes := joinFields tab (policyFields policy)

variable {out : FileStore}

theorem parseLine_policy (h : PolicyPlain policy)
    (hlen : (policyText policy).length < maxLineSize) (store : FileStore) (n : ℕ) :
    parseLine store (policyText policy, n) = .ok out ↔ policy.maxFailure.toNat < 2 ^ 31 ∧
        out =
          { store with policies := store.policies.insert policy.name (restoredPolicy policy) } := by
  have hlast : (policyText policy).getLast? = some 48 :=
    getLast?_joinFields tab (policyFields policy).dropLast (Text.decimal 0)
      (decimal_ne_nil 0)
  have hblank : isBlank (policyText policy) = false := by
    rfl
  have hpolicy : (str "policy\t").isPrefixOf (policyText policy) = true := by
    rfl
  unfold parseLine
  rw [scanned_line hlast (by decide) hlen, ok_bind, if_neg (by simp [hblank]), if_pos hpolicy]
  simp only [bind_ok]
  unfold policyText
  rw [parsePolicyRecord_written h]
  split_ifs with hmax
  · constructor
    · rintro ⟨p, hp, hout⟩
      cases hp
      cases hout
      exact ⟨hmax, rfl⟩
    · rintro ⟨_, rfl⟩
      exact ⟨_, rfl, rfl⟩
  · constructor
    · rintro ⟨p, hp, _⟩
      cases hp
    · rintro ⟨h, _⟩
      exact absurd h hmax

/-- A principal's line as the writer has written it: the record, the tagged data it was given and
the ciphertexts of its keys. -/
structure Written (env : KDB.Env) where
  record : PrincipalRecord
  name : Bytes
  tl : List TLData
  etype : EType
  key : Bytes
  cts : List Bytes
  format : record.name.format = .ok name
  fits : RecordFits env record tl
  sealed : Sealed env etype key record cts
  ctLength : ∀ ct ∈ cts, ct.length < 2 ^ 31
  short : (joinFields tab (recordFields env record name tl cts)).length < maxLineSize

namespace Written

variable {env : KDB.Env} (w : Written env)

/-- The text of the line. -/
def text : Bytes := joinFields tab (recordFields env w.record w.name w.tl w.cts)

/-- The record as it is read back, its keys still sealed. -/
def parsed : PrincipalRecord := sealedRecord env w.record w.tl w.cts

/-- The key the record is filed under. -/
def filed : Bytes := canonical w.record.name

end Written

/-- The fields that KADM data decides. -/
structure KADMFields where
  policy : Bytes
  kadmAuxAttributes : UInt32
  adminHistoryNext : UInt32
  adminHistoryKVNO : UInt32

/-- The record with these KADM fields. -/
def withKADM (record : PrincipalRecord) (fields : KADMFields) : PrincipalRecord :=
  { record with
    policy := fields.policy, kadmAuxAttributes := fields.kadmAuxAttributes
    adminHistoryNext := fields.adminHistoryNext, adminHistoryKVNO := fields.adminHistoryKVNO }

/-- The fields that KADM data decides, taken from a record. -/
def kadmOf (record : PrincipalRecord) : KADMFields :=
  ⟨record.policy, record.kadmAuxAttributes, record.adminHistoryNext, record.adminHistoryKVNO⟩

/-- What one entry of tagged data makes of these fields. -/
def noteFields (fields : KADMFields) (item : TLData) : KADMFields :=
  kadmOf (noteKADM (withKADM { name := ⟨[], 0, []⟩ } fields) item)

theorem noteKADM_eq (record : PrincipalRecord) (item : TLData) :
    noteKADM record item = withKADM record (noteFields (kadmOf record) item) := by
  unfold noteFields noteKADM
  split_ifs
  · cases decodeKADMPolicy item.data with
    | none => cases parseKADMDataMetadata item.data <;> rfl
    | some policy => cases parseKADMDataMetadata item.data <;> rfl
  · rfl

theorem foldl_noteKADM (tl : List TLData) (record : PrincipalRecord) :
    tl.foldl noteKADM record = withKADM record (tl.foldl noteFields (kadmOf record)) := by
  induction tl generalizing record with
  | nil => rfl
  | cons item tl ih =>
    rw [foldl_cons, noteKADM_eq, ih]
    rfl

variable {env : KDB.Env} (w : Written env)

theorem Written.parsed_name : w.parsed.name = w.record.name.plain := by
  rw [parsed, sealedRecord, foldl_noteKADM]
  rfl

/-- A store with one more record. -/
def fileRecord (store : FileStore) (w : Written env) : FileStore :=
  { store with
    records := store.records.insert w.filed w.parsed
    realm := if store.realm = [] ∧ ¬ isForeignTGT w.record.name then w.record.name.realm
      else store.realm }

theorem parseLine_record (store : FileStore) (n : ℕ) : parseLine store (w.text, n) = .ok out ↔
      dumpedKeys env w.record ≠ [] ∧ w.filed ∉ store.records ∧ out = fileRecord store w := by
  have hlast : w.text.getLast? = some 59 := getLast?_joinFields tab _ _ (by decide)
  have hblank : isBlank w.text = false := by
    rfl
  have hpolicy : (str "policy\t").isPrefixOf w.text = false := by
    rfl
  have hkey : canonical w.parsed.name = w.filed := by
    rw [w.parsed_name]
    rfl
  have hfile : fileRecord store w = { store with
      records := store.records.insert (canonical w.parsed.name) w.parsed
      realm := if store.realm = [] ∧ ¬ isForeignTGT w.parsed.name then w.parsed.name.realm
        else store.realm } := by
    rw [w.parsed_name]
    rfl
  unfold parseLine
  rw [scanned_line hlast (by decide) w.short, ok_bind, if_neg (by simp [hblank]),
    if_neg (by simp [hpolicy])]
  simp only [bind_ok, ensure_ok]
  unfold Written.text
  rw [parseRecord_written w.format w.fits w.sealed w.ctLength]
  unfold parsedRecord
  split_ifs with hk
  · simp [hk]
  · constructor
    · rintro ⟨r, hr, _, hnew, hout⟩
      cases hr
      cases hout
      exact ⟨hk, hkey ▸ hnew, hfile.symm⟩
    · rintro ⟨_, hnew, rfl⟩
      exact ⟨w.parsed, rfl, (), hkey ▸ hnew, congrArg ok hfile.symm⟩

/-! ## The loop over the lines -/

variable (policies : List PolicyRecord)

/-- The policies of a dump, filed by name. -/
def filePolicies (m : GoMap Bytes PolicyRecord) :
    GoMap Bytes PolicyRecord := policies.foldl (fun m p => m.insert p.name (restoredPolicy p)) m

theorem foldlM_policies {policies : List PolicyRecord} (hplain : ∀ p ∈ policies, PolicyPlain p)
    (hlen : ∀ p ∈ policies, (policyText p).length < maxLineSize) (n : ℕ) (store : FileStore) :
    ((policies.map policyText).zipIdx n).foldlM parseLine store = .ok out ↔
      (∀ p ∈ policies, p.maxFailure.toNat < 2 ^ 31) ∧
        out = { store with policies := filePolicies policies store.policies } := by
  induction policies generalizing n store with
  | nil =>
    exact ⟨fun h => ⟨fun _ hp => absurd hp not_mem_nil, (ok.inj h).symm⟩,
      fun h => congrArg ok h.2.symm⟩
  | cons p policies ih =>
    obtain ⟨hp, hplain⟩ := forall_mem_cons.1 hplain
    obtain ⟨hl, hlen⟩ := forall_mem_cons.1 hlen
    rw [map_cons, zipIdx_cons, foldlM_cons, bind_ok]
    simp only [parseLine_policy hp hl, ih hplain hlen, forall_mem_cons]
    constructor
    · rintro ⟨_, ⟨hmax, rfl⟩, hall, rfl⟩
      exact ⟨⟨hmax, hall⟩, rfl⟩
    · rintro ⟨⟨hmax, hall⟩, rfl⟩
      exact ⟨_, ⟨hmax, rfl⟩, hall, rfl⟩

/-- Lines of different principals are all filed, if each has keys. -/
theorem foldlM_records {ws : List (Written env)} (hnodup : (ws.map Written.filed).Nodup)
    (n : ℕ) (store : FileStore) (hnew : ∀ w ∈ ws, w.filed ∉ store.records) :
    ((ws.map Written.text).zipIdx n).foldlM parseLine store = .ok out ↔
      (∀ w ∈ ws, dumpedKeys env w.record ≠ []) ∧ out = ws.foldl fileRecord store := by
  induction ws generalizing n store with
  | nil =>
    exact ⟨fun h => ⟨fun _ hw => absurd hw not_mem_nil, (ok.inj h).symm⟩,
      fun h => congrArg ok h.2.symm⟩
  | cons w ws ih =>
    obtain ⟨hw, hnodup⟩ := nodup_cons.1 hnodup
    obtain ⟨hwnew, hnew⟩ := forall_mem_cons.1 hnew
    have hnext : ∀ v ∈ ws, v.filed ∉ (fileRecord store w).records := by
      intro v hv hmem
      rcases (AList.mem_insert _).1 hmem with heq | hmem
      · exact hw (heq ▸ mem_map_of_mem hv)
      · exact hnew v hv hmem
    rw [map_cons, zipIdx_cons, foldlM_cons, bind_ok]
    simp only [parseLine_record, forall_mem_cons]
    constructor
    · rintro ⟨_, ⟨hk, _, rfl⟩, hrest⟩
      obtain ⟨hall, rfl⟩ := (ih hnodup (n + 1) _ hnext).1 hrest
      exact ⟨⟨hk, hall⟩, rfl⟩
    · rintro ⟨⟨hk, hall⟩, rfl⟩
      exact ⟨_, ⟨hk, hwnew, rfl⟩, (ih hnodup (n + 1) _ hnext).2 ⟨hall, rfl⟩⟩

variable (ws : List (Written env))

theorem records_foldl_fileRecord (store : FileStore) : (ws.foldl fileRecord store).records =
      ws.foldl (fun m w => m.insert w.filed w.parsed) store.records := by
  induction ws generalizing store with
  | nil => rfl
  | cons w ws ih => rw [foldl_cons, ih, foldl_cons]; rfl

theorem policies_foldl_fileRecord (store : FileStore) :
    (ws.foldl fileRecord store).policies = store.policies := by
  induction ws generalizing store with
  | nil => rfl
  | cons w ws ih => rw [foldl_cons, ih]; rfl

theorem realm_foldl_fileRecord {store : FileStore}
    (h : store.realm ≠ []) : (ws.foldl fileRecord store).realm = store.realm := by
  induction ws generalizing store with
  | nil => rfl
  | cons w ws ih =>
    have hkeep : (fileRecord store w).realm = store.realm := if_neg fun hc => h hc.1
    rw [foldl_cons, ih (by rwa [hkeep]), hkeep]

/-! ## The dump -/

/-- The text of a dump with these lines. -/
def dumpText : Bytes :=
  headerVersion7 ++ [newline] ++ (policies.map fun p => policyText p ++ [newline]).flatten ++
    (ws.map fun w => w.text ++ [newline]).flatten

theorem newline_notMem_text : newline ∉ w.text := by
  intro hmem
  rcases mem_joinFields hmem with h | ⟨f, hf, hc⟩
  · exact absurd h (by decide)
  · exact freeOf_recordFields w.format w.tl w.cts hf newline hc (by decide)

theorem newline_notMem_policyText (h : PolicyPlain policy) : newline ∉ policyText policy := by
  intro hmem
  rcases mem_joinFields hmem with heq | ⟨f, hf, hc⟩
  · exact absurd heq (by decide)
  · exact freeOf_policyFields h hf newline hc (by decide)

theorem scanLines_dumpText {policies : List PolicyRecord} {ws : List (Written env)}
    (hplain : ∀ p ∈ policies, PolicyPlain p) : scanLines (dumpText policies ws) =
      headerVersion7 :: (policies.map policyText ++ ws.map Written.text) := by
  have hlines : dumpText policies ws =
      ((headerVersion7 :: (policies.map policyText ++ ws.map Written.text)).map
        fun l => l ++ [newline]).flatten := by
    simp [dumpText, Function.comp_def]
  rw [hlines]
  refine scanLines_flatten fun l hl => ?_
  rcases mem_cons.1 hl with rfl | hl
  · decide
  · rcases mem_append.1 hl with hl | hl
    · obtain ⟨p, hp, rfl⟩ := mem_map.1 hl
      exact newline_notMem_policyText (hplain p hp)
    · obtain ⟨w, _, rfl⟩ := mem_map.1 hl
      exact newline_notMem_text w

/-- What a dump is read back to. -/
def parsedStore : FileStore :=
  ws.foldl fileRecord { policies := filePolicies policies ∅ }

theorem realm_parsedStore {w : Written env} (hfirst : isForeignTGT w.record.name = false)
    (hrealm : w.record.name.realm ≠ []) :
    (parsedStore policies (w :: ws)).realm = w.record.name.realm := by
  unfold parsedStore
  rw [foldl_cons, realm_foldl_fileRecord]
  · simp [fileRecord, hfirst]
  · simp [fileRecord, hfirst, hrealm]

/-- **A dump reads back line by line.** The first line is that of a principal of the realm, so
that the realm is known. -/
theorem parse_written {policies : List PolicyRecord} {w : Written env}
    {ws : List (Written env)} (hplain : ∀ p ∈ policies, PolicyPlain p)
    (hlen : ∀ p ∈ policies, (policyText p).length < maxLineSize)
    (hnodup : ((w :: ws).map Written.filed).Nodup) (hfirst : isForeignTGT w.record.name = false)
    (hrealm : w.record.name.realm ≠ []) : parse (dumpText policies (w :: ws)) = .ok out ↔
      ((∀ p ∈ policies, p.maxFailure.toNat < 2 ^ 31) ∧
        ∀ v ∈ w :: ws, dumpedKeys env v.record ≠ []) ∧ out = parsedStore policies (w :: ws) := by
  have hheader : scanned headerVersion7 "read MIT dump header: token too long" =
      .ok headerVersion7 :=
    scanned_line (c := 55) (by decide) (by decide) (by decide) _
  have hne : (parsedStore policies (w :: ws)).realm ≠ [] := by
    rwa [realm_parsedStore policies ws hfirst hrealm]
  have hnonempty : (parsedStore policies (w :: ws)).records.entries ≠ [] := by
    intro hnil
    have hmem : w.filed ∈ (parsedStore policies (w :: ws)).records := by
      rw [parsedStore, records_foldl_fileRecord, AList.mem_foldl_insert]
      exact .inr ⟨w, by simp, rfl⟩
    rw [AList.mem_keys, AList.keys, hnil] at hmem
    simp at hmem
  unfold parse
  simp only [scanLines_dumpText hplain]
  rw [hheader, ok_bind, ensure_bind (.inr rfl), zipIdx_append, foldlM_append]
  simp only [bind_ok, foldlM_policies hplain hlen, ensure_ok]
  constructor
  · rintro ⟨store, ⟨_, ⟨hmax, rfl⟩, hrecs⟩, _, _, hout⟩
    obtain ⟨hkeys, rfl⟩ := (foldlM_records hnodup _ _ (by simp)).1 hrecs
    cases hout
    refine ⟨⟨hmax, hkeys⟩, ?_⟩
    unfold parsedStore at hne ⊢
    rw [if_neg hne]
  · rintro ⟨⟨hmax, hkeys⟩, rfl⟩
    refine ⟨parsedStore policies (w :: ws), ⟨_, ⟨hmax, rfl⟩, ?_⟩, (), hnonempty, ?_⟩
    · exact (foldlM_records hnodup _ _ (by simp)).2 ⟨hkeys, rfl⟩
    · rw [if_neg hne]
      rfl

theorem records_parsedStore :
    (parsedStore policies ws).records = ws.foldl (fun m w => m.insert w.filed w.parsed) ∅ :=
  records_foldl_fileRecord ws _

theorem policies_parsedStore : (parsedStore policies ws).policies = filePolicies policies ∅ :=
  policies_foldl_fileRecord ws _

end Kerberos.MITDump
