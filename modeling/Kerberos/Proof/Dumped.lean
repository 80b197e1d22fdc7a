import Kerberos.Proof.Recovery

/-!
# What a dump of a database has

`Dumpable` are the conditions under which a dump that was written can be read: the
names and texts do not clash with the format, the lines are not too long, and writer and
reader choose the same master key for every principal. `dump_ok` takes a dump apart:
it has a K/M line, a line for each other principal with a display name, and a line for
each policy.
-/

namespace Kerberos.MITDump

open List Except AList

/-- The name of the K/M principal of a realm. -/
def kmName (realm : Bytes) : Principal := ⟨realm, NTPrincipal, [str "K", str "M"]⟩

/-- The K/M principal of the database's realm, which is written from the master keys. -/
def IsKM (db : Database) (name : Principal) : Prop :=
  name.realm = db.realm ∧ isKMPrincipal name = true

instance (db : Database) (name : Principal) : Decidable (IsKM db name) :=
  inferInstanceAs (Decidable (_ ∧ _))

/-- The master-key version that a record names; none stands for version 1. -/
def wrapVersion (record : PrincipalRecord) : UInt32 :=
  match mkvno record.tlData with
  | .ok value => if value = 0 then 1 else value
  | .error _ => 1

/-- The room the line of a record needs, with one more entry of tagged data. -/
def recordRoom (env : KDB.Env) (record : PrincipalRecord) (name : Bytes) : ℕ :=
  512 + name.length + (tlSize record.tlData + 131134) + keySize (dumpedKeys env record)

/-- A name without zero bytes: then the key a principal is filed under determines it. -/
def ZeroFree (name : Principal) : Prop := 0 ∉ name.realm ∧ ∀ c ∈ name.components, 0 ∉ c

/-- The conditions under which a dump can be read again. -/
structure Dumpable (env : KDB.Env) (db : Database) (enctype : Int32) (key : Bytes) : Prop where
  realm : Text.FreeOf nameBytes db.realm
  newestFirst : NewestFirst (dumpMasterKeys db enctype key)
  /-- The supplied key is the newest one. -/
  supplied : ∀ latest ∈ (dumpMasterKeys db enctype key).head?, latest.enctype = enctype ∧
    latest.key = key
  /-- There is one master key, or every principal names a version there is. -/
  versions : (dumpMasterKeys db enctype key).length = 1 ∨ ∀ k r, db.principals.lookup k = some r →
    ∃ mk ∈ dumpMasterKeys db enctype key, mk.kvno = wrapVersion r
  zeroFree : 0 ∉ db.realm ∧ ∀ k r, db.principals.lookup k = some r → ZeroFree r.name
  policies : ∀ k p, db.policies.lookup k = some p → PolicyPlain p ∧ policySize p < maxLineSize
  room : ∀ k r, db.principals.lookup k = some r → ∀ name, r.name.format = .ok name →
    recordRoom env r name < maxLineSize
  masterRoom : ∀ name, (kmName db.realm).format = .ok name →
    512 + name.length + 3 * 131134 + keySize (dumpMasterKeys db enctype key) < maxLineSize

/-- What the conditions ask of one record. -/
def RecordDumpable (env : KDB.Env) (db : Database) (enctype : Int32) (key : Bytes)
    (record : PrincipalRecord) : Prop :=
  ((dumpMasterKeys db enctype key).length = 1 ∨
      ∃ mk ∈ dumpMasterKeys db enctype key, mk.kvno = wrapVersion record) ∧
    ZeroFree record.name ∧
    match record.name.format with
    | .ok name => recordRoom env record name < maxLineSize
    | .error _ => True

instance (name : Principal) : Decidable (ZeroFree name) := inferInstanceAs (Decidable (_ ∧ _))

instance (policy : PolicyRecord) : Decidable (PolicyPlain policy) :=
  inferInstanceAs (Decidable (_ ∧ _))

instance (keys : List Key) : Decidable (NewestFirst keys) :=
  inferInstanceAs (Decidable (List.Pairwise _ _))

instance (env : KDB.Env) (db : Database) (enctype : Int32) (key : Bytes)
    (record : PrincipalRecord) :
    Decidable (RecordDumpable env db enctype key record) := by
  unfold RecordDumpable
  cases record.name.format with
  | error e => exact inferInstanceAs (Decidable (_ ∧ _ ∧ True))
  | ok name => exact inferInstanceAs (Decidable (_ ∧ _ ∧ _ < _))

variable {env : KDB.Env} {db : Database}

/-- The conditions hold, by a check of the entries one by one. -/
theorem dumpable_of_entries {enctype : Int32} {key : Bytes}
    (hrealm : Text.FreeOf nameBytes db.realm ∧ 0 ∉ db.realm)
    (hkeys : NewestFirst (dumpMasterKeys db enctype key) ∧
      ∀ latest ∈ (dumpMasterKeys db enctype key).head?, latest.enctype = enctype ∧ latest.key = key)
    (hrecords : ∀ e ∈ db.principals.entries, RecordDumpable env db enctype key e.2)
    (hpolicies : ∀ e ∈ db.policies.entries, PolicyPlain e.2 ∧ policySize e.2 < maxLineSize)
    (hmaster : ∀ name ∈ (kmName db.realm).format.toOption,
      512 + name.length + 3 * 131134 + keySize (dumpMasterKeys db enctype key) < maxLineSize) :
    Dumpable env db enctype key := by
  have hrecord : ∀ k r, db.principals.lookup k = some r → RecordDumpable env db enctype key r :=
    fun k r hr => hrecords ⟨k, r⟩ (lookup_eq_some_iff.1 hr)
  refine ⟨hrealm.1, hkeys.1, hkeys.2, ?_,
    ⟨hrealm.2, fun k r hr => (hrecord k r hr).2.1⟩, ?_, ?_, ?_⟩
  · by_cases hone : (dumpMasterKeys db enctype key).length = 1
    · exact .inl hone
    · exact .inr fun k r hr => (hrecord k r hr).1.resolve_left hone
  · exact fun k p hp => hpolicies ⟨k, p⟩ (lookup_eq_some_iff.1 hp)
  · intro k r hr name hname
    have := (hrecord k r hr).2.2
    rwa [hname] at this
  · exact fun name hname => hmaster name (toOption_some.2 hname)

/-! ## Names -/

/-- The fields of the key a principal is filed under. -/
def canonicalFields (p : Principal) : List Bytes :=
  p.realm :: match p.components with
    | [] => [[]]
    | c :: cs => c :: cs

theorem splitFields_canonical {p : Principal} (hp : ZeroFree p) :
    Text.splitFields 0 (canonical p) = canonicalFields p := by
  have hjoin : canonical p = Text.joinFields 0 (canonicalFields p) := by
    unfold canonical canonicalFields
    cases p.components with
    | nil => rfl
    | cons c cs =>
      rfl
  rw [hjoin]
  refine Text.fields_joinFields (by simp [canonicalFields]) fun f hf => ?_
  rcases mem_cons.1 hf with rfl | hf
  · exact hp.1
  · cases hcomponents : p.components with
    | nil =>
      rw [hcomponents] at hf
      rw [mem_singleton.1 hf]
      exact not_mem_nil
    | cons c cs =>
      exact hp.2 f (hcomponents ▸ hf)

/-- Names without zero bytes are filed apart. -/
theorem canonical_inj {p q : Principal} (hp : ZeroFree p) (hq : ZeroFree q)
    (hne : q.components ≠ [])
    (hcomp : [] ∉ q.components) (h : canonical p = canonical q) :
    p.realm = q.realm ∧ p.components = q.components := by
  have hfields : canonicalFields p = canonicalFields q := by
    rw [← splitFields_canonical hp, h, splitFields_canonical hq]
  unfold canonicalFields at hfields
  obtain ⟨c, cs, hq⟩ := exists_cons_of_ne_nil hne
  rw [hq] at hfields hcomp ⊢
  cases hpc : p.components with
  | nil =>
    rw [hpc] at hfields
    injection hfields with _ hcs
    injection hcs with hc _
    exact absurd (hc ▸ mem_cons_self) hcomp
  | cons d ds =>
    rw [hpc] at hfields
    injection hfields with hrealm hcs
    exact ⟨hrealm, hcs⟩

/-- A name that is filed like a plain one is that name. -/
theorem name_of_canonical {p : Principal} {realm : Bytes} {nameType : Int32}
    {components : List Bytes}
    (hp : ZeroFree p) (hrealm : 0 ∉ realm)
    (hplain : (∀ c ∈ components, 0 ∉ c) ∧ components ≠ [] ∧ [] ∉ components)
    (h : canonical p = canonical ⟨realm, nameType, components⟩) :
    p.realm = realm ∧ p.components = components :=
  canonical_inj hp ⟨hrealm, hplain.1⟩ hplain.2.1 hplain.2.2 h

theorem isKM_of_canonical {p : Principal} (hp : ZeroFree p) (hrealm : 0 ∉ db.realm)
    (h : canonical p = canonical (kmName db.realm)) : IsKM db p := by
  obtain ⟨hrealm, hcomponents⟩ := name_of_canonical hp hrealm (by decide) h
  refine ⟨hrealm, ?_⟩
  rw [isKMPrincipal, hcomponents]
  rfl

/-! ## Lines -/

theorem tlSize_append (a b : List TLData) : tlSize (a ++ b) = tlSize a + tlSize b := by
  simp [tlSize]

theorem tlSize_filter_le (p : TLData → Bool) (tl : List TLData) :
    tlSize (tl.filter p) ≤ tlSize tl := by
  exact ((filter_sublist).map _).sum_le_sum (fun _ _ => Nat.zero_le _)

variable {historyKey : Option Key} {record : PrincipalRecord}

theorem tlSize_le {tl : List TLData} (hfits : ∀ data ∈ tl, TLFits data) :
    tlSize tl ≤ tl.length * 131134 := by
  have hone : ∀ x ∈ tl.map fun data => 64 + 2 * data.data.length, x ≤ 131134 := by
    intro x hx
    obtain ⟨data, hdata, rfl⟩ := mem_map.1 hx
    have := (hfits data hdata).2
    simp only [maxUint16] at this
    omega
  simpa [tlSize] using sum_le_card_nsmul _ _ hone

/-- Tagged data is written as it is, or with a new entry of KADM data behind it. -/
theorem writtenTLData_eq {tl : List TLData} (h : writtenTLData env record historyKey = .ok tl) :
    tl = record.tlData ∨ ∃ (p : TLData → Bool) (data : Bytes),
      (∀ item, item.type ≠ KADMDataType → p item = true) ∧
      tl = record.tlData.filter p ++ [⟨KADMDataType, data⟩] := by
  unfold writtenTLData at h
  split_ifs at h
  · obtain ⟨data, -, hpure⟩ := bind_ok.1 h
    cases hpure
    exact .inr ⟨_, data, fun _ => decide_eq_true, rfl⟩
  · obtain ⟨data, -, hpure⟩ := bind_ok.1 h
    cases hpure
    exact .inr ⟨fun _ => true, data, fun _ _ => rfl, by rw [filter_true]⟩
  · cases h
    exact .inl rfl

theorem tlSize_written {tl : List TLData} (h : writtenTLData env record historyKey = .ok tl)
    (hfits : ∀ data ∈ tl, TLFits data) : tlSize tl ≤ tlSize record.tlData + 131134 := by
  rcases writtenTLData_eq h with rfl | ⟨p, data, -, rfl⟩
  · omega
  · have hlast := tlSize_le (forall_mem_singleton.2 (hfits ⟨KADMDataType, data⟩ (by simp)))
    have hkept := tlSize_filter_le p record.tlData
    rw [length_singleton] at hlast
    rw [tlSize_append]
    omega

/-- A line of a dump, and how it was written. -/
structure WrittenFor (env : KDB.Env) (masterKeys : List Key) (masterEType : EType)
    (masterKey : Bytes)
    (historyKey : Option Key) (record : PrincipalRecord) (w : Written env) : Prop where
  eq : w.record = record
  tl : writtenTLData env record historyKey = .ok w.tl
  etype : env.etype (selectMasterKey record masterKeys masterEType masterKey).enctype = some w.etype
  key : w.key = (selectMasterKey record masterKeys masterEType masterKey).key

variable {masterKeys : List Key} {masterEType : EType} {masterKey : Bytes}

/-- The line of a record is short enough to be read. -/
def ShortLine (env : KDB.Env) (historyKey : Option Key) (record : PrincipalRecord) : Prop :=
  ∀ name tl, record.name.format = .ok name → writtenTLData env record historyKey = .ok tl →
    (∀ data ∈ tl, TLFits data) →
      512 + name.length + tlSize tl + keySize (dumpedKeys env record) < maxLineSize

theorem written_of_ok (laws : KDB.Laws env) {text : Bytes}
    (h : writePrincipalRecord env record masterKeys masterEType masterKey historyKey = .ok text)
    (hroom : ShortLine env historyKey record) :
    ∃ w : Written env, text = w.text ++ [newline] ∧
      WrittenFor env masterKeys masterEType masterKey historyKey record w := by
  obtain ⟨name, tl, etype, cts, hname, htl, hfits, hetype, hsealed, rfl⟩ :=
    writePrincipalRecord_ok.1 h
  have hct : ∀ ct ∈ cts, ct.length < 2 ^ 31 := by
    intro ct hmem
    obtain ⟨k, hk, hct⟩ := hsealed.exists_right hmem
    obtain ⟨t, ht, hsize⟩ := usableKey_iff.1 (hfits.keys k hk).1
    have h1 := (laws.length_encrypt hetype hct).2
    have h2 := (laws.keySize ht).2
    omega
  have hshort := lt_of_le_of_lt (length_recordFields laws hname hetype hfits hsealed)
    (hroom name tl hname htl hfits.tlData)
  exact ⟨⟨record, name, tl, etype, _, cts, hname, hfits, hsealed, hct, hshort⟩, rfl, rfl, htl,
    hetype, rfl⟩

theorem written_all (laws : KDB.Laws env) {records : List PrincipalRecord} {lines : List Bytes}
    (h : List.Forall₂ (fun record text =>
      writePrincipalRecord env record masterKeys masterEType masterKey historyKey =
      .ok text) records lines) (hroom : ∀ record ∈ records, ShortLine env historyKey record) :
    ∃ ws : List (Written env), lines = ws.map (fun w => w.text ++ [newline]) ∧
      List.Forall₂ (WrittenFor env masterKeys masterEType masterKey historyKey) records ws := by
  induction h with
  | nil => exact ⟨[], rfl, .nil⟩
  | cons hx _ ih =>
    obtain ⟨hr, hroom⟩ := forall_mem_cons.1 hroom
    obtain ⟨w, rfl, hw⟩ := written_of_ok laws hx hr
    obtain ⟨ws, rfl, hws⟩ := ih hroom
    exact ⟨w :: ws, rfl, .cons hw hws⟩

/-! ## The principals of a dump -/

/-- A record that has a line of its own. -/
def dumpsRecord (db : Database) (record : PrincipalRecord) : Bool :=
  record.name.format.isOk && !decide (IsKM db record.name)

/-- The records that have a line of their own. -/
def dumpedRecords (db : Database) : List PrincipalRecord :=
  db.principals.entries.filterMap fun e => if dumpsRecord db e.2 then some e.2 else none

theorem lookup_own {k : Bytes} (h : db.principals.lookup k = some record) :
    db.lookup record.name = some record := by
  unfold Database.lookup
  rw [db.principals_canonical k record h, h]

theorem dumpedRecord_entry {e : Sigma fun _ : Bytes => PrincipalRecord}
    (he : e ∈ db.principals.entries) {name : Bytes} (hname : e.2.name.format = .ok name) :
    dumpedRecord db name = .ok (if IsKM db e.2.name then none else some e.2) := by
  have hkm : (e.2.name.plain.realm = db.realm ∧ isKMPrincipal e.2.name.plain = true) ↔
      IsKM db e.2.name := Iff.rfl
  have hlookup : db.lookup e.2.name.plain = some e.2 := lookup_own (lookup_eq_some_iff.2 he)
  unfold dumpedRecord
  rw [parsePrincipal_format hname]
  simp only [within, Except.mapError, ok_bind, hlookup, hkm]
  split_ifs
  · rfl
  · rfl

theorem records_perm {records : List (Option PrincipalRecord)}
    (h : db.listPrincipals.mapM (dumpedRecord db) = .ok records) :
    records.reduceOption.Perm (dumpedRecords db) := by
  set names := db.principals.entries.filterMap fun e => e.2.name.format.toOption
  -- what is written for a name, as a function
  have hfun : records.reduceOption =
      db.listPrincipals.filterMap fun name => (dumpedRecord db name).toOption.join := by
    rw [mapM_ok] at h
    unfold reduceOption
    generalize db.listPrincipals = listed at h
    induction h with
    | nil => rfl
    | @cons name r _ _ hx _ ih =>
      rw [filterMap_cons, filterMap_cons, ih, hx]
      cases r with
      | none => rfl
      | some r => rfl
  have hsort : db.listPrincipals.Perm names := perm_insertionSort _ _
  have hentries : (names.filterMap fun name => (dumpedRecord db name).toOption.join) =
      dumpedRecords db := by
    rw [filterMap_filterMap]
    refine filterMap_congr fun e he => ?_
    cases hname : e.2.name.format with
    | error err => simp [Except.toOption, dumpsRecord, hname, isOk, Except.toBool]
    | ok name =>
      rw [show (ok name : Except String Bytes).toOption = some name from rfl, Option.bind_some,
        dumpedRecord_entry he hname]
      by_cases hkm : IsKM db e.2.name
      · simp [Except.toOption, dumpsRecord, hkm]
      · simp [Except.toOption, dumpsRecord, hname, Except.toBool]
  rw [hfun, ← hentries]
  exact hsort.filterMap _

theorem dumpedRecords_eq (db : Database) :
    dumpedRecords db = (db.principals.entries.map Sigma.snd).filter fun r => dumpsRecord db r := by
  rw [← filterMap_eq_filter, filterMap_map]
  rfl

theorem mem_dumpedRecords :
    record ∈ dumpedRecords db ↔ (∃ k, db.principals.lookup k = some record) ∧
      (∃ name, record.name.format = .ok name) ∧ ¬ IsKM db record.name := by
  rw [dumpedRecords_eq, mem_filter, mem_values, dumpsRecord]
  cases record.name.format with
  | error e => simp [isOk, Except.toBool]
  | ok name => simp [isOk, Except.toBool]

theorem lookup_dumped (h : record ∈ dumpedRecords db) : db.lookup record.name = some record :=
  have ⟨⟨_, hk⟩, _⟩ := mem_dumpedRecords.1 h
  lookup_own hk

theorem nodup_dumpedRecords (db : Database) :
    ((dumpedRecords db).map fun r => canonical r.name).Nodup := by
  rw [dumpedRecords_eq]
  exact (filter_sublist.map _).nodup (nodup_values db.principals_canonical)

/-! ## The policies of a dump -/

theorem policies_of_mapM {policies : List PolicyRecord} (h : (db.listPolicies.mapM fun name =>
      (db.getPolicy name).mapError fun _ => "MIT dump policy: policy not found") = .ok policies) :
    (policies.map PolicyRecord.name).Nodup ∧ ∀ p, p ∈ policies ↔
      ∃ k, db.policies.lookup k = some p := by
  rw [mapM_ok] at h
  have hget : ∀ name p, (db.getPolicy name).mapError
    (fun _ => "MIT dump policy: policy not found") =
      .ok p ↔ db.policies.lookup name = some p := by
    intro name p
    unfold Database.getPolicy
    cases db.policies.lookup name with
    | none => simp [ofOption, Except.mapError]
    | some q => simp [ofOption, Except.mapError]
  have hnames : policies.map PolicyRecord.name = db.listPolicies := by
    generalize db.listPolicies = listed at h
    induction h with
    | nil => rfl
    | cons hx _ ih => rw [map_cons, ih, db.policies_named _ _ ((hget _ _).1 hx)]
  have hlisted : db.listPolicies.Perm db.policies.keys := perm_insertionSort _ _
  refine ⟨?_, fun p => ⟨fun hp => ?_, ?_⟩⟩
  · rw [hnames]
    exact hlisted.nodup_iff.2 db.policies.keys_nodup
  · obtain ⟨name, _, hname⟩ := h.exists_right hp
    exact ⟨name, (hget _ _).1 hname⟩
  · rintro ⟨k, hk⟩
    have hmem : k ∈ db.listPolicies :=
      hlisted.mem_iff.2 (mem_keys.1 (lookup_isSome.1 (by rw [hk]; rfl)))
    obtain ⟨q, hq, hkq⟩ := h.exists_left hmem
    rw [(hget _ _).1 hkq] at hk
    exact Option.some.inj hk ▸ hq

/-! ## The dump -/

/-- The lines of a dump: of K/M, of the other principals and of the policies. -/
structure DumpedLines (env : KDB.Env) (db : Database) (enctype : Int32) (key : Bytes)
    (ml : MasterLine env) (ws : List (Written env)) (policies : List PolicyRecord) : Prop where
  masterRecord : ml.line.record = masterRecord (kmName db.realm) ml.masterKeys ml.line.tl
  masterKeys : ml.masterKeys = dumpMasterKeys db enctype key
  active : ml.active = activeFor db ml.latest
  aux : auxEntriesFor env db ml.latest ml.older = .ok ml.aux
  noKADM : ∀ data ∈ ml.line.tl, data.type ≠ KADMDataType
  nodup : ((ml.line :: ws).map Written.filed).Nodup
  written : ∀ w ∈ ws, w.record ∈ dumpedRecords db ∧ ∃ etype, env.etype enctype = some etype ∧
    WrittenFor env ml.masterKeys etype key (dumpHistoryKey env db) w.record w
  complete : ∀ record ∈ dumpedRecords db, ∃ w ∈ ws, w.record = record
  policyNames : (policies.map PolicyRecord.name).Nodup
  policies : ∀ p, p ∈ policies ↔ ∃ k, db.policies.lookup k = some p

theorem writtenTLData_masterRecord (env : KDB.Env) (km : Principal) (keys : List Key)
    (tl : List TLData)
    (historyKey : Option Key) :
    writtenTLData env (masterRecord km keys tl) historyKey = .ok tl := by
  have hpolicy : (masterRecord km keys tl).policy = [] := rfl
  have hhistory : (masterRecord km keys tl).passwordHistory = [] := rfl
  have haux : (masterRecord km keys tl).kadmAuxAttributes = 0 := rfl
  unfold writtenTLData
  rw [hpolicy, hhistory, haux, if_neg (by simp)]
  rfl

/-- **A dump taken apart.** -/
theorem dump_ok (laws : KDB.Laws env) {enctype : Int32} {key : Bytes}
    (hfit : Dumpable env db enctype key) {text : Bytes}
    (h : dumpWithMasterKey env db enctype key = .ok text) :
    ∃ ml ws policies, text = dumpText policies (ml.line :: ws) ∧
      DumpedLines env db enctype key ml ws policies := by
  simp only [dumpWithMasterKey, bind_ok, ensure_ok, ofOption_ok] at h
  obtain ⟨_, hrealm, etype, hetype, _, hsize, masterName, hmasterName, tl, htl, records, hrecords,
    policies, hpolicies, lines, hlines, hpure⟩ := h
  cases hpure
  have hkm : parsePrincipal (str "K/M@" ++ db.realm) = .ok (kmName db.realm) :=
    parsePrincipal_plain [str "K", str "M"] (by simp) (by decide) hrealm hfit.realm
  rw [hkm] at hmasterName
  cases hmasterName
  obtain ⟨latest, older, hkeys⟩ : ∃ latest older, dumpMasterKeys db enctype key =
      latest :: older := by
    refine exists_cons_of_ne_nil ?_
    unfold dumpMasterKeys
    split_ifs with hnil
    · simp
    · exact hnil
  have hsorted : NewestFirst (latest :: older) := hkeys ▸ hfit.newestFirst
  rw [hkeys] at htl hlines
  obtain ⟨aux, haux, hmeta, hkvno, hcount, hnoKADM⟩ := masterKeyTLData_ok htl
  -- every line is short enough to be read
  have hperm := records_perm hrecords
  have hroom : ∀ record ∈ masterRecord (kmName db.realm) (latest :: older) tl ::
    records.reduceOption,
      ShortLine env (dumpHistoryKey env db) record := by
    intro record hrecord name tl' hname htl' hfits
    rcases mem_cons.1 hrecord with rfl | hrecord
    · rw [writtenTLData_masterRecord] at htl'
      cases htl'
      have hmaster := hfit.masterRoom name hname
      rw [dumpedKeys_masterRecord env rfl (by simp) hsorted]
      have htlSize : tlSize tl ≤ 3 * 131134 :=
        (tlSize_le hfits).trans (Nat.mul_le_mul_right _ hcount)
      rw [hkeys] at hmaster
      omega
    · obtain ⟨⟨k, hk⟩, _, _⟩ := mem_dumpedRecords.1 (hperm.mem_iff.1 hrecord)
      have hr := hfit.room k record hk name hname
      have := tlSize_written htl' hfits
      unfold recordRoom at hr
      omega
  obtain ⟨ws, rfl, hws⟩ := written_all laws (mapM_ok.1 hlines) hroom
  obtain ⟨wm, ws, hwm, hrest, rfl⟩ := forall₂_cons_left_iff.1 hws
  have hselect : selectMasterKey (masterRecord (kmName db.realm) (latest :: older) tl)
      (latest :: older) etype key = latest := by
    unfold selectMasterKey
    simp only [show (masterRecord (kmName db.realm) (latest :: older) tl).tlData = tl from rfl,
      hmeta.version, if_neg hkvno.1, find?_cons, beq_self_eq_true, Option.getD_some]
  have hwtl : wm.tl = tl := by
    have := hwm.tl
    rw [writtenTLData_masterRecord] at this
    exact (ok.inj this).symm
  have hwetype := hwm.etype
  have hwkey := hwm.key
  rw [hselect] at hwetype hwkey
  have hname : wm.record.name = kmName db.realm := by rw [hwm.eq]; rfl
  have hmaster : wm.record = masterRecord (kmName db.realm) (latest :: older) wm.tl := by
    rw [hwtl]
    exact hwm.eq
  refine ⟨⟨wm, latest, older, activeFor db latest, aux, ?_, ?_, hsorted, hwetype, hwkey.symm,
    ?_, hkvno.1⟩,
    ws, policies, ?_, ?_⟩
  · rw [hname]
    rfl
  · rw [hwm.eq]
    exact dumpedKeys_masterRecord env rfl (by simp) hsorted tl
  · rw [hwtl]
    exact hmeta
  · rfl
  · have hrecord : ∀ w ∈ ws, ∃ record ∈ dumpedRecords db, w.record = record ∧
        WrittenFor env (latest :: older) etype key (dumpHistoryKey env db) record w := by
      intro w hw
      obtain ⟨record, hmem, hfor⟩ := hrest.exists_right hw
      exact ⟨record, hperm.mem_iff.1 hmem, hfor.eq, hfor⟩
    refine ⟨hmaster, hkeys.symm, rfl, haux, ?_, ?_, ?_, ?_, ?_, ?_⟩
    · rw [hwtl]
      exact hnoKADM
    · refine nodup_cons.2 ⟨?_, ?_⟩
      · intro hmem
        obtain ⟨w, hw, hkey⟩ := mem_map.1 hmem
        obtain ⟨record, hdumped, heq, _⟩ := hrecord w hw
        obtain ⟨⟨k, hk⟩, _, hnot⟩ := mem_dumpedRecords.1 hdumped
        have hcanonical : canonical record.name = canonical (kmName db.realm) := by
          rw [← heq, ← hname]
          exact hkey
        exact hnot (isKM_of_canonical (hfit.zeroFree.2 k record hk) hfit.zeroFree.1 hcanonical)
      · rw [← hrest.map_eq fun _ _ hw => by rw [Written.filed, hw.eq]]
        exact (hperm.map _).nodup_iff.2 (nodup_dumpedRecords db)
    · intro w hw
      obtain ⟨record, hdumped, rfl, hfor⟩ := hrecord w hw
      exact ⟨hdumped, etype, hetype, hfor⟩
    · intro record hdumped
      obtain ⟨w, hw, hfor⟩ := hrest.exists_left (hperm.mem_iff.2 hdumped)
      exact ⟨w, hw, hfor.eq⟩
    · exact (policies_of_mapM hpolicies).1
    · exact (policies_of_mapM hpolicies).2

end Kerberos.MITDump
