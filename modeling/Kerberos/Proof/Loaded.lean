import Kerberos.Proof.Opening

/-!
# A database loaded from a dump

Whatever text a dump is parsed from, a record in it is filed under its name, has a
display name, and has a key map that is the first of each enctype of its key data
(`Fresh`). The loaders hand these records on as they are: `lookup_importStore`.
-/

namespace Kerberos

open Reader List Except AList Ensures

namespace MITDump

/-! ## Parsed records -/

/-- The key map of the record has the first key of each enctype of its key data, and there is
key data. -/
def Fresh (record : PrincipalRecord) : Prop :=
  record.keyData ≠ [] ∧
    ∀ e, record.keys.lookup e = record.keyData.find? fun key => key.enctype == e

/-- What holds of every record of a dump. -/
structure Parsed (record : PrincipalRecord) : Prop where
  fresh : Fresh record
  displayable : Displayable record.name

variable {record : PrincipalRecord}

theorem parsed_foldl_noteKADM (h : Parsed record) (tl : List TLData) :
    Parsed (tl.foldl noteKADM record) := by
  rw [foldl_noteKADM]
  exact ⟨h.fresh, h.displayable⟩

theorem readRecord_parsed (count : ℕ) : Ensures (readRecord count) Parsed := by
  iterate 5 refine skip fun _ => ?_
  refine skip fun _ => skip fun value => ?_
  refine bind lift fun name hname => ?_
  have hdisplayable : Displayable name := parsePrincipal_displayable (within_ok.1 hname)
  -- the attributes
  iterate 12 refine skip fun _ => ?_
  -- tagged data, keys, extra data
  refine skip fun tlData => skip fun keyData => ?_
  iterate 4 refine skip fun _ => ?_
  refine bind check fun _ hne => pure ?_
  refine parsed_foldl_noteKADM ⟨⟨by simpa using hne, fun e => ?_⟩, hdisplayable⟩ tlData
  exact lookup_firstKeys keyData e

theorem parseRecord_parsed {text : Bytes} (h : parseRecord text = .ok record) : Parsed record := by
  simp only [parseRecord, Except.bind_ok] at h
  obtain ⟨_, _, _, _, ⟨r, rest⟩, hr, hpure⟩ := h
  cases hpure
  exact readRecord_parsed _ _ _ _ hr

/-- What holds of the records and the policies of every dump. -/
structure Sound (store : FileStore) : Prop where
  filed : Filed store.records
  parsed : ∀ k r, store.records.lookup k = some r → Parsed r
  named : ∀ k p, store.policies.lookup k = some p → p.name = k

variable {store : FileStore}

theorem parseLine_sound {out : FileStore} {raw : Bytes × ℕ} (hsound : Sound store)
    (h : parseLine store raw = .ok out) : Sound out := by
  unfold parseLine at h
  rw [Except.bind_ok] at h
  obtain ⟨text, _, h⟩ := h
  split_ifs at h
  · cases h
    exact hsound
  · simp only [Except.bind_ok] at h
    obtain ⟨policy, _, hpure⟩ := h
    cases hpure
    refine ⟨hsound.filed, hsound.parsed, ?_⟩
    intro k p hp
    by_cases hk : k = policy.name
    · subst hk
      rw [lookup_insert] at hp
      cases hp
      rfl
    · rw [lookup_insert_ne hk] at hp
      exact hsound.named k p hp
  · simp only [Except.bind_ok, within_ok] at h
    obtain ⟨record, hrecord, _, _, hpure⟩ := h
    cases hpure
    have hlookup : ∀ k r, (store.records.insert (canonical record.name) record).lookup k = some r →
        (k = canonical record.name ∧ r = record) ∨ store.records.lookup k = some r := by
      intro k r hr
      by_cases hk : k = canonical record.name
      · subst hk
        rw [lookup_insert] at hr
        cases hr
        exact .inl ⟨rfl, rfl⟩
      · rw [lookup_insert_ne hk] at hr
        exact .inr hr
    refine ⟨?_, ?_, hsound.named⟩
    · intro k r hr
      rcases hlookup k r hr with ⟨rfl, rfl⟩ | hr
      · rfl
      · exact hsound.filed k r hr
    · intro k r hr
      rcases hlookup k r hr with ⟨rfl, rfl⟩ | hr
      · exact parseRecord_parsed hrecord
      · exact hsound.parsed k r hr

theorem parse_sound {data : Bytes} (h : parse data = .ok store) : Sound store := by
  unfold parse at h
  split at h
  · cases h
  · simp only [Except.bind_ok] at h
    obtain ⟨_, _, _, _, read, hread, _, _, hpure⟩ := h
    cases hpure
    have hempty : Sound {} := ⟨by intro k r hr; simp at hr, by intro k r hr; simp at hr,
      by intro k p hp; simp at hp⟩
    have hsound : Sound read :=
      foldlM_invariant (fun _ _ _ _ hs h => parseLine_sound hs h) hempty hread
    exact ⟨hsound.filed, hsound.parsed, hsound.named⟩

/-! ## Opened records -/

variable {env : KDB.Env}

theorem decryptKeyData_enctype {key out : Key} {etype : EType} {wrapping : Bytes}
    (h : decryptKeyData env key etype wrapping = .ok out) : out.enctype = key.enctype := by
  unfold decryptKeyData at h
  split at h
  · cases h
    rfl
  · split_ifs at h
    · cases h
      rfl
    · simp only [Except.bind_ok] at h
      obtain ⟨_, _, _, _, plain, _, _, _, hpure⟩ := h
      cases hpure
      rfl

theorem decryptRecord_parsed_of {masterKeys : GoMap UInt32 Key} {out : PrincipalRecord}
    (hparsed : Parsed record)
    (h : decryptRecord env masterKeys record = .ok out) : Parsed out ∧ out.name = record.name := by
  simp only [decryptRecord, Except.bind_ok] at h
  obtain ⟨wrapping, _, etype, _, keys, hkeys, keyData, hkeyData, hpure⟩ := h
  cases hpure
  rw [mapM_ok] at hkeyData
  refine ⟨⟨⟨?_, ?_⟩, hparsed.displayable⟩, rfl⟩
  · rw [← length_pos_iff, ← hkeyData.length_eq, length_pos_iff]
    exact hparsed.fresh.1
  · intro e
    have hrel := find?_of_forall₂ (q := fun key => key.enctype == e)
      hkeyData fun a b hab => by rw [decryptKeyData_enctype hab]
    rw [← hparsed.fresh.2] at hrel
    apply Option.ext
    intro b
    rw [lookup_traverse hkeys]
    generalize keyData.find? (fun key => key.enctype == e) = y at hrel ⊢
    generalize record.keys.lookup e = x at hrel ⊢
    cases hrel with
    | none => simp
    | some hab => simp [hab]

theorem decodeKADMRecord_parsed {historyKeys : List Key}
    (h : Parsed record) : Parsed (decodeKADMRecord env historyKeys record) := by
  obtain ⟨fields, history, heq⟩ := decodeKADMRecord_eq env historyKeys record
  rw [heq]
  exact ⟨h.fresh, h.displayable⟩

theorem openStore_sound {out : FileStore} {enctype : Int32} {key : Bytes}
    {kvno : UInt32} (hsound : Sound store) (h : openStore env store enctype key kvno = .ok out) :
    Sound out := by
  simp only [openStore, Except.bind_ok] at h
  obtain ⟨etype, _, _, _, ⟨masterKeys, aux, version⟩, _, opened, hopened, active, _, hpure⟩ := h
  cases hpure
  have hrecord : ∀ k r, (opened.mapValues fun _ record =>
      decodeKADMRecord env (historyKeysOf env opened store.realm) record).lookup k = some r →
      Parsed r ∧ canonical r.name = k := by
    intro k r hr
    rw [lookup_mapValues, Option.map_eq_some_iff] at hr
    obtain ⟨o, ho, rfl⟩ := hr
    obtain ⟨record, hlookup, hdecrypt⟩ := (lookup_traverse hopened k o).1 ho
    obtain ⟨hparsed, hname⟩ := decryptRecord_parsed_of (hsound.parsed k record hlookup) hdecrypt
    refine ⟨decodeKADMRecord_parsed hparsed, ?_⟩
    rw [decodeKADMRecord_name, hname, hsound.filed k record hlookup]
  exact ⟨fun k r hr => (hrecord k r hr).2, fun k r hr => (hrecord k r hr).1, hsound.named⟩

/-! ## The loaders -/

variable {db db' : Database}

theorem importPrincipal_ok : db.importPrincipal record = .ok db' ↔
      db.principals.lookup (canonical record.name) = none ∧ db' = db.put record := by
  simp only [Database.importPrincipal, Except.bind_ok, ensure_ok, Option.isNone_iff_eq_none]
  constructor
  · rintro ⟨_, h, hpure⟩
    exact ⟨h, (ok.inj hpure).symm⟩
  · rintro ⟨h, rfl⟩
    exact ⟨(), h, rfl⟩

/-- All fields but the principals are the same. -/
def SameButPrincipals (db db' : Database) : Prop :=
  db'.realm = db.realm ∧ db'.masterKeys = db.masterKeys ∧ db'.activeMKeys = db.activeMKeys ∧
    db'.mKeyAux = db.mKeyAux ∧ db'.policies = db.policies

theorem foldlM_importPrincipal {records : List PrincipalRecord}
    (h : records.foldlM Database.importPrincipal db = .ok db') :
    SameButPrincipals db db' ∧ ∀ k r, db'.principals.lookup k = some r ↔
      db.principals.lookup k = some r ∨ (r ∈ records ∧ canonical r.name = k) := by
  refine ⟨foldlM_invariant ?_ ⟨rfl, rfl, rfl, rfl, rfl⟩ h,
    lookup_foldlM_insert ?_ h⟩
  · intro st record st' _ hst hstep
    obtain ⟨_, rfl⟩ := importPrincipal_ok.1 hstep
    exact hst
  · intro st record st' hstep
    obtain ⟨hnone, rfl⟩ := importPrincipal_ok.1 hstep
    exact ⟨hnone, rfl⟩

theorem createPolicy_ok {policy : PolicyRecord} :
    db.createPolicy policy = .ok db' ↔ db.policies.lookup policy.name = none ∧
      db' = db.putPolicy policy := by
  simp only [Database.createPolicy, Except.bind_ok, ensure_ok, Option.isNone_iff_eq_none]
  constructor
  · rintro ⟨_, h, hpure⟩
    exact ⟨h, (ok.inj hpure).symm⟩
  · rintro ⟨h, rfl⟩
    exact ⟨(), h, rfl⟩

/-- All fields but the policies are the same. -/
def SameButPolicies (db db' : Database) : Prop :=
  db'.realm = db.realm ∧ db'.masterKeys = db.masterKeys ∧ db'.activeMKeys = db.activeMKeys ∧
    db'.mKeyAux = db.mKeyAux ∧ db'.principals = db.principals

theorem foldlM_createPolicy {policies : List PolicyRecord}
    (h : policies.foldlM Database.createPolicy db = .ok db') :
    SameButPolicies db db' ∧ ∀ k p, db'.policies.lookup k = some p ↔
      db.policies.lookup k = some p ∨ (p ∈ policies ∧ p.name = k) := by
  refine ⟨foldlM_invariant ?_ ⟨rfl, rfl, rfl, rfl, rfl⟩ h,
    lookup_foldlM_insert ?_ h⟩
  · intro st policy st' _ hst hstep
    obtain ⟨_, rfl⟩ := createPolicy_ok.1 hstep
    exact hst
  · intro st policy st' hstep
    obtain ⟨hnone, rfl⟩ := createPolicy_ok.1 hstep
    exact ⟨hnone, rfl⟩

/-- **What the loaders give**: the records and the policies of the dump as they are. -/
theorem importStore_ok {skip : PrincipalRecord → Bool}
    (hsound : Sound store) (hempty : db.principals = ∅ ∧ db.policies = ∅)
    (h : importStore db store skip = .ok db') :
    (db'.realm = db.realm ∧ db'.masterKeys = db.masterKeys ∧ db'.activeMKeys = db.activeMKeys ∧
      db'.mKeyAux = db.mKeyAux) ∧
      (∀ k r, db'.principals.lookup k = some r ↔ store.records.lookup k = some r ∧ skip r = false) ∧
      ∀ k p, db'.policies.lookup k = some p ↔ store.policies.lookup k = some p := by
  simp only [importStore, Except.bind_ok] at h
  obtain ⟨mid, hmid, h⟩ := h
  obtain ⟨⟨hr, hm, ha, hx, hprincipals⟩, hpolicies⟩ := foldlM_createPolicy hmid
  obtain ⟨⟨hr', hm', ha', hx', hpolicies'⟩, hrecords⟩ := foldlM_importPrincipal h
  refine ⟨⟨hr'.trans hr, hm'.trans hm, ha'.trans ha, hx'.trans hx⟩, fun k r => ?_, fun k p => ?_⟩
  · rw [hrecords, hprincipals, hempty.1, lookup_empty, mem_filter, mem_values]
    simp only [reduceCtorEq, false_or, Bool.not_eq_true']
    constructor
    · rintro ⟨⟨⟨k', hk'⟩, hskip⟩, rfl⟩
      exact ⟨by rw [hsound.filed k' r hk', hk'], hskip⟩
    · rintro ⟨hk, hskip⟩
      exact ⟨⟨⟨k, hk⟩, hskip⟩, hsound.filed k r hk⟩
  · have hlisted : p ∈ store.listPolicies ↔ ∃ k, store.policies.lookup k = some p := by
      unfold FileStore.listPolicies
      rw [(perm_insertionSort _ _).mem_iff, mem_values]
    rw [hpolicies', hpolicies, hempty.2, lookup_empty, hlisted]
    simp only [reduceCtorEq, false_or]
    constructor
    · rintro ⟨⟨k', hk'⟩, rfl⟩
      rw [hsound.named k' p hk', hk']
    · intro hk
      exact ⟨⟨k, hk⟩, hsound.named k p hk⟩

end MITDump

end Kerberos
