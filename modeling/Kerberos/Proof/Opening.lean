import Kerberos.Proof.MasterKeys

/-!
# A dump is opened

What `parseWithMasterKey` makes of the records of a dump once the master keys are
known: every key comes back as it was, with its salt written out (`restoredKey`), and
`Opened` is all that is known of the record then. `openStore_parsed` is the whole store.
-/

namespace Kerberos.MITDump

open List Except AList

/-! ## Keys -/

/-- A key as it comes back from a dump: a key without a salt has the principal's default. -/
def restoredKey (name : Principal) (key : Key) : Key :=
  { key with salt := effectiveSalt (normalSalt name) key.salt }

/-- Sealed contents are opened, or not, as their ciphertext is. -/
theorem decryptKeyData_sealedContents {env : KDB.Env} (laws : KDB.Laws env) {key : Key}
    {plain ct : Bytes}
    (hkey : key.key = sealedContents plain ct) {target : EType}
    (htarget : env.etype key.enctype = some target) (hsize : plain.length = target.keySize)
    (hct : plain.length ≤ ct.length) (wrapping : EType) (wrappingKey : Bytes) :
    decryptKeyData env key wrapping wrappingKey = (do
      let opened ← Except.ofOption "MIT dump key data integrity check failed"
        (wrapping.decrypt wrappingKey 0 ct)
      Except.ensure (plain.length ≤ opened.length) "MIT dump key data integrity check failed"
      pure { key with key := opened.take plain.length }) := by
  have hmax : plain.length ≤ maxUint16 := by
    have := (laws.keySize htarget).2
    simp only [maxUint16]
    omega
  have hlength : Words.ofLE ((sealedContents plain ct).take 2) = plain.length := by
    unfold sealedContents
    rw [take_left' (length_le16 _), ofLE_le16 hmax]
  have hdrop : (sealedContents plain ct).drop 2 = ct := drop_left' (length_le16 _)
  have hcontents : (sealedContents plain ct).length = 2 + ct.length := by simp [sealedContents]
  unfold decryptKeyData
  simp only [htarget, hkey, hlength, hdrop]
  rw [if_neg (by omega), ensure_bind (by omega), ensure_bind hsize]

variable {e : Int32}

theorem decryptKeyData_opens {env : KDB.Env} (laws : KDB.Laws env) {key : Key} {plain ct : Bytes}
    (hkey : key.key = sealedContents plain ct) {target : EType}
    (htarget : env.etype key.enctype = some target) (hsize : plain.length = target.keySize)
    {wrapping : EType} (hwrapping : env.etype e = some wrapping) {wrappingKey : Bytes}
    (hct : wrapping.encrypt wrappingKey 0 plain = some ct) :
    decryptKeyData env key wrapping wrappingKey = .ok { key with key := plain } := by
  rw [decryptKeyData_sealedContents laws hkey htarget hsize (laws.length_encrypt hwrapping hct).1,
    laws.decrypt_encrypt hwrapping hct]
  show (ensure _ _ >>= _) = _
  rw [ensure_bind (le_refl _), take_length]
  rfl

variable {etype : EType}

variable {record : PrincipalRecord} {key : Bytes}

theorem forall₂_sealedKeys {env : KDB.Env} {cts : List Bytes}
    (hsealed : Sealed env etype key record cts) :
    List.Forall₂ (fun k s => ∃ ct, etype.encrypt key 0 k.key = some ct ∧
      s = sealedKey record.name k ct)
      (dumpedKeys env record) (sealedKeys env record cts) := by
  unfold sealedKeys
  unfold Sealed at hsealed
  generalize dumpedKeys env record = keys at hsealed
  induction hsealed with
  | nil => exact .nil
  | cons hct _ ih => exact .cons ⟨_, hct, rfl⟩ ih

/-- All keys of a record are opened by the key that has sealed them. -/
theorem decrypt_sealedKeys {env : KDB.Env} (laws : KDB.Laws env)
    (hfits : ∀ k ∈ dumpedKeys env record, KeyFits env record.name k)
    (hetype : env.etype e = some etype) {cts : List Bytes}
    (hsealed : Sealed env etype key record cts) :
    List.Forall₂ (fun k s => s.enctype = k.enctype ∧ s.kvno = k.kvno ∧
        decryptKeyData env s etype key = .ok (restoredKey record.name k))
      (dumpedKeys env record) (sealedKeys env record cts) := by
  refine (forall₂_sealedKeys hsealed).imp_mem fun k hk s _ hs => ?_
  obtain ⟨ct, hct, rfl⟩ := hs
  obtain ⟨target, htarget, hsize⟩ := usableKey_iff.1 (hfits k hk).1
  have htarget' : env.etype (sealedKey record.name k ct).enctype = some target := htarget
  exact ⟨rfl, rfl, decryptKeyData_opens laws rfl htarget' hsize hetype hct⟩

theorem mapM_of_forall₂ {α β γ ε : Type} {f : β → Except ε γ} {g : α → γ} {l : List α} {m : List β}
    (h : List.Forall₂ (fun a b => f b = .ok (g a)) l m) : m.mapM f = .ok (l.map g) := by
  rw [mapM_ok]
  induction h with
  | nil => exact .nil
  | cons hab _ ih => exact .cons hab ih

theorem lookup_firstKeys_aux (keys : List Key) (m : GoMap Int32 Key) (e : Int32) :
    (keys.foldl (fun m k => if k.enctype ∈ m then m else m.insert k.enctype k) m).lookup e =
      (m.lookup e).or (keys.find? fun k => k.enctype == e) := by
  induction keys generalizing m with
  | nil => simp
  | cons k keys ih =>
    rw [foldl_cons, ih, find?_cons]
    by_cases hk : k.enctype = e
    · subst hk
      rw [beq_self_eq_true]
      split_ifs with hmem
      · obtain ⟨a, ha⟩ := Option.isSome_iff_exists.1 (lookup_isSome.2 hmem)
        rw [ha]
        rfl
      · rw [lookup_insert, lookup_eq_none.2 hmem]
        rfl
    · rw [beq_false_of_ne hk]
      split_ifs with hmem
      · rfl
      · rw [lookup_insert_ne (Ne.symm hk)]

/-- The key map of key data has the first key of each enctype. -/
theorem lookup_firstKeys (keys : List Key) (e : Int32) :
    (firstKeys keys).lookup e = keys.find? fun k => k.enctype == e := by
  unfold firstKeys
  rw [lookup_firstKeys_aux]
  simp

theorem find?_of_forall₂ {α β : Type} {R : α → β → Prop} {p : α → Bool} {q : β → Bool} {l : List α}
    {m : List β} (h : List.Forall₂ R l m) (hpq : ∀ a b, R a b → p a = q b) :
    Option.Rel R (l.find? p) (m.find? q) := by
  induction h with
  | nil => exact .none
  | cons hab _ ih =>
    rw [find?_cons, find?_cons, hpq _ _ hab]
    split
    · exact .some hab
    · exact ih

/-! ## Records -/

/-- The key of an enctype a dump gives back: the first one written. -/
def restoredKeyOf (env : KDB.Env) (record : PrincipalRecord) (e : Int32) : Option Key :=
  ((dumpedKeys env record).find? fun k => k.enctype == e).map (restoredKey record.name)

/-- A record whose keys have been opened. -/
structure Opened (env : KDB.Env) (w : Written env) (record : PrincipalRecord) : Prop where
  keys : ∀ e, record.keys.lookup e = restoredKeyOf env w.record e
  rest : record = { w.parsed with
    keys := record.keys, keyData := (dumpedKeys env w.record).map (restoredKey w.record.name) }

/-- The record of a line, its keys still sealed, without what KADM data decides. -/
def Written.bare {env : KDB.Env} (w : Written env) : PrincipalRecord where
  name := w.record.name.plain
  keys := firstKeys (sealedKeys env w.record w.cts)
  keyData := sealedKeys env w.record w.cts
  kvno := maxKVNO (firstKeys (sealedKeys env w.record w.cts))
  flags := w.record.flags
  maxLife := w.record.maxLife
  maxRenew := w.record.maxRenew
  expiration := restoredTime w.record.expiration
  passwordExpiration := restoredTime w.record.passwordExpiration
  lastSuccess := restoredTime w.record.lastSuccess
  lastFailed := restoredTime w.record.lastFailed
  failAuthCount := w.record.failAuthCount
  tlData := w.tl

theorem Written.parsed_eq {env : KDB.Env} (w : Written env) :
    ∃ fields, w.parsed = withKADM w.bare fields := ⟨_, foldl_noteKADM w.tl w.bare⟩

theorem Written.parsed_keys {env : KDB.Env} (w : Written env) :
    w.parsed.keys = firstKeys (sealedKeys env w.record w.cts) := by
  obtain ⟨fields, h⟩ := w.parsed_eq
  rw [h]
  rfl

theorem Written.parsed_keyData {env : KDB.Env} (w : Written env) :
    w.parsed.keyData = sealedKeys env w.record w.cts := by
  obtain ⟨fields, h⟩ := w.parsed_eq
  rw [h]
  rfl

theorem Written.parsed_tlData {env : KDB.Env} (w : Written env) : w.parsed.tlData = w.tl := by
  obtain ⟨fields, h⟩ := w.parsed_eq
  rw [h]
  rfl

section Opened

variable {env : KDB.Env} {w : Written env} (h : Opened env w record)
include h

theorem Opened.name : record.name = w.record.name.plain := by
  rw [h.rest]
  exact w.parsed_name

theorem Opened.tlData : record.tlData = w.tl := by
  rw [h.rest]
  exact w.parsed_tlData

end Opened

variable {masterKeys : GoMap UInt32 Key}

/-- **A record is opened** by the master key that has sealed it. -/
theorem decryptRecord_parsed {env : KDB.Env} (laws : KDB.Laws env)
    (w : Written env) {wrapping : Key}
    (hwrap : wrappingKeyFor env masterKeys w.parsed = some wrapping)
    (hetype : env.etype wrapping.enctype = some w.etype) (hkey : wrapping.key = w.key) :
    ∃ record, decryptRecord env masterKeys w.parsed = .ok record ∧ Opened env w record := by
  have hopen := decrypt_sealedKeys laws w.fits.keys hetype w.sealed
  -- the key map: each enctype has its first key in both lists
  have hfind : ∀ e, Option.Rel (fun k s => s.enctype = k.enctype ∧ s.kvno = k.kvno ∧
        decryptKeyData env s w.etype w.key = .ok (restoredKey w.record.name k))
      ((dumpedKeys env w.record).find? fun k => k.enctype == e) (w.parsed.keys.lookup e) := by
    intro e
    rw [w.parsed_keys, lookup_firstKeys]
    refine find?_of_forall₂ hopen ?_
    rintro k s ⟨he, _⟩
    rw [he]
  have htraverse : ∃ keys, w.parsed.keys.traverse
      (fun _ key => decryptKeyData env key w.etype w.key) = .ok keys := by
    rw [traverse_isOk]
    intro e s hs
    have hrel := hfind e
    rw [hs] at hrel
    generalize (dumpedKeys env w.record).find? (fun k => k.enctype == e) = x at hrel
    cases hrel with
    | some h => exact ⟨_, h.2.2⟩
  obtain ⟨keys, hkeys⟩ := htraverse
  have hlookup : ∀ e, keys.lookup e = restoredKeyOf env w.record e := by
    intro e
    apply Option.ext
    intro b
    rw [lookup_traverse hkeys, restoredKeyOf]
    have hrel := hfind e
    generalize (dumpedKeys env w.record).find? (fun k => k.enctype == e) = x at hrel ⊢
    generalize w.parsed.keys.lookup e = y at hrel ⊢
    cases hrel with
    | none => simp
    | some h =>
      simp only [Option.some.injEq, exists_eq_left', Option.map_some, h.2.2, ok.injEq]
  have hkeyData : w.parsed.keyData.mapM (fun key => decryptKeyData env key w.etype w.key) =
      .ok ((dumpedKeys env w.record).map (restoredKey w.record.name)) := by
    rw [w.parsed_keyData]
    exact mapM_of_forall₂ (hopen.imp fun _ _ h => h.2.2)
  refine ⟨{ w.parsed with
    keys, keyData := (dumpedKeys env w.record).map (restoredKey w.record.name) }, ?_, hlookup, rfl⟩
  unfold decryptRecord
  rw [hwrap]
  simp only [ofOption, ok_bind, hetype, hkey, hkeys, hkeyData]
  rfl

/-! ## The store -/

/-- Every record of the map is filed under its own name. -/
def Filed (records : GoMap Bytes PrincipalRecord) : Prop :=
  ∀ k r, records.lookup k = some r → canonical r.name = k

/-- The K/M record of a store is the one filed under that name. -/
theorem masterOf_eq {store : FileStore} (hfiled : Filed store.records) (km : Principal)
    (hkm : km.realm = store.realm ∧ isKMPrincipal km = true)
    (hrecord : store.records.lookup (canonical km) = some record)
    (hname : record.name.realm = km.realm ∧ record.name.components = km.components) :
    masterOf store = some record := by
  refine find?_eq_some_of_unique (mem_values.2 ⟨_, hrecord⟩) ?_ ?_
  · rw [Bool.and_eq_true, beq_iff_eq, hname.1]
    refine ⟨hkm.1, ?_⟩
    unfold isKMPrincipal at hkm ⊢
    rw [hname.2]
    exact hkm.2
  · intro other hother hp
    obtain ⟨k, hk⟩ := mem_values.1 hother
    rw [Bool.and_eq_true, beq_iff_eq] at hp
    have hcomponents : other.name.components = km.components := by
      have h1 := hp.2
      have h2 := hkm.2
      unfold isKMPrincipal at h1 h2
      rw [beq_iff_eq] at h1 h2
      rw [h1, h2]
    have hcanonical : canonical other.name = canonical km := by
      unfold canonical
      rw [hp.1, hcomponents, hkm.1]
    rw [← hfiled k other hk, hcanonical, hrecord] at hk
    exact (Option.some.inj hk).symm

section Store

variable {env : KDB.Env} (policies : List PolicyRecord) {ws : List (Written env)}

theorem lookup_parsedStore (hnodup : (ws.map Written.filed).Nodup) {w : Written env} (hw : w ∈ ws) :
    (parsedStore policies ws).records.lookup w.filed = some w.parsed := by
  rw [records_parsedStore]
  exact lookup_foldl_insert_of_mem hnodup hw

theorem lookup_parsedStore_some (hnodup : (ws.map Written.filed).Nodup) {k : Bytes}
    (h : (parsedStore policies ws).records.lookup k = some record) :
    ∃ w ∈ ws, w.filed = k ∧ record = w.parsed := by
  rw [records_parsedStore] at h
  exact lookup_foldl_insert_some hnodup h

/-- The records of a store after the loop of `decryptRecords`. -/
structure OpenedAll (ws : List (Written env)) (opened : GoMap Bytes PrincipalRecord) : Prop where
  found : ∀ w ∈ ws, ∃ record, opened.lookup w.filed = some record ∧ Opened env w record
  only : ∀ k record, opened.lookup k = some record → ∃ w ∈ ws, w.filed = k ∧ Opened env w record

theorem decryptRecords_parsedStore (laws : KDB.Laws env) (hnodup : (ws.map Written.filed).Nodup)
    (hwrap : ∀ w ∈ ws, ∃ wrapping, wrappingKeyFor env masterKeys w.parsed = some wrapping ∧
      env.etype wrapping.enctype = some w.etype ∧ wrapping.key = w.key) :
    ∃ opened, (parsedStore policies ws).records.traverse
      (fun _ record => decryptRecord env masterKeys record) = .ok opened ∧ OpenedAll ws opened := by
  have hopen : ∀ w ∈ ws, ∃ record, decryptRecord env masterKeys w.parsed = .ok record ∧
      Opened env w record := by
    intro w hw
    obtain ⟨wrapping, hwr, het, hk⟩ := hwrap w hw
    exact decryptRecord_parsed laws w hwr het hk
  have hok : ∃ opened, (parsedStore policies ws).records.traverse
      (fun _ record => decryptRecord env masterKeys record) = .ok opened := by
    rw [traverse_isOk]
    intro k r hr
    obtain ⟨w, hw, _, rfl⟩ := lookup_parsedStore_some policies hnodup hr
    exact (hopen w hw).imp fun _ h => h.1
  obtain ⟨opened, hopened⟩ := hok
  refine ⟨opened, hopened, ?_, ?_⟩
  · intro w hw
    obtain ⟨record, hrecord, hrest⟩ := hopen w hw
    exact ⟨record, (lookup_traverse hopened _ _).2
      ⟨w.parsed, lookup_parsedStore policies hnodup hw, hrecord⟩, hrest⟩
  · intro k record hk
    obtain ⟨r, hr, hdec⟩ := (lookup_traverse hopened _ _).1 hk
    obtain ⟨w, hw, rfl, rfl⟩ := lookup_parsedStore_some policies hnodup hr
    obtain ⟨record', hrecord', hrest⟩ := hopen w hw
    rw [hrecord'] at hdec
    cases hdec
    exact ⟨w, hw, rfl, hrest⟩

end Store

theorem decodeKADMRecord_eq (env : KDB.Env) (historyKeys : List Key) (record : PrincipalRecord) :
    ∃ fields history, decodeKADMRecord env historyKeys record =
      { withKADM record fields with passwordHistory := history } := by
  unfold decodeKADMRecord
  generalize findSome? _ _ = decoded
  cases decoded with
  | none =>
    exact ⟨kadmOf record, record.passwordHistory, rfl⟩
  | some data =>
    exact ⟨⟨data.policy, data.auxAttributes, data.oldKeyNext, data.adminHistoryKVNO⟩,
      data.oldKeys, rfl⟩

theorem decodeKADMRecord_name (env : KDB.Env) (historyKeys : List Key) (record : PrincipalRecord) :
    (decodeKADMRecord env historyKeys record).name = record.name := by
  obtain ⟨fields, history, h⟩ := decodeKADMRecord_eq env historyKeys record
  rw [h]
  rfl

theorem decodeKADMRecord_tlData (env : KDB.Env) (historyKeys : List Key)
    (record : PrincipalRecord) :
    (decodeKADMRecord env historyKeys record).tlData = record.tlData := by
  obtain ⟨fields, history, h⟩ := decodeKADMRecord_eq env historyKeys record
  rw [h]
  rfl

/-- What the metadata of the K/M record is read as. -/
structure Metadata (tl : List TLData) (version : UInt32) (active : List ActKVNO)
    (aux : List MKeyAuxEntry) : Prop where
  version : mkvno tl = .ok version
  active : ∀ record : PrincipalRecord, record.tlData = tl → activeOf (some record) = .ok active
  aux : ∀ record : PrincipalRecord, record.tlData = tl → masterAux record = .ok aux

/-- What a store has once it is opened. -/
structure OpenedStore (env : KDB.Env) (policies : List PolicyRecord) (ws : List (Written env))
    (active : List ActKVNO) (store : FileStore) : Prop where
  policies : store.policies = filePolicies policies ∅
  active : store.activeMKeys = active
  records : ∃ opened, OpenedAll ws opened ∧ ∀ k, store.records.lookup k =
    (opened.lookup k).map (decodeKADMRecord env (historyKeysOf env opened store.realm))

/-- **A dump is opened**, once the master keys are recovered and are those its records were
sealed with. -/
theorem openStore_parsed {env : KDB.Env} (laws : KDB.Laws env) {policies : List PolicyRecord}
    {wm : Written env} {ws : List (Written env)} (hnodup : ((wm :: ws).map Written.filed).Nodup)
    (hkm : isKMPrincipal wm.record.name = true) (hrealm : wm.record.name.realm ≠ [])
    {enctype : Int32} (hetype : env.etype enctype = some etype)
    (hkey : key.length = etype.keySize) {aux : List MKeyAuxEntry}
    {version used : UInt32} {active : List ActKVNO} (hmeta : Metadata wm.tl version active aux)
    (hrecover : recoverMasterKeys env (parsedStore policies (wm :: ws)) etype key 0 =
      .ok (masterKeys, aux, used))
    (hwrap : ∀ w ∈ wm :: ws, ∃ wrapping, wrappingKeyFor env masterKeys w.parsed = some wrapping ∧
      env.etype wrapping.enctype = some w.etype ∧ wrapping.key = w.key) :
    ∃ store, openStore env (parsedStore policies (wm :: ws)) enctype key 0 = .ok store ∧
      OpenedStore env policies (wm :: ws) active store ∧ store.realm = wm.record.name.realm ∧
      store.mKeyAux = aux ∧ store.suppliedMKVNO = used ∧ store.masterKeys =
        (masterKeys.entries.map Sigma.snd).insertionSort fun a b => b.kvno ≤ a.kvno := by
  have hforeign : isForeignTGT wm.record.name = false := by
    unfold isKMPrincipal at hkm
    rw [beq_iff_eq] at hkm
    unfold isForeignTGT
    rw [hkm]
    rfl
  have hrealmStore := realm_parsedStore policies ws hforeign hrealm
  obtain ⟨opened, htraverse, hopened⟩ := decryptRecords_parsedStore policies laws hnodup hwrap
  obtain ⟨master, hmaster, hmasterOpened⟩ := hopened.found wm mem_cons_self
  have hfiled : ∀ historyKeys, Filed (opened.mapValues fun _ record =>
      decodeKADMRecord env historyKeys record) := by
    intro historyKeys k r hr
    rw [lookup_mapValues, Option.map_eq_some_iff] at hr
    obtain ⟨record, hrecord, rfl⟩ := hr
    obtain ⟨w, _, rfl, hw⟩ := hopened.only k record hrecord
    rw [decodeKADMRecord_name, hw.name]
    rfl
  have hactive : ∀ historyKeys, activeOf (masterOf
      { parsedStore policies (wm :: ws) with
        records := opened.mapValues fun _ record => decodeKADMRecord env historyKeys record }) =
      .ok active := by
    intro historyKeys
    have hlookup : (opened.mapValues fun _ record =>
        decodeKADMRecord env historyKeys record).lookup (canonical wm.record.name) =
        some (decodeKADMRecord env historyKeys master) := by
      rw [lookup_mapValues]
      show Option.map _ (opened.lookup wm.filed) = _
      rw [hmaster]
      rfl
    have hof : masterOf { parsedStore policies (wm :: ws) with
        records := opened.mapValues fun _ record => decodeKADMRecord env historyKeys record } =
        some (decodeKADMRecord env historyKeys master) := by
      refine masterOf_eq (hfiled historyKeys) _ ⟨?_, hkm⟩ hlookup ?_
      · exact hrealmStore.symm
      · rw [decodeKADMRecord_name, hmasterOpened.name]
        exact ⟨rfl, rfl⟩
    rw [hof]
    refine hmeta.active _ ?_
    rw [decodeKADMRecord_tlData, hmasterOpened.tlData]
  refine ⟨{ parsedStore policies (wm :: ws) with
    records := opened.mapValues fun _ record =>
      decodeKADMRecord env (historyKeysOf env opened (parsedStore policies (wm :: ws)).realm) record
    masterEnctype := enctype, masterKey := key, suppliedMKVNO := used
    masterKeys := (masterKeys.entries.map Sigma.snd).insertionSort fun a b => b.kvno ≤ a.kvno
    mKeyAux := aux, activeMKeys := active }, ?_,
      ⟨policies_parsedStore policies (wm :: ws), rfl, opened,
      hopened, fun k => lookup_mapValues _ _ k⟩, hrealmStore, rfl, rfl, rfl⟩
  unfold openStore
  rw [hetype]
  simp only [ofOption, ok_bind, ensure_of hkey, hrecover, htraverse, hactive]
  rfl

end Kerberos.MITDump
