import Kerberos.Proof.Loaded
import Kerberos.Proof.PersistedKeys
import Kerberos.Proof.Reload
import Kerberos.Spec.Rotation

/-!
# A dump opens with each of its master keys

`Consistent` is what makes the dumps of a database open with every one of its master keys:
each principal names a version there is, and the auxiliary entries, if the database keeps
any, are for the newest key. `Consistent.load` opens a dump with any of the keys, and
`Consistent.loaded` says that a load with any password at all, if it succeeds, gives the
same: all versions, and every principal with its keys (`Reloaded`).
-/

namespace Kerberos.MITDump

open MasterLine List Except

/-- A database whose dumps open with every one of its master keys. -/
structure Consistent (env : KDB.Env) (db : Database) (latest : Key) (older : List Key) : Prop where
  masterKeys : dumpMasterKeys db latest.enctype latest.key = latest :: older
  fit : Dumpable env db latest.enctype latest.key
  limits : ∀ k p, db.policies.lookup k = some p → p.maxFailure.toNat < 2 ^ 31
  keyed : ∀ record ∈ dumpedRecords db, dumpedKeys env record ≠ []
  aux : db.mKeyAux = [] ∨ AuxFor env latest older db.mKeyAux
  named : ∀ k r, db.principals.lookup k = some r → ∃ mk ∈ latest :: older, mk.kvno = wrapVersion r
  active : ∀ value ∈ db.activeMKeys, ∃ mk ∈ latest :: older, mk.kvno = value.kvno.toUInt32
  home : ∀ k r, db.principals.lookup k = some r → isKMPrincipal r.name = true →
    r.name.realm = db.realm

/-- The record with a line of its own that is filed under `k`. -/
def dumpedAt (db : Database) (k : Bytes) : Option PrincipalRecord :=
  (db.principals.lookup k).filter (dumpsRecord db)

/-- The keys of a principal that the dumps of a database hold. -/
def heldKeys (env : KDB.Env) (db : Database) (k : Bytes) : Option (Int32 → Option Key) :=
  (dumpedAt db k).map (restoredKeyOf env)

/-- The keys of a principal in a store. -/
def storedKeys (store : FileStore) (k : Bytes) : Option (Int32 → Option Key) :=
  (store.records.lookup k).map fun r e => r.keys.lookup e

/-- The record as a load gives it: its name, its keys and the version that seals it. -/
def RestoredAs (env : KDB.Env) (record r : PrincipalRecord) : Prop :=
  r.name = record.name.plain ∧ (∀ e, r.keys.lookup e = restoredKeyOf env record e) ∧
    wrapVersion r = wrapVersion record

/-- What a load of a dump gives. -/
structure Reloaded (env : KDB.Env) (db : Database) (latest : Key) (older : List Key)
    (store : FileStore) : Prop where
  realm : store.realm = db.realm
  masterKeys : store.masterKeys = (latest :: older).map (restoredKey (kmName db.realm))
  fits : ∀ mk ∈ latest :: older, KeyFits env (kmName db.realm) mk
  aux : AuxFor env latest older store.mKeyAux
  active : store.activeMKeys = activeFor db latest
  version : ∃ mk ∈ latest :: older, store.suppliedMKVNO = mk.kvno
  policies : ∀ k p, store.policies.lookup k = some p →
    ∃ q, db.policies.lookup k = some q ∧ p = restoredPolicy q
  records : ∀ k, k ≠ canonical (kmName db.realm) →
    Option.Rel (RestoredAs env) (dumpedAt db k) (store.records.lookup k)
  master : ∀ r, store.records.lookup (canonical (kmName db.realm)) = some r →
    isKMPrincipal r.name = true

variable {k : Bytes}

theorem dumpedAt_eq_some {db : Database} {record : PrincipalRecord} :
    dumpedAt db k = some record ↔ db.principals.lookup k = some record ∧
      record ∈ dumpedRecords db := by
  unfold dumpedAt
  rw [Option.filter_eq_some_iff]
  refine and_congr_right fun hk => ?_
  rw [dumpedRecords_eq, mem_filter, AList.mem_values]
  exact ⟨fun h => ⟨⟨k, hk⟩, h⟩, And.right⟩

variable {store : FileStore}

theorem storedKeys_eq {env : KDB.Env} {db : Database} {latest : Key} {older : List Key}
    (h : Reloaded env db latest older store)
    (hk : k ≠ canonical (kmName db.realm)) : storedKeys store k = heldKeys env db k := by
  have hrel := h.records k hk
  unfold storedKeys heldKeys
  generalize dumpedAt db k = x at hrel ⊢
  generalize store.records.lookup k = y at hrel ⊢
  cases hrel with
  | none => rfl
  | some hr => exact congrArg some (funext hr.2.1)

theorem wrapVersion_congr {a b : PrincipalRecord} (h : mkvno a.tlData = mkvno b.tlData) :
    wrapVersion a = wrapVersion b := by
  unfold wrapVersion
  rw [h]

/-! ## Loading -/

section Load

variable {env : KDB.Env} {db : Database} {latest : Key} {older : List Key} {ml : MasterLine env}
  {ws : List (Written env)} {policies : List PolicyRecord} {text : Bytes}

/-- The auxiliary entries of a dump are for its newest key. -/
theorem DumpedLines.auxFor {enctype : Int32} {key : Bytes}
    (lines : DumpedLines env db enctype key ml ws policies)
    (h : db.mKeyAux = [] ∨ AuxFor env ml.latest ml.older db.mKeyAux) :
    AuxFor env ml.latest ml.older ml.aux := by
  have haux := lines.aux
  unfold auxEntriesFor at haux
  split_ifs at haux with hnil
  · -- fresh entries, one for each older key
    rw [mapM_ok] at haux
    refine .inl ⟨fun entry hentry => ?_, fun old hold => ?_⟩
    · obtain ⟨old, hold, hfor⟩ := haux.exists_right hentry
      exact ⟨old, hold, hfor⟩
    · obtain ⟨entry, hentry, hfor⟩ := haux.exists_left hold
      exact ⟨entry, hentry, hfor⟩
  · rw [← ok.inj haux]
    exact h.resolve_left hnil

theorem Consistent.lines (hc : Consistent env db latest older)
    (lines : DumpedLines env db latest.enctype latest.key ml ws policies) :
    ml.latest = latest ∧ ml.older = older := by
  have h := lines.masterKeys
  rw [hc.masterKeys] at h
  injection h with h1 h2
  exact ⟨h1, h2⟩

/-- The records of a store that was opened. -/
theorem OpenedStore.restored (lines : DumpedLines env db latest.enctype latest.key ml ws policies)
    {active : List ActKVNO} (hopened : OpenedStore env policies (ml.line :: ws) active store)
    (k : Bytes)
    (hk : k ≠ canonical (kmName db.realm)) :
    Option.Rel (RestoredAs env) (dumpedAt db k) (store.records.lookup k) := by
  obtain ⟨all, hall, hlookup⟩ := hopened.records
  have hrestored : ∀ w ∈ ws, ∀ opened, Opened env w opened →
      RestoredAs env w.record
        (decodeKADMRecord env (historyKeysOf env all store.realm) opened) := by
    intro w hw opened hopen
    obtain ⟨_, _, _, hfor⟩ := lines.written w hw
    obtain ⟨fields, history, heq⟩ :=
      decodeKADMRecord_eq env (historyKeysOf env all store.realm) opened
    refine ⟨?_, fun e => ?_, ?_⟩
    · rw [decodeKADMRecord_name, hopen.name]
    · rw [heq]
      exact hopen.keys e
    · refine wrapVersion_congr ?_
      rw [decodeKADMRecord_tlData, hopen.tlData, mkvno_written hfor.tl]
  rw [hlookup]
  cases hdumped : dumpedAt db k with
  | none =>
    cases hfound : all.lookup k with
    | none => exact .none
    | some opened =>
      obtain ⟨w, hw, hfiled, _⟩ := hall.only k opened hfound
      rcases mem_cons.1 hw with rfl | hw
      · refine absurd ?_ hk
        rw [← hfiled, ← lines.name]
        rfl
      · have hrecord := (lines.written w hw).1
        have hlook : db.principals.lookup k = some w.record := by
          rw [← hfiled]
          exact lookup_dumped hrecord
        rw [dumpedAt_eq_some.2 ⟨hlook, hrecord⟩] at hdumped
        cases hdumped
  | some record =>
    obtain ⟨hlook, hrecord⟩ := dumpedAt_eq_some.1 hdumped
    obtain ⟨w, hw, rfl⟩ := lines.complete record hrecord
    obtain ⟨opened, hfound, hopen⟩ := hall.found w (mem_cons_of_mem _ hw)
    have hfiled : w.filed = k := db.principals_canonical k w.record hlook
    rw [hfiled] at hfound
    rw [hfound]
    exact .some (hrestored w hw opened hopen)

/-- **What a key opens, it opens rightly**, once it finds a newest key. -/
theorem Consistent.opened (laws : KDB.Laws env) (integrity : KDB.Integrity env)
    (hc : Consistent env db latest older) (hrealm : db.realm ≠ [])
    (lines : DumpedLines env db latest.enctype latest.key ml ws policies) {e : Int32}
    {supplied : EType}
    (hsupplied : env.etype e = some supplied) {key : Bytes} (hsize : key.length = supplied.keySize)
    {found : Key} {version : UInt32}
    (hfound : latestMasterKey env supplied key (sealedKeys env ml.line.record ml.line.cts) ml.aux =
      some (found, version)) : ∃ store,
        parseWithMasterKey env (dumpText policies (ml.line :: ws)) e key = .ok store ∧
      Reloaded env db latest older store := by
  obtain ⟨hlatest, holder⟩ := hc.lines lines
  have haux := lines.auxFor (by rw [hlatest, holder]; exact hc.aux)
  obtain ⟨⟨h1, h2, h3⟩, mk, hmk, _, _, rfl⟩ := ml.latest_only laws integrity haux hsupplied hfound
  obtain ⟨store, hparse, hopened, hstoreRealm, hmKeyAux, hversion, hkeys⟩ :=
    load_dump lines laws hc.fit
    hrealm hc.limits hc.keyed hsupplied hsize hfound h1 h2 h3
  have hmaster : ml.masterKeys = latest :: older := by
    rw [MasterLine.masterKeys, hlatest, holder]
  refine ⟨store, hparse, hstoreRealm, ?_, ?_, ?_, ?_, ?_, ?_, hopened.restored lines, ?_⟩
  · rw [hkeys, hmaster]
  · intro mk' hmk'
    rw [← lines.name]
    exact ml.mem_masterKeys_fits (hmaster ▸ hmk')
  · rw [hmKeyAux, ← hlatest, ← holder]
    exact haux
  · rw [hopened.active, lines.active, hlatest]
  · rw [← hmaster]
    exact ⟨mk, hmk, hversion⟩
  · intro k p hp
    rw [hopened.policies] at hp
    obtain ⟨q, hq, rfl, rfl⟩ := AList.lookup_foldl_insert_some lines.policyNames hp
    obtain ⟨k', hk'⟩ := (lines.policies q).1 hq
    rw [← db.policies_named k' q hk'] at hk'
    exact ⟨q, hk', rfl⟩
  · intro r hr
    obtain ⟨all, hall, hlookup⟩ := hopened.records
    rw [hlookup, Option.map_eq_some_iff] at hr
    obtain ⟨opened, hopen, rfl⟩ := hr
    obtain ⟨w, hw, hfiled, hline⟩ := hall.only _ opened hopen
    have hw' : w = ml.line := by
      rcases mem_cons.1 hw with rfl | hmem
      · rfl
      · have hnodup := (nodup_cons.1 lines.nodup).1
        refine absurd (mem_map.2 ⟨w, hmem, ?_⟩) hnodup
        rw [hfiled, ← lines.name]
        rfl
    subst hw'
    rw [decodeKADMRecord_name, hline.name]
    exact ml.km

/-- **A dump is opened with each of its master keys**, and has them all. -/
theorem Consistent.load (laws : KDB.Laws env) (integrity : KDB.Integrity env)
    (hc : Consistent env db latest older)
    (hdump : dumpWithMasterKey env db latest.enctype latest.key = .ok text) {mk : Key}
    (hmk : mk ∈ latest :: older) :
    ∃ store, parseWithMasterKey env text mk.enctype mk.key = .ok store ∧
      Reloaded env db latest older store := by
  obtain ⟨ml, ws, policies, rfl, lines⟩ := dump_ok laws hc.fit hdump
  simp only [dumpWithMasterKey, bind_ok, ensure_ok] at hdump
  obtain ⟨_, hrealm, _⟩ := hdump
  obtain ⟨hlatest, holder⟩ := hc.lines lines
  have haux := lines.auxFor (by rw [hlatest, holder]; exact hc.aux)
  have hmem : mk ∈ ml.masterKeys := by
    rw [MasterLine.masterKeys, hlatest, holder]
    exact hmk
  obtain ⟨supplied, hsupplied, hsize⟩ := usableKey_iff.1 (ml.mem_masterKeys_fits hmem).1
  obtain ⟨found, version, hfound⟩ := ml.latest_any laws integrity haux hmem hsupplied
  exact hc.opened laws integrity hrealm lines hsupplied hsize hfound

/-- **Whatever password opens a dump**, all versions and all keys are there. -/
theorem Consistent.loaded (laws : KDB.Laws env) (integrity : KDB.Integrity env)
    (hc : Consistent env db latest older)
    (hdump : dumpWithMasterKey env db latest.enctype latest.key = .ok text) {password : Bytes}
    (hload : parseWithMasterPassword env text password = .ok store) :
    Reloaded env db latest older store ∧ Sound store := by
  obtain ⟨ml, ws, policies, rfl, lines⟩ := dump_ok laws hc.fit hdump
  simp only [dumpWithMasterKey, bind_ok, ensure_ok] at hdump
  obtain ⟨_, hrealm, _⟩ := hdump
  simp only [parseWithMasterPassword, bind_ok, ofOption_ok] at hload
  obtain ⟨raw, hparse, _, _, identified, _, hfirst⟩ := hload
  obtain ⟨e, _, htry⟩ := exists_of_findSome?_eq_some hfirst
  simp only [tryEnctype, Option.bind_eq_bind, Option.bind_eq_some_iff] at htry
  obtain ⟨supplied, hsupplied, key, _, hopen⟩ := htry
  have hopen := toOption_some.1 hopen
  have hsound := openStore_sound (parse_sound hparse) hopen
  have hwhole : parseWithMasterKey env (dumpText policies (ml.line :: ws)) e key = .ok store := by
    unfold parseWithMasterKey
    rw [hparse, ok_bind, hopen]
  rw [(parse_dump lines hc.fit hrealm).1 hparse |>.2] at hopen
  -- the load has found a newest key
  simp only [openStore, bind_ok, ensure_ok, ofOption_ok] at hopen
  obtain ⟨supplied', hsupplied', _, hsize, ⟨masterKeys, aux, used⟩, hrecover, _⟩ := hopen
  unfold recoverMasterKeys at hrecover
  have hin : masterOf (parsedStore policies (ml.line :: ws)) = some ml.line.parsed :=
    lines.in_store hrealm
  rw [hin] at hrecover
  simp only [ml.line.parsed_keyData, if_neg (ml.sealed_ne_nil laws),
    ml.metadata.aux _ ml.line.parsed_tlData, bind_ok, ofOption_ok] at hrecover
  obtain ⟨aux', haux', ⟨found, version⟩, hfound, _⟩ := hrecover
  cases haux'
  obtain ⟨store', hparse', hreloaded⟩ :=
    hc.opened laws integrity hrealm lines hsupplied' hsize hfound
  rw [hwhole] at hparse'
  cases hparse'
  exact ⟨hreloaded, hsound⟩

end Load

end Kerberos.MITDump
