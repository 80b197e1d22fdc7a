import Kerberos.Lib.Run
import Kerberos.Proof.Keyring

/-!
# The life of the master keys

Every command loads a dump, changes the database and writes it again. What a load gives is
split in two: the principals and policies (`Imported`), and the master keys with their
metadata (`Keyring`). The commands keep both (`Keyring.add`, `Keyring.use`,
`Imported.update`, `Keyring.purge`); but `purge_mkeys` must not remove the newest version while
two others stay, for the auxiliary entries it keeps are for that version.
-/

namespace Kerberos.MITDump

open MasterLine Transition List Except UInt32

/-! ## What a load gives -/

/-- The principals and policies of a loaded database, with the keys they have. -/
structure Imported (env : KDB.Env) (held : Bytes → Option (Int32 → Option Key)) (db : Database) :
    Prop where
  realm : Text.FreeOf nameBytes db.realm ∧ 0 ∉ db.realm
  policies : ∀ k p, db.policies.lookup k = some p →
    (PolicyPlain p ∧ policySize p < maxLineSize) ∧ p.maxFailure.toNat < 2 ^ 31
  records : ∀ k r, db.principals.lookup k = some r →
    Parsed r ∧ isKMPrincipal r.name = false ∧ ZeroFree r.name
  held : ∀ k, k ≠ canonical (kmName db.realm) →
    (db.principals.lookup k).map (restoredKeyOf env) = held k

/-- The master keys of a database and what it says about them. -/
structure Keyring (env : KDB.Env) (db : Database) (latest : Key) (older : List Key) : Prop where
  keys : db.masterKeys = latest :: older
  sorted : NewestFirst (latest :: older)
  aux : db.mKeyAux = [] ∨ AuxFor env latest older db.mKeyAux
  named : ∀ k r, db.principals.lookup k = some r → ∃ mk ∈ latest :: older, mk.kvno = wrapVersion r
  active : ∀ value ∈ db.activeMKeys, ∃ mk ∈ latest :: older, mk.kvno = value.kvno.toUInt32

/-- All lines of a dump are short enough, with `spare` bytes more for each principal and
`spareKey` bytes more for K/M. -/
def Roomy (env : KDB.Env) (db : Database) (spare spareKey : ℕ) : Prop :=
  (∀ k r, db.principals.lookup k = some r → ∀ name, r.name.format = .ok name →
    recordRoom env r name + spare < maxLineSize) ∧
  ∀ name, (kmName db.realm).format = .ok name →
    512 + name.length + 3 * 131134 + keySize db.masterKeys + spareKey < maxLineSize

variable {env : KDB.Env} {held : Bytes → Option (Int32 → Option Key)} {db : Database} {latest : Key}
  {older : List Key}

theorem dumpedAt_imported (h : Imported env held db) (k : Bytes) :
    dumpedAt db k = db.principals.lookup k := by
  unfold dumpedAt
  cases hk : db.principals.lookup k with
  | none => rfl
  | some r =>
    obtain ⟨hparsed, hkm, _⟩ := h.records k r hk
    obtain ⟨name, hname⟩ := hparsed.displayable
    simp [dumpsRecord, hname, IsKM, hkm, Except.toBool]

theorem consistent_of (h : Imported env held db) (hk : Keyring env db latest older)
    (hroom : Roomy env db 0 0) : Consistent env db latest older := by
  have hkeys : dumpMasterKeys db latest.enctype latest.key = latest :: older := by
    unfold dumpMasterKeys
    rw [hk.keys, if_neg (cons_ne_nil _ _)]
  have hnotKM : ∀ k r, db.principals.lookup k = some r → isKMPrincipal r.name = false :=
    fun k r hr => (h.records k r hr).2.1
  refine ⟨hkeys, ⟨h.realm.1, ?_, ?_, .inr ?_, ⟨h.realm.2, ?_⟩, ?_, hroom.1, ?_⟩, ?_, ?_,
    hk.aux, hk.named, hk.active, ?_⟩
  · rw [hkeys]
    exact hk.sorted
  · rw [hkeys]
    rintro mk ⟨⟩
    exact ⟨rfl, rfl⟩
  · rw [hkeys]
    exact hk.named
  · exact fun k r hr => (h.records k r hr).2.2
  · exact fun k p hp => (h.policies k p hp).1
  · intro name hname
    have := hroom.2 name hname
    rw [hkeys, ← hk.keys]
    exact this
  · exact fun k p hp => (h.policies k p hp).2
  · intro record hrecord
    obtain ⟨⟨k, hr⟩, _⟩ := mem_dumpedRecords.1 hrecord
    exact dumpedKeys_current env (h.records k record hr).1.fresh.current
  · intro k r hr hkm
    rw [hnotKM k r hr] at hkm
    cases hkm

theorem restoredKey_restoredKey (name : Principal) (key : Key) :
    restoredKey name (restoredKey name key) = restoredKey name key := by
  have h : ∀ normal salt : Bytes,
      effectiveSalt normal (effectiveSalt normal salt) = effectiveSalt normal salt := by
    intro normal salt
    by_cases hsalt : salt = [] <;> simp [effectiveSalt, hsalt]
  unfold restoredKey
  simp only [h]

variable {r : PrincipalRecord} {record : PrincipalRecord}

theorem restoredKeyOf_restored (h : RestoredAs env record r)
    (hparsed : Parsed r) (hkm : isKMPrincipal r.name = false) :
    restoredKeyOf env r = restoredKeyOf env record := by
  funext e
  rw [restoredKeyOf_current env hparsed.fresh.current hkm, h.2.1]
  have hname : restoredKey r.name = restoredKey record.name := by
    rw [h.1]
    rfl
  unfold restoredKeyOf
  rw [hname, Option.map_map]
  congr 1
  funext key
  exact restoredKey_restoredKey record.name key

theorem auxFor_restored {aux : List MKeyAuxEntry} (h : AuxFor env latest older aux)
    (name : Principal) :
    AuxFor env (restoredKey name latest) (older.map (restoredKey name)) aux := by
  rcases h with ⟨honly, hall⟩ | ⟨rfl, hstale⟩
  · refine .inl ⟨fun entry hentry => ?_, fun old hold => ?_⟩
    · obtain ⟨old, hold, hfor⟩ := honly entry hentry
      exact ⟨_, mem_map_of_mem hold, hfor⟩
    · obtain ⟨old', hold', rfl⟩ := mem_map.1 hold
      exact hall old' hold'
  · exact .inr ⟨rfl, hstale⟩

theorem toUInt16_toUInt32 {kvno : UInt32} (h : kvno.toNat ≤ maxUint16) :
    kvno.toUInt16.toUInt32 = kvno := by
  simp only [maxUint16] at h
  apply UInt32.toNat_inj.1
  simp only [UInt16.toNat_toUInt32, toNat_toUInt16]
  omega

/-- **What `loadMutable` gives.** -/
theorem Reloaded.imported {store : FileStore} (hc : Consistent env db latest older)
    (h : Reloaded env db latest older store) (hsound : Sound store) {loaded : Database}
    (hload : loadMutable store = .ok loaded) :
    (loaded.realm = db.realm ∧ loaded.activeMKeys ≠ []) ∧ Imported env (heldKeys env db) loaded ∧
      Keyring env loaded (restoredKey (kmName db.realm) latest)
        (older.map (restoredKey (kmName db.realm))) := by
  obtain ⟨⟨hrealm, hkeys, hactive, haux⟩, hrecords, hpolicies⟩ :=
    importStore_ok hsound ⟨rfl, rfl⟩ hload
  have hrealm : loaded.realm = db.realm := hrealm.trans h.realm
  -- a loaded record comes from one of the database
  have hfrom : ∀ k r, loaded.principals.lookup k = some r → k ≠ canonical (kmName db.realm) ∧
      ∃ record, dumpedAt db k = some record ∧ RestoredAs env record r := by
    intro k r hr
    obtain ⟨hstore, hkm⟩ := (hrecords k r).1 hr
    have hne : k ≠ canonical (kmName db.realm) := by
      rintro rfl
      rw [h.master r hstore] at hkm
      cases hkm
    have hrel := h.records k hne
    rw [hstore] at hrel
    generalize dumpedAt db k = x at hrel
    cases hrel with
    | some hrestored => exact ⟨hne, _, rfl, hrestored⟩
  have hactiveFor : activeFor db latest ≠ [] := by
    unfold activeFor
    split_ifs with hnil
    · exact cons_ne_nil _ _
    · exact hnil
  have hactive : loaded.activeMKeys = activeFor db latest := hactive.trans h.active
  refine ⟨⟨hrealm, hactive ▸ hactiveFor⟩, ⟨?_, ?_, ?_, ?_⟩, ⟨?_, ?_, ?_, ?_, ?_⟩⟩
  · rw [hrealm]
    exact ⟨hc.fit.realm, hc.fit.zeroFree.1⟩
  · intro k p hp
    obtain ⟨q, hq, rfl⟩ := h.policies k p ((hpolicies k p).1 hp)
    obtain ⟨⟨hname, hsalts⟩, hsize⟩ := hc.fit.policies k q hq
    refine ⟨?_, hc.limits k q hq⟩
    unfold restoredPolicy PolicyPlain policySize at *
    split_ifs
    · exact ⟨⟨hname, fun b hb => absurd hb not_mem_nil⟩, by
        simp only [length_nil]
        omega⟩
    · exact ⟨⟨hname, hsalts⟩, hsize⟩
  · intro k r hr
    obtain ⟨hstore, hkm⟩ := (hrecords k r).1 hr
    obtain ⟨_, record, hrecord, hrestored⟩ := hfrom k r hr
    refine ⟨hsound.parsed k r hstore, hkm, ?_⟩
    rw [hrestored.1]
    exact hc.fit.zeroFree.2 k record (dumpedAt_eq_some.1 hrecord).1
  · intro k hk
    rw [hrealm] at hk
    unfold heldKeys
    have hrel := h.records k hk
    cases hdumped : dumpedAt db k with
    | none =>
      cases hr : loaded.principals.lookup k with
      | none => rfl
      | some r =>
        obtain ⟨_, record, hrecord, _⟩ := hfrom k r hr
        rw [hdumped] at hrecord
        cases hrecord
    | some record =>
      rw [hdumped] at hrel
      generalize hstore : store.records.lookup k = y at hrel
      cases hrel with
      | @some _ r hrestored =>
        have hkm : isKMPrincipal r.name = false := by
          obtain ⟨hlookup, hrecord⟩ := dumpedAt_eq_some.1 hdumped
          obtain ⟨_, _, hnot⟩ := mem_dumpedRecords.1 hrecord
          rw [hrestored.1]
          rw [Bool.eq_false_iff]
          exact fun hkm => hnot ⟨hc.home k record hlookup hkm, hkm⟩
        rw [(hrecords k r).2 ⟨hstore, hkm⟩, Option.map_some, Option.map_some,
          restoredKeyOf_restored hrestored (hsound.parsed k r hstore) hkm]
  · exact hkeys.trans h.masterKeys
  · have hsorted := hc.fit.newestFirst
    rw [hc.masterKeys] at hsorted
    exact newestFirst_map hsorted _
  · refine .inr ?_
    rw [haux]
    exact auxFor_restored h.aux _
  · intro k r hr
    obtain ⟨_, record, hrecord, hrestored⟩ := hfrom k r hr
    obtain ⟨mk, hmk, hkvno⟩ := hc.named k record (dumpedAt_eq_some.1 hrecord).1
    exact ⟨_, mem_map_of_mem hmk,
      hkvno.trans hrestored.2.2.symm⟩
  · intro value hvalue
    rw [hactive] at hvalue
    unfold activeFor at hvalue
    obtain ⟨mk, hmk, hkvno⟩ : ∃ mk ∈ latest :: older, mk.kvno = value.kvno.toUInt32 := by
      split_ifs at hvalue
      · rw [mem_singleton] at hvalue
        subst hvalue
        exact ⟨latest, mem_cons_self,
          (toUInt16_toUInt32 (h.fits latest mem_cons_self).2.2.1).symm⟩
      · exact hc.active value hvalue
    exact ⟨_, mem_map_of_mem hmk, hkvno⟩

/-! ## The commands -/

variable {k : Bytes}

theorem mem_matchingRecords (h : Imported env held db)
    (hr : db.principals.lookup k = some r) : r ∈ matchingRecords db fun _ => true := by
  obtain ⟨hparsed, hkm, _⟩ := h.records k r hr
  obtain ⟨name, hname⟩ := hparsed.displayable
  have hentry : (⟨k, r⟩ : Sigma fun _ : Bytes => PrincipalRecord) ∈ db.principals.entries :=
    AList.lookup_eq_some_iff.1 hr
  have hlisted : name ∈ db.listPrincipals := by
    refine (perm_insertionSort _ _).mem_iff.2 (mem_filterMap.2 ⟨⟨k, r⟩, hentry, ?_⟩)
    rw [hname]
    rfl
  have hlookup : db.lookup r.name.plain = some r := lookup_own hr
  have hkm' : isKMPrincipal r.name.plain = false := hkm
  refine mem_filterMap.2 ⟨name, hlisted, ?_⟩
  rw [parsePrincipal_format hname]
  simp [hkm', hlookup]

theorem wrapVersion_eq (r : PrincipalRecord) :
    wrapVersion r = if mkvnoOrZero r = 0 then 1 else mkvnoOrZero r := by
  unfold wrapVersion mkvnoOrZero
  cases mkvno r.tlData with
  | ok value => rfl
  | error e => rfl

/-- Every version that seals a principal is in use. -/
theorem mem_usedVersions (h : Imported env held db)
    (hr : db.principals.lookup k = some r) : wrapVersion r ∈ usedVersions db := by
  rw [wrapVersion_eq]
  exact mem_map.2 ⟨r, mem_matchingRecords h hr, rfl⟩

/-- The next version is newer than all there are. -/
theorem nextKVNO_newer {keys : List Key} (hfits : ∀ mk ∈ keys, mk.kvno.toNat ≤ maxUint16) :
    ∀ mk ∈ keys, mk.kvno < nextKVNO keys := by
  intro mk hmk
  refine lt_iff_toNat_lt.2 ((le_foldl (t := fun key : Key => key.kvno.toNat + 1)
    (fun next key hkey => ?_) 1).2 mk hmk)
  have hfit := hfits key hkey
  simp only [maxUint16] at hfit
  split_ifs with hle
  · have hsucc : (key.kvno + 1).toNat = key.kvno.toNat + 1 := by
      rw [UInt32.toNat_add]
      have : (1 : UInt32).toNat = 1 := rfl
      omega
    rw [le_iff_toNat_le] at hle
    omega
  · rw [le_iff_toNat_le] at hle
    omega

variable {db' : Database} {now : ℤ}

section Commands

variable (hring : Keyring env db latest older)

include hring

/-- `add_mkey`: the new key comes first, and the auxiliary entries are made anew. -/
theorem Keyring.add (hfits : ∀ mk ∈ latest :: older, mk.kvno.toNat ≤ maxUint16)
    (hactive : db.activeMKeys ≠ []) {enctype : Int32} {newPassword : Bytes}
    (h : addMKey env db enctype newPassword = .ok db') :
    (db'.realm = db.realm ∧ db'.principals = db.principals ∧ db'.policies = db.policies) ∧
      keySize db'.masterKeys = keySize db.masterKeys + (512 + 2 * (db.realm.length + 2)) ∧
      ∃ added, Keyring env db' added (latest :: older) := by
  simp only [addMKey, bind_ok] at h
  obtain ⟨_, _, key, _, hpure⟩ := h
  cases hpure
  refine ⟨⟨rfl, rfl, rfl⟩, ?_, ⟨enctype, nextKVNO db.masterKeys, key, db.realm ++ str "KM"⟩, ?_, ?_,
    .inl rfl, ?_, ?_⟩
  · have hsalt : (str "KM").length = 2 := by decide
    simp only [keySize, map_cons, sum_cons, length_append]
    omega
  · rw [hring.keys]
  · refine pairwise_cons.2 ⟨fun mk hmk => ?_, hring.sorted⟩
    rw [hring.keys]
    exact nextKVNO_newer hfits mk hmk
  · intro k r hr
    obtain ⟨mk, hmk, hkvno⟩ := hring.named k r hr
    exact ⟨mk, mem_cons_of_mem _ hmk, hkvno⟩
  · intro value hvalue
    have hvalue' : value ∈ db.activeMKeys := by simpa [hactive] using hvalue
    obtain ⟨mk, hmk, hkvno⟩ := hring.active value hvalue'
    exact ⟨mk, mem_cons_of_mem _ hmk, hkvno⟩

/-- `use_mkey`: a version there is becomes active. -/
theorem Keyring.use (hfits : ∀ mk ∈ latest :: older, mk.kvno.toNat ≤ maxUint16)
    {kvno : UInt32} {time : Option ℤ} (h : useMKey now db kvno time = .ok db') :
    (db'.realm = db.realm ∧ db'.principals = db.principals ∧ db'.policies = db.policies) ∧
      db'.masterKeys = db.masterKeys ∧ Keyring env db' latest older := by
  simp only [useMKey, bind_ok, ensure_ok] at h
  obtain ⟨_, _, _, ⟨mk, hmk, rfl⟩, _, _, _, _, hpure⟩ := h
  cases hpure
  refine ⟨⟨rfl, rfl, rfl⟩, rfl, hring.keys, hring.sorted, hring.aux, hring.named, ?_⟩
  intro value hvalue
  have hmem := (perm_insertionSort _ _).mem_iff.1 hvalue
  rcases mem_append.1 hmem with hmem | hmem
  · exact hring.active value (mem_of_mem_filter hmem)
  · rw [mem_singleton] at hmem
    subst hmem
    rw [hring.keys] at hmk
    exact ⟨mk, hmk, (toUInt16_toUInt32 (hfits mk hmk)).symm⟩

/-- The version that is active is one there is. -/
theorem Keyring.findActive (h : findActiveMKey db.activeMKeys now ≠ 0) :
    ∃ mk ∈ latest :: older, mk.kvno = findActiveMKey db.activeMKeys now := by
  refine (foldlRecOn (motive := fun result : UInt32 × ℤ =>
    result.1 = 0 ∨ ∃ mk ∈ latest :: older, mk.kvno = result.1) db.activeMKeys _ (.inl rfl)
      ?_).resolve_left h
  intro result hresult value hvalue
  split_ifs
  · exact .inr (hring.active value hvalue)
  · exact hresult

end Commands

/-! ### `update_princ_encryption` -/

theorem mkvno_replaceTL (tl : List TLData) (data : Bytes) :
    mkvno (replaceTL tl ⟨MKVNOType, data⟩) = decodeMKVNO data := by
  have hfind : (replaceTL tl ⟨MKVNOType, data⟩).find? (fun value => value.type == MKVNOType) =
      some ⟨MKVNOType, data⟩ := by
    induction tl with
    | nil => rfl
    | cons value tl ih =>
      unfold replaceTL
      split_ifs with htype
      · rfl
      · rw [find?_cons_of_neg (by simpa using htype)]
        exact ih
  unfold mkvno
  rw [hfind]

theorem tlSize_replaceTL (tl : List TLData) (data : TLData) :
    tlSize (replaceTL tl data) ≤ tlSize tl + (64 + 2 * data.data.length) := by
  induction tl with
  | nil => simp [replaceTL, tlSize]
  | cons value tl ih =>
    unfold replaceTL
    split_ifs
    · simp only [tlSize, map_cons, sum_cons] at ih ⊢
      omega
    · simp only [tlSize, map_cons, sum_cons] at ih ⊢
      omega

/-- The record sealed under the version `active`. -/
def retagged (active : UInt32) (r : PrincipalRecord) : PrincipalRecord :=
  { r with tlData := replaceTL r.tlData ⟨MKVNOType, le16 active.toNat⟩ }

/-- The principals of `db'` are those of `db`, some of them sealed under `active`. -/
def Retagged (active : UInt32) (db db' : Database) : Prop :=
  (db'.realm = db.realm ∧ db'.policies = db.policies ∧ db'.masterKeys = db.masterKeys ∧
    db'.activeMKeys = db.activeMKeys ∧ db'.mKeyAux = db.mKeyAux) ∧
  ∀ k, Option.Rel (fun r r' => r' = r ∨ r' = retagged active r) (db.principals.lookup k)
    (db'.principals.lookup k)

variable {active : UInt32}

theorem Retagged.origin (h : Retagged active db db') {r' : PrincipalRecord}
    (hr : db'.principals.lookup k = some r') :
    ∃ r, db.principals.lookup k = some r ∧ (r' = r ∨ r' = retagged active r) := by
  have hrel := h.2 k
  rw [hr] at hrel
  generalize db.principals.lookup k = x at hrel
  cases hrel with
  | some hr => exact ⟨_, rfl, hr⟩

theorem retagged_refl (active : UInt32) (db : Database) : Retagged active db db := by
  refine ⟨⟨rfl, rfl, rfl, rfl, rfl⟩, fun k => ?_⟩
  cases db.principals.lookup k with
  | none => exact .none
  | some r => exact .some (.inl rfl)

/-- `UpdatePrincipal` with a record that was looked up before files it as it is. -/
theorem updatePrincipal_full (h : db.updatePrincipal now record {} = .ok db') :
    ∃ current, db.lookup record.name = some current ∧
      (current.lastPasswordChange = record.lastPasswordChange → db' = db.save now record) := by
  obtain ⟨current, updated, hcurrent, hpure, rfl⟩ := Database.modify_ok.1 h
  cases hpure
  refine ⟨current, hcurrent, fun htime => ?_⟩
  have hkeep : (if record.lastPasswordChange = zeroTime then current.lastPasswordChange
      else record.lastPasswordChange) = record.lastPasswordChange := by
    rw [htime, ite_self]
  rw [hkeep]
  rfl

/-- One round of the loop. -/
theorem Retagged.step {mid next : Database} (h : Retagged active db mid)
    (hrecord : db.lookup record.name = some record)
    (hupdate : mid.updatePrincipal now (retagged active record) {} = .ok next) :
    Retagged active db next := by
  have hlookup : db.principals.lookup (canonical record.name) = some record := hrecord
  obtain ⟨current, hcurrent, hsave⟩ := updatePrincipal_full hupdate
  have hcurrent : mid.principals.lookup (canonical record.name) = some current := hcurrent
  have htime : current.lastPasswordChange = record.lastPasswordChange := by
    obtain ⟨r, hr, hcase⟩ := h.origin hcurrent
    rw [hlookup] at hr
    cases hr
    rcases hcase with rfl | rfl
    · rfl
    · rfl
  rw [hsave htime]
  refine ⟨h.1, fun k => ?_⟩
  show Option.Rel _ _
    ((mid.principals.insert (canonical record.name) (retagged active record)).lookup k)
  by_cases hk : k = canonical record.name
  · rw [hk, hlookup, AList.lookup_insert]
    exact .some (.inr rfl)
  · rw [AList.lookup_insert_ne hk]
    exact h.2 k

theorem lookup_of_matching {matcher : Bytes → Bool}
    (h : r ∈ matchingRecords db matcher) : db.lookup r.name = some r := by
  obtain ⟨name, _, hname⟩ := mem_filterMap.1 h
  split at hname
  · split_ifs at hname
    exact lookup_own hname
  · cases hname

/-- `update_princ_encryption`: some principals are sealed under the active version. -/
theorem updatePrincipalEncryption_retagged (hring : Keyring env db latest older)
    {matcher : Bytes → Bool} {dryRun confirmed : Bool}
    (h : updatePrincipalEncryption now db matcher dryRun confirmed = .ok (some db')) :
    ∃ mk ∈ latest :: older, Retagged mk.kvno db db' := by
  simp only [updatePrincipalEncryption, bind_ok, ensure_ok] at h
  obtain ⟨_, hactive, _, _, h⟩ := h
  split_ifs at h
  · cases h
  · rw [bind_ok] at h
    obtain ⟨updated, hupdated, hpure⟩ := h
    cases hpure
    obtain ⟨mk, hmk, heq⟩ := hring.findActive hactive
    refine ⟨mk, hmk, ?_⟩
    rw [← heq] at hupdated
    refine foldlM_invariant ?_ (retagged_refl _ db) hupdated
    intro mid record step hrecord hmid hstep
    simp only [bind_ok, mapError_ok] at hstep
    obtain ⟨encoded, hencoded, hupdate⟩ := hstep
    obtain ⟨_, rfl⟩ := encodeMKVNO_ok.1 hencoded
    exact hmid.step (lookup_of_matching (mem_of_mem_filter hrecord)) hupdate

theorem wrapVersion_retagged (hzero : active ≠ 0) (hactive : active.toNat ≤ maxUint16)
    (r : PrincipalRecord) : wrapVersion (retagged active r) = active := by
  have hmkvno : mkvno (retagged active r).tlData = .ok active := by
    show mkvno (replaceTL _ _) = _
    rw [mkvno_replaceTL, decodeMKVNO_le16 hactive]
  unfold wrapVersion
  rw [hmkvno]
  exact if_neg hzero

theorem Keyring.of_retagged {mk : Key} (hring : Keyring env db latest older)
    (hmk : mk ∈ latest :: older)
    (hzero : mk.kvno ≠ 0) (hfits : mk.kvno.toNat ≤ maxUint16)
    (h : Retagged mk.kvno db db') : Keyring env db' latest older := by
  obtain ⟨_, _, hkeys, hactive, haux⟩ := h.1
  refine ⟨hkeys.trans hring.keys, hring.sorted, haux ▸ hring.aux, fun k r' hr' => ?_,
    hactive ▸ hring.active⟩
  obtain ⟨r, hr, rfl | rfl⟩ := h.origin hr'
  · exact hring.named k r' hr
  · exact ⟨mk, hmk, (wrapVersion_retagged hzero hfits r).symm⟩

theorem Imported.of_retagged (himp : Imported env held db) (h : Retagged active db db') :
    Imported env held db' := by
  obtain ⟨hrealm, hpolicies, _⟩ := h.1
  refine ⟨hrealm ▸ himp.realm, hpolicies ▸ himp.policies, fun k r' hr' => ?_, fun k hk => ?_⟩
  · obtain ⟨r, hr, rfl | rfl⟩ := h.origin hr'
    · exact himp.records k r' hr
    · obtain ⟨hparsed, hkm, hzero⟩ := himp.records k r hr
      exact ⟨⟨hparsed.fresh, hparsed.displayable⟩, hkm, hzero⟩
  · rw [hrealm] at hk
    rw [← himp.held k hk]
    have hrel := h.2 k
    generalize db.principals.lookup k = x at hrel ⊢
    generalize db'.principals.lookup k = y at hrel ⊢
    cases hrel with
    | none => rfl
    | some hcase =>
      rcases hcase with rfl | rfl
      · rfl
      · rfl

theorem Roomy.of_retagged (hroom : Roomy env db 68 0) (h : Retagged active db db') :
    Roomy env db' 0 0 := by
  obtain ⟨hrealm, _, hkeys, _⟩ := h.1
  refine ⟨fun k r' hr' name hname => ?_, fun name hname => ?_⟩
  · obtain ⟨r, hr, rfl | rfl⟩ := h.origin hr'
    · have := hroom.1 k r' hr name hname
      omega
    · have hold := hroom.1 k r hr name hname
      have hsize := tlSize_replaceTL r.tlData ⟨MKVNOType, le16 active.toNat⟩
      rw [show (⟨MKVNOType, le16 active.toNat⟩ : TLData).data.length =
        2 from length_le16 _] at hsize
      have htl : (retagged active r).tlData = replaceTL r.tlData ⟨MKVNOType, le16 active.toNat⟩ :=
        rfl
      have hdumped : dumpedKeys env (retagged active r) = dumpedKeys env r := rfl
      unfold recordRoom at hold ⊢
      rw [htl, hdumped]
      omega
  · rw [hkeys]
    rw [hrealm] at hname
    exact hroom.2 name hname

/-! ### `purge_mkeys` -/

/-- The newest version is in use, or one version is. -/
def NewestUsed (db : Database) : Prop :=
  (∀ latest ∈ db.masterKeys.head?, latest.kvno ∈ usedVersions db) ∨
    (db.masterKeys.filter fun key => key.kvno ∈ usedVersions db).length ≤ 1

instance (db : Database) : Decidable (NewestUsed db) := inferInstanceAs (Decidable (_ ∨ _))

theorem auxEntryFor_version {target old : Key} {entry : MKeyAuxEntry}
    (h : auxEntryFor env target old = .ok entry) (hfits : old.kvno.toNat ≤ maxUint16) :
    entry.mKeyKVNO.toUInt32 = old.kvno := by
  obtain ⟨_, _, _, _, rfl⟩ := auxEntryFor_ok.1 h
  exact toUInt16_toUInt32 hfits

/-- What is kept of the auxiliary entries is for the newest version, if that is kept. -/
theorem AuxSound.purged {used : List UInt32} {aux : List MKeyAuxEntry} {latest' : Key}
    {older' : List Key}
    (hsound : AuxSound env latest older aux)
    (hfits : ∀ mk ∈ latest :: older, usableKey env mk = true ∧ mk.kvno.toNat ≤ maxUint16)
    (hkeys : (latest :: older).filter (fun key => key.kvno ∈ used) = latest' :: older')
    (hsafe : latest.kvno ∈ used ∨ older' = []) :
    AuxFor env latest' older' (aux.filter fun value => value.mKeyKVNO.toUInt32 ∈ used) := by
  have hentry : ∀ entry ∈ aux.filter (fun value => value.mKeyKVNO.toUInt32 ∈ used),
      ∃ old ∈ older, old.kvno ∈ used ∧ auxEntryFor env latest old = .ok entry := by
    intro entry hentry
    rw [mem_filter, decide_eq_true_eq] at hentry
    obtain ⟨old, hold, hfor⟩ := hsound.1 entry hentry.1
    have hversion := auxEntryFor_version hfor (hfits old (mem_cons_of_mem _ hold)).2
    exact ⟨old, hold, hversion ▸ hentry.2, hfor⟩
  by_cases hnewest : latest.kvno ∈ used
  · rw [filter_cons_of_pos (by simpa using hnewest)] at hkeys
    injection hkeys with hlatest holder
    subst hlatest holder
    refine .inl ⟨fun entry hmem => ?_, fun old hold => ?_⟩
    · obtain ⟨old, hold, hused, hfor⟩ := hentry entry hmem
      exact ⟨old, mem_filter.2 ⟨hold, decide_eq_true hused⟩, hfor⟩
    · rw [mem_filter, decide_eq_true_eq] at hold
      obtain ⟨entry, hmem, hfor⟩ := hsound.2 old hold.1
      have hversion := auxEntryFor_version hfor (hfits old (mem_cons_of_mem _ hold.1)).2
      exact ⟨entry, mem_filter.2 ⟨hmem, decide_eq_true (hversion ▸ hold.2)⟩, hfor⟩
  · -- one version is left, and the entries kept are sealed under it
    have hsingle := hsafe.resolve_left hnewest
    refine .inr ⟨hsingle, fun entry hmem => ?_⟩
    obtain ⟨old, hold, hused, hfor⟩ := hentry entry hmem
    have hmem' : old ∈ latest' :: older' :=
      hkeys ▸ mem_filter.2 ⟨mem_cons_of_mem _ hold, decide_eq_true hused⟩
    rw [hsingle, mem_singleton] at hmem'
    subst hmem'
    exact ⟨latest, (hfits latest mem_cons_self).1, hfor⟩

/-- `purge_mkeys`: the keys in use are kept. -/
theorem Keyring.purge (himp : Imported env held db) (hring : Keyring env db latest older)
    (hfits : ∀ mk ∈ latest :: older, usableKey env mk = true ∧ mk.kvno.toNat ≤ maxUint16)
    {supplied : UInt32} {dryRun confirmed : Bool} (hsafe : NewestUsed db)
    (h : purgeMKeys db supplied dryRun confirmed = .ok (some db')) (hne : db'.masterKeys ≠ []) :
    (db'.realm = db.realm ∧ db'.principals = db.principals ∧ db'.policies = db.policies) ∧
      db'.masterKeys.Sublist db.masterKeys ∧ ∃ latest' older', Keyring env db' latest' older' := by
  simp only [purgeMKeys] at h
  by_cases hall : (db.masterKeys.filter fun key => key.kvno ∈ usedVersions db ∨
      key.kvno = if supplied ≠ 0 then supplied else 1).length = db.masterKeys.length
  · rw [if_pos hall] at h
    cases h
  rw [if_neg hall] at h
  simp only [bind_ok, ensure_ok] at h
  obtain ⟨_, hstash, _, _, h⟩ := h
  by_cases hdry : dryRun = true
  · rw [if_pos hdry] at h
    cases h
  rw [if_neg hdry] at h
  -- the version of the password is in use, so the kept keys are those in use
  set used := usedVersions db
  have hfilter : db.masterKeys.filter (fun key => key.kvno ∈ used ∨
      key.kvno = if supplied ≠ 0 then supplied else 1) = db.masterKeys.filter fun key =>
        key.kvno ∈ used := by
    refine filter_congr fun key _ => ?_
    rw [decide_eq_decide]
    constructor
    · rintro (h | h)
      · exact h
      · rw [h]
        exact hstash
    · exact .inl
  rw [hfilter] at h hall
  cases h
  have hkept : ∀ {mk}, mk ∈ db.masterKeys.filter (fun key => key.kvno ∈ used) ↔
      mk ∈ latest :: older ∧ mk.kvno ∈ used := by
    intro mk
    rw [mem_filter, hring.keys, decide_eq_true_eq]
  -- whatever is in use is kept
  have hnamed : ∀ k r, db.principals.lookup k = some r →
      ∃ mk ∈ db.masterKeys.filter (fun key => key.kvno ∈ used), mk.kvno = wrapVersion r := by
    intro k r hr
    obtain ⟨mk, hmk, hkvno⟩ := hring.named k r hr
    exact ⟨mk, hkept.2 ⟨hmk, hkvno ▸ mem_usedVersions himp hr⟩, hkvno⟩
  have hactive : ∀ value ∈ db.activeMKeys.filter (fun value => value.kvno.toUInt32 ∈ used),
      ∃ mk ∈ db.masterKeys.filter (fun key => key.kvno ∈ used), mk.kvno = value.kvno.toUInt32 := by
    intro value hvalue
    rw [mem_filter, decide_eq_true_eq] at hvalue
    obtain ⟨mk, hmk, hkvno⟩ := hring.active value hvalue.1
    exact ⟨mk, hkept.2 ⟨hmk, hkvno ▸ hvalue.2⟩, hkvno⟩
  have hsorted : NewestFirst (db.masterKeys.filter fun key => key.kvno ∈ used) := by
    rw [hring.keys]
    exact hring.sorted.filter _
  refine ⟨⟨rfl, rfl, rfl⟩, filter_sublist, ?_⟩
  have hsound : AuxSound env latest older db.mKeyAux ∨ db.mKeyAux = [] := by
    rcases hring.aux with hnil | hsound | ⟨hsingle, _⟩
    · exact .inr hnil
    · exact .inl hsound
    · -- one master key, and none is purged
      rw [hring.keys, hsingle] at hne hall
      exact absurd (congrArg length ((sublist_singleton.1 filter_sublist).resolve_left hne)) hall
  obtain ⟨latest', older', hkeys⟩ := exists_cons_of_ne_nil hne
  have hkeys : db.masterKeys.filter (fun key => key.kvno ∈ used) = latest' :: older' := hkeys
  rw [hkeys] at hnamed hactive hsorted hkept
  refine ⟨latest', older', hkeys, hsorted, ?_, hnamed, hactive⟩
  rcases hsound with hsound | hnil
  · right
    refine AuxSound.purged hsound hfits (hring.keys ▸ hkeys) ?_
    rcases hsafe with hall | hone
    · exact .inl (hall latest (by rw [hring.keys]; rfl))
    · rw [hkeys] at hone
      exact .inr (length_eq_zero_iff.1 (by simpa using hone))
  · left
    rw [hnil]
    rfl

end Kerberos.MITDump
