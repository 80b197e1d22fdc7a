import Kerberos.Proof.Opening
import Kerberos.Proof.Sizes

/-!
# The master keys of a dump are recovered

`MasterLine` is the K/M line of a dump whose master keys stand newest first. A dump is
opened with every one of them (`latest_any`), with the newest by the K/M keys and with an
older one by its auxiliary entry; all versions come back (`recover`), and nothing else opens
it (`latest_only`).
-/

namespace Kerberos

open List Except Option

/-- What is sealed under one key does not open under another. -/
structure KDB.Integrity (env : KDB.Env) : Prop where
  only : ∀ {e t}, env.etype e = some t → ∀ {e' t'}, env.etype e' = some t' → ∀ {k k' u p c p'},
    t.encrypt k u p = some c → t'.decrypt k' u c = some p' → e' = e ∧ k' = k

namespace MITDump

/-- Master keys stand newest first, one of each version. -/
def NewestFirst (keys : List Key) : Prop := keys.Pairwise fun a b => b.kvno < a.kvno

/-! ## Metadata -/

/-- The activations of a dump: those of the database, or one of the newest version. -/
def activeFor (db : Database) (latest : Key) : List ActKVNO :=
  if db.activeMKeys = [] then [⟨latest.kvno.toUInt16, 0⟩] else db.activeMKeys

theorem masterKeyTLData_ok {env : KDB.Env} {db : Database} {latest : Key} {older : List Key}
    {tl : List TLData} (h : masterKeyTLData env db (latest :: older) = .ok tl) :
    ∃ aux, auxEntriesFor env db latest older = .ok aux ∧
      Metadata tl latest.kvno (activeFor db latest) aux ∧
      (latest.kvno ≠ 0 ∧ latest.kvno.toNat ≤ maxUint16) ∧ tl.length ≤ 3 ∧
        ∀ data ∈ tl, data.type ≠ KADMDataType := by
  simp only [masterKeyTLData, bind_ok] at h
  obtain ⟨version, hversion, active, hactive, aux, haux, encoded, hencoded, hpure⟩ := h
  cases hpure
  obtain ⟨hfits, rfl⟩ := encodeMKVNO_ok.1 hversion
  refine ⟨aux, haux, ⟨?_, ?_, ?_⟩, hfits, ?_, ?_⟩
  · exact decodeMKVNO_le16 hfits.2
  · intro record hrecord
    have hfilter : record.tlData.filter (fun item => item.type == ACTKVNOType) =
        [⟨ACTKVNOType, active⟩] := by
      rw [hrecord]
      split_ifs
      · rfl
      · rfl
    show foldlM _ _ (record.tlData.filter fun item => item.type == ACTKVNOType) = _
    rw [hfilter, foldlM_cons, decodeACTKVNO_encode hactive]
    rfl
  · intro record hrecord
    unfold masterAux
    rw [hrecord]
    split_ifs with hnil
    · have hdecode := decodeMKEYAux_encode hencoded
      rw [hnil] at hdecode
      exact hdecode
    · have hfilter : ([⟨MKVNOType, le16 latest.kvno.toNat⟩, ⟨ACTKVNOType, active⟩] ++
          [⟨MKEYAuxType, encoded⟩] : List TLData).filter (fun item => item.type == MKEYAuxType) =
          [⟨MKEYAuxType, encoded⟩] := rfl
      rw [hfilter, foldlM_cons, decodeMKEYAux_encode hencoded]
      rfl
  · split_ifs
    · simp
    · simp
  · intro data hdata
    split_ifs at hdata
    · simp only [append_nil, mem_cons, not_mem_nil, or_false] at hdata
      rcases hdata with rfl | rfl
      · exact (by decide : MKVNOType ≠ KADMDataType)
      · exact (by decide : ACTKVNOType ≠ KADMDataType)
    · simp only [cons_append, nil_append, mem_cons, not_mem_nil, or_false] at hdata
      rcases hdata with rfl | rfl | rfl
      · exact (by decide : MKVNOType ≠ KADMDataType)
      · exact (by decide : ACTKVNOType ≠ KADMDataType)
      · exact (by decide : MKEYAuxType ≠ KADMDataType)

/-! ## The K/M line -/

theorem ne_of_newer {a b : Key} (h : b.kvno < a.kvno) : a.kvno ≠ b.kvno := by
  intro heq
  rw [heq] at h
  exact absurd h (UInt32.lt_irrefl _)

theorem keyLE_of_newer {a b : Key} (h : b.kvno < a.kvno) : keyLE true a b = true := by
  unfold keyLE
  rw [if_pos ⟨rfl, ne_of_newer h⟩]
  simpa using h

variable {keys : List Key}

theorem dumpedKeys_masterRecord (env : KDB.Env) {km : Principal} (hkm : isKMPrincipal km = true)
    (hne : keys ≠ []) (hsorted : NewestFirst keys) (tl : List TLData) :
    dumpedKeys env (masterRecord km keys tl) = keys := by
  have hkeyData : (masterRecord km keys tl).keyData = keys := rfl
  have hname : (masterRecord km keys tl).name = km := rfl
  unfold dumpedKeys
  simp only [hkeyData, hname, hkm, hne, ne_eq]
  exact Pairwise.insertionSort_eq (hsorted.imp fun h => keyLE_of_newer h)

/-- The K/M line of a dump, sealed under the newest of its master keys. -/
structure MasterLine (env : KDB.Env) where
  line : Written env
  latest : Key
  older : List Key
  active : List ActKVNO
  aux : List MKeyAuxEntry
  km : isKMPrincipal line.record.name = true
  keys : dumpedKeys env line.record = latest :: older
  sorted : NewestFirst (latest :: older)
  etype : env.etype latest.enctype = some line.etype
  key : latest.key = line.key
  metadata : Metadata line.tl latest.kvno active aux
  kvno : latest.kvno ≠ 0

namespace MasterLine

variable {env : KDB.Env} (ml : MasterLine env)

/-- The master keys of the line. -/
def masterKeys : List Key := ml.latest :: ml.older

/-- The master key of a version as it comes back. -/
def restored (kvno : UInt32) : Option Key :=
  (ml.masterKeys.find? fun key => key.kvno == kvno).map (restoredKey ml.line.record.name)

theorem mem_masterKeys_fits {key : Key} (h : key ∈ ml.masterKeys) :
    KeyFits env ml.line.record.name key := by
  refine ml.line.fits.keys key ?_
  rw [ml.keys]
  exact h

theorem key_ne_nil (laws : KDB.Laws env) {key : Key} (h : key ∈ ml.masterKeys) : key.key ≠ [] := by
  obtain ⟨etype, hetype, hsize⟩ := usableKey_iff.1 (ml.mem_masterKeys_fits h).1
  have := (laws.keySize hetype).1
  rw [← length_pos_iff]
  omega

/-- The sealed keys of the line, and what the newest master key makes of them. -/
theorem decrypts (laws : KDB.Laws env) :
    List.Forall₂ (fun k s => s.enctype = k.enctype ∧ s.kvno = k.kvno ∧
        decryptKeyData env s ml.line.etype ml.latest.key = .ok (restoredKey ml.line.record.name k))
      ml.masterKeys (sealedKeys env ml.line.record ml.line.cts) := by
  have h := decrypt_sealedKeys laws ml.line.fits.keys ml.etype ml.line.sealed
  rw [ml.keys] at h
  rw [ml.key]
  exact h

theorem sealed_ne_nil (laws : KDB.Laws env) : sealedKeys env ml.line.record ml.line.cts ≠ [] := by
  rw [← length_pos_iff, ← (ml.decrypts laws).length_eq]
  exact Nat.succ_pos _

/-- Keys filed by version: each version of a list without repetition is found. -/
theorem lookup_foldl_kvno (hsorted : NewestFirst keys) (m : GoMap UInt32 Key) (kvno : UInt32) :
    (keys.foldl (fun m key => m.insert key.kvno key) m).lookup kvno =
      (keys.find? fun key => key.kvno == kvno).or (m.lookup kvno) := by
  cases hfind : keys.find? fun key => key.kvno == kvno with
  | none =>
    refine AList.lookup_foldl_insert_of_notMem fun key hkey heq => ?_
    have := find?_eq_none.1 hfind key hkey
    exact this (by simpa using heq)
  | some key =>
    have hkvno : key.kvno = kvno := by simpa using find?_some hfind
    have hnodup : (keys.map Key.kvno).Nodup :=
      pairwise_map.2 (Pairwise.imp ne_of_newer hsorted)
    rw [← hkvno]
    exact AList.lookup_foldl_insert_of_mem hnodup (mem_of_find?_eq_some hfind)

theorem newestFirst_map (h : NewestFirst keys) (name : Principal) :
    NewestFirst (keys.map (restoredKey name)) := pairwise_map.2 h

theorem find?_restored (keys : List Key) (name : Principal) (kvno : UInt32) :
    (keys.map (restoredKey name)).find? (fun key => key.kvno == kvno) =
      (keys.find? fun key => key.kvno == kvno).map (restoredKey name) := by
  rw [find?_map]
  rfl

/-- The store has the line as its K/M record. -/
def In (store : FileStore) : Prop := masterOf store = some ml.line.parsed

variable {supplied : EType} {key : Bytes}

/-- **All versions are recovered** once the newest key is. -/
theorem recover (laws : KDB.Laws env) {store : FileStore} (hin : ml.In store) {found : Key}
    {version : UInt32}
    (hfound : latestMasterKey env supplied key (sealedKeys env ml.line.record ml.line.cts) ml.aux =
      some (found, version)) (henctype : found.enctype = ml.latest.enctype)
        (hkvno : found.kvno = ml.latest.kvno)
    (hkey : found.key = ml.latest.key) :
    ∃ masterKeys, recoverMasterKeys env store supplied key 0 = .ok (masterKeys, ml.aux, version) ∧
      ∀ kvno, masterKeys.lookup kvno = ml.restored kvno := by
  have hopened : (sealedKeys env ml.line.record ml.line.cts).mapM
      (fun key => decryptKeyData env key ml.line.etype found.key) =
      .ok (ml.masterKeys.map (restoredKey ml.line.record.name)) := by
    rw [hkey]
    exact mapM_of_forall₂ ((ml.decrypts laws).imp fun _ _ h => h.2.2)
  have hversion : latestKVNO ml.line.parsed found = .ok found.kvno := by
    unfold latestKVNO
    rw [if_pos (hkvno ▸ ml.kvno)]
  refine ⟨(ml.masterKeys.map (restoredKey ml.line.record.name)).foldl
    (fun m key => m.insert key.kvno key) ((∅ : GoMap UInt32 Key).insert found.kvno found), ?_, ?_⟩
  · unfold recoverMasterKeys
    rw [hin]
    simp only [ml.line.parsed_keyData, if_neg (ml.sealed_ne_nil laws),
      ml.metadata.aux _ ml.line.parsed_tlData, hfound, ok_bind, ofOption, hversion, henctype,
        ml.etype, hopened]
    rfl
  · intro kvno
    have hsorted : NewestFirst ml.masterKeys := ml.sorted
    rw [lookup_foldl_kvno (newestFirst_map hsorted _), find?_restored]
    show or (ml.restored kvno) _ = ml.restored kvno
    by_cases h : kvno = ml.latest.kvno
    · have hsome : ml.restored kvno = some (restoredKey ml.line.record.name ml.latest) := by
        simp [restored, masterKeys, h]
      rw [hsome]
      rfl
    · rw [hkvno, AList.lookup_insert_ne h, AList.lookup_empty, or_none]

/-- A dump is opened with the newest master key. -/
theorem latest_newest (laws : KDB.Laws env) :
    latestMasterKey env ml.line.etype ml.latest.key
      (sealedKeys env ml.line.record ml.line.cts) ml.aux =
      some (restoredKey ml.line.record.name ml.latest, ml.latest.kvno) := by
  have hid := laws.id ml.etype
  have hne : (restoredKey ml.line.record.name ml.latest).key ≠ [] := by
    show ml.latest.key ≠ []
    exact ml.key_ne_nil laws mem_cons_self
  obtain ⟨s, rest, hs, -, hsealed⟩ := forall₂_cons_left_iff.1 (ml.decrypts laws)
  have hfirst : firstOpened env ml.line.etype ml.latest.key
      (((s :: rest).filter fun key => key.enctype == ml.line.etype.id).map fun key =>
        (key, key.kvno)) =
      some (restoredKey ml.line.record.name ml.latest, ml.latest.kvno) := by
    rw [filter_cons_of_pos (by simp [hs.1, hid])]
    simp [firstOpened, hs.2.2, hs.2.1, Except.toOption]
  unfold latestMasterKey
  simp only [hsealed, hfirst]
  rw [filter_some, if_pos (decide_eq_true hne)]

/-- The auxiliary entries have the newest key sealed under each older one. -/
def AuxSound (env : KDB.Env) (latest : Key) (older : List Key) (aux : List MKeyAuxEntry) : Prop :=
  (∀ entry ∈ aux, ∃ old ∈ older, auxEntryFor env latest old = .ok entry) ∧
    ∀ old ∈ older, ∃ entry ∈ aux, auxEntryFor env latest old = .ok entry

/-- The key an auxiliary entry stands for while it is sealed. -/
def auxKey (entry : MKeyAuxEntry) : Key :=
  ⟨entry.latestKeyEnctype, entry.latestKeyKVNO.toUInt32, entry.latestKeyData, []⟩

theorem auxEntryFor_ok {latest old : Key} {entry : MKeyAuxEntry} :
    auxEntryFor env latest old = .ok entry ↔ ∃ etype ct, env.etype old.enctype = some etype ∧
      etype.encrypt old.key 0 latest.key = some ct ∧
      entry = ⟨old.kvno.toUInt16, latest.kvno.toUInt16, latest.enctype,
        sealedContents latest.key ct⟩ := by
  simp only [auxEntryFor, encodeMasterKeyData, bind_ok, ofOption_ok]
  constructor
  · rintro ⟨contents, ⟨etype, hetype, ct, hct, hpure⟩, hpure'⟩
    cases hpure
    cases hpure'
    exact ⟨etype, ct, hetype, hct, rfl⟩
  · rintro ⟨etype, ct, hetype, hct, rfl⟩
    exact ⟨_, ⟨etype, hetype, ct, hct, rfl⟩, rfl⟩

/-- The version of a master key fits the sixteen bits of an auxiliary entry. -/
theorem version_fits {key : Key} (hkey : key ∈ ml.masterKeys) :
    key.kvno.toUInt16.toUInt32 = key.kvno := by
  have := (ml.mem_masterKeys_fits hkey).2.2.1
  simp only [maxUint16] at this
  apply UInt32.toNat_inj.1
  simp only [UInt16.toNat_toUInt32, UInt32.toNat_toUInt16]
  omega

variable {e : Int32}

/-- The K/M keys are sealed under the newest key, so none of them opens under another. -/
theorem own_closed (laws : KDB.Laws env) (integrity : KDB.Integrity env)
    (hsupplied : env.etype e = some supplied)
    (hdiff : ¬ (e = ml.latest.enctype ∧ key = ml.latest.key)) :
    firstOpened env supplied key (((sealedKeys env ml.line.record ml.line.cts).filter
      fun key => key.enctype == supplied.id).map fun key => (key, key.kvno)) = none := by
  unfold firstOpened
  rw [findSome?_eq_none_iff]
  rintro ⟨s, v⟩ hs
  obtain ⟨s', hs', heq⟩ := mem_map.1 hs
  cases heq
  obtain ⟨k, hk, ct, hct, rfl⟩ :=
    (forall₂_sealedKeys ml.line.sealed).exists_right (mem_of_mem_filter hs')
  obtain ⟨t, ht, hts⟩ := usableKey_iff.1 (ml.line.fits.keys k hk).1
  have ht' : env.etype (sealedKey ml.line.record.name k ct).enctype = some t := ht
  have hclosed : supplied.decrypt key 0 ct = none := by
    cases hdec : supplied.decrypt key 0 ct with
    | none => rfl
    | some p =>
      obtain ⟨h1, h2⟩ := integrity.only ml.etype hsupplied hct hdec
      exact absurd ⟨h1, h2.trans ml.key.symm⟩ hdiff
  have hfail := decryptKeyData_sealedContents laws (rfl : _ = sealedContents k.key ct) ht' hts
    (laws.length_encrypt ml.etype hct).1 supplied key
  rw [hclosed] at hfail
  show Option.map _ (Except.toOption _) = none
  rw [hfail]
  rfl

/-- An auxiliary entry opens just under the key it is sealed with. -/
theorem aux_opens (laws : KDB.Laws env) (integrity : KDB.Integrity env) {target old : Key}
    (htarget : usableKey env target = true) {entry : MKeyAuxEntry}
    (hfor : auxEntryFor env target old = .ok entry)
    (hsupplied : env.etype e = some supplied) {out : Key} :
    decryptKeyData env (auxKey entry) supplied key = .ok out ↔
      (old.enctype = e ∧ old.key = key) ∧ out = { auxKey entry with key := target.key } := by
  obtain ⟨etype, ct, hetype, hct, rfl⟩ := auxEntryFor_ok.1 hfor
  obtain ⟨t, ht, hsize⟩ := usableKey_iff.1 htarget
  have ht' : env.etype (auxKey ⟨old.kvno.toUInt16, target.kvno.toUInt16, target.enctype,
      sealedContents target.key ct⟩).enctype = some t := ht
  constructor
  · intro hout
    rw [decryptKeyData_sealedContents laws rfl ht' hsize (laws.length_encrypt hetype hct).1]
      at hout
    simp only [bind_ok, ofOption_ok] at hout
    obtain ⟨p, hp, _, _, hpure⟩ := hout
    obtain ⟨h1, h2⟩ := integrity.only hetype hsupplied hct hp
    rw [h1, hetype] at hsupplied
    cases hsupplied
    rw [h2, laws.decrypt_encrypt hetype hct] at hp
    cases hp
    cases hpure
    exact ⟨⟨h1.symm, h2.symm⟩, by rw [take_length]⟩
  · rintro ⟨⟨rfl, rfl⟩, rfl⟩
    rw [hsupplied] at hetype
    cases hetype
    exact decryptKeyData_opens laws rfl ht' hsize hsupplied hct

/-- The auxiliary entries of a dump: the newest key under each older one; or, with one master
key left, entries that only this key opens. -/
def AuxFor (env : KDB.Env) (latest : Key) (older : List Key) (aux : List MKeyAuxEntry) : Prop :=
  AuxSound env latest older aux ∨
    (older = [] ∧ ∀ entry ∈ aux, ∃ target, usableKey env target = true ∧
      auxEntryFor env target latest = .ok entry)

/-- What the newest key is found as: with the version of a master key that has the bytes
supplied. -/
def Finds (e : Int32) (key : Bytes) (found : Key) (version : UInt32) : Prop :=
  (found.enctype = ml.latest.enctype ∧ found.kvno = ml.latest.kvno ∧ found.key = ml.latest.key) ∧
    ∃ mk ∈ ml.masterKeys, mk.enctype = e ∧ mk.key = key ∧ version = mk.kvno

/-- **What a dump is opened with**: whatever finds a newest key finds the right one. -/
theorem latest_only (laws : KDB.Laws env) (integrity : KDB.Integrity env)
    (haux : AuxFor env ml.latest ml.older ml.aux)
    (hsupplied : env.etype e = some supplied) {found : Key} {version : UInt32}
    (h : latestMasterKey env supplied key (sealedKeys env ml.line.record ml.line.cts) ml.aux =
      some (found, version)) : ml.Finds e key found version := by
  by_cases hsame : e = ml.latest.enctype ∧ key = ml.latest.key
  · obtain ⟨rfl, rfl⟩ := hsame
    have hetype := ml.etype
    rw [hsupplied] at hetype
    cases hetype
    rw [ml.latest_newest laws] at h
    cases h
    exact ⟨⟨rfl, rfl, rfl⟩, ml.latest, mem_cons_self, rfl, rfl, rfl⟩
  · unfold latestMasterKey at h
    simp only [ml.own_closed laws integrity hsupplied hsame] at h
    obtain ⟨hfirst, _⟩ := filter_eq_some_iff.1 h
    obtain ⟨⟨candidate, v⟩, hcandidate, hopened⟩ := exists_of_findSome?_eq_some hfirst
    obtain ⟨entry, hentry, heq⟩ := mem_map.1 hcandidate
    cases heq
    obtain ⟨out, hout, hpair⟩ := map_eq_some_iff.1 hopened
    cases hpair
    have hout := toOption_some.1 hout
    have hlatest := (ml.mem_masterKeys_fits mem_cons_self).1
    rcases haux with hsound | ⟨_, hstale⟩
    · obtain ⟨old, hold, hfor⟩ := hsound.1 entry hentry
      obtain ⟨⟨h1, h2⟩, rfl⟩ := (aux_opens laws integrity hlatest hfor hsupplied).1 hout
      obtain ⟨_, _, _, _, rfl⟩ := auxEntryFor_ok.1 hfor
      have hmem : old ∈ ml.masterKeys := mem_cons_of_mem _ hold
      exact ⟨⟨rfl, ml.version_fits mem_cons_self, rfl⟩, old, hmem, h1, h2, ml.version_fits hmem⟩
    · -- such an entry opens under the newest key only
      obtain ⟨target, htarget, hfor⟩ := hstale entry hentry
      obtain ⟨⟨h1, h2⟩, _⟩ := (aux_opens laws integrity htarget hfor hsupplied).1 hout
      exact absurd ⟨h1.symm, h2.symm⟩ hsame

/-- **A dump is opened with every master key**: the newest by the K/M keys, an older one by
its auxiliary entry. -/
theorem latest_any (laws : KDB.Laws env) (integrity : KDB.Integrity env)
    (haux : AuxFor env ml.latest ml.older ml.aux) {mk : Key} (hmk : mk ∈ ml.masterKeys)
    (hsupplied : env.etype mk.enctype = some supplied) :
    ∃ found version, latestMasterKey env supplied mk.key
      (sealedKeys env ml.line.record ml.line.cts) ml.aux = some (found, version) := by
  by_cases hsame : mk.enctype = ml.latest.enctype ∧ mk.key = ml.latest.key
  · obtain ⟨henctype, hkey⟩ := hsame
    have hetype := ml.etype
    rw [← henctype, hsupplied] at hetype
    cases hetype
    rw [hkey]
    exact ⟨_, _, ml.latest_newest laws⟩
  · have hold : mk ∈ ml.older := by
      rcases mem_cons.1 hmk with rfl | h
      · exact absurd ⟨rfl, rfl⟩ hsame
      · exact h
    have hsound : AuxSound env ml.latest ml.older ml.aux := by
      rcases haux with h | ⟨hnil, _⟩
      · exact h
      · rw [hnil] at hold
        cases hold
    have hlatest := (ml.mem_masterKeys_fits mem_cons_self).1
    cases hfirst : firstOpened env supplied mk.key
      (ml.aux.map fun item => (auxKey item, item.mKeyKVNO.toUInt32)) with
    | none =>
      obtain ⟨entry, hentry, hfor⟩ := hsound.2 mk hold
      have hnone := findSome?_eq_none_iff.1 hfirst _ (mem_map_of_mem hentry)
      simp only at hnone
      rw [(aux_opens laws integrity hlatest hfor hsupplied).2 ⟨⟨rfl, rfl⟩, rfl⟩] at hnone
      cases hnone
    | some found =>
      obtain ⟨⟨candidate, v⟩, hcandidate, hopened⟩ := exists_of_findSome?_eq_some hfirst
      obtain ⟨entry, hentry, heq⟩ := mem_map.1 hcandidate
      cases heq
      obtain ⟨out, hout, rfl⟩ := map_eq_some_iff.1 hopened
      obtain ⟨old, hold', hfor⟩ := hsound.1 entry hentry
      have hkey : out.key ≠ [] := by
        rw [((aux_opens laws integrity hlatest hfor hsupplied).1 (toOption_some.1 hout)).2]
        show ml.latest.key ≠ []
        exact ml.key_ne_nil laws mem_cons_self
      refine ⟨out, entry.mKeyKVNO.toUInt32, ?_⟩
      have hother : firstOpened env supplied mk.key (ml.aux.map fun item =>
          ((⟨item.latestKeyEnctype, item.latestKeyKVNO.toUInt32, item.latestKeyData, []⟩ : Key),
            item.mKeyKVNO.toUInt32)) = some (out, entry.mKeyKVNO.toUInt32) := hfirst
      unfold latestMasterKey
      simp only [ml.own_closed laws integrity hsupplied hsame, filter_none, hother]
      rw [filter_some, if_pos (decide_eq_true hkey)]

end MasterLine

end MITDump

end Kerberos
