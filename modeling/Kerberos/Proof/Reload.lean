import Kerberos.Proof.Dumped

/-!
# A dump is loaded again

`load_dump`: a dump of a `Dumpable` database is loaded with any key that its newest master
key is recovered from, and has then all the lines that were written, opened. The writer's
choice of a master key (`selectMasterKey`) and the reader's (`wrappingKeyFor`) agree:
`wrapping_agrees`.
-/

namespace Kerberos.MITDump

open List Except AList

/-! ## Master keys by version -/

variable {keys : List Key}

theorem nodup_kvno (h : NewestFirst keys) : (keys.map Key.kvno).Nodup :=
  pairwise_map.2 (List.Pairwise.imp ne_of_newer h)

theorem find?_kvno {kvno : UInt32} {key : Key}
    (h : keys.find? (fun k => k.kvno == kvno) = some key) : key ∈ keys ∧ key.kvno = kvno :=
  ⟨mem_of_find?_eq_some h, by simpa using find?_some h⟩

theorem find?_kvno_of_mem (hsorted : NewestFirst keys) {key : Key} (h : key ∈ keys) :
    keys.find? (fun k => k.kvno == key.kvno) = some key := by
  refine find?_eq_some_of_unique h (by simp) fun other hother heq => ?_
  exact inj_on_of_nodup_map (nodup_kvno hsorted) hother h (by simpa using heq)

/-- Master keys filed by version and listed newest first are the master keys again. -/
theorem sorted_values (hsorted : NewestFirst keys) {m : GoMap UInt32 Key}
    (hm : ∀ kvno, m.lookup kvno = keys.find? fun k => k.kvno == kvno) :
    (m.entries.map Sigma.snd).insertionSort (fun a b => b.kvno ≤ a.kvno) = keys := by
  have hvalues : ((m.entries.map Sigma.snd).map Key.kvno).Nodup := by
    refine nodup_values fun kvno key hkey => ?_
    rw [hm] at hkey
    exact (find?_kvno hkey).2
  have hmem : ∀ key, key ∈ m.entries.map Sigma.snd ↔ key ∈ keys := by
    intro key
    rw [mem_values]
    constructor
    · rintro ⟨k, hk⟩
      rw [hm] at hk
      exact (find?_kvno hk).1
    · intro h
      exact ⟨key.kvno, by rw [hm, find?_kvno_of_mem hsorted h]⟩
  have hperm : (m.entries.map Sigma.snd).Perm keys :=
    (perm_ext_iff_of_nodup hvalues.of_map (nodup_kvno hsorted).of_map).2 hmem
  refine Perm.eq_of_pairwise ?_ (pairwise_insertionSort _ _)
    (hsorted.imp fun h => UInt32.le_of_lt h) ((perm_insertionSort _ _).trans hperm)
  intro a b ha hb hab hba
  have ha' : a ∈ keys := hperm.mem_iff.1 ((perm_insertionSort _ _).mem_iff.1 ha)
  exact inj_on_of_nodup_map (nodup_kvno hsorted) ha' hb (UInt32.le_antisymm hba hab)

/-! ## Which master key seals a record -/

variable {record : PrincipalRecord}

/-- The version a record names is written as it is. -/
theorem mkvno_written {env : KDB.Env} {historyKey : Option Key}
    {tl : List TLData} (h : writtenTLData env record historyKey = .ok tl) :
    mkvno tl = mkvno record.tlData := by
  rcases writtenTLData_eq h with rfl | ⟨p, data, hp, rfl⟩
  · rfl
  · have hkept : (fun item : TLData => decide (p item = true ∧ (item.type == MKVNOType) = true)) =
        fun item => item.type == MKVNOType := by
      funext item
      cases htype : item.type == MKVNOType with
      | false => simp
      | true => simp [hp item (by rw [beq_iff_eq.1 htype]; decide)]
    have hlast : ((⟨KADMDataType, data⟩ : TLData).type == MKVNOType) = false := rfl
    unfold mkvno
    rw [find?_append, find?_filter, hkept, find?_singleton, hlast]
    simp

theorem selectMasterKey_eq (record : PrincipalRecord) (keys : List Key) (etype : EType)
    (key : Bytes) :
    selectMasterKey record keys etype key =
      (keys.find? fun k => k.kvno == wrapVersion record).getD ⟨etype.id, 1, key, []⟩ := rfl

variable {masterKeys : GoMap UInt32 Key}

namespace MasterLine

variable {env : KDB.Env} (ml : MasterLine env)

theorem restored_of_mem {key : Key} (h : key ∈ ml.masterKeys) :
    ml.restored key.kvno = some (restoredKey ml.line.record.name key) := by
  have hsorted : NewestFirst ml.masterKeys := ml.sorted
  unfold restored
  rw [find?_kvno_of_mem hsorted h]
  rfl

theorem restored_zero : ml.restored 0 = none := by
  unfold restored
  rw [Option.map_eq_none_iff, find?_eq_none]
  intro key hkey h
  exact (ml.mem_masterKeys_fits hkey).2.1 (by simpa using h)

/-- The reader opens a record with the version it names, if there is one. -/
theorem wrappingKeyFor_version (hm : ∀ kvno, masterKeys.lookup kvno = ml.restored kvno) {mk : Key}
    (hmk : mk ∈ ml.masterKeys) (hversion : mk.kvno = wrapVersion record) :
    wrappingKeyFor env masterKeys record = some (restoredKey ml.line.record.name mk) := by
  have hrestored := ml.restored_of_mem hmk
  rw [hversion] at hrestored
  have hnone : masterKeys.lookup 0 = none := by rw [hm, ml.restored_zero]
  unfold wrappingKeyFor
  cases hkvno : mkvno record.tlData with
  | error e =>
    have hwrap : wrapVersion record = 1 := by rw [wrapVersion, hkvno]
    rw [hwrap, ← hm] at hrestored
    simp only [hnone, hrestored]
  | ok value =>
    by_cases hvalue : value = 0
    · have hwrap : wrapVersion record = 1 := by rw [wrapVersion, hkvno]; simp [hvalue]
      rw [hwrap, ← hm] at hrestored
      rw [← hvalue] at hnone
      simp only [hnone, hrestored]
    · have hwrap : wrapVersion record = value := by rw [wrapVersion, hkvno]; simp [hvalue]
      rw [hwrap, ← hm] at hrestored
      simp only [hrestored]

/-- With one master key the reader opens every record with it. -/
theorem wrappingKeyFor_single (hm : ∀ kvno, masterKeys.lookup kvno = ml.restored kvno)
    (hsingle : ml.older = [])
    (record : PrincipalRecord) :
    wrappingKeyFor env masterKeys record = some (restoredKey ml.line.record.name ml.latest) := by
  have honly : ∀ kvno key, masterKeys.lookup kvno = some key →
      key = restoredKey ml.line.record.name ml.latest := by
    intro kvno key h
    rw [hm] at h
    obtain ⟨mk, hfind, rfl⟩ := Option.map_eq_some_iff.1 h
    have hmk := (find?_kvno hfind).1
    rw [MasterLine.masterKeys, hsingle, mem_singleton] at hmk
    rw [hmk]
  unfold wrappingKeyFor
  simp only
  split
  · next key hkey => rw [honly _ key hkey]
  · split
    · next key hkey => rw [honly _ key hkey]
    · have hall : ∀ key ∈ env.keyOrder (masterKeys.entries.map Sigma.snd),
          key = restoredKey ml.line.record.name ml.latest := by
        intro key hkey
        obtain ⟨kvno, h⟩ := mem_values.1 ((env.keyOrder_perm _).mem_iff.1 hkey)
        exact honly kvno key h
      have hmem : restoredKey ml.line.record.name ml.latest ∈
          env.keyOrder (masterKeys.entries.map Sigma.snd) := by
        refine (env.keyOrder_perm _).mem_iff.2 (mem_values.2 ⟨ml.latest.kvno, ?_⟩)
        rw [hm, ml.restored_of_mem mem_cons_self]
      obtain ⟨first, rest, hfirst⟩ := exists_cons_of_ne_nil (ne_nil_of_mem hmem)
      rw [hfirst] at hall ⊢
      rw [head?_cons, hall first mem_cons_self]

end MasterLine

/-! ## Loading -/

variable {env : KDB.Env} {db : Database} {enctype : Int32} {key : Bytes} {ml : MasterLine env}
  {ws : List (Written env)} {policies : List PolicyRecord}

section Dumped

variable (lines : DumpedLines env db enctype key ml ws policies)

include lines

theorem DumpedLines.latest_mem : ml.latest ∈ (dumpMasterKeys db enctype key).head? := by
  rw [← lines.masterKeys]
  rfl

theorem DumpedLines.name : ml.line.record.name = kmName db.realm := by
  rw [lines.masterRecord]
  rfl

/-- **Writer and reader choose the same master key.** -/
theorem wrapping_agrees (laws : KDB.Laws env) (hfit : Dumpable env db enctype key)
    (hm : ∀ kvno, masterKeys.lookup kvno = ml.restored kvno) {w : Written env}
    (hw : w ∈ ml.line :: ws) :
    ∃ wrapping, wrappingKeyFor env masterKeys w.parsed = some wrapping ∧
      env.etype wrapping.enctype = some w.etype ∧ wrapping.key = w.key := by
  rcases mem_cons.1 hw with rfl | hw
  · have hversion : ml.latest.kvno = wrapVersion ml.line.parsed := by
      unfold wrapVersion
      rw [ml.line.parsed_tlData, ml.metadata.version]
      exact (if_neg ml.kvno).symm
    exact ⟨_, ml.wrappingKeyFor_version hm mem_cons_self hversion, ml.etype, ml.key⟩
  · obtain ⟨hdumped, etype, hetype, hfor⟩ := lines.written w hw
    obtain ⟨⟨k, hk⟩, _, _⟩ := mem_dumpedRecords.1 hdumped
    have hwrap : wrapVersion w.parsed = wrapVersion w.record := by
      unfold wrapVersion
      rw [w.parsed_tlData, mkvno_written hfor.tl]
    have hselected := hfor.etype
    have hkey := hfor.key
    rw [selectMasterKey_eq] at hselected hkey
    by_cases hversion : ∃ mk ∈ ml.masterKeys, mk.kvno = wrapVersion w.record
    · obtain ⟨mk, hmk, heq⟩ := hversion
      have hsorted : NewestFirst ml.masterKeys := ml.sorted
      rw [← heq, find?_kvno_of_mem hsorted hmk] at hselected hkey
      exact ⟨_, ml.wrappingKeyFor_version hm hmk (heq.trans hwrap.symm), hselected, hkey.symm⟩
    · -- the version is not there, so there is one master key and it was supplied
      have hnone : ml.masterKeys.find? (fun mk => mk.kvno == wrapVersion w.record) = none := by
        rw [find?_eq_none]
        intro mk hmk h
        exact hversion ⟨mk, hmk, by simpa using h⟩
      rw [hnone] at hselected hkey
      have hsingle : ml.older = [] := by
        rcases hfit.versions with hone | hall
        · rw [← lines.masterKeys] at hone
          simpa [MasterLine.masterKeys] using hone
        · rw [← lines.masterKeys] at hall
          exact absurd (hall k w.record hk) hversion
      obtain ⟨h1, h2⟩ := hfit.supplied ml.latest lines.latest_mem
      have hid : etype.id = enctype := laws.id hetype
      refine ⟨_, ml.wrappingKeyFor_single hm hsingle w.parsed, ?_, ?_⟩
      · show env.etype ml.latest.enctype = _
        rw [h1, ← hid]
        exact hselected
      · show ml.latest.key = _
        rw [h2]
        exact hkey.symm

theorem DumpedLines.realm : ml.line.record.name.realm = db.realm := by
  rw [lines.name]
  rfl

/-- What is read of a dump: it is refused for a failure limit of 32 bits, and for a principal
without keys. -/
theorem parse_dump (hfit : Dumpable env db enctype key) (hrealm : db.realm ≠ []) {out : FileStore} :
    parse (dumpText policies (ml.line :: ws)) = .ok out ↔
      ((∀ k p, db.policies.lookup k = some p → p.maxFailure.toNat < 2 ^ 31) ∧
        ∀ record ∈ dumpedRecords db, dumpedKeys env record ≠ []) ∧
          out = parsedStore policies (ml.line :: ws) := by
  have hforeign : isForeignTGT ml.line.record.name = false := by rw [lines.name]; rfl
  have hplain : ∀ p ∈ policies, PolicyPlain p := by
    intro p hp
    obtain ⟨k, hk⟩ := (lines.policies p).1 hp
    exact (hfit.policies k p hk).1
  have hshort : ∀ p ∈ policies, (policyText p).length < maxLineSize := by
    intro p hp
    obtain ⟨k, hk⟩ := (lines.policies p).1 hp
    exact lt_of_le_of_lt (length_policyText p) (hfit.policies k p hk).2
  rw [parse_written hplain hshort lines.nodup hforeign (by rwa [lines.realm])]
  refine and_congr_left' (and_congr ?_ ?_)
  · constructor
    · intro h k p hp
      exact h p ((lines.policies p).2 ⟨k, hp⟩)
    · intro h p hp
      obtain ⟨k, hk⟩ := (lines.policies p).1 hp
      exact h k p hk
  · rw [forall_mem_cons]
    constructor
    · rintro ⟨_, h⟩ record hrecord
      obtain ⟨w, hw, rfl⟩ := lines.complete record hrecord
      exact h w hw
    · intro h
      refine ⟨?_, fun w hw => h w.record (lines.written w hw).1⟩
      rw [ml.keys]
      exact cons_ne_nil _ _

/-- The K/M record of what is read of a dump is that of its K/M line. -/
theorem DumpedLines.in_store (hrealm : db.realm ≠ []) :
    ml.In (parsedStore policies (ml.line :: ws)) := by
  have hforeign : isForeignTGT ml.line.record.name = false := by rw [lines.name]; rfl
  have hne : ml.line.record.name.realm ≠ [] := by rwa [lines.realm]
  refine masterOf_eq ?_ ml.line.record.name ⟨?_, ml.km⟩ ?_ ?_
  · intro k r hr
    obtain ⟨w, _, rfl, rfl⟩ := lookup_parsedStore_some policies lines.nodup hr
    rw [w.parsed_name]
    rfl
  · exact (realm_parsedStore policies ws hforeign hne).symm
  · exact lookup_parsedStore policies lines.nodup mem_cons_self
  · rw [ml.line.parsed_name]
    exact ⟨rfl, rfl⟩

/-- **A dump is loaded again** with any key the newest master key is recovered from. -/
theorem load_dump (laws : KDB.Laws env) (hfit : Dumpable env db enctype key)
    (hrealm : db.realm ≠ [])
    (hlimits : ∀ k p, db.policies.lookup k = some p → p.maxFailure.toNat < 2 ^ 31)
    (hkeyed : ∀ record ∈ dumpedRecords db, dumpedKeys env record ≠ []) {enctype' : Int32}
    {supplied : EType} (hsupplied : env.etype enctype' = some supplied) {key' : Bytes}
    (hsize : key'.length = supplied.keySize) {found : Key} {version : UInt32}
    (hfound : latestMasterKey env supplied key' (sealedKeys env ml.line.record ml.line.cts) ml.aux =
      some (found, version)) (henctype : found.enctype = ml.latest.enctype)
        (hkvno : found.kvno = ml.latest.kvno)
    (hkey : found.key = ml.latest.key) :
    ∃ store, parseWithMasterKey env (dumpText policies (ml.line :: ws)) enctype' key' = .ok store ∧
      OpenedStore env policies (ml.line :: ws) ml.active store ∧ store.realm = db.realm ∧
      store.mKeyAux = ml.aux ∧ store.suppliedMKVNO = version ∧
      store.masterKeys = ml.masterKeys.map (restoredKey (kmName db.realm)) := by
  have hname := lines.name
  have hmasterRealm := lines.realm
  have hne : ml.line.record.name.realm ≠ [] := by rwa [hmasterRealm]
  have hparse := (parse_dump lines hfit hrealm).2 ⟨⟨hlimits, hkeyed⟩, rfl⟩
  have hin := lines.in_store hrealm
  obtain ⟨masterKeys, hrecover, hm⟩ := ml.recover laws hin hfound henctype hkvno hkey
  obtain ⟨store, hopen, hstore, hstoreRealm, haux, hversion, hkeys⟩ :=
    openStore_parsed laws lines.nodup ml.km hne hsupplied hsize ml.metadata hrecover
      fun w hw => wrapping_agrees lines laws hfit hm hw
  have hsorted : NewestFirst ml.masterKeys := ml.sorted
  refine ⟨store, ?_, hstore, hstoreRealm.trans hmasterRealm, haux, hversion, ?_⟩
  · unfold parseWithMasterKey
    rw [hparse, ok_bind, hopen]
  · rw [hkeys, ← hname]
    refine sorted_values (MasterLine.newestFirst_map hsorted _) fun kvno => ?_
    rw [hm, MasterLine.find?_restored]
    rfl

/-- A record with a line of its own is found again, opened. -/
theorem OpenedStore.lookup {active : List ActKVNO} {store : FileStore}
    (hopened : OpenedStore env policies (ml.line :: ws) active store)
    (hrecord : record ∈ dumpedRecords db) :
    ∃ w ∈ ws, w.record = record ∧ ∃ opened historyKeys, Opened env w opened ∧
      store.lookup record.name = some (decodeKADMRecord env historyKeys opened) := by
  obtain ⟨w, hw, rfl⟩ := lines.complete record hrecord
  obtain ⟨all, hall, hlookup⟩ := hopened.records
  obtain ⟨opened, hfound, hopen⟩ := hall.found w (mem_cons_of_mem _ hw)
  refine ⟨w, hw, rfl, opened, historyKeysOf env all store.realm, hopen, ?_⟩
  show store.records.lookup w.filed = _
  rw [hlookup, hfound]
  rfl

end Dumped

/-- **A dump is loaded again** with the key it was written with. -/
theorem reload (laws : KDB.Laws env) (hfit : Dumpable env db enctype key)
    (hlimits : ∀ k p, db.policies.lookup k = some p → p.maxFailure.toNat < 2 ^ 31)
    (hkeyed : ∀ record ∈ dumpedRecords db, dumpedKeys env record ≠ []) {text : Bytes}
    (h : dumpWithMasterKey env db enctype key = .ok text) :
    ∃ store, parseWithMasterKey env text enctype key = .ok store ∧ store.realm = db.realm ∧
      ∃ ml ws policies, DumpedLines env db enctype key ml ws policies ∧
        OpenedStore env policies (ml.line :: ws) ml.active store := by
  obtain ⟨ml, ws, policies, rfl, lines⟩ := dump_ok laws hfit h
  simp only [dumpWithMasterKey, bind_ok, ensure_ok, ofOption_ok] at h
  obtain ⟨_, hrealm, etype, hetype, _, hsize, _⟩ := h
  obtain ⟨henctype, hkey⟩ := hfit.supplied ml.latest lines.latest_mem
  have hsame := ml.etype
  rw [henctype, hetype] at hsame
  obtain rfl := Option.some.inj hsame
  have hnewest := ml.latest_newest laws
  rw [hkey] at hnewest
  obtain ⟨store, hparse, hopened, hstoreRealm, _⟩ :=
    load_dump lines laws hfit hrealm hlimits hkeyed hetype
    hsize hnewest rfl rfl rfl
  exact ⟨store, hparse, hstoreRealm, ml, ws, policies, lines, hopened⟩

end Kerberos.MITDump
