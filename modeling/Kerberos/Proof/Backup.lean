import Kerberos.Proof.History
import Kerberos.Spec.SmallKDB
import Kerberos.Proof.PersistedKeys

/-!
# What a dump brings back

`Restores` is what a backup is for: every principal and policy of the database is in the
store, with its fields. A dump has no place for the time of the last password change nor for
string attributes, keeps times to the second, and cannot hold a principal without keys or
without a display name. Policies and histories are written from the record only if there is a
history key; otherwise the dump has the tagged data as it was, and a policy that was changed
since is lost (`changes_lost_on_dump`). `Plain` are the databases that lose nothing by all
that, and `restores_iff` says that these are the ones that come back.
-/

namespace Kerberos

open List Except AList

variable {k : Bytes}

namespace MITDump

/-- The principal whose keys seal the password histories. -/
def historyName (realm : Bytes) : Principal := ⟨realm, NTPrincipal, [str "kadmin", str "history"]⟩

/-- `kadmin/history` exists. -/
def HasHistory (db : Database) : Prop := (db.lookup (historyName db.realm)).isSome = true

/-! ## The property -/

/-- The fields of a principal that a backup should keep. -/
def SameFields (a b : PrincipalRecord) : Prop :=
  (b.flags = a.flags ∧ b.policy = a.policy ∧ b.maxLife = a.maxLife ∧ b.maxRenew = a.maxRenew ∧
    b.failAuthCount = a.failAuthCount) ∧
    (b.expiration = a.expiration ∧ b.passwordExpiration = a.passwordExpiration ∧
      b.lastSuccess = a.lastSuccess ∧ b.lastFailed = a.lastFailed) ∧
    b.lastPasswordChange = a.lastPasswordChange ∧ ∀ k, b.strings.lookup k = a.strings.lookup k

/-- The store has all principals and policies of the database as they are. -/
structure Restores (db : Database) (store : FileStore) : Prop where
  principals : ∀ name record, db.lookup name = some record → ∃ restored,
    store.lookup name = some restored ∧ SameFields record restored ∧
      (HasHistory db → SameHistory record.passwordHistory restored.passwordHistory)
  policies : ∀ name policy, db.policies.lookup name = some policy →
    store.policies.lookup name = some policy

/-! ## The condition -/

/-- The times of a record are whole seconds, and none of them is in the first second of 1970. -/
def TimesPlain (record : PrincipalRecord) : Prop :=
  restoredTime record.expiration = record.expiration ∧
    restoredTime record.passwordExpiration = record.passwordExpiration ∧
    restoredTime record.lastSuccess = record.lastSuccess ∧
    restoredTime record.lastFailed = record.lastFailed

/-- The record has nothing that a dump has no place for. -/
def RecordPlain (env : KDB.Env) (record : PrincipalRecord) : Prop :=
  Displayable record.name ∧ dumpedKeys env record ≠ [] ∧ TimesPlain record ∧
    record.lastPasswordChange = zeroTime ∧ ∀ k, record.strings.lookup k = none

/-- The K/M record has nothing but keys: a dump writes it anew. -/
def MasterPlain (record : PrincipalRecord) : Prop :=
  (record.flags = 0 ∧ record.policy = [] ∧ record.maxLife = 0 ∧ record.maxRenew = 0 ∧
    record.failAuthCount = 0) ∧
    (record.expiration = zeroTime ∧ record.passwordExpiration = zeroTime ∧
      record.lastSuccess = zeroTime ∧ record.lastFailed = zeroTime) ∧
    record.lastPasswordChange = zeroTime ∧ ∀ k, record.strings.lookup k = none

/-- The policy has a failure limit of 31 bits, and no single dash for its key salts. -/
def PolicyKept (policy : PolicyRecord) : Prop :=
  policy.maxFailure.toNat < 2 ^ 31 ∧ policy.allowedKeySalts ≠ str "-"

/-- The keys of `kadmin/history` that a dump has. -/
def writtenHistoryKeys (env : KDB.Env) (db : Database) : List Key :=
  match db.lookup (historyName db.realm) with
  | some record =>
    ((firstKeys (dumpedKeys env record)).entries.map Sigma.snd).map (restoredKey record.name)
  | none => []

/-- They open what the key has sealed, in whichever order they are tried. -/
def Unseals (env : KDB.Env) (db : Database) (historyKey : Key) : Prop :=
  ∀ historyKeys : List Key, historyKeys.Perm (writtenHistoryKeys env db) →
    Opens env historyKey historyKeys

/-- The KADM data of the record is encoded anew for a dump: there is a history key, and
something to write. -/
def Rewritten (env : KDB.Env) (db : Database) (record : PrincipalRecord) : Prop :=
  (dumpHistoryKey env db).isSome = true ∧
    (record.passwordHistory ≠ [] ∨ record.policy ≠ [] ∨ record.kadmAuxAttributes ≠ 0)

instance (env : KDB.Env) (db : Database) (record : PrincipalRecord) :
    Decidable (Rewritten env db record) :=
  inferInstanceAs (Decidable (_ ∧ _))

/-- The KADM data in the tagged data of the record: none, or one entry, in which the history was
sealed under a key that the dump opens. -/
def Stored (env : KDB.Env) (db : Database) (record : PrincipalRecord) : Option KADMData → Prop
  | none => kadmEntries record.tlData = []
  | some data => ∃ historyKey enc, encodeKADMData env data historyKey = .ok enc ∧
      kadmEntries record.tlData = [⟨KADMDataType, enc⟩] ∧ HistoryFiled data.oldKeys ∧
      (data.oldKeys ≠ [] → data.normalSalt = normalSalt record.name) ∧
      (HasHistory db → data.oldKeys ≠ [] → Unseals env db (historyKey.getD default))

/-- The policy and the history of the record are in what it is written from. If its KADM data is
encoded anew, every key of the history needs its own enctype and salt. **If not, the dump has the
entry there was**, whatever policy and history the record has got since. -/
def KADMPlain (env : KDB.Env) (db : Database) (record : PrincipalRecord)
    (stored : Option KADMData) : Prop :=
  if Rewritten env db record then
    HasHistory db → ∀ m ∈ record.passwordHistory, ∀ e k, m.lookup e = some k →
      k.enctype = e ∧ effectiveSalt (normalSalt record.name) k.salt = k.salt
  else match stored with
    | none => HasHistory db → record.passwordHistory = []
    | some data => data.policy = record.policy ∧ (HasHistory db →
        List.Forall₂ (Reopened (normalSalt record.name)) data.oldKeys record.passwordHistory)

/-- Nothing in the database is lost in a dump; `kadm` is the KADM data in the tagged data of
its records. -/
structure Plain (env : KDB.Env) (db : Database) (kadm : PrincipalRecord → Option KADMData) :
    Prop where
  record : ∀ k r, db.principals.lookup k = some r → ¬ IsKM db r.name →
    RecordPlain env r ∧ KADMPlain env db r (kadm r)
  master : ∀ k r, db.principals.lookup k = some r → IsKM db r.name →
    MasterPlain r ∧ (HasHistory db → r.passwordHistory = [])
  policy : ∀ k p, db.policies.lookup k = some p → PolicyKept p

/-! ## Policies and histories -/

theorem kadmEntries_append (tl : List TLData) (enc : Bytes) :
    kadmEntries (tl ++ [⟨KADMDataType, enc⟩]) = kadmEntries tl ++ [⟨KADMDataType, enc⟩] := by
  rw [kadmEntries, filter_append]
  rfl

theorem kadmEntries_replace (tl : List TLData) (enc : Bytes) :
    kadmEntries (replaceKADMData tl enc) = [⟨KADMDataType, enc⟩] := by
  rw [replaceKADMData, kadmEntries_append, kadmEntries, filter_filter, filter_eq_nil_iff.2]
  · rfl
  · simp

theorem hasTLData_iff (tl : List TLData) :
    hasTLData tl KADMDataType = true ↔ kadmEntries tl ≠ [] := by
  simp [hasTLData, kadmEntries, filter_eq_nil_iff]

section Written

variable {env : KDB.Env} {db : Database} {record : PrincipalRecord} {tl : List TLData} {enc : Bytes}
  {historyKeys : List Key}

theorem length_entry_le (hfits : ∀ data ∈ tl, TLFits data)
    (htl : kadmEntries tl = [⟨KADMDataType, enc⟩]) : enc.length ≤ maxUint16 := by
  have hmem : (⟨KADMDataType, enc⟩ : TLData) ∈ kadmEntries tl := by
    rw [htl]
    exact mem_cons_self
  exact (hfits _ (mem_of_mem_filter hmem)).2

/-- KADM data encoded anew has the policy and the history of the record. -/
theorem readKADM_rewritten_iff (laws : KDB.Laws env) (hre : Rewritten env db record)
    (hseal : ∀ hk ∈ dumpHistoryKey env db, Unseals env db hk)
    (h : writtenTLData env record (dumpHistoryKey env db) = .ok tl)
    (hfits : ∀ data ∈ tl, TLFits data)
    (hkeys : historyKeys.Perm (writtenHistoryKeys env db)) :
    (readKADM env historyKeys record.name tl).1 = record.policy ∧
      (SameHistory record.passwordHistory (readKADM env historyKeys record.name tl).2 ↔
        ∀ m ∈ record.passwordHistory, ∀ e k, m.lookup e = some k →
          k.enctype = e ∧ effectiveSalt (normalSalt record.name) k.salt = k.salt) := by
  unfold writtenTLData at h
  rw [if_pos (show _ ∧ _ from hre)] at h
  simp only [bind_ok, within_ok] at h
  obtain ⟨enc, henc, hpure⟩ := h
  cases hpure
  have htl := kadmEntries_replace record.tlData enc
  obtain ⟨hk, hhk⟩ := Option.isSome_iff_exists.1 hre.1
  obtain ⟨hpolicy, hhistory⟩ :=
    readKADM_encoded laws henc (length_entry_le hfits htl) htl historyKeys record.name fun _ => rfl
  refine ⟨hpolicy, sameHistory_iff (hhistory fun _ => ?_)⟩
  rw [hhk]
  exact hseal hk hhk historyKeys hkeys

/-- Where there is no entry and nothing is encoded anew, the policy is written alone and no history
comes back. -/
theorem readKADM_unfiled (laws : KDB.Laws env) (hre : ¬ Rewritten env db record)
    (hnone : kadmEntries record.tlData = [])
    (h : writtenTLData env record (dumpHistoryKey env db) = .ok tl)
    (hfits : ∀ data ∈ tl, TLFits data) (historyKeys : List Key) :
    readKADM env historyKeys record.name tl = (record.policy, []) := by
  unfold writtenTLData at h
  rw [if_neg (show ¬ (_ ∧ _) from hre)] at h
  split_ifs at h with hpolicy
  · simp only [bind_ok, within_ok] at h
    obtain ⟨enc, henc, hpure⟩ := h
    cases hpure
    have htl : kadmEntries (record.tlData ++ [⟨KADMDataType, enc⟩]) = [⟨KADMDataType, enc⟩] := by
      rw [kadmEntries_append, hnone, nil_append]
    obtain ⟨hread, hhistory⟩ := readKADM_encoded laws henc (length_entry_le hfits htl) htl
      historyKeys record.name fun hne => absurd rfl hne
    exact Prod.ext hread (forall₂_nil_left_iff.1 (hhistory fun hne => absurd rfl hne))
  · cases h
    rw [hasTLData_iff, hnone] at hpolicy
    rw [readKADM_of_none hnone, not_not.1 fun hne => hpolicy ⟨hne, not_not_intro rfl⟩]

/-- An entry that is not encoded anew is written as it was. -/
theorem writtenTLData_filed (hre : ¬ Rewritten env db record)
    (hsome : kadmEntries record.tlData ≠ [])
    (h : writtenTLData env record (dumpHistoryKey env db) = .ok tl) : record.tlData = tl := by
  unfold writtenTLData at h
  rw [if_neg (show ¬ (_ ∧ _) from hre),
    if_neg fun hpolicy => hpolicy.2 ((hasTLData_iff _).2 hsome)] at h
  exact Except.ok.inj h

/-- **A record comes back with its policy and its history exactly if they are in what it is
written from.** -/
theorem readKADM_written_iff (laws : KDB.Laws env) {stored : Option KADMData}
    (hseal : ∀ hk ∈ dumpHistoryKey env db, Unseals env db hk)
    (hstored : ¬ Rewritten env db record → Stored env db record stored)
    (h : writtenTLData env record (dumpHistoryKey env db) = .ok tl)
    (hfits : ∀ data ∈ tl, TLFits data)
    (hkeys : historyKeys.Perm (writtenHistoryKeys env db)) :
    ((readKADM env historyKeys record.name tl).1 = record.policy ∧ (HasHistory db →
        SameHistory record.passwordHistory (readKADM env historyKeys record.name tl).2)) ↔
      KADMPlain env db record stored := by
  unfold KADMPlain
  by_cases hre : Rewritten env db record
  · obtain ⟨hpolicy, hhistory⟩ := readKADM_rewritten_iff laws hre hseal h hfits hkeys
    rw [and_iff_right hpolicy, if_pos hre]
    exact imp_congr_right fun _ => hhistory
  · have hstored := hstored hre
    rw [if_neg hre]
    cases stored with
    | none =>
      rw [readKADM_unfiled laws hre hstored h hfits, and_iff_right rfl]
      exact imp_congr_right fun _ => sameHistory_nil_right
    | some data =>
      obtain ⟨historyKey, enc, henc, htl, hfiled, hnormal, hunseals⟩ := hstored
      obtain rfl := writtenTLData_filed hre (by rw [htl]; exact cons_ne_nil _ _) h
      obtain ⟨hpolicy, hhistory⟩ := readKADM_encoded laws henc (length_entry_le hfits htl) htl
        historyKeys record.name hnormal
      rw [hpolicy]
      refine and_congr_right fun _ => imp_congr_right fun hhas =>
        sameHistory_stored_iff (hhistory ?_) hfiled
      exact fun hne => hunseals hhas hne historyKeys hkeys

end Written

theorem flatMap_eq_of_unique {α β : Type} {f : α → List β} {l : List α} (hl : l.Nodup) {x : α}
    (hx : x ∈ l) (hother : ∀ y ∈ l, y ≠ x → f y = []) : l.flatMap f = f x := by
  induction l with
  | nil => cases hx
  | cons y l ih =>
    obtain ⟨hy, hl⟩ := nodup_cons.1 hl
    obtain ⟨hfirst, hlater⟩ := forall_mem_cons.1 hother
    rw [flatMap_cons]
    rcases mem_cons.1 hx with rfl | hx
    · have hrest : l.flatMap f = [] := by
        rw [flatMap_eq_nil_iff]
        exact fun z hz => hlater z hz fun heq => hy (heq ▸ hz)
      rw [hrest, append_nil]
    · rw [hfirst fun heq => hy (heq ▸ hx), nil_append, ih hl hx hlater]

theorem lookup_firstKeys_own {keys : List Key} {e : Int32} {k : Key}
    (h : (firstKeys keys).lookup e = some k) : k.enctype = e := by
  rw [lookup_firstKeys] at h
  simpa using find?_some h

variable {opened : PrincipalRecord}

/-- The keys of an opened record are those it was written with. -/
theorem values_opened {env : KDB.Env} {w : Written env} (h : Opened env w opened) :
    (opened.keys.entries.map Sigma.snd).Perm
      (((firstKeys (dumpedKeys env w.record)).entries.map Sigma.snd).map
        (restoredKey w.record.name)) := by
  have hlookup : ∀ e, opened.keys.lookup e =
      ((firstKeys (dumpedKeys env w.record)).lookup e).map (restoredKey w.record.name) := by
    intro e
    rw [h.keys, lookup_firstKeys]
    rfl
  have hown : ∀ e k, opened.keys.lookup e = some k → k.enctype = e := by
    intro e k hk
    rw [hlookup, Option.map_eq_some_iff] at hk
    obtain ⟨k', hk', rfl⟩ := hk
    show k'.enctype = e
    exact lookup_firstKeys_own hk'
  refine (perm_ext_iff_of_nodup (nodup_values hown).of_map ?_).2 fun k => ?_
  · have hwritten := nodup_values (m := firstKeys (dumpedKeys env w.record))
      fun e k hk => lookup_firstKeys_own hk
    refine Nodup.of_map Key.enctype ?_
    rw [map_map]
    exact hwritten
  · rw [mem_values, mem_map]
    simp only [hlookup, Option.map_eq_some_iff, mem_values]
    constructor
    · rintro ⟨e, k', hk', rfl⟩
      exact ⟨k', ⟨e, hk'⟩, rfl⟩
    · rintro ⟨k', ⟨e, hk'⟩, rfl⟩
      exact ⟨e, k', hk', rfl⟩

section Loaded

variable {env : KDB.Env} {db : Database} {enctype : Int32} {key : Bytes} {ml : MasterLine env}
  {ws : List (Written env)} {policies : List PolicyRecord}

variable {w : Written env}

/-- A record with the fields that come back from a dump. -/
def restoredFields (record : PrincipalRecord) (policy : Bytes) : PrincipalRecord :=
  { record with
    policy
    expiration := restoredTime record.expiration
    passwordExpiration := restoredTime record.passwordExpiration
    lastSuccess := restoredTime record.lastSuccess
    lastFailed := restoredTime record.lastFailed
    lastPasswordChange := zeroTime
    strings := ∅ }

theorem sameFields_opened (h : Opened env w opened) (historyKeys : List Key)
    (record : PrincipalRecord) :
    SameFields record (decodeKADMRecord env historyKeys opened) ↔
      SameFields record
        (restoredFields w.record (decodeKADMRecord env historyKeys opened).policy) := by
  obtain ⟨fields, history, heq⟩ := decodeKADMRecord_eq env historyKeys opened
  obtain ⟨first, hparsed⟩ := w.parsed_eq
  rw [heq, h.rest, hparsed]
  exact Iff.rfl

/-- A record comes back with its fields just when it has nothing that a dump has no place for. -/
theorem sameFields_iff (h : Opened env w opened) (historyKeys : List Key) :
    SameFields w.record (decodeKADMRecord env historyKeys opened) ↔
      (decodeKADMRecord env historyKeys opened).policy = w.record.policy ∧ TimesPlain w.record ∧
        w.record.lastPasswordChange = zeroTime ∧ ∀ k, w.record.strings.lookup k = none := by
  rw [sameFields_opened h]
  simp only [SameFields, TimesPlain, restoredFields, lookup_empty, true_and, and_true, eq_comm]

theorem restoredPolicy_eq_iff {policy : PolicyRecord} :
    restoredPolicy policy = policy ↔ policy.allowedKeySalts ≠ str "-" := by
  unfold restoredPolicy
  split_ifs with h
  · constructor
    · intro heq
      have := congrArg PolicyRecord.allowedKeySalts heq
      rw [h] at this
      exact absurd (show ([] : Bytes) = str "-" from this) (by decide)
    · exact fun hne => absurd h hne
  · exact ⟨fun _ => h, fun _ => rfl⟩

section Dumped

variable (lines : DumpedLines env db enctype key ml ws policies)

include lines

/-- An opened record with the name of `kadmin/history` is the database's. -/
theorem opened_history {opened : GoMap Bytes PrincipalRecord}
    (hall : OpenedAll (ml.line :: ws) opened) {r : PrincipalRecord} (hr : opened.lookup k = some r)
    (hrealm : r.name.realm = db.realm)
    (hcomponents : r.name.components = [str "kadmin", str "history"]) :
    k = canonical (historyName db.realm) ∧ (db.lookup (historyName db.realm)).isSome := by
  obtain ⟨w, hw, rfl, hopened⟩ := hall.only k r hr
  rw [hopened.name] at hrealm hcomponents
  have hrealm : w.record.name.realm = db.realm := hrealm
  have hcomponents : w.record.name.components = [str "kadmin", str "history"] := hcomponents
  have hcanonical : w.filed = canonical (historyName db.realm) := by
    unfold Written.filed canonical historyName
    rw [hrealm, hcomponents]
  refine ⟨hcanonical, ?_⟩
  rcases mem_cons.1 hw with rfl | hw
  · have hkm : ml.line.record.name.components = [str "K", str "M"] := by rw [lines.name]; rfl
    rw [hkm] at hcomponents
    exact absurd hcomponents (by decide)
  · have hfound : db.principals.lookup w.filed = some w.record :=
      lookup_dumped (lines.written w hw).1
    rw [Database.lookup, ← hcanonical, hfound]
    rfl

/-- The history keys a dump is opened with. -/
theorem historyKeys_perm (hfit : Dumpable env db enctype key)
    (hdisplay : ∀ k r, db.principals.lookup k = some r → ¬ IsKM db r.name → Displayable r.name)
    {opened : GoMap Bytes PrincipalRecord} (hall : OpenedAll (ml.line :: ws) opened) :
    (historyKeysOf env opened db.realm).Perm (writtenHistoryKeys env db) := by
  cases hlookup : db.lookup (historyName db.realm) with
  | none =>
    have hnil : historyKeysOf env opened db.realm = [] := by
      unfold historyKeysOf
      rw [flatMap_eq_nil_iff]
      intro r hr
      obtain ⟨k, hk⟩ := mem_values.1 hr
      split_ifs with hname
      · have hsome := (opened_history lines hall hk hname.1 hname.2).2
        rw [hlookup] at hsome
        cases hsome
      · rfl
    rw [hnil]
    unfold writtenHistoryKeys
    rw [hlookup]
  | some record =>
    have hk : db.principals.lookup (canonical (historyName db.realm)) = some record := hlookup
    have hcanonical := db.principals_canonical _ _ hk
    obtain ⟨h1, h2⟩ :=
      name_of_canonical (hfit.zeroFree.2 _ record hk) hfit.zeroFree.1 (by decide) hcanonical
    have hnotKM : ¬ IsKM db record.name := by
      rintro ⟨-, hcomponents⟩
      rw [isKMPrincipal, h2] at hcomponents
      exact absurd hcomponents (by decide)
    have hdumped : record ∈ dumpedRecords db :=
      mem_dumpedRecords.2 ⟨⟨_, hk⟩, hdisplay _ record hk hnotKM, hnotKM⟩
    obtain ⟨w, hw, rfl⟩ := lines.complete record hdumped
    obtain ⟨o, ho, hopened⟩ := hall.found w (mem_cons_of_mem _ hw)
    have honame : o.name.realm = db.realm ∧ o.name.components = [str "kadmin", str "history"] := by
      rw [hopened.name]
      exact ⟨h1, h2⟩
    have hnodup : ((opened.entries.map Sigma.snd).map fun r => canonical r.name).Nodup := by
      refine nodup_values fun k r hr => ?_
      obtain ⟨v, _, hv, hvo⟩ := hall.only k r hr
      rw [hvo.name, ← hv]
      rfl
    have hunique : historyKeysOf env opened db.realm = rangeKeys env o.keys := by
      unfold historyKeysOf
      rw [flatMap_eq_of_unique hnodup.of_map (mem_values.2 ⟨_, ho⟩), if_pos honame]
      intro r hr hne
      obtain ⟨k, hk⟩ := mem_values.1 hr
      refine if_neg fun hname => hne ?_
      rw [(opened_history lines hall hk hname.1 hname.2).1, ← hcanonical] at hk
      exact Option.some.inj (hk.symm.trans ho)
    rw [hunique]
    unfold writtenHistoryKeys
    rw [hlookup]
    exact (env.keyOrder_perm _).trans (values_opened hopened)

/-- The K/M record of a dump. -/
theorem readKADM_master (historyKeys : List Key) (name : Principal) :
    readKADM env historyKeys name ml.line.tl = ([], []) := by
  refine readKADM_of_none (filter_eq_nil_iff.2 fun item hitem => ?_) env historyKeys name
  simpa using lines.noKADM item hitem

theorem sameFields_master {record : PrincipalRecord} (h : Opened env ml.line opened)
    (historyKeys : List Key) :
    SameFields record (decodeKADMRecord env historyKeys opened) ↔ MasterPlain record := by
  have hpolicy := (decodeKADMRecord_opened h historyKeys).1
  rw [readKADM_master lines] at hpolicy
  have hzero : restoredTime zeroTime = zeroTime := by simp [restoredTime]
  rw [sameFields_opened h, hpolicy, lines.masterRecord]
  simp only [SameFields, MasterPlain, restoredFields, masterRecord, hzero, lookup_empty, eq_comm]

/-- The K/M record comes back as it was just when it has nothing but keys. -/
theorem master_same_iff {record : PrincipalRecord} (h : Opened env ml.line opened)
    (historyKeys : List Key) :
    (SameFields record (decodeKADMRecord env historyKeys opened) ∧ (HasHistory db →
        SameHistory record.passwordHistory
          (decodeKADMRecord env historyKeys opened).passwordHistory)) ↔
      MasterPlain record ∧ (HasHistory db → record.passwordHistory = []) := by
  rw [(decodeKADMRecord_opened h historyKeys).2, readKADM_master lines]
  exact and_congr (sameFields_master lines h historyKeys)
    (imp_congr_right fun _ => sameHistory_nil_right)

/-- The record of another line comes back as it was just when it has nothing that a dump has no
place for, and its policy and history are in what it is written from. -/
theorem line_same_iff (laws : KDB.Laws env) {stored : Option KADMData} {historyKeys : List Key}
    (hseal : ∀ hk ∈ dumpHistoryKey env db, Unseals env db hk) (hw : w ∈ ws)
    (hstored : ¬ Rewritten env db w.record → Stored env db w.record stored)
    (h : Opened env w opened) (hkeys : historyKeys.Perm (writtenHistoryKeys env db)) :
    (SameFields w.record (decodeKADMRecord env historyKeys opened) ∧ (HasHistory db →
        SameHistory w.record.passwordHistory
          (decodeKADMRecord env historyKeys opened).passwordHistory)) ↔
      (TimesPlain w.record ∧ w.record.lastPasswordChange = zeroTime ∧
        ∀ k, w.record.strings.lookup k = none) ∧ KADMPlain env db w.record stored := by
  obtain ⟨_, etype, _, hfor⟩ := lines.written w hw
  rw [← readKADM_written_iff laws hseal hstored hfor.tl w.fits.tlData hkeys, sameFields_iff h,
    (decodeKADMRecord_opened h historyKeys).1, (decodeKADMRecord_opened h historyKeys).2]
  simp only [and_assoc, and_left_comm]

theorem lookup_filePolicies {p : PolicyRecord} (hp : db.policies.lookup k = some p) :
    (filePolicies policies ∅).lookup k = some (restoredPolicy p) := by
  rw [← db.policies_named k p hp]
  exact lookup_foldl_insert_of_mem
    lines.policyNames ((lines.policies p).2 ⟨k, hp⟩)

/-- The line an opened record comes from. -/
theorem line_of_lookup (hfit : Dumpable env db enctype key) {all : GoMap Bytes PrincipalRecord}
    (hall : OpenedAll (ml.line :: ws) all) {record : PrincipalRecord}
    (hrecord : db.principals.lookup k = some record) (hopen : all.lookup k = some opened) :
    ∃ w, Opened env w opened ∧
      (w = ml.line ∧ IsKM db record.name ∨ w ∈ ws ∧ w.record = record ∧
        record ∈ dumpedRecords db) := by
  obtain ⟨w, hw, hfiled, hline⟩ := hall.only k opened hopen
  refine ⟨w, hline, ?_⟩
  have hcanonical := db.principals_canonical k record hrecord
  rcases mem_cons.1 hw with rfl | hw
  · have heq : canonical record.name = canonical (kmName db.realm) := by
      rw [hcanonical, ← hfiled, ← lines.name]
      rfl
    exact .inl ⟨rfl, isKM_of_canonical (hfit.zeroFree.2 k record hrecord) hfit.zeroFree.1 heq⟩
  · have hdumped := (lines.written w hw).1
    have hfound : db.principals.lookup w.filed = some w.record := lookup_dumped hdumped
    rw [hfiled, hrecord] at hfound
    obtain rfl := Option.some.inj hfound
    exact .inr ⟨hw, rfl, hdumped⟩

end Dumped

section Dump

variable {text : Bytes} {kadm : PrincipalRecord → Option KADMData} (laws : KDB.Laws env)
  (hfit : Dumpable env db enctype key) (hseal : ∀ hk ∈ dumpHistoryKey env db, Unseals env db hk)
  (hstored : ∀ k r, db.principals.lookup k = some r → ¬ IsKM db r.name → ¬ Rewritten env db r →
    Stored env db r (kadm r))
  (hdump : dumpWithMasterKey env db enctype key = .ok text)

include laws hfit hseal hstored hdump

/-- What comes back as it was had nothing to lose. -/
theorem plain_of_restores {store : FileStore}
    (hparse : parseWithMasterKey env text enctype key = .ok store)
    (hrestores : Restores db store) : Plain env db kadm := by
  -- the dump was read, so it has no limit of 32 bits and no principal without keys
  have hread : (∀ k p, db.policies.lookup k = some p → p.maxFailure.toNat < 2 ^ 31) ∧
      ∀ record ∈ dumpedRecords db, dumpedKeys env record ≠ [] := by
    obtain ⟨ml, ws, policies, rfl, lines⟩ := dump_ok laws hfit hdump
    simp only [dumpWithMasterKey, bind_ok, ensure_ok] at hdump
    obtain ⟨_, hrealm, _⟩ := hdump
    simp only [parseWithMasterKey, bind_ok] at hparse
    obtain ⟨read, hread, _⟩ := hparse
    exact ((parse_dump lines hfit hrealm).1 hread).1
  obtain ⟨store', hparse', hrealm, ml, ws, policies, lines, hopened⟩ :=
    reload laws hfit hread.1 hread.2 hdump
  rw [hparse] at hparse'
  cases hparse'
  obtain ⟨all, hall, hfound⟩ := hopened.records
  rw [hrealm] at hfound
  have hlines : ∀ k r, db.principals.lookup k = some r → ∃ w opened, Opened env w opened ∧
      (SameFields r (decodeKADMRecord env (historyKeysOf env all db.realm) opened) ∧
        (HasHistory db → SameHistory r.passwordHistory
          (decodeKADMRecord env (historyKeysOf env all db.realm) opened).passwordHistory)) ∧
      (w = ml.line ∧ IsKM db r.name ∨ w ∈ ws ∧ w.record = r ∧ r ∈ dumpedRecords db) := by
    intro k r hr
    obtain ⟨restored, hrestored, hsame⟩ := hrestores.principals r.name r (lookup_own hr)
    have hstore : store.records.lookup k = some restored := by
      rw [← db.principals_canonical k r hr]
      exact hrestored
    rw [hfound, Option.map_eq_some_iff] at hstore
    obtain ⟨opened, hopen, rfl⟩ := hstore
    obtain ⟨w, hline, hcase⟩ := line_of_lookup lines hfit hall hr hopen
    exact ⟨w, opened, hline, hsame, hcase⟩
  have hdisplay : ∀ k r, db.principals.lookup k = some r → ¬ IsKM db r.name →
      Displayable r.name := by
    intro k r hr hnotKM
    obtain ⟨_, _, _, _, ⟨_, hkm⟩ | ⟨_, _, hdumped⟩⟩ := hlines k r hr
    · exact absurd hkm hnotKM
    · exact (mem_dumpedRecords.1 hdumped).2.1
  have hkeys := historyKeys_perm lines hfit hdisplay hall
  refine ⟨?_, ?_, ?_⟩
  · intro k r hr hnotKM
    obtain ⟨w, opened, hline, hsame, ⟨_, hkm⟩ | ⟨hw, rfl, hdumped⟩⟩ := hlines k r hr
    · exact absurd hkm hnotKM
    · obtain ⟨hplain, hkadm⟩ :=
        (line_same_iff lines laws hseal hw (hstored k _ hr hnotKM) hline hkeys).1 hsame
      exact ⟨⟨hdisplay k _ hr hnotKM, hread.2 w.record hdumped, hplain⟩, hkadm⟩
  · intro k r hr hkm
    obtain ⟨w, opened, hline, hsame, ⟨rfl, _⟩ | ⟨_, _, hdumped⟩⟩ := hlines k r hr
    · exact (master_same_iff lines hline _).1 hsame
    · exact absurd hkm (mem_dumpedRecords.1 hdumped).2.2
  · intro k p hp
    refine ⟨hread.1 k p hp, restoredPolicy_eq_iff.1 ?_⟩
    have := hrestores.policies k p hp
    rw [hopened.policies, lookup_filePolicies lines hp] at this
    exact Option.some.inj this

theorem restores_of_plain (hplain : Plain env db kadm) :
    ∃ store, parseWithMasterKey env text enctype key = .ok store ∧ Restores db store := by
  have hkeyed : ∀ record ∈ dumpedRecords db, dumpedKeys env record ≠ [] := by
    intro record hrecord
    obtain ⟨⟨k, hk⟩, _, hnotKM⟩ := mem_dumpedRecords.1 hrecord
    exact (hplain.record k record hk hnotKM).1.2.1
  obtain ⟨store, hparse, hrealm, ml, ws, policies, lines, hopened⟩ :=
    reload laws hfit (fun k p hp => (hplain.policy k p hp).1) hkeyed hdump
  refine ⟨store, hparse, ?_, ?_⟩
  · intro name record hlookup
    obtain ⟨all, hall, hfound⟩ := hopened.records
    have hk : db.principals.lookup (canonical name) = some record := hlookup
    have hkeys :=
      historyKeys_perm lines hfit (fun k r hr hnot => (hplain.record k r hr hnot).1.1) hall
    rw [hrealm] at hfound
    have hfiled {w : Written env} (hw : w ∈ ml.line :: ws) (hname : canonical name = w.filed) :
        ∃ opened, Opened env w opened ∧ store.lookup name =
          some (decodeKADMRecord env (historyKeysOf env all db.realm) opened) := by
      obtain ⟨opened, hopen, hline⟩ := hall.found w hw
      refine ⟨opened, hline, ?_⟩
      show store.records.lookup (canonical name) = _
      rw [hfound, hname, hopen]
      rfl
    -- the line of K/M, or one of its own
    by_cases hkm : IsKM db record.name
    · have hname : canonical name = ml.line.filed := by
        have hcomponents := hkm.2
        unfold isKMPrincipal at hcomponents
        rw [beq_iff_eq] at hcomponents
        rw [← db.principals_canonical _ _ hk, Written.filed, canonical, lines.name, hkm.1,
          hcomponents]
        rfl
      obtain ⟨opened, hline, hstore⟩ := hfiled mem_cons_self hname
      exact ⟨_, hstore, (master_same_iff lines hline _).2 (hplain.master _ _ hk hkm)⟩
    · obtain ⟨⟨hdisplay, _, hrecord⟩, hkadm⟩ := hplain.record _ _ hk hkm
      obtain ⟨w, hw, rfl⟩ := lines.complete record (mem_dumpedRecords.2 ⟨⟨_, hk⟩, hdisplay, hkm⟩)
      obtain ⟨opened, hline, hstore⟩ :=
        hfiled (mem_cons_of_mem _ hw) (db.principals_canonical _ _ hk).symm
      exact ⟨_, hstore, (line_same_iff lines laws hseal hw (hstored _ _ hk hkm) hline hkeys).2
        ⟨hrecord, hkadm⟩⟩
  · intro name policy hpolicy
    rw [hopened.policies, lookup_filePolicies lines hpolicy,
      restoredPolicy_eq_iff.2 (hplain.policy _ _ hpolicy).2]

end Dump

end Loaded

end MITDump

/-! ## A small database -/

namespace Small

open MITDump

/-- The change is lost in a dump. -/
def LostOnDump (change : Except String Database) : Prop :=
  ∃ db text store, change = .ok db ∧ dumpWithMasterKey env db 18 [9] = .ok text ∧
    parseWithMasterKey env text 18 [9] = .ok store ∧ ¬ Restores db store

/-- A dump and a load behind the change, and whether a field of the client comes back as another. -/
def changesField {α : Type} [DecidableEq α] (change : Except String Database)
    (f : PrincipalRecord → α) :
    Except String Bool := do
  let db ← change
  let text ← dumpWithMasterKey env db 18 [9]
  let store ← parseWithMasterKey env text 18 [9]
  pure ((db.lookup client).any fun r => (store.lookup client).all fun restored => f restored ≠ f r)

theorem lostOnDump_of_field {α : Type} [DecidableEq α] {change : Except String Database}
    {f : PrincipalRecord → α}
    (hf : ∀ a b, SameFields a b → f b = f a) (h : changesField change f = .ok true) :
    LostOnDump change := by
  simp only [changesField, bind_ok] at h
  obtain ⟨db, hdb, text, hdump, store, hparse, hpure⟩ := h
  refine ⟨db, text, store, hdb, hdump, hparse, fun hrestores => ?_⟩
  have hother := ok.inj hpure
  cases hrecord : db.lookup client with
  | none =>
    rw [hrecord] at hother
    cases hother
  | some record =>
    obtain ⟨restored, hrestored, hsame, _⟩ := hrestores.principals client record hrecord
    rw [hrecord, hrestored, Option.any_some, Option.all_some, decide_eq_true_eq] at hother
    exact hother (hf record restored hsame)

/-- One principal from `AddPrincipal`, five seconds after the epoch. -/
def added : Except String Database :=
  ((newDatabase realm).addPrincipal env (5 * second) (str "c") (str "pw") []).mapError fun _ =>
    "add"

/-- A policy with a lifetime. -/
def policy : PolicyRecord := { name := str "p", maxLife := 60 }

/-- The client with a policy, a lifetime, an expiration and an old password. -/
def plainClient : PrincipalRecord :=
  { name := client, keys := (∅ : GoMap Int32 Key).insert 18 (key 2 8), kvno := 2, policy := str "p"
    maxLife := 60 * second, expiration := 100 * second, flags := 1
    passwordHistory :=
      [(∅ : GoMap Int32 Key).insert 18 { key 1 7 with salt := normalSalt client }] }

def plainDatabase : Database := ((newDatabase realm).putPolicy policy).put plainClient

/-- The client is loaded from a dump, and gets another policy with `UpdatePrincipal`. -/
def policyChanged : Except String Database := do
  let text ← dumpWithMasterKey env plainDatabase 18 [9]
  let store ← parseWithMasterKey env text 18 [9]
  let loaded ← ofOption "client" (store.lookup client)
  (plainDatabase.updatePrincipal 0 { loaded with policy := str "q" } {}).mapError fun _ => "update"

/-- The principal `kadmin/history`. -/
def historyRecord : PrincipalRecord :=
  { name := historyName realm, keys := (∅ : GoMap Int32 Key).insert 18 (key 2 9), kvno := 2 }

def historyDatabase : Database := plainDatabase.put historyRecord

theorem lookup_historyDatabase {r : PrincipalRecord}
    (h : historyDatabase.principals.lookup k = some r) : r = plainClient ∨ r = historyRecord := by
  change ((plainDatabase.principals).insert (canonical historyRecord.name) historyRecord).lookup k =
    some r at h
  by_cases hk : k = canonical historyRecord.name
  · rw [hk, lookup_insert] at h
    exact .inr (Option.some.inj h).symm
  · rw [lookup_insert_ne hk] at h
    change ((∅ : GoMap Bytes PrincipalRecord).insert (canonical client) plainClient).lookup k =
      some r at h
    by_cases hk' : k = canonical client
    · rw [hk', lookup_insert] at h
      exact .inl (Option.some.inj h).symm
    · rw [lookup_insert_ne hk', lookup_empty] at h
      cases h

theorem plain_historyDatabase : Plain env historyDatabase fun _ => none := by
  have hrecords : RecordPlain env plainClient ∧ RecordPlain env historyRecord := by
    refine ⟨⟨⟨_, rfl⟩, by decide +kernel, ?_, rfl, fun k => rfl⟩,
      ⟨_, rfl⟩, by decide +kernel, ?_, rfl, fun k => rfl⟩
    all_goals
      unfold TimesPlain
      decide +kernel
  have hkadm : KADMPlain env historyDatabase plainClient none ∧
      KADMPlain env historyDatabase historyRecord none := by
    constructor
    · rw [KADMPlain, if_pos (by decide +kernel)]
      rintro - m hm e k hk
      rw [mem_singleton.1 hm] at hk
      by_cases he : e = 18
      · rw [he, lookup_insert] at hk
        cases hk
        exact ⟨he.symm, by decide +kernel⟩
      · rw [lookup_insert_ne he, lookup_empty] at hk
        cases hk
    · rw [KADMPlain, if_neg (by decide +kernel)]
      exact fun _ => rfl
  have hpolicy : ∀ e ∈ historyDatabase.policies.entries, e.2 = policy := by
    simp [historyDatabase, plainDatabase, Database.put, Database.putPolicy, newDatabase]
  refine ⟨fun k r hr _ => ?_, fun k r hr hkm => ?_, fun k p hp => ?_⟩
  · rcases lookup_historyDatabase hr with rfl | rfl
    · exact ⟨hrecords.1, hkadm.1⟩
    · exact ⟨hrecords.2, hkadm.2⟩
  · have hnotKM : ¬ IsKM historyDatabase plainClient.name ∧
        ¬ IsKM historyDatabase historyRecord.name := by
      decide +kernel
    rcases lookup_historyDatabase hr with rfl | rfl
    · exact absurd hkm hnotKM.1
    · exact absurd hkm hnotKM.2
  · have heq : p = policy := hpolicy ⟨k, p⟩ (lookup_eq_some_iff.1 hp)
    subst heq
    have hkept : policy.maxFailure.toNat < 2 ^ 31 ∧ policy.allowedKeySalts ≠ str "-" := by decide
    exact hkept

/-- The history key opens what it has sealed. -/
theorem unseals_historyDatabase :
    ∀ hk ∈ dumpHistoryKey env historyDatabase, Unseals env historyDatabase hk := by
  intro hk hmem historyKeys hperm key ct hct
  have hkey : dumpHistoryKey env historyDatabase = some (Small.key 2 9) := by decide +kernel
  have hwritten : writtenHistoryKeys env historyDatabase =
      [{ Small.key 2 9 with salt := normalSalt (historyName realm) }] := by decide +kernel
  rw [hwritten, perm_singleton] at hperm
  cases hkey.symm.trans hmem
  obtain ⟨etype, hetype, hencrypt⟩ := Option.bind_eq_some_iff.1 hct
  rw [hperm, decryptHistoryKey, findSome?_cons, hetype, Option.bind_some,
    laws.decrypt_encrypt hetype hencrypt]

end Small

end Kerberos
