import Kerberos.Lib.Run
import Kerberos.Proof.KeyChanges
import Kerberos.Proof.Loaded
import Kerberos.Proof.Reload
import Kerberos.Spec.SmallKDB

/-!
# Keys survive a dump

A record carries its keys twice, as a map and as key data, and the writer prefers the key
data. `KeysCurrent` says that the two agree: then the keys come back from a dump
(`restoredKeyOf_current`). Every loaded record is current; an operation that changes the
keys of a record keeps it so only where there is no key data (`KeyCall.Safe`).
-/

namespace Kerberos

open Transition List Except

theorem Small.integrity : KDB.Integrity Small.env where
  only h := by
    intro e' t' h' k k' u p c p' hc hp
    simp only [env] at h h'
    split_ifs at h with hrange
    split_ifs at h' with hrange'
    cases h
    cases h'
    simp only [etype] at hc hp
    split_ifs at hc with hk
    cases hc
    obtain ⟨b, rfl⟩ := length_eq_one_iff.1 hk
    simp only [cons_append, nil_append] at hp
    split_ifs at hp with hopen
    refine ⟨?_, hopen.2⟩
    have htag := congrArg UInt8.toNat hopen.1
    simp only [tag, UInt8.toNat_ofNat'] at htag
    apply Int32.toInt_inj.1
    omega

variable {record : PrincipalRecord}

namespace MITDump

/-! ## Current keys -/

/-- Each key is filed under its own enctype, and there is one. -/
def OwnKeys (keys : GoMap Int32 Key) : Prop :=
  keys.entries ≠ [] ∧ ∀ e k, keys.lookup e = some k → k.enctype = e

/-- The key data of the record says what its key map says: there is none, or the first of
each enctype is the key of the map up to its salt. -/
def KeysCurrent (record : PrincipalRecord) : Prop :=
  if record.keyData = [] then OwnKeys record.keys
  else ∀ e, (record.keyData.find? fun k => k.enctype == e).map (restoredKey record.name) =
    (record.keys.lookup e).map (restoredKey record.name)

theorem Fresh.current (h : Fresh record) : KeysCurrent record := by
  unfold KeysCurrent
  rw [if_neg h.1]
  intro e
  rw [h.2]

theorem find?_values {keys : GoMap Int32 Key} (hown : ∀ e k, keys.lookup e = some k → k.enctype = e)
    {l : List Key} (hl : l.Perm (keys.entries.map Sigma.snd)) (e : Int32) :
    l.find? (fun k => k.enctype == e) = keys.lookup e := by
  have hmem : ∀ k, k ∈ l ↔ keys.lookup k.enctype = some k := by
    intro k
    rw [hl.mem_iff, AList.mem_values]
    constructor
    · rintro ⟨e', h⟩
      rw [hown e' k h, h]
    · intro h
      exact ⟨_, h⟩
  cases hk : keys.lookup e with
  | none =>
    rw [find?_eq_none]
    intro k hmemk heq
    rw [beq_iff_eq] at heq
    have := (hmem k).1 hmemk
    rw [heq, hk] at this
    cases this
  | some k =>
    have he := hown e k hk
    refine find?_eq_some_of_unique ((hmem k).2 (by rw [he, hk])) (by simp [he]) ?_
    intro other hother heq
    rw [beq_iff_eq] at heq
    have := (hmem other).1 hother
    rw [heq, hk] at this
    exact (Option.some.inj this).symm

/-- **Current keys come back.** -/
theorem restoredKeyOf_current (env : KDB.Env) (h : KeysCurrent record)
    (hkm : isKMPrincipal record.name = false) (e : Int32) :
    restoredKeyOf env record e = (record.keys.lookup e).map (restoredKey record.name) := by
  unfold KeysCurrent at h
  unfold restoredKeyOf dumpedKeys
  simp only [hkm, Bool.false_eq_true, false_or]
  by_cases hnil : record.keyData = []
  · rw [if_pos hnil] at h
    have hperm : ((rangeKeys env record.keys).insertionSort fun a b => keyLE false a b).Perm
        (record.keys.entries.map Sigma.snd) :=
      (perm_insertionSort _ _).trans (env.keyOrder_perm _)
    simp only [hnil, ne_eq, not_true_eq_false, if_false, if_true]
    rw [find?_values h.2 hperm]
  · rw [if_neg hnil] at h
    simp only [hnil, ne_eq, not_false_eq_true, if_true, if_false]
    exact h e

theorem dumpedKeys_current (env : KDB.Env) (h : KeysCurrent record) :
    dumpedKeys env record ≠ [] := by
  unfold KeysCurrent at h
  have hpos : ∀ {keys l : List Key}, l.Perm keys → keys ≠ [] → l ≠ [] := by
    intro keys l hl hne hnil
    rw [hnil] at hl
    exact hne hl.nil_eq.symm
  unfold dumpedKeys
  by_cases hnil : record.keyData = []
  · rw [if_pos hnil] at h
    have hrange : rangeKeys env record.keys ≠ [] :=
      hpos (env.keyOrder_perm _) (by simpa using h.1)
    simp only [hnil, ne_eq, not_true_eq_false, if_false, or_true, if_true]
    exact hpos (perm_insertionSort _ _) hrange
  · simp only [hnil, ne_eq, not_false_eq_true, if_true, or_false]
    split_ifs
    · exact hpos (perm_insertionSort _ _) hnil
    · exact hnil

end MITDump

/-! ## The calls that change keys -/

namespace KeyCall

open MITDump

/-- The principal has no key data next to its key map. -/
def MapOnly (db : Database) (name : Principal) : Prop :=
  ∀ r, db.lookup name = some r → r.keyData = []

/-- The call leaves the key data of the principal in step with its keys. -/
def Safe (db : Database) : KeyCall → Prop
  | changePassword name .. => MapOnly db name
  | randomizeKeys _ name .. => MapOnly db name
  | setKeys name keys keepOld => MapOnly db name ∧ (keys ≠ [] ∨ keepOld = true)
  | purgeKeys name _ => MapOnly db name
  | updatePrincipal record absent => Displayable record.name ∧ ∀ r, db.lookup record.name = some r →
      KeysCurrent { record with keys := if absent.keys then r.keys else record.keys }

end KeyCall

variable {db : Database}

namespace MITDump

open Database

/-- Every principal can be written with the keys it has. -/
def AllCurrent (db : Database) : Prop :=
  ∀ k r, db.principals.lookup k = some r → KeysCurrent r ∧ Displayable r.name

variable {now : ℤ}

theorem AllCurrent.save (h : AllCurrent db)
    (hrecord : KeysCurrent record ∧ Displayable record.name) : AllCurrent (db.save now record) := by
  intro k r hr
  have hr' : (db.principals.insert (canonical record.name) record).lookup k = some r := hr
  by_cases hk : k = canonical record.name
  · subst hk
    rw [AList.lookup_insert] at hr'
    cases hr'
    exact hrecord
  · rw [AList.lookup_insert_ne hk] at hr'
    exact h k r hr'

/-! ## What the calls do to the keys -/

/-- Keys filed under their enctypes, next to keys that are. -/
theorem ownKeys_foldl {m : GoMap Int32 Key} (hm : ∀ e k, m.lookup e = some k → k.enctype = e)
    {keys : List Key} (hne : m.entries ≠ [] ∨ keys ≠ []) :
    OwnKeys (keys.foldl (fun m k => m.insert k.enctype k) m) := by
  constructor
  · rw [entries_ne_nil_iff]
    simp only [AList.mem_foldl_insert]
    rcases hne with hne | hne
    · obtain ⟨e, he⟩ := entries_ne_nil_iff.1 hne
      exact ⟨e, .inl he⟩
    · obtain ⟨k, hk⟩ := exists_mem_of_ne_nil _ hne
      exact ⟨k.enctype, .inr ⟨k, hk, rfl⟩⟩
  · intro e k hk
    rcases lookup_filed hk with ⟨_, he⟩ | ⟨hold, _⟩
    · exact he
    · exact hm e k hold

theorem ownKeys_keyMapOf {keys : List Key} (h : keys ≠ []) : OwnKeys (keyMapOf keys) :=
  ownKeys_foldl (by simp) (.inr h)

variable {env : KDB.Env} {tuples : List KeySaltTuple} {password : Bytes}

theorem deriveRecord_ok {name : Principal} {kvno : UInt32}
    (h : deriveRecordWithTuplesAt env name password kvno tuples now = .ok record) :
    OwnKeys record.keys := by
  simp only [deriveRecordWithTuplesAt, bind_ok] at h
  obtain ⟨normalized, _, keys, hkeys, hpure⟩ := h
  cases hpure
  refine ownKeys_keyMapOf (ne_nil_of_mapM hkeys ?_)
  split_ifs with hnil
  · decide
  · exact hnil

theorem nextKeys_own {current next : PrincipalRecord} {keys : GoMap Int32 Key}
    (hnext : OwnKeys next.keys)
    (h : Database.nextKeys env current password tuples next = .ok keys) : OwnKeys keys := by
  unfold nextKeys at h
  split_ifs at h with hshape
  · simp only [deriveKeys, bind_ok] at h
    obtain ⟨derived, hderived, hpure⟩ := h
    cases hpure
    exact ownKeys_keyMapOf (ne_nil_of_mapM hderived hshape.2.1)
  · cases h
    exact hnext

theorem keysCurrent_iff_own (hnil : record.keyData = []) :
    KeysCurrent record ↔ OwnKeys record.keys := by
  rw [KeysCurrent, if_pos hnil]

/-- A record with new keys, or with its own ones kept, is current. -/
theorem keysFiled_current {keepOld : Bool} {made : List Key} {current out : PrincipalRecord}
    (h : KeysCurrent current ∧ Displayable current.name) (hnil : current.keyData = [])
    (hfiled : KeysFiled keepOld made current out) (hne : made ≠ [] ∨ keepOld = true) :
    KeysCurrent out ∧ Displayable out.name := by
  obtain ⟨hname, _, hdata⟩ := hfiled.same
  have hown := (keysCurrent_iff_own hnil).1 h.1
  refine ⟨(keysCurrent_iff_own (hdata.trans hnil)).2 ?_, hname ▸ h.2⟩
  rw [hfiled.keys]
  cases keepOld with
  | true => exact ownKeys_foldl hown.2 (.inl hown.1)
  | false => exact ownKeys_foldl (by simp) (.inr (hne.resolve_right Bool.false_ne_true))

/-- **Step rule.** A safe call keeps every principal current. -/
theorem allCurrent_apply {db' : Database} {call : KeyCall}
    (hall : AllCurrent db) (hsafe : call.Safe db) (h : call.apply env now db = .ok db') :
    AllCurrent db' := by
  cases call with
  | changePassword name password at_ policy bypassMinLife keepOld tuples =>
    obtain ⟨current, record, hlookup, hrecord, rfl⟩ := modify_ok.1 h
    have hchanged := changedPassword_ok hrecord
    obtain ⟨hname, -, hdata⟩ := hchanged.same
    obtain ⟨next, hnext, hkeys⟩ := bind_ok.1 hchanged.keys
    have hown : OwnKeys record.keys := nextKeys_own (deriveRecord_ok hnext) hkeys
    exact hall.save ⟨(keysCurrent_iff_own (hdata.trans (hsafe current hlookup))).2 hown,
      hname ▸ (hall _ _ hlookup).2⟩
  | randomizeKeys entropy name keepOld tuples =>
    obtain ⟨_, made, current, out, _, hlookup, hmade, hfiled, _, rfl⟩ := randomizeKeys_ok h
    have hcurrent := hall _ _ hlookup
    refine hall.save (keysFiled_current hcurrent (hsafe current hlookup) hfiled (.inl ?_))
    unfold generatedKeys at hmade
    split_ifs at hmade with hnil
    · exact ne_nil_of_mapM hmade ((keysCurrent_iff_own (hsafe current hlookup)).1 hcurrent.1).1
    · exact ne_nil_of_mapM hmade hnil
  | setKeys name keys keepOld =>
    obtain ⟨current, out, hlookup, hfiled, _, rfl⟩ := setKeys_ok h
    refine hall.save (keysFiled_current (hall _ _ hlookup) (hsafe.1 current hlookup) hfiled ?_)
    exact hsafe.2.imp_left fun hkeys => by simpa [versionedKeys] using hkeys
  | purgeKeys name keepKVNO =>
    obtain ⟨current, keys, hlookup, hne, hsub, rfl⟩ := purgeKeys_ok h
    have hown := (keysCurrent_iff_own (hsafe current hlookup)).1 (hall _ _ hlookup).1
    refine hall.save ⟨(keysCurrent_iff_own ?_).2 ⟨hne, ?_⟩, (hall _ _ hlookup).2⟩
    · exact hsafe current hlookup
    · exact fun e k hk => hown.2 e k (hsub e k hk)
  | updatePrincipal record absent =>
    obtain ⟨current, updated, hlookup, hupdated, rfl⟩ := modify_ok.1 h
    cases hupdated
    exact hall.save ⟨hsafe.2 current hlookup, hsafe.1⟩

/-- **Run rule.** -/
theorem allCurrent_run {db' : Database} {calls : List (ℤ × KeyCall)}
    (hrun : Run (Guarded (KeyStep env) fun db call => call.2.Safe db) db calls db')
    (hall : AllCurrent db) : AllCurrent db' := by
  refine hrun.invariant ?_ hall
  rintro w ⟨now, call⟩ w' hw ⟨hstep, hsafe⟩
  rcases hstep with hok | rfl
  · exact allCurrent_apply hw hsafe hok
  · exact hw

/-! ## Loading, changing keys, dumping and loading again -/

/-- A database that one of the loaders makes of a dump. -/
def LoadedFrom (env : KDB.Env) (db : Database) : Prop :=
  ∃ data enctype key store, parseWithMasterKey env data enctype key = .ok store ∧
    ((∃ realm, loadLocalDatabase realm store = .ok db) ∨ loadMutable store = .ok db)

theorem allCurrent_loaded (h : LoadedFrom env db) : AllCurrent db := by
  obtain ⟨data, enctype, key, store, hparse, hload⟩ := h
  simp only [parseWithMasterKey, bind_ok] at hparse
  obtain ⟨read, hread, hopen⟩ := hparse
  have hsound := openStore_sound (parse_sound hread) hopen
  intro k r hr
  have hstore : store.records.lookup k = some r := by
    rcases hload with ⟨realm, hload⟩ | hload
    · exact (((importStore_ok hsound ⟨rfl, rfl⟩ hload).2.1 k r).1 hr).1
    · exact (((importStore_ok hsound ⟨rfl, rfl⟩ hload).2.1 k r).1 hr).1
  have hparsed := hsound.parsed k r hstore
  exact ⟨hparsed.fresh.current, hparsed.displayable⟩

/-- Every principal but K/M has in the store the keys it has in the database, with their salts
written out. -/
def KeysRestored (db : Database) (store : FileStore) : Prop :=
  ∀ name record, db.lookup name = some record → isKMPrincipal record.name = false →
    ∃ restored, store.lookup name = some restored ∧
      ∀ e, restored.keys.lookup e = (record.keys.lookup e).map (restoredKey record.name)

theorem keysRestored_of_current (laws : KDB.Laws env)
    (hall : AllCurrent db) {enctype : Int32} {key text : Bytes} (hfit : Dumpable env db enctype key)
    (hlimits : ∀ k p, db.policies.lookup k = some p → p.maxFailure.toNat < 2 ^ 31)
    (hdump : dumpWithMasterKey env db enctype key = .ok text) :
    ∃ store, parseWithMasterKey env text enctype key = .ok store ∧ KeysRestored db store := by
  have hkeyed : ∀ record ∈ dumpedRecords db, dumpedKeys env record ≠ [] := by
    intro record hrecord
    obtain ⟨⟨k, hk⟩, _⟩ := mem_dumpedRecords.1 hrecord
    exact dumpedKeys_current env (hall k record hk).1
  obtain ⟨store, hparse, _, ml, ws, policies, lines, hopened⟩ :=
    reload laws hfit hlimits hkeyed hdump
  refine ⟨store, hparse, ?_⟩
  intro name record hlookup hkm
  obtain ⟨hcurrent, hdisplayable⟩ := hall _ record hlookup
  have hdumped : record ∈ dumpedRecords db := by
    refine mem_dumpedRecords.2 ⟨⟨_, hlookup⟩, hdisplayable, fun h => ?_⟩
    rw [h.2] at hkm
    cases hkm
  obtain ⟨w, _, rfl, opened, historyKeys, hopen, hfound⟩ := hopened.lookup lines hdumped
  refine ⟨decodeKADMRecord env historyKeys opened, ?_, fun e => ?_⟩
  · have hfiled : canonical w.record.name = canonical name := db.principals_canonical _ _ hlookup
    show store.records.lookup (canonical name) = _
    rw [← hfiled]
    exact hfound
  · obtain ⟨fields, history, heq⟩ := decodeKADMRecord_eq env historyKeys opened
    rw [heq]
    show opened.keys.lookup e = _
    rw [hopen.keys, restoredKeyOf_current env hcurrent hkm]

/-- **Keys survive a dump**: after a load and any calls that leave key data and key maps in step,
a dump that is written loads again with the keys the database had. -/
theorem keys_survive_dump (env : KDB.Env) (laws : KDB.Laws env) (db₀ db : Database)
    (calls : List (ℤ × KeyCall)) (hload : LoadedFrom env db₀)
    (hrun : Run (Guarded (KeyStep env) fun db call => call.2.Safe db) db₀ calls db)
    (enctype : Int32)
    (key text : Bytes) (hfit : Dumpable env db enctype key)
    (hlimits : ∀ k p, db.policies.lookup k = some p → p.maxFailure.toNat < 2 ^ 31)
    (hdump : dumpWithMasterKey env db enctype key = .ok text) :
    ∃ store, parseWithMasterKey env text enctype key = .ok store ∧ KeysRestored db store :=
  keysRestored_of_current laws (allCurrent_run hrun (allCurrent_loaded hload)) hfit hlimits hdump

/-! ## A small database -/

/-- The conditions on a dump with one master key, as a check. -/
def checkDumpable (db : Database) : Bool :=
  decide ((Text.FreeOf nameBytes db.realm ∧ 0 ∉ db.realm) ∧
    (NewestFirst (dumpMasterKeys db 18 [9]) ∧
      ∀ latest ∈ (dumpMasterKeys db 18 [9]).head?, latest.enctype = 18 ∧ latest.key = [9]) ∧
    (∀ e ∈ db.principals.entries, RecordDumpable Small.env db 18 [9] e.2) ∧
    (∀ e ∈ db.policies.entries, PolicyPlain e.2 ∧ policySize e.2 < maxLineSize) ∧
    ∀ name ∈ (kmName db.realm).format.toOption,
      512 + name.length + 3 * 131134 + keySize (dumpMasterKeys db 18 [9]) < maxLineSize)

theorem dumpable_of_check (h : checkDumpable db = true) : Dumpable Small.env db 18 [9] := by
  obtain ⟨hrealm, hkeys, hrecords, hpolicies, hmaster⟩ := of_decide_eq_true h
  exact dumpable_of_entries hrealm hkeys hrecords hpolicies hmaster

end MITDump

namespace Small

open MITDump

/-- The realm with its client, who has one key. -/
def database : Database :=
  (newDatabase realm).put
    { name := client, keys := (∅ : GoMap Int32 Key).insert 18 (key 1 7), kvno := 1 }

/-- The database of `loadLocalDatabase` after a dump under the master key `[9]`. -/
def reloaded : Except String Database := do
  let text ← dumpWithMasterKey env database 18 [9]
  let store ← parseWithMasterKey env text 18 [9]
  (loadLocalDatabase [] store).mapError fun _ => "load"

/-- The key of the client is the same in the database and in the store. -/
def sameKey (db : Database) (store : FileStore) : Bool :=
  (store.lookup client).map (fun r => r.keys.lookup 18) =
    (db.lookup client).map fun r => (r.keys.lookup 18).map (restoredKey r.name)

theorem loadedFrom_reloaded (h : reloaded = .ok db) : LoadedFrom env db := by
  simp only [reloaded, bind_ok, mapError_ok] at h
  obtain ⟨text, _, store, hparse, hload⟩ := h
  exact ⟨text, 18, [9], store, hparse, .inl ⟨[], hload⟩⟩

theorem sameKey_of_restored {store : FileStore} (h : KeysRestored db store)
    (hclient : (db.lookup client).any (fun r => !isKMPrincipal r.name) = true) :
    sameKey db store = true := by
  cases hlookup : db.lookup client with
  | none =>
    rw [hlookup] at hclient
    cases hclient
  | some record =>
    rw [hlookup] at hclient
    obtain ⟨restored, hrestored, hkeys⟩ := h client record hlookup (by simpa using hclient)
    simp [sameKey, hlookup, hrestored, hkeys]

/-- `SetKeys` on a loaded principal, a dump, and a load. -/
def setAndReload : Except String Bool := do
  let db₀ ← reloaded
  let db ← (db₀.setKeys 0 client [key 2 8] false).mapError fun _ => "set keys"
  let text ← dumpWithMasterKey env db 18 [9]
  let store ← parseWithMasterKey env text 18 [9]
  pure ((db.lookup client).any (fun r => !isKMPrincipal r.name) && !sameKey db store)

/-- The key a loaded principal is given is not in the next dump: the old one is. -/
theorem setKeys_lost_on_dump : ∃ db₀ db text store, LoadedFrom env db₀ ∧
    KeyStep env db₀ (0, .setKeys client [key 2 8] false) db ∧
    dumpWithMasterKey env db 18 [9] = .ok text ∧ parseWithMasterKey env text 18 [9] = .ok store ∧
    ¬ KeysRestored db store := by
  have hrun : setAndReload = .ok true := by decide +kernel
  simp only [setAndReload, bind_ok, mapError_ok] at hrun
  obtain ⟨db₀, hload, db, hset, text, hdump, store, hparse, hpure⟩ := hrun
  have hlost := ok.inj hpure
  rw [Bool.and_eq_true, Bool.not_eq_true'] at hlost
  refine ⟨db₀, db, text, store, loadedFrom_reloaded hload, .inl hset, hdump, hparse, fun h => ?_⟩
  rw [sameKey_of_restored h hlost.1] at hlost
  cases hlost.2

/-- The client's record without its key data, for `UpdatePrincipal`. -/
def withoutKeyData : PrincipalRecord := { name := client, kvno := 1 }

/-- The calls that drop the key data of the client and then set a key. -/
def setCalls : List (ℤ × KeyCall) :=
  [(0, .updatePrincipal withoutKeyData ⟨true, true, true⟩), (0, .setKeys client [key 2 8] false)]

/-- The same with the key data dropped first. -/
def dropSetAndReload : Except String Bool := do
  let db₀ ← reloaded
  let db₁ ← (db₀.updatePrincipal 0 withoutKeyData ⟨true, true, true⟩).mapError fun _ => "update"
  let db ← (db₁.setKeys 0 client [key 2 8] false).mapError fun _ => "set keys"
  let _ ← dumpWithMasterKey env db 18 [9]
  pure (checkDumpable db && decide (∀ e ∈ db.policies.entries, e.2.maxFailure.toNat < 2 ^ 31) &&
    (db₁.lookup client).all (fun r => r.keyData.isEmpty) &&
    (db₀.lookup client).all (fun r => !r.keys.entries.isEmpty &&
      r.keys.entries.all fun e => e.2.enctype == e.1) &&
    (db.lookup client).any (fun r => !isKMPrincipal r.name))

theorem keys_survive_dump_small : ∃ db₀ db text store, LoadedFrom env db₀ ∧
    Run (Guarded (KeyStep env) fun db call => call.2.Safe db) db₀ setCalls db ∧
    dumpWithMasterKey env db 18 [9] = .ok text ∧ parseWithMasterKey env text 18 [9] = .ok store ∧
    KeysRestored db store ∧ sameKey db store = true := by
  have hrun : dropSetAndReload = .ok true := by decide +kernel
  simp only [dropSetAndReload, bind_ok, mapError_ok] at hrun
  obtain ⟨db₀, hload, db₁, hupdate, db, hset, text, hdump, hpure⟩ := hrun
  have hchecks := ok.inj hpure
  simp only [Bool.and_eq_true] at hchecks
  obtain ⟨⟨⟨⟨hfit, hlimits⟩, hmapOnly⟩, hown⟩, hclient⟩ := hchecks
  have hsafe₀ : (KeyCall.updatePrincipal withoutKeyData ⟨true, true, true⟩).Safe db₀ := by
    refine ⟨⟨_, rfl⟩, fun r hr => ?_⟩
    have hr' : db₀.lookup client = some r := hr
    rw [hr', Option.all_some, Bool.and_eq_true, all_eq_true] at hown
    refine (keysCurrent_iff_own rfl).2 ⟨by simpa using hown.1, fun e k hk => ?_⟩
    simpa using hown.2 ⟨e, k⟩ (AList.lookup_eq_some_iff.1 hk)
  have hsafe₁ : (KeyCall.setKeys client [key 2 8] false).Safe db₁ := by
    refine ⟨fun r hr => ?_, .inl (by simp)⟩
    rw [hr] at hmapOnly
    simpa using hmapOnly
  have hcalls : Run (Guarded (KeyStep env) fun db call => call.2.Safe db) db₀ setCalls db :=
    .cons ⟨.inl hupdate, hsafe₀⟩ (.cons ⟨.inl hset, hsafe₁⟩ (.nil db))
  obtain ⟨store, hparse, hrestored⟩ := keys_survive_dump env laws db₀ db setCalls
    (loadedFrom_reloaded hload) hcalls 18 [9] text (dumpable_of_check hfit)
    (fun k p hp => of_decide_eq_true hlimits ⟨k, p⟩ (AList.lookup_eq_some_iff.1 hp)) hdump
  exact ⟨db₀, db, text, store, loadedFrom_reloaded hload, hcalls, hdump, hparse, hrestored,
    sameKey_of_restored hrestored hclient⟩

end Small

end Kerberos
