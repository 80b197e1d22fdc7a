import Kerberos.Proof.Rotation
import Kerberos.Spec.SmallKDB

/-!
# Master keys stay usable

Over every run of the master-key commands in which `purge_mkeys` does not remove the newest
version next to two others, the dump opens with the key of every version it lists, all
versions come back, and no principal's key has changed (`master_keys_stay_usable`). Without
the condition an older version can be locked out: `purge_locks_out`.
-/

namespace Kerberos

open Transition List Except Bool

variable {db : Database} {text : Bytes}

namespace MITDump

open MasterLine

variable {env : KDB.Env}

/-- The dump opens with the key of every version, and each time the versions listed and the
keys of `store` are there. -/
structure OpensWithAll (env : KDB.Env) (text : Bytes) (store : FileStore) (versions : List Key) :
    Prop where
  nonempty : versions ≠ []
  listed : ∃ raw, parse text = .ok raw ∧
    (masterOf raw).map (fun km => km.keyData.map Key.kvno) = some (versions.map Key.kvno)
  opens : ∀ mk ∈ versions, ∃ opened, parseWithMasterKey env text mk.enctype mk.key = .ok opened ∧
    opened.masterKeys = versions ∧
    ∀ k, k ≠ canonical (kmName store.realm) → storedKeys opened k = storedKeys store k

/-- A command of a run, with the time and the master password it is called with. One that
fails leaves the dump as it is. -/
def MKeyStep (env : KDB.Env) (text : Bytes) (call : ℤ × Bytes × MKeyCommand) (text' : Bytes) :
    Prop :=
  runMKeyCommand env call.1 text call.2.1 call.2.2 = .ok text' ∨ text' = text

/-- The lines have room for the change, and a purge leaves the newest version or only one. -/
def MKeySafe (env : KDB.Env) (text : Bytes) (call : ℤ × Bytes × MKeyCommand) : Prop :=
  ∀ store db, parseWithMasterPassword env text call.2.1 = .ok store → loadMutable store = .ok db →
    Roomy env db 68 (512 + 2 * (db.realm.length + 2)) ∧
      match call.2.2 with
      | .purgeMKeys _ _ => NewestUsed db
      | _ => True

/-- The dump is one of a consistent database whose principals have the keys `held`. -/
def Keeps (env : KDB.Env) (held : Bytes → Option (Int32 → Option Key)) (realm text : Bytes) :
    Prop :=
  ∃ db latest older, Consistent env db latest older ∧
    dumpWithMasterKey env db latest.enctype latest.key = .ok text ∧ db.realm = realm ∧
    ∀ k, k ≠ canonical (kmName realm) → heldKeys env db k = held k

/-! ## One command -/

theorem Roomy.mono {a b a' b' : ℕ} (h : Roomy env db a b) (ha : a' ≤ a) (hb : b' ≤ b) :
    Roomy env db a' b' := by
  refine ⟨fun k r hr name hname => ?_, fun name hname => ?_⟩
  · have := h.1 k r hr name hname
    omega
  · have := h.2 name hname
    omega

variable {db' : Database}

theorem Roomy.of_keys {a b : ℕ} (h : Roomy env db a b)
    (hsame : db'.realm = db.realm ∧ db'.principals = db.principals ∧ db'.policies = db.policies)
    (hsize : keySize db'.masterKeys ≤ keySize db.masterKeys + b) : Roomy env db' 0 0 := by
  refine ⟨fun k r hr name hname => ?_, fun name hname => ?_⟩
  · rw [hsame.2.1] at hr
    have := h.1 k r hr name hname
    omega
  · rw [hsame.1] at hname
    have := h.2 name hname
    omega

variable {held : Bytes → Option (Int32 → Option Key)}

theorem Imported.of_keys (h : Imported env held db)
    (hsame : db'.realm = db.realm ∧ db'.principals = db.principals ∧ db'.policies = db.policies) :
    Imported env held db' := by
  obtain ⟨hrealm, hprincipals, hpolicies⟩ := hsame
  refine ⟨hrealm ▸ h.realm, hpolicies ▸ h.policies, hprincipals ▸ h.records, fun k hk => ?_⟩
  rw [hrealm] at hk
  rw [hprincipals]
  exact h.held k hk

theorem keySize_sublist {a b : List Key} (h : a.Sublist b) : keySize a ≤ keySize b := by
  exact (h.map _).sum_le_sum fun _ _ => Nat.zero_le _

/-- **A command keeps the database consistent**, and its principals have the keys they had. -/
theorem MKeyCommand.apply_consistent
    {latest : Key} {older : List Key} {now : ℤ} {supplied : UInt32} (himp : Imported env held db)
    (hring : Keyring env db latest older)
    (hfits : ∀ mk ∈ latest :: older, usableKey env mk = true ∧ mk.kvno ≠ 0 ∧
      mk.kvno.toNat ≤ maxUint16)
    (hactive : db.activeMKeys ≠ []) (hroom : Roomy env db 68 (512 + 2 * (db.realm.length + 2)))
    {command : MKeyCommand} (hsafe : match command with
      | .purgeMKeys _ _ => NewestUsed db
      | _ => True)
    (h : command.apply env now db supplied = .ok (some db')) (hne : db'.masterKeys ≠ []) :
    db'.realm = db.realm ∧ Imported env held db' ∧ ∃ latest' older', db'.masterKeys =
      latest' :: older' ∧
      Consistent env db' latest' older' := by
  have hversions : ∀ mk ∈ latest :: older, mk.kvno.toNat ≤ maxUint16 := fun mk hmk =>
    (hfits mk hmk).2.2
  suffices hnew : db'.realm = db.realm ∧ Imported env held db' ∧ Roomy env db' 0 0 ∧
      ∃ latest' older', Keyring env db' latest' older' by
    obtain ⟨hrealm, himp', hroom', latest', older', hring'⟩ := hnew
    exact ⟨hrealm, himp', latest', older', hring'.keys, consistent_of himp' hring' hroom'⟩
  cases command with
  | addMKey enctype newPassword =>
    simp only [apply, bind_ok] at h
    obtain ⟨added, hadd, hpure⟩ := h
    cases hpure
    obtain ⟨hsame, hsize, _, hring'⟩ := hring.add hversions hactive hadd
    exact ⟨hsame.1, himp.of_keys hsame, hroom.of_keys hsame hsize.le, _, _, hring'⟩
  | useMKey kvno time =>
    simp only [apply, bind_ok] at h
    obtain ⟨used, huse, hpure⟩ := h
    cases hpure
    obtain ⟨hsame, hkeys, hring'⟩ := hring.use hversions huse
    exact ⟨hsame.1, himp.of_keys hsame, hroom.of_keys hsame (by rw [hkeys]; omega), _, _, hring'⟩
  | updatePrincipalEncryption matcher dryRun confirmed =>
    obtain ⟨mk, hmk, hretagged⟩ := updatePrincipalEncryption_retagged hring h
    obtain ⟨_, hzero, hmax⟩ := hfits mk hmk
    exact ⟨hretagged.1.1, himp.of_retagged hretagged,
      (hroom.mono le_rfl (Nat.zero_le _)).of_retagged hretagged, _, _,
        hring.of_retagged hmk hzero hmax hretagged⟩
  | purgeMKeys dryRun confirmed =>
    obtain ⟨hsame, hsub, _, _, hring'⟩ := hring.purge himp
      (fun mk hmk => ⟨(hfits mk hmk).1, hversions mk hmk⟩) hsafe h hne
    have hsize := keySize_sublist hsub
    exact ⟨hsame.1, himp.of_keys hsame, hroom.of_keys hsame (by omega), _, _, hring'⟩

/-- **Step rule.** -/
theorem Keeps.step (laws : KDB.Laws env) (integrity : KDB.Integrity env) {realm text' : Bytes}
    {call : ℤ × Bytes × MKeyCommand} (h : Keeps env held realm text)
    (hstep : MKeyStep env text call text')
    (hsafe : MKeySafe env text call) : Keeps env held realm text' := by
  rcases hstep with hrun | rfl
  · obtain ⟨db, latest, older, hc, hdump, rfl, hheld⟩ := h
    simp only [runMKeyCommand, bind_ok, mapError_ok] at hrun
    obtain ⟨store, hparse, loaded, hload, changed, happly, hwrite⟩ := hrun
    obtain ⟨hreloaded, hsound⟩ := hc.loaded laws integrity hdump hparse
    obtain ⟨⟨hrealm, hactive⟩, himp, hring⟩ := hreloaded.imported hc hsound hload
    obtain ⟨hroom, hcommand⟩ := hsafe store loaded hparse hload
    cases changed with
    | none =>
      cases hwrite
      exact ⟨db, latest, older, hc, hdump, rfl, hheld⟩
    | some db' =>
      have hfits : ∀ mk ∈ restoredKey (kmName db.realm) latest ::
        older.map (restoredKey (kmName db.realm)),
          usableKey env mk = true ∧ mk.kvno ≠ 0 ∧ mk.kvno.toNat ≤ maxUint16 := by
        intro mk hmk
        obtain ⟨mk', hmk', rfl⟩ := mem_map.1 (show mk ∈ (latest :: older).map _ from hmk)
        obtain ⟨h1, h2, h3, _⟩ := hreloaded.fits mk' hmk'
        exact ⟨h1, h2, h3⟩
      cases hkeys : db'.masterKeys with
      | nil =>
        simp only [hkeys] at hwrite
        cases hwrite
      | cons first rest =>
        simp only [hkeys] at hwrite
        obtain ⟨hrealm', himp', latest', older', hkeys', hc'⟩ :=
          MKeyCommand.apply_consistent himp hring
          hfits hactive hroom hcommand happly (by rw [hkeys]; exact cons_ne_nil _ _)
        rw [hkeys] at hkeys'
        cases hkeys'
        refine ⟨db', first, rest, hc', hwrite, hrealm'.trans hrealm, fun k hk => ?_⟩
        rw [← hheld k hk]
        unfold heldKeys
        rw [dumpedAt_imported himp']
        exact himp'.held k (by rwa [hrealm', hrealm])
  · exact h

/-! ## Runs -/

theorem Consistent.listed (laws : KDB.Laws env) {latest : Key} {older : List Key}
    (hc : Consistent env db latest older)
    (hdump : dumpWithMasterKey env db latest.enctype latest.key = .ok text) :
    ∃ raw, parse text = .ok raw ∧ (masterOf raw).map (fun km => km.keyData.map Key.kvno) =
      some ((latest :: older).map Key.kvno) := by
  obtain ⟨ml, ws, policies, rfl, lines⟩ := dump_ok laws hc.fit hdump
  simp only [dumpWithMasterKey, bind_ok, ensure_ok] at hdump
  obtain ⟨_, hrealm, _⟩ := hdump
  have hin : masterOf (parsedStore policies (ml.line :: ws)) = some ml.line.parsed :=
    lines.in_store hrealm
  refine ⟨_, (parse_dump lines hc.fit hrealm).2 ⟨⟨hc.limits, hc.keyed⟩, rfl⟩, ?_⟩
  obtain ⟨hlatest, holder⟩ := hc.lines lines
  have hkvno : (sealedKeys env ml.line.record ml.line.cts).map Key.kvno =
      ml.masterKeys.map Key.kvno :=
    ((ml.decrypts laws).map_eq fun _ _ h => h.2.1.symm).symm
  rw [hin, Option.map_some, ml.line.parsed_keyData, hkvno, MasterLine.masterKeys, hlatest, holder]

/-- **Master keys stay usable**: in every run of the commands that keeps room on the lines and
purges no newest version next to two others, the dump opens with each of its versions. -/
theorem master_keys_stay_usable (env : KDB.Env) (laws : KDB.Laws env)
    (integrity : KDB.Integrity env)
    (db : Database) (latest : Key) (older : List Key) (hc : Consistent env db latest older)
    (text₀ : Bytes) (hdump : dumpWithMasterKey env db latest.enctype latest.key = .ok text₀)
    (store₀ : FileStore)
    (hload : parseWithMasterKey env text₀ latest.enctype latest.key = .ok store₀)
    (calls : List (ℤ × Bytes × MKeyCommand)) (text : Bytes)
    (hrun : Run (Guarded (MKeyStep env) (MKeySafe env)) text₀ calls text) :
    ∃ versions, OpensWithAll env text store₀ versions := by
  obtain ⟨store, hparse, hreloaded₀⟩ := hc.load laws integrity hdump mem_cons_self
  rw [hload] at hparse
  cases hparse
  have hkeeps : Keeps env (heldKeys env db) db.realm text := by
    refine hrun.invariant ?_ ⟨db, latest, older, hc, hdump, rfl, fun _ _ => rfl⟩
    rintro t call t' ht ⟨hstep, hsafe⟩
    exact ht.step laws integrity hstep hsafe
  obtain ⟨db', latest', older', hc', hdump', hrealm, hheld⟩ := hkeeps
  refine ⟨(latest' :: older').map (restoredKey (kmName db.realm)), ?_, ?_, ?_⟩
  · simp
  · obtain ⟨raw, hraw, hlisted⟩ := hc'.listed laws hdump'
    refine ⟨raw, hraw, ?_⟩
    rw [hlisted, map_map]
    rfl
  · intro mk hmk
    obtain ⟨mk', hmk', rfl⟩ := mem_map.1 hmk
    obtain ⟨opened, hopened, hreloaded⟩ := hc'.load laws integrity hdump' hmk'
    refine ⟨opened, hopened, ?_, fun k hk => ?_⟩
    · rw [hreloaded.masterKeys, hrealm]
    · rw [hreloaded₀.realm] at hk
      rw [storedKeys_eq hreloaded (by rwa [hrealm]), hheld k hk, storedKeys_eq hreloaded₀ hk]

end MITDump

/-! ## A small database -/

namespace Small

open MITDump

def other : Principal := ⟨realm, NTPrincipal, [str "d"]⟩

/-- Two clients, sealed under the first master key. -/
def twoClients : Database :=
  database.put { name := other, keys := (∅ : GoMap Int32 Key).insert 18 (key 1 8), kvno := 1 }

/-- The first master key, of the password `[9]`. -/
def firstKey : Key := ⟨18, 1, [9], realm ++ str "KM"⟩

/-- Rotation to a second version: only one of the clients is sealed under it. A third version
is added, and the unused one purged with the password of the second. -/
def purgeNewest : List (ℤ × Bytes × MKeyCommand) :=
  [(5 * second, [9], .addMKey 18 [10]), (5 * second, [9], .useMKey 2 none),
    (5 * second, [9], .updatePrincipalEncryption (fun name => name == str "c@R") false true),
    (5 * second, [9], .addMKey 18 [11]), (5 * second, [10], .purgeMKeys false true)]

/-- The dump after the calls, if none of them fails. -/
def afterCalls (calls : List (ℤ × Bytes × MKeyCommand)) : Except String Bytes := do
  let text ← dumpWithMasterKey env twoClients 18 [9]
  calls.foldlM (fun text call => runMKeyCommand env call.1 text call.2.1 call.2.2) text

theorem run_of_foldlM {calls : List (ℤ × Bytes × MKeyCommand)} {text' : Bytes}
    (h : calls.foldlM (fun text call => runMKeyCommand env call.1 text call.2.1 call.2.2) text =
      .ok text') : Run (MKeyStep env) text calls text' := by
  induction calls generalizing text with
  | nil =>
    cases h
    exact .nil _
  | cons call calls ih =>
    rw [foldlM_cons, bind_ok] at h
    obtain ⟨mid, hmid, h⟩ := h
    exact .cons (.inl hmid) (ih h)

/-- What is left of the first version then: it is listed, and does not open the dump. -/
def lockedOut : Except String Bool := do
  let text ← afterCalls purgeNewest
  let store ← parseWithMasterKey env text 18 [10]
  pure (decide (firstKey ∈ store.masterKeys) && !(parseWithMasterKey env text 18 [9]).isOk)

/-- The purge of an unused newest version locks out an older one that stays. -/
theorem purge_locks_out : ∃ text₀ text store, dumpWithMasterKey env twoClients 18 [9] = .ok text₀ ∧
    Run (MKeyStep env) text₀ purgeNewest text ∧ parseWithMasterKey env text 18 [10] = .ok store ∧
    firstKey ∈ store.masterKeys ∧
    ¬ ∃ opened, parseWithMasterKey env text firstKey.enctype firstKey.key = .ok opened := by
  have hrun : lockedOut = .ok true := by decide +kernel
  simp only [lockedOut, afterCalls, bind_ok] at hrun
  obtain ⟨text, ⟨text₀, hdump, hcalls⟩, store, hparse, hpure⟩ := hrun
  have hlocked := ok.inj hpure
  rw [and_eq_true, decide_eq_true_eq] at hlocked
  refine ⟨text₀, text, store, hdump, run_of_foldlM hcalls, hparse, hlocked.1, ?_⟩
  rintro ⟨opened, hopened⟩
  have hfails := hlocked.2
  rw [show parseWithMasterKey env text 18 [9] = .ok opened from hopened] at hfails
  cases hfails

/-- The room condition of the commands, as a check. -/
def checkRoomy (db : Database) : Bool :=
  db.principals.entries.all (fun e => e.2.name.format.toOption.all fun name =>
    decide (recordRoom env e.2 name + 68 < maxLineSize)) &&
  (kmName db.realm).format.toOption.all fun name =>
    decide (512 + name.length + 3 * 131134 + keySize db.masterKeys +
      (512 + 2 * (db.realm.length + 2)) < maxLineSize)

theorem roomy_of_check (h : checkRoomy db = true) :
    Roomy env db 68 (512 + 2 * (db.realm.length + 2)) := by
  rw [checkRoomy, and_eq_true, all_eq_true] at h
  refine ⟨fun k r hr name hname => ?_, fun name hname => ?_⟩
  · have := h.1 ⟨k, r⟩ (AList.lookup_eq_some_iff.1 hr)
    rw [toOption_some.2 hname] at this
    exact of_decide_eq_true this
  · have := h.2
    rw [toOption_some.2 hname] at this
    exact of_decide_eq_true this

/-- The condition on one call, as a check. -/
def checkSafe (text : Bytes) (call : ℤ × Bytes × MKeyCommand) : Except String Bool := do
  let store ← parseWithMasterPassword env text call.2.1
  let db ← (loadMutable store).mapError fun _ => "load"
  pure (checkRoomy db && match call.2.2 with
    | .purgeMKeys _ _ => decide (NewestUsed db)
    | _ => true)

theorem safe_of_check {call : ℤ × Bytes × MKeyCommand}
    (h : checkSafe text call = .ok true) : MKeySafe env text call := by
  intro store db hparse hload
  simp only [checkSafe, hparse, hload, ok_bind] at h
  have h := ok.inj h
  rw [and_eq_true] at h
  refine ⟨roomy_of_check h.1, ?_⟩
  obtain ⟨now, password, command⟩ := call
  cases command with
  | purgeMKeys dryRun confirmed => exact (decide_eq_true_iff).1 h.2
  | addMKey enctype newPassword => trivial
  | useMKey kvno time => trivial
  | updatePrincipalEncryption matcher dryRun confirmed => trivial

/-- Calls that are checked before they are made. -/
def checkedCalls (text : Bytes) : List (ℤ × Bytes × MKeyCommand) → Except String Bytes
  | [] => .ok text
  | call :: calls => do
    let safe ← checkSafe text call
    Except.ensure (safe = true) "unsafe"
    let text ← runMKeyCommand env call.1 text call.2.1 call.2.2
    checkedCalls text calls

theorem run_of_checkedCalls {calls : List (ℤ × Bytes × MKeyCommand)} {text' : Bytes}
    (h : checkedCalls text calls = .ok text') :
    Run (Guarded (MKeyStep env) (MKeySafe env)) text calls text' := by
  induction calls generalizing text with
  | nil =>
    cases h
    exact .nil _
  | cons call calls ih =>
    simp only [checkedCalls, bind_ok, ensure_ok] at h
    obtain ⟨safe, hsafe, _, rfl, mid, hmid, h⟩ := h
    exact .cons ⟨.inl hmid, safe_of_check hsafe⟩ (ih h)

/-- Rotation to a second version, under which all clients are sealed; the first is purged. -/
def rotate : List (ℤ × Bytes × MKeyCommand) :=
  [(5 * second, [9], .addMKey 18 [10]), (5 * second, [9], .useMKey 2 none),
    (5 * second, [10], .updatePrincipalEncryption (fun _ => true) false true),
    (5 * second, [10], .purgeMKeys false true)]

theorem consistent_twoClients : Consistent env twoClients firstKey [] := by
  have hchecks : checkDumpable twoClients = true ∧
      (twoClients.principals.entries.all fun e => decide (wrapVersion e.2 = 1) &&
        !isKMPrincipal e.2.name && decide (dumpedKeys env e.2 ≠ [])) = true := by decide +kernel
  have hrecords : ∀ k r, twoClients.principals.lookup k = some r →
      wrapVersion r = 1 ∧ isKMPrincipal r.name = false ∧ dumpedKeys env r ≠ [] := by
    intro k r hr
    have := all_eq_true.1 hchecks.2 ⟨k, r⟩ (AList.lookup_eq_some_iff.1 hr)
    rw [and_eq_true, and_eq_true, decide_eq_true_eq, decide_eq_true_eq,
      not_eq_true'] at this
    exact ⟨this.1.1, this.1.2, this.2⟩
  refine ⟨rfl, dumpable_of_check hchecks.1, fun k p hp => ?_, fun record hrecord => ?_, .inl rfl,
    fun k r hr => ?_, fun value hvalue => ?_, fun k r hr hkm => ?_⟩
  · cases hp
  · obtain ⟨⟨k, hk⟩, _⟩ := mem_dumpedRecords.1 hrecord
    exact (hrecords k record hk).2.2
  · exact ⟨firstKey, mem_cons_self, (hrecords k r hr).1.symm⟩
  · cases hvalue
  · rw [(hrecords k r hr).2.1] at hkm
    cases hkm

/-- The whole rotation, with the first load. -/
def rotated : Except String (Bytes × FileStore × Bytes) := do
  let text₀ ← dumpWithMasterKey env twoClients 18 [9]
  let store₀ ← parseWithMasterKey env text₀ 18 [9]
  let text ← checkedCalls text₀ rotate
  pure (text₀, store₀, text)

theorem master_keys_stay_usable_small : ∃ text₀ store₀ text versions,
    dumpWithMasterKey env twoClients 18 [9] = .ok text₀ ∧
    Run (Guarded (MKeyStep env) (MKeySafe env)) text₀ rotate text ∧
      OpensWithAll env text store₀ versions := by
  obtain ⟨⟨text₀, store₀, text⟩, hrun⟩ :=
    isOk_iff.1 (show rotated.isOk = true by decide +kernel)
  simp only [rotated, bind_ok] at hrun
  obtain ⟨text₀', hdump, store₀', hload, text', hcalls, hpure⟩ := hrun
  cases hpure
  have hguarded := run_of_checkedCalls hcalls
  obtain ⟨versions, hopens⟩ := master_keys_stay_usable env laws integrity twoClients firstKey []
    consistent_twoClients text₀ hdump store₀ hload rotate text hguarded
  exact ⟨text₀, store₀, text, versions, hdump, hguarded, hopens⟩

end Small

end Kerberos
