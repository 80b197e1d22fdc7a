import Kerberos.Lib.Run
import Kerberos.Proof.KeyChanges
import Kerberos.Spec.SmallKDB

/-!
# Key versions advance

Creating principals, changing passwords, randomizing, setting and purging keys: the version
of a record never goes down, its keys and those of its password history are at versions it has
reached, and the keys of a new password or of a randomization are at a version the principal
never had (`Advancing`).

The next version is one more in 32 bits. `SetKeys` takes any version, so a record can be at
the last one, and a password change then starts again at zero (`version_wraps`). That is the
only way to fail: `versions_advance_iff`.
-/

namespace Kerberos

open Transition List AList

/-- The last key version. -/
def lastKVNO : UInt32 := 0xffffffff

theorem toNat_add_one {v : UInt32} (h : v ≠ lastKVNO) : (v + 1).toNat = v.toNat + 1 := by
  have hlt := v.toNat_lt
  have hne : v.toNat ≠ 4294967295 := fun hv => h (UInt32.toNat_inj.1 hv)
  change (v.toNat + 1) % 2 ^ 32 = _
  omega

namespace DBCall

/-- The calls that create principals or change their keys, but for `UpdatePrincipal`. -/
def Versioning : DBCall → Prop
  | createPrincipal .. => True
  | keys (.updatePrincipal ..) => False
  | keys _ => True
  | _ => False

/-- The call makes a new key of the enctype for the principal with this key in the database. -/
def Renews (principal : Bytes) (e : Int32) : DBCall → Prop
  | keys (.changePassword name ..) => canonical name = principal
  | keys (.randomizeKeys _ name keepOld tuples) => canonical name = principal ∧
      (keepOld = false ∨ tuples = [] ∨ e ∈ tuples.map KeySaltTuple.enctype)
  | _ => False

/-- The principal whose version the call raises by one is not at the last version. -/
def HasRoom (db : Database) : DBCall → Prop
  | keys (.changePassword name ..) => ∀ r, db.lookup name = some r → r.kvno ≠ lastKVNO
  | keys (.randomizeKeys _ name ..) => ∀ r, db.lookup name = some r → r.kvno ≠ lastKVNO
  | _ => True

end DBCall

namespace Database

/-- The keys of the record are filed under their enctypes, and all its key sets, those of the
history too, are at versions it has reached. -/
structure Keyed (r : PrincipalRecord) : Prop where
  filed : ∀ e k, r.keys.lookup e = some k → k.enctype = e
  versions : ∀ keys ∈ keySets r, ∀ e k, keys.lookup e = some k → k.kvno.toNat ≤ r.kvno.toNat

/-- All records are. -/
def Versioned (db : Database) : Prop :=
  ∀ principal r, db.principals.lookup principal = some r → Keyed r

/-- No principal is gone, and no version is lower. -/
def NotLower (db db' : Database) : Prop :=
  ∀ principal r, db.principals.lookup principal = some r →
    ∃ r', db'.principals.lookup principal = some r' ∧ r.kvno.toNat ≤ r'.kvno.toNat

/-- The key is newer than the record and all its keys, those of the history too. -/
def NewerThan (k : Key) (r : PrincipalRecord) : Prop :=
  r.kvno.toNat < k.kvno.toNat ∧
    ∀ keys ∈ keySets r, ∀ e old, keys.lookup e = some old → old.kvno.toNat < k.kvno.toNat

/-- **Key versions advance** in a run: at every stage the keys are at versions the records
have reached, no version is lower than at an earlier stage, and a new key is newer than what
its principal had at any earlier stage. -/
structure Advancing (env : KDB.Env) (start : Database) (calls : List (ℤ × DBCall)) : Prop where
  versioned : ∀ done, done <+: calls → Versioned (DBCall.exec env start done)
  notLower : ∀ past done, past <+: done → done <+: calls →
    NotLower (DBCall.exec env start past) (DBCall.exec env start done)
  newer : ∀ past done call db', past <+: done → done ++ [call] <+: calls →
    call.2.apply env call.1 (DBCall.exec env start done) = .ok db' →
    ∀ principal e k r r', call.2.Renews principal e → db'.principals.lookup principal = some r' →
      r'.keys.lookup e = some k →
        (DBCall.exec env start past).principals.lookup principal = some r →
      NewerThan k r

variable {env : KDB.Env} {db db' : Database} {now : ℤ}

theorem NotLower.refl (db : Database) : NotLower db db := fun _ r hr => ⟨r, hr, le_rfl⟩

theorem NotLower.trans {a b c : Database} (hab : NotLower a b) (hbc : NotLower b c) :
    NotLower a c := by
  intro principal r hr
  obtain ⟨r', hr', hle⟩ := hab principal r hr
  obtain ⟨r'', hr'', hle'⟩ := hbc principal r' hr'
  exact ⟨r'', hr'', hle.trans hle'⟩

/-! ## One record -/

theorem keyed_of_keysAt {r : PrincipalRecord} (h : KeysAt r.kvno r.keys)
    (hhistory : ∀ keys ∈ r.passwordHistory,
      ∀ e k, keys.lookup e = some k → k.kvno.toNat ≤ r.kvno.toNat) : Keyed r := by
  refine ⟨fun e k hk => (h e k hk).1, fun keys hkeys e k hk => ?_⟩
  rcases mem_cons.1 hkeys with rfl | hold
  · rw [(h e k hk).2]
  · exact hhistory keys hold e k hk

variable {out : PrincipalRecord} {keepOld : Bool}

/-- Keys filed next to or in place of those of a record. -/
theorem keyed_withKeys {current : PrincipalRecord} {made : List Key}
    (h : Keyed current) (hfiled : KeysFiled keepOld made current out)
    (hle : current.kvno.toNat ≤ out.kvno.toNat)
    (hmade : ∀ k ∈ made, k.kvno.toNat ≤ out.kvno.toNat) : Keyed out := by
  have hkeys : ∀ e k, out.keys.lookup e = some k → k.enctype = e ∧
      k.kvno.toNat ≤ out.kvno.toNat := by
    intro e k hk
    rw [hfiled.keys] at hk
    rcases lookup_filed hk with ⟨hmem, he⟩ | ⟨hold, _⟩
    · exact ⟨he, hmade k hmem⟩
    · cases keepOld with
      | true => exact ⟨h.filed e k hold, (h.versions _ mem_cons_self e k hold).trans hle⟩
      | false => simp at hold
  refine ⟨fun e k hk => (hkeys e k hk).1, fun keys hmem e k hk => ?_⟩
  rcases mem_cons.1 hmem with rfl | hold
  · exact (hkeys e k hk).2
  · rw [hfiled.history] at hold
    exact (h.versions keys (mem_cons_of_mem _ hold) e k hk).trans hle

/-! ## One call -/

/-- What a call of the kind makes of the database: it files one keyed record; the one there
was before had no higher version, and keys it renews are at a version above the old one. -/
structure Filed (db : Database) (call : DBCall) (out : PrincipalRecord) (db' : Database) :
    Prop where
  principals : db'.principals = db.principals.insert (canonical out.name) out
  keyed : Keyed out
  notLower : ∀ r, db.principals.lookup (canonical out.name) = some r → r.kvno.toNat ≤ out.kvno.toNat
  renewed : ∀ principal e k, call.Renews principal e → principal = canonical out.name ∧
    (out.keys.lookup e = some k → ∀ r, db.principals.lookup principal = some r →
      r.kvno.toNat < k.kvno.toNat)

variable {tuples : List KeySaltTuple}

theorem filed_createPrincipal {name password : Bytes} {policy : Option PolicyRecord}
    (h : db.createPrincipalWithTuples env now name password tuples policy = .ok db') :
    ∃ out, Filed db (.createPrincipal name password tuples policy) out db' := by
  simp only [createPrincipalWithTuples, Except.bind_ok, Except.ensure_ok] at h
  obtain ⟨parsed, _, record, hrecord, _, hnone, h⟩ := h
  obtain ⟨hname, _, hkvno, hkeys, hhistory⟩ := deriveRecord_keysAt hrecord
  have hfresh : ∀ r, db.principals.lookup (canonical record.name) = some r → False := by
    intro r hr
    rw [hname] at hr
    have : (db.lookup parsed).isNone = true := hnone
    rw [lookup, hr] at this
    cases this
  have hkeyed : Keyed record := by
    refine keyed_of_keysAt (by rw [hkvno]; exact hkeys) ?_
    rw [hhistory]
    exact fun keys hmem => absurd hmem not_mem_nil
  cases policy with
  | none =>
    cases h
    exact ⟨record, rfl, hkeyed, fun r hr => (hfresh r hr).elim, fun _ _ _ h => h.elim⟩
  | some given =>
    simp only [Except.bind_ok] at h
    obtain ⟨policy, _, hpure⟩ := h
    cases hpure
    exact ⟨_, rfl, ⟨hkeyed.filed, hkeyed.versions⟩, fun r hr => (hfresh r hr).elim,
      fun _ _ _ h => h.elim⟩

variable {name : Principal}

/-- A record filed under the name of the one found takes its place. -/
theorem replaces_of_lookup {current : PrincipalRecord}
    (h : db.lookup name = some current) (hname : out.name = current.name) :
    canonical out.name = canonical name ∧
      ∀ r, db.principals.lookup (canonical out.name) = some r → r = current := by
  have hwhere : canonical out.name = canonical name := by
    rw [hname]
    exact db.principals_canonical _ _ h
  refine ⟨hwhere, fun r hr => ?_⟩
  rw [hwhere] at hr
  exact Option.some.inj (hr.symm.trans h)

theorem filed_changePassword {password : Bytes} {at_ : ℤ} {policy : Option PolicyRecord}
    {bypassMinLife : Bool}
    (hversioned : Versioned db) (hroom : ∀ r, db.lookup name = some r → r.kvno ≠ lastKVNO)
    (h : db.changePasswordWithTuples env now name password at_ policy bypassMinLife keepOld tuples =
      .ok db') :
    ∃ out,
      Filed db (.keys (.changePassword name password at_ policy bypassMinLife keepOld tuples)) out
      db' := by
  obtain ⟨current, out, hlookup, hout, rfl⟩ := modify_ok.1 h
  have hchanged := changedPassword_ok hout
  have hkeys := candidateKeys_keysAt hchanged.keys
  rw [← hchanged.kvno] at hkeys
  have hnext : out.kvno.toNat = current.kvno.toNat + 1 := by
    rw [hchanged.kvno, toNat_add_one (hroom current hlookup)]
  obtain ⟨hwhere, hold⟩ := replaces_of_lookup hlookup hchanged.same.1
  have hkeyed : Keyed out := by
    refine keyed_of_keysAt hkeys fun keys hmem e k hk => ?_
    rw [hchanged.history] at hmem
    have hle := (hversioned _ _ hlookup).versions keys (mem_keySets_of_kept hmem) e k hk
    omega
  refine ⟨out, rfl, hkeyed, ?_, ?_⟩
  · intro r hr
    rw [hold r hr, hnext]
    exact Nat.le_succ _
  · rintro principal e k rfl
    refine ⟨hwhere.symm, fun hk r hr => ?_⟩
    rw [hold r (hwhere ▸ hr), (hkeys e k hk).2, hnext]
    exact Nat.lt_succ_self _

theorem filed_randomizeKeys {entropy : Entropy} (hversioned : Versioned db)
    (hroom : ∀ r, db.lookup name = some r → r.kvno ≠ lastKVNO)
    (h : db.randomizeKeysWithKeySalts env now entropy name keepOld tuples = .ok db') :
    ∃ out, Filed db (.keys (.randomizeKeys entropy name keepOld tuples)) out db' := by
  obtain ⟨normalized, made, current, out, hnormalized, hlookup, hmade, hfiled, hkvno, rfl⟩ :=
    randomizeKeys_ok h
  obtain ⟨hversion, henctypes⟩ := generatedKeys_ok hmade
  have hnext : out.kvno.toNat = current.kvno.toNat + 1 := by
    rw [hkvno, toNat_add_one (hroom current hlookup)]
  obtain ⟨hwhere, hold⟩ := replaces_of_lookup hlookup hfiled.same.1
  have hmadeAt : ∀ k ∈ made, k.kvno.toNat = out.kvno.toNat :=
    fun k hk => by rw [hversion k hk, hkvno]
  refine ⟨out, rfl, keyed_withKeys (hversioned _ _ hlookup) hfiled (by omega) fun k hk =>
    (hmadeAt k hk).le,
    ?_, ?_⟩
  · intro r hr
    rw [hold r hr, hnext]
    exact Nat.le_succ _
  · rintro principal e k ⟨rfl, hrenewed⟩
    refine ⟨hwhere.symm, fun hk r hr => ?_⟩
    rw [hold r (hwhere ▸ hr)]
    rw [hfiled.keys] at hk
    rcases lookup_filed hk with ⟨hmem, _⟩ | ⟨hkept, hother⟩
    · rw [hmadeAt k hmem, hnext]
      exact Nat.lt_succ_self _
    · -- a key that was kept has an enctype for which none was made
      exfalso
      have hnone : e ∉ made.map Key.enctype := by
        rintro hmem
        obtain ⟨k', hk', rfl⟩ := mem_map.1 hmem
        exact hother k' hk' rfl
      rw [henctypes] at hnone
      cases keepOld with
      | false => simp at hkept
      | true =>
        rcases hrenewed with hkeep | rfl | he
        · cases hkeep
        · cases hnormalized
          exact hnone (mem_keys.1 (lookup_isSome.1 (Option.isSome_of_mem hkept)))
        · have hmem : e ∈ normalized.map KeySaltTuple.enctype := by
            obtain ⟨t, ht, rfl⟩ := mem_map.1 he
            exact mem_map_of_mem ((mem_normalized hnormalized).2 ht)
          have hne : normalized ≠ [] := by
            rintro rfl
            cases hmem
          rw [if_neg hne] at hnone
          exact hnone hmem

theorem filed_setKeys {keys : List Key} (hversioned : Versioned db)
    (h : db.setKeys now name keys keepOld = .ok db') :
    ∃ out, Filed db (.keys (.setKeys name keys keepOld)) out db' := by
  obtain ⟨current, out, hlookup, hfiled, hkvno, rfl⟩ := setKeys_ok h
  -- the version `SetKeys` ends with is the largest
  obtain ⟨hle, hmade⟩ : current.kvno.toNat ≤ out.kvno.toNat ∧
      ∀ k ∈ versionedKeys current keys, k.kvno.toNat ≤ out.kvno.toNat := by
    rw [hkvno]
    refine le_foldl (fun v key _ => ?_) current.kvno
    split_ifs with hlt
    · exact ⟨(UInt32.lt_iff_toNat_lt.1 hlt).le, le_rfl⟩
    · exact ⟨le_rfl, not_lt.1 fun h => hlt (UInt32.lt_iff_toNat_lt.2 h)⟩
  refine ⟨out, rfl, keyed_withKeys (hversioned _ _ hlookup) hfiled hle hmade, ?_,
    fun _ _ _ h => h.elim⟩
  intro r hr
  rw [(replaces_of_lookup hlookup hfiled.same.1).2 r hr]
  exact hle

theorem filed_purgeKeys {keepKVNO : Int32} (hversioned : Versioned db)
    (h : db.purgeKeys now name keepKVNO = .ok db') :
    ∃ out, Filed db (.keys (.purgeKeys name keepKVNO)) out db' := by
  obtain ⟨current, keys, hlookup, _, hsub, rfl⟩ := purgeKeys_ok h
  have hkeyed := hversioned _ _ hlookup
  refine ⟨_, rfl, ⟨fun e k hk => hkeyed.filed e k (hsub e k hk), fun keys' hmem e k hk => ?_⟩, ?_,
    fun _ _ _ h => h.elim⟩
  · rcases mem_cons.1 hmem with rfl | hold
    · exact hkeyed.versions _ mem_cons_self e k (hsub e k hk)
    · exact hkeyed.versions keys' (mem_cons_of_mem _ hold) e k hk
  · intro r hr
    rw [(replaces_of_lookup hlookup rfl).2 r hr]

variable {call : DBCall}

/-- **Step rule.** -/
theorem filed_of_ok (hversioned : Versioned db) (hcall : call.Versioning)
    (hroom : call.HasRoom db) (h : call.apply env now db = .ok db') :
    ∃ out, Filed db call out db' := by
  cases call with
  | createPrincipal name password tuples policy => exact filed_createPrincipal h
  | keys call =>
    cases call with
    | changePassword name password at_ policy bypassMinLife keepOld tuples =>
      exact filed_changePassword hversioned hroom h
    | randomizeKeys entropy name keepOld tuples => exact filed_randomizeKeys hversioned hroom h
    | setKeys name keys keepOld => exact filed_setKeys hversioned h
    | purgeKeys name keepKVNO => exact filed_purgeKeys hversioned h
    | updatePrincipal record absent => exact hcall.elim
  | _ => exact hcall.elim

theorem Filed.versioned (h : Filed db call out db') (hversioned : Versioned db) :
    Versioned db' := by
  intro principal r hr
  rw [h.principals] at hr
  by_cases hp : principal = canonical out.name
  · subst hp
    rw [lookup_insert] at hr
    cases hr
    exact h.keyed
  · rw [lookup_insert_ne hp] at hr
    exact hversioned principal r hr

theorem Filed.notLower_all (h : Filed db call out db') : NotLower db db' := by
  intro principal r hr
  rw [h.principals]
  by_cases hp : principal = canonical out.name
  · subst hp
    exact ⟨out, lookup_insert .., h.notLower r hr⟩
  · exact ⟨r, by rwa [lookup_insert_ne hp], le_rfl⟩

/-- Without room the version starts again, below the one there was. -/
theorem lower_of_no_room (h : call.apply env now db = .ok db') (hroom : ¬ call.HasRoom db) :
    ¬ NotLower db db' := by
  -- a record at the last version that comes back at the version after it
  have hwraps : ∀ {name : Principal} {current out : PrincipalRecord}, db.lookup name =
    some current →
      current.kvno = lastKVNO → out.name = current.name → out.kvno = current.kvno + 1 →
      ¬ NotLower db (db.save now out) := by
    intro name current out hlookup hlast hname hkvno hle
    obtain ⟨hwhere, _⟩ := replaces_of_lookup hlookup hname
    obtain ⟨r', hr', hle⟩ := hle (canonical name) current hlookup
    rw [lookup_save, if_pos hwhere.symm] at hr'
    cases hr'
    rw [hkvno, hlast] at hle
    exact absurd hle (by decide)
  cases call with
  | keys call =>
    cases call with
    | changePassword name password at_ policy bypassMinLife keepOld tuples =>
      obtain ⟨current, out, hlookup, hout, rfl⟩ := modify_ok.1 h
      have hchanged := changedPassword_ok hout
      simp only [DBCall.HasRoom, not_forall, not_not] at hroom
      obtain ⟨r, hr, hlast⟩ := hroom
      cases hr.symm.trans hlookup
      exact hwraps hlookup hlast hchanged.same.1 hchanged.kvno
    | randomizeKeys entropy name keepOld tuples =>
      obtain ⟨normalized, made, current, out, _, hlookup, _, hfiled, hkvno, rfl⟩ :=
        randomizeKeys_ok h
      simp only [DBCall.HasRoom, not_forall, not_not] at hroom
      obtain ⟨r, hr, hlast⟩ := hroom
      cases hr.symm.trans hlookup
      exact hwraps hlookup hlast hfiled.same.1 hkvno
    | _ => exact absurd trivial hroom
  | _ => exact absurd trivial hroom

/-! ## Runs -/

/-- Every successful call of the run finds room. -/
def AllHaveRoom (env : KDB.Env) (start : Database) (calls : List (ℤ × DBCall)) : Prop :=
  ∀ done call db', done ++ [call] <+: calls →
    call.2.apply env call.1 (DBCall.exec env start done) = .ok db' →
      call.2.HasRoom (DBCall.exec env start done)

section Room

variable {start : Database} {calls : List (ℤ × DBCall)} (hstart : Versioned start)
  (hcalls : ∀ call ∈ calls, call.2.Versioning) (hroom : AllHaveRoom env start calls)

include hcalls hroom

theorem filed_run {done : List (ℤ × DBCall)} {call : ℤ × DBCall} (hdone : done ++ [call] <+: calls)
    (hversioned : Versioned (DBCall.exec env start done))
    (hok : call.2.apply env call.1 (DBCall.exec env start done) = .ok db') :
    ∃ out, Filed (DBCall.exec env start done) call.2 out db' :=
  filed_of_ok hversioned (hcalls call (hdone.subset (mem_append_right _ mem_cons_self)))
    (hroom done call db' hdone hok) hok

include hstart

theorem versioned_run {done : List (ℤ × DBCall)} :
    done <+: calls → Versioned (DBCall.exec env start done) := by
  refine stages_invariant hstart fun done call hdone hv => DBCall.next_cases hv fun db' hok => ?_
  obtain ⟨out, h⟩ := filed_run hcalls hroom hdone hv hok
  exact h.versioned hv

theorem notLower_run {past done : List (ℤ × DBCall)} : past <+: done → done <+: calls →
    NotLower (DBCall.exec env start past) (DBCall.exec env start done) := by
  refine stages_related NotLower.refl (fun _ _ _ => NotLower.trans) fun done call hdone =>
    DBCall.next_cases (NotLower.refl _) fun db' hok => ?_
  have hversioned := versioned_run hstart hcalls hroom ((prefix_append _ _).trans hdone)
  obtain ⟨out, h⟩ := filed_run hcalls hroom hdone hversioned hok
  exact h.notLower_all

end Room

/-- **Key versions advance exactly as long as no principal is taken past the last version.** -/
theorem versions_advance_iff (env : KDB.Env) (start : Database) (calls : List (ℤ × DBCall))
    (hstart : Versioned start) (hcalls : ∀ call ∈ calls, call.2.Versioning) :
    Advancing env start calls ↔ AllHaveRoom env start calls := by
  constructor
  · intro h done call db' hdone hok
    by_contra hroom
    refine lower_of_no_room hok hroom ?_
    have hle := h.notLower done (done ++ [call]) (prefix_append _ _) hdone
    rwa [DBCall.exec_concat, DBCall.next_of_ok hok] at hle
  · intro hroom
    refine ⟨fun _ => versioned_run hstart hcalls hroom,
      fun _ _ => notLower_run hstart hcalls hroom, ?_⟩
    intro past done call db' hpast hdone hok principal e k r r' hrenews hr' hk hr
    have hbefore : done <+: calls := (prefix_append _ _).trans hdone
    obtain ⟨out, hfiled⟩ :=
      filed_run hcalls hroom hdone (versioned_run hstart hcalls hroom hbefore) hok
    obtain ⟨hwhere, hnewer⟩ := hfiled.renewed principal e k hrenews
    rw [hfiled.principals, hwhere, lookup_insert] at hr'
    cases hr'
    -- the record just before the call is at least at the version of the earlier stage
    obtain ⟨mid, hmid, hle⟩ := notLower_run hstart hcalls hroom hpast hbefore principal r hr
    have hlt : r.kvno.toNat < k.kvno.toNat := hle.trans_lt (hnewer hk mid hmid)
    refine ⟨hlt, fun keys hkeys e' old hold => ?_⟩
    have hkeyed := versioned_run hstart hcalls hroom (hpast.trans hbefore) _ r hr
    exact (hkeyed.versions keys hkeys e' old hold).trans_lt hlt

end Database

namespace Small

open Database

/-- A database with the client at version one. -/
def oneClient : Database :=
  (newDatabase realm).put { name := client, keys := keyMapOf [key 1 7], kvno := 1 }

theorem versioned_oneClient : Versioned oneClient := by
  intro principal r hr
  have hr' : ((∅ : GoMap Bytes PrincipalRecord).insert (canonical client)
    { name := client, keys := keyMapOf [key 1 7], kvno := 1 }).lookup principal = some r := hr
  by_cases hp : principal = canonical client
  · subst hp
    cases hr'
    exact keyed_of_keysAt (keysAt_keyMapOf (by decide)) fun keys hmem => absurd hmem not_mem_nil
  · rw [lookup_insert_ne hp] at hr'
    simp at hr'

/-- A new password for the client. -/
def changeTo (password : String) : ℤ × DBCall :=
  (0, .keys (.changePassword client (str password) 0 none false false [⟨18, 0⟩]))

/-- Keys at the last version, then a new password. -/
def wrapCalls : List (ℤ × DBCall) :=
  [(0, .keys (.setKeys client [key lastKVNO 8] false)), changeTo "x"]

/-- The password change after the last version gives version zero. -/
theorem version_wraps : Versioned oneClient ∧ (∀ call ∈ wrapCalls, call.2.Versioning) ∧
    ¬ Advancing env oneClient wrapCalls := by
  refine ⟨versioned_oneClient, by simp [wrapCalls, changeTo, DBCall.Versioning], fun h => ?_⟩
  have hset :
    ((DBCall.exec env oneClient (wrapCalls.take 1)).principals.lookup (canonical client)).map
      PrincipalRecord.kvno = some lastKVNO := by decide +kernel
  obtain ⟨r, hr, hlast⟩ := Option.map_eq_some_iff.1 hset
  obtain ⟨r', hr', hle⟩ := h.notLower (wrapCalls.take 1) wrapCalls (List.take_prefix _ _)
    (prefix_refl _) (canonical client) r hr
  have hkvno : ((DBCall.exec env oneClient wrapCalls).principals.lookup (canonical client)).map
      PrincipalRecord.kvno = some 0 := by decide +kernel
  rw [hr', Option.map_some, Option.some.injEq] at hkvno
  rw [hkvno, hlast] at hle
  exact absurd hle (by decide)

/-- Two passwords in a row. -/
def twoChanges : List (ℤ × DBCall) := [changeTo "x", changeTo "y"]

theorem versioning_twoChanges : ∀ call ∈ twoChanges, call.2.Versioning := by
  simp [twoChanges, changeTo, DBCall.Versioning]

theorem room_twoChanges : AllHaveRoom env oneClient twoChanges := by
  rintro done call db' ⟨rest, hrest⟩ -
  have hroom : ∀ calls : List (ℤ × DBCall), calls ∈ [[], [changeTo "x"]] →
      ((DBCall.exec env oneClient calls).lookup client).map PrincipalRecord.kvno ≠
        some lastKVNO := by
    decide +kernel
  have hfits : ∀ calls ∈ [[], [changeTo "x"]], ∀ password, (changeTo password).2.HasRoom
      (DBCall.exec env oneClient calls) := by
    intro calls hcalls password r hr hlast
    exact hroom calls hcalls (by rw [hr, Option.map_some, hlast])
  rcases done with _ | ⟨first, _ | ⟨second, done⟩⟩
  · cases hrest
    exact hfits [] (by simp) "x"
  · cases hrest
    exact hfits [changeTo "x"] (by simp) "y"
  · simp [twoChanges] at hrest

/-- Each is at the next version. -/
theorem versions_advance_twice : Advancing env oneClient twoChanges :=
  (versions_advance_iff env oneClient twoChanges versioned_oneClient versioning_twoChanges).2
    room_twoChanges

end Small

end Kerberos
