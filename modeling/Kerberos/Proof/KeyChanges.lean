import Kerberos.Lib.Map
import Kerberos.Spec.Calls

/-!
# What the key calls make of a record

One lemma for each operation on the keys of a principal, which says all that a successful
call does to the record: the new keys with their versions, and the key sets that stay in the
password history (`keptHistory`). What a call leaves alone is in the same lemma.
-/

namespace Kerberos

open List Except AList

theorem entries_ne_nil_iff {κ α : Type} {m : GoMap κ α} : m.entries ≠ [] ↔ ∃ k, k ∈ m := by
  constructor
  · intro h
    obtain ⟨e, he⟩ := exists_mem_of_ne_nil _ h
    exact ⟨e.1, mem_keys.2 (mem_keys_of_mem he)⟩
  · rintro ⟨k, hk⟩ hnil
    rw [AList.mem_keys, AList.keys, hnil] at hk
    simp at hk

theorem ne_nil_of_mapM {α β ε : Type} {f : α → Except ε β} {l : List α} {out : List β}
    (h : l.mapM f = .ok out) (hne : l ≠ []) : out ≠ [] := by
  rw [← length_pos_iff, ← (mapM_ok.1 h).length_eq]
  exact length_pos_iff.2 hne

variable {keys : List Key}

/-- The key under an enctype is the last one filed there, or the one there was. -/
theorem lookup_filed {m : GoMap Int32 Key} {e : Int32} {k : Key}
    (h : (keys.foldl (fun m k => m.insert k.enctype k) m).lookup e = some k) :
    (k ∈ keys ∧ k.enctype = e) ∨ (m.lookup e = some k ∧ ∀ k' ∈ keys, k'.enctype ≠ e) := by
  induction keys generalizing m with
  | nil => exact .inr ⟨h, by simp⟩
  | cons key keys ih =>
    rcases ih h with ⟨hmem, he⟩ | ⟨hold, hother⟩
    · exact .inl ⟨mem_cons_of_mem _ hmem, he⟩
    · by_cases he : e = key.enctype
      · subst he
        rw [lookup_insert] at hold
        cases hold
        exact .inl ⟨mem_cons_self, rfl⟩
      · rw [lookup_insert_ne he] at hold
        refine .inr ⟨hold, ?_⟩
        intro k' hk'
        rcases mem_cons.1 hk' with rfl | hk'
        · exact Ne.symm he
        · exact hother k' hk'

/-- Keys filed under their enctypes: each sits under its own. -/
theorem lookup_keyMapOf_mem {e : Int32} {k : Key} (h : (keyMapOf keys).lookup e = some k) :
    k ∈ keys ∧ k.enctype = e := by
  rcases lookup_filed h with h | ⟨h, _⟩
  · exact h
  · simp at h

namespace Database

variable {env : KDB.Env} {db db' : Database} {now : ℤ}

theorem lookup_save (record : PrincipalRecord) (k : Bytes) :
    (db.save now record).principals.lookup k =
    if k = canonical record.name then some record else db.principals.lookup k := by
  show (db.principals.insert (canonical record.name) record).lookup k = _
  split_ifs with hk
  · rw [hk, lookup_insert]
  · exact lookup_insert_ne hk

variable {name : Principal}

theorem modify_ok {f : PrincipalRecord → Except DBError PrincipalRecord} :
    db.modify now name f = .ok db' ↔ ∃ current record, db.lookup name = some current ∧
      f current = .ok record ∧ db' = db.save now record := by
  simp only [modify, find, bind_ok, ofOption_ok]
  constructor
  · rintro ⟨current, hcurrent, record, hrecord, hpure⟩
    exact ⟨current, record, hcurrent, hrecord, (ok.inj hpure).symm⟩
  · rintro ⟨current, record, hcurrent, hrecord, rfl⟩
    exact ⟨current, hcurrent, record, hrecord, rfl⟩

/-! ## Tuples -/

variable {tuples : List KeySaltTuple} {normalized : List KeySaltTuple}

/-- A tuple is there already, or is added under an enctype of its own. -/
theorem normalizeTuple_ok {acc acc' : List KeySaltTuple} {tuple : KeySaltTuple}
    (h : normalizeTuple acc tuple = .ok acc') :
    (acc' = acc ∧ tuple ∈ acc) ∨
      (acc' = acc ++ [tuple] ∧ ∀ t ∈ acc, t.enctype ≠ tuple.enctype) := by
  unfold normalizeTuple at h
  split at h
  · next previous hfind =>
    split_ifs at h with hsalt
    cases h
    have henctype : previous.enctype = tuple.enctype := by simpa using find?_some hfind
    have hsame : previous = tuple := by
      cases previous
      simp_all
    exact .inl ⟨rfl, hsame ▸ mem_of_find?_eq_some hfind⟩
  · next hfind =>
    cases h
    exact .inr ⟨rfl, fun t ht heq => find?_eq_none.1 hfind t ht (beq_iff_eq.2 heq)⟩

/-- Normalizing tuples only drops repetitions. -/
theorem mem_normalized
    (h : normalizeKeySaltTuples tuples = .ok normalized) {t : KeySaltTuple} :
    t ∈ normalized ↔ t ∈ tuples := by
  unfold normalizeKeySaltTuples at h
  split_ifs at h
  · cases h
    exact Iff.rfl
  · constructor
    · refine foldlM_invariant (P := fun acc => ∀ t ∈ acc, t ∈ tuples) ?_ (by simp) h t
      intro acc tuple acc' htuple hacc hstep
      rcases normalizeTuple_ok hstep with ⟨rfl, _⟩ | ⟨rfl, _⟩
      · exact hacc
      · intro t ht
        rcases mem_append.1 ht with ht | ht
        · exact hacc t ht
        · rw [mem_singleton.1 ht]
          exact htuple
    · intro ht
      refine foldlM_reaches (Q := fun acc => t ∈ acc) ht
        (fun _ _ _ _ _ => trivial) ?_ ?_ trivial h
      · intro acc tuple acc' hacc hstep
        rcases normalizeTuple_ok hstep with ⟨rfl, _⟩ | ⟨rfl, _⟩
        · exact hacc
        · exact mem_append_left _ hacc
      · intro acc acc' _ hstep
        rcases normalizeTuple_ok hstep with ⟨rfl, hmem⟩ | ⟨rfl, _⟩
        · exact hmem
        · exact mem_append_right _ mem_cons_self

theorem nodup_normalized
    (h : normalizeKeySaltTuples tuples = .ok normalized) :
    (normalized.map KeySaltTuple.enctype).Nodup := by
  unfold normalizeKeySaltTuples at h
  split_ifs at h with hlen
  · cases h
    match tuples, hlen with
    | [], _ => exact nodup_nil
    | [_], _ => exact nodup_singleton _
    | _ :: _ :: _, hlen => simp at hlen
  · refine foldlM_invariant (P := fun acc => (acc.map KeySaltTuple.enctype).Nodup) ?_ (by simp) h
    intro acc tuple acc' _ hacc hstep
    rcases normalizeTuple_ok hstep with ⟨rfl, _⟩ | ⟨rfl, hother⟩
    · exact hacc
    · rw [map_append]
      refine nodup_append.2 ⟨hacc, nodup_singleton _, ?_⟩
      intro e he e' he' heq
      obtain ⟨t, ht, rfl⟩ := mem_map.1 he
      rw [mem_singleton.1 he'] at heq
      exact hother t ht heq

/-! ## New keys -/

variable {kvno : UInt32} {password : Bytes} {key : Key}

theorem deriveKey_ok {enctype : Int32} {salt recorded : Bytes} :
    deriveKey env enctype kvno password salt recorded = .ok key ↔ (env.etype enctype).isSome ∧
      ∃ value, env.stringToKey enctype password salt = some value ∧
        key = ⟨enctype, kvno, value, recorded⟩ := by
  simp only [deriveKey, bind_ok, ofOption_ok, Option.isSome_iff_exists]
  constructor
  · rintro ⟨etype, hetype, value, hvalue, hpure⟩
    exact ⟨⟨etype, hetype⟩, value, hvalue, (ok.inj hpure).symm⟩
  · rintro ⟨⟨etype, hetype⟩, value, hvalue, rfl⟩
    exact ⟨etype, hetype, value, hvalue, rfl⟩

theorem deriveTupleKey_ok {tuple : KeySaltTuple} :
    deriveTupleKey env name password kvno tuple = .ok key ↔
      ∃ salt, saltForPrincipal name tuple.saltType = .ok salt ∧
        deriveKey env tuple.enctype kvno password salt salt = .ok key := by
  simp only [deriveTupleKey, bind_ok]

/-- Every key of the map is filed under its enctype, at the given version. -/
def KeysAt (kvno : UInt32) (keys : GoMap Int32 Key) : Prop :=
  ∀ e k, keys.lookup e = some k → k.enctype = e ∧ k.kvno = kvno

theorem keysAt_keyMapOf (h : ∀ k ∈ keys, k.kvno = kvno) : KeysAt kvno (keyMapOf keys) := by
  intro e k hk
  obtain ⟨hmem, he⟩ := lookup_keyMapOf_mem hk
  exact ⟨he, h k hmem⟩

theorem deriveRecord_keysAt {record : PrincipalRecord}
    (h : deriveRecordWithTuplesAt env name password kvno tuples now = .ok record) :
    record.name = name ∧ record.policy = [] ∧ record.kvno = kvno ∧ KeysAt kvno record.keys ∧
      record.passwordHistory = [] := by
  simp only [deriveRecordWithTuplesAt, bind_ok] at h
  obtain ⟨normalized, _, keys, hkeys, hpure⟩ := h
  cases hpure
  refine ⟨rfl, rfl, rfl, keysAt_keyMapOf fun k hk => ?_, rfl⟩
  obtain ⟨tuple, _, htuple⟩ := (mapM_ok.1 hkeys).exists_right hk
  obtain ⟨salt, _, hderive⟩ := deriveTupleKey_ok.1 htuple
  obtain ⟨_, value, _, rfl⟩ := deriveKey_ok.1 hderive
  rfl

variable {current next : PrincipalRecord}

theorem nextKeys_keysAt {keys : GoMap Int32 Key} (hnext : KeysAt (current.kvno + 1) next.keys)
    (h : nextKeys env current password tuples next = .ok keys) :
    KeysAt (current.kvno + 1) keys := by
  unfold nextKeys at h
  split_ifs at h
  · simp only [deriveKeys, bind_ok] at h
    obtain ⟨derived, hderived, hpure⟩ := h
    cases hpure
    refine keysAt_keyMapOf fun k hk => ?_
    obtain ⟨_, _, hderive⟩ := (mapM_ok.1 hderived).exists_right hk
    obtain ⟨_, value, _, rfl⟩ := deriveKey_ok.1 hderive
    rfl
  · cases h
    exact hnext

/-! ## The password history -/

/-- The history a change starts from: none if it was sealed under another version of the
history key. -/
def liveHistory (env : KDB.Env) (db : Database) (current : PrincipalRecord) :
    List (GoMap Int32 Key) :=
  match db.historyKey env with
  | some key => if current.adminHistoryKVNO ≠ 0 ∧ current.adminHistoryKVNO ≠ key.kvno then []
      else current.passwordHistory
  | none => current.passwordHistory

/-- The number of old key sets a policy keeps. -/
def historyLimit (policy : PolicyRecord) (keepOld : Bool) : ℕ :=
  if keepOld ∧ policy.historyNum.toInt.toNat - 1 < 1 then 1 else policy.historyNum.toInt.toNat - 1

/-- The history a password change leaves. -/
def keptHistory (env : KDB.Env) (db : Database) (current : PrincipalRecord)
    (policy : Option PolicyRecord) (keepOld : Bool) : List (GoMap Int32 Key) :=
  match policy with
  | none => if keepOld then current.keys :: current.passwordHistory else current.passwordHistory
  | some policy =>
    if 0 < policy.historyNum.toInt then
      (current.keys :: liveHistory env db current).take (historyLimit policy keepOld)
    else current.passwordHistory

/-- The key sets of a record, the current one first. -/
def keySets (r : PrincipalRecord) : List (GoMap Int32 Key) := r.keys :: r.passwordHistory

theorem liveHistory_cases (env : KDB.Env) (db : Database) (r : PrincipalRecord) :
    liveHistory env db r = r.passwordHistory ∨ liveHistory env db r = [] := by
  unfold liveHistory
  split
  · split_ifs
    · exact .inr rfl
    · exact .inl rfl
  · exact .inl rfl

theorem mem_keySets_of_kept {env : KDB.Env} {db : Database} {r : PrincipalRecord}
    {policy : Option PolicyRecord}
    {keepOld : Bool} {keys : GoMap Int32 Key} (h : keys ∈ keptHistory env db r policy keepOld) :
    keys ∈ keySets r := by
  unfold keptHistory at h
  split at h
  · split_ifs at h
    · exact h
    · exact mem_cons_of_mem _ h
  · split_ifs at h
    · rcases mem_cons.1 (mem_of_mem_take h) with rfl | h
      · exact mem_cons_self
      · rcases liveHistory_cases env db r with hl | hl
        · exact mem_cons_of_mem _ (hl ▸ h)
        · rw [hl] at h
          cases h
    · exact mem_cons_of_mem _ h

/-- The keys repeat those of a password the policy remembers. -/
def reuses (env : KDB.Env) (db : Database) (current : PrincipalRecord) (keys : GoMap Int32 Key)
    (policy : PolicyRecord) (keepOld : Bool) : Bool :=
  passwordMatchesKeys keys current.keys ||
    ((liveHistory env db current).take (historyLimit policy keepOld)).any (passwordMatchesKeys keys)

/-- The slot the next old key set goes to. -/
def historyNext (retained : List (GoMap Int32 Key)) (limit : ℕ) : UInt32 :=
  if retained.length < limit then UInt32.ofNat retained.length else 0

/-- The last part of `changeHistory`: the history is trimmed and sealed again. -/
def sealHistory (env : KDB.Env) (db : Database) (current : PrincipalRecord) (policy : PolicyRecord)
    (keepOld : Bool) : Except DBError PrincipalRecord :=
  let retained := (current.keys :: liveHistory env db current).take (historyLimit policy keepOld)
  let adminHistoryNext := historyNext retained (historyLimit policy keepOld)
  let updated := { current with passwordHistory := retained, adminHistoryNext }
  match db.historyKey env with
  | none => pure updated
  | some key => do
    let data ← (encodeKADMData env
      { policy := if current.policy = [] then policy.name else current.policy
        auxAttributes := current.kadmAuxAttributes
        oldKeyNext := adminHistoryNext
        adminHistoryKVNO := key.kvno
        normalSalt := normalSalt current.name
        oldKeys := retained } (some key)).mapError .failed
    pure { updated with
           adminHistoryKVNO := key.kvno, tlData := replaceKADMData current.tlData data }

theorem changeHistory_eq (current next : PrincipalRecord) (policy : PolicyRecord) (keepOld : Bool) :
    db.changeHistory env current next policy keepOld = (do
      Except.ensure (¬ passwordMatchesKeys next.keys current.keys) .passwordReuse
      Except.ensure (¬ ((liveHistory env db current).take (historyLimit policy keepOld)).any
        (passwordMatchesKeys next.keys)) .passwordReuse
      sealHistory env db current policy keepOld) := rfl

variable {keepOld : Bool} {policy : PolicyRecord}

theorem changeHistory_reuse (h : reuses env db current next.keys policy keepOld = true) :
    db.changeHistory env current next policy keepOld = .error .passwordReuse := by
  rw [changeHistory_eq]
  by_cases hcurrent : passwordMatchesKeys next.keys current.keys = true
  · rw [ensure_of_not (not_not.2 hcurrent), error_bind]
  · have hold : ((liveHistory env db current).take (historyLimit policy keepOld)).any
        (passwordMatchesKeys next.keys) = true := by
      unfold reuses at h
      rw [Bool.or_eq_true] at h
      exact h.resolve_left hcurrent
    rw [ensure_bind hcurrent, ensure_of_not (not_not.2 hold), error_bind]

/-- A record after the history part of a password change. -/
def withHistory (env : KDB.Env) (db : Database) (current : PrincipalRecord)
    (history : List (GoMap Int32 Key)) (limit : ℕ) (tl : List TLData) : PrincipalRecord :=
  { current with
    passwordHistory := history
    adminHistoryNext := historyNext history limit
    adminHistoryKVNO := ((db.historyKey env).map Key.kvno).getD current.adminHistoryKVNO
    tlData := tl }

theorem changeHistory_ok {out : PrincipalRecord}
    (h : db.changeHistory env current next policy keepOld = .ok out) :
    reuses env db current next.keys policy keepOld = false ∧ ∃ tl, out = withHistory env db current
      ((current.keys :: liveHistory env db current).take (historyLimit policy keepOld))
      (historyLimit policy keepOld) tl := by
  rw [changeHistory_eq] at h
  simp only [bind_ok, ensure_ok] at h
  obtain ⟨_, hcurrent, _, hold, hseal⟩ := h
  refine ⟨by simp [reuses, hcurrent, hold], ?_⟩
  unfold sealHistory at hseal
  cases hkey : db.historyKey env with
  | none =>
    rw [hkey] at hseal
    cases hseal
    refine ⟨current.tlData, ?_⟩
    unfold withHistory
    rw [hkey]
    rfl
  | some key =>
    rw [hkey] at hseal
    simp only [bind_ok] at hseal
    obtain ⟨data, _, hpure⟩ := hseal
    cases hpure
    refine ⟨replaceKADMData current.tlData data, ?_⟩
    unfold withHistory
    rw [hkey]
    rfl

/-! ## Password changes -/

/-- The keys a password change gives the record. -/
def candidateKeys (env : KDB.Env) (current : PrincipalRecord) (password : Bytes)
    (tuples : List KeySaltTuple) (at_ : ℤ) : Except DBError (GoMap Int32 Key) := do
  let next ← deriveRecordWithTuplesAt env current.name password (current.kvno + 1) tuples at_
  nextKeys env current password tuples next

variable {at_ : ℤ}

theorem candidateKeys_keysAt
    {keys : GoMap Int32 Key} (h : candidateKeys env current password tuples at_ = .ok keys) :
    KeysAt (current.kvno + 1) keys := by
  obtain ⟨next, hnext, hkeys⟩ := bind_ok.1 h
  exact nextKeys_keysAt (deriveRecord_keysAt hnext).2.2.2.1 hkeys

/-- What the policy does to the record before the new keys are set. -/
structure PolicyApplied (env : KDB.Env) (db : Database) (current mid : PrincipalRecord)
    (keys : GoMap Int32 Key) (policy : PolicyRecord) (keepOld : Bool) : Prop where
  history : mid.passwordHistory = keptHistory env db current (some policy) keepOld
  adminKVNO : 0 < policy.historyNum.toInt →
    mid.adminHistoryKVNO = ((db.historyKey env).map Key.kvno).getD current.adminHistoryKVNO
  fresh : 0 < policy.historyNum.toInt → reuses env db current keys policy keepOld = false
  same : mid.name = current.name ∧ mid.policy = current.policy ∧ mid.keyData = current.keyData

theorem applyPolicy_ok {mid : PrincipalRecord} {bypassMinLife : Bool}
    (h : db.applyPolicy env at_ current next password policy bypassMinLife keepOld = .ok mid) :
    PolicyApplied env db current mid next.keys policy keepOld := by
  simp only [applyPolicy, bind_ok] at h
  obtain ⟨_, _, _, _, _, _, h⟩ := h
  by_cases hnum : 0 < policy.historyNum.toInt
  · rw [if_pos hnum, bind_ok] at h
    obtain ⟨sealed, hsealed, hpure⟩ := h
    cases hpure
    obtain ⟨hfresh, tl, rfl⟩ := changeHistory_ok hsealed
    exact ⟨by simp [keptHistory, hnum, withHistory], fun _ => rfl, fun _ => hfresh, rfl, rfl, rfl⟩
  · rw [if_neg hnum] at h
    cases h
    exact ⟨by
      simp [keptHistory, hnum], fun hn => absurd hn hnum, fun hn => absurd hn hnum, rfl, rfl, rfl⟩

/-- What a successful password change makes of a record. -/
structure PasswordChanged (env : KDB.Env) (db : Database) (at_ : ℤ) (password : Bytes)
    (policy : Option PolicyRecord) (keepOld : Bool) (tuples : List KeySaltTuple)
    (current out : PrincipalRecord) : Prop where
  keys : candidateKeys env current password tuples at_ = .ok out.keys
  kvno : out.kvno = current.kvno + 1
  history : out.passwordHistory = keptHistory env db current policy keepOld
  adminKVNO : ∀ p ∈ policy, 0 < p.historyNum.toInt →
    out.adminHistoryKVNO = ((db.historyKey env).map Key.kvno).getD current.adminHistoryKVNO
  fresh : ∀ p ∈ policy, 0 < p.historyNum.toInt → reuses env db current out.keys p keepOld = false
  same : out.name = current.name ∧ out.policy = current.policy ∧ out.keyData = current.keyData

theorem changedPassword_ok {policy : Option PolicyRecord} {bypassMinLife : Bool}
    {out : PrincipalRecord}
    (h : db.changedPassword env at_ password policy bypassMinLife keepOld tuples current =
      .ok out) :
    PasswordChanged env db at_ password policy keepOld tuples current out := by
  simp only [changedPassword, bind_ok] at h
  obtain ⟨next, hnext, keys, hkeys, h⟩ := h
  have hcandidate : candidateKeys env current password tuples at_ = .ok keys :=
    bind_ok.2 ⟨next, hnext, hkeys⟩
  have hkvno : next.kvno = current.kvno + 1 := (deriveRecord_keysAt hnext).2.2.1
  cases policy with
  | none =>
    cases h
    refine ⟨hcandidate, hkvno, ?_, by simp, by simp, ?_⟩
    · cases keepOld with
      | true => rfl
      | false => rfl
    · cases keepOld with
      | true => exact ⟨rfl, rfl, rfl⟩
      | false => exact ⟨rfl, rfl, rfl⟩
  | some policy =>
    simp only [bind_ok] at h
    obtain ⟨mid, hmid, hpure⟩ := h
    cases hpure
    have happlied := applyPolicy_ok hmid
    refine ⟨hcandidate, hkvno, happlied.history, ?_, ?_, happlied.same⟩
    · rintro p ⟨⟩
      exact happlied.adminKVNO
    · rintro p ⟨⟩
      exact happlied.fresh

/-! ## Random keys and keys from outside -/

variable {entropy : Entropy}

theorem randomKey_ok {enctype : Int32} {salt : Bytes}
    (h : randomKey env entropy enctype kvno salt = .ok key) :
    key.enctype = enctype ∧ key.kvno = kvno := by
  simp only [randomKey, bind_ok] at h
  obtain ⟨etype, _, value, _, hpure⟩ := h
  cases hpure
  exact ⟨rfl, rfl⟩

/-- The keys `RandomizeKeysWithKeySalts` makes: all at the next version, for the enctypes of the
tuples or of the current keys. -/
theorem generatedKeys_ok (h : generatedKeys env entropy current normalized = .ok keys) :
    (∀ k ∈ keys, k.kvno = current.kvno + 1) ∧ keys.map Key.enctype =
      if normalized = [] then current.keys.keys else normalized.map KeySaltTuple.enctype := by
  unfold generatedKeys at h
  split_ifs at h ⊢ with hnil
  · have hall := mapM_ok.1 h
    refine ⟨fun k hk => ?_, ?_⟩
    · obtain ⟨_, _, hkey⟩ := hall.exists_right hk
      exact (randomKey_ok hkey).2
    · exact (hall.map_eq fun e k hkey => (randomKey_ok hkey).1.symm).symm
  · have hall := mapM_ok.1 h
    have hone : ∀ (tuple : KeySaltTuple) (key : Key), (do
        let salt ← saltForPrincipal current.name tuple.saltType
        randomKey env entropy tuple.enctype (current.kvno + 1) salt) = .ok key →
        key.enctype = tuple.enctype ∧ key.kvno = current.kvno + 1 := by
      intro tuple key hkey
      obtain ⟨salt, _, hkey⟩ := bind_ok.1 hkey
      exact randomKey_ok hkey
    refine ⟨fun k hk => ?_, ?_⟩
    · obtain ⟨tuple, _, hkey⟩ := hall.exists_right hk
      exact (hone tuple k hkey).2
    · exact (hall.map_eq fun tuple k hkey => (hone tuple k hkey).1.symm).symm

/-- The versions `SetKeys` gives the keys. -/
def versionedKeys (current : PrincipalRecord) (keys : List Key) : List Key :=
  keys.map fun key => if key.kvno = 0 then { key with kvno := current.kvno + 1 } else key

/-- What a call that replaces keys from a list makes of a record. -/
structure KeysFiled (keepOld : Bool) (made : List Key) (current out : PrincipalRecord) : Prop where
  keys : out.keys = withKeys keepOld current.keys made
  history : out.passwordHistory = current.passwordHistory
  same : out.name = current.name ∧ out.policy = current.policy ∧ out.keyData = current.keyData

theorem randomizeKeys_ok
    (h : db.randomizeKeysWithKeySalts env now entropy name keepOld tuples = .ok db') :
    ∃ normalized made current out, normalizeKeySaltTuples tuples = .ok normalized ∧
      db.lookup name = some current ∧ generatedKeys env entropy current normalized = .ok made ∧
      KeysFiled keepOld made current out ∧ out.kvno = current.kvno + 1 ∧ db' = db.save now out := by
  simp only [randomizeKeysWithKeySalts, bind_ok] at h
  obtain ⟨normalized, hnormalized, h⟩ := h
  obtain ⟨current, out, hlookup, hout, rfl⟩ := modify_ok.1 h
  rw [bind_ok] at hout
  obtain ⟨made, hmade, hpure⟩ := hout
  cases hpure
  refine ⟨normalized, made, current, _, hnormalized, hlookup, hmade, ?_, rfl, rfl⟩
  exact ⟨rfl, rfl, rfl, rfl, rfl⟩

theorem setKeys_ok (h : db.setKeys now name keys keepOld = .ok db') :
    ∃ current out, db.lookup name = some current ∧
      KeysFiled keepOld (versionedKeys current keys) current out ∧
        out.kvno = (versionedKeys current keys).foldl
        (fun kvno key => if kvno < key.kvno then key.kvno else kvno) current.kvno ∧
          db' = db.save now out := by
  obtain ⟨current, out, hlookup, hout, rfl⟩ := modify_ok.1 h
  cases hout
  refine ⟨current, _, hlookup, ?_, ?_, rfl⟩
  · exact ⟨rfl, rfl, rfl, rfl, rfl⟩
  · rfl

theorem purgeKeys_ok {keepKVNO : Int32} (h : db.purgeKeys now name keepKVNO = .ok db') :
    ∃ current keys, db.lookup name = some current ∧ keys.entries ≠ [] ∧
      (∀ e k, keys.lookup e = some k → current.keys.lookup e = some k) ∧
        db' = db.save now { current with keys } := by
  obtain ⟨current, out, hlookup, hout, rfl⟩ := modify_ok.1 h
  simp only [bind_ok, ensure_ok] at hout
  obtain ⟨_, hne, hpure⟩ := hout
  cases hpure
  exact ⟨current, _, hlookup, hne, fun e k hk => (GoMap.mem_lookup_keep.1 hk).1, rfl⟩

end Database

end Kerberos
