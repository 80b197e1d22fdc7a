import Kerberos.Proof.KeyVersions

/-!
# Old key versions

The KDC finds a key version in the key map of a record or in its password history
(`selectKVNO`). A call that changes keys says with `keepOld` whether the versions there were
should still be found. Whether they are depends on more: the map has one slot for each
enctype, so that random or given keys take the place of old ones in spite of `keepOld`, and the
history of a password policy keeps old key sets without it, or drops them with it.
`Keeping` is the condition on the record and the policy under which a call does as asked
(`old_keys_as_asked`).
-/

namespace Kerberos

open List

variable {e : Int32} {keys : GoMap Int32 Key} {made : List Key}

namespace Database

/-- The key of the enctype in a set, if it has the version. -/
def versionOf (e : Int32) (v : UInt32) (keys : GoMap Int32 Key) : Option Key :=
  match keys.lookup e with
  | some key => if key.kvno = v then some { key with enctype := e } else none
  | none => none

theorem selectKVNO_some (r : PrincipalRecord) (e : Int32) (v : UInt32) :
    selectKVNO r e (some v) = (keySets r).findSome? (versionOf e v) := by
  rw [keySets, findSome?_cons]
  cases hlookup : r.keys.lookup e with
  | none =>
    rw [versionOf, selectKVNO, hlookup]
    rfl
  | some key =>
    have hhead : versionOf e v r.keys = if key.kvno = v then some { key with enctype := e }
      else none := by
      rw [versionOf, hlookup]
    rw [selectKVNO, hlookup, hhead]
    by_cases hv : key.kvno = v
    · rw [if_pos hv]
      exact if_pos (.inr (congrArg some hv.symm))
    · rw [if_neg hv]
      exact if_neg (by simpa [eq_comm] using hv)

variable {v : UInt32} {k : Key}

theorem versionOf_eq_some :
    versionOf e v keys = some k ↔ ∃ key, keys.lookup e = some key ∧ key.kvno = v ∧
      k = { key with enctype := e } := by
  unfold versionOf
  cases keys.lookup e with
  | none => simp
  | some key =>
    by_cases hv : key.kvno = v
    · simp [eq_comm]
    · simp [hv]

/-- A version is found exactly if one of the sets has it. -/
theorem selectKVNO_isSome {r : PrincipalRecord} : (∃ k, selectKVNO r e (some v) = some k) ↔
      ∃ keys ∈ keySets r, ∃ key, keys.lookup e = some key ∧ key.kvno = v := by
  rw [selectKVNO_some, ← Option.isSome_iff_exists, findSome?_isSome_iff]
  constructor
  · rintro ⟨keys, hkeys, hsome⟩
    obtain ⟨k, hk⟩ := Option.isSome_iff_exists.1 hsome
    obtain ⟨key, hkey, hv, _⟩ := versionOf_eq_some.1 hk
    exact ⟨keys, hkeys, key, hkey, hv⟩
  · rintro ⟨keys, hkeys, key, hkey, hv⟩
    exact ⟨keys, hkeys, Option.isSome_iff_exists.2 ⟨_, versionOf_eq_some.2 ⟨key, hkey, hv, rfl⟩⟩⟩

/-- What is found for a version has that version. -/
theorem kvno_of_selectKVNO {r : PrincipalRecord} (h : selectKVNO r e (some v) = some k) :
    k.kvno = v := by
  rw [selectKVNO_some] at h
  obtain ⟨keys, _, hk⟩ := exists_of_findSome?_eq_some h
  obtain ⟨key, _, hv, rfl⟩ := versionOf_eq_some.1 hk
  exact hv

/-! ## What is asked for -/

/-- Every version that could be selected still can, with the same key. -/
def KeepsOld (r r' : PrincipalRecord) : Prop :=
  ∀ e v k, selectKVNO r e (some v) = some k → ∃ k', selectKVNO r' e (some v) = some k' ∧
    k'.key = k.key

/-- Nothing can be selected that is not newer than the record was. -/
def DropsOld (r r' : PrincipalRecord) : Prop :=
  ∀ e v k, selectKVNO r' e v = some k → r.kvno.toNat < k.kvno.toNat

/-- The versions of the keys are reached, and there is a next one. -/
structure Reached (r : PrincipalRecord) : Prop where
  room : r.kvno ≠ lastKVNO
  versions : ∀ keys ∈ keySets r, ∀ e k, keys.lookup e = some k → k.kvno.toNat ≤ r.kvno.toNat

/-- **The calls keep the versions reached**: what any of them but `UpdatePrincipal` finds in a run
from a database with reached versions has reached its versions. -/
theorem reached_of_run {env : KDB.Env} {start : Database} {calls : List (ℤ × DBCall)}
    {name : Principal}
    {r : PrincipalRecord} (hstart : Versioned start) (hcalls : ∀ call ∈ calls, call.2.Versioning)
    (hroom : AllHaveRoom env start calls) (hr : (DBCall.exec env start calls).lookup name = some r)
    (hlast : r.kvno ≠ lastKVNO) : Reached r :=
  ⟨hlast, (versioned_run hstart hcalls hroom (prefix_refl _) _ r hr).versions⟩

/-- No key set is empty, and no two have the same version of an enctype. -/
structure Distinct (r : PrincipalRecord) : Prop where
  nonempty : ∀ keys ∈ keySets r, ∃ e k, keys.lookup e = some k
  apart : (keySets r).Pairwise fun a b => ∀ e ka kb, a.lookup e = some ka → b.lookup e = some kb →
    ka.kvno ≠ kb.kvno

/-- All keys of the set are newer than the record. -/
def Newer (r : PrincipalRecord) (keys : GoMap Int32 Key) : Prop :=
  ∀ e k, keys.lookup e = some k → r.kvno.toNat < k.kvno.toNat

theorem dropsOld_iff {r r' : PrincipalRecord} :
    DropsOld r r' ↔ ∀ keys ∈ keySets r', Newer r keys := by
  constructor
  · intro h keys hkeys e key hkey
    obtain ⟨k, hk⟩ := selectKVNO_isSome.2 ⟨keys, hkeys, key, hkey, rfl⟩
    have hlt := h e (some key.kvno) k hk
    rwa [kvno_of_selectKVNO hk] at hlt
  · intro h e v k hk
    cases v with
    | none =>
      unfold selectKVNO at hk
      cases hcurrent : r'.keys.lookup e with
      | none => simp [hcurrent] at hk
      | some key =>
        simp only [hcurrent, true_or, if_true, Option.some.injEq] at hk
        rw [← hk]
        exact h r'.keys mem_cons_self e key hcurrent
    | some v =>
      obtain ⟨keys, hkeys, key, hkey, hv⟩ := selectKVNO_isSome.1 ⟨k, hk⟩
      rw [kvno_of_selectKVNO hk, ← hv]
      exact h keys hkeys e key hkey

/-- What is kept is in one of the sets afterwards. -/
theorem KeepsOld.exists_set {r r' : PrincipalRecord} (h : KeepsOld r r')
    (hkeys : keys ∈ keySets r) (hk : keys.lookup e = some k) :
    ∃ keys' ∈ keySets r', ∃ k', keys'.lookup e = some k' ∧ k'.kvno = k.kvno := by
  obtain ⟨found, hfound⟩ := selectKVNO_isSome.2 ⟨keys, hkeys, k, hk, rfl⟩
  obtain ⟨k', hk', _⟩ := h e k.kvno found hfound
  exact selectKVNO_isSome.1 ⟨k', hk'⟩

/-- Only versions the record has reached count. -/
theorem keepsOld_of_eq {r r' : PrincipalRecord} (hr : Reached r)
    (h : ∀ e v, v.toNat ≤ r.kvno.toNat →
      (keySets r').findSome? (versionOf e v) = (keySets r).findSome? (versionOf e v)) :
        KeepsOld r r' := by
  intro e v k hk
  obtain ⟨keys, hkeys, key, hkey, rfl⟩ := selectKVNO_isSome.1 ⟨k, hk⟩
  refine ⟨k, ?_, rfl⟩
  rw [selectKVNO_some, h e key.kvno (hr.versions keys hkeys e key hkey), ← selectKVNO_some]
  exact hk

theorem versionOf_newer {r : PrincipalRecord}
    (h : ∀ k, keys.lookup e = some k → r.kvno.toNat < k.kvno.toNat)
    (hv : v.toNat ≤ r.kvno.toNat) : versionOf e v keys = none := by
  rw [Option.eq_none_iff_forall_ne_some]
  intro k hk
  obtain ⟨key, hkey, rfl, _⟩ := versionOf_eq_some.1 hk
  have := h key hkey
  omega

/-! ## Password changes -/

variable {env : KDB.Env} {db : Database} {r r' : PrincipalRecord}

theorem KeysAt.newer (h : KeysAt (r.kvno + 1) keys) (hroom : r.kvno ≠ lastKVNO) : Newer r keys := by
  intro e k hk
  rw [(h e k hk).2, toNat_add_one hroom]
  exact Nat.lt_succ_self _

/-- The old keys are all in the history, behind the new ones. -/
theorem keepsOld_of_history (hr : Reached r) (hnew : Newer r r'.keys)
    (hhistory : r'.passwordHistory = keySets r) : KeepsOld r r' := by
  refine keepsOld_of_eq hr fun e v hv => ?_
  rw [keySets, findSome?_cons, versionOf_newer (hnew e) hv, hhistory]

/-- The new keys are newer, so only the history can hold the old ones. -/
theorem KeepsOld.in_history (h : KeepsOld r r') (hr : Reached r) (hnew : Newer r r'.keys)
    (hkeys : keys ∈ keySets r) (hk : keys.lookup e = some k) :
    ∃ keys' ∈ r'.passwordHistory, ∃ k', keys'.lookup e = some k' ∧ k'.kvno = k.kvno := by
  obtain ⟨keys', hkeys', k', hk', heq⟩ := h.exists_set hkeys hk
  rcases mem_cons.1 hkeys' with rfl | hmem
  · have hlt := hnew e k' hk'
    have hle := hr.versions keys hkeys e k hk
    rw [heq] at hlt
    omega
  · exact ⟨keys', hmem, k', hk', heq⟩

/-- A policy keeps the old key sets exactly if they fit. -/
theorem keepsOld_take_iff (hr : Reached r) (hnew : Newer r r'.keys) {limit : ℕ}
    {live : List (GoMap Int32 Key)}
    (hlive : live = r.passwordHistory ∨ live = [])
    (hhistory : r'.passwordHistory = (r.keys :: live).take limit) :
    (live = r.passwordHistory ∧ r.passwordHistory.length < limit → KeepsOld r r') ∧
      (Distinct r → KeepsOld r r' → live = r.passwordHistory ∧
        r.passwordHistory.length < limit) := by
  constructor
  · rintro ⟨rfl, hlt⟩
    refine keepsOld_of_history hr hnew ?_
    rw [hhistory, take_of_length_le (by rw [length_cons]; omega)]
    rfl
  · intro hdistinct hkeeps
    -- a set that is not among those retained would be lost
    have hlost : ∀ i (hi : i < (keySets r).length), (∀ keys' ∈ r'.passwordHistory,
        ∃ j, ∃ hj : j < (keySets r).length, j < i ∧ keys' = (keySets r).get ⟨j, hj⟩) → False := by
      intro i hi hbefore
      have hmem : (keySets r).get ⟨i, hi⟩ ∈ keySets r := get_mem ..
      obtain ⟨e, k, hk⟩ := hdistinct.nonempty _ hmem
      obtain ⟨keys', hkeys', k', hk', heq⟩ := hkeeps.in_history hr hnew hmem hk
      obtain ⟨j, hj, hji, rfl⟩ := hbefore keys' hkeys'
      exact pairwise_iff_get.1 hdistinct.apart ⟨j, hj⟩ ⟨i, hi⟩ hji e k' k hk' hk heq
    have hsets : live = r.passwordHistory := by
      rcases hlive with hlive | hlive
      · exact hlive
      · subst hlive
        cases hh : r.passwordHistory with
        | nil => rfl
        | cons first rest =>
          refine (hlost 1 (by simp [keySets, hh]) fun keys' hkeys' =>
            ⟨0, by simp [keySets], by omega, ?_⟩).elim
          rw [hhistory] at hkeys'
          exact mem_singleton.1 (mem_of_mem_take hkeys')
    refine ⟨hsets, ?_⟩
    by_contra hge
    refine hlost limit (by simp only [keySets, length_cons]; omega) fun keys' hkeys' => ?_
    rw [hhistory, hsets] at hkeys'
    obtain ⟨j, hj, heq⟩ := getElem_of_mem hkeys'
    rw [length_take] at hj
    refine ⟨j, lt_of_lt_of_le hj (min_le_right _ _), lt_of_lt_of_le hj (min_le_left _ _), ?_⟩
    rw [← heq, getElem_take]
    rfl

/-- Without the current keys in the history they are lost. -/
theorem not_keepsOld_of_same_history (hr : Reached r) (hdistinct : Distinct r)
    (hnew : Newer r r'.keys)
    (hhistory : r'.passwordHistory = r.passwordHistory) : ¬ KeepsOld r r' := by
  intro hkeeps
  have hmem : r.keys ∈ keySets r := mem_cons_self
  obtain ⟨e, k, hk⟩ := hdistinct.nonempty _ hmem
  obtain ⟨keys', hkeys', k', hk', heq⟩ := hkeeps.in_history hr hnew hmem hk
  rw [hhistory] at hkeys'
  exact (pairwise_cons.1 hdistinct.apart).1 keys' hkeys' e k k' hk hk' heq.symm

/-- The old versions are gone exactly if the history is empty. -/
theorem dropsOld_iff_history (hnew : Newer r r'.keys) (hr : Reached r)
    (hsets : ∀ keys ∈ r'.passwordHistory, keys ∈ keySets r) :
    (r'.passwordHistory = [] → DropsOld r r') ∧
      (Distinct r → DropsOld r r' → r'.passwordHistory = []) := by
  rw [dropsOld_iff]
  constructor
  · intro hnil keys hkeys
    rw [keySets, hnil] at hkeys
    rw [mem_singleton.1 hkeys]
    exact hnew
  · intro hdistinct hall
    by_contra hne
    obtain ⟨keys, hkeys⟩ := exists_mem_of_ne_nil _ hne
    obtain ⟨e, k, hk⟩ := hdistinct.nonempty keys (hsets keys hkeys)
    have hlt := hall keys (mem_cons_of_mem _ hkeys) e k hk
    have hle := hr.versions keys (hsets keys hkeys) e k hk
    omega

/-! ## Keys filed by enctype -/

/-- The keys are newer where no old one was kept. -/
theorem newer_filed {keepOld : Bool} (hfiled : KeysFiled keepOld made r r')
    (hnew : ∀ k ∈ made, r.kvno.toNat < k.kvno.toNat)
    (hold : keepOld = true → r.keys.lookup e = none)
    (hk : r'.keys.lookup e = some k) : r.kvno.toNat < k.kvno.toNat := by
  rw [hfiled.keys] at hk
  rcases lookup_filed hk with ⟨hmem, _⟩ | ⟨hkept, _⟩
  · exact hnew k hmem
  · split_ifs at hkept with hkeep
    · rw [hold hkeep] at hkept
      cases hkept
    · simp at hkept

/-- Keys next to the old ones: nothing is lost exactly if they have other enctypes. -/
theorem keepsOld_filed_iff (hr : Reached r) (hfiled : KeysFiled true made r r')
    (hnew : ∀ k ∈ made, r.kvno.toNat < k.kvno.toNat) :
    ((∀ e ∈ r.keys, e ∉ made.map Key.enctype) → KeepsOld r r') ∧
      (Distinct r → KeepsOld r r' → ∀ e ∈ r.keys, e ∉ made.map Key.enctype) := by
  constructor
  · intro hother
    refine keepsOld_of_eq hr fun e v hv => ?_
    have hsame : versionOf e v r'.keys = versionOf e v r.keys := by
      by_cases he : e ∈ made.map Key.enctype
      · -- an enctype of a new key is not one of the old keys
        have hold : r.keys.lookup e = none := AList.lookup_eq_none.2 fun hmem => hother e hmem he
        rw [versionOf_newer (fun k => newer_filed hfiled hnew fun _ => hold) hv]
        unfold versionOf
        rw [hold]
      · have hlookup : r'.keys.lookup e = r.keys.lookup e := by
          rw [hfiled.keys]
          refine AList.lookup_foldl_insert_of_notMem fun k hk heq => he ?_
          rw [← heq]
          exact mem_map_of_mem hk
        unfold versionOf
        rw [hlookup]
    rw [keySets, keySets, findSome?_cons, findSome?_cons, hsame, hfiled.history]
  · intro hdistinct hkeeps e he hmade
    obtain ⟨k, hk⟩ := Option.isSome_iff_exists.1 (AList.lookup_isSome.2 he)
    have hmem : r.keys ∈ keySets r := mem_cons_self
    obtain ⟨keys', hkeys', k', hk', heq⟩ := hkeeps.exists_set hmem hk
    rcases mem_cons.1 hkeys' with rfl | hold
    · rw [hfiled.keys] at hk'
      rcases lookup_filed hk' with ⟨hnewKey, _⟩ | ⟨_, hnone⟩
      · have hlt := hnew k' hnewKey
        have hle := hr.versions r.keys hmem e k hk
        rw [heq] at hlt
        omega
      · obtain ⟨other, hother, hsame⟩ := mem_map.1 hmade
        exact hnone other hother hsame
    · rw [hfiled.history] at hold
      exact (pairwise_cons.1 hdistinct.apart).1 keys' hold e k k' hk hk' heq.symm

theorem dropsOld_filed_iff (hr : Reached r) (hfiled : KeysFiled false made r r')
    (hnew : ∀ k ∈ made, r.kvno.toNat < k.kvno.toNat) :
    (r.passwordHistory = [] → DropsOld r r') ∧
      (Distinct r → DropsOld r r' → r.passwordHistory = []) := by
  rw [← hfiled.history]
  refine dropsOld_iff_history (fun e k => newer_filed hfiled hnew fun h => by cases h) hr
    fun keys hkeys => ?_
  rw [hfiled.history] at hkeys
  exact mem_cons_of_mem _ hkeys

end Database

/-! ## The calls -/

namespace KeyCall

open Database

/-- The principal the call is about. -/
def subject : KeyCall → Principal
  | changePassword name .. => name
  | randomizeKeys _ name .. => name
  | setKeys name .. => name
  | purgeKeys name _ => name
  | updatePrincipal record _ => record.name

/-- The versions given to `SetKeys` are new to the record. -/
def FreshVersions (r : PrincipalRecord) : KeyCall → Prop
  | setKeys _ keys _ => ∀ k ∈ keys, k.kvno = 0 ∨ r.kvno.toNat < k.kvno.toNat
  | _ => True

/-- The call makes of the record what its `keepOld` says. -/
def AsAsked (r r' : PrincipalRecord) : KeyCall → Prop
  | changePassword _ _ _ _ _ keepOld _ => if keepOld then KeepsOld r r' else DropsOld r r'
  | randomizeKeys _ _ keepOld _ => if keepOld then KeepsOld r r' else DropsOld r r'
  | setKeys _ _ keepOld => if keepOld then KeepsOld r r' else DropsOld r r'
  | _ => True

/-- The conditions on a password change. With `keepOld` and a policy, the history has room for
the current keys and was sealed under this version of the history key. Without it there is no
history to be kept, or the policy says to remember one password only. -/
def PasswordKeeping (env : KDB.Env) (db : Database) (r : PrincipalRecord) :
    Option PolicyRecord → Bool → Prop
  | none, true => True
  | none, false => r.passwordHistory = []
  | some policy, true => 0 < policy.historyNum.toInt ∧ liveHistory env db r = r.passwordHistory ∧
      r.passwordHistory.length < historyLimit policy true
  | some policy, false => policy.historyNum.toInt = 1 ∨
      (policy.historyNum.toInt ≤ 0 ∧ r.passwordHistory = [])

/-- **The conditions under which the old versions are kept or dropped as asked.** For keys by
enctype: with `keepOld` no current key has the enctype of a new one, without it the history
is empty. -/
def Keeping (env : KDB.Env) (db : Database) (r : PrincipalRecord) : KeyCall → Prop
  | changePassword _ _ _ policy _ keepOld _ => PasswordKeeping env db r policy keepOld
  | randomizeKeys _ _ keepOld tuples =>
    if keepOld then ∀ e ∈ r.keys, tuples ≠ [] ∧ e ∉ tuples.map KeySaltTuple.enctype
    else r.passwordHistory = []
  | setKeys _ keys keepOld =>
    if keepOld then ∀ e ∈ r.keys, e ∉ keys.map Key.enctype else r.passwordHistory = []
  | _ => True

end KeyCall

namespace Database

variable {env : KDB.Env} {db db' : Database} {now : ℤ} {r r' : PrincipalRecord}

/-- With one password to remember no old key set is kept; with more, the current one is. -/
theorem keptHistory_eq_nil {policy : PolicyRecord} : keptHistory env db r (some policy) false = [] ↔
      policy.historyNum.toInt = 1 ∨ (policy.historyNum.toInt ≤ 0 ∧ r.passwordHistory = []) := by
  simp only [keptHistory, historyLimit, Bool.false_eq_true, false_and, if_false]
  split_ifs with hnum
  · rw [take_eq_nil_iff]
    simp only [reduceCtorEq, or_false]
    omega
  · constructor
    · intro hnil
      exact .inr ⟨by omega, hnil⟩
    · rintro (hone | ⟨_, hnil⟩)
      · omega
      · exact hnil

theorem password_as_asked {at_ : ℤ} {password : Bytes} {policy : Option PolicyRecord}
    {keepOld : Bool}
    {tuples : List KeySaltTuple} (hr : Reached r)
    (h : PasswordChanged env db at_ password policy keepOld tuples r r') :
    (KeyCall.PasswordKeeping env db r policy keepOld → if keepOld then KeepsOld r r'
      else DropsOld r r') ∧
      (Distinct r → (if keepOld then KeepsOld r r' else DropsOld r r') →
        KeyCall.PasswordKeeping env db r policy keepOld) := by
  have hnew : Newer r r'.keys := (candidateKeys_keysAt h.keys).newer hr.room
  have hhistory := h.history
  cases policy with
  | none =>
    cases keepOld with
    | true => exact ⟨fun _ => keepsOld_of_history hr hnew hhistory, fun _ _ => trivial⟩
    | false =>
      have hsame : r'.passwordHistory = r.passwordHistory := hhistory
      have hiff := dropsOld_iff_history hnew hr fun keys hkeys => mem_cons_of_mem _ (hsame ▸ hkeys)
      rw [hsame] at hiff
      exact hiff
  | some policy =>
    cases keepOld with
    | true =>
      by_cases hnum : 0 < policy.historyNum.toInt
      · simp only [keptHistory, if_pos hnum] at hhistory
        obtain ⟨hif, honly⟩ := keepsOld_take_iff hr hnew (liveHistory_cases env db r) hhistory
        exact ⟨fun hkeep => hif hkeep.2, fun hdistinct hkeeps => ⟨hnum, honly hdistinct hkeeps⟩⟩
      · simp only [keptHistory, if_neg hnum] at hhistory
        refine ⟨fun hkeep => absurd hkeep.1 hnum, fun hdistinct hkeeps => ?_⟩
        exact absurd hkeeps (not_keepsOld_of_same_history hr hdistinct hnew hhistory)
    | false =>
      have hiff := dropsOld_iff_history hnew hr fun keys hkeys =>
        mem_keySets_of_kept (hhistory ▸ hkeys)
      rw [hhistory, keptHistory_eq_nil] at hiff
      exact hiff

theorem enctype_versionedKeys (keys : List Key) :
    (versionedKeys r keys).map Key.enctype = keys.map Key.enctype := by
  unfold versionedKeys
  rw [map_map]
  refine map_congr_left fun k _ => ?_
  simp only [Function.comp_apply]
  split_ifs
  · rfl
  · rfl

/-- The enctypes of the keys that are made, in terms of the tuples asked for. -/
theorem not_mem_made_iff {tuples normalized : List KeySaltTuple}
    (he : e ∈ r.keys) (hnormalized : normalizeKeySaltTuples tuples = .ok normalized)
    (hmade : made.map Key.enctype =
      if normalized = [] then r.keys.keys else normalized.map KeySaltTuple.enctype) :
    e ∉ made.map Key.enctype ↔ tuples ≠ [] ∧ e ∉ tuples.map KeySaltTuple.enctype := by
  have hmem : e ∈ normalized.map KeySaltTuple.enctype ↔ e ∈ tuples.map KeySaltTuple.enctype := by
    simp only [mem_map, mem_normalized hnormalized]
  have hnil : normalized = [] ↔ tuples = [] := by
    constructor
    · rintro rfl
      rw [eq_nil_iff_forall_not_mem]
      intro t ht
      cases (mem_normalized hnormalized).2 ht
    · rintro rfl
      cases hnormalized
      rfl
  rw [hmade]
  split_ifs with hempty
  · refine iff_of_false (fun hnot => hnot (AList.mem_keys.1 he)) fun hand => hand.1 (hnil.1 hempty)
  · rw [hmem, and_iff_right fun h => hempty (hnil.2 h)]

/-- **Old key versions are kept or dropped as asked under the condition** that the history and
the enctypes of the record allow it, and for records whose key sets are distinct only then. -/
theorem old_keys_as_asked (env : KDB.Env) (db db' : Database) (now : ℤ) (call : KeyCall)
    (r r' : PrincipalRecord) (hcall : call.apply env now db = .ok db')
    (hbefore : db.lookup call.subject = some r) (hafter : db'.lookup call.subject = some r')
    (hfresh : call.FreshVersions r) (hr : Reached r) :
    (call.Keeping env db r → call.AsAsked r r') ∧
      (Distinct r → call.AsAsked r r' → call.Keeping env db r) := by
  -- the record filed is the one found afterwards
  have hfiled : ∀ {current out : PrincipalRecord}, db.lookup call.subject = some current →
      db' = db.save now out → out.name = current.name → current = r ∧ out = r' := by
    intro current out hlookup hsave hname
    have hcurrent : current = r := Option.some.inj (hlookup.symm.trans hbefore)
    obtain ⟨hwhere, _⟩ := replaces_of_lookup hlookup hname
    rw [lookup, hsave, lookup_save, if_pos hwhere.symm] at hafter
    exact ⟨hcurrent, Option.some.inj hafter⟩
  cases call with
  | changePassword name password at_ policy bypassMinLife keepOld tuples =>
    obtain ⟨current, out, hlookup, hout, hsave⟩ := modify_ok.1 hcall
    have hchanged := changedPassword_ok hout
    obtain ⟨rfl, rfl⟩ := hfiled hlookup hsave hchanged.same.1
    exact password_as_asked hr hchanged
  | randomizeKeys entropy name keepOld tuples =>
    obtain ⟨normalized, made, current, out, hnormalized, hlookup, hmade, hkeys, hkvno, hsave⟩ :=
      randomizeKeys_ok hcall
    obtain ⟨rfl, rfl⟩ := hfiled hlookup hsave hkeys.same.1
    obtain ⟨hversion, henctypes⟩ := generatedKeys_ok hmade
    have hnew : ∀ k ∈ made, current.kvno.toNat < k.kvno.toNat := by
      intro k hk
      rw [hversion k hk, toNat_add_one hr.room]
      exact Nat.lt_succ_self _
    cases keepOld with
    | true =>
      have hiff := keepsOld_filed_iff hr hkeys hnew
      have hcond : (∀ e ∈ current.keys, e ∉ made.map Key.enctype) ↔
          ∀ e ∈ current.keys, tuples ≠ [] ∧ e ∉ tuples.map KeySaltTuple.enctype :=
        forall₂_congr fun e he => not_mem_made_iff he hnormalized henctypes
      rw [hcond] at hiff
      exact hiff
    | false => exact dropsOld_filed_iff hr hkeys hnew
  | setKeys name keys keepOld =>
    obtain ⟨current, out, hlookup, hkeys, hkvno, hsave⟩ := setKeys_ok hcall
    obtain ⟨rfl, rfl⟩ := hfiled hlookup hsave hkeys.same.1
    have hnew : ∀ k ∈ versionedKeys current keys, current.kvno.toNat < k.kvno.toNat := by
      intro k hk
      obtain ⟨given, hgiven, rfl⟩ := mem_map.1 hk
      split_ifs with hzero
      · exact lt_of_lt_of_eq (Nat.lt_succ_self _) (toNat_add_one hr.room).symm
      · exact (hfresh given hgiven).resolve_left hzero
    cases keepOld with
    | true =>
      have hiff := keepsOld_filed_iff hr hkeys hnew
      rw [enctype_versionedKeys] at hiff
      exact hiff
    | false => exact dropsOld_filed_iff hr hkeys hnew
  | purgeKeys name keepKVNO => exact ⟨fun _ => trivial, fun _ _ => trivial⟩
  | updatePrincipal record absent => exact ⟨fun _ => trivial, fun _ _ => trivial⟩

end Database

namespace Small

open Database

/-- The client's record in `oneClient`. -/
def clientRecord : PrincipalRecord := { name := client, keys := keyMapOf [key 1 7], kvno := 1 }

/-- Random bytes that are not random. -/
def entropy : Entropy := ⟨fun _ n => some (List.replicate n 5), fun _ n value h => by
  rw [← Option.some.inj h, List.length_replicate]⟩

/-- Randomizing with `keepOld`, as `randkey -keepold` does. -/
def keepRandom : KeyCall := .randomizeKeys entropy client true []

/-- A randomization that is asked to keep the old keys loses version one. -/
theorem randomize_loses_old : ∃ db' r', keepRandom.apply env 0 oneClient = .ok db' ∧
    oneClient.lookup client = some clientRecord ∧ db'.lookup client = some r' ∧
    selectKVNO clientRecord 18 (some 1) = some (key 1 7) ∧ selectKVNO r' 18 (some 1) = none ∧
    ¬ keepRandom.AsAsked clientRecord r' := by
  have hrun : ((keepRandom.apply env 0 oneClient).toOption.bind fun db' => db'.lookup client).map
      (fun r' => (selectKVNO r' 18 (some 1)).isNone) = some true := by decide +kernel
  obtain ⟨r', hr', hnone⟩ := Option.map_eq_some_iff.1 hrun
  obtain ⟨db', hdb', hlookup⟩ := Option.bind_eq_some_iff.1 hr'
  have hselected : selectKVNO clientRecord 18 (some 1) = some (key 1 7) := by decide +kernel
  refine ⟨db', r', Except.toOption_some.1 hdb', rfl, hlookup, hselected,
    Option.isNone_iff_eq_none.1 hnone, ?_⟩
  intro hkeeps
  obtain ⟨k', hk', _⟩ := (show KeepsOld clientRecord r' from hkeeps) 18 1 _ hselected
  rw [Option.isNone_iff_eq_none.1 hnone] at hk'
  cases hk'

/-- A password change that keeps the old keys, without a policy. -/
def keepPassword : KeyCall := .changePassword client (str "z") 0 none false true [⟨18, 0⟩]

/-- It does, behind two others: the version before it can still be selected. -/
theorem old_keys_as_asked_password :
    ∃ r db' r', (DBCall.exec env oneClient twoChanges).lookup client = some r ∧
    keepPassword.apply env 0 (DBCall.exec env oneClient twoChanges) = .ok db' ∧
    db'.lookup client = some r' ∧ r.kvno = 3 ∧ r'.kvno = 4 ∧ keepPassword.AsAsked r r' := by
  have hbefore : ((DBCall.exec env oneClient twoChanges).lookup client).map PrincipalRecord.kvno =
      some 3 := by
    decide +kernel
  obtain ⟨r, hr, hkvno⟩ := Option.map_eq_some_iff.1 hbefore
  have hreached : Reached r := by
    refine reached_of_run versioned_oneClient versioning_twoChanges room_twoChanges hr ?_
    rw [hkvno]
    decide
  have hrun : ((keepPassword.apply env 0 (DBCall.exec env oneClient twoChanges)).toOption.bind
      fun db' => db'.lookup client).map PrincipalRecord.kvno = some 4 := by decide +kernel
  obtain ⟨r', hr', hkvno'⟩ := Option.map_eq_some_iff.1 hrun
  obtain ⟨db', hdb', hlookup⟩ := Option.bind_eq_some_iff.1 hr'
  refine ⟨r, db', r', hr, Except.toOption_some.1 hdb', hlookup, hkvno, hkvno', ?_⟩
  exact (old_keys_as_asked env _ db' 0 keepPassword r r' (Except.toOption_some.1 hdb') hr
    hlookup trivial hreached).1 trivial

end Small

end Kerberos
