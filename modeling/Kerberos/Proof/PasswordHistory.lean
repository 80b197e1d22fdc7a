import Kerberos.Proof.OldKeys

/-!
# Password history

Reuse of a password is seen by comparing the keys it gives with those of the current and the
remembered passwords. The keys depend on the enctypes and salts of the change as well
(`shape`), so that a password comes back unnoticed under other key/salt tuples
(`password_reused`). In every run of changes with one shape, made when the minimum life of
the password is over, the last `n` accepted passwords are refused (`password_history`).
-/

namespace Kerberos

open Transition List Except AList

namespace Database

/-! ## The shape of a set of keys -/

/-- For each enctype the salt a key is derived with, and the salt it is recorded with. -/
abbrev Shape := Int32 → Option (Bytes × Bytes)

/-- The shape of the keys a change derives: that of the tuples, of the current keys, or the
default. -/
def shape (current : PrincipalRecord) (tuples : List KeySaltTuple) : Shape := fun e =>
  if tuples = [] then
    if current.keys.entries ≠ [] ∧ current.keys.entries.length ≠ defaultEnctypes.length then
      (current.keys.lookup e).map fun k =>
        (if k.salt = [] then normalSalt current.name else k.salt, k.salt)
    else if e ∈ defaultEnctypes then some (normalSalt current.name, normalSalt current.name)
      else none
  else
    (tuples.find? fun t => t.enctype == e).bind fun t =>
      (saltForPrincipal current.name t.saltType).toOption.map fun salt => (salt, salt)

/-- The keys of the shape that the password gives. -/
def Shaped (env : KDB.Env) (s : Shape) (password : Bytes) (keys : GoMap Int32 Key) : Prop :=
  ∀ e, (keys.lookup e).map (fun k => (k.salt, some k.key)) =
    (s e).map fun salts => (salts.2, env.stringToKey e password salts.1)

theorem length_entries {κ α : Type} [DecidableEq κ] {m : GoMap κ α} {l : List κ} (hl : l.Nodup)
    (h : ∀ k, k ∈ m ↔ k ∈ l) : m.entries.length = l.length := by
  have hperm : m.keys.Perm l := (perm_ext_iff_of_nodup m.keys_nodup hl).2 h
  have hlen := hperm.length_eq
  simpa [AList.keys, List.keys] using hlen

variable {password : Bytes} {s : Shape}

/-- **Two sets of keys of one shape and password match.** -/
theorem Shaped.matches {env : KDB.Env} {a b : GoMap Int32 Key}
    (ha : Shaped env s password a) (hb : Shaped env s password b) (hne : a.entries ≠ []) :
    passwordMatchesKeys a b = true := by
  have hsame : ∀ e, (a.lookup e).map (fun k => (k.salt, some k.key)) =
      (b.lookup e).map fun k => (k.salt, some k.key) := fun e => (ha e).trans (hb e).symm
  have hlen : a.entries.length = b.entries.length := by
    refine (length_entries b.keys_nodup fun e => ?_).trans
      (length_entries b.keys_nodup fun e => Iff.rfl).symm
    have := congrArg Option.isSome (hsame e)
    rw [← AList.mem_keys, ← lookup_isSome, ← lookup_isSome]
    simpa using this
  unfold passwordMatchesKeys
  rw [Bool.and_eq_true, Bool.and_eq_true]
  refine ⟨⟨by simpa using hne, by simpa using hlen⟩, ?_⟩
  rw [all_eq_true]
  rintro ⟨e, k⟩ hk
  have hlookup : a.lookup e = some k := lookup_eq_some_iff.2 hk
  have heq := hsame e
  rw [hlookup] at heq
  obtain ⟨other, hother, hpair⟩ := Option.map_eq_some_iff.1 heq.symm
  simp only [Prod.mk.injEq, Option.some.injEq] at hpair
  simp [hother, hpair.1, hpair.2]

/-! ## The keys of a change -/

variable {env : KDB.Env} {db db' : Database} {keys : List Key}

/-- Keys derived one by one, each for another enctype, are found under their enctypes. -/
theorem lookup_derived {α : Type} {f : α → Except DBError Key} {g : α → Int32} {l : List α}
    (h : l.mapM f = .ok keys) (hf : ∀ a k, f a = .ok k → k.enctype = g a)
    (hnodup : (l.map g).Nodup) :
    (∀ a ∈ l, ∃ k, f a = .ok k ∧ (keyMapOf keys).lookup (g a) = some k) ∧
      ∀ e ∉ l.map g, (keyMapOf keys).lookup e = none := by
  have hall := mapM_ok.1 h
  have henctypes : l.map g = keys.map Key.enctype := hall.map_eq fun a k hak => (hf a k hak).symm
  constructor
  · intro a ha
    obtain ⟨k, hk, hak⟩ := hall.exists_left ha
    refine ⟨k, hak, ?_⟩
    rw [← hf a k hak]
    exact lookup_foldl_insert_of_mem (henctypes ▸ hnodup) hk
  · intro e he
    rw [Option.eq_none_iff_forall_ne_some]
    intro k hk
    obtain ⟨k, hmem, rfl, -⟩ := lookup_foldl_insert_some (henctypes ▸ hnodup) hk
    exact he (henctypes ▸ mem_map_of_mem hmem)

theorem length_keyMapOf (h : (keys.map Key.enctype).Nodup) :
    (keyMapOf keys).entries.length = keys.length := by
  refine (length_entries h fun e => ?_).trans (length_map _)
  exact (mem_foldl_insert).trans (by simp)

/-- The tuples a change uses. -/
def usedTuples (normalized : List KeySaltTuple) : List KeySaltTuple :=
  if normalized = [] then defaultTuples else normalized

variable {tuples : List KeySaltTuple} {normalized : List KeySaltTuple}

theorem nodup_usedTuples (h : normalizeKeySaltTuples tuples = .ok normalized) :
    ((usedTuples normalized).map KeySaltTuple.enctype).Nodup := by
  unfold usedTuples
  split_ifs
  · decide
  · exact nodup_normalized h

variable {kvno : UInt32}

theorem deriveTupleKey_enctype {name : Principal} {t : KeySaltTuple}
    {k : Key} (h : deriveTupleKey env name password kvno t = .ok k) : k.enctype = t.enctype := by
  obtain ⟨salt, _, hderive⟩ := deriveTupleKey_ok.1 h
  obtain ⟨_, value, _, rfl⟩ := deriveKey_ok.1 hderive
  rfl

variable {current : PrincipalRecord}

/-- The keys of tuples have the shape of the tuples. -/
theorem shaped_of_tuples (hnormalized : normalizeKeySaltTuples tuples = .ok normalized)
    (h : (usedTuples normalized).mapM (deriveTupleKey env current.name password kvno) = .ok keys)
    (e : Int32) :
    ((keyMapOf keys).lookup e).map (fun k => (k.salt, some k.key)) =
      ((usedTuples normalized).find? fun t => t.enctype == e).bind fun t =>
        (saltForPrincipal current.name t.saltType).toOption.map fun salt =>
          (salt, env.stringToKey e password salt) := by
  obtain ⟨hfound, hnone⟩ :=
    lookup_derived h (fun t k => deriveTupleKey_enctype) (nodup_usedTuples hnormalized)
  cases hfind : (usedTuples normalized).find? fun t => t.enctype == e with
  | none =>
    rw [hnone]
    · rfl
    · intro hmem
      obtain ⟨t, ht, rfl⟩ := mem_map.1 hmem
      exact find?_eq_none.1 hfind t ht (beq_iff_eq.2 rfl)
  | some t =>
    have henctype : t.enctype = e := by simpa using find?_some hfind
    subst henctype
    obtain ⟨k, hk, hlookup⟩ := hfound t (mem_of_find?_eq_some hfind)
    obtain ⟨salt, hsalt, hderive⟩ := deriveTupleKey_ok.1 hk
    obtain ⟨_, value, hvalue, rfl⟩ := deriveKey_ok.1 hderive
    simp [hlookup, hsalt, hvalue, Except.toOption]

/-- The keys derived from the current ones have their shape. -/
theorem shaped_of_current
    {keys : GoMap Int32 Key} (h : deriveKeys env current.name password current.keys kvno = .ok keys)
    (e : Int32) : (keys.lookup e).map (fun k => (k.salt, some k.key)) =
      (current.keys.lookup e).map fun k =>
        (k.salt, env.stringToKey e password (if k.salt = [] then normalSalt current.name
          else k.salt)) := by
  simp only [deriveKeys, bind_ok] at h
  obtain ⟨derived, hderived, hpure⟩ := h
  cases hpure
  obtain ⟨hfound, hnone⟩ := lookup_derived hderived (fun entry k hk => by
    obtain ⟨_, value, _, rfl⟩ := deriveKey_ok.1 hk
    rfl) current.keys.nodupKeys
  cases hold : current.keys.lookup e with
  | none =>
    rw [hnone]
    · rfl
    · intro hmem
      exact lookup_eq_none.1 hold (mem_keys.2 hmem)
  | some old =>
    obtain ⟨k, hk, hlookup⟩ := hfound ⟨e, old⟩ (lookup_eq_some_iff.1 hold)
    obtain ⟨_, value, hvalue, rfl⟩ := deriveKey_ok.1 hk
    simp [hlookup, hvalue]

theorem find?_normalized {e : Int32} (h : normalizeKeySaltTuples tuples = .ok normalized) :
    (normalized.find? fun t => t.enctype == e) = tuples.find? fun t => t.enctype == e := by
  cases hfind : tuples.find? fun t => t.enctype == e with
  | none =>
    rw [find?_eq_none] at hfind ⊢
    intro t ht
    exact hfind t ((mem_normalized h).1 ht)
  | some t =>
    have ht : t ∈ normalized := (mem_normalized h).2 (mem_of_find?_eq_some hfind)
    have henctype : t.enctype = e := by simpa using find?_some hfind
    -- no other tuple of the normalized list has the enctype
    refine find?_eq_some_of_unique ht (beq_iff_eq.2 henctype) fun t' ht' he => ?_
    exact inj_on_of_nodup_map (nodup_normalized h) ht' ht ((beq_iff_eq.1 he).trans henctype.symm)

theorem find?_defaultTuples (e : Int32) : (defaultTuples.find? fun t => t.enctype == e) =
    if e ∈ defaultEnctypes then some ⟨e, SaltTypeNormal⟩ else none := by
  unfold defaultTuples
  induction defaultEnctypes with
  | nil => rfl
  | cons first rest ih =>
    rw [map_cons, find?_cons]
    by_cases he : first = e
    · subst he
      simp
    · have hne : (first == e) = false := beq_eq_false_iff_ne.2 he
      simp only [hne, ih, mem_cons, Ne.symm he, false_or]

variable {at_ : ℤ}

/-- **The keys of a change have its shape.** -/
theorem candidateKeys_shaped {keys : GoMap Int32 Key}
    (h : candidateKeys env current password tuples at_ = .ok keys) :
    Shaped env (shape current tuples) password keys ∧ keys.entries ≠ [] := by
  obtain ⟨next, hnext, hkeys⟩ := bind_ok.1 h
  simp only [deriveRecordWithTuplesAt, bind_ok] at hnext
  obtain ⟨normalized, hnormalized, derived, hderived, hpure⟩ := hnext
  cases hpure
  change (usedTuples normalized).mapM _ = _ at hderived
  have henctypes : (usedTuples normalized).map KeySaltTuple.enctype = derived.map Key.enctype :=
    (mapM_ok.1 hderived).map_eq fun t k hk => (deriveTupleKey_enctype hk).symm
  have hlength : (keyMapOf derived).entries.length = (usedTuples normalized).length := by
    rw [length_keyMapOf (henctypes ▸ nodup_usedTuples hnormalized), ←
      (mapM_ok.1 hderived).length_eq]
  have hused : usedTuples normalized ≠ [] := by
    unfold usedTuples
    split_ifs with hnil
    · decide
    · exact hnil
  unfold nextKeys at hkeys
  by_cases hshape : tuples = [] ∧ current.keys.entries ≠ [] ∧
      current.keys.entries.length ≠ (keyMapOf derived).entries.length
  · -- the current keys are of another shape, and it is kept
    rw [if_pos hshape] at hkeys
    obtain ⟨rfl, hne, hother⟩ := hshape
    cases hnormalized
    have hdefault : current.keys.entries ≠ [] ∧
        current.keys.entries.length ≠ defaultEnctypes.length :=
      ⟨hne, by rw [hlength] at hother; exact hother⟩
    refine ⟨fun e => ?_, ?_⟩
    · rw [shaped_of_current hkeys]
      unfold shape
      rw [if_pos rfl, if_pos hdefault, Option.map_map]
      rfl
    · simp only [deriveKeys, bind_ok] at hkeys
      obtain ⟨values, hvalues, hpure⟩ := hkeys
      cases hpure
      rw [entries_ne_nil_iff]
      obtain ⟨k, hk⟩ := exists_mem_of_ne_nil _ (ne_nil_of_mapM hvalues hne)
      exact ⟨k.enctype, (mem_foldl_insert).2 (.inr ⟨k, hk, rfl⟩)⟩
  · rw [if_neg hshape] at hkeys
    cases hkeys
    refine ⟨fun e => ?_, ?_⟩
    · rw [shaped_of_tuples hnormalized hderived]
      unfold shape
      by_cases htuples : tuples = []
      · subst htuples
        cases hnormalized
        rw [if_pos rfl, if_neg]
        · change (defaultTuples.find? _).bind _ = _
          rw [find?_defaultTuples]
          split_ifs
          · rfl
          · rfl
        · rintro ⟨hne, hother⟩
          exact hshape ⟨rfl, hne, by rw [hlength]; exact hother⟩
      · have hne : normalized ≠ [] := by
          rintro rfl
          obtain ⟨t, ht⟩ := exists_mem_of_ne_nil _ htuples
          cases (mem_normalized hnormalized).2 ht
        rw [if_neg htuples, usedTuples, if_neg hne, find?_normalized hnormalized, Option.map_bind]
        congr 1
        funext t
        rw [Function.comp_apply, Option.map_map]
        rfl
    · rw [← length_pos_iff, hlength]
      exact length_pos_iff.2 hused

/-! ## Refusing a password -/

/-- What a policy asks of a password by itself. -/
def Quality (policy : PolicyRecord) (password : Bytes) : Prop :=
  (policy.minLength.toInt ≤ 0 ∨ policy.minLength.toInt ≤ password.length) ∧
    (policy.minClasses.toInt ≤ 0 ∨ policy.minClasses.toInt ≤ passwordClasses password)

/-- The minimum life of the current password is over, or does not count. -/
def LifeOver (policy : PolicyRecord) (current : PrincipalRecord) (at_ : ℤ) (bypassMinLife : Bool) :
    Prop :=
  bypassMinLife ∨ policy.minLife.toInt ≤ 0 ∨ current.lastPasswordChange = zeroTime ∨
    current.lastPasswordChange + policy.minLife.toInt * second ≤ at_

/-- Keys that repeat a remembered password are refused, if nothing else is wrong with it. -/
theorem changedPassword_reuse {policy : PolicyRecord} {bypassMinLife keepOld : Bool}
    {keys : GoMap Int32 Key} (hkeys : candidateKeys env current password tuples at_ = .ok keys)
    (hnum : 0 < policy.historyNum.toInt) (hquality : Quality policy password)
    (hlife : LifeOver policy current at_ bypassMinLife)
    (hreuse : reuses env db current keys policy keepOld = true) :
    db.changedPassword env at_ password (some policy) bypassMinLife keepOld tuples current =
      .error .passwordReuse := by
  obtain ⟨next, hnext, hkeys⟩ := bind_ok.1 hkeys
  have happly : db.applyPolicy env at_ current { next with keys } password policy
    bypassMinLife keepOld =
      .error .passwordReuse := by
    unfold applyPolicy
    unfold LifeOver at hlife
    rw [ensure_bind hquality.1, ensure_bind hquality.2,
      ensure_bind hlife, if_pos hnum, changeHistory_reuse hreuse, error_bind]
  unfold changedPassword
  rw [hnext, ok_bind, hkeys, ok_bind]
  simp only [happly, error_bind]

/-! ## Runs of password changes -/

/-- A password change, made at the time `at_`. -/
structure Attempt where
  now : ℤ
  password : Bytes
  at_ : ℤ
  bypassMinLife : Bool := false
  keepOld : Bool := false
  tuples : List KeySaltTuple := []

/-- The database, and the passwords accepted so far with the last one first. -/
structure HistoryState where
  db : Database
  accepted : List Bytes := []

section Run

variable (env : KDB.Env) (name : Principal) (policy : PolicyRecord)

def Attempt.result (db : Database) (a : Attempt) : Except DBError Database :=
  db.changePasswordWithTuples env a.now name a.password a.at_ (some policy) a.bypassMinLife
    a.keepOld a.tuples

def Attempt.next (st : HistoryState) (a : Attempt) : HistoryState :=
  match a.result env name policy st.db with
  | .ok db' => ⟨db', a.password :: st.accepted⟩
  | .error _ => st

/-- The state after a run of attempts. -/
def attempted (start : Database) (attempts : List Attempt) : HistoryState :=
  attempts.foldl (Attempt.next env name policy) ⟨start, []⟩

/-- The attempt can be compared with the keys there are: it derives keys of this shape, and
comes after the minimum life. -/
structure Attempt.Comparable (s : Shape) (r : PrincipalRecord) (a : Attempt) : Prop where
  shape : shape r a.tuples = s
  derives : ∃ keys, candidateKeys env r a.password a.tuples a.at_ = .ok keys
  life : LifeOver policy r a.at_ a.bypassMinLife

/-- The keys of the accepted passwords the policy remembers are where the next change looks
for them: those of the last one are current, those before it follow in the history. -/
structure Remembers (s : Shape) (st : HistoryState) (r : PrincipalRecord) : Prop where
  found : st.db.lookup name = some r
  keys : ∀ i password, st.accepted[i]? = some password → i < policy.historyNum.toInt.toNat →
    ∃ keys, (keySets r)[i]? = some keys ∧ Shaped env s password keys
  quality : ∀ password ∈ st.accepted, Quality policy password
  live : liveHistory env st.db r = r.passwordHistory

end Run

theorem le_historyLimit (policy : PolicyRecord) (keepOld : Bool) :
    policy.historyNum.toInt.toNat - 1 ≤ historyLimit policy keepOld := by
  unfold historyLimit
  split_ifs
  · omega
  · exact le_rfl

/-- What is remembered is refused. -/
theorem refused_of_remembers {name : Principal} {policy : PolicyRecord} {st : HistoryState}
    {r : PrincipalRecord} {a : Attempt} (hnum : 0 < policy.historyNum.toInt)
    (h : Remembers env name policy s st r) (ha : a.Comparable env policy s r)
    (hmem : a.password ∈ st.accepted.take policy.historyNum.toInt.toNat) :
    a.result env name policy st.db = .error .passwordReuse := by
  obtain ⟨keys, hkeys⟩ := ha.derives
  obtain ⟨hshaped, hne⟩ := candidateKeys_shaped hkeys
  rw [ha.shape] at hshaped
  obtain ⟨i, hi, hget⟩ := getElem_of_mem hmem
  rw [length_take] at hi
  have haccepted : st.accepted[i]? = some a.password := by
    rw [← hget, getElem_take]
    exact getElem?_eq_getElem _
  have hin : i < policy.historyNum.toInt.toNat := lt_of_lt_of_le hi (min_le_left _ _)
  obtain ⟨old, hold, hshapedOld⟩ := h.keys i a.password haccepted hin
  have hmatch : passwordMatchesKeys keys old = true := hshaped.matches hshapedOld hne
  -- the matching keys are the current ones, or in the part of the history that is searched
  have hreuse : reuses env st.db r keys policy a.keepOld = true := by
    unfold reuses
    rw [Bool.or_eq_true]
    cases i with
    | zero =>
      left
      cases hold
      exact hmatch
    | succ i =>
      right
      rw [h.live, any_eq_true]
      have hbound : i < historyLimit policy a.keepOld := by
        have := le_historyLimit policy a.keepOld
        omega
      refine ⟨old, mem_iff_getElem?.2 ⟨i, ?_⟩, hmatch⟩
      rw [getElem?_take, if_pos hbound]
      exact hold
  unfold Attempt.result changePasswordWithTuples modify find
  rw [h.found]
  have hquality := h.quality a.password (mem_of_mem_take hmem)
  simp only [ofOption, ok_bind,
    changedPassword_reuse hkeys hnum hquality ha.life hreuse, error_bind]

/-- A change that is accepted is remembered, before those there were. -/
theorem remembers_of_accepted {name : Principal} {policy : PolicyRecord} {st : HistoryState}
    {a : Attempt} (hnum : 0 < policy.historyNum.toInt)
    (h : st.accepted = [] ∨ ∃ r, Remembers env name policy s st r)
    (ha : ∀ r, st.db.lookup name = some r → a.Comparable env policy s r)
    (hok : a.result env name policy st.db = .ok db')
    (hkey : (db'.historyKey env).map Key.kvno = (st.db.historyKey env).map Key.kvno) :
    ∃ r, Remembers env name policy s ⟨db', a.password :: st.accepted⟩ r := by
  obtain ⟨current, out, hlookup, hout, rfl⟩ := modify_ok.1 hok
  have hchanged := changedPassword_ok hout
  have hsame : ∀ r, Remembers env name policy s st r → r = current := fun r hr =>
    Option.some.inj (hr.found.symm.trans hlookup)
  have hhistory : out.passwordHistory =
      (current.keys :: liveHistory env st.db current).take (historyLimit policy a.keepOld) := by
    rw [hchanged.history, keptHistory, if_pos hnum]
  refine ⟨out, ?_, ?_, ?_, ?_⟩
  · obtain ⟨hwhere, _⟩ := replaces_of_lookup hlookup hchanged.same.1
    change (st.db.save a.now out).principals.lookup (canonical name) = some out
    rw [lookup_save, if_pos hwhere.symm]
  · intro i password hi hin
    cases i with
    | zero =>
      cases hi
      refine ⟨out.keys, rfl, ?_⟩
      rw [← (ha current hlookup).shape]
      exact (candidateKeys_shaped hchanged.keys).1
    | succ i =>
      rcases h with hnil | ⟨r, hr⟩
      · rw [hnil] at hi
        cases hi
      · obtain rfl := hsame r hr
        obtain ⟨keys, hkeys, hshaped⟩ := hr.keys i password hi (by omega)
        refine ⟨keys, ?_, hshaped⟩
        have hbound : i < historyLimit policy a.keepOld := by
          have := le_historyLimit policy a.keepOld
          omega
        change out.passwordHistory[i]? = some keys
        rw [hhistory, hr.live, getElem?_take, if_pos hbound]
        exact hkeys
  · intro password hmem
    rcases mem_cons.1 hmem with rfl | hmem
    · simp only [changedPassword, applyPolicy, bind_ok, ensure_ok] at hout
      obtain ⟨_, _, _, _, _, ⟨_, hlength, _, hclasses, _⟩, _⟩ := hout
      exact ⟨hlength, hclasses⟩
    · rcases h with hnil | ⟨r, hr⟩
      · rw [hnil] at hmem
        cases hmem
      · exact hr.quality password hmem
  · have hversion := hchanged.adminKVNO policy rfl hnum
    rw [← hkey] at hversion
    unfold liveHistory
    cases hkey' : (st.db.save a.now out).historyKey env with
    | none => rfl
    | some key =>
      rw [hkey'] at hversion
      exact if_neg fun hother => hother.2 hversion

/-- **The last passwords are refused.** In every run of changes under the policy that all derive
keys of one shape, after the minimum life and with one version of the history key, a change to one
of the last `historyNum` accepted passwords fails with `passwordReuse`. -/
theorem password_history (env : KDB.Env) (name : Principal) (policy : PolicyRecord)
    (start : Database)
    (attempts : List Attempt) (s : Shape) (hnum : 0 < policy.historyNum.toInt)
    (hkey : ∀ done, done <+: attempts →
      ((attempted env name policy start done).db.historyKey env).map Key.kvno =
        (start.historyKey env).map Key.kvno)
    (hcomparable : ∀ done a r, done ++ [a] <+: attempts →
      (attempted env name policy start done).db.lookup name = some r → a.Comparable env policy s r)
    (done : List Attempt) (a : Attempt) (hdone : done ++ [a] <+: attempts)
    (hmem : a.password ∈ (attempted env name policy start done).accepted.take
      policy.historyNum.toInt.toNat) :
    a.result env name policy (attempted env name policy start done).db = .error .passwordReuse := by
  have hinv : ∀ {done}, done <+: attempts → (attempted env name policy start done).accepted = [] ∨
      ∃ r, Remembers env name policy s (attempted env name policy start done) r := by
    refine stages_invariant (P := fun st => st.accepted = [] ∨
      ∃ r, Remembers env name policy s st r)
      (.inl rfl) fun done a hdone hinv => ?_
    have hbefore : done <+: attempts := (prefix_append _ _).trans hdone
    have hversion := (hkey _ hdone).trans (hkey _ hbefore).symm
    rw [attempted, foldl_concat, Attempt.next] at hversion
    rw [Attempt.next]
    cases hcase : a.result env name policy
      (done.foldl (Attempt.next env name policy) ⟨start, []⟩).db with
    | error err => exact hinv
    | ok db' =>
      rw [hcase] at hversion
      exact .inr
        (remembers_of_accepted hnum hinv (fun r hr => hcomparable done a r hdone hr) hcase hversion)
  rcases hinv ((prefix_append _ _).trans hdone) with hnil | ⟨r, hr⟩
  · rw [hnil, take_nil] at hmem
    cases hmem
  · exact refused_of_remembers hnum hr (hcomparable done a r hdone hr.found) hmem

end Database

namespace Small

open Database

/-- A policy that remembers two passwords. -/
def twoPasswords : PolicyRecord := { name := str "p", historyNum := 2 }

/-- A change to the password `x` under one enctype. -/
def attempt (enctype : Int32) : Attempt :=
  { now := 0, password := str "x", at_ := 0, tuples := [⟨enctype, 0⟩] }

/-- The password `x` is accepted, and at once again under another enctype. -/
theorem password_reused :
    (attempted env client twoPasswords oneClient [attempt 18]).accepted.take 2 = [str "x"] ∧
    (attempt 17).password = str "x" ∧ ((attempt 17).result env client twoPasswords
      (attempted env client twoPasswords oneClient [attempt 18]).db).toOption.isSome ∧
    (∀ done, done <+: [attempt 18, attempt 17] →
      ((attempted env client twoPasswords oneClient done).db.historyKey env).map Key.kvno =
        (oneClient.historyKey env).map Key.kvno) := by
  refine ⟨by decide +kernel, rfl, by decide +kernel, ?_⟩
  intro done hdone
  rw [← mem_inits] at hdone
  have hall : ∀ done ∈ [attempt 18, attempt 17].inits,
      ((attempted env client twoPasswords oneClient done).db.historyKey env).map Key.kvno =
        (oneClient.historyKey env).map Key.kvno := by decide +kernel
  exact hall done hdone

/-- With the same enctype it is refused. -/
theorem password_history_twice :
    (attempt 18).result env client twoPasswords
      (attempted env client twoPasswords oneClient [attempt 18]).db =
      .error .passwordReuse := by
  refine password_history env client twoPasswords oneClient [attempt 18, attempt 18]
    (shape clientRecord [⟨18, 0⟩]) (by decide) ?_ ?_ [attempt 18] (attempt 18) (prefix_refl _)
    (by decide +kernel)
  · intro done hdone
    rw [← mem_inits] at hdone
    have hall : ∀ done ∈ [attempt 18, attempt 18].inits,
        ((attempted env client twoPasswords oneClient done).db.historyKey env).map Key.kvno =
          (oneClient.historyKey env).map Key.kvno := by decide +kernel
    exact hall done hdone
  · intro done a r hdone hr
    -- at both stages the record has the name of the client, and keys can be derived
    have hall : ∀ done ∈ [[], [attempt 18]],
      ((attempted env client twoPasswords oneClient done).db.lookup
        client).map (fun r =>
          (r.name, (candidateKeys env r (str "x") [⟨18, 0⟩] 0).toOption.isSome)) =
        some (client, true) := by decide +kernel
    have hstage : done ∈ [[], [attempt 18]] ∧ a = attempt 18 := by
      obtain ⟨rest, hrest⟩ := hdone
      rcases done with _ | ⟨first, _ | ⟨second, done⟩⟩
      · cases hrest
        exact ⟨by simp, rfl⟩
      · cases hrest
        exact ⟨by simp, rfl⟩
      · simp at hrest
    obtain ⟨hmem, rfl⟩ := hstage
    have hfound := hall done hmem
    rw [hr, Option.map_some, Option.some.injEq, Prod.mk.injEq] at hfound
    obtain ⟨hname, hsome⟩ := hfound
    obtain ⟨keys, hkeys⟩ := Option.isSome_iff_exists.1 hsome
    refine ⟨?_, ⟨keys, toOption_some.1 hkeys⟩, .inr (.inl (by decide))⟩
    funext e
    simp only [shape, hname]
    rfl

end Small

end Kerberos
