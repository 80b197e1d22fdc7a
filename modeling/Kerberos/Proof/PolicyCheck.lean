import Kerberos.Proof.PasswordHistory

/-!
# The policy check before a password change

`CheckPasswordPolicy` makes the tests of a password change without the change. It differs from it in
three points (`check_agrees_iff`): it reports a missing principal, it tests the password before the
keys are derived, and it looks at a history sealed under an older history key, which the change
gives up.
-/

namespace Kerberos

open List Except

/-- The errors with which a policy refuses a password. -/
def DBError.refuses : DBError → Bool
  | .passwordTooShort | .passwordClasses | .passwordTooSoon | .passwordReuse => true
  | _ => false

/-- The refusal in an outcome, if it is one. -/
def refusal {α : Type} : Except DBError α → Except DBError Unit
  | .ok _ => .ok ()
  | .error e => if e.refuses then .error e else .ok ()

variable {e : DBError} {q : Prop} [Decidable q]

theorem refusal_map {α β : Type} (x : Except DBError α) (f : α → β) :
    refusal (x >>= fun a => pure (f a)) = refusal x := by
  cases x <;> rfl

/-- A test the two begin with is passed by both or refused by both. -/
theorem ensure_eq_refusal_iff {α : Type} {x : Unit → Except DBError Unit}
    {y : Unit → Except DBError α}
    (he : e.refuses = true) :
    ensure q e >>= x = refusal (ensure q e >>= y) ↔ (q → x () = refusal (y ())) := by
  by_cases hq : q
  · rw [ensure_bind hq, ensure_bind hq, forall_prop_of_true hq]
  · rw [ensure_of_not hq]
    refine iff_of_true ?_ fun h => absurd h hq
    rw [error_bind, error_bind, refusal, if_pos he]

/-- Two tests that are refused with one error are one test. -/
theorem both_eq_iff {a b c : Bool} :
    (ensure (¬ a = true) e >>= fun _ => ensure (¬ b = true) e) = ensure (¬ c = true) e ↔
      (a || b) = c := by
  cases a <;> cases b <;> cases c <;> simp [ensure, ok_bind, error_bind]

namespace Database

variable {env : KDB.Env} {db : Database} {at_ : ℤ} {current : PrincipalRecord} {password : Bytes}
  {p : PolicyRecord} {bypassMinLife : Bool} {keys : GoMap Int32 Key}

theorem deriveKey_error {enctype : Int32} {kvno : UInt32} {salt recorded : Bytes}
    (h : deriveKey env enctype kvno password salt recorded = .error e) : e.refuses = false := by
  simp only [deriveKey, bind_error, ofOption_error] at h
  rcases h with ⟨-, rfl⟩ | ⟨_, _, ⟨-, rfl⟩ | ⟨_, _, h⟩⟩
  · rfl
  · rfl
  · cases h

/-- Keys that cannot be derived are no refusal. -/
theorem candidateKeys_error (h : candidateKeys env current password [] at_ = .error e) :
    e.refuses = false := by
  rcases bind_error.1 h with h | ⟨next, -, h⟩
  · rcases bind_error.1 h with h | ⟨_, hnormalized, h⟩
    · cases h
    cases hnormalized
    obtain h | ⟨_, -, ⟨⟩⟩ := bind_error.1 h
    obtain ⟨tuple, htuple, herror⟩ := mapM_error h
    obtain ⟨enctype, -, rfl⟩ := mem_map.1 htuple
    exact deriveKey_error herror
  · unfold nextKeys at h
    split_ifs at h
    obtain h | ⟨_, -, ⟨⟩⟩ := bind_error.1 h
    obtain ⟨entry, -, herror⟩ := mapM_error h
    exact deriveKey_error herror

/-- The refusal of a change, which comes after the keys are derived. -/
theorem refusal_changedPassword (policy : Option PolicyRecord) :
    refusal (db.changedPassword env at_ password policy bypassMinLife false [] current) =
      (candidateKeys env current password [] at_).toOption.elim (.ok ()) fun keys =>
        policy.elim (.ok ()) fun p =>
        refusal (db.applyPolicy env at_ current { current with keys } password p bypassMinLife
          false) := by
  unfold changedPassword
  cases hkeys : candidateKeys env current password [] at_ with
  | error e =>
    have hnone : refusal (.error e : Except DBError PrincipalRecord) = .ok () := by
      rw [refusal, candidateKeys_error hkeys]
      rfl
    rcases bind_error.1 hkeys with hnext | ⟨next, hnext, hkeys⟩
    · rw [hnext]
      exact hnone
    · rw [hnext, ok_bind, hkeys]
      exact hnone
  | ok keys =>
    obtain ⟨next, hnext, hkeys⟩ := bind_ok.1 hkeys
    rw [hnext, ok_bind, hkeys]
    cases policy with
    | none => rfl
    | some p => exact refusal_map _ _

theorem refusal_sealHistory : refusal (sealHistory env db current p false) = .ok () := by
  unfold sealHistory
  cases db.historyKey env with
  | none => rfl
  | some key =>
    dsimp only
    generalize encodeKADMData env _ _ = data
    cases data <;> rfl

theorem refusal_changeHistory {next : PrincipalRecord} :
    refusal (db.changeHistory env current next p false) =
    ensure (¬ reuses env db current next.keys p false) .passwordReuse := by
  by_cases h : reuses env db current next.keys p false = true
  · rw [changeHistory_reuse h, ensure_of_not (not_not.2 h)]
    rfl
  · rw [ensure_of h, changeHistory_eq]
    unfold reuses at h
    rw [Bool.or_eq_true, not_or] at h
    rw [ensure_bind h.1, ensure_bind h.2, refusal_sealHistory]

/-- The keys repeat those of a password in the history as it is stored. -/
def remembers (current : PrincipalRecord) (keys : GoMap Int32 Key) (p : PolicyRecord) : Bool :=
  passwordMatchesKeys keys current.keys ||
    (current.passwordHistory.take (historyLimit p false)).any (passwordMatchesKeys keys)

/-- The history was sealed under another version of the history key, so that a change gives it
up. -/
def Stale (env : KDB.Env) (db : Database) (current : PrincipalRecord) : Prop :=
  ∃ key, db.historyKey env = some key ∧ current.adminHistoryKVNO ≠ 0 ∧
    current.adminHistoryKVNO ≠ key.kvno

theorem remembers_eq_reuses_iff : remembers current keys p = reuses env db current keys p false ↔
    (Stale env db current → remembers current keys p = true →
      passwordMatchesKeys keys current.keys = true) := by
  unfold remembers reuses liveHistory Stale
  cases db.historyKey env with
  | none => exact iff_of_true rfl fun ⟨_, h, _⟩ => by cases h
  | some key =>
    dsimp only
    split_ifs with hstale
    · rw [take_nil, any_nil, Bool.or_false]
      refine ⟨fun h _ hremembers => h ▸ hremembers, fun h => ?_⟩
      cases hcurrent : passwordMatchesKeys keys current.keys with
      | true => rfl
      | false => simpa [hcurrent] using h ⟨key, rfl, hstale⟩
    · exact iff_of_true rfl fun ⟨_, h, hother⟩ => absurd (Option.some.inj h ▸ hother) hstale

/-- The check and the change come to the same under a policy: the keys can be derived, and no old
password counts only in a history that the change gives up; or they cannot, and nothing is asked of
them. -/
@[mk_iff]
structure Alike (env : KDB.Env) (db : Database) (current : PrincipalRecord)
    (password : Bytes) (at_ : ℤ)
    (p : PolicyRecord) (bypassMinLife : Bool) : Prop where
  derived : ∀ keys, candidateKeys env current password [] at_ = .ok keys → Quality p password →
    LifeOver p current at_ bypassMinLife → 0 < p.historyNum.toInt → Stale env db current →
      remembers current keys p = true → passwordMatchesKeys keys current.keys = true
  underived : ∀ e, candidateKeys env current password [] at_ = .error e →
    Quality p password ∧ LifeOver p current at_ bypassMinLife ∧ ¬ 0 < p.historyNum.toInt

/-- **The check and the change agree** exactly if the principal is there and they are alike under
the policy: the check gives no error if the change is not refused, and the error with which it is
refused otherwise. -/
theorem check_agrees_iff (env : KDB.Env) (db : Database) (now : ℤ) (name : Principal)
    (password : Bytes)
    (at_ : ℤ) (policy : Option PolicyRecord) (bypassMinLife : Bool) :
    db.checkPasswordPolicy env now name password at_ policy bypassMinLife =
        refusal
          (db.changePasswordWithTuples env now name password at_ policy bypassMinLife false []) ↔
      ∃ current, db.lookup name = some current ∧
        ∀ p ∈ policy, Alike env db current password at_ p bypassMinLife := by
  unfold checkPasswordPolicy changePasswordWithTuples modify find
  cases hlookup : db.lookup name with
  | none => exact iff_of_false (fun h => by cases h) fun ⟨_, h, _⟩ => by cases h
  | some current =>
    -- the check derives the keys at another time, which they do not depend on
    have hkeys (f : GoMap Int32 Key → Except DBError Unit) :
        (deriveRecordWithTuplesAt env current.name password (current.kvno + 1) [] now >>=
          fun next =>
          nextKeys env current password [] next >>= f) =
            candidateKeys env current password [] at_ >>= f := by
      simp only [candidateKeys, deriveRecordWithTuplesAt, bind_assoc]
      rfl
    simp only [ofOption, ok_bind, refusal_map, refusal_changedPassword, Option.some.injEq,
      exists_eq_left', hkeys]
    cases policy with
    | none =>
      refine iff_of_true ?_ (by simp)
      cases candidateKeys env current password [] at_ <;> rfl
    | some p =>
      simp only [Option.mem_some_iff]
      cases hderived : candidateKeys env current password [] at_ with
      | error e =>
        simp only [Except.toOption, Option.elim_none, ensure_bind_ok, alike_iff, hderived,
          reduceCtorEq, false_imp_iff, implies_true, true_and, error.injEq, forall_eq',
            Quality, and_assoc]
        refine and_congr_right fun _ => and_congr_right fun _ => and_congr_right fun _ => ?_
        split_ifs with hnum
        · exact iff_of_false (fun h => by cases h) (not_not.2 hnum)
        · exact iff_of_true rfl hnum
      | ok keys =>
        simp only [Except.toOption, Option.elim_some, applyPolicy, alike_iff, hderived,
          reduceCtorEq, false_imp_iff, implies_true, and_true, ok.injEq, forall_eq',
            Quality, and_imp]
        rw [ensure_eq_refusal_iff rfl]
        refine imp_congr_right fun _ => ?_
        rw [ensure_eq_refusal_iff rfl]
        refine imp_congr_right fun _ => ?_
        rw [ensure_eq_refusal_iff rfl]
        refine imp_congr_right fun _ => ?_
        by_cases hnum : 0 < p.historyNum.toInt
        · rw [if_pos hnum, if_pos hnum, refusal_map, refusal_changeHistory,
            forall_prop_of_true hnum, ← remembers_eq_reuses_iff]
          exact both_eq_iff
        · rw [if_neg hnum, if_neg hnum]
          exact iff_of_true rfl fun h => absurd h hnum

end Database

namespace Small

open Database

/-- The client after two passwords, and a history key that was renewed after the second. -/
def renewedHistory : Database :=
  ((newDatabase realm).put { name := client, keys := keyMapOf [key 2 7], kvno := 2,
                             adminHistoryKVNO := 1, passwordHistory := [keyMapOf [key 1 120]] }).put
    { name := ⟨realm, NTPrincipal, [str "kadmin", str "history"]⟩,
      keys := keyMapOf [key 2 9], kvno := 2 }

/-- The check refuses the first password, which the change takes. -/
theorem forgotten_password :
    renewedHistory.checkPasswordPolicy env 0 client (str "x") 0 (some twoPasswords) false =
      .error .passwordReuse ∧
      (renewedHistory.changePasswordWithTuples env 0 client (str "x") 0
        (some twoPasswords) false false
        []).toOption.isSome := by
  decide +kernel

end Small

end Kerberos
