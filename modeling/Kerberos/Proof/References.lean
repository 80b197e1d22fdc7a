import Kerberos.Lib.Run
import Kerberos.Proof.KeyChanges
import Kerberos.Spec.SmallKDB

/-!
# References between names

A database is `Referential` if every alias targets a principal, no name is both an alias and
a principal, and the policy of a principal exists. `AddAlias`, `CreatePrincipalWithOptions`
and `DeletePolicy` check this for what they change, the other calls do not: a principal can be
deleted under its alias, or created under the name of one. `Intact` says for each call
what it would have to check, and a run stays referential exactly as long as its successful
calls are intact (`references_hold_iff`).
-/

namespace Kerberos

open Transition Except Option AList

namespace Database

/-- The policy exists, or there is none. -/
def PolicyKnown (db : Database) (policy : Bytes) : Prop := policy = [] ∨ policy ∈ db.policies

/-- No alias has the principal with this key in the database as its target. -/
def Untargeted (db : Database) (principal : Bytes) : Prop :=
  ∀ a target, db.aliases.lookup a = some target → canonical target ≠ principal

structure Referential (db : Database) : Prop where
  targets : ∀ a target, db.aliases.lookup a = some target → canonical target ∈ db.principals
  disjoint : ∀ a, a ∈ db.aliases → a ∉ db.principals
  policies : ∀ principal r, db.principals.lookup principal = some r → db.PolicyKnown r.policy

theorem referential_newDatabase (realm : Bytes) : Referential (newDatabase realm) :=
  ⟨by simp [newDatabase], by simp [newDatabase], by simp [newDatabase]⟩

end Database

namespace DBCall

/-- What the call has to see to for the references: it files no record under an alias or with
an unknown policy, and removes none that an alias targets. -/
def Intact (db : Database) : DBCall → Prop
  | addPrincipal name _ _ => ∀ p, parseName name db.realm = .ok p → canonical p ∉ db.aliases
  | createPrincipal name _ _ _ => ∀ p, parseName name db.realm = .ok p → canonical p ∉ db.aliases
  | importPrincipal record => canonical record.name ∉ db.aliases ∧ db.PolicyKnown record.policy
  | setPrincipalPolicy _ policy => db.PolicyKnown policy
  | deletePrincipal name => db.Untargeted (canonical name)
  | keys (.updatePrincipal record _) => db.PolicyKnown record.policy
  | renamePrincipal src dest => canonical dest ∉ db.aliases ∧ db.Untargeted (canonical src)
  | applyPrincipal record deleted =>
    if deleted then db.Untargeted (canonical record.name)
    else canonical record.name ∉ db.aliases ∧ db.PolicyKnown record.policy
  | _ => True

end DBCall

namespace Database

variable {env : KDB.Env} {db db' : Database} {now : ℤ}

/-! ## What is done to the principals -/

/-- One record is filed. -/
structure Puts (db : Database) (record : PrincipalRecord) (db' : Database) : Prop where
  principals : db'.principals = db.principals.insert (canonical record.name) record
  aliases : db'.aliases = db.aliases
  policies : db'.policies = db.policies

/-- One record is removed. -/
structure Removes (db : Database) (principal : Bytes) (db' : Database) : Prop where
  principals : db'.principals = db.principals.erase principal
  aliases : db'.aliases = db.aliases
  policies : db'.policies = db.policies

theorem puts_put (db : Database) (record : PrincipalRecord) : Puts db record (db.put record) :=
  ⟨rfl, rfl, rfl⟩

theorem puts_save (db : Database) (now : ℤ) (record : PrincipalRecord) :
    Puts db record (db.save now record) := ⟨rfl, rfl, rfl⟩

theorem removes_remove (db : Database) (principal : Bytes) :
    Removes db principal (db.remove principal) :=
  ⟨rfl, rfl, rfl⟩

/-- **Filing a record** keeps the references if it is no alias and its policy is known. -/
theorem Puts.referential_iff {record : PrincipalRecord} (h : Puts db record db')
    (href : Referential db) :
    Referential db' ↔ canonical record.name ∉ db.aliases ∧ db.PolicyKnown record.policy := by
  constructor
  · intro href'
    constructor
    · intro halias
      rw [← h.aliases] at halias
      refine href'.disjoint _ halias ?_
      rw [h.principals]
      exact mem_insert _ |>.2 (.inl rfl)
    · have hknown :=
        href'.policies (canonical record.name) record (by rw [h.principals, lookup_insert])
      rwa [PolicyKnown, h.policies] at hknown
  · rintro ⟨halias, hpolicy⟩
    refine ⟨fun a target ha => ?_, fun a ha => ?_, fun principal r hr => ?_⟩
    · rw [h.aliases] at ha
      rw [h.principals]
      exact mem_insert _ |>.2 (.inr (href.targets a target ha))
    · rw [h.aliases] at ha
      rw [h.principals, mem_insert, not_or]
      exact ⟨fun heq => halias (heq ▸ ha), href.disjoint a ha⟩
    · rw [PolicyKnown, h.policies]
      rw [h.principals] at hr
      by_cases hp : principal = canonical record.name
      · subst hp
        rw [lookup_insert] at hr
        cases hr
        exact hpolicy
      · rw [lookup_insert_ne hp] at hr
        exact href.policies principal r hr

/-- **Removing a record** keeps the references if no alias targets it. -/
theorem Removes.referential_iff {principal : Bytes} (h : Removes db principal db')
    (href : Referential db) :
    Referential db' ↔ db.Untargeted principal := by
  constructor
  · intro href' a target ha heq
    have hmem := href'.targets a target (by rwa [h.aliases])
    rw [h.principals, heq, mem_erase] at hmem
    exact hmem.1 rfl
  · intro hfree
    refine ⟨fun a target ha => ?_, fun a ha => ?_, fun p r hr => ?_⟩
    · rw [h.aliases] at ha
      rw [h.principals, mem_erase]
      exact ⟨hfree a target ha, href.targets a target ha⟩
    · rw [h.aliases] at ha
      rw [h.principals, mem_erase]
      exact fun hmem => href.disjoint a ha hmem.2
    · rw [PolicyKnown, h.policies]
      rw [h.principals] at hr
      by_cases hp : p = principal
      · subst hp
        rw [lookup_erase] at hr
        cases hr
      · rw [lookup_erase_ne hp] at hr
        exact href.policies p r hr

/-- A record put in the place of one found there is no alias: only its policy counts. -/
theorem Puts.referential_iff_policy {record current : PrincipalRecord} {name : Principal}
    (h : Puts db record db') (href : Referential db) (hlookup : db.lookup name = some current)
    (hname : canonical record.name = canonical name) :
    Referential db' ↔ db.PolicyKnown record.policy := by
  rw [h.referential_iff href, and_iff_right_iff_imp]
  intro _ halias
  refine href.disjoint _ halias ?_
  rw [hname]
  exact lookup_isSome.1 (isSome_of_mem hlookup)

/-- A record with name and policy of the one found takes its place, or nothing is done. -/
def Edits (db : Database) (name : Principal) (db' : Database) : Prop :=
  db' = db ∨ ∃ current record, db.lookup name = some current ∧
    (record.name = current.name ∧ record.policy = current.policy) ∧ Puts db record db'

theorem edits_of_modify {name : Principal} {f : PrincipalRecord → Except DBError PrincipalRecord}
    (hf : ∀ current record, f current = .ok record → record.name = current.name ∧
      record.policy = current.policy)
    (h : db.modify now name f = .ok db') : Edits db name db' := by
  obtain ⟨current, record, hlookup, hrecord, rfl⟩ := modify_ok.1 h
  exact .inr ⟨current, record, hlookup, hf current record hrecord, puts_save ..⟩

theorem Edits.referential {name : Principal} (h : Edits db name db') (href : Referential db) :
    Referential db' := by
  rcases h with rfl | ⟨current, record, hlookup, ⟨hname, hpolicy⟩, hputs⟩
  · exact href
  · refine (hputs.referential_iff_policy href hlookup ?_).2 ?_
    · rw [hname]
      exact db.principals_canonical _ _ hlookup
    · rw [hpolicy]
      exact href.policies _ current hlookup

/-! ## One call -/

variable {name : Bytes}

theorem addPrincipal_puts {password : Bytes} {kvnos : List UInt32}
    (h : db.addPrincipal env now name password kvnos = .ok db') :
    ∃ p record, parseName name db.realm = .ok p ∧ record.name = p ∧ record.policy = [] ∧
      Puts db record db' := by
  simp only [addPrincipal, bind_ok] at h
  obtain ⟨_, _, p, hp, _, _, keys, _, hpure⟩ := h
  cases hpure
  exact ⟨p, _, hp, rfl, rfl, puts_save ..⟩

theorem createPrincipal_puts {password : Bytes} {tuples : List KeySaltTuple}
    {policy : Option PolicyRecord}
    (h : db.createPrincipalWithTuples env now name password tuples policy = .ok db') :
    ∃ p record, parseName name db.realm = .ok p ∧ record.name = p ∧ db.PolicyKnown record.policy ∧
      Puts db record db' := by
  simp only [createPrincipalWithTuples, bind_ok] at h
  obtain ⟨p, hp, record, hrecord, _, _, h⟩ := h
  obtain ⟨hname, hpolicy, _⟩ := deriveRecord_keysAt hrecord
  cases policy with
  | none =>
    cases h
    exact ⟨p, record, hp, hname, .inl hpolicy, puts_save ..⟩
  | some given =>
    simp only [bind_ok, getPolicy, ofOption_ok] at h
    obtain ⟨policy, hfound, hpure⟩ := h
    cases hpure
    refine ⟨p, _, hp, ?_, .inr ?_, puts_save db now _⟩
    · exact hname
    · rw [db.policies_named _ _ hfound]
      exact lookup_isSome.1 (isSome_of_mem hfound)

/-- A rename files the record under its new name and removes the old one. -/
theorem renamePrincipal_ok {src dest : Principal} (h : db.renamePrincipal now src dest = .ok db') :
    ∃ record, db.lookup src = some record ∧ canonical dest ∉ db.principals ∧
      ∃ mid, Puts db { record with name := dest } mid ∧ Removes mid (canonical src) db' := by
  simp only [renamePrincipal, find, bind_ok, ofOption_ok, ensure_ok] at h
  obtain ⟨record, hlookup, _, hnone, hpure⟩ := h
  cases hpure
  refine ⟨record, hlookup, ?_, _, puts_put .., ⟨rfl, rfl, rfl⟩⟩
  rw [← lookup_eq_none]
  exact isNone_iff_eq_none.1 hnone

/-- The principal whose record a call edits, `UpdatePrincipal` and `SetPrincipalPolicy` apart. -/
def edited : DBCall → Option Principal
  | .updateLockout name .. | .recordAuthFailure name .. | .resetAuthFailures name _
  | .recordAuthSuccess name _ | .setString name .. | .keys (.changePassword name ..)
  | .keys (.randomizeKeys _ name ..) | .keys (.setKeys name ..) | .keys (.purgeKeys name _) =>
    some name
  | _ => none

theorem edits_keyCall {call : KeyCall} {subject : Principal}
    (hsubject : edited (.keys call) = some subject)
    (h : call.apply env now db = .ok db') : Edits db subject db' := by
  cases call with
  | changePassword name password at_ policy bypassMinLife keepOld tuples =>
    cases hsubject
    refine edits_of_modify (fun current record hrecord => ?_) h
    have hsame := (changedPassword_ok hrecord).same
    exact ⟨hsame.1, hsame.2.1⟩
  | randomizeKeys entropy name keepOld tuples =>
    cases hsubject
    obtain ⟨_, _, current, out, _, hlookup, _, hfiled, _, rfl⟩ := randomizeKeys_ok h
    exact .inr ⟨current, out, hlookup, ⟨hfiled.same.1, hfiled.same.2.1⟩, puts_save ..⟩
  | setKeys name keys keepOld =>
    cases hsubject
    obtain ⟨current, out, hlookup, hfiled, _, rfl⟩ := setKeys_ok h
    exact .inr ⟨current, out, hlookup, ⟨hfiled.same.1, hfiled.same.2.1⟩, puts_save ..⟩
  | purgeKeys name keepKVNO =>
    cases hsubject
    obtain ⟨current, _, hlookup, _, _, rfl⟩ := purgeKeys_ok h
    exact .inr ⟨current, _, hlookup, by exact ⟨rfl, rfl⟩, puts_save db now _⟩
  | updatePrincipal => cases hsubject

theorem edits_apply {call : DBCall} {subject : Principal} (hsubject : edited call = some subject)
    (h : call.apply env now db = .ok db') : Edits db subject db' := by
  cases call with
  | updateLockout | recordAuthFailure | recordAuthSuccess | setString =>
    cases hsubject
    refine edits_of_modify (fun current record hrecord => ?_) h
    cases hrecord
    exact ⟨rfl, rfl⟩
  | resetAuthFailures name expected =>
    cases hsubject
    simp only [DBCall.apply, resetAuthFailures, find, bind_ok, ofOption_ok] at h
    obtain ⟨record, hlookup, h⟩ := h
    split_ifs at h
    · exact .inl (ok.inj h).symm
    · cases h
      exact .inr ⟨record, _, hlookup, by exact ⟨rfl, rfl⟩, puts_save db now _⟩
  | keys call => exact edits_keyCall hsubject h
  | _ => cases hsubject

theorem referential_rename_iff {src dest : Principal} (href : Referential db)
    (h : db.renamePrincipal now src dest = .ok db') :
    Referential db' ↔ canonical dest ∉ db.aliases ∧ db.Untargeted (canonical src) := by
  obtain ⟨record, hlookup, hfree, mid, hputs, hremoves⟩ := renamePrincipal_ok h
  have hmid : Referential mid ↔ canonical dest ∉ db.aliases := by
    rw [hputs.referential_iff href, and_iff_left_iff_imp]
    intro _
    exact href.policies _ record hlookup
  have huntargeted : mid.Untargeted (canonical src) ↔ db.Untargeted (canonical src) := by
    rw [Untargeted, Untargeted, hputs.aliases]
  by_cases halias : canonical dest ∈ db.aliases
  · -- the new name is then an alias and a principal
    refine iff_of_false (fun href' => ?_) fun hand => hand.1 halias
    have hne : canonical dest ≠ canonical src := by
      intro heq
      exact hfree (heq ▸ lookup_isSome.1 (isSome_of_mem hlookup))
    refine href'.disjoint (canonical dest) ?_ ?_
    · rwa [hremoves.aliases, hputs.aliases]
    · rw [hremoves.principals, mem_erase, hputs.principals]
      exact ⟨hne, mem_insert _ |>.2 (.inl rfl)⟩
  · rw [hremoves.referential_iff (hmid.2 halias), huntargeted]
    exact (and_iff_right halias).symm

theorem Referential.of_same (href : Referential db) (hprincipals : db'.principals = db.principals)
    (haliases : db'.aliases = db.aliases) (hpolicies : ∀ p ∈ db.policies, p ∈ db'.policies) :
    Referential db' := by
  refine ⟨?_, ?_, ?_⟩
  · rw [haliases, hprincipals]
    exact href.targets
  · rw [haliases, hprincipals]
    exact href.disjoint
  · rw [hprincipals]
    intro principal r hr
    exact (href.policies principal r hr).imp_right (hpolicies _)

/-- A policy is removed only if no principal has it. -/
theorem referential_deletePolicy (href : Referential db) (h : db.deletePolicy name = .ok db') :
    Referential db' := by
  simp only [deletePolicy, bind_ok, ensure_ok] at h
  obtain ⟨_, _, _, hunused, hpure⟩ := h
  cases hpure
  refine ⟨href.targets, href.disjoint, fun principal r hr => ?_⟩
  refine (href.policies principal r hr).imp_right fun hmem => mem_erase.2 ⟨?_, hmem⟩
  exact hunused ⟨principal, r⟩ (mem_lookup_iff.1 hr)

/-- A new alias targets a principal and is none. -/
theorem referential_addAlias {target : Bytes} (href : Referential db)
    (h : db.addAlias name target = .ok db') : Referential db' := by
  simp only [addAlias, bind_ok, ensure_ok] at h
  obtain ⟨_, _, parsedAlias, _, parsedTarget, _, _, htarget, _, _, _, hnew, hpure⟩ := h
  cases hpure
  have hlookup : canonical parsedTarget ∈ db.principals := lookup_isSome.1 htarget
  refine ⟨fun a t ha => ?_, fun a ha => ?_, href.policies⟩
  · by_cases hp : a = canonical parsedAlias
    · subst hp
      rw [lookup_insert] at ha
      cases ha
      exact hlookup
    · rw [lookup_insert_ne hp] at ha
      exact href.targets a t ha
  · rcases mem_insert _ |>.1 ha with rfl | ha
    · rw [← lookup_eq_none]
      exact isNone_iff_eq_none.1 hnew.1
    · exact href.disjoint a ha

/-- **Step rule.** A successful call keeps the references exactly if it is intact. -/
theorem referential_apply_iff {call : DBCall} (href : Referential db)
    (h : call.apply env now db = .ok db') : Referential db' ↔ call.Intact db := by
  cases call with
  | addPrincipal name password kvnos =>
    obtain ⟨p, record, hp, rfl, hpolicy, hputs⟩ := addPrincipal_puts h
    rw [hputs.referential_iff href, hpolicy]
    simp [DBCall.Intact, hp, PolicyKnown]
  | createPrincipal name password tuples policy =>
    obtain ⟨p, record, hp, rfl, hpolicy, hputs⟩ := createPrincipal_puts h
    rw [hputs.referential_iff href]
    simp [DBCall.Intact, hp, hpolicy]
  | importPrincipal record =>
    simp only [DBCall.apply, importPrincipal, bind_ok] at h
    obtain ⟨_, _, hpure⟩ := h
    cases hpure
    exact (puts_put db record).referential_iff href
  | setPrincipalPolicy name policy =>
    obtain ⟨current, record, hlookup, hrecord, rfl⟩ := modify_ok.1 h
    cases hrecord
    have hwhere : canonical current.name = canonical name := db.principals_canonical _ _ hlookup
    exact (puts_save db now _).referential_iff_policy href hlookup hwhere
  | deletePrincipal name =>
    simp only [DBCall.apply, deletePrincipal, bind_ok] at h
    obtain ⟨record, _, hpure⟩ := h
    cases hpure
    exact Removes.referential_iff ⟨rfl, rfl, rfl⟩ href
  | updateLockout | recordAuthFailure | resetAuthFailures | recordAuthSuccess | setString =>
    exact iff_of_true ((edits_apply rfl h).referential href) trivial
  | keys call =>
    cases call with
    | updatePrincipal record absent =>
      obtain ⟨current, updated, hlookup, hupdated, rfl⟩ := modify_ok.1 h
      cases hupdated
      exact (puts_save db now _).referential_iff_policy href hlookup rfl
    | _ => exact iff_of_true ((edits_apply rfl h).referential href) trivial
  | renamePrincipal src dest => exact referential_rename_iff href h
  | applyPrincipal record deleted =>
    cases h
    cases deleted with
    | true => exact (removes_remove db _).referential_iff href
    | false => exact (puts_put db record).referential_iff href
  | createPolicy | updatePolicy =>
    simp only [DBCall.apply, createPolicy, updatePolicy, bind_ok] at h
    obtain ⟨_, _, hpure⟩ := h
    cases hpure
    exact iff_of_true (href.of_same rfl rfl fun p hp => mem_insert _ |>.2 (.inr hp)) trivial
  | deletePolicy name => exact iff_of_true (referential_deletePolicy href h) trivial
  | addAlias name target => exact iff_of_true (referential_addAlias href h) trivial
  | configureUpdateLog | setLogCapacity | resetLog =>
    cases h
    exact iff_of_true (href.of_same rfl rfl fun _ hp => hp) trivial

/-! ## Runs -/

/-- **The references hold at every stage of a run exactly if its successful calls are intact.** -/
theorem references_hold_iff (env : KDB.Env) (realm : Bytes) (calls : List (ℤ × DBCall)) :
    (∀ done, done <+: calls → Referential (DBCall.exec env (newDatabase realm) done)) ↔
      ∀ done call db', done ++ [call] <+: calls →
        call.2.apply env call.1 (DBCall.exec env (newDatabase realm) done) = .ok db' →
        call.2.Intact (DBCall.exec env (newDatabase realm) done) := by
  constructor
  · intro h done call db' hdone hok
    refine (referential_apply_iff (h done ((List.prefix_append _ _).trans hdone)) hok).1 ?_
    have hnext := h (done ++ [call]) hdone
    rwa [DBCall.exec_concat, DBCall.next_of_ok hok] at hnext
  · intro h done hdone
    refine stages_invariant (referential_newDatabase realm) (fun done call hdone href => ?_) hdone
    exact DBCall.next_cases href fun db' hok =>
      (referential_apply_iff href hok).2 (h done call db' hdone hok)

end Database

namespace Small

open Database

/-- A principal with an alias is deleted. -/
def orphanCalls : List (ℤ × DBCall) :=
  [(0, .addPrincipal (str "c") (str "x") []), (0, .addAlias (str "d") (str "c")),
    (0, .deletePrincipal client)]

/-- The alias still targets the deleted principal. -/
theorem alias_orphaned : ¬ Referential (DBCall.exec env (newDatabase realm) orphanCalls) := by
  intro h
  have halias : ((DBCall.exec env (newDatabase realm) orphanCalls).aliases.lookup
      (canonical ⟨realm, NTPrincipal, [str "d"]⟩)).map canonical = some (canonical client) := by
        decide +kernel
  obtain ⟨target, htarget, heq⟩ := map_eq_some_iff.1 halias
  have hmem := h.targets _ target htarget
  rw [heq] at hmem
  have hgone : ((DBCall.exec env (newDatabase realm) orphanCalls).principals.lookup
    (canonical client)).isNone =
      true := by decide +kernel
  rw [isNone_iff_eq_none, lookup_eq_none] at hgone
  exact hgone hmem

end Small

end Kerberos
