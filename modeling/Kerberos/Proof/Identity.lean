import Kerberos.Proof.Dumped
import Kerberos.Proof.OldKeys
import Kerberos.Proof.References

/-!
# Names and records

A principal is filed under its realm and components with a zero byte between them
(`canonical`). `Parse` accepts an escape for the zero byte, so that a key can be read in
more than one way: `a\0b@R` and `a/b@R` have the same. A name shares its key with no other
one that can be parsed exactly if it has a single component and no zero byte inside
(`Alone`), and among names without zero bytes keys are apart (`canonical_faithful`). Then a
call changes the records of the names it is about, and finds their own.
-/

namespace Kerberos

open MITDump List Except

/-- The name is one that `Parse` gives. -/
def Parseable (p : Principal) : Prop := ∃ text, parsePrincipal text = .ok p

/-- The realm and the components are the same. -/
def SameName (p q : Principal) : Prop := p.realm = q.realm ∧ p.components = q.components

/-- The only zero byte of the key that is neither its first nor its last byte is the separator. -/
def Alone (p : Principal) : Prop := ∃ c, p.components = [c] ∧ 0 ∉ p.realm.tail ∧ 0 ∉ c.dropLast

variable {p : Principal}

theorem Parseable.displayable (h : Parseable p) : Displayable p := by
  obtain ⟨text, h⟩ := h
  exact parsePrincipal_displayable h

theorem parseable_of {realm : Bytes} {components : List Bytes} (hrealm : realm ≠ [])
    (hne : components ≠ []) (hcomp : [] ∉ components) :
    Parseable ⟨realm, NTPrincipal, components⟩ := by
  obtain ⟨text, htext⟩ := displayable_iff.2
    (⟨hrealm, hne, hcomp⟩ : (⟨realm, NTPrincipal, components⟩ : Principal).realm ≠ [] ∧ _ ∧ _)
  exact ⟨text, parsePrincipal_format htext⟩

theorem canonical_single (realm c : Bytes) :
    canonical ⟨realm, NTPrincipal, [c]⟩ = realm ++ 0 :: c := by
  simp [canonical]

/-! ## Names that stand alone -/

/-- A zero byte that is neither the first nor the last of the key of such a name is the
separator. -/
theorem zero_at_separator {realm c : Bytes} (hrealm : 0 ∉ realm.tail) (hc : 0 ∉ c.dropLast) {i : ℕ}
    (hi : (realm ++ 0 :: c)[i]? = some 0) (hfirst : 0 < i) (hlast : i < realm.length + c.length) :
    i = realm.length := by
  rcases lt_trichotomy i realm.length with hlt | heq | hgt
  · -- inside the realm, behind its first byte
    rw [getElem?_append_left hlt] at hi
    have htail : realm.tail[i - 1]? = some 0 := by
      rw [getElem?_tail, Nat.sub_add_cancel hfirst]
      exact hi
    exact absurd (mem_of_getElem? htail) hrealm
  · exact heq
  · -- inside the component, before its last byte
    obtain ⟨j, rfl⟩ : ∃ j, i = realm.length + (j + 1) := ⟨i - realm.length - 1, by omega⟩
    rw [getElem?_append_right (Nat.le_add_right _ _), Nat.add_sub_cancel_left] at hi
    have hdrop : c.dropLast[j]? = some 0 := by
      rw [getElem?_dropLast, if_pos (by omega)]
      exact hi
    exact absurd (mem_of_getElem? hdrop) hc

theorem intercalate_ne_nil {components : List Bytes} (hne : components ≠ [])
    (hcomp : [] ∉ components) :
    [0].intercalate components ≠ ([] : Bytes) := by
  obtain ⟨c, cs, rfl⟩ := exists_cons_of_ne_nil hne
  have hc : c ≠ [] := fun h => hcomp (h ▸ mem_cons_self)
  cases cs with
  | nil => simpa [intercalate] using hc
  | cons d ds => simp [intercalate, hc]

theorem intercalate_cons_cons (c d : Bytes) (ds : List Bytes) :
    [0].intercalate (c :: d :: ds) = c ++ 0 :: [0].intercalate (d :: ds) := by
  simp [intercalate]

/-- A name that stands alone shares its key with no other. -/
theorem Alone.same {q : Principal} (h : Alone p) (hq : Displayable q)
    (hkey : canonical p = canonical q) : SameName p q := by
  obtain ⟨c, hcomponents, hrealm, hc⟩ := h
  obtain ⟨hqrealm, hqne, hqcomp⟩ := displayable_iff.1 hq
  have hp' : canonical p = p.realm ++ 0 :: c := by
    rw [canonical, hcomponents]
    simp [intercalate]
  have hrest : [0].intercalate q.components ≠ ([] : Bytes) := intercalate_ne_nil hqne hqcomp
  have hkey' : p.realm ++ 0 :: c = q.realm ++ 0 :: [0].intercalate q.components := by
    rw [← hp', hkey]
    rfl
  -- the separator behind the realm of `q` is at the only place there is
  have hlength : q.realm.length = p.realm.length := by
    refine zero_at_separator hrealm hc ?_ (length_pos_iff.2 hqrealm) ?_
    · rw [hkey']
      simp
    · have hlen := congrArg length hkey'
      have hpos := length_pos_iff.2 hrest
      simp only [length_append, length_cons] at hlen
      omega
  obtain ⟨hrealms, htail⟩ := append_inj hkey' hlength.symm
  injection htail with _ htail
  refine ⟨hrealms, ?_⟩
  obtain ⟨d, ds, hds⟩ := exists_cons_of_ne_nil hqne
  rw [hcomponents, hds]
  rw [hds] at htail hqcomp
  cases ds with
  | nil =>
    rw [htail]
    simp [intercalate]
  | cons d' ds =>
    -- a second separator would be a zero byte inside the component
    exfalso
    rw [intercalate_cons_cons] at htail
    have hlast : [0].intercalate (d' :: ds) ≠ ([] : Bytes) :=
      intercalate_ne_nil (by simp) fun hmem => hqcomp (mem_cons_of_mem _ hmem)
    refine hc ?_
    rw [htail, dropLast_append_of_ne_nil (by simp), dropLast_cons_of_ne_nil hlast]
    simp

theorem exists_split_of_mem_tail {l : Bytes} (h : 0 ∈ l.tail) :
    ∃ a b, a ≠ [] ∧ l = a ++ 0 :: b := by
  cases l with
  | nil => cases h
  | cons x l =>
    obtain ⟨a, b, hl⟩ := append_of_mem h
    rw [tail_cons] at hl
    exact ⟨x :: a, b, by simp, by rw [hl, cons_append]⟩

theorem exists_split_of_mem_dropLast {l : Bytes} (h : 0 ∈ l.dropLast) :
    ∃ a b, b ≠ [] ∧ l = a ++ 0 :: b := by
  have hne : l ≠ [] := by
    rintro rfl
    cases h
  obtain ⟨a, b, hl⟩ := append_of_mem h
  refine ⟨a, b ++ [l.getLast hne], by simp, ?_⟩
  rw [← cons_append, ← append_assoc, ← hl, dropLast_append_getLast]

/-- Any other name shares its key. -/
theorem exists_other (hp : Displayable p) (h : ¬ Alone p) :
    ∃ q, Parseable q ∧ canonical p = canonical q ∧ ¬ SameName p q := by
  obtain ⟨hrealm, hne, hcomp⟩ := displayable_iff.1 hp
  obtain ⟨c, cs, hcs⟩ := exists_cons_of_ne_nil hne
  cases cs with
  | cons d ds =>
    -- all components in one
    rw [hcs] at hne hcomp
    refine ⟨⟨p.realm, NTPrincipal, [[0].intercalate (c :: d :: ds)]⟩,
      parseable_of hrealm (by simp) ?_, ?_, ?_⟩
    · rw [mem_singleton]
      exact fun hnil => intercalate_ne_nil hne hcomp hnil.symm
    · rw [canonical_single, canonical, hcs]
    · rintro ⟨_, hsame⟩
      rw [hcs] at hsame
      simp at hsame
  | nil =>
    have hkey : canonical p = p.realm ++ 0 :: c := by
      rw [canonical, hcs]
      simp [intercalate]
    by_cases hzero : 0 ∈ p.realm.tail
    · -- the realm is cut at its zero byte
      obtain ⟨a, b, ha, hab⟩ := exists_split_of_mem_tail hzero
      refine ⟨⟨a, NTPrincipal, [b ++ 0 :: c]⟩, parseable_of ha (by simp) (by simp), ?_, ?_⟩
      · rw [hkey, hab, canonical_single, append_assoc, cons_append]
      · rintro ⟨hsame, _⟩
        have hlen := congrArg length (hab.symm.trans hsame)
        simp only [length_append, length_cons] at hlen
        omega
    · -- the first part of the component goes to the realm
      have hmem : 0 ∈ c.dropLast := by
        by_contra hnot
        exact h ⟨c, hcs, hzero, hnot⟩
      obtain ⟨a, b, hb, hab⟩ := exists_split_of_mem_dropLast hmem
      refine ⟨⟨p.realm ++ 0 :: a, NTPrincipal, [b]⟩, parseable_of (by simp) (by simp) ?_, ?_, ?_⟩
      · rw [mem_singleton]
        exact fun hnil => hb hnil.symm
      · rw [hkey, hab, canonical_single, append_assoc, cons_append]
      · rintro ⟨hsame, _⟩
        have hlen := congrArg length hsame
        simp only [length_append, length_cons] at hlen
        omega

/-! ## What a call changes -/

/-- The call is about the principal: it is one of those it names. -/
def DBCall.Concerns (db : Database) (p : Principal) : DBCall → Prop
  | addPrincipal name _ _ => parseName name db.realm = .ok p
  | createPrincipal name _ _ _ => parseName name db.realm = .ok p
  | importPrincipal record => p = record.name
  | setPrincipalPolicy name _ => p = name
  | deletePrincipal name => p = name
  | updateLockout name _ _ _ => p = name
  | recordAuthFailure name _ _ => p = name
  | resetAuthFailures name _ => p = name
  | recordAuthSuccess name _ => p = name
  | keys call => p = call.subject
  | renamePrincipal src dest => p = src ∨ p = dest
  | setString name _ _ => p = name
  | applyPrincipal record _ => p = record.name
  | _ => False

namespace Database

variable {env : KDB.Env} {db db' : Database} {now : ℤ} {k : Bytes}

theorem Puts.lookup_of_ne {record : PrincipalRecord} (h : Puts db record db')
    (hk : canonical record.name ≠ k) :
    db'.principals.lookup k = db.principals.lookup k := by
  rw [h.principals, AList.lookup_insert_ne (Ne.symm hk)]

theorem Removes.lookup_of_ne {principal : Bytes} (h : Removes db principal db')
    (hk : principal ≠ k) :
    db'.principals.lookup k = db.principals.lookup k := by
  rw [h.principals, AList.lookup_erase_ne (Ne.symm hk)]

theorem Edits.lookup_of_ne {name : Principal} (h : Edits db name db') (hk : canonical name ≠ k) :
    db'.principals.lookup k = db.principals.lookup k := by
  rcases h with rfl | ⟨current, record, hlookup, ⟨hname, _⟩, hputs⟩
  · rfl
  · refine hputs.lookup_of_ne ?_
    rw [(replaces_of_lookup hlookup hname).1]
    exact hk

/-- **Frame rule.** A call leaves alone what is filed under other keys than those of the names
it is about. -/
theorem lookup_apply {call : DBCall} (h : call.apply env now db = .ok db')
    (hk : ∀ p, call.Concerns db p → canonical p ≠ k) :
    db'.principals.lookup k = db.principals.lookup k := by
  cases call with
  | addPrincipal name password kvnos =>
    obtain ⟨p, record, hp, rfl, _, hputs⟩ := addPrincipal_puts h
    exact hputs.lookup_of_ne (hk _ hp)
  | createPrincipal name password tuples policy =>
    obtain ⟨p, record, hp, rfl, _, hputs⟩ := createPrincipal_puts h
    exact hputs.lookup_of_ne (hk _ hp)
  | importPrincipal record =>
    simp only [DBCall.apply, importPrincipal, bind_ok] at h
    obtain ⟨_, _, hpure⟩ := h
    cases hpure
    exact (puts_put db record).lookup_of_ne (hk _ rfl)
  | setPrincipalPolicy name policy =>
    obtain ⟨current, record, hlookup, hrecord, rfl⟩ := modify_ok.1 h
    cases hrecord
    refine (puts_save db now _).lookup_of_ne ?_
    rw [(replaces_of_lookup hlookup rfl).1]
    exact hk _ rfl
  | deletePrincipal name =>
    simp only [DBCall.apply, deletePrincipal, bind_ok] at h
    obtain ⟨record, _, hpure⟩ := h
    cases hpure
    have hremoves : Removes db (canonical name)
        ((db.remove (canonical name)).recordUpdate now record true) := ⟨rfl, rfl, rfl⟩
    exact hremoves.lookup_of_ne (hk _ rfl)
  | updateLockout | recordAuthFailure | resetAuthFailures | recordAuthSuccess | setString =>
    exact (edits_apply rfl h).lookup_of_ne (hk _ rfl)
  | keys call =>
    cases call with
    | updatePrincipal record absent =>
      obtain ⟨current, updated, _, hupdated, rfl⟩ := modify_ok.1 h
      cases hupdated
      exact (puts_save db now _).lookup_of_ne (hk _ rfl)
    | _ => exact (edits_apply rfl h).lookup_of_ne (hk _ rfl)
  | renamePrincipal src dest =>
    obtain ⟨record, _, _, mid, hputs, hremoves⟩ := renamePrincipal_ok h
    rw [hremoves.lookup_of_ne (hk src (.inl rfl)), hputs.lookup_of_ne (hk dest (.inr rfl))]
  | applyPrincipal record deleted =>
    cases h
    cases deleted with
    | true => exact (removes_remove db _).lookup_of_ne (hk _ rfl)
    | false => exact (puts_put db record).lookup_of_ne (hk _ rfl)
  | createPolicy | updatePolicy =>
    simp only [DBCall.apply, createPolicy, updatePolicy, bind_ok] at h
    obtain ⟨_, _, hpure⟩ := h
    cases hpure
    rfl
  | deletePolicy name =>
    simp only [DBCall.apply, deletePolicy, bind_ok] at h
    obtain ⟨_, _, _, _, hpure⟩ := h
    cases hpure
    rfl
  | addAlias name target =>
    simp only [DBCall.apply, addAlias, bind_ok] at h
    obtain ⟨_, _, _, _, _, _, _, _, _, _, _, _, hpure⟩ := h
    cases hpure
    rfl
  | configureUpdateLog | setLogCapacity | resetLog =>
    cases h
    rfl

end Database

/-! ## Names without zero bytes -/

/-- A name `Parse` can give, but for its type, without zero bytes. -/
def Plain (p : Principal) : Prop := Displayable p ∧ ZeroFree p

theorem Plain.same {q : Principal} (hp : Plain p) (hq : Plain q) (h : canonical p = canonical q) :
    SameName p q := by
  obtain ⟨_, hne, hcomp⟩ := displayable_iff.1 hq.1
  exact canonical_inj hp.2 hq.2 hne hcomp h

/-- **Names and keys.** A name `Parse` gives shares its key with no other such name exactly if it
stands alone, and names without zero bytes share none with each other. Among these, a call
leaves alone the records of all principals it is not about, and a lookup finds the record of the
name asked for. -/
theorem canonical_faithful (env : KDB.Env) :
    (∀ p, Parseable p → ((∀ q, Parseable q → canonical p = canonical q → SameName p q) ↔ Alone p)) ∧
    (∀ p q, Plain p → Plain q → canonical p = canonical q → SameName p q) ∧
    (∀ (db db' : Database) (now : ℤ) (call : DBCall) (q : Principal),
      call.apply env now db = .ok db' →
      Plain q → (∀ p, call.Concerns db p → Plain p ∧ ¬ SameName p q) → db'.lookup q = db.lookup q) ∧
    (∀ (db : Database) (p : Principal) (r : PrincipalRecord), db.lookup p = some r → Plain p →
      Plain r.name → SameName r.name p) := by
  refine ⟨fun p hp => ⟨fun huniq => ?_, fun halone q hq => ?_⟩, fun p q => Plain.same, ?_, ?_⟩
  · by_contra halone
    obtain ⟨q, hq, hkey, hother⟩ := exists_other hp.displayable halone
    exact hother (huniq q hq hkey)
  · exact halone.same hq.displayable
  · intro db db' now call q hcall hq hothers
    refine Database.lookup_apply hcall fun p hp hkey => ?_
    obtain ⟨hplain, hother⟩ := hothers p hp
    exact hother (hplain.same hq hkey)
  · intro db p r hr hp hname
    exact hname.same hp (db.principals_canonical _ _ hr)

namespace Small

/-- The names `a\0b@R` and `a/b@R`. -/
def zeroName : Principal := ⟨realm, NTPrincipal, [[97, 0, 98]]⟩

def slashName : Principal := ⟨realm, NTPrincipal, [str "a", str "b"]⟩

/-- A database with a record of `a/b@R`. -/
def slashDatabase : Database := (newDatabase realm).put { name := slashName }

/-- Both parse to different names with the same key: deleting one deletes the record of the
other. -/
theorem names_collide : parsePrincipal (str "a\\0b@R") = .ok zeroName ∧
    parsePrincipal (str "a/b@R") = .ok slashName ∧ canonical zeroName = canonical slashName ∧
    ¬ SameName zeroName slashName ∧ (slashDatabase.lookup slashName).isSome ∧
    ∃ db', slashDatabase.deletePrincipal 0 zeroName = .ok db' ∧ db'.lookup slashName = none := by
  refine ⟨by decide, by decide, by decide, fun h => absurd h.2 (by decide), by decide +kernel, ?_⟩
  have hrun : ((slashDatabase.deletePrincipal 0 zeroName).toOption.map fun db' =>
      (db'.lookup slashName).isNone) = some true := by decide +kernel
  obtain ⟨db', hdb', hnone⟩ := Option.map_eq_some_iff.1 hrun
  exact ⟨db', toOption_some.1 hdb', Option.isNone_iff_eq_none.1 hnone⟩

/-- The same database with the client. -/
def clientToo : Database := slashDatabase.put { name := client }

/-- Deleting the client leaves the record of `a/b@R` alone, and the client's key is its own. -/
theorem canonical_faithful_client :
    Alone client ∧ (∃ db', (DBCall.deletePrincipal client).apply env 0 clientToo =
    .ok db' ∧ db'.lookup slashName = clientToo.lookup slashName) ∧
      canonical client ≠ canonical slashName := by
  obtain ⟨halone, hplain, hframe, _⟩ := canonical_faithful env
  have hclient : Plain client := ⟨⟨str "c@R", by decide⟩, by decide⟩
  have hslash : Plain slashName := ⟨⟨str "a/b@R", by decide⟩, by decide⟩
  have hother : ¬ SameName client slashName := fun h => absurd h.2 (by decide)
  refine ⟨⟨str "c", rfl, by decide, by decide⟩, ?_, fun h => hother (hplain _ _ hclient hslash h)⟩
  have hrun : ((DBCall.deletePrincipal client).apply env 0 clientToo).toOption.isSome = true := by
    decide +kernel
  obtain ⟨db', hdb'⟩ := Option.isSome_iff_exists.1 hrun
  have hok := toOption_some.1 hdb'
  refine ⟨db', hok, hframe clientToo db' 0 _ slashName hok hslash fun p hp => ?_⟩
  rw [show p = client from hp]
  exact ⟨hclient, hother⟩

end Small

end Kerberos
