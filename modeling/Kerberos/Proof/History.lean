import Kerberos.Proof.KeyChanges
import Kerberos.Proof.Reload

/-!
# Policies and password histories in a dump

The tagged data a record is written with decides the policy and the history it comes back
with (`readKADM`). `readKADM_encoded`: encoded data brings the policy back, and the history
if the keys of `kadmin/history` open it, each key under its enctype and with the salt it is
used with (`Refiled`).
-/

namespace Kerberos.MITDump

open List Except AList

variable (fields : KADMFields)

/-- Entries of other types do not matter. -/
theorem noteFields_other {item : TLData} (h : item.type ≠ KADMDataType) :
    noteFields fields item = fields := by
  unfold noteFields noteKADM
  rw [if_neg h]
  rfl

/-- The entries of KADM data. -/
def kadmEntries (tl : List TLData) : List TLData := tl.filter fun item => item.type == KADMDataType

theorem foldl_noteFields (tl : List TLData) (fields : KADMFields) :
    tl.foldl noteFields fields = (kadmEntries tl).foldl noteFields fields := by
  induction tl generalizing fields with
  | nil => rfl
  | cons item tl ih =>
    by_cases hitem : item.type = KADMDataType
    · rw [kadmEntries, filter_cons_of_pos (by simpa using hitem), foldl_cons, foldl_cons]
      exact ih _
    · rw [kadmEntries, filter_cons_of_neg (by simpa using hitem), foldl_cons,
        noteFields_other fields hitem]
      exact ih _

/-- The policy and the history that tagged data is read as. -/
def readKADM (env : KDB.Env) (historyKeys : List Key) (name : Principal) (tl : List TLData) :
    Bytes × List (GoMap Int32 Key) :=
  match (kadmEntries tl).findSome? fun item =>
      (decodeKADMData env item.data historyKeys (normalSalt name)).toOption with
  | some data => (data.policy, data.oldKeys)
  | none => ((tl.foldl noteFields ⟨[], 0, 0, 0⟩).policy, [])

theorem readKADM_of_none {tl : List TLData} (h : kadmEntries tl = []) (env : KDB.Env)
    (historyKeys : List Key)
    (name : Principal) : readKADM env historyKeys name tl = ([], []) := by
  unfold readKADM
  rw [h, foldl_noteFields, h]
  rfl

variable {env : KDB.Env}

/-- A record comes back with what its tagged data is read as. -/
theorem decodeKADMRecord_opened {w : Written env} {opened : PrincipalRecord}
    (h : Opened env w opened) (historyKeys : List Key) :
    (decodeKADMRecord env historyKeys opened).policy =
        (readKADM env historyKeys w.record.name w.tl).1 ∧
          (decodeKADMRecord env historyKeys opened).passwordHistory =
        (readKADM env historyKeys w.record.name w.tl).2 := by
  have hparsed : w.parsed = withKADM w.bare (w.tl.foldl noteFields ⟨[], 0, 0, 0⟩) :=
    foldl_noteKADM w.tl w.bare
  have hname : normalSalt opened.name = normalSalt w.record.name := by
    rw [h.name, normalSalt_plain]
  have hpolicy : opened.policy = (w.tl.foldl noteFields ⟨[], 0, 0, 0⟩).policy := by
    rw [h.rest]
    rw [hparsed]
    rfl
  have hhistory : opened.passwordHistory = [] := by
    rw [h.rest]
    rw [hparsed]
    rfl
  unfold decodeKADMRecord readKADM kadmEntries
  rw [h.tlData, hname]
  generalize findSome? _ _ = decoded
  cases decoded with
  | none => exact ⟨hpolicy, hhistory⟩
  | some data => exact ⟨rfl, rfl⟩

/-- Two histories with the same keys. -/
def SameHistory (a b : List (GoMap Int32 Key)) : Prop :=
  List.Forall₂ (fun m n => ∀ e, m.lookup e = n.lookup e) a b

theorem sameHistory_nil_right {a : List (GoMap Int32 Key)} : SameHistory a [] ↔ a = [] :=
  forall₂_nil_right_iff

/-- The history keys open what the history key seals. -/
def Opens (env : KDB.Env) (historyKey : Key) (historyKeys : List Key) : Prop :=
  ∀ key ct, historyCiphertext env historyKey key = some ct → decryptHistoryKey env historyKeys ct =
    some key.key

variable {historyKeys : List Key} {historyKey : Key} {normal : Bytes} {enc : Bytes}

/-- A key with the salt it is used with. -/
def salted (normal : Bytes) (key : Key) : Key := { key with salt := effectiveSalt normal key.salt }

theorem salted_salted (normal : Bytes) (key : Key) :
    salted normal (salted normal key) = salted normal key := by
  unfold salted effectiveSalt
  split_ifs <;> simp_all

theorem reopenKey_eq {key : Key} (h : Opens env historyKey historyKeys)
    (henc : encodeHistoryKey env (some historyKey) normal key = .ok enc) :
    reopenKey env historyKey historyKeys normal key = .ok (salted normal key) := by
  simp only [encodeHistoryKey, bind_ok, ofOption_ok, Option.some.injEq] at henc
  obtain ⟨_, rfl, etype, hetype, _, _, _, _, _, _, ct, hct, _⟩ := henc
  have hciphertext : historyCiphertext env historyKey key = some ct := by
    simp [historyCiphertext, hetype, hct]
  unfold reopenKey
  rw [hciphertext, Option.bind_some, h key ct hciphertext]
  simp only [ofOption, ok_bind]
  rfl

/-- Each key of the history is filed under its enctype. -/
def HistoryFiled (history : List (GoMap Int32 Key)) : Prop :=
  ∀ m ∈ history, ∀ e k, m.lookup e = some k → k.enctype = e

theorem lookup_keyMapOf {m : GoMap Int32 Key} (hown : ∀ e k, m.lookup e = some k → k.enctype = e)
    {keys : List Key} (hkeys : keys.Perm (m.entries.map Sigma.snd)) (e : Int32) :
    (keyMapOf (keys.map (salted normal))).lookup e = (m.lookup e).map (salted normal) := by
  have hnodup : (keys.map Key.enctype).Nodup :=
    (hkeys.map Key.enctype).nodup_iff.2 (nodup_values hown)
  rw [keyMapOf, foldl_map]
  cases hlookup : m.lookup e with
  | none =>
    refine (lookup_foldl_insert_of_notMem (f := Key.enctype) ?_).trans (lookup_empty _)
    intro k hk heq
    obtain ⟨e', he'⟩ := mem_values.1 (hkeys.mem_iff.1 hk)
    rw [← heq, hown e' k he', he'] at hlookup
    cases hlookup
  | some k =>
    have hk : k ∈ keys := hkeys.mem_iff.2 (mem_values.2 ⟨e, hlookup⟩)
    rw [← hown e k hlookup]
    exact lookup_foldl_insert_of_mem hnodup hk

/-- The keys of one password come back, with the salts they are used with. -/
def Reopened (normal : Bytes) (m n : GoMap Int32 Key) : Prop :=
  ∀ e, n.lookup e = (m.lookup e).map (salted normal)

/-- The keys of one password as they come back: filed anew under their enctypes. -/
def Refiled (normal : Bytes) (m n : GoMap Int32 Key) : Prop :=
  ∃ keys : List Key, keys.Perm (m.entries.map Sigma.snd) ∧ n = keyMapOf (keys.map (salted normal))

theorem Refiled.reopened {m n : GoMap Int32 Key} (h : Refiled normal m n)
    (hown : ∀ e k, m.lookup e = some k → k.enctype = e) : Reopened normal m n := by
  obtain ⟨keys, hperm, rfl⟩ := h
  exact lookup_keyMapOf hown hperm

/-- What comes back unchanged was filed under its enctype, and had its salt. -/
theorem Refiled.same_iff {m n : GoMap Int32 Key} (h : Refiled normal m n) :
    (∀ e, m.lookup e = n.lookup e) ↔
    ∀ e k, m.lookup e = some k → k.enctype = e ∧ effectiveSalt normal k.salt = k.salt := by
  constructor
  · rintro hsame e k hk
    obtain ⟨keys, hperm, rfl⟩ := h
    rw [hsame] at hk
    obtain ⟨hmem, henctype⟩ := lookup_keyMapOf_mem hk
    obtain ⟨k', -, rfl⟩ := mem_map.1 hmem
    exact ⟨henctype, congrArg Key.salt (salted_salted normal k')⟩
  · intro hkeys e
    rw [h.reopened (fun e k hk => (hkeys e k hk).1) e]
    cases hk : m.lookup e with
    | none => rfl
    | some k => rw [Option.map_some, salted, (hkeys e k hk).2]

theorem sameHistory_iff {history read : List (GoMap Int32 Key)}
    (h : List.Forall₂ (Refiled normal) history read) :
    SameHistory history read ↔ ∀ m ∈ history, ∀ e k, m.lookup e = some k →
      k.enctype = e ∧ effectiveSalt normal k.salt = k.salt := by
  induction h with
  | nil => exact iff_of_true .nil fun m hm => absurd hm not_mem_nil
  | cons hm _ ih => rw [SameHistory, forall₂_cons, forall_mem_cons, hm.same_iff, ← SameHistory, ih]

/-- A history is read from what was stored exactly if it is that, with the salts. -/
theorem sameHistory_stored_iff {stored read history : List (GoMap Int32 Key)}
    (h : List.Forall₂ (Refiled normal) stored read) (hfiled : HistoryFiled stored) :
    SameHistory history read ↔ List.Forall₂ (Reopened normal) stored history := by
  induction h generalizing history with
  | nil => rw [SameHistory, forall₂_nil_right_iff, forall₂_nil_left_iff]
  | @cons m n stored read hm _ ih =>
    obtain ⟨hown, hfiled⟩ := forall_mem_cons.1 hfiled
    have hn := hm.reopened hown
    cases history with
    | nil => exact iff_of_false (fun h => by cases h) fun h => by cases h
    | cons x history =>
      have hx : (∀ e, x.lookup e = n.lookup e) ↔ Reopened normal m x := by
        exact forall_congr' fun e => by rw [hn e]
      rw [SameHistory, forall₂_cons, forall₂_cons, hx, ← SameHistory, ih hfiled]

theorem reopenEntry_eq {m : GoMap Int32 Key} (h : Opens env historyKey historyKeys)
    (henc : encodeHistoryEntry env (some historyKey) normal m = .ok enc) :
    ∃ out, reopenEntry env historyKey historyKeys normal m = .ok out ∧ Refiled normal m out := by
  simp only [encodeHistoryEntry, bind_ok] at henc
  obtain ⟨_, _, encs, hencs, _⟩ := henc
  rw [mapM_ok] at hencs
  have hopen : (sortedHistory env m).mapM (reopenKey env historyKey historyKeys normal) =
      .ok ((sortedHistory env m).map (salted normal)) := by
    rw [mapM_ok, forall₂_map_right_iff, forall₂_same]
    intro k hk
    obtain ⟨enc, _, hkenc⟩ := hencs.exists_left hk
    exact reopenKey_eq h hkenc
  refine ⟨_, ?_, sortedHistory env m, (perm_insertionSort _ _).trans (env.keyOrder_perm _), rfl⟩
  unfold reopenEntry
  rw [hopen]
  rfl

theorem mapM_reopenEntry {history : List (GoMap Int32 Key)} {entries : List Bytes}
    (hencs :
      List.Forall₂ (fun m entry => encodeHistoryEntry env (some historyKey) normal m = .ok entry)
      history entries) (h : history ≠ [] → Opens env historyKey historyKeys) :
    ∃ out, history.mapM (reopenEntry env historyKey historyKeys normal) = .ok out ∧
      List.Forall₂ (Refiled normal) history out := by
  simp only [mapM_ok]
  induction hencs with
  | nil => exact ⟨[], .nil, .nil⟩
  | cons hx _ ih =>
    have hopens := h (cons_ne_nil _ _)
    obtain ⟨m', hm', hsame⟩ := reopenEntry_eq hopens hx
    obtain ⟨out, hout, hrest⟩ := ih fun _ => hopens
    exact ⟨m' :: out, .cons hm' hout, .cons hsame hrest⟩

/-- **What is decoded** of encoded data whose history opens: the newest passwords first. -/
theorem decodeKADMData_of_opens (laws : KDB.Laws env) {data : KADMData} {historyKey : Option Key}
    (henc : encodeKADMData env data historyKey = .ok enc)
    (hpolicy : data.policy.length + 1 < 2 ^ 32)
    (hopens : data.oldKeys ≠ [] → Opens env (historyKey.getD default) historyKeys) :
    ∃ oldKeys, decodeKADMData env enc historyKeys data.normalSalt =
      .ok { headerOf data historyKey with oldKeys } ∧
      List.Forall₂ (Refiled data.normalSalt) data.oldKeys oldKeys := by
  obtain ⟨_, _, entries, hentries, _⟩ := encodeKADMData_ok henc
  obtain ⟨out, hout, hrefiled⟩ := mapM_reopenEntry hentries fun hne => hopens (by simpa using hne)
  refine ⟨out.reverse, ?_, ?_⟩
  · rw [decodeKADMData_encodeKADMData henc laws hpolicy, hout]
    rfl
  · have hsame := rel_reverse hrefiled
    rwa [reverse_reverse] at hsame

/-- Without a history the salt is not used. -/
theorem encodeKADMData_normalSalt {data : KADMData} {historyKey : Option Key}
    (henc : encodeKADMData env data historyKey = .ok enc) {salt : Bytes}
    (hnormal : data.oldKeys ≠ [] → data.normalSalt = salt) :
    encodeKADMData env { data with normalSalt := salt } historyKey = .ok enc := by
  by_cases hnil : data.oldKeys = []
  · have hentries : ∀ s, data.oldKeys.reverse.mapM (encodeHistoryEntry env historyKey s) =
        .ok [] := by
      intro s
      rw [hnil]
      rfl
    rw [← henc]
    unfold encodeKADMData
    simp only [hentries]
  · rw [← hnormal hnil]
    exact henc

/-- **Encoded KADM data** brings back the policy, and a history that opens. -/
theorem readKADM_encoded (laws : KDB.Laws env) {data : KADMData}
    {historyKey : Option Key} (henc : encodeKADMData env data historyKey = .ok enc)
    (hsize : enc.length ≤ maxUint16) {tl : List TLData}
    (htl : kadmEntries tl = [⟨KADMDataType, enc⟩])
    (historyKeys : List Key) (name : Principal)
    (hnormal : data.oldKeys ≠ [] → data.normalSalt = normalSalt name) :
    (readKADM env historyKeys name tl).1 = data.policy ∧
      ((data.oldKeys ≠ [] → Opens env (historyKey.getD default) historyKeys) →
        List.Forall₂ (Refiled (normalSalt name)) data.oldKeys
          (readKADM env historyKeys name tl).2) := by
  have hpolicy := length_policy_lt henc hsize
  obtain ⟨old, hmeta⟩ := parseKADMDataMetadata_encodeKADMData henc hpolicy
  have hfold : (tl.foldl noteFields ⟨[], 0, 0, 0⟩).policy = data.policy := by
    rw [foldl_noteFields, htl, foldl_cons, noteFields, noteKADM]
    simp only [hmeta]
    rfl
  have henc' := encodeKADMData_normalSalt henc hnormal
  have hdecode := decodeKADMData_encodeKADMData henc' laws hpolicy historyKeys
  unfold readKADM
  simp only [htl, findSome?_cons, hfold]
  constructor
  · rw [hdecode]
    cases data.oldKeys.reverse.mapM
      (reopenEntry env (historyKey.getD default) historyKeys (normalSalt name)) <;> rfl
  · intro hopens
    obtain ⟨oldKeys, hdecoded, hrefiled⟩ := decodeKADMData_of_opens laws henc' hpolicy hopens
    rw [hdecoded]
    exact hrefiled

variable (env) in
/-- The history keys have the one that seals the history, and none of them opens what it has sealed
to another key. -/
structure HistoryKeys (historyKey : Key) (historyKeys : List Key) : Prop where
  mem : historyKey ∈ historyKeys
  only : ∀ key ct, historyCiphertext env historyKey key = some ct →
    ∀ other ∈ historyKeys, ∀ etype plain,
    env.etype other.enctype = some etype → etype.decrypt other.key 0 ct = some plain →
      plain = key.key

theorem HistoryKeys.opens (h : HistoryKeys env historyKey historyKeys) (laws : KDB.Laws env) :
    Opens env historyKey historyKeys := by
  intro key ct hct
  obtain ⟨etype, hetype, hencrypt⟩ := Option.bind_eq_some_iff.1 hct
  cases hopen : decryptHistoryKey env historyKeys ct with
  | none =>
    have hnone := findSome?_eq_none_iff.1 hopen historyKey h.mem
    rw [hetype, Option.bind_some, laws.decrypt_encrypt hetype hencrypt] at hnone
    cases hnone
  | some plain =>
    obtain ⟨other, hother, hplain⟩ := exists_of_findSome?_eq_some hopen
    obtain ⟨etype', hetype', hdecrypt⟩ := Option.bind_eq_some_iff.1 hplain
    rw [h.only key ct hct other hother etype' plain hetype' hdecrypt]

/-- **Encoded KADM data comes back**: the policy, the attributes with the bit of a policy set, and
the history, newest first, with the salts the keys are used with. -/
theorem kadmData_round_trip (env : KDB.Env) (laws : KDB.Laws env) (data : KADMData)
    (historyKey : Key)
    (historyKeys : List Key) (enc : Bytes)
    (henc : encodeKADMData env data (some historyKey) = .ok enc)
    (hpolicy : data.policy.length + 1 < 2 ^ 32) (hkeys : HistoryKeys env historyKey historyKeys)
    (hfiled : ∀ m ∈ data.oldKeys, ∀ e k, m.lookup e = some k → k.enctype = e) :
    ∃ decoded, decodeKADMData env enc historyKeys data.normalSalt = .ok decoded ∧
      decoded.policy = data.policy ∧
        decoded.auxAttributes = kadmAux data.policy data.auxAttributes ∧
      List.Forall₂ (Reopened data.normalSalt) data.oldKeys decoded.oldKeys := by
  obtain ⟨oldKeys, hdecode, hrefiled⟩ := decodeKADMData_of_opens laws henc hpolicy fun _ =>
    hkeys.opens laws
  exact ⟨_, hdecode, rfl, rfl, hrefiled.imp_mem fun m hm n _ h => h.reopened (hfiled m hm)⟩

/-- A policy and two passwords, the newer one with a key of another enctype too. -/
def twoSets : KADMData :=
  { policy := str "p"
    oldKeys := [((∅ : GoMap Int32 Key).insert 18 (Small.key 2 8)).insert 17 ⟨17, 2, [8], []⟩,
      (∅ : GoMap Int32 Key).insert 18 (Small.key 1 7)] }

/-- They are sealed under the second of two keys of `kadmin/history`. -/
theorem kadmData_round_trip_two : ∃ enc decoded,
    encodeKADMData Small.env twoSets (some (Small.key 2 9)) = .ok enc ∧
    decodeKADMData Small.env enc [Small.key 1 5, Small.key 2 9] [] = .ok decoded ∧
      decoded.policy = str "p" ∧
    List.Forall₂ (Reopened []) twoSets.oldKeys decoded.oldKeys := by
  obtain ⟨enc, henc⟩ : ∃ enc, encodeKADMData Small.env twoSets (some (Small.key 2 9)) =
      .ok enc := ⟨_, rfl⟩
  have hkeys : HistoryKeys Small.env (Small.key 2 9) [Small.key 1 5, Small.key 2 9] := by
    refine ⟨by decide, ?_⟩
    rintro key ct hct other hother etype plain hetype hplain
    obtain ⟨etype', hetype', hencrypt⟩ := Option.bind_eq_some_iff.1 hct
    have hsame : etype' = etype := by
      rcases mem_pair.1 hother with rfl | rfl <;> exact Option.some.inj (hetype'.symm.trans hetype)
    subst hsame
    rcases mem_pair.1 hother with rfl | rfl
    · -- the first key opens nothing that the second has sealed
      cases hetype
      cases hencrypt
      cases hplain
    · exact Option.some.inj (hplain.symm.trans (Small.laws.decrypt_encrypt hetype hencrypt))
  have hfiled : ∀ m ∈ twoSets.oldKeys, ∀ e k, m.lookup e = some k → k.enctype = e := by
    rintro m hm e k hk
    rcases mem_pair.1 hm with rfl | rfl
    all_goals grind [lookup_insert_ne, lookup_insert, lookup_empty, Small.key]
  obtain ⟨decoded, hdecode, hpolicy, -, hhistory⟩ :=
    kadmData_round_trip Small.env Small.laws twoSets
    (Small.key 2 9) [Small.key 1 5, Small.key 2 9] enc henc (by decide) hkeys hfiled
  exact ⟨enc, decoded, henc, hdecode, hpolicy, hhistory⟩

/-- The bit of a policy is set on the way. -/
theorem kadmData_attributes : ∃ enc decoded,
    encodeKADMData Small.env { policy := str "p" } (some (Small.key 2 9)) = .ok enc ∧
    decodeKADMData Small.env enc [Small.key 2 9] [] = .ok decoded ∧ decoded.auxAttributes ≠ 0 :=
  ⟨_, _, rfl, rfl, by decide⟩

end Kerberos.MITDump
