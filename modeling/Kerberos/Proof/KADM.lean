import Kerberos.Spec.SmallKDB

/-!
# KADM data reads back

What `DecodeKADMData` makes of the output of `EncodeKADMData`
(`decodeKADMData_encodeKADMData`): the policy and the other fields come back, and the
password history as far as the history keys open it (`reopenEntry`).

`KDB.Laws` is what the enctypes of the registry promise.
-/

namespace Kerberos

open Reader List Except UInt32 Xdr

/-- The promises of the enctype registry: an enctype has the number it is registered under, keys
and ciphertexts of bounded length, and opens what it has sealed. -/
structure KDB.Laws (env : KDB.Env) : Prop where
  id : ∀ {e t}, env.etype e = some t → t.id = e
  enctype : ∀ {e t}, env.etype e = some t → 0 ≤ e.toInt ∧ e.toInt < 2 ^ 15
  keySize : ∀ {e t}, env.etype e = some t → 0 < t.keySize ∧ t.keySize ≤ 64
  decrypt_encrypt : ∀ {e t}, env.etype e = some t → ∀ {k u p c}, t.encrypt k u p = some c →
    t.decrypt k u c = some p
  length_encrypt : ∀ {e t}, env.etype e = some t → ∀ {k u p c}, t.encrypt k u p = some c →
    p.length ≤ c.length ∧ c.length ≤ p.length + 64

/-- The packages of the small registry keep their promises. -/
theorem Small.laws : KDB.Laws Small.env where
  id h := by
    simp only [env] at h
    split_ifs at h
    cases h
    rfl
  enctype h := by
    simp only [env] at h
    split_ifs at h with hrange
    exact ⟨hrange.1, by omega⟩
  keySize h := by
    simp only [env] at h
    split_ifs at h
    cases h
    exact ⟨one_pos, Nat.one_le_ofNat⟩
  decrypt_encrypt h := by
    intro k u p c hc
    simp only [env] at h
    split_ifs at h
    cases h
    simp only [etype] at hc ⊢
    split_ifs at hc with hk
    cases hc
    obtain ⟨b, rfl⟩ := length_eq_one_iff.1 hk
    simp
  length_encrypt h := by
    intro k u p c hc
    simp only [env] at h
    split_ifs at h
    cases h
    simp only [etype] at hc
    split_ifs at hc with hk
    cases hc
    simp only [length_append, length_cons]
    omega

/-! ## XDR -/

theorem reads_u32 (v : UInt32) : Reads XdrReader.u32 (u32 v) (.ok v) := by
  refine Reads.final (Reads.take (Words.length_beBytes 4 v.toNat) _) (Reads.pure_eq ?_)
  rw [Words.ofBE_beBytes v.toNat_lt, UInt32.ofNat_toNat]

theorem reads_u16 (v : UInt16) : Reads XdrReader.u16 (u16 v) (.ok v) := by
  have hlt : v.toUInt32.toNat ≤ maxUint16 := by
    have := v.toNat_lt
    simp only [UInt16.toNat_toUInt32, maxUint16]
    omega
  refine Reads.final (reads_u32 _) (Reads.quiet (Reads.check (by simpa using hlt) _) ?_)
  exact Reads.pure_eq (by simp)

theorem reads_i16 (v : Int16) : Reads XdrReader.i16 (i16 v) (.ok v) := by
  have hsigned : v.toInt32.toUInt32.toInt32.toInt = v.toInt := by simp
  have hlow : -2 ^ 15 ≤ v.toInt := v.le_toInt
  have hhigh : v.toInt < 2 ^ 15 := v.toInt_lt
  refine Reads.final (reads_u32 _) ?_
  rw [hsigned]
  refine Reads.quiet (Reads.check (by simp; omega) _) (Reads.pure_eq ?_)
  exact Int16.ofInt_toInt v

theorem reads_bytes {v : Bytes} (hv : v.length ≤ maxUint16) :
    Reads (XdrReader.bytes (UInt16.ofNat v.length)) (bytes v) (.ok v) := by
  have h16 : (UInt16.ofNat v.length).toNat = v.length := by
    rw [UInt16.toNat_ofNat']
    simp only [maxUint16] at hv
    omega
  have h32 : (ofNat v.length).toNat = v.length := by
    rw [toNat_ofNat']
    simp only [maxUint16] at hv
    omega
  unfold XdrReader.bytes bytes XdrReader.take
  rw [append_assoc]
  refine Reads.step (reads_u32 _) (Reads.quiet (Reads.check (by simp [h16, h32]) _) ?_)
  rw [h32]
  refine Reads.step (Reads.take rfl _) ?_
  exact Reads.final (Reads.take (length_replicate ..) _) (Reads.pure v)

theorem reads_nullString {v : Bytes} (hv : v.length + 1 < 2 ^ 32) :
    Reads XdrReader.nullString (nullString v) (.ok v) := by
  have h32 : (ofNat (v ++ [0]).length).toNat = v.length + 1 := by
    rw [toNat_ofNat', length_append, length_singleton]
    omega
  have hne : ofNat (v ++ [0]).length ≠ 0 := by
    intro h0
    rw [h0] at h32
    simp at h32
  have htail : Reads (XdrReader.take (v.length + 1) >>= fun raw =>
      check (raw.getLast? = some 0) "KADM data string is not terminated" >>= fun _ =>
        XdrReader.take (xdrPad (v.length + 1)) >>= fun _ => pure raw.dropLast)
      (v ++ [0] ++ replicate (xdrPad (v.length + 1)) 0) (.ok v) := by
    refine Reads.step (Reads.take (by simp) _) (Reads.quiet (Reads.check (by simp) _) ?_)
    exact Reads.final (Reads.take (length_replicate ..) _) (Reads.pure_eq (by simp))
  unfold XdrReader.nullString nullString bytes
  rw [append_assoc]
  refine Reads.step (reads_u32 _) (Reads.get fun rest => ?_)
  have hlen : (v ++ [0]).length = v.length + 1 := by simp
  rw [hlen] at hne
  rw [h32, hlen]
  refine (Reads.quiet (Reads.check ?_ _) htail) rest
  simp only [decide_eq_true_eq]
  refine ⟨hne, ?_⟩
  simp only [length_append, length_singleton]
  omega

theorem length_u32 (v : UInt32) : (u32 v).length = 4 := Words.length_beBytes 4 v.toNat

/-! ## Historical keys -/

/-- The salt a key is used with: a key without one has the principal's default. -/
def effectiveSalt (normal salt : Bytes) : Bytes := if salt = [] then normal else salt

variable {normal : Bytes}

theorem effectiveSalt_special {salt : Bytes} (h : specialSalt normal salt = true) :
    effectiveSalt normal salt = salt := by
  simp only [specialSalt, Bool.and_eq_true, decide_eq_true_eq] at h
  exact if_neg h.1

theorem effectiveSalt_normal {salt : Bytes} (h : specialSalt normal salt = false) :
    effectiveSalt normal salt = normal := by
  unfold effectiveSalt
  split_ifs with hs
  · rfl
  · simpa [specialSalt, hs] using h

/-- The ciphertext of a historical key. -/
def historyCiphertext (env : KDB.Env) (historyKey key : Key) : Option Bytes :=
  (env.etype historyKey.enctype).bind fun etype => etype.encrypt historyKey.key 0 key.key

/-- A historical key as it comes back: whatever opens its ciphertext first decides. -/
def reopenKey (env : KDB.Env) (historyKey : Key) (historyKeys : List Key) (normal : Bytes)
    (key : Key) : Except String Key := do
  let plain ← Except.ofOption "KADM key-data decryption"
    ((historyCiphertext env historyKey key).bind (decryptHistoryKey env historyKeys))
  Except.ensure (plain.length = key.key.length) "KADM key-data plaintext length mismatch"
  pure { key with key := plain, salt := effectiveSalt normal key.salt }

variable {env : KDB.Env} {historyKey : Key} {enc : Bytes}

theorem reads_historyKey (laws : KDB.Laws env) {key : Key}
    (henc : encodeHistoryKey env (some historyKey) normal key = .ok enc) (historyKeys : List Key) :
    Reads (decodeHistoryKey env historyKeys normal) enc
      (reopenKey env historyKey historyKeys normal key) := by
  simp only [encodeHistoryKey, Except.bind_ok, ofOption_ok, ensure_ok,
    Option.some.injEq] at henc
  obtain ⟨_, rfl, etype, hetype, keyEType, hkeyEType, _, hlen, _, hkvno, ct, hct, _, hcontents, _,
    hsalt, hpure⟩ := henc
  cases hpure
  have hrange := laws.enctype hkeyEType
  have hsize := laws.keySize hkeyEType
  have hversion : (UInt16.ofNat key.kvno.toNat).toUInt32 = key.kvno := by
    apply UInt32.toNat_inj.1
    simp only [UInt16.toNat_toUInt32, UInt16.toNat_ofNat', maxUint16] at *
    omega
  have henctype : Int32.ofInt (Int16.ofInt key.enctype.toInt).toInt = key.enctype := by
    rw [Int16.toInt_ofInt_of_le (by norm_num; omega) (by norm_num; omega), Int32.ofInt_toInt]
  have hct' : historyCiphertext env historyKey key = some ct := by
    simp [historyCiphertext, hetype, hct]
  have hplain : Words.ofLE ((sealedContents key.key ct).take 2) = key.key.length := by
    rw [sealedContents, take_left' (by simp [le16]), le16, Words.ofLE_leBytes]
    omega
  have hbytes : (UInt16.ofNat (sealedContents key.key ct).length).toNat =
      (sealedContents key.key ct).length := by
    rw [UInt16.toNat_ofNat']
    simp only [maxUint16] at hcontents
    omega
  simp only [append_assoc]
  refine Reads.step (reads_i16 _) (Reads.quiet (Reads.check (by split_ifs <;> simp) _) ?_)
  refine Reads.step (reads_u16 _) (Reads.step (reads_i16 _) (Reads.step (reads_i16 _) ?_))
  refine Reads.step (reads_u16 _) (Reads.step (reads_u16 _) (Reads.step (reads_bytes hcontents) ?_))
  refine Reads.final (reads_bytes hsalt) (Reads.quiet (Reads.check ?_ _) ?_)
  · rw [hbytes]
    simp [sealedContents, le16]
  rw [hplain, hversion, henctype]
  refine Reads.quiet (Reads.check (decide_eq_true (by omega)) _) ?_
  unfold reopenKey
  rw [hct']
  refine Reads.last (Reads.lift _) fun plain _ => Reads.last (Reads.ensure _ _) fun _ _ => ?_
  refine Reads.pure_eq ?_
  cases hspecial : specialSalt normal key.salt with
  | true => simp [effectiveSalt_special hspecial]
  | false => simp [effectiveSalt_normal hspecial]

theorem length_historyKey {key : Key}
    (henc : encodeHistoryKey env (some historyKey) normal key = .ok enc) : 24 ≤ enc.length := by
  simp only [encodeHistoryKey, Except.bind_ok, ofOption_ok, Option.some.injEq] at henc
  obtain ⟨_, rfl, _, _, _, _, _, _, _, _, _, _, _, _, _, _, hpure⟩ := henc
  cases hpure
  simp only [length_append, i16, u16, length_u32]
  omega

/-- A historical password as it comes back. -/
def reopenEntry (env : KDB.Env) (historyKey : Key) (historyKeys : List Key) (normal : Bytes)
    (history : GoMap Int32 Key) : Except String (GoMap Int32 Key) := do
  let keys ← (sortedHistory env history).mapM (reopenKey env historyKey historyKeys normal)
  pure (keyMapOf keys)

theorem length_le_flatten {α : Type*} {ls : List (List α)} {n : ℕ} (h : ∀ l ∈ ls, n ≤ l.length) :
    ls.length * n ≤ ls.flatten.length := by
  induction ls with
  | nil => simp
  | cons l ls ih =>
    have hl := h l mem_cons_self
    have hls := ih fun x hx => h x (mem_cons_of_mem _ hx)
    rw [flatten_cons, length_append, length_cons]
    linarith [Nat.succ_mul ls.length n]

theorem reads_historyEntry (laws : KDB.Laws env) {history : GoMap Int32 Key}
    (henc : encodeHistoryEntry env (some historyKey) normal history = .ok enc)
    (historyKeys : List Key) {size : ℕ} (hsize : enc.length ≤ size) :
    Reads (decodeHistoryEntry env historyKeys normal size) enc
      (reopenEntry env historyKey historyKeys normal history) := by
  simp only [encodeHistoryEntry, Except.bind_ok, ensure_ok] at henc
  obtain ⟨_, hcount, encs, hencs, hpure⟩ := henc
  cases hpure
  rw [mapM_ok] at hencs
  have hlong : ∀ l ∈ encs, 24 ≤ l.length := by
    intro l hl
    obtain ⟨key, _, hkey⟩ := hencs.exists_right hl
    exact length_historyKey hkey
  have hflat := length_le_flatten hlong
  have h32 : (ofNat (sortedHistory env history).length).toNat =
      (sortedHistory env history).length := by
    rw [toNat_ofNat']
    omega
  refine Reads.step (reads_u32 _) (Reads.quiet (Reads.check (decide_eq_true ?_) _) ?_)
  · rw [h32, hencs.length_eq]
    rw [length_append] at hsize
    omega
  rw [h32]
  refine Reads.last (Reads.many ?_) fun keys _ => Reads.pure _
  exact hencs.imp fun key enc hkey => reads_historyKey laws hkey historyKeys

/-! ## The whole of it -/

theorem filterMap_range_getElem? {α : Type*} (l : List α) :
    (List.range l.length).filterMap (fun i => l[i]?) = l := by
  induction l with
  | nil => rfl
  | cons a l ih =>
    rw [length_cons, range_succ_eq_map, filterMap_cons, filterMap_map]
    exact congrArg (a :: ·) ih

/-- A queue written with an unwrapped cursor comes back newest first. -/
theorem newestFirst_length {α : Type} (queue : List α) :
    newestFirst queue.length queue = queue.reverse := by
  conv_rhs => rw [← filterMap_range_getElem? queue.reverse, length_reverse]
  refine filterMap_congr fun i hi => ?_
  have hi : i < queue.length := mem_range.1 hi
  rw [Nat.mod_self, getElem?_reverse hi, Nat.mod_eq_of_lt (by omega)]
  congr 1
  omega

/-- The encoded auxiliary attributes: a policy sets its bit. -/
def kadmAux (policy : Bytes) (aux : UInt32) : UInt32 :=
  if policy ≠ [] then aux ||| kadmPolicy else aux

/-- The encoded version of the history key. -/
def kadmKVNO (kvno : UInt32) (historyKey : Option Key) : UInt32 :=
  match historyKey with
  | some key => if kvno = 0 then key.kvno else kvno
  | none => kvno

/-- The fields of encoded KADM data in front of the history. -/
theorem reads_kadmHeader {policy : Bytes} (hpolicy : policy.length + 1 < 2 ^ 32)
    (aux next kvno count : UInt32) (size : ℕ) (hcount : count.toNat ≤ size / 4) :
    Reads (kadmHeader size)
      (u32 kadmDataVersion ++ nullString policy ++ u32 aux ++ u32 next ++ u32 kvno ++ u32 count)
      (.ok ({ policy, auxAttributes := aux, oldKeyNext := next, adminHistoryKVNO := kvno },
        count)) := by
  simp only [append_assoc]
  refine Reads.step (reads_u32 _) (Reads.quiet (Reads.check (decide_eq_true rfl) _) ?_)
  refine Reads.step (reads_nullString hpolicy) (Reads.step (reads_u32 _) ?_)
  refine Reads.step (reads_u32 _) (Reads.step (reads_u32 _) (Reads.final (reads_u32 _) ?_))
  exact Reads.quiet (Reads.check (decide_eq_true hcount) _) (Reads.pure _)

variable {data : KADMData} {historyKey : Option Key}
  (henc : encodeKADMData env data historyKey = .ok enc)

include henc

/-- What the encoder has checked, and what it writes. -/
theorem encodeKADMData_ok :
    (data.policy = [] → data.auxAttributes &&& kadmPolicy = 0) ∧ data.oldKeys.length < 2 ^ 32 ∧
      ∃ entries, List.Forall₂ (fun history entry => encodeHistoryEntry env
          (some (historyKey.getD default)) data.normalSalt history = .ok entry)
            data.oldKeys.reverse entries ∧
        enc = u32 kadmDataVersion ++ nullString data.policy ++
          u32 (kadmAux data.policy data.auxAttributes) ++
          u32 (UInt32.ofNat data.oldKeys.length) ++
            u32 (kadmKVNO data.adminHistoryKVNO historyKey) ++
          u32 (UInt32.ofNat data.oldKeys.length) ++ entries.flatten := by
  simp only [encodeKADMData, Except.bind_ok, ensure_ok, mapM_ok] at henc
  obtain ⟨_, hpolicy, _, hcount, _, havail, entries, hentries, hpure⟩ := henc
  cases hpure
  refine ⟨fun h => hpolicy.resolve_left (not_not_intro h), hcount, entries, ?_, rfl⟩
  cases historyKey with
  | some key => exact hentries
  | none =>
    have hnil : data.oldKeys = [] := by simpa using havail
    rw [hnil] at hentries ⊢
    cases hentries
    exact .nil

/-- The fields of KADM data as they come back, without the history. -/
def headerOf (data : KADMData) (historyKey : Option Key) : KADMData where
  policy := data.policy
  auxAttributes := kadmAux data.policy data.auxAttributes
  oldKeyNext := UInt32.ofNat data.oldKeys.length
  adminHistoryKVNO := kadmKVNO data.adminHistoryKVNO historyKey

theorem length_policy_lt (hsize : enc.length ≤ maxUint16) : data.policy.length + 1 < 2 ^ 32 := by
  obtain ⟨_, _, entries, _, henc⟩ := encodeKADMData_ok henc
  simp only [henc, nullString, bytes, length_append, maxUint16] at hsize
  omega

/-- The header of encoded KADM data reads back, and leaves the entries of the history. -/
theorem kadmHeader_encodeKADMData (hpolicy : data.policy.length + 1 < 2 ^ 32) :
    ∃ entries, List.Forall₂ (fun history entry => encodeHistoryEntry env
          (some (historyKey.getD default)) data.normalSalt history = .ok entry)
            data.oldKeys.reverse entries ∧
      (∀ entry ∈ entries, entry.length ≤ enc.length) ∧ kadmHeader enc.length enc =
        .ok ((headerOf data historyKey, UInt32.ofNat data.oldKeys.length), entries.flatten) := by
  obtain ⟨_, hcount, entries, hentries, henc⟩ := encodeKADMData_ok henc
  have h32 : (ofNat data.oldKeys.length).toNat = data.oldKeys.length := by
    rw [toNat_ofNat']
    omega
  have hlen : enc.length = 20 + (nullString data.policy).length + entries.flatten.length := by
    rw [henc]
    simp only [length_append, length_u32]
    omega
  have hmany : entries.length * 4 ≤ entries.flatten.length := by
    refine length_le_flatten fun entry hmem => ?_
    obtain ⟨history, _, h⟩ := hentries.exists_right hmem
    simp only [encodeHistoryEntry, Except.bind_ok] at h
    obtain ⟨_, _, _, _, hpure⟩ := h
    cases hpure
    rw [length_append, length_u32]
    omega
  refine ⟨entries, hentries, ?_, ?_⟩
  · intro entry hmem
    have := (sublist_flatten_of_mem hmem).length_le
    omega
  · have hhead := reads_kadmHeader hpolicy (kadmAux data.policy data.auxAttributes)
      (ofNat data.oldKeys.length) (kadmKVNO data.adminHistoryKVNO historyKey)
      (ofNat data.oldKeys.length) enc.length (by
        rw [h32, ← length_reverse, hentries.length_eq]
        omega) entries.flatten
    rwa [← henc] at hhead

theorem parseKADMDataMetadata_encodeKADMData (hpolicy : data.policy.length + 1 < 2 ^ 32) :
    ∃ oldKeys, parseKADMDataMetadata enc = .ok { headerOf data historyKey with oldKeys } := by
  obtain ⟨entries, _, _, hhead⟩ := kadmHeader_encodeKADMData henc hpolicy
  refine ⟨replicate (ofNat data.oldKeys.length).toNat ∅, ?_⟩
  unfold parseKADMDataMetadata
  rw [hhead]
  rfl

/-- **KADM data reads back.** The history comes back as far as the history keys open it. -/
theorem decodeKADMData_encodeKADMData (laws : KDB.Laws env)
    (hpolicy : data.policy.length + 1 < 2 ^ 32) (historyKeys : List Key) :
    decodeKADMData env enc historyKeys data.normalSalt =
      (data.oldKeys.reverse.mapM (reopenEntry env (historyKey.getD default) historyKeys
        data.normalSalt)).map fun entries =>
          { headerOf data historyKey with oldKeys := entries.reverse } := by
  have hcount := (encodeKADMData_ok henc).2.1
  obtain ⟨entries, hentries, hentry, hhead⟩ := kadmHeader_encodeKADMData henc hpolicy
  have h32 : (ofNat data.oldKeys.length).toNat = data.oldKeys.length := by
    rw [toNat_ofNat']
    omega
  have hbody := Reads.many
    (hentries.imp_mem fun history _ entry hmem h =>
      reads_historyEntry laws h historyKeys (hentry entry hmem)) []
  rw [append_nil, length_reverse] at hbody
  unfold decodeKADMData
  simp only [bind, StateT.bind, hhead, Except.bind, h32, hbody]
  cases hx : data.oldKeys.reverse.mapM (reopenEntry env (historyKey.getD default) historyKeys
    data.normalSalt) with
  | error e => rfl
  | ok reopened =>
    have hsame : data.oldKeys.length = reopened.length := by
      rw [← (mapM_ok.1 hx).length_eq, length_reverse]
    show ok _ = ok _
    simp only [headerOf, h32]
    rw [hsame, newestFirst_length]

end Kerberos
