import Kerberos.Proof.Path
import Kerberos.Spec.AuthData

/-!
# Only what a KDC vouched for is marked

The walk carries the mark and the usage down through the containers. `Reaches` says, in terms of the
octets alone, that an element lies inside others: it lists the KDC-ISSUED and the CAMMAC containers
on the way to it. What the walk hands to a module it has reached, and a mark that was not there at
the start comes from a container on the way whose checksum was verified.

* `unwrap_fuel`: the depth of the recursion is bounded by the octets of the data.
* `unmarshal_wrapped`: a CAMMAC that is wrapped again, alone, is read back as it was.
* `only_vouched_for`: **what is passed to a module as authenticated lies inside a container that
  verifies under the key.**
-/

namespace Kerberos.AuthData

open ASN1 List Except Messages

/-! ## Containers shrink -/

variable {data : Bytes} {depth : ℕ}

theorem length_of_decode_octets {v : (Ty.prim .octets).Val}
    (h : decodeValue (.prim .octets) data depth = .ok v) :
    ((v : Option Bytes).getD []).length ≤ data.length := by
  obtain ⟨_, -, h⟩ := bind_ok.1 h
  obtain ⟨e, hread, h⟩ := bind_ok.1 h
  obtain ⟨_, -, h⟩ := bind_ok.1 h
  have hv : (v : Option Bytes) = if e.content = [] then none else some e.content := (ok.inj h).symm
  have hcontent : (v : Option Bytes).getD [] = e.content :=
    (congrArg (Option.getD · []) hv).trans (getD_ofContent e.content)
  rw [hcontent, (readWhole_ok.1 hread).1]
  exact length_lt_encodeTLV.le

/-- The fields of a struct without alternatives are in its content. -/
theorem decodeFields_of_struct {fields : Fields} (hnone : fields.hasChoice = false)
    {vs : fields.Vals} (h : decodeValue (.struct none fields) data depth = .ok vs) :
    ∃ content, content.length < data.length ∧ decodeFields fields content (depth + 1) = .ok vs := by
  obtain ⟨e, hread, ⟨hchoice, -⟩ | ⟨-, -, h⟩⟩ := decodeValue_struct h
  · rw [choicesFor_eq_zero hnone] at hchoice
    cases hchoice
  · obtain ⟨hdata, -, -⟩ := readWhole_ok.1 hread
    exact ⟨e.content, hdata ▸ length_lt_encodeTLV, h⟩

variable {entry : Entry}

theorem length_adData
    (h : decodeValue authorizationDataEntry data depth = .ok entry) :
    (adData entry).length + 1 ≤ data.length := by
  obtain ⟨content, hcontent, h⟩ := decodeFields_of_struct rfl h
  obtain ⟨type, data', ⟨⟩⟩ := entry
  obtain ⟨tail, htail, h, -⟩ := decodeFields_rest h (show (1 : UInt8) ≠ 0 by decide)
  obtain ⟨body, -, hbody, h, -⟩ := decodeFields_required h
  have hoctets := length_of_decode_octets h
  have hle : ((data' : Option Bytes).getD []).length + 1 ≤ data.length := by omega
  exact hle

theorem size_le_flatten {items : List Bytes} {values : List Entry}
    (h : List.Forall₂ (fun b entry => (adData entry).length + 1 ≤ b.length) items values) :
    size values ≤ items.flatten.length := by
  induction h with
  | nil => exact le_rfl
  | cons hb _ ih =>
    rw [flatten_cons, length_append]
    rw [size] at ih ⊢
    rw [map_cons, sum_cons]
    omega

variable {v : Messages.authorizationData.Val}

theorem size_of_decode (h : decodeValue authorizationData data depth = .ok v) :
    size (entries v) ≤ data.length := by
  obtain ⟨values, items, rfl, rfl, -, hforall⟩ := decodeValue_slice h
  have hsizes := size_le_flatten (hforall.imp fun b entry hb => length_adData hb.1)
  exact hsizes.trans length_lt_encodeTLV.le

theorem decodeValue_of_unmarshal {t : Ty} {v : t.Val} (h : unmarshal t data = .ok v) :
    decodeValue t data 0 = .ok v := by
  obtain ⟨_, -, h⟩ := bind_ok.1 (within_ok.1 h)
  exact h

theorem size_of_unmarshal (h : unmarshal authorizationData data = .ok v) :
    size (entries v) ≤ data.length :=
  size_of_decode (decodeValue_of_unmarshal h)

variable {issued : Messages.kdcIssued.Val}

theorem size_of_issued
    (h : unmarshal kdcIssued data = .ok issued) :
    size (entries (Issued.elements issued)) ≤ data.length := by
  obtain ⟨content, hcontent, h⟩ := decodeFields_of_struct rfl (decodeValue_of_unmarshal h)
  obtain ⟨sum, realm, name, elements, ⟨⟩⟩ := issued
  obtain ⟨_, htail₁, h, -⟩ := decodeFields_rest h (show (3 : UInt8) ≠ 0 by decide)
  obtain ⟨_, htail₂, h, -⟩ := decodeFields_rest h (show (3 : UInt8) ≠ 1 by decide)
  obtain ⟨_, htail₃, h, -⟩ := decodeFields_rest h (show (3 : UInt8) ≠ 2 by decide)
  obtain ⟨body, -, hbody, h, -⟩ := decodeFields_required h
  have hsize : size (entries elements) ≤ body.length := size_of_decode h
  have hle : size (entries elements) ≤ data.length := by omega
  exact hle

theorem size_of_cammac {value : cammac.Val} (h : unmarshal cammac data = .ok value) :
    size (entries (Cammac.elements value)) ≤ data.length := by
  obtain ⟨content, hcontent, h⟩ := decodeFields_of_struct rfl (decodeValue_of_unmarshal h)
  obtain ⟨elements, rest⟩ := value
  obtain ⟨body, -, hbody, h, -⟩ := decodeFields_required h
  have hsize : size (entries elements) ≤ body.length := size_of_decode h
  have hle : size (entries elements) ≤ data.length := by omega
  exact hle

/-! ## A CAMMAC wrapped again -/

/-- The encoding of an element. -/
def entryDER (entry : Entry) : Bytes :=
  encodeTLV tagSequence
    (encodeTLV 0xa0 (encodeTLV tagInteger (encodeInteger (adType entry).toInt)) ++
    (encodeTLV 0xa1 (encodeTLV tagOctetString (adData entry)) ++ []))

theorem marshal_entry (entry : Entry) :
    marshal authorizationDataEntry entry = .ok (entryDER entry) := by
  rfl

theorem length_le_entryDER (entry : Entry) :
    (encodeTLV tagInteger (encodeInteger (adType entry).toInt)).length ≤ (entryDER entry).length ∧
      (encodeTLV tagOctetString (adData entry)).length ≤ (entryDER entry).length := by
  have houter := @length_lt_encodeTLV tagSequence (encodeTLV 0xa0 (encodeTLV tagInteger
    (encodeInteger (adType entry).toInt)) ++
      (encodeTLV 0xa1 (encodeTLV tagOctetString (adData entry)) ++ []))
  have htype :=
    @length_lt_encodeTLV 0xa0 (encodeTLV tagInteger (encodeInteger (adType entry).toInt))
  have hdata := @length_lt_encodeTLV 0xa1 (encodeTLV tagOctetString (adData entry))
  rw [length_append, length_append] at houter
  rw [entryDER]
  constructor <;> omega

/-- A small element is in normal form. -/
theorem normal_entry (h : (entryDER entry).length < 2 ^ 32) :
    authorizationDataEntry.Normal entry 0 := by
  obtain ⟨hinteger, hoctets⟩ := length_le_entryDER entry
  have hwhole : encodeValue authorizationDataEntry entry 0 = .ok (entryDER entry) :=
    within_ok.1 (marshal_entry entry)
  obtain ⟨type, data, ⟨⟩⟩ := entry
  have htype : (Ty.prim .int32).Normal type 2 :=
    ⟨by decide, .of_encode rfl (hinteger.trans_lt h), trivial⟩
  have hdata : (Ty.prim .octets).Normal data 2 :=
    ⟨by decide, .of_encode rfl (hoctets.trans_lt h), trivial⟩
  exact ⟨by decide, .of_encode hwhole h, htype, hdata, trivial⟩

theorem getD_settled (data : Option Bytes) :
    (if data.getD [] = [] then none else data).getD [] = data.getD [] := by
  split_ifs with hnil
  · exact hnil.symm
  · rfl

variable {wrapped : Bytes}

/-- **A CAMMAC that is wrapped again, alone, is read back as it was**, if it is read at all. -/
theorem unmarshal_wrapped
    (hwrapped : marshal authorizationData (some [entry] : Option (List Entry)) = .ok wrapped)
    (h : unmarshal authorizationData wrapped = .ok v) :
    ∃ entry', entries v = [entry'] ∧ adType entry' = adType entry ∧
      adData entry' = adData entry := by
  obtain ⟨values, items, rfl, hdata, hsmall, hforall⟩ :=
    decodeValue_slice (decodeValue_of_unmarshal h)
  -- the content is the one element that was written
  have hitems : entryDER entry = items.flatten := by
    have hsingle : marshal authorizationData (some [entry] : Option (List Entry)) =
        .ok (encodeTLV tagSequence [entryDER entry].flatten) := by
      rfl
    have hsame := (ok.inj (hsingle.symm.trans hwrapped)).trans hdata
    rw [← (encodeTLV_inj hsame).2, flatten_cons, flatten_nil, append_nil]
  have hentry : (entryDER entry).length < 2 ^ 32 := hitems ▸ hsmall
  cases hforall with
  | nil => cases hitems
  | @cons item value items values hitem hrest =>
    obtain ⟨hdecode, tag, c, rfl, hc⟩ := hitem
    have hfields : (encodeTLV 0xa0 (encodeTLV tagInteger (encodeInteger (adType entry).toInt)) ++
        (encodeTLV 0xa1 (encodeTLV tagOctetString (adData entry)) ++ [])).length < 2 ^ 32 :=
      length_lt_encodeTLV.trans hentry
    rw [entryDER, ← append_nil (encodeTLV tagSequence _)] at hitems
    obtain ⟨rfl, hsame, hnil⟩ := encodeTLV_append_inj hfields hc hitems
    have hitem : encodeTLV tagSequence c = entryDER entry := by rw [← hsame]; rfl
    cases hrest with
    | cons hsecond _ =>
      obtain ⟨-, tag', c', rfl, -⟩ := hsecond
      cases hnil
    | nil =>
      obtain ⟨b, hmarshal, hback⟩ :=
        messages_read_back authorizationDataEntry (.inr rfl) entry (normal_entry hentry)
      obtain rfl := ok.inj ((marshal_entry entry).symm.trans hmarshal)
      have hvalue := decodeValue_depth _ (Nat.zero_le 1) _ hdecode
      rw [hitem, decodeValue_of_unmarshal hback] at hvalue
      refine ⟨value, rfl, ?_⟩
      rw [← ok.inj hvalue]
      obtain ⟨type, data, ⟨⟩⟩ := entry
      exact ⟨rfl, getD_settled data⟩

/-! ## Containers on the way to an element -/

/-- A container that a KDC makes. -/
inductive Container
  | issued (value : kdcIssued.Val)
  | cammac (value : cammac.Val)

/-- The checksum of a container over its encoded elements verifies under the key. -/
def Container.Verifies (registry : Int32 → Option EType) (key : EncryptionKey) : Container → Prop
  | .issued value => ∃ etype encoded,
    checksumEType registry (Issued.checksumType value) = .ok etype ∧
      marshal authorizationData (Issued.elements value) = .ok encoded ∧
      etype.verifyChecksum key.keyValue 19 encoded (Issued.mac value) = true
  | .cammac value => ∃ etype verifier encoded, registry key.keyType = some etype ∧
      Cammac.svcVerifier value = some verifier ∧
      marshal authorizationData (Cammac.elements value) = .ok encoded ∧
      etype.verifyChecksum key.keyValue 64 encoded (Cammac.mac verifier) = true

/-- The element lies in the data, inside these containers. -/
inductive Reaches : List Entry → List Container → Entry → Prop
  | here {data : List Entry} {entry : Entry} : entry ∈ data → Reaches data [] entry
  | ifRelevant {data : List Entry} {outer : Entry} {inner : authorizationData.Val}
    {path : List Container}
      {entry : Entry} : outer ∈ data → adType outer = ADIfRelevant →
      unmarshal authorizationData (adData outer) = .ok inner → Reaches (entries inner) path entry →
      Reaches data path entry
  | issued {data : List Entry} {outer : Entry} {value : kdcIssued.Val} {path : List Container}
    {entry : Entry} :
      outer ∈ data → adType outer = ADKDCIssued → unmarshal kdcIssued (adData outer) = .ok value →
      Reaches (entries (Issued.elements value)) path entry →
        Reaches data (.issued value :: path) entry
  | cammac {data : List Entry} {outer : Entry} {value : cammac.Val} {path : List Container}
    {entry : Entry} :
      outer ∈ data → adType outer = ADCAMMAC → unmarshal cammac (adData outer) = .ok value →
      Reaches (entries (Cammac.elements value)) path entry →
        Reaches data (.cammac value :: path) entry

theorem Reaches.mono {data data' : List Entry} (hsub : ∀ entry ∈ data, entry ∈ data')
    {path : List Container}
    (h : Reaches data path entry) : Reaches data' path entry := by
  cases h with
  | here hmem => exact .here (hsub _ hmem)
  | ifRelevant hmem htype hread h => exact .ifRelevant (hsub _ hmem) htype hread h
  | issued hmem htype hread h => exact .issued (hsub _ hmem) htype hread h
  | cammac hmem htype hread h => exact .cammac (hsub _ hmem) htype hread h

variable (w : Walk)

/-- One of the containers verifies under the key of the walk. -/
def Walk.Vouched (path : List Container) : Prop :=
  ∃ container ∈ path, container.Verifies w.registry w.key

theorem Walk.Vouched.cons {w : Walk} {path : List Container} (h : w.Vouched path)
    (container : Container) :
    w.Vouched (container :: path) := by
  obtain ⟨found, hmem, hverifies⟩ := h
  exact ⟨found, mem_cons_of_mem _ hmem, hverifies⟩

/-- The usages that only a KDC can give. -/
def kdcUsages : Flags := ADUsageKDCIssued ||| ADCAMMACProtected

/-- An item found in the data: it is inside containers, and what it has over the mark and the usage
at the start comes from a container that verifies. -/
def Walk.Traced (data : List Entry) (usage : Flags) (authenticated : Bool) (item : Item) : Prop :=
  ∃ path, Reaches data path item.entry ∧
    (item.authenticated = true → authenticated = true ∨ w.Vouched path) ∧
    (item.usage &&& kdcUsages = usage &&& kdcUsages ∨ w.Vouched path)

/-! ## CAMMAC -/

theorem Cammac.parse_ok {value : cammac.Val} (h : Cammac.parse data = .ok value) :
    unmarshal cammac data = .ok value := by
  obtain ⟨_, hread, h⟩ := bind_ok.1 h
  obtain ⟨_, -, h⟩ := bind_ok.1 h
  obtain ⟨_, -, h⟩ := bind_ok.1 h
  obtain rfl := ok.inj h
  exact within_ok.1 hread

variable {inner : Entry}

/-- The one CAMMAC in an AD-IF-RELEVANT that was made around it. -/
theorem Cammac.find_wrapped (htype : adType inner = ADCAMMAC)
    (hwrapped : marshal authorizationData (some [inner] : Option (List Entry)) = .ok wrapped)
    {values : List cammac.Val} (h : Cammac.find [((ADIfRelevant, some wrapped, ()) : Entry)] =
      .ok values) :
    ∃ value, values = [value] ∧ unmarshal cammac (adData inner) = .ok value := by
  obtain ⟨found, hfound, h⟩ := bind_ok.1 h
  obtain ⟨_, -, h⟩ := bind_ok.1 h
  obtain rfl := ok.inj h
  cases mapM_ok.1 hfound with
  | cons hfirst hrest =>
    cases hrest
    obtain ⟨v, hread, hparse⟩ := bind_ok.1 hfirst
    obtain ⟨entry, hentries, hentryType, hentryData⟩ :=
      unmarshal_wrapped hwrapped (within_ok.1 hread)
    rw [hentries, filter_cons_of_pos (by rw [hentryType, htype]; rfl)] at hparse
    cases mapM_ok.1 hparse with
    | cons hvalue hnone =>
      cases hnone
      rw [hentryData] at hvalue
      exact ⟨_, rfl, parse_ok hvalue⟩

/-- What a CAMMAC protects is handed on only if it was verified. -/
theorem unwrapCAMMAC_ok {recur : Recur} (htype : adType inner = ADCAMMAC)
    (hwrapped : marshal authorizationData (some [inner] : Option (List Entry)) = .ok wrapped)
      {usage : Flags}
    {issuer : Option Principal} {items : List Item}
    (h : w.unwrapCAMMAC recur [((ADIfRelevant, some wrapped, ()) : Entry)] usage issuer =
      .ok items) :
    ∃ value, unmarshal cammac (adData inner) = .ok value ∧
      (Container.cammac value).Verifies w.registry w.key ∧
      recur (entries (Cammac.elements value)) (usage ||| ADCAMMACProtected) true issuer =
        .ok items := by
  obtain ⟨_, -, h⟩ := bind_ok.1 h
  obtain ⟨_, hverify, h⟩ := bind_ok.1 h
  obtain ⟨data, hdata, h⟩ := bind_ok.1 h
  obtain ⟨values, hfind, hverify⟩ := bind_ok.1 hverify
  obtain ⟨etype, hetype, hverify⟩ := bind_ok.1 hverify
  obtain ⟨_, hall, -⟩ := bind_ok.1 hverify
  obtain ⟨value, rfl, hvalue⟩ := Cammac.find_wrapped htype hwrapped hfind
  -- the elements are those of the value that was verified
  rw [Cammac.protectedElements, hfind] at hdata
  obtain rfl := ok.inj hdata
  rw [flatMap_singleton] at h
  refine ⟨value, hvalue, ?_, h⟩
  have hone := forM_ok.1 hall value mem_cons_self
  rw [Cammac.verifyOne] at hone
  cases hverifier : Cammac.svcVerifier value with
  | none =>
    rw [hverifier] at hone
    cases hone
  | some verifier =>
    rw [hverifier] at hone
    obtain ⟨encoded, hencoded, hchecksum⟩ := bind_ok.1 hone
    exact ⟨etype, verifier, encoded, ofOption_ok.1 hetype, hverifier, within_ok.1 hencoded,
      ensure_ok.1 hchecksum⟩

/-! ## The depth of the recursion -/

theorem length_lt_size {data : List Entry} (h : entry ∈ data) :
    (adData entry).length < size data := by
  have hle :=
    single_le_sum (l := data.map fun entry => (adData entry).length + 1) (fun _ _ => Nat.zero_le _)
    ((adData entry).length + 1) (mem_map.2 ⟨entry, h, rfl⟩)
  exact hle

/-- Two functions agree on data of a size. -/
def Agree (bound : ℕ) (recur recur' : Recur) : Prop :=
  ∀ data usage authenticated issuer, size data ≤ bound → recur data usage authenticated issuer =
    recur' data usage authenticated issuer

variable {w} {recur recur' : Recur} {usage : Flags} {authenticated : Bool}
  {issuer : Option Principal}

theorem unwrapInner_congr (h : Agree ((adData inner).length + 1) recur recur') :
    w.unwrapInner recur usage authenticated issuer inner =
      w.unwrapInner recur' usage authenticated issuer inner := by
  have hself : recur [inner] usage authenticated issuer =
      recur' [inner] usage authenticated issuer := h _ _ _ _ le_rfl
  unfold Walk.unwrapInner
  by_cases htype : adType inner = ADCAMMAC
  · rw [if_pos htype, if_pos htype]
    refine bind_congr_ok fun wrapped hwrapped => ?_
    rw [hself]
    congr 1
    refine bind_congr_ok fun _ _ => bind_congr_ok fun _ _ => bind_congr_ok fun data hdata =>
      h _ _ _ _ ?_
    obtain ⟨values, hfind, hdata⟩ := bind_ok.1 hdata
    obtain ⟨value, rfl, hvalue⟩ := Cammac.find_wrapped htype hwrapped hfind
    obtain rfl := ok.inj hdata
    rw [flatMap_singleton]
    exact (size_of_cammac hvalue).trans (Nat.le_succ _)
  · rw [if_neg htype, if_neg htype, hself]

theorem unwrapEntry_congr (h : Agree (adData entry).length recur recur') :
    w.unwrapEntry recur usage authenticated issuer entry =
      w.unwrapEntry recur' usage authenticated issuer entry := by
  unfold Walk.unwrapEntry
  by_cases hrelevant : adType entry = ADIfRelevant
  · rw [if_pos hrelevant, if_pos hrelevant]
    refine bind_congr_ok fun inner hinner => ?_
    have hsize := size_of_unmarshal (within_ok.1 hinner)
    refine congrArg (· >>= _) (mapM_congr fun e he => unwrapInner_congr ?_)
    intro data usage authenticated issuer hle
    have hlt := length_lt_size he
    exact h _ _ _ _ (by omega)
  · rw [if_neg hrelevant, if_neg hrelevant]
    by_cases hissued : adType entry = ADKDCIssued
    · rw [if_pos hissued, if_pos hissued]
      refine bind_congr_ok fun issued hread => bind_congr_ok fun verified _ => h _ _ _ _ ?_
      exact size_of_issued (within_ok.1 hread)
    · rw [if_neg hissued, if_neg hissued]

/-- **The recursion goes no deeper than the data has octets**: with more fuel than that, the result
depends neither on the fuel nor on what lies below. -/
theorem unwrap_fuel {bottom bottom' : Recur} {n n' : ℕ} {data : List Entry} (h : size data < n)
    (h' : size data < n') :
    w.unwrap bottom n data usage authenticated issuer =
      w.unwrap bottom' n' data usage authenticated issuer := by
  induction n generalizing n' data usage authenticated issuer with
  | zero => omega
  | succ n ih =>
    obtain ⟨n', rfl⟩ : ∃ k, n' = k + 1 := ⟨n' - 1, by omega⟩
    refine congrArg (· >>= _) (mapM_congr fun entry hentry => unwrapEntry_congr ?_)
    intro inner usage authenticated issuer hle
    have hlt := length_lt_size hentry
    exact ih (by omega) (by omega)

/-! ## What the walk finds -/

theorem verifyIssued_ok {verified : Bool} (h : w.verifyIssued issued = .ok verified) :
    verified = true → (Container.issued issued).Verifies w.registry w.key := by
  obtain ⟨encoded, hencoded, h⟩ := bind_ok.1 h
  obtain ⟨etype, hetype, h⟩ := bind_ok.1 h
  rintro rfl
  by_cases hkey : w.key.keyValue = []
  · have h := (if_pos hkey).symm.trans h
    cases h
  · have h := (if_neg hkey).symm.trans h
    obtain ⟨hverify, -⟩ := ensure_bind_ok.1 h
    exact ⟨etype, encoded, hetype, hencoded, hverify⟩

/-- All that a function finds is traced to the data. -/
def Walk.Sound (w : Walk) (recur : Recur) : Prop :=
  ∀ data usage authenticated issuer items, recur data usage authenticated issuer = .ok items →
    ∀ item ∈ items, w.Traced data usage authenticated item

theorem traced_unwrapInner (hsound : w.Sound recur) {items : List Item}
    (h : w.unwrapInner recur usage authenticated issuer inner = .ok items) :
    ∀ item ∈ items, w.Traced [inner] usage authenticated item := by
  intro item hitem
  unfold Walk.unwrapInner at h
  by_cases htype : adType inner = ADCAMMAC
  · rw [if_pos htype] at h
    obtain ⟨wrapped, hwrapped, h⟩ := bind_ok.1 h
    cases hcammac : w.unwrapCAMMAC recur [((ADIfRelevant, some wrapped, ()) : Entry)]
      usage issuer with
    | error err =>
      -- it could not be verified, and is an element like others
      rw [hcammac] at h
      exact hsound _ _ _ _ _ h item hitem
    | ok found =>
      rw [hcammac] at h
      obtain rfl := ok.inj h
      obtain ⟨value, hvalue, hverifies, hfound⟩ := unwrapCAMMAC_ok w htype hwrapped hcammac
      obtain ⟨path, hreaches, -, -⟩ := hsound _ _ _ _ _ hfound item hitem
      have hvouched : w.Vouched (.cammac value :: path) := ⟨_, mem_cons_self, hverifies⟩
      exact ⟨_, .cammac mem_cons_self htype hvalue hreaches, fun _ => .inr hvouched, .inr hvouched⟩
  · rw [if_neg htype] at h
    exact hsound _ _ _ _ _ h item hitem

theorem traced_issued (hsound : w.Sound recur) (htype : adType entry = ADKDCIssued)
    (hread : unmarshal kdcIssued (adData entry) = .ok issued) {verified : Bool}
    (hverified : w.verifyIssued issued = .ok verified) {items : List Item}
    (h : recur (entries (Issued.elements issued))
      (if verified then usage ||| ADUsageKDCIssued else usage)
      (authenticated || verified) ((Issued.issuer issued).or issuer) = .ok items) :
    ∀ item ∈ items, w.Traced [entry] usage authenticated item := by
  intro item hitem
  obtain ⟨path, hreaches, hmark, husage⟩ := hsound _ _ _ _ _ h item hitem
  have hreaches' : Reaches [entry] (.issued issued :: path) item.entry :=
    .issued mem_cons_self htype hread hreaches
  cases verified with
  | true =>
    have hvouched : w.Vouched (.issued issued :: path) :=
      ⟨_, mem_cons_self, verifyIssued_ok hverified rfl⟩
    exact ⟨_, hreaches', fun _ => .inr hvouched, .inr hvouched⟩
  | false =>
    rw [Bool.or_false] at hmark
    refine ⟨_, hreaches', fun hitem => (hmark hitem).imp_right fun hvouched => hvouched.cons _, ?_⟩
    exact husage.imp_right fun hvouched => hvouched.cons _

theorem traced_unwrapEntry (hsound : w.Sound recur) {items : List Item}
    (h : w.unwrapEntry recur usage authenticated issuer entry = .ok items) :
    ∀ item ∈ items, w.Traced [entry] usage authenticated item := by
  unfold Walk.unwrapEntry at h
  by_cases hrelevant : adType entry = ADIfRelevant
  · rw [if_pos hrelevant] at h
    obtain ⟨inner, hinner, h⟩ := bind_ok.1 h
    obtain ⟨found, hfound, h⟩ := bind_ok.1 h
    obtain rfl := ok.inj h
    intro item hitem
    obtain ⟨items, hitems, hitem⟩ := mem_flatten.1 hitem
    obtain ⟨e, he, hunwrap⟩ := (mapM_ok.1 hfound).exists_right hitems
    obtain ⟨path, hreaches, hmark, husage⟩ := traced_unwrapInner hsound hunwrap item hitem
    have hinside : Reaches (entries inner) path item.entry := by
      refine hreaches.mono fun entry hentry => ?_
      rwa [mem_singleton.1 hentry]
    exact ⟨path, .ifRelevant mem_cons_self hrelevant (within_ok.1 hinner) hinside, hmark, husage⟩
  · rw [if_neg hrelevant] at h
    by_cases hissued : adType entry = ADKDCIssued
    · rw [if_pos hissued] at h
      obtain ⟨issued, hread, h⟩ := bind_ok.1 h
      obtain ⟨verified, hverified, h⟩ := bind_ok.1 h
      exact traced_issued hsound hissued (within_ok.1 hread) hverified h
    · rw [if_neg hissued] at h
      obtain rfl := ok.inj h
      intro item hitem
      obtain rfl := mem_singleton.1 hitem
      exact ⟨[], .here mem_cons_self, .inl, .inl rfl⟩

/-- One level keeps the trace. -/
theorem Walk.Sound.unwrapLevel (hsound : w.Sound recur) : w.Sound (w.unwrapLevel recur) := by
  intro data usage authenticated issuer items h item hitem
  obtain ⟨found, hfound, h⟩ := bind_ok.1 h
  obtain rfl := ok.inj h
  obtain ⟨items, hitems, hitem⟩ := mem_flatten.1 hitem
  obtain ⟨entry, hentry, hunwrap⟩ := (mapM_ok.1 hfound).exists_right hitems
  obtain ⟨path, hreaches, hmark, husage⟩ := traced_unwrapEntry hsound hunwrap item hitem
  exact ⟨path, hreaches.mono fun e he => by rwa [mem_singleton.1 he], hmark, husage⟩

theorem sound_unwrap {bottom : Recur} (hbottom : w.Sound bottom) (n : ℕ) :
    w.Sound (w.unwrap bottom n) := by
  induction n with
  | zero => exact hbottom
  | succ n ih => exact ih.unwrapLevel

/-! ## What the modules get -/

variable {σ : Type}

theorem mem_importItems {module : Module σ} {items : List Item} {s : σ} {call : Call}
    (h : call ∈ (importItems module items s).1) : call.item ∈ items := by
  induction items generalizing s with
  | nil => cases h
  | cons item items ih =>
    have hafter : ∀ s : σ, call ∈ ((importItems module items s).after ⟨module.name, item⟩).1 →
        call.item ∈ item :: items := by
      intro s hmem
      rcases mem_cons.1 hmem with rfl | hmem
      · exact mem_cons_self
      · exact mem_cons_of_mem _ (ih hmem)
    rw [importItems] at h
    by_cases hskip : module.flags (adType item.entry) &&& item.usage = 0
    · rw [if_pos hskip] at h
      exact mem_cons_of_mem _ (ih h)
    · rw [if_neg hskip] at h
      split at h
      · exact hafter _ h
      · split_ifs at h with hinformational
        · exact hafter _ h
        · rw [mem_singleton.1 h]
          exact mem_cons_self

theorem mem_importModules {modules : List (Module σ)} {items : List Item} {s : σ} {call : Call}
    (h : call ∈ (importModules items modules s).1) : call.item ∈ items := by
  induction modules generalizing s with
  | nil => cases h
  | cons module modules ih =>
    have hfirst := @mem_importItems σ module items s call
    rw [importModules] at h
    split at h
    · rename_i hitems
      rw [hitems] at hfirst
      exact hfirst h
    · rename_i hitems
      rw [hitems] at hfirst
      rcases mem_append.1 h with h | h
      · exact hfirst h
      · exact ih h

/-- **Import ends, and what it passes to a module as issued by a KDC, or for a usage that only a KDC
can give, lies inside a KDC-ISSUED or a CAMMAC container whose checksum verifies under the key.** -/
theorem only_vouched_for (w : Walk) (modules : List (Module σ)) (data : List Entry)
    (usage : Flags) (s : σ) :
    (∀ (bottom bottom' : Recur) (n n' : ℕ), size data < n → size data < n' →
      w.unwrap bottom n data usage false none = w.unwrap bottom' n' data usage false none) ∧
    ∀ call ∈ (importData w modules data usage s).1, ∃ path, Reaches data path call.item.entry ∧
      (call.item.authenticated = true → w.Vouched path) ∧
      ∀ bit, bit = ADUsageKDCIssued ∨ bit = ADCAMMACProtected → usage &&& bit = 0 →
        call.item.usage &&& bit ≠ 0 →
        w.Vouched path := by
  refine ⟨fun bottom bottom' n n' h h' => unwrap_fuel h h', ?_⟩
  intro call hcall
  have hbottom : w.Sound fun _ _ _ _ => .error "" := fun _ _ _ _ _ h => nomatch h
  rw [importData] at hcall
  split at hcall
  · cases hcall
  · rename_i items hitems
    obtain ⟨path, hreaches, hmark, husage⟩ :=
      sound_unwrap hbottom _ _ _ _ _ _ hitems _ (mem_importModules hcall)
    refine ⟨path, hreaches, fun hauthenticated =>
      (hmark hauthenticated).resolve_left Bool.false_ne_true, ?_⟩
    intro bit hbit hstart hfound
    refine husage.resolve_left fun hsame => hfound ?_
    have hmask : kdcUsages &&& bit = bit := by rcases hbit with rfl | rfl <;> decide
    rw [← hmask, ← BitVec.and_assoc, hsame, BitVec.and_assoc, hmask, hstart]

end Kerberos.AuthData
