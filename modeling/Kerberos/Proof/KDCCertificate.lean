import Kerberos.Proof.CMS

/-!
# The certificate of a KDC

`validateKDC` looks at the first id-pkinit-san name of a certificate only, and compares the
principal's components and realm in one list: `krbtgt` without an instance, and `krbtgt/R` with more
components behind it, pass for `krbtgt/R`.

* `AltName`, `Carries`: the names of a certificate and their DER.
* `checkSAN_iff`: the reader on the DER of a principal.
* `kdc_certificate_iff`: when the answer about a certificate is the right one.
-/

namespace Kerberos.PKINIT

open List Except OIDs Words

variable {tag : UInt8} {content rest : Bytes} {l : List Bytes}

/-! ## Reading what was written -/

theorem lengthOctets_eq {data : Bytes} (h : ofBE data ≤ maxInt) :
    lengthOctets data = some (ofBE data) := by
  induction data using List.reverseRecOn with
  | nil => rfl
  | append_singleton data b ih =>
    have hb : ofBE [b] = b.toNat := by simp [ofBE, ofLE]
    rw [ofBE_append, hb, length_singleton, pow_one] at h ⊢
    have hfits : ¬ ofBE data > (maxInt - b.toNat) / 256 := by omega
    have hdata : lengthOctets data = some (ofBE data) := ih (by omega)
    unfold lengthOctets at hdata ⊢
    rw [foldlM_append, hdata]
    simp [hfits]

/-- What `readTLV` finds at an element that `der` has written. -/
theorem readTLV_der (tag : UInt8) (rest : Bytes) (h : content.length ≤ maxInt) :
    readTLV (der tag content ++ rest) = .ok ⟨tag, content, (der tag content).length⟩ := by
  have hlength : ∃ first octets, derLen content.length = first :: octets ∧
      derLength first (octets ++ (content ++ rest)) = .ok (octets.length, content.length) := by
    unfold derLen
    split_ifs with hshort
    · refine ⟨_, [], rfl, ?_⟩
      have hnat : (UInt8.ofNat content.length).toNat = content.length :=
        UInt8.toNat_ofNat_of_lt' (hshort.trans (by decide))
      rw [derLength, hnat, if_pos hshort]
      rfl
    · refine ⟨_, _, rfl, ?_⟩
      have hfew : (octetsBE content.length).length ≤ 8 :=
        length_octetsBE_le.2 (h.trans_lt (by decide))
      have hsome : (octetsBE content.length).length ≠ 0 := by
        intro hzero
        have hdigits := ofBE_octetsBE content.length
        rw [length_eq_zero_iff.1 hzero] at hdigits
        exact hshort (hdigits ▸ by decide)
      have hnat : (UInt8.ofNat (128 + (octetsBE content.length).length)).toNat =
          128 + (octetsBE content.length).length :=
        UInt8.toNat_ofNat_of_lt' (by show _ < 256; omega)
      rw [derLength, hnat, if_neg (by omega), if_neg (by rw [length_append]; omega),
        Nat.add_sub_cancel_left, take_left, lengthOctets_eq (by rwa [ofBE_octetsBE]), ofBE_octetsBE]
  obtain ⟨first, octets, hlen, hread⟩ := hlength
  rw [der, hlen, cons_append, cons_append, cons_append, append_assoc, readTLV, hread, ok_bind]
  dsimp only
  rw [if_neg (by simp), drop_left, take_left]
  simp
  omega

/-- An element. -/
def Element (b : Bytes) : Prop := ∃ tag content, b = der tag content

theorem length_content_lt : content.length < (der tag content).length := by
  simp [der]

theorem tlvContent_der (h : content.length ≤ maxInt) :
    tlvContent (der tag content) = .ok content := by
  have hread := readTLV_der tag [] h
  rw [append_nil] at hread
  rw [tlvContent, hread]
  rfl

theorem collect_flatten {fuel : ℕ} (hfuel : l.flatten.length ≤ fuel)
    (hfits : l.flatten.length ≤ maxInt)
    (hl : ∀ b ∈ l, Element b) : collect fuel l.flatten = .ok l := by
  induction l generalizing fuel with
  | nil => cases fuel <;> rfl
  | cons b l ih =>
    obtain ⟨⟨tag, content, rfl⟩, hrest⟩ := forall_mem_cons.1 hl
    have hlt := @length_content_lt tag content
    rw [flatten_cons, length_append] at hfuel hfits
    obtain ⟨fuel, rfl⟩ : ∃ k, fuel = k + 1 := ⟨fuel - 1, by omega⟩
    have hread := readTLV_der tag l.flatten (by omega : content.length ≤ maxInt)
    rw [flatten_cons, der, cons_append, collect, ← cons_append, ← der, tlv, readTLVLen, hread]
    simp only [Except.map, ok_bind, drop_left, take_left]
    rw [ih (by omega) (by omega) hrest, ok_bind]

theorem collectionFields_der (hfits : l.flatten.length ≤ maxInt) (hl : ∀ b ∈ l, Element b) :
    collectionFields (der tag l.flatten) = .ok l := by
  rw [collectionFields, tlvContent_der hfits, ok_bind, collect_flatten le_rfl hfits hl]

theorem sequenceFields_derSeq (hfits : l.flatten.length ≤ maxInt) (hl : ∀ b ∈ l, Element b) :
    sequenceFields (derSeq l) = .ok l := by
  have hread := readTLV_der 0x30 [] hfits
  rw [append_nil] at hread
  rw [sequenceFields, derSeq, tlv, hread, collectionFields_der hfits hl]
  rfl

theorem mustContent_der (h : content.length ≤ maxInt) :
    mustContent (der tag content) = content := by
  rw [mustContent, tlvContent_der h]

/-! ## The names of a certificate -/

/-- The DER of a KRB5PrincipalName; the name type is given by its octets. -/
def krb5PrincipalName (nameType : Bytes) (components : List Bytes) (realm : Bytes) : Bytes :=
  derSeq [derExplicit 0 (der 0x1b realm), derExplicit 1 (derSeq [derExplicit 0 (der 0x02 nameType),
    derExplicit 1 (derSeq (components.map (der 0x1b)))])]

/-- A subject alternative name: an id-pkinit-san name of a principal, one with anything else behind
its type, or a name of another kind. -/
inductive AltName
  | principal (nameType : Bytes) (components : List Bytes) (realm : Bytes)
  | malformed (rest : Bytes)
  | other (tag : UInt8) (content : Bytes)

namespace AltName

def encode : AltName → Bytes
  | principal nameType components realm =>
    derExplicit 0 (derOID san ++ derExplicit 0 (krb5PrincipalName nameType components realm))
  | malformed rest => derExplicit 0 (derOID san ++ rest)
  | other tag content => der tag content

/-- The name is what its case says. -/
def Valid : AltName → Prop
  | principal _ _ _ => True
  | malformed rest => ∀ nameType components realm,
      rest ≠ derExplicit 0 (krb5PrincipalName nameType components realm)
  | other tag content => tag = 0xa0 → ¬ derOID san <+: content

/-- The value of a principal's name. -/
def value : AltName → Except String Bytes
  | principal nameType components realm => .ok (krb5PrincipalName nameType components realm)
  | _ => .error ""

/-- An id-pkinit-san name. -/
def isSAN : AltName → Bool
  | other _ _ => false
  | _ => true

end AltName

/-- The extensions have these names, in order. -/
inductive Carries : List (OID × Bytes) → List AltName → Prop
  | nil : Carries [] []
  | skip {oid value extensions names} (h : oid ≠ subjectAltName)
    (hrest : Carries extensions names) :
    Carries ((oid, value) :: extensions) names
  | names {here extensions names} (hvalid : ∀ name ∈ here, name.Valid)
    (hfits : (here.map AltName.encode).flatten.length ≤ maxInt) (hrest : Carries extensions names) :
    Carries ((subjectAltName, derSeq (here.map AltName.encode)) :: extensions) (here ++ names)

/-- The principal `krbtgt/R@R`. -/
def IsKDC (realm : Bytes) (name : AltName) : Prop :=
  ∃ nameType, name = .principal nameType [str "krbtgt", realm] realm

/-- A principal other than `krbtgt/R@R` that the comparison takes for it. -/
def Lookalike (realm : Bytes) (name : AltName) : Prop :=
  ∃ nameType, name = .principal nameType [str "krbtgt"] realm ∨
    ∃ more, more ≠ [] ∧ name = .principal nameType (str "krbtgt" :: realm :: more) realm

/-! ## The check -/

/-- What `validateSANs` does with a name. -/
def checkSAN (realm : Bytes) (value : Except String Bytes) : Except String Unit := do
  let value ← orText value "pkinit: malformed KDC subject alternative name"
  let principal ← parseKRB5SANPrincipal value
  if principal.length < 2 ∨ principal[0]? ≠ some (str "krbtgt") ∨
    principal[1]? ≠ principal.getLast? then
    .error "pkinit: KDC certificate SAN is not a krbtgt principal"
  else if realm ≠ [] ∧ principal[1]? ≠ some realm then
    .error "pkinit: KDC certificate SAN realm does not match"
  else .ok ()

section Check

variable {nameType realm : Bytes} {components : List Bytes}

theorem fits_content (h : (der tag content).length ≤ maxInt) : content.length ≤ maxInt :=
  length_content_lt.le.trans h

theorem fits_of_mem (h : (derSeq l).length ≤ maxInt) {b : Bytes} (hb : b ∈ l) : b.length ≤ maxInt :=
  (sublist_flatten_of_mem hb).length_le.trans (fits_content h)

theorem sequenceFields_of_fits (h : (derSeq l).length ≤ maxInt) (hl : ∀ b ∈ l, Element b) :
    sequenceFields (derSeq l) = .ok l := sequenceFields_derSeq (fits_content h) hl

theorem parseGeneralStringContext_eq (hfits : (der tag (der 0x1b content)).length ≤ maxInt) :
    parseGeneralStringContext (der tag (der 0x1b content)) = .ok content := by
  have hinner := fits_content hfits
  have hlong : ¬ ((der 0x1b content).length < 2 ∨ (der 0x1b content).head? ≠ some 0x1b) := by
    have hpos : 0 < (derLen content.length).length := by
      unfold derLen
      split_ifs
      · exact Nat.one_pos
      · exact Nat.succ_pos _
    rw [der, length_cons, length_append, head?_cons]
    rintro (hshort | hhead)
    · omega
    · exact hhead rfl
  rw [parseGeneralStringContext, tlvContent_der hinner, ok_bind, if_neg hlong,
    tlvContent_der (fits_content hinner)]

/-- **The DER of a principal** is read as its components and its realm, if there are some. -/
theorem parseKRB5SANPrincipal_eq
    (hfits : (krb5PrincipalName nameType components realm).length ≤ maxInt) :
    (parseKRB5SANPrincipal (krb5PrincipalName nameType components realm)).toOption =
      if realm = [] ∨ components = [] then none else some (components ++ [realm]) := by
  have hpair : ∀ {b b' : Bytes} {t t' : UInt8}, ∀ x ∈ [der t b, der t' b'], Element x := by
    simp [Element]
  have helements : ∀ x ∈ components.map (der 0x1b), Element x :=
    forall_mem_map.2 fun c _ => ⟨_, c, rfl⟩
  have hrealm := fits_of_mem hfits mem_cons_self
  have hname := fits_content (fits_of_mem hfits (mem_cons_of_mem _ mem_cons_self))
  have hparts := fits_content (fits_of_mem hname (mem_cons_of_mem _ mem_cons_self))
  have hmap : (components.map (der 0x1b)).mapM tlvContent = .ok components := by
    rw [mapM_ok, forall₂_map_left_iff, forall₂_same]
    intro c hc
    exact tlvContent_der (fits_content (fits_of_mem hparts (mem_map_of_mem hc)))
  unfold parseKRB5SANPrincipal krb5PrincipalName
  rw [sequenceFields_of_fits hfits hpair]
  dsimp only
  rw [derExplicit, parseGeneralStringContext_eq hrealm, derExplicit, mustContent_der hname,
    sequenceFields_of_fits hname hpair]
  dsimp only
  rw [derExplicit, mustContent_der hparts, sequenceFields_of_fits hparts helements, atLeast]
  cases realm with
  | nil => rfl
  | cons r realm =>
    cases components with
    | nil => rfl
    | cons c components =>
      rw [if_neg (by simp)]
      dsimp only
      rw [ok_bind, hmap]
      rfl

/-- What looks like `krbtgt/R@R`: the realm is right, and so is the second component if there
is one. -/
theorem kdc_or_lookalike_iff {first realm' : Bytes} {more : List Bytes} :
    IsKDC realm (.principal nameType (first :: more) realm') ∨
        Lookalike realm (.principal nameType (first :: more) realm') ↔
      first = str "krbtgt" ∧ realm' = realm ∧ more.head?.getD realm = realm := by
  simp only [IsKDC, Lookalike, AltName.principal.injEq, cons.injEq]
  constructor
  · rintro (⟨_, -, ⟨hfirst, rfl⟩, hrealm⟩ | ⟨_, ⟨-, ⟨hfirst, rfl⟩, hrealm⟩ |
      ⟨_, -, -, ⟨hfirst, rfl⟩, hrealm⟩⟩)
    all_goals exact ⟨hfirst, hrealm, rfl⟩
  · rintro ⟨hfirst, hrealm, hmore⟩
    cases more with
    | nil => exact .inr ⟨_, .inl ⟨rfl, ⟨hfirst, rfl⟩, hrealm⟩⟩
    | cons second more =>
      obtain rfl : second = realm := hmore
      by_cases hnil : more = []
      · exact .inl ⟨_, rfl, ⟨hfirst, by rw [hnil]⟩, hrealm⟩
      · exact .inr ⟨_, .inr ⟨more, hnil, rfl, ⟨hfirst, rfl⟩, hrealm⟩⟩

theorem checkSAN_ok_iff (hrealm : realm ≠ []) {value : Bytes} :
    checkSAN realm (.ok value) = .ok () ↔ ∃ principal,
      (parseKRB5SANPrincipal value).toOption = some principal ∧ 2 ≤ principal.length ∧
        principal[0]? = some (str "krbtgt") ∧ principal[1]? = principal.getLast? ∧
          principal[1]? = some realm := by
  rw [checkSAN, orText, ok_bind]
  cases parseKRB5SANPrincipal value with
  | error e => exact ⟨nofun, fun ⟨_, h, _⟩ => nomatch h⟩
  | ok principal =>
    rw [ok_bind]
    split_ifs with hform hother
    · refine ⟨nofun, fun ⟨_, hsome, hlength, hfirst, hsecond, _⟩ => ?_⟩
      cases hsome
      obtain hshort | hnot | hnot := hform
      · omega
      · exact absurd hfirst hnot
      · exact absurd hsecond hnot
    · refine ⟨nofun, fun ⟨_, hsome, _, _, _, hsame⟩ => ?_⟩
      cases hsome
      exact absurd hsame hother.2
    · simp only [not_or, not_not, not_lt, ne_eq] at hform
      have hsame := not_not.1 fun hne => hother ⟨hrealm, hne⟩
      exact ⟨fun _ => ⟨principal, rfl, hform.1, hform.2.1, hform.2.2, hsame⟩, fun _ => rfl⟩

/-- The check takes `krbtgt/R@R` and what looks like it, and no other principal. -/
theorem checkSAN_iff (hrealm : realm ≠ []) {name : AltName} (hfits : name.encode.length ≤ maxInt) :
    checkSAN realm name.value = .ok () ↔ IsKDC realm name ∨ Lookalike realm name := by
  have hfail : ∀ e, checkSAN realm (.error e) = .ok () ↔ False := fun e => ⟨nofun, False.elim⟩
  cases name with
  | malformed rest => simp [AltName.value, hfail, IsKDC, Lookalike]
  | other tag content => simp [AltName.value, hfail, IsKDC, Lookalike]
  | principal nameType components realm' =>
    have hvalue := fits_content hfits
    rw [length_append] at hvalue
    rw [AltName.value, checkSAN_ok_iff hrealm,
      parseKRB5SANPrincipal_eq (fits_content (Nat.le_of_add_left_le hvalue))]
    cases components with
    | nil => simp [IsKDC, Lookalike]
    | cons first more =>
      rw [kdc_or_lookalike_iff]
      -- the second place has the second component, or the realm if there is none
      have hsecond : (first :: more ++ [realm'])[1]? = some (more.head?.getD realm') := by
        cases more <;> rfl
      have hlast : (first :: more ++ [realm']).getLast? = some realm' := getLast?_concat
      constructor
      · rintro ⟨principal, hread, -, hfirst, hsame, hrealms⟩
        obtain ⟨-, hread⟩ := Option.ite_none_left_eq_some.1 hread
        obtain rfl := Option.some.inj hread
        rw [hsecond, hlast] at hsame
        rw [hsecond] at hrealms
        obtain rfl : realm' = realm := Option.some.inj (hsame.symm.trans hrealms)
        exact ⟨Option.some.inj hfirst, rfl, Option.some.inj hsame⟩
      · rintro ⟨rfl, rfl, hmore⟩
        refine ⟨_, if_neg (by simpa using hrealm), by simp, rfl, ?_, ?_⟩
        · rw [hsecond, hlast, hmore]
        · rw [hsecond, hmore]

variable {E : Env} (hoid : ∀ {data}, E.unmarshalOID data = .ok san ↔ derOID san <+: data)

include hoid

/-- The value of an id-pkinit-san name. -/
theorem pkinitSAN_value {value : Bytes}
    (hfits : (derExplicit 0 (derOID san ++ derExplicit 0 value)).length ≤ maxInt) :
    pkinitSAN E (derExplicit 0 (derOID san ++ derExplicit 0 value)) = some (.ok value) := by
  have hcontent := fits_content hfits
  have hvalue : (derExplicit 0 value).length ≤ maxInt := by
    rw [length_append] at hcontent
    omega
  have hfields : collectionFields (derSeq [derOID san ++ derExplicit 0 value]) =
      .ok [derOID san, derExplicit 0 value] := by
    have hread := @collectionFields_der 0x30 [derOID san, derExplicit 0 value]
      (by simpa using hcontent) (by simp [Element, derOID, derExplicit])
    simpa [derSeq] using hread
  have hmust : mustContent (derExplicit 0 (derOID san ++ derExplicit 0 value)) =
      derOID san ++ derExplicit 0 value := mustContent_der hcontent
  have htag : (derExplicit 0 (derOID san ++ derExplicit 0 value)).head? = some 0xa0 := rfl
  unfold pkinitSAN
  rw [if_neg (not_not.2 htag), hmust, hfields]
  dsimp only
  rw [hoid.2 (prefix_refl _)]
  simp only [if_true]
  rw [derExplicit, tlvContent_der (fits_content hvalue)]

theorem pkinitSAN_other (hfits : content.length ≤ maxInt)
    (hother : tag = 0xa0 → ¬ derOID san <+: content) :
    pkinitSAN E (der tag content) = none := by
  unfold pkinitSAN
  split_ifs with htag
  · rfl
  obtain rfl : tag = 0xa0 := by simpa [der] using htag
  rw [mustContent_der hfits, collectionFields, derSeq, flatten_cons, flatten_nil, append_nil,
    tlvContent_der hfits, ok_bind]
  split
  · rename_i kind value hfields
    -- the type is the front of the content
    have hkind : kind <+: content := by
      cases content with
      | nil => cases hfields
      | cons b content =>
        rw [length_cons, collect] at hfields
        simp only [bind_ok] at hfields
        obtain ⟨_, -, _, -, hfields⟩ := hfields
        obtain ⟨rfl, -⟩ := cons.inj (ok.inj hfields)
        exact List.take_prefix _ _
    split
    · rename_i oid hread
      rw [if_neg]
      rintro rfl
      exact hother rfl ((hoid.1 hread).trans hkind)
    · rfl
  · rfl

/-- The first id-pkinit-san name is the one that is looked at. -/
theorem validateSANs_eq {names : List AltName} (hvalid : ∀ name ∈ names, name.Valid)
    (hfits : ∀ name ∈ names, name.encode.length ≤ maxInt)
    (hfirst : ∀ rest, names.find? AltName.isSAN ≠ some (.malformed rest)) (realm : Bytes) :
    validateSANs E realm (names.map AltName.encode) = (names.find? AltName.isSAN).map fun name =>
      checkSAN realm name.value := by
  induction names with
  | nil => rfl
  | cons name names ih =>
    obtain ⟨hname, hvalid'⟩ := forall_mem_cons.1 hvalid
    obtain ⟨hfit, hfits'⟩ := forall_mem_cons.1 hfits
    cases name with
    | principal nameType components realm' =>
      rw [validateSANs, map_cons, findSome?_cons, AltName.encode, pkinitSAN_value hoid hfit]
      rfl
    | malformed rest => exact absurd rfl (hfirst rest)
    | other tag content =>
      rw [validateSANs, map_cons, findSome?_cons, AltName.encode,
        pkinitSAN_other hoid (fits_content hfit) hname]
      exact ih hvalid' hfits' hfirst

theorem validateKDCSAN_iff (hrealm : realm ≠ []) {extensions : List (OID × Bytes)}
    {names : List AltName}
    (hnames : Carries extensions names)
    (hfirst : ∀ rest, names.find? AltName.isSAN ≠ some (.malformed rest)) :
    validateKDCSAN E realm extensions = .ok () ↔
      ∃ name, names.find? AltName.isSAN = some name ∧
        (IsKDC realm name ∨ Lookalike realm name) := by
  induction hnames with
  | nil => simp [validateKDCSAN]
  | skip h _ ih => rw [validateKDCSAN, if_pos h, ih hfirst]
  | @names here extensions names hvalid hfits _ ih =>
    have hfit : ∀ name ∈ here, name.encode.length ≤ maxInt := fun name hname =>
      (sublist_flatten_of_mem (mem_map_of_mem hname)).length_le.trans hfits
    have helements : ∀ b ∈ here.map AltName.encode, Element b := by
      refine forall_mem_map.2 fun name _ => ?_
      cases name <;> exact ⟨_, _, rfl⟩
    have hhere : ∀ rest, here.find? AltName.isSAN ≠ some (.malformed rest) := fun rest h =>
      hfirst rest (by rw [find?_append, h, Option.some_or])
    rw [validateKDCSAN, if_neg (not_not.2 rfl), sequenceFields_derSeq hfits helements]
    simp only [validateSANs_eq hoid hvalid hfit hhere, find?_append] at hfirst ⊢
    cases hfind : here.find? AltName.isSAN with
    | none =>
      rw [hfind] at hfirst
      exact ih hfirst
    | some name =>
      have hname := checkSAN_iff hrealm (hfit name (mem_of_find?_eq_some hfind))
      simpa using hname

end Check

namespace Sample

theorem unmarshalOID_iff {data : Bytes} :
    env.unmarshalOID data = .ok san ↔ derOID san <+: data := by
  constructor
  · intro h
    obtain ⟨⟨tag, oid⟩, -, h⟩ := bind_ok.1 h
    dsimp only at h
    split_ifs at h with hcanonical
    obtain rfl := ok.inj h
    exact hcanonical.2
  · rintro ⟨rest, rfl⟩
    have hread : tlv (derOID san ++ rest) = .ok (0x06, san) := by
      rw [derOID, tlv, readTLV_der _ _ (by decide)]
      rfl
    exact bind_ok.2 ⟨_, hread, if_pos ⟨rfl, prefix_append _ _⟩⟩

/-- A certificate with these names. -/
def named (names : List AltName) : Certificate :=
  { cert with extensions := [(subjectAltName, derSeq (names.map AltName.encode))] }

theorem carries_named {names : List AltName} (hvalid : ∀ name ∈ names, name.Valid)
    (hfits : (names.map AltName.encode).flatten.length ≤ maxInt) :
    Carries (named names).extensions names := by
  have h := Carries.names hvalid hfits .nil
  rwa [append_nil] at h

/-- What is read as `krbtgt/R@R` although its tags and types are wrong. -/
def lenient : Bytes :=
  derSeq [derExplicit 3 (der 0x1b realm), derExplicit 3 (derSeq [derNull,
    derExplicit 3 (derSeq [derOctet (str "krbtgt"), der 0x02 realm])])]

theorem lenient_valid : (AltName.malformed (derExplicit 0 lenient)).Valid := by
  intro nameType components realm' h
  have hfits : (derExplicit 0 (krb5PrincipalName nameType components realm')).length ≤ maxInt := by
    rw [← h]
    decide
  have hl : tlvContent (derExplicit 0 lenient) = .ok lenient := tlvContent_der (by decide)
  have hr : tlvContent (derExplicit 0 (krb5PrincipalName nameType components realm')) = .ok _ :=
    tlvContent_der (fits_content hfits)
  have hsame := ok.inj (hl.symm.trans ((congrArg tlvContent h).trans hr))
  have hpair : ∀ {t t' : UInt8} {b b' : Bytes}, ∀ x ∈ [derExplicit t b, derExplicit t' b'],
      Element x := by
    simp [Element, derExplicit]
  -- the first tag differs
  have hfields := sequenceFields_of_fits (fits_content hfits) hpair
  rw [← krb5PrincipalName, ← hsame, lenient, sequenceFields_of_fits (by decide) hpair] at hfields
  exact absurd (cons.inj (cons.inj (ok.inj hfields)).1).1 (by decide)

end Sample

open Sample

end Kerberos.PKINIT
