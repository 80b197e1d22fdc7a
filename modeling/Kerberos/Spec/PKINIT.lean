import Kerberos.Spec.DER
import Kerberos.Spec.Server

/-!
# PKINIT

The messages of RFC 4556: the CMS verifier behind both directions
(`verifyCMSStatusWithCertificates`), the request as the KDC reads it
(`verifyPAASReqForKDC`) and the reply as the client reads it
(`verifyPAASRepWithContext`). Hashes, signatures, X.509 and the key agreement are
those of the environment.
-/

namespace Kerberos.PKINIT

inductive HashID
  | sha1
  | sha256
  deriving DecidableEq

inductive PublicKey
  | rsa (key : Bytes)
  | ecdsa (key : Bytes)
  | other
  deriving DecidableEq

/-- The parts of an `x509.Certificate` the package reads. -/
structure Certificate where
  raw : Bytes
  rawIssuer : Bytes
  serialNumber : ℤ
  publicKey : PublicKey
  unknownExtKeyUsage : List OID
  extensions : List (OID × Bytes)
  deriving DecidableEq

abbrev CertPool := List Certificate

/-- The packages around PKINIT. -/
structure Env where
  hashBytes : HashID → Bytes → Bytes
  verifyPKCS1v15 : Bytes → HashID → Bytes → Bytes → Bool
  verifyASN1 : Bytes → Bytes → Bytes → Bool
  parseCertificate : Bytes → Option Certificate
  /-- `Certificate.Verify` with roots and intermediates, for any extended key usage. -/
  verifyChain : Certificate → CertPool → CertPool → Bool
  unmarshalOID : Bytes → Except String OID
  unmarshalTime : Bytes → Except String ℤ

namespace OIDs

/-- 1.3.14.3.2.26 -/
def sha1 : OID := [0x2b, 0x0e, 0x03, 0x02, 0x1a]
/-- 2.16.840.1.101.3.4.2.1 -/
def sha256 : OID := [0x60, 0x86, 0x48, 0x01, 0x65, 0x03, 0x04, 0x02, 0x01]
/-- 1.2.840.113549.1.1.5 -/
def sha1WithRSA : OID := [0x2a, 0x86, 0x48, 0x86, 0xf7, 0x0d, 0x01, 0x01, 0x05]
/-- 1.2.840.113549.1.1.11 -/
def sha256WithRSA : OID := [0x2a, 0x86, 0x48, 0x86, 0xf7, 0x0d, 0x01, 0x01, 0x0b]
/-- 1.2.840.10045.4.3.2 -/
def ecdsaWithSHA256 : OID := [0x2a, 0x86, 0x48, 0xce, 0x3d, 0x04, 0x03, 0x02]
/-- 1.2.840.113549.1.7.2 -/
def signedData : OID := [0x2a, 0x86, 0x48, 0x86, 0xf7, 0x0d, 0x01, 0x07, 0x02]
/-- 1.2.840.113549.1.9.3 -/
def contentType : OID := [0x2a, 0x86, 0x48, 0x86, 0xf7, 0x0d, 0x01, 0x09, 0x03]
/-- 1.2.840.113549.1.9.4 -/
def messageDigest : OID := [0x2a, 0x86, 0x48, 0x86, 0xf7, 0x0d, 0x01, 0x09, 0x04]
/-- 1.3.6.1.5.2.3.1, id-pkinit-authData -/
def authData : OID := [0x2b, 0x06, 0x01, 0x05, 0x02, 0x03, 0x01]
/-- 1.3.6.1.5.2.3.2, id-pkinit-DHKeyData -/
def dhKeyData : OID := [0x2b, 0x06, 0x01, 0x05, 0x02, 0x03, 0x02]
/-- 1.3.6.1.5.2.3.5, id-pkinit-KPKdc -/
def kdcEKU : OID := [0x2b, 0x06, 0x01, 0x05, 0x02, 0x03, 0x05]
/-- 1.3.6.1.5.2.2, id-pkinit-san -/
def san : OID := [0x2b, 0x06, 0x01, 0x05, 0x02, 0x02]
/-- 2.5.29.17 -/
def subjectAltName : OID := [0x55, 0x1d, 0x11]

end OIDs

/-! ## CMS -/

/-- A check of the source: the error stands for whatever fails in `x`. -/
def orText {α : Type} (x : Except String α) (text : String) : Except String α :=
  match x with
  | .ok a => .ok a
  | .error _ => .error text

/-- The list, if it has at least `n` elements. -/
def atLeast (n : ℕ) (x : Except String (List Bytes)) (text : String) : Except String (List Bytes) :=
  match x with
  | .ok l => if l.length < n then .error text else .ok l
  | .error _ => .error text

def cmsDigestHash (algorithmDER : Bytes) : Except String HashID := do
  let fields ← atLeast 1 (sequenceFields algorithmDER) "pkinit: malformed CMS digest algorithm"
  if fields.headD [] = derOID OIDs.sha1 then .ok .sha1
  else if fields.headD [] = derOID OIDs.sha256 then .ok .sha256
  else .error "pkinit: unsupported CMS digest algorithm"

variable (E : Env)

def parseOID (data : Bytes) : Except String OID :=
  match E.unmarshalOID data with
  | .ok oid => .ok oid
  | .error e => .error ("pkinit: malformed algorithm OID: " ++ e)

/-- The signature algorithms: whether the signature over the hash is valid. -/
def verifySignature (cert : Certificate) (sigOID : OID) (hashID : HashID) (sigHash sig : Bytes) :
    Except String Bool :=
  if sigOID = OIDs.sha1WithRSA then
    if hashID ≠ .sha1 then .error "pkinit: RSA signature/digest mismatch"
    else
      match cert.publicKey with
      | .ecdsa key => .ok (E.verifyASN1 key sigHash sig)
      | .rsa key => .ok (E.verifyPKCS1v15 key hashID sigHash sig)
      | .other => .error "pkinit: CMS signature key type mismatch"
  else if sigOID = OIDs.sha256WithRSA then
    match cert.publicKey with
    | .rsa key =>
      if hashID ≠ .sha256 then .error "pkinit: RSA signature/digest mismatch"
      else .ok (E.verifyPKCS1v15 key hashID sigHash sig)
    | _ => .error "pkinit: CMS signature key type mismatch"
  else if sigOID = OIDs.ecdsaWithSHA256 then
    match cert.publicKey with
    | .ecdsa key =>
      if hashID ≠ .sha256 then .error "pkinit: ECDSA signature/digest mismatch"
      else .ok (E.verifyASN1 key sigHash sig)
    | _ => .error "pkinit: ECDSA signature/digest mismatch"
  else .ok false

/-- A `ContentInfo`: content without any signature, or the `SignedData` in it. The
inner form is accepted too. -/
inductive CMS
  | bare (content : Bytes)
  | signedData (data : Bytes)

def unwrapContentInfo (data : Bytes) : Except String CMS :=
  match sequenceFields data with
  | .ok [kind, value] =>
    if kind.head? = some 0x06 then
      match tlvContent value with
      | .error e => .error e
      | .ok wrapped =>
        if wrapped.head? = some 0x04 then
          match tlvContent wrapped with
          | .error e => .error e
          | .ok content => (orText (requireSingleTLV content) "pkinit: malformed CMS content").map
              fun _ => .bare content
        else .ok (.signedData wrapped)
    else .ok (.signedData data)
  | _ => .ok (.signedData data)

/-- The fields of a `SignedData`, with the type and the content it encapsulates. -/
structure SignedData where
  fields : List Bytes
  contentType : Bytes
  content : Bytes

def readSignedData (data : Bytes) : Except String SignedData := do
  let fields ← atLeast 4 (sequenceFields data) (malformed (sequenceFields data))
  let encap ← atLeast 2 (sequenceFields (fields.getD 2 [])) "pkinit: malformed CMS content"
  let econtent ← tlvContent (encap.getD 1 [])
  let content ← tlvContent econtent
  .ok ⟨fields, encap.getD 0 [], content⟩
where
  malformed : Except String (List Bytes) → String
    | .ok fields =>
      "pkinit: malformed CMS SignedData (fields=" ++ toString fields.length ++ " err=<nil>)"
    | .error e => "pkinit: malformed CMS SignedData (fields=0 err=" ++ e ++ ")"

/-- The parts of the first `SignerInfo`. -/
structure SignerInfo where
  issuer : Bytes
  serial : ℕ
  digestAlgorithm : Bytes
  attributes : Bytes
  signatureAlgorithm : Bytes
  signature : Bytes

def issuerAndSerial (data : Bytes) : Except String (Bytes × Bytes) :=
  match sequenceFields data with
  | .ok [issuer, serial] => .ok (issuer, serial)
  | _ => .error "pkinit: malformed CMS signer identifier"

def readSigner (fields : List Bytes) : Except String SignerInfo := do
  let infos ← atLeast 1 (if fields.length < 5 then .error ""
    else collectionFields (fields.getD 4 []))
    "pkinit: missing CMS signer"
  let si ← atLeast 6 (sequenceFields (infos.headD [])) "pkinit: malformed CMS signer"
  let (issuer, serial) ← issuerAndSerial (si.getD 1 [])
  let serial ← orText (parseInteger serial) "pkinit: malformed CMS signer serial"
  .ok { issuer, serial, digestAlgorithm := si.getD 2 [], attributes := si.getD 3 []
        signatureAlgorithm := si.getD 4 [], signature := si.getD 5 [] }

/-- The certificates that parse. -/
def readCertificates (fields : List Bytes) : Except String (List Certificate) := do
  let certFields ← atLeast 1 (collectionFields (fields.getD 3 []))
    "pkinit: malformed CMS certificate set"
  let certificates := certFields.filterMap E.parseCertificate
  if certificates = [] then .error "pkinit: missing KDC certificate" else .ok certificates

/-- The signer's certificate, and the others. -/
def findSigner (signer : SignerInfo) : List Certificate → Option (Certificate × List Certificate)
  | [] => none
  | c :: rest =>
    if c.rawIssuer = signer.issuer ∧ c.serialNumber = (signer.serial : ℤ) then some (c, rest)
    else (findSigner signer rest).map fun (found, others) => (found, c :: others)

/-- The digest of the content stands among the attributes, and the signature over them
is valid. -/
def checkSigner (cert : Certificate) (signer : SignerInfo) (content : Bytes) :
    Except String Unit := do
  let attrsContent ← tlvContent signer.attributes
  let hashID ← cmsDigestHash signer.digestAlgorithm
  if ¬ derOctet (E.hashBytes hashID content) <:+: derSetContent attrsContent then
    .error "pkinit: CMS messageDigest mismatch"
  else
    let sig ← tlvContent signer.signature
    let sigAlgorithm ← atLeast 1 (sequenceFields signer.signatureAlgorithm)
      "pkinit: malformed CMS signature algorithm"
    let sigOID ← parseOID E (sigAlgorithm.headD [])
    let valid ← verifySignature E cert sigOID hashID
      (E.hashBytes hashID (derSet [attrsContent])) sig
    if valid then .ok () else .error "pkinit: invalid CMS signature"

/-- What the CMS verifier returns. -/
structure VerifiedCMS where
  content : Bytes
  certificate : Option Certificate
  signed : Bool
  intermediates : List Certificate

def verifyCMSStatusWithCertificates (data : Bytes) (anchors : Option CertPool) :
    Except String VerifiedCMS := do
  requireSingleTLV data
  match ← unwrapContentInfo data with
  | .bare content => .ok ⟨content, none, false, []⟩
  | .signedData data =>
    let sd ← readSignedData data
    if sd.fields.length = 4 ∧ (sd.fields.getD 3 []).head? = some 0x31 then
      let _ ← collectionFields (sd.fields.getD 3 [])
      .ok ⟨sd.content, none, false, []⟩
    else
      let certificates ← readCertificates E sd.fields
      let signer ← readSigner sd.fields
      match findSigner signer certificates with
      | none => .error "pkinit: CMS signer certificate not found"
      | some (cert, intermediates) =>
        checkSigner E cert signer sd.content
        if anchors.any fun roots => !E.verifyChain cert roots intermediates then
          .error "pkinit: KDC certificate is not trusted"
        else .ok ⟨sd.content, some cert, true, intermediates⟩

/-- The signed alternative of a PA-PK-AS-REQ: the message itself or its first field. -/
def signedAlternative (data : Bytes) : Except String Bytes :=
  if data.head? = some 0xa0 ∨ data.head? = some 0x80 then .ok data
  else
    match sequenceFields data with
    | .ok (field :: _) =>
      if field.head? = some 0xa0 ∨ field.head? = some 0x80 then .ok field
      else .error "pkinit: PA-PK-AS-REP is not DH signed data"
    | _ => .error "pkinit: PA-PK-AS-REP is not DH signed data"

/-- The CMS in a PA-PK-AS-REQ. -/
def cmsChoice (data : Bytes) : Except String Bytes := do
  requireSingleTLV data
  let field ← signedAlternative data
  let choice ← tlvContent field
  if choice.head? = some 0x04 then tlvContent choice else .ok choice

def verifyCMSChoiceStatusWithCertificates (data : Bytes) (anchors : Option CertPool) :
    Except String VerifiedCMS := do
  let choice ← cmsChoice data
  verifyCMSStatusWithCertificates E choice anchors

/-! ## Signing -/

/-- A `crypto.Signer`, by its signatures over SHA-256 hashes; `ecdsa` tells its kind of key. -/
structure Signer where
  sign : Bytes → Except String Bytes
  ecdsa : Bool

/-- The attributes that are signed. -/
def signedAttributes (contentType : OID) (digest : Bytes) : Bytes :=
  derSet [derSeq [derOID OIDs.contentType, derSet [derOID contentType]],
    derSeq [derOID OIDs.messageDigest, derSet [derOctet digest]]]

/-- The algorithm of a signer's signatures. -/
def Signer.algorithm (signer : Signer) : OID :=
  if signer.ecdsa then OIDs.ecdsaWithSHA256 else OIDs.sha256WithRSA

def algorithmIdentifier (oid : OID) : Bytes := derSeq [derOID oid, derNull]

/-- A `ContentInfo` with one signer, whose certificate comes first. -/
def contentInfo (content : Bytes) (contentType : OID) (cert : Certificate)
    (additional : List Certificate)
    (attrsContent : Bytes) (algorithm : OID) (sig : Bytes) : Bytes :=
  let issuerSerial := derSeq [cert.rawIssuer, derInt cert.serialNumber.natAbs]
  let signerInfo := derSeq [derInt 1, issuerSerial, algorithmIdentifier OIDs.sha256,
    derExplicit 0 attrsContent, algorithmIdentifier algorithm, derOctet sig]
  let certificates := ((cert :: additional).map (·.raw)).flatten
  let signed := derSeq [derInt 3, derSet [algorithmIdentifier OIDs.sha256],
    derSeq [derOID contentType, derExplicit 0 (derOctet content)], derExplicit 0 certificates,
    derSet [signerInfo]]
  derSeq [derOID OIDs.signedData, derExplicit 0 signed]

/-- `signCMSWithContentType`; of the additional certificates those that are not nil. -/
def signCMSWithContentType (content : Bytes) (contentType : OID) (cert : Certificate)
    (signer : Signer) (additional : List Certificate) : Except String Bytes :=
  let attrs := signedAttributes contentType (E.hashBytes .sha256 content)
  match signer.sign (E.hashBytes .sha256 attrs) with
  | .error e => .error ("pkinit: sign AuthPack: " ++ e)
  | .ok sig =>
    .ok (contentInfo content contentType cert additional (attrs.drop 2) signer.algorithm sig)

/-! ## The request -/

structure PKAuthenticator where
  cusec : Int32
  ctime : ℤ
  nonce : UInt32
  paChecksum : Bytes
  freshnessToken : Bytes
  deriving DecidableEq

/-- What is read of an AuthPack. -/
structure AuthPack where
  authenticator : PKAuthenticator
  publicValue : Bytes
  supportedKDFs : List Bytes
  deriving DecidableEq

/-- The number of an optional field of an AuthPack. -/
def optionalTag (field : Bytes) : Option ℕ :=
  match field.head? with
  | some 0xa1 => some 1
  | some 0xa2 => some 2
  | some 0xa3 => some 3
  | some 0xa4 => some 4
  | _ => none

/-- `validateAuthPackFieldOrder`, on the optional fields; `last` is one more than the
number of the last one. -/
def validateAuthPackFieldOrder (last : ℕ) : List Bytes → Except String Unit
  | [] => .ok ()
  | field :: rest =>
    if field = [] then .error "pkinit: malformed AuthPack"
    else
      match optionalTag field with
      | none => validateAuthPackFieldOrder last rest
      | some tag =>
        if tag < last then .error "pkinit: duplicate or out-of-order AuthPack optional"
        else validateAuthPackFieldOrder (tag + 1) rest

/-- The freshness token of an authenticator. -/
def freshnessToken (afields : List Bytes) : Except String Bytes :=
  match afields[4]? with
  | none => .ok []
  | some field =>
    if field.head? ≠ some 0xa4 then .error "pkinit: malformed freshness token"
    else do
      let tokenDER ← tlvContent field
      tlvContent tokenDER

/-- An element of supportedKDFs. -/
def kdfIdentifier (element : Bytes) : Except String Bytes :=
  match sequenceFields element with
  | .ok [field] =>
    if field.head? ≠ some 0xa0 then .error "pkinit: malformed KDF algorithm identifier"
    else do
      let oidDER ← tlvContent field
      if oidDER.head? ≠ some 0x06 then .error "pkinit: malformed KDF OID" else tlvContent oidDER
  | _ => .error "pkinit: malformed KDF algorithm identifier"

/-- An optional field of the AuthPack: the public value and the KDFs after it. -/
def authPackField (st : Bytes × List Bytes) (field : Bytes) : Except String (Bytes × List Bytes) :=
  match optionalTag field with
  | some 1 => (tlvContent field).map fun pub => (pub, st.2)
  | some 4 => do
    let content ← tlvContent field
    let elements ← atLeast 1 (sequenceFields content) "pkinit: malformed supportedKDFs"
    let kdfs ← elements.mapM kdfIdentifier
    .ok (st.1, st.2 ++ kdfs)
  | _ => .ok st

def parseAuthPack (data : Bytes) : Except String AuthPack := do
  let fields ← atLeast 1 (sequenceFields data) "pkinit: malformed AuthPack"
  validateAuthPackFieldOrder 0 fields.tail
  let afields ← atLeast 4 (sequenceFields (mustContent (fields.headD [])))
    (malformed (sequenceFields (mustContent (fields.headD []))))
  let cusec ← parseExplicitInteger (afields.getD 0 [])
  let ctimeDER ← tlvContent (afields.getD 1 [])
  let ctime ← E.unmarshalTime ctimeDER
  let nonce ← parseExplicitInteger (afields.getD 2 [])
  let sumDER ← tlvContent (afields.getD 3 [])
  let sum ← tlvContent sumDER
  let token ← freshnessToken afields
  let (pub, supportedKDFs) ← fields.tail.foldlM authPackField ([], [])
  .ok { authenticator := ⟨Int32.ofNat cusec, ctime, UInt32.ofNat nonce, sum, token⟩
        publicValue := pub, supportedKDFs }
where
  malformed : Except String (List Bytes) → String
    | .ok fields =>
      "pkinit: malformed PKAuthenticator (fields=" ++ toString fields.length ++ " err=<nil>)"
    | .error e => "pkinit: malformed PKAuthenticator (fields=0 err=" ++ e ++ ")"

structure VerifiedPAASReq where
  authPack : AuthPack
  certificate : Option Certificate
  intermediates : List Certificate
  signed : Bool

def verifyPAASReqForKDC (data bodyDER : Bytes) : Except String VerifiedPAASReq := do
  requireSingleTLV data
  let cms ← verifyCMSChoiceStatusWithCertificates E data none
  let authPack ← parseAuthPack E cms.content
  if authPack.authenticator.paChecksum ≠ E.hashBytes .sha1 bodyDER then
    .error "pkinit: PA-PK-AS-REQ checksum mismatch"
  else .ok ⟨authPack, cms.certificate, cms.intermediates, cms.signed⟩

/-! ## The reply -/

def parseGeneralStringContext (data : Bytes) : Except String Bytes := do
  let value ← tlvContent data
  if value.length < 2 ∨ value.head? ≠ some 0x1b then .error "pkinit: expected GeneralString"
  else tlvContent value

/-- `parseKRB5SANPrincipal`: the components, then the realm. -/
def parseKRB5SANPrincipal (data : Bytes) : Except String (List Bytes) :=
  match sequenceFields data with
  | .ok [realmField, nameField] =>
    match parseGeneralStringContext realmField with
    | .error _ | .ok [] => .error "pkinit: malformed KDC principal SAN realm"
    | .ok realm =>
      match sequenceFields (mustContent nameField) with
      | .ok [_, partsField] => do
        let parts ← atLeast 1 (sequenceFields (mustContent partsField))
          "pkinit: malformed KDC principal SAN components"
        let out ← parts.mapM tlvContent
        .ok (out ++ [realm])
      | _ => .error "pkinit: malformed KDC principal SAN name"
  | _ => .error "pkinit: malformed KDC principal SAN"

/-- The id-pkinit-san value of a general name, if it is one. -/
def pkinitSAN (field : Bytes) : Option (Except String Bytes) :=
  if field.head? ≠ some 0xa0 then none
  else
    match collectionFields (derSeq [mustContent field]) with
    | .ok [kind, value] =>
      match E.unmarshalOID kind with
      | .ok oid => if oid = OIDs.san then some (tlvContent value) else none
      | .error _ => none
    | _ => none

/-- The check of the first id-pkinit-san among general names; `none` if there is none. -/
def validateSANs (realm : Bytes) (fields : List Bytes) : Option (Except String Unit) :=
  (fields.findSome? (pkinitSAN E)).map fun value => do
    let value ← orText value "pkinit: malformed KDC subject alternative name"
    let principal ← parseKRB5SANPrincipal value
    if principal.length < 2 ∨ principal[0]? ≠ some (str "krbtgt") ∨
      principal[1]? ≠ principal.getLast? then
      .error "pkinit: KDC certificate SAN is not a krbtgt principal"
    -- the source quotes both realms in this text
    else if realm ≠ [] ∧ principal[1]? ≠ some realm then
      .error "pkinit: KDC certificate SAN realm does not match"
    else .ok ()

/-- `validateKDCSAN`, on the extensions that are left. -/
def validateKDCSAN (E : Env) (realm : Bytes) : List (OID × Bytes) → Except String Unit
  | [] => .error "pkinit: KDC certificate has no id-pkinit-san SAN"
  | (oid, value) :: rest =>
    if oid ≠ OIDs.subjectAltName then validateKDCSAN E realm rest
    else
      match sequenceFields value with
      | .error _ => .error "pkinit: malformed KDC subject alternative name"
      | .ok fields => (validateSANs E realm fields).getD (validateKDCSAN E realm rest)

def validateKDC (cert : Option Certificate) (realm : Bytes) : Except String Unit :=
  match cert with
  | none => .error "pkinit: missing KDC certificate"
  | some cert =>
    if cert.unknownExtKeyUsage.contains OIDs.kdcEKU then validateKDCSAN E realm cert.extensions
    else .error "pkinit: KDC certificate lacks id-pkinit-KPKdc EKU"

/-- RFC 3526 MODP group 14. -/
def group14P : ℕ :=
  0xFFFFFFFFFFFFFFFFC90FDAA22168C234C4C6628B80DC1CD129024E088A67CC74020BBEA63B139B22514A08798E3404DDEF9519B3CD3A431B302B0A6DF25F14374FE1356D6D51C245E485B576625E7EC6F44C42E9A637ED6B0BFF5CB6F406B7EDEE386BFB5A899FA5AE9F24117C4B1FE649286651ECE45B3DC2007CB8A163BF0598DA48361C55D39A69163FA8FD24CF5F83655D23DCA3AD961C62F356208552BB9ED529077096966D670C354E4ABC9804F1746C08CA18217C32905E462E36CE3BE39E772C180E86039B2783A2EC07A28FB5C55DF06F4C52C9DE2BCBF6955817183995497CEA956AE515D2261898FA051015728E5A8AACAA68FFFFFFFFFFFFFFFF

def validDHPublicValue (value : ℕ) : Bool := decide (1 < value) && decide (value < group14P - 1)

/-- A DH public value, as an integer in a bit string. -/
def publicInteger (value : Bytes) : Except String Bytes :=
  match parseInteger value with
  | .ok n =>
    if validDHPublicValue n then .ok (Words.octetsBE n)
      else .error "pkinit: invalid DH public value"
  | .error _ => .error "pkinit: invalid DH public value"

def parseExplicitPublicValue (field : Bytes) : Except String Bytes := do
  let inner ← tlvContent field
  let (tag, value) ← tlv inner
  if tag = 0x03 then
    match value with
    | 0 :: 4 :: point => .ok (4 :: point)
    | 0 :: b :: rest => publicInteger (b :: rest)
    | _ => .error "pkinit: malformed DH public value"
  else if tag = 0x04 then
    if value = [] then .error "pkinit: empty EC public value" else .ok value
  else .error "pkinit: unsupported KDC public value"

def paASRepChoice (data : Bytes) : Except String Bytes :=
  if data = [] then .error "pkinit: empty PA-PK-AS-REP"
  else
    match tlv data with
    | .ok (0xa0, value) =>
      if data.length ≠ 1 + (derLen value.length).length + value.length then
        .error "pkinit: trailing PA-PK-AS-REP data"
      else .ok value
    | _ => .error "pkinit: PA-PK-AS-REP is not DH signed data"

/-- The KDF the KDC has chosen. -/
def kdfField (field : Bytes) : Except String Bytes :=
  match sequenceFields (mustContent field) with
  | .ok [kdf] =>
    if kdf.head? ≠ some 0xa0 then .error "pkinit: malformed KDF identifier"
    else
      match tlvContent kdf with
      | .ok oidDER =>
        if oidDER.head? ≠ some 0x06 then .error "pkinit: malformed KDF OID" else tlvContent oidDER
      | .error _ => .error "pkinit: malformed KDF OID"
  | _ => .error "pkinit: malformed KDF identifier"

/-- A field of DHRepInfo behind the signed data: the server's nonce and the KDF after it. -/
def dhRepField (st : Bytes × Bytes) (field : Bytes) : Except String (Bytes × Bytes) :=
  match field.head? with
  | some 0x81 => (orText (tlvContent field) "pkinit: malformed KDC DH nonce").map fun n => (n, st.2)
  | some 0xa2 => (kdfField field).map fun kdf => (st.1, kdf)
  | _ => .error "pkinit: malformed DHRepInfo"

/-- A client's DH state, by the key it derives (`SharedKeyWithContext`) from the server's
public value, the enctype, the two nonces, the KDF, both principals, the request and
the reply. -/
structure Client where
  sharedKeyWithContext : Bytes → Int32 → Bytes → Bytes → Bytes → Principal → Principal →
    Bytes → Bytes →
    Except String Bytes

/-- The fields of DHRepInfo, and the CMS in the first of them. -/
def dhRepInfo (data : Bytes) : Except String (List Bytes × Bytes) := do
  requireSingleTLV data
  let choice ← paASRepChoice data
  let dhInfo ← atLeast 1 (sequenceFields choice) "pkinit: malformed DHRepInfo"
  let dhSignedData ← orText (tlvContent (dhInfo.headD [])) "pkinit: malformed DHRepInfo signed data"
  .ok (dhInfo, dhSignedData)

/-- The server's public value in a KDCDHKeyInfo for this nonce. -/
def kdcDHKeyInfo (content : Bytes) (nonce : UInt32) : Except String Bytes := do
  let fields ← atLeast 2 (sequenceFields content) "pkinit: malformed KDCDHKeyInfo"
  let serverPublic ← orText (parseExplicitPublicValue (fields.getD 0 []))
    "pkinit: malformed KDC DH public value"
  let replyNonce ← orText (parseExplicitInteger (fields.getD 1 [])) "pkinit: KDC DH nonce mismatch"
  if replyNonce ≠ nonce.toNat then .error "pkinit: KDC DH nonce mismatch" else .ok serverPublic

def verifyPAASRepWithContext (c : Option Client) (data : Bytes) (anchors : Option CertPool)
    (enctype : Int32) (nonce : UInt32) (client server : Principal) (asReq : Bytes) :
    Except String Bytes :=
  match c, anchors with
  | none, _ => .error "pkinit: nil client"
  | some _, none => .error "pkinit: KDC certificate trust anchors are required"
  | some c, some anchors => do
    let (dhInfo, dhSignedData) ← dhRepInfo data
    let cms ← verifyCMSStatusWithCertificates E dhSignedData (some anchors)
    validateKDC E cms.certificate server.realm
    let serverPublic ← kdcDHKeyInfo cms.content nonce
    let (serverNonce, algorithm) ← dhInfo.tail.foldlM dhRepField ([], [])
    c.sharedKeyWithContext serverPublic enctype [] serverNonce algorithm client server asReq data

end Kerberos.PKINIT
