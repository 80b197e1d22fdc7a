import Kerberos.Lib.Except
import Kerberos.Spec.PKINIT

/-!
# What a PKINIT signature is about

The verifier looks for the digest of the content anywhere among the bytes of the signed
attributes, and at no attribute by its type. So an accepted message carries a signature
of the certificate's holder over *some* attributes with the digest in them
(`verifyCMS_signed`), and it depends on their shape whether it stands where PKINIT wants it
(`Shaped`).

* `Unforgeable`, `CollisionFree`: what is assumed of signatures and hashes.
* `pkinit_signature_sound`: for an accepted request or reply, the holder has signed
  attributes with the digest of the content among them, and proper ones if they are shaped
  as those of the package are.
-/

namespace Kerberos.PKINIT

open Except OIDs

variable {E : Env} {data : Bytes}

/-! ## The message -/

/-- What a signed message carries: the type and content it encapsulates, and the
attributes, hash and signature of its first signer. -/
structure SignedView where
  contentType : Bytes
  content : Bytes
  attributes : Bytes
  hashID : HashID
  signature : Bytes

def readView (data : Bytes) : Except String SignedView := do
  match ← unwrapContentInfo data with
  | .bare _ => .error "pkinit: missing CMS signer"
  | .signedData data =>
    let sd ← readSignedData data
    let signer ← readSigner sd.fields
    let attrsContent ← tlvContent signer.attributes
    let hashID ← cmsDigestHash signer.digestAlgorithm
    let signature ← tlvContent signer.signature
    .ok ⟨sd.contentType, sd.content, derSetContent attrsContent, hashID, signature⟩

/-- The signed message in a PA-PK-AS-REQ. -/
def requestView (data : Bytes) : Except String SignedView := do
  let cms ← cmsChoice data
  readView cms

/-- The signed message in a PA-PK-AS-REP. -/
def replyView (data : Bytes) : Except String SignedView := do
  let (_, cms) ← dhRepInfo data
  readView cms

/-! ## The attributes -/

/-- An attribute: its type and its values. -/
def readAttribute (field : Bytes) : Except String (OID × List Bytes) :=
  match sequenceFields field with
  | .ok [kind, values] => do
    let (tag, oid) ← tlv kind
    let (tag', _) ← tlv values
    let values ← collectionFields values
    if tag = 0x06 ∧ tag' = 0x31 then .ok (oid, values) else .error "malformed attribute"
  | _ => .error "malformed attribute"

def readAttributes (m : Bytes) : Except String (List (OID × List Bytes)) := do
  let fields ← collectionFields m
  fields.mapM readAttribute

/-- The value of the only attribute of a type among the attributes `m`, with its tag. -/
def attributeOf (m : Bytes) (oid : OID) : Option (UInt8 × Bytes) :=
  match (readAttributes m).toOption.map fun attributes => attributes.filter (·.1 = oid) with
  | some [(_, [value])] => (tlv value).toOption
  | _ => none

/-- **The attributes `m` are those of the message**: their content type is `type`, as is
the encapsulated one, and their message digest is the digest of exactly the content. -/
structure Proper (E : Env) (type : OID) (view : SignedView) (m : Bytes) : Prop where
  encapsulated : (tlv view.contentType).toOption = some (0x06, type)
  contentType : attributeOf m contentType = some (0x06, type)
  messageDigest : attributeOf m messageDigest = some (0x04, E.hashBytes view.hashID view.content)

/-- The OCTET STRINGs of `n` octets that stand anywhere in `m`. -/
def octetStrings (n : ℕ) (m : Bytes) : List Bytes :=
  ((m.tails.filter fun t => (0x04 :: derLen n) <+: t).map fun t =>
    (t.drop (derLen n).length.succ).take n).filter (·.length = n)

theorem mem_octetStrings {d m : Bytes} (h : derOctet d <:+: m) : d ∈ octetStrings d.length m := by
  obtain ⟨before, behind, rfl⟩ := h
  simp only [octetStrings, List.mem_filter, List.mem_map, List.mem_tails, decide_eq_true_eq]
  refine ⟨⟨derOctet d ++ behind, ⟨⟨before, by simp⟩, ⟨d ++ behind, ?_⟩⟩, ?_⟩, trivial⟩
  · simp [derOctet, der]
  · simp [derOctet, der]

/-- **Attributes as the package writes them**: the content type is `type`, as is the
encapsulated one, and an OCTET STRING of `n` octets is only the value of the message
digest. -/
structure Shaped (type : OID) (n : ℕ) (view : SignedView) : Prop where
  encapsulated : (tlv view.contentType).toOption = some (0x06, type)
  contentType : attributeOf view.attributes contentType = some (0x06, type)
  messageDigest : ∀ d ∈ octetStrings n view.attributes,
    attributeOf view.attributes messageDigest = some (0x04, d)

instance (type : OID) (n : ℕ) (view : SignedView) : Decidable (Shaped type n view) :=
  decidable_of_iff ((tlv view.contentType).toOption = some (0x06, type) ∧
      attributeOf view.attributes contentType = some (0x06, type) ∧
      ∀ d ∈ octetStrings n view.attributes, attributeOf view.attributes messageDigest =
        some (0x04, d))
    ⟨fun h => ⟨h.1, h.2.1, h.2.2⟩, fun h => ⟨h.1, h.2, h.3⟩⟩

/-! ## Signatures -/

/-- No two messages have the same hash. -/
def CollisionFree (E : Env) : Prop :=
  ∀ hashID m m', E.hashBytes hashID m = E.hashBytes hashID m' → m = m'

/-- `made key sig m`: the holder of the private key to `key` made the signature `sig` over
the message `m`. A valid signature was made by that holder, over a message of that hash,
and over no other. -/
structure Unforgeable (E : Env) (made : PublicKey → Bytes → Bytes → Prop) : Prop where
  made_of_valid : ∀ {cert sigOID hashID sigHash sig},
    verifySignature E cert sigOID hashID sigHash sig = .ok true →
      ∃ m, made cert.publicKey sig m ∧ E.hashBytes hashID m = sigHash
  once : ∀ {key sig m m'}, made key sig m → made key sig m' → m = m'

/-- The holder of the certificate's key has signed proper attributes. -/
def SignedProperly (E : Env) (made : PublicKey → Bytes → Bytes → Prop) (type : OID)
    (cert : Certificate)
    (view : SignedView) : Prop :=
  ∃ m, made cert.publicKey view.signature m ∧ Proper E type view m

/-! ## The verifier -/

/-- What `checkSigner` has looked at. -/
theorem checkSigner_ok {cert : Certificate} {signer : SignerInfo} {content : Bytes}
    (h : checkSigner E cert signer content = .ok ()) :
    ∃ attrsContent hashID sig sigOID, tlvContent signer.attributes = .ok attrsContent ∧
      cmsDigestHash signer.digestAlgorithm = .ok hashID ∧ tlvContent signer.signature = .ok sig ∧
      derOctet (E.hashBytes hashID content) <:+: derSetContent attrsContent ∧
      verifySignature E cert sigOID hashID (E.hashBytes hashID (derSetContent attrsContent)) sig =
        .ok true := by
  obtain ⟨attrsContent, hattrs, h⟩ := bind_ok.1 h
  obtain ⟨hashID, hhash, h⟩ := bind_ok.1 h
  split at h
  · cases h
  rename_i hdigest
  simp only [bind_ok] at h
  obtain ⟨sig, hsig, algorithm, -, sigOID, -, valid, hvalid, h⟩ := h
  have hset : derSet [attrsContent] = derSetContent attrsContent := by
    simp [derSet, derSetContent]
  rw [hset] at hvalid
  cases valid with
  | false => cases h
  | true =>
    exact ⟨attrsContent, hashID, sig, sigOID, hattrs, hhash, hsig, not_not.1 hdigest, hvalid⟩

/-- **A message accepted as signed** carries a valid signature over its attributes, and
the digest of its content among them. -/
theorem verifyCMS_signed {anchors : Option CertPool} {cms : VerifiedCMS}
    (h : verifyCMSStatusWithCertificates E data anchors = .ok cms)
    (hs : cms.signed = true ∨ cms.certificate.isSome = true) :
    ∃ view cert sigOID, readView data = .ok view ∧ cms.certificate = some cert ∧
      cms.content = view.content ∧
        derOctet (E.hashBytes view.hashID view.content) <:+: view.attributes ∧
      verifySignature E cert sigOID view.hashID (E.hashBytes view.hashID view.attributes)
        view.signature = .ok true := by
  obtain ⟨_, -, h⟩ := bind_ok.1 h
  obtain ⟨unwrapped, hunwrap, h⟩ := bind_ok.1 h
  cases unwrapped with
  | bare content =>
    cases h
    simp at hs
  | signedData inner =>
    obtain ⟨sd, hsd, h⟩ := bind_ok.1 h
    split at h
    · obtain ⟨_, -, h⟩ := bind_ok.1 h
      cases h
      simp at hs
    obtain ⟨certificates, -, h⟩ := bind_ok.1 h
    obtain ⟨signer, hsigner, h⟩ := bind_ok.1 h
    split at h
    · cases h
    rename_i cert intermediates hfind
    obtain ⟨_, hcheck, h⟩ := bind_ok.1 h
    obtain ⟨attrsContent, hashID, sig, sigOID, hattrs, hhash, hsig, hdigest, hvalid⟩ :=
      checkSigner_ok hcheck
    split at h
    · cases h
    cases h
    refine ⟨⟨sd.contentType, sd.content, derSetContent attrsContent, hashID, sig⟩, cert, sigOID,
      ?_, rfl, rfl, hdigest, hvalid⟩
    simp [readView, hunwrap, hsd, hsigner, hattrs, hhash, hsig, bind, Except.bind]

/-- **What an accepted signature says**: the holder of the key has signed the attributes of
the message, with the digest of its content somewhere among them; proper ones if they have
the shape, and only if they name the type and one digest of that length. -/
structure SignatureSound (E : Env) (made : PublicKey → Bytes → Bytes → Prop) (type : OID)
    (cert : Certificate) (view : SignedView) : Prop where
  signed : made cert.publicKey view.signature view.attributes
  digest : derOctet (E.hashBytes view.hashID view.content) <:+: view.attributes
  proper : Shaped type (E.hashBytes view.hashID view.content).length view →
    SignedProperly E made type cert view
  shape : SignedProperly E made type cert view →
    (tlv view.contentType).toOption = some (0x06, type) ∧
    attributeOf view.attributes contentType = some (0x06, type) ∧
    ∃ d ∈ octetStrings (E.hashBytes view.hashID view.content).length view.attributes,
      attributeOf view.attributes messageDigest = some (0x04, d)

theorem signatureSound {made : PublicKey → Bytes → Bytes → Prop} (hhash : CollisionFree E)
    (hsig : Unforgeable E made) {cert : Certificate} {view : SignedView} {sigOID type : OID}
    (hdigest : derOctet (E.hashBytes view.hashID view.content) <:+: view.attributes)
    (hvalid : verifySignature E cert sigOID view.hashID (E.hashBytes view.hashID view.attributes)
      view.signature = .ok true) : SignatureSound E made type cert view := by
  obtain ⟨m, hmade, hm⟩ := hsig.made_of_valid hvalid
  have hattrs : m = view.attributes := hhash _ _ _ hm
  subst hattrs
  refine ⟨hmade, hdigest, fun h => ?_, ?_⟩
  · exact ⟨_, hmade, h.encapsulated, h.contentType, h.messageDigest _ (mem_octetStrings hdigest)⟩
  · rintro ⟨m', hmade', hproper⟩
    rw [← hsig.once hmade hmade'] at hproper
    exact ⟨hproper.encapsulated, hproper.contentType, _, mem_octetStrings hdigest,
      hproper.messageDigest⟩

/-! ## Requests and replies -/

theorem verifyPAASReq_signed {body : Bytes} {v : VerifiedPAASReq}
    (h : verifyPAASReqForKDC E data body = .ok v) (hs : v.signed = true) :
    ∃ cert view sigOID, v.certificate = some cert ∧ requestView data = .ok view ∧
      parseAuthPack E view.content = .ok v.authPack ∧
      derOctet (E.hashBytes view.hashID view.content) <:+: view.attributes ∧
      verifySignature E cert sigOID view.hashID (E.hashBytes view.hashID view.attributes)
        view.signature = .ok true := by
  unfold verifyPAASReqForKDC at h
  simp only [bind_ok] at h
  obtain ⟨_, -, cms, hcms, pack, hpack, h⟩ := h
  split at h
  · cases h
  cases h
  obtain ⟨choice, hchoice, hcms⟩ := bind_ok.1 hcms
  obtain ⟨view, cert, sigOID, hview, hcert, hcontent, hsigned⟩ := verifyCMS_signed hcms (Or.inl hs)
  refine ⟨cert, view, sigOID, hcert, ?_, ?_, hsigned⟩
  · rw [requestView, hchoice]
    exact hview
  · rw [← hcontent]
    exact hpack

/-- What the client has verified of a reply it accepts. -/
structure ReplyVerified (E : Env) (data : Bytes) (anchors : CertPool) (realm : Bytes)
    (cert : Certificate) (view : SignedView) : Prop where
  read : replyView data = .ok view
  verified : ∃ info cms, dhRepInfo data = .ok info ∧
    verifyCMSStatusWithCertificates E info.2 (some anchors) = .ok cms ∧
    cms.content = view.content ∧ cms.certificate = some cert
  kdc : validateKDC E (some cert) realm = .ok ()

theorem verifyPAASRep_signed {c : Option Client} {anchors : Option CertPool} {enctype : Int32}
    {nonce : UInt32} {client server : Principal} {asReq key : Bytes}
    (h : verifyPAASRepWithContext E c data anchors enctype nonce client server asReq = .ok key) :
    ∃ roots cert view sigOID, anchors = some roots ∧
      ReplyVerified E data roots server.realm cert view ∧
      derOctet (E.hashBytes view.hashID view.content) <:+: view.attributes ∧
      verifySignature E cert sigOID view.hashID (E.hashBytes view.hashID view.attributes)
        view.signature = .ok true := by
  unfold verifyPAASRepWithContext at h
  split at h
  · cases h
  · cases h
  rename_i c roots
  obtain ⟨⟨dhInfo, dhSignedData⟩, hinfo, h⟩ := bind_ok.1 h
  simp only [bind_ok] at h
  obtain ⟨cms, hcms, _, hkdc, -⟩ := h
  -- without a certificate the check of the KDC fails
  have hs : cms.certificate.isSome = true := by
    cases hcert : cms.certificate with
    | none => simp [hcert, validateKDC] at hkdc
    | some cert => rfl
  obtain ⟨view, cert, sigOID, hview, hcert, hcontent, hsigned⟩ := verifyCMS_signed hcms (Or.inr hs)
  refine ⟨roots, cert, view, sigOID, rfl, ⟨?_, ⟨_, cms, hinfo, hcms, hcontent, hcert⟩, ?_⟩, hsigned⟩
  · rw [replyView, hinfo]
    exact hview
  · rw [← hcert]
    exact hkdc

/-- **What an accepted signature is about.** For a request the KDC reports as signed, and
for a reply the client accepts, the holder of the certificate's key has signed attributes
with the digest of the content, and proper ones if they have the shape. -/
theorem pkinit_signature_sound {made : PublicKey → Bytes → Bytes → Prop} (hhash : CollisionFree E)
    (hsig : Unforgeable E made) :
    (∀ data body v, verifyPAASReqForKDC E data body = .ok v → v.signed = true →
      ∃ cert view, v.certificate = some cert ∧ requestView data = .ok view ∧
        parseAuthPack E view.content = .ok v.authPack ∧
        SignatureSound E made authData cert view) ∧
    ∀ c data anchors enctype nonce client server asReq key,
      verifyPAASRepWithContext E c data anchors enctype nonce client server asReq = .ok key →
      ∃ roots cert view, anchors = some roots ∧ ReplyVerified E data roots server.realm cert view ∧
        SignatureSound E made dhKeyData cert view := by
  constructor
  · intro data body v h hs
    obtain ⟨cert, view, sigOID, hcert, hview, hpack, hdigest, hvalid⟩ := verifyPAASReq_signed h hs
    exact ⟨cert, view, hcert, hview, hpack, signatureSound hhash hsig hdigest hvalid⟩
  · intro c data anchors enctype nonce client server asReq key h
    obtain ⟨roots, cert, view, sigOID, hroots, hview, hdigest, hvalid⟩ := verifyPAASRep_signed h
    exact ⟨roots, cert, view, hroots, hview, signatureSound hhash hsig hdigest hvalid⟩

/-! ## Three messages -/

namespace Sample

def realm : Bytes := str "R"

/-- The principal `krbtgt/R@R`, as a subject alternative name has it. -/
def kdcName : Bytes :=
  derSeq [derExplicit 0 (der 0x1b realm), derExplicit 1 (derSeq [derExplicit 0 (derInt 2),
    derExplicit 1 (derSeq [der 0x1b (str "krbtgt"), der 0x1b realm])])]

def cert : Certificate where
  raw := derOctet [1]
  rawIssuer := derOctet [2]
  serialNumber := 1
  publicKey := .rsa [3]
  unknownExtKeyUsage := [kdcEKU]
  extensions := [(subjectAltName,
    derSeq [derExplicit 0 (derOID san ++ derExplicit 0 kdcName)])]

/-- A hash is the message itself, and so is a signature. -/
def env : Env where
  hashBytes _ m := m
  verifyPKCS1v15 _ _ d sig := decide (d = sig)
  verifyASN1 _ d sig := decide (d = sig)
  parseCertificate raw := if raw = cert.raw then some cert else none
  verifyChain _ _ _ := true
  unmarshalOID data := do
    let (tag, oid) ← tlv data
    if tag = 0x06 ∧ derOID oid <+: data then .ok oid else .error "asn1: structure error"
  unmarshalTime _ := .ok 0

def made (_ : PublicKey) (sig m : Bytes) : Prop := sig = m

theorem collisionFree : CollisionFree env := fun _ _ _ h => h

theorem unforgeable : Unforgeable env made := by
  refine ⟨fun {cert sigOID hashID sigHash sig} h => ?_, fun h h' => h.symm.trans h'⟩
  refine ⟨sig, rfl, ?_⟩
  unfold verifySignature at h
  split at h
  · split at h
    · cases h
    · split at h <;> simp_all [env]
  · split at h
    · split at h
      · split at h <;> simp_all [env]
      · cases h
    · split at h
      · split at h
        · split at h <;> simp_all [env]
        · cases h
      · cases h

def signer : Signer := ⟨.ok, false⟩

def body : Bytes := [5]

def authPack : Bytes :=
  derSeq [derExplicit 0 (derSeq [derExplicit 0 (derInt 0), derExplicit 1 (derInt 0),
    derExplicit 2 (derInt 1), derExplicit 3 (derOctet body)])]

/-- A PA-PK-AS-REQ around an AuthPack signed as content of a type. -/
def request (contentType : OID) : Bytes :=
  match signCMSWithContentType env authPack contentType cert signer [] with
  | .ok cms => derSeq [der 0x80 cms]
  | .error _ => []

/-- 1.2.840.113549.1.7.1, the type of any data. -/
def dataType : OID := [0x2a, 0x86, 0x48, 0x86, 0xf7, 0x0d, 0x01, 0x07, 0x01]

def keyInfo : Bytes := derSeq [derExplicit 0 (der 0x03 [0, 4, 9]), derExplicit 1 (derInt 1)]

/-- A PA-PK-AS-REP. -/
def reply : Bytes :=
  match signCMSWithContentType env keyInfo dhKeyData cert signer [] with
  | .ok cms => derExplicit 0 (derSeq [der 0x80 cms])
  | .error _ => []

def client : Client := ⟨fun serverPublic _ _ _ _ _ _ _ _ => .ok serverPublic⟩

end Sample

open Sample in
/-- The request and the reply as the package itself signs them. -/
theorem pkinit_signature_sound_sample : CollisionFree env ∧ Unforgeable env made ∧
    (∃ v cert view, verifyPAASReqForKDC env (request authData) body = .ok v ∧ v.signed = true ∧
      v.certificate = some cert ∧ requestView (request authData) = .ok view ∧
      SignedProperly env made authData cert view) ∧
    ∃ key cert view, verifyPAASRepWithContext env (some client) reply (some []) 18 1 (krbtgt realm)
        (krbtgt realm) [] = .ok key ∧
      ReplyVerified env reply [] realm cert view ∧ SignedProperly env made dhKeyData cert view := by
  refine ⟨collisionFree, unforgeable, ?_, ?_⟩
  · have hs : (verifyPAASReqForKDC env (request authData) body).toOption.map (·.signed) =
        some true := by
      decide +kernel
    have hp : (requestView (request authData)).toOption.map
        (fun view => decide
          (Shaped authData (env.hashBytes view.hashID view.content).length view)) = some true := by
      decide +kernel
    obtain ⟨v, hv, hs⟩ := Option.map_eq_some_iff.1 hs
    obtain ⟨view, hview, hp⟩ := Option.map_eq_some_iff.1 hp
    rw [toOption_some] at hv hview
    obtain ⟨cert, view', hcert, hview', -, hsound⟩ :=
      (pkinit_signature_sound collisionFree unforgeable).1 _ _ v hv hs
    rw [hview] at hview'
    cases hview'
    exact ⟨v, cert, view, hv, hs, hcert, hview, hsound.proper (of_decide_eq_true hp)⟩
  · have hs : (verifyPAASRepWithContext env (some client) reply (some []) 18 1 (krbtgt realm)
        (krbtgt realm) []).toOption = some [4, 9] := by
      decide +kernel
    have hp : (replyView reply).toOption.map
        (fun view => decide
          (Shaped dhKeyData (env.hashBytes view.hashID view.content).length view)) = some true := by
      decide +kernel
    obtain ⟨view, hview, hp⟩ := Option.map_eq_some_iff.1 hp
    rw [toOption_some] at hs hview
    obtain ⟨roots, cert, view', hroots, hver, hsound⟩ :=
      (pkinit_signature_sound collisionFree unforgeable).2 _ _ _ _ _ _ _ _ _ hs
    have hview' := hver.read
    rw [hview] at hview'
    cases hview'
    cases hroots
    exact ⟨_, cert, view, hs, hver, hsound.proper (of_decide_eq_true hp)⟩

open Sample in
/-- A signature over data of any kind passes for one over a PKINIT request. -/
theorem pkinit_signature_foreign : CollisionFree env ∧ Unforgeable env made ∧
    ∃ v cert view, verifyPAASReqForKDC env (request dataType) body = .ok v ∧ v.signed = true ∧
      v.certificate = some cert ∧ requestView (request dataType) = .ok view ∧
      ¬ SignedProperly env made authData cert view := by
  have hs : (verifyPAASReqForKDC env (request dataType) body).toOption.map (·.signed) =
      some true := by
    decide +kernel
  have hp : (requestView (request dataType)).toOption.map
      (fun view => decide ((tlv view.contentType).toOption = some (0x06, authData))) =
        some false := by
    decide +kernel
  obtain ⟨v, hv, hs⟩ := Option.map_eq_some_iff.1 hs
  obtain ⟨view, hview, hp⟩ := Option.map_eq_some_iff.1 hp
  rw [toOption_some] at hv hview
  obtain ⟨cert, view', -, hcert, hview', -⟩ := verifyPAASReq_signed hv hs
  rw [hview] at hview'
  cases hview'
  refine ⟨collisionFree, unforgeable, v, cert, view, hv, hs, hcert, hview, ?_⟩
  rintro ⟨_, -, hproper⟩
  exact of_decide_eq_false hp hproper.encapsulated

end Kerberos.PKINIT
