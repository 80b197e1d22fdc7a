import Kerberos.Spec.Store

/-!
# The KDC's configuration and the packages it calls

`Server` has the configuration fields the handlers read, with its hooks and
modules. `Env` gathers the packages around the KDC: the enctype registry, the
ASN.1 codec, the CAMMAC and PAC containers. They are parameters, fresh for every
request, so that a statement over all `Env` covers any randomness they use.

A module's contract is part of its type: `AuthDataModule` carries the documented
promise that it only adds authorization data.
-/

namespace Kerberos

/-- An enctype of the registry. -/
structure EType where
  id : Int32
  keySize : ℕ
  checksumSize : ℕ
  encrypt : Bytes → ℕ → Bytes → Option Bytes
  decrypt : Bytes → ℕ → Bytes → Option Bytes
  checksum : Bytes → ℕ → Bytes → Option Bytes
  verifyChecksum : Bytes → ℕ → Bytes → Bytes → Bool

/-- The armor of a FAST exchange (`fastContext`). -/
structure FastContext where
  etype : EType
  key : Bytes
  nonce : UInt32
  cookie : Option PAData

structure KrbFastArmor where
  armorType : Int32
  armorValue : Bytes
  deriving DecidableEq

structure KrbFastArmoredReq where
  armor : Option KrbFastArmor
  reqChecksum : Checksum
  encFastReq : EncryptedData
  deriving DecidableEq

structure KrbFastReq where
  paData : MethodData
  reqBody : KDCReqBody
  deriving DecidableEq

/-- How a CAMMAC operation fails. -/
inductive CammacError
  | notFound
  | integrity
  | invalid
  deriving DecidableEq

/-- How reading the PAC of a ticket fails. -/
inductive PacError
  | notFound
  | invalid
  deriving DecidableEq

/-- The encrypted part of a reply, with the fields of the ticket it repeats. -/
structure EncRepPart where
  key : EncryptionKey
  lastReq : KerberosTime
  nonce : UInt32
  flags : Flags
  authTime : KerberosTime
  startTime : Option KerberosTime
  endTime : KerberosTime
  renewTill : Option KerberosTime
  srealm : Bytes
  sname : PrincipalName
  deriving DecidableEq

/-- What `pkinit.VerifyPAASReqForKDC` reports about a PA-PK-AS-REQ; certificates
stay opaque. -/
structure PKINITVerified where
  signed : Bool
  nonce : UInt32
  ctime : ℤ
  freshnessToken : Bytes
  publicValue : Bytes
  certificate : Bytes
  intermediates : List Bytes
  supportedKDFs : List Bytes
  deriving DecidableEq

structure SPAKEResponse where
  pubKey : Bytes
  factor : EncryptedData
  deriving DecidableEq

/-- The packages around the KDC. -/
structure Env where
  /-- `crypto.NewRegistry().Get`. -/
  etype : Int32 → Option EType
  cf2 : EType → Bytes → Bytes → Bytes → Bytes → Option Bytes
  random : ℕ → Option Bytes
  /-- The order in which a map's keys are visited. -/
  mapOrder : List Bytes → List Bytes
  mapOrder_perm : ∀ l, (mapOrder l).Perm l
  keyOrder : List Int32 → List Int32
  keyOrder_perm : ∀ l, (keyOrder l).Perm l
  /-- `strings.TrimSpace` and `strings.Fields`. -/
  trimSpace : Bytes → Bytes
  fields : Bytes → List Bytes
  -- `asn1.Unmarshal` and `asn1.Marshal` at the types the handlers use
  apReq : Bytes → Option APReq
  encTicketPart : Bytes → Option EncTicketPart
  authenticator : Bytes → Option Authenticator
  fastRequest : Bytes → Option KrbFastArmoredReq
  krbFastReq : Bytes → Option KrbFastReq
  s4uX509User : Bytes → Option PAS4UX509User
  forUser : Bytes → Option PAForUser
  authorizationData : Bytes → Option AuthorizationData
  utf8Strings : Bytes → Option (List Bytes)
  encryptedData : Bytes → Option EncryptedData
  encTimestamp : Bytes → Option KerberosTime
  fieldContent : Bytes → List ℕ → Option Bytes
  marshalUserID : S4UUserID → Bytes
  marshalS4UX509User : PAS4UX509User → Bytes
  marshalAuthorizationData : AuthorizationData → Bytes
  marshalTicketPart : EncTicketPart → Bytes
  marshalRepPart : EncRepPart → Bytes
  marshalKey : EncryptionKey → Bytes
  marshalEncryptedData : EncryptedData → Bytes
  -- the CAMMAC and PAC containers
  protectedElements : AuthorizationData → Except CammacError AuthorizationData
  verifyKDC : AuthorizationData → EncTicketPart → EncryptionKey → Except CammacError Unit
  wrapCAMMAC : AuthorizationData → EncTicketPart → EncryptionKey → EncryptionKey → UInt32 →
    Option AuthorizationData
  pacClient : EncTicketPart → Key → Key → Except PacError Bytes
  signPAC : EncTicketPart → Principal → Principal → Key → Key → Key → Bool → Bool → Option Key →
    Option Principal → Option AuthorizationData
  -- preauthentication mechanisms
  marshalStrings : List Bytes → Bytes
  otpRequest : Bytes → Option (EncryptedData × Bytes)
  otpNonce : FastContext → EncryptedData → Option Bytes
  validateNonce : Bytes → ℕ → ℤ → ℤ → Bool
  otpChallenge : ℤ → ℕ → Principal → Option MethodData
  encryptedChallenge : FastContext → EType → Bytes → Bytes → Option ℤ
  encryptedChallengeReply : FastContext → EType → Bytes → ℤ → Option PAData
  /-- The groups of a PA-SPAKE support message. -/
  spakeSupport : Bytes → Option (List Int32)
  /-- `spake.Decode`: the response of a PA-SPAKE message, if it is one. -/
  spakeDecode : Bytes → Option (Option SPAKEResponse)
  spakeGroupInfo : Int32 → Bool
  spakeChallenge : EType → Bytes → Int32 → ℤ → Bytes → Option (Bytes × Bytes)
  spakeCookie : Bytes → ℤ → Option (Int32 × Bytes × Bytes)
  spakeKey : EType → Bytes → Int32 → Bytes → Bytes → SPAKEResponse → KDCReqBody → ℕ → Option Bytes
  spakeFactor : Bytes → Option Int32
  etypeInfo : Int32 → Bytes → Bytes
  verifyPAASReqForKDC : Bytes → Bytes → Option PKINITVerified
  clientTrust : Bytes → List Bytes → Bool
  verifyFreshnessToken : Bytes → Bool
  makeFreshnessToken : List Int32 → Option Bytes
  buildPAASRep : PKINITVerified → Int32 → KDCReq → Principal → Principal →
    Except (Option Bytes) (PAData × Bytes)
  /-- The RFC 4757 checksum of PA-FOR-USER. -/
  verifyPAForUserChecksum : Bytes → ℕ → Bytes → Bytes → Bool
  /-- Wrap a reply in FAST (`wrapFASTASRep`, `wrapFASTTGSRep`). -/
  wrapFASTRep : FastContext → Bytes → ℕ → EncryptedData → TicketMsg → MethodData →
    Option (MethodData × EncryptedData)
  appendTransited : Bytes → Bytes → Option Bytes
  transitedPermitted : Bytes → Bytes → Bytes → Bool

/-- A KRB-ERROR as the handlers determine it: `armor` is the context it is wrapped
in, if any. -/
structure ErrorReply where
  code : ℤ
  realm : Bytes
  sname : PrincipalName
  text : Bytes
  data : MethodData
  armor : Option FastContext

/-- How a handler ends without issuing a ticket: with an error reply, or in a
panic (a nil dereference). -/
inductive Failure
  | reply (e : ErrorReply)
  | panic

abbrev Handled := Except Failure

/-- Answer with `e` unless `ok`. -/
def require (ok : Bool) (e : ErrorReply) : Handled Unit := if ok then .ok () else .error (.reply e)

variable {α : Type}

/-- Answer with `e` when there is no value. -/
def orFail (value : Option α) (e : ErrorReply) : Handled α :=
  match value with
  | some a => .ok a
  | none => .error (.reply e)

/-- Dereference a pointer. -/
def deref (value : Option α) : Handled α :=
  match value with
  | some a => .ok a
  | none => .error .panic

/-- Answer with what `e` makes of a failure. -/
def orReply {ε α : Type} (value : Except ε α) (e : ε → ErrorReply) : Handled α :=
  match value with
  | .ok a => .ok a
  | .error err => .error (.reply (e err))

/-- A computation made only when `on`. -/
def onlyIf (on : Bool) (x : Handled α) : Handled (Option α) :=
  if on then x.map some else .ok none

/-- Answer with the error a check reports. -/
def unlessError (check : Option ErrorReply) : Handled Unit :=
  match check with
  | some e => .error (.reply e)
  | none => .ok ()

/-- An error of a hook: the protocol code it carries, if any, and its text. -/
structure HookError where
  code : Option ℤ
  text : Bytes
  deriving DecidableEq

/-- `Policy`. -/
structure FlagPolicy where
  allowForwardable : Bool
  allowRenewable : Bool
  allowProxiable : Bool
  deriving DecidableEq

structure KDCPolicyResult where
  lifetime : ℤ
  renewLifetime : ℤ
  deriving DecidableEq

structure ASPolicyRequest where
  request : KDCReq
  client : Principal
  server : Principal
  clientRecord : PrincipalRecord
  serverRecord : PrincipalRecord
  authIndicators : List Bytes

structure TGSPolicyRequest where
  request : KDCReq
  client : Principal
  server : Principal
  serverRecord : PrincipalRecord
  headerTicket : TicketMsg
  headerTicketPart : EncTicketPart
  authIndicators : List Bytes

structure KDCPolicyModule where
  checkAS : ASPolicyRequest → Except HookError KDCPolicyResult
  checkTGS : TGSPolicyRequest → Except HookError KDCPolicyResult

/-- The request surface an authorization-data module is called on. -/
inductive AuthDataSurface
  | asReq
  | tgsReq
  deriving DecidableEq

structure AuthDataRequest where
  flags : AuthDataSurface
  client : Principal
  server : Principal
  subjectServer : Option Principal
  clientKey : Option Key
  serverKey : Option Key
  subjectKey : Option Key
  request : KDCReq
  tgt : Option EncTicketPart
  reply : EncTicketPart

/-- An authorization-data module: `handle` gives the ticket as the module leaves
it. It "adds authorization data to newly issued tickets": no other field changes. -/
structure AuthDataModule where
  handle : AuthDataRequest → EncTicketPart
  adds : ∀ req, handle req =
    { req.reply with authorizationData := (handle req).authorizationData }

structure PreauthRock where
  client : Principal
  service : Principal
  clientEntry : PrincipalRecord
  clientKeys : List Key
  request : KDCReq
  armorKey : Option EncryptionKey

structure VerifyResult where
  authenticated : Bool
  hardwareAuthenticated : Bool
  authIndicators : List Bytes
  authorizationData : AuthorizationData
  replacedReplyKey : Option Key
  deriving DecidableEq

namespace PA

def Hardware : Flags := flag 2
def Required : Flags := flag 3
def Sufficient : Flags := flag 4
def ReplacesKey : Flags := flag 5
def Pseudo : Flags := flag 7

end PA

/-- `KDCPreauthModule`; `returnPadata` is the optional interface of that name. -/
structure KDCPreauthModule where
  name : Bytes
  paTypes : List Int32
  flags : Int32 → Flags
  edata : PreauthRock → Int32 → Option PAData
  verify : PreauthRock → PAData → Except Unit (Option VerifyResult)
  returnPadata : Option (PreauthRock → VerifyResult → Option MethodData)

/-- `CertAuthDecision`; `invalid` is any other value. -/
inductive CertAuthDecision
  | pass
  | accept
  | hwAuth
  | hwAuthPass
  | invalid
  deriving DecidableEq

/-- `CertAuthModule`: an error carries the code of a `CertAuthError`, if it is one. -/
structure CertAuthModule where
  authorize : Bytes → Principal → PrincipalRecord →
    Except (Option ℤ) (CertAuthDecision × List Bytes)

structure Server where
  realm : Bytes
  db : Store
  clockSkew : ℤ := 0
  maxTicketLife : ℤ := 0
  defaultTicketLife : ℤ := 0
  maxRenewableLife : ℤ := 0
  defaultRenewableLife : ℤ := 0
  disablePreauth : Bool := false
  policy : Option FlagPolicy := none
  /-- An accepted delegation is `true`, an error `false`. -/
  checkAllowedToDelegate : Option (Option Principal → Principal → Option Principal → Bool) := none
  /-- The KDC has a PKINIT certificate and signer. -/
  pkinitIdentity : Bool := false
  pkinitClientCAs : Bool := false
  /-- The built-in certificate modules, then the configured ones. -/
  certAuthModules : List (Option CertAuthModule) := []
  preauthModules : List (Option KDCPreauthModule) := []
  authDataModules : List (Option AuthDataModule) := []
  enablePAC : Bool := false
  disablePAC : Bool := false
  rejectBadTransit : Bool := false
  rejectBadTransitSet : Bool := false
  restrictAnonymousToTGT : Bool := false
  hostBasedServices : List Bytes := []
  noHostReferral : List Bytes := []
  pkinitRequireFreshness : Bool := false
  authorize : Option (Principal → Principal → Bool → Option HookError) := none
  kdcPolicyModules : List (Option KDCPolicyModule) := []
  /-- `OTPVerifier` or `OTPValidator`, whichever is set: the indicators of an accepted value. -/
  otpVerify : Option (Principal → Bytes → Option (List Bytes)) := none
  encryptedChallengeIndicator : Bytes := []
  spakePreauthIndicators : List Bytes := []
  pkinitIndicators : List Bytes := []
  enableSPAKE : Bool := false
  spakeGroups : List Int32 := []

/-- A registered module: nil entries of a module list are skipped. -/
def registered (modules : List (Option α)) : List α := modules.filterMap id

namespace Server

variable (s : Server)

/-- `Server.skew`: the configured skew without its sign, five minutes by default. -/
def skew : ℤ :=
  let skew := if s.clockSkew < 0 then durNeg s.clockSkew else s.clockSkew
  if skew = 0 then 5 * minute else skew

/-- `errorResponseWithTextAndData` inside `armor`, if there is one. -/
def errorReply (armor : Option FastContext) (code : ℤ) (service : Option PrincipalName)
    (text : Bytes := []) (data : MethodData := []) : ErrorReply :=
  { code, realm := s.realm, text, data, armor
    sname := service.getD ⟨NTSrvInstance, [str "krbtgt", s.realm]⟩ }

end Server

namespace Err

def NameExpired : ℤ := 1
def ServiceExpired : ℤ := 2
def CPrincipal : ℤ := 6
def SPrincipal : ℤ := 7
def ServiceUnknown : ℤ := 7
def CannotPostdate : ℤ := 10
def Policy : ℤ := 12
def BadOption : ℤ := 13
def ETypeNoSupp : ℤ := 14
def ClientRevoked : ℤ := 18
def KeyExpired : ℤ := 23
def PreauthFailed : ℤ := 24
def PreauthRequired : ℤ := 25
def ServerNoMatch : ℤ := 26
def MustUseUser2User : ℤ := 27
def BadIntegrity : ℤ := 31
def TktExpired : ℤ := 32
def TktNYV : ℤ := 33
def Repeat : ℤ := 34
def Skew : ℤ := 37
def InKeyUsage : ℤ := 44
def Generic : ℤ := 60
def ClientNotTrusted : ℤ := 62
def DHKeyParameters : ℤ := 65
def PreauthExpired : ℤ := 90
def MorePreauth : ℤ := 91

end Err

end Kerberos
