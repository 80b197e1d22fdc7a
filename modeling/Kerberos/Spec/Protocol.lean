import Kerberos.Spec.Time

/-!
# Protocol values

The messages the KDC and the acceptor exchange, with the fields their handlers
read or write. Go strings are byte strings, so names are lists of bytes. Flag
words are `BitVec 32`; a flag is the word with that one bit (`flag`).
-/

namespace Kerberos

/-- A Go byte slice or string. -/
abbrev Bytes := List UInt8

/-- A string constant of the source. -/
def str (s : String) : Bytes := s.toList.map fun c => UInt8.ofNat c.toNat

/-- A `uint32` flag word. -/
abbrev Flags := BitVec 32

/-- The constant `1 << i`. -/
def flag (i : ℕ) : Flags := BitVec.twoPow 32 i

/-- `word&mask != 0`. -/
def has (word mask : Flags) : Bool := word &&& mask != 0#32

/-- `word &^ mask`. -/
def clear (word mask : Flags) : Flags := word &&& ~~~mask

theorem has_or (word a b : Flags) : has word (a ||| b) = (has word a || has word b) := by
  have hdistrib : word &&& (a ||| b) = (word &&& a) ||| (word &&& b) := by
    ext i
    cases hw : word[i] <;> simp [hw]
  unfold has
  rw [hdistrib, Bool.eq_iff_iff]
  simp only [bne_iff_ne, ne_eq, Bool.or_eq_true, BitVec.or_eq_zero_iff, not_and_or]

namespace KDC

def Forwardable : Flags := flag 1
def Forwarded : Flags := flag 2
def Proxiable : Flags := flag 3
def Proxy : Flags := flag 4
def AllowPostdate : Flags := flag 5
def Postdated : Flags := flag 6
def Renewable : Flags := flag 8
def CNameInAddlTkt : Flags := flag 14
def Canonicalize : Flags := flag 15
def RequestAnonymous : Flags := flag 16
def RenewableOK : Flags := flag 27
def EncTktInSkey : Flags := flag 28
def Renew : Flags := flag 30
def Validate : Flags := flag 31

end KDC

namespace Ticket

def Forwardable : Flags := flag 1
def Forwarded : Flags := flag 2
def Proxiable : Flags := flag 3
def MayPostdate : Flags := flag 5
def Postdated : Flags := flag 6
def Invalid : Flags := flag 7
def Renewable : Flags := flag 8
def Initial : Flags := flag 9
def PreAuthent : Flags := flag 10
def HWAuthent : Flags := flag 11
def Transited : Flags := flag 12
def Anonymous : Flags := flag 16

end Ticket

/-- `types.KerberosTime`. -/
structure KerberosTime where
  time : ℤ
  present : Bool
  deriving DecidableEq, Repr, Inhabited

/-- A time that is there. -/
def KerberosTime.at (t : ℤ) : KerberosTime := ⟨t, true⟩

structure PrincipalName where
  nameType : Int32
  nameString : List Bytes
  deriving DecidableEq, Inhabited

/-- `principal.Principal`. -/
structure Principal where
  realm : Bytes
  nameType : Int32
  components : List Bytes
  deriving DecidableEq, Inhabited

def NTUnknown : Int32 := 0
def NTSrvInstance : Int32 := 2
def NTSrvHst : Int32 := 3
def NTWellKnown : Int32 := 11

structure EncryptedData where
  etype : Int32
  kvno : Option UInt32
  cipher : Bytes
  deriving DecidableEq, Inhabited

structure EncryptionKey where
  keyType : Int32
  keyValue : Bytes
  deriving DecidableEq, Inhabited

structure Checksum where
  checksumType : Int32
  checksum : Bytes
  deriving DecidableEq, Inhabited

structure PAData where
  paDataType : Int32
  paDataValue : Bytes
  deriving DecidableEq, Inhabited

abbrev MethodData := List PAData

structure AuthorizationDataEntry where
  adType : Int32
  adData : Bytes
  deriving DecidableEq, Inhabited

abbrev AuthorizationData := List AuthorizationDataEntry

structure HostAddress where
  addrType : Int32
  address : Bytes
  deriving DecidableEq, Inhabited

structure TransitedEncoding where
  trType : Int32
  contents : Bytes
  deriving DecidableEq, Inhabited

structure TicketMsg where
  tktVNO : Int32
  realm : Bytes
  sname : PrincipalName
  encPart : EncryptedData
  deriving DecidableEq, Inhabited

structure EncTicketPart where
  flags : Flags
  key : EncryptionKey
  crealm : Bytes
  cname : PrincipalName
  transited : TransitedEncoding
  authTime : KerberosTime
  startTime : Option KerberosTime
  endTime : KerberosTime
  renewTill : Option KerberosTime
  caddr : List HostAddress
  authorizationData : AuthorizationData
  deriving DecidableEq, Inhabited

structure Authenticator where
  authenticatorVNO : Int32
  crealm : Bytes
  cname : PrincipalName
  checksum : Option Checksum
  cusec : Int32
  ctime : KerberosTime
  subKey : Option EncryptionKey
  seqNumber : Option UInt32 := none
  authorizationData : AuthorizationData := []
  deriving DecidableEq, Inhabited

structure APReq where
  pvno : Int32
  msgType : Int32
  apOptions : Flags := 0
  ticket : TicketMsg
  authenticator : EncryptedData
  deriving DecidableEq, Inhabited

structure KDCReqBody where
  kdcOptions : Flags
  cname : Option PrincipalName
  realm : Bytes
  sname : Option PrincipalName
  «from» : Option KerberosTime
  till : KerberosTime
  rtime : Option KerberosTime
  nonce : UInt32
  etype : List Int32
  addresses : List HostAddress
  encAuthorizationData : Option EncryptedData
  additionalTickets : List TicketMsg
  deriving DecidableEq, Inhabited

/-- An AS-REQ or TGS-REQ: the two messages have the same fields. -/
structure KDCReq where
  pvno : Int32
  msgType : Int32
  paData : MethodData
  reqBody : KDCReqBody
  deriving DecidableEq, Inhabited

structure S4UUserID where
  nonce : UInt32
  cname : Option PrincipalName
  crealm : Bytes
  deriving DecidableEq, Inhabited

structure PAS4UX509User where
  userID : S4UUserID
  checksum : Checksum
  deriving DecidableEq, Inhabited

structure PAForUser where
  userName : PrincipalName
  userRealm : Bytes
  checksum : Checksum
  authPackage : Bytes
  deriving DecidableEq, Inhabited

/-- `findPA`: the first element of a type. -/
def findPA (data : MethodData) (kind : Int32) : Option PAData :=
  data.find? fun pa => pa.paDataType == kind

def principalFromProtocol (value : PrincipalName) (realm : Bytes) : Principal :=
  ⟨realm, value.nameType, value.nameString⟩

def protocolPrincipal (value : Principal) : PrincipalName :=
  ⟨value.nameType, value.components⟩

/-- `sameProtocolPrincipal`: equal types and equal components. -/
def sameProtocolPrincipal (left right : PrincipalName) : Bool := left == right

def samePrincipalIdentity (left right : Principal) : Bool := left == right

def anonymousPrincipal : Principal :=
  ⟨str "WELLKNOWN:ANONYMOUS", NTWellKnown, [str "WELLKNOWN", str "ANONYMOUS"]⟩

def isAnonymousPrincipal (p : Principal) : Bool :=
  p.nameType == anonymousPrincipal.nameType && p.components == anonymousPrincipal.components

/-- The local ticket-granting service of a realm. -/
def krbtgt (realm : Bytes) : Principal := ⟨realm, NTSrvInstance, [str "krbtgt", realm]⟩

end Kerberos
