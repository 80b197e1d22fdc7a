import Kerberos.Spec.ASN1

/-!
# The messages

The types of the `protocol` package that are encoded, field by field with their `krb5` tags, and the
list of all of them.
-/

namespace Kerberos.ASN1

namespace Ty

abbrev time : Ty := .prim .time
abbrev flags : Ty := .prim .flags
abbrev utf8 : Ty := .prim .utf8
abbrev oid : Ty := .prim .oid
abbrev raw : Ty := .prim .raw
abbrev int32 : Ty := .prim .int32
abbrev uint32 : Ty := .prim .uint32
abbrev string : Ty := .prim .string
abbrev octets : Ty := .prim .octets

end Ty

namespace Messages

/-- A field with the text of its tag. -/
abbrev Field := String × FieldTag × Ty

def required (name : String) (number : UInt8) (ty : Ty) : Field := (name, { number }, ty)

def optional (name : String) (number : UInt8) (ty : Ty) : Field :=
  (name, { number, optional := true }, ty)

def alternative (name : String) (number : UInt8) (ty : Ty) : Field :=
  (name, { number, choice := true }, ty)

def implicit (name : String) (number : UInt8) (ty : Ty) : Field :=
  (name, { number, implicit := true }, ty)

def optionalImplicit (name : String) (number : UInt8) (ty : Ty) : Field :=
  (name, { number, optional := true, implicit := true }, ty)

def optionalSigned (name : String) (number : UInt8) (ty : Ty) : Field :=
  (name, { number, optional := true, signed := true }, ty)

def bare (name : String) (number : UInt8) (ty : Ty) : Field := (name, { number, bare := true }, ty)

def optionalBare (name : String) (number : UInt8) (ty : Ty) : Field :=
  (name, { number, optional := true, bare := true }, ty)

end Messages

/-- The fields of a list. -/
def Fields.of : List Messages.Field → Fields
  | [] => .nil
  | (name, tag, ty) :: rest => .cons name tag ty (Fields.of rest)

namespace Messages

def principalName : Ty := .struct none (.of [
  required "NameType" 0 .int32, required "NameString" 1 (.slice .string)])

def hostAddress : Ty :=
  .struct none (.of [required "AddrType" 0 .int32, required "Address" 1 .octets])

def authorizationDataEntry : Ty := .struct none (.of [
  required "ADType" 0 .int32, required "ADData" 1 .octets])

def authorizationData : Ty := .slice authorizationDataEntry

def checksum : Ty :=
  .struct none (.of [required "ChecksumType" 0 .int32, required "Checksum" 1 .octets])

def kdcIssued : Ty := .struct none (.of [
  required "Checksum" 0 checksum, optional "IRealm" 1 (.ptr .string),
  optional "IName" 2 (.ptr principalName), required "Elements" 3 authorizationData])

def verifierMAC : Ty := .struct none (.of [
  optional "Princ" 0 (.ptr principalName), optional "KVNO" 1 (.ptr .uint32),
  optional "Enctype" 2 (.ptr .int32), required "Checksum" 3 checksum])

def cammac : Ty := .struct none (.of [
  required "Elements" 0 authorizationData, optional "KDCVerifier" 1 (.ptr verifierMAC),
  optional "SVCVerifier" 2 (.ptr verifierMAC), optional "OtherVerifiers" 3 (.slice verifierMAC)])

def algorithmIdentifier : Ty := .struct none (.of [
  bare "Algorithm" 0 .oid, optionalBare "Parameters" 1 (.ptr .raw)])

def supportedKDF : Ty := .struct none (.of [required "KDF" 0 .oid])

def paData : Ty :=
  .struct none (.of [required "PADataType" 1 .int32, required "PADataValue" 2 .octets])

def typedDataEntry : Ty := .struct none (.of [
  required "DataType" 0 .int32, optional "DataValue" 1 .octets])

def otpTokenInfo : Ty := .struct none (.of [
  implicit "Flags" 0 .flags, optionalImplicit "Vendor" 1 (.ptr .utf8),
  optionalImplicit "Challenge" 2 .octets, optionalImplicit "Length" 3 (.ptr .int32),
  optionalImplicit "Format" 4 (.ptr .int32), optionalImplicit "TokenID" 5 .octets,
  optionalImplicit "AlgID" 6 (.ptr .utf8),
  optionalImplicit "SupportedHashAlg" 7 (.slice algorithmIdentifier),
  optionalImplicit "IterationCount" 8 (.ptr .int32)])

def paOTPChallenge : Ty := .struct none (.of [
  implicit "Nonce" 0 .octets, optionalImplicit "Service" 1 (.ptr .utf8),
  implicit "TokenInfo" 2 (.slice otpTokenInfo), optionalImplicit "Salt" 3 (.ptr .string),
  optionalImplicit "S2KParams" 4 .octets])

def encryptedData : Ty := .struct none (.of [
  required "EType" 0 .int32, optionalSigned "KVNO" 1 (.ptr .uint32), required "Cipher" 2 .octets])

def paOTPRequest : Ty := .struct none (.of [
  implicit "Flags" 0 .flags, optionalImplicit "Nonce" 1 .octets, implicit "EncData" 2 encryptedData,
  optionalImplicit "HashAlg" 3 (.ptr algorithmIdentifier),
  optionalImplicit "IterationCount" 4 (.ptr .int32), optionalImplicit "OTPValue" 5 .octets,
  optionalImplicit "PIN" 6 (.ptr .utf8), optionalImplicit "Challenge" 7 .octets,
  optionalImplicit "Time" 8 (.ptr .time), optionalImplicit "Counter" 9 .octets,
  optionalImplicit "Format" 10 (.ptr .int32), optionalImplicit "TokenID" 11 .octets,
  optionalImplicit "AlgID" 12 (.ptr .utf8), optionalImplicit "Vendor" 13 (.ptr .utf8)])

def paOTPEncRequest : Ty := .struct none (.of [implicit "Nonce" 0 .octets])

def spakeSecondFactor : Ty :=
  .struct none (.of [required "Type" 0 .int32, optional "Data" 1 .octets])

def spakeSupport : Ty := .struct none (.of [required "Groups" 0 (.slice .int32)])

def spakeChallenge : Ty := .struct none (.of [
  required "Group" 0 .int32, required "PubKey" 1 .octets,
  required "Factors" 2 (.slice spakeSecondFactor)])

def spakeResponse : Ty := .struct none (.of [
  required "PubKey" 0 .octets, required "Factor" 1 encryptedData])

def paSPAKE : Ty := .struct none (.of [
  alternative "Support" 0 (.ptr spakeSupport), alternative "Challenge" 1 (.ptr spakeChallenge),
  alternative "Response" 2 (.ptr spakeResponse), alternative "EncData" 3 (.ptr encryptedData)])

def encryptionKey : Ty :=
  .struct none (.of [required "KeyType" 0 .int32, required "KeyValue" 1 .octets])

def changePasswdData : Ty := .struct none (.of [
  required "NewPassword" 0 .octets, optional "TargetName" 1 (.ptr principalName),
  optional "TargetRealm" 2 (.ptr .string)])

def ticket : Ty := .struct (some 1) (.of [
  required "TktVNO" 0 .int32, required "Realm" 1 .string, required "SName" 2 principalName,
  required "EncPart" 3 encryptedData])

def hostAddresses : Ty := .slice hostAddress

def transitedEncoding : Ty := .struct none (.of [
  required "TrType" 0 .int32, required "Contents" 1 .octets])

def encTicketPart : Ty := .struct (some 3) (.of [
  required "Flags" 0 .flags, required "Key" 1 encryptionKey, required "CRealm" 2 .string,
  required "CName" 3 principalName, required "Transited" 4 transitedEncoding,
  required "AuthTime" 5 .time, optional "StartTime" 6 (.ptr .time), required "EndTime" 7 .time,
  optional "RenewTill" 8 (.ptr .time), optional "CAddr" 9 hostAddresses,
  optional "AuthorizationData" 10 authorizationData])

def authenticator : Ty := .struct (some 2) (.of [
  required "AuthenticatorVNO" 0 .int32, required "CRealm" 1 .string,
    required "CName" 2 principalName,
  optional "Checksum" 3 (.ptr checksum), required "Cusec" 4 .int32, required "Ctime" 5 .time,
  optional "SubKey" 6 (.ptr encryptionKey), optional "SeqNumber" 7 (.ptr .uint32),
  optional "AuthorizationData" 8 authorizationData])

def methodData : Ty := .slice paData

def kdcReqBody : Ty := .struct none (.of [
  required "KDCOptions" 0 .flags, optional "CName" 1 (.ptr principalName),
    required "Realm" 2 .string,
  optional "SName" 3 (.ptr principalName), optional "From" 4 (.ptr .time), required "Till" 5 .time,
  optional "RTime" 6 (.ptr .time), required "Nonce" 7 .uint32, required "EType" 8 (.slice .int32),
  optional "Addresses" 9 hostAddresses, optional "EncAuthorizationData" 10 (.ptr encryptedData),
  optional "AdditionalTickets" 11 (.slice ticket)])

def kdcReqFields : Fields := .of [
  required "PVNO" 1 .int32, required "MsgType" 2 .int32, optional "PAData" 3 methodData,
  required "ReqBody" 4 kdcReqBody]

def kdcReq : Ty := .struct none kdcReqFields

def asReq : Ty := .struct (some 10) kdcReqFields

def tgsReq : Ty := .struct (some 12) kdcReqFields

def kdcRepFields : Fields := .of [
  required "PVNO" 0 .int32, required "MsgType" 1 .int32, optional "PAData" 2 methodData,
  required "CRealm" 3 .string, required "CName" 4 principalName, required "Ticket" 5 ticket,
  required "EncPart" 6 encryptedData]

def kdcRep : Ty := .struct none kdcRepFields

def asRep : Ty := .struct (some 11) kdcRepFields

def tgsRep : Ty := .struct (some 13) kdcRepFields

def lastReqEntry : Ty := .struct none (.of [required "LRType" 0 .int32, required "LRValue" 1 .time])

def lastReq : Ty := .slice lastReqEntry

def encKDCRepPartFields : Fields := .of [
  required "Key" 0 encryptionKey, required "LastReq" 1 lastReq, required "Nonce" 2 .uint32,
  optional "KeyExpiration" 3 (.ptr .time), required "Flags" 4 .flags, required "AuthTime" 5 .time,
  optional "StartTime" 6 (.ptr .time), required "EndTime" 7 .time,
    optional "RenewTill" 8 (.ptr .time),
  required "SRealm" 9 .string, required "SName" 10 principalName, optional "CAddr" 11 hostAddresses]

def encASRepPart : Ty := .struct (some 25) encKDCRepPartFields

def encTGSRepPart : Ty := .struct (some 26) encKDCRepPartFields

def apReq : Ty := .struct (some 14) (.of [
  required "PVNO" 0 .int32, required "MsgType" 1 .int32, required "APOptions" 2 .flags,
  required "Ticket" 3 ticket, required "Authenticator" 4 encryptedData])

def apRep : Ty := .struct (some 15) (.of [
  required "PVNO" 0 .int32, required "MsgType" 1 .int32, required "EncPart" 2 encryptedData])

def krbPriv : Ty := .struct (some 21) (.of [
  required "PVNO" 0 .int32, required "MsgType" 1 .int32, required "EncPart" 3 encryptedData])

def safeBodyFields : Fields := .of [
  required "UserData" 0 .octets, optional "Timestamp" 1 (.ptr .time),
    optional "Usec" 2 (.ptr .int32),
  optional "SeqNumber" 3 (.ptr .uint32), required "SAddress" 4 hostAddress,
  optional "RAddress" 5 (.ptr hostAddress)]

def safeBody : Ty := .struct none safeBodyFields

def krbSafe : Ty := .struct (some 20) (.of [
  required "PVNO" 0 .int32, required "MsgType" 1 .int32, required "SafeBody" 2 safeBody,
  required "Checksum" 3 checksum])

def encAPRepPart : Ty := .struct (some 27) (.of [
  required "Ctime" 0 .time, required "Cusec" 1 .int32, optional "SubKey" 2 (.ptr encryptionKey),
  optional "SeqNumber" 3 (.ptr .uint32)])

def encKRBPrivPart : Ty := .struct (some 28) safeBodyFields

def krbCred : Ty := .struct (some 22) (.of [
  required "PVNO" 0 .int32, required "MsgType" 1 .int32, required "Tickets" 2 (.slice ticket),
  required "EncPart" 3 encryptedData])

def krbCredInfo : Ty := .struct none (.of [
  required "Key" 0 encryptionKey, optional "Prealm" 1 (.ptr .string),
  optional "PName" 2 (.ptr principalName), optional "Flags" 3 (.ptr .flags),
  optional "AuthTime" 4 (.ptr .time), optional "StartTime" 5 (.ptr .time),
  optional "EndTime" 6 (.ptr .time), optional "RenewTill" 7 (.ptr .time),
  optional "SRealm" 8 (.ptr .string), optional "SName" 9 (.ptr principalName),
  optional "CAddr" 10 hostAddresses])

def encKrbCredPart : Ty := .struct (some 29) (.of [
  required "TicketInfo" 0 (.slice krbCredInfo), optional "Nonce" 1 (.ptr .uint32),
  optional "Timestamp" 2 (.ptr .time), optional "Usec" 3 (.ptr .int32),
  optional "SAddress" 4 (.ptr hostAddress), optional "RAddress" 5 (.ptr hostAddress)])

def krbError : Ty := .struct (some 30) (.of [
  required "PVNO" 0 .int32, required "MsgType" 1 .int32, optional "CTime" 2 (.ptr .time),
  optional "Cusec" 3 (.ptr .int32), required "STime" 4 .time, required "Susec" 5 .int32,
  required "ErrorCode" 6 .int32, optional "CRealm" 7 (.ptr .string),
  optional "CName" 8 (.ptr principalName), required "Realm" 9 .string,
  required "SName" 10 principalName, optional "EText" 11 (.ptr .string),
    optional "EData" 12 .octets])

def s4uUserID : Ty := .struct none (.of [
  required "Nonce" 0 .uint32, optional "CName" 1 (.ptr principalName), required "CRealm" 2 .string,
  optional "SubjectCert" 3 .octets, optional "Options" 4 (.ptr .flags)])

def paS4UX509User : Ty := .struct none (.of [
  required "UserID" 0 s4uUserID, required "Checksum" 1 checksum])

def paForUser : Ty := .struct none (.of [
  required "UserName" 0 principalName, required "UserRealm" 1 .string,
    required "Checksum" 2 checksum,
  required "AuthPackage" 3 .string])

def krbFastArmor : Ty := .struct none (.of [
  required "ArmorType" 0 .int32, required "ArmorValue" 1 .octets])

def krbFastArmoredReq : Ty := .struct none (.of [
  optional "Armor" 0 (.ptr krbFastArmor), required "ReqChecksum" 1 checksum,
  required "EncFastReq" 2 encryptedData])

def paFXFastRequest : Ty := .struct none (.of [alternative "ArmoredData" 0 krbFastArmoredReq])

def krbFastReq : Ty := .struct none (.of [
  required "FastOptions" 0 .flags, required "PAData" 1 methodData, required "ReqBody" 2 kdcReqBody])

def krbFastArmoredRep : Ty := .struct none (.of [required "EncFastRep" 0 encryptedData])

def paFXFastReply : Ty := .struct none (.of [alternative "ArmoredData" 0 krbFastArmoredRep])

def krbFastFinished : Ty := .struct none (.of [
  required "Timestamp" 0 .time, required "Usec" 1 .int32, required "CRealm" 2 .string,
  required "CName" 3 principalName, required "TicketChecksum" 4 checksum])

def krbFastResponse : Ty := .struct none (.of [
  required "PAData" 0 methodData, optional "StrengthenKey" 1 (.ptr encryptionKey),
  optional "Finished" 2 (.ptr krbFastFinished), required "Nonce" 3 .uint32])

def eTypeInfoEntry : Ty := .struct none (.of [
  required "EType" 0 .int32, optional "Salt" 1 (.ptr .octets)])

def eTypeInfo2Entry : Ty := .struct none (.of [
  required "EType" 0 .int32, optional "Salt" 1 (.ptr .string), optional "S2KParams" 2 .octets])

def pkAuthenticator : Ty := .struct none (.of [
  required "Cusec" 0 .int32, required "CTime" 1 .time, required "Nonce" 2 .int32,
  optional "PAChecksum" 3 .octets, optional "FreshnessToken" 4 .octets])

def authPack : Ty := .struct none (.of [
  required "PKAuthenticator" 0 pkAuthenticator, optional "ClientPublicValue" 1 .octets,
  optional "SupportedCMSTypes" 2 (.slice algorithmIdentifier), optional "ClientDHNonce" 3 .octets,
  optional "SupportedKDFs" 4 (.slice supportedKDF)])

def typedData : Ty := .slice typedDataEntry

def eTypeInfo : Ty := .slice eTypeInfoEntry

def eTypeInfo2 : Ty := .slice eTypeInfo2Entry

/-- Every type of the package. -/
def all : List Ty := [
  principalName, hostAddress, authorizationDataEntry, authorizationData, checksum, kdcIssued,
  verifierMAC, cammac, algorithmIdentifier, supportedKDF, paData, typedDataEntry, otpTokenInfo,
  paOTPChallenge, encryptedData, paOTPRequest, paOTPEncRequest, spakeSecondFactor, spakeSupport,
  spakeChallenge, spakeResponse, paSPAKE, encryptionKey, changePasswdData, ticket, hostAddresses,
  transitedEncoding, encTicketPart, authenticator, methodData, kdcReqBody, kdcReq, asReq, tgsReq,
  kdcRep, asRep, tgsRep, lastReqEntry, lastReq, encASRepPart, encTGSRepPart, apReq, apRep, krbPriv,
  safeBody, krbSafe, encAPRepPart, encKRBPrivPart, krbCred, krbCredInfo, encKrbCredPart, krbError,
  s4uUserID, paS4UX509User, paForUser, krbFastArmor, krbFastArmoredReq, paFXFastRequest, krbFastReq,
  krbFastArmoredRep, paFXFastReply, krbFastFinished, krbFastResponse, eTypeInfoEntry,
    eTypeInfo2Entry,
  pkAuthenticator, authPack, typedData, eTypeInfo, eTypeInfo2]

end Messages

end Kerberos.ASN1
