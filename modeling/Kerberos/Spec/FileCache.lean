import Kerberos.Spec.Binfmt

/-!
# FILE credential caches

`Read` and `Write` of the package `ccache`: a version, a header of tagged fields, of which only the
time offset is known, the default principal, and credentials up to the end of the file.
-/

namespace Kerberos.FileCache

open Binfmt Words

structure Header where
  timeOffset : Int32 := 0
  usec : Int32 := 0
  deriving DecidableEq

/-- `Address` and `AuthData`. -/
structure Typed where
  type : UInt16
  data : Bytes
  deriving DecidableEq

structure Credential where
  client : Principal
  server : Principal
  enctype : Int32
  key : Bytes
  ticketFlags : UInt32
  authTime : UInt32
  startTime : UInt32
  endTime : UInt32
  renewTill : UInt32
  isSKey : Bool
  addresses : List Typed
  authData : List Typed
  ticket : Bytes
  secondTicket : Bytes
  deriving DecidableEq

structure Cache where
  header : Header
  defaultPrincipal : Principal
  credentials : List Credential
  deriving DecidableEq

def maxCacheInput : ℕ := 64 * 2 ^ 20

def version : UInt16 := 0x0504

/-! ## Writing -/

/-- A field of the header. -/
def encodeTag (tag : UInt16) (value : Bytes) : Bytes :=
  beBytes 2 tag.toNat ++ (beBytes 2 value.length ++ value)

/-- The field of the time offset. -/
def timeField (header : Header) : Bytes :=
  encodeTag 1 (beBytes 4 header.timeOffset.toUInt32.toNat ++ beBytes 4 header.usec.toUInt32.toNat)

def encodePrincipal (p : Principal) : Except String Bytes := do
  Except.ensure (p.realm.length < 2 ^ 32) "realm is too long"
  Except.ensure (p.components.length < 2 ^ 32) "too many principal components"
  let realm ← writeCounted32 p.realm
  let components ← p.components.mapM writeCounted32
  .ok (beBytes 4 p.nameType.toUInt32.toNat ++
    (beBytes 4 p.components.length ++ (realm ++ components.flatten)))

def encodeTyped (value : Typed) : Except String Bytes := do
  let data ← writeCounted32 value.data
  .ok (beBytes 2 value.type.toNat ++ data)

def writeTyped (tooMany : String) (values : List Typed) : Except String Bytes := do
  Except.ensure (values.length < 2 ^ 32) tooMany
  let encoded ← values.mapM encodeTyped
  .ok (beBytes 4 values.length ++ encoded.flatten)

def writeAddresses : List Typed → Except String Bytes := writeTyped "too many addresses"

def writeAuthData : List Typed → Except String Bytes := writeTyped "too many authdata entries"

def encodeCredential (c : Credential) : Except String Bytes := do
  let client ← encodePrincipal c.client
  let server ← encodePrincipal c.server
  Except.ensure (0 ≤ c.enctype.toInt ∧ c.enctype.toInt < 2 ^ 16) "enctype out of range"
  let key ← writeCounted32 c.key
  let addresses ← writeAddresses c.addresses
  let authData ← writeAuthData c.authData
  let ticket ← writeCounted32 c.ticket
  let secondTicket ← writeCounted32 c.secondTicket
  .ok
    (client ++ (server ++ (beBytes 2 c.enctype.toInt.toNat ++ (key ++ (beBytes 4 c.authTime.toNat ++
    (beBytes 4 c.startTime.toNat ++ (beBytes 4 c.endTime.toNat ++ (beBytes 4 c.renewTill.toNat ++
      (beBytes 1 c.isSKey.toNat ++ (beBytes 4 c.ticketFlags.toNat ++
        (addresses ++ (authData ++ (ticket ++ secondTicket)))))))))))))

/-- The default principal and the credentials. -/
def writeBody (cache : Cache) : Except String Bytes := do
  let principal ← (encodePrincipal cache.defaultPrincipal).within "write ccache default principal: "
  let credentials ← cache.credentials.mapM fun c =>
    (encodeCredential c).within "write ccache credential: "
  .ok (principal ++ credentials.flatten)

/-- A file with any fields in its header. -/
def fileOf (header body : Bytes) : Bytes :=
  beBytes 2 version.toNat ++ (beBytes 2 header.length ++ (header ++ body))

def write (cache : Cache) : Except String Bytes := do
  let body ← writeBody cache
  .ok (fileOf (timeField cache.header) body)

/-! ## Reading -/

/-- A sequence of so many elements, each of at least `size` bytes. -/
def sequence {α : Type} (count : UInt32) (size : ℕ) (invalid : String) (r : BinReader α) :
    BinReader (List α) := do
  let remaining ← get
  Reader.check (count.toNat ≤ remaining.length / size) invalid
  Reader.many count.toNat r

def principalReader : BinReader Principal := do
  let nameType ← u32
  let count ← u32
  let realm ← counted32
  let components ← sequence count 4 "invalid principal component count" counted32
  pure ⟨realm, nameType.toInt32, components⟩

def typedReader : BinReader Typed := do
  let type ← u16
  let data ← counted32
  pure ⟨type, data⟩

def typedList (invalid : String) : BinReader (List Typed) := do
  let count ← u32
  sequence count 6 invalid typedReader

def addresses : BinReader (List Typed) := typedList "invalid address count"

def authData : BinReader (List Typed) := typedList "invalid authdata count"

def credentialReader : BinReader Credential := do
  let client ← principalReader
  let server ← principalReader
  let enctype ← u16
  let key ← counted32
  let authTime ← u32
  let startTime ← u32
  let endTime ← u32
  let renewTill ← u32
  let isSKey ← u8
  Reader.check (isSKey ≤ 1) "invalid is_skey value"
  let ticketFlags ← u32
  let addresses ← addresses
  let authData ← authData
  let ticket ← counted32
  let secondTicket ← counted32
  pure { client, server, key, ticketFlags, authTime, startTime, endTime, renewTill, addresses
         authData, ticket, secondTicket
         enctype := Int32.ofNat enctype.toNat, isSKey := isSKey != 0 }

def tagReader : BinReader (UInt16 × Bytes) := do
  let tag ← u16
  let length ← u16
  let value ← bytes length.toNat
  pure (tag, value)

def parseHeader : ℕ → Header → Bytes → Except String Header
  | 0, header, _ => .ok header
  | fuel + 1, header, data =>
    if data = [] then .ok header
    else do
      let (field, rest) ← tagReader data
      if field.1 = 1 then do
        Except.ensure (field.2.length = 8) "invalid time offset field length"
        parseHeader fuel ⟨(UInt32.ofNat (ofBE (field.2.take 4))).toInt32,
          (UInt32.ofNat (ofBE (field.2.drop 4))).toInt32⟩ rest
      else parseHeader fuel header rest

/-- The loop of `Read`; every credential takes a byte at least. -/
def readCredentials : ℕ → Bytes → Except String (List Credential)
  | 0, _ => .ok []
  | fuel + 1, data =>
    if data = [] then .ok []
    else do
      let (credential, rest) ← (credentialReader data).within "read ccache credential: "
      let credentials ← readCredentials fuel rest
      .ok (credential :: credentials)

def read (data : Bytes) : Except String Cache := do
  Except.ensure (data.length ≤ maxCacheInput) "read ccache: input too large"
  let (found, data) ← (u16 data).within "read ccache version: "
  Except.ensure (found = version) "read ccache: unsupported version"
  let (headerLength, data) ← (u16 data).within "read ccache header length: "
  let (fields, data) ← (bytes headerLength.toNat data).within "read ccache header: "
  let header ← (parseHeader fields.length {} fields).within "read ccache header: "
  let (defaultPrincipal, data) ← (principalReader data).within "read ccache default principal: "
  let credentials ← readCredentials data.length data
  .ok { header, defaultPrincipal, credentials }

end Kerberos.FileCache
