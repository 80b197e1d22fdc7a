import Kerberos.Lib.Map
import Kerberos.Lib.Text
import Kerberos.Spec.Database
import Kerberos.Spec.FileCache

/-!
# The KCM server

`KCMServer.dispatchPeer` of the package `ccache`: the caches of one namespace, and the requests of
its clients one after another. Cache names, cache UUIDs and credential UUIDs are all drawn from one
counter. Without a shared namespace there is one for every user.
-/

namespace Kerberos.KCM

open Words FileCache Binfmt

def kcmErrNotFound : Int32 := -1765328243
def kcmErrEnd : Int32 := -1765328242
def kcmErrNoFile : Int32 := -1765328189
def kcmErrInternal : Int32 := -1765328188

inductive Op
  | genNew | initializeCache | destroy | store | retrieve | getPrincipal | getCredUUIDList
  | getCredByUUID | removeCred | getCacheUUIDList | getCacheByUUID | getDefaultCache
  | setDefaultCache | getKDCOffset | setKDCOffset | getCredList | replace | other

def Op.ofCode : ℕ → Op
  | 3 => genNew
  | 4 => initializeCache
  | 5 => destroy
  | 6 => store
  | 7 => retrieve
  | 8 => getPrincipal
  | 9 => getCredUUIDList
  | 10 => getCredByUUID
  | 11 => removeCred
  | 18 => getCacheUUIDList
  | 19 => getCacheByUUID
  | 20 => getDefaultCache
  | 21 => setDefaultCache
  | 22 => getKDCOffset
  | 23 => setKDCOffset
  | 13001 => getCredList
  | 13002 => replace
  | _ => other

def Op.requiresExisting : Op → Bool
  | getPrincipal | getCredList | getCredUUIDList | getCredByUUID | retrieve | removeCred
  | getKDCOffset | destroy | setDefaultCache | setKDCOffset | store => true
  | _ => false

/-- `kcmServerCache`, with each credential beside its UUID, and the offset as its bits. -/
structure Cache where
  uuid : Bytes
  principal : Option Principal := none
  creds : List (Bytes × Bytes) := []
  offset : UInt32 := 0

structure Namespace where
  caches : GoMap Bytes Cache := ∅
  uuids : GoMap Bytes Bytes := ∅
  defaultName : Bytes := str "default"
  next : UInt64 := 0

structure Request where
  bytes : Bytes
  /-- The order in which a `range` runs through the map of UUIDs. -/
  order : List Bytes → List Bytes := id

def cstring (value : Bytes) : Bytes := value ++ [0]

def splitCString (value : Bytes) : Option (Bytes × Bytes) :=
  if 0 ∈ value then some (value.takeWhile (· ≠ 0), (value.dropWhile (· ≠ 0)).drop 1) else none

/-- A name that `GEN_NEW` makes. -/
def uniqueName (n : ℕ) : Bytes := str "unique" ++ Text.decimal n

/-- A value that fills its bytes. -/
def unmarshal {α : Type} (r : BinReader α) (data : Bytes) : Option α :=
  match r data with
  | .ok (value, []) => some value
  | _ => none

def replaceReader : BinReader (UInt32 × Principal × UInt32 × List Bytes) := do
  let offset ← u32
  let principal ← principalReader
  let count ← u32
  let creds ← sequence count 4 "invalid credential count" do
    let raw ← counted32
    Reader.check (unmarshal credentialReader raw).isSome "invalid credential"
    pure raw
  pure (offset, principal, count, creds)

/-! ## Match templates -/

def scClientPrincipal : UInt32 := 0x0001
def scServerPrincipal : UInt32 := 0x0002
def scSessionKey : UInt32 := 0x0004
def scTicket : UInt32 := 0x0008
def scSecondTicket : UInt32 := 0x0010
def scAuthData : UInt32 := 0x0020
def scAddresses : UInt32 := 0x0040
def scKnown : UInt32 :=
  scClientPrincipal ||| scServerPrincipal ||| scSessionKey ||| scTicket ||| scSecondTicket |||
    scAuthData ||| scAddresses

def kcmTCDontMatchRealm : UInt32 := (1 : UInt32) <<< 31
def kcmTCMatchKeyType : UInt32 := (1 : UInt32) <<< 30
def kcmTCMatchSrvName : UInt32 := (1 : UInt32) <<< 29
def kcmTCMatchFlagsExact : UInt32 := (1 : UInt32) <<< 28
def kcmTCMatchFlags : UInt32 := (1 : UInt32) <<< 27
def kcmTCMatchTimesExact : UInt32 := (1 : UInt32) <<< 26
def kcmTCMatchTimes : UInt32 := (1 : UInt32) <<< 25
def kcmTCMatchAuthData : UInt32 := (1 : UInt32) <<< 24
def kcmTCMatchSecond : UInt32 := (1 : UInt32) <<< 23
def kcmTCMatchSKey : UInt32 := (1 : UInt32) <<< 22

def hasBit (flags bit : UInt32) : Bool := flags &&& bit != 0

/-- A field that is there if the header has its bit. -/
def field {α : Type} (header bit : UInt32) (absent : α) (r : BinReader α) : BinReader α :=
  if hasBit header bit then r else pure absent

def matchReader : BinReader Credential := do
  let version ← u32
  let header ← u32
  Reader.check (version = 4 ∧ header &&& ~~~scKnown = 0) "kcm: malformed match credential"
  let client ← field header scClientPrincipal default principalReader
  let server ← field header scServerPrincipal default principalReader
  let (enctype, key) ← field header scSessionKey (0, []) do
    let enctype ← u16
    let key ← counted32
    pure (Int32.ofNat enctype.toNat, key)
  let authTime ← u32
  let startTime ← u32
  let endTime ← u32
  let renewTill ← u32
  let isSKey ← u8
  Reader.check (isSKey ≤ 1) "kcm: invalid match is_skey"
  let ticketFlags ← u32
  let addresses ← field header scAddresses [] addresses
  let authData ← field header scAuthData [] authData
  let ticket ← field header scTicket [] counted32
  let secondTicket ← field header scSecondTicket [] counted32
  pure { client, server, enctype, key, ticketFlags, authTime, startTime, endTime, renewTill
         addresses, authData, ticket, secondTicket, isSKey := isSKey != 0 }

def unmarshalMatchCredential : Bytes → Option Credential := unmarshal matchReader

/-- What the flag asks for holds. -/
def holdsFor (flags bit : UInt32) (holds : Bool) : Bool := !hasBit flags bit || holds

def credentialMatches (value tag : Credential) (flags : UInt32) : Bool :=
  (value.client.realm == tag.client.realm || hasBit flags kcmTCDontMatchRealm) &&
    value.client.components == tag.client.components &&
    (hasBit flags kcmTCMatchSrvName || value.server.realm == tag.server.realm) &&
    value.server.components == tag.server.components &&
    holdsFor flags kcmTCMatchKeyType (value.enctype == tag.enctype) &&
    holdsFor flags kcmTCMatchFlagsExact (value.ticketFlags == tag.ticketFlags) &&
    holdsFor flags kcmTCMatchFlags (value.ticketFlags &&& tag.ticketFlags == tag.ticketFlags) &&
    holdsFor flags kcmTCMatchTimesExact
      (value.authTime == tag.authTime && value.startTime == tag.startTime &&
      value.endTime == tag.endTime && value.renewTill == tag.renewTill) &&
    holdsFor flags kcmTCMatchTimes
      (decide (tag.authTime ≤ value.authTime ∧ tag.endTime ≤ value.endTime)) &&
    holdsFor flags kcmTCMatchSKey (value.isSKey == tag.isSKey) &&
    holdsFor flags kcmTCMatchSecond (value.secondTicket == tag.secondTicket) &&
    holdsFor flags kcmTCMatchAuthData (value.authData == tag.authData)

/-! ## Requests -/

namespace Namespace

variable (ns : Namespace)

def ensure (name : Bytes) : Namespace × Cache :=
  match ns.caches.lookup name with
  | some cache => (ns, cache)
  | none =>
    let next := ns.next + 1
    let uuid := List.replicate 8 0 ++ beBytes 8 next.toNat
    ({ ns with next, caches := ns.caches.insert name { uuid }, uuids := ns.uuids.insert uuid name },
      { uuid })

/-- A change through the pointer to the cache of that name. -/
def put (name : Bytes) (cache : Cache) : Namespace :=
  { ns with caches := ns.caches.insert name cache }

/-- New credentials, each with the UUID that `nextCredentialUUID` draws. -/
def identified (cache : Cache) (creds : List Bytes) : List (Bytes × Bytes) :=
  creds.mapIdx fun i raw =>
    (raw, cache.uuid.take 8 ++ beBytes 8 (ns.next + UInt64.ofNat (i + 1)).toNat)

def handle (name : Bytes) (cache : Cache) (rest : Bytes) : Op → Except Int32 (Namespace × Bytes)
  | .initializeCache => do
    let principal ← Except.ofOption kcmErrInternal (unmarshal principalReader rest)
    .ok (ns.put name { cache with principal := some principal, creds := [], offset := 0 }, [])
  | .destroy =>
    .ok ({ ns with
      caches := ns.caches.erase name, uuids := ns.uuids.erase cache.uuid
      defaultName := if ns.defaultName = name then str "default" else ns.defaultName }, [])
  | .getPrincipal => do
    let principal ← Except.ofOption kcmErrNoFile cache.principal
    let value ← (encodePrincipal principal).mapError fun _ => kcmErrInternal
    .ok (ns, value)
  | .store => do
    let _ ← Except.ofOption kcmErrInternal (unmarshal credentialReader rest)
    let creds := cache.creds ++ ns.identified cache [rest]
    .ok ({ ns.put name { cache with creds } with next := ns.next + 1 }, [])
  | .getCredList =>
    .ok (ns, beBytes 4 cache.creds.length ++
      cache.creds.flatMap fun cred => beBytes 4 cred.1.length ++ cred.1)
  | .getCredUUIDList => .ok (ns, cache.creds.flatMap Prod.snd)
  | .getCredByUUID => do
    Except.ensure (rest.length = 16) kcmErrInternal
    let cred ← Except.ofOption kcmErrEnd (cache.creds.find? (·.2 == rest))
    .ok (ns, cred.1)
  | .retrieve => do
    Except.ensure (8 ≤ rest.length) kcmErrInternal
    let tag ← Except.ofOption kcmErrInternal (unmarshalMatchCredential (rest.drop 4))
    let cred ← Except.ofOption kcmErrNotFound (cache.creds.find? (selected tag rest))
    .ok (ns, cred.1)
  | .removeCred => do
    Except.ensure (4 ≤ rest.length) kcmErrInternal
    let tag ← Except.ofOption kcmErrInternal (unmarshalMatchCredential (rest.drop 4))
    Except.ensure (cache.creds.any (selected tag rest)) kcmErrNotFound
    .ok (ns.put name { cache with creds := cache.creds.filter fun cred => !selected tag rest cred },
      [])
  | .setDefaultCache => .ok ({ ns with defaultName := name }, [])
  | .getKDCOffset => .ok (ns, beBytes 4 cache.offset.toNat)
  | .setKDCOffset => do
    Except.ensure (rest.length = 4) kcmErrInternal
    .ok (ns.put name { cache with offset := UInt32.ofNat (ofBE rest) }, [])
  | .replace => do
    let (offset, principal, count, creds) ← Except.ofOption kcmErrInternal
      (unmarshal replaceReader rest)
    let cache :=
      { cache with principal := some principal, offset, creds := ns.identified cache creds }
    .ok ({ ns.put name cache with next := ns.next + UInt64.ofNat count.toNat }, [])
  | _ => .error kcmErrInternal
where
  selected (tag : Credential) (rest : Bytes) (cred : Bytes × Bytes) : Bool :=
    (unmarshal credentialReader cred.1).any
      (credentialMatches · tag (UInt32.ofNat (ofBE (rest.take 4))))

/-- The operations on a cache that the request names. -/
def dispatchNamed (op : Op) (args : Bytes) : Namespace × Except Int32 Bytes :=
  match splitCString args with
  | none => (ns, .error kcmErrInternal)
  | some (name, rest) =>
    if op.requiresExisting ∧ ns.caches.lookup name = none then (ns, .error kcmErrNoFile)
    else
      -- a cache that is made here stays, whatever becomes of the request
      let (ns, cache) := ns.ensure name
      match ns.handle name cache rest op with
      | .ok (ns, payload) => (ns, .ok payload)
      | .error code => (ns, .error code)

def opOf (request : Bytes) : Op := Op.ofCode (ofBE ((request.drop 2).take 2))

def dispatchPeer (r : Request) : Namespace × Except Int32 Bytes :=
  let args := r.bytes.drop 4
  if r.bytes.length < 4 ∨ r.bytes.take 2 ≠ [2, 0] then (ns, .error kcmErrInternal)
  else match opOf r.bytes with
  | .getDefaultCache => (ns, .ok (cstring ns.defaultName))
  | .genNew =>
    let next := ns.next + 1
    (({ ns with next }.ensure (uniqueName next.toNat)).1, .ok (cstring (uniqueName next.toNat)))
  | .getCacheUUIDList => (ns, .ok (r.order ns.uuids.keys).flatten)
  | .getCacheByUUID =>
    if args.length ≠ 16 then (ns, .error kcmErrInternal)
    else (ns, (Except.ofOption kcmErrEnd (ns.uuids.lookup args)).map cstring)
  | op => ns.dispatchNamed op args

def Step (ns : Namespace) (r : Request) (ns' : Namespace) : Prop := ns' = (ns.dispatchPeer r).1

end Namespace

structure Server where
  sharedNamespace : Bool := false
  shared : Namespace := {}
  namespaces : GoMap UInt32 Namespace := ∅

namespace Server

variable (s : Server)

def namespaceOf (uid : UInt32) : Namespace :=
  if s.sharedNamespace then s.shared else (s.namespaces.lookup uid).getD {}

def serve (uid : UInt32) (r : Request) : Server × Except Int32 Bytes :=
  let (ns, reply) := (s.namespaceOf uid).dispatchPeer r
  (if s.sharedNamespace then { s with shared := ns }
    else { s with namespaces := s.namespaces.insert uid ns }, reply)

/-- The replies to the requests of the users, one after another. -/
def replies (s : Server) : List (UInt32 × Request) → List (UInt32 × Except Int32 Bytes)
  | [] => []
  | (uid, r) :: requests => (uid, (s.serve uid r).2) :: replies (s.serve uid r).1 requests

end Server

end Kerberos.KCM
