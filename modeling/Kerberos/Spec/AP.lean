import Kerberos.Spec.RCache
import Kerberos.Spec.Replay

/-!
# The acceptor

`VerifyAPReqWithOptions` of the package `ap`. The checks up to the authenticator
(`openAPReq`) depend on nothing but the request, the keytab and the clock. Behind them
come the sweep of the process-local replay cache, the freshness test, and the replay
test in the configured cache or in the local one.
-/

namespace Kerberos.AP

open RCache

/-- The packages around the acceptor. -/
structure Env where
  etype : Int32 → Option EType
  apReq : Bytes → Option APReq
  encTicketPart : Bytes → Option EncTicketPart
  authenticator : Bytes → Option Authenticator
  /-- `cammac.VerifyService`. -/
  verifyService : AuthorizationData → EncryptionKey → Except CammacError AuthorizationData
  sha256 : Bytes → Bytes

/-- What an error of the acceptor wraps. -/
inductive Cause
  | integrity
  | ticketInvalid
  | ticketNotYetValid
  | ticketExpired
  | clockSkew
  | replay
  | overflow
  /-- An error of another package, or none at all. -/
  | other
  deriving DecidableEq

/-- An error: its text up to the wrapped error, and that error. -/
structure Error where
  text : Bytes
  cause : Cause
  deriving DecidableEq

/-- `keytab.Entry`. -/
structure Entry where
  principal : Principal
  timestamp : ℤ
  kvno : UInt32
  enctype : Int32
  key : Bytes
  deriving DecidableEq

/-- `servicePrincipalEqual`: the name type does not count. -/
def servicePrincipalEqual (left right : Principal) : Bool :=
  left.realm == right.realm && left.components == right.components

/-- An entry for the ticket. -/
def entryMatches (ticket : TicketMsg) (entry : Entry) : Bool :=
  servicePrincipalEqual entry.principal (principalFromProtocol ticket.sname ticket.realm) &&
    entry.enctype == ticket.encPart.etype && ticket.encPart.kvno.all (entry.kvno == ·)

/-- `findServiceEntry`: the first of the matching entries of the highest version. -/
def findServiceEntry (keytab : List Entry) (ticket : TicketMsg) : Option Entry :=
  keytab.foldl (fun selected entry =>
    if entryMatches ticket entry && selected.all (fun s => decide (s.kvno < entry.kvno)) then
      some entry
    else selected) none

def ticketValid (part : EncTicketPart) (now skew : ℤ) : Except Cause Unit :=
  let skew := durAbs skew
  let start := (part.startTime.filter (·.present)).elim part.authTime.time (·.time)
  if now < start + durNeg skew then .error .ticketNotYetValid
  else if part.endTime.time + skew < now then .error .ticketExpired
  else .ok ()

/-- A request whose ticket and authenticator are decrypted and checked. -/
structure Opened where
  request : APReq
  part : EncTicketPart
  sessionEType : EType
  authenticator : Authenticator
  protectedAuthData : AuthorizationData

/-- Go on with a value, or fail. -/
def orError {α : Type} (o : Option α) (text : String) (cause : Cause) : Except Error α :=
  match o with
  | none => .error ⟨str text, cause⟩
  | some a => .ok a

variable (E : Env)

/-- The authorization data the service can trust; a ticket need not have any. -/
def protectedAuthData (part : EncTicketPart) (ticketKey : EncryptionKey) :
    Except Error AuthorizationData :=
  match E.verifyService part.authorizationData ticketKey with
  | .ok data => .ok data
  | .error .notFound => .ok []
  | .error _ => .error ⟨str "verify AP-REQ CAMMAC: ", .other⟩

/-- `verifyAPReqWithTicketKey` up to the sweep. -/
def openAPReq (request : APReq) (ticketKey : EncryptionKey) (now skew : ℤ) :
    Except Error Opened := do
  let etype ← orError (E.etype ticketKey.keyType) "" .other
  let ticketPlain ← orError (etype.decrypt ticketKey.keyValue 2 request.ticket.encPart.cipher)
    "verify AP-REQ ticket: " .other
  let part ← orError (E.encTicketPart ticketPlain) "verify AP-REQ ticket: " .integrity
  let protectedAuthData ← protectedAuthData E part ticketKey
  let _ ← orError (guard (!has part.flags Ticket.Invalid)) "verify AP-REQ ticket: " .ticketInvalid
  let _ ← (ticketValid part now skew).mapError fun cause => ⟨str "verify AP-REQ ticket: ", cause⟩
  let _ ← orError (guard (request.authenticator.etype = part.key.keyType))
    "verify AP-REQ authenticator: " .integrity
  let sessionEType ← orError (E.etype part.key.keyType) "" .other
  let authPlain ← orError (sessionEType.decrypt part.key.keyValue 11 request.authenticator.cipher)
    "verify AP-REQ authenticator: " .other
  let authenticator ← orError (E.authenticator authPlain) "verify AP-REQ authenticator: " .integrity
  let _ ← orError
    (guard (authenticator.authenticatorVNO == 5 && authenticator.crealm == part.crealm &&
      sameProtocolPrincipal authenticator.cname part.cname))
    "verify AP-REQ client principal mismatch" .other
  .ok { request, part, sessionEType, authenticator, protectedAuthData }

/-- The process-local cache, `replayCache`. -/
structure LocalCache where
  entries : GoMap Bytes ℤ
  lastSweep : ℤ
  sweepCount : ℕ

/-- The entries whose time is within the skew. -/
def freshEntries (now skew : ℤ) (entries : GoMap Bytes ℤ) : GoMap Bytes ℤ :=
  entries.keep fun _ ctime => withinSkew skew now ctime

/-- `sweepReplayCache`: not twice in a second, and not unless entries were added. -/
def sweepReplayCache (now skew : ℤ) (c : LocalCache) : LocalCache :=
  if c.lastSweep ≠ zeroTime ∧ timeSub now c.lastSweep < second then c
  else if c.lastSweep ≠ zeroTime ∧ c.entries.entries.length ≤ c.sweepCount then c
  else
    let entries := freshEntries now skew c.entries
    ⟨entries, now, entries.entries.length⟩

/-- What lasts between calls: the process-local cache, and the cache that calls may be
configured with. -/
structure State where
  localCache : LocalCache
  cache : Cache

/-- `VerifiedAPReq`. -/
structure Verified where
  client : Principal
  server : Principal
  sessionKey : EncryptionKey
  flags : Flags
  endTime : KerberosTime
  authenticatorTime : ℤ
  cusec : Int32
  subKey : Option EncryptionKey
  seqNumber : Option UInt32
  apOptions : Flags
  checksum : Option Checksum
  authenticatorAuthorizationData : AuthorizationData
  authorizationData : AuthorizationData

def Opened.verified (o : Opened) : Verified where
  client := principalFromProtocol o.authenticator.cname o.authenticator.crealm
  server := principalFromProtocol o.request.ticket.sname o.request.ticket.realm
  sessionKey := o.part.key
  flags := o.part.flags
  endTime := o.part.endTime
  authenticatorTime := o.authenticator.ctime.time
  cusec := o.authenticator.cusec
  subKey := o.authenticator.subKey
  seqNumber := o.authenticator.seqNumber
  apOptions := o.request.apOptions
  checksum := o.authenticator.checksum
  authenticatorAuthorizationData := o.authenticator.authorizationData
  authorizationData := o.protectedAuthData

/-- The tag of a request in the configured cache. -/
def Opened.tag (o : Opened) : Bytes :=
  tagFromCiphertext o.request.authenticator.cipher o.sessionEType.checksumSize

/-- The key of a request in the local cache. -/
def localKey (cipher : Bytes) : Bytes := hexEncode (E.sha256 cipher)

/-- The replay test in the configured cache. -/
def testPersistent (random : Bytes) (o : Opened) (skew : ℤ) (cache : Cache) :
    Except Error Unit × Cache :=
  match cache.store random o.tag o.authenticator.ctime.time skew with
  | (.ok _, cache) => (.ok (), cache)
  | (.error .replay, cache) => (.error ⟨str "verify AP-REQ: ", .replay⟩, cache)
  | (.error .overflow, cache) => (.error ⟨str "verify AP-REQ replay cache: ", .overflow⟩, cache)

/-- The replay test in the local cache. -/
def testLocal (o : Opened) (c : LocalCache) : Except Error Unit × LocalCache :=
  let key := localKey E o.request.authenticator.cipher
  if (c.entries.lookup key).isSome then (.error ⟨str "verify AP-REQ: ", .replay⟩, c)
  else (.ok (), { c with entries := c.entries.insert key o.authenticator.ctime.time })

/-- `verifyAPReqWithTicketKey` from the sweep on; `persistent` says that the call is
configured with the cache. -/
def testReplay (random : Bytes) (persistent : Bool) (o : Opened) (now skew : ℤ) (st : State) :
    Except Error Unit × State :=
  let skew := durAbs skew
  let swept := sweepReplayCache now skew st.localCache
  if !withinSkew skew now o.authenticator.ctime.time then
    (.error ⟨str "verify AP-REQ authenticator: ", .clockSkew⟩, { st with localCache := swept })
  else if persistent then
    let tested := testPersistent random o skew st.cache
    (tested.1, ⟨swept, tested.2⟩)
  else
    let tested := testLocal E o swept
    (tested.1, ⟨tested.2, st.cache⟩)

/-- `VerifyAPReqWithOptions` up to the sweep. -/
def readAPReq (keytab : List Entry) (der : Bytes) (now skew : ℤ) : Except Error Opened := do
  let request ← orError (E.apReq der) "verify AP-REQ: " .other
  let _ ← orError (guard (request.pvno = 5 ∧ request.msgType = 14))
    "verify AP-REQ: unexpected message" .other
  let entry ← orError (findServiceEntry keytab request.ticket)
    "verify AP-REQ: service key not found" .other
  openAPReq E request ⟨entry.enctype, entry.key⟩ now skew

/-- `VerifyAPReqWithOptions`: the answer, and the state it leaves. -/
def verifyAPReqWithOptions (random : Bytes) (persistent : Bool) (keytab : List Entry)
    (der : Bytes) (now skew : ℤ) (st : State) : Except Error Verified × State :=
  match readAPReq E keytab der now skew with
  | .error e => (.error e, st)
  | .ok o =>
    let tested := testReplay E random persistent o now skew st
    (tested.1.map fun _ => o.verified, tested.2)

/-! ## Runs -/

/-- An encrypted authenticator, and the time in it. -/
structure EncAuthenticator where
  etype : Int32
  cipher : Bytes
  ctime : ℤ
  deriving DecidableEq

def Opened.encAuthenticator (o : Opened) : EncAuthenticator :=
  ⟨o.request.authenticator.etype, o.request.authenticator.cipher, o.authenticator.ctime.time⟩

/-- A call: its arguments but for the skew, the time it is made at, and the random bytes
it meets. -/
structure Call where
  random : Bytes
  persistent : Bool
  keytab : List Entry
  der : Bytes
  now : ℤ

/-- The acceptor and what it has accepted so far in calls with the cache. -/
structure World where
  clock : ℤ
  state : State
  accepted : List EncAuthenticator

/-- The call at this state reads the request `o`. -/
def Call.reads (skew : ℤ) (c : Call) (o : Opened) : Prop :=
  readAPReq E c.keytab c.der c.now skew = .ok o

/-- The answer to a call. -/
def Call.answer (skew : ℤ) (w : World) (c : Call) : Except Error Verified :=
  (verifyAPReqWithOptions E c.random c.persistent c.keytab c.der c.now skew w.state).1

/-- What has been accepted behind a call. -/
def Call.accepted (skew : ℤ) (w : World) (c : Call) : List EncAuthenticator :=
  match readAPReq E c.keytab c.der c.now skew, c.answer E skew w with
  | .ok o, .ok _ => if c.persistent then o.encAuthenticator :: w.accepted else w.accepted
  | _, _ => w.accepted

/-- The world behind a call. -/
def World.next (skew : ℤ) (w : World) (c : Call) : World where
  clock := c.now
  state := (verifyAPReqWithOptions E c.random c.persistent c.keytab c.der c.now skew w.state).2
  accepted := c.accepted E skew w

/-- One call. The clock does not run back. -/
def Step (skew : ℤ) (w : World) (c : Call) (w' : World) : Prop :=
  w.clock ≤ c.now ∧ w' = w.next E skew c

end Kerberos.AP
