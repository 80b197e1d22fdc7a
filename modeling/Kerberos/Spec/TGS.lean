import Kerberos.Spec.AdmitTGS

/-!
# `handleTGSReqCore`

The second half of the TGS handler, stage by stage (`grantTGS`), and the whole of
it (`handleTGSReqCore`): admission, the replay test, the grant. A stage that
edits the presented ticket returns it.
-/

namespace Kerberos

/-- The options that need a flag of the presented ticket. -/
def checkFlagOptions (options : Flags) (part : EncTicketPart) (fail : ℤ → ErrorReply) :
    Handled Unit := do
  require (!has options KDC.Postdated || has options KDC.AllowPostdate) (fail Err.CannotPostdate)
  require (!has options (KDC.AllowPostdate ||| KDC.Postdated) || has part.flags Ticket.MayPostdate)
    (fail Err.BadOption)
  require (!has options KDC.Forwarded || has part.flags Ticket.Forwardable) (fail Err.BadOption)
  require (!has options KDC.Proxy || has part.flags Ticket.Proxiable) (fail Err.BadOption)

/-- The service a ticket is issued for, before aliases: that of the presented ticket
for RENEW and VALIDATE, a referral for another realm's service. -/
def targetService (s : Server) (a : Admission) (fail : ℤ → ErrorReply) : Handled Principal :=
  let options := a.request.reqBody.kdcOptions
  if has options (KDC.Renew ||| KDC.Validate) then
    .ok (principalFromProtocol a.header.apRequest.ticket.sname a.header.apRequest.ticket.realm)
  else if a.service.realm ≠ s.realm then do
    require
      (s.referralAllowed a.service (has options KDC.Canonicalize) (has options KDC.EncTktInSkey))
      (fail Err.ServiceUnknown)
    .ok ⟨s.realm, NTSrvInstance, [str "krbtgt", a.request.reqBody.realm]⟩
  else .ok a.service

/-- The service's record, under its name or behind an alias. -/
def findService (s : Server) (options : Flags) (name : Principal) (fail : ℤ → ErrorReply) :
    Handled (Principal × PrincipalRecord) :=
  match s.db.lookup name with
  | .error _ => .error (.reply (fail Err.Generic))
  | .ok (some record) => .ok (name, record)
  | .ok none =>
    if has options (KDC.Renew ||| KDC.Validate) then .error (.reply (fail Err.SPrincipal))
    else
      match s.lookupAlias name with
      | .error _ => .error (.reply (fail Err.Generic))
      | .ok none => .error (.reply (fail Err.SPrincipal))
      | .ok (some (record, canonicalName)) =>
        .ok (if has options KDC.Canonicalize then canonicalName else name, record)

/-- The checks on the service's record. -/
def checkService (now : ℤ) (a : Admission) (record : PrincipalRecord) (fail : ℤ → ErrorReply) :
    Handled Unit := do
  let options := a.request.reqBody.kdcOptions
  require (!Server.expired now record) (fail Err.ServiceExpired)
  require (!has record.flags KDB.DisallowAllTickets) (fail Err.SPrincipal)
  require (!has record.flags KDB.DisallowServer || has options KDC.EncTktInSkey)
    (fail Err.MustUseUser2User)
  require (!has options KDC.Renewable || !has record.flags KDB.DisallowRenewable) (fail Err.Policy)
  require (!has options KDC.AllowPostdate || !has record.flags KDB.DisallowPostdated)
    (fail Err.CannotPostdate)
  require (!has options KDC.EncTktInSkey || !has record.flags KDB.DisallowDupSkey) (fail Err.Policy)
  require (!has record.flags KDB.DisallowTGTBased ||
    a.header.apRequest.ticket.sname.nameString.head? != some (str "krbtgt")) (fail Err.Policy)
  require (!has record.flags KDB.RequiresHWAuth || has a.part.flags Ticket.HWAuthent)
    (fail Err.Generic)
  require (!has record.flags KDB.RequiresPreAuth || has a.part.flags Ticket.PreAuthent)
    (fail Err.Generic)

/-- The enctype of a keyed checksum type. -/
def checksumEType (checksumType : Int32) : Option Int32 :=
  if checksumType = 15 then some 17 else if checksumType = 16 then some 18
  else if checksumType = 19 then some 19 else if checksumType = 20 then some 20
  else if checksumType = 17 then some 25 else if checksumType = 18 then some 26 else none

variable (E : Env)

def verifyS4UChecksum (key : Bytes) (checksumType : Int32) (usage : ℕ)
    (data expected : Bytes) : Bool :=
  if checksumType = -138 then decide (usage = 17) &&
    E.verifyPAForUserChecksum key usage data expected
  else ((checksumEType checksumType).bind E.etype).any fun etype =>
    etype.verifyChecksum key usage data expected

def makeS4UChecksum (key : Bytes) (checksumType : Int32) (usage : ℕ) (data : Bytes) :
    Option Bytes := do
  (← (checksumEType checksumType).bind E.etype).checksum key usage data

/-- The bytes PA-FOR-USER signs. -/
def forUserInput (value : PAForUser) : Bytes :=
  let t := value.userName.nameType.toUInt32.toNat
  [UInt8.ofNat t, UInt8.ofNat (t / 256), UInt8.ofNat (t / 65536), UInt8.ofNat (t / 16777216)] ++
    value.userName.nameString.flatten ++ value.userRealm ++ value.authPackage

/-- The user a protocol transition asks for, and the padata that answers it. -/
def readS4U (a : Admission) (fail : ℤ → ErrorReply) :
    Handled (Option Principal × Option PAData) :=
  match findPA a.request.paData 130 with
  | some pa => do
    let value ← orFail ((E.s4uX509User pa.paDataValue).filter fun v =>
        v.userID.crealm != [] && v.userID.nonce == a.request.reqBody.nonce) (fail Err.BadIntegrity)
    let cname ← orFail (value.userID.cname.filter fun n => n.nameString != [])
      (fail Err.BadIntegrity)
    let userID := (E.fieldContent pa.paDataValue [0]).getD (E.marshalUserID value.userID)
    let key := a.header.authenticator.subKey.getD a.part.key
    require (verifyS4UChecksum E key.keyValue value.checksum.checksumType 26 userID
      value.checksum.checksum) (fail Err.BadIntegrity)
    let checksum ← orFail (makeS4UChecksum E key.keyValue value.checksum.checksumType 27 userID)
      (fail Err.BadIntegrity)
    .ok (some (principalFromProtocol cname value.userID.crealm), some ⟨130, E.marshalS4UX509User
      { userID := value.userID, checksum := ⟨value.checksum.checksumType, checksum⟩ }⟩)
  | none =>
    match findPA a.request.paData 129 with
    | none => .ok (none, none)
    | some pa => do
      let value ← orFail ((E.forUser pa.paDataValue).filter fun v =>
          v.userRealm != [] && v.userName.nameString != [] && v.authPackage == str "Kerberos")
        (fail Err.BadIntegrity)
      let _ ← orFail (E.etype a.part.key.keyType) (fail Err.BadIntegrity)
      require (if value.checksum.checksumType = -138
        then E.verifyPAForUserChecksum a.part.key.keyValue 17 (forUserInput value)
          value.checksum.checksum
        else verifyS4UChecksum E a.part.key.keyValue value.checksum.checksumType 17
          (forUserInput value) value.checksum.checksum) (fail Err.BadIntegrity)
      .ok (some (principalFromProtocol value.userName value.userRealm), none)

/-- `validateS4UClient`: the code for an account that may not be impersonated. -/
def validateS4UClient (now : ℤ) (client : PrincipalRecord) : Option ℤ :=
  if Server.expired now client then some Err.NameExpired
  else if has client.flags KDB.DisallowAllTickets then some Err.ClientRevoked
  else none

/-- S4U2Self: the impersonated user, and the presented ticket without FORWARDABLE
unless the service may delegate. -/
def s4u2Self (s : Server) (now : ℤ) (a : Admission) (serviceName : Principal)
    (user : Option Principal) (fail : ℤ → ErrorReply) :
    Handled (Option Principal × EncTicketPart) :=
  match user with
  | none => .ok (none, a.part)
  | some user => do
    let requester := principalFromProtocol a.part.cname a.part.crealm
    require (serviceName.display == requester.display &&
      !has a.request.reqBody.kdcOptions KDC.CNameInAddlTkt) (fail Err.BadOption)
    require (user.realm == s.realm) (fail Err.CPrincipal)
    let record ← s.lookupOr fail user Err.CPrincipal
    require (record.name.components != []) (fail Err.CPrincipal)
    unlessError ((validateS4UClient now record).map fail)
    let delegate := s.checkAllowedToDelegate.any fun hook => hook none requester none
    .ok (some user, if delegate then a.part
      else { a.part with flags := clear a.part.flags Ticket.Forwardable })

/-- What constrained delegation takes from the evidence ticket. -/
structure Delegation where
  client : Principal
  evidenceServer : Principal
  verifyKey : Key
  evidencePart : EncTicketPart
  elements : Option AuthorizationData

/-- The elements of the evidence ticket's CAMMAC, if it has one; `inherited` are those
of the presented ticket. -/
def evidenceElements (part : EncTicketPart) (kdcKey : EncryptionKey)
    (inherited : Option AuthorizationData) (fail : ℤ → ErrorReply) :
    Handled (Option AuthorizationData) :=
  match E.verifyKDC part.authorizationData part kdcKey with
  | .error .notFound => .ok inherited
  | .error _ => .error (.reply (fail Err.BadIntegrity))
  | .ok () =>
    (orFail (E.protectedElements part.authorizationData).toOption (fail Err.BadIntegrity)).map some

/-- S4U2Proxy: the evidence ticket is opened and its client authorized. -/
def s4u2Proxy (s : Server) (clk : Clock) (a : Admission) (serviceName : Principal)
    (fail : ℤ → ErrorReply) : Handled Delegation := do
  let options := a.request.reqBody.kdcOptions
  let requester := principalFromProtocol a.part.cname a.part.crealm
  let hook ← orFail s.checkAllowedToDelegate (fail Err.BadOption)
  require (a.request.reqBody.additionalTickets.length == 1 && !has options (KDC.Renew |||
    KDC.Validate ||| KDC.Forwarded ||| KDC.Proxy ||| KDC.EncTktInSkey)) (fail Err.BadOption)
  require (serviceName.components.head? != some (str "krbtgt")) (fail Err.Policy)
  let evidence ← deref a.request.reqBody.additionalTickets.head?
  let requesterRecord ← orFail ((s.db.lookup requester).toOption.bind id) (fail Err.Policy)
  let (key, _, part) ← openTicket E requesterRecord evidence fail Err.BadIntegrity
  let evidencePart ← orFail (part.filter fun p => evidence.realm == requester.realm &&
    sameProtocolPrincipal evidence.sname (protocolPrincipal requester) &&
      has p.flags Ticket.Forwardable) (fail Err.BadOption)
  unlessError ((s.ticketValidity (clk .evidence) evidencePart).map fail)
  let kdcKey : EncryptionKey := (s.freshnessKey E []).elim ⟨0, []⟩ fun k => ⟨k.enctype, k.key⟩
  let elements ← evidenceElements E evidencePart kdcKey a.elements fail
  let privKey ← orFail (s.pacPrivsvrKey E) (fail Err.BadIntegrity)
  let clientName ← orReply (E.pacClient evidencePart key privKey) fun err =>
    fail (if err = .notFound then Err.BadOption else Err.BadIntegrity)
  let client ← orFail (parsePrincipal clientName).toOption (fail Err.BadIntegrity)
  let clientRecord ← orFail (s.db.lookup client).toOption (fail Err.Generic)
  unlessError ((clientRecord.bind (validateS4UClient (clk .evidenceClient))).map fail)
  require (hook (some client) requester (some serviceName)) (fail Err.BadOption)
  .ok { client, evidenceServer := principalFromProtocol evidence.sname evidence.realm
        verifyKey := key, evidencePart, elements }

/-- The presented ticket with the flags, and the authorization data if any, of the
evidence ticket. -/
def delegatedPart (part evidencePart : EncTicketPart) : EncTicketPart :=
  { part with
    flags := evidencePart.flags
    authorizationData := if evidencePart.authorizationData = [] then part.authorizationData
      else evidencePart.authorizationData }

/-- A record under its name or behind an alias. -/
def Server.lookupOrAlias (s : Server) (name : Principal) : Except Unit (Option PrincipalRecord) :=
  match s.db.lookup name with
  | .error _ => .error ()
  | .ok (some record) => .ok (some record)
  | .ok none => (s.lookupAlias name).map fun found => found.map Prod.fst

/-- User-to-user: the session key of the second ticket. -/
def userToUser (s : Server) (clk : Clock) (a : Admission) (serviceRecord : PrincipalRecord)
    (fail : ℤ → ErrorReply) : Handled Key := do
  let ticket ← deref a.request.reqBody.additionalTickets.head?
  require (ticket.realm == s.realm && ticket.sname == protocolPrincipal (krbtgt s.realm))
    (fail Err.Policy)
  let localTGT ← orFail ((s.db.lookup (krbtgt s.realm)).toOption.bind id) (fail Err.Policy)
  let (_, _, part) ← openTicket E localTGT ticket fail Err.ETypeNoSupp
  let part ← orFail part (fail Err.BadIntegrity)
  unlessError ((s.ticketValidity (clk .second) part).map fail)
  let client := principalFromProtocol part.cname part.crealm
  let found ← orReply (s.lookupOrAlias client) fun _ => fail Err.Policy
  let _ ← orFail (found.filter fun r => samePrincipalIdentity r.name serviceRecord.name)
    (fail Err.ServerNoMatch)
  require ((E.etype part.key.keyType).isSome && part.key.keyValue != []) (fail Err.ETypeNoSupp)
  .ok ⟨part.key.keyType, 0, part.key.keyValue, []⟩

/-- FORWARDED: only a ticket-granting ticket of the requested realm is forwarded. -/
def forwardPart (a : Admission) (serviceName : Principal) (part : EncTicketPart)
    (fail : ℤ → ErrorReply) : Handled EncTicketPart :=
  if has a.request.reqBody.kdcOptions KDC.Forwarded then do
    require (decide (serviceName.components = [str "krbtgt", a.request.reqBody.realm]) &&
      has part.flags Ticket.Forwardable) (fail Err.BadOption)
    .ok { part with flags := part.flags ||| Ticket.Forwarded }
  else .ok part

/-- The session enctype and the service's key. -/
def grantKeys (s : Server) (a : Admission) (serviceRecord : PrincipalRecord) (u2u : Option Key)
    (fail : ℤ → ErrorReply) : Handled (Int32 × Key) :=
  match u2u, selectServiceKey a.request.reqBody.etype serviceRecord with
  | none, none => .error (.reply (fail Err.ETypeNoSupp))
  | none, some (etypeID, key) => .ok (etypeID, key)
  | some second, selected =>
    if selected.isNone && s.enablePAC then .error (.reply (fail Err.ETypeNoSupp))
    else
      let (etypeID, key) := selected.getD (0, ⟨0, 0, [], []⟩)
      .ok (if a.request.reqBody.etype.contains second.enctype then second.enctype else etypeID, key)

/-- The ticket a grant is made from, and for whom: through protocol transition,
constrained delegation, user-to-user and forwarding. -/
structure Basis where
  part : EncTicketPart
  issuedClient : Option Principal
  replyPA : Option PAData
  delegation : Option Delegation
  u2uTicketKey : Option Key

def grantBasis (s : Server) (clk : Clock) (a : Admission) (serviceName : Principal)
    (serviceRecord : PrincipalRecord) (fail : ℤ → ErrorReply) : Handled Basis := do
  let options := a.request.reqBody.kdcOptions
  let (user, replyPA) ← readS4U E a fail
  let (issuedClient, part) ← s4u2Self s (clk .s4u) a serviceName user fail
  let delegation ← onlyIf (has options KDC.CNameInAddlTkt) (s4u2Proxy E s clk a serviceName fail)
  let part := delegation.elim part fun d => delegatedPart part d.evidencePart
  let u2uTicketKey ← onlyIf (has options KDC.EncTktInSkey) (userToUser E s clk a serviceRecord fail)
  let part ← forwardPart a serviceName part fail
  .ok { part, issuedClient := (delegation.map (·.client)).or issuedClient, replyPA, delegation
        u2uTicketKey }

/-- `handleTGSReqCore` from the replay test to the call of `buildTGSRep`. -/
def decideGrant (s : Server) (clk : Clock) (a : Admission) : Handled Grant := do
  let fail := s.tgsError a.armor a.request
  let options := a.request.reqBody.kdcOptions
  checkFlagOptions options a.part fail
  let name ← targetService s a fail
  require (!s.restrictAnonymous (principalFromProtocol a.part.cname a.part.crealm) name)
    (fail Err.Policy)
  let (serviceName, serviceRecord) ← findService s options name fail
  checkService (clk .service) a serviceRecord fail
  let basis ← grantBasis E s clk a serviceName serviceRecord fail
  let (etypeID, serviceKey) ← grantKeys s a serviceRecord basis.u2uTicketKey fail
  let subKey := a.header.authenticator.subKey
  .ok { ticketPart := basis.part, headerTicket := a.header.apRequest.ticket
        headerKey := a.header.ticketKey, serviceName, serviceRecord, etypeID, serviceKey
        replyKey := subKey.getD basis.part.key, replyUsage := if subKey.isSome then 9 else 8
        issuedClient := basis.issuedClient, replyPA := basis.replyPA
        delegationEvidence := basis.delegation.map (·.evidenceServer)
        verifiedElements := basis.delegation.elim a.elements (·.elements)
        pacVerifyKey := basis.delegation.map (·.verifyKey), u2uTicketKey := basis.u2uTicketKey
        subKey }

/-- `handleTGSReqCore` behind the replay test. -/
def grantTGS (s : Server) (clk : Clock) (a : Admission) : Handled TGSReply := do
  let g ← decideGrant E s clk a
  buildTGSRep E s (clk .issue) a.request a.armor g

/-- The key a request is entered in the replay table under. -/
def Admission.replayKey (a : Admission) : Bytes :=
  Kerberos.replayKey a.part.crealm a.part.cname a.header.authenticator

/-- `handleTGSReqCore`: the answer, and the replay table it leaves. -/
def handleTGSReqCore (s : Server) (clk : Clock) (table : ReplayTable) (request : KDCReq)
    (raw : Bytes) : Handled TGSReply × ReplayTable :=
  match admitTGS E s clk request raw with
  | .error f => (.error f, table)
  | .ok a =>
    let (hit, table) := replayed E.mapOrder s.skew (clk .replay) a.replayKey table
    if hit then (.error (.reply (s.tgsError a.armor a.request Err.Repeat)), table)
    else (grantTGS E s clk a, table)

end Kerberos
