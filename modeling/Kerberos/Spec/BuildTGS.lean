import Kerberos.Spec.IssueTGS

/-!
# `buildTGSRep`

The body of `buildTGSRep` in three parts: `decideTimes` settles the times and
flags of the new ticket, `assemble` fills in its fields, `sealReply` adds the
authorization data, encrypts the ticket and writes the reply.
-/

namespace Kerberos

/-- The ticket-granting service of another realm. -/
def crossRealmTGT (s : Server) (service : Principal) : Bool :=
  match service.components with
  | [first, realm] => first == str "krbtgt" && realm != s.realm
  | _ => false

/-- A ticket-granting service, of any realm. -/
def isTGSName (service : Principal) : Bool :=
  match service.components with
  | [first, _] => first == str "krbtgt"
  | _ => false

/-- What `decideTimes` settles. -/
structure Decision where
  times : TicketTimes
  authTime : KerberosTime
  indicators : List Bytes
  /-- The instant of issue, in whole seconds. -/
  now : ℤ
  sessionKey : EncryptionKey

/-- The client a grant is for: the impersonated user, or the ticket's. -/
def Grant.client (g : Grant) : Principal :=
  g.issuedClient.getD (principalFromProtocol g.ticketPart.cname g.ticketPart.crealm)

variable (E : Env)

/-- The first part of `buildTGSRep`, down to the policy modules. -/
def decideTimes (s : Server) (clock : ℤ) (request : KDCReq) (armor : Option FastContext)
    (g : Grant) : Handled Decision := do
  let fail (code : ℤ) := s.errorReply armor code request.reqBody.sname
  let etype ← orFail (E.etype g.etypeID) (fail Err.ETypeNoSupp)
  let sessionValue ← orFail (E.random etype.keySize)
    (s.errorReply none Err.Generic request.reqBody.sname)
  let now := truncSec clock
  let clientRecord ← orFail (s.db.lookup g.client).toOption (fail Err.Generic)
  let indicators ← orFail (authIndicatorsFromElements E (g.verifiedElements.getD []))
    (fail Err.Generic)
  let authTime := if g.ticketPart.authTime.present then g.ticketPart.authTime else .at now
  let times ← orFail
    (tgsTimes s now request.reqBody g.ticketPart authTime clientRecord g.serviceRecord)
    (fail Err.CannotPostdate)
  let policyRequest : TGSPolicyRequest :=
    { request, server := g.serviceName, serverRecord := g.serviceRecord
      client := principalFromProtocol g.ticketPart.cname g.ticketPart.crealm
      headerTicket := g.headerTicket, headerTicketPart := g.ticketPart, authIndicators :=
        indicators }
  let times ← orReply (applyTGSPolicies now policyRequest (registered s.kdcPolicyModules)
      (limitTimes s times clientRecord g.serviceRecord)) fun err =>
    s.errorReply armor (policyErrorCode err) request.reqBody.sname err.text
  .ok { times, authTime, indicators, now, sessionKey := ⟨g.etypeID, sessionValue⟩ }

/-- The transited encoding of the new ticket: marked when another realm is involved. -/
def newTransited (s : Server) (g : Grant) : TransitedEncoding :=
  if g.client.realm ≠ s.realm ∨ crossRealmTGT s g.serviceName = true then
    { g.ticketPart.transited with trType := 1 }
  else g.ticketPart.transited

/-- The flags after the transited check; `none` when the path is refused. -/
def transitedFlags (s : Server) (g : Grant) (flags : Flags) : Option Flags :=
  let contents := g.ticketPart.transited.contents
  if !crossRealmTGT s g.serviceName && contents ≠ [] then
    if E.transitedPermitted contents g.client.realm g.serviceName.realm then
      some (flags ||| Ticket.Transited)
    else if !s.rejectBadTransitSet || s.rejectBadTransit then none else some flags
  else some flags

/-- The fields of the new ticket before authorization data is added. -/
def assemble (s : Server) (request : KDCReq) (armor : Option FastContext) (g : Grant)
    (d : Decision) : Handled EncTicketPart := do
  let fail (code : ℤ) := s.errorReply armor code request.reqBody.sname
  let addresses := if has request.reqBody.kdcOptions (KDC.Forwarded ||| KDC.Proxy)
    then request.reqBody.addresses else g.ticketPart.caddr
  let requestAuthData ← orFail
    (decryptTGSRequestAuthData E request.reqBody g.ticketPart.key g.subKey) (fail Err.Generic)
  require
    (!hasMandatoryKDCAuthData E ((requestAuthData.map (·.adData.length)).sum + 1) requestAuthData)
    (fail Err.Policy)
  let flags ← orFail (transitedFlags E s g d.times.flags) (fail Err.Policy)
  .ok { flags, key := d.sessionKey
        crealm := g.client.realm, cname := protocolPrincipal g.client
        transited := newTransited s g
        authTime := d.authTime, startTime := d.times.startTime, endTime := d.times.endTime
        renewTill := d.times.renewTill
        caddr := addresses, authorizationData := requestAuthData }

/-- A TGS-REP: the part sealed in the ticket, the part sealed for the client, and
the message. -/
structure TGSReply where
  ticketPart : EncTicketPart
  part : EncRepPart
  crealm : Bytes
  cname : PrincipalName
  ticket : TicketMsg
  paData : MethodData
  encPart : EncryptedData

/-- The ticket with the data of the authorization-data modules and of the presented
ticket. -/
def withAuthData (s : Server) (request : KDCReq) (g : Grant) (d : Decision) (part : EncTicketPart) :
    EncTicketPart :=
  let header := sharedHeader g.ticketPart d.times
  let handled := handleAuthData s
    { flags := .tgsReq, client := g.client, server := g.serviceName
      subjectServer := if crossRealmTGT s g.serviceName then none else g.delegationEvidence
      clientKey := none, serverKey := some g.serviceKey, subjectKey := g.pacVerifyKey
      request, tgt := some header, reply := part }
  { handled with authorizationData := handled.authorizationData ++ g.ticketPart.authorizationData }

/-- The last part of `buildTGSRep`. -/
def sealReply (s : Server) (request : KDCReq) (armor : Option FastContext) (g : Grant)
    (d : Decision) (assembled : EncTicketPart) : Handled TGSReply := do
  let fail (code : ℤ) := s.errorReply armor code request.reqBody.sname
  let part := withAuthData s request g d assembled
  unlessError <|
    if (findPA request.paData 129).isNone && (findPA request.paData 130).isNone then
      s.requireAuthError E g.serviceRecord d.indicators armor request.reqBody.sname
    else none
  let ticketKey := g.u2uTicketKey.getD g.serviceKey
  let part ← orFail (issueCAMMAC E s part ticketKey g.verifiedElements none) (fail Err.Generic)
  let part ← orFail
    (issuePAC E s part g.client g.serviceName g.headerKey g.serviceKey (!isTGSName g.serviceName)
      g.issuedClient.isSome none
      (if crossRealmTGT s g.serviceName then none else g.delegationEvidence) g.pacVerifyKey)
    (fail Err.Generic)
  let ticketCipher ← orFail (encryptWithKey E ticketKey 2 (E.marshalTicketPart part))
    (fail Err.Generic)
  let own := has request.reqBody.kdcOptions (KDC.Renew ||| KDC.Validate)
  let srealm := if own then g.headerTicket.realm else g.serviceName.realm
  let sname := if own then g.headerTicket.sname else protocolPrincipal g.serviceName
  let ticket : TicketMsg :=
    { tktVNO := 5, realm := srealm, sname
      encPart := ⟨ticketKey.enctype, if g.u2uTicketKey.isSome then none else some g.serviceKey.kvno,
        ticketCipher⟩ }
  let repPart : EncRepPart :=
    { key := d.sessionKey, lastReq := .at d.now, nonce := request.reqBody.nonce
      flags := assembled.flags
      authTime := d.authTime, startTime := d.times.startTime, endTime := d.times.endTime
      renewTill := d.times.renewTill, srealm, sname }
  let replyCipher ← orFail
    (encryptWithKey E ⟨g.replyKey.keyType, 0, g.replyKey.keyValue, []⟩ g.replyUsage
      (E.marshalRepPart repPart)) (fail Err.Generic)
  let encPart : EncryptedData := ⟨g.replyKey.keyType, none, replyCipher⟩
  let (paData, encPart) ← wrapReply E s armor g.replyKey.keyValue g.replyUsage encPart ticket
    g.replyPA.toList
  .ok { ticketPart := part, part := repPart, crealm := part.crealm, cname := part.cname, ticket
        paData, encPart }

def buildTGSRep (s : Server) (clock : ℤ) (request : KDCReq) (armor : Option FastContext)
    (g : Grant) : Handled TGSReply := do
  let d ← decideTimes E s clock request armor g
  let part ← assemble E s request armor g d
  sealReply E s request armor g d part

end Kerberos
