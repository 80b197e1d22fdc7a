import Kerberos.Spec.Preauth

/-!
# Issuing an initial ticket

`validateASAccount`, the choice of keys, and `buildASRepWithPreauth`: the times
and flags of the ticket (`asTimes`), its authorization data, and the reply.
-/

namespace Kerberos

/-- The readings of the clock during one AS request, in the order they are made. -/
inductive ASReading
  | lockout
  | account
  | password
  | nonce
  | freshness
  | keyExpiry
  | success
  | reply
  | issue
  deriving DecidableEq

abbrev ASClock := ASReading → ℤ

/-- `validateASAccount`: the code for a refused account. -/
def validateASAccount (clk : ASClock) (client service : PrincipalRecord) (options : Flags) :
    Option ℤ :=
  if Server.expired (clk .account) client then some Err.NameExpired
  else if Server.passwordExpiredForService (clk .password) client service then some Err.KeyExpired
  else if Server.expired (clk .account) service then some Err.ServiceExpired
  else if has client.flags KDB.DisallowAllTickets then some Err.ClientRevoked
  else if has service.flags KDB.DisallowAllTickets then some Err.SPrincipal
  else if has service.flags KDB.DisallowServer then some Err.MustUseUser2User
  else if has client.flags KDB.RequiresPWChange && !has service.flags KDB.PWChangeService then
    some Err.KeyExpired
  else if has options (KDC.AllowPostdate ||| KDC.Postdated) &&
      (has client.flags KDB.DisallowPostdated || has service.flags KDB.DisallowPostdated) then
    some Err.CannotPostdate
  else none

/-- `selectASKeys`: the first requested enctype both records have a key for. -/
def selectASKeys (enctypes : List Int32) (client service : PrincipalRecord) :
    Option (Int32 × Key × Key) :=
  enctypes.findSome? fun enctype =>
    match client.keys.lookup enctype, service.keys.lookup enctype with
    | some c, some k => some (enctype, { c with enctype }, { k with enctype })
    | _, _ => none

def selectPKINITServiceKey (E : Env) (enctypes : List Int32) (service : PrincipalRecord) :
    Option (Int32 × Key) :=
  enctypes.findSome? fun enctype =>
    match E.etype enctype, service.keys.lookup enctype with
    | some _, some key => some (enctype, { key with enctype })
    | _, _ => none

/-- An AS request whose accounts have been checked and whose keys are chosen.
`requestClient` is the client as the request names it. -/
structure ASContext where
  request : KDCReq
  armor : Option FastContext
  anonymous : Bool
  requestClient : Principal
  clientName : Principal
  client : PrincipalRecord
  serviceName : Principal
  service : PrincipalRecord
  etypeID : Int32
  clientKey : Key
  serviceKey : Key

/-- What a path of the AS handler hands to `buildASRepWithPreauth`. -/
structure ASGrant where
  client : PrincipalRecord
  etypeID : Int32
  clientKey : Key
  preauthenticated : Bool
  replyKey : Option Key := none
  replyPAs : MethodData := []
  indicators : List Bytes := []
  hwAuthenticated : Bool := false
  authData : AuthorizationData := []

/-- Set `bit` when `on`. -/
def setWhen (on : Bool) (bit flags : Flags) : Flags := if on then flags ||| bit else flags

/-- The flags of an initial ticket before postdating and renewal. -/
def initialFlags (s : Server) (options : Flags) (g : ASGrant) (service : PrincipalRecord) : Flags :=
  let flags := Ticket.Initial
  let flags := setWhen g.preauthenticated Ticket.PreAuthent flags
  let flags := setWhen g.hwAuthenticated Ticket.HWAuthent flags
  let flags := setWhen (has options KDC.RequestAnonymous) Ticket.Anonymous flags
  let flags := setWhen (has options KDC.Forwardable) Ticket.Forwardable flags
  let flags := setWhen (has options KDC.Proxiable) Ticket.Proxiable flags
  let flags := applyPrincipalFlagPolicy (applyFlagPolicy s flags) (some g.client) (some service)
  setWhen (has options KDC.AllowPostdate) Ticket.MayPostdate flags

def applyASPolicies (now : ℤ) (request : ASPolicyRequest) :
    List KDCPolicyModule → KerberosTime × Option KerberosTime →
      Except HookError (KerberosTime × Option KerberosTime)
  | [], t => .ok t
  | m :: rest, t => do
    let result ← m.checkAS request
    applyASPolicies now request rest (constrainTicketTimes now result t.1 t.2)

/-- The start of an initial ticket and its postdating flags; `none` when the request
cannot be postdated. -/
def asStart (now : ℤ) (body : KDCReqBody) (flags : Flags) : Option (KerberosTime × Flags) :=
  if has body.kdcOptions KDC.Postdated then
    if has body.kdcOptions KDC.AllowPostdate then
      (postdatedStart now body).map fun f => (f, flags ||| (Ticket.Postdated ||| Ticket.Invalid))
    else none
  else some (.at now, flags)

/-- The times and flags of an initial ticket. -/
def asTimes (s : Server) (now : ℤ) (c : ASContext) (g : ASGrant) : Handled TicketTimes := do
  let body := c.request.reqBody
  let (start, flags) ← orFail (asStart now body (initialFlags s body.kdcOptions g c.service))
    (s.errorReply none Err.CannotPostdate body.sname)
  let endTime := ticketEndFromRecords s body.till start.time (some g.client) (some c.service)
  let renewTill := renewTillRecords s body.kdcOptions body.rtime body.till start.time endTime.time
    (some g.client) (some c.service)
  let (endTime, renewTill) ← orReply (applyASPolicies now
      { request := c.request, client := c.clientName, server := c.serviceName
        clientRecord := g.client, serverRecord := c.service, authIndicators := g.indicators }
      (registered s.kdcPolicyModules) (endTime, renewTill)) fun err =>
    s.errorReply c.armor (policyErrorCode err) body.sname err.text
  let allowed := s.policy.all (·.allowRenewable) && !has g.client.flags KDB.DisallowRenewable &&
    !has c.service.flags KDB.DisallowRenewable
  let renewTill := if allowed then renewTill else none
  let flags := if has g.client.flags KDB.DisallowRenewable ||
    has c.service.flags KDB.DisallowRenewable
    then clear flags Ticket.Renewable else flags
  .ok { flags := if renewTill.isSome then flags ||| Ticket.Renewable else flags
        startTime := some start, endTime, renewTill, shared := false }

/-- An AS-REP: the part sealed in the ticket, the part sealed for the client, and the
message. -/
structure ASReply where
  ticketPart : EncTicketPart
  part : EncRepPart
  ticket : TicketMsg
  paData : MethodData
  encPart : EncryptedData

/-- `buildASRepWithPreauth`. -/
def buildASRep (E : Env) (s : Server) (clk : ASClock) (c : ASContext) (g : ASGrant) :
    Handled ASReply := do
  let body := c.request.reqBody
  let fail (code : ℤ) := s.errorReply none code body.sname
  let sname ← deref body.sname
  unlessError (s.requireAuthError E c.service g.indicators c.armor body.sname)
  let etype ← orFail (E.etype g.etypeID) (fail Err.ETypeNoSupp)
  let contribution ← orFail (E.random etype.keySize) (fail Err.Generic)
  let now := truncSec (clk .issue)
  let times ← asTimes s now c g
  -- an anonymous PKINIT client contributes to the session key
  let exchange := if has body.kdcOptions KDC.RequestAnonymous then g.replyKey else none
  let sessionValue ← orFail (exchange.elim (some contribution) fun key =>
    E.cf2 etype contribution key.key (str "PKINIT") (str "KEYEXCHANGE")) (fail Err.Generic)
  let fresh : EncTicketPart :=
    { flags := times.flags, key := ⟨g.etypeID, sessionValue⟩, crealm := c.clientName.realm
      cname := protocolPrincipal c.clientName, transited := ⟨0, []⟩, authTime := .at now
      startTime := times.startTime, endTime := times.endTime, renewTill := times.renewTill
      caddr := [], authorizationData := [] }
  let part := handleAuthData s
    { flags := .asReq, client := c.clientName, server := c.serviceName, subjectServer := none
      clientKey := some g.clientKey, serverKey := some c.serviceKey, subjectKey := none
      request := c.request, tgt := none, reply := fresh }
  let part := { part with authorizationData := part.authorizationData ++ g.authData }
  let asserted := if g.indicators = [] then none else some (E.marshalStrings g.indicators)
  let part ← orFail (issueCAMMAC E s part c.serviceKey none asserted) (fail Err.Generic)
  let part ← orFail
    (issuePAC E s part c.clientName c.serviceName c.serviceKey c.serviceKey false false
    g.replyKey none none) (fail Err.Generic)
  let cipher ← orFail (encryptWithKey E c.serviceKey 2 (E.marshalTicketPart part))
    (fail Err.Generic)
  let ticket : TicketMsg :=
    { tktVNO := 5, realm := body.realm, sname
      encPart := ⟨g.etypeID, some c.serviceKey.kvno, cipher⟩ }
  let exchanged ← orFail (exchange.elim (some []) fun key =>
    (etype.encrypt key.key 44 (E.marshalKey ⟨g.etypeID, contribution⟩)).map fun cipher =>
      [(⟨147, E.marshalEncryptedData ⟨g.etypeID, none, cipher⟩⟩ : PAData)]) (fail Err.Generic)
  let repPart : EncRepPart :=
    { key := ⟨g.etypeID, sessionValue⟩, lastReq := .at now, nonce := body.nonce,
      flags := times.flags
      authTime := .at now, startTime := times.startTime, endTime := times.endTime
      renewTill := times.renewTill, srealm := body.realm, sname }
  let replyKey := g.replyKey.getD g.clientKey
  require (g.replyKey.isNone || (E.etype replyKey.enctype).isSome) (fail Err.PreauthFailed)
  let replyCipher ← orFail (encryptWithKey E replyKey 3 (E.marshalRepPart repPart))
    (fail Err.Generic)
  let encPart : EncryptedData := ⟨replyKey.enctype, none, replyCipher⟩
  let (paData, encPart) ← wrapReply E s c.armor replyKey.key 3 encPart ticket
    (g.replyPAs ++ exchanged)
  .ok { ticketPart := part, part := repPart, ticket, paData, encPart }

end Kerberos
