import Kerberos.Spec.BuildTGS

/-!
# A TGS request up to the replay test

The first half of `handleTGSReqCore`: the AP-REQ is opened (`readHeader`), a FAST
request unwrapped (`unwrapFASTTGSReq`), the CAMMAC of the presented ticket checked,
the options, the client account and the transited path examined. Nothing before
the replay test changes the KDC's state; `admitTGS` is all of it.
-/

namespace Kerberos

/-- The readings of the clock during one TGS request, in the order they are made. -/
inductive Reading
  | freshness
  | validity
  | limit
  | client
  | replay
  | service
  | s4u
  | evidence
  | evidenceClient
  | second
  | issue
  deriving DecidableEq

/-- The clock as one request reads it. -/
abbrev Clock := Reading → ℤ

/-- `mandatoryChecksumType`, which is also `fast.ChecksumType`. -/
def mandatoryChecksumType (etype : Int32) : Int32 :=
  if etype = 17 then 15 else if etype = 18 then 16 else if etype = 19 then 19
  else if etype = 20 then 20 else if etype = 25 then 17 else if etype = 26 then 18 else 0

/-- The opened AP-REQ of a request. -/
structure Header where
  apRequest : APReq
  pa : PAData
  ticketKey : Key
  ticketPart : EncTicketPart
  authenticator : Authenticator

/-- A record that has to exist: `missing` is the code when it does not. -/
def Server.lookupOr (s : Server) (fail : ℤ → ErrorReply) (name : Principal) (missing : ℤ) :
    Handled PrincipalRecord :=
  match s.db.lookup name with
  | .error _ => .error (.reply (fail Err.Generic))
  | .ok none => .error (.reply (fail missing))
  | .ok (some record) => .ok record

variable (E : Env)

/-- Open a ticket with the key of the service it names. -/
def openTicket (record : PrincipalRecord) (ticket : TicketMsg)
    (fail : ℤ → ErrorReply) (noEType : ℤ) : Handled (Key × EType × Option EncTicketPart) := do
  let key ← orFail (selectKVNO record ticket.encPart.etype ticket.encPart.kvno)
    (fail Err.BadIntegrity)
  let etype ← orFail (E.etype key.enctype) (fail noEType)
  let plain ← orFail (etype.decrypt key.key 2 ticket.encPart.cipher) (fail Err.BadIntegrity)
  .ok (key, etype, E.encTicketPart plain)

/-- The AP-REQ of a request is opened and its authenticator verified. -/
def readHeader (s : Server) (clk : Clock) (request : KDCReq) (raw : Bytes) :
    Handled Header := do
  let fail (code : ℤ) := s.errorReply none code request.reqBody.sname
  require (request.pvno == 5 && request.msgType == 12 && !request.paData.isEmpty &&
    request.reqBody.sname.isSome && request.reqBody.realm != []) (fail Err.Generic)
  let pa ← orFail (findPA request.paData 1) (fail Err.Generic)
  let apRequest ← orFail ((E.apReq pa.paDataValue).filter fun a => a.pvno == 5 && a.msgType == 14)
    (fail Err.Generic)
  let tgtRecord ← s.lookupOr fail
    ⟨apRequest.ticket.realm, NTSrvInstance, apRequest.ticket.sname.nameString⟩ Err.SPrincipal
  let (ticketKey, _, part) ← openTicket E tgtRecord apRequest.ticket fail Err.ETypeNoSupp
  let ticketPart ← orFail part (fail Err.BadIntegrity)
  let sessionEType ← orFail (E.etype ticketPart.key.keyType) (fail Err.ETypeNoSupp)
  let authPlain ← orFail
    (sessionEType.decrypt ticketPart.key.keyValue 7 apRequest.authenticator.cipher)
    (fail Err.BadIntegrity)
  let authenticator ← orFail ((E.authenticator authPlain).filter fun a =>
      a.authenticatorVNO == 5 && a.crealm == ticketPart.crealm &&
        sameProtocolPrincipal a.cname ticketPart.cname) (fail Err.BadIntegrity)
  require (withinSkew s.skew (clk .freshness) authenticator.ctime.time) (fail Err.Skew)
  let checksum ← orFail (authenticator.checksum.filter fun c =>
      c.checksumType == mandatoryChecksumType ticketPart.key.keyType) (fail Err.InKeyUsage)
  let body ← orFail (E.fieldContent raw [12, 4]) (fail Err.Generic)
  require (sessionEType.verifyChecksum ticketPart.key.keyValue 6 body checksum.checksum)
    (fail Err.BadIntegrity)
  .ok { apRequest, pa, ticketKey, ticketPart, authenticator }

/-- The armored request inside a FAST wrapper, under an armor key; an error comes
with the armor. `covered` is what the request checksum covers. -/
def openFAST (etype : EType) (armorKey : Bytes) (E : Env) (request : KDCReq)
    (wrapper : KrbFastArmoredReq) (covered : Bytes) :
    Except (ℤ × Option FastContext) (KDCReq × Option FastContext) :=
  let armor : FastContext := ⟨etype, armorKey, 0, none⟩
  if wrapper.encFastReq.etype != etype.id ||
      wrapper.reqChecksum.checksumType != mandatoryChecksumType etype.id ||
      wrapper.reqChecksum.checksum == [] then .error (Err.BadIntegrity, some armor)
  else
    match (etype.decrypt armorKey 51 wrapper.encFastReq.cipher).bind E.krbFastReq with
    | none => .error (Err.BadIntegrity, some armor)
    | some inner =>
      if !etype.verifyChecksum armorKey 50 covered wrapper.reqChecksum.checksum then
        .error (Err.BadIntegrity, some armor)
      else
        .ok ({ request with reqBody := inner.reqBody, paData := inner.paData },
          some { armor with nonce := inner.reqBody.nonce, cookie := findPA inner.paData 133 })

def unwrapFASTTGSReq (request : KDCReq) (h : Header) :
    Except (ℤ × Option FastContext) (KDCReq × Option FastContext) :=
  match findPA request.paData 136 with
  | none => .ok (request, none)
  | some pa =>
    match E.fastRequest pa.paDataValue, h.authenticator.subKey,
      E.etype h.ticketPart.key.keyType with
    | some wrapper, some subKey, some etype =>
      if wrapper.armor.isSome || subKey.keyType != h.ticketPart.key.keyType ||
          subKey.keyValue.length != etype.keySize then .error (Err.PreauthFailed, none)
      else
        match E.cf2 etype subKey.keyValue h.ticketPart.key.keyValue
            (str "subkeyarmor") (str "ticketarmor") with
        | none => .error (Err.PreauthFailed, none)
        | some armorKey => openFAST etype armorKey E request wrapper h.pa.paDataValue
    | _, _, _ => .error (Err.PreauthFailed, none)

/-- The presented ticket with an unverifiable CAMMAC removed, and the elements of a
verified one. -/
def headerElements (s : Server) (fail : ℤ → ErrorReply) (part : EncTicketPart) :
    Handled (EncTicketPart × Option AuthorizationData) :=
  let strip : Handled (EncTicketPart × Option AuthorizationData) := do
    let data ← orFail (stripCAMMAC E part.authorizationData) (fail Err.Generic)
    .ok ({ part with authorizationData := data }, none)
  match E.protectedElements part.authorizationData with
  | .error .notFound => .ok (part, none)
  | .error _ => .error (.reply (fail Err.Generic))
  | .ok elements =>
    match s.freshnessKey E [] with
    | none => strip
    | some key =>
      match E.verifyKDC part.authorizationData part ⟨key.enctype, key.key⟩ with
      | .ok () => .ok (part, some elements)
      | .error .integrity => strip
      | .error _ => .error (.reply (fail Err.Generic))

/-- The options of the request against the presented ticket: user-to-user, RENEW,
VALIDATE, and the ticket's own validity. -/
def checkTGSOptions (s : Server) (clk : Clock) (body : KDCReqBody) (part : EncTicketPart)
    (fail : ℤ → ErrorReply) : Handled Unit := do
  require (!has body.kdcOptions KDC.EncTktInSkey || (body.additionalTickets.length == 1 &&
    !has body.kdcOptions (KDC.Renew ||| KDC.Validate ||| KDC.Forwarded ||| KDC.Proxy |||
      KDC.CNameInAddlTkt) && body.realm == s.realm)) (fail Err.BadOption)
  if has body.kdcOptions KDC.Renew then do
    unlessError ((s.ticketValidity (clk .validity) part).map fail)
    require (has part.flags Ticket.Renewable) (fail Err.BadOption)
    require (part.renewTill.any fun r => decide (clk .limit ≤ r.time)) (fail Err.TktExpired)
  else if has body.kdcOptions KDC.Validate then do
    require (has part.flags Ticket.Invalid) (fail Err.BadOption)
    require (!part.startTime.any fun t => t.present && decide (clk .validity < t.time))
      (fail Err.TktNYV)
    unlessError ((s.ticketValidityWithInvalid (clk .limit) part).map fail)
  else unlessError ((s.ticketValidity (clk .validity) part).map fail)

/-- The client account of the presented ticket, where this database has it. -/
def checkTicketClient (s : Server) (now : ℤ) (client : Principal) (fail : ℤ → ErrorReply) :
    Handled Unit :=
  match s.db.lookup client with
  | .error _ => .error (.reply (fail Err.Generic))
  | .ok none => .ok ()
  | .ok (some record) => do
    require (!Server.expired now record) (fail Err.NameExpired)
    require (!has record.flags KDB.DisallowAllTickets) (fail Err.ClientRevoked)

/-- A ticket issued by another realm has that realm added to its transited path. -/
def extendTransited (s : Server) (realm : Bytes) (part : EncTicketPart)
    (fail : ℤ → ErrorReply) : Handled EncTicketPart :=
  if realm = s.realm then .ok part
  else do
    require (!(part.transited.trType == 0 && part.transited.contents != []) &&
      (part.transited.trType == 0 || part.transited.trType == 1)) (fail Err.ETypeNoSupp)
    let contents ← orFail (E.appendTransited part.transited.contents realm) (fail Err.BadIntegrity)
    .ok { part with transited := ⟨1, contents⟩ }

/-- A request that reached the replay test. -/
structure Admission where
  header : Header
  request : KDCReq
  armor : Option FastContext
  part : EncTicketPart
  elements : Option AuthorizationData
  /-- The service the request names. -/
  service : Principal

/-- `tgsErrorResponse`. -/
def Server.tgsError (s : Server) (armor : Option FastContext) (request : KDCReq) (code : ℤ) :
    ErrorReply :=
  s.errorReply armor code request.reqBody.sname

/-- `handleTGSReqCore` up to the replay test. -/
def admitTGS (s : Server) (clk : Clock) (request : KDCReq) (raw : Bytes) :
    Handled Admission := do
  let header ← readHeader E s clk request raw
  let (request, armor) ← orReply (unwrapFASTTGSReq E request header) fun (code, armor) =>
    s.tgsError armor request code
  let fail := s.tgsError armor request
  let sname ← deref request.reqBody.sname
  let service := principalFromProtocol sname request.reqBody.realm
  let (part, elements) ← headerElements E s fail header.ticketPart
  checkTGSOptions s clk request.reqBody part fail
  let client := principalFromProtocol part.cname part.crealm
  checkTicketClient s (clk .client) client fail
  unlessError (s.authorizationError client service false armor)
  let part ← extendTransited E s header.apRequest.ticket.realm part fail
  .ok { header, request, armor, part, elements, service }

end Kerberos
