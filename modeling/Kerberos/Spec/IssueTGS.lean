import Kerberos.Spec.Replay

/-!
# Issuing a service ticket

`buildTGSRep` of the KDC, cut where the source changes subject: the times and
flags of the ticket (`tgsTimes`), the limits of realm, records and policy modules
(`limitTimes`), the authorization data, and the reply.
-/

namespace Kerberos

/-- What the TGS request handler hands to `buildTGSRep`. -/
structure Grant where
  ticketPart : EncTicketPart
  headerTicket : TicketMsg
  headerKey : Key
  serviceName : Principal
  serviceRecord : PrincipalRecord
  etypeID : Int32
  serviceKey : Key
  replyKey : EncryptionKey
  replyUsage : ℕ
  issuedClient : Option Principal
  replyPA : Option PAData
  delegationEvidence : Option Principal
  verifiedElements : Option AuthorizationData
  pacVerifyKey : Option Key
  u2uTicketKey : Option Key
  subKey : Option EncryptionKey

/-- The times and flags of a ticket being issued. `shared` says that `renewTill` is
the presented ticket's own value and not a copy: lowering it lowers both. -/
structure TicketTimes where
  flags : Flags
  startTime : Option KerberosTime
  endTime : KerberosTime
  renewTill : Option KerberosTime
  shared : Bool

/-- The start of a postdated ticket, if the request may have one. -/
def postdatedStart (now : ℤ) (body : KDCReqBody) : Option KerberosTime :=
  body.from.filter fun f =>
    f.present && decide (now < f.time) && !(body.till.present && decide (body.till.time ≤ f.time))

/-- The renewal limit of an ordinary ticket: that of the records, capped by the
presented ticket's when the request asks for a renewable ticket. -/
def cappedRenewTill (options : Flags) (presented own : Option KerberosTime) :
    Option KerberosTime × Bool :=
  if has options (KDC.Renewable ||| KDC.RenewableOK) then
    match presented, own with
    | none, _ => (none, false)
    | some p, some o => if p.time < o.time then (presented, true) else (own, false)
    | some _, none => (none, false)
  else (own, false)

/-- The times and flags of an ordinary ticket that starts at `start`. -/
def ordinaryTimes (s : Server) (body : KDCReqBody) (presented : EncTicketPart) (start : ℤ)
    (startTime : Option KerberosTime) (flags : Flags) (client : Option PrincipalRecord)
    (service : PrincipalRecord) : TicketTimes :=
  let endTime := ticketEndFromRecords s body.till start client (some service)
  let own := renewTillRecords s body.kdcOptions body.rtime body.till start endTime.time client
    (some service)
  let (renewTill, shared) := cappedRenewTill body.kdcOptions presented.renewTill own
  { flags := if renewTill.isSome then flags ||| Ticket.Renewable else flags
    startTime, endTime, renewTill, shared }

/-- The times and flags on the three paths of `buildTGSRep`: VALIDATE, RENEW and
ordinary. `none` is a request that cannot be postdated. -/
def tgsTimes (s : Server) (now : ℤ) (body : KDCReqBody) (presented : EncTicketPart)
    (authTime : KerberosTime) (client : Option PrincipalRecord) (service : PrincipalRecord) :
    Option TicketTimes :=
  if has body.kdcOptions KDC.Validate then
    some { flags := clear presented.flags Ticket.Invalid, startTime := presented.startTime
           endTime := presented.endTime, renewTill := presented.renewTill, shared := true }
  else if has body.kdcOptions KDC.Renew then
    let start := (presented.startTime.filter (·.present)).elim authTime.time (·.time)
    let finish := now + timeSub presented.endTime.time start
    let finish := presented.renewTill.elim finish fun r =>
      if r.time < finish then r.time else finish
    some { flags := presented.flags, startTime := some (.at now), endTime := .at (truncSec finish)
           renewTill := presented.renewTill, shared := true }
  else
    let flags := clear presented.flags Ticket.Renewable
    if has body.kdcOptions KDC.Postdated then
      (postdatedStart now body).map fun f =>
        ordinaryTimes s body presented f.time (some f)
          (flags ||| (Ticket.Postdated ||| Ticket.Invalid)) client service
    else some (ordinaryTimes s body presented now none flags client service)

/-- The realm's flag policy and the records' restrictions. -/
def limitTimes (s : Server) (t : TicketTimes) (client : Option PrincipalRecord)
    (service : PrincipalRecord) : TicketTimes :=
  let noRenew := s.policy.any fun p => !p.allowRenewable
  let flags := applyPrincipalFlagPolicy (applyFlagPolicy s t.flags) client (some service)
  if allows client KDB.DisallowRenewable && !has service.flags KDB.DisallowRenewable then
    { t with flags, renewTill := if noRenew then none else t.renewTill }
  else { t with flags := clear flags Ticket.Renewable, renewTill := none }

/-- The presented ticket as a policy module sees it: when `renewTill` is shared, with
the value that earlier modules left. -/
def sharedHeader (header : EncTicketPart) (t : TicketTimes) : EncTicketPart :=
  if t.shared && t.renewTill.isSome then { header with renewTill := t.renewTill } else header

/-- `applyTGSPolicies`: every module lowers the times, or refuses. -/
def applyTGSPolicies (now : ℤ) (request : TGSPolicyRequest) :
    List KDCPolicyModule → TicketTimes → Except HookError TicketTimes
  | [], t => .ok t
  | m :: rest, t => do
    let result ← m.checkTGS
      { request with headerTicketPart := sharedHeader request.headerTicketPart t }
    let times := constrainTicketTimes now result t.endTime t.renewTill
    applyTGSPolicies now request rest { t with endTime := times.1, renewTill := times.2 }

variable (E : Env)

def decryptTGSRequestAuthData (body : KDCReqBody) (sessionKey : EncryptionKey)
    (subKey : Option EncryptionKey) : Option AuthorizationData :=
  match body.encAuthorizationData with
  | none => some []
  | some encrypted =>
    if encrypted.cipher = [] then some []
    else
      let decrypt (key : EncryptionKey) (usage : ℕ) : Option AuthorizationData := do
        let etype ← E.etype key.keyType
        guard (key.keyValue ≠ [])
        let plain ← etype.decrypt key.keyValue usage encrypted.cipher
        E.authorizationData plain
      (decrypt sessionKey 4).orElse fun _ => subKey.bind fun key => decrypt key 5

/-- `hasMandatoryKDCAuthData`, to a nesting depth of `fuel`. -/
def hasMandatoryKDCAuthData (E : Env) : ℕ → AuthorizationData → Bool
  | 0, _ => false
  | fuel + 1, data => data.any fun entry =>
    entry.adType == 8 || (entry.adType == 1 &&
      (E.authorizationData entry.adData).any (hasMandatoryKDCAuthData E fuel))

/-- `stripCAMMAC`: drop the CAMMAC elements of every IF-RELEVANT container. -/
def stripCAMMAC (data : AuthorizationData) : Option AuthorizationData :=
  (data.mapM fun outer =>
    if outer.adType ≠ 1 then some [outer]
    else (E.authorizationData outer.adData).map fun inner =>
      let filtered := inner.filter fun e => e.adType != 96
      if filtered.length = inner.length then [outer]
      else if filtered ≠ [] then [⟨1, E.marshalAuthorizationData filtered⟩] else []).map
        List.flatten

/-- `handleAuthData`: the modules in turn, on a ticket that is not anonymous. -/
def handleAuthData (s : Server) (request : AuthDataRequest) : EncTicketPart :=
  if has request.reply.flags Ticket.Anonymous then request.reply
  else (registered s.authDataModules).foldl
    (fun reply m => m.handle { request with reply }) request.reply

/-- The elements a new CAMMAC protects: the asserted indicators, the verified elements,
or those of the ticket's own CAMMAC; `some none` when there are none. -/
def cammacElements (data : AuthorizationData) (verified : Option AuthorizationData)
    (asserted : Option Bytes) : Option (Option AuthorizationData) :=
  match asserted, verified with
  | some indicators, _ => some (some [⟨97, indicators⟩])
  | none, some elements => some (some elements)
  | none, none =>
    match E.protectedElements data with
    | .ok elements => some (some elements)
    | .error .notFound => some none
    | .error _ => none

/-- `issueCAMMAC`: the ticket with its indicators and elements under a CAMMAC. -/
def issueCAMMAC (s : Server) (ticketPart : EncTicketPart) (serviceKey : Key)
    (verified : Option AuthorizationData) (asserted : Option Bytes) : Option EncTicketPart := do
  match ← cammacElements E ticketPart.authorizationData verified asserted with
  | none => some ticketPart
  | some elements =>
    let kdcKey ← s.freshnessKey E []
    let base ← stripCAMMAC E ticketPart.authorizationData
    let stripped := { ticketPart with authorizationData := base }
    let wrapped ← E.wrapCAMMAC elements stripped ⟨kdcKey.enctype, kdcKey.key⟩
      ⟨serviceKey.enctype, serviceKey.key⟩ kdcKey.kvno
    some { stripped with authorizationData := base ++ wrapped }

/-- `issuePACWithOptions`: the ticket with a signed PAC, when PACs are enabled. -/
def issuePAC (s : Server) (ticketPart : EncTicketPart) (client service : Principal)
    (headerKey serviceKey : Key) (serviceTicket replaceClient : Bool)
    (replacedReplyKey : Option Key)
    (delegationEvidence : Option Principal) (pacVerifyKey : Option Key) : Option EncTicketPart :=
  if !s.enablePAC || s.disablePAC then some ticketPart
  else do
    let isTGS := match service.components with
      | [first, _] => first == str "krbtgt"
      | _ => false
    let privKey ← (s.pacPrivsvrKey E).orElse fun _ => if isTGS then some serviceKey else none
    let data ← E.signPAC ticketPart client service privKey (pacVerifyKey.getD headerKey) serviceKey
      serviceTicket replaceClient replacedReplyKey delegationEvidence
    some { ticketPart with authorizationData := data }

/-- The padata and the encrypted part of a reply, wrapped in FAST when there is an
armor. -/
def wrapReply (s : Server) (armor : Option FastContext) (key : Bytes) (usage : ℕ)
    (encPart : EncryptedData) (ticket : TicketMsg) (paData : MethodData) :
    Handled (MethodData × EncryptedData) :=
  match armor with
  | none => .ok (paData, encPart)
  | some context =>
    orFail (E.wrapFASTRep context key usage encPart ticket paData)
      (s.errorReply none Err.Generic (some ticket.sname))

def encryptWithKey (key : Key) (usage : ℕ) (plaintext : Bytes) : Option Bytes := do
  (← E.etype key.enctype).encrypt key.key usage plaintext

end Kerberos
