import Kerberos.Spec.Server

/-!
# Lifetimes, flags and account checks

The functions of the KDC's `policy.go` and `policy_plugins.go`: when a presented
ticket is usable, which end and renewal times a ticket gets from the realm's, the
client's and the service's limits, which flags survive, and how the policy
modules lower the times. A record that is `nil` in the source is `none`.
-/

namespace Kerberos

namespace Server

variable (s : Server)

/-- `ticketValidityWithInvalidMode`: the error code for a ticket that is not usable. -/
def ticketValidityWithInvalidMode (now : ℤ) (ticket : EncTicketPart) (allowInvalid : Bool) :
    Option ℤ :=
  if !allowInvalid && has ticket.flags Ticket.Invalid then some Err.TktNYV
  else if ticket.startTime.any fun t => t.present && decide (now + s.skew < t.time) then
    some Err.TktNYV
  else if ticket.endTime.present && decide (ticket.endTime.time < now + durNeg s.skew) then
    some Err.TktExpired
  else none

def ticketValidity (now : ℤ) (ticket : EncTicketPart) : Option ℤ :=
  s.ticketValidityWithInvalidMode now ticket false

def ticketValidityWithInvalid (now : ℤ) (ticket : EncTicketPart) : Option ℤ :=
  s.ticketValidityWithInvalidMode now ticket true

end Server

/-- `ticketTillSet`: a till of zero or none asks for the longest lifetime. -/
def ticketTillSet (till : KerberosTime) : Bool := till.present && till.time != 0

/-- A positive limit of a record lowers `life`. -/
def lowerLife (limit life : ℤ) : ℤ := if 0 < limit ∧ limit < life then limit else life

/-- The lifetime limit of the realm as the two records lower it. -/
def maxLife (s : Server) (client service : Option PrincipalRecord) : ℤ :=
  let realm := if s.maxTicketLife ≤ 0 then 10 * hour else s.maxTicketLife
  let lowered := client.elim realm fun r => lowerLife r.maxLife realm
  service.elim lowered fun r => lowerLife r.maxLife lowered

def ticketEndFromRecords (s : Server) (till : KerberosTime) (start : ℤ)
    (client service : Option PrincipalRecord) : KerberosTime :=
  let life := maxLife s client service
  let limit := start + life
  let wanted :=
    if !ticketTillSet till then
      if 0 < s.defaultTicketLife ∧ s.defaultTicketLife < life then start + s.defaultTicketLife
      else limit
    else if till.time < limit then till.time else limit
  .at (truncSec (if wanted < start then start else wanted))

/-- The renewal limit of the realm as the two records lower it. -/
def maxRenew (s : Server) (client service : Option PrincipalRecord) : ℤ :=
  let lowered := client.elim s.maxRenewableLife fun r => lowerLife r.maxRenew s.maxRenewableLife
  service.elim lowered fun r => lowerLife r.maxRenew lowered

def renewTillRecords (s : Server) (options : Flags) (requested : Option KerberosTime)
    (till : KerberosTime) (start finish : ℤ) (client service : Option PrincipalRecord) :
    Option KerberosTime :=
  let renewable := has options KDC.Renewable
  let hasTill := ticketTillSet till
  if !renewable && (!has options KDC.RenewableOK || (hasTill && decide (till.time ≤ finish))) then
    none
  else
    let byDefault :=
      if 0 < s.defaultRenewableLife then start + s.defaultRenewableLife
      else start + s.maxRenewableLife
    let target :=
      if renewable then
        match requested.filter ticketTillSet with
        | some rtime => rtime.time
        | none =>
          if 0 < s.defaultRenewableLife then byDefault
          else if hasTill then till.time else byDefault
      else if hasTill then till.time else byDefault
    if target ≤ finish && !renewable then none
    else
      let life := maxRenew s client service
      if life ≤ 0 then none
      else
        let capped := if start + life < target then start + life else target
        if capped ≤ finish && !renewable then none
        else if capped ≤ start then none
        else some (.at (truncSec capped))

/-- Clear `bit` unless it is allowed. -/
def clearUnless (allowed : Bool) (bit flags : Flags) : Flags :=
  if allowed then flags else clear flags bit

def applyFlagPolicy (s : Server) (flags : Flags) : Flags :=
  match s.policy with
  | none => flags
  | some p =>
    clearUnless p.allowRenewable Ticket.Renewable <|
      clearUnless p.allowProxiable Ticket.Proxiable <|
        clearUnless p.allowForwardable Ticket.Forwardable flags

/-- A record, where there is one, allows what `disallow` forbids. -/
def allows (record : Option PrincipalRecord) (disallow : Flags) : Bool :=
  record.all fun r => !has r.flags disallow

def applyPrincipalFlagPolicy (flags : Flags) (client service : Option PrincipalRecord) : Flags :=
  let restrict (disallow bit flags : Flags) : Flags :=
    clearUnless (allows service disallow) bit (clearUnless (allows client disallow) bit flags)
  restrict KDB.DisallowRenewable Ticket.Renewable <|
    restrict KDB.DisallowProxiable Ticket.Proxiable <|
      restrict KDB.DisallowForwardable Ticket.Forwardable flags

/-- A lifetime that is set lowers a time to `now + life`. -/
def lowerTime (now life : ℤ) (t : KerberosTime) : KerberosTime :=
  if life ≠ 0 ∧ now + life < t.time then { t with time := now + life } else t

def constrainTicketTimes (now : ℤ) (result : KDCPolicyResult) (endTime : KerberosTime)
    (renewTill : Option KerberosTime) : KerberosTime × Option KerberosTime :=
  (lowerTime now result.lifetime endTime, renewTill.map (lowerTime now result.renewLifetime))

def policyErrorCode (err : HookError) : ℤ :=
  match err.code with
  | some code => if 0 ≤ code ∧ code ≤ 128 then code else Err.Policy
  | none => Err.Policy

def authIndicatorsFromElements (E : Env) (elements : AuthorizationData) : Option (List Bytes) :=
  ((elements.filter fun e => e.adType == 97).mapM fun e => E.utf8Strings e.adData).map List.flatten

namespace Server

variable (s : Server)

def passwordExpired (now : ℤ) (record : PrincipalRecord) : Bool :=
  record.passwordExpiration != zeroTime && decide (record.passwordExpiration ≤ now)

def passwordExpiredForService (now : ℤ) (client service : PrincipalRecord) : Bool :=
  passwordExpired now client && !has service.flags KDB.PWChangeService

/-- The account is past its expiration. -/
def expired (now : ℤ) (record : PrincipalRecord) : Bool :=
  record.expiration != zeroTime && decide (record.expiration < now)

def passwordPolicy (record : PrincipalRecord) : Option PolicyRecord :=
  if record.policy = [] then none
  else s.db.getPolicy.bind fun get => get record.policy

/-- `lockedOut`: the verdict, and the record with its failure count as the check
leaves it. -/
def lockedOut (now : ℤ) (record : PrincipalRecord) : Bool × PrincipalRecord :=
  match s.passwordPolicy record with
  | none => (false, record)
  | some policy =>
    let record :=
      if 0 < policy.failureCountInterval ∧ record.lastFailed ≠ zeroTime ∧
          record.lastFailed + policy.failureCountInterval.toInt * second ≤ now
      then { record with failAuthCount := 0 } else record
    if policy.maxFailure = 0 ∨ record.failAuthCount < policy.maxFailure then (false, record)
    else if policy.lockoutDuration = 0 then (true, record)
    else (decide (now < record.lastFailed + policy.lockoutDuration.toInt * second), record)

/-- The record after `recordPreauthSuccess`. -/
def recordPreauthSuccess (now : ℤ) (record : PrincipalRecord) : PrincipalRecord :=
  { record with failAuthCount := 0, lastSuccess := now }

def authorizationError (client service : Principal) (asExchange : Bool)
    (armor : Option FastContext) : Option ErrorReply :=
  (s.authorize.bind fun hook => hook client service asExchange).map fun err =>
    let code := match err.code with
      | some code => if code < 0 ∨ 128 < code then Err.Generic else code
      | none => Err.Policy
    s.errorReply armor code (some (protocolPrincipal service)) err.text

def restrictAnonymous (client service : Principal) : Bool :=
  s.restrictAnonymousToTGT && isAnonymousPrincipal client && decide (service ≠ krbtgt s.realm)

def referralAllowed (service : Principal) (canonicalize encTktInSKey : Bool) : Bool :=
  match service.components with
  | [first, _] =>
    canonicalize && !encTktInSKey &&
      !(service.nameType == NTUnknown && !s.hostBasedServices.contains first &&
        !s.hostBasedServices.contains (str "*")) &&
      (service.nameType == NTUnknown || service.nameType == NTSrvHst ||
        service.nameType == NTSrvInstance) &&
      !(s.noHostReferral.contains first || s.noHostReferral.contains (str "*"))
  | _ => false

/-- `lookupAlias`: the record behind an alias and its canonical name. -/
def lookupAlias (name : Principal) : Except Unit (Option (PrincipalRecord × Principal)) :=
  match s.db.resolveAlias with
  | none => .ok none
  | some resolve => do
    match ← resolve name with
    | none => .ok none
    | some canonicalName =>
      if canonicalName.realm = [] ∨ canonicalName.components = [] then .error ()
      else
        match ← s.db.lookup canonicalName with
        | none => .ok none
        | some record =>
          let named := record.name.realm ≠ [] ∧ record.name.components ≠ []
          .ok (some (record, if named then record.name else canonicalName))

/-- The enctypes of a record in ascending order. -/
def sortedEnctypes (record : PrincipalRecord) : List Int32 :=
  record.keys.keys.mergeSort fun a b => decide (a ≤ b)

/-- `freshnessKey`: the local ticket-granting key. -/
def freshnessKey (E : Env) (enctypes : List Int32) : Option Key :=
  match s.db.lookup (krbtgt s.realm) with
  | .ok (some record) =>
    let preferred := if enctypes = [] then [18, 17, 20, 19, 25, 26] else enctypes
    (preferred ++ sortedEnctypes record).findSome? fun enctype =>
      match record.keys.lookup enctype, E.etype enctype with
      | some key, some _ => some { key with enctype }
      | _, _ => none
  | _ => none

def pacPrivsvrKey (E : Env) : Option Key :=
  match s.db.lookup (krbtgt s.realm) with
  | .ok (some record) =>
    (sortedEnctypes record).findSome? fun enctype =>
      match record.keys.lookup enctype, E.etype enctype with
      | some key, some _ =>
        if key.kvno ≠ 0 ∧ record.kvno ≠ 0 ∧ key.kvno ≠ record.kvno then none
        else some { key with enctype }
      | _, _ => none
  | _ => none

/-- `requireAuthError`: the service demands an authentication indicator the ticket
does not have. -/
def requireAuthError (E : Env) (record : PrincipalRecord) (indicators : List Bytes)
    (armor : Option FastContext) (service : Option PrincipalName) : Option ErrorReply :=
  let required := E.trimSpace ((record.strings.lookup (str "require_auth")).getD [])
  if required = [] then none
  else if (E.fields required).any indicators.contains then none
  else some (s.errorReply armor Err.Policy service
    (str "Required auth indicators not present in ticket: " ++ required))

end Server

end Kerberos
