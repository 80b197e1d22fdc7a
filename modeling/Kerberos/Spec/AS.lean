import Kerberos.Spec.BuildAS

/-!
# `handleASReqCore`

The AS handler: the request is opened and the accounts checked (`openAS`), then
one of its paths answers, in the order the source tries them: registered modules,
OTP, encrypted challenge, SPAKE, PKINIT, no preauthentication, encrypted timestamp.
A path is its verifier, which says that a mechanism has authenticated the client,
followed by the checks and records of that path.
-/

namespace Kerberos

/-- The armor ticket of a FAST AS request. -/
def openArmor (E : Env) (s : Server) (clk : ASClock) (armor : KrbFastArmor) :
    Except ℤ (EType × Bytes) := do
  let failed {α : Type} (value : Option α) : Except ℤ α :=
    match value with
    | some a => .ok a
    | none => .error Err.PreauthFailed
  let ap ← failed ((E.apReq armor.armorValue).filter fun a =>
    a.pvno == 5 && a.msgType == 14 && a.ticket.realm == s.realm &&
      a.ticket.sname.nameString == [str "krbtgt", s.realm])
  let record ← failed ((s.db.lookup
    ⟨ap.ticket.realm, NTSrvInstance, ap.ticket.sname.nameString⟩).toOption.bind id)
  let key ← failed (selectKVNO record ap.ticket.encPart.etype ap.ticket.encPart.kvno)
  let ticketEType ← failed (E.etype key.enctype)
  let plain ← failed (ticketEType.decrypt key.key 2 ap.ticket.encPart.cipher)
  let part ← failed (E.encTicketPart plain)
  (s.ticketValidity (clk .lockout) part).elim (.ok ()) .error
  let etype ← failed ((E.etype part.key.keyType).filter fun _ =>
    ap.authenticator.etype == part.key.keyType)
  let authPlain ← failed (etype.decrypt part.key.keyValue 11 ap.authenticator.cipher)
  let authenticator ← failed ((E.authenticator authPlain).filter fun a =>
    a.authenticatorVNO == 5 && a.crealm == part.crealm &&
      sameProtocolPrincipal a.cname part.cname &&
      a.ctime.present && withinSkew s.skew (clk .lockout) a.ctime.time)
  let subKey ← failed (authenticator.subKey.filter fun k =>
    k.keyType == part.key.keyType && k.keyValue.length == etype.keySize)
  let armorKey ← failed
    (E.cf2 etype subKey.keyValue part.key.keyValue (str "subkeyarmor") (str "ticketarmor"))
  .ok (etype, armorKey)

def unwrapFASTASReq (E : Env) (s : Server) (clk : ASClock) (request : KDCReq) (raw : Bytes) :
    Except (ℤ × Option FastContext) (KDCReq × Option FastContext) :=
  match findPA request.paData 136 with
  | none => .ok (request, none)
  | some pa =>
    match (E.fastRequest pa.paDataValue).bind fun w => w.armor.map fun a => (w, a) with
    | none => .error (Err.PreauthFailed, none)
    | some (wrapper, armor) =>
      if armor.armorType != 1 then .error (Err.PreauthFailed, none)
      else
        match openArmor E s clk armor with
        | .error code => .error (code, none)
        | .ok (etype, armorKey) =>
          match E.fieldContent raw [10, 4] with
          | none => .error (Err.PreauthFailed, some ⟨etype, armorKey, 0, none⟩)
          | some body => openFAST etype armorKey E request wrapper body

/-- The client of a request: the well-known anonymous principal, a principal of the
database, or one behind an alias. -/
def asClient (s : Server) (body : KDCReqBody) (named : Principal) (fail : ℤ → ErrorReply) :
    Handled (Principal × PrincipalRecord) :=
  if has body.kdcOptions KDC.RequestAnonymous then
    .ok (anonymousPrincipal, { name := anonymousPrincipal })
  else
    match s.db.lookup named with
    | .error _ => .error (.reply (fail Err.Generic))
    | .ok (some record) => .ok (named, record)
    | .ok none =>
      if has body.kdcOptions KDC.Canonicalize then
        match s.lookupAlias named with
        | .error _ => .error (.reply (fail Err.Generic))
        | .ok none => .error (.reply (fail Err.CPrincipal))
        | .ok (some (record, canonicalName)) => .ok (canonicalName, record)
      else .error (.reply (fail Err.CPrincipal))

/-- The enctype and keys of the exchange; without a client key the key is zero. -/
def asKeys (E : Env) (s : Server) (c : KDCReq) (anonymous : Bool)
    (client service : PrincipalRecord) :
    Option (Int32 × Key × Key) :=
  let serviceOnly := (selectPKINITServiceKey E c.reqBody.etype service).map fun (etypeID, key) =>
    (etypeID, (⟨0, 0, [], []⟩ : Key), key)
  if (findPA c.paData 16).isSome || anonymous || s.otpVerify.isSome then serviceOnly
  else (selectASKeys c.reqBody.etype client service).or
    (if !s.preauthModules.isEmpty || (s.pkinitIdentity && s.pkinitClientCAs) then serviceOnly
      else none)

/-- `handleASReqCore` down to the choice of keys. -/
def openAS (E : Env) (s : Server) (clk : ASClock) (request : KDCReq) (raw : Bytes) :
    Handled ASContext := do
  require (request.pvno == 5 && request.msgType == 10 && request.reqBody.cname.isSome &&
    request.reqBody.sname.isSome && request.reqBody.realm != [])
    (s.errorReply none Err.Generic request.reqBody.sname)
  let (request, armor) ← orReply (unwrapFASTASReq E s clk request raw) fun (code, armor) =>
    s.errorReply armor code request.reqBody.sname
  let body := request.reqBody
  let fail (code : ℤ) := s.errorReply none code body.sname
  let cname ← deref body.cname
  let named := principalFromProtocol cname body.realm
  let anonymous := has body.kdcOptions KDC.RequestAnonymous
  require (!anonymous || isAnonymousPrincipal named) (fail Err.BadOption)
  let (clientName, found) ← asClient s body named fail
  let (lockedOut, client) := if anonymous then (false, found) else s.lockedOut (clk .lockout) found
  require (!lockedOut) (fail Err.ClientRevoked)
  let sname ← deref body.sname
  let serviceName := principalFromProtocol sname body.realm
  require (!s.restrictAnonymous clientName serviceName) (fail Err.Policy)
  let service ← s.lookupOr fail serviceName Err.SPrincipal
  unlessError ((validateASAccount clk client service body.kdcOptions).map fail)
  let (etypeID, clientKey, serviceKey) ← orFail (asKeys E s request anonymous client service)
    (fail Err.ETypeNoSupp)
  .ok { request, armor, anonymous, requestClient := named, clientName, client, serviceName, service
        etypeID, clientKey, serviceKey }

namespace ASContext

variable (E : Env) (s : Server) (clk : ASClock) (c : ASContext)

/-- An error inside the armor of the exchange, if there is one. -/
def armored (code : ℤ) (data : MethodData := []) : ErrorReply :=
  s.errorReply c.armor code c.request.reqBody.sname [] data

/-- An error outside the armor. -/
def bare (code : ℤ) : ErrorReply := s.errorReply none code c.request.reqBody.sname

def requiresHWAuth : Bool := has c.client.flags KDB.RequiresHWAuth

def preauthRequired : Bool :=
  !s.disablePreauth || customPreauthRequired s ||
    has c.client.flags (KDB.RequiresPreAuth ||| KDB.RequiresHWAuth)

/-- The padata of a type. -/
def pa (kind : Int32) : Option PAData := findPA c.request.paData kind

/-- The keys of the client the modules see: the chosen one, then those of the other
requested enctypes. -/
def clientKeys : List Key :=
  let chosen := if c.clientKey.enctype != 0 then [c.clientKey] else []
  c.request.reqBody.etype.foldl (fun keys enctype =>
    match c.client.keys.lookup enctype with
    | some key => if keys.any (·.enctype == enctype) then keys else keys ++ [{ key with enctype }]
    | none => keys) chosen

def rock : PreauthRock :=
  { client := c.clientName, service := c.serviceName, clientEntry := c.client
    clientKeys := c.clientKeys, request := c.request
    armorKey := c.armor.map fun a => ⟨a.etype.id, a.key⟩ }

/-- `customPreauthFailure`: a required module has not verified the client. -/
def customPreauthFailure (verified : List Bytes) : Option ErrorReply :=
  if customPreauthRequired s && !customPreauthSatisfied s verified then
    some (c.armored s Err.PreauthFailed) else none

/-- ETYPE-INFO2 for the chosen key. -/
def etypeHint : MethodData :=
  if c.clientKey.enctype = 0 then []
  else
    let salt := if c.clientKey.salt ≠ [] then c.clientKey.salt
      else c.clientName.realm ++ c.clientName.components.flatten
    [⟨19, E.etypeInfo c.etypeID salt⟩]

/-- The record after a successful authentication. -/
def succeeded : PrincipalRecord := Server.recordPreauthSuccess (clk .success) c.client

/-- The hook `Authorize` on an AS exchange. -/
def authorized : Handled Unit :=
  unlessError (s.authorizationError c.clientName c.serviceName true c.armor)

/-- The password has expired and the service does not change passwords. -/
def keyExpired : Bool := Server.passwordExpiredForService (clk .keyExpiry) c.client c.service

/-- A client the registered modules have authenticated. -/
def modulePath (st : ModuleState) : Handled ASReply := do
  let result := st.aggregate
  let failed := c.armored s Err.PreauthFailed
  unlessError (c.customPreauthFailure s st.required)
  require (!c.requiresHWAuth || result.hardwareAuthenticated) failed
  c.authorized s
  require (c.clientKey.enctype != 0 || result.replacedReplyKey.isSome) failed
  let replyPAs ← orFail (st.successes.mapM fun (m, r) =>
    m.returnPadata.elim (some []) fun f => f c.rock r) failed
  buildASRep E s clk c
    { client := c.succeeded clk, etypeID := c.etypeID, clientKey := c.clientKey
      preauthenticated := true, replyKey := result.replacedReplyKey, replyPAs := replyPAs.flatten
      indicators := result.authIndicators, hwAuthenticated := result.hardwareAuthenticated
      authData := result.authorizationData }

/-- The OTP verifier: the value decrypts under the armor, its nonce is fresh, and the
backend accepts it. -/
def verifyOTP (pa : PAData) (armor : FastContext) : Option (List Bytes) := do
  let verify ← s.otpVerify
  let (encData, value) ← E.otpRequest pa.paDataValue
  guard (encData.etype = armor.etype.id)
  let nonce ← E.otpNonce armor encData
  guard (E.validateNonce nonce armor.etype.keySize (clk .nonce) s.skew)
  verify c.clientName value

def otpPath (st : ModuleState) (pa : PAData) : Handled ASReply := do
  let armor ← orFail (c.armor.filter fun _ => s.otpVerify.isSome) (c.bare s Err.PreauthFailed)
  let indicators ← orFail (c.verifyOTP E s clk pa armor) (c.armored s Err.PreauthFailed)
  require (!c.requiresHWAuth) (c.armored s Err.PreauthFailed)
  c.authorized s
  unlessError (c.customPreauthFailure s st.required)
  buildASRep E s clk c
    { client := c.succeeded clk, etypeID := armor.etype.id, clientKey := c.clientKey
      preauthenticated := true, replyKey := some ⟨armor.etype.id, 0, armor.key, []⟩, indicators }

/-- The client keys an encrypted challenge is tried with: the requested enctypes
first, then the others as the map yields them. -/
def challengeCandidates : List Key :=
  let requested := c.request.reqBody.etype.filter fun e => (c.client.keys.lookup e).isSome
  let others := (E.keyOrder c.client.keys.keys).filter fun e => !requested.contains e
  (requested ++ others).filterMap fun e => (c.client.keys.lookup e).map fun k =>
    { k with enctype := e }

/-- The encrypted-challenge verifier: the first client key that opens it. -/
def verifyChallenge (pa : PAData) (armor : FastContext) : Option (Key × EType × ℤ) :=
  ((c.challengeCandidates E).findSome? fun key =>
    (E.etype key.enctype).bind fun etype =>
      (E.encryptedChallenge armor etype key.key pa.paDataValue).map fun t => (key, etype, t)).filter
    fun found => found.1.enctype != 0

def challengePath (st : ModuleState) (pa : PAData) : Handled ASReply := do
  let armor ← orFail c.armor (c.bare s Err.PreauthFailed)
  let (key, etype, timestamp) ← orFail (c.verifyChallenge E pa armor)
    (c.armored s Err.PreauthFailed)
  require (withinSkew s.skew (clk .freshness) timestamp) (c.armored s Err.Skew)
  require (!c.keyExpired clk) (c.armored s Err.KeyExpired)
  c.authorized s
  require (!c.requiresHWAuth) (c.armored s Err.PreauthFailed)
  unlessError (c.customPreauthFailure s st.required)
  let replyPA ← orFail (E.encryptedChallengeReply armor etype key.key (clk .reply))
    (c.armored s Err.Generic)
  buildASRep E s clk c
    { client := c.succeeded clk, etypeID := c.etypeID, clientKey := key, preauthenticated := true
      replyPAs := [replyPA]
      indicators := if s.encryptedChallengeIndicator = [] then []
        else [s.encryptedChallengeIndicator] }

def spakeGroups : List Int32 := if s.spakeGroups = [] then [1] else s.spakeGroups

/-- `selectSPAKEGroup`: the first offered group that is permitted and known. -/
def selectSPAKEGroup : Option Int32 :=
  if !s.enableSPAKE then none
  else do
    let pa ← c.pa 151
    let offered ← E.spakeSupport pa.paDataValue
    (offered.find? fun g => (spakeGroups s).contains g && E.spakeGroupInfo g).filter (· != 0)

/-- The challenge for a group the client offers. -/
def spakeChallengeError (group : Int32) : ErrorReply :=
  match c.pa 151, E.etype c.etypeID with
  | some pa, some etype =>
    match E.spakeChallenge etype c.clientKey.key group (clk .nonce) pa.paDataValue with
    | some (challenge, cookie) =>
      let data := [⟨151, challenge⟩] ++ c.etypeHint E ++ preauthModuleHints s c.rock ++
        [⟨133, cookie⟩]
      if c.armor.isSome then c.armored s Err.PreauthRequired data
      else c.armored s Err.MorePreauth data
    | none => c.bare s Err.PreauthFailed
  | _, _ => c.bare s Err.PreauthFailed

/-- The SPAKE verifier: the second factor opens under the key the exchange derives
from the client's key. -/
def verifySPAKE (response : SPAKEResponse) : Except ErrorReply Bytes := do
  let failed {α : Type} (e : ErrorReply) (value : Option α) : Except ErrorReply α :=
    match value with
    | some a => .ok a
    | none => .error e
  let cookie ← failed (c.bare s Err.PreauthFailed) (c.pa 133)
  let (group, secret, transcript) ← failed (c.bare s Err.PreauthFailed)
    ((E.spakeCookie cookie.paDataValue (clk .freshness)).filter fun t =>
      (spakeGroups s).contains t.1)
  let etype ← failed (c.bare s Err.PreauthFailed) (E.etype c.etypeID)
  let derive (n : ℕ) := failed (c.bare s Err.PreauthFailed)
    (E.spakeKey etype c.clientKey.key group secret transcript response c.request.reqBody n)
  let k1 ← derive 1
  if response.factor.etype ≠ c.etypeID then .error (c.bare s Err.PreauthFailed)
  else
    let factor ← failed (c.armored s Err.PreauthFailed)
      ((etype.decrypt k1 65 response.factor.cipher).bind E.spakeFactor)
    if factor ≠ 1 then .error (c.armored s Err.PreauthFailed)
    else derive 0

def spakePath (st : ModuleState) (response : SPAKEResponse) : Handled ASReply := do
  let key ← orReply (c.verifySPAKE E s clk response) id
  require (!c.keyExpired clk) (c.bare s Err.KeyExpired)
  c.authorized s
  require (!c.requiresHWAuth) (c.bare s Err.PreauthFailed)
  unlessError (c.customPreauthFailure s st.required)
  buildASRep E s clk c
    { client := c.succeeded clk, etypeID := c.etypeID, clientKey := c.clientKey
      preauthenticated := true, replyKey := some ⟨c.etypeID, 0, key, []⟩
      indicators := s.spakePreauthIndicators }

def pkinitFreshnessError (code : ℤ) : ErrorReply :=
  match E.makeFreshnessToken c.request.reqBody.etype with
  | none => c.armored s code
  | some token => c.armored s code [⟨16, []⟩, ⟨150, token⟩]

/-- The PKINIT verifier: a fresh, signed request under a certificate that is trusted
and authorized for the client; an unsigned one for an anonymous client. The result
says whether the certificate stands for hardware authentication. -/
def verifyPKINIT (pa : PAData) (raw : Bytes) :
    Except ErrorReply (PKINITVerified × Bool × List Bytes) := do
  let failed := c.bare s Err.PreauthFailed
  if !s.pkinitIdentity || (!c.anonymous && !s.pkinitClientCAs) then .error failed
  else
    match (E.fieldContent raw [10, 4]).bind (E.verifyPAASReqForKDC pa.paDataValue) with
    | none => .error failed
    | some verified =>
      if verified.nonce ≠ c.request.reqBody.nonce ∨ verified.ctime = zeroTime ∨
          withinSkew s.skew (clk .freshness) verified.ctime = false then .error failed
      else if verified.freshnessToken ≠ [] ∧
        E.verifyFreshnessToken verified.freshnessToken = false then
        .error (c.pkinitFreshnessError E s Err.PreauthExpired)
      else if verified.freshnessToken = [] ∧ s.pkinitRequireFreshness = true ∧
        c.anonymous = false then
        .error (c.pkinitFreshnessError E s Err.PreauthFailed)
      else if c.anonymous then
        if verified.signed then .error failed else .ok (verified, false, [])
      else if !verified.signed then .error failed
      else if !E.clientTrust verified.certificate verified.intermediates then
        .error (c.bare s Err.ClientNotTrusted)
      else
        match authorizeCertificate s verified.certificate c.requestClient c.client with
        | .error code => .error (c.bare s code)
        | .ok (hwauth, indicators) => .ok (verified, hwauth, indicators)

def pkinitPath (st : ModuleState) (raw : Bytes) (pa : PAData) : Handled ASReply := do
  let (verified, hwauth, certIndicators) ← orReply (c.verifyPKINIT E s clk pa raw) id
  require (!c.requiresHWAuth || hwauth) (c.bare s Err.PreauthFailed)
  require (!c.keyExpired clk) (c.bare s Err.KeyExpired)
  c.authorized s
  let kdfClient := if c.anonymous then anonymousPrincipal else c.requestClient
  let (paRep, key) ← orReply
    (E.buildPAASRep verified c.etypeID c.request kdfClient c.serviceName) fun parameters =>
      parameters.elim (c.bare s Err.PreauthFailed) fun td =>
        s.errorReply none Err.DHKeyParameters c.request.reqBody.sname [] [⟨109, td⟩]
  unlessError (c.customPreauthFailure s st.required)
  buildASRep E s clk c
    { client := c.succeeded clk, etypeID := c.etypeID, clientKey := c.clientKey
      preauthenticated := true, replyKey := some ⟨c.etypeID, 0, key, []⟩, replyPAs := [paRep]
      indicators := if c.anonymous then [] else s.pkinitIndicators ++ certIndicators
      hwAuthenticated := hwauth }

/-- A client that needs no preauthentication. -/
def openPath : Handled ASReply := do
  require (!c.keyExpired clk) (c.bare s Err.KeyExpired)
  c.authorized s
  buildASRep E s clk c
    { client := c.client, etypeID := c.etypeID, clientKey := c.clientKey,
      preauthenticated := false }

/-- PREAUTH_REQUIRED with the mechanisms on offer. -/
def preauthRequiredError : ErrorReply :=
  let pkinit := s.pkinitIdentity && s.pkinitClientCAs
  let freshness := if pkinit && (c.pa 150).isSome then
    ((E.makeFreshnessToken c.request.reqBody.etype).map fun t => (⟨150, t⟩ : PAData)).toList else []
  c.armored s Err.PreauthRequired
    ((if c.armor.isNone then [⟨2, []⟩] else []) ++ c.etypeHint E ++
      (if c.armor.isSome && c.clientKey.enctype != 0 then [⟨138, []⟩] else []) ++
      (if pkinit then [⟨16, []⟩] else []) ++ freshness ++ preauthModuleHints s c.rock)

/-- The encrypted-timestamp verifier. -/
def verifyTimestamp (pa : PAData) : Except ErrorReply Unit :=
  match E.etype c.etypeID with
  | none => .error (c.bare s Err.ETypeNoSupp)
  | some etype =>
    let cipher := match E.encryptedData pa.paDataValue with
      | some e => if e.etype = c.etypeID ∧ e.cipher ≠ [] then e.cipher else pa.paDataValue
      | none => pa.paDataValue
    match etype.decrypt c.clientKey.key 1 cipher with
    | none => .error (c.armored s Err.PreauthFailed)
    | some plain =>
      match (E.encTimestamp plain).filter fun t =>
          t.present && withinSkew s.skew (clk .freshness) t.time with
      | none => .error (c.armored s Err.Skew)
      | some _ => .ok ()

def timestampPath (st : ModuleState) (pa : PAData) : Handled ASReply := do
  orReply (c.verifyTimestamp E s clk pa) id
  require (!c.keyExpired clk) (c.armored s Err.KeyExpired)
  c.authorized s
  require (!c.requiresHWAuth) (c.armored s Err.PreauthFailed)
  unlessError (c.customPreauthFailure s st.required)
  buildASRep E s clk c
    { client := c.succeeded clk, etypeID := c.etypeID, clientKey := c.clientKey
      preauthenticated := true }

/-- The built-in paths behind OTP and the encrypted challenge. -/
def keyPaths (raw : Bytes) (st : ModuleState) : Handled ASReply :=
  let plain := !c.anonymous && !c.requiresHWAuth && (c.pa 2).isNone && (c.pa 16).isNone
  if plain && s.enableSPAKE && (c.pa 151).isNone && c.preauthRequired s then
    .error (.reply (c.armored s Err.PreauthRequired
      ([⟨2, []⟩, ⟨151, []⟩] ++ c.etypeHint E ++ preauthModuleHints s c.rock)))
  else
    match (c.selectSPAKEGroup E s).filter fun _ => plain && !s.disablePreauth with
    | some group => .error (.reply (c.spakeChallengeError E s clk group))
    | none =>
      match (c.pa 151).map fun pa => E.spakeDecode pa.paDataValue with
      | some none => .error (.reply (c.bare s Err.PreauthFailed))
      | some (some (some response)) => c.spakePath E s clk st response
      | _ =>
        match c.pa 16, c.pa 2 with
        | some pa, _ => c.pkinitPath E s clk st raw pa
        | none, some pa => c.timestampPath E s clk st pa
        | none, none =>
          if c.preauthRequired s then .error (.reply (c.preauthRequiredError E s))
          else c.openPath E s clk

/-- The answer for a client no registered module has authenticated. -/
def builtinPaths (raw : Bytes) (st : ModuleState) : Handled ASReply :=
  if c.anonymous && (c.pa 16).isNone then
    if !s.pkinitIdentity then .error (.reply (c.bare s Err.BadOption))
    else
      let freshness := if (c.pa 150).isSome then
        ((E.makeFreshnessToken c.request.reqBody.etype).map fun t => (⟨150, t⟩ : PAData)).toList
          else []
      .error (.reply (c.armored s Err.PreauthRequired ([⟨16, []⟩] ++ freshness)))
  else if s.otpVerify.isSome && !c.requiresHWAuth && !c.anonymous && (c.pa 16).isNone &&
      (c.pa 2).isNone && (c.pa 151).isNone && (c.pa 142).isNone && c.preauthRequired s then
    match c.armor with
    | none => .error (.reply (c.bare s Err.PreauthFailed))
    | some armor =>
      match E.otpChallenge (clk .nonce) armor.etype.keySize c.clientName with
      | none => .error (.reply (c.bare s Err.Generic))
      | some data => .error (.reply (c.armored s Err.PreauthRequired data))
  else
    match c.pa 142 with
    | some pa => c.otpPath E s clk st pa
    | none =>
      if s.otpVerify.isSome && !c.requiresHWAuth && c.armor.isNone && !c.anonymous then
        .error (.reply (c.bare s Err.PreauthFailed))
      else
        match c.pa 138 with
        | some pa => c.challengePath E s clk st pa
        | none => c.keyPaths E s clk raw st

end ASContext

def handleASReqCore (E : Env) (s : Server) (clk : ASClock) (request : KDCReq) (raw : Bytes) :
    Handled ASReply := do
  let c ← openAS E s clk request raw
  match verifyPreauthModules s c.rock c.request.paData with
  | .error _ => .error (.reply (c.armored s Err.PreauthFailed))
  | .ok st =>
    if st.aggregate.authenticated then c.modulePath E s clk st else c.builtinPaths E s clk raw st

end Kerberos
