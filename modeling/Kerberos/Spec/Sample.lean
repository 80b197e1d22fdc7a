import Kerberos.Spec.World

/-!
# A KDC small enough to evaluate

The packages around the KDC at their simplest: encryption is the identity under any key
of one byte, every checksum verifies, and the codec returns the values it is given. The realm `R`
has a client `c`, a service `s` and its ticket-granting service, with one key each.
-/

namespace Kerberos.Sample

def aes : EType where
  id := 18
  keySize := 1
  checksumSize := 12
  encrypt _ _ p := some p
  decrypt k _ c := if k.length = 1 then some c else none
  checksum _ _ _ := some [0]
  verifyChecksum _ _ _ _ := true

def realm : Bytes := str "R"

def client : PrincipalName := ⟨1, [str "c"]⟩

def service : PrincipalName := ⟨2, [str "s"]⟩

def tgs : PrincipalName := protocolPrincipal (krbtgt realm)

def key : Key := ⟨18, 1, [7], []⟩

def keys : GoMap Int32 Key := AList.singleton 18 key

def record (name : PrincipalName) : PrincipalRecord :=
  { name := principalFromProtocol name realm, keys, kvno := 1 }

/-- The database, with the client's record. -/
def store (clientRecord : PrincipalRecord) : Store where
  lookup p :=
    if p.components = client.nameString then .ok (some clientRecord)
    else if p.components = service.nameString then .ok (some (record service))
    else if p.components = tgs.nameString then .ok (some (record tgs))
    else .ok none

/-- The authenticator of the client. -/
def authenticator (ctime : ℤ) : Authenticator :=
  { authenticatorVNO := 5, crealm := realm, cname := client, checksum := some ⟨16, [1]⟩, cusec := 0
    ctime := .at ctime, subKey := none }

/-- The AP-REQ for a ticket-granting ticket. -/
def apReq : APReq where
  pvno := 5
  msgType := 14
  ticket := ⟨5, realm, tgs, ⟨18, some 1, []⟩⟩
  authenticator := ⟨18, none, []⟩

/-- The packages around a request that presents `part` with `auth`. -/
def env (part : EncTicketPart) (auth : Authenticator) : Env where
  etype e := if e = 18 then some aes else none
  cf2 _ _ _ _ _ := none
  random n := some (List.replicate n 9)
  mapOrder := id
  mapOrder_perm _ := List.Perm.refl _
  keyOrder := id
  keyOrder_perm _ := List.Perm.refl _
  trimSpace := id
  fields _ := []
  apReq _ := some apReq
  encTicketPart _ := some part
  authenticator _ := some auth
  fastRequest _ := none
  krbFastReq _ := none
  s4uX509User _ := none
  forUser _ := none
  authorizationData _ := none
  utf8Strings _ := none
  encryptedData _ := none
  encTimestamp _ := some auth.ctime
  fieldContent _ _ := some []
  marshalUserID _ := []
  marshalS4UX509User _ := []
  marshalAuthorizationData _ := []
  marshalTicketPart _ := []
  marshalRepPart _ := []
  marshalKey _ := []
  marshalEncryptedData _ := []
  protectedElements _ := .error .notFound
  verifyKDC _ _ _ := .error .notFound
  wrapCAMMAC _ _ _ _ _ := none
  pacClient _ _ _ := .error .notFound
  signPAC _ _ _ _ _ _ _ _ _ _ := none
  marshalStrings _ := []
  otpRequest _ := none
  otpNonce _ _ := none
  validateNonce _ _ _ _ := false
  otpChallenge _ _ _ := none
  encryptedChallenge _ _ _ _ := none
  encryptedChallengeReply _ _ _ _ := none
  spakeSupport _ := none
  spakeDecode _ := none
  spakeGroupInfo _ := false
  spakeChallenge _ _ _ _ _ := none
  spakeCookie _ _ := none
  spakeKey _ _ _ _ _ _ _ _ := none
  spakeFactor _ := none
  etypeInfo _ _ := []
  verifyPAASReqForKDC _ _ := none
  clientTrust _ _ := false
  verifyFreshnessToken _ := false
  makeFreshnessToken _ := none
  buildPAASRep _ _ _ _ _ := .error none
  verifyPAForUserChecksum _ _ _ _ := false
  wrapFASTRep _ _ _ _ _ _ := none
  appendTransited _ _ := none
  transitedPermitted _ _ _ := false

/-- The KDC, with its defaults. -/
def server : Server := { realm, db := store (record client) }

/-- A request for `name` until `till`. -/
def body (options : Flags) (name : PrincipalName) (till : ℤ) : KDCReqBody :=
  { kdcOptions := options, cname := some client, realm, sname := some name, «from» := none
    till := .at till, rtime := none, nonce := 1, etype := [18], addresses := []
    encAuthorizationData := none, additionalTickets := [] }

/-- An AS request with an encrypted timestamp. -/
def asRequest (options : Flags) (till : ℤ) : KDCReq :=
  ⟨5, 10, [⟨2, [1]⟩], body options tgs till⟩

/-- A TGS request. -/
def tgsRequest (options : Flags) (name : PrincipalName) (till : ℤ) : KDCReq :=
  ⟨5, 12, [⟨1, []⟩], body options name till⟩

/-- The clock stands still during an exchange. -/
def clock {α : Type} (now : ℤ) : α → ℤ := fun _ => now

theorem clock_runs {now later : ℤ} (h : now ≤ later) : Clock.Runs (clock later) now later :=
  ⟨fun _ => ⟨h, le_rfl⟩, fun _ _ _ => le_rfl⟩

theorem asClock_runs {now later : ℤ} (h : now ≤ later) : ASClock.Runs (clock later) now later :=
  ⟨fun _ => ⟨h, le_rfl⟩, fun _ _ _ => le_rfl⟩

/-- The ticket an AS exchange at `now` gives the client. -/
def tgt (flags : Flags) (now finish : ℤ) (renewTill : Option KerberosTime) : EncTicketPart :=
  { flags, key := ⟨18, [9]⟩, crealm := realm, cname := client, transited := ⟨0, []⟩
    authTime := .at now, startTime := some (.at now), endTime := .at finish, renewTill, caddr := []
    authorizationData := [] }

/-! ## Two exchanges -/

/-- An initial ticket for ten hours, at time zero. -/
def first : EncTicketPart := tgt (Ticket.Initial ||| Ticket.PreAuthent) 0 (10 * hour) none

/-- Such a ticket as the KDC of another realm gives it, without INITIAL. -/
def foreign : EncTicketPart := tgt Ticket.PreAuthent 0 (10 * hour) none

/-- The client authenticates at time zero. -/
def login : Event :=
  .asReq (env first (authenticator 0)) server.db (clock 0) (asRequest 0 (10 * hour)) []

/-- The client asks at `now`, with `part` and an authenticator of `ctime`, for a ticket
until `till`. -/
def ask (part : EncTicketPart) (ctime now till : ℤ) : Event :=
  .tgsReq (env part (authenticator ctime)) server.db (clock now) (tgsRequest 0 service till) []

/-- The service ticket the client gets for `part`. -/
def serviceTicket (part : EncTicketPart) (finish : ℤ) : EncTicketPart :=
  { part with startTime := none, endTime := .at finish }

/-- The KDC after the client, with one ticket, has asked for another. -/
def afterAsk (t : Issued) (ctime now finish : ℤ) : World where
  clock := now
  replays :=
    (∅ : ReplayTable).insert (replayKey realm client (authenticator ctime)) (now + 5 * minute)
  tickets := [.derived t 0 (serviceTicket t.part finish), t]

theorem login_step : KDCStep server (World.start 0) login ⟨0, ∅, [.initial first]⟩ := by
  obtain ⟨reply, h, hp⟩ : ∃ reply, handleASReqCore (env first (authenticator 0)) server (clock 0)
      (asRequest 0 (10 * hour)) [] = .ok reply ∧ reply.ticketPart.onWire = first := ⟨_, rfl, rfl⟩
  have hstep := KDCStep.asIssued (s := server) (w := World.start 0) (asClock_runs le_rfl) h
  rwa [hp] at hstep

theorem ask_step {t : Issued} {ctime now till finish : ℤ} (h : (t.part, ctime, now, till, finish) ∈
    [(first, 9 * hour, 9 * hour, 10 * hour, 10 * hour),
      (first, 9 * hour, 9 * hour, 100 * hour, 19 * hour),
      (foreign, 9 * hour, 9 * hour, 10 * hour, 10 * hour), (first, 0, 0, 10 * hour, 10 * hour),
      (first, 0, second, 10 * hour, 10 * hour)]) :
    KDCStep server ⟨0, ∅, [t]⟩ (ask t.part ctime now till) (afterAsk t ctime now finish) := by
  obtain ⟨hnow, a, reply, replays, ha, hh, h, ho, hr, hp⟩ : 0 ≤ now ∧ ∃ a reply replays,
      admitTGS (env t.part (authenticator ctime)) server (clock now)
        (tgsRequest 0 service till) [] =
        .ok a ∧ a.header.ticketPart = t.part ∧
      handleTGSReqCore (env t.part (authenticator ctime)) server (clock now) ∅
        (tgsRequest 0 service till) [] = (.ok reply, replays) ∧
      a.request.reqBody.kdcOptions = 0 ∧ replays = (afterAsk t ctime now finish).replays ∧
      reply.ticketPart.onWire = serviceTicket t.part finish := by
    generalize t.part = part at h
    simp only [List.mem_cons, Prod.mk.injEq, List.not_mem_nil, or_false] at h
    rcases h with h | h | h | h | h <;> obtain ⟨rfl, rfl, rfl, rfl, rfl⟩ := h
    all_goals exact ⟨by decide, _, _, _, rfl, rfl, rfl, rfl, rfl, rfl⟩
  have hstep := KDCStep.tgsIssued (s := server) (w := ⟨0, ∅, [t]⟩) (clock_runs hnow)
    (List.mem_singleton.2 rfl) ha hh h
  rwa [hp, ho, hr] at hstep

end Kerberos.Sample
