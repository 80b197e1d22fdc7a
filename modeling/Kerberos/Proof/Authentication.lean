import Kerberos.Proof.FlagEdits
import Kerberos.Proof.Modules
import Kerberos.Proof.Stages
import Kerberos.Spec.Sample

/-!
# No initial ticket without authentication

The AS handler tries its paths in a fixed order, and each ends in `buildASRep`. On every
path but one a mechanism has verified the client in this request (`Verified`); the last
one is for clients that need no preauthentication. PRE-AUTHENT is set exactly in the
first case.

* `buildASRep_preAuthent`: the flag is what the path says.
* `modulePath_accounted` and its companions: one lemma for each path.
* `as_reply_authenticated`: the handler.
-/

namespace Kerberos

open Bits List Except Bool

variable {E : Env} {s : Server} {clk : ASClock} {c : ASContext} {request : KDCReq} {raw : Bytes}
  {reply : ASReply}

/-! ## Who is verified -/

/-- The cryptography checks the length of a key before it uses it. -/
structure KeysChecked (E : Env) : Prop where
  keySize_pos : ∀ {e t}, E.etype e = some t → 0 < t.keySize
  decrypt : ∀ {e t key usage cipher plain}, E.etype e = some t →
    t.decrypt key usage cipher = some plain → key.length = t.keySize
  spakeKey : ∀ {e t key group secret transcript response body n out}, E.etype e = some t →
    E.spakeKey t key group secret transcript response body n = some out → key.length = t.keySize

/-- A key of the record, under its enctype. -/
def HasKey (record : PrincipalRecord) (key : Key) : Prop :=
  ∃ e k, record.keys.lookup e = some k ∧ key = { k with enctype := e }

/-- **A mechanism has verified the client in this request**; the index says whether with
hardware. The mechanisms that rest on a long-term key rest on one of the client's. -/
inductive Verified (E : Env) (s : Server) (clk : ASClock) (c : ASContext) (raw : Bytes) :
    Bool → Prop
  | modules {m pa r} (hm : m ∈ registered s.preauthModules)
    (hv : Vouches c.rock c.request.paData m pa r) :
      Verified E s clk c raw (hardwareVouched m pa r)
  | otp {pa armor indicators} (hpa : c.pa 142 = some pa) (harmor : c.armor = some armor)
      (h : c.verifyOTP E s clk pa armor = some indicators) : Verified E s clk c raw false
  | challenge {pa armor key etype t} (hpa : c.pa 138 = some pa) (harmor : c.armor = some armor)
      (hkey : HasKey c.client key) (h : c.verifyChallenge E pa armor = some (key, etype, t))
      (hfresh : withinSkew s.skew (clk .freshness) t = true) : Verified E s clk c raw false
  | spake {pa response key} (hpa : c.pa 151 = some pa)
      (hdecode : E.spakeDecode pa.paDataValue = some (some response))
        (hkey : HasKey c.client c.clientKey)
      (h : c.verifySPAKE E s clk response = .ok key) : Verified E s clk c raw false
  | pkinit {pa verified hardware indicators} (hpa : c.pa 16 = some pa)
      (h : c.verifyPKINIT E s clk pa raw = .ok (verified, hardware, indicators)) :
      Verified E s clk c raw hardware
  | timestamp {pa} (hpa : c.pa 2 = some pa) (hkey : HasKey c.client c.clientKey)
      (h : c.verifyTimestamp E s clk pa = .ok ()) : Verified E s clk c raw false

/-- For every registered module flagged PA_REQUIRED, one of its name has vouched for the
client, on a type flagged so. -/
def RequiredVouched (s : Server) (c : ASContext) : Prop :=
  ∀ m ∈ registered s.preauthModules, m.isRequired = true →
    ∃ m' ∈ registered s.preauthModules, m'.name = m.name ∧ ∃ pa r,
      Vouches c.rock c.request.paData m' pa r ∧ has (m'.flags pa.paDataType) PA.Required = true

/-- The ways to a ticket with PRE-AUTHENT. -/
structure Authenticated (E : Env) (s : Server) (clk : ASClock) (c : ASContext) (raw : Bytes) :
    Prop where
  verified : ∃ hardware, Verified E s clk c raw hardware
  required : RequiredVouched s c
  hardware : c.requiresHWAuth = true → Verified E s clk c raw true

/-- **The last path**: nobody is verified, and nobody need be. -/
structure Unauthenticated (E : Env) (s : Server) (clk : ASClock) (c : ASContext) (raw : Bytes) :
    Prop where
  unverified : ∀ hardware, ¬ Verified E s clk c raw hardware
  disabled : s.disablePreauth = true
  notRequired : customPreauthRequired s = false
  noPreAuth : has c.client.flags KDB.RequiresPreAuth = false
  noHWAuth : has c.client.flags KDB.RequiresHWAuth = false

/-- **A reply accounts for its request**: the client is authenticated and PRE-AUTHENT is
set, or it is not, need not be, and the flag is not set either. -/
def Accounted (E : Env) (s : Server) (clk : ASClock) (c : ASContext) (raw : Bytes)
    (reply : ASReply) :
    Prop :=
  Authenticated E s clk c raw ∧ has reply.ticketPart.flags Ticket.PreAuthent = true ∨
    Unauthenticated E s clk c raw ∧ has reply.ticketPart.flags Ticket.PreAuthent = false

/-! ## The flag -/

theorem initialFlags_preAuthent (s : Server) (options : Flags) (g : ASGrant)
    (service : PrincipalRecord) :
    has (initialFlags s options g service) Ticket.PreAuthent = g.preauthenticated := by
  unfold initialFlags
  rw [has_setWhen (by decide),
    has_eq_of_edit (applyPrincipalFlagPolicy_edit _ (some g.client) (some service)) (by decide)
      (by decide),
    has_eq_of_edit (applyFlagPolicy_edit s _) (by decide) (by decide), has_setWhen (by decide),
    has_setWhen (by decide), has_setWhen (by decide), has_setWhen (by decide)]
  cases g.preauthenticated <;> decide

theorem asTimes_edit {now : ℤ} {g : ASGrant} {t : TicketTimes} (h : asTimes s now c g = .ok t) :
    Edit lost gained (initialFlags s c.request.reqBody.kdcOptions g c.service) t.flags := by
  unfold asTimes at h
  simp only [bind_ok, orFail_ok] at h
  obtain ⟨⟨start, flags⟩, hstart, times, -, h⟩ := h
  cases h
  have hflags : Edit lost gained
      (initialFlags s c.request.reqBody.kdcOptions g c.service) flags := by
    unfold asStart at hstart
    split at hstart
    · split at hstart
      · obtain ⟨f, -, hf⟩ := Option.map_eq_some_iff.1 hstart
        cases hf
        exact Edit.set (by decide) _
      · cases hstart
    · cases hstart
      exact Edit.refl ..
  have hclear : Edit lost gained flags (if (has g.client.flags KDB.DisallowRenewable ||
      has c.service.flags KDB.DisallowRenewable) = true then clear flags Ticket.Renewable
        else flags) := by
    split
    · exact edit_clear (by decide) flags
    · exact Edit.refl ..
  exact hflags.trans (hclear.trans (edit_setWhen (by decide) _ _))

/-- **PRE-AUTHENT is what the path says.** -/
theorem buildASRep_preAuthent {g : ASGrant} (h : buildASRep E s clk c g = .ok reply) :
    has reply.ticketPart.flags Ticket.PreAuthent = g.preauthenticated := by
  unfold buildASRep at h
  simp only [bind_ok, orFail_ok] at h
  obtain ⟨sname, -, _, -, etype, -, contribution, -, times, htimes, session, -, p1, h1, p2,
    h2, cipher, -, exchanged, -, _, -, replyCipher, -, wrapped, -, h⟩ := h
  cases h
  -- nothing behind `asTimes` touches the flags
  have hflags : p2.flags = times.flags := by
    rw [issuePAC_part h2, issueCAMMAC_part h1]
    obtain ⟨data, hdata⟩ := handleAuthData_eq s _
    rw [hdata]
  simp only [hflags]
  rw [has_eq_of_edit (asTimes_edit htimes) (by decide) (by decide), initialFlags_preAuthent]

/-! ## The keys of the client -/

/-- The key of the exchange is the client's, or the zero key of a client without one. -/
def Keyed (c : ASContext) : Prop := c.clientKey = ⟨0, 0, [], []⟩ ∨ HasKey c.client c.clientKey

variable {e : Int32}

theorem asKeys_ok {anonymous : Bool} {client service : PrincipalRecord} {ck sk : Key}
    (h : asKeys E s request anonymous client service = some (e, ck, sk)) :
    ck = ⟨0, 0, [], []⟩ ∨ HasKey client ck := by
  have serviceOnly (h : (selectPKINITServiceKey E request.reqBody.etype service).map
      (fun r => (r.1, (⟨0, 0, [], []⟩ : Key), r.2)) = some (e, ck, sk)) :
      ck = ⟨0, 0, [], []⟩ := by
    obtain ⟨⟨etypeID, key⟩, -, h⟩ := Option.map_eq_some_iff.1 h
    cases h
    rfl
  unfold asKeys at h
  split at h
  · exact Or.inl (serviceOnly h)
  · rcases Option.or_eq_some_iff.1 h with h | ⟨-, h⟩
    · obtain ⟨enctype, -, h⟩ := exists_of_findSome?_eq_some h
      split at h
      · rename_i k k' hk hk'
        cases h
        exact Or.inr ⟨_, k, hk, rfl⟩
      · cases h
    · split at h
      · exact Or.inl (serviceOnly h)
      · cases h

/-- A key that cryptography has accepted is not the zero key. -/
theorem Keyed.hasKey (hk : Keyed c) (hE : KeysChecked E) {t : EType}
    (he : E.etype e = some t) (hlen : c.clientKey.key.length = t.keySize) :
    HasKey c.client c.clientKey := by
  rcases hk with hzero | hk
  · have hpos := hE.keySize_pos he
    rw [hzero] at hlen
    simp only [length_nil] at hlen
    omega
  · exact hk

/-! ## Opening the request -/

/-- The account checks an opened request has passed. -/
structure AccountAllowed (s : Server) (clk : ASClock) (c : ASContext) : Prop where
  notLocked : ∃ fail found, asClient s c.request.reqBody c.requestClient fail =
    .ok (c.clientName, found) ∧
    s.lockedOut (clk .lockout) found = (false, c.client)
  valid : validateASAccount clk c.client c.service c.request.reqBody.kdcOptions = none

theorem openAS_ok (h : openAS E s clk request raw = .ok c) : AccountAllowed s clk c ∧ Keyed c := by
  unfold openAS at h
  simp only [bind_ok, require_ok, unlessError_ok, orFail_ok, Option.map_eq_none_iff,
    not_eq_true'] at h
  obtain ⟨_, -, ⟨request', armor⟩, -, cname, -, _, -, ⟨name, found⟩, hclient, _, hlock,
    sname, -, _, -, service, -, _, hvalid, ⟨e, ck, sk⟩, hkeys, h⟩ := h
  cases h
  refine ⟨⟨⟨_, found, hclient, ?_⟩, hvalid⟩, asKeys_ok hkeys⟩
  split at hlock
  · rename_i ha
    -- the record of an anonymous client is not locked
    rw [asClient, if_pos ha] at hclient
    rw [if_pos ha]
    cases hclient
    rfl
  · rename_i ha
    rw [if_neg ha]
    exact Prod.ext hlock rfl

/-! ## The paths -/

variable {st : ModuleState} {pa : PAData}

theorem customPreauthFailure_none {verified : List Bytes}
    (h : c.customPreauthFailure s verified = none) :
    ∀ m ∈ registered s.preauthModules, m.isRequired = true → m.name ∈ verified := by
  intro m hm hreq
  unfold ASContext.customPreauthFailure at h
  split at h
  · cases h
  · rename_i hsat
    have hany : customPreauthRequired s = true := any_eq_true.2 ⟨m, hm, hreq⟩
    simp only [hany, Bool.true_and, not_eq_true', not_eq_false, customPreauthSatisfied,
      all_eq_true] at hsat
    have := hsat m hm
    simpa [hreq] using this

theorem challengeCandidates_hasKey {key : Key} (h : key ∈ c.challengeCandidates E) :
    HasKey c.client key := by
  obtain ⟨e, -, h⟩ := mem_filterMap.1 h
  obtain ⟨k, hk, rfl⟩ := Option.map_eq_some_iff.1 h
  exact ⟨e, k, hk, rfl⟩

theorem verifyChallenge_hasKey {armor : FastContext} {key : Key} {etype : EType} {timestamp : ℤ}
    (h : c.verifyChallenge E pa armor = some (key, etype, timestamp)) : HasKey c.client key := by
  obtain ⟨h, -⟩ := Option.filter_eq_some_iff.1 h
  obtain ⟨k, hk, h⟩ := exists_of_findSome?_eq_some h
  obtain ⟨t, -, h⟩ := Option.bind_eq_some_iff.1 h
  obtain ⟨time, -, h⟩ := Option.map_eq_some_iff.1 h
  cases h
  exact challengeCandidates_hasKey hk

theorem verifySPAKE_keySize (hE : KeysChecked E) {response : SPAKEResponse} {key : Bytes}
    (h : c.verifySPAKE E s clk response = .ok key) :
    ∃ e t, E.etype e = some t ∧ c.clientKey.key.length = t.keySize := by
  unfold ASContext.verifySPAKE at h
  simp only [bind_ok] at h
  obtain ⟨cookie, -, ⟨group, secret, transcript⟩, -, t, he, k1, hk1, -⟩ := h
  cases hetype : E.etype c.etypeID with
  | none => simp [hetype] at he
  | some t' =>
    simp only [hetype, ok.injEq] at he
    subst he
    split at hk1
    · rename_i out hout
      exact ⟨_, t', hetype, hE.spakeKey hetype hout⟩
    · cases hk1

theorem verifyTimestamp_keySize (hE : KeysChecked E) (h : c.verifyTimestamp E s clk pa = .ok ()) :
    ∃ e t, E.etype e = some t ∧ c.clientKey.key.length = t.keySize := by
  unfold ASContext.verifyTimestamp at h
  split at h
  · cases h
  · rename_i t he
    simp only at h
    split at h
    · cases h
    · rename_i plain hplain
      exact ⟨_, t, he, hE.decrypt he hplain⟩

section Paths

variable (hj : Justified s c.rock c.request.paData st)

include hj

theorem Justified.requiredVouched (h : c.customPreauthFailure s st.required = none) :
    RequiredVouched s c := by
  intro m hm hreq
  exact hj.required m.name (customPreauthFailure_none h m hm hreq)

/-- A mechanism without hardware suffices for a client that need not have it. -/
theorem Verified.accounted (hv : Verified E s clk c raw false)
    (hreq : c.customPreauthFailure s st.required = none)
    (hhw : c.requiresHWAuth = false) {g : ASGrant} (hg : g.preauthenticated = true)
    (h : buildASRep E s clk c g = .ok reply) : Accounted E s clk c raw reply :=
  .inl ⟨⟨⟨false, hv⟩, hj.requiredVouched hreq, by simp [hhw]⟩, (buildASRep_preAuthent h).trans hg⟩

theorem modulePath_accounted
    (ha : st.aggregate.authenticated = true) (h : c.modulePath E s clk st = .ok reply) :
    Accounted E s clk c raw reply := by
  unfold ASContext.modulePath at h
  simp only [bind_ok, require_ok, unlessError_ok] at h
  obtain ⟨_, hreq, _, hhw, _, -, _, -, replyPAs, -, h⟩ := h
  refine .inl ⟨⟨?_, hj.requiredVouched hreq, ?_⟩, buildASRep_preAuthent h⟩
  · obtain ⟨m, hm, pa, r, hv⟩ := hj.authenticated ha
    exact ⟨_, .modules hm hv⟩
  · intro hneeds
    simp only [hneeds] at hhw
    obtain ⟨m, hm, pa, r, hv, hvouched⟩ := hj.hardware hhw
    rw [← hvouched]
    exact .modules hm hv

theorem otpPath_accounted (hpa : c.pa 142 = some pa)
    (h : c.otpPath E s clk st pa = .ok reply) : Accounted E s clk c raw reply := by
  unfold ASContext.otpPath at h
  simp only [bind_ok, require_ok, unlessError_ok, orFail_ok, Option.filter_eq_some_iff,
    not_eq_true'] at h
  obtain ⟨armor, ⟨harmor, -⟩, indicators, hotp, _, hhw, _, -, _, hreq, h⟩ := h
  exact (Verified.otp hpa harmor hotp).accounted hj hreq hhw rfl h

theorem challengePath_accounted (hpa : c.pa 138 = some pa)
    (h : c.challengePath E s clk st pa = .ok reply) : Accounted E s clk c raw reply := by
  unfold ASContext.challengePath at h
  simp only [bind_ok, require_ok, unlessError_ok, orFail_ok, not_eq_true'] at h
  obtain ⟨armor, harmor, ⟨key, etype, timestamp⟩, hv, _, hfresh, _, -, _, -, _, hhw, _, hreq,
      replyPA, -, h⟩ := h
  have hkey := verifyChallenge_hasKey hv
  exact (Verified.challenge hpa harmor hkey hv hfresh).accounted hj hreq hhw rfl h

theorem spakePath_accounted (hE : KeysChecked E) (hk : Keyed c) {response : SPAKEResponse}
    (hpa : c.pa 151 = some pa) (hdecode : E.spakeDecode pa.paDataValue = some (some response))
    (h : c.spakePath E s clk st response = .ok reply) : Accounted E s clk c raw reply := by
  unfold ASContext.spakePath at h
  simp only [bind_ok, require_ok, unlessError_ok, orReply_ok, not_eq_true'] at h
  obtain ⟨key, hv, _, -, _, -, _, hhw, _, hreq, h⟩ := h
  obtain ⟨e, t, he, hlen⟩ := verifySPAKE_keySize hE hv
  exact (Verified.spake hpa hdecode (hk.hasKey hE he hlen) hv).accounted hj hreq hhw rfl h

theorem pkinitPath_accounted (hpa : c.pa 16 = some pa)
    (h : c.pkinitPath E s clk st raw pa = .ok reply) : Accounted E s clk c raw reply := by
  unfold ASContext.pkinitPath at h
  simp only [bind_ok, require_ok, unlessError_ok, orReply_ok] at h
  obtain ⟨⟨verified, hwauth, indicators⟩, hv, _, hhw, _, -, _, -, ⟨paRep, key⟩, -, _, hreq, h⟩ := h
  refine .inl ⟨⟨⟨_, .pkinit hpa hv⟩, hj.requiredVouched hreq, ?_⟩, buildASRep_preAuthent h⟩
  intro hneeds
  simp only [hneeds] at hhw
  rw [← hhw]
  exact .pkinit hpa hv

theorem timestampPath_accounted (hE : KeysChecked E) (hk : Keyed c) (hpa : c.pa 2 = some pa)
    (h : c.timestampPath E s clk st pa = .ok reply) : Accounted E s clk c raw reply := by
  unfold ASContext.timestampPath at h
  simp only [bind_ok, require_ok, unlessError_ok, orReply_ok, not_eq_true'] at h
  obtain ⟨_, hv, _, -, _, -, _, hhw, _, hreq, h⟩ := h
  obtain ⟨e, t, he, hlen⟩ := verifyTimestamp_keySize hE hv
  exact (Verified.timestamp hpa (hk.hasKey hE he hlen) hv).accounted hj hreq hhw rfl h

end Paths

theorem keyPaths_accounted (hE : KeysChecked E) (hk : Keyed c)
    (hmodules : verifyPreauthModules s c.rock c.request.paData = .ok st)
    (hauth : st.aggregate.authenticated = false) (hotp : c.pa 142 = none)
    (hchallenge : c.pa 138 = none)
    (h : c.keyPaths E s clk raw st = .ok reply) : Accounted E s clk c raw reply := by
  have hj := verifyPreauthModules_justified hmodules
  unfold ASContext.keyPaths at h
  simp only at h
  split at h
  · cases h
  split at h
  · cases h
  split at h
  · cases h
  · rename_i response hdecode
    obtain ⟨pa, hpa, hdecode⟩ := Option.map_eq_some_iff.1 hdecode
    exact spakePath_accounted hj hE hk hpa hdecode h
  · rename_i hnone hnot
    -- no SPAKE response: a support message, or nothing
    have hspake (pa : PAData) (response : SPAKEResponse) (hpa : c.pa 151 = some pa) :
        E.spakeDecode pa.paDataValue ≠ some (some response) := by
      intro hdecode
      exact hnot response (by rw [hpa, Option.map_some, hdecode])
    split at h
    · rename_i pa _ hpa
      exact pkinitPath_accounted hj hpa h
    · rename_i pa _ hpa
      exact timestampPath_accounted hj hE hk hpa h
    · rename_i hpkinit htimestamp
      split at h
      · cases h
      · rename_i hnotreq
        simp only [ASContext.preauthRequired, has_or, not_eq_true, or_eq_false_iff,
          not_eq_false'] at hnotreq
        obtain ⟨⟨hdis, hmod⟩, hpre, hhw⟩ := hnotreq
        unfold ASContext.openPath at h
        simp only [bind_ok] at h
        obtain ⟨_, -, _, -, h⟩ := h
        refine Or.inr ⟨⟨fun hardware hv => ?_, hdis, hmod, hpre, hhw⟩, buildASRep_preAuthent h⟩
        cases hv with
        | modules hm hv => simp [vouches_authenticated hmodules hm hv] at hauth
        | otp hpa => simp [hpa] at hotp
        | challenge hpa => simp [hpa] at hchallenge
        | spake hpa hdecode => exact hspake _ _ hpa hdecode
        | pkinit hpa => simp [hpa] at hpkinit
        | timestamp hpa => simp [hpa] at htimestamp

theorem builtinPaths_accounted (hE : KeysChecked E) (hk : Keyed c)
    (hmodules : verifyPreauthModules s c.rock c.request.paData = .ok st)
    (hauth : st.aggregate.authenticated = false) (h : c.builtinPaths E s clk raw st = .ok reply) :
    Accounted E s clk c raw reply := by
  have hj := verifyPreauthModules_justified hmodules
  unfold ASContext.builtinPaths at h
  split at h
  · split at h <;> cases h
  split at h
  · split at h
    · cases h
    · split at h <;> cases h
  split at h
  · rename_i pa hpa
    exact otpPath_accounted hj hpa h
  · rename_i hotp
    split at h
    · cases h
    split at h
    · rename_i pa hpa
      exact challengePath_accounted hj hpa h
    · rename_i hchallenge
      exact keyPaths_accounted hE hk hmodules hauth hotp hchallenge h

/-! ## The handler -/

/-- **No initial ticket without authentication.** -/
theorem as_reply_authenticated (hE : KeysChecked E)
    (h : handleASReqCore E s clk request raw = .ok reply) :
    ∃ c, openAS E s clk request raw = .ok c ∧ AccountAllowed s clk c ∧
      Accounted E s clk c raw reply := by
  obtain ⟨c, hc, h⟩ := bind_ok.1 h
  obtain ⟨hallowed, hk⟩ := openAS_ok hc
  refine ⟨c, hc, hallowed, ?_⟩
  split at h
  · cases h
  · rename_i st hst
    split at h
    · rename_i hauth
      exact modulePath_accounted (verifyPreauthModules_justified hst) hauth h
    · rename_i hauth
      exact builtinPaths_accounted hE hk hst (by simpa using hauth) h

namespace Sample

theorem keysChecked (part : EncTicketPart) (auth : Authenticator) :
    KeysChecked (env part auth) := by
  have haes {e : Int32} {t : EType} (h : (env part auth).etype e = some t) : t = aes := by
    simp only [env, Option.ite_none_right_eq_some, Option.some.injEq] at h
    exact h.2.symm
  refine ⟨fun h => ?_, fun h hplain => ?_, fun _ hout => ?_⟩
  · rw [haes h]
    decide
  · rw [haes h] at hplain ⊢
    simp only [aes, Option.ite_none_right_eq_some] at hplain
    exact hplain.1
  · cases hout

/-- A module that must verify the client, on elements of one type. -/
def requiredModule (paType : Int32) (verdict : Bool) : KDCPreauthModule where
  name := str "otp"
  paTypes := [paType]
  flags _ := PA.Required
  edata _ _ := none
  verify _ _ := if verdict then .ok (some ⟨true, false, [], [], none⟩) else .ok none
  returnPadata := none

/-- Two modules under one name, the second of which vouches for nobody. -/
def twinServer : Server :=
  { server with
    preauthModules := [some (requiredModule 200 true), some (requiredModule 201 false)] }

/-- A request with an element for each of them. -/
def twinRequest : KDCReq := ⟨5, 10, [⟨200, []⟩, ⟨201, []⟩], body 0 tgs (10 * hour)⟩

end Sample

open Sample in
theorem as_reply_authenticated_login :
    KeysChecked (env first (authenticator 0)) ∧
    ∃ reply, handleASReqCore (env first (authenticator 0)) server (clock 0)
      (asRequest 0 (10 * hour)) [] =
        .ok reply ∧
      ∃ c, openAS (env first (authenticator 0)) server (clock 0) (asRequest 0 (10 * hour)) [] =
        .ok c ∧
        AccountAllowed server (clock 0) c ∧
          Accounted (env first (authenticator 0)) server (clock 0) c [] reply := by
  obtain ⟨reply, h⟩ : ∃ reply, handleASReqCore (env first (authenticator 0)) server (clock 0)
      (asRequest 0 (10 * hour)) [] = .ok reply := ⟨_, rfl⟩
  exact ⟨keysChecked .., reply, h, as_reply_authenticated (keysChecked ..) h⟩

open Sample in
/-- Required modules are remembered by their name: one vouches for its namesake. -/
theorem as_required_namesake :
    ∃ c reply, openAS (env first (authenticator 0)) twinServer (clock 0) twinRequest [] = .ok c ∧
      handleASReqCore (env first (authenticator 0)) twinServer (clock 0) twinRequest [] =
        .ok reply ∧
      requiredModule 201 false ∈ registered twinServer.preauthModules ∧
        (requiredModule 201 false).isRequired = true ∧
      ∀ pa r, ¬ Vouches c.rock c.request.paData (requiredModule 201 false) pa r := by
  refine ⟨_, _, rfl, rfl, mem_cons_of_mem _ (mem_singleton.2 rfl), by decide, ?_⟩
  intro pa r hv
  cases hv.verify

end Kerberos
