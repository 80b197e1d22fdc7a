import Kerberos.Spec.World
import Kerberos.Lib.Except

/-!
# What the stages of the TGS handler do to a ticket

One lemma for each stage. Up to the call of `buildTGSRep` a ticket only has its
flags, its authorization data and its transited path edited (`decideGrant_part`);
in `buildTGSRep` the times and flags come from `tgsTimes`, the limits and the policy
modules, and nothing behind them touches either (`buildTGSRep_ok`).
-/

namespace Kerberos

open Except

variable {E : Env} {s : Server} {clk : Clock} {request : KDCReq} {raw : Bytes}

@[simp]
theorem require_ok {b : Bool} {e : ErrorReply} {u : Unit} : require b e = .ok u ↔ b = true := by
  cases b <;> simp [require]

variable {α : Type} {o : Option α}

@[simp]
theorem orFail_ok {e : ErrorReply} {a : α} : orFail o e = .ok a ↔ o = some a := by
  cases o <;> simp [orFail]

@[simp]
theorem deref_ok {a : α} : deref o = .ok a ↔ o = some a := by
  cases o <;> simp [deref]

@[simp]
theorem unlessError_ok {o : Option ErrorReply} {u : Unit} : unlessError o = .ok u ↔ o = none := by
  cases o <;> simp [unlessError]

@[simp]
theorem orReply_ok {ε α : Type} {x : Except ε α} {e : ε → ErrorReply} {a : α} :
    orReply x e = .ok a ↔ x = .ok a := by
  cases x <;> simp [orReply]

theorem onlyIf_ok {on : Bool} {x : Handled α} (h : onlyIf on x = .ok o) :
    o.isSome = on ∧ ∀ a ∈ o, x = .ok a := by
  unfold onlyIf at h
  split at h
  · rename_i hon
    obtain ⟨a, ha, rfl⟩ := map_eq_ok.1 h
    exact ⟨by simp [hon], by simpa using ha⟩
  · rename_i hon
    cases h
    exact ⟨by simpa using hon, by simp⟩

/-! ## Admission -/

variable {fail : ℤ → ErrorReply} {part part' : EncTicketPart}

theorem headerElements_part
    {elements : Option AuthorizationData}
    (h : headerElements E s fail part = .ok (part', elements)) :
    part' = { part with authorizationData := part'.authorizationData } := by
  have strip {e : Option AuthorizationData} (h : (do
      let data ← orFail (stripCAMMAC E part.authorizationData) (fail Err.Generic)
      .ok ({ part with authorizationData := data }, none) :
        Handled (EncTicketPart × Option AuthorizationData)) = .ok (part', e)) :
      part' = { part with authorizationData := part'.authorizationData } := by
    obtain ⟨data, -, h⟩ := bind_ok.1 h
    cases h
    rfl
  unfold headerElements at h
  split at h
  · cases h; rfl
  · cases h
  · split at h
    · exact strip h
    · split at h
      · cases h; rfl
      · exact strip h
      · cases h

variable {a : Admission}

/-- **Admission opens the header and edits nothing but the authorization data and the
transited path** of the ticket in it. -/
theorem admitTGS_ok (h : admitTGS E s clk request raw = .ok a) :
    readHeader E s clk request raw = .ok a.header ∧
    a.part = { a.header.ticketPart with
      authorizationData := a.part.authorizationData, transited := a.part.transited } ∧
    ∃ fail part, checkTGSOptions s clk a.request.reqBody part fail = .ok () ∧
      part = { a.header.ticketPart with authorizationData := part.authorizationData } := by
  unfold admitTGS at h
  simp only [bind_ok] at h
  obtain ⟨header, hheader, ⟨request', armor⟩, -, sname, -, ⟨part, elements⟩, hel, _,
    hopt, _, -, _, -, part', hext, h⟩ := h
  cases h
  have h1 := headerElements_part hel
  have h2 : part' = { part with transited := part'.transited } := by
    unfold extendTransited at hext
    split at hext
    · cases hext; rfl
    · simp only [bind_ok] at hext
      obtain ⟨_, -, contents, -, hext⟩ := hext
      cases hext
      rfl
  refine ⟨hheader, ?_, _, part, hopt, h1⟩
  rw [h2, h1]

/-! ## The grant -/

variable {name : Principal}

theorem s4u2Self_part {now : ℤ} {user client : Option Principal}
        (h : s4u2Self s now a name user fail = .ok (client, part)) :
    part = a.part ∨ part = { a.part with flags := clear a.part.flags Ticket.Forwardable } := by
  unfold s4u2Self at h
  split at h
  · cases h; exact Or.inl rfl
  · simp only [bind_ok] at h
    obtain ⟨_, -, _, -, record, -, _, -, _, -, h⟩ := h
    obtain ⟨-, rfl⟩ := h
    split
    · exact Or.inl rfl
    · exact Or.inr rfl

theorem forwardPart_part (h : forwardPart a name part fail = .ok part') :
    part' = part ∨ part' = { part with flags := part.flags ||| Ticket.Forwarded } := by
  unfold forwardPart at h
  split at h
  · simp only [bind_ok] at h
    obtain ⟨_, -, h⟩ := h
    cases h
    exact Or.inr rfl
  · cases h; exact Or.inl rfl

/-- The ticket whose flags a grant starts from: the evidence ticket for constrained
delegation, the presented ticket otherwise. -/
def Basis.source (b : Basis) (a : Admission) : EncTicketPart :=
  b.delegation.elim a.part (·.evidencePart)

/-- **The basis of a grant** has the times of the presented ticket, and its flags are
those of the source, less FORWARDABLE, plus FORWARDED at most. -/
theorem grantBasis_ok {record : PrincipalRecord} {b : Basis}
    (h : grantBasis E s clk a name record fail = .ok b) :
    b.part = { a.part with flags := b.part.flags, authorizationData := b.part.authorizationData } ∧
    (∃ flags, (flags = (b.source a).flags ∨ flags = clear (b.source a).flags Ticket.Forwardable) ∧
      (b.part.flags = flags ∨ b.part.flags = flags ||| Ticket.Forwarded)) ∧
    (b.delegation.isSome = has a.request.reqBody.kdcOptions KDC.CNameInAddlTkt) ∧
    ∀ d ∈ b.delegation, s4u2Proxy E s clk a name fail = .ok d := by
  unfold grantBasis at h
  simp only [bind_ok] at h
  obtain ⟨⟨user, replyPA⟩, -, ⟨client, part⟩, hself, delegation, hdel, key, -, part', hfwd, h⟩ := h
  cases h
  refine ⟨?_, ?_, onlyIf_ok hdel⟩
  · rcases forwardPart_part hfwd with h | h <;> rcases s4u2Self_part hself with h' | h' <;>
      cases delegation <;> simp [h, h', delegatedPart]
  · refine ⟨_, ?_, (forwardPart_part hfwd).imp (congrArg _) (congrArg _)⟩
    cases delegation with
    | none =>
      rcases s4u2Self_part hself with h' | h'
      · left; simp [Basis.source, h']
      · right; simp [Basis.source, h']
    | some d => left; simp [Basis.source, delegatedPart]

variable {g : Grant}

theorem decideGrant_ok (h : decideGrant E s clk a = .ok g) :
    ∃ fail b, grantBasis E s clk a g.serviceName g.serviceRecord fail = .ok b ∧
      g.ticketPart = b.part ∧ g.headerTicket = a.header.apRequest.ticket ∧
      checkFlagOptions a.request.reqBody.kdcOptions a.part fail = .ok () := by
  unfold decideGrant at h
  simp only [bind_ok] at h
  obtain ⟨_, hflags, name, -, _, -, ⟨serviceName, record⟩, -, _, -, b, hb, keys, -, h⟩ := h
  cases h
  exact ⟨_, b, hb, rfl, rfl, hflags⟩

/-- **Up to `buildTGSRep` the times of the presented ticket do not change.** -/
theorem decideGrant_part (ha : admitTGS E s clk request raw = .ok a)
    (hg : decideGrant E s clk a = .ok g) :
    g.ticketPart = { a.header.ticketPart with
      flags := g.ticketPart.flags, authorizationData := g.ticketPart.authorizationData
      transited := g.ticketPart.transited } := by
  obtain ⟨-, hpart, -⟩ := admitTGS_ok ha
  obtain ⟨fail, b, hb, hgb, -⟩ := decideGrant_ok hg
  rw [hgb, (grantBasis_ok hb).1, hpart]

/-! ## The new ticket -/

theorem handleAuthData_eq (s : Server) (req : AuthDataRequest) :
    ∃ data, handleAuthData s req = { req.reply with authorizationData := data } := by
  unfold handleAuthData
  split
  · exact ⟨req.reply.authorizationData, rfl⟩
  · refine List.foldlRecOn (motive := fun out : EncTicketPart => ∃ data, out =
      { req.reply with authorizationData := data })
      _ _ ⟨_, rfl⟩ ?_
    rintro out ⟨data, rfl⟩ m -
    exact ⟨_, m.adds _⟩

theorem withAuthData_eq (s : Server) (request : KDCReq) (g : Grant) (d : Decision)
    (part : EncTicketPart) :
    ∃ data, withAuthData s request g d part = { part with authorizationData := data } := by
  unfold withAuthData
  simp only
  obtain ⟨data, h⟩ := handleAuthData_eq s _
  rw [h]
  exact ⟨_, rfl⟩

theorem issueCAMMAC_part {key : Key} {verified : Option AuthorizationData}
    {asserted : Option Bytes} (h : issueCAMMAC E s part key verified asserted = some part') :
    part' = { part with authorizationData := part'.authorizationData } := by
  unfold issueCAMMAC at h
  simp only [Option.bind_eq_bind, Option.bind_eq_some_iff] at h
  obtain ⟨elements, -, h⟩ := h
  split at h
  · cases h; rfl
  · simp only [Option.bind_eq_some_iff] at h
    obtain ⟨kdcKey, -, base, -, wrapped, -, h⟩ := h
    cases h
    rfl

theorem issuePAC_part {client service : Principal} {hk sk : Key}
    {st rc : Bool} {rk : Option Key} {ev : Option Principal} {vk : Option Key}
    (h : issuePAC E s part client service hk sk st rc rk ev vk = some part') :
    part' = { part with authorizationData := part'.authorizationData } := by
  unfold issuePAC at h
  split at h
  · cases h; rfl
  · simp only [Option.bind_eq_bind, Option.bind_eq_some_iff] at h
    obtain ⟨privKey, -, data, -, h⟩ := h
    cases h
    rfl

variable {out : TGSReply}

theorem sealReply_part {armor : Option FastContext} {d : Decision}
    (h : sealReply E s request armor g d part = .ok out) :
    out.ticketPart = { part with authorizationData := out.ticketPart.authorizationData } := by
  unfold sealReply at h
  simp only [bind_ok, orFail_ok] at h
  obtain ⟨_, -, p1, h1, p2, h2, cipher, -, reply, -, wrapped, -, h⟩ := h
  cases h
  obtain ⟨data, h0⟩ := withAuthData_eq s request g d part
  rw [h0] at h1
  rw [issuePAC_part h2, issueCAMMAC_part h1]

/-- The request the policy modules are asked about. -/
def policyRequest (request : KDCReq) (g : Grant) (indicators : List Bytes) : TGSPolicyRequest :=
  { request, server := g.serviceName, serverRecord := g.serviceRecord
    client := principalFromProtocol g.ticketPart.cname g.ticketPart.crealm
    headerTicket := g.headerTicket, headerTicketPart := g.ticketPart, authIndicators := indicators }

/-- The authentication time a grant carries over. -/
def Grant.authTime (g : Grant) (now : ℤ) : KerberosTime :=
  if g.ticketPart.authTime.present then g.ticketPart.authTime else .at now

/-- **`buildTGSRep`.** The times of the new ticket are those of `tgsTimes`, limited by
the records and the policy modules; its flags are theirs, plus TRANSITED-POLICY-CHECKED
at most. -/
theorem buildTGSRep_ok {clock : ℤ} {armor : Option FastContext}
    (h : buildTGSRep E s clock request armor g = .ok out) :
    ∃ client indicators times limited, s.db.lookup g.client = .ok client ∧
      authIndicatorsFromElements E (g.verifiedElements.getD []) = some indicators ∧
      tgsTimes s (truncSec clock) request.reqBody g.ticketPart (g.authTime (truncSec clock)) client
        g.serviceRecord = some times ∧
          applyTGSPolicies (truncSec clock) (policyRequest request g indicators)
        (registered s.kdcPolicyModules) (limitTimes s times client g.serviceRecord) = .ok limited ∧
      out.ticketPart.startTime = limited.startTime ∧ out.ticketPart.endTime = limited.endTime ∧
      out.ticketPart.renewTill = limited.renewTill ∧
      (out.ticketPart.flags = limited.flags ∨
        out.ticketPart.flags = limited.flags ||| Ticket.Transited) := by
  unfold buildTGSRep at h
  simp only [bind_ok] at h
  obtain ⟨d, hd, part, hpart, hseal⟩ := h
  unfold decideTimes at hd
  simp only [bind_ok, orFail_ok, orReply_ok, toOption_some] at hd
  obtain ⟨etype, -, session, -, client, hclient, indicators, hind, times, htimes, limited,
      hlim, hd⟩ := hd
  cases hd
  unfold assemble at hpart
  simp only [bind_ok] at hpart
  obtain ⟨data, -, _, -, flags, hflags, hpart⟩ := hpart
  cases hpart
  refine ⟨client, indicators, times, limited, hclient, hind, htimes, hlim, ?_⟩
  rw [sealReply_part hseal]
  refine ⟨rfl, rfl, rfl, ?_⟩
  unfold transitedFlags at hflags
  simp only at hflags
  split at hflags
  · split at hflags
    · cases hflags; exact Or.inr rfl
    · split at hflags
      · cases hflags
      · cases hflags; exact Or.inl rfl
  · cases hflags; exact Or.inl rfl

/-- **The handler** decides the grant and builds the reply, for a request that it admits. -/
theorem handleTGSReqCore_ok {table table' : ReplayTable} (ha : admitTGS E s clk request raw = .ok a)
    (h : handleTGSReqCore E s clk table request raw = (.ok out, table')) :
    ∃ g, decideGrant E s clk a = .ok g ∧ buildTGSRep E s (clk .issue) a.request a.armor g =
      .ok out := by
  simp only [handleTGSReqCore, ha] at h
  split at h
  · cases h
  · exact bind_ok.1 (congrArg Prod.fst h)

end Kerberos
