import Kerberos.Proof.FlagEdits
import Kerberos.Proof.Stages
import Kerberos.Spec.Sample

/-!
# The flags of a ticket obtained from the TGS

Flags travel from the source ticket (`sourceFlags`: the presented ticket, or the
evidence ticket of constrained delegation) through the handler, `buildTGSRep` and the
policies. Each stage is an edit within two fixed masks (`tgsFlags_edit`), so a flag
outside `gained` is only ever inherited. INITIAL is outside both masks: it is
inherited too, where an ordinary ticket should not have it.

* `flagsKept_iff`: an ordinary request keeps the flags in order exactly when its source
  ticket is without INITIAL.
* `tgs_flags_monotone`: with such requests alone, INITIAL is earned in an AS exchange.
-/

namespace Kerberos

open Transition Bits List

variable {E : Env} {s : Server} {clk : Clock} {request : KDCReq} {raw : Bytes}

/-- The contents of a ticket sealed for `record`. -/
def ticketContents (E : Env) (record : PrincipalRecord) (ticket : TicketMsg) :
    Option EncTicketPart := do
  let key ← selectKVNO record ticket.encPart.etype ticket.encPart.kvno
  let etype ← E.etype key.enctype
  let plain ← etype.decrypt key.key 2 ticket.encPart.cipher
  E.encTicketPart plain

/-- The evidence ticket of a request for constrained delegation: its first additional
ticket, sealed for the client of the presented one. -/
def evidenceTicket (E : Env) (s : Server) (a : Admission) : Option EncTicketPart := do
  let evidence ← a.request.reqBody.additionalTickets.head?
  let record ← (s.db.lookup (principalFromProtocol a.part.cname a.part.crealm)).toOption.bind id
  ticketContents E record evidence

/-- The flags a granted ticket is made from. -/
def sourceFlags (E : Env) (s : Server) (a : Admission) : Flags :=
  if has a.request.reqBody.kdcOptions KDC.CNameInAddlTkt then
    (evidenceTicket E s a).elim 0 (·.flags)
  else a.header.ticketPart.flags

/-- The flags a ticket should only have from its source. -/
def inheritedFlags : List Flags :=
  [Ticket.Forwardable, Ticket.Proxiable, Ticket.MayPostdate, Ticket.PreAuthent, Ticket.HWAuthent,
    Ticket.Anonymous]

/-- What is asked of the flags of an ordinary ticket. -/
def FlagsKept (source issued : Flags) : Prop :=
  has issued Ticket.Initial = false ∧
    ∀ f ∈ inheritedFlags, has issued f = true → has source f = true

/-! ## The edits -/

/-- The policy modules do not see the flags. -/
theorem applyTGSPolicies_flags {now : ℤ} {request : TGSPolicyRequest}
    {modules : List KDCPolicyModule}
    {t t' : TicketTimes} (h : applyTGSPolicies now request modules t = .ok t') :
    t'.flags = t.flags := by
  induction modules generalizing t with
  | nil => cases h; rfl
  | cons m ms ih =>
    obtain ⟨result, -, h⟩ := Except.bind_ok.1 h
    rw [ih h]

theorem tgsTimes_edit {now : ℤ} {body : KDCReqBody} {presented : EncTicketPart}
    {authTime : KerberosTime} {client : Option PrincipalRecord} {service : PrincipalRecord}
    {t : TicketTimes} (h : tgsTimes s now body presented authTime client service = some t) :
    Edit lost gained presented.flags t.flags := by
  unfold tgsTimes at h
  split at h
  · cases h; exact edit_clear (by decide) _
  split at h
  · cases h; exact Edit.refl ..
  have hclear : Edit lost gained presented.flags (clear presented.flags Ticket.Renewable) :=
    edit_clear (by decide) _
  have hordinary (start : ℤ) (startTime : Option KerberosTime) (flags : Flags) :
    Edit lost gained flags
      (ordinaryTimes s body presented start startTime flags client service).flags := by
    unfold ordinaryTimes
    dsimp only
    split
    · exact Edit.set (by decide) flags
    · exact Edit.refl ..
  split at h
  · obtain ⟨f, -, rfl⟩ := Option.map_eq_some_iff.1 h
    exact (hclear.trans (Edit.set (by decide) _)).trans (hordinary ..)
  · cases h
    exact hclear.trans (hordinary ..)

variable {g : Grant}

theorem buildTGSRep_edit {clock : ℤ} {armor : Option FastContext} {out : TGSReply}
    (h : buildTGSRep E s clock request armor g = .ok out) :
    Edit lost gained g.ticketPart.flags out.ticketPart.flags := by
  obtain ⟨client, indicators, times, limited, -, -, ht, hlim, -, -, -, hflags⟩ := buildTGSRep_ok h
  have hlimited : Edit lost gained g.ticketPart.flags limited.flags := by
    rw [applyTGSPolicies_flags hlim]
    refine (tgsTimes_edit ht).trans ?_
    have hpolicy := (applyFlagPolicy_edit s times.flags).trans
      (applyPrincipalFlagPolicy_edit _ client (some g.serviceRecord))
    unfold limitTimes
    split
    · exact hpolicy
    · exact hpolicy.trans (edit_clear (by decide) _)
  rcases hflags with h | h
  · rw [h]; exact hlimited
  · rw [h]; exact hlimited.trans (Edit.set (by decide) _)

/-! ## The source -/

variable {a : Admission}

/-- Constrained delegation opens the evidence ticket, and excludes RENEW and VALIDATE. -/
theorem s4u2Proxy_evidence {name : Principal} {fail : ℤ → ErrorReply} {d : Delegation}
    (h : s4u2Proxy E s clk a name fail = .ok d) : evidenceTicket E s a = some d.evidencePart ∧
      has a.request.reqBody.kdcOptions (KDC.Renew ||| KDC.Validate) = false := by
  unfold s4u2Proxy at h
  simp only [Except.bind_ok, orFail_ok, deref_ok, require_ok] at h
  obtain ⟨hook, -, _, hopt, _, -, evidence, hev, record, hrec, ⟨key, etype, part⟩, hopen,
      p, hp, h⟩ := h
  obtain ⟨_, -, elements, -, priv, -, name, -, client, -, clientRecord, -, _, -, _, -, h⟩ := h
  cases h
  have hpart : part = some p := (Option.filter_eq_some_iff.1 hp).1
  constructor
  · simp only [evidenceTicket, hev, hrec]
    unfold openTicket at hopen
    simp only [Except.bind_ok, orFail_ok] at hopen
    obtain ⟨key', hkey, etype', hetype, plain, hplain, hopen⟩ := hopen
    cases hopen
    simpa [ticketContents, hkey, hetype, hplain] using hpart
  · simp only [has_or, Bool.and_eq_true, Bool.not_eq_true', Bool.or_eq_false_iff] at hopt ⊢
    exact hopt.2.1.1.1

/-- **Up to `buildTGSRep`** the flags are those of the source, edited; a request for
RENEW or VALIDATE has the presented ticket for its source. -/
theorem decideGrant_edit (ha : admitTGS E s clk request raw = .ok a)
    (hg : decideGrant E s clk a = .ok g) :
    Edit lost gained (sourceFlags E s a) g.ticketPart.flags ∧
      (has a.request.reqBody.kdcOptions (KDC.Renew ||| KDC.Validate) = true →
        sourceFlags E s a = a.header.ticketPart.flags) := by
  obtain ⟨-, hpart, -⟩ := admitTGS_ok ha
  obtain ⟨fail, b, hb, hgb, -⟩ := decideGrant_ok hg
  obtain ⟨-, ⟨flags, hflags, hfwd⟩, hdel, hproxy⟩ := grantBasis_ok hb
  have hsource : sourceFlags E s a = (b.source a).flags ∧
      (has a.request.reqBody.kdcOptions (KDC.Renew ||| KDC.Validate) = true →
        sourceFlags E s a = a.header.ticketPart.flags) := by
    unfold sourceFlags Basis.source
    cases hd : b.delegation with
    | none =>
      rw [hd] at hdel
      rw [← hdel, hpart]
      exact ⟨rfl, fun _ => rfl⟩
    | some d =>
      obtain ⟨hev, hopt⟩ := s4u2Proxy_evidence (hproxy d hd)
      rw [hd] at hdel
      rw [← hdel, hev, hopt]
      exact ⟨rfl, by simp⟩
  refine ⟨?_, hsource.2⟩
  rw [hsource.1, hgb]
  have h1 : Edit lost gained (b.source a).flags flags := by
    rcases hflags with rfl | rfl
    · exact Edit.refl ..
    · exact edit_clear (by decide) _
  rcases hfwd with h | h
  · rw [h]; exact h1
  · rw [h]; exact h1.trans (Edit.set (by decide) _)

/-- **The whole way** of the flags through a TGS exchange. -/
theorem tgsFlags_edit {out : TGSReply}
    (ha : admitTGS E s clk request raw = .ok a) (hg : decideGrant E s clk a = .ok g)
    (hb : buildTGSRep E s (clk .issue) a.request a.armor g = .ok out) :
    Edit lost gained (sourceFlags E s a) out.ticketPart.flags :=
  (decideGrant_edit ha hg).1.trans (buildTGSRep_edit hb)

/-! ## What is inherited -/

/-- INITIAL is in neither mask. -/
theorem has_initial_iff {old new : Flags} (h : Edit lost gained old new) :
    has new Ticket.Initial = true ↔ has old Ticket.Initial = true :=
  by rw [has_eq_of_edit h (by decide) (by decide)]

/-- **The flags are in order exactly when the source is without INITIAL.** -/
theorem flagsKept_iff {source issued : Flags} (h : Edit lost gained source issued) :
    FlagsKept source issued ↔ has source Ticket.Initial = false := by
  have hinitial := has_initial_iff h
  have hrest : ∀ f ∈ inheritedFlags, has issued f = true → has source f = true := by
    intro f hf
    have hdisjoint : inheritedFlags.all (fun f => f &&& gained == 0#32) = true := by decide
    exact has_of_has h (beq_iff_eq.1 (all_eq_true.1 hdisjoint f hf))
  unfold FlagsKept
  rw [and_iff_left hrest, ← Bool.not_eq_true, ← Bool.not_eq_true, hinitial]

/-! ## Runs -/

/-- INITIAL on a ticket of the chain comes from an AS exchange, through RENEW and
VALIDATE alone. -/
def Issued.InitialEarned : Issued → Prop
  | .initial _ => True
  | .crossRealm part => has part.flags Ticket.Initial = false
  | .derived presented options part => presented.InitialEarned ∧
      (has part.flags Ticket.Initial = true → has options (KDC.Renew ||| KDC.Validate) = true ∧
        has presented.part.flags Ticket.Initial = true)

/-- The condition on an exchange: the source of an ordinary ticket is without INITIAL,
and so is a ticket from another realm. -/
def initialGuarded (s : Server) (_ : World) : Event → Prop
  | .asReq .. => True
  | .crossRealm part => has part.flags Ticket.Initial = false
  | .tgsReq E db clk request raw => ∀ a, admitTGS E { s with db } clk request raw = .ok a →
      has a.request.reqBody.kdcOptions (KDC.Renew ||| KDC.Validate) = false →
      has (sourceFlags E { s with db } a) Ticket.Initial = false

theorem initial_step {w w' : World} {e : Event} (hw : ∀ t ∈ w.tickets, t.InitialEarned)
    (h : Guarded (KDCStep s) (initialGuarded s) w e w') : ∀ t ∈ w'.tickets, t.InitialEarned := by
  obtain ⟨hstep, hguard⟩ := h
  cases hstep with
  | asRefused => exact hw
  | tgsRefused => exact hw
  | asIssued => exact forall_mem_cons.2 ⟨trivial, hw⟩
  | crossRealm => exact forall_mem_cons.2 ⟨hguard, hw⟩
  | tgsIssued hclk hp ha hh h =>
    refine forall_mem_cons.2 ⟨⟨hw _ hp, ?_⟩, hw⟩
    obtain ⟨g, hg, hb⟩ := handleTGSReqCore_ok ha h
    intro hinit
    have hsource := (has_initial_iff (tgsFlags_edit ha hg hb)).1 hinit
    cases hopt : has _ (KDC.Renew ||| KDC.Validate) with
    | false =>
      rw [hguard _ ha hopt] at hsource
      cases hsource
    | true =>
      rw [(decideGrant_edit ha hg).2 hopt, hh] at hsource
      exact ⟨rfl, hsource⟩

/-- **Flags through the TGS.** The flags of an ordinary ticket are in order exactly when
its source is without INITIAL; and in every run whose exchanges meet that condition, a
ticket with INITIAL is from an AS exchange, or from renewing or validating such a
ticket. -/
theorem tgs_flags_monotone (s : Server) :
    (∀ E clk table table' request raw a out, admitTGS E s clk request raw = .ok a →
      handleTGSReqCore E s clk table request raw = (.ok out, table') →
      has a.request.reqBody.kdcOptions (KDC.Renew ||| KDC.Validate) = false →
      (FlagsKept (sourceFlags E s a) out.ticketPart.flags ↔
        has (sourceFlags E s a) Ticket.Initial = false)) ∧
    ∀ now es w, Run (Guarded (KDCStep s) (initialGuarded s)) (World.start now) es w →
      ∀ t ∈ w.tickets, t.InitialEarned := by
  constructor
  · intro E clk table table' request raw a out ha h _
    obtain ⟨g, hg, hb⟩ := handleTGSReqCore_ok ha h
    exact flagsKept_iff (tgsFlags_edit ha hg hb)
  · intro now es w hrun
    exact Run.invariant (P := fun w => ∀ t ∈ w.tickets, t.InitialEarned)
      (fun _ _ _ => initial_step) hrun (by simp [World.start])

open Sample

/-- **INITIAL is copied.** A service ticket obtained with an initial ticket claims to be
from an AS exchange too. -/
theorem tgs_initial_copied : ∃ es w, Run (KDCStep server) (World.start 0) es w ∧
    ∃ t ∈ w.tickets, ¬ t.InitialEarned := by
  refine ⟨[login, ask first (9 * hour) (9 * hour) (10 * hour)], _,
    .cons login_step (.single (ask_step (by simp [Issued.part]))),
      .derived (.initial first) 0 (serviceTicket first (10 * hour)), mem_cons_self, ?_⟩
  rintro ⟨-, h⟩
  have hrenew := (h (by decide)).1
  revert hrenew
  decide

/-- A ticket from another realm, without INITIAL, meets the condition, in one exchange and in a
run. -/
theorem tgs_flags_monotone_foreign :
    (∃ out table, handleTGSReqCore (env foreign (authenticator (9 * hour))) server
      (clock (9 * hour)) ∅
        (tgsRequest 0 service (10 * hour)) [] = (.ok out, table) ∧
      FlagsKept foreign.flags out.ticketPart.flags) ∧
    ∃ w, Run (Guarded (KDCStep server) (initialGuarded server)) (World.start 0)
        [.crossRealm foreign, ask foreign (9 * hour) (9 * hour) (10 * hour)] w ∧
      ∃ t ∈ w.tickets, t.part = serviceTicket foreign (10 * hour) ∧ t.InitialEarned := by
  obtain ⟨hone, hrun⟩ := tgs_flags_monotone server
  constructor
  · obtain ⟨a, out, table, ha, h⟩ : ∃ a out table,
        admitTGS (env foreign (authenticator (9 * hour))) server (clock (9 * hour))
          (tgsRequest 0 service (10 * hour)) [] = .ok a ∧
        handleTGSReqCore (env foreign (authenticator (9 * hour))) server (clock (9 * hour)) ∅
          (tgsRequest 0 service (10 * hour)) [] = (.ok out, table) := ⟨_, _, _, rfl, rfl⟩
    have hkept := hone _ _ _ _ _ _ a out ha h
    cases ha
    exact ⟨out, table, h, (hkept (by decide)).2 (by decide)⟩
  · have hsteps : Run (Guarded (KDCStep server) (initialGuarded server)) (World.start 0)
        [.crossRealm foreign, ask foreign (9 * hour) (9 * hour) (10 * hour)]
        (afterAsk (.crossRealm foreign) (9 * hour) (9 * hour) (10 * hour)) := by
      refine .cons ⟨.crossRealm foreign, rfl⟩ (.single ⟨ask_step (by simp [Issued.part]), ?_⟩)
      intro a ha _
      cases ha
      decide
    exact ⟨_, hsteps, _, mem_cons_self, rfl, hrun 0 _ _ hsteps _ mem_cons_self⟩

end Kerberos
