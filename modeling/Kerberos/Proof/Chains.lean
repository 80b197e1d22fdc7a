import Kerberos.Proof.EndtimeRun
import Kerberos.Proof.TicketFlags

/-!
# What a chain of tickets keeps

Whatever requests a KDC answers, no ticket of a chain can be renewed for longer than the first one,
and without constrained delegation none gains a flag that is only inherited.
-/

namespace Kerberos

open Transition List Sample

variable {s : Server} {t : Issued}

/-- A ticket that is handed out in a run of the KDC. -/
def HandedOut (s : Server) (t : Issued) : Prop :=
  ∃ now es w, Run (KDCStep s) (World.start now) es w ∧ t ∈ w.tickets

/-- **Chain rule.** What holds of single tickets, and what a TGS exchange keeps, holds of all. -/
theorem HandedOut.chain {P : Issued → Prop} (ht : HandedOut s t)
    (hroot : ∀ t, t.root = t.part → P t)
    (hderived : ∀ {E s clk request raw a g out presented}, admitTGS E s clk request raw = .ok a →
      decideGrant E s clk a = .ok g → buildTGSRep E s (clk .issue) a.request a.armor g = .ok out →
      a.header.ticketPart = presented.part → P presented →
      P (.derived presented a.request.reqBody.kdcOptions out.ticketPart.onWire)) : P t := by
  obtain ⟨now, es, w, hrun, ht⟩ := ht
  refine hrun.invariant (P := fun w => ∀ t ∈ w.tickets, P t) (fun w e w' hw hstep => ?_)
    (by simp [World.start]) t ht
  cases hstep with
  | asRefused | tgsRefused => exact hw
  | asIssued | crossRealm => exact forall_mem_cons.2 ⟨hroot _ rfl, hw⟩
  | tgsIssued _ hp ha hh h =>
    obtain ⟨g, hg, hb⟩ := handleTGSReqCore_ok ha h
    exact forall_mem_cons.2 ⟨hderived ha hg hb hh (hw _ hp), hw⟩

theorem handedOut_ask :
    HandedOut server (.derived (.initial first) 0 (serviceTicket first (10 * hour))) :=
  ⟨0, [login, ask first (9 * hour) (9 * hour) (10 * hour)], _,
    .cons login_step (.single (ask_step (by simp [Issued.part]))), mem_cons_self⟩

/-- **No ticket can be renewed for longer than the one its chain starts from.** -/
theorem chain_renewTill (ht : HandedOut s t) : NoLater t.part.renewTill t.root.renewTill := by
  refine ht.chain (P := fun t => NoLater t.part.renewTill t.root.renewTill)
    (fun t h => h ▸ .refl _) ?_
  intro E s clk request raw a g out presented ha hg hb hh hp r hr
  obtain ⟨p, hmem, hle⟩ := renewTill_le ha hg hb r hr
  obtain ⟨q, hq, hle'⟩ := hp p (hh ▸ hmem)
  exact ⟨q, hq, hle.trans hle'⟩

namespace Sample

/-- A module that adds an element to every ticket. -/
def marking : AuthDataModule where
  handle req := { req.reply with authorizationData := ⟨1, [5]⟩ :: req.reply.authorizationData }
  adds _ := rfl

/-- A KDC that lets tickets be renewed for a day, with the module. -/
def renewing : Server :=
  { server with maxRenewableLife := 24 * hour, authDataModules := [some marking] }

/-- An AS request for a ticket that can be renewed for twenty hours. -/
def renewableRequest : KDCReq :=
  ⟨5, 10, [⟨2, [1]⟩], { body KDC.Renewable tgs (10 * hour) with rtime := some (.at (20 * hour)) }⟩

def renewable : EncTicketPart :=
  { tgt (Ticket.Renewable ||| Ticket.Initial ||| Ticket.PreAuthent) 0 (10 * hour)
      (some (.at (20 * hour))) with authorizationData := [⟨1, [5]⟩] }

/-- The ticket for the service, of which a renewal for thirty hours is asked after nine. -/
def renewableService : EncTicketPart :=
  { serviceTicket renewable (19 * hour) with authorizationData := [⟨1, [5]⟩, ⟨1, [5]⟩] }

theorem handedOut_renewable :
    HandedOut renewing (.derived (.initial renewable) KDC.Renewable renewableService) := by
  obtain ⟨reply, has, hinitial⟩ : ∃ reply,
    handleASReqCore (env first (authenticator 0)) renewing (clock 0)
      renewableRequest [] = .ok reply ∧ reply.ticketPart.onWire = renewable := ⟨_, rfl, rfl⟩
  obtain ⟨a, reply', replays, ha, hh, htgs, hoptions, hpart⟩ : ∃ a reply replays,
      admitTGS (env renewable (authenticator (9 * hour))) renewing (clock (9 * hour))
        (tgsRequest KDC.Renewable service (30 * hour)) [] = .ok a ∧
          a.header.ticketPart = renewable ∧
      handleTGSReqCore (env renewable (authenticator (9 * hour))) renewing (clock (9 * hour)) ∅
        (tgsRequest KDC.Renewable service (30 * hour)) [] = (.ok reply, replays) ∧
      a.request.reqBody.kdcOptions = KDC.Renewable ∧ reply.ticketPart.onWire = renewableService :=
    ⟨_, _, _, rfl, rfl, rfl, rfl, rfl⟩
  have hfirst := KDCStep.asIssued (s := renewing) (w := World.start 0) (asClock_runs le_rfl) has
  rw [hinitial] at hfirst
  have hsecond := KDCStep.tgsIssued (s := renewing) (w := ⟨0, ∅, [.initial renewable]⟩)
    (clock_runs (show 0 ≤ 9 * hour by decide)) mem_cons_self ha hh htgs
  rw [hoptions, hpart] at hsecond
  exact ⟨0, _, _, .cons hfirst (.single hsecond), mem_cons_self⟩

end Sample

/-- The renewal of the service ticket is cut down to that of the first ticket, whatever a module
adds. -/
theorem chain_renewTill_renewable : renewableService.renewTill = some (.at (20 * hour)) ∧
    NoLater renewableService.renewTill renewable.renewTill :=
  ⟨rfl, chain_renewTill handedOut_renewable⟩

/-- An exchange of the chain was for constrained delegation: the flags are those of the evidence
ticket. -/
def Issued.delegated : Issued → Bool
  | .initial _ | .crossRealm _ => false
  | .derived presented options _ => presented.delegated || has options KDC.CNameInAddlTkt

/-- **Without constrained delegation a chain gains no flag that is only inherited.** -/
theorem chain_flags (ht : HandedOut s t) (hown : t.delegated = false) (f : Flags)
    (hf : f ∈ inheritedFlags)
    (hhas : has t.part.flags f = true) : has t.root.flags f = true := by
  refine ht.chain (P := fun t => t.delegated = false → has t.part.flags f = true →
    has t.root.flags f = true)
    (fun t h _ => h ▸ id) (fun ha hg hb hh hp hown hhas => ?_) hown hhas
  obtain ⟨hown, hoption⟩ := Bool.or_eq_false_iff.1 hown
  have hedit := tgsFlags_edit ha hg hb
  rw [sourceFlags, hoption, if_neg Bool.false_ne_true, hh] at hedit
  have hdisjoint : inheritedFlags.all (· &&& gained == 0#32) = true := by decide
  exact hp hown (has_of_has hedit (beq_iff_eq.1 (all_eq_true.1 hdisjoint f hf)) hhas)

theorem chain_flags_ask : has first.flags Ticket.PreAuthent = true :=
  chain_flags handedOut_ask rfl _ (by decide) (by decide)

end Kerberos
