import Kerberos.Proof.Endtime
import Kerberos.Spec.Sample

/-!
# Chains of tickets

The renew-till of a ticket is never exceeded by the tickets obtained with it
(`renewTill_le`). With the end of every presented ticket kept as well, a chain of TGS
exchanges that starts from an initial ticket stays within that ticket's last use: its
end, or its renew-till (`tgs_chain_bounded`). Without that condition an ordinary TGS
request extends the end it was presented with (`tgs_endtime_grows`).
-/

namespace Kerberos

open Transition List Option

variable {E : Env} {s : Server} {clk : Clock} {request : KDCReq} {raw : Bytes}

/-- `own` is no later than some `presented` time, where it is there at all. -/
def NoLater (own presented : Option KerberosTime) : Prop :=
  ∀ r ∈ own, ∃ p ∈ presented, r.time ≤ p.time

theorem NoLater.refl (t : Option KerberosTime) : NoLater t t := fun r hr => ⟨r, hr, le_rfl⟩

theorem NoLater.none (t : Option KerberosTime) : NoLater none t := fun _ h => by cases h

/-! ## The renew-till -/

theorem ordinaryTimes_renewTill (s : Server) (body : KDCReqBody)
    (presented : EncTicketPart) (start : ℤ)
    (st : Option KerberosTime) (flags : Flags) (client : Option PrincipalRecord)
    (service : PrincipalRecord) :
    NoLater (ordinaryTimes s body presented start st flags client service).renewTill
      presented.renewTill := by
  unfold ordinaryTimes cappedRenewTill
  simp only
  split
  · split
    · exact NoLater.none _
    · rename_i p o hp ho
      split
      · exact NoLater.refl _
      · rename_i hle
        rw [hp, ho]
        intro r hr
        cases hr
        exact ⟨p, rfl, not_lt.1 hle⟩
    · exact NoLater.none _
  · rename_i hopt
    rw [Bool.not_eq_true, has_or, Bool.or_eq_false_iff] at hopt
    simp [renewTillRecords, hopt.1, hopt.2, NoLater.none]

theorem lowerTime_time_le (now life : ℤ) (t : KerberosTime) :
    (lowerTime now life t).time ≤ t.time := by
  unfold lowerTime
  split
  · rename_i h; exact h.2.le
  · exact le_rfl

theorem applyTGSPolicies_renewTill {now : ℤ} {request : TGSPolicyRequest}
    {modules : List KDCPolicyModule} {t t' : TicketTimes} {limit : Option KerberosTime}
    (h : applyTGSPolicies now request modules t = .ok t') (ht : NoLater t.renewTill limit) :
    NoLater t'.renewTill limit := by
  induction modules generalizing t with
  | nil => cases h; exact ht
  | cons m ms ih =>
    obtain ⟨result, -, h⟩ := Except.bind_ok.1 h
    refine ih h ?_
    intro r hr
    simp only [constrainTicketTimes, mem_def, map_eq_some_iff] at hr
    obtain ⟨r', hr', rfl⟩ := hr
    obtain ⟨p, hp, hle⟩ := ht r' hr'
    exact ⟨p, hp, le_trans (lowerTime_time_le _ _ _) hle⟩

/-- **The renew-till of the presented ticket is never exceeded.** -/
theorem renewTill_le {a : Admission} {g : Grant} {out : TGSReply}
    (ha : admitTGS E s clk request raw = .ok a) (hg : decideGrant E s clk a = .ok g)
    (hb : buildTGSRep E s (clk .issue) a.request a.armor g = .ok out) :
    NoLater out.ticketPart.onWire.renewTill a.header.ticketPart.renewTill := by
  obtain ⟨client, indicators, times, limited, -, -, ht, hlim, -, -, hrenew, -⟩ := buildTGSRep_ok hb
  have hg' : g.ticketPart.renewTill = a.header.ticketPart.renewTill := by
    rw [decideGrant_part ha hg]
  have htimes : NoLater times.renewTill g.ticketPart.renewTill := by
    unfold tgsTimes at ht
    split at ht
    · cases ht; exact NoLater.refl _
    · split at ht
      · cases ht; exact NoLater.refl _
      · split at ht
        · obtain ⟨f, -, rfl⟩ := map_eq_some_iff.1 ht
          exact ordinaryTimes_renewTill _ _ _ _ _ _ _ _
        · cases ht
          exact ordinaryTimes_renewTill _ _ _ _ _ _ _ _
  rw [hg'] at htimes
  have hlimited : NoLater limited.renewTill a.header.ticketPart.renewTill := by
    refine applyTGSPolicies_renewTill hlim ?_
    unfold limitTimes
    split
    · simp only
      split
      · exact NoLater.none _
      · exact htimes
    · exact NoLater.none _
  intro r hr
  simp only [EncTicketPart.onWire, hrenew, mem_def, map_eq_some_iff] at hr
  obtain ⟨r', hr', rfl⟩ := hr
  obtain ⟨p, hp, hle⟩ := hlimited r' hr'
  exact ⟨p, hp, le_trans (truncSec_le _) hle⟩

/-! ## Runs -/

/-- The last instant a ticket may be used at, renewals included. -/
def lastUse (p : EncTicketPart) : ℤ :=
  p.renewTill.elim p.endTime.time fun r => max p.endTime.time r.time

/-- Every ticket of the chain ends as `EndtimeKept` asks. -/
def Issued.Kept : Issued → Prop
  | .initial _ | .crossRealm _ => True
  | .derived presented options part => presented.Kept ∧ EndtimeKept options presented.part part

/-- A ticket stays within the last use of the first ticket of its chain. -/
structure WithinRoot (t : Issued) : Prop where
  endTime : t.part.endTime.time ≤ lastUse t.root
  renewTill : ∀ r ∈ t.part.renewTill, r.time ≤ lastUse t.root

/-- The condition on an exchange: a TGS request that is granted meets `EndtimeGuard`. -/
def endtimeGuarded (s : Server) (_ : World) : Event → Prop
  | .asReq .. | .crossRealm _ => True
  | .tgsReq E db clk request raw => ∀ a g client,
      admitTGS E { s with db } clk request raw = .ok a → decideGrant E { s with db } clk a = .ok g →
      db.lookup g.client = .ok client →
      EndtimeGuard s (truncSec (clk .issue)) a.request.reqBody a.header.ticketPart client
        g.serviceRecord (grantAnswers E s (truncSec (clk .issue)) a.request g client)

/-- A chain of one ticket stays within it. -/
theorem withinRoot_of_root {t : Issued} (h : t.root = t.part) : WithinRoot t := by
  constructor
  · rw [h, lastUse]
    cases t.part.renewTill with
    | none => exact le_rfl
    | some r => exact le_max_left _ _
  · intro r hr
    rw [h, lastUse, mem_def.1 hr]
    exact le_max_right _ _

theorem withinRoot_derived {t : Issued} {options : Flags} {part : EncTicketPart} (ht : WithinRoot t)
    (hend : EndtimeKept options t.part part) (hrenew : NoLater part.renewTill t.part.renewTill) :
    WithinRoot (.derived t options part) := by
  constructor
  · unfold EndtimeKept at hend
    split at hend
    · obtain ⟨r, hr, hle⟩ := hend
      exact le_trans hle (ht.renewTill r hr)
    · exact le_trans hend ht.endTime
  · intro r hr
    obtain ⟨p, hp, hle⟩ := hrenew r hr
    exact le_trans hle (ht.renewTill p hp)

/-- **One exchange** that meets the condition keeps all chains bounded. -/
theorem guarded_step {w w' : World} {e : Event} (hw : ∀ t ∈ w.tickets, t.Kept ∧ WithinRoot t)
    (h : Guarded (KDCStep s) (endtimeGuarded s) w e w') :
    ∀ t ∈ w'.tickets, t.Kept ∧ WithinRoot t := by
  obtain ⟨hstep, hguard⟩ := h
  cases hstep with
  | asRefused => exact hw
  | tgsRefused => exact hw
  | asIssued => exact forall_mem_cons.2 ⟨⟨trivial, withinRoot_of_root rfl⟩, hw⟩
  | crossRealm => exact forall_mem_cons.2 ⟨⟨trivial, withinRoot_of_root rfl⟩, hw⟩
  | tgsIssued hclk hp ha hh h =>
    obtain ⟨g, hg, hb⟩ := handleTGSReqCore_ok ha h
    obtain ⟨client, -, -, -, hc, -⟩ := buildTGSRep_ok hb
    have hkept := (endtimeKept_iff ha hg hc hb).2 (hguard _ _ _ ha hg hc)
    have hrenew := renewTill_le ha hg hb
    rw [hh] at hkept hrenew
    obtain ⟨hpk, hpr⟩ := hw _ hp
    exact forall_mem_cons.2 ⟨⟨⟨hpk, hkept⟩, withinRoot_derived hpr hkept hrenew⟩, hw⟩

/-- **The end of a presented ticket.** A granted TGS request keeps it exactly under
`EndtimeGuard`; and in every run whose exchanges meet that condition, every ticket of
every chain does, and none is usable after the last use of the ticket its chain
started from. -/
theorem tgs_chain_bounded (s : Server) :
    (∀ E clk table table' request raw a g client out, admitTGS E s clk request raw = .ok a →
      decideGrant E s clk a = .ok g → s.db.lookup g.client = .ok client →
      handleTGSReqCore E s clk table request raw = (.ok out, table') →
      (EndtimeKept a.request.reqBody.kdcOptions a.header.ticketPart out.ticketPart.onWire ↔
        EndtimeGuard s (truncSec (clk .issue)) a.request.reqBody a.header.ticketPart client
          g.serviceRecord (grantAnswers E s (truncSec (clk .issue)) a.request g client))) ∧
    ∀ now es w, Run (Guarded (KDCStep s) (endtimeGuarded s)) (World.start now) es w →
      ∀ t ∈ w.tickets, t.Kept ∧ t.part.endTime.time ≤ lastUse t.root := by
  constructor
  · intro E clk table table' request raw a g client out ha hg hc h
    obtain ⟨g', hg', hb⟩ := handleTGSReqCore_ok ha h
    cases hg.symm.trans hg'
    exact endtimeKept_iff ha hg hc hb
  · intro now es w hrun t ht
    have hall := Run.invariant (P := fun w => ∀ t ∈ w.tickets, t.Kept ∧ WithinRoot t)
      (fun _ _ _ => guarded_step) hrun (by simp [World.start])
    exact ⟨(hall t ht).1, (hall t ht).2.endTime⟩

open Sample

/-- **An ordinary request extends its ticket.** With a ticket that ends at ten hours the
client asks, after nine, for a ticket with a later till: the ticket it gets ends at
nineteen hours. -/
theorem tgs_endtime_grows : ∃ es w, Run (KDCStep server) (World.start 0) es w ∧
    ∃ t ∈ w.tickets, ¬ t.Kept ∧ lastUse t.root < t.part.endTime.time := by
  refine ⟨[login, ask first (9 * hour) (9 * hour) (100 * hour)], _,
    .cons login_step (.single (ask_step (by simp [Issued.part]))),
      .derived (.initial first) 0 (serviceTicket first (19 * hour)), mem_cons_self, ?_, by decide⟩
  rintro ⟨-, h⟩
  revert h
  unfold EndtimeKept
  decide

/-- Asking for no more than the ticket's own end meets the condition, in one exchange and in a
run. -/
theorem tgs_chain_bounded_ask :
    (∃ out table, handleTGSReqCore (env first (authenticator (9 * hour))) server
      (clock (9 * hour)) ∅
        (tgsRequest 0 service (10 * hour)) [] = (.ok out, table) ∧
      EndtimeKept 0 first out.ticketPart.onWire) ∧
    ∃ w, Run (Guarded (KDCStep server) (endtimeGuarded server)) (World.start 0)
        [login, ask first (9 * hour) (9 * hour) (10 * hour)] w ∧
      ∃ t ∈ w.tickets, t.part = serviceTicket first (10 * hour) ∧ t.Kept ∧
        t.part.endTime.time ≤ lastUse t.root := by
  have hguard : ∀ a g client,
      admitTGS (env first (authenticator (9 * hour))) server (clock (9 * hour))
        (tgsRequest 0 service (10 * hour)) [] = .ok a →
      EndtimeGuard server (truncSec (9 * hour)) a.request.reqBody a.header.ticketPart client
        g.serviceRecord (grantAnswers (env first (authenticator (9 * hour))) server
          (truncSec (9 * hour)) a.request g client) := by
    intro a g client ha
    have hbody : a.request.reqBody = body 0 service (10 * hour) := by cases ha; rfl
    have hpart : a.header.ticketPart = first := by cases ha; rfl
    rw [hbody, hpart]
    refine Or.inl ⟨by decide, Or.inr ?_⟩
    rw [if_pos (by decide)]
    decide
  obtain ⟨hone, hrun⟩ := tgs_chain_bounded server
  constructor
  · obtain ⟨a, g, client, out, table, ha, hg, hc, h⟩ : ∃ a g client out table,
        admitTGS (env first (authenticator (9 * hour))) server (clock (9 * hour))
          (tgsRequest 0 service (10 * hour)) [] = .ok a ∧
        decideGrant (env first (authenticator (9 * hour))) server (clock (9 * hour)) a = .ok g ∧
        server.db.lookup g.client = .ok client ∧
        handleTGSReqCore (env first (authenticator (9 * hour))) server (clock (9 * hour)) ∅
          (tgsRequest 0 service (10 * hour)) [] = (.ok out, table) :=
            ⟨_, _, _, _, _, rfl, rfl, rfl, rfl⟩
    have hkept := (hone _ _ _ _ _ _ a g client out ha hg hc h).2 (hguard a g client ha)
    cases ha
    exact ⟨out, table, h, hkept⟩
  · have hsteps : Run (Guarded (KDCStep server) (endtimeGuarded server)) (World.start 0)
        [login, ask first (9 * hour) (9 * hour) (10 * hour)]
        (afterAsk (.initial first) (9 * hour) (9 * hour) (10 * hour)) :=
      .cons ⟨login_step, trivial⟩ (.single ⟨ask_step (by simp [Issued.part]),
        fun a g client ha _ _ => hguard a g client ha⟩)
    exact ⟨_, hsteps, _, mem_cons_self, rfl, hrun 0 _ _ hsteps _ mem_cons_self⟩

end Kerberos
