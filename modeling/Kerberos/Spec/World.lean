import Kerberos.Spec.AS
import Kerberos.Lib.Run

/-!
# Runs of the KDC

The KDC as a transition system. Its state is the clock, the replay table and the
tickets handed out so far, each with the ticket it was obtained with. An event is
one exchange with the packages, the database and the clock readings it meets: the
database may change between exchanges, the clock never runs back.
-/

namespace Kerberos

/-- GeneralizedTime has no fractional seconds. -/
def KerberosTime.onWire (t : KerberosTime) : KerberosTime := { t with time := truncSec t.time }

/-- A ticket as its holder presents it: the times as they are encoded. -/
def EncTicketPart.onWire (p : EncTicketPart) : EncTicketPart :=
  { p with
    authTime := p.authTime.onWire, startTime := p.startTime.map (·.onWire)
    endTime := p.endTime.onWire, renewTill := p.renewTill.map (·.onWire) }

/-- A ticket a client can present: from an AS exchange, from the KDC of another realm,
or from a TGS exchange in which `presented` was shown. -/
inductive Issued
  | initial (part : EncTicketPart)
  | crossRealm (part : EncTicketPart)
  | derived (presented : Issued) (options : Flags) (part : EncTicketPart)

def Issued.part : Issued → EncTicketPart
  | .initial part => part
  | .crossRealm part => part
  | .derived _ _ part => part

/-- The ticket a chain of tickets starts from. -/
def Issued.root : Issued → EncTicketPart
  | .initial part => part
  | .crossRealm part => part
  | .derived presented _ _ => presented.root

/-- The state of the KDC and of those it serves. -/
structure World where
  clock : ℤ
  replays : ReplayTable
  tickets : List Issued

/-- One exchange, with what it meets. -/
inductive Event
  | crossRealm (part : EncTicketPart)
  | asReq (E : Env) (db : Store) (clk : ASClock) (request : KDCReq) (raw : Bytes)
  | tgsReq (E : Env) (db : Store) (clk : Clock) (request : KDCReq) (raw : Bytes)

/-- The readings of an exchange lie between `now` and `later`, in order. -/
def Clock.Runs (clk : Clock) (now later : ℤ) : Prop :=
  (∀ r, now ≤ clk r ∧ clk r ≤ later) ∧ ∀ r r' : Reading, r.ctorIdx ≤ r'.ctorIdx → clk r ≤ clk r'

def ASClock.Runs (clk : ASClock) (now later : ℤ) : Prop :=
  (∀ r, now ≤ clk r ∧ clk r ≤ later) ∧ ∀ r r' : ASReading, r.ctorIdx ≤ r'.ctorIdx → clk r ≤ clk r'

/-- One exchange with a KDC of configuration `s`, or with the KDC of another realm. A
TGS request shows a ticket that was handed out before. -/
inductive KDCStep (s : Server) : World → Event → World → Prop
  | crossRealm {w : World} (part : EncTicketPart) :
      KDCStep s w (.crossRealm part) { w with tickets := .crossRealm part :: w.tickets }
  | asRefused {w : World} {E db clk request raw f later}
      (hclk : ASClock.Runs clk w.clock later)
      (h : handleASReqCore E { s with db } clk request raw = .error f) :
      KDCStep s w (.asReq E db clk request raw) { w with clock := later }
  | asIssued {w : World} {E db clk request raw later reply}
      (hclk : ASClock.Runs clk w.clock later)
      (h : handleASReqCore E { s with db } clk request raw = .ok reply) :
      KDCStep s w (.asReq E db clk request raw)
        { w with clock := later, tickets := .initial reply.ticketPart.onWire :: w.tickets }
  | tgsRefused {w : World} {E db clk request raw later f replays}
      (hclk : Clock.Runs clk w.clock later)
      (h : handleTGSReqCore E { s with db } clk w.replays request raw = (.error f, replays)) :
      KDCStep s w (.tgsReq E db clk request raw) { w with clock := later, replays }
  | tgsIssued {w : World} {E db clk request raw later a reply replays} {presented : Issued}
      (hclk : Clock.Runs clk w.clock later) (hp : presented ∈ w.tickets)
      (ha : admitTGS E { s with db } clk request raw = .ok a)
      (hh : a.header.ticketPart = presented.part)
      (h : handleTGSReqCore E { s with db } clk w.replays request raw = (.ok reply, replays)) :
      KDCStep s w (.tgsReq E db clk request raw)
        { clock := later, replays
          tickets := .derived presented a.request.reqBody.kdcOptions reply.ticketPart.onWire ::
            w.tickets }

/-- The KDC before its first exchange. -/
def World.start (now : ℤ) : World := ⟨now, ∅, []⟩

end Kerberos
