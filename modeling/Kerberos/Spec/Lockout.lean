import Kerberos.Lib.Run
import Kerberos.Spec.Database

/-!
# Failures of preauthentication

Concurrent AS requests for one principal. A request looks the principal up, `lockedOut` may reset
the failures that its copy of the record shows as old, and `recordPreauthFailure` or
`recordPreauthSuccess` records how it ended. The operations of the database are atomic; the copy of
the record and the clock are read before, and other requests may come in between.

`recorded` and `counted` are not in the source: all failures that were recorded, and those since the
later of the last success and the last operation that found the last failure to be older than the
interval.
-/

namespace Kerberos.Lockout

/-- What a request has read: the last failure in its copy of the record, with the failures that were
recorded by then, and the clock. `resets` says that `ResetAuthFailures` is to be called. -/
structure Request where
  lastFailed : Option ℤ := none
  seen : ℕ := 0
  resets : Bool := false
  now : ℤ := 0

structure World where
  db : Database
  clock : ℤ
  requests : ℕ → Request
  recorded : ℕ
  counted : ℕ

inductive Event
  | tick (clock : ℤ)
  | lookup (i : ℕ)
  | check (i : ℕ)
  | reset (i : ℕ)
  | read (i : ℕ)
  | failure (i : ℕ)
  | success (i : ℕ)

/-- The failure-count interval has passed. -/
def Expired (interval lastFailed now : ℤ) : Prop :=
  0 < interval ∧ lastFailed ≠ zeroTime ∧ lastFailed + interval ≤ now

instance (interval lastFailed now : ℤ) : Decidable (Expired interval lastFailed now) :=
  inferInstanceAs (Decidable (_ ∧ _ ∧ _))

def World.set (w : World) (i : ℕ) (r : Request) : World :=
  { w with requests := Function.update w.requests i r }

/-- One step of a request, or of the clock. -/
inductive Step (name : Principal) (interval : ℤ) : World → Event → World → Prop
  | tick {w : World} {clock : ℤ} (h : w.clock ≤ clock) :
    Step name interval w (.tick clock) { w with clock }
  | lookup {w : World} {i : ℕ} {record : PrincipalRecord} (h : w.db.lookup name = some record) :
      Step name interval w (.lookup i)
        (w.set i { lastFailed := some record.lastFailed, seen := w.recorded })
  | check {w : World} {i : ℕ} {t : ℤ} (h : (w.requests i).lastFailed = some t) :
      Step name interval w (.check i)
        (w.set i { w.requests i with resets := decide (Expired interval t w.clock) })
  | reset {w : World} {i : ℕ} {t : ℤ} {record : PrincipalRecord} {db : Database}
    (hr : (w.requests i).resets = true)
      (ht : (w.requests i).lastFailed = some t) (h : w.db.lookup name = some record)
      (hdb : w.db.resetAuthFailures w.clock name t = .ok db) :
      Step name interval w (.reset i) { w.set i { w.requests i with resets := false } with
        db, counted := if record.lastFailed = t then 0 else w.counted }
  | read {w : World} {i : ℕ} :
    Step name interval w (.read i) (w.set i { w.requests i with now := w.clock })
  | failure {w : World} {i : ℕ} {record : PrincipalRecord} {db : Database}
    (h : w.db.lookup name = some record)
      (hdb : w.db.recordAuthFailure w.clock name (w.requests i).now interval = .ok db) :
      Step name interval w (.failure i) { w.set i {} with
        db, recorded := w.recorded + 1
        counted :=
          (if Expired interval record.lastFailed (w.requests i).now then 0 else w.counted) + 1 }
  | success {w : World} {i : ℕ} {db : Database}
      (hdb : w.db.recordAuthSuccess w.clock name (w.requests i).now = .ok db) :
      Step name interval w (.success i) { w.set i {} with db, counted := 0 }

end Kerberos.Lockout
