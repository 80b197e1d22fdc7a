import Kerberos.Spec.Database

/-!
# The update log of the master

The operations of `UpdateLog` besides `append`. `Entries` answers a replica's cursor with
what was logged after it, or asks for a full resynchronization.
-/

namespace Kerberos

/-- The answer to a request for updates. -/
inductive UpdateStatus
  | ok
  | error
  | fullResyncNeeded
  | busy
  | nil
  | permDenied
  deriving DecidableEq

namespace UpdateLog

/-- `NewUpdateLog`: a negative capacity is none. -/
def new (capacity : ℤ) : UpdateLog := { capacity := capacity.toNat }

/-- `SetCapacity`: what no longer fits is dropped from the front. -/
def setCapacity (l : UpdateLog) (capacity : ℤ) : UpdateLog :=
  { l with
    capacity := capacity.toNat
    entries := if capacity.toNat = 0 then []
      else l.entries.drop (l.entries.length - capacity.toNat) }

/-- `Reset`: the serial marker stays. -/
def clear (l : UpdateLog) : UpdateLog := { l with entries := [], reset := true }

/-- `Entries`. -/
def entriesAfter (l : UpdateLog) (serial : UInt32) (stamp : ℤ) :
    UpdateStatus × List UpdateLogEntry :=
  if ¬ l.reset ∧ serial = l.last ∧ stamp = l.lastTime then (.nil, [])
  else
    match l.entries with
    | [] => (.fullResyncNeeded, [])
    | first :: _ =>
      if serial = 0 ∧ stamp = zeroTime ∧ first.serial = 1 then (.ok, l.entries)
      else if l.last < serial ∨ serial < first.serial then (.fullResyncNeeded, [])
      else
        -- the entry with that serial, and what follows it
        match l.entries.dropWhile fun entry => entry.serial ≠ serial with
        | [] => (.fullResyncNeeded, [])
        | found :: rest =>
          if found.time ≠ stamp then (.fullResyncNeeded, [])
          else if rest = [] then (.nil, [])
          else (.ok, rest)

end UpdateLog

/-- An operation on the log. -/
inductive LogOp
  | append (entry : UpdateLogEntry)
  | reset
  | setCapacity (capacity : ℤ)

/-- The log after an operation. -/
def LogOp.apply (l : UpdateLog) : LogOp → UpdateLog
  | append entry => l.append entry
  | reset => l.clear
  | setCapacity capacity => l.setCapacity capacity

/-- The log after a list of operations. -/
def UpdateLog.exec (l : UpdateLog) (ops : List LogOp) : UpdateLog := ops.foldl LogOp.apply l

end Kerberos
