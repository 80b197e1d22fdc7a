import Kerberos.Spec.Principal
import Mathlib.Data.List.AList

/-!
# Records of the principal database

`PrincipalRecord` and `PolicyRecord` with all their fields. A Go map is an
`AList`: no key occurs twice, by construction. `Store` is what the KDC sees of a
database, the optional interfaces (`AliasResolver`, `PolicyResolver`) included.
-/

namespace Kerberos

/-- A Go map. -/
abbrev GoMap (κ α : Type) := AList fun _ : κ => α

/-- The map without the entries that fail `p`, as a loop that deletes them leaves it. -/
def GoMap.keep {κ α : Type} (p : κ → α → Bool) (m : GoMap κ α) : GoMap κ α :=
  ⟨m.entries.filter fun e => p e.1 e.2, (List.filter_sublist.map Sigma.fst).nodup m.nodupKeys⟩

theorem GoMap.mem_lookup_keep {κ α : Type} [DecidableEq κ] {p : κ → α → Bool}
    {m : GoMap κ α} {k : κ}
    {x : α} : x ∈ (m.keep p).lookup k ↔ x ∈ m.lookup k ∧ p k x = true := by
  rw [AList.mem_lookup_iff, AList.mem_lookup_iff]
  simp [GoMap.keep]

structure Key where
  enctype : Int32
  kvno : UInt32
  key : Bytes
  salt : Bytes
  deriving DecidableEq, Inhabited

structure TLData where
  type : Int16
  data : Bytes
  deriving DecidableEq, Inhabited

structure PrincipalRecord where
  name : Principal
  keys : GoMap Int32 Key := ∅
  keyData : List Key := []
  passwordHistory : List (GoMap Int32 Key) := []
  kadmAuxAttributes : UInt32 := 0
  adminHistoryNext : UInt32 := 0
  adminHistoryKVNO : UInt32 := 0
  lastPasswordChange : ℤ := zeroTime
  strings : GoMap Bytes Bytes := ∅
  kvno : UInt32 := 0
  flags : Flags := 0
  policy : Bytes := []
  maxLife : ℤ := 0
  maxRenew : ℤ := 0
  expiration : ℤ := zeroTime
  passwordExpiration : ℤ := zeroTime
  lastSuccess : ℤ := zeroTime
  lastFailed : ℤ := zeroTime
  failAuthCount : UInt32 := 0
  tlData : List TLData := []
  deriving DecidableEq

namespace KDB

def DisallowPostdated : Flags := flag 0
def DisallowForwardable : Flags := flag 1
def DisallowTGTBased : Flags := flag 2
def DisallowRenewable : Flags := flag 3
def DisallowProxiable : Flags := flag 4
def DisallowDupSkey : Flags := flag 5
def DisallowAllTickets : Flags := flag 6
def RequiresPreAuth : Flags := flag 7
def RequiresHWAuth : Flags := flag 8
def RequiresPWChange : Flags := flag 9
def DisallowServer : Flags := flag 12
def PWChangeService : Flags := flag 13

end KDB

structure PolicyRecord where
  name : Bytes
  minLife : Int32 := 0
  maxLife : Int32 := 0
  minLength : Int32 := 0
  minClasses : Int32 := 0
  historyNum : Int32 := 0
  maxFailure : UInt32 := 0
  failureCountInterval : Int32 := 0
  lockoutDuration : Int32 := 0
  attributes : Int32 := 0
  maxTicketLife : Int32 := 0
  maxRenewableLife : Int32 := 0
  allowedKeySalts : Bytes := []
  deriving DecidableEq

/-- `kdb.Store` and the optional interfaces the KDC asks it for. A lookup fails
(`error`), finds nothing, or finds a record. -/
structure Store where
  lookup : Principal → Except Unit (Option PrincipalRecord)
  resolveAlias : Option (Principal → Except Unit (Option Principal)) := none
  getPolicy : Option (Bytes → Option PolicyRecord) := none

/-- `selectServiceKey`: the first requested enctype the service has a key for. -/
def selectServiceKey (enctypes : List Int32) (service : PrincipalRecord) : Option (Int32 × Key) :=
  enctypes.findSome? fun enctype =>
    (service.keys.lookup enctype).map fun key => (enctype, { key with enctype })

/-- `selectKVNO`: the current key of an enctype, or a historical one of that version. -/
def selectKVNO (record : PrincipalRecord) (enctype : Int32) (kvno : Option UInt32) : Option Key :=
  let historical := match kvno with
    | none => none
    | some v => record.passwordHistory.findSome? fun keys =>
        match keys.lookup enctype with
        | some key => if key.kvno = v then some { key with enctype } else none
        | none => none
  match record.keys.lookup enctype with
  | some key => if kvno = none ∨ kvno = some key.kvno then some { key with enctype } else historical
  | none => historical

end Kerberos
