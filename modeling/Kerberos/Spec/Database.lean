import Kerberos.Spec.KADM

/-!
# The principal database

`Database` with its exported operations. A database carries what holds of its maps
whatever is called: a principal is filed under the canonical form of its name
(`principals_canonical`), a policy under its name (`policies_named`).

The clock is a parameter `now` of the operations that read it, and random keys come
from an `Entropy`. Each operation that finds the record it is about goes through
`modify`, and leaves all other principals alone.
-/

namespace Kerberos

open Except

def EnctypeAES128SHA1 : Int32 := 17
def EnctypeAES256SHA1 : Int32 := 18
def EnctypeAES128SHA256 : Int32 := 19
def EnctypeAES256SHA384 : Int32 := 20
def EnctypeCamellia128 : Int32 := 25
def EnctypeCamellia256 : Int32 := 26

/-- The enctypes of a new principal. -/
def defaultEnctypes : List Int32 :=
  [EnctypeAES128SHA1, EnctypeAES256SHA1, EnctypeAES128SHA256, EnctypeAES256SHA384,
    EnctypeCamellia128, EnctypeCamellia256]

structure KeySaltTuple where
  enctype : Int32
  saltType : Int32
  deriving DecidableEq

def SaltTypeNormal : Int32 := 0
def SaltTypeNoRealm : Int32 := 2
def SaltTypeOnlyRealm : Int32 := 3

/-- How an operation on the database fails. -/
inductive DBError
  | principalExists
  | principalNotFound
  | policyExists
  | policyNotFound
  | policyInUse
  | passwordTooShort
  | passwordClasses
  | passwordTooSoon
  | passwordReuse
  | badKeySalts
  | failed (text : String)
  deriving DecidableEq

/-! ## The update log -/

structure UpdateLogEntry where
  serial : UInt32 := 0
  time : ℤ
  name : Principal
  record : PrincipalRecord
  deleted : Bool
  commit : Bool

structure UpdateLog where
  capacity : ℕ
  entries : List UpdateLogEntry := []
  last : UInt32 := 0
  lastTime : ℤ := zeroTime
  reset : Bool := false

/-- `t.Truncate(time.Microsecond)`. -/
def truncMicro (t : ℤ) : ℤ := t - t % 1000

/-- `UpdateLog.append`: the serial starts again after the last one. -/
def UpdateLog.append (l : UpdateLog) (entry : UpdateLogEntry) : UpdateLog :=
  let l := if l.last = 0xffffffff then { l with entries := [], last := 0 } else l
  let entry := { entry with serial := l.last + 1, time := truncMicro entry.time }
  { l with
    last := l.last + 1, lastTime := entry.time, reset := false
    entries := if 0 < l.capacity then
        (l.entries ++ [entry]).drop (l.entries.length + 1 - l.capacity) else [] }

def hasTLData (values : List TLData) (type : Int16) : Bool :=
  values.any fun value => value.type == type

/-! ## The database -/

/-- `canonical`: the realm and the components with a zero byte between them. -/
def canonical (name : Principal) : Bytes := name.realm ++ 0 :: [0].intercalate name.components

structure Database where
  realm : Bytes
  masterKeys : List Key := []
  activeMKeys : List ActKVNO := []
  mKeyAux : List MKeyAuxEntry := []
  principals : GoMap Bytes PrincipalRecord := ∅
  aliases : GoMap Bytes Principal := ∅
  policies : GoMap Bytes PolicyRecord := ∅
  updateLog : Option UpdateLog := none
  principals_canonical : ∀ k, ∀ r ∈ principals.lookup k, canonical r.name = k
  policies_named : ∀ k, ∀ p ∈ policies.lookup k, p.name = k

def newDatabase (realm : Bytes) : Database where
  realm := realm
  updateLog := some { capacity := 1024 }
  principals_canonical := by simp
  policies_named := by simp

namespace Database

variable (db : Database)

/-- The record filed under the canonical form of its own name. -/
def put (record : PrincipalRecord) : Database :=
  { db with
    principals := db.principals.insert (canonical record.name) record
    principals_canonical := by
      intro k r hr
      by_cases hk : k = canonical record.name
      · subst hk
        rw [AList.lookup_insert, Option.mem_some] at hr
        rw [hr]
      · rw [AList.lookup_insert_ne hk] at hr
        exact db.principals_canonical k r hr }

def remove (key : Bytes) : Database :=
  { db with
    principals := db.principals.erase key
    principals_canonical := by
      intro k r hr
      by_cases hk : k = key
      · subst hk
        rw [AList.lookup_erase] at hr
        cases hr
      · rw [AList.lookup_erase_ne hk] at hr
        exact db.principals_canonical k r hr }

def putPolicy (policy : PolicyRecord) : Database :=
  { db with
    policies := db.policies.insert policy.name policy
    policies_named := by
      intro k p hp
      by_cases hk : k = policy.name
      · subst hk
        rw [AList.lookup_insert, Option.mem_some] at hp
        rw [hp]
      · rw [AList.lookup_insert_ne hk] at hp
        exact db.policies_named k p hp }

def removePolicy (name : Bytes) : Database :=
  { db with
    policies := db.policies.erase name
    policies_named := by
      intro k p hp
      by_cases hk : k = name
      · subst hk
        rw [AList.lookup_erase] at hp
        cases hp
      · rw [AList.lookup_erase_ne hk] at hp
        exact db.policies_named k p hp }

/-- `recordUpdateLocked`: a record that is not deleted is logged with a modifier. -/
def recordUpdate (now : ℤ) (record : PrincipalRecord) (deleted : Bool) : Database :=
  let modifier := Words.leBytes 4 (now / second % 2 ^ 32).toNat ++ record.name.display ++ [0]
  let logged := if !deleted && !hasTLData record.tlData 2 then
    { record with tlData := record.tlData ++ [⟨2, modifier⟩] } else record
  { db with updateLog := db.updateLog.map fun log =>
      log.append { time := now, name := record.name, record := logged, deleted, commit := true } }

/-- File the record and log it. -/
def save (now : ℤ) (record : PrincipalRecord) : Database :=
  (db.put record).recordUpdate now record false

def lookup (name : Principal) : Option PrincipalRecord := db.principals.lookup (canonical name)

/-- The record of a name, or the error all operations on a missing principal give. -/
def find (name : Principal) : Except DBError PrincipalRecord :=
  ofOption .principalNotFound (db.lookup name)

/-- An operation on the record of `name`: `f` gives it as it is filed again, under its own name. -/
def modify (now : ℤ) (name : Principal) (f : PrincipalRecord → Except DBError PrincipalRecord) :
    Except DBError Database := do
  let current ← db.find name
  let record ← f current
  pure (db.save now record)

def getPolicy (name : Bytes) : Except DBError PolicyRecord :=
  ofOption .policyNotFound (db.policies.lookup name)

/-- `ListPolicies`: the names in lexical order. -/
def listPolicies : List Bytes := db.policies.keys.insertionSort (· ≤ ·)

/-- `ListPrincipals`: the display names in lexical order; a name without a display form is
left out. -/
def listPrincipals : List Bytes :=
  (db.principals.entries.filterMap fun e => e.2.name.format.toOption).insertionSort (· ≤ ·)

def resolveAlias (name : Principal) : Option Principal := db.aliases.lookup (canonical name)

end Database

/-! ## Names, salts and keys -/

/-- `parseName`: the realm of the database is the default, and the only one but for
cross-realm keys. -/
def parseName (name realm : Bytes) : Except DBError Principal := do
  let full := if atSign ∈ name then name else name ++ atSign :: realm
  let parsed ← (parsePrincipal full).mapError .failed
  ensure (parsed.realm = realm ∨ (parsed.components.length = 2 ∧
    parsed.components.head? = some (str "krbtgt")))
    (.failed "principal realm does not match database realm")
  Except.ensure (parsed.components ≠ []) (.failed "empty principal components")
  pure (if 1 < parsed.components.length then { parsed with nameType := NTSrvInstance } else parsed)

def saltForPrincipal (name : Principal) (saltType : Int32) : Except DBError Bytes :=
  if saltType = SaltTypeNormal then .ok (normalSalt name)
  else if saltType = SaltTypeNoRealm then .ok name.components.flatten
  else if saltType = SaltTypeOnlyRealm then .ok name.realm
  else .error (.failed s!"unsupported key salt type {saltType}")

/-- One round of `normalizeKeySaltTuples`: an enctype seen before must have the same salt type. -/
def normalizeTuple (normalized : List KeySaltTuple) (tuple : KeySaltTuple) :
    Except DBError (List KeySaltTuple) :=
  match normalized.find? fun t => t.enctype == tuple.enctype with
  | some previous =>
    if previous.saltType ≠ tuple.saltType then .error .badKeySalts else .ok normalized
  | none => .ok (normalized ++ [tuple])

def normalizeKeySaltTuples (tuples : List KeySaltTuple) : Except DBError (List KeySaltTuple) :=
  if tuples.length < 2 then .ok tuples else tuples.foldlM normalizeTuple []

/-- The key of a password under an enctype and salt. -/
def deriveKey (env : KDB.Env) (enctype : Int32) (kvno : UInt32) (password salt recorded : Bytes) :
    Except DBError Key := do
  let _ ← Except.ofOption (.failed s!"principal enctype {enctype}") (env.etype enctype)
  let derived ← Except.ofOption (.failed s!"principal enctype {enctype}")
    (env.stringToKey enctype password salt)
  pure ⟨enctype, kvno, derived, recorded⟩

def deriveTupleKey (env : KDB.Env) (name : Principal) (password : Bytes) (kvno : UInt32)
    (tuple : KeySaltTuple) : Except DBError Key := do
  let salt ← saltForPrincipal name tuple.saltType
  deriveKey env tuple.enctype kvno password salt salt

/-- The tuples used in place of none. -/
def defaultTuples : List KeySaltTuple :=
  defaultEnctypes.map fun enctype => ⟨enctype, SaltTypeNormal⟩

def deriveRecordWithTuplesAt (env : KDB.Env) (name : Principal) (password : Bytes) (kvno : UInt32)
    (tuples : List KeySaltTuple) (now : ℤ) : Except DBError PrincipalRecord := do
  let normalized ← normalizeKeySaltTuples tuples
  let used := if normalized = [] then defaultTuples else normalized
  let keys ← used.mapM (deriveTupleKey env name password kvno)
  pure { name, keys := keyMapOf keys, kvno, lastPasswordChange := now }

/-- `deriveKeys`: the enctypes and salts of the current keys are kept. -/
def deriveKeys (env : KDB.Env) (name : Principal) (password : Bytes) (current : GoMap Int32 Key)
    (kvno : UInt32) : Except DBError (GoMap Int32 Key) := do
  let keys ← current.entries.mapM fun e =>
    deriveKey env e.1 kvno password (if e.2.salt = [] then normalSalt name else e.2.salt) e.2.salt
  pure (keyMapOf keys)

/-- The key fits its enctype. -/
def usableKey (env : KDB.Env) (key : Key) : Bool :=
  match env.etype key.enctype with
  | some etype => key.key.length == etype.keySize
  | none => false

/-- The key of `kadmin/history` that seals password histories: the AES256 key, or the first
usable one in the order of the enctypes. -/
def selectHistoryKey (env : KDB.Env) (record : PrincipalRecord) : Option Key :=
  match (record.keys.lookup EnctypeAES256SHA1).filter (usableKey env) with
  | some key => some key
  | none =>
    (record.keys.keys.insertionSort (· ≤ ·)).findSome? fun enctype =>
      (record.keys.lookup enctype).filter (usableKey env)

def passwordMatchesKeys (candidate stored : GoMap Int32 Key) : Bool :=
  candidate.entries.length ≠ 0 && candidate.entries.length == stored.entries.length &&
    candidate.entries.all fun e =>
      match stored.lookup e.1 with
      | some other => e.2.salt == other.salt && e.2.key == other.key
      | none => false

/-- The class `passwordClasses` counts a byte in. -/
def charClass (c : UInt8) : ℕ :=
  if 97 ≤ c ∧ c ≤ 122 then 0
  else if 65 ≤ c ∧ c ≤ 90 then 1
  else if 48 ≤ c ∧ c ≤ 57 then 2
  else if (33 ≤ c ∧ c ≤ 47) ∨ (58 ≤ c ∧ c ≤ 64) ∨ (91 ≤ c ∧ c ≤ 96) ∨ (123 ≤ c ∧ c ≤ 126) then 3
  else 4

def passwordClasses (password : Bytes) : ℕ :=
  ((List.range 5).filter fun i => password.any fun c => charClass c == i).length

/-- The type-3 entries of tagged data replaced by one with `encoded`. -/
def replaceKADMData (data : List TLData) (encoded : Bytes) : List TLData :=
  (data.filter fun item => item.type ≠ KADMDataType) ++ [⟨KADMDataType, encoded⟩]

/-- Random keys: what `rand.Read` gives for the key of an enctype has the length asked for. -/
structure Entropy where
  read : Int32 → ℕ → Option Bytes
  length_read : ∀ e n value, read e n = some value → value.length = n

/-! ## Operations -/

namespace Database

variable (env : KDB.Env) (db : Database) (now : ℤ)

/-- `AddPrincipal`: an existing principal is replaced. -/
def addPrincipal (name password : Bytes) (kvnos : List UInt32) : Except DBError Database := do
  Except.ensure (db.realm ≠ []) (.failed "add principal: empty database realm")
  let kvnos := if kvnos = [] then [1] else kvnos
  let parsedName ← parseName name db.realm
  Except.ensure (0 ∉ kvnos) (.failed "add principal: KVNO must be nonzero")
  let latest := kvnos.foldl (fun a b => if a < b then b else a) 0
  let keys ← defaultEnctypes.mapM fun enctype =>
    deriveKey env enctype latest password (normalSalt parsedName) (normalSalt parsedName)
  pure (db.save now
    { name := parsedName, keys := keyMapOf keys, kvno := latest, lastPasswordChange := now })

def importPrincipal (record : PrincipalRecord) : Except DBError Database := do
  ensure ((db.lookup record.name).isNone) .principalExists
  pure (db.put record)

/-- `createPrincipalWithTuples`: the policy given is looked up again by its name. -/
def createPrincipalWithTuples (name password : Bytes) (tuples : List KeySaltTuple)
    (policy : Option PolicyRecord) : Except DBError Database := do
  let parsedName ← parseName name db.realm
  let record ← deriveRecordWithTuplesAt env parsedName password 1 tuples now
  ensure ((db.lookup parsedName).isNone) .principalExists
  match policy with
  | none => pure (db.save now record)
  | some given => do
    let policy ← db.getPolicy given.name
    pure (db.save now
      { record with
        policy := policy.name
        maxLife := policy.maxLife.toInt * second
        maxRenew := policy.maxRenewableLife.toInt * second
        passwordExpiration := if 0 < policy.maxLife.toInt then now + policy.maxLife.toInt * second
          else record.passwordExpiration })

def setPrincipalPolicy (name : Principal) (policy : Bytes) : Except DBError Database :=
  db.modify now name fun record => pure { record with policy }

def deletePrincipal (name : Principal) : Except DBError Database := do
  let record ← db.find name
  pure ((db.remove (canonical name)).recordUpdate now record true)

/-- The maps of an update that are nil. -/
structure NilFields where
  keys : Bool := false
  strings : Bool := false
  passwordHistory : Bool := false

/-- `UpdatePrincipal`: nil maps and a zero time stand for what the record has. -/
def updatePrincipal (record : PrincipalRecord) (absent : NilFields) : Except DBError Database :=
  db.modify now record.name fun current => pure
    { record with
      keys := if absent.keys then current.keys else record.keys
      strings := if absent.strings then current.strings else record.strings
      passwordHistory := if absent.passwordHistory then current.passwordHistory
        else record.passwordHistory
      lastPasswordChange := if record.lastPasswordChange = zeroTime then current.lastPasswordChange
        else record.lastPasswordChange }

def updateLockout (name : Principal) (failCount : UInt32) (lastFailed lastSuccess : ℤ) :
    Except DBError Database :=
  db.modify now name fun record =>
    pure { record with failAuthCount := failCount, lastFailed, lastSuccess }

/-- `RecordAuthFailure`: an expired failure window starts a new count. -/
def recordAuthFailure (name : Principal) (at_ failureCountInterval : ℤ) : Except DBError Database :=
  db.modify now name fun record =>
    let expired := 0 < failureCountInterval ∧ record.lastFailed ≠ zeroTime ∧
      record.lastFailed + failureCountInterval ≤ at_
    pure { record with
           failAuthCount := (if expired then 0 else record.failAuthCount) + 1, lastFailed := at_ }

/-- `ResetAuthFailures`: only if no other failure was recorded meanwhile. -/
def resetAuthFailures (name : Principal) (expectedLastFailed : ℤ) : Except DBError Database := do
  let record ← db.find name
  if record.lastFailed ≠ expectedLastFailed then pure db
  else pure (db.save now { record with failAuthCount := 0 })

def recordAuthSuccess (name : Principal) (at_ : ℤ) : Except DBError Database :=
  db.modify now name fun record => pure { record with failAuthCount := 0, lastSuccess := at_ }

/-- `historyKeyLocked`. -/
def historyKey : Option Key :=
  (db.principals.lookup (db.realm ++ 0 :: str "kadmin" ++ 0 :: str "history")).bind
    (selectHistoryKey env)

/-- The history part of a password change: the reuse checks, then the new history. -/
def changeHistory (current next : PrincipalRecord) (policy : PolicyRecord) (keepOld : Bool) :
    Except DBError PrincipalRecord := do
  let historyKey := db.historyKey env
  let history := match historyKey with
    | some key => if current.adminHistoryKVNO ≠ 0 ∧ current.adminHistoryKVNO ≠ key.kvno then []
        else current.passwordHistory
    | none => current.passwordHistory
  let limit := policy.historyNum.toInt.toNat - 1
  let historyLimit := if keepOld ∧ limit < 1 then 1 else limit
  ensure (¬ passwordMatchesKeys next.keys current.keys) .passwordReuse
  ensure (¬ (history.take historyLimit).any (passwordMatchesKeys next.keys)) .passwordReuse
  let retained := (current.keys :: history).take historyLimit
  let adminHistoryNext := if retained.length < historyLimit then UInt32.ofNat retained.length else 0
  let updated := { current with passwordHistory := retained, adminHistoryNext }
  match historyKey with
  | none => pure updated
  | some key => do
    let data ← (encodeKADMData env
      { policy := if current.policy = [] then policy.name else current.policy
        auxAttributes := current.kadmAuxAttributes
        oldKeyNext := adminHistoryNext
        adminHistoryKVNO := key.kvno
        normalSalt := normalSalt current.name
        oldKeys := retained } (some key)).mapError .failed
    pure { updated with
           adminHistoryKVNO := key.kvno, tlData := replaceKADMData current.tlData data }

/-- The policy part of a password change. -/
def applyPolicy (at_ : ℤ) (current next : PrincipalRecord) (password : Bytes)
    (policy : PolicyRecord)
    (bypassMinLife keepOld : Bool) : Except DBError PrincipalRecord := do
  ensure (policy.minLength.toInt ≤ 0 ∨ policy.minLength.toInt ≤ password.length)
    .passwordTooShort
  ensure (policy.minClasses.toInt ≤ 0 ∨ policy.minClasses.toInt ≤ passwordClasses password)
    .passwordClasses
  ensure (bypassMinLife ∨ policy.minLife.toInt ≤ 0 ∨ current.lastPasswordChange = zeroTime ∨
    current.lastPasswordChange + policy.minLife.toInt * second ≤ at_) .passwordTooSoon
  let current ← if 0 < policy.historyNum.toInt then db.changeHistory env current next policy keepOld
    else pure current
  pure { current with
         passwordExpiration := if 0 < policy.maxLife.toInt then at_ + policy.maxLife.toInt * second
           else zeroTime }

/-- The keys of the new password: without tuples the shape of the current keys wins. -/
def nextKeys (current : PrincipalRecord) (password : Bytes) (tuples : List KeySaltTuple)
    (next : PrincipalRecord) : Except DBError (GoMap Int32 Key) :=
  if tuples = [] ∧ current.keys.entries ≠ [] ∧
    current.keys.entries.length ≠ next.keys.entries.length
  then deriveKeys env current.name password current.keys (current.kvno + 1)
  else .ok next.keys

/-- What `changePasswordWithTuples` makes of the current record. -/
def changedPassword (at_ : ℤ) (password : Bytes) (policy : Option PolicyRecord)
    (bypassMinLife keepOld : Bool) (tuples : List KeySaltTuple) (current : PrincipalRecord) :
    Except DBError PrincipalRecord := do
  let next ← deriveRecordWithTuplesAt env current.name password (current.kvno + 1) tuples at_
  let keys ← nextKeys env current password tuples next
  let next := { next with keys }
  let current ← match policy with
    | none => pure (if keepOld then
        { current with passwordHistory := current.keys :: current.passwordHistory } else current)
    | some policy => db.applyPolicy env at_ current next password policy bypassMinLife keepOld
  pure { current with keys := next.keys, kvno := next.kvno, lastPasswordChange := at_ }

def changePasswordWithTuples (name : Principal) (password : Bytes) (at_ : ℤ)
    (policy : Option PolicyRecord) (bypassMinLife keepOld : Bool) (tuples : List KeySaltTuple) :
    Except DBError Database :=
  db.modify now name (db.changedPassword env at_ password policy bypassMinLife keepOld tuples)

/-- `CheckPasswordPolicy`, which looks at the whole history as it is stored. -/
def checkPasswordPolicy (name : Principal) (password : Bytes) (at_ : ℤ)
    (policy : Option PolicyRecord)
    (bypassMinLife : Bool) : Except DBError Unit := do
  let current ← db.find name
  match policy with
  | none => pure ()
  | some policy => do
    ensure (policy.minLength.toInt ≤ 0 ∨ policy.minLength.toInt ≤ password.length) .passwordTooShort
    ensure (policy.minClasses.toInt ≤ 0 ∨ policy.minClasses.toInt ≤ passwordClasses password)
      .passwordClasses
    ensure (bypassMinLife ∨ policy.minLife.toInt ≤ 0 ∨ current.lastPasswordChange = zeroTime ∨
      current.lastPasswordChange + policy.minLife.toInt * second ≤ at_) .passwordTooSoon
    if 0 < policy.historyNum.toInt then do
      let next ← deriveRecordWithTuplesAt env current.name password (current.kvno + 1) [] now
      let keys ← nextKeys env current password [] next
      ensure (¬ passwordMatchesKeys keys current.keys) .passwordReuse
      ensure (¬ (current.passwordHistory.take (policy.historyNum.toInt.toNat - 1)).any
        (passwordMatchesKeys keys)) .passwordReuse
    else pure ()

/-- A fresh random key of an enctype. -/
def randomKey (entropy : Entropy) (enctype : Int32) (kvno : UInt32) (salt : Bytes) :
    Except DBError Key := do
  let etype ← Except.ofOption (.failed "unsupported enctype") (env.etype enctype)
  let value ← Except.ofOption (.failed "random source") (entropy.read enctype etype.keySize)
  pure ⟨enctype, kvno, value, salt⟩

/-- The keys `RandomizeKeysWithKeySalts` generates: those of the tuples, or one for each current
key. -/
def generatedKeys (entropy : Entropy) (current : PrincipalRecord) (normalized : List KeySaltTuple) :
    Except DBError (List Key) :=
  if normalized = [] then
    current.keys.entries.mapM fun e => randomKey env entropy e.1 (current.kvno + 1) e.2.salt
  else normalized.mapM fun tuple => do
    let salt ← saltForPrincipal current.name tuple.saltType
    randomKey env entropy tuple.enctype (current.kvno + 1) salt

/-- Keys filed under their enctypes, in place of or next to those there are. -/
def withKeys (keepOld : Bool) (current : GoMap Int32 Key) (keys : List Key) : GoMap Int32 Key :=
  keys.foldl (fun m k => m.insert k.enctype k) (if keepOld then current else ∅)

def randomizeKeysWithKeySalts (entropy : Entropy) (name : Principal) (keepOld : Bool)
    (tuples : List KeySaltTuple) : Except DBError Database := do
  let normalized ← normalizeKeySaltTuples tuples
  db.modify now name fun current => do
    let generated ← generatedKeys env entropy current normalized
    pure { current with keys := withKeys keepOld current.keys generated, kvno := current.kvno + 1 }

/-- The version `PurgeKeys` keeps: the newest, unless one is given. -/
def purgeVersion (keys : GoMap Int32 Key) (keepKVNO : ℤ) : ℤ :=
  if keepKVNO ≤ 0 then
    (keys.entries.map fun e => e.2.kvno.toInt32.toInt).foldl max 0
  else keepKVNO

def purgeKeys (name : Principal) (keepKVNO : Int32) : Except DBError Database :=
  db.modify now name fun current => do
    let keep := purgeVersion current.keys keepKVNO.toInt
    let next := current.keys.keep fun _ key => keep ≤ key.kvno.toInt32.toInt
    Except.ensure (next.entries ≠ []) (.failed "purge keys: KVNO not found")
    pure { current with keys := next }

/-- `SetKeys`: a key without a version gets the next one. -/
def setKeys (name : Principal) (keys : List Key) (keepOld : Bool) : Except DBError Database :=
  db.modify now name fun current =>
    let versioned := keys.map fun key =>
      if key.kvno = 0 then { key with kvno := current.kvno + 1 } else key
    pure { current with
           keys := withKeys keepOld current.keys versioned
           kvno := versioned.foldl (fun kvno key => if kvno < key.kvno then key.kvno else kvno)
             current.kvno }

def renamePrincipal (src dest : Principal) : Except DBError Database := do
  let record ← db.find src
  ensure ((db.lookup dest).isNone) .principalExists
  let renamed := { record with name := dest }
  pure ((((db.put renamed).remove (canonical src)).recordUpdate now record true).recordUpdate now
    renamed false)

/-- `SetString`: no value deletes the attribute. -/
def setString (name : Principal) (key : Bytes) (value : Option Bytes) : Except DBError Database :=
  db.modify now name fun record => pure
    { record with strings := match value with
      | none => record.strings.erase key
      | some value => record.strings.insert key value }

/-- `ApplyPrincipal`: what a replica does with an update. -/
def applyPrincipal (record : PrincipalRecord) (deleted : Bool) : Database :=
  if deleted then db.remove (canonical record.name) else db.put record

def createPolicy (policy : PolicyRecord) : Except DBError Database := do
  ensure ((db.policies.lookup policy.name).isNone) .policyExists
  pure (db.putPolicy policy)

def updatePolicy (policy : PolicyRecord) : Except DBError Database := do
  let _ ← db.getPolicy policy.name
  pure (db.putPolicy policy)

/-- `DeletePolicy`: refused while a principal has it. -/
def deletePolicy (name : Bytes) : Except DBError Database := do
  let _ ← db.getPolicy name
  ensure (∀ e ∈ db.principals.entries, e.2.policy ≠ name) .policyInUse
  pure (db.removePolicy name)

def addAlias (name target : Bytes) : Except DBError Database := do
  Except.ensure (db.realm ≠ []) (.failed "add alias: empty database realm")
  let parsedAlias ← parseName name db.realm
  let parsedTarget ← parseName target db.realm
  Except.ensure ((db.lookup parsedTarget).isSome)
    (.failed "add alias: target principal does not exist")
  ensure (canonical parsedAlias ≠ canonical parsedTarget) .principalExists
  ensure ((db.lookup parsedAlias).isNone ∧ (db.resolveAlias parsedAlias).isNone)
    .principalExists
  pure { db with aliases := db.aliases.insert (canonical parsedAlias) parsedTarget }

end Database

end Kerberos
