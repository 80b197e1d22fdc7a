import Kerberos.Spec.UpdateLog

/-!
# Calls of the database

The exported operations that change a database, as data, so that a run is a list of calls
(`exec`). Each call has the time the clock shows when it is made. `changePassword` covers
`ChangePassword`, `ChangePasswordWithPolicy`, `…AndKeepOld` and `…WithKeySaltsAndPolicy`, and
`createPrincipal` the four variants of `CreatePrincipal`, which only fix some of its arguments.
-/

namespace Kerberos

/-- A call that may change the keys of a principal. -/
inductive KeyCall
  | changePassword (name : Principal) (password : Bytes) (at_ : ℤ) (policy : Option PolicyRecord)
      (bypassMinLife keepOld : Bool) (tuples : List KeySaltTuple)
  | randomizeKeys (entropy : Entropy) (name : Principal) (keepOld : Bool)
    (tuples : List KeySaltTuple)
  | setKeys (name : Principal) (keys : List Key) (keepOld : Bool)
  | purgeKeys (name : Principal) (keepKVNO : Int32)
  | updatePrincipal (record : PrincipalRecord) (absent : Database.NilFields)

variable (env : KDB.Env)

/-- The call, at the time `now`. -/
def KeyCall.apply (now : ℤ) (db : Database) : KeyCall → Except DBError Database
  | changePassword name password at_ policy bypassMinLife keepOld tuples =>
    db.changePasswordWithTuples env now name password at_ policy bypassMinLife keepOld tuples
  | randomizeKeys entropy name keepOld tuples =>
    db.randomizeKeysWithKeySalts env now entropy name keepOld tuples
  | setKeys name keys keepOld => db.setKeys now name keys keepOld
  | purgeKeys name keepKVNO => db.purgeKeys now name keepKVNO
  | updatePrincipal record absent => db.updatePrincipal now record absent

/-- One call of a run. A call that fails leaves the database as it is. -/
def KeyStep (db : Database) (call : ℤ × KeyCall) (db' : Database) : Prop :=
  call.2.apply env call.1 db = .ok db' ∨ db' = db

/-- A call that changes a database. -/
inductive DBCall
  | addPrincipal (name password : Bytes) (kvnos : List UInt32)
  | createPrincipal (name password : Bytes) (tuples : List KeySaltTuple)
    (policy : Option PolicyRecord)
  | importPrincipal (record : PrincipalRecord)
  | setPrincipalPolicy (name : Principal) (policy : Bytes)
  | deletePrincipal (name : Principal)
  | updateLockout (name : Principal) (failCount : UInt32) (lastFailed lastSuccess : ℤ)
  | recordAuthFailure (name : Principal) (at_ failureCountInterval : ℤ)
  | resetAuthFailures (name : Principal) (expectedLastFailed : ℤ)
  | recordAuthSuccess (name : Principal) (at_ : ℤ)
  | keys (call : KeyCall)
  | renamePrincipal (src dest : Principal)
  | setString (name : Principal) (key : Bytes) (value : Option Bytes)
  | applyPrincipal (record : PrincipalRecord) (deleted : Bool)
  | createPolicy (policy : PolicyRecord)
  | updatePolicy (policy : PolicyRecord)
  | deletePolicy (name : Bytes)
  | addAlias (name target : Bytes)
  | configureUpdateLog (capacity : ℤ)
  | setLogCapacity (capacity : ℤ)
  | resetLog

namespace DBCall

/-- The call, at the time `now`. -/
def apply (now : ℤ) (db : Database) : DBCall → Except DBError Database
  | addPrincipal name password kvnos => db.addPrincipal env now name password kvnos
  | createPrincipal name password tuples policy =>
    db.createPrincipalWithTuples env now name password tuples policy
  | importPrincipal record => db.importPrincipal record
  | setPrincipalPolicy name policy => db.setPrincipalPolicy now name policy
  | deletePrincipal name => db.deletePrincipal now name
  | updateLockout name failCount lastFailed lastSuccess =>
    db.updateLockout now name failCount lastFailed lastSuccess
  | recordAuthFailure name at_ failureCountInterval =>
    db.recordAuthFailure now name at_ failureCountInterval
  | resetAuthFailures name expectedLastFailed => db.resetAuthFailures now name expectedLastFailed
  | recordAuthSuccess name at_ => db.recordAuthSuccess now name at_
  | keys call => call.apply env now db
  | renamePrincipal src dest => db.renamePrincipal now src dest
  | setString name key value => db.setString now name key value
  | applyPrincipal record deleted => .ok (db.applyPrincipal record deleted)
  | createPolicy policy => db.createPolicy policy
  | updatePolicy policy => db.updatePolicy policy
  | deletePolicy name => db.deletePolicy name
  | addAlias name target => db.addAlias name target
  | configureUpdateLog capacity => .ok { db with updateLog := some (.new capacity) }
  | setLogCapacity capacity =>
    .ok { db with updateLog := db.updateLog.map (·.setCapacity capacity) }
  | resetLog => .ok { db with updateLog := db.updateLog.map (·.clear) }

/-- The database after a call: one that fails leaves it as it is. -/
def next (db : Database) (call : ℤ × DBCall) : Database :=
  match call.2.apply env call.1 db with
  | .ok db' => db'
  | .error _ => db

/-- The database after a run of calls. -/
def exec (db : Database) (calls : List (ℤ × DBCall)) : Database :=
  calls.foldl (next env) db

theorem exec_concat (db : Database) (calls : List (ℤ × DBCall)) (call : ℤ × DBCall) :
    exec env db (calls ++ [call]) = next env (exec env db calls) call := List.foldl_concat ..

theorem next_of_ok {env : KDB.Env} {db db' : Database} {call : ℤ × DBCall}
    (h : call.2.apply env call.1 db = .ok db') : next env db call = db' := by
  unfold next
  rw [h]

/-- What holds of a database holds after a call, if it does when the call succeeds. -/
theorem next_cases {env : KDB.Env} {db : Database} {call : ℤ × DBCall}
    {P : Database → Prop} (h : P db)
    (hok : ∀ db', call.2.apply env call.1 db = .ok db' → P db') : P (next env db call) := by
  unfold next
  split
  · next db' hcase => exact hok db' hcase
  · exact h

end DBCall

end Kerberos
