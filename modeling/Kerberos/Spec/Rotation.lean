import Kerberos.Spec.Load

/-!
# Master-key rotation

The commands of gokdb5util that change the master keys of a dump. Each loads the dump with
a master password, changes the database and writes it again under the newest master key;
a command that fails leaves the dump as it was.
-/

namespace Kerberos.MITDump

/-! ## Loading with a password -/

/-- The enctypes a master password is tried with. -/
def masterEnctypes : List Int32 :=
  [EnctypeAES128SHA1, EnctypeAES256SHA1, EnctypeAES128SHA256, EnctypeAES256SHA384,
    EnctypeCamellia128, EnctypeCamellia256]

variable (env : KDB.Env)

/-- `dumpMasterEnctype`: the enctype of the first key of K/M, if there is a K/M. -/
def dumpMasterEnctype (store : FileStore) : Except String (Option Int32) :=
  match masterOf store with
  | none => .ok none
  | some master =>
    match if master.keyData = [] then rangeKeys env master.keys else master.keyData with
    | [] => .error "MIT dump K/M principal has invalid key data"
    | key :: _ => do
      let _ ← Except.ofOption "unsupported MIT dump master enctype" (env.etype key.enctype)
      pure (some key.enctype)

/-- The enctypes in the order they are tried: that of K/M first. -/
def candidateEnctypes (identified : Option Int32) : List Int32 :=
  match identified with
  | none => masterEnctypes
  | some enctype => enctype :: masterEnctypes.filter fun candidate => candidate ≠ enctype

/-- The dump opened with the key of a password under an enctype. -/
def tryEnctype (store : FileStore) (password : Bytes) (enctype : Int32) :
    Option FileStore := do
  let _ ← env.etype enctype
  let key ← env.stringToKey enctype password (store.realm ++ str "KM")
  (openStore env store enctype key 0).toOption

def parseWithMasterPassword (data password : Bytes) : Except String FileStore := do
  let store ← parse data
  Except.ensure (password ≠ []) "MIT dump master password is empty"
  let identified ← dumpMasterEnctype env store
  Except.ofOption "MIT dump master key: no supported enctype decrypted key data"
    ((candidateEnctypes identified).findSome? (tryEnctype env store password))

/-! ## The commands -/

inductive MKeyCommand
  /-- `add_mkey -e enctype`, and the password of the new key. -/
  | addMKey (enctype : Int32) (newPassword : Bytes)
  /-- `use_mkey kvno [time]`, the time in seconds. -/
  | useMKey (kvno : UInt32) (time : Option ℤ)
  /-- `update_princ_encryption [-f] [-n] [pattern]`; forced or confirmed. -/
  | updatePrincipalEncryption (matcher : Bytes → Bool) (dryRun confirmed : Bool)
  /-- `purge_mkeys [-f] [-n]`. -/
  | purgeMKeys (dryRun confirmed : Bool)

/-- The version after the newest. -/
def nextKVNO (keys : List Key) : UInt32 :=
  keys.foldl (fun next key => if next ≤ key.kvno then key.kvno + 1 else next) 1

def addMKey (db : Database) (enctype : Int32) (newPassword : Bytes) :
    Except String Database := do
  let _ ← Except.ofOption "unsupported enctype" (env.etype enctype)
  let key ← Except.ofOption "string to key"
    (env.stringToKey enctype newPassword (db.realm ++ str "KM"))
  let added : Key := ⟨enctype, nextKVNO db.masterKeys, key, db.realm ++ str "KM"⟩
  pure { db with
         masterKeys := added :: db.masterKeys
         mKeyAux := []
         activeMKeys := if db.activeMKeys = [] then [⟨added.kvno.toUInt16, 0⟩] else db.activeMKeys }

/-- `useMKey`: one activation of each version, in the order of the times. -/
def useMKey (now : ℤ) (db : Database) (kvno : UInt32) (time : Option ℤ) :
    Except String Database := do
  Except.ensure (kvno ≠ 0) "master key version must be nonzero"
  Except.ensure (∃ key ∈ db.masterKeys, key.kvno = kvno)
    s!"master key version {kvno} does not exist"
  let kept := db.activeMKeys.filter fun value => value.kvno ≠ kvno.toUInt16
  let updated := (kept ++ [(⟨kvno.toUInt16, time.getD (now / second)⟩ : ActKVNO)]).insertionSort
    fun a b => a.actTime ≤ b.actTime
  Except.ensure (∃ first ∈ updated.head?, first.actTime ≤ now / second)
    "there must be one master key currently active"
  let _ ← Except.within "invalid activation time: " (encodeACTKVNO updated)
  pure { db with activeMKeys := updated }

/-- `findActiveMKey`: the version activated last, or zero. -/
def findActiveMKey (values : List ActKVNO) (now : ℤ) : UInt32 :=
  (values.foldl (fun (result : UInt32 × ℤ) value =>
    if value.actTime ≤ now ∧ result.2 ≤ value.actTime then (value.kvno.toUInt32, value.actTime)
    else result) (0, -2 ^ 62)).1

/-- `replaceTL`: the first entry of that type is replaced. -/
def replaceTL (values : List TLData) (replacement : TLData) : List TLData :=
  match values with
  | [] => [replacement]
  | value :: rest =>
    if value.type = replacement.type then replacement :: rest
      else value :: replaceTL rest replacement

/-- The listed principals but K/M whose names match. -/
def matchingRecords (db : Database) (matcher : Bytes → Bool) : List PrincipalRecord :=
  db.listPrincipals.filterMap fun name =>
    match parsePrincipal name with
    | .ok parsed => if isKMPrincipal parsed ∨ matcher name = false then none else db.lookup parsed
    | .error _ => none

/-- The version `kdb.MKVNO` gives for a record, zero on an error. -/
def mkvnoOrZero (record : PrincipalRecord) : UInt32 :=
  match mkvno record.tlData with
  | .ok value => value
  | .error _ => 0

/-- `updatePrincipalEncryption`; nothing is written in a dry run. -/
def updatePrincipalEncryption (now : ℤ) (db : Database) (matcher : Bytes → Bool)
    (dryRun confirmed : Bool) : Except String (Option Database) := do
  let active := findActiveMKey db.activeMKeys (now / second)
  Except.ensure (active ≠ 0) "there must be one master key currently active"
  let changes := (matchingRecords db matcher).filter fun record => mkvnoOrZero record ≠ active
  Except.ensure (dryRun ∨ confirmed) "operation cancelled"
  if dryRun then pure none
  else do
    let updated ← changes.foldlM (fun db record => do
      let encoded ← encodeMKVNO active
      (Database.updatePrincipal db now
        { record with tlData := replaceTL record.tlData ⟨MKVNOType, encoded⟩ } {}).mapError
          fun _ => "principal not found") db
    pure (some updated)

/-- The versions that seal a listed principal other than K/M. -/
def usedVersions (db : Database) : List UInt32 :=
  (matchingRecords db fun _ => true).map fun record =>
    if mkvnoOrZero record = 0 then 1 else mkvnoOrZero record

/-- `purgeMKeys`; nothing is written in a dry run, or if all keys are in use. -/
def purgeMKeys (db : Database) (suppliedMKVNO : UInt32) (dryRun confirmed : Bool) :
    Except String (Option Database) := do
  let used := usedVersions db
  let stashKVNO := if suppliedMKVNO ≠ 0 then suppliedMKVNO else 1
  let kept := db.masterKeys.filter fun key => key.kvno ∈ used ∨ key.kvno = stashKVNO
  if kept.length = db.masterKeys.length then pure none
  else do
    Except.ensure (stashKVNO ∈ used) "master key stash file needs updating, command aborting"
    Except.ensure (dryRun ∨ confirmed) "operation cancelled"
    if dryRun then pure none
    else pure (some
      { db with
        masterKeys := kept
        activeMKeys := db.activeMKeys.filter fun value => value.kvno.toUInt32 ∈ used
        mKeyAux := db.mKeyAux.filter fun value => value.mKeyKVNO.toUInt32 ∈ used })

/-- The database a command leaves, if it writes one. -/
def MKeyCommand.apply (now : ℤ) (db : Database) (suppliedMKVNO : UInt32) :
    MKeyCommand → Except String (Option Database)
  | addMKey enctype newPassword => do
    let db ← MITDump.addMKey env db enctype newPassword
    pure (some db)
  | useMKey kvno time => do
    let db ← MITDump.useMKey now db kvno time
    pure (some db)
  | updatePrincipalEncryption matcher dryRun confirmed =>
    MITDump.updatePrincipalEncryption now db matcher dryRun confirmed
  | purgeMKeys dryRun confirmed => MITDump.purgeMKeys db suppliedMKVNO dryRun confirmed

/-- A command on the text of a dump: load it with a password, and write it with the first
master key. -/
def runMKeyCommand (now : ℤ) (text password : Bytes) (command : MKeyCommand) :
    Except String Bytes := do
  let store ← parseWithMasterPassword env text password
  let db ← (loadMutable store).mapError fun _ => "load"
  let changed ← command.apply env now db store.suppliedMKVNO
  match changed with
  | none => pure text
  | some db =>
    match db.masterKeys with
    | [] => .error "index out of range"
    | key :: _ => dumpWithMasterKey env db key.enctype key.key

end Kerberos.MITDump
