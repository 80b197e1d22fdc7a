import Kerberos.Lib.Text
import Kerberos.Spec.Database

/-!
# Writing an MIT dump

`DumpWithMasterKey` of the mitdump package. A record is one line of fields with a tab
between them; the K/M principal is written first, from the master keys, and the other
principals with the key data of `KeyData`, or of `Keys` where there is none.
-/

namespace Kerberos.MITDump

open Text

def headerVersion6 : Bytes := str "kdb5_util load_dump version 6"
def headerVersion7 : Bytes := str "kdb5_util load_dump version 7"

/-- `16 << 20`. -/
def maxLineSize : ℕ := 16777216

def isKMPrincipal (name : Principal) : Bool := name.components == [str "K", str "M"]

/-- A line of the dump. -/
def line (fields : List Bytes) : Bytes := joinFields tab fields ++ [newline]

/-! ## Fields -/

def dumpAttributes (flags : Flags) : Except String Bytes := do
  Except.ensure (flags.toNat < 2 ^ 31) "flags exceed MIT signed attribute range"
  pure (decimal flags.toNat)

def dumpDuration (value : ℤ) (field : String) : Except String Bytes := do
  Except.ensure (0 ≤ value ∧ value % second = 0) s!"{field} is invalid"
  Except.ensure (value / second < 2 ^ 31) s!"{field} is too large"
  pure (decimal (value / second).toNat)

/-- `dumpEpoch`: whole seconds; the zero time is `0`. -/
def dumpEpoch (value : ℤ) (field : String) : Except String Bytes :=
  if value = zeroTime then .ok (decimal 0)
  else do
    Except.ensure (0 ≤ value / second ∧ value / second < 2 ^ 32)
      s!"{field} is outside MIT timestamp range"
    pure (decimal (value / second).toNat)

def dumpOctets (data : Bytes) : Bytes := if data = [] then str "-1" else Text.encodeHex data

/-- The fields of one tagged-data entry. -/
def tlFields (data : TLData) : Except String (List Bytes) := do
  Except.ensure (0 ≤ data.type.toInt) "MIT dump principal has invalid tagged-data type"
  Except.ensure (data.data.length ≤ maxUint16) "MIT dump principal tagged data is too long"
  pure [formatInt data.type.toInt, decimal data.data.length, dumpOctets data.data]

variable (env : KDB.Env)

/-- `encodeKeyData`: the key sealed under the master key, then its salt unless it is the
principal's default. -/
def encodeKeyData (name : Principal) (key : Key) (masterEType : EType)
    (masterKey : Bytes) : Except String (List Bytes) := do
  let etype ← Except.ofOption "unsupported key enctype" (env.etype key.enctype)
  Except.ensure (key.key.length = etype.keySize) "key enctype has invalid key length"
  Except.ensure (key.kvno ≠ 0 ∧ key.kvno.toNat ≤ maxUint16) "key enctype has invalid KVNO"
  Except.ensure (key.key.length ≤ maxUint16) "key enctype key is too long"
  let ciphertext ← Except.ofOption "encrypt key enctype" (masterEType.encrypt masterKey 0 key.key)
  let contents := sealedContents key.key ciphertext
  let special := specialSalt (normalSalt name) key.salt
  Except.ensure (special → key.salt.length ≤ maxUint16) "key enctype salt is too long"
  pure ([decimal (if special then 2 else 1), decimal key.kvno.toNat,
      formatInt key.enctype.toInt, decimal contents.length, encodeHex contents] ++
    if special then [decimal 4, decimal key.salt.length, encodeHex key.salt] else [])

/-! ## Principals -/

/-- `selectMasterKey`: the version the record names, or the first one; the supplied key where
there is no such version. -/
def selectMasterKey (record : PrincipalRecord) (keys : List Key) (fallbackEType : EType)
    (fallback : Bytes) : Key :=
  let kvno := match mkvno record.tlData with
    | .ok value => if value = 0 then 1 else value
    | .error _ => 1
  (keys.find? fun key => key.kvno == kvno).getD ⟨fallbackEType.id, 1, fallback, []⟩

/-- `encodeKADMData` of the package: a policy without history. -/
def encodePolicyData (policy : Bytes) : Except String Bytes :=
  encodeKADMData env { policy, adminHistoryKVNO := 2 } none

/-- The tagged data a record is written with: its KADM data is encoded anew when there is
a history key and something to write, and added when only a policy is to be kept. -/
def writtenTLData (record : PrincipalRecord) (historyKey : Option Key) :
    Except String (List TLData) :=
  if historyKey.isSome ∧ (record.passwordHistory ≠ [] ∨ record.policy ≠ [] ∨
      record.kadmAuxAttributes ≠ 0) then do
    let data ← Except.within "MIT dump principal KADM data: " (encodeKADMData env
      { policy := record.policy
        auxAttributes := record.kadmAuxAttributes
        oldKeyNext := record.adminHistoryNext
        adminHistoryKVNO := record.adminHistoryKVNO
        normalSalt := normalSalt record.name
        oldKeys := record.passwordHistory } historyKey)
    pure (replaceKADMData record.tlData data)
  else if record.policy ≠ [] ∧ ¬ hasTLData record.tlData KADMDataType then do
    let data ← Except.within "MIT dump principal policy: " (encodePolicyData env record.policy)
    pure (record.tlData ++ [⟨KADMDataType, data⟩])
  else .ok record.tlData

/-- The order of the keys of a line: those of K/M newest first, others by enctype. -/
def keyLE (km : Bool) (a b : Key) : Bool :=
  if km ∧ a.kvno ≠ b.kvno then b.kvno < a.kvno
  else if a.enctype ≠ b.enctype then a.enctype < b.enctype
  else a.kvno ≤ b.kvno

/-- The keys a record is written with: `KeyData` if there is any, `Keys` otherwise. -/
def dumpedKeys (record : PrincipalRecord) : List Key :=
  let keys := if record.keyData ≠ [] then record.keyData else rangeKeys env record.keys
  if isKMPrincipal record.name ∨ record.keyData = [] then
    keys.insertionSort fun a b => keyLE (isKMPrincipal record.name) a b
  else keys

def writePrincipalRecord (record : PrincipalRecord) (masterKeys : List Key)
    (masterEType : EType) (masterKey : Bytes) (historyKey : Option Key) : Except String Bytes := do
  let name ← Except.within "MIT dump principal: " record.name.format
  Except.ensure (name.length < 2 ^ 31) "MIT dump principal name is too long"
  let tlData ← writtenTLData env record historyKey
  Except.ensure (tlData.length ≤ maxUint16) "MIT dump principal has too much tagged data"
  let attributes ← dumpAttributes record.flags
  let maxLife ← dumpDuration record.maxLife "maximum lifetime"
  let maxRenew ← dumpDuration record.maxRenew "maximum renewable lifetime"
  let expiration ← dumpEpoch record.expiration "expiration"
  let passwordExpiration ← dumpEpoch record.passwordExpiration "password expiration"
  let keys := dumpedKeys env record
  Except.ensure (keys.length ≤ maxUint16) "MIT dump principal has too many keys"
  let lastSuccess ← dumpEpoch record.lastSuccess "last success"
  let lastFailed ← dumpEpoch record.lastFailed "last failed"
  let tagged ← tlData.mapM tlFields
  let wrappingKey := selectMasterKey record masterKeys masterEType masterKey
  let wrappingEType ← Except.ofOption "MIT dump principal master enctype"
    (env.etype wrappingKey.enctype)
  let encoded ← keys.mapM fun key => encodeKeyData env record.name key wrappingEType wrappingKey.key
  pure (line ([str "princ", Text.decimal 38, Text.decimal name.length, Text.decimal tlData.length,
    decimal keys.length, decimal 0, name, attributes, maxLife, maxRenew, expiration,
    passwordExpiration, lastSuccess, lastFailed, decimal record.failAuthCount.toNat] ++
    tagged.flatten ++ encoded.flatten ++ [str "-1;"]))

/-! ## Policies -/

def writePolicyRecord (policy : PolicyRecord) : Bytes :=
  line [str "policy", policy.name, Text.formatInt policy.minLife.toInt,
    formatInt policy.maxLife.toInt, formatInt policy.minLength.toInt,
    formatInt policy.minClasses.toInt, formatInt policy.historyNum.toInt, decimal 0,
    decimal policy.maxFailure.toNat, formatInt policy.failureCountInterval.toInt,
    formatInt policy.lockoutDuration.toInt, formatInt policy.attributes.toInt,
    formatInt policy.maxTicketLife.toInt, formatInt policy.maxRenewableLife.toInt,
    (if policy.allowedKeySalts = [] then str "-" else policy.allowedKeySalts), Text.decimal 0]

/-! ## The dump -/

def encodeMasterKeyData (wrapping target : Key) : Except String Bytes := do
  let etype ← Except.ofOption "unsupported enctype" (env.etype wrapping.enctype)
  let ciphertext ← Except.ofOption "encrypt master key" (etype.encrypt wrapping.key 0 target.key)
  pure (sealedContents target.key ciphertext)

/-- The newest master key sealed under an older one. -/
def auxEntryFor (latest old : Key) : Except String MKeyAuxEntry := do
  let contents ← encodeMasterKeyData env old latest
  pure ⟨old.kvno.toUInt16, latest.kvno.toUInt16, latest.enctype, contents⟩

/-- The auxiliary entries of a dump: those the database keeps, or fresh ones. -/
def auxEntriesFor (db : Database) (latest : Key) (older : List Key) :
    Except String (List MKeyAuxEntry) :=
  if db.mKeyAux = [] then older.mapM (auxEntryFor env latest) else .ok db.mKeyAux

def masterKeyTLData (db : Database) (keys : List Key) : Except String (List TLData) :=
  match keys with
  | [] => .ok []
  | latest :: older => do
    let version ← encodeMKVNO latest.kvno
    let active ← encodeACTKVNO
      (if db.activeMKeys = [] then [⟨latest.kvno.toUInt16, 0⟩] else db.activeMKeys)
    let aux ← auxEntriesFor env db latest older
    let encoded ← encodeMKEYAux aux
    pure ([⟨MKVNOType, version⟩, ⟨ACTKVNOType, active⟩] ++
      if encoded = [] then [] else [⟨MKEYAuxType, encoded⟩])

/-- The master keys of a dump: those of the database, or the supplied one. -/
def dumpMasterKeys (db : Database) (masterEnctype : Int32) (masterKey : Bytes) : List Key :=
  if db.masterKeys = [] then [⟨masterEnctype, 1, masterKey, db.realm ++ str "KM"⟩]
    else db.masterKeys

/-- The K/M record of a dump. -/
def masterRecord (name : Principal) (masterKeys : List Key) (tlData : List TLData) :
    PrincipalRecord where
  name := name
  keys := match masterKeys.head? with
    | some latest => (∅ : GoMap Int32 Key).insert latest.enctype latest
    | none => ∅
  keyData := masterKeys
  kvno := (masterKeys.head?.map Key.kvno).getD 0
  tlData := tlData

/-- The record written for a listed name: none for K/M, which has been written already. -/
def dumpedRecord (db : Database) (name : Bytes) : Except String (Option PrincipalRecord) := do
  let parsed ← Except.within "MIT dump principal: " (parsePrincipal name)
  if parsed.realm = db.realm ∧ isKMPrincipal parsed then pure none
  else match db.lookup parsed with
    | some record => pure (some record)
    | none => .error "MIT dump principal disappeared"

/-- The key that seals the password histories of a dump. -/
def dumpHistoryKey (db : Database) : Option Key :=
  match parsePrincipal (str "kadmin/history@" ++ db.realm) with
  | .ok name => (db.lookup name).bind (selectHistoryKey env)
  | .error _ => none

def dumpWithMasterKey (db : Database) (masterEnctype : Int32) (masterKey : Bytes) :
    Except String Bytes := do
  Except.ensure (db.realm ≠ []) "MIT dump database realm is empty"
  let masterEType ← Except.ofOption "unsupported MIT dump master enctype" (env.etype masterEnctype)
  Except.ensure (masterKey.length = masterEType.keySize) "MIT dump master key has invalid length"
  let masterName ← Except.within "MIT dump K/M principal: "
    (parsePrincipal (str "K/M@" ++ db.realm))
  let masterKeys := dumpMasterKeys db masterEnctype masterKey
  let tlData ← masterKeyTLData env db masterKeys
  let records ← db.listPrincipals.mapM (dumpedRecord db)
  let policies ← db.listPolicies.mapM fun name =>
    (db.getPolicy name).mapError fun _ => "MIT dump policy: policy not found"
  let lines ← (masterRecord masterName masterKeys tlData :: records.reduceOption).mapM fun record =>
    writePrincipalRecord env record masterKeys masterEType masterKey (dumpHistoryKey env db)
  pure (headerVersion7 ++ [newline] ++ (policies.map writePolicyRecord).flatten ++ lines.flatten)

end Kerberos.MITDump
