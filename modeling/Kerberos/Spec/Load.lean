import Kerberos.Lib.Map
import Kerberos.Spec.Dump

/-!
# Reading an MIT dump

`Parse` and `ParseWithMasterKey` of the mitdump package. A record's fields are read
by a cursor over them (`FieldReader`); `Parse` leaves the key data sealed, and
`parseWithMasterKey` recovers the master keys from the K/M record, opens the key data
and decodes the password histories.
-/

namespace Kerberos.MITDump

/-! ## Fields -/

def parseUint (value : Bytes) (field : String) : Except String ℕ :=
  if value = [] then .error s!"empty {field}"
  else Except.ofOption s!"invalid {field}" (Text.parseUint 64 value)

/-- `parseInt`: 32 bits. -/
def parseInt (value : Bytes) (field : String) : Except String ℤ :=
  Except.ofOption s!"invalid {field}" (Text.parseInt 32 value)

def parseDurationSeconds (value : Bytes) (field : String) : Except String ℤ := do
  let seconds ← parseInt value field
  Except.ensure (0 ≤ seconds) s!"{field} is negative"
  pure (seconds * second)

/-- `parseEpoch`: zero seconds are the zero time. -/
def parseEpoch (value : Bytes) (field : String) : Except String ℤ := do
  let seconds ← parseUint value field
  if seconds = 0 then pure zeroTime
  else do
    Except.ensure (seconds < 2 ^ 63) s!"{field} is too large"
    pure (seconds * second)

def validateOctets (value : Bytes) (length : ℕ) (field : String) : Except String Unit :=
  if value = str "-1" then Except.ensure (length = 0) s!"{field} is -1 with nonzero length"
  else do
    Except.ensure (length ≤ (2 ^ 63 - 1) / 2) s!"{field} is too large"
    Except.ensure (value.length = length * 2) s!"{field} length mismatch"
    Except.ensure ((Text.decodeHex value).isSome) s!"invalid {field} hex"

def parseOctets (value : Bytes) (length : ℕ) (field : String) : Except String Bytes := do
  validateOctets value length field
  if value = str "-1" then pure []
  else Except.ofOption s!"invalid {field} hex" (Text.decodeHex value)

/-- A reader of fields: its input is the fields from the cursor on. -/
abbrev FieldReader (α : Type) := Reader Bytes String α

/-- There are `n` more fields. -/
def needFields (n : ℕ) (text : String) : FieldReader PUnit := do
  let rest ← get
  Reader.check (n ≤ rest.length) text

/-- Parse the next field. -/
def parseField {α : Type} (parse : Bytes → String → Except String α) (field : String) :
    FieldReader α := do
  let value ← Reader.next s!"truncated {field}"
  Reader.lift (parse value field)

/-! ## Principals -/

def readTLData : FieldReader TLData := do
  needFields 3 "truncated tagged data"
  let tagType ← parseField parseInt "tagged data type"
  Reader.check (0 ≤ tagType ∧ tagType < 2 ^ 15) "tagged data type is out of range"
  let length ← parseField parseUint "tagged data length"
  let value ← Reader.next "truncated tagged data"
  let data ← Reader.lift (parseOctets value length "tagged data")
  pure ⟨Int16.ofInt tagType, data⟩

/-- The type and the contents of one part of key data. -/
def readKeyContents : FieldReader (ℤ × Bytes) := do
  needFields 3 "truncated key data contents"
  let keyType ← parseField parseInt "key enctype"
  let length ← parseField parseUint "key length"
  let value ← Reader.next "truncated key data contents"
  let content ← Reader.lift (parseOctets value length "key data")
  pure (keyType, content)

/-- The salt a salt type stands for. -/
def saltOf (name : Principal) (saltType : ℤ) (saltBytes : Bytes) : Bytes :=
  if saltType = 0 then normalSalt name
  else if saltType = 2 then name.components.flatten
  else if saltType = 3 then name.realm
  else saltBytes

def readKey (name : Principal) : FieldReader Key := do
  needFields 2 "truncated key data"
  let keyVersion ← parseField parseUint "key data version"
  Reader.check (keyVersion ≠ 0 ∧ keyVersion ≤ 2) "unsupported key data version"
  let kvno ← parseField parseUint "key version number"
  Reader.check (kvno ≠ 0) "key version number must be nonzero"
  let (enctype, keyBytes) ← readKeyContents
  if keyVersion = 2 then do
    let (saltType, saltBytes) ← readKeyContents
    pure ⟨Int32.ofInt enctype, UInt32.ofNat kvno, keyBytes, saltOf name saltType saltBytes⟩
  else pure ⟨Int32.ofInt enctype, UInt32.ofNat kvno, keyBytes, normalSalt name⟩

/-- The key map of key data: the first key of each enctype. -/
def firstKeys (keys : List Key) : GoMap Int32 Key :=
  keys.foldl (fun m k => if k.enctype ∈ m then m else m.insert k.enctype k) ∅

/-- The largest version of a key map. -/
def maxKVNO (keys : GoMap Int32 Key) : UInt32 :=
  keys.entries.foldl (fun kvno e => if kvno < e.2.kvno then e.2.kvno else kvno) 0

def decodeKADMPolicy (data : Bytes) : Option Bytes :=
  if data.length < 20 ∨ Words.ofBE (data.take 4) ≠ kadmDataVersion.toNat then none
  else
    let length := Words.ofBE ((data.drop 4).take 4)
    let raw := (data.drop 8).take length
    let offset := (8 + length + 3) / 4 * 4
    if length = 0 ∨ data.length - 8 < length ∨ raw.getLast? ≠ some 0 ∨ data.length < offset + 16 ∨
        UInt32.ofNat (Words.ofBE ((data.drop offset).take 4)) &&& kadmPolicy = 0 then none
    else some raw.dropLast

/-- What a tagged-data entry tells of the principal's KADM data. -/
def noteKADM (record : PrincipalRecord) (item : TLData) : PrincipalRecord :=
  if item.type = KADMDataType then
    let record := match decodeKADMPolicy item.data with
      | some policy => { record with policy }
      | none => record
    match parseKADMDataMetadata item.data with
    | .ok metadata =>
      { record with
        policy := metadata.policy, kadmAuxAttributes := metadata.auxAttributes
        adminHistoryNext := metadata.oldKeyNext, adminHistoryKVNO := metadata.adminHistoryKVNO }
    | .error _ => record
  else record

/-- The fields behind `princ`; `count` is the number of all fields of the line. -/
def readRecord (count : ℕ) : FieldReader PrincipalRecord := do
  let _ ← parseField parseUint "header"
  let nameLength ← parseField parseUint "header"
  let tlCount ← parseField parseUint "header"
  let keyCount ← parseField parseUint "header"
  let extraLength ← parseField parseUint "header"
  Reader.check (tlCount ≤ count ∧ keyCount ≤ count) "tagged or key data count is too large"
  let value ← Reader.next "truncated principal name"
  let name ← Reader.lift (Except.within "principal name: " (parsePrincipal value))
  Reader.check (nameLength = value.length) "principal name length mismatch"
  needFields 8 "truncated principal attributes"
  let attributes ← parseField parseInt "attributes"
  Reader.check (0 ≤ attributes) "attributes are negative"
  let maxLife ← parseField parseDurationSeconds "maximum lifetime"
  let maxRenew ← parseField parseDurationSeconds "maximum renewable lifetime"
  let expiration ← parseField parseEpoch "expiration"
  let passwordExpiration ← parseField parseEpoch "password expiration"
  let lastSuccess ← parseField parseEpoch "last success"
  let lastFailed ← parseField parseEpoch "last failed"
  let failAuthCount ← parseField parseUint "failure count"
  Reader.check (failAuthCount < 2 ^ 32) "failure count is too large"
  let tlData ← Reader.many tlCount readTLData
  let keyData ← Reader.many keyCount (readKey name)
  let extra ← Reader.next "truncated extra data"
  Reader.lift (validateOctets extra extraLength "extra data")
  let rest ← get
  Reader.check (rest = []) "unexpected fields after extra data"
  Reader.check (keyData ≠ []) "principal has no keys"
  let keys := firstKeys keyData
  pure (tlData.foldl noteKADM
    { name, keys, keyData, kvno := maxKVNO keys, flags := BitVec.ofInt 32 attributes
      maxLife, maxRenew, expiration, passwordExpiration, lastSuccess, lastFailed
      failAuthCount := UInt32.ofNat failAuthCount, tlData })

/-- `parseRecord`: the last field ends in the terminator. -/
def parseRecord (text : Bytes) : Except String PrincipalRecord := do
  let fields := Text.splitFields tab text
  Except.ensure (16 ≤ fields.length ∧ fields.head? = some (str "princ"))
    "malformed principal record"
  let last := fields.getLast?.getD []
  Except.ensure (last.getLast? = some 59) "record missing terminator"
  let (record, _) ← readRecord fields.length (fields.tail.dropLast ++ [last.dropLast])
  pure record

/-! ## Policies -/

/-- The policy of a line's fields and the numbers among them: older dumps have fewer of both. -/
def policyOf (fields : List Bytes) (values : List ℤ) : PolicyRecord :=
  let number := fun i => Int32.ofInt (values.getD i 0)
  let lockout := 9 ≤ values.length
  let attributes := 12 ≤ values.length
  let allowed := if 15 ≤ fields.length then fields.getD 14 [] else []
  { name := fields.getD 1 []
    minLife := number 0, maxLife := number 1, minLength := number 2, minClasses := number 3
    historyNum := number 4
    maxFailure := if lockout then (number 6).toUInt32 else 0
    failureCountInterval := if lockout then number 7 else 0
    lockoutDuration := if lockout then number 8 else 0
    attributes := if attributes then number 9 else 0
    maxTicketLife := if attributes then number 10 else 0
    maxRenewableLife := if attributes then number 11 else 0
    allowedKeySalts := if allowed = str "-" then [] else allowed }

/-- `parsePolicyRecord`: the numbers are the fields 2 to 13, as far as they are there. -/
def parsePolicyRecord (text : Bytes) : Except String PolicyRecord := do
  let fields := Text.splitFields tab text
  Except.ensure (8 ≤ fields.length ∧ fields.head? = some (str "policy")) "malformed policy record"
  let values ← ((fields.drop 2).take 12).mapM fun value => parseInt value "policy field"
  pure (policyOf fields values)

/-! ## The dump -/

structure FileStore where
  realm : Bytes := []
  records : GoMap Bytes PrincipalRecord := ∅
  policies : GoMap Bytes PolicyRecord := ∅
  masterEnctype : Int32 := 0
  masterKey : Bytes := []
  suppliedMKVNO : UInt32 := 0
  masterKeys : List Key := []
  activeMKeys : List ActKVNO := []
  mKeyAux : List MKeyAuxEntry := []

def isForeignTGT (name : Principal) : Bool :=
  match name.components with
  | [first, second] => first == str "krbtgt" && second != name.realm
  | _ => false

/-- Nothing but white space is left: `strings.TrimSpace(line) == ""`, with the spaces of UTF-8. -/
def isBlank : Bytes → Bool
  | [] => true
  | 0xC2 :: 0x85 :: rest => isBlank rest
  | 0xC2 :: 0xA0 :: rest => isBlank rest
  | 0xE1 :: 0x9A :: 0x80 :: rest => isBlank rest
  | 0xE2 :: 0x80 :: c :: rest =>
    ((0x80 ≤ c && c ≤ 0x8A) || c == 0xA8 || c == 0xA9 || c == 0xAF) && isBlank rest
  | 0xE2 :: 0x81 :: 0x9F :: rest => isBlank rest
  | 0xE3 :: 0x80 :: 0x80 :: rest => isBlank rest
  | c :: rest => ((9 ≤ c && c ≤ 13) || c == 32) && isBlank rest

/-- The line without a carriage return at its end. -/
def dropCR (text : Bytes) : Bytes := if text.getLast? = some 13 then text.dropLast else text

/-- The lines of a text: what follows the last newline counts if it is not empty. -/
def scanLines (data : Bytes) : List Bytes :=
  let parts := Text.splitFields newline data
  if parts.getLast? = some [] then parts.dropLast else parts

/-- A line as the scanner hands it out, or its failure. -/
def scanned (raw : Bytes) (text : String) : Except String Bytes := do
  Except.ensure (raw.length < maxLineSize) text
  -- the scanner drops one carriage return, `TrimSuffix` another
  pure (dropCR (dropCR raw))

/-- One line of the dump behind its header. -/
def parseLine (store : FileStore) (raw : Bytes × ℕ) : Except String FileStore := do
  let text ← scanned raw.1 "read MIT dump: token too long"
  if isBlank text then pure store
  else if (str "policy\t").isPrefixOf text then do
    let policy ← Except.within s!"MIT dump line {raw.2}: " (parsePolicyRecord text)
    pure { store with policies := store.policies.insert policy.name policy }
  else do
    let record ← Except.within s!"MIT dump line {raw.2}: " (parseRecord text)
    Except.ensure (canonical record.name ∉ store.records)
      s!"MIT dump line {raw.2}: duplicate principal"
    pure { store with
           records := store.records.insert (canonical record.name) record
           realm := if store.realm = [] ∧ ¬ isForeignTGT record.name then record.name.realm
             else store.realm }

/-- The realm of a dump in which no line has set it. -/
def fallbackRealm (records : GoMap Bytes PrincipalRecord) : Bytes :=
  ((records.entries.find? fun e => e.2.name.components == [str "krbtgt", e.2.name.realm]).map
    fun e => e.2.name.realm).getD []

def parse (data : Bytes) : Except String FileStore :=
  match scanLines data with
  | [] => .error "MIT dump is empty"
  | first :: rest => do
    let header ← scanned first "read MIT dump header: token too long"
    Except.ensure (header = headerVersion6 ∨ header = headerVersion7) "unsupported MIT dump header"
    let store ← (rest.zipIdx 2).foldlM parseLine {}
    Except.ensure (store.records.entries ≠ []) "MIT dump contains no principal records"
    pure { store with
           realm := if store.realm = [] then fallbackRealm store.records else store.realm }

/-! ## Opening the key data -/

variable (env : KDB.Env)

/-- `decryptKeyData`: key data of the length of a key is a key already. -/
def decryptKeyData (key : Key) (wrapping : EType) (wrappingKey : Bytes) :
    Except String Key :=
  match env.etype key.enctype with
  | none => .ok key
  | some target =>
    if key.key.length = target.keySize then .ok key
    else do
      Except.ensure (2 ≤ key.key.length) "MIT dump key data is truncated"
      let keyLength := Words.ofLE (key.key.take 2)
      Except.ensure (keyLength = target.keySize) "MIT dump key length is invalid"
      let plain ← Except.ofOption "MIT dump key data integrity check failed"
        (wrapping.decrypt wrappingKey 0 (key.key.drop 2))
      Except.ensure (keyLength ≤ plain.length) "MIT dump key data integrity check failed"
      pure { key with key := plain.take keyLength }

/-- The K/M record of the realm of a dump. -/
def masterOf (store : FileStore) : Option PrincipalRecord :=
  (store.records.entries.map Sigma.snd).find? fun record =>
    record.name.realm == store.realm && isKMPrincipal record.name

/-- The key that the first entry which opens gives, with the version it was opened for. -/
def firstOpened (supplied : EType) (suppliedKey : Bytes)
    (candidates : List (Key × UInt32)) : Option (Key × UInt32) :=
  candidates.findSome? fun (candidate, version) =>
    ((decryptKeyData env candidate supplied suppliedKey).toOption).map fun key => (key, version)

/-- The auxiliary entries of the K/M record: the last entry of that type counts. -/
def masterAux (master : PrincipalRecord) : Except String (List MKeyAuxEntry) :=
  (master.tlData.filter fun item => item.type == MKEYAuxType).foldlM
    (fun _ item => Except.within "MIT dump master key auxiliary data: " (decodeMKEYAux item.data))
      []

/-- The newest master key: opened from the K/M key data, or from an auxiliary entry. -/
def latestMasterKey (supplied : EType) (suppliedKey : Bytes) (keys : List Key)
    (aux : List MKeyAuxEntry) : Option (Key × UInt32) :=
  let own := (keys.filter fun key => key.enctype == supplied.id).map fun key => (key, key.kvno)
  let other := aux.map fun item =>
    ((⟨item.latestKeyEnctype, item.latestKeyKVNO.toUInt32, item.latestKeyData, []⟩ : Key),
      item.mKeyKVNO.toUInt32)
  match (firstOpened env supplied suppliedKey own).filter fun found => found.1.key ≠ [] with
  | some found => some found
  | none => (firstOpened env supplied suppliedKey other).filter fun found => found.1.key ≠ []

/-- The version of the newest master key: the K/M metadata has it where the key has none. -/
def latestKVNO (master : PrincipalRecord) (latest : Key) : Except String UInt32 :=
  if latest.kvno ≠ 0 then .ok latest.kvno
  else (master.tlData.filter fun item => item.type == MKVNOType).foldlM
    (fun _ item => Except.within "MIT dump master key version metadata: " (decodeMKVNO item.data))
    latest.kvno

/-- `recoverMasterKeys`: the master keys by version, the auxiliary entries, and the version of
the supplied key. -/
def recoverMasterKeys (store : FileStore) (supplied : EType) (suppliedKey : Bytes)
    (suppliedKVNO : UInt32) : Except String (GoMap UInt32 Key × List MKeyAuxEntry × UInt32) :=
  match masterOf store with
  | none =>
    let kvno := if suppliedKVNO = 0 then 1 else suppliedKVNO
    .ok ((∅ : GoMap UInt32 Key).insert kvno ⟨supplied.id, kvno, suppliedKey, []⟩, [], kvno)
  | some master => do
    let keys := if master.keyData = [] then rangeKeys env master.keys else master.keyData
    let aux ← masterAux master
    let (latest, version) ← Except.ofOption "MIT dump master key could not recover latest key"
      (latestMasterKey env supplied suppliedKey keys aux)
    let kvno ← latestKVNO master latest
    let etype ← Except.ofOption "unsupported enctype" (env.etype latest.enctype)
    let opened ← keys.mapM fun key => decryptKeyData env key etype latest.key
    let result := opened.foldl (fun m key => m.insert key.kvno key)
      ((∅ : GoMap UInt32 Key).insert kvno latest)
    pure (result, aux, if suppliedKVNO = 0 then version else suppliedKVNO)

/-- The master key a record's key data is opened with: the version it names, or version 1, or
whichever the map gives first. -/
def wrappingKeyFor (masterKeys : GoMap UInt32 Key) (record : PrincipalRecord) :
    Option Key :=
  let kvno := match mkvno record.tlData with
    | .ok value => value
    | .error _ => 0
  match masterKeys.lookup kvno with
  | some key => some key
  | none =>
    match masterKeys.lookup 1 with
    | some key => some key
    | none => (env.keyOrder (masterKeys.entries.map Sigma.snd)).head?

/-- The loop of `decryptRecords`. -/
def decryptRecord (masterKeys : GoMap UInt32 Key) (record : PrincipalRecord) :
    Except String PrincipalRecord := do
  let wrapping ← Except.ofOption "MIT dump has no master key for principal"
    (wrappingKeyFor env masterKeys record)
  let etype ← Except.ofOption "unsupported enctype" (env.etype wrapping.enctype)
  let keys ← record.keys.traverse fun _ key => decryptKeyData env key etype wrapping.key
  let keyData ← record.keyData.mapM fun key => decryptKeyData env key etype wrapping.key
  pure { record with keys, keyData }

/-- The keys that may have sealed the password histories of a dump. -/
def historyKeysOf (records : GoMap Bytes PrincipalRecord) (realm : Bytes) : List Key :=
  (records.entries.map Sigma.snd).flatMap fun record =>
    if record.name.realm = realm ∧ record.name.components = [str "kadmin", str "history"] then
      rangeKeys env record.keys else []

/-- One record of `decodeKADMRecords`: the first KADM data that decodes counts. -/
def decodeKADMRecord (historyKeys : List Key) (record : PrincipalRecord) :
    PrincipalRecord :=
  let decoded := (record.tlData.filter fun item => item.type == KADMDataType).findSome? fun item =>
    (decodeKADMData env item.data historyKeys (normalSalt record.name)).toOption
  match decoded with
  | some data =>
    { record with
      policy := data.policy, kadmAuxAttributes := data.auxAttributes
      adminHistoryNext := data.oldKeyNext, adminHistoryKVNO := data.adminHistoryKVNO
      passwordHistory := data.oldKeys }
  | none => record

/-- The activations of the K/M record: the last entry of that type counts. -/
def activeOf (master : Option PrincipalRecord) : Except String (List ActKVNO) :=
  match master with
  | none => .ok []
  | some master => (master.tlData.filter fun item => item.type == ACTKVNOType).foldlM
      (fun _ item => Except.within "MIT dump activation metadata: " (decodeACTKVNO item.data)) []

/-- `parseWithMasterKey`. -/
def openStore (store : FileStore) (masterEnctype : Int32) (masterKey : Bytes)
    (suppliedKVNO : UInt32) : Except String FileStore := do
  let masterEType ← Except.ofOption "MIT stash master enctype" (env.etype masterEnctype)
  Except.ensure (masterKey.length = masterEType.keySize) "MIT stash master key has invalid length"
  let (masterKeys, aux, version) ← recoverMasterKeys env store masterEType masterKey suppliedKVNO
  let opened ← store.records.traverse fun _ record => decryptRecord env masterKeys record
  let records := opened.mapValues fun _ record =>
    decodeKADMRecord env (historyKeysOf env opened store.realm) record
  let active ← activeOf (masterOf { store with records })
  pure { store with
         records, masterEnctype, masterKey, suppliedMKVNO := version
         masterKeys := (masterKeys.entries.map Sigma.snd).insertionSort fun a b => b.kvno ≤ a.kvno
         mKeyAux := aux, activeMKeys := active }

def parseWithMasterKey (data : Bytes) (masterEnctype : Int32) (masterKey : Bytes) :
    Except String FileStore := do
  let store ← parse data
  openStore env store masterEnctype masterKey 0

/-- `FileStore.Lookup`. -/
def FileStore.lookup (store : FileStore) (name : Principal) : Option PrincipalRecord :=
  store.records.lookup (canonical name)

/-- `FileStore.Policies`: in the order of their names. -/
def FileStore.listPolicies (store : FileStore) : List PolicyRecord :=
  (store.policies.entries.map Sigma.snd).insertionSort fun a b => a.name ≤ b.name

/-- The loop of the loaders: every policy is created and every record but the skipped ones is
imported. -/
def importStore (db : Database) (store : FileStore) (skip : PrincipalRecord → Bool) :
    Except DBError Database := do
  let db ← store.listPolicies.foldlM Database.createPolicy db
  ((store.records.entries.map Sigma.snd).filter fun record => !skip record).foldlM
    Database.importPrincipal db

/-- `loadLocalDatabase` of the kadmin package, once the dump is opened. -/
def loadLocalDatabase (realm : Bytes) (store : FileStore) : Except DBError Database :=
  importStore (newDatabase (if realm = [] then store.realm else realm)) store fun _ => false

/-- `loadMutable` of gokdb5util, once the dump is opened: the K/M principals are left out. -/
def loadMutable (store : FileStore) : Except DBError Database :=
  importStore
    { newDatabase store.realm with
      masterKeys := store.masterKeys, activeMKeys := store.activeMKeys, mKeyAux := store.mKeyAux }
    store fun record => isKMPrincipal record.name

end Kerberos.MITDump
