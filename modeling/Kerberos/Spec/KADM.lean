import Kerberos.Lib.Codec
import Kerberos.Spec.MKey
import Kerberos.Spec.Server

/-!
# KADM data

`EncodeKADMData`, `DecodeKADMData` and `ParseKADMDataMetadata`: the XDR form of
MIT's `osa_princ_ent_rec`, which carries a principal's policy and password history.
The historical keys are sealed under the key of `kadmin/history`.

`KDB.Env` has the packages around the database: the enctype registry, string-to-key,
and the order in which a loop over a map of keys visits it.
-/

namespace Kerberos

namespace KDB

/-- The packages around the database. -/
structure Env where
  /-- `crypto.NewRegistry().Get`. -/
  etype : Int32 → Option EType
  stringToKey : Int32 → Bytes → Bytes → Option Bytes
  /-- The order in which a range over a map of keys visits them. -/
  keyOrder : List Key → List Key
  keyOrder_perm : ∀ l, (keyOrder l).Perm l

end KDB

variable (env : KDB.Env)

/-- The values of a map of keys, as a range over it visits them. -/
def rangeKeys (keys : GoMap Int32 Key) : List Key :=
  env.keyOrder (keys.entries.map Sigma.snd)

/-- The default salt of a principal. -/
def normalSalt (name : Principal) : Bytes := name.realm ++ name.components.flatten

def kadmDataVersion : UInt32 := 0x12345c01
def kadmPolicy : UInt32 := 0x800

structure KADMData where
  policy : Bytes := []
  auxAttributes : UInt32 := 0
  oldKeyNext : UInt32 := 0
  adminHistoryKVNO : UInt32 := 0
  normalSalt : Bytes := []
  oldKeys : List (GoMap Int32 Key) := []

/-! ## XDR -/

/-- The zero bytes that fill `n` bytes up to a multiple of four. -/
def xdrPad (n : ℕ) : ℕ := (4 - n % 4) % 4

namespace Xdr

def u32 (v : UInt32) : Bytes := Words.beBytes 4 v.toNat

def u16 (v : UInt16) : Bytes := u32 v.toUInt32

def i16 (v : Int16) : Bytes := u32 v.toInt32.toUInt32

/-- `xdrBuffer.bytes`: what precedes is a multiple of four long, so the padding is that of `v`. -/
def bytes (v : Bytes) : Bytes :=
  u32 (UInt32.ofNat v.length) ++ v ++ List.replicate (xdrPad v.length) 0

def nullString (v : Bytes) : Bytes := bytes (v ++ [0])

end Xdr

abbrev XdrReader (α : Type) := Reader UInt8 String α

namespace XdrReader

def take (n : ℕ) : XdrReader Bytes := Reader.take n "KADM data is truncated"

def u32 : XdrReader UInt32 := do
  let b ← take 4
  pure (UInt32.ofNat (Words.ofBE b))

def u16 : XdrReader UInt16 := do
  let v ← u32
  Reader.check (v.toNat ≤ maxUint16) "KADM data 16-bit value is out of range"
  pure v.toUInt16

def i16 : XdrReader Int16 := do
  let v ← u32
  let signed := v.toInt32.toInt
  Reader.check (-2 ^ 15 ≤ signed ∧ signed ≤ 2 ^ 15 - 1) "KADM data 16-bit value is out of range"
  pure (Int16.ofInt signed)

def bytes (n : UInt16) : XdrReader Bytes := do
  let length ← u32
  Reader.check (length.toNat = n.toNat) "KADM data length mismatch"
  let v ← take length.toNat
  let _ ← take (xdrPad length.toNat)
  pure v

/-- `nullString`: a length in front, and a final zero byte that is not part of the string. -/
def nullString : XdrReader Bytes := do
  let length ← u32
  let rest ← get
  Reader.check (length ≠ 0 ∧ length.toNat ≤ rest.length) "KADM data string is invalid"
  let raw ← take length.toNat
  Reader.check (raw.getLast? = some 0) "KADM data string is not terminated"
  let _ ← take (xdrPad length.toNat)
  pure raw.dropLast

end XdrReader

/-! ## Encoding -/

/-- The contents of sealed key data: the length of the key, then its ciphertext. -/
def sealedContents (key ciphertext : Bytes) : Bytes := le16 key.length ++ ciphertext

/-- The salt is written out: it is neither missing nor the principal's default. -/
def specialSalt (normal salt : Bytes) : Bool := salt ≠ [] && salt ≠ normal

def encodeHistoryKey (historyKey : Option Key) (normal : Bytes) (key : Key) :
    Except String Bytes := do
  let historyKey ← Except.ofOption "KADM data history key is unavailable" historyKey
  let etype ← Except.ofOption "KADM data history enctype" (env.etype historyKey.enctype)
  let keyEType ← Except.ofOption "KADM data key enctype" (env.etype key.enctype)
  Except.ensure (key.key.length = keyEType.keySize) "KADM data key enctype has invalid length"
  Except.ensure (key.kvno.toNat ≤ maxUint16) "KADM data key enctype has invalid KVNO"
  let encrypted ← Except.ofOption "KADM data key enctype" (etype.encrypt historyKey.key 0 key.key)
  let contents := sealedContents key.key encrypted
  Except.ensure (contents.length ≤ maxUint16) "KADM data key enctype is too long"
  let special := specialSalt normal key.salt
  let salt := if special then key.salt else []
  Except.ensure (salt.length ≤ maxUint16) "KADM data key enctype salt is too long"
  pure (Xdr.i16 (if special then 2 else 1) ++ Xdr.u16 (UInt16.ofNat key.kvno.toNat) ++
    Xdr.i16 (Int16.ofInt key.enctype.toInt) ++ Xdr.i16 (if special then 4 else 0) ++
    Xdr.u16 (UInt16.ofNat contents.length) ++ Xdr.u16 (UInt16.ofNat salt.length) ++
    Xdr.bytes contents ++ Xdr.bytes salt)

/-- The keys of one historical password, in the order of their enctypes. -/
def sortedHistory (history : GoMap Int32 Key) : List Key :=
  (rangeKeys env history).insertionSort fun a b => a.enctype ≤ b.enctype

def encodeHistoryEntry (historyKey : Option Key) (normal : Bytes)
    (history : GoMap Int32 Key) : Except String Bytes := do
  let keys := sortedHistory env history
  Except.ensure (keys.length < 2 ^ 32) "KADM data history entry has too many keys"
  let encoded ← keys.mapM (encodeHistoryKey env historyKey normal)
  pure (Xdr.u32 (UInt32.ofNat keys.length) ++ encoded.flatten)

/-- `EncodeKADMData`: the queue is written oldest first with an unwrapped cursor. -/
def encodeKADMData (data : KADMData) (historyKey : Option Key) :
    Except String Bytes := do
  Except.ensure (data.policy ≠ [] ∨ data.auxAttributes &&& kadmPolicy = 0)
    "KADM data policy is empty"
  let aux := if data.policy ≠ [] then data.auxAttributes ||| kadmPolicy else data.auxAttributes
  let historyKVNO := match historyKey with
    | some key => if data.adminHistoryKVNO = 0 then key.kvno else data.adminHistoryKVNO
    | none => data.adminHistoryKVNO
  Except.ensure (data.oldKeys.length < 2 ^ 32) "KADM data has too many history entries"
  Except.ensure (data.oldKeys = [] ∨ historyKey.isSome) "KADM data history key is unavailable"
  let count := UInt32.ofNat data.oldKeys.length
  let entries ← data.oldKeys.reverse.mapM (encodeHistoryEntry env historyKey data.normalSalt)
  pure (Xdr.u32 kadmDataVersion ++ Xdr.nullString data.policy ++ Xdr.u32 aux ++ Xdr.u32 count ++
    Xdr.u32 historyKVNO ++ Xdr.u32 count ++ entries.flatten)

/-! ## Decoding -/

/-- The fields in front of the history: with the number of its entries. `size` is the
length of the whole encoding. -/
def kadmHeader (size : ℕ) : XdrReader (KADMData × UInt32) := do
  let version ← XdrReader.u32
  Reader.check (version = kadmDataVersion) "unsupported KADM data version"
  let policy ← XdrReader.nullString
  let auxAttributes ← XdrReader.u32
  let oldKeyNext ← XdrReader.u32
  let adminHistoryKVNO ← XdrReader.u32
  let count ← XdrReader.u32
  Reader.check (count.toNat ≤ size / 4) "KADM data history count is too large"
  pure ({ policy, auxAttributes, oldKeyNext, adminHistoryKVNO }, count)

/-- `ParseKADMDataMetadata`: the history has its length only. -/
def parseKADMDataMetadata (data : Bytes) : Except String KADMData :=
  (kadmHeader data.length data).map fun ((header, count), _) =>
    { header with oldKeys := List.replicate count.toNat ∅ }

/-- `decryptHistoryKey`: the first history key that opens the ciphertext. -/
def decryptHistoryKey (keys : List Key) (ciphertext : Bytes) : Option Bytes :=
  keys.findSome? fun key => (env.etype key.enctype).bind fun etype =>
    etype.decrypt key.key 0 ciphertext

def decodeHistoryKey (historyKeys : List Key) (normal : Bytes) : XdrReader Key := do
  let keyVersion ← XdrReader.i16
  Reader.check (keyVersion = 1 ∨ keyVersion = 2) "unsupported KADM key-data version"
  let kvno ← XdrReader.u16
  let enctype ← XdrReader.i16
  let saltType ← XdrReader.i16
  let keyLength ← XdrReader.u16
  let saltLength ← XdrReader.u16
  let contents ← XdrReader.bytes keyLength
  let salt ← XdrReader.bytes saltLength
  Reader.check (2 ≤ keyLength.toNat) "KADM key-data contents are truncated"
  let plainLength := Words.ofLE (contents.take 2)
  Reader.check (plainLength ≠ 0) "KADM key-data plaintext is empty"
  let plain ← Reader.lift (Except.ofOption "KADM key-data decryption"
    (decryptHistoryKey env historyKeys (contents.drop 2)))
  Reader.check (plain.length = plainLength) "KADM key-data plaintext length mismatch"
  let keySalt := if keyVersion = 2 ∧ saltType = 4 then salt else normal
  pure ⟨Int32.ofInt enctype.toInt, kvno.toUInt32, plain, keySalt⟩

/-- A map that has each key under its enctype, later ones in place of earlier ones. -/
def keyMapOf (keys : List Key) : GoMap Int32 Key := keys.foldl (fun m k => m.insert k.enctype k) ∅

def decodeHistoryEntry (historyKeys : List Key) (normal : Bytes) (size : ℕ) :
    XdrReader (GoMap Int32 Key) := do
  let keyCount ← XdrReader.u32
  Reader.check (keyCount.toNat ≤ size / 24) "KADM data key count is too large"
  let keys ← Reader.many keyCount.toNat (decodeHistoryKey env historyKeys normal)
  pure (keyMapOf keys)

/-- The entries of a circular queue, newest first; `next` is the slot that is overwritten next. -/
def newestFirst {α : Type} (next : ℕ) (queue : List α) : List α :=
  (List.range queue.length).filterMap fun i =>
    queue[(next % queue.length + queue.length - (i + 1)) % queue.length]?

def decodeKADMData (data : Bytes) (historyKeys : List Key) (normal : Bytes) :
    Except String KADMData :=
  let read : XdrReader KADMData := do
    let (header, count) ← kadmHeader data.length
    let oldKeys ← Reader.many count.toNat (decodeHistoryEntry env historyKeys normal data.length)
    let rest ← get
    Reader.check (rest = []) "KADM data has trailing bytes"
    pure { header with oldKeys := newestFirst header.oldKeyNext.toNat oldKeys }
  (read data).map Prod.fst

end Kerberos
