import Kerberos.Spec.Binfmt

/-!
# FILE keytabs

`Read` and `Write` of the package `keytab`. A file is a version and records, each with its length in
front; a negative length marks a deleted record, and a length of zero ends the file.
-/

namespace Kerberos.Keytab

open Binfmt Words

/-- `keytab.Entry`. -/
structure Entry where
  principal : Principal
  timestamp : ℤ
  kvno : UInt32
  enctype : Int32
  key : Bytes
  deriving DecidableEq

def maxKeytabInput : ℕ := 64 * 2 ^ 20

def version : Bytes := beBytes 2 0x0502

/-! ## Writing -/

/-- `marshalEntry`. The error of a `WriteCounted16` is dropped; the lengths are checked before. -/
def marshalEntry (entry : Entry) : Except String Bytes := do
  let p := entry.principal
  Except.ensure (p.components.length < 2 ^ 16) "too many principal components"
  Except.ensure (p.realm.length < 2 ^ 16) "realm is too long"
  Except.ensure (0 ≤ entry.timestamp ∧ entry.timestamp < 2 ^ 32) "timestamp out of range"
  Except.ensure (0 ≤ entry.enctype.toInt ∧ entry.enctype.toInt < 2 ^ 16) "enctype out of range"
  Except.ensure (entry.key.length < 2 ^ 16) "key is too long"
  let realm ← writeCounted16 p.realm
  Except.ensure (∀ component ∈ p.components, component.length < 2 ^ 16)
    "principal component is too long"
  let components ← p.components.mapM writeCounted16
  let key ← writeCounted16 entry.key
  let body := beBytes 2 p.components.length ++ (realm ++ (components.flatten ++
    (beBytes 4 p.nameType.toUInt32.toNat ++ (beBytes 4 entry.timestamp.toNat ++
      (beBytes 1 entry.kvno.toUInt8.toNat ++ (beBytes 2 entry.enctype.toInt.toNat ++
        (key ++ beBytes 4 entry.kvno.toNat)))))))
  Except.ensure (body.length < 2 ^ 31) "keytab entry is too long"
  .ok body

/-- The record of an entry. -/
def writeRecord (entry : Entry) : Except String Bytes := do
  let body ← (marshalEntry entry).within "write keytab entry: "
  .ok (beBytes 4 body.length ++ body)

def write (entries : List Entry) : Except String Bytes := do
  let records ← entries.mapM writeRecord
  .ok (version ++ records.flatten)

/-! ## Reading -/

/-- The version number at the end of an entry, if there is one; zero stands for the eight bits
before. -/
def kvnoField (kvno8 : UInt8) : BinReader UInt32 := do
  let remaining ← get
  if 4 ≤ remaining.length then do
    let kvno32 ← u32
    pure (if kvno32 ≠ 0 then kvno32 else kvno8.toUInt32)
  else pure kvno8.toUInt32

def entryReader : BinReader Entry := do
  let count ← u16
  let realm ← counted16
  let components ← Reader.many count.toNat counted16
  let nameType ← u32
  let timestamp ← u32
  let kvno8 ← u8
  let enctype ← u16
  let key ← counted16
  let kvno ← kvnoField kvno8
  pure ⟨⟨realm, nameType.toInt32, components⟩, timestamp.toNat, kvno,
    Int32.ofNat enctype.toNat, key⟩

def parseEntry (data : Bytes) : Except String Entry := (entryReader data).map Prod.fst

/-- The loop of `Read`; every record takes four bytes at least. -/
def readRecords : ℕ → Bytes → Except String (List Entry)
  | 0, _ => .ok []
  | fuel + 1, data =>
    if data = [] then .ok []
    else do
      Except.ensure (4 ≤ data.length) "read keytab: truncated record length"
      let length := (UInt32.ofNat (ofBE (data.take 4))).toInt32.toInt
      if length = 0 then .ok []
      else do
        Except.ensure (length.natAbs ≤ (data.drop 4).length) "read keytab: truncated record"
        if length < 0 then readRecords fuel ((data.drop 4).drop length.natAbs)
        else do
          let entry ← (parseEntry ((data.drop 4).take length.natAbs)).within "read keytab record: "
          let entries ← readRecords fuel ((data.drop 4).drop length.natAbs)
          .ok (entry :: entries)

def read (data : Bytes) : Except String (List Entry) := do
  Except.ensure (data.length ≤ maxKeytabInput) "read keytab: input too large"
  Except.ensure (2 ≤ data.length) "read keytab: truncated version"
  Except.ensure (data.take 2 = version) "read keytab: unsupported version"
  readRecords (data.length - 2) (data.drop 2)

end Kerberos.Keytab
