import Kerberos.Lib.Except
import Kerberos.Lib.Words
import Kerberos.Spec.Store

/-!
# Master-key metadata

The tagged data of the K/M principal: which master-key version sealed a record
(`MKVNO`), since when a version is active (`ACTKVNO`), and the newest key sealed
under each older one (`MKEYAux`).
-/

namespace Kerberos

open Words

def KADMDataType : Int16 := 3
def MKVNOType : Int16 := 8
def ACTKVNOType : Int16 := 9
def MKEYAuxType : Int16 := 10

structure ActKVNO where
  kvno : UInt16
  actTime : ℤ
  deriving DecidableEq

structure MKeyAuxEntry where
  mKeyKVNO : UInt16
  latestKeyKVNO : UInt16
  latestKeyEnctype : Int32
  latestKeyData : Bytes
  deriving DecidableEq

def maxUint16 : ℕ := 65535

/-- `binary.LittleEndian.PutUint16`. -/
def le16 (n : ℕ) : Bytes := leBytes 2 n

def encodeMKVNO (kvno : UInt32) : Except String Bytes :=
  if kvno = 0 ∨ maxUint16 < kvno.toNat then .error s!"master-key version {kvno} is out of range"
  else .ok (le16 kvno.toNat)

/-- `DecodeMKVNO`: no data means no explicit version. -/
def decodeMKVNO (data : Bytes) : Except String UInt32 :=
  if data = [] then .ok 0
  else if data.length ≠ 2 then .error "invalid MKVNO data length"
  else .ok (UInt32.ofNat (ofLE data))

/-- `MKVNO`: the version the first entry of that type names, or zero. -/
def mkvno (values : List TLData) : Except String UInt32 :=
  match values.find? fun value => value.type == MKVNOType with
  | some value => decodeMKVNO value.data
  | none => .ok 0

/-- The six bytes of one activation. -/
def actEntry (value : ActKVNO) : Bytes :=
  le16 value.kvno.toNat ++ leBytes 4 (value.actTime % 2 ^ 32).toNat

def checkActKVNO (value : ActKVNO) : Except String Unit := do
  Except.ensure (value.kvno ≠ 0) "active master-key version is zero"
  Except.ensure (-2 ^ 31 ≤ value.actTime ∧ value.actTime ≤ 2 ^ 31 - 1)
    "active master-key time is out of range"

def encodeACTKVNO (values : List ActKVNO) : Except String Bytes := do
  Except.ensure (values ≠ []) "active master-key list is empty"
  values.forM checkActKVNO
  pure (le16 1 ++ values.flatMap actEntry)

/-- The activations behind the version word, six bytes each. -/
def actEntries : Bytes → Except String (List ActKVNO)
  | a :: b :: c :: d :: e :: f :: rest => do
    let kvno := UInt16.ofNat (ofLE [a, b])
    Except.ensure (kvno ≠ 0) "active master-key version is zero"
    let values ← actEntries rest
    pure (⟨kvno, (Int32.ofNat (ofLE [c, d, e, f])).toInt⟩ :: values)
  | _ => pure []

def decodeACTKVNO (data : Bytes) : Except String (List ActKVNO) :=
  if data.length < 8 ∨ (data.length - 2) % 6 ≠ 0 then .error "invalid ACTKVNO data length"
  else if Words.ofLE (data.take 2) ≠ 1 then .error "unsupported ACTKVNO version"
  else actEntries (data.drop 2)

/-- The bytes of one auxiliary entry. -/
def auxEntry (value : MKeyAuxEntry) : Bytes :=
  le16 value.mKeyKVNO.toNat ++ le16 value.latestKeyKVNO.toNat ++
    le16 value.latestKeyEnctype.toInt.toNat ++ le16 value.latestKeyData.length ++
      value.latestKeyData

def checkMKEYAux (value : MKeyAuxEntry) : Except String Unit := do
  Except.ensure (value.mKeyKVNO ≠ 0 ∧ value.latestKeyKVNO ≠ 0)
    "master-key auxiliary version is zero"
  Except.ensure (0 ≤ value.latestKeyEnctype.toInt ∧ value.latestKeyEnctype.toInt ≤ maxUint16)
    "master-key auxiliary enctype is out of range"
  Except.ensure (value.latestKeyData.length ≤ maxUint16) "master-key auxiliary data is too long"

/-- `EncodeMKEYAux`: no entries, no data. -/
def encodeMKEYAux (values : List MKeyAuxEntry) : Except String Bytes :=
  if values = [] then .ok []
  else do
    values.forM checkMKEYAux
    pure (le16 1 ++ values.flatMap auxEntry)

/-- The auxiliary entries; each takes eight bytes or more, so `fuel` bounds their number. -/
def auxEntries : ℕ → Bytes → Except String (List MKeyAuxEntry)
  | 0, _ => pure []
  | _ + 1, [] => pure []
  | fuel + 1, data => do
    Except.ensure (8 ≤ data.length) "truncated MKEY_AUX entry"
    let length := ofLE ((data.drop 6).take 2)
    Except.ensure (length ≤ data.length - 8) "truncated MKEY_AUX key data"
    let values ← auxEntries fuel (data.drop (8 + length))
    pure ({ mKeyKVNO := UInt16.ofNat (ofLE (data.take 2))
            latestKeyKVNO := UInt16.ofNat (ofLE ((data.drop 2).take 2))
            latestKeyEnctype := Int32.ofNat (ofLE ((data.drop 4).take 2))
            latestKeyData := (data.drop 8).take length } :: values)

def decodeMKEYAux (data : Bytes) : Except String (List MKeyAuxEntry) :=
  if data = [] then .ok []
  else if data.length < 10 ∨ Words.ofLE (data.take 2) ≠ 1 then .error "invalid MKEY_AUX data"
  else auxEntries data.length (data.drop 2)

example : decodeMKEYAux (le16 1 ++ auxEntry ⟨1, 2, 18, [7, 7]⟩) =
    .ok [⟨1, 2, 18, [7, 7]⟩] := by decide

end Kerberos
