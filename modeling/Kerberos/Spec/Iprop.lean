import Kerberos.Spec.UpdateLog

/-!
# The updates of incremental propagation

A master sends a changed principal as a list of attribute values. `Update.marshalXDR` and
`unmarshalUpdate` are the XDR form of an update.

A `Value` carries what its attribute type says and nothing else.
-/

namespace Kerberos.Xdr

def i32 (v : Int32) : Bytes := u32 v.toUInt32

def bool (v : Bool) : Bytes := u32 (if v then 1 else 0)

/-- A sequence with its length in front. -/
def counted {α : Type} (write : α → Bytes) (values : List α) : Bytes :=
  u32 (UInt32.ofNat values.length) ++ (values.map write).flatten

end Kerberos.Xdr

namespace Kerberos.Iprop

structure Time where
  seconds : UInt32
  useconds : UInt32
  deriving DecidableEq

def Time.zero : Time := ⟨0, 0⟩

/-- A replica's cursor. -/
structure Last where
  lastSno : UInt32
  lastTime : Time
  deriving DecidableEq

/-! ## Attribute values -/

structure Data where
  magic : Int32
  data : Bytes
  deriving DecidableEq

structure PrincipalData where
  realm : Bytes
  components : List Data
  nameType : Int32
  deriving DecidableEq

structure KeyData where
  version : Int32
  kvno : Int32
  enctypes : List Int32
  contents : List Bytes
  deriving DecidableEq

/-- The attributes whose value is an unsigned number. -/
inductive NumberAttr
  | attrFlags
  | maxLife
  | maxRenewLife
  | exp
  | pwExp
  | lastSuccess
  | lastFailed
  | failAuthCount
  | modTime
  | pwLastChange
  | pwHistKVNO
  deriving DecidableEq

/-- The attributes whose value is a principal. -/
inductive PrincipalAttr
  | princ
  | modPrinc
  deriving DecidableEq

/-- The attributes whose value is a text. -/
inductive TextAttr
  | modWhere
  | pwPolicy
  deriving DecidableEq

/-- A type outside the known ones. -/
abbrev ExtensionAttr := { type : Int32 // type.toInt < 0 ∨ 19 < type.toInt }

inductive AttrType
  | number (type : NumberAttr)
  | principal (type : PrincipalAttr)
  | keyData
  | tlData
  | len
  | text (type : TextAttr)
  | pwPolicySwitch
  | pwHist
  | extension (type : ExtensionAttr)
  deriving DecidableEq

/-- The known types in the order of their numbers. -/
def AttrType.known : List AttrType :=
  [.number .attrFlags, .number .maxLife, .number .maxRenewLife, .number .exp, .number .pwExp,
    .number .lastSuccess, .number .lastFailed, .number .failAuthCount, .principal .princ, .keyData,
    .tlData, .len, .principal .modPrinc, .number .modTime, .text .modWhere, .number .pwLastChange,
    .text .pwPolicy, .pwPolicySwitch, .number .pwHistKVNO, .pwHist]

def AttrType.ofCode (type : Int32) : AttrType :=
  if h : type.toInt < 0 ∨ 19 < type.toInt then .extension ⟨type, h⟩
  else known.getD type.toInt.toNat .keyData

def AttrType.code : AttrType → Int32
  | .extension type => type.1
  | type => Int32.ofNat (known.idxOf type)

inductive Value
  | number (type : NumberAttr) (value : UInt32)
  | principal (type : PrincipalAttr) (value : PrincipalData)
  | keyData (keys : List KeyData)
  | tlData (values : List TLData)
  | len (value : Int16)
  | text (type : TextAttr) (value : Bytes)
  | pwPolicySwitch (value : Bool)
  | pwHist (history : List (List KeyData))
  | extension (type : ExtensionAttr) (value : Bytes)
  deriving DecidableEq

def Value.type : Value → AttrType
  | number type _ => .number type
  | principal type _ => .principal type
  | keyData _ => .keyData
  | tlData _ => .tlData
  | len _ => .len
  | text type _ => .text type
  | pwPolicySwitch _ => .pwPolicySwitch
  | pwHist _ => .pwHist
  | extension type _ => .extension type

abbrev Entry := List Value

structure Update where
  principalName : Bytes
  entrySno : UInt32
  time : Time
  entry : Entry
  deleted : Bool
  commit : Bool
  kdcsSeenBy : List Bytes := []
  futures : Bytes := []
  deriving DecidableEq

/-! ## XDR -/

open Xdr

def Time.write (v : Time) : Bytes := u32 v.seconds ++ u32 v.useconds

def Data.write (v : Data) : Bytes := i32 v.magic ++ bytes v.data

def PrincipalData.write (v : PrincipalData) : Bytes :=
  bytes v.realm ++ counted Data.write v.components ++ i32 v.nameType

def KeyData.write (v : KeyData) : Bytes :=
  i32 v.version ++ i32 v.kvno ++ counted i32 v.enctypes ++ counted bytes v.contents

def writeTL (v : TLData) : Bytes := i16 v.type ++ bytes v.data

def Value.body : Value → Bytes
  | number _ value => u32 value
  | principal _ value => value.write
  | keyData keys => counted KeyData.write keys
  | tlData values => counted writeTL values
  | len value => i16 value
  | text _ value => bytes value
  | pwPolicySwitch value => Xdr.bool value
  | pwHist history => counted (counted KeyData.write) history
  | extension _ value => bytes value

def Value.write (v : Value) : Bytes := i32 v.type.code ++ v.body

/-- `Update.MarshalXDR`. -/
def Update.marshalXDR (v : Update) : Bytes :=
  bytes v.principalName ++ u32 v.entrySno ++ v.time.write ++ counted Value.write v.entry ++
    Xdr.bool v.deleted ++ Xdr.bool v.commit ++ counted bytes v.kdcsSeenBy ++ bytes v.futures

/-- `marshalLast`. -/
def Last.write (v : Last) : Bytes := u32 v.lastSno ++ v.lastTime.write

/-- An `IncrementalResult` on the wire, where the status may be any number. -/
structure IncrementalMessage where
  lastEntry : Last
  updates : List Update
  ret : Int32
  deriving DecidableEq

/-- `IncrementalResult.MarshalXDR`. -/
def IncrementalMessage.marshalXDR (v : IncrementalMessage) : Bytes :=
  v.lastEntry.write ++ counted Update.marshalXDR v.updates ++ i32 v.ret

namespace Read

/-- The greatest length of a sequence. -/
def maxCount : ℕ := 2 ^ 20

/-- Four bytes, with the error their lack gives. -/
def u32Or (truncated : String) : XdrReader UInt32 := do
  let b ← Reader.take 4 truncated
  pure (UInt32.ofNat (Words.ofBE b))

def u32 : XdrReader UInt32 := u32Or "iprop: truncated XDR"

def i32 : XdrReader Int32 := do
  let v ← u32
  pure v.toInt32

def i16 : XdrReader Int16 := do
  let v ← i32
  Reader.check (-2 ^ 15 ≤ v.toInt ∧ v.toInt ≤ 2 ^ 15 - 1) "iprop: int16 out of range"
  pure (Int16.ofInt v.toInt)

def boolean : XdrReader Bool := do
  let v ← u32
  Reader.check (v ≤ 1) "iprop: invalid boolean"
  pure (v == 1)

/-- `reader.opaque`. -/
def bytes : XdrReader Bytes := do
  let n ← u32
  let v ← Reader.take n.toNat "iprop: truncated XDR"
  let _ ← Reader.take (xdrPad n.toNat) "iprop: truncated XDR"
  pure v

/-- A sequence with its length in front: `truncated` if the length is missing, `tooMany` if it
is too large. -/
def counted {α : Type} (truncated tooMany : String) (r : XdrReader α) : XdrReader (List α) := do
  let n ← u32Or truncated
  Reader.check (n.toNat ≤ maxCount) tooMany
  Reader.many n.toNat r

def time : XdrReader Time := do
  let s ← u32
  let u ← u32
  pure ⟨s, u⟩

def data : XdrReader Data := do
  let m ← i32
  let d ← bytes
  pure ⟨m, d⟩

def principal : XdrReader PrincipalData := do
  let realm ← bytes
  let components ←
    counted "iprop: invalid principal components" "iprop: invalid principal components" data
  let nameType ← i32
  pure ⟨realm, components, nameType⟩

def key : XdrReader KeyData := do
  let version ← i32
  let kvno ← i32
  let enctypes ← counted "iprop: invalid key enctypes" "iprop: invalid key enctypes" i32
  let contents ← counted "iprop: invalid key contents" "iprop: invalid key contents" bytes
  pure ⟨version, kvno, enctypes, contents⟩

def tl : XdrReader TLData := do
  let type ← i16
  let data ← bytes
  pure ⟨type, data⟩

def valueOf : AttrType → XdrReader Value
  | .number type => do pure (.number type (← u32))
  | .principal type => do pure (.principal type (← principal))
  | .keyData => do pure (.keyData (← counted "iprop: truncated XDR" "iprop: too many keys" key))
  | .tlData => do pure (.tlData (← counted "iprop: truncated XDR" "iprop: too many TL data" tl))
  | .len => do pure (.len (← i16))
  | .text type => do pure (.text type (← bytes))
  | .pwPolicySwitch => do pure (.pwPolicySwitch (← boolean))
  | .pwHist => do
    pure (.pwHist (← counted "iprop: truncated XDR" "iprop: too many password-history entries"
      (counted "iprop: truncated XDR" "iprop: too many password-history keys" key)))
  | .extension type => do pure (.extension type (← bytes))

def value : XdrReader Value := do
  let type ← i32
  valueOf (AttrType.ofCode type)

def update : XdrReader Update := do
  let principalName ← bytes
  let entrySno ← u32
  let time ← time
  let entry ← counted "iprop: invalid entry" "iprop: invalid entry" value
  let deleted ← boolean
  let commit ← boolean
  let kdcsSeenBy ← counted "iprop: invalid seen-by list" "iprop: invalid seen-by list" bytes
  let futures ← bytes
  pure { principalName, entrySno, time, entry, deleted, commit, kdcsSeenBy, futures }

def last : XdrReader Last := do
  let lastSno ← u32
  let lastTime ← time
  pure ⟨lastSno, lastTime⟩

def incremental : XdrReader IncrementalMessage := do
  let lastEntry ← last
  let updates ← counted "iprop: invalid updates" "iprop: invalid updates" update
  let ret ← i32
  pure ⟨lastEntry, updates, ret⟩

end Read

def unmarshalUpdate (data : Bytes) : Except String Update := do
  let (update, rest) ← Read.update data
  Except.ensure (rest = []) "iprop: trailing XDR data"
  pure update

def unmarshalIncrementalResult (data : Bytes) : Except String IncrementalMessage := do
  let (message, rest) ← Read.incremental data
  Except.ensure (rest = []) "iprop: trailing XDR data"
  pure message

end Kerberos.Iprop
