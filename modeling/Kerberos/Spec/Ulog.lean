import Kerberos.Lib.Disk
import Kerberos.Spec.Iprop

/-!
# The update log on disk

`Ulog`: a file of a header and `capacity` blocks. The update with serial `s` is in the block
`(s - 1) mod capacity`, so a new one takes the place of the one `capacity` serials before it.
Operations work on the state of the log and keep what they have changed when they fail.

`getEntries` has a bound on the rounds of its loop; `none` is a loop that is still running.
-/

namespace Kerberos.Iprop

def ulogVersion : UInt16 := 1
def ulogStable : UInt16 := 1
def ulogEntryMagic : UInt32 := 0x06662323
def ulogHeaderMagic : UInt32 := 0x06661212
def ulogBlock : UInt16 := 2048
def ulogEntries : UInt32 := 1000
def ulogHeaderSize : ℕ := 40
def ulogEntrySize : ℕ := 24

structure UlogHeader where
  version : UInt16 := ulogVersion
  numEntries : UInt32 := 1
  firstTime : Time := .zero
  lastTime : Time := .zero
  firstSno : UInt32 := 1
  lastSno : UInt32 := 1
  state : UInt16 := ulogStable
  block : UInt16 := ulogBlock
  deriving DecidableEq

/-- An entry as it is read: `Dummy` is an entry without an update. -/
structure UlogEntry where
  serial : UInt32 := 0
  time : Time := .zero
  commit : Bool := false
  update : Option Update := none
  deriving DecidableEq

structure Ulog where
  disk : Disk
  isOpen : Bool := true
  hdr : UlogHeader := {}
  capacity : UInt32
  readOnly : Bool := false

abbrev UlogM := EStateM String Ulog

namespace Ulog

/-! ## Accesses to the file -/

def readAt (off n : ℕ) : UlogM Bytes := fun u =>
  match u.disk.readAt off n with
  | (some data, disk) => .ok data { u with disk }
  | (none, disk) => .error "read" { u with disk }

def writeAt (off : ℕ) (data : Bytes) : UlogM Unit := fun u =>
  match u.disk.writeAt off data with
  | (true, disk) => .ok () { u with disk }
  | (false, disk) => .error "write" { u with disk }

def truncate (size : ℕ) : UlogM Unit := fun u =>
  match u.disk.truncate size with
  | (true, disk) => .ok () { u with disk }
  | (false, disk) => .error "truncate" { u with disk }

/-- Fail unless `p`. -/
def ensure (p : Prop) [Decidable p] (e : String) : UlogM Unit := if p then pure () else throw e

/-! ## Layout -/

def le32 (n : UInt32) : Bytes := Words.leBytes 4 n.toNat

def putTime (value : Time) : Bytes := le32 value.seconds ++ le32 value.useconds

def get16 (data : Bytes) (off : ℕ) : UInt16 := UInt16.ofNat (Words.ofLE (Disk.slice data off 2))

def get32 (data : Bytes) (off : ℕ) : UInt32 := UInt32.ofNat (Words.ofLE (Disk.slice data off 4))

def getTime (data : Bytes) (off : ℕ) : Time := ⟨get32 data off, get32 data (off + 4)⟩

def headerBytes (h : UlogHeader) : Bytes :=
  le32 ulogHeaderMagic ++ le16 h.version.toNat ++ [0, 0] ++ le32 h.numEntries ++
    putTime h.firstTime ++ putTime h.lastTime ++ le32 h.firstSno ++ le32 h.lastSno ++
    le16 h.state.toNat ++ le16 h.block.toNat

def headerOf (data : Bytes) : UlogHeader where
  version := get16 data 4
  numEntries := get32 data 8
  firstTime := getTime data 12
  lastTime := getTime data 20
  firstSno := get32 data 28
  lastSno := get32 data 32
  state := get16 data 36
  block := get16 data 38

/-- The first bytes of a block. -/
def blockHead (serial : UInt32) (time : Time) (commit : Bool) (size : ℕ) : Bytes :=
  le32 ulogEntryMagic ++ le32 serial ++ putTime time ++ le32 (if commit then 1 else 0) ++
    le32 (UInt32.ofNat size)

/-- A block of `size` bytes: the head, the payload, and zeros. -/
def entryBlock (size : ℕ) (serial : UInt32) (time : Time) (commit : Bool) (payload : Bytes) :
    Bytes :=
  blockHead serial time commit payload.length ++ payload ++
    List.replicate (size - ulogEntrySize - payload.length) 0

/-- Where the block of a serial starts. -/
def blockOffset (u : Ulog) (serial : UInt32) : ℕ :=
  ulogHeaderSize + ((serial - 1) % u.capacity).toNat * u.hdr.block.toNat

def fileSize (u : Ulog) : ℕ := ulogHeaderSize + u.capacity.toNat * u.hdr.block.toNat

/-! ## Operations -/

def syncHeader : UlogM Unit := do
  let u ← get
  writeAt 0 (headerBytes u.hdr)

def readHeader : UlogM Unit := do
  let data ← readAt 0 ulogHeaderSize
  ensure (get32 data 0 = ulogHeaderMagic) "iprop: invalid ulog header magic"
  let hdr := headerOf data
  modify fun u => { u with hdr }
  ensure (hdr.version = ulogVersion ∧ hdr.numEntries ≠ 0 ∧ ulogEntrySize ≤ hdr.block.toNat)
    "iprop: invalid ulog header"

/-- `writeDummy`: the placeholder of a serial without an update. -/
def writeDummy (serial : UInt32) : UlogM Unit := do
  let u ← get
  writeAt (u.blockOffset serial) (le32 ulogEntryMagic ++ le32 serial ++
    List.replicate (u.hdr.block.toNat - 8) 0)

/-- The entry of a block: a block of another serial is a dummy. -/
def decodeEntry (serial : UInt32) (block : Bytes) : Except String UlogEntry :=
  if get32 block 0 ≠ ulogEntryMagic then pure {}
  else if get32 block 4 ≠ serial then pure {}
  else do
    let size := (get32 block 20).toNat
    Except.ensure (size ≤ block.length - ulogEntrySize) "iprop: invalid ulog entry size"
    if size = 0 then pure { serial, time := getTime block 8 }
    else
      let update ← unmarshalUpdate (Disk.slice block ulogEntrySize size)
      pure { serial, time := update.time, commit := get32 block 16 ≠ 0, update := some update }

def readEntry (serial : UInt32) : UlogM UlogEntry := do
  let u ← get
  let block ← readAt (u.blockOffset serial) u.hdr.block.toNat
  match decodeEntry serial block with
  | .ok entry => pure entry
  | .error e => throw e

/-- `Create`: zero entries stand for the default. -/
def create (entries : UInt32) : UlogM Unit := do
  let num := if entries = 0 then ulogEntries else entries
  ensure (num.toNat ≤ 2 ^ 20) "iprop: invalid ulog entry count"
  modify fun u => { disk := ⟨[], u.disk.faults⟩, capacity := num }
  syncHeader
  let u ← get
  truncate u.fileSize
  writeDummy 1

/-- `open`: the handle is new, the file is what it was. -/
def openFile (readOnly : Bool) : UlogM Unit := do
  let u ← get
  let size := u.disk.content.length
  readHeader
  let u ← get
  let block := u.hdr.block.toNat
  ensure (ulogHeaderSize ≤ size ∧ (size - ulogHeaderSize) % block = 0)
    "iprop: invalid ulog file size"
  let capacity := UInt32.ofNat ((size - ulogHeaderSize) / block)
  ensure (capacity ≠ 0) "iprop: invalid ulog capacity"
  set { u with capacity, readOnly, isOpen := true }

def close : UlogM Unit := modify fun u => { u with isOpen := false }

/-- The tests in front of a change. -/
def writable : UlogM Unit := do
  let u ← get
  ensure u.isOpen "iprop: closed ulog"
  ensure (¬ u.readOnly) "iprop: read-only ulog"

/-- The first serial and its time move once the log is full. -/
def moveFirst (serial : UInt32) (time : Time) : UlogM Unit := do
  let u ← get
  if u.hdr.firstSno = 0 then
    modify fun u => { u with hdr := { u.hdr with firstSno := serial, firstTime := time } }
  else if u.capacity ≤ serial - u.hdr.firstSno then
    let firstSno := serial - u.capacity + 1
    modify fun u => { u with hdr := { u.hdr with firstSno } }
    let first ← readEntry firstSno
    modify fun u => { u with hdr := { u.hdr with firstTime := first.time } }

/-- The number of entries after one with this serial has been written to a log with header
`h`. -/
def countEntries (h : UlogHeader) (capacity serial : UInt32) : UInt32 :=
  if 0 < h.numEntries ∧ h.firstSno ≤ serial ∧ serial ≤ h.lastSno then h.numEntries
  else if h.numEntries = 0 then 1
  else if h.numEntries < capacity then h.numEntries + 1
  else h.numEntries

/-- The header after an update has been written; one with an older serial leaves it alone. -/
def advance (serial : UInt32) (time : Time) : UlogM Unit := do
  let u ← get
  if u.hdr.lastSno = 0 ∨ u.hdr.lastSno ≤ serial then
    let numEntries := countEntries u.hdr u.capacity serial
    moveFirst serial time
    modify fun u => { u with hdr := { u.hdr with lastSno := serial, lastTime := time, numEntries } }

/-- The update with the serial it is stored under. -/
def numbered (u : Ulog) (update : Update) : Update :=
  if update.entrySno = 0 then { update with entrySno := u.hdr.lastSno + 1 } else update

def addUpdate (update : Update) : UlogM Unit := do
  writable
  let u ← get
  let update := u.numbered update
  let serial := update.entrySno
  let payload := update.marshalXDR
  ensure (payload.length ≤ u.hdr.block.toNat - ulogEntrySize)
    "iprop: update exceeds ulog block size"
  writeAt (u.blockOffset serial)
    (entryBlock u.hdr.block.toNat serial update.time update.commit payload)
  advance serial update.time
  syncHeader

/-- The header of a log that has a placeholder only. -/
def cursorHeader (last : Last) : UlogHeader :=
  if last.lastSno = 0 then {}
  else { firstTime := last.lastTime, lastTime := last.lastTime,
         firstSno := last.lastSno, lastSno := last.lastSno }

def setCursor (last : Last) : UlogM Unit := do
  writable
  modify fun u => { u with hdr := cursorHeader last }
  let u ← get
  truncate u.fileSize
  writeDummy u.hdr.lastSno
  syncHeader

def reset : UlogM Unit := do
  writable
  modify fun u => { u with hdr := {} }
  let u ← get
  truncate u.fileSize
  writeDummy 1
  syncHeader

def last (u : Ulog) : Except String Last :=
  if u.isOpen then .ok ⟨u.hdr.lastSno, u.hdr.lastTime⟩ else .error "iprop: closed ulog"

/-- The loop of `GetEntries`; dummies are left out. -/
def entriesFrom : ℕ → UInt32 → UlogM (Option (List UlogEntry))
  | 0, _ => pure none
  | fuel + 1, serial => do
    let u ← get
    if u.hdr.lastSno < serial then pure (some [])
    else
      let entry ← readEntry serial
      let rest ← entriesFrom fuel (serial + 1)
      pure (rest.map fun rest => if entry.update = none then rest else entry :: rest)

def getEntries (fuel : ℕ) (after : UInt32) : UlogM (Option (List UlogEntry)) := do
  let u ← get
  ensure u.isOpen "iprop: closed ulog"
  if u.hdr.lastSno = 0 then pure (some [])
  else
    let first := if u.hdr.firstSno ≤ after then after + 1 else u.hdr.firstSno
    entriesFrom fuel first

end Ulog

end Kerberos.Iprop
