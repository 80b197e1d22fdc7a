import Kerberos.Spec.Store
import Kerberos.Lib.Probe

/-!
# Replay caches

The package `rcache`: the caches an acceptor can be given. `Memory` is a map from tags
to times. `File2` is a file of records behind a hash seed, cut into tables of growing
size; a tag is looked for in one pair of neighbouring records of each table, until a
pair has room. Positions in the file are counted in records behind the seed.
-/

namespace Kerberos.RCache

def hashSeedLen : ℕ := 16

def tagLen : ℕ := 12

def recordLen : ℕ := tagLen + 4

def firstTableRecords : ℕ := 1023

def maxFileSize : ℕ := 2 ^ 31 - 1

def normalizeTag (tag : Bytes) : Bytes := tag.take tagLen

/-- `TagFromCiphertext`: the start of the checksum that ends the ciphertext. -/
def tagFromCiphertext (ciphertext : Bytes) (trailerLen : ℕ) : Bytes :=
  normalizeTag (ciphertext.drop (ciphertext.length - trailerLen))

/-- How storing a tag fails. -/
inductive StoreError
  | replay
  | overflow
  deriving DecidableEq

/-! ## `Memory` -/

/-- `Memory.entries`. -/
abbrev Entries := GoMap Bytes ℤ

/-- The entries that are not before `expiry`. -/
def notBefore (expiry : ℤ) (entries : Entries) : Entries :=
  GoMap.keep (fun _ timestamp => !decide (timestamp < expiry)) entries

/-- `Memory.Store`. -/
def memoryStore (entries : Entries) (tag : Bytes) (now skew : ℤ) : Except StoreError Entries :=
  if (entries.lookup tag).isSome then .error .replay
  else .ok ((notBefore (now + durNeg (durAbs skew)) entries).insert tag now)

/-! ## `File2` -/

/-- A record of the file. One with time zero is empty. -/
structure Record where
  tag : Bytes
  timestamp : UInt32
  deriving DecidableEq

/-- What a hole in the file reads as. -/
def Record.empty : Record := ⟨List.replicate tagLen 0, 0⟩

/-- The four words of the hash. -/
structure SipState where
  v0 : UInt64
  v1 : UInt64
  v2 : UInt64
  v3 : UInt64

def bitsRotate (value count : UInt64) : UInt64 := value <<< count ||| value >>> (64 - count)

def SipState.round (s : SipState) : SipState :=
  let v0 := s.v0 + s.v1
  let v1 := bitsRotate s.v1 13 ^^^ v0
  let v0 := bitsRotate v0 32
  let v2 := s.v2 + s.v3
  let v3 := bitsRotate s.v3 16 ^^^ v2
  let v0 := v0 + v3
  let v3 := bitsRotate v3 21 ^^^ v0
  let v2 := v2 + v1
  let v1 := bitsRotate v1 17 ^^^ v2
  let v2 := bitsRotate v2 32
  ⟨v0, v1, v2, v3⟩

/-- `binary.LittleEndian.Uint64`. -/
def littleEndian (bytes : Bytes) : UInt64 :=
  (bytes.take 8).foldr (fun b acc => acc <<< 8 ||| b.toUInt64) 0

def SipState.absorb (s : SipState) (m : UInt64) : SipState :=
  let s := ({ s with v3 := s.v3 ^^^ m } : SipState).round.round
  { s with v0 := s.v0 ^^^ m }

/-- The whole words of the data, and what is left. -/
def SipState.absorbAll : SipState → Bytes → SipState × Bytes
  | s, a :: b :: c :: d :: e :: f :: g :: h :: rest =>
    (s.absorb (littleEndian [a, b, c, d, e, f, g, h])).absorbAll rest
  | s, rest => (s, rest)

def sipHash24 (data seed : Bytes) : UInt64 :=
  let k0 := littleEndian seed
  let k1 := littleEndian (seed.drop 8)
  let s : SipState := ⟨k0 ^^^ 0x736f6d6570736575, k1 ^^^ 0x646f72616e646f6d,
    k0 ^^^ 0x6c7967656e657261, k1 ^^^ 0x7465646279746573⟩
  let (s, rest) := s.absorbAll data
  let last := rest ++ List.replicate (7 - rest.length) 0 ++ [UInt8.ofNat data.length]
  let s := s.absorb (littleEndian last)
  let s := ({ s with v2 := s.v2 ^^^ 0xff } : SipState).round.round.round.round
  s.v0 ^^^ s.v1 ^^^ s.v2 ^^^ s.v3

/-- A table of the file: the position of its first record, and their number. -/
structure Table where
  first : ℕ
  nrecords : ℕ
  deriving DecidableEq

/-- `nextTable`; `none` before the first table, and where the file would grow too
large. -/
def nextTable (table : Option Table) : Option Table :=
  let next : Table :=
    match table with
    | none => ⟨0, firstTableRecords⟩
    | some t =>
      if t.first = 0 then ⟨t.nrecords, (firstTableRecords + 1) * 2⟩
      else ⟨t.first + t.nrecords, t.nrecords * 2⟩
  if maxFileSize / recordLen < next.nrecords ∨
    maxFileSize < hashSeedLen + next.first * recordLen + next.nrecords * recordLen then none
  else some next

/-- The tables from the one behind `table`, `fuel` of them at most. -/
def tablesFrom : ℕ → Option Table → List Table
  | 0, _ => []
  | fuel + 1, table =>
    match nextTable table with
    | none => []
    | some next => next :: tablesFrom fuel (some next)

/-- All the tables a file can have. -/
def tables : List Table := tablesFrom 32 none

example : tables.length = 17 ∧ nextTable tables.getLast? = none := by decide

/-- `seed[0]++`. -/
def bumpSeed : Bytes → Bytes
  | [] => []
  | b :: rest => (b + 1) :: rest

/-- The positions at which `store` looks for a tag, one pair for each table. -/
def probes (tag : Bytes) : List Table → Bytes → List ℕ
  | [], _ => []
  | t :: rest, seed =>
    (t.first + (sipHash24 tag seed).toNat % t.nrecords) :: probes tag rest (bumpSeed seed)

/-- `expired`: the time lies before `now` by more than the skew, on `int32`. -/
def expired (timestamp now skew : UInt32) : Bool := decide (0 < (now - (timestamp + skew)).toInt32)

def readRecords (records : List Record) (position : ℕ) : List Record :=
  (records.drop position).take 2

/-- `writeRecord`: a write behind the end leaves a hole. -/
def writeRecord (records : List Record) (position : ℕ) (record : Record) : List Record :=
  Probe.write Record.empty records position record

/-- The loop over the records of a pair: a replay, or the first position that can be
written so far. -/
def scanRecords (tag : Bytes) (now skew : UInt32) :
    ℕ → List Record → Option ℕ → Except StoreError (Option ℕ)
  | _, [], available => .ok available
  | position, record :: rest, available =>
    if record.timestamp ≠ 0 ∧ record.tag = tag then .error .replay
    else scanRecords tag now skew (position + 1) rest (available.or
      (if record.timestamp = 0 ∨ expired record.timestamp now skew = true then some position
        else none))

/-- The pair is not full: the search ends with it. -/
def hasRoom (pair : List Record) : Bool := decide (pair.length < 2) || pair.any (·.timestamp == 0)

/-- The loop of `store` over the pairs. -/
def storeAt (records : List Record) (tag : Bytes) (now skew : UInt32) :
    List ℕ → Option ℕ → Except StoreError (List Record)
  | [], _ => .error .overflow
  | position :: rest, available =>
    let pair := readRecords records position
    match scanRecords tag now skew position pair available with
    | .error e => .error e
    | .ok slot =>
      let slot := slot.or (if pair.length < 2 then some (position + pair.length) else none)
      if hasRoom pair then
        match slot with
        | none => .error .overflow
        | some k => .ok (writeRecord records k ⟨tag, now⟩)
      else storeAt records tag now skew rest slot

/-- The file of a `File2`: the hash seed, once there is one, and the records. -/
structure File where
  seed : Option Bytes
  records : List Record

/-- `uint32(t.Unix())`. -/
def unix32 (t : ℤ) : UInt32 := UInt32.ofNat (t / second % 2 ^ 32).toNat

/-- The skew in whole seconds. -/
def skew32 (skew : ℤ) : UInt32 :=
  if 0 < skew then UInt32.ofNat (skew / second % 2 ^ 32).toNat else 0

/-- The tag in the twelve bytes a record has for it. -/
def recordTag (tag : Bytes) : Bytes := tag.take tagLen ++ List.replicate (tagLen - tag.length) 0

/-- `File2.Store`; `random` is the seed a new file gets. -/
def fileStore (random : Bytes) (file : File) (tag : Bytes) (now skew : ℤ) :
    Except StoreError Unit × File :=
  let seed := file.seed.getD random
  match storeAt file.records (recordTag tag) (unix32 now) (skew32 skew)
    (probes (recordTag tag) tables seed) none with
  | .error e => (.error e, { file with seed })
  | .ok records => (.ok (), ⟨seed, records⟩)

/-! ## The caches -/

/-- A `Cache`. -/
inductive Cache
  | memory (entries : Entries)
  | file2 (file : File)

/-- `Cache.Store`. -/
def Cache.store (random : Bytes) (cache : Cache) (tag : Bytes) (now skew : ℤ) :
    Except StoreError Unit × Cache :=
  match cache with
  | .memory entries =>
    match memoryStore entries tag now skew with
    | .error e => (.error e, cache)
    | .ok entries => (.ok (), .memory entries)
  | .file2 file =>
    let (out, file) := fileStore random file tag now skew
    (out, .file2 file)

end Kerberos.RCache
