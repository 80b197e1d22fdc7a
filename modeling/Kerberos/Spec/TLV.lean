import Kerberos.Lib.Calendar
import Kerberos.Lib.Except
import Kerberos.Lib.Words
import Kerberos.Spec.Protocol

/-!
# Elements and scalars of the Kerberos ASN.1 codec

`krb5/asn1` reads and writes elements of one tag octet, a length and the content. Integers are
`int64` and `uint64` in the code; `decodeInteger` gives the number, which fits. The
GeneralizedTime, the flags and the object identifiers are those of `krb5/types`.
-/

namespace Kerberos.ASN1

open Words

/-! ## Elements -/

/-- The length and the octets it takes. -/
def readLength : Bytes → Except String (ℕ × ℕ)
  | [] => .error "truncated length"
  | first :: rest =>
    if first &&& 0x80 = 0 then .ok (first.toNat, 1)
    else
      let count := (first &&& 0x7f).toNat
      if count = 0 then .error "indefinite length is forbidden"
      else if count > 4 ∨ rest.length < count ∨ rest.head? = some 0 then .error "invalid DER length"
      else if ofBE (rest.take count) < 128 then .error "non-minimal DER length"
      else .ok (ofBE (rest.take count), count + 1)

/-- An element at the front of a byte string; `size` counts all its octets (`end` in the code). -/
structure Element where
  tag : UInt8
  content : Bytes
  size : ℕ

def readTLV : Bytes → Except String Element
  | tag :: next :: rest => do
    let (length, header) ← readLength (next :: rest)
    if length > (tag :: next :: rest).length - header - 1 then
      .error "length exceeds remaining input"
    else .ok ⟨tag, ((next :: rest).drop header).take length, 1 + header + length⟩
  | _ => .error "truncated TLV"

def encodeLength (length : ℕ) : Bytes :=
  if length < 128 then [UInt8.ofNat length]
  else (0x80 ||| UInt8.ofNat (octetsBE length).length) :: octetsBE length

def encodeTLV (tag : UInt8) (content : Bytes) : Bytes :=
  tag :: (encodeLength content.length ++ content)

/-- An element that is the whole of a byte string. -/
def readWhole (data : Bytes) (err : String) : Except String Element := do
  let e ← readTLV data
  Except.ensure (e.size = data.length) err
  .ok e

/-! ## Integers -/

def isNegative (b : UInt8) : Bool := b &&& 0x80 ≠ 0

/-- The first octet says no more than the sign bit of the second. -/
def redundant (a b : UInt8) : Bool := (a == 0 && !isNegative b) || (a == 0xff && isNegative b)

/-- The loop over leading octets of `encodeInteger` and `decodeImplicitInteger`. -/
def dropRedundant : Bytes → Bytes
  | a :: b :: rest => if redundant a b then dropRedundant (b :: rest) else a :: b :: rest
  | data => data

def encodeInteger (value : ℤ) : Bytes := dropRedundant (beBytes 8 (value % 2 ^ 64).toNat)

def dropZeros : Bytes → Bytes
  | a :: b :: rest => if a == 0 then dropZeros (b :: rest) else a :: b :: rest
  | data => data

def encodeUnsignedInteger (value : ℕ) : Bytes :=
  let data := dropZeros (beBytes 8 value)
  if isNegative (data.headD 0) then 0 :: data else data

/-- The number in two's complement. -/
def signedValue (data : Bytes) : ℤ :=
  if isNegative (data.headD 0) then (ofBE data : ℤ) - 256 ^ data.length else ofBE data

def minimal : Bytes → Bool
  | a :: b :: _ => !redundant a b
  | _ => true

def decodeInteger (data : Bytes) : Except String ℤ := do
  Except.ensure (data ≠ [] ∧ data.length ≤ 8) "invalid INTEGER length"
  Except.ensure (minimal data) "non-minimal INTEGER"
  .ok (signedValue data)

def decodeUnsignedInteger (data : Bytes) : Except String ℕ := do
  Except.ensure (data ≠ [] ∧ data.length ≤ 9) "invalid unsigned INTEGER length"
  Except.ensure (¬ (data.length > 1 ∧ data.head? = some 0 ∧ !isNegative (data.tail.headD 0)))
    "non-minimal INTEGER"
  Except.ensure (!isNegative (data.headD 0)) "negative unsigned INTEGER"
  Except.ensure (¬ (data.length > 5 ∨ data.length = 5 ∧ data.head? ≠ some 0))
    "unsigned INTEGER overflow"
  .ok (ofBE data)

/-! ## Flags, times and object identifiers -/

/-- `flagsToBytes` and `bytesToFlags`: bit `i` changes places with bit `31 - i`. -/
def swapFlags (flags : Flags) : Flags := flags.reverse

/-- The content octets of `EncodeFlags`. -/
def encodeFlags (flags : Flags) : Bytes := 0 :: beBytes 4 (swapFlags flags).toNat

def decodeFlags (content : Bytes) : Except String Flags := do
  Except.ensure (content.length = 5 ∧ content.head? = some 0)
    "decode KerberosFlags: invalid DER BIT STRING"
  .ok (swapFlags (BitVec.ofNat 32 (ofBE content.tail)))

/-- `types.KerberosTime`. -/
structure KerberosTime where
  time : Calendar.DateTime
  microseconds : Int32
  present : Bool
  deriving DecidableEq

def KerberosTime.zero : KerberosTime := ⟨Calendar.DateTime.first, 0, false⟩

def encodeGeneralizedTime (t : KerberosTime) : Bytes :=
  if t.present then Calendar.format t.time.1 else []

def parseKerberosTime (value : Bytes) : Except String KerberosTime :=
  match Calendar.parse value with
  | some time => .ok ⟨time, 0, true⟩
  | none => .error "parse GeneralizedTime"

/-- Each subidentifier begins without padding, and the last one ends. -/
def validOctets (first : Bool) : Bytes → Bool
  | [] => first
  | octet :: rest => !(first && octet == 0x80) && validOctets (!isNegative octet) rest

def validObjectIdentifierContent (content : Bytes) : Bool :=
  content ≠ [] && validOctets true content

end Kerberos.ASN1
