import Kerberos.Lib.Words
import Kerberos.Spec.Principal

/-!
# The DER of the PKINIT package

`krb5/pkinit` builds and reads its messages with a few functions of its own: the
constructors `der`, `derSeq`, `derOctet`, …, and the readers `tlv`, `sequenceFields`,
`collectionFields`, which take a byte string apart into tag, length and content.
-/

namespace Kerberos.PKINIT

/-! ## Building -/

def derLen (n : ℕ) : Bytes :=
  if n < 128 then [UInt8.ofNat n]
  else
    let b := Words.octetsBE n
    UInt8.ofNat (128 + b.length) :: b

def der (tag : UInt8) (content : Bytes) : Bytes := tag :: (derLen content.length ++ content)

def derSeq (v : List Bytes) : Bytes := der 0x30 v.flatten

def derSet (v : List Bytes) : Bytes := der 0x31 v.flatten

def derSetContent (v : Bytes) : Bytes := der 0x31 v

def derExplicit (tag : UInt8) (v : Bytes) : Bytes := der (0xa0 ||| tag) v

def derOctet (v : Bytes) : Bytes := der 0x04 v

def derNull : Bytes := [0x05, 0x00]

/-- `derIntBig`, for a number that is not negative. -/
def derInt (v : ℕ) : Bytes :=
  let b := if v = 0 then [0] else Words.octetsBE v
  der 0x02 (if b.headD 0 &&& 0x80 ≠ 0 then 0 :: b else b)

/-- An object identifier, by its content octets. -/
abbrev OID := Bytes

def derOID (oid : OID) : Bytes := der 0x06 oid

/-! ## Reading -/

/-- The largest `int`. -/
def maxInt : ℕ := 2 ^ 63 - 1

/-- A length in several octets, while it fits an `int`. -/
def lengthOctets (octets : Bytes) : Option ℕ :=
  octets.foldlM (fun length b =>
    if length > (maxInt - b.toNat) / 256 then none else some (length * 256 + b.toNat)) 0

/-- An element at the head of a byte string; `size` counts its header too. -/
structure TLV where
  tag : UInt8
  content : Bytes
  size : ℕ

/-- The octets behind the first of a length, and the length. -/
def derLength (l : UInt8) (rest : Bytes) : Except String (ℕ × ℕ) :=
  if l.toNat < 128 then .ok (0, l.toNat)
  else if l.toNat = 128 ∨ rest.length < l.toNat - 128 then .error "bad DER length"
  else
    match lengthOctets (rest.take (l.toNat - 128)) with
    | none => .error "bad DER length"
    | some length => .ok (l.toNat - 128, length)

/-- The common reading of `tlv` and `readTLVLen`. -/
def readTLV : Bytes → Except String TLV
  | tag :: l :: rest => do
    let (k, length) ← derLength l rest
    if rest.length - k < length then .error "truncated DER"
    else .ok ⟨tag, (rest.drop k).take length, 2 + k + length⟩
  | _ => .error "short DER"

def tlv (data : Bytes) : Except String (UInt8 × Bytes) :=
  (readTLV data).map fun t => (t.tag, t.content)

def tlvContent (data : Bytes) : Except String Bytes := (readTLV data).map (·.content)

/-- `readTLVLen`: the size of the element, zero if there is none. -/
def readTLVLen (data : Bytes) : ℕ :=
  match readTLV data with
  | .ok t => t.size
  | .error _ => 0

/-- The loop of `collectionFields`. An element has two bytes at least, so the length of
the content is fuel enough (`collect_eq`). -/
def collect : ℕ → Bytes → Except String (List Bytes)
  | _, [] => .ok []
  | 0, _ :: _ => .error "short DER"
  | fuel + 1, v@(_ :: _) => do
    let _ ← tlv v
    let n := readTLVLen v
    let rest ← collect fuel (v.drop n)
    .ok (v.take n :: rest)

def collectionFields (data : Bytes) : Except String (List Bytes) := do
  let v ← tlvContent data
  collect v.length v

def sequenceFields (data : Bytes) : Except String (List Bytes) := do
  let (tag, _) ← tlv data
  if tag ≠ 0x30 then .error "expected sequence" else collectionFields data

def mustContent (v : Bytes) : Bytes :=
  match tlvContent v with
  | .ok x => x
  | .error _ => []

/-- `big.Int.SetBytes`. -/
def setBytes (x : Bytes) : ℕ := x.foldl (fun n b => n * 256 + b.toNat) 0

def parseInteger (v : Bytes) : Except String ℕ := do
  let x ← tlvContent v
  if x = [] then .error "empty integer" else .ok (setBytes x)

def parseExplicitInteger (v : Bytes) : Except String ℕ := do
  let inner ← tlvContent v
  parseInteger inner

def requireSingleTLV (data : Bytes) : Except String Unit := do
  let _ ← tlv data
  if readTLVLen data ≠ data.length then .error "pkinit: trailing DER data" else .ok ()

end Kerberos.PKINIT
