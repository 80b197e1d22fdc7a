import Kerberos.Spec.Messages

/-!
# Elements by their path

`Field` and `FieldContent` of `krb5/asn1` walk down the raw octets of a message by tag numbers,
without its type. The KDC takes the octets that a checksum covers in this way, from the same message
it has decoded.
-/

namespace Kerberos.ASN1

/-- `matchesTag`: the number of an application or of a context element. -/
def matchesTag (tag tagNumber : UInt8) : Bool :=
  tag == 0x60 ||| tagNumber || tag == 0xa0 ||| tagNumber

/-- The loop of `findChild`. An element has two octets at least, so the length of the data is fuel
enough. -/
def findChildLoop (tagNumber : UInt8) : ℕ → Bytes → Except String (Option Bytes)
  | _, [] => .ok none
  | 0, _ :: _ => .error "truncated TLV"
  | fuel + 1, data@(_ :: _) => do
    let e ← readTLV data
    if matchesTag e.tag tagNumber then .ok (some (data.take e.size))
    else findChildLoop tagNumber fuel (data.drop e.size)

/-- `findChild`: the first element with the number. -/
def findChild (data : Bytes) (tagNumber : UInt8) : Except String (Option Bytes) :=
  findChildLoop tagNumber data.length data

/-- The loop of `Field`, over the numbers not yet used. -/
def walk (atStart : Bool) (current : Bytes) : List UInt8 → Except String Bytes
  | [] => .error "unreachable"
  | tagNumber :: path => do
    let e ← Except.within "read kerberos ASN.1 field: " (readTLV current)
    Except.ensure (e.size = current.length) "read kerberos ASN.1 field: trailing data"
    if atStart && matchesTag e.tag tagNumber then
      if path = [] then .ok current else walk false e.content path
    else do
      let found ← Except.within "read kerberos ASN.1 field: " (findChild e.content tagNumber)
      match found with
      | none => .error "read kerberos ASN.1 field: tag not found"
      | some found => if path = [] then .ok found else walk false found path

def field (data : Bytes) (path : List ℤ) : Except String Bytes := do
  Except.ensure (path ≠ []) "read kerberos ASN.1 field: empty path"
  Except.ensure (∀ tag ∈ path, 0 ≤ tag ∧ tag ≤ 30) "read kerberos ASN.1 field: tag out of range"
  walk true data (path.map fun tag => UInt8.ofNat tag.toNat)

def fieldContent (data : Bytes) (path : List ℤ) : Except String Bytes := do
  let element ← field data path
  let e ← Except.within "read kerberos ASN.1 field contents: " (readTLV element)
  Except.ensure (e.size = element.length) "read kerberos ASN.1 field contents: trailing data"
  .ok e.content

end Kerberos.ASN1
