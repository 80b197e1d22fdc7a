import Kerberos.Lib.Except
import Kerberos.Spec.GSS

/-!
# The frames of context tokens

A context token of RFC 2743 is a tag, the length of what follows, the object identifier of the
mechanism, and the token of the mechanism behind two octets of its own. `unframeToken` of the
package `gssapi` is modelled in `Spec/GSS` as its callers see it. Here every slice of a buffer is
taken with its bounds: a slice that ends behind the buffer is `Fault.outside`, which is a panic of
the process, or a read of what the buffer's memory holds behind the token.
-/

namespace Kerberos.GSS

/-- What ends the reading of a token. -/
inductive Fault
  | error (text : String)
  | outside
  deriving DecidableEq

/-- `data[:n]`. -/
def sliceTo (data : Bytes) (n : ℕ) : Except Fault Bytes := do
  Except.ensure (n ≤ data.length) Fault.outside
  .ok (data.take n)

/-- `data[n:]`. -/
def sliceFrom (data : Bytes) (n : ℕ) : Except Fault Bytes := do
  Except.ensure (n ≤ data.length) Fault.outside
  .ok (data.drop n)

def kerberosOldOID : Bytes := [0x06, 0x09, 0x2a, 0x86, 0x48, 0x82, 0xf7, 0x12, 0x01, 0x02, 0x02]

/-- `derLengthValue`, with the bounds of the octets it reads. -/
def readLengthValue (data : Bytes) : Except Fault ℕ :=
  match data with
  | [] => .error .outside
  | b :: rest =>
    if b < 128 then .ok b.toNat
    else do
      let octets ← sliceTo rest (b &&& 0x7f).toNat
      .ok (Words.ofBE octets)

/-- The first of the mechanisms the content starts with. -/
def mechanismOf (oids : List Bytes) (content : Bytes) : Option Bytes := oids.find? (· <+: content)

def unframeTokenWithOIDs (token tokenID : Bytes) (oids : List Bytes) : Except Fault Bytes := do
  Except.ensure (2 + tokenID.length ≤ token.length ∧ token.head? = some 0x60)
    (Fault.error "GSS token: invalid framing")
  -- the token has two octets, so the length is not the one "GSS token: truncated length" is about
  let offset ← Except.ofOption (Fault.error "GSS token: invalid length") (derLength token.tail)
  let contentStart := 1 + offset
  Except.ensure (contentStart ≤ token.length ∧ tokenID.length ≤ token.length - contentStart)
    (Fault.error "GSS token: invalid framing")
  let length ← readLengthValue token.tail
  Except.ensure (token.length - contentStart = length) (Fault.error "GSS token: invalid framing")
  let content ← sliceFrom token contentStart
  -- a mechanism of no octets is taken for none
  let oid := (mechanismOf oids content).getD []
  Except.ensure (oid ≠ []) (Fault.error "GSS token: unexpected mechanism")
  let content ← sliceFrom content oid.length
  let id ← sliceTo content tokenID.length
  Except.ensure (id = tokenID) (Fault.error "GSS token: unexpected token id")
  sliceFrom content tokenID.length

def unframeTokenAnyOID (token tokenID : Bytes) : Except Fault Bytes :=
  unframeTokenWithOIDs token tokenID [kerberosOID, kerberosOldOID]

end Kerberos.GSS
