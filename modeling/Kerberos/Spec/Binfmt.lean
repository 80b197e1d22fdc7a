import Kerberos.Lib.Codec
import Kerberos.Lib.Words
import Kerberos.Spec.Protocol

/-!
# Big-endian fields

The package `internal/binfmt`, which the readers and writers of the file formats share. What
`binary.Write` writes of a word is `Words.beBytes`.
-/

namespace Kerberos.Binfmt

abbrev BinReader (α : Type) := Reader UInt8 String α

/-- `Reader.Bytes`. -/
def bytes (n : ℕ) : BinReader Bytes := Reader.take n "truncated field"

def u8 : BinReader UInt8 := do
  let value ← bytes 1
  pure (UInt8.ofNat (Words.ofBE value))

def u16 : BinReader UInt16 := do
  let value ← bytes 2
  pure (UInt16.ofNat (Words.ofBE value))

def u32 : BinReader UInt32 := do
  let value ← bytes 4
  pure (UInt32.ofNat (Words.ofBE value))

def counted16 : BinReader Bytes := do
  let length ← u16
  bytes length.toNat

def counted32 : BinReader Bytes := do
  let length ← u32
  let remaining ← get
  Reader.check (length.toNat ≤ remaining.length) "truncated counted field"
  bytes length.toNat

def writeCounted16 (value : Bytes) : Except String Bytes := do
  Except.ensure (value.length < 2 ^ 16) "field is too long"
  .ok (Words.beBytes 2 value.length ++ value)

def writeCounted32 (value : Bytes) : Except String Bytes := do
  Except.ensure (value.length < 2 ^ 32) "field is too long"
  .ok (Words.beBytes 4 value.length ++ value)

end Kerberos.Binfmt
