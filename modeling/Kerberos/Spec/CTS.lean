import Kerberos.Lib.BlockCipher
import Kerberos.Lib.Except
import Kerberos.Spec.Protocol

/-!
# Chaining with ciphertext stealing

`Encrypt` and `Decrypt` of the package `cts`. Whole blocks are chained; the last two blocks are
swapped, and a last block that is not whole borrows the end of the ciphertext of the block before
it. Both functions return the IV of the next message with their output.
-/

namespace Kerberos.CTS

/-- The errors of the package. -/
inductive Error
  | invalidIV
  | shortInput
  deriving DecidableEq

/-- `data[start:stop]`. -/
def slice (data : Bytes) (start stop : ℕ) : Bytes := (data.take stop).drop start

/-- Bytes in a buffer of `n` zeros. -/
def padded (n : ℕ) (data : Bytes) : Bytes := data ++ List.replicate (n - data.length) 0

def encrypt (block : BlockCipher) (iv plaintext : Bytes) : Except Error (Bytes × Bytes) := do
  let bs := block.size
  Except.ensure (iv.length = bs) Error.invalidIV
  Except.ensure (bs ≤ plaintext.length) Error.shortInput
  if plaintext.length = bs then
    let out := block.encryptNext iv plaintext
    .ok (out, out)
  else if plaintext.length % bs = 0 then
    let out := (block.chainEncrypt (plaintext.length / bs) iv plaintext).1
    let last := out.length - bs
    let previousOffset := last - bs
    let swapped := slice out previousOffset last
    let out := out.take previousOffset ++ out.drop last ++ swapped
    .ok (out, slice out (out.length - 2 * bs) (out.length - bs))
  else
    let fullBlocks := plaintext.length / bs
    let remainder := plaintext.length % bs
    let (out, previous) := block.chainEncrypt (fullBlocks - 1) iv plaintext
    let penultimate := slice plaintext ((fullBlocks - 1) * bs) (fullBlocks * bs)
    let last := plaintext.drop (fullBlocks * bs)
    let x := block.encryptNext previous penultimate
    let y := block.encrypt (xorBytes (padded bs last) x)
    let out := out ++ y ++ x.take remainder
    let nextOffset := out.length - remainder - bs
    .ok (out, slice out nextOffset (nextOffset + bs))

def decrypt (block : BlockCipher) (iv ciphertext : Bytes) : Except Error (Bytes × Bytes) := do
  let bs := block.size
  Except.ensure (iv.length = bs) Error.invalidIV
  Except.ensure (bs ≤ ciphertext.length) Error.shortInput
  if ciphertext.length = bs then .ok (block.decryptNext iv ciphertext, ciphertext)
  else
    let fullBlocks := ciphertext.length / bs
    let remainder := ciphertext.length % bs
    let previousBlocks := if remainder ≠ 0 then fullBlocks - 1 else fullBlocks - 2
    let (out, previous) := block.chainDecrypt previousBlocks iv ciphertext
    let yBlock := if remainder ≠ 0 then fullBlocks - 1 else fullBlocks - 2
    let yOffset := yBlock * bs
    let y := slice ciphertext yOffset (yOffset + bs)
    let xPart := ciphertext.drop (yOffset + bs)
    let dy := block.decrypt y
    if remainder = 0 then
      let plainLast := xorBytes dy xPart
      let plainPenultimate := block.decryptNext previous xPart
      .ok (out ++ plainPenultimate ++ plainLast,
        slice ciphertext (ciphertext.length - 2 * bs) (ciphertext.length - bs))
    else
      let x := xPart ++ dy.drop remainder
      let plainLast := xorBytes (dy.take remainder) (x.take remainder)
      let plainPenultimate := block.decryptNext previous x
      let nextOffset := ciphertext.length - remainder - bs
      .ok (out ++ plainPenultimate ++ plainLast, slice ciphertext nextOffset (nextOffset + bs))

/-- Messages one after the other, each under the IV that the one before it returned. -/
def encryptAll (block : BlockCipher) : Bytes → List Bytes → Except Error (List Bytes × Bytes)
  | iv, [] => .ok ([], iv)
  | iv, message :: rest => do
    let (out, next) ← encrypt block iv message
    let (outs, last) ← encryptAll block next rest
    .ok (out :: outs, last)

def decryptAll (block : BlockCipher) : Bytes → List Bytes → Except Error (List Bytes × Bytes)
  | iv, [] => .ok ([], iv)
  | iv, message :: rest => do
    let (out, next) ← decrypt block iv message
    let (outs, last) ← decryptAll block next rest
    .ok (out :: outs, last)

end Kerberos.CTS
