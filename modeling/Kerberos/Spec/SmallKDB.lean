import Kerberos.Spec.Load
import Mathlib.Data.UInt

/-!
# A registry small enough to evaluate

Keys of one byte, and ciphertexts that carry the enctype and the key in front of the
plaintext, so that they open under nothing else. A password's key is the sum of its bytes.
-/

namespace Kerberos.Small

/-- The byte that marks the ciphertexts of an enctype. -/
def tag (e : Int32) : UInt8 := UInt8.ofNat e.toInt.toNat

def etype (e : Int32) : EType where
  id := e
  keySize := 1
  checksumSize := 1
  encrypt k _ p := if k.length = 1 then some (tag e :: k ++ p) else none
  decrypt k _ c :=
    match c with
    | t :: b :: p => if t = tag e ∧ k = [b] then some p else none
    | _ => none
  checksum _ _ _ := some [0]
  verifyChecksum _ _ _ _ := true

/-- The packages around the database. -/
def env : KDB.Env where
  etype e := if 0 ≤ e.toInt ∧ e.toInt < 128 then some (etype e) else none
  stringToKey _ password _ := some [password.sum]
  keyOrder l := l
  keyOrder_perm l := List.Perm.refl l

def realm : Bytes := str "R"

/-- The principal `c` of the realm. -/
def client : Principal := ⟨realm, NTPrincipal, [str "c"]⟩

/-- A key of enctype 18. -/
def key (kvno : UInt32) (b : UInt8) : Key := ⟨18, kvno, [b], []⟩

end Kerberos.Small
