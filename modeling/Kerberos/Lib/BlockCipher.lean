import Mathlib.Tactic
import Mathlib.Data.FinEnum
import Mathlib.Data.Fintype.Vector

/-!
# Block ciphers and chained blocks

A block cipher permutes the byte strings of one length: that one direction undoes the other is
enough, there are finitely many blocks (`encrypt_decrypt`). In cipher block chaining each block is
combined with the ciphertext of the block before it. `chainEncrypt` and `chainDecrypt` work on a
number of whole blocks at the front of their input and return the last ciphertext block with the
output; either undoes the other (`chainDecrypt_encrypt`, `chainEncrypt_decrypt`).
-/

/-- The bytes of `a` and `b` combined one by one. -/
def xorBytes (a b : List UInt8) : List UInt8 := List.zipWith (· ^^^ ·) a b

@[simp]
theorem length_xorBytes (a b : List UInt8) : (xorBytes a b).length = min a.length b.length :=
  List.length_zipWith

theorem xorBytes_append {a b : List UInt8} (h : a.length = b.length) (c d : List UInt8) :
    xorBytes (a ++ c) (b ++ d) = xorBytes a b ++ xorBytes c d := by
  exact List.zipWith_append h

/-- Combining twice with the same bytes gives the first bytes again. -/
theorem xorBytes_cancel {a b : List UInt8} (h : a.length ≤ b.length) :
    xorBytes (xorBytes a b) b = a := by
  induction a generalizing b with
  | nil => rfl
  | cons x a ih =>
    cases b with
    | nil => cases h
    | cons y b =>
      have htail : a.length ≤ b.length := Nat.le_of_succ_le_succ h
      change (x ^^^ y ^^^ y) :: xorBytes (xorBytes a b) b = x :: a
      rw [ih htail, UInt8.xor_assoc, UInt8.xor_self, UInt8.xor_zero]

theorem xorBytes_replicate_zero (b : List UInt8) : xorBytes (List.replicate b.length 0) b = b := by
  induction b with
  | nil => rfl
  | cons y b ih =>
    change (0 ^^^ y) :: xorBytes (List.replicate b.length 0) b = y :: b
    rw [ih, UInt8.zero_xor]

/-- A cipher on blocks of `size` bytes. -/
structure BlockCipher where
  size : ℕ
  size_pos : 0 < size
  encrypt : List UInt8 → List UInt8
  decrypt : List UInt8 → List UInt8
  length_encrypt : ∀ b, b.length = size → (encrypt b).length = size
  decrypt_encrypt : ∀ b, b.length = size → decrypt (encrypt b) = b

namespace BlockCipher

open List Nat

variable (c : BlockCipher)

/-- Every block is the ciphertext of one. -/
theorem exists_encrypt {b : List UInt8} (hb : b.length = c.size) :
    ∃ a, a.length = c.size ∧ c.encrypt a = b := by
  let f : List.Vector UInt8 c.size → List.Vector UInt8 c.size :=
    fun a => ⟨c.encrypt a.1, c.length_encrypt a.1 a.2⟩
  have hinj : Function.Injective f := by
    intro a a' heq
    have hval : c.encrypt a.1 = c.encrypt a'.1 := congrArg Subtype.val heq
    apply Subtype.ext
    rw [← c.decrypt_encrypt a.1 a.2, hval, c.decrypt_encrypt a'.1 a'.2]
  obtain ⟨a, ha⟩ := Finite.surjective_of_injective hinj ⟨b, hb⟩
  exact ⟨a.1, a.2, congrArg Subtype.val ha⟩

theorem encrypt_decrypt {b : List UInt8} (hb : b.length = c.size) :
    c.encrypt (c.decrypt b) = b := by
  obtain ⟨a, ha, rfl⟩ := c.exists_encrypt hb
  rw [c.decrypt_encrypt a ha]

theorem length_decrypt {b : List UInt8} (hb : b.length = c.size) :
    (c.decrypt b).length = c.size := by
  obtain ⟨a, ha, rfl⟩ := c.exists_encrypt hb
  rw [c.decrypt_encrypt a ha]
  exact ha

/-! ## One block -/

/-- One block of the chain, from the ciphertext block before it. -/
def encryptNext (previous plain : List UInt8) : List UInt8 := c.encrypt (xorBytes plain previous)

def decryptNext (previous cipher : List UInt8) : List UInt8 := xorBytes (c.decrypt cipher) previous

variable {c} {previous b : List UInt8}

theorem length_encryptNext (hp : previous.length = c.size) (hb : b.length = c.size) :
    (c.encryptNext previous b).length = c.size := by
  apply c.length_encrypt
  rw [length_xorBytes, hp, hb, min_self]

theorem length_decryptNext (hp : previous.length = c.size) (hb : b.length = c.size) :
    (c.decryptNext previous b).length = c.size := by
  rw [decryptNext, length_xorBytes, hp, c.length_decrypt hb, min_self]

theorem decryptNext_encryptNext (hp : previous.length = c.size) (hb : b.length = c.size) :
    c.decryptNext previous (c.encryptNext previous b) = b := by
  have hlen : (xorBytes b previous).length = c.size := by rw [length_xorBytes, hp, hb, min_self]
  rw [decryptNext, encryptNext, c.decrypt_encrypt _ hlen, xorBytes_cancel (by rw [hp, hb])]

theorem encryptNext_decryptNext (hp : previous.length = c.size) (hb : b.length = c.size) :
    c.encryptNext previous (c.decryptNext previous b) = b := by
  rw [decryptNext, encryptNext, xorBytes_cancel (by rw [hp, c.length_decrypt hb]),
    c.encrypt_decrypt hb]

/-! ## Chains -/

variable (c)

/-- The first `n` blocks of `data` encrypted, and the last ciphertext block. -/
def chainEncrypt : ℕ → List UInt8 → List UInt8 → List UInt8 × List UInt8
  | 0, previous, _ => ([], previous)
  | n + 1, previous, data =>
    let encrypted := c.encryptNext previous (data.take c.size)
    let rest := chainEncrypt n encrypted (data.drop c.size)
    (encrypted ++ rest.1, rest.2)

def chainDecrypt : ℕ → List UInt8 → List UInt8 → List UInt8 × List UInt8
  | 0, previous, _ => ([], previous)
  | n + 1, previous, data =>
    let plain := c.decryptNext previous (data.take c.size)
    let rest := chainDecrypt n (data.take c.size) (data.drop c.size)
    (plain ++ rest.1, rest.2)

variable {c} {n : ℕ} {data : List UInt8}

/-- The block at the front. -/
theorem exists_block (h : (n + 1) * c.size = data.length) :
    ∃ block rest, data = block ++ rest ∧ block.length = c.size ∧ n * c.size = rest.length := by
  rw [succ_mul] at h
  refine ⟨data.take c.size, data.drop c.size, (take_append_drop ..).symm, ?_, ?_⟩
  · rw [length_take]
    omega
  · rw [length_drop]
    omega

theorem length_chainEncrypt (hp : previous.length = c.size) (h : n * c.size = data.length) :
    (c.chainEncrypt n previous data).1.length = n * c.size ∧
      (c.chainEncrypt n previous data).2.length = c.size := by
  induction n generalizing previous data with
  | zero => exact ⟨(zero_mul _).symm, hp⟩
  | succ n ih =>
    obtain ⟨block, rest, rfl, hblock, hrest⟩ := exists_block h
    have hnext := length_encryptNext hp hblock
    obtain ⟨hout, hlast⟩ := ih hnext hrest
    simp only [chainEncrypt, take_left' hblock, drop_left' hblock, length_append, hnext, hout]
    exact ⟨by rw [succ_mul, add_comm], hlast⟩

theorem length_chainDecrypt (hp : previous.length = c.size) (h : n * c.size = data.length) :
    (c.chainDecrypt n previous data).1.length = n * c.size ∧
      (c.chainDecrypt n previous data).2.length = c.size := by
  induction n generalizing previous data with
  | zero => exact ⟨(zero_mul _).symm, hp⟩
  | succ n ih =>
    obtain ⟨block, rest, rfl, hblock, hrest⟩ := exists_block h
    obtain ⟨hout, hlast⟩ := ih hblock hrest
    simp only [chainDecrypt, take_left' hblock, drop_left' hblock, length_append,
      length_decryptNext hp hblock, hout]
    exact ⟨by rw [succ_mul, add_comm], hlast⟩

/-- Only the blocks at the front count. -/
theorem chainEncrypt_append (hp : previous.length = c.size) (h : n * c.size = data.length)
    (rest : List UInt8) :
    c.chainEncrypt n previous (data ++ rest) = c.chainEncrypt n previous data := by
  induction n generalizing previous data with
  | zero => rfl
  | succ n ih =>
    obtain ⟨block, data, rfl, hblock, hdata⟩ := exists_block h
    simp only [chainEncrypt, append_assoc, take_left' hblock, drop_left' hblock,
      ih (length_encryptNext hp hblock) hdata]

theorem chainDecrypt_append (h : n * c.size = data.length) (rest : List UInt8) :
    c.chainDecrypt n previous (data ++ rest) = c.chainDecrypt n previous data := by
  induction n generalizing previous data with
  | zero => rfl
  | succ n ih =>
    obtain ⟨block, data, rfl, hblock, hdata⟩ := exists_block h
    simp only [chainDecrypt, append_assoc, take_left' hblock, drop_left' hblock, ih hdata]

theorem eq_nil_of_zero (h : 0 * c.size = data.length) : data = [] := by
  rw [zero_mul] at h
  exact length_eq_zero_iff.1 h.symm

/-- A chain in two parts. -/
theorem chainEncrypt_add {m : ℕ} (hp : previous.length = c.size) (h : n * c.size = data.length)
    (rest : List UInt8) :
    (c.chainEncrypt (n + m) previous (data ++ rest)).1 = (c.chainEncrypt n previous data).1 ++
      (c.chainEncrypt m (c.chainEncrypt n previous data).2 rest).1 := by
  induction n generalizing previous data with
  | zero =>
    rw [eq_nil_of_zero h, zero_add]
    rfl
  | succ n ih =>
    obtain ⟨block, data, rfl, hblock, hdata⟩ := exists_block h
    rw [succ_add]
    simp only [chainEncrypt, append_assoc, take_left' hblock, drop_left' hblock,
      ih (length_encryptNext hp hblock) hdata]

/-- A chain is undone, and both directions end at the same ciphertext block. -/
theorem chainDecrypt_encrypt (hp : previous.length = c.size) (h : n * c.size = data.length) :
    c.chainDecrypt n previous (c.chainEncrypt n previous data).1 =
      (data, (c.chainEncrypt n previous data).2) := by
  induction n generalizing previous data with
  | zero =>
    rw [eq_nil_of_zero h]
    rfl
  | succ n ih =>
    obtain ⟨block, data, rfl, hblock, hdata⟩ := exists_block h
    have hnext := length_encryptNext hp hblock
    simp only [chainEncrypt, chainDecrypt, take_left' hblock, drop_left' hblock, take_left' hnext,
      drop_left' hnext, ih hnext hdata, decryptNext_encryptNext hp hblock]

theorem chainEncrypt_decrypt (hp : previous.length = c.size) (h : n * c.size = data.length) :
    c.chainEncrypt n previous (c.chainDecrypt n previous data).1 =
      (data, (c.chainDecrypt n previous data).2) := by
  induction n generalizing previous data with
  | zero =>
    rw [eq_nil_of_zero h]
    rfl
  | succ n ih =>
    obtain ⟨block, data, rfl, hblock, hdata⟩ := exists_block h
    have hnext := length_decryptNext hp hblock
    simp only [chainEncrypt, chainDecrypt, take_left' hblock, drop_left' hblock, take_left' hnext,
      drop_left' hnext, encryptNext_decryptNext hp hblock, ih hblock hdata]

end BlockCipher
