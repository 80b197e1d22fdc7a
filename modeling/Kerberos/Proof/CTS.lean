import Kerberos.Spec.CTS

/-!
# Ciphertext stealing is a bijection

A message longer than a block is cut into whole blocks, one more whole block, and a tail of at most
a block (`Cut`). On such a message the two cases of the code, a whole last block with the blocks
swapped and a part of one with stolen ciphertext, are one: the ciphertext ends in the last block's
ciphertext and as much of the ciphertext before it as the tail is long (`encrypt_cut`,
`decrypt_cut`). Read so, either direction undoes the other.

* `cts_bijection`: **both directions, the lengths, the IV that is returned**, and messages under
  chained IVs.
-/

namespace Kerberos.CTS

open List Except BlockCipher

variable {block : BlockCipher}

/-! ## Slices -/

theorem slice_between (a b c : Bytes) : slice (a ++ b ++ c) a.length (a.length + b.length) = b := by
  rw [slice, take_left' length_append, drop_left]

theorem length_padded {n : ℕ} {data : Bytes} (h : data.length ≤ n) :
    (padded n data).length = n := by
  rw [padded, length_append, length_replicate]
  omega

/-! ## Cutting a message -/

/-- A message of `n` whole blocks, one more, and a tail. -/
structure Cut (block : BlockCipher) (n : ℕ) (data front penultimate tail : Bytes) : Prop where
  eq : data = front ++ (penultimate ++ tail)
  front : n * block.size = front.length
  penultimate : penultimate.length = block.size
  tail_pos : 0 < tail.length
  tail_le : tail.length ≤ block.size

namespace Cut

variable {n : ℕ} {data front penultimate tail : Bytes} (h : Cut block n data front penultimate tail)

include h

theorem length : data.length = n * block.size + block.size + tail.length := by
  rw [h.eq, length_append, length_append, h.front, h.penultimate, add_assoc]

/-- The slice behind the first blocks. -/
theorem slice_penultimate :
    slice data (n * block.size) (n * block.size + block.size) = penultimate := by
  rw [slice, h.eq, ← append_assoc, take_left' (by rw [length_append, h.front, h.penultimate]),
    drop_left' h.front.symm]

theorem drop_tail : data.drop (n * block.size + block.size) = tail := by
  rw [h.eq, ← append_assoc, drop_left' (by rw [length_append, h.front, h.penultimate])]

/-- A tail of a whole block. -/
theorem of_whole (hwhole : tail.length = block.size) :
    data.length % block.size = 0 ∧ data.length / block.size = n + 2 := by
  have hlen : data.length = (n + 2) * block.size := by
    rw [h.length, hwhole]
    ring
  rw [hlen]
  exact ⟨Nat.mul_mod_left _ _, Nat.mul_div_left _ block.size_pos⟩

/-- A tail that is part of a block. -/
theorem of_part (hpart : tail.length < block.size) :
    data.length % block.size = tail.length ∧ data.length / block.size = n + 1 := by
  have hlen : data.length = tail.length + block.size * (n + 1) := by
    rw [h.length]
    ring
  constructor
  · rw [hlen, Nat.add_mul_mod_self_left, Nat.mod_eq_of_lt hpart]
  · rw [hlen, Nat.add_mul_div_left _ _ block.size_pos, Nat.div_eq_of_lt hpart, zero_add]

end Cut

/-- Every message of more than a block is cut. -/
theorem exists_cut {data : Bytes} (h : block.size < data.length) :
    ∃ n front penultimate tail, Cut block n data front penultimate tail := by
  have hpos := block.size_pos
  -- whole blocks in front of the last byte
  set k := (data.length - 1) / block.size with hk
  have hle : k * block.size ≤ data.length - 1 := Nat.div_mul_le_self _ _
  have hlt : data.length - 1 < k * block.size + block.size := by
    have hmod := Nat.mod_add_div (data.length - 1) block.size
    have hrest := Nat.mod_lt (data.length - 1) hpos
    rw [mul_comm, ← hk] at hmod
    omega
  have hk0 : k ≠ 0 := by
    intro h0
    rw [h0] at hlt
    omega
  obtain ⟨n, hn⟩ := Nat.exists_eq_succ_of_ne_zero hk0
  rw [hn, Nat.succ_mul] at hle hlt
  refine ⟨n, data.take (n * block.size), (data.drop (n * block.size)).take block.size,
    (data.drop (n * block.size)).drop block.size, ?_, ?_, ?_, ?_, ?_⟩
  · rw [take_append_drop, take_append_drop]
  · rw [length_take]
    omega
  · rw [length_take, length_drop]
    omega
  · rw [length_drop, length_drop]
    omega
  · rw [length_drop, length_drop]
    omega

/-! ## Encryption -/

variable {x : Bytes}

section Encrypt

variable {iv data front penultimate tail : Bytes} {n : ℕ}

/-- The ciphertext of the block before the tail. -/
def stolen (block : BlockCipher) (n : ℕ) (iv front penultimate : Bytes) : Bytes :=
  block.encryptNext (block.chainEncrypt n iv front).2 penultimate

/-- The ciphertext of the tail. -/
def final (block : BlockCipher) (x tail : Bytes) : Bytes :=
  block.encrypt (xorBytes (padded block.size tail) x)

/-- What both cases of `Encrypt` return. -/
def encrypted (block : BlockCipher) (n : ℕ) (iv front penultimate tail : Bytes) : Bytes × Bytes :=
  let x := stolen block n iv front penultimate
  let y := final block x tail
  ((block.chainEncrypt n iv front).1 ++ y ++ x.take tail.length, y)

theorem length_final (hx : x.length = block.size) (htail : tail.length ≤ block.size) :
    (final block x tail).length = block.size := by
  apply block.length_encrypt
  rw [length_xorBytes, length_padded htail, hx, min_self]

/-- The IV is found again in what is returned. -/
theorem next_part {out y x : Bytes} {r : ℕ} (hy : y.length = block.size)
    (hx : (x.take r).length = r) :
    slice (out ++ y ++ x.take r) ((out ++ y ++ x.take r).length - r - block.size)
      ((out ++ y ++ x.take r).length - r - block.size + block.size) = y := by
  have hstart : (out ++ y ++ x.take r).length - r - block.size = out.length := by
    rw [length_append, length_append]
    omega
  have hslice := slice_between out y (x.take r)
  rwa [hstart, ← hy]

/-- Two blocks at the end of a chain change places. -/
theorem swap_blocks {out x y : Bytes} (hx : x.length = block.size) (hy : y.length = block.size) :
    let whole := out ++ (x ++ y)
    let last := whole.length - block.size
    whole.take (last - block.size) ++ whole.drop last ++ slice whole (last - block.size) last =
      out ++ y ++ x := by
  have hlast : (out ++ (x ++ y)).length - block.size = out.length + block.size := by
    rw [length_append, length_append]
    omega
  have hslice := slice_between out x y
  rw [hx, append_assoc] at hslice
  have htake : (out ++ (x ++ y)).take out.length = out := take_left ..
  have hdrop : (out ++ (x ++ y)).drop (out.length + block.size) = y := by
    rw [← append_assoc, drop_left' (by rw [length_append, hx])]
  simp only [hlast, Nat.add_sub_cancel, hslice, htake, hdrop]

variable (hiv : iv.length = block.size) (h : Cut block n data front penultimate tail)

include hiv h

theorem length_stolen : (stolen block n iv front penultimate).length = block.size :=
  length_encryptNext (length_chainEncrypt hiv h.front).2 h.penultimate

theorem length_take_stolen :
    ((stolen block n iv front penultimate).take tail.length).length = tail.length := by
  rw [length_take, length_stolen hiv h]
  exact min_eq_left h.tail_le

theorem encrypt_part (hpart : tail.length < block.size) :
    encrypt block iv data = .ok (encrypted block n iv front penultimate tail) := by
  have hpos := h.tail_pos
  obtain ⟨hmod, hdiv⟩ := h.of_part hpart
  have hlen := h.length
  have hchain : block.chainEncrypt n iv data = block.chainEncrypt n iv front := by
    rw [h.eq]
    exact chainEncrypt_append hiv h.front _
  have hx := length_stolen hiv h
  have hy := length_final hx hpart.le
  unfold encrypt
  simp only [hmod, hdiv, Nat.add_sub_cancel, hchain]
  rw [ensure_bind hiv, ensure_bind (by omega), if_neg (by omega),
    if_neg (by omega), add_one_mul, h.slice_penultimate, h.drop_tail]
  exact congrArg (fun next => ok (_, next)) (next_part hy (length_take_stolen hiv h))

theorem encrypt_whole (hwhole : tail.length = block.size) :
    encrypt block iv data = .ok (encrypted block n iv front penultimate tail) := by
  obtain ⟨hmod, hdiv⟩ := h.of_whole hwhole
  have hlen := h.length
  have hpos := block.size_pos
  have hx := length_stolen hiv h
  have hy := length_final hx hwhole.le
  have hpadded : padded block.size tail = tail := by
    rw [padded, hwhole, Nat.sub_self, replicate_zero, append_nil]
  -- the chain ends in the two blocks that are swapped
  have hchain : (block.chainEncrypt (n + 2) iv data).1 = (block.chainEncrypt n iv front).1 ++
      (stolen block n iv front penultimate ++
        final block (stolen block n iv front penultimate) tail) := by
    have hnil : tail.take block.size = tail := take_of_length_le hwhole.le
    rw [h.eq, chainEncrypt_add hiv h.front, final, hpadded]
    simp only [chainEncrypt, take_left' h.penultimate, drop_left' h.penultimate, hnil,
      append_nil]
    rfl
  unfold encrypt encrypted
  simp only [hmod, hdiv, hchain]
  rw [ensure_bind hiv, ensure_bind (by omega), if_neg (by omega), hwhole]
  generalize stolen block n iv front penultimate = x at hx hy ⊢
  generalize (block.chainEncrypt n iv front).1 = out
  generalize final block x tail = y at hy ⊢
  have hend : (out ++ y ++ x).length - 2 * block.size = out.length ∧
      (out ++ y ++ x).length - block.size = out.length + y.length := by
    rw [length_append, length_append]
    omega
  simp only [if_true, swap_blocks hx hy, hend, slice_between, take_of_length_le hx.le]

theorem encrypt_cut :
    encrypt block iv data = .ok (encrypted block n iv front penultimate tail) := by
  rcases h.tail_le.lt_or_eq with hpart | hwhole
  · exact encrypt_part hiv h hpart
  · exact encrypt_whole hiv h hwhole

end Encrypt

/-! ## Decryption -/

section Decrypt

variable {iv data front y xPart : Bytes} {n : ℕ}

/-- The ciphertext of the block before the last: what stands at the end, and what was stolen. -/
def restored (block : BlockCipher) (y xPart : Bytes) : Bytes :=
  xPart ++ (block.decrypt y).drop xPart.length

/-- What both cases of `Decrypt` return. -/
def decrypted (block : BlockCipher) (n : ℕ) (iv front y xPart : Bytes) : Bytes × Bytes :=
  ((block.chainDecrypt n iv front).1 ++
      block.decryptNext (block.chainDecrypt n iv front).2 (restored block y xPart) ++
      xorBytes ((block.decrypt y).take xPart.length) xPart, y)

theorem length_restored (hy : y.length = block.size) (hle : xPart.length ≤ block.size) :
    (restored block y xPart).length = block.size := by
  rw [restored, length_append, length_drop, block.length_decrypt hy]
  omega

theorem chainDecrypt_cut (h : Cut block n data front y xPart) :
    block.chainDecrypt n iv data = block.chainDecrypt n iv front := by
  rw [h.eq]
  exact chainDecrypt_append h.front _

theorem decrypt_cut (hiv : iv.length = block.size) (h : Cut block n data front y xPart) :
    decrypt block iv data = .ok (decrypted block n iv front y xPart) := by
  have hlen := h.length
  have hpos := h.tail_pos
  have hdy := block.length_decrypt h.penultimate
  have hslice := h.slice_penultimate
  have hdrop := h.drop_tail
  unfold decrypt decrypted
  rcases h.tail_le.lt_or_eq with hpart | hwhole
  · obtain ⟨hmod, hdiv⟩ := h.of_part hpart
    have hne : xPart.length ≠ 0 := ne_of_gt hpos
    have hblocks : (if xPart.length ≠ 0 then n + 1 - 1 else n + 1 - 2) = n := if_pos hne
    have hstart : data.length - xPart.length - block.size = n * block.size := by omega
    simp only [hmod, hdiv, hblocks]
    rw [ensure_bind hiv, ensure_bind (by omega), if_neg (by omega),
      if_neg hne, chainDecrypt_cut h, hstart, hslice, hdrop, take_left]
    rfl
  · obtain ⟨hmod, hdiv⟩ := h.of_whole hwhole
    have hblocks : (if (0 : ℕ) ≠ 0 then n + 2 - 1 else n + 2 - 2) = n := if_neg (not_not.2 rfl)
    have hstart : data.length - 2 * block.size = n * block.size := by omega
    have hstop : data.length - block.size = n * block.size + block.size := by omega
    have hnone : (block.decrypt y).drop xPart.length = [] := drop_eq_nil_of_le (by rw [hdy, hwhole])
    have hall : (block.decrypt y).take xPart.length = block.decrypt y :=
      take_of_length_le (by rw [hdy, hwhole])
    simp only [hmod, hdiv, hblocks, if_true]
    rw [ensure_bind hiv, ensure_bind (by omega), if_neg (by omega),
      chainDecrypt_cut h, hstart, hstop, hslice, hdrop, restored, hnone, hall, append_nil]

end Decrypt

/-! ## The two directions -/

section Inverse

variable {iv data front penultimate tail : Bytes} {n : ℕ}

/-- What a tail is combined with, and combined with it again. -/
theorem xorBytes_padded (hx : x.length = block.size) (htail : tail.length ≤ block.size) :
    xorBytes (padded block.size tail) x =
      xorBytes tail (x.take tail.length) ++ x.drop tail.length := by
  have htake : tail.length = (x.take tail.length).length := by
    rw [length_take]
    omega
  have hdrop : block.size - tail.length = (x.drop tail.length).length := by rw [length_drop, hx]
  conv_lhs => rw [padded, ← take_append_drop tail.length x]
  rw [xorBytes_append htake, hdrop, xorBytes_replicate_zero]

/-- The block whose end was stolen is whole again, and so is the tail. -/
theorem restored_final (hx : x.length = block.size) (htail : tail.length ≤ block.size) :
    restored block (final block x tail) (x.take tail.length) = x ∧
      xorBytes ((block.decrypt (final block x tail)).take tail.length) (x.take tail.length) =
        tail := by
  have hdecrypt : block.decrypt (final block x tail) =
      xorBytes tail (x.take tail.length) ++ x.drop tail.length := by
    rw [final, block.decrypt_encrypt _ (by rw [length_xorBytes, length_padded htail, hx, min_self]),
      xorBytes_padded hx htail]
  have htake : (x.take tail.length).length = tail.length := by
    rw [length_take, hx, min_eq_left htail]
  have hxor : (xorBytes tail (x.take tail.length)).length = tail.length := by
    rw [length_xorBytes, htake, min_self]
  constructor
  · rw [restored, htake, hdecrypt, drop_left' hxor, take_append_drop]
  · rw [hdecrypt, take_left' hxor, xorBytes_cancel (by rw [htake])]

theorem length_plain {y : Bytes} (hy : y.length = block.size) (hle : tail.length ≤ block.size) :
    (xorBytes ((block.decrypt y).take tail.length) tail).length = tail.length := by
  rw [length_xorBytes, length_take, block.length_decrypt hy, min_eq_left hle, min_self]

/-- The tail gives the front of the decrypted block back, the stolen bytes its end. -/
theorem final_restored {y : Bytes} (hy : y.length = block.size) (hle : tail.length ≤ block.size) :
    final block (restored block y tail) (xorBytes ((block.decrypt y).take tail.length) tail) =
      y := by
  have hplain := length_plain hy hle
  rw [final, xorBytes_padded (length_restored hy hle) (by rw [hplain]; exact hle), hplain,
    restored, take_left, drop_left, xorBytes_cancel (length_take_le _ _), take_append_drop,
      block.encrypt_decrypt hy]

variable (hiv : iv.length = block.size) (h : Cut block n data front penultimate tail)

include hiv h

theorem cut_encrypted :
    Cut block n (encrypted block n iv front penultimate tail).1 (block.chainEncrypt n iv front).1
      (encrypted block n iv front penultimate tail).2
        ((stolen block n iv front penultimate).take tail.length) := by
  have htake := length_take_stolen hiv h
  exact {
    eq := append_assoc ..
    front := (length_chainEncrypt hiv h.front).1.symm
    penultimate := length_final (length_stolen hiv h) h.tail_le
    tail_pos := htake.symm ▸ h.tail_pos
    tail_le := htake.symm ▸ h.tail_le }

theorem cut_decrypted :
    Cut block n (decrypted block n iv front penultimate tail).1 (block.chainDecrypt n iv front).1
      (block.decryptNext (block.chainDecrypt n iv front).2 (restored block penultimate tail))
      (xorBytes ((block.decrypt penultimate).take tail.length) tail) := by
  obtain ⟨hout, hlast⟩ := length_chainDecrypt hiv h.front
  have htake := length_plain h.penultimate h.tail_le
  exact {
    eq := append_assoc ..
    front := hout.symm
    penultimate := length_decryptNext hlast (length_restored h.penultimate h.tail_le)
    tail_pos := htake.symm ▸ h.tail_pos
    tail_le := htake.symm ▸ h.tail_le }

theorem decrypt_encrypted : decrypt block iv (encrypted block n iv front penultimate tail).1 =
      .ok (data, (encrypted block n iv front penultimate tail).2) := by
  obtain ⟨hrestored, htail⟩ := restored_final (length_stolen hiv h) h.tail_le
  rw [decrypt_cut hiv (cut_encrypted hiv h), decrypted, length_take_stolen hiv h,
    chainDecrypt_encrypt hiv h.front, encrypted, hrestored, htail, stolen,
      decryptNext_encryptNext (length_chainEncrypt hiv h.front).2 h.penultimate,
    append_assoc, ← h.eq]

theorem encrypt_decrypted : encrypt block iv (decrypted block n iv front penultimate tail).1 =
      .ok (data, (decrypted block n iv front penultimate tail).2) := by
  obtain ⟨-, hlast⟩ := length_chainDecrypt hiv h.front
  have hstolen : stolen block n iv (block.chainDecrypt n iv front).1
      (block.decryptNext (block.chainDecrypt n iv front).2 (restored block penultimate tail)) =
        restored block penultimate tail := by
    rw [stolen, chainEncrypt_decrypt hiv h.front]
    exact encryptNext_decryptNext hlast (length_restored h.penultimate h.tail_le)
  have hleft : (restored block penultimate tail).take tail.length = tail := by
    rw [restored, take_left]
  rw [encrypt_cut hiv (cut_decrypted hiv h), encrypted, hstolen,
    final_restored h.penultimate h.tail_le, length_plain h.penultimate h.tail_le, hleft,
      chainEncrypt_decrypt hiv h.front, append_assoc, ← h.eq]
  rfl

end Inverse

/-! ## Messages -/

variable {iv : Bytes} {p : Bytes}

theorem encrypt_one (hiv : iv.length = block.size) (hp : p.length = block.size) :
    encrypt block iv p = .ok (block.encryptNext iv p, block.encryptNext iv p) := by
  unfold encrypt
  rw [ensure_bind hiv, ensure_bind hp.ge, if_pos hp]

theorem decrypt_one (hiv : iv.length = block.size) (hp : p.length = block.size) :
    decrypt block iv p = .ok (block.decryptNext iv p, p) := by
  unfold decrypt
  rw [ensure_bind hiv, ensure_bind hp.ge, if_pos hp]

/-- What is encrypted is decrypted, under the same IV and with the same next one. -/
theorem decrypt_encrypt (hiv : iv.length = block.size) (hp : block.size ≤ p.length) :
    ∃ out next, encrypt block iv p = .ok (out, next) ∧ out.length = p.length ∧
      next.length = block.size ∧
      decrypt block iv out = .ok (p, next) := by
  rcases hp.eq_or_lt with hone | hmore
  · have hlen := length_encryptNext hiv hone.symm
    refine ⟨_, _, encrypt_one hiv hone.symm, hlen.trans hone, hlen, ?_⟩
    rw [decrypt_one hiv hlen, decryptNext_encryptNext hiv hone.symm]
  · obtain ⟨n, front, penultimate, tail, h⟩ := exists_cut hmore
    have hcut := cut_encrypted hiv h
    have hlen : (encrypted block n iv front penultimate tail).1.length = p.length := by
      rw [hcut.length, h.length, length_take_stolen hiv h]
    exact ⟨_, _, encrypt_cut hiv h, hlen, hcut.penultimate, decrypt_encrypted hiv h⟩

theorem encrypt_decrypt {c : Bytes} (hiv : iv.length = block.size) (hc : block.size ≤ c.length) :
    ∃ out next, decrypt block iv c = .ok (out, next) ∧ out.length = c.length ∧
      encrypt block iv out = .ok (c, next) := by
  rcases hc.eq_or_lt with hone | hmore
  · have hlen := length_decryptNext hiv hone.symm
    refine ⟨_, _, decrypt_one hiv hone.symm, hlen.trans hone, ?_⟩
    rw [encrypt_one hiv hlen, encryptNext_decryptNext hiv hone.symm]
  · obtain ⟨n, front, penultimate, tail, h⟩ := exists_cut hmore
    have hlen : (decrypted block n iv front penultimate tail).1.length = c.length := by
      rw [(cut_decrypted hiv h).length, h.length, length_plain h.penultimate h.tail_le]
    exact ⟨_, _, decrypt_cut hiv h, hlen, encrypt_decrypted hiv h⟩

/-- The IVs of a sequence of messages stay in step. -/
theorem decryptAll_encryptAll {messages : List Bytes} (hiv : iv.length = block.size)
    (h : ∀ p ∈ messages, block.size ≤ p.length) :
    ∃ outs last, encryptAll block iv messages = .ok (outs, last) ∧
      decryptAll block iv outs = .ok (messages, last) := by
  induction messages generalizing iv with
  | nil => exact ⟨[], iv, rfl, rfl⟩
  | cons p messages ih =>
    obtain ⟨out, next, hencrypt, -, hnext, hdecrypt⟩ := decrypt_encrypt hiv (h p mem_cons_self)
    obtain ⟨outs, last, hrest, hback⟩ := ih hnext fun q hq => h q (mem_cons_of_mem _ hq)
    refine ⟨out :: outs, last, ?_, ?_⟩
    · rw [encryptAll, hencrypt]
      simp only [hrest, ok_bind]
    · rw [decryptAll, hdecrypt]
      simp only [hback, ok_bind]

/-- **Ciphertext stealing is a bijection that keeps the length.** Either direction undoes the other,
both return the same next IV, and so messages under chained IVs are decrypted under chained IVs. -/
theorem cts_bijection (block : BlockCipher) (iv : Bytes) (hiv : iv.length = block.size) :
    (∀ p : Bytes, block.size ≤ p.length → ∃ out next, encrypt block iv p = .ok (out, next) ∧
        out.length = p.length ∧ decrypt block iv out = .ok (p, next)) ∧
      (∀ c : Bytes, block.size ≤ c.length → ∃ out next, decrypt block iv c = .ok (out, next) ∧
        out.length = c.length ∧ encrypt block iv out = .ok (c, next)) ∧
      ∀ messages : List Bytes, (∀ p ∈ messages, block.size ≤ p.length) →
        ∃ outs last, encryptAll block iv messages = .ok (outs, last) ∧
          decryptAll block iv outs = .ok (messages, last) := by
  refine ⟨?_, fun c hc => encrypt_decrypt hiv hc, fun messages h => decryptAll_encryptAll hiv h⟩
  intro p hp
  obtain ⟨out, next, hencrypt, hlen, -, hdecrypt⟩ := decrypt_encrypt hiv hp
  exact ⟨out, next, hencrypt, hlen, hdecrypt⟩

/-- A cipher on two bytes that exchanges them and changes one. -/
def sampleCipher : BlockCipher where
  size := 2
  size_pos := by decide
  encrypt b := [(b.getD 1 0) ^^^ 0x5a, b.getD 0 0]
  decrypt b := [b.getD 1 0, (b.getD 0 0) ^^^ 0x5a]
  length_encrypt _ _ := rfl
  decrypt_encrypt b hb := by
    match b, hb with
    | [x, y], _ =>
      change [x, y ^^^ 0x5a ^^^ 0x5a] = [x, y]
      rw [UInt8.xor_assoc, UInt8.xor_self, UInt8.xor_zero]

theorem cts_bijection_three :
    encrypt sampleCipher [1, 2] [10, 11, 12] = .ok ([0x51, 0x5f, 0x53], [0x51, 0x5f]) ∧
      ∃ out next, encrypt sampleCipher [1, 2] [10, 11, 12] = .ok (out, next) ∧
        out.length = 3 ∧ decrypt sampleCipher [1, 2] out = .ok ([10, 11, 12], next) :=
  ⟨by decide, (cts_bijection sampleCipher [1, 2] rfl).1 [10, 11, 12] (by decide)⟩

end Kerberos.CTS
