import Kerberos.Lib.State
import Kerberos.Proof.UpdateCodec
import Kerberos.Spec.Ulog

/-!
# The blocks of an update log

What the accesses of a `Ulog` do while the file works. A block is written and read as a whole:
the block of an update reads back as that update (`readEntry_entryBlock`), the placeholder as
an entry without one (`readEntry_dummyBlock`).
-/

namespace Kerberos.Iprop.Ulog

open List EStateM Disk

/-- The file works, and has its full length. -/
structure Sound (u : Ulog) : Prop where
  faults : u.disk.faults = []
  block : u.hdr.block = ulogBlock
  capacity : 0 < u.capacity.toNat
  size : u.disk.content.length = ulogHeaderSize + u.capacity.toNat * 2048

/-- The block number `slot`. -/
def blockAt (content : Bytes) (slot : ℕ) : Bytes :=
  slice content (ulogHeaderSize + slot * 2048) 2048

/-- The block of a placeholder. -/
def dummyBlock (serial : UInt32) : Bytes :=
  le32 ulogEntryMagic ++ le32 serial ++ List.replicate 2040 0

/-- The log with other bytes in its file. -/
def withContent (u : Ulog) (content : Bytes) : Ulog := { u with disk := { u.disk with content } }

theorem withContent_self (u : Ulog) : u.withContent u.disk.content = u := rfl

variable {u : Ulog}

theorem readAt_of_le (hf : u.disk.faults = []) {off n : ℕ} (h : off + n ≤ u.disk.content.length) :
    readAt off n u = .ok (slice u.disk.content off n) u := by
  obtain ⟨⟨content, faults⟩, isOpen, hdr, capacity, readOnly⟩ := u
  cases hf
  simp only [readAt, Disk.readAt, fault, head?_nil, Option.join_none, tail_nil]
  rw [if_pos h]

theorem writeAt_eq (hf : u.disk.faults = []) (off : ℕ) (data : Bytes) :
    writeAt off data u = .ok () (u.withContent (overwrite u.disk.content off data)) := by
  obtain ⟨⟨content, faults⟩, isOpen, hdr, capacity, readOnly⟩ := u
  cases hf
  rfl

theorem ensure_of {p : Prop} [Decidable p] {e : String} (h : p) (u : Ulog) :
    ensure p e u = .ok () u := by
  rw [ensure, if_pos h]
  rfl

theorem ensure_of_not {p : Prop} [Decidable p] {e : String} (h : ¬ p) (u : Ulog) :
    ensure p e u = .error e u := by
  rw [ensure, if_neg h]
  rfl

theorem writable_eq (hopen : u.isOpen = true) (hro : u.readOnly = false) :
    writable u = .ok () u := by
  unfold writable
  rw [get_bind, ok_bind (ensure_of hopen u)]
  exact ensure_of (by rw [hro]; decide) u

section Layout

theorem get32_le32 (n : UInt32) : UInt32.ofNat (Words.ofLE (le32 n)) = n := by
  rw [le32, Words.ofLE_leBytes n.toNat_lt, UInt32.ofNat_toNat]

theorem get16_le16 (n : UInt16) : UInt16.ofNat (Words.ofLE (le16 n.toNat)) = n := by
  rw [le16, Words.ofLE_leBytes n.toNat_lt, UInt16.ofNat_toNat]

variable (serial : UInt32) (time : Time) (commit : Bool) (size : ℕ) (rest : Bytes)

theorem get32_magic : get32 (blockHead serial time commit size ++ rest) 0 = ulogEntryMagic :=
  get32_le32 ulogEntryMagic

theorem get32_serial : get32 (blockHead serial time commit size ++ rest) 4 = serial :=
  get32_le32 serial

theorem get32_commit : get32 (blockHead serial time commit size ++ rest) 16 =
    if commit then 1 else 0 :=
  get32_le32 _

theorem get32_size : get32 (blockHead serial time commit size ++ rest) 20 = UInt32.ofNat size :=
  get32_le32 _

theorem length_blockHead : (blockHead serial time commit size).length = ulogEntrySize := rfl

theorem length_entryBlock {n : ℕ} {payload : Bytes} (h : ulogEntrySize + payload.length ≤ n) :
    (entryBlock n serial time commit payload).length = n := by
  simp only [entryBlock, length_append, length_blockHead, length_replicate]
  omega

theorem dummyBlock_eq : dummyBlock serial = entryBlock 2048 serial .zero false [] := by
  rw [dummyBlock, show replicate 2040 (0 : UInt8) = replicate 16 0 ++ replicate 2024 0 by
    rw [← replicate_add], ← append_assoc]
  rfl

end Layout

/-- A placeholder is an entry without an update. -/
theorem decodeEntry_dummyBlock (serial : UInt32) :
    decodeEntry serial (dummyBlock serial) = .ok { serial } := by
  rw [dummyBlock_eq, entryBlock, append_assoc, decodeEntry, get32_magic, get32_serial,
    if_neg (not_not_intro rfl), if_neg (not_not_intro rfl)]
  rfl

/-- The block of an update reads back as that update. -/
theorem decodeEntry_entryBlock {update : Update} (h : update.marshalXDR.length ≤ 2024) :
    decodeEntry update.entrySno
        (entryBlock 2048 update.entrySno update.time update.commit update.marshalXDR) =
      .ok ⟨update.entrySno, update.time, update.commit, some update⟩ := by
  have hpos : update.marshalXDR.length ≠ 0 := by
    rw [Ne, length_eq_zero_iff]
    exact marshalXDR_ne_nil update
  have hlen :=
    length_entryBlock update.entrySno update.time update.commit (Nat.add_le_add_left h 24)
  obtain ⟨block, hblock⟩ : ∃ block, block =
    entryBlock 2048 update.entrySno update.time update.commit update.marshalXDR := ⟨_, rfl⟩
  rw [← hblock] at hlen ⊢
  rw [entryBlock, append_assoc] at hblock
  have hmagic : get32 block 0 = ulogEntryMagic := by rw [hblock, get32_magic]
  have hserial : get32 block 4 = update.entrySno := by rw [hblock, get32_serial]
  have hsize : (get32 block 20).toNat = update.marshalXDR.length := by
    rw [hblock, get32_size, UInt32.toNat_ofNat']
    omega
  have hcommit : decide (get32 block 16 ≠ 0) = update.commit := by
    rw [hblock, get32_commit]
    cases update.commit <;> rfl
  have hpayload : slice block ulogEntrySize update.marshalXDR.length = update.marshalXDR := by
    rw [hblock, slice, drop_left' (length_blockHead ..), take_left' rfl]
  have hread : unmarshalUpdate update.marshalXDR = .ok update :=
    unmarshalUpdate_marshalXDR (h.trans (by decide))
  rw [decodeEntry, if_neg (not_not_intro hmagic), if_neg (not_not_intro hserial)]
  dsimp only
  rw [hsize, Except.ensure_of (by simp only [ulogEntrySize]; omega), if_neg hpos, hpayload,
    hread, hcommit]
  rfl

/-- The block number of a serial. -/
def slotOf (u : Ulog) (serial : UInt32) : ℕ := ((serial - 1) % u.capacity).toNat

/-- The content of a block. -/
def blockOf (u : Ulog) (slot : ℕ) : Bytes :=
  slice u.disk.content (ulogHeaderSize + slot * u.hdr.block.toNat) u.hdr.block.toNat

/-- All blocks are in the file. -/
structure Covered (u : Ulog) : Prop where
  capacity : 0 < u.capacity.toNat
  size : ulogHeaderSize + u.capacity.toNat * u.hdr.block.toNat ≤ u.disk.content.length

theorem Sound.covered (h : u.Sound) : Covered u := by
  refine ⟨h.capacity, ?_⟩
  rw [h.block]
  exact h.size.ge

theorem Covered.fits (h : Covered u) (serial : UInt32) {n : ℕ} (hn : n ≤ u.hdr.block.toNat) :
    u.blockOffset serial + n ≤ u.disk.content.length := by
  have hslot : u.slotOf serial < u.capacity.toNat := by
    exact Nat.mod_lt _ h.capacity
  have hend := Nat.mul_le_mul_right u.hdr.block.toNat (Nat.succ_le_of_lt hslot)
  rw [Nat.succ_mul] at hend
  have hsize := h.size
  show ulogHeaderSize + u.slotOf serial * u.hdr.block.toNat + n ≤ _
  omega

/-- An outcome that leaves the log as it is. -/
def settled (u : Ulog) {α : Type} : Except String α → EStateM.Result String Ulog α
  | .ok a => .ok a u
  | .error e => .error e u

theorem settled_bind {α β : Type} {x : UlogM α} {f : α → UlogM β} {r : Except String α}
    {g : α → Except String β}
    (hx : x u = settled u r) (hf : ∀ a, f a u = settled u (g a)) :
    (x >>= f) u = settled u (r >>= g) := by
  cases r with
  | ok a => exact (ok_bind hx).trans (hf a)
  | error e => exact error_bind hx

/-- The entry of a serial. -/
def entryAt (u : Ulog) (serial : UInt32) : Except String UlogEntry :=
  decodeEntry serial (u.blockOf (u.slotOf serial))

theorem readEntry_settled (h : Covered u) (hf : u.disk.faults = []) (serial : UInt32) :
    readEntry serial u = settled u (u.entryAt serial) := by
  have hread : readAt (u.blockOffset serial) u.hdr.block.toNat u =
      .ok (blockOf u (u.slotOf serial)) u :=
    readAt_of_le hf (h.fits serial le_rfl)
  unfold readEntry entryAt
  rw [get_bind, ok_bind hread]
  cases decodeEntry serial (blockOf u (u.slotOf serial)) with
  | ok entry => rfl
  | error e => rfl

/-- An entry is read from the block of its serial. -/
theorem readEntry_eq (h : u.Sound) {serial : UInt32} {entry : UlogEntry}
    (hdecode : decodeEntry serial (blockAt u.disk.content ((serial - 1) % u.capacity).toNat) =
      .ok entry) :
    readEntry serial u = .ok entry u := by
  have hentry : u.entryAt serial = .ok entry := by
    rw [entryAt, blockOf, h.block]
    exact hdecode
  rw [readEntry_settled h.covered h.faults, hentry]
  rfl

/-! ## The header -/

theorem length_headerBytes (h : UlogHeader) : (headerBytes h).length = ulogHeaderSize := rfl

theorem headerOf_headerBytes (h : UlogHeader) : headerOf (headerBytes h) = h := by
  have htime (off : ℕ) (t : Time) (hs : slice (headerBytes h) off 4 = le32 t.seconds)
      (hus : slice (headerBytes h) (off + 4) 4 = le32 t.useconds) :
      getTime (headerBytes h) off = t := by
    rw [getTime, get32, get32, hs, hus, get32_le32, get32_le32]
  rw [headerOf, htime 12 h.firstTime rfl rfl, htime 20 h.lastTime rfl rfl,
    show get16 (headerBytes h) 4 = h.version from get16_le16 _,
    show get32 (headerBytes h) 8 = h.numEntries from get32_le32 _,
    show get32 (headerBytes h) 28 = h.firstSno from get32_le32 _,
    show get32 (headerBytes h) 32 = h.lastSno from get32_le32 _,
    show get16 (headerBytes h) 36 = h.state from get16_le16 _,
    show get16 (headerBytes h) 38 = h.block from get16_le16 _]

/-- A header that was written reads back, if it is one the log accepts. -/
theorem readHeader_eq {hdr : UlogHeader} (hf : u.disk.faults = [])
    (hlen : ulogHeaderSize ≤ u.disk.content.length)
    (hsynced : slice u.disk.content 0 ulogHeaderSize = headerBytes hdr)
    (hvalid : hdr.version = ulogVersion ∧ hdr.numEntries ≠ 0 ∧ ulogEntrySize ≤ hdr.block.toNat) :
    readHeader u = .ok () { u with hdr } := by
  have hread : readAt 0 ulogHeaderSize u = .ok (headerBytes hdr) u := by
    rw [← hsynced]
    exact readAt_of_le hf (by omega)
  have hmagic : get32 (headerBytes hdr) 0 = ulogHeaderMagic := get32_le32 _
  unfold readHeader
  rw [ok_bind hread, ok_bind (ensure_of hmagic u), headerOf_headerBytes]
  exact (ok_bind rfl).trans (ensure_of hvalid _)

/-- The header is in front of all blocks. -/
theorem blockAt_overwrite_header {content : Bytes} (hlen : ulogHeaderSize ≤ content.length)
    (hdr : UlogHeader) (slot : ℕ) :
    blockAt (overwrite content 0 (headerBytes hdr)) slot = blockAt content slot := by
  refine slice_overwrite_of_disjoint ?_ (.inr ?_)
  · rw [length_headerBytes]
    omega
  · rw [length_headerBytes]
    omega

theorem header_overwrite {content : Bytes} (hlen : ulogHeaderSize ≤ content.length)
    (hdr : UlogHeader) :
    slice (overwrite content 0 (headerBytes hdr)) 0 ulogHeaderSize = headerBytes hdr :=
  slice_overwrite (by rw [length_headerBytes]; omega)

/-- Different blocks do not overlap. -/
theorem blockAt_overwrite {content block : Bytes} {slot slot' : ℕ} (hblock : block.length = 2048)
    (hlen : ulogHeaderSize + slot * 2048 + 2048 ≤ content.length) :
    blockAt (overwrite content (ulogHeaderSize + slot * 2048) block) slot' =
      if slot' = slot then block else blockAt content slot' := by
  split_ifs with hslot
  · have hread : slice (overwrite content (ulogHeaderSize + slot * 2048) block)
        (ulogHeaderSize + slot * 2048) block.length = block := slice_overwrite (by omega)
    rw [hblock] at hread
    rw [hslot, blockAt, hread]
  · exact slice_overwrite_of_disjoint (by omega) (by omega)

end Kerberos.Iprop.Ulog
