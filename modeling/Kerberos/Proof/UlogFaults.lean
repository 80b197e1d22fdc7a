import Kerberos.Proof.UlogBlocks

/-!
# Update logs on a failing disk

The parts of `AddUpdate`, whatever fails on the way. A block is written in part at most
(`addUpdate_of_fault`), and the others are as they were. The first serial of the header moves before
its entry is read, so also if that fails (`advance_state`).
-/

namespace Kerberos.Iprop.Ulog

open List Nat EStateM Disk

open EStateM (ok_bind error_bind)

/-- Nothing has changed but blocks, and the times and serials of the header. -/
structure Kept (u u' : Ulog) : Prop where
  isOpen : u'.isOpen = u.isOpen
  readOnly : u'.readOnly = u.readOnly
  capacity : u'.capacity = u.capacity
  block : u'.hdr.block = u.hdr.block
  length : u'.disk.content.length = u.disk.content.length

theorem Kept.refl (u : Ulog) : Kept u u := ⟨rfl, rfl, rfl, rfl, rfl⟩

theorem Kept.slotOf {u u' : Ulog} (h : Kept u u') (serial : UInt32) :
    u'.slotOf serial = u.slotOf serial := by
  rw [Ulog.slotOf, Ulog.slotOf, h.capacity]

/-- The first and the last serial. -/
def serials (u : Ulog) : UInt32 × UInt32 := (u.hdr.firstSno, u.hdr.lastSno)

/-- The first serial once `serial` is the last. -/
def newFirst (capacity serial first : UInt32) : UInt32 :=
  if first = 0 then serial else if capacity ≤ serial - first then serial - capacity + 1 else first

/-- The first serial once `x` is the last, when it was `first` before. -/
def windowFirst (first capacity x : ℕ) : ℕ := max first (x + 1 - capacity)

theorem newFirst_of_le {capacity f t : UInt32} (hcap : 0 < capacity.toNat) (hf : 0 < f.toNat)
    (hle : f.toNat ≤ t.toNat) :
    (newFirst capacity t f).toNat = windowFirst f.toNat capacity.toNat t.toNat := by
  have hne : f ≠ 0 := fun h0 => by rw [h0] at hf; cases hf
  have hsub : (t - f).toNat = t.toNat - f.toNat :=
    UInt32.toNat_sub_of_le _ _ (UInt32.le_iff_toNat_le.2 hle)
  unfold newFirst windowFirst
  rw [if_neg hne]
  split_ifs with hfull
  · rw [UInt32.le_iff_toNat_le] at hfull
    have hle' : capacity ≤ t := UInt32.le_iff_toNat_le.2 (by omega)
    have := t.toNat_lt
    rw [UInt32.toNat_add, UInt32.toNat_sub_of_le _ _ hle', UInt32.toNat_one]
    omega
  · rw [UInt32.le_iff_toNat_le] at hfull
    omega

/-- The first and last serial after an update has been added. -/
def bump (capacity serial : UInt32) (s : UInt32 × UInt32) : UInt32 × UInt32 :=
  if s.2 = 0 ∨ s.2 ≤ serial then (newFirst capacity serial s.1, serial) else s

/-! ## The parts of `AddUpdate` -/

/-- The content is the same, and all that is kept. -/
structure Unwritten (u u' : Ulog) : Prop where
  kept : Kept u u'
  content : u'.disk.content = u.disk.content

theorem Unwritten.hdr {u u' : Ulog} (h : Unwritten u u') {hdr : UlogHeader}
    (hblock : hdr.block = u'.hdr.block) :
    Unwritten u { u' with hdr } :=
  ⟨⟨h.kept.isOpen, h.kept.readOnly, h.kept.capacity, hblock.trans h.kept.block, h.kept.length⟩,
    h.content⟩

theorem readAt_state (off n : ℕ) (u : Ulog) :
    ∃ faults, (readAt off n u).state = { u with disk := { u.disk with faults } } := by
  unfold readAt Disk.readAt
  cases u.disk.fault with
  | some n => exact ⟨_, rfl⟩
  | none =>
    split_ifs <;> exact ⟨_, rfl⟩

theorem readEntry_state (serial : UInt32) (u : Ulog) :
    ∃ faults, (readEntry serial u).state = { u with disk := { u.disk with faults } } := by
  unfold readEntry
  refine state_bind (P := fun u' => ∃ faults, u' = { u with disk := { u.disk with faults } })
    (readAt_state ..) fun block u' _ hu' => ?_
  cases decodeEntry serial block <;> exact hu'

theorem writeAt_state (off : ℕ) (data : Bytes) (u : Ulog) : ∃ n faults, (writeAt off data u).state =
    { u with disk := ⟨overwrite u.disk.content off (data.take n), faults⟩ } := by
  unfold writeAt Disk.writeAt
  cases u.disk.fault with
  | none => exact ⟨data.length, u.disk.faults.tail, by rw [take_length]; rfl⟩
  | some n => exact ⟨n, _, rfl⟩

/-- The first serial moves before its entry is read, so also if that fails. -/
theorem moveFirst_state (serial : UInt32) (time : Time) (u : Ulog) :
    Unwritten u (moveFirst serial time u).state ∧
      (moveFirst serial time u).state.serials =
        (newFirst u.capacity serial u.hdr.firstSno, u.hdr.lastSno) := by
  unfold moveFirst newFirst
  rw [get_bind]
  split_ifs with h0 hfull
  · exact ⟨⟨⟨rfl, rfl, rfl, rfl, rfl⟩, rfl⟩, rfl⟩
  · rw [modify_bind]
    refine state_bind (P := fun u' => Unwritten u u' ∧
      u'.serials = (serial - u.capacity + 1, u.hdr.lastSno)) ?_
      fun entry u' _ h => ⟨h.1.hdr rfl, h.2⟩
    obtain ⟨faults, hread⟩ := readEntry_state (serial - u.capacity + 1)
      { u with hdr := { u.hdr with firstSno := serial - u.capacity + 1 } }
    rw [hread]
    exact ⟨⟨⟨rfl, rfl, rfl, rfl, rfl⟩, rfl⟩, rfl⟩
  · exact ⟨⟨⟨rfl, rfl, rfl, rfl, rfl⟩, rfl⟩, rfl⟩

/-- The serials are the old ones, or have moved on, the first one possibly alone. -/
def Moved (capacity serial : UInt32) (s s' : UInt32 × UInt32) : Prop :=
  s' = s ∨ ((s.2 = 0 ∨ s.2 ≤ serial) ∧ s' = (newFirst capacity serial s.1, s.2)) ∨
    s' = bump capacity serial s

theorem advance_state (serial : UInt32) (time : Time) (u : Ulog) :
    Unwritten u (advance serial time u).state ∧
      Moved u.capacity serial u.serials (advance serial time u).state.serials ∧
      ∀ u', advance serial time u = .ok () u' → u'.serials = bump u.capacity serial u.serials := by
  unfold advance
  rw [get_bind]
  by_cases hnew : u.hdr.lastSno = 0 ∨ u.hdr.lastSno ≤ serial
  · have hbump : bump u.capacity serial u.serials =
        (newFirst u.capacity serial u.hdr.firstSno, serial) :=
      if_pos hnew
    obtain ⟨hunwritten, hserials⟩ := moveFirst_state serial time u
    rw [if_pos hnew]
    cases hm : moveFirst serial time u with
    | error e u₁ =>
      rw [hm] at hunwritten hserials
      rw [error_bind hm]
      exact ⟨hunwritten, .inr (.inl ⟨hnew, hserials⟩), fun u' h => by cases h⟩
    | ok _ u₁ =>
      rw [hm] at hunwritten hserials
      rw [ok_bind hm, hbump]
      have hfirst : u₁.hdr.firstSno = newFirst u.capacity serial u.hdr.firstSno :=
        congrArg Prod.fst hserials
      refine ⟨hunwritten.hdr rfl, .inr (.inr ?_), fun u' h => ?_⟩
      · rw [hbump, ← hfirst]
        rfl
      · cases h
        rw [← hfirst]
        rfl
  · have hbump : bump u.capacity serial u.serials = u.serials := if_neg hnew
    rw [if_neg hnew, hbump]
    exact ⟨⟨Kept.refl u, rfl⟩, .inl rfl, fun u' h => by cases h; rfl⟩

/-! ## `AddUpdate` -/

/-- The log with `data` written to the block of a serial. -/
def written (u : Ulog) (serial : UInt32) (data : Bytes) (faults : List (Option ℕ)) : Ulog :=
  { u with disk := ⟨overwrite u.disk.content (u.blockOffset serial) data, faults⟩ }

section Written

variable {u : Ulog} (h : Covered u) (serial : UInt32)

include h

variable {data : Bytes} (hdata : data.length ≤ u.hdr.block.toNat) (faults : List (Option ℕ))

include hdata

theorem written_kept : Kept u (u.written serial data faults) :=
  ⟨rfl, rfl, rfl, rfl, length_overwrite (h.fits serial hdata)⟩

theorem blockOf_written_of_ne {slot : ℕ} (hne : slot ≠ u.slotOf serial) :
    blockOf (u.written serial data faults) slot = blockOf u slot := by
  refine slice_overwrite_of_disjoint (h.fits serial hdata) ?_
  show ulogHeaderSize + slot * u.hdr.block.toNat + u.hdr.block.toNat ≤
      ulogHeaderSize + u.slotOf serial * u.hdr.block.toNat ∨
    ulogHeaderSize + u.slotOf serial * u.hdr.block.toNat + data.length ≤
      ulogHeaderSize + slot * u.hdr.block.toNat
  -- of two different blocks one ends before the other starts
  rcases lt_or_gt_of_ne hne with hlt | hgt
  · have := mul_le_mul_right u.hdr.block.toNat (succ_le_of_lt hlt)
    rw [succ_mul] at this
    omega
  · have := mul_le_mul_right u.hdr.block.toNat (succ_le_of_lt hgt)
    rw [succ_mul] at this
    omega

end Written

/-- The tests in front of the first access. -/
def Accepts (u : Ulog) (update : Update) : Prop :=
  u.isOpen = true ∧ u.readOnly = false ∧
    (u.numbered update).marshalXDR.length ≤ u.hdr.block.toNat - ulogEntrySize

/-- The block of an update. -/
def blockFor (u : Ulog) (update : Update) : Bytes :=
  entryBlock u.hdr.block.toNat (u.numbered update).entrySno (u.numbered update).time
    (u.numbered update).commit (u.numbered update).marshalXDR

theorem Accepts.length_blockFor {u : Ulog} {update : Update} (h : Accepts u update) :
    (u.blockFor update).length = u.hdr.block.toNat := by
  have hpos := length_pos_iff.2 (marshalXDR_ne_nil (u.numbered update))
  have hfits := h.2.2
  exact length_entryBlock _ _ _ (by omega)

/-- The log with the first bytes of the block of an update. -/
def begun (u : Ulog) (update : Update) (n : ℕ) : Ulog :=
  u.written (u.numbered update).entrySno ((u.blockFor update).take n) u.disk.faults.tail

theorem addUpdate_of_not_accepts {u : Ulog} {update : Update} (h : ¬ Accepts u update) :
    ∃ e, addUpdate update u = .error e u := by
  unfold addUpdate writable
  rw [bind_assoc, get_bind, bind_assoc]
  by_cases hopen : u.isOpen = true
  swap
  · exact ⟨_, error_bind (ensure_of_not hopen u)⟩
  rw [ok_bind (ensure_of hopen u)]
  cases hreadOnly : u.readOnly with
  | true => exact ⟨_, error_bind (ensure_of_not (by simp) u)⟩
  | false =>
    rw [ok_bind (ensure_of (by simp) u), get_bind]
    exact ⟨_, error_bind (ensure_of_not (fun hfits => h ⟨hopen, hreadOnly, hfits⟩) u)⟩

theorem addUpdate_of_fault {u : Ulog} {update : Update} (h : Accepts u update) {n : ℕ}
    (hfault : u.disk.fault = some n) : addUpdate update u = .error "write" (u.begun update n) := by
  unfold addUpdate
  rw [ok_bind (writable_eq h.1 h.2.1), get_bind, ok_bind (ensure_of h.2.2 u)]
  refine error_bind ?_
  rw [writeAt, Disk.writeAt, hfault]
  rfl

theorem addUpdate_of_accepts {u : Ulog} {update : Update} (h : Accepts u update)
    (hfault : u.disk.fault = none) :
    addUpdate update u =
      (advance (u.numbered update).entrySno (u.numbered update).time >>= fun _ => syncHeader)
      (u.begun update u.hdr.block.toNat) := by
  unfold addUpdate
  rw [ok_bind (writable_eq h.1 h.2.1), get_bind, ok_bind (ensure_of h.2.2 u)]
  refine ok_bind (a := ()) ?_
  rw [writeAt, Disk.writeAt, hfault, begun, take_of_length_le h.length_blockFor.le]
  rfl

end Kerberos.Iprop.Ulog
