import Kerberos.Proof.Ulog
import Kerberos.Proof.UlogErrors

/-!
# Runs of the update log on disk

Every operation with room for its serial succeeds, and the log holds the queue the operation
means (`Holds.create`, `Holds.addUpdate`, `Holds.setCursor`, `Holds.reopen`). So
the log refines the queue over every run with room (`ulog_refines_queue`). At the greatest
serial it does not (`getEntries_of_greatest`).
-/

namespace Kerberos.Iprop.Ulog

open Transition List UInt32 Nat EStateM Disk

variable {u : Ulog} {q : Queue}

theorem syncHeader_eq (hf : u.disk.faults = []) : syncHeader u =
      .ok () (u.withContent (overwrite u.disk.content 0 (headerBytes u.hdr))) := by
  exact writeAt_eq hf _ _

/-- Two serials fewer than `capacity` apart have different blocks. -/
theorem mod_ne {a b n : ℕ} (hab : a < b) (hn : b < a + n) : a % n ≠ b % n := by
  intro h
  have hdvd : n ∣ b - a := (modEq_iff_dvd' hab.le).1 h
  exact absurd (le_of_dvd (by omega) hdvd) (by omega)

/-! ## Adding an update -/

theorem length_marshalXDR (update : Update) (serial : UInt32) :
    ({ update with entrySno := serial } : Update).marshalXDR.length = update.marshalXDR.length := by
  simp only [Update.marshalXDR, length_append, length_u32]

theorem toNat_ofNat_next (hroom : q.last + 1 < 2 ^ 32 - 1) :
    (UInt32.ofNat (q.last + 1)).toNat = q.last + 1 := by
  rw [toNat_ofNat']
  omega

theorem Numbered.add (hq : Numbered q) (hroom : q.last + 1 < 2 ^ 32 - 1) {update : Update}
    (hfits : update.marshalXDR.length ≤ 2024) : Numbered (q.add update) := by
  refine ⟨hq.capacity, hq.base_pos, by rw [Queue.last_add]; exact hroom, fun i up hi => ?_,
    fun up hup => ?_⟩
  · rw [Queue.add, getElem?_append] at hi
    split_ifs at hi with hlt
    · exact hq.serial i up hi
    · obtain ⟨hlen, rfl⟩ := List.getElem?_eq_some_iff.1 hi
      have hi0 : i = q.added.length := by
        simp only [length_singleton] at hlen
        omega
      simp only [getElem_singleton, toNat_ofNat_next hroom]
      show q.base + q.added.length + 1 = q.base + 1 + i
      omega
  · rcases mem_append.1 hup with hmem | hmem
    · exact hq.fits up hmem
    · rw [mem_singleton.1 hmem, length_marshalXDR]
      exact hfits

/-- The new update takes the place of a serial that is no longer retained. -/
theorem Stored.add {content : Bytes} (hstored : Stored content q) (hq : Numbered q)
    (hlen : content.length = ulogHeaderSize + q.capacity * 2048) {update up : Update}
    (hup : up = { update with entrySno := UInt32.ofNat (q.last + 1) })
    (hfits : up.marshalXDR.length ≤ 2024) :
    Stored (overwrite content (ulogHeaderSize + q.last % q.capacity * 2048)
      (entryBlock 2048 up.entrySno up.time up.commit up.marshalXDR)) (q.add update) := by
  have hslot : q.last % q.capacity < q.capacity := mod_lt _ hq.capacity.1
  have hroom : ulogHeaderSize + q.last % q.capacity * 2048 + 2048 ≤ content.length := by
    omega
  have hbase : q.base ≤ q.last := le_add_right _ _
  have hpos := hq.base_pos
  have hadded : (q.add update).added = q.added ++ [up] := by rw [hup, Queue.add]
  intro s hfirst hlast
  rw [blockAt_overwrite (length_entryBlock _ _ _ (Nat.add_le_add_left hfits 24)) hroom]
  rw [Queue.last_add] at hlast
  have hcap : (q.add update).capacity = q.capacity := rfl
  have hfirst' : max q.base (q.last + 1 + 1 - q.capacity) ≤ s := by
    rw [← Queue.last_add]
    exact hfirst
  obtain rfl | hlt := hlast.eq_or_lt
  · rw [hcap, Nat.add_sub_cancel, if_pos rfl, image, hadded]
    show _ = if q.last + 1 = q.base then _ else _
    rw [if_neg (by omega), show q.last + 1 - (q.add update).base - 1 = q.added.length by
      show q.base + q.added.length + 1 - q.base - 1 = q.added.length; omega,
      getElem?_append_right le_rfl, Nat.sub_self]
    rfl
  · have hne : (s - 1) % q.capacity ≠ q.last % q.capacity := mod_ne (by omega) (by omega)
    have hold : q.first ≤ s := by
      unfold Queue.first
      omega
    rw [hcap, if_neg hne, hstored s hold (by omega), image, image, hadded]
    show (if s = q.base then _ else _) = if s = q.base then _ else _
    split_ifs with hs
    · rfl
    · rw [getElem?_append_left (by
        unfold Queue.last at hlt
        show s - q.base - 1 < q.added.length
        omega)]
      rfl

/-- The first serial moves on once the log is full, if its entry can be read. -/
theorem moveFirst_eq {serial : UInt32} (time : Time)
    (hread : ∀ hdr : UlogHeader, hdr.block = u.hdr.block →
      ∃ entry, readEntry (newFirst u.capacity serial u.hdr.firstSno) { u with hdr } =
        .ok entry { u with hdr }) :
    ∃ hdr : UlogHeader, moveFirst serial time u = .ok () { u with hdr } ∧
      hdr.firstSno = newFirst u.capacity serial u.hdr.firstSno ∧ hdr.block = u.hdr.block ∧
      hdr.version = u.hdr.version := by
  unfold moveFirst newFirst at *
  rw [get_bind]
  split_ifs at hread ⊢ with hzero hfull
  · exact ⟨_, rfl, rfl, rfl, rfl⟩
  · obtain ⟨entry, hentry⟩ := hread { u.hdr with firstSno := serial - u.capacity + 1 } rfl
    exact ⟨{ u.hdr with firstSno := serial - u.capacity + 1, firstTime := entry.time },
      (ok_bind rfl).trans (ok_bind hentry), rfl, rfl, rfl⟩
  · exact ⟨u.hdr, rfl, rfl, rfl, rfl⟩

theorem newFirst_eq (hdesc : Describes u.hdr q) (hq : Numbered q)
    (hcap : u.capacity.toNat = q.capacity)
    {serial : UInt32} (hserial : serial.toNat = q.last + 1) (update : Update) :
    (newFirst u.capacity serial u.hdr.firstSno).toNat = (q.add update).first := by
  have hfirst : q.first = max q.base (q.last + 1 - q.capacity) := rfl
  have hpos := hq.base_pos
  have hle := hq.first_le_last
  rw [newFirst_of_le (by omega) (by rw [hdesc.firstSno]; omega) (by rw [hdesc.firstSno]; omega),
    windowFirst, hdesc.firstSno, hserial, hcap, Queue.first_add]
  omega

theorem numEntries_ne_zero {hdr : UlogHeader} (hdesc : Describes hdr q) (hq : Numbered q) :
    hdr.numEntries ≠ 0 := by
  intro h0
  have hnum := hdesc.numEntries
  have hle := hq.first_le_last
  rw [h0, UInt32.toNat_zero] at hnum
  omega

/-- The header describes the queue with the new update. -/
theorem advance_eq (hdesc : Describes u.hdr q) (hq : Numbered q)
    (hcap : u.capacity.toNat = q.capacity) {serial : UInt32} (hserial : serial.toNat = q.last + 1)
    (update : Update) (hread : ∀ hdr : UlogHeader, hdr.block = u.hdr.block →
      ∃ entry, readEntry (newFirst u.capacity serial u.hdr.firstSno) { u with hdr } =
        .ok entry { u with hdr }) :
    ∃ hdr : UlogHeader, advance serial update.time u = .ok () { u with hdr } ∧
      Describes hdr (q.add update) ∧ hdr.block = u.hdr.block ∧ hdr.version = u.hdr.version := by
  obtain ⟨hdr, hmove, hfirst, hblock, hversion⟩ := moveFirst_eq update.time hread
  have hlast : u.hdr.lastSno = 0 ∨ u.hdr.lastSno ≤ serial := by
    rw [le_iff_toNat_le, hdesc.lastSno]
    omega
  have hfirst₀ : q.first = max q.base (q.last + 1 - q.capacity) := rfl
  have hfirst₁ := Queue.first_add q update
  have hlast₀ : q.last = q.base + q.added.length := rfl
  have hcappos := hq.capacity
  have hnum := hdesc.numEntries
  have hcount : (countEntries u.hdr u.capacity serial).toNat =
      q.last + 1 + 1 - (q.add update).first := by
    have hnew : ¬ (0 < u.hdr.numEntries ∧ u.hdr.firstSno ≤ serial ∧ serial ≤ u.hdr.lastSno) := by
      rintro ⟨_, _, hle⟩
      rw [le_iff_toNat_le, hdesc.lastSno] at hle
      omega
    unfold countEntries
    rw [if_neg (numEntries_ne_zero hdesc hq)]
    split_ifs with hlt <;> rw [lt_iff_toNat_lt] at hlt
    · rw [UInt32.toNat_add, toNat_one]
      omega
    · omega
  refine ⟨{ hdr with lastSno := serial, lastTime := update.time,
                     numEntries := countEntries u.hdr u.capacity serial }, ?_,
    ⟨hfirst ▸ newFirst_eq hdesc hq hcap hserial update, ?_, ?_, ?_⟩, hblock, hversion⟩
  · unfold advance
    rw [get_bind, if_pos hlast]
    exact ok_bind hmove
  · rw [Queue.last_add]
    exact hserial
  · simp [Queue.lastTime, Queue.add]
  · rw [Queue.last_add]
    exact hcount

/-- **Adding an update.** -/
theorem Holds.addUpdate (h : Holds u q) {update : Update}
    (hproper : (UlogOp.addUpdate update).Proper u)
    (hroom : (UlogOp.addUpdate update).Room u) :
    ∃ u', Ulog.addUpdate update u = .ok () u' ∧ Holds u' (q.add update) := by
  obtain ⟨hnext, hfits⟩ := hproper
  have hlast := h.describes.lastSno
  have hq := h.numbered
  have hlt : q.last + 1 < 2 ^ 32 - 1 := by
    have hroom' : u.hdr.lastSno.toNat < 4294967294 := lt_iff_toNat_lt.1 hroom
    omega
  have hserial : u.hdr.lastSno + 1 = ofNat (q.last + 1) := by
    rw [← UInt32.toNat_inj, toNat_ofNat_next hlt, UInt32.toNat_add, toNat_one]
    omega
  -- the update with its serial
  obtain ⟨up, hup⟩ : ∃ up : Update, up = { update with entrySno := ofNat (q.last + 1) } := ⟨_, rfl⟩
  have hnat : up.entrySno.toNat = q.last + 1 := by
    rw [hup]
    exact toNat_ofNat_next hlt
  have htime : up.time = update.time := by rw [hup]
  have hnumbered : u.numbered update = up := by
    rw [hup, Ulog.numbered, ← hserial]
    split_ifs with h0
    · rfl
    · rw [← hnext.resolve_left h0]
  have hpayload : up.marshalXDR.length ≤ 2024 := by
    rw [hup, length_marshalXDR]
    exact hfits
  have hlen : u.disk.content.length = ulogHeaderSize + q.capacity * 2048 := by
    rw [h.sound.size, h.capacity]
  have hoff : u.blockOffset up.entrySno = ulogHeaderSize + q.last % q.capacity * 2048 := by
    unfold blockOffset
    rw [slot_eq h.capacity hnat (by omega), h.sound.block]
    rfl
  have hslot : q.last % q.capacity < q.capacity := mod_lt _ hq.capacity.1
  -- the file with the new block
  obtain ⟨content, hcontent⟩ : ∃ content, content =
    overwrite u.disk.content (ulogHeaderSize + q.last % q.capacity * 2048)
      (entryBlock 2048 up.entrySno up.time up.commit up.marshalXDR) := ⟨_, rfl⟩
  have hcontentlen : content.length = ulogHeaderSize + q.capacity * 2048 := by
    have hblocklen :=
      length_entryBlock up.entrySno up.time up.commit (Nat.add_le_add_left hpayload 24)
    rw [hcontent, length_overwrite (by rw [hblocklen, hlen]; omega), hlen]
  have hstored : Stored content (q.add update) := by
    rw [hcontent]
    exact h.stored.add hq hlen hup hpayload
  have hq' := hq.add hlt hfits
  have hfirst := newFirst_eq h.describes hq h.capacity hnat update
  have hread (hdr : UlogHeader) (hblock : hdr.block = u.hdr.block) :
      ∃ entry, readEntry (newFirst u.capacity up.entrySno u.hdr.firstSno)
        ({ u with hdr }.withContent content) =
        .ok entry ({ u with hdr }.withContent content) :=
    read_retained (q := q.add update) ⟨h.sound.faults, hblock.trans h.sound.block, h.sound.capacity,
      by rw [← h.capacity] at hcontentlen; exact hcontentlen⟩ h.capacity hq' hstored hfirst.ge
      (hfirst.le.trans hq'.first_le_last)
  obtain ⟨hdr, hadvance, hdesc, hblock, hversion⟩ :=
    advance_eq (u := u.withContent content) h.describes hq h.capacity hnat update hread
  refine ⟨{ u with hdr }.withContent (overwrite content 0 (headerBytes hdr)), ?_, ?_⟩
  · unfold Ulog.addUpdate
    rw [ok_bind (writable_eq h.isOpen h.readOnly), get_bind, hnumbered, h.sound.block,
      show ulogBlock.toNat = 2048 from rfl, ok_bind
        (ensure_of (show up.marshalXDR.length ≤ 2048 - ulogEntrySize from hpayload) u), hoff,
      ok_bind (writeAt_eq h.sound.faults _ _), ← hcontent, htime, ok_bind hadvance]
    exact syncHeader_eq h.sound.faults
  · have hge : ulogHeaderSize ≤ content.length := by omega
    refine ⟨⟨h.sound.faults, hblock.trans h.sound.block, h.sound.capacity, ?_⟩,
      h.isOpen, h.readOnly, hversion.trans h.version, header_overwrite hge hdr, h.capacity,
        hq', hdesc, ?_⟩
    · show (overwrite content 0 (headerBytes hdr)).length = _ + u.capacity.toNat * 2048
      rw [length_overwrite (by rw [length_headerBytes]; omega), hcontentlen, h.capacity]
    · intro s hs hs'
      exact (blockAt_overwrite_header hge _ _).trans (hstored s hs hs')

/-! ## Emptying the log -/

theorem truncate_eq (hf : u.disk.faults = []) (size : ℕ) :
    truncate size u = .ok () (u.withContent (u.disk.content.takeD size 0)) := by
  obtain ⟨⟨content, faults⟩, isOpen, hdr, capacity, readOnly⟩ := u
  cases hf
  rfl

theorem writeDummy_eq (hf : u.disk.faults = []) (hblock : u.hdr.block = ulogBlock)
    (serial : UInt32) :
    writeDummy serial u = .ok () (u.withContent (overwrite u.disk.content
      (ulogHeaderSize + ((serial - 1) % u.capacity).toNat * 2048) (dummyBlock serial))) := by
  unfold writeDummy
  rw [get_bind, writeAt_eq hf, blockOffset, hblock]
  rfl

theorem length_dummyBlock (serial : UInt32) : (dummyBlock serial).length = 2048 := by
  rw [dummyBlock_eq]
  exact length_entryBlock _ _ _ (by decide)

/-- The queue behind a placeholder, without updates. -/
def emptyQueue (capacity : UInt32) (hdr : UlogHeader) : Queue :=
  ⟨capacity.toNat, hdr.lastSno.toNat, hdr.lastTime, []⟩

/-- The header of an emptied log. -/
structure Fresh (hdr : UlogHeader) : Prop where
  version : hdr.version = ulogVersion
  block : hdr.block = ulogBlock
  numEntries : hdr.numEntries = 1
  firstSno : hdr.firstSno = hdr.lastSno
  lastSno : hdr.lastSno ≠ 0

/-- The log has a placeholder, and a header that says so. -/
structure Emptied (u : Ulog) (hdr : UlogHeader) (capacity : UInt32) : Prop where
  sound : u.Sound
  isOpen : u.isOpen = true
  readOnly : u.readOnly = false
  hdr_eq : u.hdr = hdr
  capacity_eq : u.capacity = capacity
  synced : slice u.disk.content 0 ulogHeaderSize = headerBytes u.hdr
  dummy : blockAt u.disk.content ((hdr.lastSno - 1) % capacity).toNat = dummyBlock hdr.lastSno

/-- Such a log holds the empty queue. -/
theorem Emptied.holds {hdr : UlogHeader} {capacity : UInt32} (h : Emptied u hdr capacity)
    (hfresh : Fresh hdr)
    (hcap : capacity.toNat ≤ 2 ^ 20) (hroom : hdr.lastSno ≠ 0xffffffff) :
    Holds u (emptyQueue capacity hdr) := by
  have hcappos : 0 < capacity.toNat := h.capacity_eq ▸ h.sound.capacity
  have hpos : 0 < hdr.lastSno.toNat := pos_of_ne_zero fun h0 =>
    hfresh.lastSno (UInt32.toNat_inj.1 h0)
  have hlt : hdr.lastSno.toNat < 2 ^ 32 - 1 := by
    have hne : hdr.lastSno.toNat ≠ 2 ^ 32 - 1 := fun h => hroom (UInt32.toNat_inj.1 h)
    have := hdr.lastSno.toNat_lt
    omega
  have hfirst : (emptyQueue capacity hdr).first = hdr.lastSno.toNat := by
    show max hdr.lastSno.toNat (hdr.lastSno.toNat + 0 + 1 - capacity.toNat) = hdr.lastSno.toNat
    omega
  have hlast : (emptyQueue capacity hdr).last = hdr.lastSno.toNat := rfl
  have hq : Numbered (emptyQueue capacity hdr) :=
    ⟨⟨hcappos, hcap⟩, hpos, hlt,
      fun i update hi => by simp [emptyQueue] at hi, fun update hup => by cases hup⟩
  have hdesc : Describes hdr (emptyQueue capacity hdr) := by
    refine ⟨?_, rfl, rfl, ?_⟩
    · rw [hfirst, hfresh.firstSno]
    · rw [hfresh.numEntries, toNat_one]
      omega
  refine ⟨h.sound, h.isOpen, h.readOnly, h.hdr_eq ▸ hfresh.version,
    h.synced, by rw [h.capacity_eq]; rfl, hq, h.hdr_eq ▸ hdesc, fun s hs hs' => ?_⟩
  obtain rfl : s = hdr.lastSno.toNat := le_antisymm hs' (hfirst.symm.le.trans hs)
  have hslot := slot_eq (q := emptyQueue capacity hdr) (by rw [h.capacity_eq]; rfl)
    (refl hdr.lastSno.toNat) hpos
  rw [h.capacity_eq] at hslot
  rw [← hslot, h.dummy, image,
    if_pos (show hdr.lastSno.toNat = (emptyQueue capacity hdr).base from rfl), UInt32.ofNat_toNat]

/-- Truncation, placeholder and header, as `Reset` and `SetCursor` write them. -/
theorem empty_eq (hf : u.disk.faults = []) (hblock : u.hdr.block = ulogBlock)
    (hopen : u.isOpen = true)
    (hro : u.readOnly = false) (hcap : 0 < u.capacity.toNat)
    (hlen : u.disk.content.length = ulogHeaderSize + u.capacity.toNat * 2048) :
    ∃ u', (do truncate u.fileSize; writeDummy u.hdr.lastSno; syncHeader : UlogM Unit) u =
      .ok () u' ∧
      Emptied u' u.hdr u.capacity := by
  have hsize : u.fileSize = u.disk.content.length := by
    rw [fileSize, hblock, hlen]
    rfl
  have hslot : ((u.hdr.lastSno - 1) % u.capacity).toNat < u.capacity.toNat := by
    exact mod_lt _ hcap
  obtain ⟨content, hcontent⟩ : ∃ content, content = overwrite u.disk.content
    (ulogHeaderSize + ((u.hdr.lastSno - 1) % u.capacity).toNat * 2048) (dummyBlock u.hdr.lastSno) :=
      ⟨_, rfl⟩
  have hcontentlen : content.length = ulogHeaderSize + u.capacity.toNat * 2048 := by
    rw [hcontent, length_overwrite (by rw [length_dummyBlock, hlen]; omega), hlen]
  have hge : ulogHeaderSize ≤ content.length := by omega
  have hheader : (headerBytes u.hdr).length = ulogHeaderSize := length_headerBytes _
  refine ⟨u.withContent (overwrite content 0 (headerBytes u.hdr)), ?_,
    ⟨hf, hblock, hcap, ?_⟩, hopen, hro, rfl, rfl, header_overwrite hge _, ?_⟩
  · rw [ok_bind (truncate_eq hf _), hsize, takeD_eq_take _ le_rfl, take_length,
      withContent_self, ok_bind (writeDummy_eq hf hblock _), ← hcontent]
    exact syncHeader_eq hf
  · exact (length_overwrite (by omega)).trans hcontentlen
  · refine (blockAt_overwrite_header hge _ _).trans ?_
    rw [hcontent, blockAt_overwrite (length_dummyBlock _) (by rw [hlen]; omega), if_pos rfl]

theorem fresh_default : Fresh {} := ⟨rfl, rfl, rfl, rfl, by decide⟩

theorem fresh_cursorHeader (last : Last) : Fresh (cursorHeader last) := by
  unfold cursorHeader
  split_ifs with h0
  · exact fresh_default
  · exact ⟨rfl, rfl, rfl, rfl, h0⟩

theorem lastSno_cursorHeader {last : Last} (h : last.lastSno ≠ 0xffffffff) :
    (cursorHeader last).lastSno ≠ 0xffffffff := by
  unfold cursorHeader
  split_ifs with h0
  · decide
  · exact h

theorem Holds.capacity_le (h : Holds u q) : u.capacity.toNat ≤ 2 ^ 20 := by
  rw [h.capacity]
  exact h.numbered.capacity.2

/-- The run of `SetCursor`, whatever the cursor. -/
theorem Holds.setCursor_emptied (h : Holds u q) (last : Last) :
    ∃ u', Ulog.setCursor last u = .ok () u' ∧ Emptied u' (cursorHeader last) u.capacity := by
  obtain ⟨u', hrun, hemptied⟩ := empty_eq (u := { u with hdr := cursorHeader last }) h.sound.faults
    (fresh_cursorHeader last).block h.isOpen h.readOnly h.sound.capacity h.sound.size
  refine ⟨u', ?_, hemptied⟩
  unfold setCursor
  rw [ok_bind (writable_eq h.isOpen h.readOnly)]
  exact (ok_bind rfl).trans hrun

theorem Holds.setCursor (h : Holds u q) {last : Last} (hroom : (UlogOp.setCursor last).Room u) :
    ∃ u', Ulog.setCursor last u = .ok () u' ∧ Holds u' (q.clear last) := by
  obtain ⟨u', hrun, hemptied⟩ := h.setCursor_emptied last
  have hclear : emptyQueue u.capacity (cursorHeader last) = q.clear last := by
    unfold emptyQueue cursorHeader Queue.clear
    rw [h.capacity]
    split_ifs <;> rfl
  rw [← hclear]
  exact ⟨u', hrun, hemptied.holds (fresh_cursorHeader last) h.capacity_le
    (lastSno_cursorHeader hroom)⟩

/-- `Reset` is `SetCursor` without a cursor. -/
theorem reset_eq : Ulog.reset = Ulog.setCursor ⟨0, .zero⟩ := by
  have hheader : cursorHeader ⟨0, .zero⟩ = {} := if_pos rfl
  unfold reset setCursor
  rw [hheader]
  refine congrArg (writable >>= ·) (funext fun _ => funext fun u => ?_)
  rw [modify_bind, modify_bind, get_bind, get_bind]

/-- **A new log.** -/
theorem holds_create (hf : u.disk.faults = []) {entries : UInt32}
    (hentries : entries.toNat ≤ 2 ^ 20) :
    ∃ u', Ulog.create entries u = .ok () u' ∧ Holds u' (.new entries) := by
  obtain ⟨⟨old, faults⟩, isOpen, hdr, capacity, readOnly⟩ := u
  cases hf
  obtain ⟨num, hnum⟩ : ∃ num, num = if entries = 0 then ulogEntries else entries := ⟨_, rfl⟩
  have hnew : Queue.new entries = emptyQueue num {} := by
    rw [hnum, Queue.new]
    split_ifs <;> rfl
  have hle : 0 < num.toNat ∧ num.toNat ≤ 2 ^ 20 := by
    rw [hnum]
    split_ifs with h0
    · decide
    · exact ⟨pos_of_ne_zero fun h => h0 (UInt32.toNat_inj.1 h), hentries⟩
  -- the file after the header has been written and the file has been extended
  obtain ⟨content, hcontent⟩ : ∃ content, content =
    (headerBytes {}).takeD (ulogHeaderSize + num.toNat * 2048) 0 := ⟨_, rfl⟩
  have hlen : content.length = ulogHeaderSize + num.toNat * 2048 := by
    rw [hcontent, takeD_length]
  have hheader : slice content 0 ulogHeaderSize = headerBytes {} := by
    rw [hcontent, add_comm]
    rfl
  have hslot : ((1 - 1 : UInt32) % num).toNat = 0 := by
    rfl
  have hfit : ulogHeaderSize + 0 * 2048 + 2048 ≤ content.length := by
    omega
  rw [hnew]
  obtain ⟨u', hu'⟩ : ∃ u' : Ulog, u' =
    ⟨⟨overwrite content (ulogHeaderSize + 0 * 2048) (dummyBlock 1), []⟩, true, {}, num, false⟩ :=
      ⟨_, rfl⟩
  have hemptied : Emptied u' {} num := by
    rw [hu']
    refine ⟨⟨rfl, rfl, hle.1, ?_⟩, rfl, rfl, rfl, rfl, ?_, ?_⟩
    · rw [length_overwrite (by rw [length_dummyBlock]; exact hfit), hlen]
    · rw [slice_overwrite_of_disjoint (by rw [length_dummyBlock]; exact hfit) (.inl (by simp)),
        hheader]
    · rw [hslot, blockAt_overwrite (length_dummyBlock 1) hfit, if_pos rfl]
  refine ⟨u', ?_, hemptied.holds fresh_default hle.2 (by decide)⟩
  unfold create
  rw [← hnum, ok_bind (ensure_of hle.2 _)]
  refine (ok_bind rfl).trans ((ok_bind (syncHeader_eq rfl)).trans ?_)
  refine (ok_bind rfl).trans ((ok_bind (truncate_eq rfl _)).trans ?_)
  rw [hu', hcontent]
  rfl

/-- **A log that is closed and opened again.** -/
theorem Holds.reopen (h : Holds u q) : UlogOp.reopen.run u = .ok () u := by
  have hblock : u.hdr.block.toNat = 2048 := by
    rw [h.sound.block]
    rfl
  have hsize := h.sound.size
  have hdiv : (u.disk.content.length - ulogHeaderSize) / 2048 = u.capacity.toNat := by omega
  have hread := readHeader_eq (u := { u with isOpen := false }) h.sound.faults
    (show ulogHeaderSize ≤ u.disk.content.length by omega) h.synced
    ⟨h.version, numEntries_ne_zero h.describes h.numbered, by rw [hblock]; decide⟩
  have hcap : ofNat ((u.disk.content.length - ulogHeaderSize) / 2048) = u.capacity := by
    rw [hdiv, UInt32.ofNat_toNat]
  have hcap0 : u.capacity ≠ 0 := by
    intro h0
    have := h.sound.capacity
    rw [h0] at this
    cases this
  refine (ok_bind rfl).trans ?_
  unfold openFile
  rw [get_bind, ok_bind hread, get_bind, hblock,
    ok_bind (ensure_of (show ulogHeaderSize ≤ u.disk.content.length ∧
      (u.disk.content.length - ulogHeaderSize) % 2048 = 0 by omega) _), hcap,
        ok_bind (ensure_of hcap0 _)]
  show Result.ok () ({ u with readOnly := false, isOpen := true } : Ulog) = _
  rw [← h.readOnly, ← h.isOpen]

/-! ## Runs -/

/-- **Step.** Every operation with room succeeds, and the log holds the queue it means. -/
theorem Holds.step (h : Holds u q) {op : UlogOp} (hproper : op.Proper u) (hroom : op.Room u) :
    ∃ u', op.run u = .ok () u' ∧ Holds u' (op.meaning q) := by
  cases op with
  | create entries => exact holds_create h.sound.faults hproper
  | addUpdate update => exact h.addUpdate hproper hroom
  | setCursor last => exact h.setCursor hroom
  | reset =>
    show ∃ u', reset u = .ok () u' ∧ Holds u' (q.clear ⟨0, .zero⟩)
    rw [reset_eq]
    exact h.setCursor (show (0 : UInt32) ≠ 0xffffffff by decide)
  | reopen => exact ⟨u, h.reopen, h⟩

/-- **The log refines the queue over every run with room.** After a run from a new log its header
describes the queue, `GetEntries` ends and gives what the queue retains, each update as it was
added, and the next operation succeeds. -/
theorem ulog_refines_queue (u₀ : Ulog) (hf : u₀.disk.faults = []) (entries : UInt32)
    (hentries : entries.toNat ≤ 2 ^ 20) : ∃ u, create entries u₀ = .ok () u ∧ ∀ ops u' q',
      Run (Guarded UlogStep fun s op => op.Room s.1) (u, .new entries) ops (u', q') →
        Describes u'.hdr q' ∧
      (∀ after, after ≠ 0xffffffff →
        ∃ fuel, getEntries fuel after u' = .ok (some ((q'.entries after).map .ofUpdate)) u') ∧
      ∀ op : UlogOp, op.Proper u' → op.Room u' → ∃ u'', op.run u' = .ok () u'' := by
  obtain ⟨u, hcreate, hnew⟩ := holds_create hf hentries
  refine ⟨u, hcreate, fun ops u' q' hrun => ?_⟩
  have hstep : ∀ s (op : UlogOp) s', Holds s.1 s.2 →
      Guarded UlogStep (fun s op => op.Room s.1) s op s' → Holds s'.1 s'.2 := by
    rintro ⟨u, q⟩ op ⟨u', q'⟩ hholds ⟨⟨hproper, hrun, hmeaning⟩, hroom⟩
    obtain ⟨u'', hrun', hholds'⟩ := hholds.step hproper hroom
    cases hmeaning
    cases hrun.symm.trans hrun'
    exact hholds'
  have h : Holds u' q' := Run.invariant hstep hrun hnew
  exact ⟨h.describes, fun after hafter => getEntries_eq h hafter, fun op hproper hroom =>
    let ⟨u'', hrun, _⟩ := h.step hproper hroom; ⟨u'', hrun⟩⟩

/-- A file that is empty yet. -/
def blank : Ulog := { disk := ⟨[], []⟩, capacity := 1 }

/-- The deletion of a principal. -/
def deletion : Update :=
  { principalName := str "c@R", entrySno := 0, time := .zero, entry := [], deleted := true,
    commit := true }

/-- A log of one update, asked for what comes after the greatest serial. -/
def afterGreatest : Option (List UlogEntry) :=
  match (do create 1; addUpdate deletion; getEntries 4 0xffffffff : UlogM _) blank with
  | .ok entries _ => entries
  | .error _ _ => none

/-- After the greatest serial the log gives all it has, and with it as the last one `GetEntries`
never returns. -/
theorem getEntries_of_greatest :
    (∃ u u' u'', create 1 blank = .ok () u ∧ addUpdate deletion u = .ok () u' ∧
      getEntries 4 0xffffffff u' = .ok (some [.ofUpdate { deletion with entrySno := 2 }]) u'' ∧
      ((Queue.new 1).add deletion).entries 0xffffffff = []) ∧
    ∃ u u', create 1 blank = .ok () u ∧ setCursor ⟨0xffffffff, .zero⟩ u = .ok () u' ∧
      ∀ fuel after, getEntries fuel after u' = .ok none u' := by
  constructor
  · have hrun : afterGreatest = some [.ofUpdate { deletion with entrySno := 2 }] := by
      decide +kernel
    unfold afterGreatest at hrun
    split at hrun
    case h_1 entries u'' hok =>
      cases hrun
      obtain ⟨_, u, hcreate, hok⟩ := bind_eq_ok.1 hok
      obtain ⟨_, u', hadd, hget⟩ := bind_eq_ok.1 hok
      exact ⟨u, u', u'', hcreate, hadd, hget, by decide +kernel⟩
    case h_2 => cases hrun
  · obtain ⟨u, hcreate, hholds⟩ :=
      holds_create (u := blank) rfl (show (1 : UInt32).toNat ≤ 2 ^ 20 by decide)
    obtain ⟨u', hset, hemptied⟩ := hholds.setCursor_emptied ⟨0xffffffff, .zero⟩
    refine ⟨u, u', hcreate, hset, fun fuel after => ?_⟩
    have hcap : u'.capacity = 1 := by
      rw [hemptied.capacity_eq, ← UInt32.toNat_inj, hholds.capacity]
      rfl
    have hlast : u'.hdr.lastSno = 0xffffffff := by
      rw [hemptied.hdr_eq]
      rfl
    have hread (serial : UInt32) (e : String) : u'.entryAt serial ≠ .error e := by
      have hslot (s : UInt32) : ((s - 1) % 1).toNat = 0 := by
        rw [UInt32.toNat_mod, toNat_one, mod_one]
      have hdummy := hemptied.dummy
      rw [← hemptied.capacity_eq, hcap] at hdummy
      have hblock : u'.blockOf (u'.slotOf serial) = dummyBlock 0xffffffff := by
        rw [slotOf, hcap, hslot, blockOf, hemptied.sound.block]
        exact hdummy
      rw [entryAt, hblock]
      by_cases hs : serial = 0xffffffff
      · rw [hs, decodeEntry_dummyBlock]
        exact fun heq => by cases heq
      · rw [dummyBlock_eq, entryBlock, append_assoc, decodeEntry, get32_magic,
          if_neg (not_not_intro rfl), if_pos (fun h => hs h.symm)]
        exact fun heq => by cases heq
    have hnone (serial : UInt32) : collect 0xffffffff u'.entryAt fuel serial = .ok none := by
      by_contra hne
      obtain ⟨j, -, e, he⟩ := collect_greatest_iff.1 hne
      exact hread _ e he
    rw [getEntries_settled hemptied.sound.covered hemptied.sound.faults, answer,
      if_pos hemptied.isOpen, hlast, hnone]
    rfl

/-- Two updates in a log of one block, which is closed and opened in between. -/
theorem ulog_refines_queue_two : ∃ u u' q, create 1 blank = .ok () u ∧
    Run (Guarded UlogStep fun s op => op.Room s.1) (u, .new 1)
      [.addUpdate deletion, .reopen, .addUpdate { deletion with entrySno := 3 }] (u', q) ∧
    ∃ fuel, getEntries fuel 0 u' = .ok (some [.ofUpdate { deletion with entrySno := 3 }]) u' := by
  obtain ⟨u, hcreate, hall⟩ := ulog_refines_queue blank rfl 1 (by decide)
  obtain ⟨v, hcreate', hholds⟩ :=
    holds_create (u := blank) rfl (show (1 : UInt32).toNat ≤ 2 ^ 20 by decide)
  cases hcreate.symm.trans hcreate'
  have hadd {v : Ulog} {q : Queue} (h : Holds v q) (hq : q.last < 4) {update : Update}
      (hproper : (UlogOp.addUpdate update).Proper v) : ∃ v',
        Guarded UlogStep (fun s op => op.Room s.1) (v, q)
        (.addUpdate update) (v', q.add update) ∧ Holds v' (q.add update) := by
    have hroom : (UlogOp.addUpdate update).Room v := by
      show v.hdr.lastSno < 0xfffffffe
      rw [lt_iff_toNat_lt, h.describes.lastSno]
      exact hq.trans (by decide)
    obtain ⟨v', hrun, h'⟩ := h.step hproper hroom
    exact ⟨v', ⟨⟨hproper, hrun, rfl⟩, hroom⟩, h'⟩
  have hproper : (UlogOp.addUpdate deletion).Proper u := ⟨.inl rfl, by decide +kernel⟩
  obtain ⟨u₁, h₁, hholds⟩ := hadd hholds (by decide) hproper
  have h₂ : Guarded UlogStep (fun s op => op.Room s.1) (u₁, (Queue.new 1).add deletion) .reopen
      (u₁, (Queue.new 1).add deletion) := ⟨⟨trivial, hholds.reopen, rfl⟩, trivial⟩
  have hlast : u₁.hdr.lastSno = 2 := UInt32.toNat_inj.1 hholds.describes.lastSno
  have hproper : (UlogOp.addUpdate { deletion with entrySno := 3 }).Proper u₁ := by
    refine ⟨.inr ?_, by decide +kernel⟩
    rw [hlast]
    rfl
  obtain ⟨u₃, h₃, -⟩ := hadd hholds (by decide) hproper
  have hrun := Run.cons h₁ (.cons h₂ (.cons h₃ (.nil _)))
  obtain ⟨_, hentries, _⟩ := hall _ _ _ hrun
  exact ⟨u, u₃, _, hcreate, hrun, hentries 0 (by decide)⟩

end Kerberos.Iprop.Ulog
