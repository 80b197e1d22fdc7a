import Kerberos.Lib.Run
import Kerberos.Proof.UlogBlocks

/-!
# The update log on disk is a bounded queue

`Queue` says what the log is for: the updates added since it was last emptied, in the order of
their serials, of which the newest `capacity` serials are retained. A placeholder has the serial
the log was emptied with. `Holds u q` ties a log to a queue; every operation keeps it.

The serials are 32-bit numbers, and the loop of `GetEntries` runs until the serial is greater than
the last one. So the log works as a queue only below the greatest serial (`Room`).
-/

namespace Kerberos.Iprop

open Transition List UInt32 EStateM

/-! ## The queue -/

/-- The updates added behind a placeholder. -/
structure Queue where
  capacity : ℕ
  /-- The serial of the placeholder. -/
  base : ℕ
  since : Time
  added : List Update

namespace Queue

/-- The serial added last. -/
def last (q : Queue) : ℕ := q.base + q.added.length

/-- The oldest of the newest `capacity` serials. -/
def first (q : Queue) : ℕ := max q.base (q.last + 1 - q.capacity)

def lastTime (q : Queue) : Time := (q.added.getLast?.map Update.time).getD q.since

/-- The retained updates with a serial greater than `after`. -/
def entries (q : Queue) (after : UInt32) : List Update :=
  q.added.filter fun update => after < update.entrySno ∧ q.last < update.entrySno.toNat + q.capacity

def new (entries : UInt32) : Queue :=
  ⟨if entries = 0 then 1000 else entries.toNat, 1, .zero, []⟩

def add (q : Queue) (update : Update) : Queue :=
  { q with added := q.added ++ [{ update with entrySno := UInt32.ofNat (q.last + 1) }] }

/-- No updates, behind the cursor of a replica. -/
def clear (q : Queue) (cursor : Last) : Queue :=
  { q with
    base := if cursor.lastSno = 0 then 1 else cursor.lastSno.toNat
    since := if cursor.lastSno = 0 then .zero else cursor.lastTime
    added := [] }

theorem last_add (q : Queue) (update : Update) : (q.add update).last = q.last + 1 := by
  simp only [last, add, length_append, length_singleton]
  omega

theorem first_add (q : Queue) (update : Update) :
    (q.add update).first = max q.base (q.last + 1 + 1 - q.capacity) := by
  rw [← last_add]
  rfl

end Queue

/-! ## Runs -/

inductive UlogOp
  | create (entries : UInt32)
  | addUpdate (update : Update)
  | setCursor (last : Last)
  | reset
  | reopen

namespace UlogOp

def run : UlogOp → UlogM Unit
  | create entries => Ulog.create entries
  | addUpdate update => Ulog.addUpdate update
  | setCursor last => Ulog.setCursor last
  | reset => Ulog.reset
  | reopen => do
    Ulog.close
    Ulog.openFile false

/-- What the operation means for the queue. -/
def meaning (q : Queue) : UlogOp → Queue
  | create entries => .new entries
  | addUpdate update => q.add update
  | setCursor last => q.clear last
  | reset => q.clear ⟨0, .zero⟩
  | reopen => q

/-- An update carries no serial or the next one, and fits a block. -/
def Proper (u : Ulog) : UlogOp → Prop
  | create entries => entries.toNat ≤ 2 ^ 20
  | addUpdate update => (update.entrySno = 0 ∨ update.entrySno = u.hdr.lastSno + 1) ∧
      update.marshalXDR.length ≤ 2024
  | _ => True

/-- The last serial stays below the greatest. -/
def Room (u : Ulog) : UlogOp → Prop
  | addUpdate _ => u.hdr.lastSno < 0xfffffffe
  | setCursor last => last.lastSno ≠ 0xffffffff
  | _ => True

end UlogOp

/-- An operation on a log, and on the queue it stands for. -/
def UlogStep (s : Ulog × Queue) (op : UlogOp) (s' : Ulog × Queue) : Prop :=
  op.Proper s.1 ∧ op.run s.1 = .ok () s'.1 ∧ s'.2 = op.meaning s.2

/-- An update as `GetEntries` gives it. -/
def UlogEntry.ofUpdate (update : Update) : UlogEntry :=
  ⟨update.entrySno, update.time, update.commit, some update⟩

namespace Ulog

/-- The block that holds a serial of the queue. -/
def image (q : Queue) (s : ℕ) : Bytes :=
  if s = q.base then dummyBlock (UInt32.ofNat s)
  else ((q.added[s - q.base - 1]?).map fun update =>
    entryBlock 2048 update.entrySno update.time update.commit update.marshalXDR).getD []

/-- The retained serials are in their blocks. -/
def Stored (content : Bytes) (q : Queue) : Prop :=
  ∀ s, q.first ≤ s → s ≤ q.last → blockAt content ((s - 1) % q.capacity) = image q s

/-- The queue numbers its updates from the placeholder on, below the greatest serial, and each
fits a block. -/
structure Numbered (q : Queue) : Prop where
  capacity : 0 < q.capacity ∧ q.capacity ≤ 2 ^ 20
  base_pos : 0 < q.base
  last_lt : q.last < 2 ^ 32 - 1
  serial : ∀ i update, q.added[i]? = some update → update.entrySno.toNat = q.base + 1 + i
  fits : ∀ update ∈ q.added, update.marshalXDR.length ≤ 2024

theorem Numbered.first_le_last {q : Queue} (hq : Numbered q) : q.first ≤ q.last := by
  have hbase : q.base ≤ q.last := Nat.le_add_right _ _
  have := hq.capacity.1
  unfold Queue.first
  omega

/-- The header describes the queue. -/
structure Describes (hdr : UlogHeader) (q : Queue) : Prop where
  firstSno : hdr.firstSno.toNat = q.first
  lastSno : hdr.lastSno.toNat = q.last
  lastTime : hdr.lastTime = q.lastTime
  numEntries : hdr.numEntries.toNat = q.last + 1 - q.first

/-- **The log holds the queue.** -/
structure Holds (u : Ulog) (q : Queue) : Prop where
  sound : u.Sound
  isOpen : u.isOpen = true
  readOnly : u.readOnly = false
  version : u.hdr.version = ulogVersion
  synced : Disk.slice u.disk.content 0 ulogHeaderSize = headerBytes u.hdr
  capacity : u.capacity.toNat = q.capacity
  numbered : Numbered q
  describes : Describes u.hdr q
  stored : Stored u.disk.content q

/-! ## Reading -/

variable {serial : UInt32}

theorem slot_eq {u : Ulog} {q : Queue} (hcap : u.capacity.toNat = q.capacity) {s : ℕ}
    (hs : serial.toNat = s) (hpos : 0 < s) :
    ((serial - 1) % u.capacity).toNat = (s - 1) % q.capacity := by
  have hle : (1 : UInt32) ≤ serial := by
    rw [le_iff_toNat_le, hs]
    exact hpos
  rw [UInt32.toNat_mod, UInt32.toNat_sub_of_le _ _ hle, hs, hcap]
  rfl

/-- A serial behind the placeholder is that of an update. -/
theorem Numbered.exists_added {q : Queue} (hq : Numbered q) (hbase : q.base < serial.toNat)
    (hlast : serial.toNat ≤ q.last) :
    ∃ update, q.added[serial.toNat - q.base - 1]? = some update ∧ update.entrySno = serial := by
  unfold Queue.last at hlast
  have hidx : serial.toNat - q.base - 1 < q.added.length := by omega
  have hupdate := getElem?_eq_getElem hidx
  refine ⟨_, hupdate, ?_⟩
  rw [← UInt32.toNat_inj, hq.serial _ _ hupdate]
  omega

section Read

variable {u : Ulog} {q : Queue} (hsound : u.Sound) (hcap : u.capacity.toNat = q.capacity)
  (hq : Numbered q) (hstored : Stored u.disk.content q)

include hsound hcap hq hstored

theorem read_base (hfirst : q.first ≤ q.base) :
    readEntry (UInt32.ofNat q.base) u = .ok { serial := UInt32.ofNat q.base } u := by
  have hlast : q.base ≤ q.last := Nat.le_add_right _ _
  have hlt := hq.last_lt
  have hnat : (ofNat q.base).toNat = q.base := by
    rw [toNat_ofNat']
    omega
  refine readEntry_eq hsound ?_
  rw [slot_eq hcap hnat hq.base_pos, hstored q.base hfirst hlast, image, if_pos rfl]
  exact decodeEntry_dummyBlock _

theorem read_added {i : ℕ} {update : Update} (hi : q.added[i]? = some update)
    (hfirst : q.first ≤ q.base + 1 + i) :
    readEntry update.entrySno u = .ok (.ofUpdate update) u := by
  have hserial := hq.serial i update hi
  have hlast : q.base + 1 + i ≤ q.last := by
    have := (List.getElem?_eq_some_iff.1 hi).1
    unfold Queue.last
    omega
  refine readEntry_eq hsound ?_
  rw [slot_eq hcap hserial (by omega), hstored _ hfirst hlast, image, if_neg (by omega),
    show q.base + 1 + i - q.base - 1 = i by omega, hi]
  exact decodeEntry_entryBlock (hq.fits update (mem_of_getElem? hi))

/-- Every retained serial reads without an error. -/
theorem read_retained (hfirst : q.first ≤ serial.toNat) (hlast : serial.toNat ≤ q.last) :
    ∃ entry, readEntry serial u = .ok entry u := by
  have hbase : q.base ≤ q.first := le_max_left _ _
  obtain heq | hlt := hbase.trans hfirst |>.eq_or_lt
  · have := read_base hsound hcap hq hstored (heq ▸ hfirst)
    rw [heq, UInt32.ofNat_toNat] at this
    exact ⟨_, this⟩
  · obtain ⟨update, hupdate, rfl⟩ := hq.exists_added hlt hlast
    exact ⟨_, read_added hsound hcap hq hstored hupdate (by omega)⟩

end Read

variable {u : Ulog} {q : Queue}

/-- The loop collects the updates from a serial on. -/
theorem entriesFrom_eq (h : Holds u q) (n : ℕ) (hn : serial.toNat + n = q.last + 1)
    (hfirst : q.first ≤ serial.toNat) : entriesFrom (n + 1) serial u =
      .ok (some ((q.added.drop (serial.toNat - q.base - 1)).map UlogEntry.ofUpdate)) u := by
  have hlt := h.numbered.last_lt
  induction n generalizing serial with
  | zero =>
    have hend : u.hdr.lastSno < serial := by
      rw [lt_iff_toNat_lt, h.describes.lastSno]
      omega
    have hdrop : q.added.drop (serial.toNat - q.base - 1) = [] := by
      rw [drop_eq_nil_iff]
      unfold Queue.last at hn
      omega
    unfold entriesFrom
    rw [get_bind, if_pos hend, hdrop]
    rfl
  | succ n ih =>
    have hgo : ¬ u.hdr.lastSno < serial := by
      rw [lt_iff_toNat_lt, h.describes.lastSno]
      omega
    have hnext : (serial + 1).toNat = serial.toNat + 1 := by
      rw [UInt32.toNat_add, toNat_one]
      omega
    have hrest := @ih (serial + 1) (by omega) (by omega)
    have hbase : q.base ≤ q.first := le_max_left _ _
    unfold entriesFrom
    rw [get_bind, if_neg hgo]
    obtain heq | hlt' := hbase.trans hfirst |>.eq_or_lt
    · -- the placeholder is left out
      have hread := read_base h.sound h.capacity h.numbered h.stored (heq ▸ hfirst)
      rw [heq, UInt32.ofNat_toNat] at hread
      rw [ok_bind hread, ok_bind hrest, hnext,
        show serial.toNat + 1 - q.base - 1 = 0 by
          omega, show serial.toNat - q.base - 1 = 0 by omega]
      rfl
    · obtain ⟨update, hupdate, rfl⟩ := h.numbered.exists_added hlt' (by omega)
      obtain ⟨hidx, hget⟩ := List.getElem?_eq_some_iff.1 hupdate
      rw [ok_bind (read_added h.sound h.capacity h.numbered h.stored hupdate (by omega)),
        ok_bind hrest, hnext, show update.entrySno.toNat + 1 - q.base - 1 =
          (update.entrySno.toNat - q.base - 1) + 1 by omega,
        drop_eq_getElem_cons hidx, hget]
      rfl

/-- What is retained behind `after` is an end piece of what was added. -/
theorem entries_eq_drop (hq : Numbered q) {after : UInt32} {s : ℕ}
    (hs : s = if q.first ≤ after.toNat then after.toNat + 1 else q.first) :
    q.entries after = q.added.drop (s - q.base - 1) := by
  have hretained (update : Update) (i : ℕ) (hi : q.added[i]? = some update) :
      (after < update.entrySno ∧ q.last < update.entrySno.toNat + q.capacity) ↔
        s - q.base - 1 ≤ i := by
    have hserial := hq.serial i update hi
    have hfirst : q.first = max q.base (q.last + 1 - q.capacity) := rfl
    rw [lt_iff_toNat_lt]
    split_ifs at hs <;> omega
  unfold Queue.entries
  conv_lhs => rw [← take_append_drop (s - q.base - 1) q.added]
  rw [filter_append, filter_eq_nil_iff.2, filter_eq_self.2, nil_append]
  · intro update hmem
    obtain ⟨i, hi⟩ := mem_iff_getElem?.1 hmem
    rw [getElem?_drop] at hi
    exact decide_eq_true ((hretained update _ hi).2 (by omega))
  · intro update hmem hkeep
    obtain ⟨i, hi⟩ := mem_iff_getElem?.1 hmem
    rw [getElem?_take] at hi
    split_ifs at hi with hlt
    have := (hretained update i hi).1 (of_decide_eq_true hkeep)
    omega

/-- **`GetEntries` gives what the queue retains behind `after`.** -/
theorem getEntries_eq (h : Holds u q) {after : UInt32} (hafter : after ≠ 0xffffffff) :
    ∃ fuel, getEntries fuel after u = .ok (some ((q.entries after).map .ofUpdate)) u := by
  have hpos := h.numbered.base_pos
  have hlast : u.hdr.lastSno ≠ 0 := by
    intro h0
    have := h.describes.lastSno
    rw [h0] at this
    unfold Queue.last at this
    simp at this
    omega
  have hnext : (after + 1).toNat = after.toNat + 1 := by
    have hne : after.toNat ≠ 2 ^ 32 - 1 := fun he => hafter (UInt32.toNat_inj.1 he)
    have := after.toNat_lt
    rw [UInt32.toNat_add, toNat_one]
    omega
  obtain ⟨serial, hserial⟩ : ∃ serial, serial =
    if u.hdr.firstSno ≤ after then after + 1 else u.hdr.firstSno := ⟨_, rfl⟩
  have hnat : serial.toNat = if q.first ≤ after.toNat then after.toNat + 1 else q.first := by
    simp only [hserial, le_iff_toNat_le, h.describes.firstSno]
    split_ifs
    · exact hnext
    · exact h.describes.firstSno
  have hfirst : q.first ≤ serial.toNat := by
    rw [hnat]
    split_ifs <;> omega
  have hunfold (fuel : ℕ) : getEntries fuel after u = entriesFrom fuel serial u := by
    unfold getEntries
    rw [get_bind, ok_bind (ensure_of h.isOpen u), if_neg hlast, hserial]
  rw [entries_eq_drop h.numbered hnat]
  by_cases hend : serial.toNat ≤ q.last + 1
  · exact ⟨q.last + 1 - serial.toNat + 1, (hunfold _).trans (entriesFrom_eq h _ (by omega) hfirst)⟩
  · -- a cursor behind the last serial: the loop is not entered
    have hstop : u.hdr.lastSno < serial := by
      rw [lt_iff_toNat_lt, h.describes.lastSno]
      omega
    refine ⟨1, (hunfold 1).trans ?_⟩
    unfold entriesFrom
    rw [get_bind, if_pos hstop,
      drop_eq_nil_of_le (by unfold Queue.last at hend; omega)]
    rfl

end Ulog

end Kerberos.Iprop
