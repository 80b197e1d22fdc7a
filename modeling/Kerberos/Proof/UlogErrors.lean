import Kerberos.Proof.UlogFaults

/-!
# Loops without end and appends that fail

The loop of `GetEntries` runs as long as a 32-bit serial is not greater than the last one. If that
is the greatest serial, no serial is: the loop ends only at an entry that is refused
(`getEntries_halts_iff`).

`AddUpdate` writes a block, moves the header on in memory, reads the entry that has become the
first, and writes the header. An error in front of the first byte, or in a block without an update,
leaves what the log answers. **One that comes after the block of a new serial has already changed
the header** (`failed_append`).
-/

namespace Kerberos.Iprop.Ulog

open List Nat EStateM Disk UInt32

open EStateM (ok_bind error_bind)

variable {u u' : Ulog}

/-! ## What can be retrieved -/

/-- What `GetEntries` gives on a disk that works. -/
def retrieve (u : Ulog) (fuel : ℕ) (after : UInt32) : Except String (Option (List UlogEntry)) :=
  match getEntries fuel after { u with disk := { u.disk with faults := [] } } with
  | .ok entries _ => .ok entries
  | .error e _ => .error e

/-- The same can be retrieved from both. -/
def SameLog (u u' : Ulog) : Prop := ∀ fuel after, retrieve u fuel after = retrieve u' fuel after

theorem Covered.of_kept {v : Ulog} (h : Covered u) (hkept : Kept u v) : Covered v := by
  refine ⟨?_, ?_⟩
  · rw [hkept.capacity]
    exact h.capacity
  · rw [hkept.capacity, hkept.block, hkept.length]
    exact h.size

/-- The loop of `GetEntries` over what the blocks decode to. -/
def collect (last : UInt32) (read : UInt32 → Except String UlogEntry) :
    ℕ → UInt32 → Except String (Option (List UlogEntry))
  | 0, _ => .ok none
  | fuel + 1, serial =>
    if last < serial then .ok (some [])
    else do
      let entry ← read serial
      let rest ← collect last read fuel (serial + 1)
      pure (rest.map fun rest => if entry.update = none then rest else entry :: rest)

theorem entriesFrom_settled (h : Covered u) (hf : u.disk.faults = []) (fuel : ℕ) (serial : UInt32) :
    entriesFrom fuel serial u = settled u (collect u.hdr.lastSno u.entryAt fuel serial) := by
  induction fuel generalizing serial with
  | zero => rfl
  | succ fuel ih =>
    unfold entriesFrom collect
    rw [get_bind]
    split_ifs with hend
    · rfl
    · exact settled_bind (readEntry_settled h hf serial) fun entry =>
        settled_bind (ih (serial + 1)) fun rest => rfl

/-- The first serial that is read. -/
def firstRead (u : Ulog) (after : UInt32) : UInt32 :=
  if u.hdr.firstSno ≤ after then after + 1 else u.hdr.firstSno

/-- What `GetEntries` gives on such a disk. -/
def answer (u : Ulog) (fuel : ℕ) (after : UInt32) : Except String (Option (List UlogEntry)) :=
  if u.isOpen = true then
    if u.hdr.lastSno = 0 then .ok (some [])
      else collect u.hdr.lastSno u.entryAt fuel (u.firstRead after)
  else .error "iprop: closed ulog"

/-- Behind the greatest serial the loop starts at zero. -/
theorem answer_of_greatest (hopen : u.isOpen = true) (hzero : u.hdr.lastSno ≠ 0) (fuel : ℕ) :
    u.answer fuel 0xffffffff = collect u.hdr.lastSno u.entryAt fuel 0 := by
  have hfirst : u.firstRead 0xffffffff = 0 := by
    exact if_pos (le_iff_toNat_le.2 (le_of_lt_succ u.hdr.firstSno.toNat_lt))
  rw [answer, if_pos hopen, if_neg hzero, hfirst]

theorem getEntries_settled (h : Covered u) (hf : u.disk.faults = []) (fuel : ℕ) (after : UInt32) :
    getEntries fuel after u = settled u (u.answer fuel after) := by
  unfold getEntries answer
  rw [get_bind]
  by_cases hopen : u.isOpen = true
  · rw [ok_bind (ensure_of hopen u), if_pos hopen]
    by_cases hzero : u.hdr.lastSno = 0
    · rw [if_pos hzero, if_pos hzero]
      rfl
    · rw [if_neg hzero, if_neg hzero]
      exact entriesFrom_settled h hf fuel (u.firstRead after)
  · rw [error_bind (ensure_of_not hopen u), if_neg hopen]
    rfl

theorem retrieve_eq (h : Covered u) (fuel : ℕ) (after : UInt32) :
    retrieve u fuel after = u.answer fuel after := by
  unfold retrieve
  rw [getEntries_settled (u := { u with disk := { u.disk with faults := [] } })
    ⟨h.capacity, h.size⟩ rfl]
  change (match settled _ (u.answer fuel after) with
    | .ok entries _ => _
    | .error e _ => _) = _
  cases u.answer fuel after <;> rfl

/-- What the answer shows of an entry: nothing of one without an update. -/
def shown (entry : Except String UlogEntry) : Except String (Option UlogEntry) :=
  entry.map fun entry => if entry.update = none then none else some entry

section Collect

variable {last : UInt32} {read read' : UInt32 → Except String UlogEntry}

/-- A round of the loop. -/
theorem collect_go {fuel : ℕ} {serial : UInt32} (hgo : ¬ last < serial) :
    collect last read (fuel + 1) serial = (shown (read serial) >>= fun entry =>
      (collect last read fuel (serial + 1)).map fun rest => rest.map (entry.toList ++ ·)) := by
  rw [collect, if_neg hgo]
  cases read serial with
  | error e => rfl
  | ok entry =>
    cases collect last read fuel (serial + 1) with
    | error e => rfl
    | ok rest =>
      by_cases hnone : entry.update = none
      · simp [shown, Except.map, hnone, bind, Except.bind, pure, Except.pure]
      · simp [shown, Except.map, hnone, bind, Except.bind, pure, Except.pure]

/-- The list behind a round. -/
theorem collect_go_some {fuel : ℕ} {serial : UInt32} {xs : List UlogEntry} (hgo : ¬ last < serial)
    (h : collect last read (fuel + 1) serial = .ok (some xs)) :
    ∃ entry rest, shown (read serial) = .ok entry ∧
      collect last read fuel (serial + 1) = .ok (some rest) ∧ xs = entry.toList ++ rest := by
  rw [collect_go hgo] at h
  obtain ⟨entry, hentry, h⟩ := Except.bind_ok.1 h
  obtain ⟨rest, hrest, h⟩ := Except.map_eq_ok.1 h
  obtain ⟨rest, rfl, rfl⟩ := Option.map_eq_some_iff.1 h
  exact ⟨entry, rest, hentry, hrest, rfl⟩

/-- The loop reads no serial behind the last one, and shows no entry without an update. -/
theorem collect_congr (h : ∀ serial ≤ last, shown (read serial) = shown (read' serial)) (fuel : ℕ)
    (serial : UInt32) : collect last read fuel serial = collect last read' fuel serial := by
  induction fuel generalizing serial with
  | zero => rfl
  | succ fuel ih =>
    by_cases hend : last < serial
    · rw [collect, collect, if_pos hend, if_pos hend]
    · rw [collect_go hend, collect_go hend, h serial (UInt32.not_lt.1 hend), ih]

end Collect

/-- Logs with the same serials that show the same up to the last one have the same entries. -/
theorem SameLog.of_shown {u v : Ulog} (h : Covered u) (hkept : Kept u v)
    (hserials : v.serials = u.serials)
    (hshown : u.hdr.lastSno = 0 ∨ ∀ serial ≤ u.hdr.lastSno, shown (u.entryAt serial) =
      shown (v.entryAt serial)) :
    SameLog u v := by
  intro fuel after
  have hfirst : v.hdr.firstSno = u.hdr.firstSno := congrArg Prod.fst hserials
  have hlast : v.hdr.lastSno = u.hdr.lastSno := congrArg Prod.snd hserials
  rw [retrieve_eq h, retrieve_eq (h.of_kept hkept), answer, answer, hkept.isOpen, hlast, firstRead,
    firstRead, hfirst]
  rcases hshown with hzero | hshown
  · rw [if_pos hzero, if_pos hzero]
  · rw [collect_congr hshown]

/-! ## The loop -/

section Loop

variable {last serial : UInt32} {read read' : UInt32 → Except String UlogEntry} {fuel : ℕ}

theorem collect_of_lt (h : last < serial) : collect last read (fuel + 1) serial ≠ .ok none := by
  rw [collect, if_pos h]
  exact fun heq => nomatch heq

/-- **One round.** -/
theorem collect_succ_iff (hgo : ¬ last < serial) : collect last read (fuel + 1) serial ≠ .ok none ↔
    (∃ e, read serial = .error e) ∨ collect last read fuel (serial + 1) ≠ .ok none := by
  rw [collect, if_neg hgo]
  cases read serial with
  | error e => exact iff_of_true (fun heq => nomatch heq) (.inl ⟨e, rfl⟩)
  | ok entry =>
    rw [or_iff_right (by simp)]
    cases collect last read fuel (serial + 1) with
    | error e => exact iff_of_true (fun heq => nomatch heq) fun heq => nomatch heq
    | ok rest =>
      cases rest with
      | none => exact iff_of_false (fun hne => hne rfl) fun hne => hne rfl
      | some rest => exact iff_of_true (fun heq => nomatch heq) fun heq => nomatch heq

/-- Below the greatest serial there is a next one. -/
theorem toNat_next (hlast : last ≠ 0xffffffff) (hle : serial ≤ last) :
    (serial + 1).toNat = serial.toNat + 1 := by
  have hle := le_iff_toNat_le.1 hle
  have hmax : last.toNat ≠ 2 ^ 32 - 1 := fun heq => hlast (UInt32.toNat_inj.1 heq)
  have hbound := last.toNat_lt
  rw [UInt32.toNat_add, toNat_one]
  omega

/-- Below the greatest serial the loop counts up to the last one. -/
theorem collect_of_room (hlast : last ≠ 0xffffffff) (n : ℕ)
    (hn : last.toNat + 1 ≤ serial.toNat + n) :
    collect last read (n + 1) serial ≠ .ok none := by
  induction n generalizing serial with
  | zero => exact collect_of_lt (lt_iff_toNat_lt.2 (by omega))
  | succ n ih =>
    by_cases hgo : last < serial
    · exact collect_of_lt hgo
    · refine (collect_succ_iff hgo).2 (.inr (ih ?_))
      rw [toNat_next hlast (UInt32.not_lt.1 hgo)]
      omega

/-- Without a last round the loop gets to every serial, and ends at an error only. -/
theorem collect_greatest_iff : collect 0xffffffff read fuel serial ≠ .ok none ↔
    ∃ j < fuel, ∃ e, read (serial + UInt32.ofNat j) = .error e := by
  induction fuel generalizing serial with
  | zero => exact iff_of_false (fun hne => hne rfl) (by simp)
  | succ fuel ih =>
    have hgo : ¬ (0xffffffff : UInt32) < serial := by
      exact not_lt.2 (le_of_lt_succ serial.toNat_lt)
    rw [collect_succ_iff hgo, exists_lt_succ_left, ih]
    refine or_congr ?_ (exists_congr fun j => and_congr_right fun _ => ?_)
    · rw [show serial + ofNat 0 = serial from add_zero serial]
    · have hnext : serial + ofNat (j + 1) = serial + 1 + ofNat j := by
        rw [ofNat_add, add_assoc, add_comm 1]
        rfl
      rw [hnext]

theorem exists_collect_greatest_iff :
    (∃ fuel, collect 0xffffffff read fuel serial ≠ .ok none) ↔
      ∃ serial e, read serial = .error e := by
  simp only [collect_greatest_iff]
  constructor
  · rintro ⟨_, j, -, e, he⟩
    exact ⟨_, e, he⟩
  · rintro ⟨serial', e, he⟩
    refine ⟨_, (serial' - serial).toNat, lt_succ_self _, e, ?_⟩
    rwa [UInt32.ofNat_toNat, add_comm, sub_add_cancel]

/-- A round that shows nothing new shows the same if it shows as much. -/
theorem shown_of_round {x y : Except String UlogEntry} {entry entry' : Option UlogEntry}
    (hx : shown x = .ok entry) (hy : shown y = .ok entry')
    (h : shown y = shown x ∨ shown y = .ok none) :
    entry'.toList.length ≤ entry.toList.length ∧
      (entry'.toList.length = entry.toList.length → shown x = shown y) := by
  rcases h with hsame | hnone
  · rw [hx, hy] at hsame
    cases hsame
    exact ⟨le_rfl, fun _ => hx.trans hy.symm⟩
  · rw [hnone] at hy
    cases hy
    cases entry with
    | none => exact ⟨le_rfl, fun _ => hx.trans hnone.symm⟩
    | some entry => exact ⟨zero_le _, fun hlength => absurd hlength (by simp)⟩

/-- **A list that is as long has lost no update.** -/
theorem shown_of_length (hlast : last ≠ 0xffffffff)
    (h : ∀ t ≤ last, shown (read' t) = shown (read t) ∨ shown (read' t) = .ok none) {fuel : ℕ}
    {serial : UInt32}
    {xs ys : List UlogEntry} (hxs : collect last read fuel serial = .ok (some xs))
    (hys : collect last read' fuel serial = .ok (some ys)) : ys.length ≤ xs.length ∧
      (ys.length = xs.length → ∀ t, serial ≤ t → t ≤ last → shown (read t) = shown (read' t)) := by
  induction fuel generalizing serial xs ys with
  | zero => cases hxs
  | succ fuel ih =>
    by_cases hend : last < serial
    · rw [collect, if_pos hend] at hxs hys
      cases hxs
      cases hys
      refine ⟨le_rfl, fun _ t hle hle' => ?_⟩
      exact absurd (UInt32.lt_of_le_of_lt (UInt32.le_trans hle hle') hend) (UInt32.lt_irrefl _)
    · obtain ⟨entry, rest, hentry, hrest, rfl⟩ := collect_go_some hend hxs
      obtain ⟨entry', rest', hentry', hrest', rfl⟩ := collect_go_some hend hys
      obtain ⟨hround, hfirst⟩ := shown_of_round hentry hentry' (h serial (UInt32.not_lt.1 hend))
      obtain ⟨hle, hrests⟩ := ih hrest hrest'
      rw [length_append, length_append]
      -- as long as before is each part as long as before
      refine ⟨by omega, fun hlength t ht hlt => ?_⟩
      by_cases heq : t = serial
      · rw [heq]
        exact hfirst (by omega)
      · have hne : t.toNat ≠ serial.toNat := fun heq' => heq (UInt32.toNat_inj.1 heq')
        refine hrests (by omega) t ?_ hlt
        rw [le_iff_toNat_le, toNat_next hlast (UInt32.not_lt.1 hend)]
        have hle := le_iff_toNat_le.1 ht
        omega

/-- Where every entry is read, the loop ends with a list. -/
theorem collect_ok (hlast : last ≠ 0xffffffff) (h : ∀ t ≤ last, ∃ entry, read t = .ok entry) :
    ∃ xs, collect last read (2 ^ 32 + 1) 0 = .ok (some xs) := by
  have hok : ∀ fuel serial, ∃ rest, collect last read fuel serial = .ok rest := by
    intro fuel
    induction fuel with
    | zero => exact fun serial => ⟨none, rfl⟩
    | succ fuel ih =>
      intro serial
      by_cases hend : last < serial
      · rw [collect, if_pos hend]
        exact ⟨_, rfl⟩
      · obtain ⟨entry, hentry⟩ := h serial (UInt32.not_lt.1 hend)
        obtain ⟨rest, hrest⟩ := ih (serial + 1)
        rw [collect_go hend, hentry, hrest]
        exact ⟨_, rfl⟩
  obtain ⟨_ | xs, hxs⟩ := hok (2 ^ 32 + 1) 0
  · have hbound := last.toNat_lt
    exact absurd hxs (collect_of_room hlast (2 ^ 32) (by omega))
  · exact ⟨xs, hxs⟩

end Loop

variable {serial after : UInt32}

theorem ensure_inv {p : Prop} [Decidable p] {e : String} {u' : Ulog} {v : Unit}
    (h : ensure p e u = .ok v u') :
    p ∧ u' = u := by
  unfold ensure at h
  split_ifs at h with hp
  · cases h
    exact ⟨hp, rfl⟩
  · cases h

/-- A log that has been opened has all its blocks. -/
theorem openFile_covered {readOnly : Bool} {u₀ : Ulog} (h : openFile readOnly u₀ = .ok () u) :
    Covered u ∧ u.isOpen = true := by
  unfold openFile readHeader at h
  rw [get_bind] at h
  obtain ⟨_, u₂, hheader, h⟩ := bind_eq_ok.1 h
  obtain ⟨data, u₁, hread, hheader⟩ := bind_eq_ok.1 hheader
  obtain ⟨faults, hstate⟩ := readAt_state 0 ulogHeaderSize u₀
  rw [hread] at hstate
  obtain rfl : u₁ = _ := hstate
  obtain ⟨_, _, hmagic, hheader⟩ := bind_eq_ok.1 hheader
  obtain ⟨-, rfl⟩ := ensure_inv hmagic
  obtain ⟨_, _, hmodify, hvalid⟩ := bind_eq_ok.1 hheader
  cases hmodify
  obtain ⟨⟨-, -, hblock⟩, rfl⟩ := ensure_inv hvalid
  rw [get_bind] at h
  obtain ⟨_, _, hlength, h⟩ := bind_eq_ok.1 h
  obtain ⟨⟨hheaderSize, -⟩, rfl⟩ := ensure_inv hlength
  obtain ⟨_, _, hcapacity, h⟩ := bind_eq_ok.1 h
  obtain ⟨hne, rfl⟩ := ensure_inv hcapacity
  cases h
  refine ⟨⟨?_, ?_⟩, rfl⟩
  · rw [pos_iff_ne_zero]
    exact fun hzero => hne (UInt32.toNat_inj.1 hzero)
  · have hmod :=
      mod_le ((u₀.disk.content.length - ulogHeaderSize) / (headerOf data).block.toNat) (2 ^ 32)
    have hmul := mul_le_mul_right (headerOf data).block.toNat hmod
    have hdiv :=
      div_mul_le_self (u₀.disk.content.length - ulogHeaderSize) (headerOf data).block.toNat
    show ulogHeaderSize + (ofNat ((u₀.disk.content.length - ulogHeaderSize) /
      (headerOf data).block.toNat)).toNat * (headerOf data).block.toNat ≤ u₀.disk.content.length
    rw [toNat_ofNat']
    omega

/-- `GetEntries` returns on a disk that works, with entries or an error. -/
def Halts (u : Ulog) (after : UInt32) : Prop := ∃ fuel, retrieve u fuel after ≠ .ok none

/-- **`GetEntries` ends** exactly if the last serial is not the greatest one, or the entry of some
serial is refused. -/
theorem getEntries_halts_iff (readOnly : Bool) (u₀ u : Ulog) (after : UInt32)
    (hopen : openFile readOnly u₀ = .ok () u) :
    u.Halts after ↔ u.hdr.lastSno ≠ 0xffffffff ∨ ∃ serial e, u.entryAt serial = .error e := by
  obtain ⟨hcovered, hisOpen⟩ := openFile_covered hopen
  unfold Halts
  simp only [retrieve_eq hcovered, answer, if_pos hisOpen]
  by_cases hlast : u.hdr.lastSno = 0xffffffff
  · rw [or_iff_right (not_not_intro hlast), hlast]
    exact exists_collect_greatest_iff
  · refine iff_of_true ⟨2 ^ 32 + 1, ?_⟩ (.inl hlast)
    split_ifs
    · intro heq
      cases heq
    · refine collect_of_room hlast _ ?_
      have hbound := u.hdr.lastSno.toNat_lt
      omega

/-- A file with one empty block and the greatest last serial. -/
def endless (lastSno : UInt32) : Ulog :=
  { disk := ⟨headerBytes { lastSno, block := 24 } ++ List.replicate 24 0, []⟩,
    hdr := { lastSno, block := 24 }, capacity := 1 }

theorem endless_opens (lastSno : UInt32) :
    openFile false (endless lastSno) = .ok () (endless lastSno) := by
  have hsize : (endless lastSno).disk.content.length = 64 := rfl
  have hblock : (endless lastSno).hdr.block.toNat = 24 := rfl
  have hheader : readHeader (endless lastSno) = .ok () (endless lastSno) :=
    readHeader_eq rfl (by rw [hsize]; decide) rfl ⟨rfl, show (1 : UInt32) ≠ 0 by decide, le_rfl⟩
  unfold openFile
  rw [get_bind, hsize, ok_bind hheader, get_bind, hblock]
  rfl

theorem getEntries_endless :
    ¬ ∀ (u₀ u : Ulog) (after : UInt32), openFile false u₀ = .ok () u → u.Halts after := by
  intro hall
  have hopens := endless_opens 0xffffffff
  obtain ⟨fuel, hhalts⟩ := hall _ _ 0 hopens
  rw [retrieve_eq (openFile_covered hopens).1] at hhalts
  obtain ⟨serial, e, he⟩ := exists_collect_greatest_iff.1 ⟨fuel, hhalts⟩
  have hslot : (endless 0xffffffff).slotOf serial = 0 := by
    exact mod_one _
  rw [entryAt, hslot] at he
  cases he

theorem getEntries_halts_iff_one : (endless 1).Halts 0 :=
  (getEntries_halts_iff false _ _ 0 (endless_opens 1)).2 (.inl (by decide))

/-! ## Appends that fail -/

/-- The same answers on a disk that works. -/
structure SameAnswers (u u' : Ulog) : Prop where
  header : u'.hdr = u.hdr
  last : u'.last = u.last
  entries : SameLog u u'

variable {update : Update} {e : String}

section Torn

variable {n : ℕ} (h : Covered u) (haccepts : Accepts u update)

include h haccepts

theorem begun_kept (n : ℕ) : Kept u (u.begun update n) := by
  refine written_kept h _ ?_ _
  rw [length_take, haccepts.length_blockFor]
  omega

theorem entryAt_begun_of_ne (hne : u.slotOf serial ≠ u.slotOf (u.numbered update).entrySno) :
    (u.begun update n).entryAt serial = u.entryAt serial := by
  have hlength : ((u.blockFor update).take n).length ≤ u.hdr.block.toNat := by
    rw [length_take, haccepts.length_blockFor]
    omega
  have hblock : (u.begun update n).blockOf (u.slotOf serial) = u.blockOf (u.slotOf serial) :=
    blockOf_written_of_ne h _ hlength _ hne
  rw [entryAt, entryAt, (begun_kept h haccepts n).slotOf, hblock]

/-- With its head written, a block has no entry of another serial. -/
theorem entryAt_begun (hn : 8 ≤ n) (hslot : u.slotOf serial = u.slotOf (u.numbered update).entrySno)
    (hne : serial ≠ (u.numbered update).entrySno) : (u.begun update n).entryAt serial = .ok {} := by
  have hlarge : 8 ≤ u.hdr.block.toNat := by
    have hpos := length_pos_iff.2 (marshalXDR_ne_nil (u.numbered update))
    have hfits := haccepts.2.2
    simp only [ulogEntrySize] at hfits
    omega
  have hlength : ((u.blockFor update).take n).length = min n u.hdr.block.toNat := by
    rw [length_take, haccepts.length_blockFor]
  have hword : ∀ off, off + 4 ≤ 8 →
      get32 ((u.begun update n).blockOf (u.slotOf serial)) off = get32 (u.blockFor update) off := by
    intro off hoff
    rw [hslot, get32, get32]
    congr 2
    refine (slice_slice_overwrite (m := u.hdr.block.toNat) (h.fits _ ?_) ?_ ?_).trans
      (slice_take ?_)
    all_goals omega
  have hserial : get32 (u.blockFor update) 4 = (u.numbered update).entrySno := by
    rw [blockFor, entryBlock, append_assoc]
    exact get32_serial ..
  rw [entryAt, (begun_kept h haccepts n).slotOf, decodeEntry, hword 4 le_rfl, hserial]
  split_ifs with hmagic hother
  · rfl
  · rfl
  · exact absurd (not_not.1 hother).symm hne

end Torn

/-- Nothing is missed in the block of an update once its first `n` bytes are written: there are
none, or no entry is read at all, or the head is written and no other serial up to the last one has
an update in the block. -/
def Unseen (u : Ulog) (update : Update) (n : ℕ) : Prop :=
  n = 0 ∨ u.hdr.lastSno = 0 ∨ ∀ serial ≤ u.hdr.lastSno, u.slotOf serial =
    u.slotOf (u.numbered update).entrySno →
    8 ≤ n ∧ serial ≠ (u.numbered update).entrySno ∧ shown (u.entryAt serial) = .ok none

theorem sameAnswers_begun (h : Covered u) (haccepts : Accepts u update) {n : ℕ}
    (hn : Unseen u update n) :
    SameAnswers u (u.begun update n) := by
  refine ⟨rfl, rfl, SameLog.of_shown h (begun_kept h haccepts n) rfl ?_⟩
  rcases hn with rfl | hzero | hunseen
  · have hsame : (u.begun update 0).disk.content = u.disk.content :=
      overwrite_nil (h.fits (u.numbered update).entrySno (zero_le _))
    refine .inr fun serial _ => ?_
    rw [entryAt, entryAt, blockOf, blockOf, hsame]
    rfl
  · exact .inl hzero
  · refine .inr fun serial hle => ?_
    by_cases hslot : u.slotOf serial = u.slotOf (u.numbered update).entrySno
    · obtain ⟨hn, hne, hquiet⟩ := hunseen serial hle hslot
      rw [hquiet, entryAt_begun h haccepts hn hslot hne]
      rfl
    · rw [entryAt_begun_of_ne h haccepts hslot]

/-- Every entry up to the last serial is read. -/
def Readable (u : Ulog) : Prop := ∀ serial ≤ u.hdr.lastSno, ∃ entry, u.entryAt serial = .ok entry

/-- **An update lost in a torn block is missed**, where the entries can be read. -/
theorem unseen_of_sameLog (h : Covered u) (haccepts : Accepts u update) {n : ℕ} (hn : 8 ≤ n)
    (hnew : u.hdr.lastSno < (u.numbered update).entrySno) (hreadable : Readable u)
    (hsame : SameLog u (u.begun update n)) : Unseen u update n := by
  refine or_iff_not_imp_left.2 fun _ => or_iff_not_imp_left.2 fun hzero => ?_
  have hkept := begun_kept h haccepts n
  have hdropped : ∀ t ≤ u.hdr.lastSno, shown ((u.begun update n).entryAt t) = shown (u.entryAt t) ∨
      shown ((u.begun update n).entryAt t) = .ok none := by
    intro t ht
    by_cases hslot : u.slotOf t = u.slotOf (u.numbered update).entrySno
    · rw [entryAt_begun h haccepts hn hslot (UInt32.ne_of_lt (UInt32.lt_of_le_of_lt ht hnew))]
      exact .inr rfl
    · exact .inl (congrArg shown (entryAt_begun_of_ne h haccepts hslot))
  have hlast : u.hdr.lastSno ≠ 0xffffffff := by
    intro hmax
    rw [hmax, lt_iff_toNat_lt] at hnew
    exact absurd hnew (not_lt.2 (le_of_lt_succ (UInt32.toNat_lt _)))
  obtain ⟨xs, hxs⟩ := collect_ok hlast hreadable
  have hstart := hsame (2 ^ 32 + 1) 0xffffffff
  rw [retrieve_eq h, retrieve_eq (h.of_kept hkept), answer_of_greatest haccepts.1 hzero, hxs,
    answer_of_greatest (u := u.begun update n) haccepts.1 hzero] at hstart
  intro serial hle hslot
  have hne := UInt32.ne_of_lt (UInt32.lt_of_le_of_lt hle hnew)
  refine ⟨hn, hne, ?_⟩
  rw [(shown_of_length hlast hdropped hxs hstart.symm).2 rfl serial UInt32.zero_le hle,
    entryAt_begun h haccepts hn hslot hne]
  rfl

/-- The entry in front of the first one is read only if the first serial moves. -/
theorem moveFirst_error {time : Time} (hcapacity : 0 < u.capacity.toNat)
    (herror : moveFirst serial time u = .error e u') : u'.hdr.firstSno ≠ u.hdr.firstSno := by
  have hserials := (moveFirst_state serial time u).2
  rw [herror] at hserials
  have hfirst : u'.hdr.firstSno = newFirst u.capacity serial u.hdr.firstSno :=
    congrArg Prod.fst hserials
  rw [hfirst]
  unfold moveFirst at herror
  unfold newFirst
  rw [get_bind] at herror
  split_ifs at herror ⊢ with hzero hfull
  · cases herror
  · intro heq
    rw [le_iff_toNat_le] at hfull
    have hlast : serial - u.hdr.firstSno = u.capacity - 1 := by
      grind
    rw [hlast, UInt32.toNat_sub, toNat_one] at hfull
    omega
  · cases herror

theorem advance_error {time : Time} (hcapacity : 0 < u.capacity.toNat)
    (herror : advance serial time u = .error e u') :
    u'.hdr ≠ u.hdr := by
  unfold advance at herror
  rw [get_bind] at herror
  split_ifs at herror
  · obtain hmove | ⟨_, _, -, hmodify⟩ := bind_eq_error.1 herror
    · exact fun heq => moveFirst_error hcapacity hmove (congrArg UlogHeader.firstSno heq)
    · cases hmodify
  · cases herror

/-- **An append that fails behind the block of a new serial has changed the header.** -/
theorem header_of_failed (haccepts : Accepts u update) (hcapacity : 0 < u.capacity.toNat)
    (hfault : u.disk.fault = none) (hnew : u.hdr.lastSno < (u.numbered update).entrySno)
    (herror : addUpdate update u = .error e u') : u'.hdr ≠ u.hdr := by
  rw [addUpdate_of_accepts haccepts hfault] at herror
  obtain hadvance | ⟨_, u₁, hadvance, hsync⟩ := bind_eq_error.1 herror
  · exact advance_error (u := u.begun update _) hcapacity hadvance
  · have hserials := (advance_state _ _ _).2.2 u₁ hadvance
    have hlast : u₁.hdr.lastSno = (u.numbered update).entrySno := by
      have hbump : bump u.capacity (u.numbered update).entrySno u.serials =
          (_, (u.numbered update).entrySno) :=
        if_pos (.inr (UInt32.le_of_lt hnew))
      exact congrArg Prod.snd (hserials.trans hbump)
    have hheader : u'.hdr = u₁.hdr := by
      obtain ⟨_, _, hstate⟩ := writeAt_state 0 (headerBytes u₁.hdr) u₁
      change writeAt 0 (headerBytes u₁.hdr) u₁ = _ at hsync
      rw [hsync] at hstate
      obtain rfl : u' = _ := hstate
      rfl
    intro heq
    rw [← hlast, ← hheader, heq] at hnew
    exact (UInt32.lt_irrefl _ hnew).elim

/-- **What a failed append leaves.** Nothing is seen of one that is refused, or whose block is torn
where nothing is missed. One that comes to a new serial is seen: in the header, if it fails behind
its block, and in the entries, if it tears the block of an update. -/
theorem failed_append (u : Ulog) (update : Update) (e : String) (u' : Ulog) (h : Covered u)
    (herror : addUpdate update u = .error e u') :
    (¬ Accepts u update ∨ (∃ n, u.disk.fault = some n ∧ Unseen u update n) → SameAnswers u u') ∧
      (Accepts u update → u.hdr.lastSno < (u.numbered update).entrySno →
        (u.disk.fault = none → ¬ SameAnswers u u') ∧
        ∀ n, u.disk.fault = some n → 8 ≤ n → Readable u → SameAnswers u u' →
          Unseen u update n) := by
  refine ⟨fun hearly => ?_,
    fun haccepts hnew => ⟨fun hfault hsame => ?_, fun n hfault hn hreadable hsame => ?_⟩⟩
  · by_cases haccepts : Accepts u update
    · obtain ⟨n, hfault, hunseen⟩ := hearly.resolve_left (not_not_intro haccepts)
      cases (addUpdate_of_fault haccepts hfault).symm.trans herror
      exact sameAnswers_begun h haccepts hunseen
    · obtain ⟨e', hrefused⟩ := addUpdate_of_not_accepts haccepts
      cases hrefused.symm.trans herror
      exact ⟨rfl, rfl, fun _ _ => rfl⟩
  · exact header_of_failed haccepts h.capacity hfault hnew herror hsame.header
  · cases (addUpdate_of_fault haccepts hfault).symm.trans herror
    exact unseen_of_sameLog h haccepts hn hnew hreadable hsame.entries

/-- A log of two blocks that has just been created, and whose next accesses end as given. -/
def createdLog (faults : List (Option ℕ)) : Ulog :=
  (create 2 { disk := ⟨[], [none, none, none] ++ faults⟩, capacity := 0 }).state

/-- An update that gets the serial, or the next one. -/
def updateOf (serial : UInt32) : Update :=
  { principalName := [], entrySno := serial, time := .zero, entry := [], deleted := false,
    commit := true }

/-- The log with an update. -/
def filledLog (faults : List (Option ℕ)) : Ulog :=
  (addUpdate (updateOf 0) (createdLog ([none, none] ++ faults))).state

/-- The header cannot be written: the call fails, and the new update is the last one. -/
theorem failed_append_seen :
    ¬ ∀ u update e u', Covered u → addUpdate update u = .error e u' → SameAnswers u u' := by
  intro hall
  obtain ⟨e, herror⟩ :=
    Result.eq_error (r := addUpdate (updateOf 0) (createdLog [none, some 0])) (by decide +kernel)
  have hsame := hall _ _ _ _ ⟨by decide +kernel, by decide +kernel⟩ herror
  exact absurd hsame.header (by decide +kernel)

theorem le_two (h : serial ≤ 2) : serial = 0 ∨ serial = 1 ∨ serial = 2 := by
  rw [le_iff_toNat_le] at h
  change serial.toNat ≤ 2 at h
  simp only [← UInt32.toNat_inj]
  show serial.toNat = 0 ∨ serial.toNat = 1 ∨ serial.toNat = 2
  omega

/-- The write of the block is torn at byte 50: that of a placeholder, and that of an update. -/
theorem failed_append_torn :
    SameAnswers (createdLog [some 50]) (addUpdate (updateOf 0) (createdLog [some 50])).state ∧
      ¬ SameAnswers (filledLog [some 50]) (addUpdate (updateOf 4) (filledLog [some 50])).state := by
  constructor
  · obtain ⟨e, herror⟩ :=
      Result.eq_error (r := addUpdate (updateOf 0) (createdLog [some 50])) (by decide +kernel)
    refine (failed_append _ _ e _ ⟨by decide +kernel, by decide +kernel⟩ herror).1
      (.inr ⟨50, rfl, .inr (.inr fun serial hle hslot => ?_)⟩)
    obtain rfl | rfl | rfl := le_two (UInt32.le_trans hle (by decide +kernel))
    · exact ⟨by decide, by decide +kernel, by decide +kernel⟩
    · exact absurd hslot (by decide +kernel)
    · exact absurd hle (by decide +kernel)
  · intro hsame
    obtain ⟨e, herror⟩ :=
      Result.eq_error (r := addUpdate (updateOf 4) (filledLog [some 50])) (by decide +kernel)
    have hreadable : Readable (filledLog [some 50]) := by
      intro serial hle
      refine Except.isOk_iff.1 ?_
      obtain rfl | rfl | rfl :=
        le_two (UInt32.le_trans hle (by decide +kernel)) <;> decide +kernel
    obtain hzero | hzero | hunseen :=
      ((failed_append _ _ e _ ⟨by decide +kernel, by decide +kernel⟩ herror).2
      ⟨by decide +kernel, by decide +kernel, by decide +kernel⟩ (by decide +kernel)).2
        50 (by decide +kernel) (by decide) hreadable hsame
    · cases hzero
    · exact absurd hzero (by decide +kernel)
    · exact absurd (hunseen 2 (by decide +kernel) (by decide +kernel)).2.2 (by decide +kernel)

end Kerberos.Iprop.Ulog
