import Kerberos.Spec.UpdateLog

/-!
# The update log answers cursors soundly

`Tracks history l`: the entries of the log are the last of all that was ever appended, all
of one turn of the 32-bit serials. A cursor that `Last` gave is answered with what was
appended since, or with a full resynchronization: `entries_after_cursor`. The one exception
is the cursor of an empty log once the serials have started again at 1.
-/

namespace Kerberos

open List Nat

namespace UpdateLog

/-- The entry as `append` stores it. -/
def stored (l : UpdateLog) (entry : UpdateLogEntry) : UpdateLogEntry :=
  { entry with
    serial := (if l.last = 0xffffffff then 0 else l.last) + 1, time := truncMicro entry.time }

/-- All entries that the operations append, as they are stored. -/
def appended (l : UpdateLog) : List LogOp → List UpdateLogEntry
  | [] => []
  | .append entry :: ops => l.stored entry :: appended (l.append entry) ops
  | .reset :: ops => appended l.clear ops
  | .setCapacity capacity :: ops => appended (l.setCapacity capacity) ops

/-- The number of serials before they start again. -/
abbrev turn : ℕ := 2 ^ 32 - 1

/-- The log is what is retained of the history of its entries. -/
structure Tracks (history : List UpdateLogEntry) (l : UpdateLog) : Prop where
  serials : ∀ i e, history[i]? = some e → e.serial.toNat = i % turn + 1
  last : l.last.toNat = if history = [] then 0 else (history.length - 1) % turn + 1
  lastTime : l.lastTime = (history.getLast?.map UpdateLogEntry.time).getD zeroTime
  retained : l.entries <:+ history
  oneTurn : l.entries.length ≤ l.last.toNat
  reset : l.reset = true → l.entries = []

theorem tracks_new (capacity : ℤ) : Tracks [] (new capacity) :=
  ⟨by simp, rfl, rfl, suffix_rfl, le_rfl, fun _ => rfl⟩

/-! ## One operation -/

variable {history : List UpdateLogEntry} {l : UpdateLog}

theorem stored_serial_of_ne (hlast : l.last ≠ 0xffffffff) (entry : UpdateLogEntry) :
    (l.stored entry).serial.toNat = l.last.toNat + 1 := by
  show ((if l.last = 0xffffffff then 0 else l.last) + 1 : UInt32).toNat = _
  rw [if_neg hlast, UInt32.toNat_add, UInt32.toNat_one]
  have hne : l.last.toNat ≠ 4294967295 := fun h => hlast (UInt32.toNat_inj.1 h)
  have := l.last.toNat_lt
  omega

theorem Tracks.stored_serial (h : Tracks history l) (entry : UpdateLogEntry) :
    (l.stored entry).serial.toNat = history.length % turn + 1 := by
  have hlast := h.last
  have hsize : (0xffffffff : UInt32).toNat = turn := rfl
  by_cases hwrap : l.last = 0xffffffff
  · show ((if l.last = 0xffffffff then 0 else l.last) + 1 : UInt32).toNat = _
    rw [if_pos hwrap]
    rw [hwrap, hsize] at hlast
    split_ifs at hlast with hnil
    have h1 : ((0 : UInt32) + 1).toNat = 1 := rfl
    simp only [turn] at *
    omega
  · rw [stored_serial_of_ne hwrap, hlast]
    have hne : l.last.toNat ≠ turn := fun heq => hwrap (UInt32.toNat_inj.1 (heq.trans hsize.symm))
    split_ifs at hlast ⊢ with hnil
    · rw [hnil]
      rfl
    · have := length_pos_iff.2 hnil
      simp only [turn] at *
      omega

/-- The entries of the turn that the next entry belongs to. -/
def sameTurn (l : UpdateLog) : List UpdateLogEntry := if l.last = 0xffffffff then [] else l.entries

theorem entries_append (l : UpdateLog) (entry : UpdateLogEntry) :
    (l.append entry).entries = if 0 < l.capacity then
      (l.sameTurn ++ [l.stored entry]).drop (l.sameTurn.length + 1 - l.capacity) else [] := by
  by_cases hwrap : l.last = 0xffffffff
  · simp only [append, stored, sameTurn, if_pos hwrap]
  · simp only [append, stored, sameTurn, if_neg hwrap]

theorem append_fields (l : UpdateLog) (entry : UpdateLogEntry) :
    (l.append entry).last = (l.stored entry).serial ∧
      (l.append entry).lastTime = (l.stored entry).time ∧ (l.append entry).reset = false := by
  unfold append stored
  split_ifs
  · exact ⟨rfl, rfl, rfl⟩
  · exact ⟨rfl, rfl, rfl⟩

theorem Tracks.sameTurn (h : Tracks history l) (entry : UpdateLogEntry) :
    l.sameTurn <:+ history ∧ l.sameTurn.length + 1 ≤ (l.stored entry).serial.toNat := by
  have hserial := h.stored_serial entry
  unfold UpdateLog.sameTurn
  split_ifs with hwrap
  · rw [hserial]
    simp
  · refine ⟨h.retained, ?_⟩
    have hone := h.oneTurn
    rw [stored_serial_of_ne hwrap]
    omega

theorem Tracks.append (h : Tracks history l) (entry : UpdateLogEntry) :
    Tracks (history ++ [l.stored entry]) (l.append entry) := by
  have hserial := h.stored_serial entry
  obtain ⟨hlast, htime, hreset⟩ := append_fields l entry
  obtain ⟨hkept, hlength⟩ := h.sameTurn entry
  refine ⟨?_, ?_, ?_, ?_, ?_, ?_⟩
  · intro i e he
    rw [getElem?_append] at he
    split_ifs at he with hi
    · exact h.serials i e he
    · obtain ⟨h1, _⟩ := List.getElem?_eq_some_iff.1 he
      have hi' : i = history.length := by
        simp only [length_singleton] at h1
        omega
      subst hi'
      simp only [Nat.sub_self, getElem?_cons_zero, Option.some.injEq] at he
      rw [← he, hserial]
  · rw [hlast, hserial]
    simp
  · rw [getLast?_concat]
    rfl
  · rw [entries_append]
    split_ifs
    · obtain ⟨front, hfront⟩ := hkept
      refine (drop_suffix _ _).trans ⟨front, ?_⟩
      rw [← append_assoc, hfront]
    · exact nil_suffix
  · rw [hlast, entries_append]
    split_ifs
    · rw [length_drop, length_append, length_singleton]
      omega
    · exact zero_le _
  · intro h
    cases h

theorem Tracks.clear (h : Tracks history l) : Tracks history l.clear :=
  ⟨h.serials, h.last, h.lastTime, nil_suffix, zero_le _, fun _ => rfl⟩

theorem setCapacity_entries (l : UpdateLog) (capacity : ℤ) :
    (l.setCapacity capacity).entries <:+ l.entries := by
  unfold setCapacity
  split_ifs
  · exact nil_suffix
  · exact drop_suffix _ _

theorem Tracks.setCapacity (h : Tracks history l) (capacity : ℤ) :
    Tracks history (l.setCapacity capacity) := by
  have hsuffix := setCapacity_entries l capacity
  refine ⟨h.serials, h.last, h.lastTime, hsuffix.trans h.retained,
    hsuffix.length_le.trans h.oneTurn, fun hreset => ?_⟩
  have := h.reset hreset
  rw [this] at hsuffix
  exact suffix_nil.1 hsuffix

/-- **Run rule.** -/
theorem Tracks.exec (h : Tracks history l) (ops : List LogOp) :
    Tracks (history ++ l.appended ops) (l.exec ops) := by
  induction ops generalizing history l with
  | nil => simpa [appended, exec] using h
  | cons op ops ih =>
    cases op with
    | append entry =>
      have := ih (h.append entry)
      rwa [append_assoc] at this
    | reset => exact ih h.clear
    | setCapacity capacity => exact ih (h.setCapacity capacity)

/-! ## Answers -/

/-- The answer asks for a resynchronization, or has exactly the entries expected. -/
def Answers (answer : UpdateStatus × List UpdateLogEntry) (expected : List UpdateLogEntry) : Prop :=
  answer.1 = .fullResyncNeeded ∨
    (answer.2 = expected ∧ answer.1 = if expected = [] then .nil else .ok)

/-- The cursor of an empty log, when the serials have started again since and the oldest entry
kept is the first of a turn. -/
def Restarted (l : UpdateLog) (serial : UInt32) (since : List UpdateLogEntry) : Prop :=
  serial = 0 ∧ 2 ^ 32 ≤ since.length ∧ ∃ first ∈ l.entries.head?, first.serial = 1

/-- Of two elements of a list that agree where no two do, the same elements follow. -/
theorem eq_of_append_cons {α β : Type} {f : α → β} {a b : α} {l₁ l₂ l₃ l₄ : List α}
    (h : l₁ ++ a :: l₂ = l₃ ++ b :: l₄) (hf : f a = f b) (hl : ((l₁ ++ a :: l₂).map f).Nodup) :
    l₂ = l₄ := by
  have hfirst : ((l₁ ++ a :: l₂).map f)[l₁.length]? = some (f a) := by simp
  have hsecond : ((l₁ ++ a :: l₂).map f)[l₃.length]? = some (f a) := by
    rw [h]
    simp [hf]
  have hlen : l₁.length = l₃.length := (getElem?_inj (by simp) hl).1 (hfirst.trans hsecond.symm)
  exact (cons.inj (append_inj h hlen).2).2

theorem Tracks.last_zero (h : Tracks history l) : l.last = 0 ↔ history = [] := by
  have hlast := h.last
  constructor
  · intro hzero
    by_contra hne
    rw [hzero, if_neg hne] at hlast
    exact absurd hlast (succ_ne_zero _).symm
  · intro hnil
    rw [if_pos hnil] at hlast
    exact UInt32.toNat_inj.1 hlast

/-- The last entry of the history is at the log's cursor. -/
theorem Tracks.cursor {front : List UpdateLogEntry} {x : UpdateLogEntry}
    (h : Tracks (front ++ [x]) l) :
    x.serial = l.last ∧ x.time = l.lastTime := by
  constructor
  · apply UInt32.toNat_inj.1
    rw [h.last, h.serials front.length x (by simp)]
    simp
  · rw [h.lastTime, getLast?_concat]
    rfl

theorem Tracks.first (h : Tracks history l) {first : UpdateLogEntry} {rest : List UpdateLogEntry}
    (hentries : l.entries = first :: rest) :
    first.serial.toNat = (history.length - l.entries.length) % turn + 1 := by
  obtain ⟨front, hfront⟩ := h.retained
  rw [hentries] at hfront ⊢
  refine h.serials _ _ ?_
  rw [← hfront]
  simp

/-- The cursor of an empty log. -/
theorem Tracks.answers_zero {since : List UpdateLogEntry} (h : Tracks since l) :
    Answers (l.entriesAfter 0 zeroTime) since ↔ ¬ Restarted l 0 since := by
  unfold entriesAfter
  by_cases hnil : since = []
  · subst hnil
    have hrestarted : ¬ Restarted l 0 [] := fun hr => by simpa using hr.2.1
    have hentries : l.entries = [] := suffix_nil.1 h.retained
    rw [hentries]
    refine iff_of_true ?_ hrestarted
    split_ifs
    · exact .inr ⟨rfl, rfl⟩
    · exact .inl rfl
  · have hlast : (0 : UInt32) ≠ l.last := fun heq => hnil (h.last_zero.1 heq.symm)
    rw [if_neg (fun hc => hlast hc.2.1)]
    cases hentries : l.entries with
    | nil =>
      exact iff_of_true (.inl rfl) (fun ⟨_, _, first, hfirst, _⟩ => by simp [hentries] at hfirst)
    | cons first rest =>
      have hserial := h.first hentries
      have hhead : l.entries.head? = some first := by rw [hentries]; rfl
      dsimp only
      by_cases hone : first.serial = 1
      · rw [if_pos ⟨rfl, rfl, hone⟩]
        have hright : Answers (.ok, first :: rest) since ↔ first :: rest = since := by
          unfold Answers
          simp [hnil]
        have hrestarted : Restarted l 0 since ↔ 2 ^ 32 ≤ since.length := by
          unfold Restarted
          simp [hhead, hone]
        rw [hright, hrestarted, ← hentries]
        have hbound := l.last.toNat_lt
        have hturn := h.oneTurn
        have hpos : 0 < l.entries.length := by rw [hentries]; exact succ_pos _
        constructor
        · intro heq
          rw [heq] at hturn
          omega
        · intro hlt
          refine h.retained.eq_of_length ?_
          have hle := h.retained.length_le
          rw [hone, UInt32.toNat_one] at hserial
          simp only [turn] at hserial
          omega
      · have hpos : (0 : UInt32) < first.serial := by
          rw [UInt32.lt_iff_toNat_lt, hserial]
          exact succ_pos _
        rw [if_neg (fun hc => hone hc.2.2), if_pos (.inr hpos)]
        refine iff_of_true (.inl rfl) ?_
        rintro ⟨_, _, first', hfirst', hone'⟩
        rw [hhead] at hfirst'
        cases hfirst'
        exact hone hone'

/-- The entry of a serial, and those in front of it. -/
theorem split_at_serial {serial : UInt32} {entries later : List UpdateLogEntry}
    {found : UpdateLogEntry}
    (h : (entries.dropWhile fun entry => entry.serial ≠ serial) = found :: later) :
    found.serial = serial ∧ ∃ front, entries = front ++ found :: later := by
  have hhead :=
    head?_dropWhile_not (fun entry : UpdateLogEntry => decide (entry.serial ≠ serial)) entries
  rw [h] at hhead
  exact ⟨by simpa using hhead, _, by rw [← h, takeWhile_append_dropWhile]⟩

/-- The cursor of a log that has an entry. -/
theorem Tracks.answers_later {front since : List UpdateLogEntry} {x : UpdateLogEntry}
    (h : Tracks (front ++ x :: since) l) (hx : x.serial ≠ 0)
    (hunique : ((front ++ x :: since).map fun e => (e.serial, e.time)).Nodup) :
    Answers (l.entriesAfter x.serial x.time) since := by
  unfold entriesAfter
  split_ifs with hnow
  · -- the cursor is that of the log: its entry is the last
    obtain ⟨init, y, hinit⟩ := (eq_nil_or_concat (front ++ x :: since)).resolve_left (by simp)
    rw [concat_eq_append] at hinit
    obtain ⟨hserial, htime⟩ := (hinit ▸ h).cursor
    have hsince : since = [] := eq_of_append_cons hinit
      (Prod.ext (hnow.2.1.trans hserial.symm) (hnow.2.2.trans htime.symm)) hunique
    rw [hsince]
    exact .inr ⟨rfl, rfl⟩
  · cases hentries : l.entries with
    | nil => exact .inl rfl
    | cons first rest =>
      simp only
      rw [if_neg (fun hc => hx hc.1)]
      split_ifs
      · exact .inl rfl
      · cases hfound : (first :: rest).dropWhile fun entry => entry.serial ≠ x.serial with
        | nil => exact .inl rfl
        | cons found later =>
          simp only
          split_ifs with htime hlater
          · exact .inl rfl
          all_goals
            obtain ⟨hserial, init, hinit⟩ := split_at_serial hfound
            obtain ⟨kept, hkept⟩ := h.retained
            have hsplit : front ++ x :: since = (kept ++ init) ++ found :: later := by
              rw [← hkept, hentries, hinit, append_assoc]
            have hsince : since = later := eq_of_append_cons hsplit
              (Prod.ext hserial.symm (not_not.1 htime).symm) hunique
            rw [hsince]
          · exact .inr ⟨hlater.symm, by rw [if_pos hlater]⟩
          · exact .inr ⟨rfl, by rw [if_neg hlater]⟩

theorem appended_append (l : UpdateLog) (before after : List LogOp) :
    l.appended (before ++ after) = l.appended before ++ (l.exec before).appended after := by
  induction before generalizing l with
  | nil => rfl
  | cons op before ih =>
    cases op with
    | append entry => exact congrArg (l.stored entry :: ·) (ih (l.append entry))
    | reset => exact ih l.clear
    | setCapacity capacity => exact ih (l.setCapacity capacity)

/-- **Cursors are answered soundly**: what `Entries` gives for a cursor that `Last` returned is
what was appended since, unless the log was empty then and its serials have started again. -/
theorem entries_after_cursor (capacity : ℤ) (before after : List LogOp)
    (hunique :
      (((new capacity).appended (before ++ after)).map fun e => (e.serial, e.time)).Nodup) :
    Answers
      ((((new capacity).exec before).exec after).entriesAfter ((new capacity).exec before).last
        ((new capacity).exec before).lastTime) (((new capacity).exec before).appended after) ↔
      ¬ Restarted (((new capacity).exec before).exec after) ((new capacity).exec before).last
        (((new capacity).exec before).appended after) := by
  have htracks : Tracks ((new capacity).appended before) ((new capacity).exec before) :=
    (tracks_new capacity).exec before
  have hlater := htracks.exec after
  rw [appended_append] at hunique
  set l := (new capacity).exec before
  rcases eq_nil_or_concat ((new capacity).appended before) with hnil | ⟨front, x, hfront⟩
  · rw [hnil] at htracks hlater
    rw [htracks.last_zero.2 rfl, htracks.lastTime]
    exact Tracks.answers_zero hlater
  · rw [concat_eq_append] at hfront
    rw [hfront] at htracks hlater hunique
    obtain ⟨hserial, htime⟩ := htracks.cursor
    have hne : l.last ≠ 0 := fun hzero => by simpa using htracks.last_zero.1 hzero
    rw [append_assoc] at hlater hunique
    rw [← hserial, ← htime]
    refine iff_of_true (hlater.answers_later (hserial ▸ hne) hunique) fun hr => ?_
    exact hne (hserial ▸ hr.1)

/-- An entry of its own microsecond. -/
def entryAt (i : ℕ) : UpdateLogEntry :=
  { time := i * 1000, name := default, record := { name := default }, deleted := false,
    commit := true }

theorem entries_after_cursor_second :
    Answers ((((new 2).exec [.append (entryAt 0)]).exec [.append (entryAt 1)]).entriesAfter
      ((new 2).exec [.append (entryAt 0)]).last ((new 2).exec [.append (entryAt 0)]).lastTime)
      (((new 2).exec [.append (entryAt 0)]).appended [.append (entryAt 1)]) := by
  have hlast : ((new 2).exec [.append (entryAt 0)]).last ≠ 0 := by decide
  exact (entries_after_cursor 2 [.append (entryAt 0)] [.append (entryAt 1)] (by decide)).2
    fun h => hlast h.1

/-! ### A log that has started again -/

/-- Entries of the first `n` microseconds. -/
def appendsOf (n : ℕ) : List LogOp := (List.range n).map fun i => .append (entryAt i)

theorem times_appended (l : UpdateLog) (entries : List UpdateLogEntry) :
    (l.appended (entries.map .append)).map UpdateLogEntry.time = entries.map fun e =>
      truncMicro e.time := by
  induction entries generalizing l with
  | nil => rfl
  | cons e entries ih => exact congrArg (truncMicro e.time :: ·) (ih (l.append e))

theorem times_appendsOf (l : UpdateLog) (n : ℕ) :
    (l.appended (appendsOf n)).map UpdateLogEntry.time = (List.range n).map fun i : ℕ =>
      (i : ℤ) * 1000 := by
  have h := times_appended l ((range n).map entryAt)
  rw [map_map, map_map] at h
  refine h.trans (map_congr_left fun i _ => ?_)
  show truncMicro ((i : ℤ) * 1000) = _
  unfold truncMicro
  omega

theorem capacity_append (l : UpdateLog) (entry : UpdateLogEntry) :
    (l.append entry).capacity = l.capacity := by
  unfold append
  split_ifs
  · rfl
  · rfl

theorem capacity_exec_appends (l : UpdateLog) (entries : List UpdateLogEntry) :
    (l.exec (entries.map .append)).capacity = l.capacity := by
  induction entries generalizing l with
  | nil => rfl
  | cons e entries ih => exact (ih (l.append e)).trans (capacity_append l e)

theorem entries_append_ne_nil {l : UpdateLog} (h : 0 < l.capacity) (entry : UpdateLogEntry) :
    (l.append entry).entries ≠ [] := by
  rw [entries_append, if_pos h, ← length_pos_iff, length_drop, length_append,
    length_singleton]
  omega

/-- One entry past a whole turn: the log has the first entry of the next. -/
theorem restarted_of_turn {n : ℕ} (hn : n = turn) :
    Restarted ((new 1024).exec (appendsOf (n + 1))) 0
      ((new 1024).appended (appendsOf (n + 1))) := by
  have htracks : Tracks ((new 1024).appended (appendsOf (n + 1)))
      ((new 1024).exec (appendsOf (n + 1))) :=
    (tracks_new 1024).exec _
  have hlength : ((new 1024).appended (appendsOf (n + 1))).length = n + 1 := by
    have := congrArg length (times_appendsOf (new 1024) (n + 1))
    simpa using this
  have hexec : (new 1024).exec (appendsOf (n + 1)) =
      ((new 1024).exec (((range n).map entryAt).map .append)).append (entryAt n) := by
    unfold appendsOf exec
    rw [range_succ, map_append, foldl_append, map_map]
    rfl
  have hentries : ((new 1024).exec (appendsOf (n + 1))).entries ≠ [] := by
    rw [hexec]
    refine entries_append_ne_nil ?_ _
    rw [capacity_exec_appends]
    decide
  obtain ⟨first, rest, hfirst⟩ := exists_cons_of_ne_nil hentries
  have hserial := htracks.first hfirst
  have hlast := htracks.last
  have hturn := htracks.oneTurn
  rw [if_neg (ne_nil_of_length_pos (by rw [hlength]; exact succ_pos n)), hlength] at hlast
  have hmod : (n + 1 - 1) % turn = 0 := by rw [Nat.add_sub_cancel, hn, mod_self]
  have hone : ((new 1024).exec (appendsOf (n + 1))).entries.length = 1 := by
    have : 0 < ((new 1024).exec (appendsOf (n + 1))).entries.length := length_pos_iff.2 hentries
    omega
  refine ⟨rfl, ?_, first, ?_, ?_⟩
  · rw [hlength, hn]
    norm_num
  · rw [hfirst]
    rfl
  · rw [hlength, hone, hmod] at hserial
    exact UInt32.toNat_inj.1 hserial

theorem nodup_appendsOf (l : UpdateLog) (n : ℕ) :
    ((l.appended (appendsOf n)).map fun e => (e.serial, e.time)).Nodup := by
  have htimes : ((l.appended (appendsOf n)).map UpdateLogEntry.time).Nodup := by
    rw [times_appendsOf]
    refine nodup_range.map fun i j hij => ?_
    omega
  have hpairs : (l.appended (appendsOf n)).map UpdateLogEntry.time =
      ((l.appended (appendsOf n)).map fun e => (e.serial, e.time)).map Prod.snd := by
    rw [map_map]
    rfl
  rw [hpairs] at htimes
  exact htimes.of_map

/-- A replica that has the cursor of the empty log is given the entries of the second turn, as if
there had been no first one. -/
theorem entries_after_restart : ∃ ops : List LogOp,
    (((new 1024).appended ops).map fun e => (e.serial, e.time)).Nodup ∧
    ¬ Answers (((new 1024).exec ops).entriesAfter (new 1024).last (new 1024).lastTime)
      ((new 1024).appended ops) := by
  obtain ⟨n, hn⟩ : ∃ n, n = turn := ⟨_, rfl⟩
  have htracks : Tracks ((new 1024).appended (appendsOf (n + 1)))
      ((new 1024).exec (appendsOf (n + 1))) :=
    (tracks_new 1024).exec _
  exact ⟨appendsOf (n + 1), nodup_appendsOf _ _,
    fun h => htracks.answers_zero.1 h (restarted_of_turn hn)⟩

end UpdateLog

end Kerberos
