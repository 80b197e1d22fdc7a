import Kerberos.Lib.Run
import Kerberos.Proof.File2
import Mathlib.Data.Fintype.Card

/-!
# Runs of `File2.Store`

From an empty file, with one seed and one skew: a tag that was stored is a replay until its
record expires, whatever other tags are stored meanwhile and however their hashes collide.
The record is found by the search for its tag (`Probe.Found`), and a later store keeps that,
since it only writes over records that are empty or expired.

A record is expired if the time since it was made exceeds the skew, as a difference on
`int32`. For a skew of more than `2 ^ 31` seconds a fresh record counts as expired and can be
written over; that is the only exception (`replays_seen_iff`).
-/

namespace Kerberos.RCache

open Probe List

/-- `store`, for a tag and the time. -/
def storeTag (seed : Bytes) (skew : UInt32) (records : List Record) (call : Bytes × UInt32) :
    Except StoreError (List Record) :=
  storeAt records call.1 call.2 skew (probes call.1 tables seed) none

/-- The file after a call: one that fails leaves it as it is. -/
def nextRecords (seed : Bytes) (skew : UInt32) (records : List Record) (call : Bytes × UInt32) :
    List Record :=
  match storeTag seed skew records call with
  | .ok records' => records'
  | .error _ => records

/-- The file after a run of calls. -/
def stored (seed : Bytes) (skew : UInt32) (calls : List (Bytes × UInt32)) : List Record :=
  calls.foldl (nextRecords seed skew) []

/-- The times of the calls do not go back, are not zero, and lie within `2 ^ 31` seconds. -/
structure Timely (calls : List (Bytes × UInt32)) : Prop where
  tags : ∀ c ∈ calls, c.1.length = tagLen
  nonzero : ∀ c ∈ calls, c.2 ≠ 0
  ordered : calls.Pairwise fun a b => a.2.toNat ≤ b.2.toNat
  span : ∀ a ∈ calls, ∀ b ∈ calls, b.2.toNat < a.2.toNat + 2 ^ 31

/-- A tag that was stored is a replay, as long as its time is at most the skew ago. -/
def SeesReplays (seed : Bytes) (skew : UInt32) (calls : List (Bytes × UInt32)) : Prop :=
  ∀ done mid rest tag t t' records, calls = done ++ (tag, t) :: mid ++ (tag, t') :: rest →
    storeTag seed skew (stored seed skew done) (tag, t) = .ok records →
      t'.toNat ≤ t.toNat + skew.toNat →
    storeTag seed skew (stored seed skew (done ++ (tag, t) :: mid)) (tag, t') = .error .replay

/-! ## Expiry -/

/-- The difference of two times, as `expired` takes it. -/
theorem toInt_difference (a b : UInt32) : ((a - b).toInt32).toInt =
    if 2 * ((2 ^ 32 - b.toNat + a.toNat) % 2 ^ 32) < 2 ^ 32 then
      (((2 ^ 32 - b.toNat + a.toNat) % 2 ^ 32 : ℕ) : ℤ)
    else (((2 ^ 32 - b.toNat + a.toNat) % 2 ^ 32 : ℕ) : ℤ) - 2 ^ 32 := by
  change (a - b).toBitVec.toInt = _
  rw [BitVec.toInt_eq_toNat_cond]
  have hsub : (a - b).toBitVec.toNat = (2 ^ 32 - b.toNat + a.toNat) % 2 ^ 32 := UInt32.toNat_sub ..
  rfl

/-- With a larger one, it is expired at once. -/
theorem expired_at_once {timestamp skew : UInt32} (hskew : 2 ^ 31 < skew.toNat) :
    expired timestamp timestamp skew = true := by
  unfold expired
  rw [decide_eq_true_eq, Int32.lt_iff_toInt_lt, toInt_difference, UInt32.toNat_add]
  have hlt := skew.toNat_lt
  change (0 : ℤ) < _
  split_ifs
  · omega
  · omega

/-! ## A stored tag stays in sight -/

variable {seed : Bytes} {skew : UInt32} {t : UInt32}

/-- A call at a time when the record is not expired keeps it where it is found. -/
theorem found_nextRecords {records : List Record} {tag : Bytes} {ks : List ℕ}
    (h : Found (· = ⟨tag, t⟩) Occupied records ks) (ht : t ≠ 0) {call : Bytes × UInt32}
    (hcall : call.2 ≠ 0)
    (hlive : expired t call.2 skew = false) :
    Found (· = ⟨tag, t⟩) Occupied (nextRecords seed skew records call) ks := by
  unfold nextRecords
  cases hstore : storeTag seed skew records call with
  | error e => exact h
  | ok records' =>
    obtain ⟨k, rfl, _, hnone⟩ := storeAt_ok hcall hstore
    refine h.write hcall fun b hb hit => ?_
    -- what is written over is empty or expired, and the record is neither
    subst hit
    rcases (hnone rfl).1 _ hb with hzero | hexpired
    · exact ht hzero
    · rw [hlive] at hexpired
      cases hexpired

theorem seesReplays_of_skew (hskew : skew.toNat ≤ 2 ^ 31) {calls : List (Bytes × UInt32)}
    (h : Timely calls) : SeesReplays seed skew calls := by
  rintro done mid rest tag t t' records rfl hstore hlive
  have hordered := h.ordered
  have hmem : ∀ c ∈ (tag, t) :: mid ++ (tag, t') :: rest,
      c ∈ done ++ (tag, t) :: mid ++ (tag, t') :: rest := by
    intro c hc
    rw [append_assoc]
    exact mem_append_right _ hc
  have ht : t ≠ 0 := h.nonzero (tag, t) (hmem _ (by simp))
  obtain ⟨k, rfl, _, hnone⟩ := storeAt_ok ht hstore
  have hfound := (hnone rfl).2
  -- the calls between the two are made while the record is live
  have hbetween : ∀ c ∈ mid, c.2 ≠ 0 ∧ expired t c.2 skew = false := by
    intro c hc
    have hpast : t.toNat ≤ c.2.toNat := by
      rw [append_assoc, pairwise_append] at hordered
      exact (pairwise_cons.1 hordered.2.1).1 c (mem_append_left _ hc)
    rw [pairwise_append] at hordered
    have hle : c.2.toNat ≤ t'.toNat := hordered.2.2 c (by simp [hc]) (tag, t') mem_cons_self
    refine ⟨h.nonzero c (hmem c (by simp [hc])), ?_⟩
    unfold expired
    rw [decide_eq_false_iff_not, Int32.lt_iff_toInt_lt, toInt_difference, UInt32.toNat_add]
    change ¬ ((0 : ℤ) < _)
    split_ifs <;> omega
  have hstage : stored seed skew (done ++ (tag, t) :: mid) = mid.foldl (nextRecords seed skew)
      (writeRecord (stored seed skew done) k ⟨tag, t⟩) := by
    rw [stored, foldl_append, foldl_cons]
    congr 1
    change nextRecords seed skew (stored seed skew done) (tag, t) = _
    unfold nextRecords
    rw [hstore]
  rw [hstage]
  refine storeAt_replay ht
    (foldlRecOn (motive := fun records => Found (· = ⟨tag, t⟩) Occupied records _) mid _ hfound ?_)
  intro records h c hc
  exact found_nextRecords h ht (hbetween c hc).1 (hbetween c hc).2

/-! ## A skew that is too large -/

/-- The position in the first table at which a tag is looked for first. -/
def firstProbe (seed tag : Bytes) : ℕ := (sipHash24 tag seed).toNat % firstTableRecords

theorem probes_tables (seed tag : Bytes) :
    ∃ ks, probes tag tables seed = firstProbe seed tag :: ks := by
  have htables : tables = ⟨0, firstTableRecords⟩ :: tables.tail := by decide
  rw [htables]
  refine ⟨probes tag tables.tail (bumpSeed seed), ?_⟩
  rw [probes, zero_add]
  rfl

/-- A file with one record, at a position. -/
def oneRecord (position : ℕ) (tag : Bytes) (t : UInt32) : List Record :=
  List.replicate position Record.empty ++ [⟨tag, t⟩]

theorem storeTag_empty (tag : Bytes) (t : UInt32) :
    storeTag seed skew [] (tag, t) = .ok (oneRecord (firstProbe seed tag) tag t) := by
  obtain ⟨ks, hks⟩ := probes_tables seed tag
  simp [storeTag, hks, storeAt, readRecords, scanRecords, hasRoom, writeRecord, write, oneRecord]

variable {a b : Bytes}

/-- A single record that is expired is written over by another tag that is looked for there. -/
theorem storeTag_over (hne : a ≠ b) (hexpired : expired t t skew = true) :
    storeTag seed skew (oneRecord (firstProbe seed b) a t) (b, t) =
      .ok (oneRecord (firstProbe seed b) b t) := by
  obtain ⟨ks, hks⟩ := probes_tables seed b
  have hread : readRecords (oneRecord (firstProbe seed b) a t) (firstProbe seed b) = [⟨a, t⟩] := by
    unfold readRecords oneRecord
    rw [drop_append_of_le_length (by simp), drop_of_length_le (by simp)]
    rfl
  have hwrite : writeRecord (oneRecord (firstProbe seed b) a t) (firstProbe seed b) ⟨b, t⟩ =
      oneRecord (firstProbe seed b) b t := by
    unfold writeRecord write oneRecord
    simp
  simp only [storeTag, hks, storeAt, hread, scanRecords, hne, hexpired, hasRoom]
  simp [hwrite]

/-- The tags that are numbers. -/
def numberTag (i : Fin 1024) : Bytes :=
  UInt8.ofNat (i.val / 256) :: UInt8.ofNat (i.val % 256) :: List.replicate 10 0

theorem numberTag_injective : Function.Injective numberTag := by
  intro i j h
  injection h with h1 h2
  injection h2 with h2 _
  have h1' := congrArg UInt8.toNat h1
  have h2' := congrArg UInt8.toNat h2
  simp only [UInt8.toNat_ofNat'] at h1' h2'
  omega

/-- Whatever the seed, two tags are looked for at the same position. -/
theorem exists_collision (seed : Bytes) : ∃ a b :
    Bytes, a.length = tagLen ∧ b.length = tagLen ∧ a ≠ b ∧
    firstProbe seed a = firstProbe seed b := by
  obtain ⟨i, j, hne, heq⟩ := Fintype.exists_ne_map_eq_of_card_lt
    (fun i : Fin 1024 => (⟨firstProbe seed (numberTag i), Nat.mod_lt _ (by decide)⟩ :
      Fin firstTableRecords))
    (by rw [Fintype.card_fin, Fintype.card_fin]; decide)
  refine ⟨numberTag i, numberTag j, rfl, rfl, fun h => hne (numberTag_injective h), ?_⟩
  exact congrArg Fin.val heq

/-- Two tags that are looked for at one position, stored in turn in the same second. -/
def inTurn (a b : Bytes) : List (Bytes × UInt32) := [(a, 1), (b, 1), (a, 1)]

theorem timely_inTurn (ha : a.length = tagLen) (hb : b.length = tagLen) : Timely (inTurn a b) := by
  refine ⟨by simp [inTurn, ha, hb], by simp [inTurn], by simp [inTurn], by simp [inTurn]⟩

theorem missed_inTurn (hskew : 2 ^ 31 < skew.toNat) (hne : a ≠ b)
    (hprobe : firstProbe seed a = firstProbe seed b) : ¬ SeesReplays seed skew (inTurn a b) := by
  intro h
  have hexpired : expired 1 1 skew = true := expired_at_once hskew
  have hreplay := h [] [(b, 1)] [] a 1 1 _ rfl (storeTag_empty a 1) (by simp)
  have hfirst : stored seed skew [(a, 1)] = oneRecord (firstProbe seed b) a 1 := by
    change nextRecords seed skew [] (a, 1) = _
    unfold nextRecords
    rw [storeTag_empty, hprobe]
  have hsecond : stored seed skew [(a, 1), (b, 1)] = oneRecord (firstProbe seed a) b 1 := by
    change nextRecords seed skew (stored seed skew [(a, 1)]) (b, 1) = _
    unfold nextRecords
    rw [hfirst, storeTag_over hne hexpired, hprobe]
  change storeTag seed skew (stored seed skew [(a, 1), (b, 1)]) (a, 1) = _ at hreplay
  rw [hsecond, storeTag_over (Ne.symm hne) hexpired] at hreplay
  cases hreplay

/-- **A live tag is always a replay, exactly for skews up to `2 ^ 31` seconds.** -/
theorem replays_seen_iff (seed : Bytes) (skew : UInt32) :
    (∀ calls, Timely calls → SeesReplays seed skew calls) ↔ skew.toNat ≤ 2 ^ 31 := by
  constructor
  · intro h
    by_contra hlarge
    obtain ⟨a, b, ha, hb, hne, hprobe⟩ := exists_collision seed
    exact missed_inTurn (not_le.1 hlarge) hne hprobe (h _ (timely_inTurn ha hb))
  · intro hskew calls hcalls
    exact seesReplays_of_skew hskew hcalls

/-- With a seed of zeros and a skew of `2 ^ 31 + 1`, the tag 6 is stored twice in one second: the
tag 47, which has the same place in the first table, was written over it. -/
theorem replay_missed : Timely (inTurn (numberTag 6) (numberTag 47)) ∧
    storeTag (List.replicate 16 0) 0x80000001 [] (numberTag 6, 1) =
      .ok (oneRecord 23 (numberTag 6) 1) ∧
    storeTag (List.replicate 16 0) 0x80000001
      (stored (List.replicate 16 0) 0x80000001 [(numberTag 6, 1), (numberTag 47, 1)])
        (numberTag 6, 1) =
        .ok (oneRecord 23 (numberTag 6) 1) ∧
    ¬ SeesReplays (List.replicate 16 0) 0x80000001 (inTurn (numberTag 6) (numberTag 47)) := by
  refine ⟨timely_inTurn rfl rfl, by decide +kernel, by decide +kernel, ?_⟩
  exact missed_inTurn (by decide) (by decide) (by decide +kernel)

end Kerberos.RCache
