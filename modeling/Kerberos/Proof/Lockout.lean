import Kerberos.Proof.KeyChanges
import Kerberos.Spec.Lockout

/-!
# The count of failures

The stored count is that of the failures since the last success and the last moment at which the
interval was found to have passed, whatever the requests do in between. A reset is conditional on
the time of the last failure: it does no harm to failures its request has not seen, unless one of
them was recorded with the very same time.
-/

namespace Kerberos.Lockout

open Transition Function

variable {name : Principal} {interval : ℤ} {db db' : Database} {record : PrincipalRecord} {now : ℤ}

/-! ## The operations of the database -/

theorem lookup_saved (h : db.lookup name = some record) {record' : PrincipalRecord}
    (hname : record'.name = record.name) :
    (db.save now record').lookup name = some record' := by
  have hkey : canonical name = canonical record'.name := by
    rw [hname, db.principals_canonical _ _ h]
  rw [Database.lookup, Database.lookup_save, if_pos hkey]

theorem lookup_modified {f : PrincipalRecord → Except DBError PrincipalRecord}
    {record' : PrincipalRecord}
    (h : db.lookup name = some record) (hdb : db.modify now name f = .ok db')
    (hf : f record = .ok record')
    (hname : record'.name = record.name) : db'.lookup name = some record' := by
  obtain ⟨current, next, hcurrent, hnext, rfl⟩ := Database.modify_ok.1 hdb
  obtain rfl := Option.some.inj (h.symm.trans hcurrent)
  obtain rfl := Except.ok.inj (hf.symm.trans hnext)
  exact lookup_saved h hname

theorem lookup_reset {t : ℤ} (h : db.lookup name = some record)
    (hdb : db.resetAuthFailures now name t = .ok db') :
    db'.lookup name = some { record with failAuthCount := if record.lastFailed = t then 0
      else record.failAuthCount } := by
  obtain ⟨current, hcurrent, hdb⟩ := Except.bind_ok.1 hdb
  obtain rfl := Option.some.inj (h.symm.trans (Except.ofOption_ok.1 hcurrent))
  by_cases ht : record.lastFailed = t
  · rw [if_neg (not_not.2 ht)] at hdb
    cases hdb
    rw [if_pos ht]
    exact lookup_saved h rfl
  · rw [if_pos ht] at hdb
    cases hdb
    rw [if_neg ht]
    exact h

/-! ## Runs -/

/-- What the requests know about a record: if its last failure is the one a request has in its copy,
the request has seen every failure; and a reset is only under way if the interval has passed. -/
def Informed (interval : ℤ) (w : World) (lastFailed : ℤ) : Prop :=
  ∀ i t, (w.requests i).lastFailed = some t →
    (lastFailed = t → (w.requests i).seen = w.recorded) ∧
      ((w.requests i).resets = true → Expired interval t w.clock)

/-- The count is exact, and no reset drops a failure that its request has not seen. -/
def Exact (name : Principal) (interval : ℤ) (w : World) : Prop :=
  ∃ record, w.db.lookup name = some record ∧ record.failAuthCount.toNat = w.counted ∧
    Informed interval w record.lastFailed

/-- The condition on a failure: the count has room for it, and its time is not the last failure in
the copy of another request. -/
def Distinct (w : World) : Event → Prop
  | .failure i => w.counted + 1 < 2 ^ 32 ∧ ∀ j t, j ≠ i → (w.requests j).lastFailed = some t →
    (w.requests i).now ≠ t
  | _ => True

theorem Informed.set {w : World} {lastFailed : ℤ} (h : Informed interval w lastFailed) {i : ℕ}
    {r : Request}
    (hr : ∀ t, r.lastFailed = some t → (lastFailed = t → r.seen = w.recorded) ∧
      (r.resets = true → Expired interval t w.clock)) :
    Informed interval (w.set i r) lastFailed := by
  intro j t hj
  by_cases hji : j = i
  · subst hji
    simp only [World.set, update_self] at hj ⊢
    exact hr t hj
  · simp only [World.set, update_of_ne hji] at hj ⊢
    exact h j t hj

theorem exact_step (w : World) (e : Event) (w' : World) (h : Exact name interval w)
    (hstep : Guarded (Step name interval) Distinct w e w') : Exact name interval w' := by
  obtain ⟨record, hrecord, hcount, hinformed⟩ := h
  obtain ⟨hstep, hguard⟩ := hstep
  cases hstep with
  | tick hclock =>
    refine ⟨record, hrecord, hcount, fun i t hi => ⟨(hinformed i t hi).1, fun hr => ?_⟩⟩
    obtain ⟨hpos, hset, hpassed⟩ := (hinformed i t hi).2 hr
    exact ⟨hpos, hset, hpassed.trans hclock⟩
  | lookup hfound =>
    exact ⟨record, hrecord, hcount, hinformed.set fun t _ => ⟨fun _ => rfl, nofun⟩⟩
  | @check i t ht =>
    refine ⟨record, hrecord, hcount,
      hinformed.set fun t' ht' => ⟨(hinformed i t' ht').1, fun hr => ?_⟩⟩
    obtain rfl := Option.some.inj (ht.symm.trans ht')
    exact of_decide_eq_true hr
  | @reset i t found db hr ht hfound hdb =>
    obtain rfl := Option.some.inj (hrecord.symm.trans hfound)
    refine ⟨_, lookup_reset hrecord hdb, ?_,
      hinformed.set fun t' ht' => ⟨(hinformed i t' ht').1, nofun⟩⟩
    split_ifs
    · rfl
    · exact hcount
  | @read i => exact ⟨record, hrecord, hcount, hinformed.set fun t ht => hinformed i t ht⟩
  | @failure i found db hfound hdb =>
    obtain rfl := Option.some.inj (hrecord.symm.trans hfound)
    obtain ⟨hroom, hdistinct⟩ := hguard
    refine ⟨_, lookup_modified hrecord hdb rfl rfl, ?_, ?_⟩
    · show UInt32.toNat ((if Expired interval record.lastFailed (w.requests i).now then 0
        else record.failAuthCount) + 1) =
        (if Expired interval record.lastFailed (w.requests i).now then 0 else w.counted) + 1
      rw [UInt32.toNat_add]
      split_ifs
      · rfl
      · rw [hcount]
        exact Nat.mod_eq_of_lt hroom
    · intro j t hj
      by_cases hji : j = i
      · subst hji
        simp only [World.set, update_self] at hj
        cases hj
      · simp only [World.set, update_of_ne hji] at hj ⊢
        -- the time that is recorded is in no other request's copy
        exact ⟨fun heq => absurd heq (hdistinct j t hji hj), (hinformed j t hj).2⟩
  | success hdb =>
    refine ⟨_, lookup_modified hrecord hdb rfl rfl, rfl, ?_⟩
    exact hinformed.set nofun

namespace Sample

def user : Principal := ⟨str "R", 1, [str "c"]⟩

/-- A principal with a failure at second 1. -/
def start : World where
  db := (newDatabase (str "R")).put { name := user, failAuthCount := 1, lastFailed := second }
  clock := second
  requests _ := {}
  recorded := 0
  counted := 1

end Sample

end Kerberos.Lockout
