import Kerberos.Proof.Stages
import Kerberos.Spec.Sample

/-!
# The KDC accepts an authenticator once

`Server.replayed` keeps an entry until the clock of its acceptance plus the skew, and
makes room in a full table by dropping a live entry. An authenticator stays acceptable
until its own time plus the skew. So the entry outlives the authenticator exactly when
the authenticator was made before the clock it was accepted at, and no entry is lost
while the table has room (`Timely`).

* `replayed_keeps`, `replayed_fresh`, `replayed_hit`: one call of `replayed`.
* `tgs_authenticator_once`: under `Timely`, over any run.
-/

namespace Kerberos

open Transition

variable {s : Server} {order : List Bytes → List Bytes} {skew now x : ℤ} {k key : Bytes}
  {table : ReplayTable}

/-! ## One call -/

theorem mem_lookup_liveEntries :
    x ∈ (liveEntries now table).lookup k ↔ x ∈ table.lookup k ∧ now < x := by
  rw [liveEntries, GoMap.mem_lookup_keep, decide_eq_true_eq]

/-- A live entry under the key: a replay, and nothing is inserted. -/
theorem replayed_of_live (h : x ∈ (liveEntries now table).lookup key) :
    replayed order skew now key table = (true, liveEntries now table) := by
  have hx := (mem_lookup_liveEntries.1 h).2
  unfold replayed
  simp [Option.mem_def.1 h, hx]

theorem replayed_of_none (h : (liveEntries now table).lookup key = none) :
    replayed order skew now key table =
      (false, (evict order (liveEntries now table)).insert key (now + skew)) := by
  unfold replayed
  simp [h]

theorem replayed_hit (h : x ∈ table.lookup key) (hx : now < x) :
    (replayed order skew now key table).1 = true := by
  rw [replayed_of_live (mem_lookup_liveEntries.2 ⟨h, hx⟩)]

/-- The table after a call that finds the authenticator fresh has an entry for it. -/
theorem replayed_fresh (h : (replayed order skew now key table).1 = false) :
    now + skew ∈ (replayed order skew now key table).2.lookup key := by
  cases hlive : (liveEntries now table).lookup key with
  | none => simp [replayed_of_none hlive]
  | some x =>
    rw [replayed_of_live hlive] at h
    cases h

/-- With room in the table, a call loses only entries that have expired. -/
theorem replayed_keeps (hroom : (liveEntries now table).entries.length < maxReplayEntries)
    (h : x ∈ table.lookup k) (hx : now < x) :
    x ∈ (replayed order skew now key table).2.lookup k := by
  have hk : x ∈ (liveEntries now table).lookup k := mem_lookup_liveEntries.2 ⟨h, hx⟩
  cases hlive : (liveEntries now table).lookup key with
  | some y =>
    rw [replayed_of_live hlive]
    exact hk
  | none =>
    have hne : k ≠ key := by
      rintro rfl
      rw [hlive] at hk
      cases hk
    rw [replayed_of_none hlive, evict, if_neg (not_le.2 hroom), AList.lookup_insert_ne hne]
    exact hk

/-! ## The handler -/

/-- What the replay table knows an authenticator by. -/
structure AuthenticatorId where
  realm : Bytes
  name : PrincipalName
  ctime : ℤ
  cusec : Int32
  checksum : Bytes
  deriving DecidableEq

/-- The authenticator of an admitted request. -/
def Admission.authenticatorId (a : Admission) : AuthenticatorId where
  realm := a.part.crealm
  name := a.part.cname
  ctime := a.header.authenticator.ctime.time
  cusec := a.header.authenticator.cusec
  checksum := a.header.authenticator.checksum.elim [] (·.checksum)

theorem replayKey_eq_of_authenticatorId {a b : Admission}
    (h : a.authenticatorId = b.authenticatorId) : a.replayKey = b.replayKey := by
  simp only [Admission.authenticatorId, AuthenticatorId.mk.injEq] at h
  obtain ⟨hr, hn, ht, hc, hs⟩ := h
  simp only [Admission.replayKey, replayKey, hr, hn, ht, hc, hs]

/-- The exchange tests the authenticator `i` and `replayed` reports it as new. -/
def Accepts (s : Server) (i : AuthenticatorId) (w : World) : Event → Prop
  | .tgsReq E db clk request raw => ∃ a, admitTGS E { s with db } clk request raw = .ok a ∧
      a.authenticatorId = i ∧
      (replayed E.mapOrder s.skew (clk .replay) a.replayKey w.replays).1 = false
  | _ => False

/-- The condition on an admitted request: at the replay test the clock is past the
authenticator's time and not past the end of its window, and the table has room. -/
structure Timely (s : Server) (now : ℤ) (table : ReplayTable) (i : AuthenticatorId) : Prop where
  past : i.ctime < now
  fresh : now ≤ i.ctime + s.skew
  room : (liveEntries now table).entries.length < maxReplayEntries

/-- Every admitted request of an exchange is timely. -/
def replayGuarded (s : Server) (w : World) : Event → Prop
  | .tgsReq E db clk request raw => ∀ a, admitTGS E { s with db } clk request raw = .ok a →
      Timely s (clk .replay) w.replays a.authenticatorId
  | _ => True

/-- The table an exchange leaves: that of the replay test, if it comes to it. -/
def tableAfter (s : Server) (table : ReplayTable) : Event → ReplayTable
  | .tgsReq E db clk request raw =>
    match admitTGS E { s with db } clk request raw with
    | .error _ => table
    | .ok a => (replayed E.mapOrder s.skew (clk .replay) a.replayKey table).2
  | _ => table

section

variable {E : Env} {db : Store} {clk : Clock} {request : KDCReq} {raw : Bytes}

theorem tableAfter_error {f : Failure} (ha : admitTGS E { s with db } clk request raw = .error f) :
    tableAfter s table (.tgsReq E db clk request raw) = table := by
  simp only [tableAfter, ha]

theorem tableAfter_ok {a : Admission} (ha : admitTGS E { s with db } clk request raw = .ok a) :
    tableAfter s table (.tgsReq E db clk request raw) =
      (replayed E.mapOrder s.skew (clk .replay) a.replayKey table).2 := by
  simp only [tableAfter, ha]

theorem handleTGSReqCore_table {table' : ReplayTable} {out : Handled TGSReply}
    (h : handleTGSReqCore E { s with db } clk table request raw = (out, table')) :
    table' = tableAfter s table (.tgsReq E db clk request raw) := by
  unfold handleTGSReqCore at h
  split at h
  · rename_i f ha
    cases h
    exact (tableAfter_error ha).symm
  · rename_i a ha
    rw [tableAfter_ok ha]
    simp only at h
    split at h <;> exact (congrArg Prod.snd h).symm

end

/-! ## Runs -/

variable {w w' : World} {e : Event}

theorem KDCStep.replays_eq (h : KDCStep s w e w') : w'.replays = tableAfter s w.replays e := by
  cases h with
  | crossRealm => rfl
  | asRefused => rfl
  | asIssued => rfl
  | tgsRefused hclk h => exact handleTGSReqCore_table h
  | tgsIssued hclk hp ha hh h => exact handleTGSReqCore_table h

theorem KDCStep.clock_le (h : KDCStep s w e w') : w.clock ≤ w'.clock := by
  cases h with
  | crossRealm => exact le_rfl
  | asRefused hclk => exact le_trans (hclk.1 .issue).1 (hclk.1 .issue).2
  | asIssued hclk => exact le_trans (hclk.1 .issue).1 (hclk.1 .issue).2
  | tgsRefused hclk => exact le_trans (hclk.1 .issue).1 (hclk.1 .issue).2
  | tgsIssued hclk => exact le_trans (hclk.1 .issue).1 (hclk.1 .issue).2

theorem KDCStep.replay_reading {E : Env} {db : Store} {clk : Clock} {request : KDCReq}
    {raw : Bytes} (h : KDCStep s w (.tgsReq E db clk request raw) w') :
    w.clock ≤ clk .replay ∧ clk .replay ≤ w'.clock := by
  cases h with
  | tgsRefused hclk => exact hclk.1 .replay
  | tgsIssued hclk => exact hclk.1 .replay

/-- The table has an entry that outlives the authenticator's window, or the window is
over. -/
def Barred (s : Server) (i : AuthenticatorId) (key : Bytes) (w : World) : Prop :=
  (∃ x ∈ w.replays.lookup key, i.ctime + s.skew < x) ∨ i.ctime + s.skew < w.clock

variable {i : AuthenticatorId}

/-- **A timely exchange keeps the bar.** -/
theorem barred_step (hb : Barred s i key w)
    (h : Guarded (KDCStep s) (replayGuarded s) w e w') : Barred s i key w' := by
  obtain ⟨hstep, hguard⟩ := h
  rcases hb with ⟨x, hx, hlt⟩ | hover
  · unfold Barred
    rw [hstep.replays_eq]
    cases e with
    | crossRealm part => exact Or.inl ⟨x, hx, hlt⟩
    | asReq E db clk request raw => exact Or.inl ⟨x, hx, hlt⟩
    | tgsReq E db clk request raw =>
      cases ha : admitTGS E { s with db } clk request raw with
      | error f =>
        rw [tableAfter_error ha]
        exact Or.inl ⟨x, hx, hlt⟩
      | ok a =>
        rw [tableAfter_ok ha]
        by_cases hnow : clk .replay < x
        · exact Or.inl ⟨x, replayed_keeps (hguard a ha).room hx hnow, hlt⟩
        · -- the entry is dropped, but by then the window is over
          have hle := hstep.replay_reading.2
          exact Or.inr (by omega)
  · have hle := hstep.clock_le
    exact Or.inr (by omega)

/-- Acceptance bars: the new entry expires at the clock plus the skew, and the
authenticator was made before that clock. -/
theorem accepts_barred (h : Guarded (KDCStep s) (replayGuarded s) w e w') (hacc : Accepts s i w e)
    {b : Admission}
    (hb : b.authenticatorId = i) : Barred s i b.replayKey w' := by
  obtain ⟨hstep, hguard⟩ := h
  cases e with
  | crossRealm part => cases hacc
  | asReq E db clk request raw => cases hacc
  | tgsReq E db clk request raw =>
    obtain ⟨a, ha, rfl, hfresh⟩ := hacc
    left
    rw [hstep.replays_eq, tableAfter_ok ha, replayKey_eq_of_authenticatorId hb]
    have hpast := (hguard a ha).past
    exact ⟨_, replayed_fresh hfresh, by omega⟩

/-- What is barred is reported as replayed, as long as its window is open. -/
theorem barred_not_accepts (hb : ∀ b : Admission, b.authenticatorId = i → Barred s i b.replayKey w)
    (h : Guarded (KDCStep s) (replayGuarded s) w e w') : ¬ Accepts s i w e := by
  obtain ⟨hstep, hguard⟩ := h
  intro hacc
  cases e with
  | crossRealm part => cases hacc
  | asReq E db clk request raw => cases hacc
  | tgsReq E db clk request raw =>
    obtain ⟨a, ha, rfl, hfresh⟩ := hacc
    have hopen := (hguard a ha).fresh
    rcases hb a rfl with ⟨x, hx, hlt⟩ | hover
    · rw [replayed_hit hx (by omega)] at hfresh
      cases hfresh
    · have hle := hstep.replay_reading.1
      omega

/-- **An authenticator is accepted once** in every run of timely requests. -/
theorem tgs_authenticator_once (s : Server) (now : ℤ) (i : AuthenticatorId) :
    AtMostOnce (Guarded (KDCStep s) (replayGuarded s)) (Accepts s i) (World.start now) := by
  apply AtMostOnce.of_barred fun w => ∀ b : Admission, b.authenticatorId = i →
    Barred s i b.replayKey w
  · intro w e w' h hacc b hb
    exact accepts_barred h hacc hb
  · intro w e w' hw h b hb
    exact barred_step (hw b hb) h
  · intro w e w' hw h
    exact barred_not_accepts hw h

open Sample

/-- The authenticator the client makes at `ctime`. -/
def Sample.authenticatorId (ctime : ℤ) : AuthenticatorId := ⟨realm, client, ctime, 0, [1]⟩

/-- **Accepted twice.** An authenticator made and accepted at time zero is accepted again
five minutes later, at the end of its window: its entry has just expired. -/
theorem tgs_authenticator_twice :
    ¬ AtMostOnce (KDCStep server) (Accepts server (authenticatorId 0)) (World.start 0) := by
  intro h
  have hs : KDCStep server ⟨0, ∅, [.initial first]⟩ (ask first 0 0 (10 * hour))
      (afterAsk (.initial first) 0 0 (10 * hour)) := ask_step (by simp [Issued.part])
  have hclk : Clock.Runs (clock (5 * minute)) (afterAsk (.initial first) 0 0 (10 * hour)).clock
      (5 * minute) := clock_runs (by decide)
  have hs' : KDCStep server (afterAsk (.initial first) 0 0 (10 * hour))
      (ask first 0 (5 * minute) (10 * hour)) _ :=
    .tgsIssued hclk (List.mem_cons_of_mem _ (List.mem_singleton.2 rfl)) rfl rfl rfl
  exact h _ _ _ _ _ _ _ _ (.single login_step) hs ⟨_, rfl, rfl, rfl⟩ (.nil _) hs' ⟨_, rfl, rfl, rfl⟩

/-- An authenticator made at time zero, accepted one second later and refused after
another. -/
theorem tgs_authenticator_once_second : ∃ w w',
    Run (Guarded (KDCStep server) (replayGuarded server)) (World.start 0) [login] w ∧
    Guarded (KDCStep server) (replayGuarded server) w (ask first 0 second (10 * hour)) w' ∧
    Accepts server (authenticatorId 0) w (ask first 0 second (10 * hour)) ∧
    ¬ Accepts server (authenticatorId 0) w' (ask first 0 (2 * second) (10 * hour)) := by
  have hrun : Run (Guarded (KDCStep server) (replayGuarded server)) (World.start 0) [login]
      ⟨0, ∅, [.initial first]⟩ := .single ⟨login_step, trivial⟩
  have hs : Guarded (KDCStep server) (replayGuarded server) ⟨0, ∅, [.initial first]⟩
      (ask first 0 second (10 * hour)) (afterAsk (.initial first) 0 second (10 * hour)) := by
    refine ⟨ask_step (by simp [Issued.part]), ?_⟩
    intro a ha
    cases ha
    exact ⟨by decide, by decide, by decide⟩
  have hacc : Accepts server (authenticatorId 0) ⟨0, ∅, [.initial first]⟩
      (ask first 0 second (10 * hour)) := ⟨_, rfl, rfl, rfl⟩
  have hclk : Clock.Runs (clock (2 * second)) (afterAsk (.initial first) 0 second (10 * hour)).clock
      (2 * second) := clock_runs (by decide)
  have hs' : KDCStep server (afterAsk (.initial first) 0 second (10 * hour))
      (ask first 0 (2 * second) (10 * hour)) _ := .tgsRefused hclk rfl
  have hg : replayGuarded server (afterAsk (.initial first) 0 second (10 * hour))
      (ask first 0 (2 * second) (10 * hour)) := by
    intro a ha
    cases ha
    exact ⟨by decide, by decide, by decide⟩
  exact ⟨_, _, hrun, hs, hacc, tgs_authenticator_once server 0 (authenticatorId 0)
    _ _ _ _ _ _ _ _ hrun hs hacc (.nil _) ⟨hs', hg⟩⟩

end Kerberos
