import Kerberos.Proof.Acceptor

/-!
# An acceptor without a cache accepts a request once

The process-local cache keeps the time of every accepted authenticator, and a sweep
drops the times that are out of the skew. A time that was within the skew of the clock
before can only have fallen behind it (`past_of_swept`), and what is behind stays
behind. The throttles of the sweep keep entries longer, never shorter.

* `sweep_lookup`: what a sweep leaves of an entry.
* `ap_local_once`: over any run, up to the range of the clock difference.
-/

namespace Kerberos.AP

open Transition

variable {E : Env} {skew now ctime : ℤ} {key : Bytes} {w w' : World} {c : Call} {o : Opened}
  {i : EncAuthenticator}

/-! ## The skew and the clock -/

/-- A time that has left the skew as the clock went on lies behind it. -/
theorem past_of_swept {t : ℤ} (ht : t ≤ now) (h : withinSkew skew t ctime = true)
    (h' : withinSkew skew now ctime = false) : ctime + skew < now := by
  unfold withinSkew timeSub durNeg maxDuration minDuration at h h'
  simp only [decide_eq_true_eq, decide_eq_false_iff_not] at h h'
  split_ifs at h h' <;> omega

/-- A time behind the skew is found out, up to the range of the difference. -/
theorem not_withinSkew_of_past (h : ctime + skew < now) (hrange : now - ctime < 2 ^ 63) :
    withinSkew skew now ctime = false := by
  unfold withinSkew timeSub durNeg maxDuration minDuration
  simp only [decide_eq_false_iff_not]
  split_ifs <;> omega

/-! ## One call -/

/-- **A sweep** keeps an entry, or its time is out of the skew. -/
theorem sweep_lookup (now skew : ℤ) {cache : LocalCache}
    (h : cache.entries.lookup key = some ctime) :
    (sweepReplayCache now skew cache).entries.lookup key = some ctime ∨
      withinSkew skew now ctime = false := by
  unfold sweepReplayCache
  split
  · exact Or.inl h
  split
  · exact Or.inl h
  · cases hw : withinSkew skew now ctime with
    | false => exact Or.inr rfl
    | true =>
      exact Or.inl (GoMap.mem_lookup_keep.2 ⟨h, hw⟩)

/-- The local cache behind a call: swept, if the call came to that, and with the new
entry. -/
theorem testReplay_lookup {random : Bytes} {persistent : Bool} {st : State}
    (h : st.localCache.entries.lookup key = some ctime) :
    (testReplay E random persistent o now skew st).2.localCache.entries.lookup key = some ctime ∨
      withinSkew (durAbs skew) now ctime = false := by
  rcases sweep_lookup now (durAbs skew) h with hkept | hswept
  · left
    unfold testReplay
    simp only
    split
    · exact hkept
    split
    · exact hkept
    · unfold testLocal
      simp only
      split
      · exact hkept
      · rename_i hmiss
        have hne : key ≠ localKey E o.request.authenticator.cipher := by
          rintro rfl
          rw [hkept] at hmiss
          exact hmiss rfl
        simpa [AList.lookup_insert_ne hne] using hkept
  · exact Or.inr hswept

/-- What is accepted is fresh, and is entered. -/
theorem accepts_local (hstep : Step E skew w c w') (h : Accepts E skew false i w c) :
    withinSkew (durAbs skew) c.now i.ctime = true ∧
      w'.state.localCache.entries.lookup (localKey E i.cipher) = some i.ctime := by
  obtain ⟨hp, ⟨o, hr, rfl⟩, v, hv⟩ := h
  rw [hstep.state_eq, show readAPReq E c.keytab c.der c.now skew = .ok o from hr]
  rw [Call.answer_eq hr] at hv
  simp only [hp, testReplay] at hv ⊢
  cases hw : withinSkew (durAbs skew) c.now o.authenticator.ctime.time with
  | false => simp [hw, Except.map] at hv
  | true =>
    simp only [hw, Bool.not_true, Bool.false_eq_true, if_false] at hv
    obtain ⟨u, hu, -⟩ := Except.map_eq_ok.1 hv
    refine ⟨hw, ?_⟩
    unfold testLocal at hu ⊢
    simp only at hu ⊢
    split at hu
    · cases hu
    · rename_i hmiss
      simp [hmiss, Opened.encAuthenticator]

/-! ## Runs -/

/-- The authenticator was within the skew once, and the cache has its time, or its
window is over. -/
def Entered (E : Env) (skew : ℤ) (i : EncAuthenticator) (w : World) : Prop :=
  (∃ t ≤ w.clock, withinSkew (durAbs skew) t i.ctime = true) ∧
    (w.state.localCache.entries.lookup (localKey E i.cipher) = some i.ctime ∨
      i.ctime + durAbs skew < w.clock)

/-- **Every call keeps it**, the sweep included. -/
theorem entered_step (hw : Entered E skew i w) (h : Step E skew w c w') : Entered E skew i w' := by
  obtain ⟨⟨t, ht, hfresh⟩, hentry⟩ := hw
  obtain ⟨hle, hclock⟩ := h.clock_eq
  refine ⟨⟨t, by omega, hfresh⟩, ?_⟩
  rcases hentry with hentry | hover
  · rw [h.state_eq]
    split
    · exact Or.inl hentry
    · rcases testReplay_lookup hentry with hkept | hswept
      · exact Or.inl hkept
      · right
        rw [hclock]
        exact past_of_swept (by omega) hfresh hswept
  · omega

/-- A request that is read again is refused as a replay or for the clock skew. -/
theorem entered_refused (hw : Entered E skew i w) (hle : w.clock ≤ c.now)
    (hp : c.persistent = false)
    (hr : c.reads E skew o) (hi : o.encAuthenticator = i) (hrange : c.now - i.ctime < 2 ^ 63) :
    ∃ e, c.answer E skew w = .error e ∧ (e.cause = .replay ∨ e.cause = .clockSkew) := by
  obtain ⟨-, hentry⟩ := hw
  subst hi
  rw [Call.answer_eq hr, hp]
  have stale (h : withinSkew (durAbs skew) c.now o.authenticator.ctime.time = false) :
      (testReplay E c.random false o c.now skew w.state).1 =
        .error ⟨str "verify AP-REQ authenticator: ", .clockSkew⟩ := by
    simp [testReplay, h]
  rcases hentry with hentry | hover
  · rcases sweep_lookup c.now (durAbs skew) hentry with hkept | hswept
    · cases hfresh : withinSkew (durAbs skew) c.now o.authenticator.ctime.time with
      | false => exact ⟨_, by rw [stale hfresh]; rfl, Or.inr rfl⟩
      | true =>
        have hreplay : (testReplay E c.random false o c.now skew w.state).1 =
            .error ⟨str "verify AP-REQ: ", .replay⟩ := by
          simp only [Opened.encAuthenticator] at hkept
          simp [testReplay, hfresh, testLocal, hkept]
        exact ⟨_, by rw [hreplay]; rfl, Or.inl rfl⟩
    · exact ⟨_, by rw [stale hswept]; rfl, Or.inr rfl⟩
  · have hpast := not_withinSkew_of_past (lt_of_lt_of_le hover hle) hrange
    exact ⟨_, by rw [stale hpast]; rfl, Or.inr rfl⟩

/-- **A request is accepted once** by an acceptor without a cache. A later call with the
same encrypted authenticator, less than `2 ^ 63` nanoseconds behind its time, is refused:
if its ticket and authenticator still pass their checks, as a replay or for the clock
skew. -/
theorem ap_local_once {E : Env} {skew : ℤ} {i : EncAuthenticator} {es : List Call}
    {w₁ w₂ w₃ w₄ : World} {c c' : Call} (hstep : Step E skew w₁ c w₂)
    (hacc : Accepts E skew false i w₁ c) (hrun : Run (Step E skew) w₂ es w₃)
    (hstep' : Step E skew w₃ c' w₄) (hp : c'.persistent = false)
    (hsame : ∀ o, c'.reads E skew o → o.encAuthenticator = i) (hrange : c'.now - i.ctime < 2 ^ 63) :
    ∃ e, c'.answer E skew w₃ = .error e ∧
      ((∃ o, c'.reads E skew o) → e.cause = .replay ∨ e.cause = .clockSkew) := by
  have hentered : Entered E skew i w₃ := by
    obtain ⟨hfresh, hentry⟩ := accepts_local hstep hacc
    have hw₂ : Entered E skew i w₂ := by
      refine ⟨⟨c.now, ?_, hfresh⟩, Or.inl hentry⟩
      rw [hstep.clock_eq.2]
    exact hrun.invariant (P := Entered E skew i) (fun _ _ _ => entered_step) hw₂
  cases hr : readAPReq E c'.keytab c'.der c'.now skew with
  | error e =>
    refine ⟨e, by simp [Call.answer, verifyAPReqWithOptions, hr], ?_⟩
    rintro ⟨o, ho⟩
    rw [Call.reads, hr] at ho
    cases ho
  | ok o =>
    obtain ⟨e, he, hcause⟩ :=
      entered_refused hentered hstep'.clock_eq.1 hp hr (hsame o hr) hrange
    exact ⟨e, he, fun _ => hcause⟩

open Kerberos.AP.Sample

/-- A request of minute one, accepted then and refused as a replay two minutes later. -/
theorem ap_local_once_minute :
    ∃ w, Step (env (10 * hour)) (5 * minute) start (call false 1 minute) w ∧
    Accepts (env (10 * hour)) (5 * minute) false (encAuthenticator 1) start (call false 1 minute) ∧
    ∃ e, (call false 1 (3 * minute)).answer (env (10 * hour)) (5 * minute) w = .error e ∧
      (e.cause = .replay ∨ e.cause = .clockSkew) := by
  have hstep : Step (env (10 * hour)) (5 * minute) start (call false 1 minute) _ := ⟨by decide, rfl⟩
  have hacc : Accepts (env (10 * hour)) (5 * minute) false (encAuthenticator 1) start
      (call false 1 minute) := ⟨rfl, ⟨_, rfl, rfl⟩, _, rfl⟩
  have hstep' : Step (env (10 * hour)) (5 * minute)
      (start.next (env (10 * hour)) (5 * minute) (call false 1 minute))
        (call false 1 (3 * minute)) _ :=
    ⟨by decide, rfl⟩
  have hsame : ∀ o, (call false 1 (3 * minute)).reads (env (10 * hour)) (5 * minute) o →
      o.encAuthenticator = encAuthenticator 1 := by
    intro o ho
    cases ho
    rfl
  obtain ⟨e, he, hcause⟩ := ap_local_once hstep hacc (.nil _) hstep' rfl hsame (by decide)
  exact ⟨_, hstep, hacc, e, he, hcause ⟨_, rfl⟩⟩

/-- **The ticket is looked at first.** The same request of minute one, with a ticket that
ends then: after seven minutes the error is that the ticket has expired. -/
theorem ap_local_expired : ∃ w, Step (env minute) (5 * minute) start (call false 1 minute) w ∧
    Accepts (env minute) (5 * minute) false (encAuthenticator 1) start (call false 1 minute) ∧
    ∃ e, (call false 1 (7 * minute)).answer (env minute) (5 * minute) w = .error e ∧
      ¬ (e.cause = .replay ∨ e.cause = .clockSkew) :=
  ⟨_, ⟨by decide, rfl⟩, ⟨rfl, ⟨_, rfl, rfl⟩, _, rfl⟩, _, rfl, by decide⟩

end Kerberos.AP
