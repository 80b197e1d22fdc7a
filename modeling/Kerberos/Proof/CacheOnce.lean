import Kerberos.Proof.Acceptor
import Kerberos.Proof.File2

/-!
# An acceptor with a replay cache accepts a request once

`verifyAPReqWithTicketKey` tells the cache the time in the authenticator as the current
time. A record is then expired against the time in a later authenticator, while the
authenticator it stands for is tested against the clock. A request dated ahead of the
clock can so make the cache drop a record whose authenticator is still fresh. The
condition `CacheSafe` says that this does not happen.

* `store_holds`, `store_keeps`, `store_replay`: one call of `Cache.Store`, for both caches.
* `ap_cache_once`: over any run of safe calls.
-/

namespace Kerberos.RCache

open Probe

variable {random tag tag' : Bytes} {skew ts ctime : ℤ} {cache : Cache}

/-! ## One call of `Store` -/

/-- The cache has a record of the tag, stored with the time `ts`. -/
def Cache.Holds (cache : Cache) (tag : Bytes) (ts : ℤ) : Prop :=
  match cache with
  | .memory entries => entries.lookup tag = some ts
  | .file2 file => unix32 ts ≠ 0 ∧ ∃ seed, file.seed = some seed ∧
      Found (· = ⟨recordTag tag, unix32 ts⟩) Occupied file.records
        (probes (recordTag tag) tables seed)

/-- In a call told the time `ctime`, a record of the time `ts` counts as expired. -/
def Cache.expires (cache : Cache) (skew ctime ts : ℤ) : Bool :=
  match cache with
  | .memory _ => decide (ts < ctime + durNeg (durAbs skew))
  | .file2 _ => expired (unix32 ts) (unix32 ctime) (skew32 skew)

/-- A time that a record can have: in a file, zero is an empty record. -/
def Cache.Storable (cache : Cache) (ctime : ℤ) : Prop :=
  match cache with
  | .memory _ => True
  | .file2 _ => unix32 ctime ≠ 0

/-- What a file holds, another call keeps, unless it counts as expired there. -/
theorem fileStore_keeps {file : File} (h : (Cache.file2 file).Holds tag ts)
    (hstore : unix32 ctime ≠ 0) (hexp : expired (unix32 ts) (unix32 ctime) (skew32 skew) = false) :
    (Cache.file2 (fileStore random file tag' ctime skew).2).Holds tag ts := by
  obtain ⟨hts, seed, hseed, hfound⟩ := h
  refine ⟨hts, seed, ?_⟩
  unfold fileStore
  simp only [hseed]
  split
  · exact ⟨rfl, hfound⟩
  · rename_i records hok
    obtain ⟨k, rfl, -, hnone⟩ := storeAt_ok hstore hok
    refine ⟨rfl, hfound.write hstore ?_⟩
    -- the record that is written over is empty or expired: it is another one
    rintro r hr rfl
    rcases (hnone rfl).1 _ hr with h0 | hexp'
    · exact hts h0
    · rw [hexp] at hexp'
      cases hexp'

/-- **A record stays** unless it counts as expired. -/
theorem store_keeps (h : cache.Holds tag ts) (hstore : cache.Storable ctime)
    (hexp : cache.expires skew ctime ts = false) :
    (cache.store random tag' ctime skew).2.Holds tag ts := by
  cases cache with
  | memory entries =>
    unfold Cache.store memoryStore
    simp only
    split
    · exact h
    · rename_i out hout
      split at hout
      · cases hout
      · rename_i hmiss
        cases hout
        have hne : tag ≠ tag' := by
          rintro rfl
          rw [show entries.lookup tag = some ts from h] at hmiss
          exact hmiss rfl
        simp only [Cache.Holds, AList.lookup_insert_ne hne]
        refine GoMap.mem_lookup_keep.2 ⟨h, ?_⟩
        simpa [Cache.expires] using hexp
  | file2 file => exact fileStore_keeps h hstore hexp

/-- **A stored tag is held.** -/
theorem store_holds (hstore : cache.Storable ctime)
    (h : (cache.store random tag ctime skew).1 = .ok ()) :
    (cache.store random tag ctime skew).2.Holds tag ctime := by
  cases cache with
  | memory entries =>
    cases hmiss : entries.lookup tag with
    | some x => simp [Cache.store, memoryStore, hmiss] at h
    | none => simp [Cache.store, memoryStore, hmiss, Cache.Holds]
  | file2 file =>
    unfold Cache.store fileStore at h ⊢
    simp only at h ⊢
    cases hout : storeAt file.records (recordTag tag) (unix32 ctime) (skew32 skew)
        (probes (recordTag tag) tables (file.seed.getD random)) none with
    | error e => simp [hout] at h
    | ok records =>
      obtain ⟨k, -, -, hnone⟩ := storeAt_ok hstore hout
      exact ⟨hstore, _, rfl, (hnone rfl).2⟩

/-- **A held tag is a replay.** -/
theorem store_replay (h : cache.Holds tag ts) :
    (cache.store random tag ctime skew).1 = .error .replay := by
  cases cache with
  | memory entries =>
    unfold Cache.store memoryStore
    simp [show entries.lookup tag = some ts from h]
  | file2 file =>
    obtain ⟨hts, seed, hseed, hfound⟩ := h
    unfold Cache.store fileStore
    simp only [hseed, Option.getD_some, storeAt_replay hts hfound]

end Kerberos.RCache

namespace Kerberos.AP

open RCache Transition

variable {E : Env} {skew : ℤ}

/-! ## One call of the acceptor -/

/-- The tag of an encrypted authenticator. -/
def EncAuthenticator.tag (E : Env) (i : EncAuthenticator) : Bytes :=
  tagFromCiphertext i.cipher ((E.etype i.etype).elim 0 (·.checksumSize))

/-- The authenticator is encrypted in the session key's enctype, so its tag is its
own. -/
theorem tag_eq {c : Call} {o : Opened} (h : c.reads E skew o) :
    o.tag = o.encAuthenticator.tag E := by
  unfold Call.reads readAPReq openAPReq at h
  simp only [Except.bind_ok, orError_ok] at h
  obtain ⟨request, -, _, -, entry, -, etype, -, plain, -, part, -, data, -, _, -, _, -, _, hetype,
    session, hsession, auth, -, a, -, _, -, h⟩ := h
  cases h
  have hkey : request.authenticator.etype = part.key.keyType := by simpa [guard] using hetype
  simp only [Opened.tag, EncAuthenticator.tag, Opened.encAuthenticator, hkey, hsession,
    Option.elim_some]

/-- The request comes to the replay test in the cache. -/
def Call.Tests (E : Env) (skew : ℤ) (c : Call) (o : Opened) : Prop :=
  c.persistent = true ∧ c.reads E skew o ∧
    withinSkew (durAbs skew) c.now o.authenticator.ctime.time = true

variable {w w' : World} {c : Call} {o : Opened} {i : EncAuthenticator} {random : Bytes}

/-- The cache behind the replay test. -/
theorem testReplay_cache {persistent : Bool} {now : ℤ} {st : State} :
    (testReplay E random persistent o now skew st).2.cache =
      if persistent && withinSkew (durAbs skew) now o.authenticator.ctime.time then
        (st.cache.store random o.tag o.authenticator.ctime.time (durAbs skew)).2
      else st.cache := by
  unfold testReplay
  cases hw : withinSkew (durAbs skew) now o.authenticator.ctime.time <;>
    cases persistent <;> simp [hw]
  unfold testPersistent
  split <;> simp_all

/-- An answer comes from a request that is read, fresh and new to the cache. -/
theorem accepts_store (h : Accepts E skew true i w c) :
    ∃ o, c.Tests E skew o ∧ o.encAuthenticator = i ∧
    (w.state.cache.store c.random o.tag o.authenticator.ctime.time (durAbs skew)).1 = .ok () := by
  obtain ⟨hp, ⟨o, hr, hi⟩, v, hv⟩ := h
  rw [Call.answer_eq hr, hp] at hv
  simp only [testReplay, if_true] at hv
  cases hw : withinSkew (durAbs skew) c.now o.authenticator.ctime.time with
  | false => simp [hw, Except.map] at hv
  | true =>
    simp only [hw, Bool.not_true, Bool.false_eq_true, if_false] at hv
    obtain ⟨u, hu, -⟩ := Except.map_eq_ok.1 hv
    refine ⟨o, ⟨hp, hr, hw⟩, hi, ?_⟩
    unfold testPersistent at hu
    split at hu <;> simp_all

/-- **A call leaves the cache alone**, or it is the replay test of a request. -/
theorem Step.cache_cases (h : Step E skew w c w') :
    w'.state.cache = w.state.cache ∨ ∃ o, c.Tests E skew o ∧ w'.state.cache =
      (w.state.cache.store c.random o.tag o.authenticator.ctime.time (durAbs skew)).2 := by
  rw [h.state_eq]
  split
  · exact Or.inl rfl
  · rename_i o ho
    rw [testReplay_cache]
    split
    · rename_i htest
      rw [Bool.and_eq_true] at htest
      exact Or.inr ⟨o, ⟨htest.1, ho, htest.2⟩, rfl⟩
    · exact Or.inl rfl

theorem Step.accepted_mono (h : Step E skew w c w') (hi : i ∈ w.accepted) : i ∈ w'.accepted := by
  obtain ⟨-, rfl⟩ := h
  show i ∈ c.accepted E skew w
  unfold Call.accepted
  split
  · split
    · exact List.mem_cons_of_mem _ hi
    · exact hi
  · exact hi

theorem Step.mem_accepted (h : Step E skew w c w') (hacc : Accepts E skew true i w c) :
    i ∈ w'.accepted := by
  obtain ⟨-, rfl⟩ := h
  obtain ⟨hp, ⟨o, hr, rfl⟩, v, hv⟩ := hacc
  show _ ∈ c.accepted E skew w
  unfold Call.accepted
  rw [show readAPReq E c.keytab c.der c.now skew = .ok o from hr, hv]
  simp [hp]

/-! ## Runs -/

/-- The condition on a request that comes to the replay test: the clock has not passed
the end of its window, its time is one that the cache can store, and no authenticator
accepted so far, and still fresh, counts as expired at its time. -/
structure CacheSafe (skew now : ℤ) (w : World) (ctime : ℤ) : Prop where
  fresh : now ≤ ctime + skew
  storable : w.state.cache.Storable ctime
  keeps : ∀ a ∈ w.accepted, now ≤ a.ctime + skew → w.state.cache.expires skew ctime a.ctime = false

/-- Every request that comes to the replay test in a call is safe. -/
def cacheGuarded (E : Env) (skew : ℤ) (w : World) (c : Call) : Prop :=
  ∀ o, c.Tests E skew o → CacheSafe (durAbs skew) c.now w o.authenticator.ctime.time

/-- An accepted authenticator that the cache holds, or its window is over. -/
def Barred (E : Env) (skew : ℤ) (i : EncAuthenticator) (w : World) : Prop :=
  i ∈ w.accepted ∧
    (w.state.cache.Holds (i.tag E) i.ctime ∨ i.ctime + durAbs skew < w.clock)

theorem barred_of_accepts (h : Guarded (Step E skew) (cacheGuarded E skew) w c w')
    (hacc : Accepts E skew true i w c) : Barred E skew i w' := by
  obtain ⟨hstep, hguard⟩ := h
  refine ⟨hstep.mem_accepted hacc, Or.inl ?_⟩
  obtain ⟨o, htests, rfl, hok⟩ := accepts_store hacc
  have hcache : w'.state.cache =
      (w.state.cache.store c.random o.tag o.authenticator.ctime.time (durAbs skew)).2 := by
    rw [hstep.state_eq, show readAPReq E c.keytab c.der c.now skew = .ok o from htests.2.1]
    simp [testReplay_cache, htests.1, htests.2.2]
  rw [hcache, ← tag_eq htests.2.1]
  exact store_holds (hguard o htests).storable hok

/-- **A safe call keeps the bar.** -/
theorem barred_step (hb : Barred E skew i w)
    (h : Guarded (Step E skew) (cacheGuarded E skew) w c w') :
    Barred E skew i w' := by
  obtain ⟨hstep, hguard⟩ := h
  obtain ⟨hmem, hb⟩ := hb
  obtain ⟨hle, hclock⟩ := hstep.clock_eq
  refine ⟨hstep.accepted_mono hmem, ?_⟩
  rcases hb with hholds | hover
  · rcases hstep.cache_cases with hsame | ⟨o, htests, hstore⟩
    · rw [hsame]
      exact Or.inl hholds
    · by_cases hopen : c.now ≤ i.ctime + durAbs skew
      · obtain ⟨-, hstorable, hkeeps⟩ := hguard o htests
        rw [hstore]
        exact Or.inl (store_keeps hholds hstorable (hkeeps i hmem hopen))
      · omega
  · omega

theorem not_accepts_of_barred (hb : Barred E skew i w)
    (h : Guarded (Step E skew) (cacheGuarded E skew) w c w') : ¬ Accepts E skew true i w c := by
  intro hacc
  obtain ⟨hstep, hguard⟩ := h
  obtain ⟨hle, -⟩ := hstep.clock_eq
  obtain ⟨o, htests, rfl, hok⟩ := accepts_store hacc
  rcases hb.2 with hholds | hover
  · rw [← tag_eq htests.2.1] at hholds
    rw [store_replay hholds] at hok
    cases hok
  · have hfresh := (hguard o htests).fresh
    simp only [Opened.encAuthenticator] at hover
    omega

/-- **A request is accepted once** on the word of a cache, memory or file, in every run
of safe calls. -/
theorem ap_cache_once (E : Env) (skew now : ℤ) (state : State) (i : EncAuthenticator) :
    AtMostOnce (Guarded (Step E skew) (cacheGuarded E skew)) (Accepts E skew true i)
      ⟨now, state, []⟩ := by
  apply AtMostOnce.of_barred (Barred E skew i)
  · intro w c w' h hacc
    exact barred_of_accepts h hacc
  · intro w c w' hw h
    exact barred_step hw h
  · intro w c w' hw h
    exact not_accepts_of_barred hw h

open Kerberos.AP.Sample

/-- **Accepted twice.** After four minutes the request of minute one is accepted, then
one dated minute nine, at which the cache drops the first, then the first again. -/
theorem ap_cache_twice :
    ¬ AtMostOnce (Step (env (10 * hour)) (5 * minute))
      (Accepts (env (10 * hour)) (5 * minute) true (encAuthenticator 1)) start := by
  intro h
  exact h [] start (call true 1 (4 * minute)) _ [call true 9 (4 * minute)] _
    (call true 1 (4 * minute)) _
    (.nil _) ⟨by decide, rfl⟩ ⟨rfl, ⟨_, rfl, rfl⟩, _, rfl⟩ (.single ⟨le_rfl, rfl⟩) ⟨le_rfl, rfl⟩
    ⟨rfl, ⟨_, rfl, rfl⟩, _, rfl⟩

/-- With the cache, a request of minute one is accepted after four minutes, in a safe
call, and not after five. -/
def OnceWith (cache : Cache) : Prop :=
  let E := env (10 * hour)
  let w : World := ⟨0, ⟨start.state.localCache, cache⟩, []⟩
  ∃ w', Guarded (Step E (5 * minute)) (cacheGuarded E (5 * minute)) w
    (call true 1 (4 * minute)) w' ∧
    Accepts E (5 * minute) true (encAuthenticator 1) w (call true 1 (4 * minute)) ∧
    ¬ Accepts E (5 * minute) true (encAuthenticator 1) w' (call true 1 (5 * minute))

/-- With an empty memory cache, and with a new file. -/
theorem ap_cache_once_minute : OnceWith (.memory ∅) ∧ OnceWith (.file2 ⟨none, []⟩) := by
  have once : ∀ (cache : Cache) (w w' : World),
      Guarded (Step (env (10 * hour)) (5 * minute)) (cacheGuarded (env (10 * hour)) (5 * minute))
        ⟨0, ⟨start.state.localCache, cache⟩, []⟩ (call true 1 (4 * minute)) w →
      Accepts (env (10 * hour)) (5 * minute) true (encAuthenticator 1)
        ⟨0, ⟨start.state.localCache, cache⟩, []⟩ (call true 1 (4 * minute)) →
      Guarded (Step (env (10 * hour)) (5 * minute)) (cacheGuarded (env (10 * hour)) (5 * minute))
        w (call true 1 (5 * minute)) w' → OnceWith cache := by
    intro cache w w' h hacc h'
    exact ⟨w, h, hacc, ap_cache_once (env (10 * hour)) (5 * minute) 0 _ (encAuthenticator 1)
      _ _ _ _ _ _ _ _ (.nil _) h hacc (.nil _) h'⟩
  constructor
  · refine once _ _ _ ⟨⟨by decide, rfl⟩, ?_⟩ ⟨rfl, ⟨_, rfl, rfl⟩, _, rfl⟩ ⟨⟨by decide, rfl⟩, ?_⟩
    · rintro o ⟨-, ho, -⟩
      cases ho
      exact ⟨by decide, trivial, by decide⟩
    · rintro o ⟨-, ho, -⟩
      cases ho
      exact ⟨by decide, trivial, by decide⟩
  · refine once _ _ _ ⟨⟨by decide, rfl⟩, ?_⟩ ⟨rfl, ⟨_, rfl, rfl⟩, _, rfl⟩ ⟨⟨by decide, rfl⟩, ?_⟩
    · rintro o ⟨-, ho, -⟩
      cases ho
      exact ⟨by decide, show unix32 minute ≠ 0 by decide, by decide⟩
    · rintro o ⟨-, ho, -⟩
      cases ho
      exact ⟨by decide, show unix32 minute ≠ 0 by decide, by decide⟩

end Kerberos.AP
