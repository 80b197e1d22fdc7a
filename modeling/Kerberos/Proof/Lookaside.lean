import Kerberos.Lib.Run
import Kerberos.Spec.Lookaside

/-!
# What a lookaside cache holds

The map and the queue of a cache hold the same entries, whatever the handlers do (`Paired`). The
counter `size` is the sum of the bytes they hold, plus the bytes of responses that were written
over: `complete` adds the new response and does not take the old one off. An entry has a response
when `complete` comes to it only if it was dropped while a handler was at work, and begun and
completed by another one.

* `paired_next`: the map and the queue agree after every call.
* `excess_next`: one call adds to the counter's excess what it writes over (`overwritten`).
* `lookaside_accounting`: **the counter is right along a run exactly when no call of the run writes
  over a response**, and then nothing young is evicted while the entries held fit.
-/

namespace Kerberos.Lookaside

open Transition List Option Nat Function

variable {service : Service} {c c' : Cache} {a : ℕ} {k : ℕ} {now : ℤ} {request : Bytes}

/-! ## Bytes -/

namespace Cache

/-- The bytes of some of the entries. -/
def bytesOf (c : Cache) (as : List ℕ) : ℕ := (as.map fun a => (c.heap a).weight).sum

/-- The bytes the cache really holds. -/
def bytes (c : Cache) : ℕ := c.bytesOf c.queue

/-- The limit that holds after `initializeLocked`. -/
def limit (c : Cache) : ℤ := if c.maxSize ≤ 0 then defaultMaxSize else c.maxSize

end Cache

theorem limit_pos (c : Cache) : 0 < c.limit := by
  unfold Cache.limit
  by_cases h : c.maxSize ≤ 0
  · rw [if_pos h]
    decide
  · omega

theorem bytesOf_congr {as : List ℕ} (h : ∀ b ∈ as, (c'.heap b).weight = (c.heap b).weight) :
    c'.bytesOf as = c.bytesOf as := by
  unfold Cache.bytesOf
  rw [map_congr_left h]

theorem bytesOf_append (c : Cache) (as bs : List ℕ) :
    c.bytesOf (as ++ bs) = c.bytesOf as + c.bytesOf bs := by
  unfold Cache.bytesOf
  rw [map_append, List.sum_append]

theorem bytesOf_erase {as : List ℕ} (ha : a ∈ as) :
    c.bytesOf as = (c.heap a).weight + c.bytesOf (as.erase a) := by
  unfold Cache.bytesOf
  rw [((perm_cons_erase ha).map _).sum_eq, map_cons, sum_cons]

/-! ## The map and the queue -/

/-- The map and the queue hold the same entries, each under its request. -/
structure Paired (c : Cache) : Prop where
  nodup : c.queue.Nodup
  used : ∀ a ∈ c.queue, a < c.fresh
  filed : ∀ request a, c.entries.lookup request = some a ↔ a ∈ c.queue ∧
    (c.heap a).request = request

/-- The counter exceeds the bytes that are held by `k`. -/
def Excess (c : Cache) (k : ℕ) : Prop := c.size = c.bytes + k

/-- The counter is right. -/
def Accounted (c : Cache) : Prop := c.size = c.bytes

theorem excess_zero : Excess c 0 ↔ Accounted c := by
  unfold Excess Accounted
  rw [cast_zero, add_zero]

theorem Paired.initialized (h : Paired c) : Paired c.initialized := ⟨h.nodup, h.used, h.filed⟩

theorem Paired.new (maxSize : ℤ) : Paired (.new maxSize) := by
  refine ⟨nodup_nil, fun a ha => absurd ha not_mem_nil, ?_⟩
  intro request a
  exact iff_of_false (by simp [Cache.new]) fun h => absurd h.1 not_mem_nil

theorem Paired.remove (h : Paired c) (ha : a ∈ c.queue) : Paired (c.remove a) := by
  refine ⟨h.nodup.erase a, fun b hb => h.used b (mem_of_mem_erase hb), ?_⟩
  intro request b
  change (c.entries.erase (c.heap a).request).lookup request = some b ↔
    b ∈ c.queue.erase a ∧ (c.heap b).request = request
  rw [h.nodup.mem_erase_iff, and_assoc, ← h.filed]
  by_cases hreq : request = (c.heap a).request
  · -- only the entry that is removed was filed there
    rw [hreq, (h.filed _ a).2 ⟨ha, rfl⟩]
    simp [eq_comm]
  · rw [AList.lookup_erase_ne hreq, iff_and_self]
    rintro hb rfl
    exact hreq ((h.filed _ b).1 hb).2.symm

theorem Excess.remove (h : Excess c k) (ha : a ∈ c.queue) : Excess (c.remove a) k := by
  have hbytes : c.bytes = (c.heap a).weight + (c.remove a).bytes := bytesOf_erase ha
  change (if c.size - (c.heap a).weight < 0 then 0 else c.size - (c.heap a).weight) = _
  rw [h]
  omega

/-! ## Dropping entries at the front -/

/-- A cache without the entries `old` at the front of its queue. -/
structure Shortened (c : Cache) (old : List ℕ) (c' : Cache) : Prop where
  queue : c.queue = old ++ c'.queue
  heap : c'.heap = c.heap
  fresh : c'.fresh = c.fresh
  maxSize : c'.maxSize = c.maxSize

theorem Shortened.refl (c : Cache) : Shortened c [] c := ⟨rfl, rfl, rfl, rfl⟩

theorem queue_remove {rest : List ℕ} (hqueue : c.queue = a :: rest) :
    (c.remove a).queue = rest := by
  change c.queue.erase a = rest
  rw [hqueue, erase_cons_head]

theorem Shortened.remove {rest old : List ℕ} (hqueue : c.queue = a :: rest)
    (h : Shortened (c.remove a) old c') :
    Shortened c (a :: old) c' := by
  refine ⟨?_, h.heap, h.fresh, h.maxSize⟩
  rw [hqueue, ← queue_remove hqueue, h.queue]
  rfl

theorem Shortened.bytesOf {old : List ℕ} (h : Shortened c old c') (as : List ℕ) :
    c'.bytesOf as = c.bytesOf as := by
  unfold Cache.bytesOf
  rw [h.heap]

/-- What `expireLocked` does: it drops stale entries from the front. -/
def Expired (service : Service) (now : ℤ) (c c' : Cache) : Prop :=
  ∃ old, Shortened c old c' ∧ (∀ b ∈ old, service.young now (c.heap b).timeIn = false) ∧ Paired c' ∧
    ∀ k, Excess c k → Excess c' k

theorem expired_expireLoop (service : Service) (now : ℤ) (rounds : ℕ) (h : Paired c) :
    Expired service now c (c.expireLoop service now rounds) := by
  have hstay {c : Cache} (h : Paired c) : Expired service now c c :=
    ⟨[], .refl c, fun b hb => absurd hb not_mem_nil, h, fun _ hk => hk⟩
  induction rounds generalizing c with
  | zero => exact hstay h
  | succ rounds ih =>
    rw [Cache.expireLoop.eq_def]
    cases hqueue : c.queue with
    | nil => simpa only [hqueue] using hstay h
    | cons b rest =>
      have hb : b ∈ c.queue := by simp [hqueue]
      simp only [hqueue]
      by_cases hyoung : service.young now (c.heap b).timeIn = true
      · rw [if_pos hyoung]
        exact hstay h
      · rw [if_neg hyoung]
        obtain ⟨old, hshort, hold, hpaired, hexcess⟩ := ih (h.remove hb)
        exact ⟨b :: old, hshort.remove hqueue,
          forall_mem_cons.2 ⟨eq_false_of_ne_true hyoung, hold⟩, hpaired, fun k hk =>
            hexcess k (hk.remove hb)⟩

/-- The entry at `a` has to go: it and all behind it in the queue, with `k` more bytes, are too
much. -/
def Evictable (c : Cache) (k a : ℕ) : Prop :=
  ∃ front behind, c.queue = front ++ a :: behind ∧ c.maxSize < c.bytesOf (a :: behind) + k

theorem Evictable.remove {b : ℕ} {rest : List ℕ} (hqueue : c.queue = b :: rest)
    (h : Evictable (c.remove b) k a) : Evictable c k a := by
  obtain ⟨front, behind, hsplit, hlt⟩ := h
  refine ⟨b :: front, behind, ?_, hlt⟩
  rw [hqueue, ← queue_remove hqueue, hsplit]
  rfl

theorem Excess.size_of_nil (h : Excess c k) (hqueue : c.queue = []) : c.size = k := by
  have hbytes : c.bytes = 0 := by
    unfold Cache.bytes Cache.bytesOf
    rw [hqueue]
    rfl
  rw [h, hbytes, cast_zero, zero_add]

/-- What `evictLocked` does. It takes an entry only when that one and all behind it are too much. -/
theorem evictLoop_spec (service : Service) (rounds : ℕ) (h : Paired c)
    (hrounds : c.queue.length < rounds) :
    Paired (c.evictLoop service rounds) ∧ (c.evictLoop service rounds).maxSize = c.maxSize ∧
      ∀ k : ℕ, Excess c k → (k : ℤ) ≤ c.maxSize →
        ∃ old, Shortened c old (c.evictLoop service rounds) ∧ (∀ a ∈ old, Evictable c k a) ∧
          Excess (c.evictLoop service rounds) k ∧
            (c.evictLoop service rounds).size ≤ c.maxSize := by
  induction rounds generalizing c with
  | zero => exact absurd hrounds (not_lt_zero _)
  | succ rounds ih =>
    rw [Cache.evictLoop.eq_def]
    by_cases hfits : c.size ≤ c.maxSize
    · simp only [if_pos hfits]
      exact ⟨h, trivial, fun k hk _ => ⟨[], .refl c, forall_mem_nil _, hk, hfits⟩⟩
    · simp only [if_neg hfits]
      cases hqueue : c.queue with
      | nil =>
        -- the excess alone would have to be more than the limit
        refine ⟨?_, ?_, fun k hk hle => absurd hle (hk.size_of_nil hqueue ▸ hfits)⟩
        · cases service with
          | kdc => exact h
          | kpasswd => exact ⟨h.nodup, h.used, h.filed⟩
        · cases service with
          | kdc => rfl
          | kpasswd => rfl
      | cons b rest =>
        have hb : b ∈ c.queue := by simp [hqueue]
        have hlen : (c.remove b).queue.length < rounds := by
          rw [queue_remove hqueue]
          rw [hqueue, length_cons] at hrounds
          omega
        obtain ⟨hpaired, hmax, hevict⟩ := ih (h.remove hb) hlen
        refine ⟨hpaired, hmax, ?_⟩
        intro k hk hle
        obtain ⟨old, hshort, hexceeds, hexcess, hsize⟩ := hevict k (hk.remove hb) hle
        have hfront : Evictable c k b := by
          refine ⟨[], rest, hqueue, ?_⟩
          rw [← hqueue]
          rw [hk] at hfits
          exact not_le.1 hfits
        exact ⟨b :: old, hshort.remove hqueue,
          forall_mem_cons.2 ⟨hfront, fun a ha => (hexceeds a ha).remove hqueue⟩, hexcess, hsize⟩

/-! ## Entries that come and change -/

theorem heap_push_of_mem (h : Paired c) (ha : a ∈ c.queue) :
    (c.push request now).heap a = c.heap a :=
  update_of_ne (Nat.ne_of_lt (h.used a ha)) _ _

theorem Paired.push (h : Paired c) (hnone : c.entries.lookup request = none) :
    Paired (c.push request now) := by
  have hfresh : c.fresh ∉ c.queue := fun hmem => lt_irrefl _ (h.used _ hmem)
  refine ⟨?_, ?_, ?_⟩
  · exact Nodup.append h.nodup (nodup_singleton _) (by simpa using hfresh)
  · intro b hb
    rcases mem_append.1 hb with hb | hb
    · exact lt_succ_of_lt (h.used b hb)
    · rw [mem_singleton.1 hb]
      exact lt_succ_self _
  · intro request' b
    change (c.entries.insert request c.fresh).lookup request' = some b ↔
      b ∈ c.queue ++ [c.fresh] ∧ ((c.push request now).heap b).request = request'
    have hnew : ((c.push request now).heap c.fresh).request = request := by simp [Cache.push]
    have hheld : b ∈ c.queue ++ [c.fresh] ∧ ((c.push request now).heap b).request = request' ↔
        c.entries.lookup request' = some b ∨ b = c.fresh ∧ request = request' := by
      rw [mem_append, or_and_right, h.filed, mem_singleton]
      refine or_congr (and_congr_right fun hb => ?_) (and_congr_right fun hb => ?_)
      · rw [heap_push_of_mem h hb]
      · rw [hb, hnew]
    rw [hheld]
    by_cases hreq : request' = request
    · subst hreq
      simp [hnone, eq_comm]
    · simp [AList.lookup_insert_ne hreq, Ne.symm hreq]

theorem Excess.push (hp : Paired c) (h : Excess c k) : Excess (c.push request now) k := by
  have hold : (c.push request now).bytesOf c.queue = c.bytes :=
    bytesOf_congr fun b hb => by rw [heap_push_of_mem hp hb]
  have hnew : (c.push request now).bytesOf [c.fresh] = request.length := by
    change ((update c.heap c.fresh { request, timeIn := now }) c.fresh).weight + 0 = _
    rw [update_self]
    rfl
  have hbytes : (c.push request now).bytes = c.bytes + request.length := by
    change (c.push request now).bytesOf (c.queue ++ [c.fresh]) = _
    rw [bytesOf_append, hold, hnew]
  change c.size + request.length = _
  rw [h]
  omega

theorem Paired.modify {f : Entry → Entry} (h : Paired c)
    (hf : ∀ entry, (f entry).request = entry.request) :
    Paired (c.modify a f) := by
  refine ⟨h.nodup, h.used, ?_⟩
  intro request b
  have hreq : ((c.modify a f).heap b).request = (c.heap b).request := by
    change (update c.heap a (f (c.heap a)) b).request = _
    by_cases hb : b = a
    · rw [hb, update_self, hf]
    · rw [update_of_ne hb]
  rw [hreq]
  exact h.filed request b

/-- Bytes after a change of one entry. -/
theorem bytes_modify {f : Entry → Entry} (h : Paired c) (ha : a ∈ c.queue) :
    (c.modify a f).bytes + (c.heap a).weight = c.bytes + (f (c.heap a)).weight := by
  have hself : (c.modify a f).heap a = f (c.heap a) := update_self ..
  have hrest : (c.modify a f).bytesOf (c.queue.erase a) = c.bytesOf (c.queue.erase a) := by
    refine bytesOf_congr fun b hb => ?_
    have hne : b ≠ a := ((h.nodup.mem_erase_iff).1 hb).1
    change (update c.heap a (f (c.heap a)) b).weight = _
    rw [update_of_ne hne]
  have hbefore : c.bytes = _ := bytesOf_erase ha
  have hafter : (c.modify a f).bytes = _ := bytesOf_erase ha
  rw [hafter, hself]
  change _ + (c.modify a f).bytesOf (c.queue.erase a) + _ = _
  omega

theorem bytes_hit (hp : Paired c) (ha : a ∈ c.queue) :
    (c.modify a fun entry => { entry with hits := entry.hits + 1 }).bytes = c.bytes :=
  Nat.add_right_cancel (bytes_modify hp ha)

/-- The response that is written over stays in the counter. -/
theorem Excess.respond {response : Bytes} (hp : Paired c) (h : Excess c k) (ha : a ∈ c.queue) :
    Excess (c.respond a response) (k + ((c.heap a).response.getD []).length) := by
  have hbytes := bytes_modify (f := fun entry => { entry with response := some response }) hp ha
  have hnew : ({ c.heap a with response := some response } : Entry).weight =
      (c.heap a).request.length + response.length := rfl
  have hold : (c.heap a).weight =
      (c.heap a).request.length + ((c.heap a).response.getD []).length := rfl
  have hsame : (c.respond a response).bytes =
      (c.modify a fun entry => { entry with response := some response }).bytes := rfl
  rw [hnew] at hbytes
  change c.size + response.length = _
  rw [h]
  omega

/-! ## One call -/

/-- The cache a call looks into: stale entries are gone. -/
def lookedInto (service : Service) (c : Cache) (now : ℤ) : Cache := c.initialized.expire service now

theorem Paired.lookedInto (h : Paired c) : Paired (lookedInto service c now) := by
  obtain ⟨old, -, -, hpaired, -⟩ := expired_expireLoop service now _ h.initialized
  exact hpaired

/-- What is left when the stale entries are gone. -/
theorem lookedInto_spec (service : Service) (now : ℤ) (h : Paired c) :
    (lookedInto service c now).maxSize = c.limit ∧
      (∀ b ∈ c.queue, service.young now (c.heap b).timeIn = true →
        b ∈ (lookedInto service c now).queue) ∧
      (∀ k, Excess c k → Excess (lookedInto service c now) k) ∧
        (lookedInto service c now).bytes ≤ c.bytes := by
  obtain ⟨old, hshort, hold, -, hexcess⟩ := expired_expireLoop service now _ h.initialized
  have hqueue : c.queue = old ++ (lookedInto service c now).queue := hshort.queue
  refine ⟨hshort.maxSize, ?_, fun k hk => hexcess k hk, ?_⟩
  · intro b hb hyoung
    rw [hqueue] at hb
    rcases mem_append.1 hb with hb | hb
    · have hstale : service.young now (c.heap b).timeIn = false := hold b hb
      rw [hstale] at hyoung
      cases hyoung
    · exact hb
  · have hbytes : c.bytes = c.bytesOf (old ++ (lookedInto service c now).queue) := by
      unfold Cache.bytes
      rw [← hqueue]
    rw [hbytes, bytesOf_append]
    have hsame : (lookedInto service c now).bytes = c.bytesOf (lookedInto service c now).queue :=
      hshort.bytesOf _
    omega

/-- The cache on which a call runs `evictLocked`, if it does. -/
def beforeEvict (service : Service) (w : World) : Call → Option Cache
  | .begin request elapsed =>
    let c := lookedInto service w.cache (w.clock + elapsed)
    if (c.entries.lookup request).isSome then none else some (c.push request (w.clock + elapsed))
  | .complete i response elapsed => do
    let request ← w.pending[i]?
    let c := lookedInto service w.cache (w.clock + elapsed)
    let a ← c.entries.lookup request
    if service.dismisses response then none else some (c.respond a (response.getD []))

/-- The response a call writes over. -/
def overwritten (service : Service) (w : World) : Call → Bytes
  | .begin _ _ => []
  | .complete i response elapsed =>
    let c := lookedInto service w.cache (w.clock + elapsed)
    match w.pending[i]?.bind c.entries.lookup with
    | some a => if service.dismisses response then [] else (c.heap a).response.getD []
    | none => []

/-- The call gives the entry at `a` up. -/
def givesUp (service : Service) (w : World) (a : ℕ) : Call → Prop
  | .begin _ _ => False
  | .complete i response elapsed =>
    service.dismisses response = true ∧
      w.pending[i]?.bind (lookedInto service w.cache (w.clock + elapsed)).entries.lookup = some a

/-- The time of a call. -/
def timeOf (w : World) : Call → ℤ
  | .begin _ elapsed => w.clock + elapsed
  | .complete _ _ elapsed => w.clock + elapsed

/-- A call that evicts, from a cache that holds everything young. -/
structure Evicting (service : Service) (w : World) (call : Call) (c : Cache) : Prop where
  eq : (next service w call).cache = c.evict service
  paired : Paired c
  maxSize : c.maxSize = w.cache.limit
  young : ∀ b ∈ w.cache.queue, service.young (timeOf w call) (w.cache.heap b).timeIn =
    true → b ∈ c.queue
  excess : ∀ k, Excess w.cache k → Excess c (k + (overwritten service w call).length)

/-- A call that does not evict. -/
structure Sparing (service : Service) (w : World) (call : Call) (c : Cache) : Prop where
  eq : (next service w call).cache = c
  overwritten : overwritten service w call = []
  paired : Paired c
  limit : c.limit = w.cache.limit
  young : ∀ b ∈ w.cache.queue, service.young (timeOf w call) (w.cache.heap b).timeIn = true →
    b ∈ c.queue ∨ givesUp service w b call
  excess : ∀ k, Excess w.cache k → Excess c k
  bytes : c.bytes ≤ w.cache.bytes

theorem limit_of_maxSize {c c' : Cache} (h : c'.maxSize = c.limit) : c'.limit = c.limit := by
  have hpos := limit_pos c
  unfold Cache.limit
  rw [h, if_neg (by omega)]
  rfl

theorem begin_cases (service : Service) (w : World) (request : Bytes) (elapsed : ℕ)
    (h : Paired w.cache) :
    (∃ c, beforeEvict service w (.begin request elapsed) = some c ∧
      Evicting service w (.begin request elapsed) c) ∨
      ∃ c, Sparing service w (.begin request elapsed) c := by
  have hpaired : Paired (lookedInto service w.cache (w.clock + elapsed)) := h.lookedInto
  obtain ⟨hmax, hyoung, hexcess, hbytes⟩ := lookedInto_spec service (w.clock + elapsed) h
  cases hfound : (lookedInto service w.cache (w.clock + elapsed)).entries.lookup request with
  | none =>
    refine .inl ⟨(lookedInto service w.cache (w.clock + elapsed)).push request (w.clock + elapsed),
      ?_, ?_, hpaired.push hfound, hmax, ?_, fun k hk => (hexcess k hk).push hpaired⟩
    · simp only [beforeEvict, hfound]
      rfl
    · unfold lookedInto at hfound ⊢
      simp only [next, Cache.begin, hfound]
    · exact fun b hb hage => mem_append_left _ (hyoung b hb hage)
  | some a =>
    have ha := ((hpaired.filed request a).1 hfound).1
    refine .inr ⟨(lookedInto service w.cache (w.clock + elapsed)).modify a fun entry =>
        { entry with hits := entry.hits + 1 }, ?_, rfl, hpaired.modify fun _ =>
          rfl, limit_of_maxSize hmax,
      fun b hb hage => .inl (hyoung b hb hage), fun k hk => by
        rw [Excess, bytes_hit hpaired ha]; exact hexcess k hk,
      (bytes_hit hpaired ha).trans_le hbytes⟩
    unfold lookedInto at hfound ⊢
    simp only [next, Cache.begin, hfound]

theorem Paired.respond (h : Paired c) (response : Bytes) : Paired (c.respond a response) := by
  have hmodified :=
    h.modify (a := a) (f := fun entry => { entry with response := response }) fun _ => rfl
  exact ⟨hmodified.nodup, hmodified.used, hmodified.filed⟩

theorem complete_cases (service : Service) (w : World) (i : ℕ) (response : Option Bytes)
    (elapsed : ℕ)
    (h : Paired w.cache) : (∃ c, beforeEvict service w (.complete i response elapsed) = some c ∧
        Evicting service w (.complete i response elapsed) c) ∨
      ∃ c, Sparing service w (.complete i response elapsed) c := by
  cases hpending : w.pending[i]? with
  | none =>
    -- there is no such handler
    have hnext : next service w (.complete i response elapsed) = w := by simp only [next, hpending]
    refine .inr ⟨w.cache, congrArg World.cache hnext, ?_, h, rfl, fun b hb _ => .inl hb,
      fun k hk => hk, le_rfl⟩
    simp only [overwritten, hpending, bind_none]
  | some request =>
    have hpaired : Paired (lookedInto service w.cache (w.clock + elapsed)) := h.lookedInto
    obtain ⟨hmax, hyoung, hexcess, hbytes⟩ := lookedInto_spec service (w.clock + elapsed) h
    have hcache : (next service w (.complete i response elapsed)).cache =
        w.cache.complete service request response (w.clock + elapsed) := by
          simp only [next, hpending]
    cases hfound : (lookedInto service w.cache (w.clock + elapsed)).entries.lookup request with
    | none =>
      refine .inr ⟨_, hcache.trans ?_, ?_, hpaired, limit_of_maxSize hmax,
        fun b hb hage => .inl (hyoung b hb hage), hexcess, hbytes⟩
      · unfold lookedInto at hfound ⊢
        simp only [Cache.complete, hfound]
      · simp only [overwritten, hpending, bind_some, hfound]
    | some a =>
      have ha := ((hpaired.filed request a).1 hfound).1
      by_cases hdismissed : service.dismisses response = true
      · refine .inr ⟨_, hcache.trans ?_, ?_, hpaired.remove ha, limit_of_maxSize hmax, ?_,
          fun k hk => (hexcess k hk).remove ha, ?_⟩
        · unfold lookedInto at hfound ⊢
          simp only [Cache.complete, hfound, if_pos hdismissed]
        · simp only [overwritten, hpending, bind_some, hfound, if_pos hdismissed]
        · intro b hb hage
          by_cases hb' : b = a
          · refine .inr ⟨hdismissed, ?_⟩
            rw [hpending, hb']
            exact hfound
          · exact .inl ((mem_erase_of_ne hb').2 (hyoung b hb hage))
        · exact (le_add_left _ _).trans ((bytesOf_erase ha).ge.trans hbytes)
      · refine .inl ⟨_, ?_, hcache.trans ?_, hpaired.respond (a := a) (response.getD []),
          hmax, hyoung, ?_⟩
        · simp only [beforeEvict, hpending, bind_eq_bind, bind_some, hfound, if_neg hdismissed]
        · unfold lookedInto at hfound ⊢
          simp only [Cache.complete, hfound, if_neg hdismissed]
        · intro k hk
          simp only [overwritten, hpending, bind_some, hfound, if_neg hdismissed]
          exact (hexcess k hk).respond hpaired ha

/-- What a call does to a cache whose map and queue agree. -/
theorem next_cases (service : Service) (w : World) (call : Call) (h : Paired w.cache) :
    (∃ c, beforeEvict service w call = some c ∧ Evicting service w call c) ∨
      ∃ c, Sparing service w call c := by
  cases call with
  | begin request elapsed => exact begin_cases service w request elapsed h
  | complete i response elapsed => exact complete_cases service w i response elapsed h

variable {w : World}

theorem paired_next (service : Service) (call : Call) (h : Paired w.cache) :
    Paired (next service w call).cache := by
  rcases next_cases service w call h with ⟨c, -, hevict⟩ | ⟨c, hspare⟩
  · rw [hevict.eq]
    exact (evictLoop_spec service _ hevict.paired (lt_succ_self _)).1
  · rw [hspare.eq]
    exact hspare.paired

/-- A response that is written over was held. -/
theorem overwritten_le (service : Service) (call : Call) (h : Paired w.cache) :
    (overwritten service w call).length ≤ w.cache.bytes := by
  cases call with
  | begin request elapsed => exact zero_le _
  | complete i response elapsed =>
    have hpaired : Paired (lookedInto service w.cache (w.clock + elapsed)) := h.lookedInto
    obtain ⟨-, -, -, hbytes⟩ := lookedInto_spec service (w.clock + elapsed) h
    unfold overwritten
    simp only
    split
    · rename_i a hfound
      obtain ⟨request, -, hlookup⟩ := bind_eq_some_iff.1 hfound
      have hsplit : (lookedInto service w.cache (w.clock + elapsed)).bytes = _ :=
        bytesOf_erase ((hpaired.filed request a).1 hlookup).1
      unfold Entry.weight at hsplit
      split_ifs
      · exact zero_le _
      · omega
    · exact zero_le _

/-- A cache that is in order. -/
structure Sound (c : Cache) : Prop where
  paired : Paired c
  accounted : Accounted c
  fits : c.size ≤ c.limit

/-- From a cache in order, a call leaves in the counter exactly what it wrote over. -/
theorem excess_next (service : Service) (call : Call) (h : Sound w.cache) :
    Excess (next service w call).cache (overwritten service w call).length ∧
      (next service w call).cache.size ≤ (next service w call).cache.limit := by
  have hzero : Excess w.cache 0 := excess_zero.2 h.accounted
  rcases next_cases service w call h.paired with ⟨c, -, hevict⟩ | ⟨c, hspare⟩
  · have hexcess := hevict.excess 0 hzero
    rw [zero_add] at hexcess
    -- what is written over was held, so it is not more than the limit
    have hle : ((overwritten service w call).length : ℤ) ≤ c.maxSize := by
      have hheld := overwritten_le service call h.paired
      have hfits := h.fits
      rw [h.accounted] at hfits
      rw [hevict.maxSize]
      omega
    obtain ⟨-, hmax, hspec⟩ := evictLoop_spec service _ hevict.paired (lt_succ_self _)
    obtain ⟨old, -, -, hafter, hsize⟩ := hspec _ hexcess hle
    have hlimit : (c.evict service).limit = w.cache.limit :=
      limit_of_maxSize (hmax.trans hevict.maxSize)
    rw [hevict.eq, hlimit, ← hevict.maxSize]
    exact ⟨hafter, hsize⟩
  · have hafter := hspare.excess 0 hzero
    have hbytes := hspare.bytes
    have hfits := h.fits
    rw [hspare.overwritten, hspare.eq, hspare.limit]
    refine ⟨hafter, ?_⟩
    rw [h.accounted] at hfits
    rw [hafter]
    omega

/-- A call keeps a cache in order exactly when it writes over nothing. -/
theorem accounted_next (service : Service) (call : Call) (h : Sound w.cache) :
    Accounted (next service w call).cache ↔ overwritten service w call = [] := by
  have hexcess : _ = _ := (excess_next service call h).1
  unfold Accounted
  rw [← length_eq_zero_iff]
  omega

theorem Sound.next {call : Call} (h : Sound w.cache) (hnone : overwritten service w call = []) :
    Sound (next service w call).cache :=
  ⟨paired_next service call h.paired, (accounted_next service call h).2 hnone,
    (excess_next service call h).2⟩

/-- A young entry that goes is given up, or it and the entries behind it are too much. -/
theorem evicted_of_exceeds (service : Service) {call : Call} (h : Sound w.cache)
    (hnone : overwritten service w call = []) (ha : a ∈ w.cache.queue)
    (hyoung : service.young (timeOf w call) (w.cache.heap a).timeIn = true)
    (hgone : a ∉ (next service w call).cache.queue) :
    givesUp service w a call ∨ ∃ c front behind, beforeEvict service w call = some c ∧
      c.queue = front ++ a :: behind ∧ w.cache.limit < c.bytesOf (a :: behind) := by
  rcases next_cases service w call h.paired with ⟨c, hbefore, hevict⟩ | ⟨c, hspare⟩
  · have hexcess := hevict.excess 0 (excess_zero.2 h.accounted)
    rw [hnone] at hexcess
    have hpos := limit_pos w.cache
    obtain ⟨-, -, hspec⟩ := evictLoop_spec service _ hevict.paired (lt_succ_self _)
    obtain ⟨old, hshort, hexceeds, -, -⟩ := hspec 0 hexcess (by
      rw [hevict.maxSize]
      omega)
    -- the entry was in the queue when eviction began, so it is one of those that were taken off
    have hmem := hevict.young a ha hyoung
    rw [hshort.queue] at hmem
    rw [hevict.eq] at hgone
    obtain ⟨front, behind, hsplit, hlt⟩ := hexceeds a ((mem_append.1 hmem).resolve_right hgone)
    rw [hevict.maxSize] at hlt
    exact .inr ⟨c, front, behind, hbefore, hsplit, by omega⟩
  · rw [hspare.eq] at hgone
    exact .inl ((hspare.young a ha hyoung).resolve_left hgone)

/-! ## Runs -/

theorem sound_start (maxSize clock : ℤ) : Sound (start maxSize clock).cache := by
  have hpos := limit_pos (.new maxSize)
  exact ⟨.new maxSize, rfl, hpos.le⟩

/-- **Accounting of the lookaside caches.** In every run of calls of any handlers, the map and the
queue hold the same entries at every stage. The counter is the sum of the bytes held, at every
stage, exactly when no call of the run writes over a response; and then an entry that is still young
goes only when its own handler gives it up or when the bytes held at that moment, its own and those
of the entries behind it, exceed the limit. -/
theorem lookaside_accounting (service : Service) (maxSize clock : ℤ) (calls : List Call) :
    (∀ done, done <+: calls → Paired (done.foldl (next service) (start maxSize clock)).cache) ∧
      ((∀ done, done <+: calls →
        Accounted (done.foldl (next service) (start maxSize clock)).cache) ↔
        ∀ done call, done ++ [call] <+: calls →
          overwritten service (done.foldl (next service) (start maxSize clock)) call = []) ∧
      ((∀ done call, done ++ [call] <+: calls →
          overwritten service (done.foldl (next service) (start maxSize clock)) call = []) →
        ∀ done call, done ++ [call] <+: calls →
          let w := done.foldl (next service) (start maxSize clock)
          ∀ a ∈ w.cache.queue, service.young (timeOf w call) (w.cache.heap a).timeIn = true →
            a ∉ (next service w call).cache.queue →
              givesUp service w a call ∨ ∃ c front behind, beforeEvict service w call = some c ∧
                c.queue = front ++ a :: behind ∧ w.cache.limit < c.bytesOf (a :: behind)) := by
  -- in order at each stage, if a call from a cache in order writes over nothing
  have hsound (hnone : ∀ done call, done ++ [call] <+: calls →
      Sound (done.foldl (next service) (start maxSize clock)).cache →
        overwritten service (done.foldl (next service) (start maxSize clock)) call = []) :
      ∀ done, done <+: calls → Sound (done.foldl (next service) (start maxSize clock)).cache := by
    intro done hdone
    refine stages_invariant (P := fun w : World => Sound w.cache)
      (sound_start maxSize clock) ?_ hdone
    intro done call hstage h
    exact h.next (hnone done call hstage h)
  refine ⟨?_, ⟨?_, ?_⟩, ?_⟩
  · intro done hdone
    refine stages_invariant (P := fun w : World => Paired w.cache) (.new maxSize) ?_ hdone
    exact fun done call _ h => paired_next service call h
  · intro hall
    have hwritten : ∀ done call, done ++ [call] <+: calls →
        Sound (done.foldl (next service) (start maxSize clock)).cache →
          overwritten service (done.foldl (next service) (start maxSize clock)) call = [] := by
      intro done call hstage h
      have hnext := hall _ hstage
      rw [foldl_append] at hnext
      exact (accounted_next service call h).1 hnext
    intro done call hstage
    exact hwritten done call hstage (hsound hwritten done ((prefix_append _ _).trans hstage))
  · intro hnone done hdone
    exact (hsound (fun done call hstage _ => hnone done call hstage) done hdone).accounted
  · intro hnone done call hstage w a ha hyoung hgone
    exact evicted_of_exceeds service
      (hsound (fun done call hstage _ => hnone done call hstage) done
        ((prefix_append _ _).trans hstage))
      (hnone done call hstage) ha hyoung hgone

/-- Two handlers of one request, the second begun when the entry of the first had gone stale. Both
complete, and the counter keeps the response of the one that was first. -/
theorem lookaside_accounting_fails :
    let w := [Call.begin [1] 0, .begin [1] 120000000000, .complete 1 (some [7, 7]) 0,
      .complete 0 (some [7, 7]) 0].foldl (next .kdc) (start defaultMaxSize 0)
    w.cache.size = 5 ∧ w.cache.bytes = 3 := by
  decide

end Kerberos.Lookaside
