import Kerberos.Spec.MemoryCache

/-!
# Coherence of MEMORY caches

The cache under a name is shared by the handles that were resolved since it was made, and by the one
whose `Write` made it. They read what the last of them has written (`Coherent`). A `Destroy` leaves
the handles of the cache with a destroyed object, in which nothing is found until they are written
through (`Emptied.step`); such a `Write` makes another cache for the name, which the rest do not
see. A `Destroy` through a handle whose cache is no longer that of the name does nothing, and is
left out of the runs of `memory_coherent`.
-/

namespace Kerberos.MemoryCache.World

open Transition Option Function

variable {α : Type} {w w' : World α} {name : Bytes}

structure Coherent (w : World α) : Prop where
  registered : ∀ {name memory}, w.memoryCaches name = some memory →
    memory < w.next ∧ w.heap memory = { cache := w.contents name }
  free : ∀ {name}, w.memoryCaches name = none → w.contents name = none
  single : ∀ {name name' memory}, w.memoryCaches name = some memory →
    w.memoryCaches name' = some memory → name = name'
  used : ∀ {h handle}, w.handles h = some handle → handle.memory < w.next
  own : ∀ {h handle name}, w.handles h = some handle → w.memoryCaches name = some handle.memory →
    name = handle.name

theorem Coherent.create (h : w.Coherent) (i : ℕ) (name : Bytes) : (w.create i name).Coherent := by
  obtain ⟨hreg, hfree, hsingle, hused, hown⟩ := h
  constructor
  all_goals simp only [World.create]
  · grind
  · grind
  · grind
  · intro j handle hj
    rw [update_apply] at hj
    split_ifs at hj
    · obtain rfl := some.inj hj
      exact Nat.lt_succ_self _
    · exact Nat.lt_succ_of_lt (hused hj)
  · intro j handle name' hj hname'
    rw [update_apply] at hj
    split_ifs at hj
    · obtain rfl := some.inj hj
      grind
    · have hlt := hused hj
      grind

theorem Coherent.resolve (h : w.Coherent) (i : ℕ) (name : Bytes) : (w.resolve i name).Coherent := by
  unfold World.resolve
  cases hname : w.memoryCaches name with
  | none => exact h.create i name
  | some memory =>
    refine ⟨h.registered, h.free, h.single, fun {j handle} hj => ?_,
      fun {j handle _} hj hname' => ?_⟩
    all_goals
      simp only [update_apply] at hj
      split_ifs at hj
    · obtain rfl := some.inj hj
      exact (h.registered hname).1
    · exact h.used hj
    · obtain rfl := some.inj hj
      exact h.single hname' hname
    · exact h.own hj hname'

/-- What is written to an object of which no other name knows. -/
theorem Coherent.put (h : w.Coherent) {memory : ℕ}
    (hown : ∀ name', w.memoryCaches name' = some memory → name' = name) (cache : α) :
    (w.put memory name cache).Coherent := by
  obtain ⟨hreg, hfree, hsingle, hused, hown'⟩ := h
  constructor
  · simp only [World.put]
    grind
  · simp only [World.put]
    grind
  · exact hsingle
  · exact hused
  · exact hown'

theorem Coherent.destroy (h : w.Coherent) {handle : Handle}
    (hcurrent : w.memoryCaches handle.name = some handle.memory ∨
      w.memoryCaches handle.name = none) : (w.destroy handle).Coherent := by
  obtain ⟨hreg, hfree, hsingle, hused, hown⟩ := h
  unfold World.destroy
  split_ifs
  · constructor
    · grind
    · grind
    · grind
    · exact hused
    · grind
  · constructor
    · grind
    · grind
    · exact hsingle
    · exact hused
    · exact hown

/-- A registered object has the contents of its name. -/
theorem Coherent.read_eq (h : w.Coherent) {memory : ℕ} (hname : w.memoryCaches name = some memory) :
    (w.heap memory).read = w.contents name := by
  rw [(h.registered hname).2]
  rfl

/-- What holds behind a call through a handle, if there is one. -/
theorem through_of {P : World α → Prop} {i : ℕ} {f : Handle → World α} (h : P w)
    (hf : ∀ handle, w.handles i = some handle → P (f handle)) : P (w.through i f) := by
  unfold through
  cases hi : w.handles i with
  | none => exact h
  | some handle => exact hf handle hi

/-- One step of a run. -/
theorem coherent_step (w : World α) (e : Event α) (w' : World α) (h : w.Coherent)
    (hstep : Guarded Step Effective w e w') : w'.Coherent := by
  obtain ⟨hstep, heffective⟩ := hstep
  cases e with
  | resolve i residual suffix =>
    obtain ⟨name, tries, -, rfl⟩ := hstep
    obtain ⟨hreg, hfree, hsingle, hused, hown⟩ := h.resolve i name
    exact ⟨hreg, hfree, hsingle, hused, hown⟩
  | write i cache =>
    obtain rfl := hstep
    refine through_of h fun handle hi => ?_
    unfold World.write
    split_ifs with hdestroyed
    · refine (h.create i handle.name).put (fun name' hname' => ?_) cache
      exact (h.create i handle.name).single hname' (update_self ..)
    · exact h.put (fun _ => h.own hi) cache
  | modify i f =>
    obtain rfl := hstep
    refine through_of h fun handle hi => ?_
    unfold World.modify
    split
    · exact h.put (fun _ => h.own hi) _
    · exact h
  | destroy i =>
    obtain rfl := hstep
    exact through_of h fun handle hi => h.destroy (heffective handle hi)
  | beginRead r i =>
    obtain rfl := hstep
    exact ⟨h.registered, h.free, h.single, h.used, h.own⟩
  | endRead r =>
    obtain rfl := hstep
    exact ⟨h.registered, h.free, h.single, h.used, h.own⟩

/-! ## Destroyed caches -/

/-- The event may give the handle another object. -/
def Rebinds (i : ℕ) : Event α → Prop
  | .resolve h _ _ | .write h _ => h = i
  | _ => False

/-- The handle points to a destroyed object. -/
def Emptied (i : ℕ) (handle : Handle) (w : World α) : Prop :=
  w.handles i = some handle ∧ handle.memory < w.next ∧ (w.heap handle.memory).destroyed = true

section Emptied

variable {i j : ℕ} {handle : Handle} (h : w.Emptied i handle)

include h

theorem Emptied.create (hne : j ≠ i) (name : Bytes) : (w.create j name).Emptied i handle := by
  obtain ⟨hi, hlt, hdestroyed⟩ := h
  refine ⟨(update_of_ne hne.symm ..).trans hi, Nat.lt_succ_of_lt hlt, ?_⟩
  simpa [World.create, update_of_ne hlt.ne] using hdestroyed

/-- What is written to another object. -/
theorem Emptied.put {memory : ℕ} (hne : memory ≠ handle.memory) (name : Bytes) (cache : α) :
    (w.put memory name cache).Emptied i handle := by
  refine ⟨h.1, h.2.1, ?_⟩
  simpa [World.put, update_of_ne hne.symm] using h.2.2

/-- An object with contents is another one. -/
theorem Emptied.ne_of_live {memory : ℕ} (hlive : (w.heap memory).destroyed = false) :
    memory ≠ handle.memory := by
  rintro rfl
  rw [h.2.2] at hlive
  cases hlive

theorem Emptied.resolve (hne : j ≠ i) (name : Bytes) : (w.resolve j name).Emptied i handle := by
  unfold World.resolve
  split
  · exact ⟨(update_of_ne hne.symm ..).trans h.1, h.2⟩
  · exact h.create hne name

theorem Emptied.write (hne : j ≠ i) (handle' : Handle) (cache : α) :
    (w.write j handle' cache).Emptied i handle := by
  unfold World.write
  split_ifs with hdestroyed
  · exact (h.create hne _).put h.2.1.ne' _ cache
  · exact h.put (h.ne_of_live (eq_false_of_ne_true hdestroyed)) _ cache

theorem Emptied.modify (handle' : Handle) (f : α → Option α) :
    (w.modify handle' f).Emptied i handle := by
  unfold World.modify
  split
  · rename_i cache hcache
    refine h.put (h.ne_of_live ?_) _ cache
    by_contra hdestroyed
    rw [Object.read, if_pos (eq_true_of_ne_false hdestroyed)] at hcache
    cases hcache
  · exact h

theorem Emptied.destroy (handle' : Handle) : (w.destroy handle').Emptied i handle := by
  unfold World.destroy
  split_ifs
  · refine ⟨h.1, h.2.1, ?_⟩
    simp only [update_apply]
    split_ifs
    · rfl
    · exact h.2.2
  · exact h

/-- Nothing but a call that gives the handle another object brings contents back. -/
theorem Emptied.step {e : Event α} (hstep : w.Step e w') (hother : ¬ Rebinds i e) :
    w'.Emptied i handle := by
  cases e with
  | resolve j residual suffix =>
    obtain ⟨name, tries, -, rfl⟩ := hstep
    exact h.resolve hother name
  | write j cache =>
    obtain rfl := hstep
    exact through_of h fun handle' _ => h.write hother handle' cache
  | modify j f =>
    obtain rfl := hstep
    exact through_of h fun handle' _ => h.modify handle' f
  | destroy j =>
    obtain rfl := hstep
    exact through_of h fun handle' _ => h.destroy handle'
  | beginRead r j => exact hstep ▸ h
  | endRead r => exact hstep ▸ h

end Emptied

/-- **MEMORY caches are coherent**, in every run without a `Destroy` that finds another cache under
the name: a handle, and a `Read` under way, that has the cache of its name finds the contents of the
name, and so does a handle that is resolved anew. A `Destroy` empties every handle of the cache,
until that handle is resolved or written through again; then it has the cache of its name. -/
theorem memory_coherent {events : List (Event α)}
    (hrun : Run (Guarded Step Effective) ({} : World α) events w) :
    (∀ i handle, (w.handles i = some handle ∨ w.reads i = some handle) →
      w.memoryCaches handle.name = some handle.memory →
      (w.heap handle.memory).read = w.contents handle.name) ∧
    (∀ i name, ∃ handle, (w.resolve i name).handles i = some handle ∧
      ((w.resolve i name).heap handle.memory).read = w.contents name) ∧
    ∀ i j handle handle', w.handles i = some handle → w.handles j = some handle' →
      handle.memory = handle'.memory → w.memoryCaches handle'.name = some handle'.memory →
      ∀ later w', Run (fun w e w' => Step w e w' ∧ ¬ Rebinds i e) (w.destroy handle') later w' →
        w'.handles i = some handle ∧ (w'.heap handle.memory).read = none ∧
        ∀ cache, ((w'.write i handle cache).handles i).map Handle.memory =
          (w'.write i handle cache).memoryCaches handle.name := by
  have hempty : ({} : World α).Coherent := ⟨nofun, fun _ => rfl, nofun, nofun, nofun⟩
  have h := hrun.invariant coherent_step hempty
  refine ⟨fun i handle _ hname => h.read_eq hname, fun i name => ?_, ?_⟩
  · have hresolved := h.resolve i name
    unfold resolve at hresolved ⊢
    cases hname : w.memoryCaches name with
    | some memory =>
      rw [hname] at hresolved
      exact ⟨⟨name, memory⟩, update_self .., hresolved.read_eq hname⟩
    | none =>
      rw [hname] at hresolved
      refine ⟨⟨name, w.next⟩, update_self .., ?_⟩
      rw [hresolved.read_eq (update_self ..), h.free hname]
      exact update_self ..
  · intro i j handle handle' hi hj hsame hname later w' hlater
    have hstart : (w.destroy handle').Emptied i handle := by
      unfold destroy
      rw [if_pos hname]
      refine ⟨hi, h.used hi, ?_⟩
      simp [hsame]
    obtain ⟨hstill, -, hdestroyed⟩ :=
      hlater.invariant (fun w e w' h hs => h.step hs.1 hs.2) hstart
    refine ⟨hstill, if_pos hdestroyed, fun cache => ?_⟩
    rw [write, if_pos hdestroyed]
    simp [put, create]

section Sample

/-- The calls of two handles of a name. -/
def shared : List (Event ℕ) := [.resolve 0 (str "n") [], .resolve 1 (str "n") [], .write 0 7]

/-- A second handle reads what the first has written, and nothing when that one has destroyed it. -/
theorem memory_coherent_shared : ∃ w : World ℕ, Run (Guarded Step Effective) {} shared w ∧
    ∃ first second, w.handles 0 = some first ∧ w.handles 1 = some second ∧
      (w.heap second.memory).read = some 7 ∧
        ((w.destroy first).heap second.memory).read = none := by
  have hnamed : ∀ {w : World ℕ}, w.Named (str "n") [] (str "n") 0 := ⟨rfl, rfl⟩
  have hrun : ∃ w : World ℕ, Run (Guarded Step Effective) {} shared w ∧
      w.handles 0 = some ⟨str "n", 0⟩ ∧ w.handles 1 = some ⟨str "n", 0⟩ ∧
      w.memoryCaches (str "n") = some 0 ∧ w.contents (str "n") = some 7 :=
    ⟨_, .cons ⟨⟨_, _, hnamed, rfl⟩, trivial⟩ (.cons ⟨⟨_, _, hnamed, rfl⟩, trivial⟩
      (.cons ⟨rfl, trivial⟩ (.nil _))), rfl, rfl, rfl, rfl⟩
  obtain ⟨w, hrun, hfirst, hsecond, hname, hcontents⟩ := hrun
  obtain ⟨hread, -, hdestroy⟩ := memory_coherent hrun
  refine ⟨w, hrun, _, _, hfirst, hsecond, (hread 1 _ (.inl hsecond) hname).trans hcontents, ?_⟩
  exact (hdestroy 1 0 _ _ hsecond hfirst rfl hname [] _ (.nil _)).2.1

/-- After the `Destroy` of one handle a second one writes: the first still finds nothing. Then the
first writes too, and the `Destroy` of the second returns nil but leaves what the first has
written. -/
theorem memory_diverges : ∃ w w' : World ℕ,
    Run Step {} [.resolve 0 (str "n") [], .resolve 1 (str "n") [], .destroy 0, .write 1 7] w ∧
      w.contents (str "n") = some 7 ∧
      (∃ handle, w.handles 0 = some handle ∧ (w.heap handle.memory).read = none) ∧
      Run Step w [.write 0 8, .destroy 1, .resolve 2 (str "n") []] w' ∧
      ∃ handle, w'.handles 2 = some handle ∧ (w'.heap handle.memory).read = some 8 := by
  have hnamed : ∀ {w : World ℕ}, w.Named (str "n") [] (str "n") 0 := ⟨rfl, rfl⟩
  exact ⟨_, _, .cons ⟨_, _, hnamed, rfl⟩ (.cons ⟨_, _, hnamed, rfl⟩
    (.cons rfl (.cons rfl (.nil _)))), rfl, ⟨_, rfl, rfl⟩,
    .cons rfl (.cons rfl (.cons ⟨_, _, hnamed, rfl⟩ (.nil _))), _, rfl, rfl⟩

end Sample

end Kerberos.MemoryCache.World
