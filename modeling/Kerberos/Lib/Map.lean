import Mathlib.Data.List.AList
import Kerberos.Lib.Except

/-!
# Finite maps

Loops over a finite map (`AList` at a constant family). `traverse` is a loop that
replaces every value and may fail: it succeeds when it does at every value
(`traverse_isOk`), and the result has the new value of each key (`lookup_traverse`).
Values filed one after the other are found again (`lookup_foldl_insert_of_mem`).
-/

namespace AList

open List

universe u v w

variable {κ : Type u} {α : Type v} {β : Type w} [DecidableEq κ] {m : AList fun _ : κ => α} {k : κ}

theorem lookup_eq_some_iff {a : α} : m.lookup k = some a ↔ ⟨k, a⟩ ∈ m.entries :=
  AList.mem_lookup_iff

/-- The loop of `traverse`, over the entries still to be visited. -/
def traverseAux {ε : Type*} (f : κ → α → Except ε β) :
    List (Sigma fun _ : κ => α) → Except ε (AList fun _ : κ => β)
  | [] => .ok ∅
  | e :: rest =>
    match f e.1 e.2 with
    | .error err => .error err
    | .ok b =>
      match traverseAux f rest with
      | .error err => .error err
      | .ok m => .ok (m.insert e.1 b)

/-- Replace every value, or fail at one of them. -/
def traverse {ε : Type*} (f : κ → α → Except ε β) (m : AList fun _ : κ => α) :
    Except ε (AList fun _ : κ => β) := traverseAux f m.entries

/-- Replace every value. -/
def mapValues (f : κ → α → β) (m : AList fun _ : κ => α) : AList fun _ : κ => β :=
  m.entries.foldr (fun e out => out.insert e.1 (f e.1 e.2)) ∅

section

variable {ε : Type*} {f : κ → α → Except ε β}

theorem traverseAux_ok {l : List (Sigma fun _ : κ => α)} (hl : l.NodupKeys)
    {m' : AList fun _ : κ => β} (h : traverseAux f l = .ok m') (k : κ) (b : β) :
    m'.lookup k = some b ↔ ∃ a, (⟨k, a⟩ : Sigma fun _ : κ => α) ∈ l ∧ f k a = .ok b := by
  induction l generalizing m' with
  | nil =>
    cases h
    simp
  | cons e l ih =>
    obtain ⟨k', a'⟩ := e
    obtain ⟨hnotin, hl'⟩ := nodupKeys_cons.1 hl
    unfold traverseAux at h
    split at h
    · cases h
    · next b' hb' =>
      split at h
      · cases h
      · next m hm =>
        cases h
        by_cases hk : k = k'
        · subst hk
          have hother : ∀ a, (⟨k, a⟩ : Sigma fun _ : κ => α) ∉ l := fun a ha =>
            hnotin (mem_keys_of_mem (s := ⟨k, a⟩) ha)
          simp [hother, hb']
        · simp [ih hl' hm, hk]

/-- The values of the result are the new values. -/
theorem lookup_traverse {m' : AList fun _ : κ => β} (h : traverse f m = .ok m') (k : κ) (b : β) :
    m'.lookup k = some b ↔ ∃ a, m.lookup k = some a ∧ f k a = .ok b := by
  simp only [lookup_eq_some_iff (m := m)]
  exact traverseAux_ok m.nodupKeys h k b

theorem traverseAux_isOk {l : List (Sigma fun _ : κ => α)} :
    (∃ m', traverseAux f l = .ok m') ↔ ∀ e ∈ l, ∃ b, f e.1 e.2 = .ok b := by
  induction l with
  | nil => simp [traverseAux]
  | cons e l ih =>
    rw [forall_mem_cons, ← ih]
    constructor
    · rintro ⟨m', h⟩
      unfold traverseAux at h
      split at h
      · cases h
      · next b hb =>
        split at h
        · cases h
        · next m hm => exact ⟨⟨b, hb⟩, m, hm⟩
    · rintro ⟨⟨b, hb⟩, m, hm⟩
      refine ⟨m.insert e.1 b, ?_⟩
      unfold traverseAux
      rw [hb, hm]

theorem traverse_isOk : (∃ m', traverse f m = .ok m') ↔ ∀ k a, m.lookup k = some a →
    ∃ b, f k a = .ok b := by
  unfold traverse
  rw [traverseAux_isOk]
  constructor
  · intro h k a ha
    exact h ⟨k, a⟩ (lookup_eq_some_iff.1 ha)
  · intro h e he
    exact h e.1 e.2 (lookup_eq_some_iff.2 he)

end

theorem traverseAux_pure (f : κ → α → β) (l : List (Sigma fun _ : κ => α)) :
    traverseAux (fun k a => (.ok (f k a) : Except Empty β)) l =
      .ok (l.foldr (fun e out => out.insert e.1 (f e.1 e.2)) ∅) := by
  induction l with
  | nil => rfl
  | cons e l ih => rw [traverseAux, ih, foldr_cons]

theorem lookup_mapValues (f : κ → α → β) (m : AList fun _ : κ => α) (k : κ) :
    (mapValues f m).lookup k = (m.lookup k).map (f k) := by
  apply Option.ext
  intro b
  rw [mapValues, lookup_traverse (traverseAux_pure f m.entries), Option.map_eq_some_iff]
  simp only [Except.ok.injEq]

theorem mem_values {a : α} : a ∈ m.entries.map Sigma.snd ↔ ∃ k, m.lookup k = some a := by
  rw [mem_map]
  constructor
  · rintro ⟨⟨k, b⟩, hmem, rfl⟩
    exact ⟨k, lookup_eq_some_iff.2 hmem⟩
  · rintro ⟨k, h⟩
    exact ⟨⟨k, a⟩, lookup_eq_some_iff.1 h, rfl⟩

/-- Values that say under which key they are filed are all different. -/
theorem nodup_values {g : α → κ} (hown : ∀ k a, m.lookup k = some a → g a = k) :
    ((m.entries.map Sigma.snd).map g).Nodup := by
  have hkeys : (m.entries.map Sigma.snd).map g = m.entries.map Sigma.fst := by
    rw [map_map]
    exact map_congr_left fun e he => hown e.1 e.2 (lookup_eq_some_iff.2 he)
  rw [hkeys]
  exact m.keys_nodup

/-! ## Filing a list of values -/

variable {ι : Type*} {f : ι → κ} {g : ι → α} {l : List ι}

theorem lookup_foldl_insert_of_notMem (hk : ∀ x ∈ l, f x ≠ k) :
    (l.foldl (fun m x => m.insert (f x) (g x)) m).lookup k = m.lookup k := by
  induction l generalizing m with
  | nil => rfl
  | cons x l ih =>
    rw [foldl_cons, ih fun y hy => hk y (mem_cons_of_mem _ hy),
      lookup_insert_ne (Ne.symm (hk x mem_cons_self))]

/-- Values filed under different keys are all found again. -/
theorem lookup_foldl_insert_of_mem (hl : (l.map f).Nodup) {x : ι} (hx : x ∈ l) :
    (l.foldl (fun m x => m.insert (f x) (g x)) m).lookup (f x) = some (g x) := by
  induction l generalizing m with
  | nil => cases hx
  | cons y l ih =>
    obtain ⟨hy, hl⟩ := nodup_cons.1 hl
    rcases mem_cons.1 hx with rfl | hx
    · have hk : ∀ z ∈ l, f z ≠ f x := fun z hz h => hy (h ▸ mem_map_of_mem hz)
      rw [foldl_cons, lookup_foldl_insert_of_notMem hk, lookup_insert]
    · exact ih hl hx

theorem mem_foldl_insert :
    k ∈ l.foldl (fun m x => m.insert (f x) (g x)) m ↔ k ∈ m ∨ ∃ x ∈ l, f x = k := by
  induction l generalizing m with
  | nil => simp
  | cons y l ih =>
    rw [foldl_cons, ih, mem_insert]
    simp only [mem_cons, exists_eq_or_imp]
    tauto

/-- What is found in the end was filed. -/
theorem lookup_foldl_insert_some (hl : (l.map f).Nodup) {a : α}
    (h : (l.foldl (fun m x => m.insert (f x) (g x)) (∅ : AList fun _ : κ => α)).lookup k = some a) :
    ∃ x ∈ l, f x = k ∧ a = g x := by
  have hmem := lookup_isSome.1 (by rw [h]; rfl)
  rcases mem_foldl_insert.1 hmem with hmem | ⟨x, hx, rfl⟩
  · exact absurd hmem (notMem_empty _)
  · rw [lookup_foldl_insert_of_mem hl hx] at h
    exact ⟨x, hx, rfl, (Option.some.inj h).symm⟩

/-- A loop that files each value under its key, where there was none. -/
theorem lookup_foldlM_insert {ε : Type*} {σ : Type v} {step : σ → α → Except ε σ}
    {f : σ → AList fun _ : κ => α}
    {g : α → κ} (hstep : ∀ st a st', step st a = .ok st' →
      (f st).lookup (g a) = none ∧ f st' = (f st).insert (g a) a)
    {l : List α} {st st' : σ} (h : l.foldlM step st = .ok st') (k : κ) (a : α) :
    (f st').lookup k = some a ↔ (f st).lookup k = some a ∨ (a ∈ l ∧ g a = k) := by
  induction l generalizing st with
  | nil =>
    cases h
    simp
  | cons b l ih =>
    obtain ⟨mid, hmid, h⟩ := Except.bind_ok.1 h
    obtain ⟨hnone, hinsert⟩ := hstep _ _ _ hmid
    rw [ih h, hinsert, mem_cons]
    by_cases hk : k = g b
    · subst hk
      rw [lookup_insert, hnone, Option.some.injEq]
      constructor
      · rintro (rfl | ⟨hmem, hkey⟩)
        · exact .inr ⟨.inl rfl, rfl⟩
        · exact .inr ⟨.inr hmem, hkey⟩
      · rintro (hnone | ⟨rfl | hmem, hkey⟩)
        · cases hnone
        · exact .inl rfl
        · exact .inr ⟨hmem, hkey⟩
    · have hother : a = b → g a ≠ k := by
        rintro rfl
        exact Ne.symm hk
      rw [lookup_insert_ne hk]
      tauto

end AList
