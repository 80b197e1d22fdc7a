import Mathlib.Tactic

/-!
# Computations that may fail

A computation in `Except` that succeeds is taken apart at its binds: `bind_ok` gives
the intermediate result, `ensure_ok`, `ofOption_ok` and `within_ok` what the steps of
such a computation ask for, `forM_ok` and `mapM_ok` what its loops do. A loop that may fail keeps
what every round keeps (`foldlM_invariant`) and reaches what one of them brings about
(`foldlM_reaches`).
-/

namespace List

variable {α β : Type*} {l : List α} {m : List β}

theorem Forall₂.exists_right {R : α → β → Prop} (h : Forall₂ R l m) {b : β} (hb : b ∈ m) :
    ∃ a ∈ l, R a b := by
  induction h with
  | nil => cases hb
  | cons hab _ ih =>
    rcases mem_cons.1 hb with rfl | hb
    · exact ⟨_, mem_cons_self, hab⟩
    · obtain ⟨a, ha, hr⟩ := ih hb
      exact ⟨a, mem_cons_of_mem _ ha, hr⟩

theorem Forall₂.exists_left {R : α → β → Prop} (h : Forall₂ R l m) {a : α} (ha : a ∈ l) :
    ∃ b ∈ m, R a b :=
  (Forall₂.flip (R := fun b a => R a b) h).exists_right ha

theorem Forall₂.imp_mem {R S : α → β → Prop}
    (h : Forall₂ R l m) (himp : ∀ a ∈ l, ∀ b ∈ m, R a b → S a b) : Forall₂ S l m := by
  induction h with
  | nil => exact .nil
  | cons hab _ ih =>
    refine .cons (himp _ mem_cons_self _ mem_cons_self hab) (ih ?_)
    intro a ha b hb
    exact himp a (mem_cons_of_mem _ ha) b (mem_cons_of_mem _ hb)

theorem Forall₂.map_eq {α β γ : Type*} {R : α → β → Prop} {l : List α} {m : List β}
    {f : α → γ} {g : β → γ}
    (h : Forall₂ R l m) (himp : ∀ a b, R a b → f a = g b) : l.map f = m.map g := by
  induction h with
  | nil => rfl
  | cons hab _ ih => rw [map_cons, map_cons, himp _ _ hab, ih]

theorem find?_eq_some_of_unique {p : α → Bool} {x : α} (hx : x ∈ l) (hp : p x)
    (huniq : ∀ y ∈ l, p y → y = x) : l.find? p = some x := by
  cases h : l.find? p with
  | none => exact absurd hp (find?_eq_none.1 h x hx)
  | some y =>
    rw [huniq y (mem_of_find?_eq_some h) (find?_some h)]

/-- A fold that never gets smaller and takes every element in is above all of them. -/
theorem le_foldl {f : β → α → β} {s : β → ℕ} {t : α → ℕ} {l : List α}
    (hstep : ∀ b, ∀ a ∈ l, s b ≤ s (f b a) ∧ t a ≤ s (f b a)) (b : β) :
    s b ≤ s (l.foldl f b) ∧ ∀ a ∈ l, t a ≤ s (l.foldl f b) := by
  induction l generalizing b with
  | nil => exact ⟨le_rfl, fun a ha => absurd ha not_mem_nil⟩
  | cons a l ih =>
    obtain ⟨hb, ha⟩ := hstep b a mem_cons_self
    obtain ⟨hrest, hall⟩ := ih (fun b a ha => hstep b a (mem_cons_of_mem _ ha)) (f b a)
    exact ⟨hb.trans hrest, forall_mem_cons.2 ⟨ha.trans hrest, hall⟩⟩

end List

namespace Except

open List

universe u v

variable {ε : Type u} {α β : Type v}

theorem bind_ok {x : Except ε α} {f : α → Except ε β} {b : β} :
    (x >>= f) = .ok b ↔ ∃ a, x = .ok a ∧ f a = .ok b := by
  cases x with
  | error e => simp [bind, Except.bind]
  | ok a => simp [bind, Except.bind]

theorem bind_error {x : Except ε α} {f : α → Except ε β} {e : ε} :
    (x >>= f) = .error e ↔ x = .error e ∨ ∃ a, x = .ok a ∧ f a = .error e := by
  cases x with
  | error e => simp [bind, Except.bind]
  | ok a => simp [bind, Except.bind]

variable {a : α}

theorem ok_bind {f : α → Except ε β} : ((.ok a : Except ε α) >>= f) = f a := rfl

variable {e : ε}

theorem error_bind {f : α → Except ε β} : ((.error e : Except ε α) >>= f) = .error e := rfl

theorem ite_bind {p : Prop} [Decidable p] {x y : Except ε α} {f : α → Except ε β} :
    (if p then x else y) >>= f = if p then x >>= f else y >>= f := apply_ite (· >>= f) p x y

/-- Fail with `e` unless `p`. -/
def ensure (p : Prop) [Decidable p] (e : ε) : Except ε Unit := if p then .ok () else .error e

variable {p : Prop}

@[simp]
theorem ensure_ok [Decidable p] {u : Unit} : ensure p e = .ok u ↔ p := by
  unfold ensure
  split_ifs with h
  · simp [h]
  · simp [h]

theorem ensure_of [Decidable p] (h : p) : ensure p e = .ok () := if_pos h

theorem ensure_of_not [Decidable p] (h : ¬ p) : ensure p e = .error e := if_neg h

theorem ensure_bind [Decidable p] {γ : Type} {f : Unit → Except ε γ} (h : p) :
    (ensure p e >>= f) = f () := by rw [ensure_of h, ok_bind]

theorem ensure_bind_ok [Decidable p] {γ : Type} {f : Unit → Except ε γ} {c : γ} :
    (ensure p e >>= f) = .ok c ↔ p ∧ f () = .ok c := by
  rw [bind_ok]
  exact ⟨fun ⟨_, hp, h⟩ => ⟨ensure_ok.1 hp, h⟩, fun ⟨hp, h⟩ => ⟨(), ensure_of hp, h⟩⟩

theorem mapError_ok {ε' : Type*} {f : ε → ε'} {x : Except ε α} :
    x.mapError f = .ok a ↔ x = .ok a := by
  cases x with
  | error e => simp [Except.mapError]
  | ok b => simp [Except.mapError]

/-- Put `text` in front of an error. -/
def within (text : String) (x : Except String α) : Except String α := x.mapError (text ++ ·)

@[simp]
theorem within_ok {text : String} {x : Except String α} : within text x = .ok a ↔ x = .ok a := by
  exact mapError_ok

/-- The value, or fail with `e`. -/
def ofOption (e : ε) (x : Option α) : Except ε α :=
  match x with
  | some a => .ok a
  | none => .error e

@[simp]
theorem ofOption_ok {x : Option α} : ofOption e x = .ok a ↔ x = some a := by
  cases x with
  | none => simp [ofOption]
  | some b => simp [ofOption]

theorem ofOption_error {x : Option α} {e' : ε} : ofOption e x = .error e' ↔ x = none ∧ e = e' := by
  cases x with
  | none => simp [ofOption]
  | some b => simp [ofOption]

theorem bind_congr_ok {x : Except ε α} {f g : α → Except ε β} (h : ∀ a, x = .ok a → f a = g a) :
    (x >>= f) = (x >>= g) := by
  cases x with
  | error => rfl
  | ok a => exact h a rfl

variable {γ : Type*} {l : List γ}

theorem mapM_congr {f g : γ → Except ε α} (h : ∀ a ∈ l, f a = g a) : l.mapM f = l.mapM g := by
  induction l with
  | nil => rfl
  | cons a l ih =>
    rw [mapM_cons, mapM_cons, h a mem_cons_self, ih fun b hb => h b (mem_cons_of_mem a hb)]

theorem forM_ok {f : γ → Except ε PUnit} {u : PUnit} : l.forM f = .ok u ↔ ∀ a ∈ l, f a = .ok u := by
  induction l with
  | nil => exact ⟨fun _ _ ha => absurd ha not_mem_nil, fun _ => rfl⟩
  | cons a l ih =>
    change (f a >>= fun _ => l.forM f) = _ ↔ _
    rw [bind_ok]
    simp only [mem_cons, forall_eq_or_imp, ← ih]
    constructor
    · rintro ⟨_, ha, hl⟩
      exact ⟨ha, hl⟩
    · rintro ⟨ha, hl⟩
      exact ⟨u, ha, hl⟩

/-- A list is traversed successfully when each element gives its result. -/
theorem mapM_ok {f : γ → Except ε α} {out : List α} :
    l.mapM f = .ok out ↔ List.Forall₂ (fun a b => f a = .ok b) l out := by
  induction l generalizing out with
  | nil =>
    rw [forall₂_nil_left_iff]
    exact ⟨fun h => (ok.inj h).symm, fun h => congrArg ok h.symm⟩
  | cons a l ih =>
    rw [mapM_cons, bind_ok]
    constructor
    · rintro ⟨b, ha, h⟩
      obtain ⟨bs, hl, h⟩ := bind_ok.1 h
      cases h
      exact .cons ha (ih.1 hl)
    · intro h
      cases h with
      | cons ha hl => exact ⟨_, ha, bind_ok.2 ⟨_, ih.2 hl, rfl⟩⟩

theorem mapM_error {f : γ → Except ε α} (h : l.mapM f = .error e) : ∃ a ∈ l, f a = .error e := by
  induction l with
  | nil => cases h
  | cons a l ih =>
    rw [mapM_cons] at h
    rcases bind_error.1 h with ha | ⟨b, -, h⟩
    · exact ⟨a, mem_cons_self, ha⟩
    · rcases bind_error.1 h with hl | ⟨bs, -, h⟩
      · obtain ⟨a', ha', he⟩ := ih hl
        exact ⟨a', mem_cons_of_mem _ ha', he⟩
      · cases h

/-- The second computation gives the results of the first. -/
def Below (x y : Except ε α) : Prop := ∀ a, x = .ok a → y = .ok a

namespace Below

variable {x y : Except ε α} {f g : α → Except ε β}

theorem refl (x : Except ε α) : Below x x := fun _ h => h

theorem ensure {p q : Prop} [Decidable p] [Decidable q] (h : p → q) :
    Below (Except.ensure p e) (Except.ensure q e) :=
  fun _ hp => ensure_ok.2 (h (ensure_ok.1 hp))

theorem bind (h : Below x y) (hf : ∀ a, Below (f a) (g a)) : Below (x >>= f) (y >>= g) := by
  intro b hb
  obtain ⟨a, ha, hb⟩ := bind_ok.1 hb
  exact bind_ok.2 ⟨a, h a ha, hf a b hb⟩

theorem next (hf : ∀ a, Below (f a) (g a)) : Below (x >>= f) (x >>= g) := bind (refl x) hf

theorem last (h : Below x y) : Below (x >>= f) (y >>= f) := bind h fun a => refl (f a)

theorem ite [Decidable p] {x' y' : Except ε α} (h : p → Below x y) (h' : ¬ p → Below x' y') :
    Below (if p then x else x') (if p then y else y') := by
  split_ifs with hp
  · exact h hp
  · exact h' hp

theorem within {text : String} {x y : Except String α} (h : Below x y) :
    Below (Except.within text x) (Except.within text y) :=
  fun a ha => within_ok.2 (h a (within_ok.1 ha))

theorem mapM {f g : γ → Except ε α} (h : ∀ a, Below (f a) (g a)) : Below (l.mapM f) (l.mapM g) :=
  fun _ hout => mapM_ok.2 ((mapM_ok.1 hout).imp h)

end Below

/-- A traversal in which each element has a result with a property. -/
theorem exists_mapM {f : γ → Except ε α} {R : γ → α → Prop}
    (h : ∀ a ∈ l, ∃ b, f a = .ok b ∧ R a b) : ∃ out, l.mapM f = .ok out ∧ List.Forall₂ R l out := by
  induction l with
  | nil => exact ⟨[], rfl, .nil⟩
  | cons a l ih =>
    obtain ⟨b, hb, hR⟩ := h a mem_cons_self
    obtain ⟨out, hout, hall⟩ := ih fun a ha => h a (mem_cons_of_mem _ ha)
    refine ⟨b :: out, ?_, .cons hR hall⟩
    rw [mapM_cons, hb, hout]
    rfl

theorem map_eq_ok {x : Except ε α} {f : α → β} {b : β} :
    x.map f = .ok b ↔ ∃ a, x = .ok a ∧ f a = b := by
  cases x with
  | error e => simp [Except.map]
  | ok a => simp [Except.map]

theorem isOk_iff {x : Except ε α} : x.isOk = true ↔ ∃ a, x = .ok a := by
  cases x with
  | error e => simp [Except.isOk, Except.toBool]
  | ok a => simp [Except.isOk, Except.toBool]

theorem toOption_some {x : Except ε α} : x.toOption = some a ↔ x = .ok a := by
  cases x with
  | error e => simp [Except.toOption]
  | ok b => simp [Except.toOption]

theorem foldlM_invariant {f : β → α → Except ε β} {P : β → Prop} {l : List α}
    (hstep : ∀ st a st', a ∈ l → P st → f st a = .ok st' → P st') {init st : β} (hinit : P init)
    (h : l.foldlM f init = .ok st) : P st := by
  induction l generalizing init with
  | nil =>
    cases h
    exact hinit
  | cons a l ih =>
    obtain ⟨st', hf, h⟩ := bind_ok.1 h
    refine ih (fun st a st' ha => hstep st a st' (mem_cons_of_mem _ ha)) ?_ h
    exact hstep _ _ _ mem_cons_self hinit hf

/-- A loop reaches what one of its rounds brings about, if the other rounds keep it. -/
theorem foldlM_reaches {f : β → α → Except ε β} {P Q : β → Prop} {l : List α} (ha : a ∈ l)
    (hP : ∀ st a st', P st → f st a = .ok st' → P st')
    (hQ : ∀ st a st', Q st → f st a = .ok st' → Q st')
    (hit : ∀ st st', P st → f st a = .ok st' → Q st') {init st : β} (hinit : P init)
    (h : l.foldlM f init = .ok st) : Q st := by
  induction l generalizing init with
  | nil => cases ha
  | cons b l ih =>
    obtain ⟨st', hf, hrest⟩ := bind_ok.1 h
    rcases mem_cons.1 ha with rfl | ha
    · exact foldlM_invariant (fun st a st' _ => hQ st a st') (hit _ _ hinit hf) hrest
    · exact ih ha (hP _ _ _ hinit hf) hrest

end Except
