import Kerberos.Lib.Except

/-!
# Readers of encodings

A reader takes what it needs from the front of its input, a list of symbols (bytes,
or the fields of a record), or fails. `Reads r enc x` says what `r` makes of the
encoding `enc`: it ends with the result or the error `x`, and leaves whatever follows
the encoding. The rules follow the structure of a reader: `Reads.pure`, `Reads.bind`,
`Reads.many`, `Reads.take`, `Reads.next`, `Reads.check` and `Reads.lift`. `Ends` is the
same for the whole input, where a reader may look for its end. `Takes` goes the other way: it says
what a reader has taken when it ends with a result, up to the symbols it does not look at.
-/

universe u

/-- A reader over the symbols `σ`. -/
abbrev Reader (σ ε α : Type u) := StateT (List σ) (Except ε) α

namespace Reader

open List

variable {σ ε α β : Type u}

/-- Take `n` symbols, or fail. -/
def take (n : ℕ) (e : ε) : Reader σ ε (List σ) := fun input =>
  if n ≤ input.length then .ok (input.take n, input.drop n) else .error e

/-- Take one symbol, or fail. -/
def next (e : ε) : Reader σ ε σ
  | [] => .error e
  | s :: rest => .ok (s, rest)

/-- Fail unless `ok`. -/
def check (ok : Bool) (e : ε) : Reader σ ε PUnit := fun input =>
  if ok then .ok (⟨⟩, input) else .error e

/-- A result computed beside the input. -/
def lift (x : Except ε α) : Reader σ ε α := fun input => x.map fun a => (a, input)

/-- The same reader `n` times. -/
def many (n : ℕ) (r : Reader σ ε α) : Reader σ ε (List α) :=
  match n with
  | 0 => pure []
  | n + 1 => do
    let a ← r
    let rest ← many n r
    pure (a :: rest)

/-- On the encoding `enc` the reader ends with `x`, and leaves what follows. -/
def Reads (r : Reader σ ε α) (enc : List σ) (x : Except ε α) : Prop :=
  ∀ rest, r (enc ++ rest) = x.map fun a => (a, rest)

theorem Reads.pure (a : α) : Reads (pure a : Reader σ ε α) [] (.ok a) := fun _ => rfl

theorem Reads.pure_eq {a b : α} (h : a = b) : Reads (Pure.pure a : Reader σ ε α) [] (.ok b) := by
  rw [h]
  exact pure b

variable {r : Reader σ ε α} {f : α → Reader σ ε β} {x : Except ε α}

/-- The results of the steps are chained as the steps are. -/
theorem Reads.bind {enc enc' : List σ}
    {g : α → Except ε β} (hr : Reads r enc x) (hf : ∀ a, x = .ok a → Reads (f a) enc' (g a)) :
    Reads (r >>= f) (enc ++ enc') (x >>= g) := by
  intro rest
  show (r (enc ++ enc' ++ rest)).bind _ = _
  rw [append_assoc, hr]
  cases x with
  | error e => rfl
  | ok a => exact hf a rfl rest

variable {y : Except ε β} {a : α}

/-- A step that succeeds. -/
theorem Reads.step {enc enc' : List σ} (hr : Reads r enc (.ok a)) (hf : Reads (f a) enc' y) :
    Reads (r >>= f) (enc ++ enc') y := by
  intro rest
  show (r (enc ++ enc' ++ rest)).bind _ = _
  rw [append_assoc, hr]
  exact hf rest

variable {enc : List σ}

/-- A step that takes nothing from the input and succeeds. -/
theorem Reads.quiet (hr : Reads r [] (.ok a)) (hf : Reads (f a) enc y) : Reads (r >>= f) enc y :=
  Reads.step hr hf

/-- A step after which nothing is taken from the input. -/
theorem Reads.last {g : α → Except ε β} (hr : Reads r enc x)
    (hf : ∀ a, x = .ok a → Reads (f a) [] (g a)) :
    Reads (r >>= f) enc (x >>= g) := by
  rw [← append_nil enc]
  exact bind hr hf

/-- A step that succeeds, and after which nothing is taken from the input. -/
theorem Reads.final (hr : Reads r enc (.ok a)) (hf : Reads (f a) [] y) : Reads (r >>= f) enc y := by
  rw [← append_nil enc]
  exact step hr hf

theorem Reads.take {n : ℕ} (hn : enc.length = n) (e : ε) :
    Reads (Reader.take n e) enc (.ok enc) := by
  intro rest
  unfold Reader.take
  rw [if_pos (by rw [length_append]; omega), take_left' hn, drop_left' hn]
  rfl

theorem Reads.next (s : σ) (e : ε) : Reads (Reader.next e) [s] (.ok s) := fun _ => rfl

variable {ok : Bool}

theorem Reads.check (h : ok = true) (e : ε) : Reads (σ := σ) (check ok e) [] (.ok ⟨⟩) := by
  intro rest
  rw [h]
  rfl

/-- A test that may fail. -/
theorem Reads.ensure {σ ε : Type} (p : Prop) [Decidable p] (e : ε) :
    Reads (σ := σ) (Reader.check (decide p) e) [] (Except.ensure p e) := by
  intro rest
  by_cases hp : p
  · simp [Reader.check, Except.ensure, hp, Except.map]
  · simp [Reader.check, Except.ensure, hp, Except.map]

theorem Reads.lift (x : Except ε α) : Reads (σ := σ) (lift x) [] x := fun _ => rfl

/-- A step that looks at the whole input. -/
theorem Reads.get {f : List σ → Reader σ ε β}
    (hf : ∀ rest, f (enc ++ rest) (enc ++ rest) = y.map fun b => (b, rest)) :
    Reads (get >>= f) enc y := fun rest => hf rest

/-- A sequence of encodings is read one by one. -/
theorem Reads.many {ι : Type*} {val : ι → Except ε α} {l : List ι}
    {encs : List (List σ)} (h : List.Forall₂ (fun x enc => Reads r enc (val x)) l encs) :
    Reads (Reader.many l.length r) encs.flatten (l.mapM val) := by
  induction h with
  | nil => exact pure []
  | cons hx _ ih =>
    rw [mapM_cons]
    exact bind hx fun a _ => last ih fun as _ => pure (a :: as)

theorem Reads.many_ok {l : List α} {encs : List (List σ)}
    (h : List.Forall₂ (fun a enc => Reads r enc (.ok a)) l encs) :
    Reads (Reader.many l.length r) encs.flatten (.ok l) := by
  have hpure : l.mapM (fun a => (.ok a : Except ε α)) = .ok l :=
    Except.mapM_ok.2 (forall₂_same.2 fun _ _ => rfl)
  rw [← hpure]
  exact many h

/-! ## At the end of the input -/

/-- On the whole input `input` the reader ends with `x`, and has taken all of it. -/
def Ends (r : Reader σ ε α) (input : List σ) (x : Except ε α) : Prop :=
  r input = x.map fun a => (a, [])

theorem Reads.ends (h : Reads r enc x) : Ends r enc x := by
  have := h []
  rwa [append_nil] at this

theorem Ends.step {s t : List σ} (hr : Reads r s (.ok a)) (hf : Ends (f a) t y) :
    Ends (r >>= f) (s ++ t) y := by
  show (r (s ++ t)).bind _ = _
  rw [hr]
  exact hf

variable {input : List σ}

theorem Ends.quiet (hr : Reads r [] (.ok a)) (hf : Ends (f a) input y) : Ends (r >>= f) input y :=
  Ends.step hr hf

/-! ## What every result of a reader satisfies -/

/-- Whatever the reader ends with satisfies `P`. -/
def Ensures (r : Reader σ ε α) (P : α → Prop) : Prop :=
  ∀ input a rest, r input = .ok (a, rest) → P a

theorem bind_ok {out : β × List σ} :
    (r >>= f) input = .ok out ↔ ∃ a rest, r input = .ok (a, rest) ∧ f a rest = .ok out := by
  show (r input).bind _ = _ ↔ _
  cases hr : r input with
  | error e => simp [Except.bind]
  | ok p =>
    obtain ⟨a, rest⟩ := p
    simp [Except.bind]

theorem Ensures.bind {P : α → Prop} {Q : β → Prop}
    (hr : Ensures r P) (hf : ∀ a, P a → Ensures (f a) Q) : Ensures (r >>= f) Q := by
  intro input b rest h
  obtain ⟨a, mid, ha, hb⟩ := bind_ok.1 h
  exact hf a (hr _ _ _ ha) _ _ _ hb

/-- A step whose result does not matter. -/
theorem Ensures.skip {Q : β → Prop} (hf : ∀ a, Ensures (f a) Q) : Ensures (r >>= f) Q :=
  Ensures.bind (P := fun _ => True) (fun _ _ _ _ => trivial) fun a _ => hf a

theorem Ensures.pure {P : α → Prop} (h : P a) : Ensures (Pure.pure a : Reader σ ε α) P := by
  intro input b rest hb
  cases hb
  exact h

theorem Ensures.check {e : ε} : Ensures (σ := σ) (check ok e) fun _ => ok = true := by
  intro input b rest h
  unfold Reader.check at h
  split_ifs at h with hok
  exact hok

theorem Ensures.lift : Ensures (σ := σ) (lift x) fun a => x = .ok a := by
  intro input b rest h
  obtain ⟨a, ha, heq⟩ := Except.map_eq_ok.1 h
  cases heq
  exact ha

/-! ## What a reader has taken -/

theorem take_ok {n : ℕ} {e : ε} {input v rest : List σ} :
    take n e input = .ok (v, rest) ↔ v.length = n ∧ input = v ++ rest := by
  unfold take
  constructor
  · intro h
    split_ifs at h with hn
    obtain ⟨rfl, rfl⟩ := Prod.mk.inj (Except.ok.inj h)
    exact ⟨length_take_of_le hn, (take_append_drop n input).symm⟩
  · rintro ⟨rfl, rfl⟩
    rw [if_pos (by rw [length_append]; omega), take_left, drop_left]

/-- What the reader takes is one of the encodings `W` of its result, but for places it does not look
at, where the encoding has the symbol `z`. -/
def Takes (z : σ) (r : Reader σ ε α) (W : α → List σ → Prop) : Prop :=
  ∀ input a rest, r input = .ok (a, rest) → ∃ enc out, input = enc ++ rest ∧ W a out ∧
    enc.length = out.length ∧
    Reads r enc (.ok a) ∧ ∀ i, enc[i]? = out[i]? ∨
      (out[i]? = some z ∧ ∀ s, Reads r (enc.set i s) (.ok a))

variable {z : σ} {V : α → List σ → Prop} {W : β → List σ → Prop}

/-- A reader that looks at all it takes. -/
theorem Takes.exact
    (h : ∀ input a rest, r input = .ok (a, rest) → ∃ out, input = out ++ rest ∧ V a out ∧
      Reads r out (.ok a)) :
    Takes z r V := by
  intro input a rest hr
  obtain ⟨out, hinput, hout, hreads⟩ := h input a rest hr
  exact ⟨out, out, hinput, hout, rfl, hreads, fun _ => .inl rfl⟩

theorem Takes.pure (h : V a []) : Takes z (Pure.pure a : Reader σ ε α) V := by
  refine exact fun input b rest hb => ?_
  cases hb
  exact ⟨[], rfl, h, Reads.pure a⟩

theorem Takes.check {e : ε} : Takes z (check ok e) fun _ out => out = [] ∧ ok = true := by
  refine exact fun input _ rest h => ?_
  have hok := Ensures.check _ _ _ h
  rw [hok] at h
  cases h
  exact ⟨[], rfl, ⟨rfl, hok⟩, Reads.check hok e⟩

theorem Takes.bind (hr : Takes z r V)
    (hf : ∀ a out, V a out → Takes z (f a) fun b out' => W b (out ++ out')) :
    Takes z (r >>= f) W := by
  intro input b rest h
  obtain ⟨a, mid, ha, hb⟩ := bind_ok.1 h
  obtain ⟨enc, out, rfl, hout, hlength, hreads, hsame⟩ := hr _ _ _ ha
  obtain ⟨enc', out', rfl, hout', hlength', hreads', hsame'⟩ := hf a out hout _ _ _ hb
  refine ⟨enc ++ enc', out ++ out', (append_assoc ..).symm,
    hout', by simp [hlength, hlength'], Reads.step hreads hreads', ?_⟩
  intro i
  by_cases hi : i < enc.length
  · rw [getElem?_append_left hi, getElem?_append_left (hlength ▸ hi)]
    refine (hsame i).imp_right fun ⟨hz, hany⟩ => ⟨hz, fun s => ?_⟩
    rw [set_append_left _ _ hi]
    exact Reads.step (hany s) hreads'
  · rw [getElem?_append_right (by omega), getElem?_append_right (by omega), ← hlength]
    refine (hsame' _).imp_right fun ⟨hz, hany⟩ => ⟨hz, fun s => ?_⟩
    rw [set_append_right _ _ (by omega)]
    exact Reads.step hreads (hany s)

theorem Takes.imp {V' : α → List σ → Prop} (h : Takes z r V) (himp : ∀ a out, V a out → V' a out) :
    Takes z r V' := by
  intro input a rest hr
  obtain ⟨enc, out, hinput, hout, hrest⟩ := h input a rest hr
  exact ⟨enc, out, hinput, himp a out hout, hrest⟩

theorem Takes.many {write : α → List σ} (hr : Takes z r fun a out => out = write a) (n : ℕ) :
    Takes z (many n r) fun as out => as.length = n ∧ out = (as.map write).flatten := by
  induction n with
  | zero => exact pure ⟨rfl, rfl⟩
  | succ n ih =>
    refine bind hr fun a out hout => bind ih fun as outs houts => pure ?_
    obtain ⟨hlength, houts⟩ := houts
    rw [length_cons, hlength, hout, houts, append_nil]
    exact ⟨rfl, rfl⟩

end Reader
