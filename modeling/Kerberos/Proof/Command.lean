import Kerberos.Spec.Command

/-!
# Arguments through a command line

Script mode joins the arguments with spaces and splits them again. They come out as they were given
exactly if none of them is empty, or has a character in it that the splitter acts on, or is not
UTF-8 (`script_passes_on`).
-/

namespace Kerberos.KAdmin

open List Runes

/-- The bytes that the splitter acts on. -/
def special : Bytes := [0x5C, 0x27, 0x22, 0x20, 0x09, 0x0D, 0x0A]

/-- An argument that the splitter takes as it is. -/
structure Plain (a : Bytes) : Prop where
  ne_nil : a ≠ []
  valid : Valid a
  bytes : ∀ c ∈ a, c ∉ special

/-- The arguments joined for script mode. -/
def joined (args : List Bytes) : Bytes := [(0x20 : UInt8)].intercalate args

theorem joined_cons (a b : Bytes) (args : List Bytes) :
    joined (a :: b :: args) = a ++ 0x20 :: joined (b :: args) := by
  simp [joined]

theorem acted_on : special.map ([·]) = escape :: (quotes ++ blanks) := rfl

variable {r : Bytes} {s : Splitter}

/-- A character that is not acted on has no byte that is. -/
theorem not_special (hr : IsRune r) : r ∉ escape :: (quotes ++ blanks) ↔ ∀ c ∈ r, c ∉ special := by
  rw [← acted_on, mem_map, not_exists]
  constructor
  · rintro h c hc hspecial
    have hascii : ∀ c ∈ special, c < 0x80 := by simp [special]
    exact h c ⟨hspecial, (hr.eq_of_mem (hascii c hspecial) hc).symm⟩
  · rintro h c ⟨hspecial, rfl⟩
    exact h c (mem_singleton_self c) hspecial

/-! ## Plain arguments -/

theorem foldl_plain {a : Bytes} (ha : Plain a) (out : List Bytes) :
    (runes a).foldl Splitter.next ⟨out, [], none, false⟩ = ⟨out, a, none, false⟩ := by
  have hrunes : ∀ r ∈ runes a, r ∉ escape :: (quotes ++ blanks) := by
    intro r hr
    refine (not_special (isRune_of_mem hr)).2 fun c hc => ha.bytes c ?_
    rw [← ha.valid]
    exact mem_flatten_of_mem hr hc
  have hfold : ∀ (cs : List Bytes) (b : Bytes), (∀ r ∈ cs, r ∉ escape :: (quotes ++ blanks)) →
      cs.foldl Splitter.next ⟨out, b, none, false⟩ = ⟨out, b ++ cs.flatten, none, false⟩ := by
    intro cs
    induction cs with
    | nil => simp
    | cons r cs ih =>
      intro b hcs
      have hr := hcs r mem_cons_self
      simp only [mem_cons, mem_append, not_or] at hr
      rw [foldl_cons]
      simp only [Splitter.next, contains_iff_mem, Bool.false_eq_true, if_false, hr]
      rw [ih _ fun r' hr' => hcs r' (mem_cons_of_mem _ hr'), flatten_cons, append_assoc]
  rw [hfold _ [] hrunes, ha.valid, nil_append]

/-- Plain arguments are taken one after the other, the last of them without a space behind it. -/
theorem foldl_joined (first : Bytes) (rest : List Bytes) (h : ∀ a ∈ first :: rest, Plain a)
    (out : List Bytes) :
    ∃ done last, (runes (joined (first :: rest))).foldl Splitter.next ⟨out, [], none, false⟩ =
      ⟨done, last, none, false⟩ ∧ last ≠ [] ∧ done ++ [last] = out ++ first :: rest := by
  induction rest generalizing first out with
  | nil =>
    have hfirst := h first mem_cons_self
    refine ⟨out, first, ?_, hfirst.ne_nil, rfl⟩
    rw [joined, intercalate_singleton, foldl_plain hfirst]
  | cons second rest ih =>
    have hfirst := h first mem_cons_self
    obtain ⟨done, last, hfold, hne, heq⟩ :=
      ih second (fun a ha => h a (mem_cons_of_mem _ ha)) (out ++ [first])
    refine ⟨done, last, ?_, hne, by rw [heq, append_assoc, singleton_append]⟩
    have hblank : Splitter.next ⟨out, first, none, false⟩ [0x20] =
        ⟨out ++ [first], [], none, false⟩ := by
      simp [Splitter.next, Splitter.flush, escape, quotes, blanks, hfirst.ne_nil]
    rw [joined_cons, hfirst.valid.runes_append, runes_cons_ascii (by decide), foldl_append,
      foldl_plain hfirst, foldl_cons, hblank, hfold]

theorem splitCommand_joined {first : Bytes} {rest : List Bytes} (h : ∀ a ∈ first :: rest, Plain a) :
    splitCommand (joined (first :: rest)) = .ok (first :: rest) := by
  obtain ⟨done, last, hfold, hne, heq⟩ := foldl_joined first rest h []
  rw [splitCommand, hfold]
  simpa [Splitter.flush, hne, Except.ensure_of] using heq

/-! ## What a line is read as -/

/-- The characters kept, and one for each argument that is complete. -/
def Splitter.size (s : Splitter) : ℕ := s.out.length + s.out.flatten.length + s.b.length

/-- The splitter after `n` bytes. A character that is not kept makes `size` fall behind for good,
unless it ends an argument, so that where it has not there was neither a quote nor an escape. -/
structure Kept (n : ℕ) (s : Splitter) : Prop where
  size : s.size ≤ n
  begun : Valid s.b
  complete : ∀ a ∈ s.out, a ≠ [] ∧ Valid a
  plain : s.size = n → s.escaped = false ∧ s.quote = none ∧ ∀ c ∈ s.out.flatten ++ s.b, c ∉ special

variable {n : ℕ}

theorem Kept.write (h : Kept n s) (hr : IsRune r)
    (hplain : s.escaped = false → s.quote = none → r ∉ escape :: (quotes ++ blanks)) :
    Kept (n + r.length) { s with b := s.b ++ r, escaped := false } := by
  have hsize : { s with b := s.b ++ r, escaped := false : Splitter }.size = s.size + r.length := by
    simp [Splitter.size, add_assoc]
  refine ⟨?_, h.begun.append hr.valid, h.complete, fun heq => ?_⟩
  · exact hsize.trans_le (Nat.add_le_add_right h.size _)
  · obtain ⟨hescaped, hquote, hbytes⟩ := h.plain (add_right_cancel (hsize.symm.trans heq))
    refine ⟨rfl, hquote, ?_⟩
    rw [← append_assoc]
    exact forall_mem_append.2 ⟨hbytes, (not_special hr).1 (hplain hescaped hquote)⟩

/-- A character that is dropped. -/
theorem Kept.skip (h : Kept n s) (hr : IsRune r) {quote : Option Bytes} {escaped : Bool} :
    Kept (n + r.length) { s with quote, escaped } := by
  have hpos := length_pos_of_ne_nil hr.ne_nil
  have hsize : { s with quote, escaped : Splitter }.size ≤ n := h.size
  exact ⟨by omega, h.begun, h.complete, fun _ => by omega⟩

theorem Kept.flushed (h : Kept n s) : ∀ a ∈ s.flush.out, a ≠ [] ∧ Valid a := by
  unfold Splitter.flush
  split_ifs with hb
  · exact h.complete
  · exact forall_mem_append.2 ⟨h.complete, forall_mem_singleton.2 ⟨hb, h.begun⟩⟩

/-- The end of an argument counts for the blank behind it. -/
theorem Kept.flush (h : Kept n s) (hr : IsRune r) : Kept (n + r.length) s.flush := by
  have hcomplete := h.flushed
  unfold Splitter.flush at hcomplete ⊢
  split_ifs at hcomplete ⊢ with hb
  · exact h.skip hr
  · have hpos := length_pos_of_ne_nil hr.ne_nil
    have hbound := h.size
    have hsize : { s with out := s.out ++ [s.b], b := [] : Splitter }.size = s.size + 1 := by
      simp [Splitter.size]
      omega
    refine ⟨by omega, valid_nil, hcomplete, fun heq => ?_⟩
    simpa using h.plain (by omega)

theorem Kept.next (h : Kept n s) (hr : IsRune r) : Kept (n + r.length) (s.next r) := by
  obtain ⟨out, b, quote, escaped⟩ := s
  cases escaped with
  | true => exact h.write hr fun h' => by cases h'
  | false =>
    cases quote with
    | some quote =>
      simp only [Splitter.next, Bool.false_eq_true, if_false]
      split_ifs
      · exact h.skip hr
      · exact h.skip hr
      · exact h.write hr fun _ h' => by cases h'
    | none =>
      simp only [Splitter.next, contains_iff_mem, Bool.false_eq_true, if_false]
      split_ifs with hescape hquote hblank
      · exact h.skip hr
      · exact h.skip hr
      · exact h.flush hr
      · exact h.write hr fun _ _ => by simp [hescape, hquote, hblank]

theorem kept_foldl {cs : List Bytes} (hcs : ∀ r ∈ cs, IsRune r) (h : Kept n s) :
    Kept (n + cs.flatten.length) (cs.foldl Splitter.next s) := by
  induction cs generalizing n s with
  | nil => exact h
  | cons r cs ih =>
    rw [flatten_cons, length_append, ← add_assoc]
    exact ih (fun r' hr' => hcs r' (mem_cons_of_mem _ hr')) (h.next (hcs r mem_cons_self))

/-- Valid arguments give a valid line, with a space between any two of them. -/
theorem joined_valid (first : Bytes) (rest : List Bytes) (h : ∀ a ∈ first :: rest, Valid a) :
    Valid (joined (first :: rest)) ∧
      (joined (first :: rest)).length = rest.length + (first :: rest).flatten.length := by
  induction rest generalizing first with
  | nil => simpa [joined] using h
  | cons second rest ih =>
    obtain ⟨hfirst, hrest⟩ := forall_mem_cons.1 h
    obtain ⟨hvalid, hlength⟩ := ih second hrest
    rw [joined_cons]
    refine ⟨hfirst.append ((isRune_ascii (by decide)).valid.append hvalid), ?_⟩
    rw [length_append, length_cons, flatten_cons, length_append, length_cons]
    omega

theorem plain_of_splitCommand {first : Bytes} {rest : List Bytes}
    (h : splitCommand (joined (first :: rest)) = .ok (first :: rest)) :
    ∀ a ∈ first :: rest, Plain a := by
  have hstart : Kept 0 {} := ⟨le_rfl, valid_nil, by simp, by simp⟩
  have hkept := kept_foldl (fun r hr => isRune_of_mem (s := joined (first :: rest)) hr) hstart
  rw [splitCommand] at h
  generalize (runes (joined (first :: rest))).foldl Splitter.next {} = s at h hkept
  obtain ⟨_, _, hout⟩ := Except.bind_ok.1 h
  have hout : s.flush.out = first :: rest := Except.ok.inj hout
  have hflushed := hkept.flushed
  rw [hout] at hflushed
  obtain ⟨hvalid, hlength⟩ := joined_valid first rest fun a ha => (hflushed a ha).2
  rw [hvalid, hlength] at hkept
  have hsize := hkept.size
  unfold Splitter.size at hsize
  unfold Splitter.flush at hout
  split_ifs at hout with hb
  · -- with a blank at its end the line would be longer
    rw [hout, length_cons] at hsize
    omega
  · have hcount := congrArg length hout
    have hflatten := congrArg flatten hout
    rw [flatten_append, flatten_singleton] at hflatten
    obtain ⟨-, -, hbytes⟩ := hkept.plain (by
      rw [← hflatten, Splitter.size]
      simp only [length_append, length_cons, length_nil] at hcount ⊢
      omega)
    rw [hflatten] at hbytes
    exact fun a ha =>
      ⟨(hflushed a ha).1, (hflushed a ha).2, fun c hc => hbytes c (mem_flatten_of_mem ha hc)⟩

/-! ## Script mode -/

/-- An engine that notes what it is given to execute. -/
def recorder : Engine (List (List Bytes)) where
  executeArgs args s := (.ok false, s ++ [args])

/-- **Arguments reach the engine as they are** exactly if each of them is plain. -/
theorem script_passes_on (first : Bytes) (rest : List Bytes) :
    (∀ (σ : Type) (e : Engine σ) (lines : List Bytes) (failure : Option String) (s : σ),
      e.runInteractive [] (first :: rest) lines failure s =
        returned (e.executeArgs (first :: rest) s)) ↔
    ∀ a ∈ first :: rest, Plain a := by
  have hscript : ∀ {σ : Type} (e : Engine σ) lines failure s,
    e.runInteractive [] (first :: rest) lines failure s =
      returned (e.execute (joined (first :: rest)) s) := fun _ _ _ _ => rfl
  constructor
  · intro h
    have hrecorded := h _ recorder [] none []
    rw [hscript, Engine.execute] at hrecorded
    refine plain_of_splitCommand ?_
    -- an error and an empty line leave nothing recorded
    generalize splitCommand (joined (first :: rest)) = split at hrecorded ⊢
    rcases split with _ | _ | ⟨a, args⟩
    · simp [returned, recorder] at hrecorded
    · simp [returned, recorder] at hrecorded
    · simpa [returned, recorder] using hrecorded
  · intro h σ e lines failure s
    rw [hscript, Engine.execute, splitCommand_joined h]

/-- A password with a space in it is cut in two: five arguments are executed, and not the four. -/
theorem script_cuts_password :
    recorder.runInteractive [] [str "cpw", str "-pw", str "a b", str "u"] [] none [] =
      (.ok (), [[str "cpw", str "-pw", str "a", str "b", str "u"]]) ∧
    returned (recorder.executeArgs [str "cpw", str "-pw", str "a b", str "u"] []) =
      (.ok (), [[str "cpw", str "-pw", str "a b", str "u"]]) :=
  ⟨rfl, rfl⟩

end Kerberos.KAdmin
