import Kerberos.Lib.Text
import Kerberos.Spec.Database

/-!
# Display names read back

The display form of a principal parses to the same realm and components
(`parsePrincipal_format`), and has neither a tab nor a newline in it
(`freeOf_format`). A name that parses has a display form (`parsePrincipal_displayable`), so that a
display form stands for one realm and one list of components (`display_form_faithful`).
-/

namespace Kerberos

open List

/-! ## The scan over escaped text -/

/-- A scan that takes plain bytes as they are, and escaped ones without the escape. -/
structure ScansBytes {α : Type} (scan : Bytes → Bytes → α) : Prop where
  byte : ∀ {c}, c ≠ backslash ∧ c ≠ slash ∧ c ≠ atSign → ∀ rest part, scan (c :: rest) part =
    scan rest (part ++ [c])
  escape : ∀ c rest part, scan (backslash :: c :: rest) part = scan rest (part ++ [unescapeByte c])

section Scan

variable {α : Type} {scan : Bytes → Bytes → α} (h : ScansBytes scan)

include h

theorem ScansBytes.escaped (c : UInt8) (rest part : Bytes) :
    scan (escapeByte c ++ rest) part = scan rest (part ++ [c]) := by
  -- one case for each branch of the writer: an escaped byte, a letter escape, a plain byte
  unfold escapeByte
  split_ifs with hs ht hn hb h0
  · have hc : unescapeByte c = c := by
      rcases hs with rfl | rfl | rfl <;> decide
    show scan (backslash :: c :: rest) _ = _
    rw [h.escape, hc]
  · subst ht
    exact h.escape 116 rest part
  · subst hn
    exact h.escape 110 rest part
  · subst hb
    exact h.escape 98 rest part
  · subst h0
    exact h.escape 48 rest part
  · simp only [not_or] at hs
    exact h.byte ⟨hs.2.2, hs.1, hs.2.1⟩ rest part

theorem ScansBytes.writeEscaped (value rest part : Bytes) :
    scan (writeEscaped value ++ rest) part = scan rest (part ++ value) := by
  induction value generalizing part with
  | nil => simp [Kerberos.writeEscaped]
  | cons c value ih =>
    show scan ((escapeByte c ++ Kerberos.writeEscaped value) ++ rest) _ = _
    rw [append_assoc, h.escaped, ih, append_assoc, singleton_append]

end Scan

theorem scansBytes_components (components : List Bytes) :
    ScansBytes fun input component => parseComponents input components component := by
  refine ⟨fun {c} ⟨hb, hs, ha⟩ rest component => ?_,
    fun c rest component => by rw [parseComponents, if_pos rfl]⟩
  cases rest with
  | nil => simp [parseComponents, hb, hs, ha]
  | cons d rest => simp [parseComponents, hb, hs, ha]

theorem scansBytes_realm (components : List Bytes) : ScansBytes (parseRealm components) := by
  refine ⟨fun {c} ⟨hb, hs, ha⟩ rest realm => ?_, fun c rest realm => by rw [parseRealm, if_pos rfl]⟩
  cases rest with
  | nil => simp [parseRealm, hb, hs, ha]
  | cons d rest => simp [parseRealm, hb, hs, ha]

variable (rest : Bytes) (components : List Bytes)

variable {component : Bytes}

theorem parseComponents_slash (h : component ≠ []) :
    parseComponents (slash :: rest) components component =
      parseComponents rest (components ++ [component]) [] := by
  have hne : slash ≠ backslash := by decide
  cases rest with
  | nil => simp [parseComponents, hne, h]
  | cons d rest => simp [parseComponents, hne, h]

theorem parseComponents_at (h : component ≠ []) :
    parseComponents (atSign :: rest) components component =
      parseRealm (components ++ [component]) rest [] := by
  have hb : atSign ≠ backslash := by decide
  have hs : atSign ≠ slash := by decide
  cases rest with
  | nil => simp [parseComponents, hb, hs, h]
  | cons d rest => simp [parseComponents, hb, hs, h]

variable {realm : Bytes}

/-- The bytes that mean something in a display name. -/
def nameBytes : Bytes := [slash, atSign, backslash]

/-- A realm without such bytes is read as it is. -/
theorem parseRealm_plain {value : Bytes} (hplain : Text.FreeOf nameBytes value)
    (components : List Bytes) (h : realm ++ value ≠ []) :
    parseRealm components value realm = .ok ⟨realm ++ value, NTPrincipal, components⟩ := by
  induction value generalizing realm with
  | nil =>
    have hne : realm ≠ [] := by simpa using h
    simp [parseRealm, hne]
  | cons c value ih =>
    have hc := hplain c (by simp)
    simp only [nameBytes, mem_cons, not_mem_nil, or_false, not_or] at hc
    rw [(scansBytes_realm components).byte ⟨hc.2.2, hc.1, hc.2.1⟩,
      ih (fun d hd => hplain d (mem_cons_of_mem _ hd)) (by simp), append_assoc,
      singleton_append]

/-! ## Display names -/

theorem parseComponents_intercalate (hne : components ≠ [])
    (hcomp : [] ∉ components) (rest : Bytes) (before : List Bytes) :
    parseComponents ([slash].intercalate (components.map writeEscaped) ++ atSign ::
      rest) before [] =
      parseRealm (before ++ components) rest [] := by
  induction components generalizing before with
  | nil => exact absurd rfl hne
  | cons c components ih =>
    rw [mem_cons, not_or] at hcomp
    cases components with
    | nil =>
      simp only [map_cons, map_nil, intercalate_singleton]
      rw [(scansBytes_components _).writeEscaped, nil_append,
        parseComponents_at _ _ (Ne.symm hcomp.1)]
    | cons d components =>
      rw [map_cons, map_cons, intercalate_cons_cons, ← map_cons,
        append_assoc, append_assoc, (scansBytes_components _).writeEscaped, nil_append,
        singleton_append, parseComponents_slash _ _ (Ne.symm hcomp.1),
        ih (by simp) hcomp.2, append_assoc, singleton_append]

/-- The name as a dump gives it back: the display form has no name type. -/
def Principal.plain (p : Principal) : Principal := { p with nameType := NTPrincipal }

variable {p : Principal} {name : Bytes}

theorem format_eq_ok : p.format = .ok name ↔
    (p.realm ≠ [] ∧ p.components ≠ [] ∧ [] ∉ p.components) ∧
      name = [slash].intercalate (p.components.map writeEscaped) ++ [atSign] ++
        writeEscaped p.realm := by
  unfold Principal.format
  split_ifs with hr hc he
  · simp [hr]
  · simp [hc]
  · simp [he]
  · simp [hr, hc, he, eq_comm]

theorem format_ne_nil (h : p.format = .ok name) : name ≠ [] := by
  rw [(format_eq_ok.1 h).2]
  simp

/-- **Display names read back.** -/
theorem parsePrincipal_format (h : p.format = .ok name) : parsePrincipal name = .ok p.plain := by
  obtain ⟨⟨hr, hc, he⟩, hname⟩ := format_eq_ok.1 h
  rw [parsePrincipal, if_neg (format_ne_nil h), hname, append_assoc, singleton_append,
    parseComponents_intercalate _ hc he, ← append_nil (writeEscaped p.realm),
      (scansBytes_realm _).writeEscaped,
    parseRealm, if_neg (by simpa using hr)]
  rfl

/-- A name given as constant components before a plain realm. -/
theorem parsePrincipal_plain (hne : components ≠ [])
    (hcomp : [] ∉ components) (hrealm : realm ≠ []) (hplain : Text.FreeOf nameBytes realm) :
    parsePrincipal ([slash].intercalate (components.map writeEscaped) ++ atSign :: realm) =
      .ok ⟨realm, NTPrincipal, components⟩ := by
  rw [parsePrincipal, if_neg (by simp), parseComponents_intercalate _ hne hcomp, nil_append,
    parseRealm_plain hplain _ (by simpa using hrealm), nil_append]

/-! ## Parsed names -/

/-- The name has a display form. -/
def Displayable (name : Principal) : Prop := ∃ text, name.format = .ok text

theorem displayable_iff {name : Principal} :
    Displayable name ↔ name.realm ≠ [] ∧ name.components ≠ [] ∧ [] ∉ name.components := by
  constructor
  · rintro ⟨text, h⟩
    exact (format_eq_ok.1 h).1
  · intro h
    exact ⟨_, format_eq_ok.2 ⟨h, rfl⟩⟩

theorem parseRealm_displayable {components : List Bytes} {input : Bytes} {name : Principal}
    (h : parseRealm components input realm = .ok name) (hne : components ≠ [])
    (hcomp : [] ∉ components) :
    Displayable name := by
  fun_induction parseRealm components input realm with
  | case1 | case3 | case4 | case5 | case8 | case9 => cases h
  | case2 realm hrealm =>
    cases h
    exact displayable_iff.2 ⟨hrealm, hne, hcomp⟩
  | case6 _ _ _ _ _ ih => exact ih h
  | case7 _ _ _ ih => exact ih h
  | case10 _ _ _ _ _ _ _ ih => exact ih h

theorem parseComponents_displayable {input : Bytes} {components : List Bytes}
    {name : Principal} (h : parseComponents input components component = .ok name)
    (hcomp : [] ∉ components) : Displayable name := by
  -- a component is finished only when it is not empty
  have hfinish : ∀ {components : List Bytes} {component : Bytes}, ¬ component = [] →
    [] ∉ components →
      [] ∉ components ++ [component] := by
    intro components component hne hcomp
    simp only [mem_append, mem_singleton, not_or]
    exact ⟨hcomp, fun h => hne h.symm⟩
  fun_induction parseComponents input components component with
  | case1 | case2 | case3 | case8 => cases h
  | case4 _ _ hne _ _ ih => exact ih h (hfinish hne hcomp)
  | case5 _ _ _ _ _ hne _ => exact parseRealm_displayable h (by simp) (hfinish hne hcomp)
  | case6 _ _ _ _ _ ih => exact ih h hcomp
  | case7 _ _ _ _ ih => exact ih h hcomp
  | case9 _ _ _ _ hne _ _ ih => exact ih h (hfinish hne hcomp)
  | case10 _ _ _ _ _ _ _ hne _ => exact parseRealm_displayable h (by simp) (hfinish hne hcomp)
  | case11 _ _ _ _ _ _ _ ih => exact ih h hcomp

theorem parsePrincipal_displayable {text : Bytes} {name : Principal}
    (h : parsePrincipal text = .ok name) :
    Displayable name := by
  unfold parsePrincipal at h
  split_ifs at h
  exact parseComponents_displayable h (by simp)

/-- **The display form is faithful**: a name with a realm and components, none of them empty, is
read back from it, so is a name that was read, and two names with one display form have the same
parts. -/
theorem display_form_faithful :
    (∀ p : Principal, p.realm ≠ [] ∧ p.components ≠ [] ∧ [] ∉ p.components →
      ∃ text, p.format = .ok text ∧
      ∃ q, parsePrincipal text = .ok q ∧ q.realm = p.realm ∧ q.components = p.components) ∧
    (∀ s p, parsePrincipal s = .ok p → ∃ text, p.format = .ok text ∧
      ∃ q, parsePrincipal text = .ok q ∧ q.realm = p.realm ∧ q.components = p.components) ∧
    ∀ (p q : Principal) (text : Bytes), p.format = .ok text → q.format = .ok text →
      p.realm = q.realm ∧ p.components = q.components := by
  have hback : ∀ p : Principal, Displayable p → ∃ text, p.format = .ok text ∧
      ∃ q, parsePrincipal text = .ok q ∧ q.realm = p.realm ∧ q.components = p.components := by
    rintro p ⟨text, htext⟩
    exact ⟨text, htext, p.plain, parsePrincipal_format htext, rfl, rfl⟩
  refine ⟨fun p hp => hback p (displayable_iff.2 hp),
    fun s p hs => hback p (parsePrincipal_displayable hs), ?_⟩
  intro p q text hp hq
  have hplain : p.plain = q.plain :=
    Except.ok.inj ((parsePrincipal_format hp).symm.trans (parsePrincipal_format hq))
  injection hplain with hrealm _ hcomponents
  exact ⟨hrealm, hcomponents⟩

/-- A component with a slash in it and a realm with a zero byte. -/
theorem display_form_faithful_escaped :
    ∃ text, (⟨[0], 3, [str "a/b"]⟩ : Principal).format = .ok text ∧
    ∃ q, parsePrincipal text = .ok q ∧ q.realm = [0] ∧ q.components = [str "a/b"] :=
  display_form_faithful.1 ⟨[0], 3, [str "a/b"]⟩ (by decide)

@[simp]
theorem normalSalt_plain (p : Principal) : normalSalt p.plain = normalSalt p := rfl

theorem freeOf_escapeByte (c : UInt8) : Text.FreeOf [tab, newline] (escapeByte c) := by
  unfold escapeByte
  split_ifs with hs ht hn hb h0
  · intro d hd
    rcases mem_pair.1 hd with rfl | rfl
    · decide
    · rcases hs with rfl | rfl | rfl <;> decide
  · decide
  · decide
  · decide
  · decide
  · intro d hd
    rw [mem_singleton.1 hd]
    simp [ht, hn]

theorem freeOf_writeEscaped (value : Bytes) : Text.FreeOf [tab, newline] (writeEscaped value) := by
  intro c hc
  obtain ⟨b, _, hc⟩ := mem_flatMap.1 hc
  exact freeOf_escapeByte b c hc

theorem freeOf_format (h : p.format = .ok name) : Text.FreeOf [tab, newline] name := by
  rw [(format_eq_ok.1 h).2]
  refine (Text.FreeOf.append ?_ (by decide)).append (freeOf_writeEscaped _)
  intro c hc
  rcases Text.mem_joinFields hc with rfl | ⟨f, hf, hc⟩
  · decide
  · obtain ⟨v, _, rfl⟩ := mem_map.1 hf
    exact freeOf_writeEscaped v c hc

end Kerberos
