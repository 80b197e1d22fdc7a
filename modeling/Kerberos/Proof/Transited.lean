import Kerberos.Spec.Transited

/-!
# Transited realms read back

A field says nothing of the rule it was written by: the decoder goes by its first and last
byte alone. So the realms read back are those written only if no name looks like a field of
another kind behind its neighbour. `Told` is the exact condition on two neighbours.

* `compress_escape`: the field for a realm is an escaped part of its name.
* `scan_intercalate`: the decoder reads the escaped fields one by one.
* `read_eq_iff`: what one field is read as, behind the realm before it.
* `transited_round_trip`: the whole list, and the list with one realm more.
-/

namespace Kerberos.Transited

open Runes List Except

/-! ## Escapes -/

variable (c : UInt8)

/-- One byte of an escaped name. -/
def escapedByte : Bytes := if c = backslash ∨ c = comma then [backslash, c] else [c]

theorem escapeTransited_eq (value : Bytes) : escapeTransited value = value.flatMap escapedByte := by
  unfold escapeTransited replaceAll
  rw [flatMap_assoc]
  refine flatMap_congr fun c _ => ?_
  unfold escapedByte
  by_cases hb : c = backslash
  · subst hb
    rfl
  · by_cases hc : c = comma
    · subst hc
      rfl
    · simp [hb, hc]

@[simp] theorem escape_nil : escapeTransited [] = [] := rfl

theorem escape_cons (value : Bytes) :
    escapeTransited (c :: value) = escapedByte c ++ escapeTransited value := by
  simp only [escapeTransited_eq, flatMap_cons]

theorem escape_append (a b : Bytes) :
    escapeTransited (a ++ b) = escapeTransited a ++ escapeTransited b := by
  simp only [escapeTransited_eq, flatMap_append]

theorem escapedByte_ne_nil : escapedByte c ≠ [] := by
  unfold escapedByte
  split_ifs <;> simp

variable {value : Bytes}

theorem escape_eq_nil_iff : escapeTransited value = [] ↔ value = [] := by
  cases value with
  | nil => simp
  | cons c rest => simp [escape_cons, escapedByte_ne_nil]

variable {a b : Bytes}

/-- No escaped byte begins like another. -/
theorem escape_prefix_iff : escapeTransited a <+: escapeTransited b ↔ a <+: b := by
  constructor
  · intro h
    induction a generalizing b with
    | nil => exact nil_prefix
    | cons c a ih =>
      cases b with
      | nil => simp [escape_cons, escapedByte_ne_nil] at h
      | cons d b =>
        have hcd : c = d ∧ escapeTransited a <+: escapeTransited b := by
          rw [escape_cons, escape_cons] at h
          unfold escapedByte at h
          split_ifs at h with hc hd hd <;>
            simp only [cons_append, nil_append, cons_prefix_cons] at h
          · exact h.2
          · exact absurd (Or.inl h.1.symm) hd
          · exact absurd (Or.inl h.1) hc
          · exact h
        rw [hcd.1, cons_prefix_cons]
        exact ⟨rfl, ih hcd.2⟩
  · rintro ⟨t, rfl⟩
    rw [escape_append]
    exact prefix_append _ _

theorem escape_inj (h : escapeTransited a = escapeTransited b) : a = b := by
  have hab : a <+: b := escape_prefix_iff.1 (h ▸ prefix_rfl)
  have hba : b <+: a := escape_prefix_iff.1 (h ▸ prefix_rfl)
  exact hab.eq_of_length_le hba.length_le

theorem escape_dot (value : Bytes) :
    escapeTransited (dot :: value) = dot :: escapeTransited value :=
  escape_cons dot value

/-- A dot is never part of an escape, so what follows one is an escaped name of its own. -/
theorem escape_suffix_iff : dot :: escapeTransited a <:+ escapeTransited b ↔ dot :: a <:+ b := by
  constructor
  · intro h
    induction b with
    | nil => simp at h
    | cons c b ih =>
      rw [escape_cons] at h
      unfold escapedByte at h
      split_ifs at h with hc
      · -- the dot is neither of the two bytes of an escape
        simp only [cons_append, suffix_cons_iff, cons.injEq] at h
        rcases h with ⟨h, -⟩ | ⟨h, -⟩ | h
        · exact absurd h (by decide)
        · rw [← h] at hc
          exact absurd hc (by decide)
        · exact (ih h).trans (suffix_cons _ _)
      · rw [singleton_append, suffix_cons_iff, cons.injEq] at h
        rcases h with ⟨rfl, h⟩ | h
        · rw [escape_inj h]
        · exact (ih h).trans (suffix_cons _ _)
  · rintro ⟨t, rfl⟩
    rw [escape_append]
    exact suffix_append _ _

theorem escape_slash_iff : [slash] <+: escapeTransited value ↔ [slash] <+: value :=
  escape_prefix_iff (a := [slash])

theorem escape_space_iff : [space] <+: escapeTransited value ↔ [space] <+: value :=
  escape_prefix_iff (a := [space])

theorem escape_ends_iff : [dot] <:+ escapeTransited value ↔ [dot] <:+ value :=
  escape_suffix_iff (a := [])

/-! ## Fields -/

/-- The part of a realm's name that its field has, behind another realm. -/
def fieldOf (previous realm : Bytes) : Bytes :=
  if previous ++ [slash] <+: realm then realm.drop previous.length
  else if dot :: previous <:+ realm then realm.take (realm.length - previous.length)
  else realm

theorem prefix_drop_iff {p q s : Bytes} : (p <+: s ∧ q <+: s.drop p.length) ↔ p ++ q <+: s := by
  constructor
  · rintro ⟨⟨t, rfl⟩, h⟩
    rw [drop_left] at h
    exact (prefix_append_right_inj p).2 h
  · rintro ⟨t, rfl⟩
    rw [append_assoc, drop_left]
    exact ⟨prefix_append _ _, prefix_append _ _⟩

theorem suffix_before_iff {p s : Bytes} : (p.length < s.length ∧ p <:+ s ∧
    s[s.length - p.length - 1]? = some dot) ↔ dot :: p <:+ s := by
  constructor
  · rintro ⟨hlen, ⟨t, rfl⟩, hdot⟩
    rw [length_append, Nat.add_sub_cancel, getElem?_append_left, ← getLast?_eq_getElem?] at hdot
    · obtain ⟨u, rfl⟩ := getLast?_eq_some_iff.1 hdot
      exact ⟨u, by simp⟩
    · rw [length_append] at hlen
      omega
  · rintro ⟨t, rfl⟩
    refine ⟨by simp; omega, ⟨t ++ [dot], by simp⟩, ?_⟩
    have hlen : (t ++ dot :: p).length - p.length - 1 = t.length := by simp; omega
    rw [hlen]
    simp

/-- **The field of a realm** is the escaped part of its name. -/
theorem compress_escape (previous realm : Bytes) :
    compress (escapeTransited previous) (escapeTransited realm) =
      escapeTransited (fieldOf previous realm) := by
  have hslash : escapeTransited (previous ++ [slash]) = escapeTransited previous ++ [slash] :=
    escape_append _ _
  unfold compress fieldOf
  simp only [prefix_drop_iff, suffix_before_iff]
  simp only [← hslash, escape_prefix_iff, escape_suffix_iff]
  by_cases hp : previous ++ [slash] <+: realm
  · rw [if_pos hp, if_pos hp]
    obtain ⟨t, rfl⟩ := hp
    rw [append_assoc, escape_append, drop_left, drop_left]
  · rw [if_neg hp, if_neg hp]
    by_cases hs : dot :: previous <:+ realm
    · rw [if_pos hs, if_pos hs]
      obtain ⟨t, rfl⟩ := hs
      have htake : ∀ u v : Bytes, (u ++ dot :: v).take ((u ++ dot :: v).length - v.length) =
          u ++ [dot] := by
        intro u v
        rw [show u ++ dot :: v = (u ++ [dot]) ++ v by simp, length_append, Nat.add_sub_cancel,
          take_left]
      rw [escape_append, escape_dot, htake, htake, if_pos (suffix_append _ _), escape_append]
      rfl
    · rw [if_neg hs, if_neg hs]

variable {previous realm : Bytes}

theorem fieldOf_ne_nil (hne : realm ≠ []) : fieldOf previous realm ≠ [] := by
  unfold fieldOf
  split_ifs with hcont hdot
  · obtain ⟨t, rfl⟩ := hcont
    simp
  · have hlen := hdot.length_le
    rw [length_cons] at hlen
    rw [ne_eq, take_eq_nil_iff, not_or]
    exact ⟨by omega, hne⟩
  · exact hne

/-- The part of its name that the field of a realm has. -/
def rawField : Option Bytes → Bytes → Bytes
  | none, realm => realm
  | some previous, realm => fieldOf previous realm

theorem rawField_ne_nil (previous : Option Bytes) {realm : Bytes} (hne : realm ≠ []) :
    rawField previous realm ≠ [] := by
  cases previous with
  | none => exact hne
  | some previous => exact fieldOf_ne_nil hne

def rawFields : Option Bytes → List Bytes → List Bytes
  | _, [] => []
  | previous, realm :: realms => rawField previous realm :: rawFields (some realm) realms

variable {realms : List Bytes}

theorem ne_nil_of_mem_rawFields {previous : Option Bytes}
    (hne : ∀ realm ∈ realms, realm ≠ []) : ∀ value ∈ rawFields previous realms, value ≠ [] := by
  induction realms generalizing previous with
  | nil => simp [rawFields]
  | cons realm realms ih =>
    rw [forall_mem_cons] at hne
    rw [rawFields, forall_mem_cons]
    exact ⟨rawField_ne_nil previous hne.1, ih hne.2⟩

/-- A realm name the encoder takes. -/
def Named (realm : Bytes) : Prop := realm ≠ [] ∧ 0 ∉ realm

theorem encodeFields_cons (h : Named realm) :
    encodeFields previous (realm :: realms) = (encodeFields (escapeTransited realm) realms).map
      ((if previous = [] then escapeTransited realm
        else compress previous (escapeTransited realm)) :: ·) := by
  rw [encodeFields, ensure_of (p := realm ≠ [] ∧ 0 ∉ realm) h]
  change (encodeFields (escapeTransited realm) realms >>= fun fields => _) = _
  cases encodeFields (escapeTransited realm) realms <;> rfl

theorem encodeFields_after {previous : Bytes} (hprevious : previous ≠ [])
    (h : ∀ realm ∈ realms, Named realm) : encodeFields (escapeTransited previous) realms =
      .ok ((rawFields (some previous) realms).map escapeTransited) := by
  induction realms generalizing previous with
  | nil => rfl
  | cons realm realms ih =>
    rw [forall_mem_cons] at h
    rw [encodeFields_cons h.1, if_neg (mt escape_eq_nil_iff.1 hprevious), ih h.1.1 h.2,
      compress_escape]
    rfl

theorem encodeTransited_eq (h : ∀ realm ∈ realms, Named realm) :
    encodeTransited realms =
      .ok ([comma].intercalate ((rawFields none realms).map escapeTransited)) := by
  cases realms with
  | nil => rfl
  | cons realm realms =>
    rw [forall_mem_cons] at h
    rw [encodeTransited, encodeFields_cons h.1, encodeFields_after h.1.1 h.2]
    rfl

theorem named_of_encodeFields {previous : Bytes} {realms fields : List Bytes}
    (h : encodeFields previous realms = .ok fields) : ∀ realm ∈ realms, Named realm := by
  induction realms generalizing previous fields with
  | nil => simp
  | cons realm realms ih =>
    simp only [encodeFields, bind_ok, ensure_ok] at h
    obtain ⟨_, hrealm, rest, hrest, _⟩ := h
    exact forall_mem_cons.2 ⟨hrealm, ih hrest⟩

/-! ## The decoder -/

theorem scan_escape (fields : List Bytes) (field value rest : Bytes) :
    scan fields field false (escapeTransited value ++ rest) =
      scan fields (field ++ escapeTransited value) false rest := by
  induction value generalizing field with
  | nil => simp
  | cons c value ih =>
    have hbyte : ∀ tail, scan fields field false (escapedByte c ++ tail) =
        scan fields (field ++ escapedByte c) false tail := by
      unfold escapedByte
      split_ifs with hc
      · simp [scan]
      · rw [not_or] at hc
        simp [scan, hc.1, hc.2]
    rw [escape_cons, append_assoc, hbyte, ih, append_assoc]

theorem scan_intercalate (values : List Bytes) (hne : values ≠ []) (fields : List Bytes) :
    scan fields [] false ([comma].intercalate (values.map escapeTransited)) =
      values.foldlM (fun fields value => flush fields (escapeTransited value)) fields := by
  induction values generalizing fields with
  | nil => exact absurd rfl hne
  | cons value values ih =>
    cases values with
    | nil =>
      have hscan := scan_escape fields [] value []
      rw [append_nil, nil_append] at hscan
      simp only [map_cons, map_nil, intercalate_singleton, foldlM_cons, foldlM_nil,
        hscan, scan, bind_pure]
    | cons next values =>
      rw [map_cons, map_cons, intercalate_cons_cons, append_assoc, scan_escape]
      exact bind_congr fun fields => ih (by simp) fields

theorem intercalate_escape_eq_nil {values : List Bytes} (hne : ∀ value ∈ values, value ≠ [])
    (h : [comma].intercalate (values.map escapeTransited) = []) : values = [] := by
  rcases values with _ | ⟨value, _ | ⟨next, values⟩⟩
  · rfl
  · rw [map_singleton, intercalate_singleton] at h
    exact absurd (escape_eq_nil_iff.1 h) (hne value mem_cons_self)
  · simp at h

/-! ## Escapes removed -/

variable {cs : List Bytes}

theorem valid_unescapeRunes (h : ∀ c ∈ cs, IsRune c) (escaped : Bool) :
    Valid (unescapeRunes escaped cs) := by
  induction cs generalizing escaped with
  | nil => cases escaped <;> exact valid_nil
  | cons c cs ih =>
    rw [forall_mem_cons] at h
    cases escaped with
    | true => exact h.1.valid.append (ih h.2 false)
    | false =>
      rw [unescapeRunes]
      split_ifs
      · exact ih h.2 true
      · exact h.1.valid.append (ih h.2 false)

theorem valid_unescape (value : Bytes) : Valid (unescapeTransited value) :=
  valid_unescapeRunes (fun _ hc => isRune_of_mem hc) false

theorem escape_rune {c : Bytes} (hc : ∀ b ∈ c, 0x80 ≤ b) : escapeTransited c = c := by
  rw [escapeTransited_eq]
  induction c with
  | nil => rfl
  | cons b c ih =>
    rw [forall_mem_cons] at hc
    have hb : ¬ (b = backslash ∨ b = comma) := by
      rintro (rfl | rfl)
      · exact absurd hc.1 (by decide)
      · exact absurd hc.1 (by decide)
    rw [flatMap_cons, ih hc.2, escapedByte, if_neg hb]
    rfl

variable {name : Bytes}

/-- The escapes of a valid name are removed again, whatever follows. -/
theorem unescape_escape_append (h : Valid name) (rest : Bytes) :
    unescapeTransited (escapeTransited name ++ rest) = name ++ unescapeTransited rest := by
  have hrunes : ∀ cs : List Bytes, (∀ c ∈ cs, IsRune c) →
      unescapeTransited (escapeTransited cs.flatten ++ rest) =
        cs.flatten ++ unescapeTransited rest := by
    intro cs hcs
    induction cs with
    | nil => rfl
    | cons c cs ih =>
      rw [forall_mem_cons] at hcs
      rw [flatten_cons, escape_append, append_assoc, append_assoc, ← ih hcs.2]
      rcases hcs.1.ascii_or with ⟨a, ha, rfl⟩ | hge
      · rw [escapeTransited_eq, flatMap_singleton, escapedByte]
        split_ifs with hesc
        · -- the backslash is dropped, and the byte behind it taken as it is
          simp only [unescapeTransited, cons_append, nil_append,
            runes_cons_ascii (a := backslash) (by decide), runes_cons_ascii ha,
              unescapeRunes, if_true]
        · rw [not_or] at hesc
          simp only [unescapeTransited, cons_append, nil_append, runes_cons_ascii ha, unescapeRunes,
            cons.injEq, and_true, if_neg hesc.1]
      · have hother : c ≠ [backslash] := by
          rintro rfl
          exact absurd (hge backslash mem_cons_self) (by decide)
        rw [escape_rune hge, unescapeTransited, runes_append_of_isRune hcs.1, unescapeRunes,
          if_neg hother]
        rfl
  have hname := hrunes (runes name) fun c hc => isRune_of_mem hc
  rwa [h] at hname

theorem unescape_escape (h : Valid name) : unescapeTransited (escapeTransited name) = name := by
  have hname := unescape_escape_append h []
  rwa [append_nil, show unescapeTransited [] = [] from rfl, append_nil] at hname

theorem unescapeRunes_append {cs ds : List Bytes} (h : ds.head? ≠ some [backslash])
    (escaped : Bool) :
    unescapeRunes escaped (cs ++ ds) = unescapeRunes escaped cs ++ unescapeRunes false ds := by
  induction cs generalizing escaped with
  | nil =>
    cases escaped with
    | false => rfl
    | true =>
      cases ds with
      | nil => rfl
      | cons d ds =>
        rw [head?_cons, ne_eq, Option.some.injEq] at h
        simp [unescapeRunes, h]
  | cons c cs ih =>
    cases escaped with
    | true => simp [unescapeRunes, ih]
    | false =>
      simp only [cons_append, unescapeRunes]
      split_ifs
      · exact ih true
      · rw [ih, append_assoc]

/-- A valid name in front of a slash loses its own escapes only. -/
theorem unescape_append_slash {name rest : Bytes} (h : Valid name) (hrest : [slash] <+: rest) :
    unescapeTransited (name ++ rest) = unescapeTransited name ++ unescapeTransited rest := by
  obtain ⟨t, rfl⟩ := hrest
  unfold unescapeTransited
  rw [h.runes_append]
  refine unescapeRunes_append ?_ false
  rw [singleton_append, runes_cons_ascii (by decide), head?_cons]
  decide

theorem unescapeRunes_eq_flatten (h : [backslash] ∉ cs) : unescapeRunes false cs = cs.flatten := by
  induction cs with
  | nil => rfl
  | cons c cs ih =>
    rw [mem_cons, not_or] at h
    rw [unescapeRunes, if_neg (Ne.symm h.1), ih h.2, flatten_cons]

theorem length_unescapeRunes_le (escaped : Bool) (cs : List Bytes) :
    (unescapeRunes escaped cs).length ≤ cs.flatten.length := by
  induction cs generalizing escaped with
  | nil => cases escaped <;> exact Nat.zero_le _
  | cons c cs ih =>
    have htrue := ih true
    have hfalse := ih false
    cases escaped with
    | true =>
      simp only [unescapeRunes, flatten_cons, length_append]
      omega
    | false =>
      rw [unescapeRunes]
      split_ifs <;> · simp only [flatten_cons, length_append]; omega

theorem length_unescapeRunes_lt (h : [backslash] ∈ cs) :
    (unescapeRunes false cs).length < cs.flatten.length := by
  induction cs with
  | nil => cases h
  | cons c cs ih =>
    rw [unescapeRunes]
    split_ifs with hc
    · have hle := length_unescapeRunes_le true cs
      rw [hc, flatten_cons, length_append, length_singleton]
      omega
    · have hlt := ih ((mem_cons.1 h).resolve_left (Ne.symm hc))
      simp only [flatten_cons, length_append]
      omega

theorem length_unescape_lt (h : Valid name) (hmem : backslash ∈ name) :
    (unescapeTransited name).length < name.length := by
  have hrune : [backslash] ∈ runes name := by
    rw [← h, mem_flatten] at hmem
    obtain ⟨c, hc, hmem⟩ := hmem
    rwa [(isRune_of_mem hc).eq_of_mem (by decide) hmem] at hc
  have hlt := length_unescapeRunes_lt hrune
  rwa [h] at hlt

/-- A decoded name keeps its form under another removal exactly if it has no backslash. -/
theorem unescape_eq_self_iff (h : Valid name) :
    unescapeTransited name = name ↔ backslash ∉ name := by
  constructor
  · intro heq hmem
    exact absurd (congrArg length heq) (length_unescape_lt h hmem).ne
  · intro hnot
    rw [unescapeTransited, unescapeRunes_eq_flatten, h]
    intro hrune
    refine hnot ?_
    rw [← h]
    exact mem_flatten.2 ⟨_, hrune, mem_cons_self⟩

/-- The only name of which nothing is left is a lone backslash. -/
theorem unescape_eq_nil_iff (h : Valid name) (hne : name ≠ []) :
    unescapeTransited name = [] ↔ name = [backslash] := by
  constructor
  · intro heq
    unfold unescapeTransited at heq
    have hrunes : ∀ c ∈ runes name, c ≠ [] := fun c hc => (isRune_of_mem hc).ne_nil
    rcases hcs : runes name with _ | ⟨c, _ | ⟨d, cs⟩⟩
    · rw [← h, hcs] at hne
      exact absurd rfl hne
    · rw [hcs, unescapeRunes] at heq
      split_ifs at heq with hc
      · rw [← h, hcs, hc]
        rfl
      · exact absurd (append_eq_nil_iff.1 heq).1 (hrunes c (by simp [hcs]))
    · rw [hcs, unescapeRunes] at heq
      split_ifs at heq with hc
      · exact absurd (append_eq_nil_iff.1 heq).1 (hrunes d (by simp [hcs]))
      · exact absurd (append_eq_nil_iff.1 heq).1 (hrunes c (by simp [hcs]))
  · rintro rfl
    decide

/-! ## One field read -/

/-- What the decoder makes of the field with this part of a name. -/
def read (previous : Option Bytes) (value : Bytes) : Bytes :=
  unescapeTransited (expand previous (escapeTransited value))

theorem flush_escape (fields : List Bytes) (hne : value ≠ []) :
    flush fields (escapeTransited value) = if read fields.getLast? value = [] then
      .error "empty transited realm"
      else .ok (fields ++ [read fields.getLast? value]) := by
  rw [flush, if_neg (mt escape_eq_nil_iff.1 hne)]
  rfl

/-- **A realm that is told to the decoder** by its field. As the first one it must not begin with a
space. Behind another realm, if its name continues that one after a slash, the other has to begin
with a slash itself. If not, it must not begin with a space, nor with a slash as the other does,
and it ends with a dot only in front of the other; a lone backslash is the exception, of
which the decoder leaves nothing. Where the other realm is left out it has no backslash. -/
def Told : Option Bytes → Bytes → Prop
  | none, realm => ¬ [space] <+: realm
  | some previous, realm =>
    if previous ++ [slash] <+: realm then [slash] <+: previous ∧ backslash ∉ previous
    else ¬ [space] <+: realm ∧ ¬ ([slash] <+: realm ∧ [slash] <+: previous) ∧
      if dot :: previous <:+ realm then backslash ∉ previous
      else [dot] <:+ realm → previous = [backslash]

instance (previous : Option Bytes) (realm : Bytes) : Decidable (Told previous realm) := by
  cases previous <;> unfold Told <;> infer_instance

theorem read_space {previous : Option Bytes} (hvalid : Valid value) (h : [space] <+: value) :
    read previous value = value.drop 1 := by
  obtain ⟨t, rfl⟩ := h
  have ht : Valid t := (Valid.of_append_cons (s := []) (by decide) hvalid).2
  have hspace : [space] <+: escapeTransited ([space] ++ t) := escape_space_iff.2 (prefix_append _ _)
  exact unescape_escape ht

theorem read_slash {previous value : Bytes} (hprevious : Valid previous) (hvalid : Valid value)
    (h : [slash] <+: value) (hslash : [slash] <+: previous) :
    read (some previous) value = unescapeTransited previous ++ value := by
  have hspace : ¬ [space] <+: value := by
    obtain ⟨t, rfl⟩ := h
    simp [space, slash]
  rw [read, expand, if_neg (mt escape_space_iff.1 hspace)]
  simp only [escape_slash_iff, if_pos (And.intro h hslash)]
  rw [unescape_append_slash hprevious (escape_slash_iff.2 h), unescape_escape hvalid]

theorem read_plain {previous value : Bytes} (hvalid : Valid value) (hspace : ¬ [space] <+: value)
    (hslash : ¬ ([slash] <+: value ∧ [slash] <+: previous)) :
    read (some previous) value = value ++ if [dot] <:+ value then unescapeTransited previous
      else [] := by
  rw [read, expand, if_neg (mt escape_space_iff.1 hspace)]
  simp only [escape_slash_iff, escape_ends_iff]
  split_ifs
  · rw [unescape_escape_append hvalid]
  · rw [unescape_escape hvalid, append_nil]

/-- A leading space is taken off, so the whole name is not read. -/
theorem read_ne_of_space {previous : Option Bytes} {field realm : Bytes} (hvalid : Valid field)
    (hspace : [space] <+: field) (hpre : field <+: realm) : read previous field ≠ realm := by
  intro heq
  have hread : (read previous field).length = (field.drop 1).length :=
    congrArg length (read_space hvalid hspace)
  have hpos := hspace.length_le
  have hle := hpre.length_le
  rw [heq, length_drop] at hread
  rw [length_singleton] at hpos
  omega

theorem read_none_iff (hvalid : Valid realm) : read none realm = realm ↔ Told none realm := by
  refine ⟨fun heq hspace => read_ne_of_space hvalid hspace prefix_rfl heq, fun hspace => ?_⟩
  rw [read, expand, if_neg (mt escape_space_iff.1 hspace)]
  exact unescape_escape hvalid

/-- A realm that continues the one before it. -/
theorem read_continued_iff {previous rest : Bytes} (hprevious : Valid previous)
    (hne : previous ≠ [])
    (hrest : Valid rest) (hslash : [slash] <+: rest) :
    read (some previous) rest = previous ++ rest ↔ [slash] <+: previous ∧ backslash ∉ previous := by
  by_cases hfirst : [slash] <+: previous
  · rw [read_slash hprevious hrest hslash hfirst, append_cancel_right_eq,
      unescape_eq_self_iff hprevious, and_iff_right hfirst]
  · refine iff_of_false (fun heq => hfirst ?_) fun h => hfirst h.1
    have hspace : ¬ [space] <+: rest := by
      obtain ⟨t, rfl⟩ := hslash
      simp [space, slash]
    -- what is read begins with the slash, so the realm would have to
    rw [read_plain hrest hspace fun h => hfirst h.2] at heq
    have hread : [slash] <+: previous ++ rest := heq ▸ hslash.trans (prefix_append _ _)
    refine prefix_of_prefix_length_le hread (prefix_append _ _) ?_
    exact length_pos_iff.2 hne

theorem first_of_prefix {c : UInt8} {field realm : Bytes} (h : field <+: realm) (hne : field ≠ []) :
    [c] <+: field ↔ [c] <+: realm :=
  ⟨fun hc => hc.trans h, fun hc => prefix_of_prefix_length_le hc h (length_pos_iff.2 hne)⟩

/-- A realm with the one before it at its end, behind a dot. -/
theorem read_fronted_iff {previous front : Bytes} (hprevious : Valid previous)
    (hfront : Valid (front ++ [dot])) (hcont : ¬ previous ++ [slash] <+: front ++ [dot] ++ previous)
    (hspace : ¬ [space] <+: front ++ [dot]) :
    read (some previous) (front ++ [dot]) = front ++ [dot] ++ previous ↔
      ¬ ([slash] <+: front ++ [dot] ∧ [slash] <+: previous) ∧ backslash ∉ previous := by
  by_cases hslash : [slash] <+: front ++ [dot] ∧ [slash] <+: previous
  · rw [read_slash hprevious hfront hslash.1 hslash.2]
    refine iff_of_false (fun heq => hcont ?_) fun h => h.1 hslash
    -- nothing was lost from the other realm, so the name would continue it
    have hplain : backslash ∉ previous := by
      intro hmem
      have hlt := length_unescape_lt hprevious hmem
      have hlen := congrArg length heq
      rw [length_append, @List.length_append _ (front ++ [dot])] at hlen
      omega
    rw [(unescape_eq_self_iff hprevious).2 hplain] at heq
    rw [← heq]
    exact (prefix_append_right_inj previous).2 hslash.1
  · rw [read_plain hfront hspace hslash, if_pos (suffix_append _ _), append_cancel_left_eq,
      unescape_eq_self_iff hprevious, and_iff_right hslash]

/-- A realm written in full. -/
theorem read_full_iff (hprevious : Valid previous) (hpne : previous ≠ [])
    (hvalid : Valid realm) (hspace : ¬ [space] <+: realm) : read (some previous) realm = realm ↔
      ¬ ([slash] <+: realm ∧ [slash] <+: previous) ∧
        ([dot] <:+ realm → previous = [backslash]) := by
  by_cases hslash : [slash] <+: realm ∧ [slash] <+: previous
  · rw [read_slash hprevious hvalid hslash.1 hslash.2, append_left_eq_self]
    refine iff_of_false (fun hnil => ?_) fun h => h.1 hslash
    rw [(unescape_eq_nil_iff hprevious hpne).1 hnil] at hslash
    exact absurd hslash.2 (by decide)
  · rw [read_plain hvalid hspace hslash, append_right_eq_self, and_iff_right hslash]
    split_ifs with hdot
    · rw [unescape_eq_nil_iff hprevious hpne, forall_prop_of_true hdot]
    · exact iff_of_true rfl fun h => absurd h hdot

theorem read_some_iff (hprevious : Valid previous) (hpne : previous ≠ []) (hvalid : Valid realm) :
    read (some previous) (fieldOf previous realm) = realm ↔ Told (some previous) realm := by
  rw [Told, fieldOf]
  by_cases hcont : previous ++ [slash] <+: realm
  · rw [if_pos hcont, if_pos hcont]
    obtain ⟨t, rfl⟩ := hcont
    rw [append_assoc] at hvalid ⊢
    rw [drop_left]
    exact read_continued_iff hprevious hpne (hprevious.of_append hvalid) (prefix_append _ _)
  · rw [if_neg hcont, if_neg hcont]
    by_cases hdot : dot :: previous <:+ realm
    · rw [if_pos hdot, if_pos hdot]
      obtain ⟨front, rfl⟩ := hdot
      have hfront : Valid (front ++ [dot]) :=
        (hvalid.of_append_cons (by decide)).1.append (isRune_ascii (by decide)).valid
      have hsplit : front ++ dot :: previous = front ++ [dot] ++ previous := by simp
      have hpre : front ++ [dot] <+: front ++ [dot] ++ previous := prefix_append _ _
      have hne : front ++ [dot] ≠ [] := by simp
      rw [hsplit] at hcont ⊢
      rw [@List.length_append _ (front ++ [dot]), Nat.add_sub_cancel, take_left,
        ← first_of_prefix hpre hne, ← first_of_prefix hpre hne]
      by_cases hspace : [space] <+: front ++ [dot]
      · exact iff_of_false (read_ne_of_space hfront hspace hpre) fun h => h.1 hspace
      · rw [and_iff_right hspace]
        exact read_fronted_iff hprevious hfront hcont hspace
    · rw [if_neg hdot, if_neg hdot]
      by_cases hspace : [space] <+: realm
      · exact iff_of_false (read_ne_of_space hvalid hspace prefix_rfl) fun h => h.1 hspace
      · rw [and_iff_right hspace]
        exact read_full_iff hprevious hpne hvalid hspace

/-- What is read is valid, so a realm that is not is read as another. -/
theorem read_iff {previous : Option Bytes} (h : ∀ p ∈ previous, Valid p ∧ p ≠ []) :
    read previous (rawField previous realm) = realm ↔ Valid realm ∧ Told previous realm := by
  have hread : read previous (rawField previous realm) = realm → Valid realm := fun heq =>
    heq ▸ valid_unescape _
  rw [← and_iff_right_of_imp hread]
  refine and_congr_right fun hvalid => ?_
  cases previous with
  | none => exact read_none_iff hvalid
  | some previous => exact read_some_iff (h previous rfl).1 (h previous rfl).2 hvalid

/-! ## The list -/

/-- Each realm of the list is valid, and told behind the one before it. -/
def AllTold : Option Bytes → List Bytes → Prop
  | _, [] => True
  | previous, realm :: realms => (Valid realm ∧ Told previous realm) ∧ AllTold (some realm) realms

theorem le_flush {fields out : List Bytes} (h : flush fields value = .ok out) : fields <+: out := by
  unfold flush at h
  split_ifs at h
  · cases h
    exact prefix_rfl
  · cases h
    exact prefix_append _ _

/-- Behind realms that were read, the others are read exactly if they are told. The first one that
is read as something else stays in the list. -/
theorem foldlM_flush_iff (hne : ∀ realm ∈ realms, realm ≠ []) {fields : List Bytes}
    (hlast : ∀ p ∈ fields.getLast?, Valid p ∧ p ≠ []) :
    (rawFields fields.getLast? realms).foldlM
      (fun fields value => flush fields (escapeTransited value)) fields =
      .ok (fields ++ realms) ↔ AllTold fields.getLast? realms := by
  induction realms generalizing fields with
  | nil =>
    rw [append_nil]
    exact iff_of_true rfl trivial
  | cons realm realms ih =>
    rw [forall_mem_cons] at hne
    rw [rawFields, AllTold, foldlM_cons, flush_escape _ (rawField_ne_nil _ hne.1), ← read_iff hlast]
    by_cases hread : read fields.getLast? (rawField fields.getLast? realm) = realm
    · have hlast' : (fields ++ [realm]).getLast? = some realm := by simp
      have hvalid : Valid realm := ((read_iff hlast).1 hread).1
      have hnext : ∀ p ∈ (fields ++ [realm]).getLast?, Valid p ∧ p ≠ [] := by
        simpa using ⟨hvalid, hne.1⟩
      have hrest := ih hne.2 hnext
      rw [hlast', append_assoc] at hrest
      rw [hread, if_neg hne.1, and_iff_right rfl]
      exact hrest
    · refine iff_of_false (fun h => hread ?_) fun h => hread h.1
      split_ifs at h with hnil
      · cases h
      · have hpre := foldlM_invariant (fun _ _ _ _ hst hstep => hst.trans (le_flush hstep))
          prefix_rfl h
        rw [prefix_append_right_inj, cons_prefix_cons] at hpre
        exact hpre.1

theorem decode_encode_iff (h : ∀ realm ∈ realms, Named realm) :
    ∃ contents, encodeTransited realms = .ok contents ∧
      (decodeTransited contents = .ok realms ↔ AllTold none realms) := by
  have hne : ∀ realm ∈ realms, realm ≠ [] := fun realm hrealm => (h realm hrealm).1
  refine ⟨_, encodeTransited_eq h, ?_⟩
  -- the decoder reads the fields one by one
  have hdecode : decodeTransited
    ([comma].intercalate ((rawFields none realms).map escapeTransited)) =
      (rawFields none realms).foldlM
        (fun fields value => flush fields (escapeTransited value)) [] := by
    rw [decodeTransited]
    split_ifs with hnil
    · rw [intercalate_escape_eq_nil (ne_nil_of_mem_rawFields hne) hnil]
      rfl
    · refine scan_intercalate _ (fun h => hnil ?_) []
      rw [h]
      rfl
  rw [hdecode]
  exact @foldlM_flush_iff realms hne [] (by simp)

/-- **Transited realms are read back exactly if each is told** behind the one before it. The same
holds of the realms read from a ticket with one realm more. -/
theorem transited_round_trip (realms : List Bytes) :
    ((∀ realm ∈ realms, Named realm) → ∃ contents, encodeTransited realms = .ok contents ∧
      (decodeTransited contents = .ok realms ↔ AllTold none realms)) ∧
    ∀ contents realm contents', decodeTransited contents = .ok realms →
      appendTransited contents realm = .ok contents' →
      (decodeTransited contents' = .ok (realms ++ [realm]) ↔ AllTold none (realms ++ [realm])) := by
  refine ⟨decode_encode_iff, fun contents realm contents' hdecode happend => ?_⟩
  rw [appendTransited, hdecode] at happend
  change encodeTransited (realms ++ [realm]) = .ok contents' at happend
  -- the encoder has looked at every name
  have hnamed : ∀ r ∈ realms ++ [realm], Named r := by
    rw [encodeTransited, bind_ok] at happend
    obtain ⟨fields, hfields, _⟩ := happend
    exact named_of_encodeFields hfields
  obtain ⟨written, hwritten, hiff⟩ := decode_encode_iff hnamed
  rw [happend, ok.injEq] at hwritten
  rwa [← hwritten] at hiff

/-- Two domains and a third that neither is part of. -/
def domains : List Bytes := [str "EDU", str "MIT.EDU", str "EXAMPLE.COM"]

theorem transited_round_trip_domains : encodeTransited domains = .ok (str "EDU,MIT.,EXAMPLE.COM") ∧
    decodeTransited (str "EDU,MIT.,EXAMPLE.COM") = .ok domains := by
  have hwritten : encodeTransited domains = .ok (str "EDU,MIT.,EXAMPLE.COM") := by decide +kernel
  refine ⟨hwritten, ?_⟩
  obtain ⟨contents, hcontents, hiff⟩ := (transited_round_trip domains).1 (by unfold Named; decide)
  rw [hwritten, ok.injEq] at hcontents
  rw [hcontents]
  refine hiff.2 ⟨?_, ?_, ?_, trivial⟩ <;> decide +kernel

/-- Two organisations of one country: the second is read as a part of the first. -/
theorem organisations_joined :
    encodeTransited [str "/C=US/O=A", str "/C=US/O=B"] = .ok (str "/C=US/O=A,/C=US/O=B") ∧
    decodeTransited (str "/C=US/O=A,/C=US/O=B") =
      .ok [str "/C=US/O=A", str "/C=US/O=A/C=US/O=B"] := by
  decide +kernel

end Kerberos.Transited
