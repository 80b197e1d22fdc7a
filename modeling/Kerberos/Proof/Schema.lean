import Kerberos.Proof.TLV
import Kerberos.Spec.Messages

/-!
# Types whose encodings can be told apart

The decoder of a struct looks at the tag of the next element and decides for one field after the
other whether the element is its own. `Ty.wellFormed` says that this works: every field takes the
element it is written as, and an optional one leaves the first element of any field that may
follow in its place. It is a check on the tags alone, and every message passes it.

* `takesField_begins`: a field takes the element it is written as.
* `Fields.separated`: an absent field leaves the element behind it.
* `Messages.wellFormed`: all messages pass.
-/

namespace Kerberos.ASN1

/-! ## The first tag of a field -/

/-- A field of this type can be nil, and so left out. -/
def Ty.nilable : Ty → Bool
  | .ptr _ | .slice _ | .prim .octets => true
  | _ => false

/-- A number that a `signed` field can have. -/
def Ty.isUnsigned : Ty → Bool
  | .prim .uint32 | .ptr (.prim .uint32) => true
  | _ => false

def Fields.hasChoice : Fields → Bool
  | .nil => false
  | .cons _ tag _ rest => tag.choice || rest.hasChoice

/-- A type whose elements all have the tag `tagForImplicitType`. -/
def Ty.tagged : Ty → Bool
  | .prim .raw => false
  | .prim _ | .slice _ => true
  | .struct none fields => !fields.hasChoice
  | _ => false

/-- The same for a field, which may be a pointer. -/
def Ty.taggedField : Ty → Bool
  | .ptr elem => elem.tagged
  | t => t.tagged

def Ty.isRaw : Ty → Bool
  | .prim .raw | .ptr (.prim .raw) => true
  | _ => false

variable (tag : FieldTag) (ty : Ty)

/-- The options of a field go with its type. -/
def FieldTag.fits : Bool :=
  (!tag.optional || ty.nilable) &&
  if tag.bare then !tag.signed && (ty.taggedField || ty.isRaw)
  else if tag.implicit then if tag.signed then ty.isUnsigned else ty.taggedField && !ty.isUnsigned
  else !tag.signed || ty.isUnsigned

/-- The tag of the element a field is written as, unless the value has it of its own. -/
def FieldTag.begins : Option UInt8 :=
  if tag.bare then if ty.isRaw then none else some (tagForImplicitField ty)
  else if tag.implicit then some (0x80 ||| tag.number ||| (tagForImplicitField ty &&& 0x20))
  else some (0xa0 ||| tag.number)

/-- The tags with which the encoding of the fields may begin. -/
def Fields.starts : Fields → List (Option UInt8)
  | .nil => []
  | .cons _ tag ty rest => tag.begins ty :: if tag.optional then rest.starts else []

/-- The field leaves an element with this tag to the fields behind it. -/
def leaves (rest : Fields) : Option UInt8 → Bool
  | none => false
  | some nextTag =>
    match takesField tag ty rest nextTag with
    | .ok false => true
    | _ => false

theorem takesField_of_leaves {tag : FieldTag} {ty : Ty} {rest : Fields} {nextTag : UInt8}
    (h : leaves tag ty rest (some nextTag) = true) :
    takesField tag ty rest nextTag = .ok false := by
  rw [leaves] at h
  split at h
  · assumption
  · cases h

def Fields.isNil : Fields → Bool
  | .nil => true
  | .cons .. => false

/-- Each field is told apart from those behind it. -/
def Fields.separated : Fields → Bool
  | .nil => true
  | .cons _ tag ty rest =>
    tag.fits ty && (!tag.optional || rest.starts.all (leaves tag ty rest)) &&
    (!(tag.optional && tag.bare && ty.isRaw) || rest.isNil) && rest.separated

variable {t : Ty}

theorem tagForImplicitField_of_isRaw (h : t.isRaw = true) : tagForImplicitField t = 0 := by
  unfold Ty.isRaw at h
  split at h <;> first | rfl | cases h

theorem tagForImplicitType_of_tagged (h : t.tagged = true) :
    tagForImplicitType t ≠ 0 ∧
      (tagForImplicitType t &&& 0x20 = 0 ∨ tagForImplicitType t &&& 0x20 = 0x20) := by
  match t with
  | .prim p => cases p <;> first | decide | cases h
  | .slice _ =>
    exact (by decide : tagSequence ≠ 0 ∧ (tagSequence &&& 0x20 = 0 ∨ tagSequence &&& 0x20 = 0x20))
  | .struct none _ =>
    exact (by decide : tagSequence ≠ 0 ∧ (tagSequence &&& 0x20 = 0 ∨ tagSequence &&& 0x20 = 0x20))
  | .struct (some _) _ => cases h
  | .ptr _ => cases h

theorem tagForImplicitField_of_taggedField (h : t.taggedField = true) : tagForImplicitField t ≠ 0 ∧
      (tagForImplicitField t &&& 0x20 = 0 ∨ tagForImplicitField t &&& 0x20 = 0x20) := by
  match t with
  | .ptr _ => exact tagForImplicitType_of_tagged h
  | .prim p => exact tagForImplicitType_of_tagged h
  | .slice elem => exact tagForImplicitType_of_tagged (t := .slice elem) h
  | .struct application fields => exact tagForImplicitType_of_tagged h

theorem taggedField_of_isUnsigned (h : t.isUnsigned = true) : t.taggedField = true := by
  unfold Ty.isUnsigned at h
  split at h <;> first | rfl | cases h

theorem unsigned_of_fits {tag : FieldTag} {ty : Ty} (hfits : tag.fits ty = true)
    (hsigned : tag.signed = true) :
    tag.bare = false ∧ ty.isUnsigned = true := by
  rw [FieldTag.fits, hsigned, Bool.and_eq_true] at hfits
  cases hbare : tag.bare with
  | true =>
    rw [hbare] at hfits
    cases hfits.2
  | false =>
    have hkind := hfits.2
    rw [hbare] at hkind
    cases himplicit : tag.implicit <;> simpa [himplicit] using hkind

/-- A constructed element keeps its mark under an implicit tag. -/
theorem or_constructed (n : UInt8) : 0x80 ||| n ||| 0x20 = 0xa0 ||| n := by
  have h : ∀ n : Fin 256, 0x80 ||| UInt8.ofFin n ||| 0x20 = 0xa0 ||| UInt8.ofFin n := by
    decide +kernel
  exact h n.toFin

/-- **A field takes the element it is written as.** -/
theorem takesField_begins {tag : FieldTag} {ty : Ty} {rest : Fields} (hfits : tag.fits ty = true)
    (hraw : tag.optional = true → tag.bare = true → ty.isRaw = true → rest = .nil) {nextTag : UInt8}
    (hbegins : ∀ x ∈ tag.begins ty, nextTag = x) : takesField tag ty rest nextTag = .ok true := by
  rw [FieldTag.fits, Bool.and_eq_true] at hfits
  unfold takesField
  unfold FieldTag.begins at hbegins
  cases hbare : tag.bare with
  | true =>
    simp only [hbare, if_true, Bool.and_eq_true, Bool.or_eq_true] at hfits hbegins ⊢
    cases hisRaw : ty.isRaw with
    | true =>
      rw [tagForImplicitField_of_isRaw hisRaw]
      cases hopt : tag.optional with
      | true =>
        rw [hraw hopt hbare hisRaw]
        rfl
      | false => rfl
    | false =>
      have htagged := hfits.2.2.resolve_right (by rw [hisRaw]; decide)
      rw [hisRaw] at hbegins
      rw [if_neg (tagForImplicitField_of_taggedField htagged).1, if_pos (hbegins _ rfl)]
  | false =>
    simp only [hbare, Bool.false_eq_true, if_false] at hfits hbegins ⊢
    cases himplicit : tag.implicit with
    | true =>
      simp only [himplicit] at hfits hbegins
      have htagged : ty.taggedField = true := by
        revert hfits
        cases tag.signed with
        | true => exact fun h => taggedField_of_isUnsigned h.2
        | false => exact fun h => (Bool.and_eq_true _ _ ▸ h.2 : _ ∧ _).1
      have hnext := hbegins _ rfl
      rcases (tagForImplicitField_of_taggedField htagged).2 with hprim | hcons
      · rw [hprim, UInt8.or_zero] at hnext
        by_cases heq : nextTag = 0xa0 ||| tag.number
        · rw [if_pos heq]
        · rw [if_neg heq, if_pos (by rw [hnext]; exact beq_self_eq_true _)]
      · rw [hcons, or_constructed] at hnext
        rw [if_pos hnext]
    | false =>
      rw [himplicit] at hbegins
      rw [if_pos (hbegins _ rfl)]

/-! ## Alternatives -/

/-- The alternatives of a CHOICE, wrapped in different tags. -/
def Fields.alternatives : Fields → Bool
  | .nil => true
  | .cons _ tag _ rest =>
    tag.choice && !tag.optional && !tag.implicit && !tag.signed && !tag.bare &&
    choicesFor (0xa0 ||| tag.number) rest == 0 && rest.alternatives

theorem alternatives_cons {name : String} {tag : FieldTag} {ty : Ty} {rest : Fields} :
    (Fields.cons name tag ty rest).alternatives = true ↔ tag.choice = true ∧ tag.optional = false ∧
      tag.implicit = false ∧ tag.signed = false ∧ tag.bare = false ∧
        choicesFor (0xa0 ||| tag.number) rest = 0 ∧
      rest.alternatives = true := by
  simp [Fields.alternatives, and_assoc]

def Ty.isPointer : Ty → Bool
  | .ptr _ => true
  | _ => false

def Fields.pointers : Fields → Bool
  | .nil => true
  | .cons _ _ ty rest => ty.isPointer && rest.pointers

def Fields.single : Fields → Bool
  | .cons _ _ _ .nil => true
  | _ => false

mutual

/-- What a type may be: of several alternatives, those that are not set are nil. -/
def Ty.wellFormed : Ty → Bool
  | .prim _ => true
  | .slice elem => elem.wellFormed
  | .ptr elem => elem.wellFormed
  | .struct application fields => fields.wellFormed &&
    if fields.hasChoice then application.isNone &&
      (fields.alternatives && (fields.single || fields.pointers))
    else fields.separated

def Fields.wellFormed : Fields → Bool
  | .nil => true
  | .cons _ _ ty rest => ty.wellFormed && rest.wellFormed

end

/-- The fields of a struct can be told apart, or are alternatives. -/
theorem wellFormed_struct {application : Option UInt8} {fields : Fields}
    (h : (Ty.struct application fields).wellFormed = true) :
    fields.wellFormed = true ∧
      ((fields.hasChoice = false ∧ fields.separated = true) ∨ (fields.hasChoice = true ∧
      application = none ∧ fields.alternatives = true ∧
        (fields.single = true ∨ fields.pointers = true))) := by
  rw [Ty.wellFormed, Bool.and_eq_true] at h
  refine ⟨h.1, ?_⟩
  cases hchoice : fields.hasChoice with
  | false => exact .inl ⟨rfl, by simpa [hchoice] using h.2⟩
  | true => exact .inr ⟨rfl, by simpa [hchoice] using h.2⟩

/-- **Every message is well formed.** -/
theorem Messages.wellFormed : ∀ t ∈ Messages.all, t.wellFormed = true := by
  decide +kernel

end Kerberos.ASN1
