import Kerberos.Proof.Marshal

/-!
# What is accepted beside the encoding

`Unmarshal` reads every length, number, time and list in one form only, so a value is written again
as the octets it was read from, but for five things that the decoder of a field lets through:

* an octet string that is present, empty and optional is read as nil, and left out when it is
  written again;
* a `signed` number of more than 32 bits is cut;
* an `implicit` field is taken under the tag of a primitive and under that of a constructed element;
* an `implicit` INTEGER may have leading octets that say nothing;
* a CHOICE with a single alternative may come as a SEQUENCE.

`Ty.strict` looks for them in the octets. An accepted byte string is the encoding of its value
exactly if there are none (`marshal_unmarshal_iff`).
-/

namespace Kerberos.ASN1

open List Except Messages

/-! ## Strict encodings -/

/-- The content of the element at the front. -/
def contentOf (data : Bytes) : Bytes :=
  match readTLV data with
  | .ok e => e.content
  | .error _ => []

/-- The elements, one behind the other. -/
def itemsOf (content : Bytes) : List Bytes :=
  match decodeItems Except.ok content.length content with
  | .ok items => items
  | .error _ => []

def Ty.isOctets : Ty → Bool
  | .prim .octets => true
  | _ => false

namespace FieldTag

variable (tag : FieldTag) (ty : Ty) (e : Element)

/-- The content octets of a field's own value. -/
def inner : Bytes := if tag.bare || tag.implicit then e.content else contentOf e.content

/-- The octets the decoder of the field's type is given. -/
def data : Bytes :=
  if tag.bare then encodeTLV e.tag e.content
  else if tag.implicit then encodeTLV (tagForImplicitField ty) e.content
  else e.content

/-- The value is an empty octet string, which is left out when it is written again. -/
def leavesOut : Bool := tag.optional && (ty.isOctets && (tag.inner e).isEmpty)

/-- The tag is the one the encoder uses, and a number is as the encoder writes it. -/
def strict : Bool :=
  (tag.bare || !tag.implicit ||
    e.tag == 0x80 ||| tag.number ||| (tagForImplicitField ty &&& 0x20) &&
      (tagForImplicitField ty != tagInteger || minimal e.content)) &&
  (!tag.signed || decide (-2 ^ 31 ≤ signedValue (tag.inner e) ∧ signedValue (tag.inner e) < 2 ^ 31))

end FieldTag

mutual

def Ty.strict : Ty → Bytes → Bool
  | .prim _, _ => true
  | .ptr elem, data => elem.strict data
  | .slice elem, data => (itemsOf (contentOf data)).all elem.strict
  | .struct (some _) fields, data => fields.strict (contentOf (contentOf data))
  | .struct none fields, data =>
    if choicesFor (data.headD 0) fields = 1 then fields.choiceStrict (data.headD 0) (contentOf data)
    else !(fields.hasChoice && fields.single) && fields.strict (contentOf data)

def Fields.strict : Fields → Bytes → Bool
  | .nil, _ => true
  | .cons _ tag ty rest, content =>
    match readTLV content with
    | .error _ => rest.strict content
    | .ok e =>
      match takesField tag ty rest e.tag with
      | .ok true =>
        !tag.leavesOut ty e && (tag.strict ty e && ty.strict (tag.data ty e)) &&
          rest.strict (content.drop e.size)
      | _ => rest.strict content

def Fields.choiceStrict : Fields → UInt8 → Bytes → Bool
  | .nil, _, _ => true
  | .cons _ field ty rest, tag, content =>
    if field.choice && tag == 0xa0 ||| field.number then ty.strict content
      else rest.choiceStrict tag content

end

mutual

/-- The levels the encoder goes down at most. -/
def Ty.levels : Ty → ℕ
  | .prim _ => 0
  | .slice elem | .ptr elem => elem.levels + 1
  | .struct (some _) fields => fields.levels + 1
  | .struct none fields => fields.levels

def Fields.levels : Fields → ℕ
  | .nil => 0
  | .cons _ _ ty rest => max (ty.levels + 1) rest.levels

end

theorem Messages.levels : ∀ t ∈ all, t.levels ≤ maxDepth := by
  decide +kernel

theorem contentOf_encodeTLV {tag : UInt8} {content : Bytes} (h : content.length < 2 ^ 32) :
    contentOf (encodeTLV tag content) = content := by
  rw [contentOf, readTLV_whole h]

variable {data : Bytes} {err : String}

theorem headD_of_readWhole {e : Element} (h : readWhole data err = .ok e) :
    data.headD 0 = e.tag := by
  rw [(readWhole_ok.1 h).1]
  rfl

/-! ## Types without parts -/

theorem getD_ofContent (content : Bytes) :
    (if content = [] then none else some content : Option Bytes).getD [] = content := by
  split_ifs with hnil
  · exact hnil.symm
  · rfl

/-- **What is read is written again.** -/
theorem Prim.encode_decode {p : Prim} {e : Element} {v : p.Val}
    (hread : readWhole data err = .ok e) (h : p.decode data e = .ok v) :
    p.encode v = .ok data ∧ (p ≠ .raw → e.tag = p.tag) := by
  obtain ⟨hdata, hsize, hsmall⟩ := readWhole_ok.1 hread
  have hwritten : ∀ {content : Bytes}, e.tag = p.tag → content = e.content →
      p.encode v = .ok (encodeTLV p.tag content) → p.encode v = .ok data ∧
        (p ≠ .raw → e.tag = p.tag) := by
    rintro _ htag rfl hencode
    exact ⟨by rw [hencode, hdata, htag], fun _ => htag⟩
  cases p with
  | time =>
    obtain ⟨htag, h⟩ := ensure_bind_ok.1 h
    obtain ⟨_, -, h⟩ := bind_ok.1 h
    exact hwritten htag (encodeGeneralizedTime_of_parse h) rfl
  | flags =>
    obtain ⟨htag, h⟩ := ensure_bind_ok.1 h
    exact hwritten htag (encodeFlags_of_decode h) rfl
  | utf8 =>
    obtain ⟨htag, h⟩ := ensure_bind_ok.1 h
    exact hwritten htag (ok.inj h).symm rfl
  | string =>
    obtain ⟨htag, h⟩ := ensure_bind_ok.1 h
    exact hwritten htag (ok.inj h).symm rfl
  | oid =>
    obtain ⟨⟨htag, hvalid⟩, h⟩ := ensure_bind_ok.1 h
    obtain rfl := ok.inj h
    exact hwritten htag rfl (by rw [encode, ensure_bind hvalid]; rfl)
  | raw =>
    obtain rfl : data = v := ok.inj h
    refine ⟨?_, fun hraw => absurd rfl hraw⟩
    have hwhole : readWhole data "" = .ok e := readWhole_ok.2 ⟨hdata, hsize, hsmall⟩
    simp only [encode, hwhole]
  | int32 =>
    obtain ⟨htag, h⟩ := ensure_bind_ok.1 h
    obtain ⟨z, hz, h⟩ := bind_ok.1 h
    obtain ⟨hrange, h⟩ := ensure_bind_ok.1 h
    have hback : (Int32.ofInt z).toInt = z := Int32.toInt_ofInt_of_le (by omega) (by omega)
    obtain rfl := ok.inj h
    refine hwritten htag (encodeInteger_of_decode hz) ?_
    exact congrArg (fun z => ok (encodeTLV tagInteger (encodeInteger z))) hback
  | uint32 =>
    obtain ⟨htag, h⟩ := ensure_bind_ok.1 h
    obtain ⟨n, hn, h⟩ := bind_ok.1 h
    obtain ⟨hrange, h⟩ := ensure_bind_ok.1 h
    have hback : (UInt32.ofNat n).toNat = n := UInt32.toNat_ofNat_of_lt' hrange
    obtain rfl := ok.inj h
    refine hwritten htag (encodeUnsignedInteger_of_decode hn).1 ?_
    exact congrArg (fun n => ok (encodeTLV tagInteger (encodeUnsignedInteger n))) hback
  | octets =>
    obtain ⟨htag, h⟩ := ensure_bind_ok.1 h
    obtain rfl := ok.inj h
    exact hwritten htag (getD_ofContent e.content) rfl

/-! ## Pointers and lists -/

/-- A value read from the octets is written as one element, never longer, and the same exactly if
the octets are strict. -/
structure Rewritten (t : Ty) (v : t.Val) (data : Bytes) (depth : ℕ) (tag : UInt8)
    (content : Bytes) : Prop where
  encode : encodeValue t v depth = .ok (encodeTLV tag content)
  length : (encodeTLV tag content).length ≤ data.length
  tagged : t.taggedField = true → tag = tagForImplicitField t
  same : encodeTLV tag content = data ↔ t.strict data = true

/-- All values of the type are, wherever the encoder has the levels it needs. -/
def Canonical (t : Ty) : Prop := ∀ data v depth depth', decodeValue t data depth = .ok v →
  depth' + t.levels ≤ maxDepth → ∃ tag content, Rewritten t v data depth' tag content

theorem canonical_prim (p : Prim) : Canonical (.prim p) := by
  intro data v depth depth' h hlevels
  obtain ⟨_, -, h⟩ := bind_ok.1 h
  obtain ⟨e, hread, h⟩ := bind_ok.1 h
  obtain ⟨hencode, htag⟩ := Prim.encode_decode hread h
  have hdata := (readWhole_ok.1 hread).1
  refine ⟨e.tag, e.content, ?_, hdata ▸ le_rfl, fun htagged => htag ?_, iff_of_true hdata.symm rfl⟩
  · rw [encodeValue, ensure_bind (by omega), hencode, ← hdata]
  · rintro rfl
    cases htagged

variable {elem : Ty}

theorem canonical_ptr (helem : Canonical elem) : Canonical (.ptr elem) := by
  intro data v depth depth' h hlevels
  rw [Ty.levels] at hlevels
  obtain ⟨_, -, h⟩ := bind_ok.1 h
  obtain ⟨_, -, h⟩ := bind_ok.1 h
  obtain ⟨x, hx, h⟩ := bind_ok.1 h
  obtain rfl := ok.inj h
  obtain ⟨tag, content, hrewritten⟩ := helem data x (depth + 1) (depth' + 1) hx (by omega)
  refine ⟨tag, content, ?_, hrewritten.length, fun htagged => ?_, hrewritten.same⟩
  · rw [encodeValue, ensure_of (by omega)]
    exact hrewritten.encode
  · obtain ⟨hfield, htag⟩ := @taggedField_of_tagged elem htagged
    exact (hrewritten.tagged hfield).trans htag

/-- The elements of a list are read one by one, and they are all of its content. -/
theorem decodeItems_ok {α : Type} {f : Bytes → Except String α} {fuel : ℕ} {content : Bytes}
    {values : List α}
    (h : decodeItems f fuel content = .ok values) :
    ∃ items, content = items.flatten ∧ List.Forall₂ (fun b v => f b = .ok v ∧
      ∃ tag c, b = encodeTLV tag c ∧ c.length < 2 ^ 32) items values := by
  induction fuel generalizing content values with
  | zero =>
    cases content with
    | nil => exact ⟨[], rfl, by cases h; exact .nil⟩
    | cons => cases h
  | succ fuel ih =>
    by_cases hnil : content = []
    · subst hnil
      exact ⟨[], rfl, by cases h; exact .nil⟩
    · rw [decodeItems_succ hnil] at h
      obtain ⟨e, he, h⟩ := bind_ok.1 h
      obtain ⟨item, hitem, h⟩ := bind_ok.1 h
      obtain ⟨rest, hrest, hvalues⟩ := bind_ok.1 h
      obtain ⟨tail, rfl, hsize, hsmall⟩ := readTLV_ok.1 he
      rw [hsize, take_left] at hitem
      rw [hsize, drop_left] at hrest
      obtain ⟨items, rfl, hforall⟩ := ih hrest
      obtain rfl := ok.inj hvalues
      exact ⟨_ :: items, rfl, .cons ⟨hitem, e.tag, e.content, rfl, hsmall⟩ hforall⟩

theorem itemsOf_flatten {items : List Bytes}
    (h : ∀ b ∈ items, ∃ tag c, b = encodeTLV tag c ∧ c.length < 2 ^ 32) :
    itemsOf items.flatten = items := by
  have hforall : Forall₂ (fun b v : Bytes => ok (ε := String) b = .ok v ∧
      ∃ tag c, b = encodeTLV tag c ∧ c.length < 2 ^ 32) items items :=
    forall₂_same.2 fun b hb => ⟨rfl, h b hb⟩
  rw [itemsOf, decodeItems_flatten hforall le_rfl]

/-- Two rows of elements are the same if they are so one by one. -/
theorem flatten_rewritten {depth : ℕ} {items : List Bytes} {values : List elem.Val}
    (h : List.Forall₂ (fun b v => (∃ x c, b = encodeTLV x c ∧ c.length < 2 ^ 32) ∧
      ∃ tag content, Rewritten elem v b depth tag content) items values) :
    ∃ items', values.mapM (fun v => encodeValue elem v depth) = .ok items' ∧
      items'.flatten.length ≤ items.flatten.length ∧
      (items'.flatten = items.flatten ↔ items.all elem.strict = true) := by
  induction h with
  | nil => exact ⟨[], rfl, le_rfl, iff_of_true rfl rfl⟩
  | cons hitem _ ih =>
    obtain ⟨⟨x, c, rfl, hsmall⟩, tag, content, hrewritten⟩ := hitem
    obtain ⟨items', hitems', hlength, hsame⟩ := ih
    have hle := hrewritten.length
    have hcontent := length_encodeTLV_le_iff.1 hle
    refine ⟨encodeTLV tag content :: items', ?_, ?_, ?_⟩
    · rw [mapM_cons, hrewritten.encode, hitems']
      rfl
    · rw [flatten_cons, flatten_cons, length_append, length_append]
      omega
    · rw [flatten_cons, flatten_cons, all_cons, Bool.and_eq_true, ← hrewritten.same, ← hsame]
      constructor
      · intro heq
        obtain ⟨rfl, rfl, hrest⟩ := encodeTLV_append_inj (by omega) hsmall heq
        exact ⟨rfl, hrest⟩
      · rintro ⟨hfirst, hrest⟩
        rw [hfirst, hrest]

theorem decodeValue_slice {depth : ℕ} {v : (Ty.slice elem).Val}
    (h : decodeValue (.slice elem) data depth = .ok v) :
    ∃ (values : List elem.Val) (items : List Bytes), v = (some values : Option (List elem.Val)) ∧
      data = encodeTLV tagSequence items.flatten ∧ items.flatten.length < 2 ^ 32 ∧
      List.Forall₂ (fun b v => decodeValue elem b (depth + 1) = .ok v ∧
        ∃ tag c, b = encodeTLV tag c ∧ c.length < 2 ^ 32) items values := by
  obtain ⟨_, -, h⟩ := bind_ok.1 h
  obtain ⟨e, hread, h⟩ := bind_ok.1 h
  obtain ⟨htag, h⟩ := ensure_bind_ok.1 h
  obtain ⟨values, hvalues, h⟩ := bind_ok.1 h
  obtain ⟨hdata, -, hsmall⟩ := readWhole_ok.1 hread
  obtain ⟨items, hitems, hforall⟩ := decodeItems_ok hvalues
  rw [htag, hitems] at hdata
  exact ⟨values, items, (ok.inj h).symm, hdata, hitems ▸ hsmall, hforall⟩

theorem canonical_slice (helem : Canonical elem) : Canonical (.slice elem) := by
  intro data v depth depth' h hlevels
  rw [Ty.levels] at hlevels
  obtain ⟨values, items, hv, rfl, hsmall, hforall⟩ := decodeValue_slice h
  have hvalues : (v : Option (List elem.Val)).getD [] = values := by rw [hv]; rfl
  have helements : ∀ b ∈ items, ∃ tag c, b = encodeTLV tag c ∧ c.length < 2 ^ 32 := by
    intro b hb
    obtain ⟨v, -, hv⟩ := hforall.exists_left hb
    exact hv.2
  obtain ⟨items', hencode, hlength, hsame⟩ := flatten_rewritten (hforall.imp fun b v hv =>
    ⟨hv.2, helem b v (depth + 1) (depth' + 1) hv.1 (by omega)⟩)
  refine ⟨tagSequence, items'.flatten, ?_, ?_, fun _ => rfl, ?_⟩
  · rw [encodeValue, ensure_bind (by omega), hvalues, hencode, ok_bind]
  · rw [length_encodeTLV_le_iff]
    exact hlength
  · rw [Ty.strict, contentOf_encodeTLV hsmall, itemsOf_flatten helements, ← hsame]
    exact encodeTLV_eq_iff

/-! ## One field -/

variable {t : Ty}

theorem isAbsent_of_decodeValue {depth : ℕ} {v : t.Val} (h : decodeValue t data depth = .ok v) :
    isAbsent t v = (t.isOctets && (contentOf data).isEmpty) := by
  match t with
  | .ptr elem =>
    obtain ⟨_, -, h⟩ := bind_ok.1 h
    obtain ⟨_, -, h⟩ := bind_ok.1 h
    obtain ⟨x, -, h⟩ := bind_ok.1 h
    obtain rfl := ok.inj h
    rfl
  | .slice elem =>
    obtain ⟨values, _, rfl, -⟩ := decodeValue_slice h
    rfl
  | .struct _ _ => rfl
  | .prim p =>
    cases p with
    | octets =>
      obtain ⟨_, -, h⟩ := bind_ok.1 h
      obtain ⟨e, hread, h⟩ := bind_ok.1 h
      obtain ⟨_, -, h⟩ := bind_ok.1 h
      obtain ⟨hdata, -, hsmall⟩ := readWhole_ok.1 hread
      rw [hdata, contentOf_encodeTLV hsmall]
      obtain rfl := ok.inj h
      cases e.content <;> rfl
    | _ => rfl

theorem isUnsigned_not_octets (h : t.isUnsigned = true) : t.isOctets = false := by
  unfold Ty.isUnsigned at h
  split at h <;> first | rfl | cases h

theorem integer_not_octets (h : tagForImplicitField t = tagInteger) : t.isOctets = false := by
  cases hoctets : t.isOctets with
  | false => rfl
  | true =>
    unfold Ty.isOctets at hoctets
    split at hoctets
    · cases h
    · cases hoctets

/-- A `signed` number is written with 32 bits. -/
theorem encodeSigned_of_set {ty : Ty} (hty : ty.isUnsigned = true) {z : ℤ} {v : ty.Val}
    (h : setUnsigned z err ty = .ok v) :
    encodeSignedInteger ty v =
      .ok (encodeTLV tagInteger (encodeInteger (UInt32.ofInt z).toInt32.toInt)) ∧
      isAbsent ty v = false ∧ tagForImplicitField ty = tagInteger ∧
        ∀ data, ty.strict data = true := by
  match ty, hty with
  | .prim .uint32, _ =>
    obtain rfl := ok.inj h
    exact ⟨rfl, rfl, rfl, fun _ => rfl⟩
  | .ptr (.prim .uint32), _ =>
    obtain rfl := ok.inj h
    exact ⟨rfl, rfl, rfl, fun _ => rfl⟩

theorem encodeValue_prim {p : Prim} (v : (Ty.prim p).Val) {depth : ℕ} (h : depth ≤ maxDepth) :
    encodeValue (.prim p) v depth = p.encode v := by
  rw [encodeValue, ensure_bind h]

theorem encodeValue_some {v : (Ty.ptr elem).Val} {x : elem.Val}
    (hv : v = (some x : Option elem.Val))
    {depth : ℕ} (h : depth ≤ maxDepth) :
    encodeValue (.ptr elem) v depth = encodeValue elem x (depth + 1) := by
  subst hv
  rw [encodeValue, ensure_bind h]

/-- Another implicit number is written as it is. -/
theorem encode_of_setSigned {ty : Ty} {z : ℤ} {v : ty.Val} (h : setSigned z ty = .ok v) {depth : ℕ}
    (hlevels : depth + ty.levels ≤ maxDepth) :
    encodeValue ty v depth = .ok (encodeTLV tagInteger (encodeInteger z)) ∧ isAbsent ty v = false ∧
      ∀ data, ty.strict data = true := by
  have hback : -2 ^ 31 ≤ z ∧ z < 2 ^ 31 → (Int32.ofInt z).toInt = z :=
    fun hrange => Int32.toInt_ofInt_of_le (by omega) (by omega)
  match ty with
  | .prim .int32 =>
    obtain ⟨hrange, h⟩ := ensure_bind_ok.1 h
    have hz := hback hrange
    obtain rfl := ok.inj h
    refine ⟨(encodeValue_prim _ (by omega)).trans ?_, rfl, fun _ => rfl⟩
    exact congrArg (fun z => ok (encodeTLV tagInteger (encodeInteger z))) hz
  | .ptr (.prim .int32) =>
    obtain ⟨hrange, h⟩ := ensure_bind_ok.1 h
    have hz := hback hrange
    obtain rfl := ok.inj h
    simp only [Ty.levels] at hlevels
    refine ⟨((encodeValue_some rfl (by omega)).trans (encodeValue_prim _ (by omega))).trans ?_, rfl,
      fun _ => rfl⟩
    exact congrArg (fun z => ok (encodeTLV tagInteger (encodeInteger z))) hz

/-- The same for a field that is not left out: its element is written again, never longer. -/
structure FieldRewritten (tag : FieldTag) (ty : Ty) (v : ty.Val) (e : Element) (depth : ℕ)
    (x : UInt8) (c : Bytes) :
    Prop where
  encode : encodeField tag ty v depth = .ok (encodeTLV x c)
  length : c.length ≤ e.content.length
  absent : isAbsent ty v = (ty.isOctets && (tag.inner e).isEmpty)
  same : x = e.tag ∧ c = e.content ↔ (tag.strict ty e && ty.strict (tag.data ty e)) = true

section

variable {tag : FieldTag} {ty : Ty} {rest : Fields} {e : Element} {v : ty.Val} {depth depth' : ℕ}

theorem tag_of_takesField (hbare : tag.bare = false) (himplicit : tag.implicit = false)
    (h : takesField tag ty rest e.tag = .ok true) : e.tag = 0xa0 ||| tag.number := by
  rw [takesField, hbare, himplicit] at h
  by_contra hother
  simp only [Bool.false_and, Bool.false_eq_true, if_false] at h
  split_ifs at h
  cases h

theorem field_signed_canonical (hbare : tag.bare = false) (hsigned : tag.signed = true)
    (hty : ty.isUnsigned = true)
    (hsmall : e.content.length < 2 ^ 32) (htakes : takesField tag ty rest e.tag = .ok true)
    (h : decodeField tag ty (encodeTLV e.tag e.content) e.content depth = .ok v) :
    ∃ x c, FieldRewritten tag ty v e depth' x c := by
  rw [decodeField, hbare] at h
  cases himplicit : tag.implicit with
  | true =>
    have htag : tagForImplicitField ty = tagInteger := by
      unfold Ty.isUnsigned at hty
      split at hty <;> first | rfl | cases hty
    rw [himplicit, if_pos htag, hsigned] at h
    obtain ⟨z, hz, h⟩ := bind_ok.1 h
    obtain ⟨hencode, habsent, -, hstrict⟩ := encodeSigned_of_set hty h
    have hlength := length_encodeInteger_truncated hz
    have hdrop := length_dropRedundant e.content
    have hsame := encodeInteger_truncated_iff hz
    have hvalue : signedValue e.content = z := by
      rw [← signedValue_dropRedundant]
      exact (decodeInteger_ok.1 hz).2.2
    refine ⟨0x80 ||| tag.number ||| (tagInteger &&& 0x20), _, ?_, hlength.trans hdrop, ?_, ?_⟩
    · rw [encodeField, hsigned, hencode]
      exact wrapField_implicit hbare himplicit (by omega)
    · rw [habsent, isUnsigned_not_octets hty]
      rfl
    · have hinner : tag.inner e = e.content := by
        rw [FieldTag.inner, himplicit, Bool.or_true, if_pos rfl]
      simp only [FieldTag.strict, hbare, himplicit, hsigned, htag, hinner, hvalue, hstrict,
        Bool.not_true, Bool.false_or, and_true, Bool.and_eq_true, beq_iff_eq, decide_eq_true_eq]
      constructor
      · rintro ⟨hx, hc⟩
        -- what is written has no leading octets to drop
        have hminimal : minimal e.content = true := by
          rw [← hc]
          exact minimal_dropRedundant _
        rw [dropRedundant_eq_self_iff.2 hminimal] at hsame
        exact ⟨⟨hx.symm, hminimal⟩, hsame.1 hc⟩
      · rintro ⟨⟨hx, hminimal⟩, hrange⟩
        rw [dropRedundant_eq_self_iff.2 hminimal] at hsame
        exact ⟨hx.symm, hsame.2 hrange⟩
  | false =>
    rw [himplicit, hsigned] at h
    obtain ⟨i, hi, h⟩ := bind_ok.1 h
    obtain ⟨⟨htag, hsize⟩, h⟩ := ensure_bind_ok.1 h
    obtain ⟨z, hz, h⟩ := bind_ok.1 h
    obtain ⟨hcontent, -, hinner⟩ := readWhole_ok.1 (readWhole_of_readTLV hi hsize "")
    obtain ⟨hencode, habsent, -, hstrict⟩ := encodeSigned_of_set hty h
    have hlength := length_encodeInteger_truncated hz
    have hsame := encodeInteger_truncated_iff hz
    have hvalue : signedValue i.content = z := (decodeInteger_ok.1 hz).2.2
    have hfield : tag.inner e = i.content := by
      rw [FieldTag.inner, himplicit, hbare, hcontent, contentOf_encodeTLV hinner]
      rfl
    have htaken := tag_of_takesField hbare himplicit htakes
    refine ⟨0xa0 ||| tag.number,
      encodeTLV tagInteger (encodeInteger (UInt32.ofInt z).toInt32.toInt), ?_, ?_, ?_, ?_⟩
    · rw [encodeField, hsigned, hencode]
      exact wrapField_explicit hbare himplicit _
    · rw [hcontent, length_encodeTLV_le_iff]
      exact hlength
    · rw [habsent, isUnsigned_not_octets hty]
      rfl
    · simp only [FieldTag.strict, hbare, himplicit, hsigned, hfield, hvalue, hstrict, Bool.not_true,
        Bool.not_false, Bool.false_or, Bool.true_or, Bool.true_and, Bool.and_true,
          decide_eq_true_eq, ← hsame, htaken, true_and]
      rw [hcontent, htag]
      exact encodeTLV_eq_iff

theorem field_unsigned_canonical (hfits : tag.fits ty = true) (hsigned : tag.signed = false)
    (hty : Canonical ty)
    (hlevels : depth' + 1 + ty.levels ≤ maxDepth) (hsmall : e.content.length < 2 ^ 32)
    (htakes : takesField tag ty rest e.tag = .ok true)
    (h : decodeField tag ty (encodeTLV e.tag e.content) e.content depth = .ok v) :
    ∃ x c, FieldRewritten tag ty v e depth' x c := by
  have hencoded : ∀ {b y : Bytes}, encodeValue ty v (depth' + 1) = .ok b → wrapField tag b = .ok y →
      encodeField tag ty v depth' = .ok y := by
    intro b y hb hy
    rw [encodeField, hsigned, hb]
    exact hy
  rw [FieldTag.fits, hsigned, Bool.and_eq_true] at hfits
  rw [decodeField] at h
  cases hbare : tag.bare with
  | true =>
    rw [hbare] at h
    obtain ⟨x, c, hrewritten⟩ := hty _ _ _ _ h hlevels
    have hlength := length_encodeTLV_le_iff.1 hrewritten.length
    refine ⟨x, c, hencoded hrewritten.encode (by rw [wrapField, if_pos hbare]), hlength, ?_, ?_⟩
    · rw [isAbsent_of_decodeValue h, contentOf_encodeTLV hsmall, FieldTag.inner, hbare,
        Bool.true_or, if_pos rfl]
    · simp only [FieldTag.strict, FieldTag.data, hbare, hsigned, Bool.true_or, Bool.not_false,
        Bool.true_and, if_true]
      rw [← hrewritten.same]
      constructor
      · rintro ⟨rfl, rfl⟩
        rfl
      · exact encodeTLV_inj
  | false =>
    rw [hbare, if_neg (by decide)] at hfits h
    cases himplicit : tag.implicit with
    | true =>
      rw [himplicit] at h
      rw [himplicit, if_pos rfl, if_neg (by decide), Bool.and_eq_true] at hfits
      have hinner : tag.inner e = e.content := by
        rw [FieldTag.inner, himplicit, Bool.or_true, if_pos rfl]
      have hdata : tag.data ty e = encodeTLV (tagForImplicitField ty) e.content := by
        rw [FieldTag.data, hbare, himplicit]
        rfl
      by_cases hinteger : tagForImplicitField ty = tagInteger
      · rw [if_pos hinteger, hsigned] at h
        obtain ⟨z, hz, h⟩ := bind_ok.1 h
        obtain ⟨hencode, habsent, hstrict⟩ := encode_of_setSigned h hlevels
        have hwritten : encodeInteger z = dropRedundant e.content := encodeInteger_of_decode hz
        have hdrop := length_dropRedundant e.content
        rw [hwritten] at hencode
        refine ⟨_, _, hencoded hencode (wrapField_implicit hbare himplicit (by omega)),
          hdrop, ?_, ?_⟩
        · rw [habsent, integer_not_octets hinteger]
          rfl
        · simp only [FieldTag.strict, hbare, himplicit, hsigned, hstrict, hinteger, Bool.not_true,
            Bool.not_false, Bool.false_or, Bool.true_or, and_true, Bool.and_eq_true, beq_iff_eq,
              dropRedundant_eq_self_iff]
          exact and_congr_left' eq_comm
      · rw [if_neg hinteger] at h
        obtain ⟨x, c, hrewritten⟩ := hty _ _ _ _ h hlevels
        have hlength := length_encodeTLV_le_iff.1 hrewritten.length
        have hx := hrewritten.tagged hfits.2.1
        refine ⟨_, c, hencoded hrewritten.encode (wrapField_implicit hbare himplicit (by omega)),
          hlength, ?_, ?_⟩
        · rw [isAbsent_of_decodeValue h, contentOf_encodeTLV hsmall, hinner]
        · have hsame : c = e.content ↔ ty.strict (tag.data ty e) = true := by
            rw [hdata, ← hrewritten.same, hx, encodeTLV_eq_iff]
          have hother : (tagForImplicitField ty != tagInteger) = true := bne_iff_ne.2 hinteger
          simp only [FieldTag.strict, hbare, himplicit, hsigned, hother, Bool.not_true,
            Bool.not_false, Bool.false_or, Bool.true_or, and_true, Bool.and_eq_true,
              beq_iff_eq, ← hsame, hx]
          exact and_congr_left' eq_comm
    | false =>
      rw [himplicit, hsigned] at h
      obtain ⟨x, c, hrewritten⟩ := hty _ _ _ _ h hlevels
      have htaken := tag_of_takesField hbare himplicit htakes
      refine ⟨_, _, hencoded hrewritten.encode (wrapField_explicit hbare himplicit _),
        hrewritten.length, ?_, ?_⟩
      · rw [isAbsent_of_decodeValue h, FieldTag.inner, hbare, himplicit]
        rfl
      · simp only [FieldTag.strict, FieldTag.data, hbare, himplicit, hsigned, Bool.not_false,
          Bool.false_or, Bool.true_or, Bool.true_and, Bool.false_eq_true,
            if_false, ← hrewritten.same, htaken, true_and]

end

variable {tag : FieldTag} {rest : Fields} {depth depth' : ℕ}

/-! ## The fields of a struct -/

theorem isAbsent_zero (h : t.nilable = true) : isAbsent t t.zero = true := by
  unfold Ty.nilable at h
  split at h <;> first | rfl | cases h

/-- Only an optional field leaves an element. -/
theorem optional_of_takesField {ty : Ty} {nextTag : UInt8}
    (h : takesField tag ty rest nextTag = .ok false) : tag.optional = true := by
  unfold takesField at h
  cases hoptional : tag.optional with
  | true => rfl
  | false =>
    simp only [hoptional, Bool.false_and, Bool.false_eq_true, if_false] at h
    split_ifs at h <;> cases h

variable {name : String}

/-- What the decoder does with one field: it leaves it out, or takes the next element for it. -/
theorem decodeFields_cons {ty : Ty} {content : Bytes} {depth : ℕ}
    {v : ty.Val} {vs : rest.Vals}
    (h : decodeFields (.cons name tag ty rest) content depth = .ok (v, vs)) :
    (v = ty.zero ∧ tag.optional = true ∧ decodeFields rest content depth = .ok vs ∧
      (content = [] ∨ ∃ e, readTLV content = .ok e ∧ takesField tag ty rest e.tag = .ok false)) ∨
    ∃ (e : Element) (tail : Bytes), content = encodeTLV e.tag e.content ++ tail ∧
      e.size = (encodeTLV e.tag e.content).length ∧
      e.content.length < 2 ^ 32 ∧ takesField tag ty rest e.tag = .ok true ∧
      decodeField tag ty (encodeTLV e.tag e.content) e.content depth = .ok v ∧
      decodeFields rest tail depth = .ok vs := by
  rw [decodeFields] at h
  by_cases hnil : content = []
  · rw [if_pos hnil] at h
    obtain ⟨hoptional, h⟩ := ensure_bind_ok.1 h
    obtain ⟨vs', hvs, h⟩ := bind_ok.1 h
    obtain ⟨rfl, rfl⟩ := Prod.mk.inj (ok.inj h)
    exact .inl ⟨rfl, hoptional, hvs, .inl hnil⟩
  · rw [if_neg hnil] at h
    obtain ⟨e, he, h⟩ := bind_ok.1 h
    obtain ⟨takes, htakes, h⟩ := bind_ok.1 h
    cases takes with
    | false =>
      obtain ⟨vs', hvs, h⟩ := bind_ok.1 h
      obtain ⟨rfl, rfl⟩ := Prod.mk.inj (ok.inj h)
      exact .inl ⟨rfl, optional_of_takesField htakes, hvs, .inr ⟨e, he, htakes⟩⟩
    | true =>
      obtain ⟨_, -, h⟩ := bind_ok.1 h
      obtain ⟨v', hv, h⟩ := bind_ok.1 h
      obtain ⟨vs', hvs, h⟩ := bind_ok.1 h
      obtain ⟨rfl, rfl⟩ := Prod.mk.inj (ok.inj h)
      obtain ⟨tail, rfl, hsize, hsmall⟩ := readTLV_ok.1 he
      rw [hsize, take_left] at hv
      rw [hsize, drop_left] at hvs
      exact .inr ⟨e, tail, rfl, hsize, hsmall, htakes, within_ok.1 hv, hvs⟩

/-- The options of every field go with its type. -/
def Fields.fit : Fields → Bool
  | .nil => true
  | .cons _ tag ty rest => tag.fits ty && rest.fit

/-- The fields read from the content are written again, never longer, and the same exactly if the
content is strict. -/
def FieldsCanonical (fs : Fields) : Prop :=
  ∀ content vs depth depth', decodeFields fs content depth = .ok vs →
  depth' + fs.levels ≤ maxDepth → ∃ content', encodeFields fs vs depth' = .ok content' ∧
    content'.length ≤ content.length ∧ (content' = content ↔ fs.strict content = true)

theorem fieldsCanonical_nil : FieldsCanonical .nil := by
  intro content vs depth depth' h _
  obtain ⟨hnil, -⟩ := ensure_bind_ok.1 h
  obtain rfl := hnil
  exact ⟨[], rfl, le_rfl, iff_of_true rfl rfl⟩

theorem fieldsCanonical_cons {ty : Ty} (hfits : tag.fits ty = true)
    (hty : Canonical ty) (hrest : FieldsCanonical rest) :
    FieldsCanonical (.cons name tag ty rest) := by
  rintro content ⟨v, vs⟩ depth depth' h hlevels
  rw [Fields.levels] at hlevels
  rcases decodeFields_cons h with ⟨rfl, hoptional, hvs, hleft⟩ | ⟨e, tail, rfl, hsize, hsmall,
    htakes, hv, hvs⟩
  · -- left out, and left out again
    have hnilable : ty.nilable = true := by
      rw [FieldTag.fits, hoptional, Bool.and_eq_true] at hfits
      exact hfits.1
    obtain ⟨content', hencode, hlength, hsame⟩ := hrest content vs depth depth' hvs (by omega)
    refine ⟨content', ?_, hlength, ?_⟩
    · rw [encodeFields, hoptional, isAbsent_zero hnilable]
      exact hencode
    · rw [hsame, Fields.strict]
      rcases hleft with rfl | ⟨e, he, htakes⟩
      · rfl
      · rw [he]
        simp only [htakes]
  · obtain ⟨tail', hencode, hlength, hsame⟩ := hrest tail vs depth depth' hvs (by omega)
    have hdepth : depth' + 1 + ty.levels ≤ maxDepth := by omega
    obtain ⟨x, c, hfield⟩ : ∃ x c, FieldRewritten tag ty v e depth' x c := by
      cases hsigned : tag.signed with
      | false => exact field_unsigned_canonical hfits hsigned hty hdepth hsmall htakes hv
      | true =>
        obtain ⟨hbare, hunsigned⟩ := unsigned_of_fits hfits hsigned
        exact field_signed_canonical hbare hsigned hunsigned hsmall htakes hv
    have hc := hfield.length
    have hleaves : (tag.optional && isAbsent ty v) = tag.leavesOut ty e := by
      rw [hfield.absent, FieldTag.leavesOut]
    have he : readTLV (encodeTLV e.tag e.content ++ tail) = .ok e :=
      readTLV_ok.2 ⟨tail, rfl, hsize, hsmall⟩
    rw [Fields.strict, he]
    simp only [htakes]
    rw [hsize, drop_left]
    cases hout : tag.leavesOut ty e with
    | true =>
      -- an empty octet string is dropped, and the content gets shorter
      have hshorter : tail'.length < (encodeTLV e.tag e.content ++ tail).length := by
        rw [length_append, length_encodeTLV]
        omega
      refine ⟨tail', ?_, hshorter.le, iff_of_false (fun heq => ?_) (by simp)⟩
      · rw [encodeFields, hleaves, hout, if_pos rfl, hencode]
      · rw [heq] at hshorter
        exact lt_irrefl _ hshorter
    | false =>
      refine ⟨encodeTLV x c ++ tail', ?_, ?_, ?_⟩
      · have hencoded := hfield.encode
        rw [encodeField, bind_ok] at hencoded
        obtain ⟨encoded, hvalue, hwrap⟩ := hencoded
        rw [encodeFields, hleaves, hout, if_neg (by decide), hvalue]
        simp only [within, Except.mapError, ok_bind, hwrap, hencode]
      · have hle : (encodeTLV x c).length ≤ (encodeTLV e.tag e.content).length :=
          length_encodeTLV_le_iff.2 hc
        rw [length_append, length_append]
        omega
      · rw [Bool.not_false, Bool.true_and, Bool.and_eq_true, ← hfield.same, ← hsame]
        constructor
        · intro heq
          obtain ⟨hx, hc', htail⟩ := encodeTLV_append_inj (by omega) hsmall heq
          exact ⟨⟨hx, hc'⟩, htail⟩
        · rintro ⟨⟨rfl, rfl⟩, rfl⟩
          rfl

/-! ## Alternatives -/

theorem isNilPointer_of_decodeValue {depth : ℕ} {v : t.Val}
    (h : decodeValue t data depth = .ok v) : isNilPointer t v = false := by
  match t with
  | .ptr elem => exact (isAbsent_of_decodeValue h).trans rfl
  | .slice _ | .struct _ _ | .prim _ => rfl

theorem choiceCount_zeros {fs : Fields} (h : fs.pointers = true) : choiceCount fs fs.zeros = 0 := by
  match fs with
  | .nil => rfl
  | .cons _ tag (.ptr elem) rest =>
    have hnil : isNilPointer (.ptr elem) (Ty.ptr elem).zero = true := rfl
    have hrest : rest.pointers = true := h
    rw [Fields.zeros, choiceCount, hnil, Bool.not_true, Bool.and_false, if_neg (by decide),
      choiceCount_zeros hrest]

/-- The alternative read under a tag is the only one that is set, and it is written under that
tag. -/
def ChoiceCanonical (fs : Fields) : Prop :=
  ∀ tag content vs depth depth', decodeChoice fs tag content depth = .ok vs →
  depth' + fs.levels ≤ maxDepth → choiceCount fs vs = 1 ∧ ∃ c, encodeChoice fs vs depth' =
    .ok (encodeTLV tag c) ∧
    c.length ≤ content.length ∧ (c = content ↔ fs.choiceStrict tag content = true)

theorem choiceCanonical_nil : ChoiceCanonical .nil := by
  intro tag content vs depth depth' h
  cases h

theorem choiceCanonical_cons {field : FieldTag} {ty : Ty} (hty : Canonical ty)
    (hrest : rest.pointers = true → ChoiceCanonical rest)
    (hpointers : (Fields.cons name field ty rest).single = true ∨
      (Fields.cons name field ty rest).pointers = true) :
    ChoiceCanonical (.cons name field ty rest) := by
  rintro tag content ⟨v, vs⟩ depth depth' h hlevels
  rw [Fields.levels] at hlevels
  rw [decodeChoice] at h
  split_ifs at h with htag
  · obtain ⟨hchoice, heq⟩ := Bool.and_eq_true _ _ ▸ htag
    obtain rfl := beq_iff_eq.1 heq
    obtain ⟨v', hv, h⟩ := bind_ok.1 h
    obtain ⟨rfl, rfl⟩ := Prod.mk.inj (ok.inj h)
    have hset : (field.choice && !isNilPointer ty v') = true := by
      rw [hchoice, isNilPointer_of_decodeValue hv]
      rfl
    have hothers : choiceCount rest rest.zeros = 0 := by
      rcases hpointers with hsingle | hpointers
      · cases rest with
        | nil => rfl
        | cons => cases hsingle
      · rw [Fields.pointers, Bool.and_eq_true] at hpointers
        exact choiceCount_zeros hpointers.2
    obtain ⟨x, c, hrewritten⟩ := hty content v' (depth + 1) (depth' + 1) hv (by omega)
    refine ⟨by rw [choiceCount, if_pos hset, hothers], encodeTLV x c, ?_, hrewritten.length, ?_⟩
    · rw [encodeChoice, if_pos hset, hrewritten.encode, ok_bind]
    · rw [Fields.choiceStrict, if_pos htag, hrewritten.same]
  · obtain ⟨vs', hvs, h⟩ := bind_ok.1 h
    obtain ⟨rfl, rfl⟩ := Prod.mk.inj (ok.inj h)
    -- another alternative is read, so there is one, and this one is a nil pointer
    have hboth : ty.isPointer = true ∧ rest.pointers = true := by
      rcases hpointers with hsingle | hpointers
      · cases rest with
        | nil => cases hvs
        | cons => cases hsingle
      · rwa [Fields.pointers, Bool.and_eq_true] at hpointers
    have hunset : (field.choice && !isNilPointer ty ty.zero) = false := by
      have hnil : isNilPointer ty ty.zero = true := by
        cases ty with
        | ptr => rfl
        | _ => cases hboth.1
      rw [hnil, Bool.not_true, Bool.and_false]
    obtain ⟨hcount, c, hencode, hlength, hsame⟩ :=
      hrest hboth.2 tag content vs' depth depth' hvs (by omega)
    refine ⟨?_, c, ?_, hlength, ?_⟩
    · rw [choiceCount, hunset, hcount]
      rfl
    · rw [encodeChoice, hunset, if_neg (by decide), hencode]
    · rw [Fields.choiceStrict, if_neg htag, hsame]

/-! ## Structs -/

variable {fields : Fields}

theorem canonical_application {application : UInt8} (hfields : FieldsCanonical fields) :
    Canonical (.struct (some application) fields) := by
  intro data vs depth depth' h hlevels
  rw [Ty.levels] at hlevels
  obtain ⟨_, -, h⟩ := bind_ok.1 h
  obtain ⟨e, hread, h⟩ := bind_ok.1 h
  obtain ⟨htag, h⟩ := ensure_bind_ok.1 h
  obtain ⟨i, hi, h⟩ := bind_ok.1 h
  obtain ⟨⟨hinnerTag, hsize⟩, h⟩ := ensure_bind_ok.1 h
  obtain ⟨_, -, h⟩ := bind_ok.1 h
  obtain ⟨hdata, -, hsmall⟩ := readWhole_ok.1 hread
  obtain ⟨hcontent, -, hinnerSmall⟩ := readWhole_ok.1 (readWhole_of_readTLV hi hsize "")
  obtain ⟨content', hencode, hlength, hsame⟩ :=
    hfields i.content vs (depth + 2) (depth' + 1) h (by omega)
  have hle : (encodeTLV tagSequence content').length ≤ e.content.length := by
    rw [hcontent, length_encodeTLV_le_iff]
    exact hlength
  refine ⟨0x60 ||| application, encodeTLV tagSequence content', ?_, ?_,
    (fun htagged => by cases htagged), ?_⟩
  · rw [encodeValue, ensure_bind (by omega), ensure_bind (by omega), hencode,
      ok_bind]
  · rw [hdata, length_encodeTLV_le_iff]
    exact hle
  · have hparts : contentOf (contentOf data) = i.content := by
      rw [hdata, contentOf_encodeTLV hsmall, hcontent, contentOf_encodeTLV hinnerSmall]
    rw [Ty.strict, hparts, ← hsame, hdata, htag, encodeTLV_eq_iff, hcontent, hinnerTag,
      encodeTLV_eq_iff]

theorem encodeValue_struct (vs : (Ty.struct none fields).Val) {depth : ℕ} (h : depth ≤ maxDepth) :
    encodeValue (.struct none fields) vs depth =
      if choiceCount fields vs = 1 then encodeChoice fields vs depth
      else encodeFields fields vs depth >>= fun content => .ok (encodeTLV tagSequence content) := by
  rw [encodeValue, ensure_bind h]

/-- A struct that comes as a SEQUENCE and is written as one. -/
theorem sequence_rewritten (hfields : FieldsCanonical fields) {e : Element}
    {vs : fields.Vals} (hread : readWhole data err = .ok e) (htag : e.tag = tagSequence)
    (hcount : choiceCount fields vs ≠ 1) (hchoice : choicesFor e.tag fields ≠ 1)
    (hsingle : (fields.hasChoice && fields.single) = false)
    (hlevels : depth' + fields.levels ≤ maxDepth)
    (h : decodeFields fields e.content depth = .ok vs) :
    ∃ content', Rewritten (.struct none fields) vs data depth' tagSequence content' := by
  obtain ⟨hdata, -, hsmall⟩ := readWhole_ok.1 hread
  obtain ⟨content', hencode, hlength, hsame⟩ := hfields e.content vs depth depth' h hlevels
  refine ⟨content', (encodeValue_struct vs (by omega)).trans ?_, ?_, fun _ => rfl, ?_⟩
  · rw [if_neg hcount, hencode, ok_bind]
  · rw [hdata, length_encodeTLV_le_iff]
    exact hlength
  · rw [Ty.strict, headD_of_readWhole hread, if_neg hchoice, hsingle, Bool.not_false, Bool.true_and,
      hdata, contentOf_encodeTLV hsmall, htag, encodeTLV_eq_iff, hsame]

/-- How a struct without an application tag is read. -/
theorem decodeValue_struct {depth : ℕ} {vs : fields.Vals}
    (h : decodeValue (.struct none fields) data depth = .ok vs) :
    ∃ e, readWhole data "trailing data in value" = .ok e ∧
      ((choicesFor e.tag fields = 1 ∧ decodeChoice fields e.tag e.content depth = .ok vs) ∨
        (choicesFor e.tag fields ≠ 1 ∧ e.tag = tagSequence ∧
          decodeFields fields e.content (depth + 1) = .ok vs)) := by
  obtain ⟨_, -, h⟩ := bind_ok.1 h
  obtain ⟨e, hread, h⟩ := bind_ok.1 h
  refine ⟨e, hread, ?_⟩
  by_cases hchoice : choicesFor e.tag fields = 1
  · exact .inl ⟨hchoice, (if_pos hchoice).symm.trans h⟩
  · have h := (if_neg hchoice).symm.trans h
    obtain ⟨htag, h⟩ := ensure_bind_ok.1 h
    exact .inr ⟨hchoice, htag, h⟩

theorem canonical_sequence (hnone : fields.hasChoice = false) (hfields : FieldsCanonical fields) :
    Canonical (.struct none fields) := by
  intro data vs depth depth' h hlevels
  obtain ⟨e, hread, ⟨hchoice, -⟩ | ⟨hchoice, htag, h⟩⟩ := decodeValue_struct h
  · rw [choicesFor_eq_zero hnone] at hchoice
    cases hchoice
  · have hcount : choiceCount fields vs ≠ 1 := by
      have hzero : choiceCount fields vs = 0 := choiceCount_eq_zero hnone vs
      omega
    obtain ⟨content', hrewritten⟩ :=
      sequence_rewritten hfields hread htag hcount hchoice (by rw [hnone]; rfl) hlevels h
    exact ⟨_, _, hrewritten⟩

/-- The number of fields. -/
def Fields.size : Fields → ℕ
  | .nil => 0
  | .cons _ _ _ rest => rest.size + 1

/-- Alternatives that come one behind the other are all set. -/
theorem choiceCount_of_decodeFields {fs : Fields} (hfs : fs.alternatives = true)
    {content : Bytes} {depth : ℕ}
    {vs : fs.Vals} (h : decodeFields fs content depth = .ok vs) : choiceCount fs vs = fs.size := by
  match fs, vs with
  | .nil, _ => rfl
  | .cons name tag ty rest, (v, vs) =>
    obtain ⟨hchoice, hoptional, himplicit, hsigned, hbare, -, hrest⟩ := alternatives_cons.1 hfs
    rcases decodeFields_cons h with ⟨-, hleft, -⟩ | ⟨e, tail, -, -, -, -, hv, hvs⟩
    · rw [hoptional] at hleft
      cases hleft
    · rw [decodeField, hbare, himplicit, hsigned] at hv
      rw [choiceCount, hchoice, isNilPointer_of_decodeValue hv,
        choiceCount_of_decodeFields hrest hvs, add_comm]
      rfl

/-- The tag of a CHOICE is not that of a SEQUENCE. -/
theorem choice_ne_sequence (n : UInt8) : 0xa0 ||| n ≠ tagSequence := by
  have h : ∀ n : Fin 256, 0xa0 ||| UInt8.ofFin n ≠ tagSequence := by decide +kernel
  exact h n.toFin

/-- A single alternative in a SEQUENCE is written without it. -/
theorem single_rewritten {ty : Ty}
    (hfs : (Fields.cons name tag ty .nil).alternatives = true)
    (hchoices : ChoiceCanonical (.cons name tag ty .nil)) {e : Element}
    {vs : (Fields.cons name tag ty .nil).Vals} (hread : readWhole data err = .ok e)
    (htag : e.tag = tagSequence) (hchoice : choicesFor e.tag (.cons name tag ty .nil) ≠ 1)
    (hlevels : depth' + (Fields.cons name tag ty .nil).levels ≤ maxDepth)
    (h : decodeFields (.cons name tag ty .nil) e.content depth = .ok vs) :
    ∃ x c, Rewritten (.struct none (.cons name tag ty .nil)) vs data depth' x c := by
  obtain ⟨hisChoice, hoptional, himplicit, hsigned, hbare, -⟩ := alternatives_cons.1 hfs
  obtain ⟨v, vs⟩ := vs
  obtain ⟨hdata, -, hsmall⟩ := readWhole_ok.1 hread
  rcases decodeFields_cons h with ⟨-, hleft, -⟩ | ⟨i, tail, hcontent, -, -, -, hv, -⟩
  · rw [hoptional] at hleft
    cases hleft
  · rw [decodeField, hbare, himplicit, hsigned] at hv
    have hdecode : decodeChoice (.cons name tag ty .nil) (0xa0 ||| tag.number) i.content depth =
        .ok (v, vs) := by
      rw [decodeChoice, hisChoice, beq_self_eq_true]
      exact (congrArg (· >>= _) hv).trans rfl
    obtain ⟨hcount, c, hencode, hle, -⟩ := hchoices _ _ _ depth depth' hdecode hlevels
    refine ⟨0xa0 ||| tag.number, c, (encodeValue_struct _ (by omega)).trans ?_, ?_,
      fun htagged => ?_, iff_of_false (fun heq => ?_) ?_⟩
    · rw [if_pos hcount, hencode]
    · have hlength := length_encodeTLV i.tag i.content
      rw [hdata, length_encodeTLV_le_iff, hcontent, length_append]
      omega
    · have hnot : (!(Fields.cons name tag ty .nil).hasChoice) = true := htagged
      rw [Fields.hasChoice, hisChoice] at hnot
      cases hnot
    · rw [hdata, htag] at heq
      exact choice_ne_sequence tag.number (head_eq_of_cons_eq heq)
    · have hisSingle : ((Fields.cons name tag ty .nil).hasChoice &&
          (Fields.cons name tag ty .nil).single) = true := by
        rw [Fields.hasChoice, hisChoice]
        rfl
      rw [Ty.strict, headD_of_readWhole hread, if_neg hchoice, hisSingle]
      simp

theorem canonical_choice (hsome : fields.hasChoice = true)
    (halternatives : fields.alternatives = true)
    (hfields : FieldsCanonical fields) (hchoices : ChoiceCanonical fields) :
    Canonical (.struct none fields) := by
  intro data vs depth depth' h hlevels
  obtain ⟨e, hread, ⟨hchoice, h⟩ | ⟨hchoice, htag, h⟩⟩ := decodeValue_struct h
  · obtain ⟨hdata, -, hsmall⟩ := readWhole_ok.1 hread
    obtain ⟨hcount, c, hencode, hlength, hsame⟩ :=
      hchoices e.tag e.content vs depth depth' h hlevels
    refine ⟨e.tag, c, ?_, ?_, fun htagged => ?_, ?_⟩
    · rw [encodeValue, ensure_bind (by omega), if_pos hcount, hencode]
    · rw [hdata, length_encodeTLV_le_iff]
      exact hlength
    · have hnot : (!fields.hasChoice) = true := htagged
      rw [hsome] at hnot
      cases hnot
    · rw [Ty.strict, headD_of_readWhole hread, if_pos hchoice, hdata, contentOf_encodeTLV hsmall,
        encodeTLV_eq_iff, hsame]
  · match fields with
    | .nil => cases hsome
    | .cons name tag ty .nil =>
      exact single_rewritten halternatives hchoices hread htag hchoice hlevels h
    | .cons name tag ty (.cons name' tag' ty' rest) =>
      have hcount := choiceCount_of_decodeFields halternatives h
      have hmore : choiceCount (.cons name tag ty (.cons name' tag' ty' rest)) vs ≠ 1 := by
        rw [hcount, Fields.size, Fields.size]
        omega
      obtain ⟨content', hrewritten⟩ :=
        sequence_rewritten hfields hread htag hmore hchoice (Bool.and_false _) hlevels h
      exact ⟨_, _, hrewritten⟩

theorem fit_of_separated {fs : Fields} (h : fs.separated = true) : fs.fit = true := by
  match fs with
  | .nil => rfl
  | .cons _ tag ty rest =>
    rw [Fields.separated, Bool.and_eq_true, Bool.and_eq_true, Bool.and_eq_true] at h
    rw [Fields.fit, h.1.1.1, fit_of_separated h.2]
    rfl

theorem fit_of_alternatives {fs : Fields} (h : fs.alternatives = true) : fs.fit = true := by
  match fs with
  | .nil => rfl
  | .cons _ tag ty rest =>
    obtain ⟨-, hoptional, himplicit, hsigned, hbare, -, hrest⟩ := alternatives_cons.1 h
    rw [Fields.fit, fit_of_alternatives hrest, FieldTag.fits, hoptional, hbare, himplicit, hsigned]
    rfl

/-! ## All types -/

mutual

/-- **Every value read is written again**, and as it was read exactly if the octets are strict. -/
theorem canonical : (t : Ty) → t.wellFormed = true → Canonical t
  | .prim p, _ => canonical_prim p
  | .slice elem, h => canonical_slice (canonical elem h)
  | .ptr elem, h => canonical_ptr (canonical elem h)
  | .struct (some application) fields, h => by
    obtain ⟨hfields, ⟨-, hseparated⟩ | ⟨-, hnone, -⟩⟩ := wellFormed_struct h
    · exact canonical_application (fieldsCanonical fields hfields (fit_of_separated hseparated))
    · cases hnone
  | .struct none fields, h => by
    obtain ⟨hfields, ⟨hchoice, hseparated⟩ | ⟨hchoice, -, halternatives, hpointers⟩⟩ :=
      wellFormed_struct h
    · exact canonical_sequence hchoice
        (fieldsCanonical fields hfields (fit_of_separated hseparated))
    · exact canonical_choice hchoice halternatives
        (fieldsCanonical fields hfields (fit_of_alternatives halternatives))
        (choiceCanonical fields hfields hpointers)

theorem fieldsCanonical : (fs : Fields) → fs.wellFormed = true → fs.fit = true → FieldsCanonical fs
  | .nil, _, _ => fieldsCanonical_nil
  | .cons _ _ ty rest, h, hfit => by
    rw [Fields.wellFormed, Bool.and_eq_true] at h
    rw [Fields.fit, Bool.and_eq_true] at hfit
    exact fieldsCanonical_cons hfit.1 (canonical ty h.1) (fieldsCanonical rest h.2 hfit.2)

theorem choiceCanonical :
    (fs : Fields) → fs.wellFormed = true → fs.single = true ∨ fs.pointers = true →
    ChoiceCanonical fs
  | .nil, _, _ => choiceCanonical_nil
  | .cons _ _ ty rest, h, hpointers => by
    rw [Fields.wellFormed, Bool.and_eq_true] at h
    exact choiceCanonical_cons (canonical ty h.1)
      (fun hrest => choiceCanonical rest h.2 (.inr hrest)) hpointers

end

/-- **An accepted byte string is the encoding of its value exactly if it is strict.** -/
theorem marshal_unmarshal_iff (t : Ty) (ht : t ∈ Messages.all) (b : Bytes) (v : t.Val)
    (h : unmarshal t b = .ok v) :
    marshal t v = .ok b ↔ t.strict b = true := by
  obtain ⟨_, -, hdecode⟩ := bind_ok.1 (within_ok.1 h)
  have hlevels := levels t ht
  obtain ⟨tag, content, hrewritten⟩ := canonical t (wellFormed t ht) b v 0 0 hdecode (by omega)
  have hmarshal : marshal t v = .ok (encodeTLV tag content) := within_ok.2 hrewritten.encode
  rw [hmarshal, ok.injEq]
  exact hrewritten.same

namespace Sample

/-- `EncryptedData` of enctype 18 with an empty cipher and this key version. -/
def encryptedData (kvno : UInt32) : encryptedData.Val :=
  ((18 : Int32), some kvno, (none : Option Bytes), ())

/-- Its encoding, with the content octets of the key version. -/
def encrypted (kvno : Bytes) : Bytes :=
  encodeTLV 0x30 (encodeTLV 0xa0 [2, 1, 18] ++ encodeTLV 0xa1 (encodeTLV 2 kvno) ++
    encodeTLV 0xa2 [4, 0])

end Sample

/-- Key version 5, in one octet. -/
theorem marshal_unmarshal_kvno :
    unmarshal encryptedData (Sample.encrypted [5]) = .ok (Sample.encryptedData 5) ∧
    marshal encryptedData (Sample.encryptedData 5) = .ok (Sample.encrypted [5]) := by
  have hread : unmarshal encryptedData (Sample.encrypted [5]) = .ok (Sample.encryptedData 5) := rfl
  have hmem : encryptedData ∈ Messages.all := by
    unfold Messages.all
    simp
  exact ⟨hread, (marshal_unmarshal_iff _ hmem _ _ hread).2 (by decide +kernel)⟩

/-- Key version `2 ^ 32 + 5`, in five octets, is read as 5 and written in one. -/
theorem kvno_cut :
    unmarshal encryptedData (Sample.encrypted [1, 0, 0, 0, 5]) = .ok (Sample.encryptedData 5) ∧
    marshal encryptedData (Sample.encryptedData 5) = .ok (Sample.encrypted [5]) ∧
    Sample.encrypted [5] ≠ Sample.encrypted [1, 0, 0, 0, 5] :=
  ⟨rfl, rfl, by decide⟩

/-- **What is read can be written again**, in no more octets. -/
theorem marshal_of_unmarshal (t : Ty) (ht : t ∈ Messages.all) (b : Bytes) (v : t.Val)
    (h : unmarshal t b = .ok v) :
    ∃ b', marshal t v = .ok b' ∧ b'.length ≤ b.length := by
  obtain ⟨_, -, hdecode⟩ := bind_ok.1 (within_ok.1 h)
  have hlevels := levels t ht
  obtain ⟨tag, content, hrewritten⟩ := canonical t (wellFormed t ht) b v 0 0 hdecode (by omega)
  exact ⟨_, within_ok.2 hrewritten.encode, hrewritten.length⟩

theorem marshal_of_unmarshal_cut :
    ∃ b', marshal encryptedData (Sample.encryptedData 5) = .ok b' ∧ b'.length ≤ 20 :=
  marshal_of_unmarshal _ (by simp [Messages.all]) (Sample.encrypted [1, 0, 0, 0, 5])
    (Sample.encryptedData 5) rfl

end Kerberos.ASN1
