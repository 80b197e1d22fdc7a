import Kerberos.Proof.Schema

/-!
# Values read back from their encodings

`Unmarshal` undoes `Marshal` on the values in normal form, but for what Go keeps apart and the
encoding does not: an empty byte string comes back as nil, and a nil list that is not left out comes
back as an empty one. `Ty.settled` is the value that comes back.

* `reads_prim`, `reads_slice`, `reads_ptr`, `reads_sequence`, `reads_choice`: one fact for each kind
  of type, from the facts for its parts.
* `fieldsRead_cons`: the fields of a struct, by induction on their list; an absent one is passed
  over because the next element begins with the tag of a later one.
* `messages_read_back`: every type whose elements can be told apart.
-/

namespace Kerberos.ASN1

open List Except Bool Nat Messages

/-! ## Normal form -/

/-- A value without parts that can be written, and of which the encoding says everything. -/
def Prim.Normal : (p : Prim) → p.Val → Prop
  | .time, (t : KerberosTime) => t.Plain
  | .oid, (v : Bytes) => validObjectIdentifierContent v = true
  | .raw, (v : Bytes) => ∃ e, readWhole v "" = .ok e
  | _, _ => True

/-- The encoding has fewer than `2 ^ 32` octets. -/
def Small (t : Ty) (v : t.Val) : Prop := ∀ b, encodeValue t v 0 = .ok b → b.length < 2 ^ 32

mutual

/-- The value is in normal form, `depth` levels down: pointers are set unless they are left out,
times are present and whole, one alternative of a CHOICE is set, the encoding is small, and
the decoder does not go deeper than it may. -/
def Ty.Normal : (t : Ty) → t.Val → ℕ → Prop
  | .prim p, v, depth => depth ≤ maxDepth ∧ Small (.prim p) v ∧ p.Normal v
  | .slice elem, v, depth => depth ≤ maxDepth ∧ Small (.slice elem) v ∧
    ∀ item ∈ (v : Option (List elem.Val)).getD [], elem.Normal item (depth + 1)
  | .ptr elem, v, depth =>
    depth ≤ maxDepth ∧ ∃ x, (v : Option elem.Val) = some x ∧ elem.Normal x (depth + 1)
  | .struct (some application) fields, vs, depth => depth + 1 ≤ maxDepth ∧
    Small (.struct (some application) fields) vs ∧ fields.Normal vs (depth + 2)
  | .struct none fields, vs, depth => depth ≤ maxDepth ∧ Small (.struct none fields) vs ∧
    if fields.hasChoice then choiceCount fields vs = 1 ∧ fields.ChoiceNormal vs depth
    else fields.Normal vs (depth + 1)

def Fields.Normal : (fs : Fields) → fs.Vals → ℕ → Prop
  | .nil, _, _ => True
  | .cons _ tag ty rest, (v, vs), depth =>
    (if tag.optional && isAbsent ty v then True
    else if tag.signed then isAbsent ty v = false
    else ty.Normal v (depth + 1)) ∧ rest.Normal vs depth

def Fields.ChoiceNormal : (fs : Fields) → fs.Vals → ℕ → Prop
  | .nil, _, _ => True
  | .cons _ _ ty rest, (v, vs), depth =>
    (isNilPointer ty v = true ∨ ty.Normal v (depth + 1)) ∧ rest.ChoiceNormal vs depth

end

/-- The value that comes back. -/
def Prim.settled : (p : Prim) → p.Val → p.Val
  | .octets, (v : Option Bytes) => (if v.getD [] = [] then none else v : Option Bytes)
  | _, v => v

mutual

def Ty.settled : (t : Ty) → t.Val → t.Val
  | .prim p, v => p.settled v
  | .slice elem, v =>
    (some (((v : Option (List elem.Val)).getD []).map elem.settled) : Option (List elem.Val))
  | .ptr elem, v => (v : Option elem.Val).map elem.settled
  | .struct _ fields, vs => fields.settled vs

def Fields.settled : (fs : Fields) → fs.Vals → fs.Vals
  | .nil, _ => ()
  | .cons _ tag ty rest, (v, vs) =>
    (if tag.optional && isAbsent ty v then v else ty.settled v, rest.settled vs)

end

/-! ## The depth does not show -/

mutual

/-- What is encoded further down is encoded alike higher up. -/
theorem encodeValue_depth : (t : Ty) → (v : t.Val) → {depth depth' : ℕ} → depth' ≤ depth →
    Below (encodeValue t v depth) (encodeValue t v depth')
  | .prim p, v, _, _, hle => by
    rw [encodeValue, encodeValue]
    exact .last (.ensure hle.trans)
  | .ptr elem, v, _, _, hle => by
    rw [encodeValue.eq_def, encodeValue.eq_def (.ptr elem)]
    refine .bind (.ensure hle.trans) fun _ => ?_
    cases v with
    | none => exact .refl _
    | some v => exact encodeValue_depth elem v (succ_le_succ hle)
  | .slice elem, v, _, _, hle => by
    rw [encodeValue, encodeValue]
    refine .bind (.ensure hle.trans) fun _ => .last (.mapM fun item => ?_)
    exact encodeValue_depth elem item (succ_le_succ hle)
  | .struct (some application) fields, vs, _, _, hle => by
    rw [encodeValue, encodeValue]
    refine .bind (.ensure hle.trans) fun _ =>
      .bind (.ensure (succ_le_succ hle).trans) fun _ => .last ?_
    exact encodeFields_depth fields vs (succ_le_succ hle)
  | .struct none fields, vs, _, _, hle => by
    rw [encodeValue, encodeValue]
    refine .bind (.ensure hle.trans) fun _ => .ite (fun _ => ?_) fun _ => .last ?_
    · exact encodeChoice_depth fields vs hle
    · exact encodeFields_depth fields vs hle

theorem encodeFields_depth : (fs : Fields) → (vs : fs.Vals) → {depth depth' : ℕ} → depth' ≤ depth →
    Below (encodeFields fs vs depth) (encodeFields fs vs depth')
  | .nil, _, _, _, _ => .refl _
  | .cons _ tag ty rest, (v, vs), _, _, hle => by
    rw [encodeFields, encodeFields]
    refine .ite (fun _ => encodeFields_depth rest vs hle) fun _ => .bind (.within ?_) fun _ =>
      .next fun _ => .last ?_
    · exact .ite (fun _ => .refl _) fun _ => encodeValue_depth ty v (succ_le_succ hle)
    · exact encodeFields_depth rest vs hle

theorem encodeChoice_depth : (fs : Fields) → (vs : fs.Vals) → {depth depth' : ℕ} → depth' ≤ depth →
    Below (encodeChoice fs vs depth) (encodeChoice fs vs depth')
  | .nil, _, _, _, _ => .refl _
  | .cons _ tag ty rest, (v, vs), _, _, hle => by
    rw [encodeChoice, encodeChoice]
    refine .ite (fun _ => .last ?_) fun _ => encodeChoice_depth rest vs hle
    exact encodeValue_depth ty v (succ_le_succ hle)

end

variable {t : Ty} {v : t.Val}

theorem Small.lt (h : Small t v) {depth : ℕ} {b : Bytes} (hb : encodeValue t v depth = .ok b) :
    b.length < 2 ^ 32 := h b (encodeValue_depth t v (zero_le depth) b hb)

theorem Small.of_encode {b : Bytes} (h : encodeValue t v 0 = .ok b) (hb : b.length < 2 ^ 32) :
    Small t v := by
  intro b' h'
  rw [← ok.inj (h.symm.trans h')]
  exact hb

/-! ## Types without parts -/

/-- The element a value is written as, and that it is read as the value that comes back. -/
structure ReadsPrim (p : Prim) (v : p.Val) (tag : UInt8) (content : Bytes) : Prop where
  encode : p.encode v = .ok (encodeTLV tag content)
  tagged : p ≠ .raw → tag = p.tag
  decode : ∀ size, p.decode (encodeTLV tag content) ⟨tag, content, size⟩ = .ok (p.settled v)

variable {content : Bytes}

theorem int32_range (v : Int32) : -2 ^ 31 ≤ v.toInt ∧ v.toInt < 2 ^ 31 :=
  ⟨Int32.le_toInt v, Int32.toInt_lt v⟩

theorem Prim.reads (p : Prim) (v : p.Val) (hnormal : p.Normal v) :
    ∃ tag content, ReadsPrim p v tag content := by
  cases p with
  | time =>
    refine ⟨tagGeneralizedTime, encodeGeneralizedTime v, rfl, fun _ => rfl, fun _ => ?_⟩
    simp only [decode, encodeGeneralizedTime_ne_nil hnormal.present, ne_eq]
    exact parseKerberosTime_encode hnormal
  | flags =>
    refine ⟨tagBitString, encodeFlags v, rfl, fun _ => rfl, fun _ => ?_⟩
    exact decodeFlags_encodeFlags v
  | utf8 => exact ⟨tagUTF8String, v, rfl, fun _ => rfl, fun _ => rfl⟩
  | string => exact ⟨tagGeneralString, v, rfl, fun _ => rfl, fun _ => rfl⟩
  | oid =>
    have hnormal : validObjectIdentifierContent v = true := hnormal
    refine ⟨tagObjectIdentifier, v, ?_, fun _ => rfl, fun _ => ?_⟩
    · simp only [encode, ensure_bind hnormal]
    · rw [decode, ensure_of ⟨rfl, hnormal⟩]
      rfl
  | raw =>
    obtain ⟨e, he⟩ := (hnormal : ∃ e, readWhole v "" = .ok e)
    obtain ⟨hv, -⟩ := readWhole_ok.1 he
    refine ⟨e.tag, e.content, ?_, fun h => absurd rfl h, fun _ => ?_⟩
    · rw [← hv]
      simp only [encode, he]
    · rw [← hv]
      rfl
  | int32 =>
    have hrange := int32_range v
    refine ⟨tagInteger, encodeInteger (v : Int32).toInt, rfl, fun _ => rfl, fun _ => ?_⟩
    simp only [decode, ok_bind,
      decodeInteger_encodeInteger (z := (v : Int32).toInt) (by omega) (by omega), ensure_of hrange]
    exact congrArg ok (Int32.ofInt_toInt v)
  | uint32 =>
    have hlt : (v : UInt32).toNat < 2 ^ 32 := UInt32.toNat_lt v
    refine ⟨tagInteger, encodeUnsignedInteger (v : UInt32).toNat, rfl, fun _ => rfl, fun _ => ?_⟩
    simp only [decode, ok_bind, decodeUnsignedInteger_encode hlt, ensure_of hlt]
    exact congrArg ok UInt32.ofNat_toNat
  | octets =>
    refine ⟨tagOctetString, (v : Option Bytes).getD [], rfl, fun _ => rfl, fun _ => ?_⟩
    cases v with
    | none => rfl
    | some v => cases v <;> rfl

/-! ## Pointers and lists -/

/-- A value is written as one element and read back from it. -/
structure ReadsBack (t : Ty) (v : t.Val) (depth depth' : ℕ) (tag : UInt8) (content : Bytes) :
    Prop where
  encode : encodeValue t v depth' = .ok (encodeTLV tag content)
  small : (encodeTLV tag content).length < 2 ^ 32
  tagged : t.taggedField = true → tag = tagForImplicitField t
  decode : decodeValue t (encodeTLV tag content) depth = .ok (t.settled v)

theorem ReadsBack.content_small {depth depth' : ℕ} {tag : UInt8}
    (h : ReadsBack t v depth depth' tag content) : content.length < 2 ^ 32 :=
  length_lt_encodeTLV.trans h.small

/-- All values in normal form are, wherever the encoder stands less deep than the decoder. -/
def Reads (t : Ty) : Prop := ∀ v depth depth', t.Normal v depth → depth' ≤ depth →
  ∃ tag content, ReadsBack t v depth depth' tag content

theorem reads_prim (p : Prim) : Reads (.prim p) := by
  rintro v depth depth' ⟨hdepth, hsmall, hnormal⟩ hle
  obtain ⟨tag, content, hreads⟩ := p.reads v hnormal
  have hencode : encodeValue (.prim p) v depth' = .ok (encodeTLV tag content) := by
    rw [encodeValue, ensure_bind (hle.trans hdepth), hreads.encode]
  have hcontent := length_lt_encodeTLV.trans (hsmall.lt hencode)
  refine ⟨tag, content, hencode, hsmall.lt hencode, fun htagged => hreads.tagged ?_, ?_⟩
  · rintro rfl
    cases htagged
  · rw [decodeValue, ensure_bind hdepth, readWhole_encodeTLV hcontent, ok_bind,
      hreads.decode]
    rfl

theorem taggedField_of_tagged (h : t.tagged = true) :
    t.taggedField = true ∧ tagForImplicitField t = tagForImplicitType t := by
  cases t with
  | ptr elem => cases h
  | _ => exact ⟨h, rfl⟩

theorem reads_ptr {elem : Ty} (h : Reads elem) : Reads (.ptr elem) := by
  rintro v depth depth' ⟨hdepth, x, rfl, hnormal⟩ hle
  obtain ⟨tag, content, hreads⟩ := h x (depth + 1) (depth' + 1) hnormal (succ_le_succ hle)
  refine ⟨tag, content, ?_, hreads.small, fun htagged => ?_, ?_⟩
  · rw [encodeValue, ensure_of (hle.trans hdepth)]
    exact hreads.encode
  · obtain ⟨hfield, htag⟩ := taggedField_of_tagged htagged
    exact (hreads.tagged hfield).trans htag
  · rw [decodeValue, ensure_bind hdepth, readWhole_encodeTLV hreads.content_small, hreads.decode]
    rfl

theorem decodeItems_succ {α : Type} {f : Bytes → Except String α} (h : content ≠ []) (fuel : ℕ) :
    decodeItems f (fuel + 1) content =
      (readTLV content >>= fun e => f (content.take e.size) >>= fun item =>
      decodeItems f fuel (content.drop e.size) >>= fun items => .ok (item :: items)) := by
  cases content with
  | nil => exact absurd rfl h
  | cons b rest => rfl

/-- Elements written one behind the other are read one by one. -/
theorem decodeItems_flatten {α : Type} {f : Bytes → Except String α} {items : List Bytes}
    {values : List α}
    (h : List.Forall₂ (fun b v => f b = .ok v ∧ ∃ tag content, b = encodeTLV tag content ∧
      content.length < 2 ^ 32)
      items values) {fuel : ℕ} (hfuel : items.flatten.length ≤ fuel) :
    decodeItems f fuel items.flatten = .ok values := by
  induction h generalizing fuel with
  | nil => cases fuel <;> rfl
  | cons hitem _ ih =>
    obtain ⟨hf, tag, content, rfl, hsmall⟩ := hitem
    rename_i items values _
    have hpos := length_encodeTLV tag content
    rw [flatten_cons, length_append] at hfuel
    rw [flatten_cons]
    cases fuel with
    | zero => omega
    | succ fuel =>
      have hrest : decodeItems f fuel items.flatten = .ok values := ih (by omega)
      rw [decodeItems_succ (by simp [encodeTLV]), readTLV_encodeTLV hsmall]
      simp only [take_left, drop_left, hf, hrest, ok_bind]

theorem reads_slice {elem : Ty} (h : Reads elem) : Reads (.slice elem) := by
  rintro v depth depth' ⟨hdepth, hsmall, hnormal⟩ hle
  set items := (v : Option (List elem.Val)).getD []
  obtain ⟨encoded, hencoded, hforall⟩ := exists_mapM
    (R := fun item b => ∃ tag content, b = encodeTLV tag content ∧
      ReadsBack elem item (depth + 1) (depth' + 1) tag content) (by
    intro item hitem
    obtain ⟨tag, content, hreads⟩ := h item _ _ (hnormal item hitem) (succ_le_succ hle)
    exact ⟨_, hreads.encode, tag, content, rfl, hreads⟩)
  have hencode : encodeValue (.slice elem) v depth' =
      .ok (encodeTLV tagSequence encoded.flatten) := by
    rw [encodeValue, ensure_bind (hle.trans hdepth), hencoded]
    rfl
  have hcontent := length_lt_encodeTLV.trans (hsmall.lt hencode)
  refine ⟨tagSequence, encoded.flatten, hencode, hsmall.lt hencode, fun _ => rfl, ?_⟩
  have hdecode : decodeItems (fun item => decodeValue elem item (depth + 1)) encoded.flatten.length
    encoded.flatten =
      .ok (items.map elem.settled) := by
    refine decodeItems_flatten ?_ le_rfl
    rw [forall₂_map_right_iff]
    refine hforall.flip.imp ?_
    rintro b item ⟨tag, content, rfl, hreads⟩
    exact ⟨hreads.decode, tag, content, rfl, hreads.content_small⟩
  rw [decodeValue, ensure_bind hdepth, readWhole_encodeTLV hcontent, ok_bind, hdecode]
  rfl

/-! ## One field -/

/-- What `decodeFields` does with an element that a field takes. -/
def decodeField (tag : FieldTag) (ty : Ty) (data content : Bytes) (depth : ℕ) :
    Except String ty.Val :=
  if tag.bare then decodeValue ty data (depth + 1)
  else if tag.implicit then
    if tagForImplicitField ty = tagInteger then decodeImplicitInteger content tag.signed ty
    else decodeValue ty (encodeTLV (tagForImplicitField ty) content) (depth + 1)
  else if tag.signed then decodeSignedInteger content ty
  else decodeValue ty content (depth + 1)

/-- What `encodeFields` does with a field that is not left out. -/
def encodeField (tag : FieldTag) (ty : Ty) (v : ty.Val) (depth : ℕ) : Except String Bytes :=
  (if tag.signed then encodeSignedInteger ty v else encodeValue ty v (depth + 1)) >>= wrapField tag

/-- A field is written as one element, which begins as the schema says, and read back from it. -/
structure FieldReads (tag : FieldTag) (ty : Ty) (v : ty.Val) (depth depth' : ℕ) (x : UInt8)
    (c : Bytes) : Prop where
  encode : encodeField tag ty v depth' = .ok (encodeTLV x c)
  small : c.length < 2 ^ 32
  begins : ∀ y ∈ tag.begins ty, x = y
  decode : decodeField tag ty (encodeTLV x c) c depth = .ok (ty.settled v)

theorem length_encodeInteger (z : ℤ) : (encodeInteger z).length ≤ 8 :=
  (length_dropRedundant _).trans (Words.length_beBytes 8 _).le

variable {c : Bytes}

theorem decodeImplicit_of_minimal {z : ℤ} (h : decodeInteger c = .ok z) :
    decodeInteger (dropRedundant c) = .ok z := by
  rw [dropRedundant_eq_self_iff.2 (decodeInteger_ok.1 h).2.1, h]

/-- A `signed` number is written as one INTEGER, and set from the number it is read as. -/
theorem signed_reads {ty : Ty} (hty : ty.isUnsigned = true) {v : ty.Val}
    (hv : isAbsent ty v = false) :
    ∃ z, encodeSignedInteger ty v = .ok (encodeTLV tagInteger (encodeInteger z)) ∧
      decodeInteger (encodeInteger z) = .ok z ∧ tagForImplicitField ty = tagInteger ∧
      ∀ err, setUnsigned z err ty = .ok (ty.settled v) := by
  have hnumber : ∀ n : UInt32, decodeInteger (encodeInteger n.toInt32.toInt) =
      .ok n.toInt32.toInt := by
    intro n
    have hrange := int32_range n.toInt32
    exact decodeInteger_encodeInteger (by omega) (by omega)
  match ty, hty with
  | .prim .uint32, _ =>
    refine ⟨(v : UInt32).toInt32.toInt, rfl, hnumber v, rfl, fun err => ?_⟩
    exact congrArg ok (ofInt_toInt32 v)
  | .ptr (.prim .uint32), _ =>
    cases v with
    | none => cases hv
    | some n =>
      refine ⟨(n : UInt32).toInt32.toInt, rfl, hnumber n, rfl, fun err => ?_⟩
      exact congrArg (fun n : UInt32 => ok (some n)) (ofInt_toInt32 n)

theorem length_encodeTLV_integer (z : ℤ) :
    (encodeTLV tagInteger (encodeInteger z)).length < 2 ^ 32 := by
  have hle := length_encodeInteger z
  have hlength : encodeLength (encodeInteger z).length =
      [UInt8.ofNat (encodeInteger z).length] := by
    rw [encodeLength, if_pos (by omega)]
  rw [length_encodeTLV, hlength, length_singleton]
  omega

variable {x : UInt8}

theorem wrapField_implicit {tag : FieldTag} (hbare : tag.bare = false)
    (himplicit : tag.implicit = true)
    (hc : c.length < 2 ^ 32) :
    wrapField tag (encodeTLV x c) = .ok (encodeTLV (0x80 ||| tag.number ||| (x &&& 0x20)) c) := by
  simp only [wrapField, hbare, himplicit, readWhole_encodeTLV hc, false_eq_true, if_false, if_true]

theorem wrapField_explicit {tag : FieldTag} (hbare : tag.bare = false)
    (himplicit : tag.implicit = false)
    (encoded : Bytes) : wrapField tag encoded = .ok (encodeTLV (0xa0 ||| tag.number) encoded) := by
  simp only [wrapField, hbare, himplicit, false_eq_true, if_false]

theorem field_signed {tag : FieldTag} {ty : Ty} (hbare : tag.bare = false)
    (hsigned : tag.signed = true)
    (hty : ty.isUnsigned = true) {v : ty.Val} (hv : isAbsent ty v = false) (depth depth' : ℕ) :
    ∃ x c, FieldReads tag ty v depth depth' x c := by
  obtain ⟨z, hencode, hdecode, htag, hset⟩ := signed_reads hty hv
  have hsmall := length_encodeTLV_integer z
  have hcontent := length_lt_encodeTLV.trans hsmall
  cases himplicit : tag.implicit with
  | true =>
    refine ⟨0x80 ||| tag.number ||| (tagInteger &&& 0x20), encodeInteger z, ?_, hcontent, ?_, ?_⟩
    · rw [encodeField, hsigned, if_pos rfl, hencode, ok_bind]
      exact wrapField_implicit hbare himplicit hcontent
    · intro y hy
      rw [FieldTag.begins, hbare, himplicit, htag] at hy
      exact Option.some.inj hy
    · rw [decodeField, hbare, himplicit, htag, if_neg (by decide), if_pos rfl, if_pos rfl,
        decodeImplicitInteger, decodeImplicit_of_minimal hdecode, ok_bind, hsigned,
          if_pos rfl, hset]
  | false =>
    refine ⟨0xa0 ||| tag.number, encodeTLV tagInteger (encodeInteger z), ?_, hsmall, ?_, ?_⟩
    · rw [encodeField, hsigned, if_pos rfl, hencode, ok_bind]
      exact wrapField_explicit hbare himplicit _
    · intro y hy
      rw [FieldTag.begins, hbare, himplicit] at hy
      exact Option.some.inj hy
    · rw [decodeField, hbare, himplicit, hsigned, if_neg (by decide),
        if_neg (by decide), if_pos rfl, decodeSignedInteger, readTLV_whole hcontent, ok_bind,
          ensure_of ⟨rfl, rfl⟩, ok_bind, hdecode,
        ok_bind, hset]

/-- Of an INTEGER the implicit reader makes what the reader of the type makes. -/
theorem decodeImplicitInteger_of_decodeValue {ty : Ty} (htag : tagForImplicitField ty = tagInteger)
    (hty : ty.taggedField = true) (hsigned : ty.isUnsigned = false)
    (hc : c.length < 2 ^ 32) {depth : ℕ}
    {x : ty.Val} (h : decodeValue ty (encodeTLV tagInteger c) depth = .ok x) :
    decodeImplicitInteger c false ty = .ok x := by
  have hset : ∀ {depth : ℕ} {z : Int32},
    decodeValue (.prim .int32) (encodeTLV tagInteger c) depth = .ok z →
      ∃ n, decodeInteger (dropRedundant c) = .ok n ∧ (-2 ^ 31 ≤ n ∧ n < 2 ^ 31) ∧
        Int32.ofInt n = z := by
    intro depth z hdecode
    obtain ⟨_, -, hdecode⟩ := bind_ok.1 hdecode
    rw [readWhole_encodeTLV hc, ok_bind] at hdecode
    obtain ⟨_, -, hdecode⟩ := bind_ok.1 hdecode
    obtain ⟨n, hn, hdecode⟩ := bind_ok.1 hdecode
    obtain ⟨hrange, hdecode⟩ := ensure_bind_ok.1 hdecode
    exact ⟨n, decodeImplicit_of_minimal hn, hrange, ok.inj hdecode⟩
  match ty with
  | .prim p =>
    cases p with
    | int32 =>
      obtain ⟨n, hn, hrange, hz⟩ := hset h
      rw [decodeImplicitInteger, hn, ok_bind, setSigned, ensure_of hrange]
      exact congrArg ok hz
    | uint32 => cases hsigned
    | _ => exact absurd htag (by decide)
  | .ptr (.prim p) =>
    cases p with
    | int32 =>
      obtain ⟨_, -, h⟩ := bind_ok.1 h
      obtain ⟨_, -, h⟩ := bind_ok.1 h
      obtain ⟨z, hz, h⟩ := bind_ok.1 h
      cases h
      obtain ⟨n, hn, hrange, rfl⟩ := hset hz
      rw [decodeImplicitInteger, hn, ok_bind, setSigned, ensure_of hrange]
      rfl
    | uint32 => cases hsigned
    | _ => exact absurd htag (by decide)
  | .slice _ | .struct _ _ => exact absurd htag (by decide : tagSequence ≠ tagInteger)
  | .ptr (.slice _) | .ptr (.struct _ _) => exact absurd htag (by decide : tagSequence ≠ tagInteger)
  | .ptr (.ptr _) => cases hty

theorem field_unsigned {tag : FieldTag} {ty : Ty} (hfits : tag.fits ty = true)
    (hsigned : tag.signed = false)
    (hreads : Reads ty) {v : ty.Val} {depth depth' : ℕ} (hv : ty.Normal v (depth + 1))
    (hle : depth' ≤ depth) :
    ∃ x c, FieldReads tag ty v depth depth' x c := by
  obtain ⟨x, c, hback⟩ := hreads v _ _ hv (succ_le_succ hle)
  have hcontent := hback.content_small
  have hencoded : ∀ {y : Bytes}, wrapField tag (encodeTLV x c) = .ok y →
      encodeField tag ty v depth' = .ok y := by
    intro y hy
    rw [encodeField, hsigned, hback.encode]
    exact hy
  rw [FieldTag.fits, hsigned, and_eq_true] at hfits
  cases hbare : tag.bare with
  | true =>
    simp only [hbare, if_true, Bool.not_false, Bool.true_and, or_eq_true] at hfits
    refine ⟨x, c, hencoded (by rw [wrapField, if_pos hbare]), hcontent, ?_, ?_⟩
    · intro y hy
      rw [FieldTag.begins, if_pos hbare] at hy
      cases hraw : ty.isRaw with
      | true =>
        rw [hraw] at hy
        cases hy
      | false =>
        rw [hraw] at hy hfits
        exact (hback.tagged (hfits.2.resolve_right (by decide))).trans (Option.some.inj hy)
    · rw [decodeField, if_pos hbare, hback.decode]
  | false =>
    rw [hbare, if_neg (by decide)] at hfits
    cases himplicit : tag.implicit with
    | true =>
      rw [himplicit, if_pos rfl, if_neg (by decide), and_eq_true, not_eq_true'] at hfits
      have hx := hback.tagged hfits.2.1
      refine ⟨_, c, hencoded (wrapField_implicit hbare himplicit hcontent), hcontent, ?_, ?_⟩
      · intro y hy
        rw [FieldTag.begins, hbare, himplicit, ← hx] at hy
        exact Option.some.inj hy
      · have hdecode := hback.decode
        rw [hx] at hdecode
        rw [decodeField, hbare, himplicit, if_neg (by decide), if_pos rfl]
        split_ifs with hinteger
        · rw [hinteger] at hdecode
          rw [hsigned]
          exact decodeImplicitInteger_of_decodeValue hinteger hfits.2.1 hfits.2.2 hcontent hdecode
        · exact hdecode
    | false =>
      refine ⟨_, encodeTLV x c, hencoded (wrapField_explicit hbare himplicit _),
        hback.small, ?_, ?_⟩
      · intro y hy
        rw [FieldTag.begins, hbare, himplicit] at hy
        exact Option.some.inj hy
      · rw [decodeField, hbare, himplicit, hsigned, if_neg (by decide), if_neg (by decide),
          if_neg (by decide), hback.decode]

/-! ## The fields of a struct -/

theorem eq_zero_of_isAbsent (h : isAbsent t v = true) : v = t.zero := by
  match t with
  | .ptr elem => exact Option.isNone_iff_eq_none.1 h
  | .slice elem => exact Option.isNone_iff_eq_none.1 h
  | .prim p =>
    cases p with
    | octets => exact Option.isNone_iff_eq_none.1 h
    | _ => cases h
  | .struct _ _ => cases h

/-- An implicit field has a tag that can be replaced. -/
theorem implicit_of_fits {tag : FieldTag} {ty : Ty} (hfits : tag.fits ty = true) :
    ¬ (tag.implicit = true ∧ (!tag.bare) = true ∧ tagForImplicitField ty = 0) := by
  rintro ⟨himplicit, hbare, hzero⟩
  rw [not_eq_true'] at hbare
  rw [FieldTag.fits, hbare, himplicit, and_eq_true] at hfits
  have htagged : ty.taggedField = true := by
    have hkind := hfits.2
    cases hsigned : tag.signed with
    | true => exact taggedField_of_isUnsigned (by simpa [hsigned] using hkind)
    | false =>
      simp only [hsigned, if_true, false_eq_true, if_false, and_eq_true] at hkind
      exact hkind.1
  exact (tagForImplicitField_of_taggedField htagged).1 hzero

variable (fs : Fields)

/-- The content of a struct is empty, or begins with the element of one of its fields. -/
def Begins (content : Bytes) : Prop :=
  content = [] ∨ ∃ x c rest, content = encodeTLV x c ++ rest ∧ c.length < 2 ^ 32 ∧
    ∃ s ∈ fs.starts, ∀ y ∈ s, x = y

/-- The fields are written one behind the other, and read back. -/
def FieldsRead : Prop := ∀ vs depth depth', fs.Normal vs depth → depth' ≤ depth →
  ∃ content, encodeFields fs vs depth' = .ok content ∧ Begins fs content ∧
    decodeFields fs content depth = .ok (fs.settled vs)

theorem fieldsRead_nil : FieldsRead .nil := fun _ _ _ _ _ => ⟨[], rfl, .inl rfl, rfl⟩

theorem fieldsRead_cons {name : String} {tag : FieldTag} {ty : Ty} {rest : Fields} (hty : Reads ty)
    (hrest : FieldsRead rest) (hseparated : (Fields.cons name tag ty rest).separated = true) :
    FieldsRead (.cons name tag ty rest) := by
  rw [Fields.separated, and_eq_true, and_eq_true, and_eq_true] at hseparated
  obtain ⟨⟨⟨hfits, hleaves⟩, hraw⟩, -⟩ := hseparated
  rintro ⟨v, vs⟩ depth depth' ⟨hv, hvs⟩ hle
  obtain ⟨content, hencode, hbegins, hdecode⟩ := hrest vs depth depth' hvs hle
  cases habsent : tag.optional && isAbsent ty v with
  | true =>
    obtain ⟨hoptional, hnil⟩ := and_eq_true _ _ ▸ habsent
    have hzero : v = ty.zero := eq_zero_of_isAbsent hnil
    have hsettled : (Fields.cons name tag ty rest).settled (v, vs) =
        (ty.zero, rest.settled vs) := by
      rw [Fields.settled, if_pos habsent, hzero]
    rw [hoptional, Bool.not_true, Bool.false_or, all_eq_true] at hleaves
    refine ⟨content, by rw [encodeFields, if_pos habsent, hencode], ?_, ?_⟩
    · rcases hbegins with hcontent | ⟨x, c, tail, hcontent, hc, s, hs, hx⟩
      · exact .inl hcontent
      · refine .inr ⟨x, c, tail, hcontent, hc, s, ?_, hx⟩
        rw [Fields.starts, if_pos hoptional]
        exact mem_cons_of_mem _ hs
    · rw [hsettled]
      rcases hbegins with rfl | ⟨x, c, tail, rfl, hc, s, hs, hx⟩
      · rw [decodeFields, if_pos rfl, ensure_bind hoptional, hdecode, ok_bind]
      · -- the next element begins a later field, so this one leaves it
        have hleft := hleaves s hs
        cases s with
        | none => cases hleft
        | some y =>
          obtain rfl := hx y rfl
          have hne : encodeTLV x c ++ tail ≠ [] := by simp [encodeTLV]
          rw [decodeFields, if_neg hne, readTLV_encodeTLV hc]
          simp only [takesField_of_leaves hleft, ok_bind, false_eq_true, if_false, hdecode]
  | false =>
    rw [habsent] at hv
    obtain ⟨x, c, hfield⟩ : ∃ x c, FieldReads tag ty v depth depth' x c := by
      cases hsigned : tag.signed with
      | false =>
        rw [hsigned] at hv
        exact field_unsigned hfits hsigned hty hv hle
      | true =>
        rw [hsigned] at hv
        obtain ⟨hbare, hunsigned⟩ := unsigned_of_fits hfits hsigned
        exact field_signed hbare hsigned hunsigned hv depth depth'
    refine ⟨encodeTLV x c ++ content, ?_, ?_, ?_⟩
    · have hencoded := hfield.encode
      rw [encodeField, bind_ok] at hencoded
      obtain ⟨encoded, hvalue, hwrap⟩ := hencoded
      rw [encodeFields, habsent, if_neg (by decide), hvalue]
      simp only [within, Except.mapError, ok_bind, hwrap, hencode]
    · exact .inr ⟨x, c, content, rfl, hfield.small, tag.begins ty, mem_cons_self, hfield.begins⟩
    · rw [Fields.settled, habsent]
      have htakes : takesField tag ty rest x = .ok true := by
        refine takesField_begins hfits ?_ hfield.begins
        intro hoptional hbare hisRaw
        rw [hoptional, hbare, hisRaw] at hraw
        cases rest with
        | nil => rfl
        | cons => cases hraw
      have hne : encodeTLV x c ++ content ≠ [] := by simp [encodeTLV]
      have hread := hfield.decode
      unfold decodeField at hread
      rw [decodeFields, readTLV_encodeTLV hfield.small]
      simp only [htakes, ok_bind, ensure_of (implicit_of_fits hfits), take_left, drop_left]
      rw [hread]
      simp only [hdecode]
      rfl

/-! ## Alternatives -/

theorem settled_of_isNilPointer (h : isNilPointer t v = true) :
    v = t.zero ∧ t.settled v = t.zero := by
  match t with
  | .ptr elem =>
    cases Option.isNone_iff_eq_none.1 h
    exact ⟨rfl, rfl⟩
  | .prim _ | .slice _ | .struct _ _ => cases h

/-- Without an alternative that is set, all fields are nil. -/
theorem settled_of_choiceCount {fs : Fields} (hfs : fs.alternatives = true) {vs : fs.Vals}
    (h : choiceCount fs vs = 0) : fs.settled vs = fs.zeros := by
  match fs, vs with
  | .nil, _ => rfl
  | .cons name tag ty rest, (v, vs) =>
    simp only [Fields.alternatives, and_eq_true, not_eq_true'] at hfs
    rw [choiceCount, Nat.add_eq_zero_iff, hfs.1.1.1.1.1.1] at h
    have hnil : isNilPointer ty v = true := by
      by_contra hset
      rw [not_eq_true] at hset
      rw [hset] at h
      cases h.1
    obtain ⟨hv, hsettled⟩ := settled_of_isNilPointer hnil
    rw [Fields.settled, settled_of_choiceCount hfs.2 h.2, Fields.zeros, hfs.1.1.1.1.1.2,
      Bool.false_and, if_neg (by decide), hsettled]

/-- The alternative that is set is written and read under its tag. -/
structure ChoiceReads (fs : Fields) (vs : fs.Vals) (depth depth' : ℕ) (x : UInt8) (c : Bytes) :
    Prop where
  encode : encodeChoice fs vs depth' = .ok (encodeTLV x c)
  small : c.length < 2 ^ 32
  only : choicesFor x fs = 1
  decode : decodeChoice fs x c depth = .ok (fs.settled vs)

def ChoiceRead : Prop := ∀ vs depth depth', choiceCount fs vs = 1 → fs.ChoiceNormal vs depth →
  depth' ≤ depth → ∃ x c, ChoiceReads fs vs depth depth' x c

theorem choiceRead_nil : ChoiceRead .nil := fun _ _ _ h => by cases h

theorem choiceRead_cons {name : String} {tag : FieldTag} {ty : Ty} {rest : Fields} (hty : Reads ty)
    (hrest : ChoiceRead rest) (hfs : (Fields.cons name tag ty rest).alternatives = true) :
    ChoiceRead (.cons name tag ty rest) := by
  obtain ⟨hchoice, hoptional, himplicit, hsigned, hbare, hother, halternatives⟩ :=
    alternatives_cons.1 hfs
  rintro ⟨v, vs⟩ depth depth' hcount ⟨hv, hvs⟩ hle
  rw [choiceCount, hchoice, Bool.true_and] at hcount
  cases hnil : isNilPointer ty v with
  | false =>
    -- this one is set, and no other
    rw [hnil, Bool.not_false, if_pos rfl, add_eq_left] at hcount
    obtain ⟨x, c, hback⟩ := hty v _ _ (hv.resolve_left (by rw [hnil]; decide)) (succ_le_succ hle)
    refine ⟨0xa0 ||| tag.number, encodeTLV x c, ?_, hback.small, ?_, ?_⟩
    · rw [encodeChoice, hchoice, hnil, Bool.not_false, Bool.and_true, if_pos rfl,
        hback.encode, ok_bind]
    · rw [choicesFor, hother, hchoice, beq_self_eq_true]
      rfl
    · rw [decodeChoice, hchoice, beq_self_eq_true, Bool.and_true, if_pos rfl, hback.decode, ok_bind,
        Fields.settled, hoptional, Bool.false_and, if_neg (by decide),
          settled_of_choiceCount halternatives hcount]
  | true =>
    rw [hnil, if_neg (by decide), zero_add] at hcount
    obtain ⟨x, c, hreads⟩ := hrest vs depth depth' hcount hvs hle
    have hother' : (x == 0xa0 ||| tag.number) = false := by
      rw [beq_eq_false_iff_ne]
      rintro rfl
      have honly := hreads.only
      rw [hother] at honly
      cases honly
    obtain ⟨hzero, hsettled⟩ := settled_of_isNilPointer hnil
    refine ⟨x, c, ?_, hreads.small, ?_, ?_⟩
    · rw [encodeChoice, hnil, Bool.not_true, Bool.and_false, if_neg (by decide), hreads.encode]
    · rw [choicesFor, hother', Bool.and_false, if_neg (by decide), hreads.only]
    · rw [decodeChoice, hother', Bool.and_false, if_neg (by decide), hreads.decode, ok_bind,
        Fields.settled, hoptional, Bool.false_and, if_neg (by decide), hsettled]

/-! ## Structs -/

variable {fields : Fields}

theorem reads_application {application : UInt8} (h : FieldsRead fields) :
    Reads (.struct (some application) fields) := by
  rintro vs depth depth' ⟨hdepth, hsmall, hnormal⟩ hle
  obtain ⟨content, hcontent, -, hdecode⟩ := h vs (depth + 2) (depth' + 1) hnormal (by omega)
  have hencode : encodeValue (.struct (some application) fields) vs depth' =
      .ok (encodeTLV (0x60 ||| application) (encodeTLV tagSequence content)) := by
    rw [encodeValue, ensure_bind (by omega), ensure_bind (by omega),
      hcontent, ok_bind]
  have hinner := length_lt_encodeTLV.trans (hsmall.lt hencode)
  refine ⟨_, _, hencode, hsmall.lt hencode, (fun htagged => by cases htagged), ?_⟩
  rw [decodeValue, ensure_bind (by omega), readWhole_encodeTLV hinner, ok_bind, ensure_bind rfl,
    readTLV_whole (length_lt_encodeTLV.trans hinner), ok_bind, ensure_of ⟨rfl, rfl⟩,
      ensure_bind hdepth, hdecode]
  rfl

theorem choiceCount_eq_zero {fs : Fields} (hfs : fs.hasChoice = false) (vs : fs.Vals) :
    choiceCount fs vs = 0 := by
  match fs, vs with
  | .nil, _ => rfl
  | .cons _ tag ty rest, (v, vs) =>
    rw [Fields.hasChoice, or_eq_false_iff] at hfs
    rw [choiceCount, choiceCount_eq_zero hfs.2, hfs.1]
    rfl

theorem choicesFor_eq_zero {fs : Fields} (hfs : fs.hasChoice = false) (tag : UInt8) :
    choicesFor tag fs = 0 := by
  match fs with
  | .nil => rfl
  | .cons _ field ty rest =>
    rw [Fields.hasChoice, or_eq_false_iff] at hfs
    rw [choicesFor, choicesFor_eq_zero hfs.2, hfs.1]
    rfl

theorem reads_sequence (hchoice : fields.hasChoice = false) (h : FieldsRead fields) :
    Reads (.struct none fields) := by
  rintro vs depth depth' ⟨hdepth, hsmall, hnormal⟩ hle
  rw [hchoice] at hnormal
  obtain ⟨content, hcontent, -, hdecode⟩ := h vs (depth + 1) depth' hnormal (by omega)
  have hencode : encodeValue (.struct none fields) vs depth' =
      .ok (encodeTLV tagSequence content) := by
    have hcount : choiceCount fields vs ≠ 1 := by
      rw [show choiceCount fields vs = 0 from choiceCount_eq_zero hchoice vs]
      decide
    rw [encodeValue, ensure_bind (by omega), if_neg hcount, hcontent, ok_bind]
  have hinner := length_lt_encodeTLV.trans (hsmall.lt hencode)
  refine ⟨_, _, hencode, hsmall.lt hencode, fun _ => rfl, ?_⟩
  rw [decodeValue, ensure_bind hdepth, readWhole_encodeTLV hinner]
  refine (if_neg ?_).trans ((ensure_bind rfl).trans hdecode)
  rw [choicesFor_eq_zero hchoice]
  decide

theorem reads_choice (hchoice : fields.hasChoice = true) (h : ChoiceRead fields) :
    Reads (.struct none fields) := by
  rintro vs depth depth' ⟨hdepth, hsmall, hnormal⟩ hle
  rw [hchoice] at hnormal
  obtain ⟨x, c, hreads⟩ := h vs depth depth' hnormal.1 hnormal.2 hle
  have hencode : encodeValue (.struct none fields) vs depth' = .ok (encodeTLV x c) := by
    rw [encodeValue, ensure_bind (by omega), if_pos hnormal.1, hreads.encode]
  refine ⟨x, c, hencode, hsmall.lt hencode, fun htagged => ?_, ?_⟩
  · have hnot : (!fields.hasChoice) = true := htagged
    rw [hchoice] at hnot
    cases hnot
  · rw [decodeValue, ensure_bind hdepth, readWhole_encodeTLV hreads.small]
    refine (if_pos hreads.only).trans ?_
    rw [hreads.decode]
    rfl

mutual

/-- Every type whose elements can be told apart reads back. -/
theorem reads : (t : Ty) → t.wellFormed = true → Reads t
  | .prim p, _ => reads_prim p
  | .slice elem, h => reads_slice (reads elem h)
  | .ptr elem, h => reads_ptr (reads elem h)
  | .struct (some application) fields, h => by
    obtain ⟨hfields, ⟨-, hseparated⟩ | ⟨-, hnone, -⟩⟩ := wellFormed_struct h
    · exact reads_application (fieldsRead fields hfields hseparated)
    · cases hnone
  | .struct none fields, h => by
    obtain ⟨hfields, ⟨hchoice, hseparated⟩ | ⟨hchoice, -, halternatives, -⟩⟩ := wellFormed_struct h
    · exact reads_sequence hchoice (fieldsRead fields hfields hseparated)
    · exact reads_choice hchoice (choiceRead fields hfields halternatives)

theorem fieldsRead : (fs : Fields) → fs.wellFormed = true → fs.separated = true → FieldsRead fs
  | .nil, _, _ => fieldsRead_nil
  | .cons _ _ ty rest, h, hseparated => by
    rw [Fields.wellFormed, and_eq_true] at h
    refine fieldsRead_cons (reads ty h.1) (fieldsRead rest h.2 ?_) hseparated
    rw [Fields.separated, and_eq_true] at hseparated
    exact hseparated.2

theorem choiceRead : (fs : Fields) → fs.wellFormed = true → fs.alternatives = true → ChoiceRead fs
  | .nil, _, _ => choiceRead_nil
  | .cons _ _ ty rest, h, halternatives => by
    rw [Fields.wellFormed, and_eq_true] at h
    refine choiceRead_cons (reads ty h.1) (choiceRead rest h.2 ?_) halternatives
    rw [Fields.alternatives, and_eq_true] at halternatives
    exact halternatives.2

end

/-- **Unmarshal undoes Marshal**: a value in normal form, of a message type or any other well-formed
type, is encoded and comes back, with empty byte strings as nil and nil lists that are not left
out as empty ones. -/
theorem messages_read_back (t : Ty) (ht : t ∈ Messages.all ∨ t.wellFormed = true) (v : t.Val)
    (hv : t.Normal v 0) :
    ∃ b, marshal t v = .ok b ∧ unmarshal t b = .ok (t.settled v) := by
  have hwellFormed : t.wellFormed = true := ht.elim (wellFormed t) id
  obtain ⟨tag, content, hback⟩ := reads t hwellFormed v 0 0 hv le_rfl
  refine ⟨_, within_ok.2 hback.encode, within_ok.2 ?_⟩
  rw [readWhole_encodeTLV hback.content_small, ok_bind, hback.decode]

namespace Sample

/-- A `PrincipalName` with its components. -/
def name (components : Option (List Bytes)) : principalName.Val := ((1 : Int32), components, ())

theorem normal_name {components : List Bytes} {items : Option (List Bytes)}
    (hitems : items.getD [] = components)
    (hsmall : Small principalName (name items)) (hlist : Small (.slice .string) items)
    (hcomponents : ∀ s ∈ components, Small .string s) : principalName.Normal (name items) 0 := by
  subst hitems
  refine ⟨by
    decide, hsmall, ⟨⟨by decide, ?_, trivial⟩, ⟨by decide, hlist, fun s hs => ?_⟩, trivial⟩⟩
  · exact Small.of_encode rfl (by decide)
  · exact ⟨by decide, hcomponents s hs, trivial⟩

/-- A request with a nonce, encrypted data and an iteration count. -/
def otpRequest : paOTPRequest.Val :=
  ((0 : Flags), some [1], ((18 : Int32), some (5 : UInt32), some [7], ()), none, some (3 : Int32),
    none, none, none, none, none, none, none, none, none, ())

end Sample

/-- A PA-OTP-REQUEST comes back as it was: its fields are implicit, some are left out, and the key
version of the encrypted data is signed. -/
theorem messages_read_back_otp : ∃ b, marshal paOTPRequest Sample.otpRequest = .ok b ∧
    unmarshal paOTPRequest b = .ok Sample.otpRequest := by
  refine messages_read_back paOTPRequest (.inl (by simp [Messages.all])) Sample.otpRequest ?_
  have hencData : encryptedData.Normal ((18 : Int32), some (5 : UInt32), some [7], ()) 2 :=
    ⟨by decide, .of_encode rfl (by decide), ⟨by decide, .of_encode rfl (by decide), trivial⟩, rfl,
      ⟨by decide, .of_encode rfl (by decide), trivial⟩, trivial⟩
  exact ⟨by decide, .of_encode rfl (by decide), ⟨by decide, .of_encode rfl (by decide), trivial⟩,
    ⟨by decide, .of_encode rfl (by decide), trivial⟩, hencData, trivial,
    ⟨by decide, (3 : Int32), rfl, by decide, .of_encode rfl (by decide), trivial⟩, trivial,
      trivial, trivial,
    trivial, trivial, trivial, trivial, trivial, trivial, trivial⟩

/-- A name without a list of components is written, and read as a name with an empty list. -/
theorem nil_list_read_as_empty : principalName.Normal (Sample.name none) 0 ∧
    ∃ b, marshal principalName (Sample.name none) = .ok b ∧
      unmarshal principalName b = .ok (Sample.name (some [])) ∧
        Sample.name (some []) ≠ Sample.name none := by
  refine ⟨?_, _, rfl, rfl, fun h => ?_⟩
  · refine Sample.normal_name rfl (.of_encode rfl (by decide)) (.of_encode rfl (by decide)) ?_
    rintro s ⟨⟩
  · cases h

end Kerberos.ASN1
