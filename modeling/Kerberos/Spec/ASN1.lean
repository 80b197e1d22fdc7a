import Kerberos.Spec.TLV

/-!
# The Kerberos ASN.1 codec

`Marshal` and `Unmarshal` of `krb5/asn1` go by the type of a Go value and the `krb5` tags of its
fields. `Ty` has the types the messages are made of, and `Ty.Val` the values of a type. A byte
string and a list may be nil, as a pointer may.

The functions below follow those of the code: `encodeValue`, `decodeValue` and the functions over
the fields of a struct. `depth` is passed as the code passes it, more steeply in the decoder than in
the encoder.
-/

namespace Kerberos.ASN1

def maxDepth : ℕ := 32

def tagInteger : UInt8 := 0x02
def tagBitString : UInt8 := 0x03
def tagOctetString : UInt8 := 0x04
def tagObjectIdentifier : UInt8 := 0x06
def tagUTF8String : UInt8 := 0x0c
def tagSequence : UInt8 := 0x30
def tagGeneralizedTime : UInt8 := 0x18
def tagGeneralString : UInt8 := 0x1b

/-! ## Types and values -/

structure FieldTag where
  number : UInt8
  optional : Bool := false
  choice : Bool := false
  implicit : Bool := false
  signed : Bool := false
  bare : Bool := false
  deriving DecidableEq

/-- The types without parts. -/
inductive Prim
  | time | flags | utf8 | oid | raw | int32 | uint32 | string | octets
  deriving DecidableEq

mutual

inductive Ty
  | prim (p : Prim)
  | slice (elem : Ty)
  | ptr (elem : Ty)
  | struct (application : Option UInt8) (fields : Fields)

/-- The exported fields of a struct, in order. -/
inductive Fields
  | nil
  | cons (name : String) (tag : FieldTag) (ty : Ty) (rest : Fields)

end

def Prim.Val : Prim → Type
  | .time => KerberosTime
  | .flags => Flags
  | .utf8 | .oid | .raw | .string => Bytes
  | .int32 => Int32
  | .uint32 => UInt32
  | .octets => Option Bytes

mutual

def Ty.Val : Ty → Type
  | .prim p => p.Val
  | .slice elem => Option (List elem.Val)
  | .ptr elem => Option elem.Val
  | .struct _ fields => fields.Vals

def Fields.Vals : Fields → Type
  | .nil => Unit
  | .cons _ _ ty rest => ty.Val × rest.Vals

end

def Prim.zero : (p : Prim) → p.Val
  | .time => KerberosTime.zero
  | .flags => (0 : Flags)
  | .utf8 | .oid | .raw | .string => ([] : Bytes)
  | .int32 => (0 : Int32)
  | .uint32 => (0 : UInt32)
  | .octets => (none : Option Bytes)

mutual

def Ty.zero : (t : Ty) → t.Val
  | .prim p => p.zero
  | .slice elem => (none : Option (List elem.Val))
  | .ptr elem => (none : Option elem.Val)
  | .struct _ fields => fields.zeros

def Fields.zeros : (fs : Fields) → fs.Vals
  | .nil => ()
  | .cons _ _ ty rest => (ty.zero, rest.zeros)

end

/-- A nil pointer, list or byte string. -/
def isAbsent : (t : Ty) → t.Val → Bool
  | .ptr elem, v => (v : Option elem.Val).isNone
  | .slice elem, v => (v : Option (List elem.Val)).isNone
  | .prim .octets, v => (v : Option Bytes).isNone
  | _, _ => false

def isNilPointer : (t : Ty) → t.Val → Bool
  | .ptr elem, v => (v : Option elem.Val).isNone
  | _, _ => false

/-! ## Tags -/

def Prim.tag : Prim → UInt8
  | .time => tagGeneralizedTime
  | .flags => tagBitString
  | .utf8 => tagUTF8String
  | .oid => tagObjectIdentifier
  | .raw => 0
  | .int32 | .uint32 => tagInteger
  | .string => tagGeneralString
  | .octets => tagOctetString

def tagForImplicitType : Ty → UInt8
  | .prim p => p.tag
  | .slice _ | .struct _ _ => tagSequence
  | .ptr _ => 0

def tagForImplicitField : Ty → UInt8
  | .ptr elem => tagForImplicitType elem
  | t => tagForImplicitType t

/-- One of the fields has this context tag. -/
def isLaterContextSpecificTag (nextTag : UInt8) : Fields → Bool
  | .nil => false
  | .cons _ tag _ rest =>
    (!tag.bare && (nextTag == (if tag.implicit then 0x80 else 0xa0) ||| tag.number ||
      (tag.implicit && nextTag == 0xa0 ||| tag.number))) || isLaterContextSpecificTag nextTag rest

/-! ## The encoder -/

/-- `encodeBare` of a type without parts. -/
def Prim.encode : (p : Prim) → p.Val → Except String Bytes
  | .time, t => .ok (encodeTLV tagGeneralizedTime (encodeGeneralizedTime t))
  | .flags, (value : Flags) => .ok (encodeTLV tagBitString (encodeFlags value))
  | .utf8, value => .ok (encodeTLV tagUTF8String value)
  | .oid, (value : Bytes) => do
    Except.ensure (validObjectIdentifierContent value) "invalid OBJECT IDENTIFIER encoding"
    .ok (encodeTLV tagObjectIdentifier value)
  | .raw, (value : Bytes) =>
    match readWhole value "" with
    | .ok _ => .ok value
    | .error _ => .error "invalid raw DER value"
  | .int32, (value : Int32) => .ok (encodeTLV tagInteger (encodeInteger value.toInt))
  | .uint32, (value : UInt32) => .ok (encodeTLV tagInteger (encodeUnsignedInteger value.toNat))
  | .string, value => .ok (encodeTLV tagGeneralString value)
  | .octets, (value : Option Bytes) => .ok (encodeTLV tagOctetString (value.getD []))

def encodeSigned (value : UInt32) : Bytes :=
  encodeTLV tagInteger (encodeInteger value.toInt32.toInt)

def encodeSignedInteger : (t : Ty) → t.Val → Except String Bytes
  | .ptr (.prim .uint32), (v : Option UInt32) =>
    Except.ofOption "nil signed INTEGER" (v.map encodeSigned)
  | .prim .uint32, (v : UInt32) => .ok (encodeSigned v)
  | .ptr (.prim .flags), (v : Option Flags) =>
    Except.ofOption "nil signed INTEGER" (v.map fun flags => encodeSigned (UInt32.ofBitVec flags))
  | .prim .flags, (v : Flags) => .ok (encodeSigned (UInt32.ofBitVec v))
  | _, _ => .error "signed INTEGER source is not unsigned"

/-- A field's own tag around its encoding, or in the place of its tag. -/
def wrapField (tag : FieldTag) (encoded : Bytes) : Except String Bytes :=
  if tag.bare then .ok encoded
  else if tag.implicit then
    match readWhole encoded "" with
    | .ok inner => .ok (encodeTLV (0x80 ||| tag.number ||| (inner.tag &&& 0x20)) inner.content)
    | .error _ => .error "invalid implicit field encoding"
  else .ok (encodeTLV (0xa0 ||| tag.number) encoded)

/-- The number of alternatives of a CHOICE that are set. -/
def choiceCount : (fs : Fields) → fs.Vals → ℕ
  | .nil, _ => 0
  | .cons _ tag ty rest, (v, vs) =>
    (if tag.choice && !isNilPointer ty v then 1 else 0) + choiceCount rest vs

mutual

def encodeValue : (t : Ty) → t.Val → ℕ → Except String Bytes
  | .ptr elem, v, depth => do
    Except.ensure (depth ≤ maxDepth) "maximum nesting depth exceeded"
    match (v : Option elem.Val) with
    | none => .error "nil pointer"
    | some v => encodeValue elem v (depth + 1)
  | .prim p, v, depth => do
    Except.ensure (depth ≤ maxDepth) "maximum nesting depth exceeded"
    p.encode v
  | .slice elem, v, depth => do
    Except.ensure (depth ≤ maxDepth) "maximum nesting depth exceeded"
    let items ← ((v : Option (List elem.Val)).getD []).mapM fun item =>
      encodeValue elem item (depth + 1)
    .ok (encodeTLV tagSequence items.flatten)
  | .struct (some application) fields, vs, depth => do
    Except.ensure (depth ≤ maxDepth) "maximum nesting depth exceeded"
    Except.ensure (depth + 1 ≤ maxDepth) "maximum nesting depth exceeded"
    let content ← encodeFields fields vs (depth + 1)
    .ok (encodeTLV (0x60 ||| application) (encodeTLV tagSequence content))
  | .struct none fields, vs, depth => do
    Except.ensure (depth ≤ maxDepth) "maximum nesting depth exceeded"
    if choiceCount fields vs = 1 then encodeChoice fields vs depth
    else do
      let content ← encodeFields fields vs depth
      .ok (encodeTLV tagSequence content)

/-- The loop of `encodeStruct`. -/
def encodeFields : (fs : Fields) → fs.Vals → ℕ → Except String Bytes
  | .nil, _, _ => .ok []
  | .cons name tag ty rest, (v, vs), depth =>
    if tag.optional && isAbsent ty v then encodeFields rest vs depth
    else do
      let encoded ← Except.within ("field " ++ name ++ ": ")
        (if tag.signed then encodeSignedInteger ty v else encodeValue ty v (depth + 1))
      let encoded ← wrapField tag encoded
      let content ← encodeFields rest vs depth
      .ok (encoded ++ content)

/-- The alternative that is set. -/
def encodeChoice : (fs : Fields) → fs.Vals → ℕ → Except String Bytes
  | .nil, _, _ => .error "invalid value"
  | .cons _ tag ty rest, (v, vs), depth =>
    if tag.choice && !isNilPointer ty v then do
      let encoded ← encodeValue ty v (depth + 1)
      .ok (encodeTLV (0xa0 ||| tag.number) encoded)
    else encodeChoice rest vs depth

end

def marshal (t : Ty) (v : t.Val) : Except String Bytes :=
  Except.within "marshal kerberos ASN.1: " (encodeValue t v 0)

/-! ## The decoder -/

/-- `decodeBare` of a type without parts. Of a raw value `decodeValue` keeps all octets. -/
def Prim.decode (data : Bytes) (e : Element) : (p : Prim) → Except String p.Val
  | .time => do
    Except.ensure (e.tag = tagGeneralizedTime) "unexpected GeneralizedTime tag"
    Except.ensure (e.content ≠ []) "empty GeneralizedTime"
    parseKerberosTime e.content
  | .flags => do
    Except.ensure (e.tag = tagBitString) "unexpected BIT STRING tag"
    decodeFlags e.content
  | .utf8 => do
    Except.ensure (e.tag = tagUTF8String) "unexpected UTF8String tag"
    Except.ok e.content
  | .oid => do
    Except.ensure (e.tag = tagObjectIdentifier ∧ validObjectIdentifierContent e.content)
      "unexpected OBJECT IDENTIFIER encoding"
    Except.ok e.content
  | .raw => Except.ok data
  | .int32 => do
    Except.ensure (e.tag = tagInteger) "unexpected INTEGER tag"
    let value ← decodeInteger e.content
    Except.ensure (-2 ^ 31 ≤ value ∧ value < 2 ^ 31) "INTEGER overflows int32"
    Except.ok (Int32.ofInt value)
  | .uint32 => do
    Except.ensure (e.tag = tagInteger) "unexpected INTEGER tag"
    let value ← decodeUnsignedInteger e.content
    Except.ensure (value < 2 ^ 32) "INTEGER overflows uint32"
    Except.ok (UInt32.ofNat value)
  | .string => do
    Except.ensure (e.tag = tagGeneralString) "unexpected GeneralString tag"
    Except.ok e.content
  | .octets => do
    Except.ensure (e.tag = tagOctetString) "unexpected OCTET STRING tag"
    -- appending nothing to a nil slice leaves it nil
    Except.ok (if e.content = [] then none else some e.content)

/-- The last step of `decodeSignedInteger` and of `decodeImplicitInteger` for a signed field. -/
def setUnsigned (value : ℤ) (err : String) : (t : Ty) → Except String t.Val
  | .ptr (.prim .uint32) => Except.ok (some (UInt32.ofInt value))
  | .prim .uint32 => Except.ok (UInt32.ofInt value)
  | .ptr (.prim .flags) => Except.ok (some (BitVec.ofInt 32 value))
  | .prim .flags => Except.ok (BitVec.ofInt 32 value)
  | _ => .error err

def decodeSignedInteger (data : Bytes) (t : Ty) : Except String t.Val := do
  let e ← readTLV data
  Except.ensure (e.tag = tagInteger ∧ e.size = data.length) "unexpected signed INTEGER encoding"
  let value ← decodeInteger e.content
  setUnsigned value "signed INTEGER destination is not unsigned" t

def setSigned (value : ℤ) : (t : Ty) → Except String t.Val
  | .ptr (.prim .int32) => do
    Except.ensure (-2 ^ 31 ≤ value ∧ value < 2 ^ 31) "INTEGER overflows int32"
    Except.ok (some (Int32.ofInt value))
  | .prim .int32 => do
    Except.ensure (-2 ^ 31 ≤ value ∧ value < 2 ^ 31) "INTEGER overflows int32"
    Except.ok (Int32.ofInt value)
  | _ => .error "implicit INTEGER destination is not signed"

def decodeImplicitInteger (data : Bytes) (signed : Bool) (t : Ty) : Except String t.Val := do
  let value ← decodeInteger (dropRedundant data)
  if signed then setUnsigned value "implicit INTEGER destination is not unsigned" t
  else setSigned value t

/-- What `decodeStruct` does with a field when the next element has the tag `nextTag`: it takes the
element, or leaves it for the fields behind. -/
def takesField (tag : FieldTag) (ty : Ty) (rest : Fields) (nextTag : UInt8) : Except String Bool :=
  if tag.bare then
    let expectedTag := tagForImplicitField ty
    if expectedTag = 0 then .ok (!(tag.optional && isLaterContextSpecificTag nextTag rest))
    else if nextTag = expectedTag then .ok true
    else if tag.optional && expectedTag < nextTag then .ok false
    else .error "unexpected bare field tag"
  else
    let expectedTag := 0xa0 ||| tag.number
    if nextTag = expectedTag then .ok true
    else if tag.implicit && nextTag == 0x80 ||| tag.number then .ok true
    else if tag.optional &&
      (expectedTag < nextTag || (tag.implicit && tag.number < nextTag &&& 0x1f)) then
      .ok false
    else .error "unexpected or out-of-order field tag"

/-- The number of alternatives of a CHOICE with this tag. -/
def choicesFor (tag : UInt8) : Fields → ℕ
  | .nil => 0
  | .cons _ field _ rest =>
    (if field.choice && tag == 0xa0 ||| field.number then 1 else 0) + choicesFor tag rest

/-- The elements of a SEQUENCE OF, each given to `f`. An element has two octets at least, so the
length of the content is fuel enough. -/
def decodeItems {α : Type} (f : Bytes → Except String α) : ℕ → Bytes → Except String (List α)
  | _, [] => .ok []
  | 0, _ :: _ => .error "truncated TLV"
  | fuel + 1, content@(_ :: _) => do
    let e ← readTLV content
    let item ← f (content.take e.size)
    let items ← decodeItems f fuel (content.drop e.size)
    .ok (item :: items)

mutual

def decodeValue : (t : Ty) → Bytes → ℕ → Except String t.Val
  | .ptr elem, data, depth => do
    Except.ensure (depth ≤ maxDepth) "maximum nesting depth exceeded"
    let _ ← readWhole data "trailing data in value"
    let v ← decodeValue elem data (depth + 1)
    Except.ok (some v)
  | .prim p, data, depth => do
    Except.ensure (depth ≤ maxDepth) "maximum nesting depth exceeded"
    let e ← readWhole data "trailing data in value"
    p.decode data e
  | .slice elem, data, depth => do
    Except.ensure (depth ≤ maxDepth) "maximum nesting depth exceeded"
    let e ← readWhole data "trailing data in value"
    Except.ensure (e.tag = tagSequence) "unexpected SEQUENCE tag"
    let items ← decodeItems (fun item => decodeValue elem item (depth + 1))
      e.content.length e.content
    Except.ok (some items)
  | .struct (some application) fields, data, depth => do
    Except.ensure (depth ≤ maxDepth) "maximum nesting depth exceeded"
    let e ← readWhole data "trailing data in value"
    Except.ensure (e.tag = 0x60 ||| application) "unexpected application tag"
    let inner ← readTLV e.content
    Except.ensure (inner.tag = tagSequence ∧ inner.size = e.content.length)
      "application value is not a complete SEQUENCE"
    Except.ensure (depth + 1 ≤ maxDepth) "maximum nesting depth exceeded"
    decodeFields fields inner.content (depth + 2)
  | .struct none fields, data, depth => do
    Except.ensure (depth ≤ maxDepth) "maximum nesting depth exceeded"
    let e ← readWhole data "trailing data in value"
    if choicesFor e.tag fields = 1 then decodeChoice fields e.tag e.content depth
    else do
      Except.ensure (e.tag = tagSequence) "unexpected SEQUENCE tag"
      decodeFields fields e.content (depth + 1)

/-- The loop of `decodeStruct`, from the content not yet taken. -/
def decodeFields : (fs : Fields) → Bytes → ℕ → Except String fs.Vals
  | .nil, content, _ => do
    Except.ensure (content = []) "unknown trailing field"
    Except.ok ()
  | .cons name tag ty rest, content, depth =>
    if content = [] then do
      Except.ensure tag.optional ("missing mandatory field " ++ name)
      let vs ← decodeFields rest content depth
      Except.ok (ty.zero, vs)
    else do
      let e ← readTLV content
      let takes ← takesField tag ty rest e.tag
      if takes then do
        Except.ensure (¬ (tag.implicit ∧ !tag.bare ∧ tagForImplicitField ty = 0))
          ("field " ++ name ++ " cannot use implicit tagging")
        let v ← Except.within ("field " ++ name ++ ": ")
          (if tag.bare then decodeValue ty (content.take e.size) (depth + 1)
          else if tag.implicit then
            if tagForImplicitField ty = tagInteger then
              decodeImplicitInteger e.content tag.signed ty
            else decodeValue ty (encodeTLV (tagForImplicitField ty) e.content) (depth + 1)
          else if tag.signed then decodeSignedInteger e.content ty
          else decodeValue ty e.content (depth + 1))
        let vs ← decodeFields rest (content.drop e.size) depth
        Except.ok (v, vs)
      else do
        let vs ← decodeFields rest content depth
        Except.ok (ty.zero, vs)

/-- The alternative with this tag; the others stay as they are. -/
def decodeChoice : (fs : Fields) → UInt8 → Bytes → ℕ → Except String fs.Vals
  | .nil, _, _, _ => .error "unexpected choice tag"
  | .cons _ field ty rest, tag, content, depth =>
    if field.choice && tag == 0xa0 ||| field.number then do
      let v ← decodeValue ty content (depth + 1)
      Except.ok (v, rest.zeros)
    else do
      let vs ← decodeChoice rest tag content depth
      Except.ok (ty.zero, vs)

end

def unmarshal (t : Ty) (data : Bytes) : Except String t.Val :=
  Except.within "unmarshal kerberos ASN.1: " do
    let _ ← readWhole data "trailing data"
    decodeValue t data 0

end Kerberos.ASN1
