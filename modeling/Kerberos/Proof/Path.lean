import Kerberos.Proof.Canonical
import Kerberos.Spec.Path

/-!
# The octets that are checksummed are the octets that are acted on

The decoder of a struct and the walk by tag numbers are two readers of the same octets.
`Fields.taken` lists the elements the decoder takes, by the number of the field each is taken for.
If the fields have explicit tags, the walk finds those elements and no others
(`findChildLoop_taken`): the decoder lets nothing else stand between them, and an application tag is
none of theirs.

* `decodeValue_depth`: what is decoded in the depth of a message is decoded alike on its own.
* `checksummed_body`: **of every AS-REQ and TGS-REQ that is accepted, the walk returns the element
  the decoder took for the body, and its content decodes to that body.**
-/

namespace Kerberos.ASN1

open List Except Nat Messages

/-! ## Decoding higher up -/

theorem decodeItems_below {α : Type} {f g : Bytes → Except String α}
    (h : ∀ b, Below (f b) (g b)) (fuel : ℕ)
    (content : Bytes) : Below (decodeItems f fuel content) (decodeItems g fuel content) := by
  induction fuel generalizing content with
  | zero => cases content <;> exact .refl _
  | succ fuel ih =>
    by_cases hnil : content = []
    · subst hnil
      exact .refl _
    · rw [decodeItems_succ hnil, decodeItems_succ hnil]
      exact .next fun e => .bind (h _) fun _ => .last (ih _)

mutual

/-- What is decoded further down is decoded alike higher up. -/
theorem decodeValue_depth : (t : Ty) → {data : Bytes} → {depth depth' : ℕ} → depth' ≤ depth →
    Below (decodeValue t data depth) (decodeValue t data depth')
  | .prim p, _, _, _, hle => by
    rw [decodeValue, decodeValue]
    exact .last (.ensure hle.trans)
  | .ptr elem, _, _, _, hle => by
    rw [decodeValue, decodeValue]
    refine .bind (.ensure hle.trans) fun _ => .next fun _ => .last ?_
    exact decodeValue_depth elem (succ_le_succ hle)
  | .slice elem, _, _, _, hle => by
    rw [decodeValue, decodeValue]
    refine .bind (.ensure hle.trans) fun _ => .next fun e => .next fun _ =>
      .last (decodeItems_below (fun b => ?_) _ _)
    exact decodeValue_depth elem (succ_le_succ hle)
  | .struct (some application) fields, _, _, _, hle => by
    rw [decodeValue, decodeValue]
    refine .bind (.ensure hle.trans) fun _ => .next fun e => .next fun _ => .next fun inner =>
      .next fun _ => ?_
    refine .bind (.ensure (succ_le_succ hle).trans) fun _ => ?_
    exact decodeFields_depth fields (Nat.add_le_add_right hle 2)
  | .struct none fields, _, _, _, hle => by
    rw [decodeValue, decodeValue]
    refine .bind (.ensure hle.trans) fun _ => .next fun e => .ite (fun _ => ?_) fun _ =>
      .next fun _ => ?_
    · exact decodeChoice_depth fields hle
    · exact decodeFields_depth fields (succ_le_succ hle)

theorem decodeFields_depth :
    (fs : Fields) → {content : Bytes} → {depth depth' : ℕ} → depth' ≤ depth →
    Below (decodeFields fs content depth) (decodeFields fs content depth')
  | .nil, _, _, _, _ => by
    rw [decodeFields, decodeFields]
    exact .refl _
  | .cons name tag ty rest, content, depth, depth', hle => by
    have hvalue (data : Bytes) :
        Below (decodeValue ty data (depth + 1)) (decodeValue ty data (depth' + 1)) :=
      decodeValue_depth ty (succ_le_succ hle)
    rw [decodeFields, decodeFields]
    refine .ite (fun _ => .next fun _ => .last (decodeFields_depth rest hle)) fun _ =>
      .next fun e => .next fun _ => ?_
    refine .ite (fun _ => .next fun _ => .bind (.within ?_) fun _ =>
      .last (decodeFields_depth rest hle)) fun _ => ?_
    · -- the branches without a value inside do not know the depth
      refine .ite (fun _ => hvalue _) fun _ =>
        .ite (fun _ => .ite (fun _ => .refl _) fun _ => hvalue _) fun _ => ?_
      exact .ite (fun _ => .refl _) fun _ => hvalue _
    · exact .last (decodeFields_depth rest hle)

theorem decodeChoice_depth :
    (fs : Fields) → {tag : UInt8} → {content : Bytes} → {depth depth' : ℕ} →
    depth' ≤ depth → Below (decodeChoice fs tag content depth) (decodeChoice fs tag content depth')
  | .nil, _, _, _, _, _ => by
    rw [decodeChoice, decodeChoice]
    exact .refl _
  | .cons _ field ty rest, tag, _, _, _, hle => by
    rw [decodeChoice, decodeChoice]
    refine .ite (fun _ => .last ?_) fun _ => .last (decodeChoice_depth rest hle)
    exact decodeValue_depth ty (succ_le_succ hle)

end

/-! ## The elements the decoder takes -/

/-- The elements `decodeFields` takes, each with the number of the field it is taken for. -/
def Fields.taken : Fields → Bytes → List (UInt8 × Bytes)
  | .nil, _ => []
  | .cons _ tag ty rest, content =>
    match readTLV content with
    | .error _ => rest.taken content
    | .ok e =>
      match takesField tag ty rest e.tag with
      | .ok true => (tag.number, content.take e.size) :: rest.taken (content.drop e.size)
      | _ => rest.taken content

/-- All tags are explicit, with numbers of one octet. -/
def Fields.explicit : Fields → Bool
  | .nil => true
  | .cons _ tag _ rest => !tag.bare && !tag.implicit && decide (tag.number < 31) && rest.explicit

variable {name : String} {rest : Fields} {tag : FieldTag} {ty : Ty}

theorem Fields.taken_left {content : Bytes}
    (h : content = [] ∨ ∃ e, readTLV content = .ok e ∧ takesField tag ty rest e.tag = .ok false) :
    (Fields.cons name tag ty rest).taken content = rest.taken content := by
  rw [taken]
  rcases h with rfl | ⟨e, he, htakes⟩
  · rfl
  · rw [he]
    simp only [htakes]

theorem Fields.taken_cons {e : Element} {tail : Bytes}
    (hsize : e.size = (encodeTLV e.tag e.content).length) (hsmall : e.content.length < 2 ^ 32)
    (htakes : takesField tag ty rest e.tag = .ok true) :
    (Fields.cons name tag ty rest).taken (encodeTLV e.tag e.content ++ tail) =
      (tag.number, encodeTLV e.tag e.content) :: rest.taken tail := by
  rw [taken, readTLV_ok.2 ⟨tail, rfl, hsize, hsmall⟩]
  simp only [htakes, hsize, take_left, drop_left]

/-! ## The walk -/

/-- An explicit tag is matched by its own number only, and by no application tag. -/
theorem matchesTag_explicit {m n : UInt8} (hm : m < 31) (hn : n < 31) :
    matchesTag (0xa0 ||| m) n = (n == m) := by
  have hall : ∀ m n : Fin 31, matchesTag (0xa0 ||| UInt8.ofNat m) (UInt8.ofNat n) =
      (UInt8.ofNat n == UInt8.ofNat m) := by
    decide +kernel
  have h := hall ⟨m.toNat, UInt8.lt_iff_toNat_lt.1 hm⟩ ⟨n.toNat, UInt8.lt_iff_toNat_lt.1 hn⟩
  rwa [UInt8.ofNat_toNat, UInt8.ofNat_toNat] at h

theorem findChildLoop_cons {tagNumber : UInt8} {fuel : ℕ} {e : Element} {tail : Bytes}
    (hsize : e.size = (encodeTLV e.tag e.content).length) (hsmall : e.content.length < 2 ^ 32) :
    findChildLoop tagNumber (fuel + 1) (encodeTLV e.tag e.content ++ tail) =
      if matchesTag e.tag tagNumber then .ok (some (encodeTLV e.tag e.content))
      else findChildLoop tagNumber fuel tail := by
  have hread : readTLV (encodeTLV e.tag e.content ++ tail) = .ok e :=
    readTLV_ok.2 ⟨tail, rfl, hsize, hsmall⟩
  have hstep : findChildLoop tagNumber (fuel + 1) (encodeTLV e.tag e.content ++ tail) =
      (do
        let found ← readTLV (encodeTLV e.tag e.content ++ tail)
        if matchesTag found.tag tagNumber then
          .ok (some ((encodeTLV e.tag e.content ++ tail).take found.size))
        else findChildLoop tagNumber fuel ((encodeTLV e.tag e.content ++ tail).drop found.size)) :=
          rfl
  rw [hstep, hread, ok_bind, hsize, take_left, drop_left]

variable {depth : ℕ} {n : UInt8}

/-- The walk finds for a number the element the decoder took for it, and none where it took none. -/
theorem findChildLoop_taken {fs : Fields} (hfs : fs.explicit = true) (hn : n < 31) {content : Bytes}
    {vs : fs.Vals} (h : decodeFields fs content depth = .ok vs) {fuel : ℕ}
    (hfuel : content.length ≤ fuel) :
    findChildLoop n fuel content = .ok ((fs.taken content).lookup n) := by
  match fs, vs with
  | .nil, _ =>
    obtain ⟨hnil, -⟩ := ensure_bind_ok.1 h
    rw [hnil]
    cases fuel <;> rfl
  | .cons name tag ty rest, (v, vs) =>
    simp only [Fields.explicit, Bool.and_eq_true, Bool.not_eq_true', decide_eq_true_eq] at hfs
    obtain ⟨⟨⟨hbare, himplicit⟩, hnumber⟩, hrest⟩ := hfs
    rcases decodeFields_cons h with ⟨-, -, hvs, hleft⟩ | ⟨e, tail, hcontent, hsize, hsmall,
      htakes, -, hvs⟩
    · rw [Fields.taken_left hleft]
      exact findChildLoop_taken hrest hn hvs hfuel
    · subst hcontent
      rw [Fields.taken_cons hsize hsmall htakes, lookup_cons]
      have hlength : (encodeTLV e.tag e.content ++ tail).length =
          1 + (encodeLength e.content.length ++ e.content).length + tail.length := by
        rw [length_append, encodeTLV, length_cons, add_comm 1]
      obtain ⟨fuel, rfl⟩ : ∃ k, fuel = k + 1 := ⟨fuel - 1, by omega⟩
      rw [findChildLoop_cons hsize hsmall, tag_of_takesField hbare himplicit htakes,
        matchesTag_explicit hnumber hn]
      by_cases hequal : (n == tag.number) = true
      · rw [if_pos hequal]
        simp only [hequal]
      · rw [if_neg hequal, findChildLoop_taken hrest hn hvs (by omega)]
        simp only [hequal]

/-! ## Requests -/

/-- What a message with an application tag is made of. -/
theorem decodeValue_application {k : UInt8} {fields : Fields} {raw : Bytes} {vs : fields.Vals}
    (h : decodeValue (.struct (some k) fields) raw depth = .ok vs) :
    ∃ content, raw = encodeTLV (0x60 ||| k) (encodeTLV tagSequence content) ∧
      (encodeTLV tagSequence content).length < 2 ^ 32 ∧
      content.length < 2 ^ 32 ∧ decodeFields fields content (depth + 2) = .ok vs := by
  obtain ⟨_, -, h⟩ := bind_ok.1 h
  obtain ⟨e, he, h⟩ := bind_ok.1 h
  obtain ⟨htag, h⟩ := ensure_bind_ok.1 h
  obtain ⟨inner, hinner, h⟩ := bind_ok.1 h
  obtain ⟨⟨hseq, hwhole⟩, h⟩ := ensure_bind_ok.1 h
  obtain ⟨_, -, h⟩ := bind_ok.1 h
  obtain ⟨hraw, -, hsmall⟩ := readWhole_ok.1 he
  obtain ⟨hcontent, -, hsmall'⟩ := readWhole_ok.1 (readWhole_of_readTLV hinner hwhole "")
  rw [hseq] at hcontent
  rw [hcontent] at hsmall
  exact ⟨inner.content, by rw [hraw, htag, hcontent], hsmall, hsmall', h⟩

/-- The walk below the application tag. -/
theorem field_application {k n : UInt8} (hk : k < 31) (hn : n < 31) {content : Bytes}
    (houter : (encodeTLV tagSequence content).length < 2 ^ 32) (hinner : content.length < 2 ^ 32)
    {element : Bytes}
    (h : findChild content n = .ok (some element)) :
    field (encodeTLV (0x60 ||| k) (encodeTLV tagSequence content)) [k.toNat, n.toNat] =
      .ok element := by
  have hrange : ∀ m : UInt8, m < 31 → (0 : ℤ) ≤ m.toNat ∧ (m.toNat : ℤ) ≤ 30 := by
    intro m hm
    have hm := UInt8.lt_iff_toNat_lt.1 hm
    have hlimit : (31 : UInt8).toNat = 31 := rfl
    omega
  have htags : ∀ tag ∈ ([↑k.toNat, ↑n.toNat] : List ℤ), 0 ≤ tag ∧ tag ≤ 30 := by
    intro tag htag
    rcases mem_pair.1 htag with rfl | rfl
    · exact hrange k hk
    · exact hrange n hn
  have hmatch : matchesTag (0x60 ||| k) k = true := by
    rw [matchesTag, beq_self_eq_true, Bool.true_or]
  rw [field, ensure_bind (cons_ne_nil _ _), ensure_bind htags]
  simp only [map_cons, map_nil, Int.toNat_natCast, UInt8.ofNat_toNat]
  rw [walk, readTLV_whole houter, within_ok.2 rfl, ok_bind, ensure_bind rfl]
  simp only [hmatch, Bool.true_and, cons_ne_nil]
  rw [walk, readTLV_whole hinner, within_ok.2 rfl, ok_bind, ensure_bind rfl]
  simp only [Bool.false_and, Bool.false_eq_true, if_false, if_true]
  rw [within_ok.2 h, ok_bind]

theorem explicit_kdcReqFields : kdcReqFields.explicit = true := by decide +kernel

/-- The fields after one are decoded from what it leaves, and no other number is taken before. -/
theorem decodeFields_rest {content : Bytes}
    {v : ty.Val} {vs : rest.Vals}
    (h : decodeFields (.cons name tag ty rest) content depth = .ok (v, vs))
    (hn : n ≠ tag.number) :
    ∃ tail, tail.length ≤ content.length ∧ decodeFields rest tail depth = .ok vs ∧
      ((Fields.cons name tag ty rest).taken content).lookup n = (rest.taken tail).lookup n := by
  rcases decodeFields_cons h with ⟨-, -, hvs, hleft⟩ | ⟨e, tail, rfl, hsize, hsmall, htakes, -, hvs⟩
  · exact ⟨content, le_rfl, hvs, by rw [Fields.taken_left hleft]⟩
  · have hother : (n == tag.number) = false := beq_false_of_ne hn
    refine ⟨tail, by rw [length_append]; omega, hvs, ?_⟩
    rw [Fields.taken_cons hsize hsmall htakes, lookup_cons]
    simp only [hother]

/-- A required field with an explicit tag is decoded from the content of an element that is
taken. -/
theorem decodeFields_required {number : UInt8} {content : Bytes}
    {v : ty.Val} {vs : rest.Vals}
    (h : decodeFields (.cons name { number } ty rest) content depth = .ok (v, vs)) :
    ∃ body, body.length < 2 ^ 32 ∧ body.length < content.length ∧
      decodeValue ty body (depth + 1) = .ok v ∧
      ((Fields.cons name { number } ty rest).taken content).lookup number =
        some (encodeTLV (0xa0 ||| number) body) := by
  rcases decodeFields_cons h with ⟨-, hoptional, -⟩ | ⟨e, tail, rfl, hsize, hsmall, htakes, hv, -⟩
  · cases hoptional
  · have htag : e.tag = 0xa0 ||| number := tag_of_takesField rfl rfl htakes
    refine ⟨e.content, hsmall, ?_, hv, ?_⟩
    · rw [encodeTLV, length_append, length_cons, length_append]
      omega
    rw [Fields.taken_cons hsize hsmall htakes, lookup_cons_self, htag]

/-- The decoder takes one element with the number 4, and decodes the body from its content. -/
theorem taken_reqBody {content : Bytes} {vs : kdcReqFields.Vals}
    (h : decodeFields kdcReqFields content depth = .ok vs) :
    ∃ body, body.length < 2 ^ 32 ∧ decodeValue kdcReqBody body (depth + 1) = .ok vs.2.2.2.1 ∧
      (kdcReqFields.taken content).lookup 4 = some (encodeTLV 0xa4 body) := by
  obtain ⟨_, -, h, htaken₁⟩ := decodeFields_rest h (show (4 : UInt8) ≠ 1 by decide)
  obtain ⟨_, -, h, htaken₂⟩ := decodeFields_rest h (show (4 : UInt8) ≠ 2 by decide)
  obtain ⟨_, -, h, htaken₃⟩ := decodeFields_rest h (show (4 : UInt8) ≠ 3 by decide)
  obtain ⟨body, hsmall, -, hbody, htaken₄⟩ := decodeFields_required h
  exact ⟨body, hsmall, hbody, htaken₁.trans (htaken₂.trans (htaken₃.trans htaken₄))⟩

/-- The octets of the fields of a message with an application tag: the content of its SEQUENCE. -/
def messageContent (raw : Bytes) : Except String Bytes := do
  let outer ← readWhole raw "trailing data"
  let inner ← readWhole outer.content "trailing data"
  .ok inner.content

/-- **Of every AS-REQ and every TGS-REQ that is accepted, the walk to the body succeeds: it returns
the element that the decoder took for the body, and the content of that element decodes to the body
of the decoded request.** -/
theorem checksummed_body (k : UInt8) (hk : k = 10 ∨ k = 12) (raw : Bytes)
    (request : kdcReqFields.Vals)
    (h : unmarshal (.struct (some k) kdcReqFields) raw = .ok request) :
    ∃ content element body, messageContent raw = .ok content ∧
      (kdcReqFields.taken content).lookup 4 = some element ∧ field raw [k.toNat, 4] = .ok element ∧
      fieldContent raw [k.toNat, 4] = .ok body ∧
        unmarshal kdcReqBody body = .ok request.2.2.2.1 := by
  have hnumber : k < 31 := by
    rcases hk with rfl | rfl <;> decide
  obtain ⟨_, -, h⟩ := bind_ok.1 (within_ok.1 h)
  obtain ⟨content, rfl, houter, hinner, h⟩ := decodeValue_application h
  obtain ⟨body, hsmall, hbody, htaken⟩ := taken_reqBody h
  have hfind : findChild content 4 = .ok (some (encodeTLV 0xa4 body)) := by
    rw [findChild, findChildLoop_taken explicit_kdcReqFields (by decide) h le_rfl, htaken]
  have hfield := field_application hnumber (show (4 : UInt8) < 31 by decide) houter hinner hfind
  have hwhole : decodeValue kdcReqBody body 0 = .ok request.2.2.2.1 :=
    decodeValue_depth _ (zero_le _) _ hbody
  obtain ⟨e, hread, -⟩ := decodeValue_struct hwhole
  refine ⟨content, _, body, ?_, htaken, hfield, ?_, ?_⟩
  · rw [messageContent, readWhole_encodeTLV houter, ok_bind, readWhole_encodeTLV hinner, ok_bind]
  · refine (congrArg (· >>= _) hfield).trans ?_
    rw [ok_bind, readTLV_whole hsmall, within_ok.2 rfl, ok_bind, ensure_bind rfl]
  refine within_ok.2 ?_
  have hread' : readWhole body "trailing data" = .ok e := readWhole_ok.2 (readWhole_ok.1 hread)
  rw [hread']
  exact hwhole

namespace Sample

/-- The body of a request for the realm R with no options, to be valid to 2030, with nonce 1 and one
encryption type. -/
def reqBody : Bytes := encodeTLV 0x30 (
  encodeTLV 0xa0 (encodeTLV 3 [0, 0, 0, 0, 0]) ++ encodeTLV 0xa2 (encodeTLV 0x1b [0x52]) ++
  encodeTLV 0xa5 (encodeTLV 0x18 (str "20300101000000Z")) ++ encodeTLV 0xa7 (encodeTLV 2 [1]) ++
  encodeTLV 0xa8 (encodeTLV 0x30 (encodeTLV 2 [18])))

def request : Bytes := encodeTLV 0x6a (encodeTLV 0x30 (
  encodeTLV 0xa1 (encodeTLV 2 [5]) ++ encodeTLV 0xa2 (encodeTLV 2 [10]) ++ encodeTLV 0xa4 reqBody))

end Sample

theorem checksummed_body_sample : ∃ request content element body,
    unmarshal asReq Sample.request = .ok request ∧ messageContent Sample.request = .ok content ∧
      (kdcReqFields.taken content).lookup 4 = some element ∧ field Sample.request [10, 4] =
        .ok element ∧
      fieldContent Sample.request [10, 4] = .ok body ∧
        unmarshal kdcReqBody body = .ok request.2.2.2.1 := by
  have hread : ∃ request, unmarshal asReq Sample.request = .ok request := ⟨_, rfl⟩
  obtain ⟨request, hread⟩ := hread
  obtain ⟨content, element, body, h⟩ := checksummed_body 10 (.inl rfl) Sample.request request hread
  exact ⟨request, content, element, body, hread, h⟩

end Kerberos.ASN1
