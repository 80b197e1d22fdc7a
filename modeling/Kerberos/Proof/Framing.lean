import Kerberos.Spec.Framing

/-!
# Reading the frames of context tokens

A token is read as a frame when its length takes one octet, or one or two behind the octet that
counts them, and is the length of the content (`Framed`). Such a token is opened by its content
alone (`unframe_octets`), and every other one is refused (`unframe_malformed`).

* `opened_iff`: what is returned stands behind the object identifier and the token's own octets.
* `outside_iff`: the reader leaves the buffer exactly when the content ends between the two.
* `token_framing`: **a frame is read back while its content is shorter than 65536 octets**, for
  longer ones the length written is cut to sixteen bits.
-/

namespace Kerberos.GSS

open Words List Except UInt8

/-! ## Lengths -/

/-- The octets of a length. -/
inductive LengthOctets : Bytes → ℕ → Prop
  | short {b : UInt8} (h : b < 128) : LengthOctets [b] b.toNat
  | long {b : UInt8} {octets : Bytes} (hb : 128 ≤ b) (hn : octets.length = (b &&& 0x7f).toNat)
      (hpos : octets.length ≠ 0) (hle : octets.length ≤ 2) :
        LengthOctets (b :: octets) (ofBE octets)

variable {octets : Bytes} {n : ℕ}

theorem LengthOctets.ne_nil (h : LengthOctets octets n) : octets ≠ [] := by
  cases h with
  | short => exact cons_ne_nil _ _
  | long => exact cons_ne_nil _ _

theorem derLength_append (h : LengthOctets octets n) (rest : Bytes) :
    derLength (octets ++ rest) = some octets.length ∧ readLengthValue (octets ++ rest) = .ok n := by
  cases h with
  | @short b hb =>
    constructor
    · exact if_pos hb
    · exact if_pos hb
  | @long b octets hb hn hpos hle =>
    have hnot : ¬ b < 128 := UInt8.not_lt.2 hb
    have hcount : ¬ ((b &&& 0x7f).toNat = 0 ∨ 2 < (b &&& 0x7f).toNat ∨
        (b :: (octets ++ rest)).length < (b &&& 0x7f).toNat + 1) := by
      rw [length_cons, length_append]
      omega
    have hslice : sliceTo (octets ++ rest) (b &&& 0x7f).toNat = .ok octets := by
      have hle : octets.length ≤ (octets ++ rest).length := by
        rw [length_append]
        omega
      rw [← hn, sliceTo, ensure_bind hle, take_left]
    constructor
    · rw [cons_append, derLength, if_neg hnot]
      simp only [if_neg hcount]
      rw [length_cons, hn]
    · rw [cons_append, readLengthValue, if_neg hnot, hslice, ok_bind]

variable {content : Bytes}

/-- The octets of a length are read off the front, so a token is cut in one way only. -/
theorem LengthOctets.unique {octets' content' : Bytes} {n' : ℕ} (h : LengthOctets octets n)
    (h' : LengthOctets octets' n') (heq : octets ++ content = octets' ++ content') :
    content = content' ∧ n = n' := by
  obtain ⟨hsize, hvalue⟩ := derLength_append h content
  rw [heq, (derLength_append h' content').1] at hsize
  rw [heq, (derLength_append h' content').2] at hvalue
  have hlen : octets'.length = octets.length := Option.some.inj hsize
  exact ⟨(append_inj heq hlen.symm).2, (ok.inj hvalue).symm⟩

variable {data : Bytes}

theorem exists_octets {offset : ℕ} (h : derLength data = some offset) :
    ∃ octets rest n, data = octets ++ rest ∧ LengthOctets octets n := by
  cases data with
  | nil => cases h
  | cons b tail =>
    by_cases hb : b < 128
    · exact ⟨[b], tail, b.toNat, rfl, .short hb⟩
    · rw [derLength, if_neg hb] at h
      by_cases hcount : (b &&& 0x7f).toNat = 0 ∨ 2 < (b &&& 0x7f).toNat ∨
          (b :: tail).length < (b &&& 0x7f).toNat + 1
      · simp only [if_pos hcount] at h
        cases h
      · rw [length_cons] at hcount
        have hlen : (tail.take (b &&& 0x7f).toNat).length = (b &&& 0x7f).toNat := by
          rw [length_take]
          omega
        refine ⟨b :: tail.take (b &&& 0x7f).toNat, tail.drop (b &&& 0x7f).toNat, _, ?_,
          .long (UInt8.not_lt.1 hb) hlen ?_ ?_⟩
        · rw [cons_append, take_append_drop]
        · omega
        · omega

/-- What `appendDERLength` puts in front of the content: its length, modulo `2 ^ 16`. -/
theorem appendDERLength_eq (content : Bytes) :
    ∃ octets, appendDERLength content = octets ++ content ∧
    LengthOctets octets (content.length % 65536) := by
  unfold appendDERLength
  by_cases hshort : content.length < 128
  · have hbyte : (ofNat content.length).toNat = content.length % 65536 := by
      rw [toNat_ofNat']
      omega
    refine ⟨[ofNat content.length], if_pos hshort, ?_⟩
    rw [← hbyte]
    refine .short (lt_iff_toNat_lt.2 ?_)
    change _ < 128
    omega
  · by_cases hone : content.length < 256
    · have hbyte : ofBE [ofNat content.length] = content.length % 65536 := by
        simp only [ofBE, reverse_singleton, ofLE, toNat_ofNat']
        omega
      refine ⟨[0x81, ofNat content.length], ?_, ?_⟩
      · simp only [if_neg hshort, if_pos hone]
        rfl
      · rw [← hbyte]
        exact .long (by decide) (show 1 = ((0x81 : UInt8) &&& 0x7f).toNat by decide)
          one_ne_zero one_le_two
    · have hbytes : ofBE [ofNat (content.length / 256), ofNat content.length] =
          content.length % 65536 := by
        rw [ofBE_cons, ofBE_cons, toNat_ofNat', toNat_ofNat']
        change _ * 256 ^ 1 + (_ * 256 ^ 0 + 0) = _
        omega
      refine ⟨[0x82, ofNat (content.length / 256), ofNat content.length], ?_, ?_⟩
      · simp only [if_neg hshort, if_neg hone]
        rfl
      · rw [← hbytes]
        exact .long (by decide) (show 2 = ((0x82 : UInt8) &&& 0x7f).toNat by decide)
          two_ne_zero le_rfl

/-! ## Frames -/

/-- The token is a frame around the content. -/
def Framed (token content : Bytes) : Prop :=
  ∃ octets, token = 0x60 :: (octets ++ content) ∧ LengthOctets octets content.length

variable {token : Bytes}

/-- What `unframeTokenWithOIDs` does with the content of a frame. -/
def openContent (content tokenID : Bytes) (oids : List Bytes) : Except Fault Bytes := do
  let oid := (mechanismOf oids content).getD []
  Except.ensure (oid ≠ []) (Fault.error "GSS token: unexpected mechanism")
  let content ← sliceFrom content oid.length
  let id ← sliceTo content tokenID.length
  Except.ensure (id = tokenID) (Fault.error "GSS token: unexpected token id")
  sliceFrom content tokenID.length

theorem sliceFrom_of_le (h : n ≤ data.length) : sliceFrom data n = .ok (data.drop n) := by
  rw [sliceFrom, ensure_bind h]

theorem sliceTo_of_le (h : n ≤ data.length) : sliceTo data n = .ok (data.take n) := by
  rw [sliceTo, ensure_bind h]

theorem sliceTo_of_lt (h : data.length < n) : sliceTo data n = .error .outside := by
  rw [sliceTo, ensure_of_not (by omega), error_bind]

/-- A token with the octets of a length behind its tag. -/
theorem unframe_octets (h : LengthOctets octets n) (content tokenID : Bytes)
    (oids : List Bytes) : unframeTokenWithOIDs (0x60 :: (octets ++ content)) tokenID oids =
      if tokenID.length ≤ content.length ∧ content.length = n then openContent content tokenID oids
      else .error (.error "GSS token: invalid framing") := by
  have hpos : 0 < octets.length := length_pos_iff.2 h.ne_nil
  obtain ⟨hoffset, hvalue⟩ := derLength_append h content
  have hlen : (0x60 :: (octets ++ content)).length = 1 + octets.length + content.length := by
    rw [length_cons, length_append]
    omega
  unfold unframeTokenWithOIDs
  simp only [tail_cons, hoffset, hvalue, hlen, ofOption, ok_bind, head?_cons, and_true,
    Nat.add_sub_cancel_left]
  by_cases hid : tokenID.length ≤ content.length
  · rw [ensure_bind (by omega), ensure_of ⟨by omega, hid⟩, ok_bind]
    by_cases heq : content.length = n
    · rw [ensure_bind heq, sliceFrom_of_le (by omega), if_pos ⟨hid, heq⟩]
      have hdrop : (0x60 :: (octets ++ content)).drop (1 + octets.length) = content := by
        rw [add_comm, drop_succ_cons, drop_left]
      rw [hdrop]
      rfl
    · rw [ensure_of_not heq, error_bind, if_neg fun hboth => heq hboth.2]
  · rw [if_neg fun hboth => hid hboth.1]
    -- the check made before the length is read refuses, or the one made after it
    by_cases hfirst : 2 + tokenID.length ≤ 1 + octets.length + content.length
    · rw [ensure_bind hfirst, ensure_of_not fun hboth => hid hboth.2,
        error_bind]
    · rw [ensure_of_not hfirst, error_bind]

theorem unframe_malformed (h : ¬ ∃ octets content n, token = 0x60 :: (octets ++ content) ∧
    LengthOctets octets n) (tokenID : Bytes) (oids : List Bytes) :
    ∃ text, unframeTokenWithOIDs token tokenID oids = .error (.error text) := by
  unfold unframeTokenWithOIDs
  by_cases hfirst : 2 + tokenID.length ≤ token.length ∧ token.head? = some 0x60
  · rw [ensure_bind hfirst]
    cases hoffset : derLength token.tail with
    | none => exact ⟨_, rfl⟩
    | some offset =>
      obtain ⟨octets, rest, n, htail, hoctets⟩ := exists_octets hoffset
      refine absurd ⟨octets, rest, n, ?_, hoctets⟩ h
      rw [← htail]
      exact (cons_head?_tail hfirst.2).symm
  · rw [ensure_of_not hfirst]
    exact ⟨_, rfl⟩

variable {tokenID : Bytes} {oids : List Bytes}

/-- Unless it is refused with a text, a token is a frame and its content is opened. -/
theorem unframe_eq_iff {r : Except Fault Bytes} (hr : ∀ text, r ≠ .error (.error text)) :
    unframeTokenWithOIDs token tokenID oids = r ↔
      ∃ content, Framed token content ∧ tokenID.length ≤ content.length ∧
        openContent content tokenID oids = r := by
  constructor
  · rintro rfl
    by_cases hform : ∃ octets content n, token = 0x60 :: (octets ++ content) ∧ LengthOctets octets n
    · obtain ⟨octets, content, n, rfl, hoctets⟩ := hform
      rw [unframe_octets hoctets] at hr ⊢
      split_ifs at hr ⊢ with hboth
      · exact ⟨content, ⟨octets, rfl, hboth.2 ▸ hoctets⟩, hboth.1, rfl⟩
      · exact absurd rfl (hr _)
    · obtain ⟨text, herror⟩ := unframe_malformed hform tokenID oids
      exact absurd herror (hr text)
  · rintro ⟨content, ⟨octets, rfl, hoctets⟩, hle, rfl⟩
    rw [unframe_octets hoctets, if_pos ⟨hle, rfl⟩]

/-! ## What is opened -/

variable {inner : Bytes}

theorem mechanismOf_prefix {oid : Bytes} (hoid : mechanismOf oids content = some oid) :
    oid <+: content := by
  simpa using find?_some hoid

theorem openContent_of {oid rest : Bytes} (hoid : mechanismOf oids (oid ++ rest) = some oid)
    (hne : oid ≠ []) :
    openContent (oid ++ rest) tokenID oids = if rest.length < tokenID.length then .error .outside
      else if tokenID <+: rest then .ok (rest.drop tokenID.length)
      else .error (.error "GSS token: unexpected token id") := by
  unfold openContent
  simp only [hoid, Option.getD_some]
  rw [ensure_bind hne, sliceFrom_of_le (by simp), ok_bind, drop_left]
  split_ifs with hlt hid
  · rw [sliceTo_of_lt hlt, error_bind]
  · rw [sliceTo_of_le (by omega), ok_bind, ensure_bind (prefix_iff_eq_take.1 hid).symm,
      sliceFrom_of_le (by omega)]
  · rw [sliceTo_of_le (by omega), ok_bind,
      ensure_of_not fun h => hid (prefix_iff_eq_take.2 h.symm), error_bind]

/-- Without a mechanism nothing is opened. -/
theorem openContent_refused (h : ¬ ∃ oid, mechanismOf oids content = some oid ∧ oid ≠ []) :
    openContent content tokenID oids = .error (.error "GSS token: unexpected mechanism") := by
  have hnil : (mechanismOf oids content).getD [] = [] := by
    cases hoid : mechanismOf oids content with
    | none => rfl
    | some oid =>
      by_contra hne
      exact h ⟨oid, hoid, hne⟩
  unfold openContent
  simp only [hnil]
  rw [ensure_of_not (not_not.2 rfl), error_bind]

theorem openContent_ok_iff : openContent content tokenID oids = .ok inner ↔
    ∃ oid, mechanismOf oids content = some oid ∧ oid ≠ [] ∧
      content = oid ++ (tokenID ++ inner) := by
  constructor
  · intro h
    by_cases hmech : ∃ oid, mechanismOf oids content = some oid ∧ oid ≠ []
    · obtain ⟨oid, hoid, hne⟩ := hmech
      obtain ⟨rest, rfl⟩ := mechanismOf_prefix hoid
      rw [openContent_of hoid hne] at h
      split_ifs at h with hlt hid
      obtain ⟨inner, rfl⟩ := hid
      rw [drop_left, ok.injEq] at h
      exact ⟨oid, hoid, hne, by rw [h]⟩
    · rw [openContent_refused hmech] at h
      cases h
  · rintro ⟨oid, hoid, hne, rfl⟩
    rw [openContent_of hoid hne, if_neg (by simp), if_pos (prefix_append _ _), drop_left]

theorem openContent_outside_iff : openContent content tokenID oids = .error .outside ↔
    ∃ oid, mechanismOf oids content = some oid ∧ oid ≠ [] ∧
      content.length < oid.length + tokenID.length := by
  by_cases hmech : ∃ oid, mechanismOf oids content = some oid ∧ oid ≠ []
  · obtain ⟨oid, hoid, hne⟩ := hmech
    obtain ⟨rest, rfl⟩ := mechanismOf_prefix hoid
    have hcut : (∃ oid', mechanismOf oids (oid ++ rest) = some oid' ∧ oid' ≠ [] ∧
        (oid ++ rest).length < oid'.length + tokenID.length) ↔ rest.length < tokenID.length := by
      simp [hoid, hne]
    rw [hcut, openContent_of hoid hne]
    split_ifs with hlt hid <;> simp [hlt]
  · rw [openContent_refused hmech]
    exact iff_of_false (by simp) fun ⟨oid, hoid, hne, _⟩ => hmech ⟨oid, hoid, hne⟩

/-- The token is a frame, and `inner` is what stands in it behind the mechanism and the token's own
octets. -/
def Holds (token tokenID : Bytes) (oids : List Bytes) (inner : Bytes) : Prop :=
  ∃ content oid, Framed token content ∧ mechanismOf oids content = some oid ∧ oid ≠ [] ∧
    content = oid ++ (tokenID ++ inner)

/-- The token is a frame that ends behind the mechanism, before the octets that are looked for
there; the check made in front of the mechanism finds room for them. -/
def CutShort (token tokenID : Bytes) (oids : List Bytes) : Prop :=
  ∃ content oid, Framed token content ∧ mechanismOf oids content = some oid ∧ oid ≠ [] ∧
    tokenID.length ≤ content.length ∧ content.length < oid.length + tokenID.length

/-- A reader of a token that stays inside it. -/
def Sound (token tokenID : Bytes) (oids : List Bytes) (result : Except Fault Bytes) : Prop :=
  (∃ inner, result = .ok inner ∧ Holds token tokenID oids inner) ∨
    ∃ text, result = .error (.error text)

theorem opened_iff : unframeTokenWithOIDs token tokenID oids = .ok inner ↔
    Holds token tokenID oids inner := by
  rw [unframe_eq_iff (by simp)]
  simp only [openContent_ok_iff]
  constructor
  · rintro ⟨content, hframed, -, oid, hopen⟩
    exact ⟨content, oid, hframed, hopen⟩
  · rintro ⟨content, oid, hframed, hoid, hne, hcontent⟩
    refine ⟨content, hframed, ?_, oid, hoid, hne, hcontent⟩
    rw [hcontent, length_append, length_append]
    omega

theorem outside_iff : unframeTokenWithOIDs token tokenID oids = .error .outside ↔
    CutShort token tokenID oids := by
  rw [unframe_eq_iff (by simp)]
  simp only [openContent_outside_iff]
  constructor
  · rintro ⟨content, hframed, hle, oid, hoid, hne, hlt⟩
    exact ⟨content, oid, hframed, hoid, hne, hle, hlt⟩
  · rintro ⟨content, oid, hframed, hoid, hne, hle, hlt⟩
    exact ⟨content, hframed, hle, oid, hoid, hne, hlt⟩

theorem sound_iff (token tokenID : Bytes) (oids : List Bytes) :
    Sound token tokenID oids (unframeTokenWithOIDs token tokenID oids) ↔
      ¬ CutShort token tokenID oids := by
  rw [← outside_iff]
  cases hr : unframeTokenWithOIDs token tokenID oids with
  | ok inner => exact iff_of_true (.inl ⟨inner, rfl, opened_iff.1 hr⟩) (by simp)
  | error fault =>
    cases fault with
    | error text => exact iff_of_true (.inr ⟨text, rfl⟩) (by simp)
    | outside => simp [Sound]

/-! ## Round trip -/

theorem derLengthValue_append (h : LengthOctets octets n) (rest : Bytes) :
    derLengthValue (octets ++ rest) = n := by
  cases h with
  | short hb => exact if_pos hb
  | @long b octets hb hn =>
    rw [cons_append, derLengthValue, if_neg (UInt8.not_lt.2 hb), ← hn, take_left]

theorem mechanismOf_singleton {oid oid' : Bytes} :
    mechanismOf [oid] content = some oid' ↔ oid' = oid ∧ oid <+: content := by
  unfold mechanismOf
  by_cases h : oid <+: content
  · have hfind : [oid].find? (fun x => decide (x <+: content)) = some oid :=
      find?_cons_of_pos (decide_eq_true h)
    rw [hfind]
    exact ⟨fun heq => ⟨(Option.some.inj heq).symm, h⟩, fun heq => congrArg some heq.1.symm⟩
  · have hfind : [oid].find? (fun x => decide (x <+: content)) = none :=
      find?_cons_of_neg fun hd => h (of_decide_eq_true hd)
    rw [hfind]
    exact iff_of_false (by simp) fun hboth => h hboth.2

/-- `unframeToken` as its callers see it. -/
theorem unframeToken_some :
    unframeToken token tokenID = some inner ↔ unframeTokenWithOIDs token tokenID [kerberosOID] =
      .ok inner := by
  rw [opened_iff]
  unfold unframeToken
  simp only [Option.bind_eq_bind, Option.bind_eq_some_iff, Option.guard_eq_some', Option.pure_def,
    Option.some.injEq, exists_const]
  constructor
  · rintro ⟨⟨-, hhead⟩, offset, hoffset, ⟨hle, -, hvalue⟩, hoid, hid, rfl⟩
    obtain ⟨octets, content, n, htail, hoctets⟩ := exists_octets hoffset
    have htoken : token = 0x60 :: (octets ++ content) := by
      rw [← htail]
      exact (cons_head?_tail hhead).symm
    subst htoken
    rw [tail_cons, (derLength_append hoctets content).1, Option.some.injEq] at hoffset
    subst hoffset
    have hdrop : (0x60 :: (octets ++ content)).drop (1 + octets.length) = content := by
      rw [add_comm, drop_succ_cons, drop_left]
    rw [hdrop] at hvalue hoid hid ⊢
    rw [tail_cons, derLengthValue_append hoctets] at hvalue
    obtain ⟨rest, rfl⟩ := hoid
    rw [drop_left] at hid ⊢
    obtain ⟨inner, rfl⟩ := hid
    rw [drop_left]
    exact ⟨_, kerberosOID, ⟨octets, rfl, hvalue ▸ hoctets⟩,
      mechanismOf_singleton.2 ⟨rfl, prefix_append _ _⟩, by decide, rfl⟩
  · rintro ⟨content, oid, ⟨octets, rfl, hoctets⟩, hoid, -, rfl⟩
    obtain ⟨rfl, -⟩ := mechanismOf_singleton.1 hoid
    have hpos : 0 < octets.length := length_pos_iff.2 hoctets.ne_nil
    have hdrop : (0x60 :: (octets ++ (kerberosOID ++ (tokenID ++ inner)))).drop
      (1 + octets.length) =
        kerberosOID ++ (tokenID ++ inner) := by
      rw [add_comm, drop_succ_cons, drop_left]
    refine ⟨⟨?_, rfl⟩, octets.length, (derLength_append hoctets _).1, ?_, ?_⟩
    · simp only [length_cons, length_append]
      omega
    · rw [hdrop, tail_cons, derLengthValue_append hoctets]
      refine ⟨?_, ?_, rfl⟩
      · simp only [length_cons, length_append]
        omega
      · simp only [length_append]
        omega
    · rw [hdrop, drop_left, drop_left]
      exact ⟨prefix_append _ _, prefix_append _ _, rfl⟩

theorem framed_frameToken (h : kerberosOID.length + tokenID.length + inner.length < 65536) :
    Framed (frameToken tokenID inner) (kerberosOID ++ (tokenID ++ inner)) := by
  obtain ⟨octets, happend, hoctets⟩ := appendDERLength_eq (kerberosOID ++ tokenID ++ inner)
  have hlen : (kerberosOID ++ tokenID ++ inner).length % 65536 =
      (kerberosOID ++ (tokenID ++ inner)).length := by
    simp only [length_append]
    omega
  rw [hlen] at hoctets
  refine ⟨octets, ?_, hoctets⟩
  rw [frameToken, happend, append_assoc]

theorem size_of_framed (h : Framed (frameToken tokenID inner) content) :
    kerberosOID.length + tokenID.length + inner.length < 65536 := by
  obtain ⟨octets, happend, hoctets⟩ := appendDERLength_eq (kerberosOID ++ tokenID ++ inner)
  obtain ⟨octets', htoken, hoctets'⟩ := h
  rw [frameToken, happend, cons.injEq] at htoken
  obtain ⟨rfl, hvalue⟩ := hoctets.unique hoctets' htoken.2
  -- the length read is the one written, and that one is below 65536
  have hcut := Nat.mod_lt (kerberosOID ++ tokenID ++ inner).length (show 65536 > 0 by decide)
  rw [hvalue] at hcut
  simpa only [length_append] using hcut

/-- A frame is read back exactly when its length fits sixteen bits. -/
theorem unframe_frameToken (tokenID inner : Bytes) :
    unframeToken (frameToken tokenID inner) tokenID = some inner ↔
      kerberosOID.length + tokenID.length + inner.length < 65536 := by
  rw [unframeToken_some, opened_iff]
  constructor
  · rintro ⟨content, oid, hframed, -⟩
    exact size_of_framed hframed
  · intro hsize
    exact ⟨_, kerberosOID, framed_frameToken hsize,
      mechanismOf_singleton.2 ⟨rfl, prefix_append _ _⟩, by decide, rfl⟩

/-- **Framing.** A token is read back from its frame as long as the frame's content has fewer than
65536 octets, and a reader stays inside a token that is not cut short behind its mechanism. -/
theorem token_framing (tokenID inner token : Bytes) (oids : List Bytes) :
    (unframeToken (frameToken tokenID inner) tokenID = some inner ↔
        kerberosOID.length + tokenID.length + inner.length < 65536) ∧
      (Sound token tokenID oids (unframeTokenWithOIDs token tokenID oids) ↔
        ¬ CutShort token tokenID oids) :=
  ⟨unframe_frameToken tokenID inner, sound_iff token tokenID oids⟩

/-- A frame that holds the mechanism and nothing else makes the reader leave it, and an inner token
of 65536 octets is not read back. -/
theorem token_framing_fails :
    unframeTokenWithOIDs (0x60 :: 0x0b :: kerberosOID) [0x01, 0x00] [kerberosOID] =
      .error .outside ∧
      unframeToken (frameToken [0x01, 0x00] (List.replicate 65536 0)) [0x01, 0x00] ≠
        some (List.replicate 65536 0) := by
  constructor
  · decide
  · intro h
    have hsize := (unframe_frameToken _ _).1 h
    rw [length_replicate] at hsize
    omega

end Kerberos.GSS
