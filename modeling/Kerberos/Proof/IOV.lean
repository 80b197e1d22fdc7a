import Kerberos.Proof.Wrap

/-!
# A message in several buffers comes back

`Filled` is what a call that succeeds leaves in the buffers: the header, the trailer, no padding,
and the enciphered data cut into fragments of the sizes of the caller's. The receiver puts the
payload together again, takes the filler of the DCE style out and hands the plain text back in the
same fragments.

* `distributeIOV_eq`: cutting data of the right size into fragments.
* `iov_round_trip`: **what one side wraps the other unwraps, unless the call asks for another DCE
  style than the context's, to seal, and has SIGN_ONLY buffers: the size of the trailer is then that
  of one style and the header that of the other.**
-/

namespace Kerberos.GSS

open List Except Option Nat

namespace IOV

/-! ## Buffers that stay as they are -/

/-- The buffers of one type may differ, in all but the type. -/
def Frame (type : BufferType) (iov iov' : List IOVBuffer) : Prop :=
  List.Forall₂ (fun b b' => b'.type = b.type ∧ (b.type ≠ type → b' = b)) iov iov'

variable {type : BufferType} {iov iov' : List IOVBuffer}

theorem Frame.types (h : Frame type iov iov') : iov'.map IOVBuffer.type = iov.map IOVBuffer.type :=
  (List.Forall₂.map_eq h fun _ _ hb => hb.1.symm).symm

theorem select_cons (p : BufferType → Bool) (b : IOVBuffer) (iov : List IOVBuffer) :
    select p (b :: iov) = if p b.type then b :: select p iov else select p iov := filter_cons

theorem Frame.select (h : Frame type iov iov') {p : BufferType → Bool} (hp : p type = false) :
    select p iov' = select p iov := by
  induction h with
  | nil => rfl
  | @cons b b' _ _ hb _ ih =>
    rw [select_cons, select_cons, hb.1, ih]
    by_cases htype : b.type = type
    · rw [htype, hp]
      rfl
    · rw [hb.2 htype]

theorem Frame.bytesOf (h : Frame type iov iov') {other : BufferType} (hother : type ≠ other) :
    bytesOf other iov' = bytesOf other iov := by
  rw [IOV.bytesOf, IOV.bytesOf, concatBuffers, concatBuffers,
    h.select (p := (· == other)) (beq_false_of_ne hother)]

theorem Frame.orderedWithData (h : Frame type iov iov') (hdata : type ≠ .data)
    (hsign : type ≠ .signOnly) (data : Bytes) :
    orderedMessageBuffersWithData iov' data = orderedMessageBuffersWithData iov data := by
  induction h generalizing data with
  | nil => rfl
  | @cons b b' _ _ hb _ ih =>
    have hkept : b.type = .data ∨ b.type = .signOnly → b' = b := by
      rintro (htype | htype)
      · exact hb.2 (htype ▸ hdata.symm)
      · exact hb.2 (htype ▸ hsign.symm)
    rw [orderedMessageBuffersWithData, orderedMessageBuffersWithData, hb.1]
    split
    · rw [hkept (.inl ‹_›), ih]
    · rw [hkept (.inr ‹_›), ih]
    · rw [ih]

/-! ## Writing a buffer -/

theorem setIOVOutput_ok {value : Bytes} {b b' : IOVBuffer} (h : setIOVOutput value b = .ok b') :
    b'.type = b.type ∧ b'.bytes = value := by
  unfold setIOVOutput at h
  split at h
  · obtain rfl := ok.inj h
    refine ⟨rfl, ?_⟩
    rw [appended]
    split_ifs with hnil
    · exact hnil.symm
    · rfl
  · obtain ⟨_, -, h⟩ := bind_ok.1 h
    obtain rfl := ok.inj h
    exact ⟨rfl, rfl⟩

/-- One type of buffers has a new value, the others are as they were. -/
def Written (type : BufferType) (value : Bytes) (iov iov' : List IOVBuffer) : Prop :=
  List.Forall₂ (fun b b' => if b.type = type then b'.type = type ∧ b'.bytes = value
    else b' = b) iov iov'

theorem written_setOutput {value : Bytes} (h : setOutput type value iov = .ok iov') :
    Written type value iov iov' := by
  refine (mapM_ok.1 h).imp ?_
  intro b b' hb
  by_cases htype : b.type = type
  · rw [if_pos htype] at hb ⊢
    obtain ⟨hsame, hbytes⟩ := setIOVOutput_ok hb
    exact ⟨hsame.trans htype, hbytes⟩
  · rw [if_neg htype] at hb ⊢
    exact (ok.inj hb).symm

theorem written_emptyPadding (iov : List IOVBuffer) :
    Written .padding [] iov (emptyPadding iov) := by
  refine forall₂_map_right_iff.2 (forall₂_same.2 ?_)
  intro b _
  by_cases htype : b.type = .padding
  · rw [if_pos htype, if_pos htype]
    refine ⟨htype, ?_⟩
    cases b.content <;> rfl
  · rw [if_neg htype, if_neg htype]

theorem Written.frame {value : Bytes} (h : Written type value iov iov') : Frame type iov iov' := by
  refine h.imp ?_
  intro b b' hb
  by_cases htype : b.type = type
  · rw [if_pos htype] at hb
    exact ⟨hb.1.trans htype.symm, fun hne => absurd htype hne⟩
  · rw [if_neg htype] at hb
    exact ⟨by rw [hb], fun _ => hb⟩

variable (b : IOVBuffer)

theorem bytesOf_cons (type : BufferType) (iov : List IOVBuffer) :
    bytesOf type (b :: iov) = (if b.type = type then b.bytes else []) ++ bytesOf type iov := by
  unfold bytesOf concatBuffers
  rw [select_cons]
  by_cases htype : b.type = type <;> simp [htype]

/-- Every buffer of the type has what was written. -/
theorem Written.bytesOf {value : Bytes} (h : Written type value iov iov') :
    bytesOf type iov' = (List.replicate ((iov.map IOVBuffer.type).count type) value).flatten := by
  induction h with
  | nil => rfl
  | @cons b b' iov iov' hb hrest ih =>
    rw [bytesOf_cons, ih, map_cons]
    by_cases htype : b.type = type
    · rw [if_pos htype] at hb
      rw [if_pos hb.1, hb.2, htype, count_cons_self, replicate_succ, flatten_cons]
    · rw [if_neg htype] at hb
      rw [hb, if_neg htype, count_cons_of_ne htype, nil_append]

/-! ## Fragments -/

/-- The contents of the DATA buffers. -/
def fragments (iov : List IOVBuffer) : List (Option Bytes) :=
  (select (· == .data) iov).map IOVBuffer.content

/-- The fragments one after the other. -/
def joined (parts : List (Option Bytes)) : Bytes := parts.flatMap fun part => part.getD []

/-- A value cut into fragments of the sizes of others. -/
def cut : List (Option Bytes) → Bytes → List (Option Bytes)
  | [], _ => []
  | none :: parts, value => none :: cut parts value
  | some part :: parts, value => some (value.take part.length) :: cut parts (value.drop part.length)

theorem joined_fragments (iov : List IOVBuffer) : joined (fragments iov) = bytesOf .data iov := by
  rw [joined, fragments, flatMap_map]
  rfl

/-- A value of the right size is put together again, and restores the fragments that it was cut
into. -/
theorem cut_restores {parts : List (Option Bytes)} {value : Bytes}
    (h : value.length = (joined parts).length) :
    joined (cut parts value) = value ∧ cut (cut parts value) (joined parts) = parts := by
  induction parts generalizing value with
  | nil => exact ⟨(length_eq_zero_iff.1 h).symm, rfl⟩
  | cons part parts ih =>
    cases part with
    | none => exact ⟨(ih h).1, congrArg (none :: ·) (ih h).2⟩
    | some part =>
      have hjoined : ∀ part parts, joined (some part :: parts) = part ++ joined parts :=
        fun _ _ => rfl
      rw [hjoined, length_append] at h
      have htake : (value.take part.length).length = part.length := by
        rw [length_take]
        omega
      obtain ⟨hvalue, hparts⟩ := @ih (value.drop part.length) (by rw [length_drop]; omega)
      rw [cut, hjoined, hvalue, take_append_drop, hjoined, cut, htake, take_left, drop_left, hparts]
      exact ⟨rfl, rfl⟩

theorem count_none_cut (parts : List (Option Bytes)) (value : Bytes) :
    (cut parts value).count none = parts.count none := by
  induction parts generalizing value with
  | nil => rfl
  | cons part parts ih =>
    cases part with
    | none => rw [cut, count_cons_self, count_cons_self, ih]
    | some part =>
      rw [cut, count_cons_of_ne (by exact fun h => nomatch h),
        count_cons_of_ne (by exact fun h => nomatch h), ih]

/-- The buffers with a value cut into the DATA buffers. -/
def place : List IOVBuffer → Bytes → List IOVBuffer
  | [], _ => []
  | b :: iov, value =>
    if b.type = .data then
      { b with content := b.content.map fun content => value.take content.length } ::
        place iov (value.drop b.bytes.length)
    else b :: place iov value

theorem frame_place (iov : List IOVBuffer) (value : Bytes) : Frame .data iov (place iov value) := by
  induction iov generalizing value with
  | nil => exact .nil
  | cons b iov ih =>
    rw [place]
    split_ifs with htype
    · exact .cons ⟨rfl, fun hne => absurd htype hne⟩ (ih _)
    · exact .cons ⟨rfl, fun _ => rfl⟩ (ih _)

theorem fragments_cons (iov : List IOVBuffer) :
    fragments (b :: iov) = if b.type = .data then b.content :: fragments iov
      else fragments iov := by
  unfold fragments
  rw [select_cons]
  by_cases htype : b.type = .data <;> simp [htype]

theorem fragments_place (iov : List IOVBuffer) (value : Bytes) :
    fragments (place iov value) = cut (fragments iov) value := by
  induction iov generalizing value with
  | nil => rfl
  | cons b iov ih =>
    rw [place, fragments_cons]
    split_ifs with htype
    · rw [fragments_cons, if_pos htype, ih]
      cases hcontent : b.content with
      | none => rw [cut, IOVBuffer.bytes, hcontent]; rfl
      | some content => rw [cut, IOVBuffer.bytes, hcontent]; rfl
    · rw [fragments_cons, if_neg htype, ih]

theorem Frame.fragments (h : Frame type iov iov') (htype : type ≠ .data) :
    fragments iov' = fragments iov := by
  rw [IOV.fragments, IOV.fragments, h.select (p := (· == .data)) (beq_false_of_ne htype)]

theorem orderedWithData_place {value : Bytes} (h : (bytesOf .data iov).length ≤ value.length)
    (data : Bytes) :
    orderedMessageBuffersWithData (place iov value) data =
      orderedMessageBuffersWithData iov data := by
  induction iov generalizing value data with
  | nil => rfl
  | cons b iov ih =>
    rw [bytesOf_cons, length_append] at h
    rw [place]
    split_ifs with htype
    · rw [if_pos htype] at h
      have hlength : ((b.content.map fun content => value.take content.length).getD []).length =
          b.bytes.length := by
        rw [IOVBuffer.bytes] at h ⊢
        cases hcontent : b.content with
        | none => rfl
        | some content =>
          rw [hcontent, getD_some] at h
          rw [map_some, getD_some, getD_some, length_take]
          omega
      have hsize : (bytesOf .data iov).length ≤ (value.drop b.bytes.length).length := by
        rw [length_drop]
        omega
      have hrest := ih hsize (data.drop b.bytes.length)
      rw [orderedMessageBuffersWithData, orderedMessageBuffersWithData]
      simp only [htype, IOVBuffer.bytes] at hlength hrest ⊢
      rw [hlength, hrest]
    · have hsize : (bytesOf .data iov).length ≤ value.length := by
        omega
      have hrest := ih hsize
      rw [orderedMessageBuffersWithData, orderedMessageBuffersWithData]
      split
      · exact absurd ‹_› htype
      · rw [hrest]
      · rw [hrest]

/-- The data of the DATA buffers in their places. -/
theorem orderedWithData_own (iov : List IOVBuffer) :
    orderedMessageBuffersWithData iov (bytesOf .data iov) = orderedMessageBuffers iov := by
  have hgeneral : ∀ rest, orderedMessageBuffersWithData iov (bytesOf .data iov ++ rest) =
      orderedMessageBuffers iov ++ rest := by
    intro rest
    induction iov with
    | nil => rfl
    | cons b iov ih =>
      rw [bytesOf_cons, orderedMessageBuffersWithData]
      unfold orderedMessageBuffers concatBuffers at ih ⊢
      rw [select_cons]
      split
      · rename_i htype
        simp [htype, ih]
      · rename_i htype
        simp [htype, ih]
      · rename_i hdata hsign
        have hneither : ¬ b.type = .data ∧ ¬ b.type = .signOnly := ⟨hdata, hsign⟩
        simp [hneither, ih]
  have h := hgeneral []
  rwa [append_nil, append_nil] at h

/-! ## Cutting a value into fragments -/

theorem countP_unsized_cons (iov : List IOVBuffer) :
    (fragments (b :: iov)).count none =
      (if unsized b then 1 else 0) + (fragments iov).count none := by
  rw [fragments_cons, unsized]
  by_cases htype : b.type = .data
  · cases hcontent : b.content with
    | none => simp [htype, add_comm]
    | some content => simp [htype]
  · simp [htype]

theorem distributeLoop_eq {value : Bytes} (h : (bytesOf .data iov).length ≤ value.length)
    (unknown : Bool) :
    distributeLoop unknown iov value =
      if (fragments iov).count none + unknown.toNat ≤ 1 then
        .ok (place iov value, value.drop (bytesOf .data iov).length)
      else .error "GSS IOV: multiple un-sized DATA buffers" := by
  induction iov generalizing value unknown with
  | nil =>
    rw [if_pos (by cases unknown <;> decide)]
    rfl
  | cons b iov ih =>
    rw [bytesOf_cons, length_append] at h
    rw [distributeLoop, countP_unsized_cons, bytesOf_cons, place, unsized]
    by_cases htype : b.type = .data
    · rw [if_pos htype] at h
      rw [if_neg (not_not_intro htype), if_pos htype, if_pos htype, length_append, ← drop_drop]
      cases hcontent : b.content with
      | none =>
        have hbytes : b.bytes = [] := by rw [IOVBuffer.bytes, hcontent]; rfl
        have hone : (if decide (b.type = .data ∧ (none : Option Bytes) = none) = true then 1
            else 0) = 1 :=
          if_pos (decide_eq_true ⟨htype, rfl⟩)
        rw [hbytes]
        cases unknown with
        | true =>
          rw [ensure_of_not (by decide), error_bind, Bool.toNat_true, if_neg (by omega)]
        | false =>
          rw [ih (by omega), ite_bind, hone, add_comm]
          dsimp only
          rw [map_none, ← hcontent]
          rfl
      | some content =>
        have hbytes : b.bytes = content := by rw [IOVBuffer.bytes, hcontent]; rfl
        rw [hbytes] at h ⊢
        dsimp only
        rw [ensure_bind (by omega), ih (by rw [length_drop]; omega)]
        simp only [reduceCtorEq, and_false, decide_false, if_false, zero_add]
        exact ite_bind
    · rw [if_neg htype, length_nil, zero_add] at h
      rw [if_pos htype, ih h]
      simp only [htype, false_and, decide_false, Bool.false_eq_true, if_false, zero_add]
      exact ite_bind

/-- Of data of the right size, the DATA buffers take pieces of their own sizes; one of them may be
without a size. -/
theorem distributeIOV_eq {value : Bytes} (h : value.length = (bytesOf .data iov).length) :
    distributeIOV iov value =
      if (fragments iov).count none ≤ 1 then .ok (place iov value)
      else .error "GSS IOV: multiple un-sized DATA buffers" := by
  rw [distributeIOV, distributeLoop_eq h.ge, Bool.toNat_false, add_zero]
  by_cases hcount : (fragments iov).count none ≤ 1
  · rw [if_pos hcount, ok_bind]
    -- all is used up, so nothing is left for a buffer without a size
    have hrest : value.drop (bytesOf .data iov).length = [] := drop_eq_nil_of_le h.le
    dsimp only
    rw [hrest]
    split_ifs with hany
    · refine congrArg ok (map_congr_left ?_ |>.trans (map_id _))
      intro b _
      split_ifs with hunsized
      · have hnone : b.content = none := (of_decide_eq_true hunsized).2
        rw [appended, ← hnone]
        rfl
      · rfl
    · rw [ensure_bind rfl]
  · rw [if_neg hcount, if_neg hcount, error_bind]

/-! ## The types -/

/-- Of some types there is one buffer at most. -/
def BufferType.single : BufferType → Bool
  | .header | .padding | .trailer | .stream => true
  | _ => false

theorem scan_count {seen types : List BufferType} (h : scan seen types = .ok ()) {type : BufferType}
    (hsingle : BufferType.single type = true) :
    types.count type ≤ if type ∈ seen then 0 else 1 := by
  induction types generalizing seen with
  | nil => exact zero_le _
  | cons first types ih =>
    obtain ⟨_, hfirst, h⟩ := bind_ok.1 h
    have hrest := ih h
    by_cases heq : first = type
    · subst heq
      rw [if_pos mem_cons_self] at hrest
      have hnew : first ∉ seen := by
        cases first <;> first | exact ensure_ok.1 hfirst | cases hsingle
      rw [count_cons_self, if_neg hnew]
      omega
    · rw [count_cons_of_ne heq]
      refine hrest.trans (le_of_eq ?_)
      simp only [mem_cons, Ne.symm heq, false_or]

/-- What the types are that may be wrapped. -/
structure Shaped (types : List BufferType) : Prop where
  stream : .stream ∉ types
  header : types.count .header = 1
  trailer : types.count .trailer = 1
  parse : parseIOV types true = .ok ()

theorem parseIOV_wrap {types : List BufferType} (h : parseIOV types false = .ok ())
    (htrailer : .trailer ∈ types) :
    Shaped types := by
  obtain ⟨_, hscan, h⟩ := bind_ok.1 h
  by_cases hstream : .stream ∈ types
  · rw [if_pos hstream] at h
    cases (ensure_ok.1 h).1
  · rw [if_neg hstream] at h
    obtain ⟨hheader, h⟩ := ensure_bind_ok.1 h
    obtain ⟨_, hdata, -⟩ := bind_ok.1 h
    have hone : ∀ type, BufferType.single type = true → type ∈ types → types.count type = 1 := by
      intro type hsingle hmem
      have hle := scan_count hscan hsingle
      rw [if_neg not_mem_nil] at hle
      have hpos := count_pos_iff.2 hmem
      omega
    refine ⟨hstream, hone _ rfl hheader, hone _ rfl htrailer, ?_⟩
    rw [parseIOV, hscan, ok_bind, if_neg hstream, ensure_bind hheader, hdata, ok_bind,
      ensure_of fun _ => htrailer]

/-! ## What a call leaves in the buffers -/

/-- The buffers with a header, data in fragments of the sizes there were, and a trailer. -/
structure Filled (iov iov' : List IOVBuffer) (header data trailer : Bytes) : Prop where
  types : iov'.map IOVBuffer.type = iov.map IOVBuffer.type
  header : bytesOf .header iov' = header
  trailer : bytesOf .trailer iov' = trailer
  padding : bytesOf .padding iov' = []
  signOnly : orderedSignOnlyBuffers iov' = orderedSignOnlyBuffers iov
  fragments : fragments iov' = cut (fragments iov) data
  unsized : (IOV.fragments iov).count none ≤ 1
  length : data.length = (bytesOf .data iov).length
  ordered : ∀ value, orderedMessageBuffersWithData iov' value =
    orderedMessageBuffersWithData iov value

theorem filled {header data trailer : Bytes} (hshaped : Shaped (iov.map IOVBuffer.type))
    (hlength : data.length = (bytesOf .data iov).length)
    (h : (do
      let iov ← setOutput .header header iov
      let iov ← distributeIOV iov data
      let iov ← setOutput .trailer trailer iov
      .ok (emptyPadding iov)) = Except.ok iov') :
    Filled iov iov' header data trailer := by
  obtain ⟨iov₁, h₁, h⟩ := bind_ok.1 h
  obtain ⟨iov₂, h₂, h⟩ := bind_ok.1 h
  obtain ⟨iov₃, h₃, h⟩ := bind_ok.1 h
  obtain rfl := ok.inj h
  have hw₁ := written_setOutput h₁
  have hw₃ := written_setOutput h₃
  have hw₄ := written_emptyPadding iov₃
  have hf₁ := hw₁.frame
  have hlength₁ : data.length = (bytesOf .data iov₁).length := by
    rw [hlength, hf₁.bytesOf (by decide)]
  have hfragments₁ : fragments iov₁ = fragments iov := hf₁.fragments (by decide)
  rw [distributeIOV_eq hlength₁] at h₂
  by_cases hunsized : (fragments iov₁).count none ≤ 1
  · rw [if_pos hunsized] at h₂
    obtain rfl := ok.inj h₂
    have hf₂ := frame_place iov₁ data
    have hf₃ := hw₃.frame
    have hf₄ := hw₄.frame
    constructor
    · rw [hf₄.types, hf₃.types, hf₂.types, hf₁.types]
    · rw [hf₄.bytesOf (by decide), hf₃.bytesOf (by decide), hf₂.bytesOf (by decide)]
      rw [hw₁.bytesOf, hshaped.header, replicate_one, flatten_singleton]
    · rw [hf₄.bytesOf (by decide), hw₃.bytesOf, hf₂.types, hf₁.types, hshaped.trailer,
        replicate_one, flatten_singleton]
    · rw [hw₄.bytesOf, flatten_replicate_nil]
    · rw [orderedSignOnlyBuffers, orderedSignOnlyBuffers, hf₄.bytesOf (by decide),
        hf₃.bytesOf (by decide), hf₂.bytesOf (by decide), hf₁.bytesOf (by decide)]
    · rw [hf₄.fragments (by decide), hf₃.fragments (by decide), fragments_place, hfragments₁]
    · rw [← hfragments₁]
      exact hunsized
    · exact hlength
    · intro value
      rw [hf₄.orderedWithData (by decide) (by decide), hf₃.orderedWithData (by decide) (by decide),
        orderedWithData_place hlength₁.ge, hf₁.orderedWithData (by decide) (by decide)]
  · rw [if_neg hunsized] at h₂
    cases h₂

variable {header value trailer : Bytes}

theorem Filled.data (h : Filled iov iov' header value trailer) : bytesOf .data iov' = value := by
  rw [← joined_fragments, h.fragments, (cut_restores _).1]
  rw [h.length, joined_fragments]

/-- The data of the original restore the fragments of the original. -/
theorem Filled.restored (h : Filled iov iov' header value trailer) :
    ∃ iov'', distributeIOV iov' (bytesOf .data iov) = .ok iov'' ∧
      IOV.fragments iov'' = IOV.fragments iov ∧
      iov''.map IOVBuffer.type = iov.map IOVBuffer.type := by
  have hlength : (bytesOf .data iov).length = (bytesOf .data iov').length := by
    rw [h.data, h.length]
  have hlength' : value.length = (joined (IOV.fragments iov)).length := by
    rw [joined_fragments, h.length]
  refine ⟨place iov' (bytesOf .data iov), ?_, ?_, ?_⟩
  · rw [distributeIOV_eq hlength, h.fragments, count_none_cut, if_pos h.unsized]
  · rw [fragments_place, h.fragments, ← joined_fragments, (cut_restores hlength').2]
  · rw [(frame_place _ _).types, h.types]

end IOV

open IOV

/-! ## Tokens in buffers -/

variable {etype : EType} {iov iov' : List IOVBuffer}

/-- A ciphertext of a block, the data, a block and a checksum. -/
structure Sealed (etype : EType) (size : ℕ) (payload first data last mac : Bytes) : Prop where
  payload_eq : payload = first ++ (data ++ (last ++ mac))
  first : first.length = 16
  data : data.length = size
  last : last.length = 16
  mac : mac.length = etype.checksumSize

theorem exists_sealed {size : ℕ} {payload : Bytes}
    (h : payload.length = 16 + (size + 16) + etype.checksumSize) :
    ∃ first data last mac, Sealed etype size payload first data last mac := by
  refine ⟨payload.take 16, (payload.drop 16).take size, ((payload.drop 16).drop size).take 16,
    ((payload.drop 16).drop size).drop 16, ?_, ?_, ?_, ?_, ?_⟩
  · rw [take_append_drop, take_append_drop, take_append_drop]
  all_goals
    simp only [length_take, length_drop]
    omega

/-- The trailer of a sealed message. -/
def sealedTrailer (filler : ℕ) (last mac : Bytes) (size : ℕ) : Bytes :=
  List.replicate filler 0xff ++ last ++ mac ++
    List.replicate (size - (List.replicate filler 0xff ++ last ++ mac).length) 0

theorem drop_end (front : Bytes) {rest : Bytes} {n : ℕ} (h : rest.length = n) :
    (front ++ rest).drop ((front ++ rest).length - n) = rest := by
  rw [length_append, h, Nat.add_sub_cancel, drop_left]

theorem fillIOV_sealed {header payload first data last mac : Bytes} {filler trailer : ℕ}
    (hshaped : Shaped (iov.map IOVBuffer.type)) (hlength : header.length = 16)
    (hsealed : Sealed etype (bytesOf .data iov).length payload first data last mac)
    (h : Context.fillIOV etype iov (header ++ payload) true filler trailer = .ok iov') :
    Filled iov iov' (header ++ first) data (sealedTrailer filler last mac trailer) := by
  obtain ⟨rfl, hfirst, hdata, hlast, hmac⟩ := hsealed
  have htoken : header ++ (first ++ (data ++ (last ++ mac))) =
      header ++ (first ++ (data ++ last) ++ mac) := by
    simp only [append_assoc]
  have hencrypted : (first ++ (data ++ last) ++ mac).take
      ((header ++ (first ++ (data ++ last) ++ mac)).length - etype.checksumSize - 16) =
        first ++ (data ++ last) := by
    refine take_left' ?_
    simp only [length_append]
    omega
  have hmiddle : (data ++ last).take ((first ++ (data ++ last)).length - 16 - 16) = data := by
    refine take_left' ?_
    simp only [length_append]
    omega
  have hend : (first ++ (data ++ last)).drop ((first ++ (data ++ last)).length - 16) = last := by
    rw [← append_assoc]
    exact drop_end _ hlast
  have hmacEnd : (header ++ (first ++ (data ++ last) ++ mac)).drop
      ((header ++ (first ++ (data ++ last) ++ mac)).length - etype.checksumSize) = mac := by
    rw [← append_assoc]
    exact drop_end _ hmac
  rw [htoken] at h
  unfold Context.fillIOV at h
  simp only [drop_left' hlength, drop_left' hfirst, hencrypted, hmiddle, hend, hmacEnd,
    take_left' hlength, take_left' hfirst] at h
  exact filled hshaped hdata h

theorem fillIOV_signed {header data mac : Bytes} {filler trailer : ℕ}
    (hshaped : Shaped (iov.map IOVBuffer.type)) (hlength : header.length = 16)
    (hdata : data.length = (bytesOf .data iov).length) (hmac : mac.length = trailer)
    (h : Context.fillIOV etype iov (header ++ (data ++ mac)) false filler trailer = .ok iov') :
    Filled iov iov' header data mac := by
  have htoken : (header ++ (data ++ mac)).length = 16 + (data.length + trailer) := by
    simp only [length_append, hlength, hmac]
  have hmiddle : ((header ++ (data ++ mac)).drop 16).take
      ((header ++ (data ++ mac)).length - trailer - 16) = data := by
    rw [drop_left' hlength]
    exact take_left' (by omega)
  have hend : (header ++ (data ++ mac)).drop ((header ++ (data ++ mac)).length - trailer) =
      mac := by
    rw [← append_assoc]
    exact drop_end _ hmac
  unfold Context.fillIOV at h
  simp only [hmiddle, hend, take_left' hlength] at h
  exact filled hshaped hdata h

/-! ## Receiving -/

theorem withoutRotation_header (c : Context) (sealed : Bool) (ec : ℕ) :
    Context.withoutRotation (c.header sealed ec) = c.header sealed ec := by
  rfl

theorem canonical_header (c : Context) (sealed : Bool) (ec : ℕ) :
    (c.header sealed ec).take 4 ++ [0, 0, 0, 0] ++ (c.header sealed ec).drop 8 =
      c.header sealed 0 := by
  rfl

variable {ec : ℕ}

theorem headerOf_own (c : Context) (sealed : Bool) (hec : ec < 65536) :
    Context.headerOf (c.header sealed ec) = c.fields sealed ec := by
  have h := headerOf_header c sealed hec []
  rwa [append_nil] at h

theorem withoutFiller_eq (body filler rest : Bytes) :
    Context.withoutFiller (body ++ (filler ++ rest)) (filler.length + rest.length) filler.length =
      body ++ rest := by
  have hlength : (body ++ (filler ++ rest)).length - (filler.length + rest.length) =
      body.length := by
    simp only [length_append]
    omega
  rw [Context.withoutFiller, hlength, take_left, ← drop_drop, drop_left, drop_left]

variable {dceStyle : Bool}

section Payload

variable {size filler : ℕ} {payload first data last mac : Bytes}
  (h : Sealed etype size payload first data last mac)

include h

theorem sealedTrailer_eq :
    sealedTrailer filler last mac (filler + 16 + etype.checksumSize) =
      List.replicate filler 0xff ++ (last ++ mac) := by
  have hlength : (replicate filler (0xff : UInt8) ++ last ++ mac).length =
      filler + 16 + etype.checksumSize := by
    simp only [length_append, length_replicate, h.last, h.mac]
  rw [sealedTrailer, hlength, Nat.sub_self, replicate_zero, append_nil, append_assoc]

theorem length_sealedTrailer :
    (sealedTrailer filler last mac (filler + 16 + etype.checksumSize)).length =
      filler + 16 + etype.checksumSize := by
  rw [sealedTrailer_eq h]
  simp only [length_append, length_replicate, h.last, h.mac, add_assoc]

/-- The payload without the filler of the trailer, as both functions compute it. -/
theorem payload_without_filler (hstyle : filler = 0 ∨ dceStyle = true) :
    (if dceStyle then Context.withoutFiller
      (first ++ data ++ [] ++ sealedTrailer filler last mac (filler + 16 + etype.checksumSize))
        (16 + etype.checksumSize + (if dceStyle then filler else 0)) filler
      else first ++ data ++ [] ++
        sealedTrailer filler last mac (filler + 16 + etype.checksumSize)) = payload := by
  have hsize : 16 + etype.checksumSize + filler =
      (replicate filler (0xff : UInt8)).length + (last ++ mac).length := by
    rw [length_append, length_replicate, h.last, h.mac]
    omega
  rw [sealedTrailer_eq h, append_nil]
  cases dceStyle with
  | true =>
    rw [if_pos rfl, if_pos rfl, hsize]
    have hfiller := withoutFiller_eq (first ++ data) (replicate filler 0xff) (last ++ mac)
    rw [length_replicate] at hfiller ⊢
    rw [hfiller, h.payload_eq, append_assoc]
  | false =>
    obtain rfl : filler = 0 := hstyle.resolve_right (by decide)
    rw [if_neg (by decide), replicate_zero, nil_append, h.payload_eq, append_assoc]

end Payload

/-- What is assumed of the packages: decryption inverts encryption, with and without associated
data, and a checksum is verified. The ciphertext has a block and a checksum more than the plain
text. -/
structure IOVEnv.Lawful (E : IOVEnv) : Prop where
  etype : ∀ t etype, E.gss.ap.etype t = some etype → etype.Lawful
  decrypt_encrypt : ∀ etype key usage plain associated cipher,
    E.encryptWithAssociatedData etype key usage plain associated = some cipher →
      E.decryptWithAssociatedData etype key usage cipher associated = some plain
  length_encrypt : ∀ etype key usage plain associated cipher,
    E.encryptWithAssociatedData etype key usage plain associated = some cipher →
      cipher.length = 16 + plain.length + etype.checksumSize

/-- The buffers come back: every fragment of the data as it was. -/
def Restores (E : IOVEnv) (d : Context) (iov iov' : List IOVBuffer) : Prop :=
  ∃ iov'', d.unwrapIOV E iov' = .ok (iov'', { d with recvSeq := d.recvSeq + 1 }) ∧
    fragments iov'' = fragments iov ∧
    iov''.map IOVBuffer.type = iov.map IOVBuffer.type

variable {E : IOVEnv} {c d : Context}

variable {sealed : Bool} {mac : Bytes}

section Receive

variable (h : Peers c d) (hetype : E.gss.ap.etype c.key.keyType = some etype) (hlawful : E.Lawful)
  (hshaped : Shaped (iov.map IOVBuffer.type))

section Plain

variable (hsign : .signOnly ∉ iov.map IOVBuffer.type)

include hshaped hsign

/-- How a message without SIGN_ONLY buffers is opened: the payload is that of a token. -/
theorem restores_plain (hec : ec < 65536) {first data trailer payload : Bytes}
    (hfilled : Filled iov iov' (c.header sealed ec ++ first) data trailer)
    (hpayload : d.payloadIOV E (c.header sealed ec) (first ++ data ++ [] ++ trailer) = .ok payload)
    (hopen : d.unwrap E.gss (c.header sealed ec ++ payload) =
      some (bytesOf .data iov, { d with recvSeq := d.recvSeq + 1 })) :
    Restores E d iov iov' := by
  obtain ⟨iov'', hdistribute, hrestored⟩ := hfilled.restored
  refine ⟨iov'', ?_, hrestored⟩
  have htoken : c.header sealed ec ++ first ++ data ++ [] ++ trailer =
      c.header sealed ec ++ (first ++ data ++ [] ++ trailer) := by
    simp only [append_assoc]
  rw [Context.unwrapIOV, hfilled.types, hshaped.parse, ok_bind, if_neg hshaped.stream, if_neg hsign,
    ensure_bind (by rw [hfilled.header, length_append, length_header]; omega)]
  dsimp only
  rw [hfilled.header, hfilled.data, hfilled.padding, hfilled.trailer, htoken,
    take_left' (length_header ..), drop_left' (length_header ..), headerOf_own c sealed hec,
      fields_rrc, rotateLeft_zero, hpayload, ok_bind, withoutRotation_header,
    hopen, ofOption, ok_bind]
  rw [hdistribute, ok_bind]

include h hetype hlawful

/-- A sealed message without SIGN_ONLY buffers. -/
theorem restores_sealed (hec : ec < 65536) (hstyle : ec = 0 ∨ d.dceStyle = true)
    {payload first data last mac : Bytes}
    (hsealed : Sealed etype (bytesOf .data iov).length payload first data last mac)
    (hencrypt : etype.encrypt c.key.keyValue (if c.initiator then 24 else 22)
      (bytesOf .data iov ++ c.header true ec) = some payload)
    (hfilled : Filled iov iov' (c.header true ec ++ first) data
      (sealedTrailer ec last mac (ec + 16 + etype.checksumSize))) :
    Restores E d iov iov' := by
  have hopen := h.unwrap_sealed hetype (hlawful.etype _ _ hetype) hec hstyle hencrypt
  rw [← h.key] at hetype
  have hroom : 16 + etype.checksumSize + (if d.dceStyle then ec else 0) ≤
      (first ++ data ++ [] ++ sealedTrailer ec last mac (ec + 16 + etype.checksumSize)).length := by
    have hle : (if d.dceStyle then ec else 0) ≤ ec := by split_ifs <;> omega
    rw [length_append, length_sealedTrailer hsealed]
    omega
  refine restores_plain hshaped hsign hec hfilled ?_ hopen
  rw [Context.payloadIOV, headerOf_own c true hec, if_pos ((fields_sealed c true ec).2 rfl),
    hetype, ofOption, ok_bind]
  exact (congrArg (· >>= _) (ensure_of hroom)).trans
    (congrArg ok (payload_without_filler hsealed hstyle))

end Plain

section Associated

variable (hsign : .signOnly ∈ iov.map IOVBuffer.type)

include h hetype hshaped hsign

variable {first data trailer : Bytes}

/-- How a message with SIGN_ONLY buffers is opened, up to its content. -/
theorem unwrapIOV_associated (hec : ec < 65536)
    (hfilled : Filled iov iov' (c.header sealed ec ++ first) data trailer) :
    d.unwrapIOV E iov' = (do
      let body ← d.openIOV E etype iov' (c.header sealed ec)
      let iov'' ← distributeIOV iov' body
      .ok (iov'', { d with recvSeq := d.recvSeq + 1 })) := by
  have hvalid := @Peers.validateIncoming _ _ h (c.fields sealed ec) sealed rfl rfl
  rw [← h.key] at hetype
  rw [Context.unwrapIOV, hfilled.types, hshaped.parse, ok_bind, if_neg hshaped.stream, if_pos hsign,
    Context.unwrapIOVWithAssociatedData,
    ensure_bind (by rw [hfilled.header, length_append, length_header]; omega)]
  rw [hfilled.header, take_left' (length_header ..), ensure_bind (by rfl),
    headerOf_own c sealed hec, hvalid, hetype, ofOption, ok_bind, ofOption, ok_bind]

/-- What is opened comes back in fragments. -/
theorem restores_associated (hec : ec < 65536)
    (hfilled : Filled iov iov' (c.header sealed ec ++ first) data trailer)
    (hopen : d.openIOV E etype iov' (c.header sealed ec) = .ok (bytesOf .data iov)) :
    Restores E d iov iov' := by
  obtain ⟨iov'', hdistribute, hrestored⟩ := hfilled.restored
  refine ⟨iov'', ?_, hrestored⟩
  rw [unwrapIOV_associated h hetype hshaped hsign hec hfilled, hopen, ok_bind, hdistribute, ok_bind]

/-- A sealed message with SIGN_ONLY buffers. -/
theorem restores_sealed_associated (hlawful : E.Lawful) (hec : ec < 65536)
    (hstyle : ec = 0 ∨ d.dceStyle = true)
    {payload first data last mac : Bytes}
    (hsealed : Sealed etype (bytesOf .data iov).length payload first data last mac)
    (hencrypt : E.encryptWithAssociatedData etype c.key.keyValue (if c.initiator then 24 else 22)
      (bytesOf .data iov ++ c.header true ec) (orderedSignOnlyBuffers iov) = some payload)
    (hfilled : Filled iov iov' (c.header true ec ++ first) data
      (sealedTrailer ec last mac (ec + 16 + etype.checksumSize))) :
    Restores E d iov iov' := by
  have hdecrypt := hlawful.decrypt_encrypt _ _ _ _ _ _ hencrypt
  rw [← h.key, ← h.usage, ← hfilled.signOnly] at hdecrypt
  have htrailer := @length_sealedTrailer _ _ ec _ _ _ _ _ hsealed
  have hsize : ec + 16 + etype.checksumSize =
      16 + etype.checksumSize + (if d.dceStyle then ec else 0) := by
    rcases hstyle with rfl | hstyle
    · simp
    · rw [if_pos hstyle]
      omega
  have hend : (bytesOf .data iov ++ c.header true ec).length - 16 = (bytesOf .data iov).length := by
    rw [length_append, length_header, Nat.add_sub_cancel]
  refine restores_associated h hetype hshaped hsign hec hfilled ?_
  rw [Context.openIOV, headerOf_own c true hec, if_pos ((fields_sealed c true ec).2 rfl)]
  unfold Context.openSealedIOV
  simp only [headerOf_own c true hec, fields_ec, fields_rrc, hfilled.header, hfilled.data,
    hfilled.padding, hfilled.trailer, rotateLeft_zero, drop_left' (length_header c true ec)]
  rw [ensure_bind (htrailer.trans hsize), ensure_bind (by rw [length_append, htrailer]; omega),
    payload_without_filler hsealed hstyle, hdecrypt, ofOption, ok_bind,
      ensure_bind (by rw [length_append, length_header]; omega), hend, drop_left, take_left,
    withoutRotation_header, ensure_bind rfl]
  rcases hstyle with rfl | hstyle
  · rw [ensure_bind (zero_le _), Nat.sub_zero, take_length, ite_self]
  · rw [if_pos hstyle]

/-- A message that is only signed, with SIGN_ONLY buffers. -/
theorem restores_signed_associated (hlawful : E.Lawful)
    (hchecksum : etype.checksum c.key.keyValue (if c.initiator then 24 else 22)
      (orderedMessageBuffers iov ++ c.header false 0) = some mac)
    (hfilled : Filled iov iov' (c.header false etype.checksumSize ++ []) (bytesOf .data iov) mac) :
    Restores E d iov iov' := by
  have hetypeLawful := hlawful.etype _ _ hetype
  have hec := hetypeLawful.checksumSize_lt
  have hmac := hetypeLawful.length_checksum _ _ _ _ hchecksum
  have hverify := hetypeLawful.verify_checksum _ _ _ _ hchecksum
  rw [← h.key, ← h.usage, ← orderedWithData_own, ← hfilled.ordered] at hverify
  have hsplit : (bytesOf .data iov ++ mac).length - etype.checksumSize =
      (bytesOf .data iov).length := by
    rw [length_append, hmac, Nat.add_sub_cancel]
  refine restores_associated h hetype hshaped hsign hec hfilled ?_
  rw [Context.openIOV, headerOf_own c false hec, if_neg (by simp [fields_sealed])]
  unfold Context.openSignedIOV
  simp only [headerOf_own c false hec, fields_ec, fields_rrc, hfilled.header, hfilled.data,
    hfilled.padding, hfilled.trailer, rotateLeft_zero, append_nil,
      drop_eq_nil_of_le (length_header c false _).le, nil_append]
  rw [ensure_of ⟨trivial, hmac⟩, ok_bind, ensure_bind (by rw [length_append]; omega),
    hsplit, drop_left, take_left, canonical_header, ensure_bind hverify]

/-- A trailer of another size than that of the receiver's style is not accepted. -/
theorem not_restores_associated (hec : ec < 65536)
    (hfilled : Filled iov iov' (c.header true ec ++ first) data trailer)
    (htrailer : trailer.length ≠ 16 + etype.checksumSize + (if d.dceStyle then ec else 0)) :
    ¬ Restores E d iov iov' := by
  rintro ⟨iov'', hunwrap, -⟩
  rw [unwrapIOV_associated h hetype hshaped hsign hec hfilled, Context.openIOV,
    headerOf_own c true hec, if_pos ((fields_sealed c true ec).2 rfl)] at hunwrap
  unfold Context.openSealedIOV at hunwrap
  simp only [headerOf_own c true hec, fields_ec, hfilled.trailer] at hunwrap
  rw [ensure_of_not htrailer] at hunwrap
  cases hunwrap

end Associated

end Receive

/-! ## Sending -/

/-- The token that is the HEADER, the DATA and the TRAILER one after the other. -/
def concatenated (iov : List IOVBuffer) : Bytes :=
  bytesOf .header iov ++ bytesOf .data iov ++ bytesOf .trailer iov

/-- The token of the whole message opens alike. -/
def Opens (E : IOVEnv) (d : Context) (iov iov' : List IOVBuffer) : Prop :=
  d.unwrap E.gss (concatenated iov') = some (bytesOf .data iov, { d with recvSeq := d.recvSeq + 1 })

section Wrap

variable (h : Peers c d) (hlawful : E.Lawful) (hetype : E.gss.ap.etype c.key.keyType = some etype)
  (hshaped : Shaped (iov.map IOVBuffer.type))

include h hlawful hetype hshaped

/-- A sealed token of the two functions for whole messages, written into the buffers. -/
theorem plain_sealed (hsign : .signOnly ∉ iov.map IOVBuffer.type) (hec : ec < 65536)
    (hstyle : ec = 0 ∨ d.dceStyle = true) {payload : Bytes}
    (hencrypt : etype.encrypt c.key.keyValue (if c.initiator then 24 else 22)
      (bytesOf .data iov ++ c.header true ec) = some payload)
    (hlength : (c.header true ec ++ payload).length =
      16 + etype.checksumSize + 32 + (bytesOf .data iov).length)
    (hfill : Context.fillIOV etype iov (c.header true ec ++ payload) true ec
      (ec + 16 + etype.checksumSize) = .ok iov') :
    Restores E d iov iov' ∧ (ec = 0 → Opens E d iov iov') := by
  have hpayload : payload.length = 16 + ((bytesOf .data iov).length + 16) + etype.checksumSize := by
    rw [length_append, length_header] at hlength
    omega
  obtain ⟨first, data, last, mac, hsealed⟩ := exists_sealed hpayload
  have hfilled := fillIOV_sealed hshaped (length_header ..) hsealed hfill
  refine ⟨restores_sealed h hetype hlawful hshaped hsign hec hstyle hsealed hencrypt hfilled, ?_⟩
  rintro rfl
  have htoken : concatenated iov' = c.header true 0 ++ payload := by
    rw [concatenated, hfilled.header, hfilled.data, hfilled.trailer, sealedTrailer_eq hsealed,
      replicate_zero, nil_append, hsealed.payload_eq]
    simp only [append_assoc]
  rw [Opens, htoken, h.unwrap_sealed hetype (hlawful.etype _ _ hetype) hec (.inl rfl) hencrypt]

theorem plain_signed (hsign : .signOnly ∉ iov.map IOVBuffer.type)
    (hchecksum : etype.checksum c.key.keyValue (if c.initiator then 24 else 22)
      (bytesOf .data iov ++ c.header false 0) = some mac)
    {filler : ℕ} (hfill : Context.fillIOV etype iov
      (c.header false etype.checksumSize ++ bytesOf .data iov ++ mac) false filler
      etype.checksumSize = .ok iov') : Restores E d iov iov' ∧ Opens E d iov iov' := by
  have hmac := (hlawful.etype _ _ hetype).length_checksum _ _ _ _ hchecksum
  rw [append_assoc] at hfill
  have hfilled := fillIOV_signed hshaped (length_header ..) rfl hmac hfill
  have hopen := h.unwrap_signed hetype (hlawful.etype _ _ hetype) hchecksum
  have hec := (hlawful.etype _ _ hetype).checksumSize_lt
  constructor
  · refine restores_plain hshaped hsign hec (by rwa [append_nil]) ?_ hopen
    rw [Context.payloadIOV, headerOf_own c false hec, if_neg (by simp [fields_sealed]),
      nil_append, append_nil]
  · rw [Opens, concatenated, hfilled.header, hfilled.data, hfilled.trailer, append_assoc, hopen]

/-- Without SIGN_ONLY buffers. -/
theorem wrapIOV_plain (hsign : .signOnly ∉ iov.map IOVBuffer.type) (hdce : d.dceStyle = dceStyle)
    {token : Bytes} {c' : Context}
    (hwrap : (if sealed && dceStyle then c.wrapDCE E.gss (bytesOf .data iov)
      else c.wrap E.gss (bytesOf .data iov) sealed) =
      some (token, c')) (hlength : token.length =
      (if sealed then 16 + etype.checksumSize + 32
        else 16 + (Context.wrapIOVLength etype sealed dceStyle).2) +
        (bytesOf .data iov).length) (hfill :
        Context.fillIOV etype iov token sealed (if dceStyle then 16 else 0)
      (Context.wrapIOVLength etype sealed dceStyle).2 = .ok iov') :
    Restores E d iov iov' ∧ (dceStyle = false → Opens E d iov iov') := by
  have hfound {α : Type} {f : EType → Option α} {result : α}
      (hf : ((E.gss.ap.etype c.key.keyType).bind f) = some result) : f etype = some result := by
    rwa [hetype] at hf
  cases sealed with
  | false =>
    obtain ⟨mac, hchecksum, hwrap⟩ := bind_eq_some_iff.1 (hfound hwrap)
    obtain ⟨rfl, rfl⟩ := Prod.mk.inj (some.inj hwrap)
    obtain ⟨hrestores, hopens⟩ := plain_signed h hlawful hetype hshaped hsign hchecksum hfill
    exact ⟨hrestores, fun _ => hopens⟩
  | true =>
    cases dceStyle with
    | true =>
      obtain ⟨payload, hencrypt, hwrap⟩ := bind_eq_some_iff.1 (hfound hwrap)
      obtain ⟨rfl, rfl⟩ := Prod.mk.inj (some.inj hwrap)
      obtain ⟨hrestores, -⟩ := plain_sealed h hlawful hetype hshaped hsign (by omega) (.inr hdce)
        hencrypt hlength hfill
      exact ⟨hrestores, fun hfalse => nomatch hfalse⟩
    | false =>
      obtain ⟨payload, hencrypt, hwrap⟩ := bind_eq_some_iff.1 (hfound hwrap)
      obtain ⟨rfl, rfl⟩ := Prod.mk.inj (some.inj hwrap)
      obtain ⟨hrestores, hopens⟩ :=
        plain_sealed h hlawful hetype hshaped hsign (by omega) (.inl rfl)
        hencrypt hlength hfill
      exact ⟨hrestores, fun _ => hopens rfl⟩

/-- With SIGN_ONLY buffers. -/
theorem wrapIOV_associated (hsign : .signOnly ∈ iov.map IOVBuffer.type)
    (hdce : d.dceStyle = dceStyle) {c' : Context}
    (hwrap : c.wrapIOVWithAssociatedData E etype iov sealed dceStyle = .ok (iov', c')) :
    Restores E d iov iov' ↔ ¬ (sealed = true ∧ dceStyle ≠ c.dceStyle) := by
  obtain ⟨token, htoken, hwrap⟩ := bind_ok.1 hwrap
  obtain ⟨_, -, hwrap⟩ := bind_ok.1 hwrap
  obtain ⟨_, hfill, hwrap⟩ := bind_ok.1 hwrap
  obtain ⟨rfl, rfl⟩ := Prod.mk.inj (ok.inj hwrap)
  cases sealed with
  | false =>
    obtain ⟨mac, hchecksum, htoken⟩ := bind_ok.1 htoken
    obtain rfl := ok.inj htoken
    have hchecksum := ofOption_ok.1 hchecksum
    have hmac := (hlawful.etype _ _ hetype).length_checksum _ _ _ _ hchecksum
    have hfilled := fillIOV_signed hshaped (length_header c false _) rfl hmac hfill
    have hrestores :=
      restores_signed_associated h hetype hshaped hsign hlawful hchecksum (by rwa [append_nil])
    exact ⟨fun _ hfalse => absurd hfalse.1 Bool.false_ne_true, fun _ => hrestores⟩
  | true =>
    obtain ⟨payload, hencrypt, htoken⟩ := bind_ok.1 htoken
    obtain rfl := ok.inj htoken
    have hencrypt := ofOption_ok.1 hencrypt
    have hheaderLength := length_header c true (if dceStyle then 16 else 0)
    have hlength := hlawful.length_encrypt _ _ _ _ _ _ hencrypt
    rw [length_append] at hlength
    obtain ⟨first, data, last, mac, hsealed⟩ := @exists_sealed etype _ _ (hheaderLength ▸ hlength)
    have hfilled := fillIOV_sealed hshaped hheaderLength hsealed hfill
    have hec : (if dceStyle then 16 else 0) < 65536 := by cases dceStyle <;> decide
    by_cases hsame : dceStyle = c.dceStyle
    · -- one style: the filler has the size the header says
      have hstyle : (if dceStyle then 16 else 0) = 0 ∨ d.dceStyle = true := by
        rw [hdce]
        cases dceStyle
        · exact .inl rfl
        · exact .inr rfl
      have hsizes : (if dceStyle then
        (Context.wrapIOVLength etype true c.dceStyle).2 - 16 - etype.checksumSize else 0) =
            (if dceStyle then 16 else 0) ∧
          (Context.wrapIOVLength etype true c.dceStyle).2 =
            (if dceStyle then 16 else 0) + 16 + etype.checksumSize := by
        rw [← hsame]
        cases dceStyle
        · exact ⟨rfl, rfl⟩
        · rw [Context.wrapIOVLength, if_pos rfl, if_pos rfl]
          omega
      rw [hsizes.1, hsizes.2] at hfilled
      have hrestores := restores_sealed_associated h hetype hshaped hsign hlawful hec hstyle hsealed
        hencrypt hfilled
      exact ⟨fun _ hother => hother.2 hsame, fun _ => hrestores⟩
    · have hsize : (sealedTrailer (if dceStyle then
        (Context.wrapIOVLength etype true c.dceStyle).2 - 16 - etype.checksumSize else 0)
          last mac (Context.wrapIOVLength etype true c.dceStyle).2).length ≠
          16 + etype.checksumSize + (if d.dceStyle then (if dceStyle then 16 else 0) else 0) := by
        have hc : c.dceStyle = !dceStyle := by
          cases hown : c.dceStyle <;> cases dceStyle <;> simp_all
        rw [hdce, hc]
        simp only [sealedTrailer, length_append, length_replicate, hsealed.last, hsealed.mac,
          Context.wrapIOVLength]
        cases dceStyle
        · simp only [Bool.not_false, if_true, Bool.false_eq_true, if_false]
          omega
        · simp only [Bool.not_true, if_true, Bool.false_eq_true, if_false]
          omega
      have hnot := not_restores_associated h hetype hshaped hsign hec hfilled hsize
      exact ⟨fun hrestores => absurd hrestores hnot, fun hother => absurd ⟨rfl, hsame⟩ hother⟩

end Wrap

/-- **A message that one side wraps into buffers is unwrapped by the other, set to the style of the
call, with every fragment of the data restored; and without SIGN_ONLY buffers and DCE style the
buffers one after the other are a token. It is so exactly if not all of this holds: there are
SIGN_ONLY buffers, the message is sealed, and the call asks for another style than the
context's.** -/
theorem iov_round_trip (E : IOVEnv) (hlawful : E.Lawful) (c d : Context) (h : Peers c d)
    (iov iov' : List IOVBuffer)
    (sealed dceStyle : Bool) (hdce : d.dceStyle = dceStyle) (c' : Context)
    (hwrap : c.wrapIOVWithOptions E iov sealed dceStyle = .ok (iov', c')) :
    (Restores E d iov iov' ∧
      (.signOnly ∉ iov.map IOVBuffer.type → dceStyle = false → Opens E d iov iov')) ↔
      ¬ (.signOnly ∈ iov.map IOVBuffer.type ∧ sealed = true ∧ dceStyle ≠ c.dceStyle) := by
  obtain ⟨_, hparse, hwrap⟩ := bind_ok.1 hwrap
  obtain ⟨htrailer, hwrap⟩ := ensure_bind_ok.1 hwrap
  obtain ⟨etype, hetype, hwrap⟩ := bind_ok.1 hwrap
  have hetype := ofOption_ok.1 hetype
  have hshaped := parseIOV_wrap hparse (htrailer)
  by_cases hsign : .signOnly ∈ iov.map IOVBuffer.type
  · have hwrap := (if_pos hsign).symm.trans hwrap
    have hiff := wrapIOV_associated h hlawful hetype hshaped hsign hdce hwrap
    rw [hiff]
    constructor
    · intro hother hall
      exact hother.1 hall.2
    · intro hother
      exact ⟨fun hall => hother ⟨hsign, hall⟩, fun hno => absurd hsign hno⟩
  · have hwrap := (if_neg hsign).symm.trans hwrap
    obtain ⟨⟨token, c₁⟩, htoken, hwrap⟩ := bind_ok.1 hwrap
    obtain ⟨hlength, hwrap⟩ := ensure_bind_ok.1 hwrap
    obtain ⟨_, hfill, hwrap⟩ := bind_ok.1 hwrap
    obtain ⟨rfl, rfl⟩ := Prod.mk.inj (ok.inj hwrap)
    obtain ⟨hrestores, hopens⟩ := wrapIOV_plain h hlawful hetype hshaped hsign hdce
      (ofOption_ok.1 htoken) (hlength) hfill
    exact ⟨fun _ hall => hsign hall.1, fun _ => ⟨hrestores, fun _ => hopens⟩⟩

namespace Sample

def iovEnv : IOVEnv where
  gss := plainEnv
  encryptWithAssociatedData etype _ _ plain _ :=
    some (List.replicate 16 0 ++ plain ++ List.replicate etype.checksumSize 0)
  decryptWithAssociatedData etype _ _ cipher _ :=
    some ((cipher.drop 16).take (cipher.length - 16 - etype.checksumSize))

theorem lawful_iovEnv : iovEnv.Lawful where
  etype := by
    rintro t etype hetype
    obtain rfl := some.inj hetype
    exact lawful_plainEType
  decrypt_encrypt := by
    intro etype key usage plain associated cipher hencrypt
    exact congrArg some (between_zeros plain _ (some.inj hencrypt))
  length_encrypt := by
    rintro etype key usage plain associated cipher hencrypt
    obtain rfl := some.inj hencrypt
    simp only [length_append, length_replicate]

/-- A header and a trailer to be filled, one fragment of data, and a buffer that is only signed. -/
def buffers : List IOVBuffer :=
  [⟨.header, none, 0⟩, ⟨.signOnly, some [1], 0⟩, ⟨.data, some [2, 3], 0⟩, ⟨.trailer, none, 0⟩]

end Sample

open Sample in
/-- A call without DCE style. -/
theorem iov_round_trip_sample : ∃ iov' c',
    sender.wrapIOVWithOptions iovEnv buffers true false = .ok (iov', c') ∧
      Restores iovEnv (receiver false) buffers iov' := by
  have hwrap : ∃ result, sender.wrapIOVWithOptions iovEnv buffers true false =
      .ok result := ⟨_, rfl⟩
  obtain ⟨⟨iov', c'⟩, hwrap⟩ := hwrap
  have hiff := iov_round_trip iovEnv lawful_iovEnv sender (receiver false) (peers false) buffers
    iov' true false rfl c' hwrap
  exact ⟨iov', c', hwrap, (hiff.2 (by decide)).1⟩

open Sample in
/-- A call that asks a context without DCE style for a sealed message in DCE style: the trailer has
no filler, and the other side misses it. -/
theorem iov_round_trip_fails :
    ∃ iov' c', sender.wrapIOVWithOptions iovEnv buffers true true = .ok (iov', c') ∧
      (receiver true).unwrapIOV iovEnv iov' = .error "GSS IOV unwrap: invalid trailer" :=
  ⟨_, _, rfl, rfl⟩

end Kerberos.GSS
