import Kerberos.Proof.UpdateCodec

/-!
# Incremental results on the wire

A result whose sequences are as short as the reader takes them reads back. The other way, the reader
looks at every byte but the padding of texts: what it accepts is written again as it was, if the
bytes it does not look at (`Ignored`) are zero.
-/

namespace Kerberos.Iprop

open Reader UInt32 List Reads Takes

namespace Read

theorem u32Or_ok {e : String} {input rest : Bytes} {v : UInt32}
    (h : u32Or e input = .ok (v, rest)) :
    input = Xdr.u32 v ++ rest := by
  obtain ⟨b, mid, hb, hv⟩ := bind_ok.1 h
  obtain ⟨hlength, rfl⟩ := take_ok.1 hb
  cases hv
  have hlt := Words.ofBE_lt b
  rw [hlength] at hlt
  rw [Xdr.u32, toNat_ofNat_of_lt' hlt, ← hlength, Words.beBytes_ofBE]

theorem takes_u32Or (e : String) : Takes 0 (u32Or e) fun v out => out = Xdr.u32 v :=
  exact fun _ v _ h => ⟨Xdr.u32 v, u32Or_ok h, rfl, reads_u32Or e v⟩

theorem takes_u32 : Takes 0 u32 fun v out => out = Xdr.u32 v := takes_u32Or _

theorem takes_i32 : Takes 0 i32 fun v out => out = Xdr.i32 v := by
  refine bind takes_u32 fun v out hout => pure ?_
  rw [hout, append_nil, Xdr.i32, toUInt32_toInt32]

theorem takes_i16 : Takes 0 i16 fun v out => out = Xdr.i16 v := by
  refine bind takes_i32 fun v out hout => bind check fun _ _ hcheck => pure ?_
  obtain ⟨rfl, hrange⟩ := hcheck
  have hrange := of_decide_eq_true hrange
  have hback : (Int16.ofInt v.toInt).toInt32 = v := by
    rw [← Int32.toInt_inj, Int16.toInt_toInt32, Int16.toInt_ofInt_of_le (by omega) (by omega)]
  rw [hout, append_nil, append_nil, Xdr.i16, hback, Xdr.i32]

theorem takes_boolean : Takes 0 boolean fun v out => out = Xdr.bool v := by
  refine bind takes_u32 fun v out hout => bind check fun _ _ hcheck => pure ?_
  obtain ⟨rfl, hle⟩ := hcheck
  have hle := of_decide_eq_true hle
  have hcases : v = 0 ∨ v = 1 := by
    rw [le_iff_toNat_le] at hle
    rw [← UInt32.toNat_inj, ← UInt32.toNat_inj]
    have hone : (1 : UInt32).toNat = 1 := rfl
    have hzero : (0 : UInt32).toNat = 0 := rfl
    omega
  rw [hout]
  rcases hcases with rfl | rfl <;> rfl

/-- A text with any padding. -/
theorem reads_padded {v padding : Bytes} (hv : Short v)
    (hpadding : padding.length = xdrPad v.length) :
    Reads bytes (Xdr.u32 (UInt32.ofNat v.length) ++ (v ++ padding)) (.ok v) := by
  have h32 := toNat_ofNat_of_lt' hv
  refine step (reads_u32 _) ?_
  rw [h32]
  exact step (take rfl _) (final (take hpadding _) (pure v))

theorem takes_bytes : Takes 0 bytes fun v out => out = Xdr.bytes v := by
  intro input v rest h
  obtain ⟨n, mid, hn, hbody⟩ := bind_ok.1 h
  obtain ⟨b, mid', hb, hend⟩ := bind_ok.1 hbody
  obtain ⟨padding, last, hpadding, hv⟩ := bind_ok.1 hend
  cases hv
  obtain rfl := u32Or_ok hn
  obtain ⟨hlength, rfl⟩ := take_ok.1 hb
  obtain ⟨hpad, rfl⟩ := take_ok.1 hpadding
  have hshort : Short v := by
    unfold Short
    rw [hlength]
    exact n.toNat_lt
  obtain rfl : n = ofNat v.length := by rw [hlength, UInt32.ofNat_toNat]
  rw [← hlength] at hpad
  have hout : Xdr.bytes v = (Xdr.u32 (ofNat v.length) ++ v) ++ replicate (xdrPad v.length) 0 := rfl
  refine ⟨(Xdr.u32 (ofNat v.length) ++ v) ++ padding,
    Xdr.bytes v, by simp only [append_assoc], rfl, ?_, ?_, fun i => ?_⟩
  · have hzeros : padding.length = (replicate (xdrPad v.length) (0 : UInt8)).length := by
      rw [hpad, length_replicate]
    rw [hout, length_append, hzeros, ← length_append]
  · exact reads_padded hshort hpad
  · rw [hout]
    by_cases hi : i < (Xdr.u32 (ofNat v.length) ++ v).length
    · exact .inl (by rw [getElem?_append_left hi, getElem?_append_left hi])
    · -- in the padding, or behind it
      rw [getElem?_append_right (by omega), getElem?_append_right (by omega), getElem?_replicate]
      by_cases hin : i - (Xdr.u32 (ofNat v.length) ++ v).length < xdrPad v.length
      · refine .inr ⟨if_pos hin, fun b => ?_⟩
        rw [set_append_right _ _ (by omega)]
        exact reads_padded hshort (by rw [length_set, hpad])
      · exact .inl (by rw [if_neg hin, getElem?_eq_none (by omega)])

variable {α : Type} {r : XdrReader α} {write : α → Bytes}

theorem takes_counted (hr : Takes 0 r fun v out => out = write v) (truncated tooMany : String) :
    Takes 0 (counted truncated tooMany r) fun values out => out = Xdr.counted write values := by
  refine bind (takes_u32Or _) fun n out hout => bind check fun _ _ hcheck => ?_
  refine (many hr n.toNat).imp fun values outs houts => ?_
  rw [hout, hcheck.1, houts.2, Xdr.counted, houts.1, UInt32.ofNat_toNat, nil_append]

/-- The last step of a reader. -/
theorem takes_final {β : Type} {f : α → β} {W : β → Bytes → Prop}
    (hr : Takes 0 r fun v out => out = write v)
    (h : ∀ v, W (f v) (write v)) : Takes 0 (r >>= fun v => pure (f v)) W := by
  refine bind hr fun v out hout => pure ?_
  rw [hout, append_nil]
  exact h v

theorem takes_time : Takes 0 time fun v out => out = v.write := by
  refine bind takes_u32 fun _ _ h => takes_final takes_u32 fun _ => ?_
  rw [h, Time.write]

theorem takes_principal : Takes 0 principal fun v out => out = v.write := by
  have hdata : Takes 0 data fun v out => out = v.write := by
    refine bind takes_i32 fun _ _ h => takes_final takes_bytes fun _ => ?_
    rw [h, Data.write]
  refine bind takes_bytes fun _ _ h₁ => bind (takes_counted hdata _ _) fun _ _ h₂ =>
    takes_final takes_i32 fun _ => ?_
  rw [h₁, h₂, PrincipalData.write, append_assoc]

theorem takes_key : Takes 0 key fun v out => out = v.write := by
  refine bind takes_i32 fun _ _ h₁ => bind takes_i32 fun _ _ h₂ => ?_
  refine bind (takes_counted takes_i32 _ _) fun _ _ h₃ =>
    takes_final (takes_counted takes_bytes _ _) fun _ => ?_
  rw [h₁, h₂, h₃, KeyData.write]
  simp only [append_assoc]

theorem takes_tl : Takes 0 tl fun v out => out = writeTL v := by
  refine bind takes_i16 fun _ _ h => takes_final takes_bytes fun _ => ?_
  rw [h, writeTL]

theorem takes_valueOf (type : AttrType) :
    Takes 0 (valueOf type) fun v out => v.type = type ∧ out = v.body := by
  cases type with
  | number type => exact takes_final takes_u32 fun _ => ⟨rfl, rfl⟩
  | principal type => exact takes_final takes_principal fun _ => ⟨rfl, rfl⟩
  | keyData => exact takes_final (takes_counted takes_key _ _) fun _ => ⟨rfl, rfl⟩
  | tlData => exact takes_final (takes_counted takes_tl _ _) fun _ => ⟨rfl, rfl⟩
  | len => exact takes_final takes_i16 fun _ => ⟨rfl, rfl⟩
  | text type => exact takes_final takes_bytes fun _ => ⟨rfl, rfl⟩
  | pwPolicySwitch => exact takes_final takes_boolean fun _ => ⟨rfl, rfl⟩
  | pwHist =>
    exact takes_final (takes_counted (takes_counted takes_key _ _) _ _) fun _ => ⟨rfl, rfl⟩
  | extension type => exact takes_final takes_bytes fun _ => ⟨rfl, rfl⟩

theorem code_ofCode (type : Int32) : (AttrType.ofCode type).code = type := by
  by_cases h : type.toInt < 0 ∨ 19 < type.toInt
  · rw [AttrType.ofCode, dif_pos h]
    rfl
  · have hall : ∀ n < 20, (AttrType.known.getD n .keyData).code = Int32.ofNat n := by decide
    have hnat : Int32.ofNat type.toInt.toNat = type := by
      rw [← Int32.ofInt_eq_ofNat, Int.toNat_of_nonneg (by omega), Int32.ofInt_toInt]
    rw [AttrType.ofCode, dif_neg h, hall _ (by omega), hnat]

theorem takes_value : Takes 0 value fun v out => out = v.write := by
  refine bind takes_i32 fun type _ h => (takes_valueOf _).imp fun v out hv => ?_
  rw [h, hv.2, Value.write, hv.1, code_ofCode]

theorem takes_update : Takes 0 update fun v out => out = v.marshalXDR := by
  refine bind takes_bytes fun _ _ h₁ => bind takes_u32 fun _ _ h₂ =>
    bind takes_time fun _ _ h₃ => ?_
  refine bind (takes_counted takes_value _ _) fun _ _ h₄ => bind takes_boolean fun _ _ h₅ => ?_
  refine bind takes_boolean fun _ _ h₆ => bind (takes_counted takes_bytes _ _) fun _ _ h₇ => ?_
  refine takes_final takes_bytes fun _ => ?_
  rw [h₁, h₂, h₃, h₄, h₅, h₆, h₇, Update.marshalXDR]
  simp only [append_assoc]

theorem takes_incremental : Takes 0 incremental fun v out => out = v.marshalXDR := by
  have hlast : Takes 0 last fun v out => out = v.write := by
    refine bind takes_u32 fun _ _ h => takes_final takes_time fun _ => ?_
    rw [h, Last.write]
  refine bind hlast fun _ _ h₁ => bind (takes_counted takes_update _ _) fun _ _ h₂ =>
    takes_final takes_i32 fun _ => ?_
  rw [h₁, h₂, IncrementalMessage.marshalXDR, append_assoc]

theorem reads_incremental {v : IncrementalMessage} (h : Counted Update.Fits v.updates) :
    Reads incremental v.marshalXDR (.ok v) := by
  unfold incremental IncrementalMessage.marshalXDR
  rw [append_assoc]
  have hlast : Reads last v.lastEntry.write (.ok v.lastEntry) :=
    step (reads_u32 _) (final (reads_time _) (pure _))
  exact step hlast (step (reads_counted h reads_update _ _) (final (reads_i32 _) (pure _)))

end Read

theorem unmarshal_of_reads {data : Bytes} {v : IncrementalMessage}
    (h : Reads Read.incremental data (.ok v)) :
    unmarshalIncrementalResult data = .ok v := by
  unfold unmarshalIncrementalResult
  rw [h.ends]
  rfl

/-- The decoder does not look at the byte: it may be any. -/
def Ignored (data : Bytes) (i : ℕ) : Prop :=
  i < data.length ∧ ∀ b, unmarshalIncrementalResult (data.set i b) = unmarshalIncrementalResult data

/-- **Incremental results read back, and are written back.** A result reads back if the counts in it
are within the limits of the reader; and a byte string that the reader accepts is written again as
it was if the bytes that it does not look at, the padding, are zero. -/
theorem incremental_round_trip (v : IncrementalMessage) (data : Bytes) :
    (Counted Update.Fits v.updates → unmarshalIncrementalResult v.marshalXDR = .ok v) ∧
      (unmarshalIncrementalResult data = .ok v → (∀ i, Ignored data i → data[i]? = some 0) →
        v.marshalXDR = data) := by
  refine ⟨fun h => unmarshal_of_reads (Read.reads_incremental h), fun h hzero => ?_⟩
  have hdata := h
  obtain ⟨⟨message, rest⟩, hread, h⟩ := Except.bind_ok.1 h
  obtain ⟨hrest, h⟩ := Except.ensure_bind_ok.1 h
  obtain rfl := hrest
  obtain rfl := Except.ok.inj h
  obtain ⟨enc, _, rfl, rfl, hlength, -, hsame⟩ := Read.takes_incremental _ _ _ hread
  rw [append_nil] at hdata hzero ⊢
  refine ext_getElem? fun i => ?_
  rcases hsame i with heq | ⟨hz, hany⟩
  · exact heq.symm
  · have hi : i < enc.length := by
      rw [hlength]
      exact (List.getElem?_eq_some_iff.1 hz).1
    rw [hz, hzero i ⟨hi, fun b => (unmarshal_of_reads (hany b)).trans hdata.symm⟩]

/-- A result with an update, of which the name and an attribute have padding, is read back and
written back. -/
theorem incremental_round_trip_sample :
    let update : Update :=
  ⟨str "u", 1, ⟨2, 3⟩, [.text .pwPolicy (str "p"), .len 38], false, true, [], []⟩
    let message : IncrementalMessage := ⟨⟨1, ⟨2, 3⟩⟩, [update], 0⟩
    ∃ data, unmarshalIncrementalResult data = .ok message ∧ message.marshalXDR = data := by
  intro update message
  have hread : unmarshalIncrementalResult message.marshalXDR = .ok message := by
    refine (incremental_round_trip message []).1 ⟨by decide, ?_⟩
    simp [message, update, Update.Fits, Counted, Value.Fits, Short, Read.maxCount, str]
  -- every byte other than zero is looked at
  have hlooked : ∀ i < message.marshalXDR.length, message.marshalXDR[i]? = some 0 ∨
      (unmarshalIncrementalResult
        (message.marshalXDR.set i (message.marshalXDR.getD i 0 + 1))).toOption ≠
        some message := by
    decide +kernel
  refine ⟨_, hread, (incremental_round_trip message _).2 hread fun i hignored => ?_⟩
  refine (hlooked i hignored.1).resolve_right fun hne => hne ?_
  rw [hignored.2, hread]
  rfl

end Kerberos.Iprop
