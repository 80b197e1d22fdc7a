import Kerberos.Proof.KADM
import Kerberos.Spec.Iprop

/-!
# Updates read back

A value reads back if every sequence in it is as short as the reader takes it (`Value.Fits`,
`Update.Fits`). The bound of a megabyte on an encoding bounds the length of every sequence in it, as
each element takes up at least one byte; so `unmarshalUpdate` gives back every update of at most a
megabyte (`unmarshalUpdate_marshalXDR`).
-/

namespace Kerberos.Iprop

open Reader List Reads Xdr

/-! ## What the reader takes -/

/-- A text whose length has 32 bits. -/
def Short (v : Bytes) : Prop := v.length < 2 ^ 32

variable {α : Type}

/-- A sequence that is not too long, of elements that fit. -/
def Counted (fits : α → Prop) (values : List α) : Prop :=
  values.length ≤ Read.maxCount ∧ ∀ v ∈ values, fits v

def PrincipalData.Fits (v : PrincipalData) : Prop :=
  Short v.realm ∧ Counted (fun component => Short component.data) v.components

def KeyData.Fits (v : KeyData) : Prop :=
  Counted (fun _ => True) v.enctypes ∧ Counted Short v.contents

def Value.Fits : Value → Prop
  | number _ _ | len _ | pwPolicySwitch _ => True
  | principal _ value => value.Fits
  | keyData keys => Counted KeyData.Fits keys
  | tlData values => Counted (fun tl => Short tl.data) values
  | text _ value | extension _ value => Short value
  | pwHist history => Counted (Counted KeyData.Fits) history

def Update.Fits (v : Update) : Prop :=
  Short v.principalName ∧ Counted Value.Fits v.entry ∧ Counted Short v.kdcsSeenBy ∧ Short v.futures

variable {v : Update}

namespace Read

theorem reads_u32Or (e : String) (v : UInt32) : Reads (u32Or e) (Xdr.u32 v) (.ok v) := by
  refine final (take (Words.length_beBytes 4 v.toNat) _) (pure_eq ?_)
  rw [Words.ofBE_beBytes v.toNat_lt, UInt32.ofNat_toNat]

theorem reads_u32 (v : UInt32) : Reads u32 (Xdr.u32 v) (.ok v) := reads_u32Or _ v

theorem reads_i32 (v : Int32) : Reads i32 (Xdr.i32 v) (.ok v) :=
  final (reads_u32 _) (pure_eq (by simp))

theorem reads_i16 (v : Int16) : Reads i16 (Xdr.i16 v) (.ok v) := by
  have hlow : -2 ^ 15 ≤ v.toInt := v.le_toInt
  have hhigh : v.toInt < 2 ^ 15 := v.toInt_lt
  refine final (reads_i32 _) ?_
  rw [Int16.toInt_toInt32]
  refine quiet (check (by simp; omega) _) (pure_eq ?_)
  exact Int16.ofInt_toInt v

theorem reads_boolean (v : Bool) : Reads boolean (bool v) (.ok v) := by
  refine final (reads_u32 _) (quiet (check ?_ _) (pure_eq ?_))
  · cases v <;> rfl
  · cases v <;> rfl

theorem reads_bytes {v : Bytes} (hv : Short v) : Reads bytes (Xdr.bytes v) (.ok v) := by
  have h32 := UInt32.toNat_ofNat_of_lt' hv
  unfold bytes Xdr.bytes
  rw [append_assoc]
  refine step (reads_u32 _) ?_
  rw [h32]
  refine step (take rfl _) ?_
  exact final (take (length_replicate ..) _) (pure v)

theorem reads_counted {write : α → Bytes} {r : XdrReader α} {fits : α → Prop} {values : List α}
    (hfits : Counted fits values) (hr : ∀ {v}, fits v → Reads r (write v) (.ok v))
    (truncated tooMany : String) :
    Reads (counted truncated tooMany r) (Xdr.counted write values) (.ok values) := by
  have h32 : (UInt32.ofNat values.length).toNat = values.length := by
    have hcount := hfits.1
    unfold maxCount at hcount
    exact UInt32.toNat_ofNat_of_lt' (show _ < 2 ^ 32 by omega)
  have hmany : Reads (many values.length r) (values.map write).flatten (.ok values) :=
    many_ok (forall₂_map_right_iff.2 (forall₂_same.2 fun v hv => hr (hfits.2 v hv)))
  refine step (reads_u32Or _ _) (quiet (check ?_ _) ?_)
  · rw [h32]
    exact decide_eq_true hfits.1
  · rw [h32]
    exact hmany

theorem reads_time (v : Time) : Reads time v.write (.ok v) :=
  step (reads_u32 _) (final (reads_u32 _) (pure _))

theorem reads_principal {v : PrincipalData} (h : v.Fits) : Reads principal v.write (.ok v) := by
  unfold principal PrincipalData.write
  rw [append_assoc]
  refine step (reads_bytes h.1) (step (reads_counted h.2 (fun hd => ?_) _ _) ?_)
  · exact step (reads_i32 _) (final (reads_bytes hd) (pure _))
  · exact final (reads_i32 _) (pure _)

theorem reads_key {v : KeyData} (h : v.Fits) : Reads key v.write (.ok v) := by
  unfold key KeyData.write
  simp only [append_assoc]
  refine step (reads_i32 _) (step (reads_i32 _) ?_)
  refine step (reads_counted h.1 (fun _ => reads_i32 _) _ _) ?_
  exact final (reads_counted h.2 reads_bytes _ _) (pure _)

theorem ofCode_code (type : AttrType) : AttrType.ofCode type.code = type := by
  cases type with
  | number type => cases type <;> decide
  | principal type => cases type <;> decide
  | text type => cases type <;> decide
  | extension type => exact dif_pos type.2
  | keyData => decide
  | tlData => decide
  | len => decide
  | pwPolicySwitch => decide
  | pwHist => decide

theorem reads_body {v : Value} (h : v.Fits) : Reads (valueOf v.type) v.body (.ok v) := by
  cases v with
  | number type value => exact final (reads_u32 _) (pure _)
  | principal type value => exact final (reads_principal h) (pure _)
  | keyData keys => exact final (reads_counted h reads_key _ _) (pure _)
  | tlData values =>
    refine final (reads_counted h (fun hv => ?_) _ _) (pure _)
    exact step (reads_i16 _) (final (reads_bytes hv) (pure _))
  | len value => exact final (reads_i16 _) (pure _)
  | text type value => exact final (reads_bytes h) (pure _)
  | pwPolicySwitch value => exact final (reads_boolean _) (pure _)
  | pwHist history =>
    exact final (reads_counted h (fun hv => reads_counted hv reads_key _ _) _ _) (pure _)
  | extension type value => exact final (reads_bytes h) (pure _)

theorem reads_value {v : Value} (h : v.Fits) : Reads value v.write (.ok v) := by
  refine step (reads_i32 _) ?_
  rw [ofCode_code]
  exact reads_body h

theorem reads_update (h : v.Fits) : Reads update v.marshalXDR (.ok v) := by
  unfold update Update.marshalXDR
  simp only [append_assoc]
  refine step (reads_bytes h.1) (step (reads_u32 _) (step (reads_time _) ?_))
  refine step (reads_counted h.2.1 reads_value _ _)
    (step (reads_boolean _) (step (reads_boolean _) ?_))
  exact step (reads_counted h.2.2.1 reads_bytes _ _) (final (reads_bytes h.2.2.2) (pure _))

end Read

/-! ## Encodings of a megabyte -/

theorem bytes_ne_nil (v : Bytes) : bytes v ≠ [] := by simp [bytes, u32, ← length_eq_zero_iff]

theorem i32_ne_nil (v : Int32) : i32 v ≠ [] := by simp [i32, u32, ← length_eq_zero_iff]

theorem short_of_length {v : Bytes} (h : (bytes v).length ≤ Read.maxCount) : Short v := by
  unfold Read.maxCount at h
  unfold Short
  simp only [bytes, length_append] at h
  omega

theorem counted_of_length (write : α → Bytes) {fits : α → Prop} {values : List α}
    (hlen : (counted write values).length ≤ Read.maxCount) (hwrite : ∀ v, write v ≠ [])
    (hfits : ∀ {v}, (write v).length ≤ Read.maxCount → fits v) : Counted fits values := by
  have hflat : (values.map write).flatten.length ≤ Read.maxCount := by
    rw [counted, length_append] at hlen
    omega
  refine ⟨?_,
    fun v hv => hfits ((sublist_flatten_of_mem (mem_map_of_mem hv)).length_le.trans hflat)⟩
  have hone : values.length • 1 ≤ (values.map (length ∘ write)).sum := by
    rw [← length_map]
    refine card_nsmul_le_sum _ _ fun n hn => ?_
    obtain ⟨v, _, rfl⟩ := mem_map.1 hn
    exact length_pos_iff.2 (hwrite v)
  exact (by simpa using hone : values.length ≤ _).trans hflat

theorem KeyData.fits_of_length {v : KeyData} (h : v.write.length ≤ Read.maxCount) : v.Fits := by
  simp only [write, length_append] at h
  exact ⟨counted_of_length i32 (by omega) i32_ne_nil fun _ => trivial,
    counted_of_length bytes (by omega) bytes_ne_nil short_of_length⟩

theorem keys_of_length {keys : List KeyData}
    (h : (counted KeyData.write keys).length ≤ Read.maxCount) :
    Counted KeyData.Fits keys := by
  refine counted_of_length _ h (fun v => ?_) KeyData.fits_of_length
  simp only [KeyData.write, append_assoc]
  exact append_ne_nil_of_left_ne_nil (i32_ne_nil _) _

theorem Value.fits_of_length {v : Value} (h : v.write.length ≤ Read.maxCount) : v.Fits := by
  rw [write, length_append] at h
  cases v with
  | number | len | pwPolicySwitch => trivial
  | principal type value =>
    simp only [body, PrincipalData.write, length_append] at h
    refine ⟨short_of_length (by omega),
      counted_of_length Data.write (by omega) (fun d => ?_) fun {d} hd => short_of_length ?_⟩
    · exact append_ne_nil_of_left_ne_nil (i32_ne_nil _) _
    · rw [Data.write, length_append] at hd
      omega
  | keyData keys => exact keys_of_length (by rw [body] at h; omega)
  | tlData values =>
    rw [body] at h
    refine counted_of_length writeTL (by omega)
      (fun v => append_ne_nil_of_right_ne_nil _ (bytes_ne_nil _)) fun {v} hv => ?_
    rw [writeTL, length_append] at hv
    exact short_of_length (by omega)
  | text type value | extension type value => exact short_of_length (by rw [body] at h; omega)
  | pwHist history =>
    rw [body] at h
    refine counted_of_length (counted KeyData.write) (by omega) (fun keys => ?_) keys_of_length
    simp [counted, u32, ← length_eq_zero_iff]

theorem Update.fits_of_length (h : v.marshalXDR.length ≤ Read.maxCount) : v.Fits := by
  simp only [marshalXDR, length_append] at h
  refine ⟨short_of_length (by omega),
    counted_of_length Value.write (by omega) (fun v => ?_) Value.fits_of_length,
      counted_of_length bytes (by omega) bytes_ne_nil short_of_length, short_of_length (by omega)⟩
  exact append_ne_nil_of_left_ne_nil (i32_ne_nil _) _

/-- **An update reads back.** -/
theorem unmarshalUpdate_marshalXDR (h : v.marshalXDR.length ≤ Read.maxCount) :
    unmarshalUpdate v.marshalXDR = .ok v := by
  have hread := (Read.reads_update (Update.fits_of_length h)).ends
  unfold unmarshalUpdate
  rw [hread]
  rfl

theorem marshalXDR_ne_nil (v : Update) : v.marshalXDR ≠ [] :=
  append_ne_nil_of_right_ne_nil _ (bytes_ne_nil _)

end Kerberos.Iprop
