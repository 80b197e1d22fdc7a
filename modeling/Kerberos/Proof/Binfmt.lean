import Kerberos.Spec.Binfmt

/-!
# Big-endian fields read back
-/

namespace Kerberos.Binfmt

open Reader Except Words Reads

theorem reads_u8 (v : UInt8) : Reads u8 (beBytes 1 v.toNat) (.ok v) := by
  refine final (take (length_beBytes ..) _) (pure_eq ?_)
  rw [ofBE_beBytes v.toNat_lt, UInt8.ofNat_toNat]

theorem reads_u16 (v : UInt16) : Reads u16 (beBytes 2 v.toNat) (.ok v) := by
  refine final (take (length_beBytes ..) _) (pure_eq ?_)
  rw [ofBE_beBytes v.toNat_lt, UInt16.ofNat_toNat]

theorem reads_u32 (v : UInt32) : Reads u32 (beBytes 4 v.toNat) (.ok v) := by
  refine final (take (length_beBytes ..) _) (pure_eq ?_)
  rw [ofBE_beBytes v.toNat_lt, UInt32.ofNat_toNat]

/-- A number that fits is read as the word it is. -/
theorem reads_u16_of_lt {n : ℕ} (h : n < 2 ^ 16) :
    Reads u16 (beBytes 2 n) (.ok (UInt16.ofNat n)) := by
  have hback := reads_u16 (UInt16.ofNat n)
  rwa [UInt16.toNat_ofNat_of_lt' h] at hback

theorem reads_u32_of_lt {n : ℕ} (h : n < 2 ^ 32) :
    Reads u32 (beBytes 4 n) (.ok (UInt32.ofNat n)) := by
  have hback := reads_u32 (UInt32.ofNat n)
  rwa [UInt32.toNat_ofNat_of_lt' h] at hback

theorem reads_counted16 {value enc : Bytes} (h : writeCounted16 value = .ok enc) :
    Reads counted16 enc (.ok value) := by
  obtain ⟨hlength, h⟩ := ensure_bind_ok.1 h
  obtain rfl := ok.inj h
  refine step (reads_u16_of_lt hlength) (take ?_ _)
  rw [UInt16.toNat_ofNat_of_lt' hlength]

theorem reads_counted32 {value enc : Bytes} (h : writeCounted32 value = .ok enc) :
    Reads counted32 enc (.ok value) := by
  obtain ⟨hlength, h⟩ := ensure_bind_ok.1 h
  obtain rfl := ok.inj h
  have hsize := UInt32.toNat_ofNat_of_lt' hlength
  refine step (reads_u32_of_lt hlength) (get fun rest => ?_)
  have hroom : decide ((UInt32.ofNat value.length).toNat ≤ (value ++ rest).length) = true := by
    rw [decide_eq_true_eq, List.length_append]
    omega
  have htake : Reads (bytes (UInt32.ofNat value.length).toNat) value (.ok value) :=
    take hsize.symm _
  exact quiet (check hroom _) htake rest

/-- A sequence of encodings, each of which reads back. -/
theorem reads_many {α : Type} {r : BinReader α} {write : α → Except String Bytes} {values : List α}
    {encs : List Bytes}
    (h : values.mapM write = .ok encs) (hr : ∀ v enc, write v = .ok enc → Reads r enc (.ok v)) :
    Reads (Reader.many values.length r) encs.flatten (.ok values) := many_ok ((mapM_ok.1 h).imp hr)

end Kerberos.Binfmt
