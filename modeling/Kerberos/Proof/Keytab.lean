import Kerberos.Proof.Binfmt
import Kerberos.Spec.Keytab

/-!
# Keytabs read back

A file as it is written, with deleted records put in anywhere and with anything behind a length of
zero, is read as the entries that were written (`keytab_round_trip`), as long as it is not larger
than what `Read` takes.
-/

namespace Kerberos.Keytab

open Reader Binfmt List Except Words Reads

theorem reads_kvnoField (kvno : UInt32) :
    Reads (kvnoField kvno.toUInt8) (beBytes 4 kvno.toNat) (.ok kvno) := by
  refine get fun rest => ?_
  have hvalue : (if kvno ≠ 0 then kvno else kvno.toUInt8.toUInt32) = kvno := by
    by_cases hzero : kvno = 0 <;> simp [hzero]
  exact final (f := fun v => pure (if v ≠ 0 then v else kvno.toUInt8.toUInt32)) (reads_u32 kvno)
    (pure_eq hvalue) rest

/-- What `marshalEntry` writes is read again. -/
theorem reads_entry {entry : Entry} {body : Bytes} (h : marshalEntry entry = .ok body) :
    Reads entryReader body (.ok entry) ∧ 0 < body.length ∧ body.length < 2 ^ 31 := by
  obtain ⟨hcount, h⟩ := ensure_bind_ok.1 h
  obtain ⟨_, -, h⟩ := bind_ok.1 h
  obtain ⟨⟨htime, htime'⟩, h⟩ := ensure_bind_ok.1 h
  obtain ⟨⟨htype, htype'⟩, h⟩ := ensure_bind_ok.1 h
  obtain ⟨_, -, h⟩ := bind_ok.1 h
  obtain ⟨realm, hrealm, h⟩ := bind_ok.1 h
  obtain ⟨_, -, h⟩ := bind_ok.1 h
  obtain ⟨components, hcomponents, h⟩ := bind_ok.1 h
  obtain ⟨key, hkey, h⟩ := bind_ok.1 h
  obtain ⟨hsize, h⟩ := ensure_bind_ok.1 h
  obtain rfl := ok.inj h
  have htime32 : entry.timestamp.toNat < 2 ^ 32 := by omega
  have htype16 : entry.enctype.toInt.toNat < 2 ^ 16 := by omega
  refine ⟨?_, ?_, hsize⟩
  · refine step (reads_u16_of_lt hcount) (step (reads_counted16 hrealm) ?_)
    rw [UInt16.toNat_ofNat_of_lt' hcount]
    refine step (reads_many hcomponents fun _ _ => reads_counted16) (step (reads_u32 _) ?_)
    refine step (reads_u32_of_lt htime32) (step (reads_u8 _) (step (reads_u16_of_lt htype16) ?_))
    refine step (reads_counted16 hkey) (final (reads_kvnoField entry.kvno) (pure_eq ?_))
    have htimestamp : ((UInt32.ofNat entry.timestamp.toNat).toNat : ℤ) = entry.timestamp := by
      rw [UInt32.toNat_ofNat_of_lt' htime32]
      omega
    have henctype : Int32.ofNat (UInt16.ofNat entry.enctype.toInt.toNat).toNat = entry.enctype := by
      rw [UInt16.toNat_ofNat_of_lt' htype16, ← Int32.ofInt_eq_ofNat, Int.toNat_of_nonneg htype,
        Int32.ofInt_toInt]
    rw [htimestamp, henctype, Int32.toInt32_toUInt32]
  · rw [length_append, length_beBytes]
    omega

/-- The records of a file, with holes and whatever is behind its end. -/
inductive Holed : List Bytes → Bytes → Prop
  | nil : Holed [] []
  | ended (tail : Bytes) : Holed [] (beBytes 4 0 ++ tail)
  | record {records : List Bytes} {file : Bytes} (record : Bytes) (h : Holed records file) :
      Holed (record :: records) (record ++ file)
  | hole {records : List Bytes} {file : Bytes} (hole : Bytes) (hpos : hole ≠ [])
    (hle : hole.length ≤ 2 ^ 31)
      (h : Holed records file) : Holed records (beBytes 4 (2 ^ 32 - hole.length) ++ (hole ++ file))

theorem holed_flatten (records : List Bytes) : Holed records records.flatten := by
  induction records with
  | nil => exact .nil
  | cons record records ih => exact .record record ih

/-- A round of the loop, once the length at the front is known. -/
theorem readRecords_length {n fuel : ℕ} {length : ℤ} (hn : n < 2 ^ 32)
    (hlength : (n : ℤ).bmod (2 ^ 32) = length) (rest : Bytes) :
    readRecords (fuel + 1) (beBytes 4 n ++ rest) =
      (if length = 0 then .ok []
      else do
        Except.ensure (length.natAbs ≤ rest.length) "read keytab: truncated record"
        if length < 0 then readRecords fuel (rest.drop length.natAbs)
        else do
          let entry ← (parseEntry (rest.take length.natAbs)).within "read keytab record: "
          let entries ← readRecords fuel (rest.drop length.natAbs)
          .ok (entry :: entries)) := by
  have hfour := length_beBytes 4 n
  have hsome : beBytes 4 n ++ rest ≠ [] := by
    intro h
    rw [(append_eq_nil_iff.1 h).1] at hfour
    cases hfour
  rw [readRecords, if_neg hsome, ensure_bind (by rw [length_append, hfour]; omega)]
  simp only [take_left' hfour, drop_left' hfour, ofBE_beBytes (show n < 256 ^ 4 by omega),
    UInt32.toInt32_ofNat', Int32.toInt_ofNat', show (n : ℤ).bmod Int32.size = length from hlength]

theorem readRecords_holed {entries : List Entry} {records : List Bytes} {file : Bytes}
    (h : entries.mapM writeRecord = .ok records) (hfile : Holed records file) {fuel : ℕ}
    (hfuel : file.length ≤ fuel) :
    readRecords fuel file = .ok entries := by
  induction hfile generalizing entries fuel with
  | nil =>
    obtain rfl := forall₂_nil_right_iff.1 (mapM_ok.1 h)
    cases fuel <;> rfl
  | ended tail =>
    obtain rfl := forall₂_nil_right_iff.1 (mapM_ok.1 h)
    rw [length_append, length_beBytes] at hfuel
    obtain ⟨fuel, rfl⟩ := Nat.exists_eq_add_of_lt (show 0 < fuel by omega)
    rw [@readRecords_length 0 _ 0 (by decide) rfl, if_pos rfl]
  | @record records file record hrest ih =>
    obtain ⟨entry, entries, hrecord, hentries, rfl⟩ := forall₂_cons_right_iff.1 (mapM_ok.1 h)
    obtain ⟨body, hbody, hrecord⟩ := bind_ok.1 hrecord
    obtain rfl := ok.inj hrecord
    obtain ⟨hreads, hpos, hlt⟩ := reads_entry (within_ok.1 hbody)
    simp only [length_append] at hfuel
    obtain ⟨fuel, rfl⟩ := Nat.exists_eq_add_of_lt (show 0 < fuel by omega)
    have hlength : (body.length : ℤ).bmod (2 ^ 32) = body.length := by
      rw [Int.bmod_eq_of_le] <;> omega
    have hparse : parseEntry body = .ok entry := by
      have := hreads []
      rw [append_nil] at this
      rw [parseEntry, this]
      rfl
    rw [zero_add, append_assoc, readRecords_length (by omega) hlength, if_neg (by omega),
      ensure_bind (by rw [length_append, Int.natAbs_natCast]; omega), Int.natAbs_natCast, take_left,
        drop_left, hparse,
      ih (mapM_ok.2 hentries) (by omega)]
    rfl
  | @hole records file hole hpos hle hrest ih =>
    have hsome := length_pos_iff.2 hpos
    simp only [length_append] at hfuel
    obtain ⟨fuel, rfl⟩ := Nat.exists_eq_add_of_lt (show 0 < fuel by omega)
    have hlength : ((2 ^ 32 - hole.length : ℕ) : ℤ).bmod (2 ^ 32) = -hole.length := by
      rw [Int.bmod_def]
      omega
    rw [zero_add, readRecords_length (by omega) hlength, if_neg (by omega),
      ensure_bind (by rw [length_append, Int.natAbs_neg, Int.natAbs_natCast]; omega),
        if_pos (by omega),
      Int.natAbs_neg, Int.natAbs_natCast, drop_left, ih h (by omega)]

theorem read_holed {entries : List Entry} {records : List Bytes} {file : Bytes}
    (h : entries.mapM writeRecord = .ok records) (hfile : Holed records file) :
    read (version ++ file) = .ok entries ↔ (version ++ file).length ≤ maxKeytabInput := by
  have hversion : version.length = 2 := length_beBytes 2 _
  constructor
  · intro hread
    obtain ⟨hsize, -⟩ := ensure_bind_ok.1 hread
    exact hsize
  · intro hsize
    rw [read, ensure_bind hsize, ensure_bind (by rw [length_append]; omega),
      take_left' hversion, ensure_bind rfl, drop_left' hversion,
      readRecords_holed h hfile (by rw [length_append]; omega)]

/-- **A keytab that `Write` accepts is read back, with its entries in their order**, and so is its
file with deleted records put in, or with anything behind a length of zero: exactly if the file that
is read has at most 64 MiB. -/
theorem keytab_round_trip (entries : List Entry) (data : Bytes) (h : write entries = .ok data) :
    (read data = .ok entries ↔ data.length ≤ maxKeytabInput) ∧
      ∃ records, entries.mapM writeRecord = .ok records ∧ data = version ++ records.flatten ∧
        ∀ file, Holed records file →
          (read (version ++ file) = .ok entries ↔ (version ++ file).length ≤ maxKeytabInput) := by
  obtain ⟨records, hrecords, hdata⟩ := bind_ok.1 h
  obtain rfl := ok.inj hdata
  exact ⟨read_holed hrecords (holed_flatten records), records, hrecords, rfl,
    fun _ => read_holed hrecords⟩

/-- A keytab with an entry, and a hole behind its record. -/
theorem keytab_round_trip_hole :
    let entry : Entry := ⟨⟨str "R", 1, [str "u"]⟩, 7, 300, 18, [1, 2]⟩
    ∃ record, write [entry] = .ok (version ++ [record].flatten) ∧
      read (version ++ (record ++ (beBytes 4 (2 ^ 32 - 1) ++ ([0] ++ [])))) = .ok [entry] := by
  intro entry
  have hlength : (writeRecord entry).toOption.map length = some 31 := by decide +kernel
  obtain ⟨record, hrecord, hlength⟩ := Option.map_eq_some_iff.1 hlength
  have hrecords := mapM_ok.2 (.cons (toOption_some.1 hrecord) .nil)
  have hwrite : write [entry] = .ok (version ++ [record].flatten) := by
    rw [write, hrecords, ok_bind]
  obtain ⟨-, records, hrecords', -, hread⟩ := keytab_round_trip _ _ hwrite
  obtain rfl := ok.inj (hrecords.symm.trans hrecords')
  refine ⟨record, hwrite, (hread _ (.record record (.hole [0] (by decide) (by decide) .nil))).2 ?_⟩
  simp only [length_append, hlength]
  decide

/-- A hole that makes a file longer than 64 MiB: what `Write` has written is not read any more. -/
theorem keytab_hole_too_large : ∃ hole :
    Bytes, write [] = .ok version ∧ version.length ≤ maxKeytabInput ∧
    hole ≠ [] ∧ hole.length ≤ 2 ^ 31 ∧ Holed [] (beBytes 4 (2 ^ 32 - hole.length) ++ (hole ++ [])) ∧
    read (version ++ (Words.beBytes 4 (2 ^ 32 - hole.length) ++ (hole ++ []))) =
      .error "read keytab: input too large" := by
  obtain ⟨hole, hlength⟩ : ∃ hole : Bytes, hole.length = 2 ^ 26 :=
    ⟨replicate (2 ^ 26) 0, length_replicate⟩
  have hpos : hole ≠ [] := ne_nil_of_length_pos (by omega)
  refine ⟨hole, rfl, by decide, hpos, by omega, .hole _ hpos (by omega) .nil, ?_⟩
  have hlarge : ¬ (version ++ (beBytes 4 (2 ^ 32 - hole.length) ++ (hole ++ []))).length ≤
      maxKeytabInput := by
    simp only [length_append, length_beBytes, maxKeytabInput]
    omega
  rw [read, ensure_of_not hlarge, error_bind]

end Kerberos.Keytab
