import Kerberos.Proof.Binfmt
import Kerberos.Spec.FileCache

/-!
# Credential caches read back

Every count in an encoding is checked against the bytes that are left, and there are always as many
as the elements need. So a cache that `Write` accepts is read back, and unknown fields put into its
header change nothing (`ccache_round_trip`), as long as the file is not larger than what `Read`
takes.
-/

namespace Kerberos.FileCache

open Reader Binfmt List Except Nat Words Reads

variable {encs : List Bytes}

theorem le_length_of_mapM {α : Type} {write : α → Except String Bytes} {size : ℕ}
    (hsize : ∀ v enc, write v = .ok enc → size ≤ enc.length) {values : List α}
    (h : values.mapM write = .ok encs) : values.length * size ≤ encs.flatten.length := by
  have hforall := mapM_ok.1 h
  clear h
  induction hforall with
  | nil => simp
  | cons hv _ ih =>
    have hfirst := hsize _ _ hv
    rw [length_cons, flatten_cons, length_append, succ_mul]
    omega

/-- The count is never more than what is left allows. -/
theorem reads_sequence {α : Type} {r : BinReader α} {write : α → Except String Bytes} {size : ℕ}
    (hpos : 0 < size)
    (hsize : ∀ v enc, write v = .ok enc → size ≤ enc.length)
    (hr : ∀ v enc, write v = .ok enc → Reads r enc (.ok v))
    {values : List α} (h : values.mapM write = .ok encs) (hcount : values.length < 2 ^ 32)
    (invalid : String) :
    Reads (sequence (UInt32.ofNat values.length) size invalid r) encs.flatten (.ok values) := by
  refine get fun rest => ?_
  have hroom : decide ((UInt32.ofNat values.length).toNat ≤ (encs.flatten ++ rest).length / size) =
      true := by
    rw [decide_eq_true_eq, UInt32.toNat_ofNat_of_lt' hcount, le_div_iff_mul_le hpos, length_append]
    exact (le_length_of_mapM hsize h).trans (Nat.le_add_right ..)
  have hmany := reads_many h hr
  rw [← UInt32.toNat_ofNat_of_lt' hcount] at hmany
  exact quiet (check hroom _) hmany rest

variable {enc : Bytes} {value : Bytes}

theorem length_counted32 (h : writeCounted32 value = .ok enc) : enc.length = value.length + 4 := by
  obtain ⟨_, -, h⟩ := bind_ok.1 h
  obtain rfl := ok.inj h
  rw [length_append, length_beBytes, add_comm]

theorem reads_principal {p : Principal} (h : encodePrincipal p = .ok enc) :
    Reads principalReader enc (.ok p) := by
  obtain ⟨_, -, h⟩ := bind_ok.1 h
  obtain ⟨hcount, h⟩ := ensure_bind_ok.1 h
  obtain ⟨realm, hrealm, h⟩ := bind_ok.1 h
  obtain ⟨components, hcomponents, h⟩ := bind_ok.1 h
  obtain rfl := ok.inj h
  have hsequence :=
    reads_sequence (by decide) (fun v enc hv => (length_counted32 hv).ge.trans' (le_add_left 4 _))
    (fun _ _ => reads_counted32) hcomponents hcount "invalid principal component count"
  refine step (reads_u32 _) (step (reads_u32_of_lt hcount) (step (reads_counted32 hrealm) ?_))
  refine final hsequence (pure_eq ?_)
  rw [Int32.toInt32_toUInt32]

theorem reads_typed {v : Typed} (h : encodeTyped v = .ok enc) :
    Reads typedReader enc (.ok v) ∧ 6 ≤ enc.length := by
  obtain ⟨data, hdata, h⟩ := bind_ok.1 h
  obtain rfl := ok.inj h
  refine ⟨step (reads_u16 _) (final (reads_counted32 hdata) (pure _)), ?_⟩
  rw [length_append, length_beBytes, length_counted32 hdata]
  omega

theorem reads_typedList {values : List Typed} {tooMany : String}
    (h : writeTyped tooMany values = .ok enc)
    (invalid : String) : Reads (typedList invalid) enc (.ok values) := by
  obtain ⟨hcount, h⟩ := ensure_bind_ok.1 h
  obtain ⟨encoded, hencoded, h⟩ := bind_ok.1 h
  obtain rfl := ok.inj h
  exact step (reads_u32_of_lt hcount) (reads_sequence (by decide) (fun _ _ hv => (reads_typed hv).2)
    (fun _ _ hv => (reads_typed hv).1) hencoded hcount invalid)

theorem reads_credential {c : Credential} (h : encodeCredential c = .ok enc) :
    Reads credentialReader enc (.ok c) ∧ enc ≠ [] := by
  obtain ⟨client, hclient, h⟩ := bind_ok.1 h
  obtain ⟨server, hserver, h⟩ := bind_ok.1 h
  obtain ⟨⟨htype, htype'⟩, h⟩ := ensure_bind_ok.1 h
  obtain ⟨key, hkey, h⟩ := bind_ok.1 h
  obtain ⟨addresses, haddresses, h⟩ := bind_ok.1 h
  obtain ⟨authData, hauthData, h⟩ := bind_ok.1 h
  obtain ⟨ticket, hticket, h⟩ := bind_ok.1 h
  obtain ⟨secondTicket, hsecond, h⟩ := bind_ok.1 h
  obtain rfl := ok.inj h
  have htype16 : c.enctype.toInt.toNat < 2 ^ 16 := by omega
  have hskey : Reads u8 (beBytes 1 c.isSKey.toNat) (.ok c.isSKey.toUInt8) := by
    cases c.isSKey
    · exact reads_u8 0
    · exact reads_u8 1
  constructor
  · refine step (reads_principal hclient)
      (step (reads_principal hserver) (step (reads_u16_of_lt htype16) ?_))
    refine step (reads_counted32 hkey)
      (step (reads_u32 _) (step (reads_u32 _) (step (reads_u32 _) ?_)))
    refine step (reads_u32 _) (step hskey (quiet (check (by cases c.isSKey <;> decide) _) ?_))
    refine step (reads_u32 _)
      (step (reads_typedList haddresses _) (step (reads_typedList hauthData _) ?_))
    refine step (reads_counted32 hticket) (final (reads_counted32 hsecond) (pure_eq ?_))
    have henctype : Int32.ofNat (UInt16.ofNat c.enctype.toInt.toNat).toNat = c.enctype := by
      rw [UInt16.toNat_ofNat_of_lt' htype16, ← Int32.ofInt_eq_ofNat, Int.toNat_of_nonneg htype,
        Int32.ofInt_toInt]
    have hbool : (c.isSKey.toUInt8 != 0) = c.isSKey := by cases c.isSKey <;> decide
    rw [henctype, hbool]
  · intro hnil
    have hlength := congrArg List.length hnil
    simp only [length_append, length_beBytes, length_nil] at hlength
    omega

theorem readCredentials_written {credentials : List Credential}
    (h : (credentials.mapM fun c => (encodeCredential c).within "write ccache credential: ") =
      .ok encs) {fuel : ℕ}
    (hfuel : encs.flatten.length ≤ fuel) : readCredentials fuel encs.flatten = .ok credentials := by
  have hforall := mapM_ok.1 h
  clear h
  induction hforall generalizing fuel with
  | nil => cases fuel <;> rfl
  | @cons c enc credentials encs hc hrest ih =>
    obtain ⟨hreads, hsome⟩ := reads_credential (within_ok.1 hc)
    have hpos := length_pos_iff.2 hsome
    rw [flatten_cons, length_append] at hfuel
    obtain ⟨fuel, rfl⟩ := Nat.exists_eq_add_of_lt (show 0 < fuel by omega)
    rw [zero_add, flatten_cons, readCredentials, if_neg (by simp [hsome]), hreads]
    simp only [Except.map, within, Except.mapError, ok_bind,
      ih (show encs.flatten.length ≤ fuel by omega)]

/-! ## Headers -/

/-- Fields that `parseHeader` does not know. -/
def Unknown (fields : List (UInt16 × Bytes)) : Prop :=
  ∀ field ∈ fields, field.1 ≠ 1 ∧ field.2.length < 2 ^ 16

def encodeTags (fields : List (UInt16 × Bytes)) : Bytes :=
  fields.flatMap fun field => encodeTag field.1 field.2

theorem reads_tag (tag : UInt16) (h : value.length < 2 ^ 16) :
    Reads tagReader (encodeTag tag value) (.ok (tag, value)) := by
  refine step (reads_u16 _) (step (reads_u16_of_lt h) (final (take ?_ _) (pure _)))
  rw [UInt16.toNat_ofNat_of_lt' h]

theorem parseHeader_tag {tag : UInt16} (h : value.length < 2 ^ 16) (fuel : ℕ) (header : Header)
    (rest : Bytes) :
    parseHeader (fuel + 1) header (encodeTag tag value ++ rest) =
      (if tag = 1 then do
        Except.ensure (value.length = 8) "invalid time offset field length"
        parseHeader fuel ⟨(UInt32.ofNat (ofBE (value.take 4))).toInt32,
          (UInt32.ofNat (ofBE (value.drop 4))).toInt32⟩ rest
      else parseHeader fuel header rest) := by
  have hsome : encodeTag tag value ++ rest ≠ [] := by
    intro hnil
    have hlength := congrArg length hnil
    simp only [encodeTag, length_append, length_beBytes, length_nil] at hlength
    omega
  rw [parseHeader, reads_tag tag h]
  rfl

theorem parseHeader_unknown {fields : List (UInt16 × Bytes)} (h : Unknown fields) {fuel : ℕ}
    {header : Header} {rest : Bytes}
    (hfuel : (encodeTags fields ++ rest).length ≤ fuel) :
    ∃ fuel', rest.length ≤ fuel' ∧ parseHeader fuel header (encodeTags fields ++ rest) =
      parseHeader fuel' header rest := by
  induction fields generalizing fuel with
  | nil => exact ⟨fuel, hfuel, rfl⟩
  | cons field fields ih =>
    obtain ⟨⟨htag, hlength⟩, hrest⟩ := forall_mem_cons.1 h
    have hcons : encodeTags (field :: fields) ++ rest =
        encodeTag field.1 field.2 ++ (encodeTags fields ++ rest) :=
      append_assoc ..
    rw [hcons] at hfuel ⊢
    simp only [encodeTag, length_append, length_beBytes] at hfuel
    obtain ⟨fuel, rfl⟩ := Nat.exists_eq_add_of_lt (show 0 < fuel by omega)
    rw [parseHeader_tag hlength, if_neg htag]
    exact ih hrest (by rw [length_append]; omega)

theorem parseHeader_written {before after : List (UInt16 × Bytes)} (hbefore : Unknown before)
    (hafter : Unknown after)
    (header start : Header) {fuel : ℕ}
    (hfuel : (encodeTags before ++ (timeField header ++ encodeTags after)).length ≤ fuel) :
    parseHeader fuel start (encodeTags before ++ (timeField header ++ encodeTags after)) =
      .ok header := by
  obtain ⟨fuel, hfuel, hskip⟩ := @parseHeader_unknown _ hbefore _ start _ hfuel
  have hfour : ∀ v : Int32, UInt32.ofNat (ofBE (beBytes 4 v.toUInt32.toNat)) = v.toUInt32 := by
    intro v
    rw [ofBE_beBytes v.toUInt32.toNat_lt, UInt32.ofNat_toNat]
  simp only [timeField, encodeTag, length_append, length_beBytes] at hfuel
  obtain ⟨fuel, rfl⟩ := Nat.exists_eq_add_of_lt (show 0 < fuel by omega)
  obtain ⟨fuel', -, hend⟩ :=
    @parseHeader_unknown _ hafter fuel header [] (by rw [append_nil]; omega)
  rw [hskip, zero_add, timeField, parseHeader_tag (by simp), take_left' (length_beBytes ..),
    drop_left' (length_beBytes ..), hfour, hfour]
  rw [append_nil] at hend
  exact hend.trans (by cases fuel' <;> rfl)

theorem read_fileOf {cache : Cache} {body : Bytes} (h : writeBody cache = .ok body)
    {before after : List (UInt16 × Bytes)}
    (hbefore : Unknown before) (hafter : Unknown after)
    (hlength : (encodeTags before ++ (timeField cache.header ++ encodeTags after)).length <
      2 ^ 16) :
    read (fileOf (encodeTags before ++ (timeField cache.header ++ encodeTags after)) body) =
      .ok cache ↔
      (fileOf (encodeTags before ++ (timeField cache.header ++ encodeTags after)) body).length ≤
        maxCacheInput := by
  obtain ⟨principal, hprincipal, h⟩ := bind_ok.1 h
  obtain ⟨credentials, hcredentials, h⟩ := bind_ok.1 h
  obtain rfl := ok.inj h
  have hheader := parseHeader_written hbefore hafter cache.header {} le_rfl
  generalize encodeTags before ++ (timeField cache.header ++ encodeTags after) =
    fields at hlength hheader ⊢
  constructor
  · intro hread
    obtain ⟨hsize, -⟩ := ensure_bind_ok.1 hread
    exact hsize
  · intro hsize
    have hbytes : Reads (bytes (UInt16.ofNat fields.length).toNat) fields (.ok fields) :=
      take (UInt16.toNat_ofNat_of_lt' hlength).symm _
    rw [read, ensure_bind hsize, fileOf, reads_u16]
    simp only [Except.map, within, Except.mapError, ok_bind]
    rw [ensure_bind trivial, reads_u16_of_lt hlength]
    simp only [Except.map, ok_bind]
    rw [hbytes]
    simp only [Except.map, ok_bind, hheader]
    rw [reads_principal (within_ok.1 hprincipal)]
    simp only [Except.map, ok_bind, readCredentials_written hcredentials le_rfl]

/-- **A cache that `Write` accepts is read back**, and so it is with any fields that are not known
put into its header: exactly if the file that is read has at most 64 MiB. -/
theorem ccache_round_trip (cache : Cache) (data : Bytes) (h : write cache = .ok data) :
    (read data = .ok cache ↔ data.length ≤ maxCacheInput) ∧
      ∃ body, writeBody cache = .ok body ∧ data = fileOf (timeField cache.header) body ∧
        ∀ before after, Unknown before → Unknown after →
          (encodeTags before ++ (timeField cache.header ++ encodeTags after)).length < 2 ^ 16 →
          (read (fileOf (encodeTags before ++ (timeField cache.header ++ encodeTags after)) body) =
            .ok cache ↔
            (fileOf (encodeTags before ++ (timeField cache.header ++ encodeTags after))
              body).length ≤ maxCacheInput) := by
  obtain ⟨body, hbody, hdata⟩ := bind_ok.1 h
  obtain rfl := ok.inj hdata
  have hnone : Unknown [] := nofun
  have hplain := read_fileOf hbody hnone hnone (by simp [encodeTags, timeField, encodeTag])
  exact ⟨hplain, body, hbody, rfl,
    fun before after hbefore hafter => read_fileOf hbody hbefore hafter⟩

/-- A cache with a credential. -/
theorem ccache_round_trip_sample :
    let user : Principal := ⟨str "R", 1, [str "u"]⟩
    let cache : Cache :=
      ⟨⟨-5, 6⟩, user, [⟨user, user, 18, [1], 2, 3, 4, 5, 6, true, [⟨2, [9]⟩], [], [7, 8], []⟩]⟩
    ∃ data, write cache = .ok data ∧ read data = .ok cache := by
  intro user cache
  have hlength : (write cache).toOption.map length = some 123 := by decide +kernel
  obtain ⟨data, hdata, hlength⟩ := Option.map_eq_some_iff.1 hlength
  have hdata := toOption_some.1 hdata
  refine ⟨data, hdata, (ccache_round_trip cache data hdata).1.2 ?_⟩
  rw [hlength]
  decide

/-- A cache of 64 MiB that is not read any more with a field of four bytes in its header. -/
theorem ccache_tag_too_large :
    ∃ cache body, write cache = .ok (fileOf (timeField cache.header) body) ∧
    (fileOf (timeField cache.header) body).length ≤ maxCacheInput ∧ Unknown [(2, [])] ∧
    read (fileOf (encodeTags [(2, [])] ++ timeField cache.header) body) =
      .error "read ccache: input too large" := by
  obtain ⟨realm, hrealm⟩ : ∃ realm : Bytes, realm.length = 2 ^ 26 - 28 :=
    ⟨replicate _ 0, length_replicate⟩
  have hsmall : realm.length < 2 ^ 32 := by omega
  obtain ⟨body, hbody, hlength⟩ : ∃ body, writeBody ⟨{}, ⟨realm, 1, []⟩, []⟩ = .ok body ∧
      body.length = 2 ^ 26 - 16 := by
    refine ⟨(beBytes 4 1 ++ (beBytes 4 0 ++ ((beBytes 4 realm.length ++ realm) ++ []))) ++ [], ?_,
      ?_⟩
    · simp only [writeBody, encodePrincipal, writeCounted32, ensure_bind hsmall]
      rfl
    · simp only [length_append, hrealm]
      decide
  refine ⟨⟨{}, ⟨realm, 1, []⟩, []⟩, body, by rw [write, hbody, ok_bind], ?_, by simp [Unknown], ?_⟩
  · simp only [fileOf, length_append, hlength]
    decide
  · rw [read, ensure_of_not, error_bind]
    simp only [fileOf, length_append, hlength]
    decide

end Kerberos.FileCache
