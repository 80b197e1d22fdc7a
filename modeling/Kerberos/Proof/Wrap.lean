import Kerberos.Spec.IOV

/-!
# What one side sends the other opens

Two contexts are peers if they have the same key and opposite directions, and one receives next what
the other sends next. What one side sends then passes on the other. Of the enctype, decryption has
to invert encryption and a checksum has to be verified by the key and the usage it was made with.
-/

namespace Kerberos

open List Words

/-- What the messages of a context rest on. The number of a checksum's bytes has two bytes in a
header. -/
structure EType.Lawful (etype : EType) : Prop where
  decrypt_encrypt : ∀ key usage plain cipher, etype.encrypt key usage plain = some cipher →
    etype.decrypt key usage cipher = some plain
  verify_checksum : ∀ key usage data mac, etype.checksum key usage data = some mac →
    etype.verifyChecksum key usage data mac = true
  length_checksum : ∀ key usage data mac, etype.checksum key usage data = some mac →
    mac.length = etype.checksumSize
  checksumSize_lt : etype.checksumSize < 65536

namespace GSS

/-! ## Headers -/

/-- The header of a message of a context, sealed or only signed. -/
def Context.header (c : Context) (sealed : Bool) (ec : ℕ) : Bytes :=
  messageHeader [0x05, 0x04] (bif sealed then c.sendFlags ||| tokenFlagSealed else c.sendFlags)
    ec 0 c.sendSeq

/-- What the header says. -/
def Context.fields (c : Context) (sealed : Bool) (ec : ℕ) : Header :=
  ⟨[0x05, 0x04], bif sealed then c.sendFlags ||| tokenFlagSealed
    else c.sendFlags, 0xff :: (beBytes 2 ec ++ [0, 0]),
    ec, 0, c.sendSeq⟩

@[simp]
theorem fields_ec (c : Context) (sealed : Bool) (ec : ℕ) : (c.fields sealed ec).ec = ec := rfl

theorem messageHeader_fields (c : Context) (sealed : Bool) (ec ec' : ℕ) :
    messageHeader (c.fields sealed ec).tokenID
    (c.fields sealed ec).flags ec' 0 (c.fields sealed ec).seq = c.header sealed ec' := rfl

@[simp]
theorem fields_rrc (c : Context) (sealed : Bool) (ec : ℕ) : (c.fields sealed ec).rrc = 0 := rfl

@[simp]
theorem length_header (c : Context) (sealed : Bool) (ec : ℕ) :
    (c.header sealed ec).length = 16 := by
  simp only [Context.header, messageHeader, length_append, length_cons, length_nil, length_beBytes]

theorem header_eq (c : Context) (sealed : Bool) (ec : ℕ) : ∃ e₁ e₀, beBytes 2 ec = [e₁, e₀] ∧
    c.header sealed ec = 0x05 :: 0x04 :: (c.fields sealed ec).flags :: 0xff :: e₁ :: e₀ :: 0 :: 0 ::
      beBytes 8 c.sendSeq.toNat := by
  obtain ⟨e₁, e₀, he⟩ := length_eq_two.1 (length_beBytes 2 ec)
  refine ⟨e₁, e₀, he, ?_⟩
  rw [Context.header, messageHeader, he]
  rfl

theorem ofNat_ofBE_seq (seq : UInt64) : UInt64.ofNat (ofBE (beBytes 8 seq.toNat)) = seq := by
  rw [ofBE_beBytes (by have := seq.toNat_lt; omega), UInt64.ofNat_toNat]

theorem take_seq (seq : UInt64) (rest : Bytes) :
    (beBytes 8 seq.toNat ++ rest).take 8 = beBytes 8 seq.toNat := by
  have h : (beBytes 8 seq.toNat ++ rest).take (beBytes 8 seq.toNat).length = _ := take_left
  rwa [length_beBytes] at h

variable {ec : ℕ}

/-- The header of a message reads back, whatever follows it. -/
theorem headerOf_header (c : Context) (sealed : Bool) (hec : ec < 65536) (rest : Bytes) :
    Context.headerOf (c.header sealed ec ++ rest) = c.fields sealed ec := by
  obtain ⟨e₁, e₀, he, hheader⟩ := header_eq c sealed ec
  have hec' : ofBE [e₁, e₀] = ec := by rw [← he, ofBE_beBytes (by omega)]
  have hseq : tokenSeq (c.header sealed ec ++ rest) = c.sendSeq := by
    exact (congrArg (fun b => UInt64.ofNat (ofBE b)) (take_seq c.sendSeq rest)).trans
      (ofNat_ofBE_seq c.sendSeq)
  rw [Context.headerOf, hseq, hheader, Context.fields, he]
  simp only [take_succ_cons, take_zero, drop_succ_cons, drop_zero, hec', cons_append]
  rfl

theorem parseMessage_header (c : Context) (sealed : Bool) (hec : ec < 65536) (payload : Bytes) :
    parseMessage (c.header sealed ec ++ payload) [0x05, 0x04] =
      some (c.fields sealed ec, payload) := by
  have hguard : 16 ≤ (c.header sealed ec ++ payload).length ∧
    (c.header sealed ec ++ payload).take 2 = [0x05, 0x04] ∧
      (c.header sealed ec ++ payload)[3]? = some 0xff := by
    refine ⟨?_, rfl, rfl⟩
    rw [length_append, length_header]
    omega
  have hfields := congrArg (fun h : Header => { h with tokenID := [0x05, 0x04] })
    (headerOf_header c sealed hec payload)
  exact congrArg (fun h => some (h, payload)) hfields

/-! ## Peers -/

/-- The second context receives next what the first sends next. -/
structure Peers (c d : Context) : Prop where
  key : d.key = c.key
  direction : d.initiator = !c.initiator
  sequence : d.recvSeq = c.sendSeq

/-- A usage of one direction, as both sides choose it. -/
theorem Peers.usage {c d : Context} (h : Peers c d) (a b : ℕ) :
    (if d.initiator then a else b) = if c.initiator then b else a := by
  rw [h.direction]
  cases c.initiator <;> rfl

theorem fields_sealed (c : Context) (sealed : Bool) (ec : ℕ) :
    (c.fields sealed ec).flags &&& tokenFlagSealed ≠ 0 ↔ sealed = true := by
  unfold Context.fields Context.sendFlags
  dsimp only
  cases c.initiator <;> cases c.acceptorSubkey <;> cases sealed <;> decide

theorem Peers.validateIncoming {c d : Context} (h : Peers c d) {header : Header} (sealed : Bool)
    (hflags : header.flags = bif sealed then c.sendFlags ||| tokenFlagSealed else c.sendFlags)
    (hseq : header.seq = c.sendSeq) : d.validateIncoming header = some () := by
  have hdirection : header.flags &&& tokenFlagSentByAcceptor =
      if d.initiator then tokenFlagSentByAcceptor else 0 := by
    rw [hflags, h.direction, Context.sendFlags]
    cases c.initiator <;> cases c.acceptorSubkey <;> cases sealed <;> decide
  rw [Context.validateIncoming, guard, if_pos ⟨hdirection, hseq.trans h.sequence.symm⟩]
  rfl

/-! ## Messages -/

variable {E : Env} {c d : Context} {etype : EType}

theorem rotateLeft_zero (data : Bytes) : rotateLeft data 0 = data := rotate_zero data

variable {data : Bytes}

/-- A message with the header of a peer, up to its content. -/
theorem Peers.unwrap_header (h : Peers c d) (hetype : E.ap.etype c.key.keyType = some etype)
    {sealed : Bool}
    (hec : ec < 65536) {payload : Bytes}
    (hopen : d.openMessage etype (c.fields sealed ec) payload = some data) :
    d.unwrap E (c.header sealed ec ++ payload) =
      some (data, { d with recvSeq := d.recvSeq + 1 }) := by
  have hvalid := @Peers.validateIncoming _ _ h (c.fields sealed ec) sealed rfl rfl
  rw [← h.key] at hetype
  rw [Context.unwrap, parseMessage_header c sealed hec]
  simp only [Option.bind_eq_bind, Option.bind_some, hvalid, hetype, fields_rrc,
    rotateLeft_zero, hopen]
  rfl

/-- A sealed message is opened. A count of extra bytes is left to contexts of the DCE style. -/
theorem Peers.unwrap_sealed (h : Peers c d) (hetype : E.ap.etype c.key.keyType = some etype)
    (hlawful : etype.Lawful)
    (hec : ec < 65536) (hstyle : ec = 0 ∨ d.dceStyle = true) {payload : Bytes}
    (hencrypt : etype.encrypt c.key.keyValue (if c.initiator then 24 else 22)
      (data ++ c.header true ec) = some payload) :
    d.unwrap E (c.header true ec ++ payload) =
      some (data, { d with recvSeq := d.recvSeq + 1 }) := by
  have hdecrypt := hlawful.decrypt_encrypt _ _ _ _ hencrypt
  rw [← h.key, ← h.usage] at hdecrypt
  have hend : (data ++ c.header true ec).length - 16 = data.length := by
    rw [length_append, length_header, Nat.add_sub_cancel]
  refine h.unwrap_header hetype hec ?_
  rw [Context.openMessage, if_pos ((fields_sealed c true ec).2 rfl), Context.openSealed, hdecrypt]
  simp only [Option.bind_eq_bind, Option.bind_some, messageHeader_fields]
  rcases hstyle with rfl | hstyle
  · simp
  · simp [hstyle]

/-- A signed message is opened. -/
theorem Peers.unwrap_signed (h : Peers c d) (hetype : E.ap.etype c.key.keyType = some etype)
    (hlawful : etype.Lawful)
    {mac : Bytes}
    (hchecksum : etype.checksum c.key.keyValue (if c.initiator then 24 else 22)
      (data ++ c.header false 0) = some mac) :
    d.unwrap E (c.header false etype.checksumSize ++ (data ++ mac)) =
      some (data, { d with recvSeq := d.recvSeq + 1 }) := by
  have hverify := hlawful.verify_checksum _ _ _ _ hchecksum
  rw [← h.key, ← h.usage] at hverify
  have hmac := hlawful.length_checksum _ _ _ _ hchecksum
  have hsplit : (data ++ mac).length - etype.checksumSize = data.length := by
    rw [length_append, hmac, Nat.add_sub_cancel]
  refine h.unwrap_header hetype hlawful.checksumSize_lt ?_
  rw [Context.openMessage, if_neg (by simp [fields_sealed]), Context.openSigned]
  simp only [fields_ec, hsplit, drop_left, take_left, messageHeader_fields, hverify, guard]
  rw [if_pos ⟨trivial, by rw [length_append]; omega⟩]
  rfl

/-! ## A sample -/

namespace Sample

/-- A cipher that hides nothing: a block before the text and a checksum of zeros after it. -/
def plainEType : EType where
  id := 18
  keySize := 0
  checksumSize := 12
  encrypt _ _ plain := some (List.replicate 16 0 ++ plain ++ List.replicate 12 0)
  decrypt _ _ cipher := some ((cipher.drop 16).take (cipher.length - 28))
  checksum _ _ _ := some (List.replicate 12 0)
  verifyChecksum _ _ _ mac := mac == List.replicate 12 0

def plainEnv : Env where
  ap :=
    { etype := fun _ => some plainEType
      apReq := fun _ => none
      encTicketPart := fun _ => none
      authenticator := fun _ => none
      verifyService := fun data _ => .ok data
      sha256 := fun _ => [] }
  ifRelevant := fun _ => none
  readKRBCred := fun _ _ => false
  buildAPRep := fun _ => none

/-- Plain text between zeros is found by its place. -/
theorem between_zeros (plain : Bytes) (size : ℕ) {cipher : Bytes}
    (hcipher : List.replicate 16 0 ++ plain ++ List.replicate size 0 = cipher) :
    (cipher.drop 16).take (cipher.length - 16 - size) = plain := by
  rw [← hcipher, append_assoc, drop_left' length_replicate]
  refine take_left' ?_
  simp only [length_append, length_replicate]
  omega

theorem lawful_plainEType : plainEType.Lawful where
  decrypt_encrypt := by
    intro key usage plain cipher hencrypt
    exact congrArg some (between_zeros plain 12 (Option.some.inj hencrypt))
  verify_checksum := by
    rintro key usage data mac hchecksum
    obtain rfl := Option.some.inj hchecksum
    rfl
  length_checksum := by
    rintro key usage data mac hchecksum
    obtain rfl := Option.some.inj hchecksum
    rfl
  checksumSize_lt := by decide

def someone : Principal := ⟨[], 1, []⟩

def sender : Context where
  key := ⟨18, []⟩
  initiator := true
  ticketFlags := 0
  source := someone
  target := someone

def receiver (dceStyle : Bool) : Context := { sender with initiator := false, dceStyle }

theorem peers (dceStyle : Bool) : Peers sender (receiver dceStyle) := ⟨rfl, rfl, rfl⟩

end Sample

end GSS

end Kerberos
