import Kerberos.Lib.Except
import Kerberos.Lib.Disk
import Kerberos.Lib.Words
import Kerberos.Spec.Server

/-!
# NegoEx messages

`negoex.go` of the package `spnego`: the messages of MS-NEGOEX, their encoding and the state of a
conversation. A message has a header of 40 octets and one of its type's own; vectors are given by an
offset from the start of the message and a length, and stand behind the headers. Arrays are byte
strings of a fixed size.

Both sides number their messages in one sequence, and every message carries the identifier of the
conversation. A VERIFY message has a checksum over all messages before it.
-/

namespace Kerberos.NegoEx

open Words
open Disk (slice)

/-- An array of `n` octets. -/
abbrev Octets (n : ℕ) := { data : Bytes // data.length = n }

/-- `copy` into a zero array. -/
def fixed (n : ℕ) (data : Bytes) : Octets n :=
  ⟨data.take n ++ List.replicate (n - data.length) 0, by
  rw [List.length_append, List.length_take, List.length_replicate]
  omega⟩

abbrev AuthScheme := Octets 16

inductive MessageType
  | initiatorNego
  | acceptorNego
  | initiatorMetaData
  | acceptorMetaData
  | challenge
  | apRequest
  | verify
  | alert
  deriving DecidableEq

def MessageType.code : MessageType → ℕ
  | .initiatorNego => 0
  | .acceptorNego => 1
  | .initiatorMetaData => 2
  | .acceptorMetaData => 3
  | .challenge => 4
  | .apRequest => 5
  | .verify => 6
  | .alert => 7

def MessageType.ofCode : ℕ → Option MessageType
  | 0 => some .initiatorNego
  | 1 => some .acceptorNego
  | 2 => some .initiatorMetaData
  | 3 => some .acceptorMetaData
  | 4 => some .challenge
  | 5 => some .apRequest
  | 6 => some .verify
  | 7 => some .alert
  | _ => none

/-- How the messages of a type are laid out. -/
inductive Layout
  | nego
  | exchange
  | verify
  | alert
  deriving DecidableEq

def MessageType.layout : MessageType → Layout
  | .initiatorNego | .acceptorNego => .nego
  | .initiatorMetaData | .acceptorMetaData | .challenge | .apRequest => .exchange
  | .verify => .verify
  | .alert => .alert

def baseHeaderSize : ℕ := 40

def Layout.headerSize : Layout → ℕ
  | .nego => 96
  | .exchange => 64
  | .verify => 80
  | .alert => 72

/-- An extension or an alert: a type and a value. -/
structure Item where
  type : UInt32
  value : Bytes
  deriving DecidableEq

structure Message where
  type : MessageType
  sequence : UInt32 := 0
  conversationID : Octets 16 := fixed 16 []
  random : Octets 32 := fixed 32 []
  authSchemes : List AuthScheme := []
  extensions : List Item := []
  authScheme : AuthScheme := fixed 16 []
  token : Bytes := []
  checksumType : UInt32 := 0
  checksum : Bytes := []
  alertCode : UInt32 := 0
  alerts : List Item := []
  offset : ℕ := 0
  deriving DecidableEq

def signature : ℕ := 0x535458454f47454e

def checksumSchemeRFC3961 : ℕ := 1

def critical (type : UInt32) : Bool := type &&& 0x80000000 ≠ 0

/-! ## Encoding -/

/-- The descriptors of a vector of items whose values follow from `offset` on. -/
def descriptors : ℕ → List Item → Bytes
  | _, [] => []
  | offset, item :: items =>
    leBytes 4 item.type.toNat ++ leBytes 4 offset ++ leBytes 4 item.value.length ++
      descriptors (offset + item.value.length) items

def values (items : List Item) : Bytes := items.flatMap Item.value

def schemeBytes (schemes : List AuthScheme) : Bytes := schemes.flatMap fun scheme => scheme.1

def negoPayload (m : Message) : Except String Bytes := do
  Except.ensure (¬ (0xffff < m.authSchemes.length ∨ 0xffff < m.extensions.length))
    "NegoEx: vector count exceeds uint16"
  Except.ensure (∀ e ∈ m.extensions, critical e.type = false)
    "NegoEx: unsupported critical extension"
  let schemes := schemeBytes m.authSchemes
  let first := 96 + schemes.length + m.extensions.length * 12
  .ok (m.random.1 ++ List.replicate 8 0 ++ leBytes 4 96 ++ leBytes 2 m.authSchemes.length ++
    leBytes 4 (96 + schemes.length) ++ leBytes 2 m.extensions.length ++ List.replicate 4 0 ++
    schemes ++ descriptors first m.extensions ++ values m.extensions)

def exchangePayload (m : Message) : Bytes :=
  m.authScheme.1 ++ leBytes 4 64 ++ leBytes 4 m.token.length ++ m.token

def verifyPayload (m : Message) : Bytes :=
  m.authScheme.1 ++ leBytes 4 20 ++ leBytes 4 checksumSchemeRFC3961 ++
    leBytes 4 m.checksumType.toNat ++
    leBytes 4 80 ++ leBytes 4 m.checksum.length ++ List.replicate 4 0 ++ m.checksum

def alertPayload (m : Message) : Except String Bytes := do
  Except.ensure (m.alerts ≠ []) "NegoEx: alert message has no alerts"
  Except.ensure (¬ 0xffff < m.alerts.length) "NegoEx: alert count exceeds uint16"
  .ok (m.authScheme.1 ++ leBytes 4 m.alertCode.toNat ++ leBytes 4 72 ++ leBytes 2 m.alerts.length ++
    List.replicate 6 0 ++ descriptors (72 + m.alerts.length * 12) m.alerts ++ values m.alerts)

def payload (m : Message) : Except String Bytes :=
  match m.type.layout with
  | .nego => negoPayload m
  | .exchange => .ok (exchangePayload m)
  | .verify => .ok (verifyPayload m)
  | .alert => alertPayload m

def header (m : Message) (size : ℕ) : Bytes :=
  leBytes 8 signature ++ leBytes 4 m.type.code ++ leBytes 4 m.sequence.toNat ++
    leBytes 4 m.type.layout.headerSize ++ leBytes 4 size ++ m.conversationID.1

/-- `encodeNegoExMessage`. -/
def encodeMessage (m : Message) : Except String Bytes := do
  let body ← payload m
  Except.ensure (¬ body.length + baseHeaderSize < m.type.layout.headerSize)
    "NegoEx: short message header"
  .ok (header m (body.length + baseHeaderSize) ++ body)

/-- `EncodeNegoEx`. -/
def encode (messages : List Message) : Except String Bytes := do
  let parts ← messages.mapM encodeMessage
  .ok parts.flatten

/-! ## Decoding -/

/-- The number in `width` octets from `offset` on, least significant first. -/
def number (data : Bytes) (offset width : ℕ) : ℕ := ofLE (slice data offset width)

def readSchemes (data : Bytes) (offset count : ℕ) : Option (List AuthScheme) := do
  guard (offset + count * 16 ≤ data.length)
  pure ((List.range count).map fun i => fixed 16 (data.drop (offset + i * 16)))

def vector (data : Bytes) (offset length : ℕ) : Option Bytes := do
  guard (offset ≤ data.length ∧ length ≤ data.length - offset)
  pure (slice data offset length)

/-- The loop over the extensions. -/
def readExtensions (data : Bytes) (offset : ℕ) : ℕ → Except String (List Item)
  | 0 => .ok []
  | count + 1 => do
    Except.ensure (offset + 12 ≤ data.length) "NegoEx: invalid extension vector"
    let type := UInt32.ofNat (number data offset 4)
    let valueOffset := number data (offset + 4) 4
    let valueLen := number data (offset + 8) 4
    Except.ensure (critical type = false) "NegoEx: unsupported critical extension"
    Except.ensure (valueOffset + valueLen ≤ data.length) "NegoEx: invalid extension value"
    let rest ← readExtensions data (offset + 12) count
    .ok (⟨type, slice data valueOffset valueLen⟩ :: rest)

/-- The loop over the alerts. -/
def readAlerts (data : Bytes) (offset : ℕ) : ℕ → Except String (List Item)
  | 0 => .ok []
  | count + 1 => do
    Except.ensure (offset + 12 ≤ data.length) "NegoEx: invalid alert vector"
    let value ← Except.ofOption "NegoEx: invalid alert value"
      (vector data (number data (offset + 4) 4) (number data (offset + 8) 4))
    let rest ← readAlerts data (offset + 12) count
    .ok (⟨UInt32.ofNat (number data offset 4), value⟩ :: rest)

/-- A vector that is missing is an error unless it is to be empty. -/
def present {α : Type} (vector : Option (List α)) (count : ℕ) (err : String) :
    Except String (List α) :=
  match vector with
  | some v => .ok v
  | none => if count = 0 then .ok [] else .error err

def readNego (data : Bytes) (headerSize : ℕ) (m : Message) : Except String Message := do
  Except.ensure (headerSize = 96) "NegoEx: invalid negotiation header"
  Except.ensure (number data 72 8 = 0) "NegoEx: unsupported protocol version"
  let schemes ← present (readSchemes data (number data 80 4) (number data 84 2)) (number data 84 2)
    "NegoEx: invalid auth schemes vector"
  let extensionOffset := number data 86 4
  let extensionCount := number data 90 2
  Except.ensure (extensionOffset ≤ data.length ∧
    extensionCount ≤ (data.length - extensionOffset) / 12)
    "NegoEx: invalid extension vector"
  let extensions ← readExtensions data extensionOffset extensionCount
  .ok { m with random := fixed 32 (slice data 40 32), authSchemes := schemes, extensions }

def readExchange (data : Bytes) (headerSize : ℕ) (m : Message) : Except String Message := do
  Except.ensure (headerSize = 64) "NegoEx: invalid exchange header"
  let token ← present (vector data (number data 56 4) (number data 60 4)) (number data 60 4)
    "NegoEx: invalid exchange vector"
  .ok { m with authScheme := fixed 16 (slice data 40 16), token }

def readVerify (data : Bytes) (headerSize : ℕ) (m : Message) : Except String Message := do
  Except.ensure (headerSize = 80) "NegoEx: invalid verify header"
  Except.ensure (number data 56 4 = 20 ∧ number data 60 4 = checksumSchemeRFC3961)
    "NegoEx: unsupported checksum scheme"
  let checksum ← present (vector data (number data 68 4) (number data 72 4)) (number data 72 4)
    "NegoEx: invalid checksum vector"
  .ok { m with
    authScheme := fixed 16 (slice data 40 16), checksumType :=
      UInt32.ofNat (number data 64 4), checksum }

def readAlert (data : Bytes) (headerSize : ℕ) (m : Message) : Except String Message := do
  Except.ensure (headerSize = 72) "NegoEx: invalid alert header"
  let offset := number data 60 4
  let count := number data 64 2
  Except.ensure (offset ≤ data.length ∧ count ≤ (data.length - offset) / 12)
    "NegoEx: invalid alert vector"
  let alerts ← readAlerts data offset count
  .ok { m with
    authScheme := fixed 16 (slice data 40 16), alertCode :=
      UInt32.ofNat (number data 56 4), alerts }

/-- What follows the first 40 octets, by the type. `data` is the message and nothing else. -/
def readBody (data : Bytes) (headerSize : ℕ) (m : Message) : Except String Message :=
  match m.type.layout with
  | .nego => readNego data headerSize m
  | .exchange => readExchange data headerSize m
  | .verify => readVerify data headerSize m
  | .alert => readAlert data headerSize m

/-- `decodeNegoExMessage`: the message and its size. There is no expected number before the first
message. -/
def decodeMessage (data : Bytes) (expected : Option ℕ) (conversation : Octets 16) :
    Except String (Message × ℕ) := do
  Except.ensure (baseHeaderSize ≤ data.length) "NegoEx: truncated message header"
  Except.ensure (number data 0 8 = signature) "NegoEx: invalid message signature"
  let sequence := number data 12 4
  let conversationID := fixed 16 (slice data 24 16)
  let headerSize := number data 16 4
  let messageSize := number data 20 4
  Except.ensure (∀ n ∈ expected, sequence = n) "NegoEx: message out of sequence"
  Except.ensure (∀ n ∈ expected, 0 < n → conversationID = conversation)
    "NegoEx: invalid conversation ID"
  Except.ensure
    (¬ (headerSize < baseHeaderSize ∨ messageSize < headerSize ∨ messageSize < baseHeaderSize ∨
    data.length < messageSize)) "NegoEx: invalid message size"
  -- the header is not longer than the message, so "NegoEx: truncated message header" is not met
  -- again
  let type ← Except.ofOption "NegoEx: invalid message type" (MessageType.ofCode (number data 8 4))
  let m ← readBody (data.take messageSize) headerSize
    { type, sequence := UInt32.ofNat sequence, conversationID }
  .ok (m, messageSize)

/-- The loop of `DecodeNegoEx`; the fuel is the number of octets left. -/
def decodeLoop : ℕ → Bytes → Option ℕ → Octets 16 → ℕ → Except String (List Message)
  | _, [], _, _, _ => .ok []
  | 0, _ :: _, _, _, _ => .error "NegoEx: truncated message header"
  | fuel + 1, data@(_ :: _), expected, conversation, offset => do
    let (m, size) ← decodeMessage data expected conversation
    -- the first message gives the conversation
    let conversation := if expected.isNone then m.conversationID else conversation
    let rest ← decodeLoop fuel (data.drop size) (some (m.sequence + 1).toNat) conversation
      (offset + size)
    .ok ({ m with offset } :: rest)

/-- `DecodeNegoEx`. -/
def decode (data : Bytes) : Except String (List Message) :=
  decodeLoop data.length data none (fixed 16 []) 0

/-! ## The state of a conversation -/

/-- `negoExState`. -/
structure State where
  initiator : Bool
  conversation : Octets 16
  sequence : UInt32 := 0
  transcript : Bytes := []
  scheme : AuthScheme
  deriving DecidableEq

namespace State

/-- The messages as they are numbered. -/
def numbered (s : State) : UInt32 → List Message → List Message
  | _, [] => []
  | sequence, m :: messages =>
    { m with sequence, conversationID := s.conversation } :: s.numbered (sequence + 1) messages

def append (s : State) (messages : List Message) : Except String (Bytes × State) := do
  let encoded ← encode (s.numbered s.sequence messages)
  .ok (encoded, { s with
    sequence := s.sequence + UInt32.ofNat messages.length, transcript := s.transcript ++ encoded })

/-- The loop of `validate`. -/
def validateLoop : UInt32 → Octets 16 → List Message → Except String Unit
  | _, _, [] => .ok ()
  | expected, conversation, m :: messages => do
    Except.ensure (¬ (m.sequence ≠ expected ∨ expected ≠ 0 ∧ m.conversationID ≠ conversation))
      "NegoEx: unexpected sequence or conversation ID"
    validateLoop (expected + 1) (if expected = 0 then m.conversationID else conversation) messages

def validate (s : State) (messages : List Message) : Except String Unit :=
  validateLoop s.sequence s.conversation messages

def receive (s : State) (token : Bytes) : Except String (List Message × State) := do
  let messages ← decode token
  s.validate messages
  let conversation := if s.sequence = 0 then
    (messages.head?.map Message.conversationID).getD s.conversation
    else s.conversation
  .ok (messages, { s with
    conversation, transcript := s.transcript ++ token, sequence :=
      s.sequence + UInt32.ofNat messages.length })

def checksumType (enctype : Int32) : UInt32 :=
  if enctype = 17 then 15
  else if enctype = 18 then 16
  else if enctype = 19 then 19
  else if enctype = 20 then 20
  else if enctype = 25 then 17
  else if enctype = 26 then 18
  else 0

/-- `checksum`, under the key `Lucid` gives: the checksum and its type. -/
def checksum (registry : Int32 → Option EType) (s : State) (lucid : Option EncryptionKey) :
    Option (Bytes × UInt32) := do
  let key ← lucid
  let etype ← registry key.keyType
  let sum ← etype.checksum key.keyValue (if s.initiator then 23 else 25) s.transcript
  pure (sum, checksumType key.keyType)

/-- `verify`; `front` is what the token has before the VERIFY message. -/
def verify (registry : Int32 → Option EType) (s : State) (lucid : Option EncryptionKey)
    (m : Message)
    (front : Bytes) : Option Unit := do
  let key ← lucid
  let etype ← registry key.keyType
  guard (etype.verifyChecksum key.keyValue (if s.initiator then 25 else 23)
    (s.transcript ++ front) m.checksum)

end State

end Kerberos.NegoEx
