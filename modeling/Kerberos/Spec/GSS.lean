import Kerberos.Lib.Words
import Kerberos.Spec.AP

/-!
# Security contexts

The acceptor of the package `gssapi` and the messages of an established context (RFC 4121).
`accept` is `AcceptWithPrincipal` of an acceptor that has only a keytab: no name of its own, no
channel bindings and no modules for authorization data.

What fails is reported without its reason: the servers that use a context discard it.
-/

namespace Kerberos.GSS

open Words

/-- The packages around a context, those of the acceptor included. -/
structure Env where
  ap : AP.Env
  /-- The elements of an `AD-IF-RELEVANT`. -/
  ifRelevant : Bytes → Option AuthorizationData
  /-- `ReadKRBCred`: the delegated credentials can be read with the key. -/
  readKRBCred : Bytes → Option EncryptionKey → Bool
  /-- `ap.BuildAPRep`. -/
  buildAPRep : AP.Verified → Option Bytes

def GSSDelegFlag : Flags := flag 0
def GSSMutualFlag : Flags := flag 1
def GSSReplayFlag : Flags := flag 2
def GSSSequenceFlag : Flags := flag 3

def APMutualRequired : Flags := flag 2

def tokenFlagSentByAcceptor : UInt8 := 1
def tokenFlagSealed : UInt8 := 2
def tokenFlagAcceptorSubkey : UInt8 := 4

/-- An established context. -/
structure Context where
  key : EncryptionKey
  initiator : Bool := false
  flags : Flags := 0
  ticketFlags : Flags
  dceStyle : Bool := false
  acceptorSubkey : Bool := false
  source : Principal
  target : Principal
  sendSeq : UInt64 := 0
  recvSeq : UInt64 := 0

def Context.initialTicket (c : Context) : Bool := has c.ticketFlags Ticket.Initial

/-! ## Framing -/

def kerberosOID : Bytes := [0x06, 0x09, 0x2a, 0x86, 0x48, 0x86, 0xf7, 0x12, 0x01, 0x02, 0x02]

/-- `derLength`: the size of the length itself. -/
def derLength (data : Bytes) : Option ℕ :=
  match data with
  | [] => none
  | b :: _ =>
    if b < 128 then some 1
    else
      let n := (b &&& 0x7f).toNat
      if n = 0 ∨ 2 < n ∨ data.length < n + 1 then none else some (n + 1)

def derLengthValue (data : Bytes) : ℕ :=
  match data with
  | [] => 0
  | b :: rest => if b < 128 then b.toNat else ofBE (rest.take (b &&& 0x7f).toNat)

def unframeToken (token tokenID : Bytes) : Option Bytes := do
  guard (2 + tokenID.length ≤ token.length ∧ token.head? = some 0x60)
  let offset ← derLength token.tail
  let content := token.drop (1 + offset)
  guard (1 + offset ≤ token.length ∧ tokenID.length ≤ content.length ∧
    content.length = derLengthValue token.tail)
  guard (kerberosOID <+: content)
  let rest := content.drop kerberosOID.length
  guard (tokenID <+: rest)
  pure (rest.drop tokenID.length)

/-- `appendDERLength`: the length in front of the content. -/
def appendDERLength (content : Bytes) : Bytes :=
  let length := content.length
  if length < 128 then UInt8.ofNat length :: content
  else if length < 256 then 0x81 :: UInt8.ofNat length :: content
  else 0x82 :: UInt8.ofNat (length / 256) :: UInt8.ofNat length :: content

def frameToken (tokenID inner : Bytes) : Bytes :=
  0x60 :: appendDERLength (kerberosOID ++ tokenID ++ inner)

/-! ## The acceptor -/

/-- `parseChecksumExtension`: the extension is well formed. -/
def parseChecksumExtension (data : Bytes) : Option Unit := do
  guard (8 ≤ data.length)
  let length := ofBE ((data.drop 4).take 4)
  guard (ofBE (data.take 4) = 2 ∧ length ≠ 0 ∧ data.length = length + 8)

/-- `checksumData`: the flags, and the credentials that are delegated. -/
def checksumData (checksum : Checksum) : Option (Flags × Bytes) := do
  let data := checksum.checksum
  guard (checksum.checksumType = 0x8003 ∧ 20 ≤ data.length)
  let offset := if 24 ≤ data.length ∧ ofLE (data.take 4) = 16 then 24 else 20
  let flags : Flags := BitVec.ofNat 32 (ofLE ((data.drop (offset - 4)).take 4))
  let rest := data.drop offset
  if !has flags GSSDelegFlag then
    if rest = [] then pure (flags, [])
    else do
      parseChecksumExtension rest
      pure (flags, [])
  else do
    guard (4 ≤ rest.length)
    let optionLength := ofLE ((rest.drop 2).take 2)
    guard (ofLE (rest.take 2) = 1 ∧ optionLength ≠ 0 ∧ 4 + optionLength ≤ rest.length)
    let delegation := (rest.drop 4).take optionLength
    let extension := rest.drop (4 + optionLength)
    if extension = [] then pure (flags, delegation)
    else do
      parseChecksumExtension extension
      pure (flags, delegation)

/-- `verifyChannelBindings` for an acceptor without bindings. -/
def verifyChannelBindings (checksum : Option Checksum) : Option Unit :=
  match checksum with
  | none => some ()
  | some checksum =>
    if checksum.checksumType ≠ 0x8003 then some ()
    else guard (24 ≤ checksum.checksum.length ∧ ofLE (checksum.checksum.take 4) = 16)

def channelBindingAsserted (E : Env) : AuthorizationData → Option Bool
  | [] => some false
  | outer :: rest =>
    if outer.adType ≠ 1 then channelBindingAsserted E rest
    else do
      let inner ← E.ifRelevant outer.adData
      match inner.find? fun entry => entry.adType == 143 with
      | none => channelBindingAsserted E rest
      | some entry => do
        guard (entry.adData.length = 4)
        pure (has (BitVec.ofNat 32 (ofLE entry.adData)) 0x4000)

variable (E : Env)

/-- The flags of the authenticator's checksum, and the credentials that are delegated. -/
def acceptFlags (verified : AP.Verified) : Option (Flags × Bytes) :=
  match verified.checksum with
  | none => some (0, [])
  | some checksum =>
    if checksum.checksumType = 0x8003 then checksumData checksum
    else do
      -- the checksum other implementations make, over nothing
      let etype ← E.ap.etype verified.sessionKey.keyType
      guard (etype.verifyChecksum verified.sessionKey.keyValue 10 [] checksum.checksum)
      let flags := GSSReplayFlag ||| GSSSequenceFlag
      pure (if has verified.apOptions APMutualRequired then flags ||| GSSMutualFlag else flags, [])

def contextKey (session : EncryptionKey) (subkey : Option EncryptionKey) : EncryptionKey :=
  match subkey with
  | some key => if key.keyValue ≠ [] then key else session
  | none => session

/-- The context of a verified request. -/
def contextOf (verified : AP.Verified) (flags : Flags) : Context where
  key := contextKey verified.sessionKey verified.subKey
  ticketFlags := verified.flags
  flags := flags
  recvSeq := (verified.seqNumber.getD 0).toUInt64
  source := verified.client
  target := verified.server

/-- What an acceptor meets: the clock, the replay caches, and random bytes for them. -/
structure Circumstances where
  now : ℤ
  caches : AP.State
  persistent : Bool := false
  random : Bytes := []

/-- Five minutes. -/
def acceptSkew : ℤ := 300 * second

/-- `AcceptWithPrincipal`: the context, the initiator's principal, and the token of the reply. -/
def accept (keytab : List AP.Entry) (w : Circumstances) (token : Bytes) :
    Option (Context × Principal × Bytes) := do
  let inner ← unframeToken token [0x01, 0x00]
  let verified ←
    (AP.verifyAPReqWithOptions E.ap w.random w.persistent keytab inner w.now acceptSkew
      w.caches).1.toOption
  verifyChannelBindings verified.checksum
  let _ ← channelBindingAsserted E verified.authenticatorAuthorizationData
  let (flags, delegation) ← acceptFlags E verified
  guard (delegation = [] ∨
    [verified.subKey, some verified.sessionKey, none].any (E.readKRBCred delegation))
  if has flags GSSMutualFlag then do
    let reply ← E.buildAPRep verified
    pure (contextOf verified flags, verified.client, frameToken [0x02, 0x00] reply)
  else pure (contextOf verified flags, verified.client, [])

/-! ## Messages -/

def messageHeader (tokenID : Bytes) (flags : UInt8) (ec rrc : ℕ) (seq : UInt64) : Bytes :=
  tokenID ++ [flags, 0xff] ++ beBytes 2 ec ++ beBytes 2 rrc ++ beBytes 8 seq.toNat

def micHeader (flags : UInt8) (seq : UInt64) : Bytes :=
  [0x04, 0x04, flags] ++ List.replicate 5 0xff ++ beBytes 8 seq.toNat

/-- A header of 16 bytes. -/
structure Header where
  tokenID : Bytes
  flags : UInt8
  filler : Bytes
  ec : ℕ
  rrc : ℕ
  seq : UInt64

/-- The sequence number of a token of 16 bytes and more. -/
def tokenSeq (token : Bytes) : UInt64 := UInt64.ofNat (ofBE ((token.drop 8).take 8))

/-- `parseMessage`: the header and what follows it. -/
def parseMessage (token tokenID : Bytes) : Option (Header × Bytes) := do
  guard (16 ≤ token.length ∧ token.take 2 = tokenID ∧ token[3]? = some 0xff)
  pure ({ tokenID, flags := token.getD 2 0, filler := (token.drop 3).take 5
          ec := ofBE ((token.drop 4).take 2), rrc := ofBE ((token.drop 6).take 2)
          seq := tokenSeq token }, token.drop 16)

def rotateLeft (data : Bytes) (count : ℕ) : Bytes := data.rotate count

namespace Context

/-- The flags of the tokens this side sends. -/
def sendFlags (c : Context) : UInt8 :=
  (if c.initiator then 0 else tokenFlagSentByAcceptor) |||
    (if c.acceptorSubkey then tokenFlagAcceptorSubkey else 0)

def validateIncoming (c : Context) (header : Header) : Option Unit :=
  guard (header.flags &&& tokenFlagSentByAcceptor =
    (if c.initiator then tokenFlagSentByAcceptor else 0) ∧
    header.seq = c.recvSeq)

/-- The content of a sealed message. -/
def openSealed (c : Context) (etype : EType) (header : Header) (payload : Bytes) :
    Option Bytes := do
  let plain ← etype.decrypt c.key.keyValue (if c.initiator then 22 else 24) payload
  guard (16 ≤ plain.length)
  guard (plain.drop (plain.length - 16) =
    messageHeader header.tokenID header.flags header.ec 0 header.seq)
  let body := plain.take (plain.length - 16)
  if c.dceStyle then pure body
  else do
    guard (header.ec ≤ body.length)
    pure (body.take (body.length - header.ec))

/-- The content of a message that is only signed. -/
def openSigned (c : Context) (etype : EType) (header : Header) (payload : Bytes) :
    Option Bytes := do
  guard (header.ec = etype.checksumSize ∧ header.ec ≤ payload.length)
  let data := payload.take (payload.length - header.ec)
  let mac := payload.drop (payload.length - header.ec)
  guard (etype.verifyChecksum c.key.keyValue (if c.initiator then 22 else 24)
    (data ++ messageHeader header.tokenID header.flags 0 0 header.seq) mac)
  pure data

/-- The content of a message. -/
def openMessage (c : Context) (etype : EType) (header : Header) (payload : Bytes) : Option Bytes :=
  if header.flags &&& tokenFlagSealed ≠ 0 then c.openSealed etype header payload
  else c.openSigned etype header payload

def unwrap (c : Context) (token : Bytes) : Option (Bytes × Context) := do
  let (header, payload) ← parseMessage token [0x05, 0x04]
  c.validateIncoming header
  let etype ← E.ap.etype c.key.keyType
  let data ← c.openMessage etype header (rotateLeft payload header.rrc)
  pure (data, { c with recvSeq := c.recvSeq + 1 })

def verifyMIC (c : Context) (data token : Bytes) : Option Context := do
  let (header, payload) ← parseMessage token [0x04, 0x04]
  c.validateIncoming header
  guard (header.filler = List.replicate 5 0xff)
  let etype ← E.ap.etype c.key.keyType
  guard (payload.length = etype.checksumSize)
  guard (etype.verifyChecksum c.key.keyValue (if c.initiator then 23 else 25)
    (data ++ micHeader header.flags header.seq) payload)
  pure { c with recvSeq := c.recvSeq + 1 }

def mic (c : Context) (data : Bytes) : Option (Bytes × Context) := do
  let etype ← E.ap.etype c.key.keyType
  let header := micHeader c.sendFlags c.sendSeq
  let mac ← etype.checksum c.key.keyValue (if c.initiator then 25 else 23) (data ++ header)
  pure (header ++ mac, { c with sendSeq := c.sendSeq + 1 })

/-- `Wrap` of a message that is sealed. -/
def wrapSealed (c : Context) (data : Bytes) : Option (Bytes × Context) := do
  let etype ← E.ap.etype c.key.keyType
  let header := messageHeader [0x05, 0x04] (c.sendFlags ||| tokenFlagSealed) 0 0 c.sendSeq
  let payload ← etype.encrypt c.key.keyValue (if c.initiator then 24 else 22) (data ++ header)
  pure (header ++ payload, { c with sendSeq := c.sendSeq + 1 })

/-- `UnwrapInitial`, with what it leaves of the context when it fails. -/
def unwrapInitial (c : Context) (token : Bytes) : Option Bytes × Context :=
  match parseMessage token [0x05, 0x04] with
  | none => (none, c)
  | some (header, _) =>
    let c := { c with recvSeq := header.seq }
    match c.unwrap E token with
    | none => (none, c)
    | some (plain, c) => (some plain, { c with recvSeq := c.recvSeq + 1 })

def setReceiveSequence (c : Context) (sequence : UInt64) : Context := { c with recvSeq := sequence }

end Context

end Kerberos.GSS
