import Kerberos.Lib.Except
import Kerberos.Spec.GSS

/-!
# Messages in several buffers

`WrapIOV` and `UnwrapIOV` of the package `gssapi`: a message in a list of typed buffers. The caller
chooses the fragments of the data, and further buffers that are authenticated with them; the
functions fill the buffers of the header and of the trailer.

`parseIOV` lets one HEADER, PADDING, TRAILER and STREAM pass at most, so that a buffer is addressed
by its type here where the code keeps its index. The memory of one buffer is not part of another's.
-/

namespace Kerberos.GSS

/-- `IOVBufferType`. -/
inductive BufferType
  | header
  | data
  | padding
  | trailer
  | signOnly
  | stream
  | unknown (type : UInt32)
  deriving DecidableEq

/-- `IOVBuffer`: no content is a nil slice; `spare` is what the capacity has over the length. -/
structure IOVBuffer where
  type : BufferType
  content : Option Bytes := none
  spare : ℕ := 0
  deriving DecidableEq

namespace IOVBuffer

def bytes (buffer : IOVBuffer) : Bytes := buffer.content.getD []

def capacity (buffer : IOVBuffer) : ℕ := buffer.bytes.length + buffer.spare

end IOVBuffer

/-- What `append` makes of nil and some bytes. -/
def appended (value : Bytes) : Option Bytes := if value = [] then none else some value

/-- The packages a message in buffers needs. -/
structure IOVEnv where
  gss : Env
  encryptWithAssociatedData : EType → Bytes → ℕ → Bytes → Bytes → Option Bytes
  decryptWithAssociatedData : EType → Bytes → ℕ → Bytes → Bytes → Option Bytes

namespace IOV

/-! ## Buffers -/

/-- The cases of `parseIOV`, with the types already seen. -/
def admitOne (seen : List BufferType) : BufferType → Except String Unit
  | .header => Except.ensure (.header ∉ seen) "GSS IOV: duplicate HEADER buffer"
  | .data => .ok ()
  | .padding => Except.ensure (.padding ∉ seen) "GSS IOV: duplicate PADDING buffer"
  | .trailer => Except.ensure (.trailer ∉ seen) "GSS IOV: duplicate TRAILER buffer"
  | .signOnly => .ok ()
  | .stream => Except.ensure (.stream ∉ seen) "GSS IOV: duplicate STREAM buffer"
  | .unknown _ => .error "GSS IOV: unknown buffer type"

/-- The loop of `parseIOV`. -/
def scan (seen : List BufferType) : List BufferType → Except String Unit
  | [] => .ok ()
  | type :: types => do
    admitOne seen type
    scan (type :: seen) types

/-- `parseIOV`, of the types of the buffers. -/
def parseIOV (types : List BufferType) (unwrap : Bool) : Except String Unit := do
  scan [] types
  if .stream ∈ types then
    Except.ensure (unwrap = true ∧ types = [.stream])
      "GSS IOV: STREAM cannot be combined with other buffers"
  else do
    Except.ensure (.header ∈ types) "GSS IOV: missing HEADER buffer"
    Except.ensure (.data ∈ types) "GSS IOV: missing DATA buffer"
    Except.ensure (unwrap = true → .trailer ∈ types) "GSS IOV: missing TRAILER buffer"

/-- The buffers of some types. -/
def select (p : BufferType → Bool) (iov : List IOVBuffer) : List IOVBuffer :=
  iov.filter fun buffer => p buffer.type

def concatBuffers (iov : List IOVBuffer) (p : BufferType → Bool) : Bytes :=
  (select p iov).flatMap IOVBuffer.bytes

/-- The bytes of the buffers of one type. -/
def bytesOf (type : BufferType) (iov : List IOVBuffer) : Bytes := concatBuffers iov (· == type)

def orderedMessageBuffers (iov : List IOVBuffer) : Bytes :=
  concatBuffers iov fun type => type == .data || type == .signOnly

def orderedMessageBuffersWithData : List IOVBuffer → Bytes → Bytes
  | [], data => data
  | buffer :: iov, data =>
    match buffer.type with
    | .data =>
      data.take buffer.bytes.length ++
        orderedMessageBuffersWithData iov (data.drop buffer.bytes.length)
    | .signOnly => buffer.bytes ++ orderedMessageBuffersWithData iov data
    | _ => orderedMessageBuffersWithData iov data

def orderedSignOnlyBuffers (iov : List IOVBuffer) : Bytes := bytesOf .signOnly iov

def setIOVOutput (value : Bytes) (buffer : IOVBuffer) : Except String IOVBuffer :=
  match buffer.content with
  | none => .ok { buffer with content := appended value }
  | some _ => do
    Except.ensure (value.length ≤ buffer.capacity) "GSS IOV: buffer too small"
    .ok { buffer with content := some value, spare := buffer.capacity - value.length }

/-- `setIOVOutput` of the buffer with this type. -/
def setOutput (type : BufferType) (value : Bytes) (iov : List IOVBuffer) :
    Except String (List IOVBuffer) :=
  iov.mapM fun buffer => if buffer.type = type then setIOVOutput value buffer else .ok buffer

/-- The loop of `distributeIOV`: the buffers, and the part of the value that is left. -/
def distributeLoop (unknown : Bool) :
    List IOVBuffer → Bytes → Except String (List IOVBuffer × Bytes)
  | [], value => .ok ([], value)
  | buffer :: iov, value =>
    if buffer.type ≠ .data then do
      let (iov, rest) ← distributeLoop unknown iov value
      .ok (buffer :: iov, rest)
    else
      match buffer.content with
      | none => do
        Except.ensure (unknown = false) "GSS IOV: multiple un-sized DATA buffers"
        let (iov, rest) ← distributeLoop true iov value
        .ok (buffer :: iov, rest)
      | some content => do
        Except.ensure (content.length ≤ value.length) "GSS IOV: data length mismatch"
        let (iov, rest) ← distributeLoop unknown iov (value.drop content.length)
        .ok ({ buffer with content := some (value.take content.length) } :: iov, rest)

/-- A DATA buffer without a size. -/
def unsized (buffer : IOVBuffer) : Bool := buffer.type = .data ∧ buffer.content = none

/-- `distributeIOV`: a buffer without a size takes what the others leave. -/
def distributeIOV (iov : List IOVBuffer) (value : Bytes) : Except String (List IOVBuffer) := do
  let (iov, rest) ← distributeLoop false iov value
  if iov.any unsized then
    .ok (iov.map fun buffer => if unsized buffer then { buffer with content := appended rest }
      else buffer)
  else do
    Except.ensure (rest = []) "GSS IOV: data length mismatch"
    .ok iov

/-- A padding buffer is cut to no bytes. -/
def emptyPadding (iov : List IOVBuffer) : List IOVBuffer :=
  iov.map fun buffer =>
    if buffer.type = .padding then
      { buffer with content := buffer.content.map fun _ => [], spare := buffer.capacity }
    else buffer

end IOV

/-! ## Sending -/

namespace Context

/-- `wrap` of a message that is only signed. -/
def wrapSigned (E : Env) (c : Context) (data : Bytes) : Option (Bytes × Context) := do
  let etype ← E.ap.etype c.key.keyType
  let header := messageHeader [0x05, 0x04] c.sendFlags etype.checksumSize 0 c.sendSeq
  let mac ← etype.checksum c.key.keyValue (if c.initiator then 24 else 22)
    (data ++ messageHeader [0x05, 0x04] c.sendFlags 0 0 c.sendSeq)
  pure (header ++ data ++ mac, { c with sendSeq := c.sendSeq + 1 })

def wrap (E : Env) (c : Context) (data : Bytes) (sealed : Bool) : Option (Bytes × Context) :=
  if sealed then c.wrapSealed E data else c.wrapSigned E data

def wrapDCE (E : Env) (c : Context) (data : Bytes) : Option (Bytes × Context) := do
  let etype ← E.ap.etype c.key.keyType
  let header := messageHeader [0x05, 0x04] (c.sendFlags ||| tokenFlagSealed) 16 0 c.sendSeq
  let payload ← etype.encrypt c.key.keyValue (if c.initiator then 24 else 22) (data ++ header)
  pure (header ++ payload, { c with sendSeq := c.sendSeq + 1 })

open IOV

/-- The sizes of the header and of the trailer: `wrapIOVLength`. -/
def wrapIOVLength (etype : EType) (sealed dceStyle : Bool) : ℕ × ℕ :=
  if sealed then (32, (if dceStyle then 16 else 0) + 16 + etype.checksumSize)
    else (16, etype.checksumSize)

/-- The token written into the buffers, with the size of the filler in the trailer and the size of
the trailer as a whole. -/
def fillIOV (etype : EType) (iov : List IOVBuffer) (token : Bytes) (sealed : Bool)
    (filler trailer : ℕ) :
    Except String (List IOVBuffer) := do
  let checksumSize := etype.checksumSize
  if sealed then do
    let encrypted := (token.drop 16).take (token.length - checksumSize - 16)
    let iov ← setOutput .header (token.take 16 ++ encrypted.take 16) iov
    let iov ← distributeIOV iov ((encrypted.drop 16).take (encrypted.length - 16 - 16))
    let written := List.replicate filler 0xff ++ encrypted.drop (encrypted.length - 16) ++
      token.drop (token.length - checksumSize)
    let iov ← setOutput .trailer (written ++ List.replicate (trailer - written.length) 0) iov
    .ok (emptyPadding iov)
  else do
    let iov ← setOutput .header (token.take 16) iov
    let iov ← distributeIOV iov ((token.drop 16).take (token.length - trailer - 16))
    let iov ← setOutput .trailer (token.drop (token.length - trailer)) iov
    .ok (emptyPadding iov)

variable (E : IOVEnv)

/-- The token of `wrapIOVWithAssociatedData`. -/
def associatedToken (c : Context) (etype : EType) (iov : List IOVBuffer) (sealed dceStyle : Bool) :
    Except String Bytes := do
  let plain := bytesOf .data iov
  let usage := if c.initiator then 24 else 22
  if sealed then do
    let header := messageHeader [0x05, 0x04] (c.sendFlags ||| tokenFlagSealed) (if dceStyle then 16
      else 0) 0 c.sendSeq
    let encrypted ← Except.ofOption "encrypt"
      (E.encryptWithAssociatedData etype c.key.keyValue usage (plain ++ header)
        (orderedSignOnlyBuffers iov))
    .ok (header ++ encrypted)
  else do
    let header := messageHeader [0x05, 0x04] c.sendFlags etype.checksumSize 0 c.sendSeq
    let mac ← Except.ofOption "checksum" (etype.checksum c.key.keyValue usage
      (orderedMessageBuffers iov ++ messageHeader [0x05, 0x04] c.sendFlags 0 0 c.sendSeq))
    .ok (header ++ plain ++ mac)

/-- `wrapIOVWithAssociatedData`. The size of the trailer is that of the context's own style, that of
the filler follows from it. -/
def wrapIOVWithAssociatedData (c : Context) (etype : EType) (iov : List IOVBuffer)
    (sealed dceStyle : Bool) : Except String (List IOVBuffer × Context) := do
  let token ← c.associatedToken E etype iov sealed dceStyle
  let trailer := (wrapIOVLength etype sealed c.dceStyle).2
  let filler := if dceStyle then trailer - 16 - etype.checksumSize else 0
  Except.ensure (sealed = true → 16 ≤ token.length - etype.checksumSize - 16)
    "GSS IOV wrap: invalid encrypted token length"
  let iov ← fillIOV etype iov token sealed filler trailer
  .ok (iov, { c with sendSeq := c.sendSeq + 1 })

def wrapIOV (c : Context) (iov : List IOVBuffer) (sealed dceStyle : Bool) :
    Except String (List IOVBuffer × Context) := do
  parseIOV (iov.map IOVBuffer.type) false
  Except.ensure (.trailer ∈ iov.map IOVBuffer.type) "GSS IOV: missing TRAILER buffer"
  let etype ← Except.ofOption "enctype" (E.gss.ap.etype c.key.keyType)
  let plain := bytesOf .data iov
  if .signOnly ∈ iov.map IOVBuffer.type then c.wrapIOVWithAssociatedData E etype iov sealed dceStyle
  else do
    let (token, c) ← Except.ofOption "GSS wrap"
      (if sealed && dceStyle then c.wrapDCE E.gss plain else c.wrap E.gss plain sealed)
    let trailer := (wrapIOVLength etype sealed dceStyle).2
    Except.ensure (token.length = (if sealed then 16 + etype.checksumSize + 32 else 16 + trailer) +
      plain.length)
      "GSS IOV wrap: invalid generated token length"
    let iov ← fillIOV etype iov token sealed (if dceStyle then 16 else 0) trailer
    .ok (iov, c)

def wrapIOVWithOptions (c : Context) (iov : List IOVBuffer) (sealed dceStyle : Bool) :
    Except String (List IOVBuffer × Context) := c.wrapIOV E iov sealed dceStyle

/-! ## Receiving -/

/-- The fields of the 16 bytes of a header. -/
def headerOf (header : Bytes) : Header where
  tokenID := header.take 2
  flags := header.getD 2 0
  filler := (header.drop 3).take 5
  ec := Words.ofBE ((header.drop 4).take 2)
  rrc := Words.ofBE ((header.drop 6).take 2)
  seq := tokenSeq header

/-- The header without the count of the rotation. -/
def withoutRotation (header : Bytes) : Bytes := header.take 6 ++ [0, 0] ++ header.drop 8

/-- The payload without the filler of the trailer. -/
def withoutFiller (payload : Bytes) (trailerLen ec : ℕ) : Bytes :=
  payload.take (payload.length - trailerLen) ++ payload.drop (payload.length - trailerLen + ec)

/-- `UnwrapIOV` of a sealed message with SIGN_ONLY buffers. -/
def openSealedIOV (c : Context) (etype : EType) (iov : List IOVBuffer) (header : Bytes) :
    Except String Bytes := do
  let ec := (headerOf header).ec
  let trailerLen := 16 + etype.checksumSize + (if c.dceStyle then ec else 0)
  Except.ensure ((bytesOf .trailer iov).length = trailerLen) "GSS IOV unwrap: invalid trailer"
  let payload :=
    rotateLeft ((bytesOf .header iov).drop 16 ++ bytesOf .data iov ++ bytesOf .padding iov ++
    bytesOf .trailer iov) (headerOf header).rrc
  Except.ensure (trailerLen ≤ payload.length) "GSS IOV unwrap: invalid trailer"
  let body := if c.dceStyle then withoutFiller payload trailerLen ec else payload
  let plain ← Except.ofOption "GSS IOV unwrap: integrity"
    (E.decryptWithAssociatedData etype c.key.keyValue
    (if c.initiator then 22 else 24) body (orderedSignOnlyBuffers iov))
  Except.ensure (16 ≤ plain.length) "GSS IOV unwrap: integrity"
  Except.ensure (plain.drop (plain.length - 16) = withoutRotation header)
    "GSS IOV unwrap: integrity"
  let body := plain.take (plain.length - 16)
  if c.dceStyle then .ok body
  else do
    Except.ensure (ec ≤ body.length) "GSS IOV unwrap: integrity"
    .ok (body.take (body.length - ec))

/-- `UnwrapIOV` of a message that is only signed, with SIGN_ONLY buffers. -/
def openSignedIOV (c : Context) (etype : EType) (iov : List IOVBuffer) (header : Bytes) :
    Except String Bytes := do
  let ec := (headerOf header).ec
  Except.ensure (ec = etype.checksumSize ∧ (bytesOf .trailer iov).length = ec)
    "GSS IOV unwrap: integrity"
  let payload :=
    rotateLeft ((bytesOf .header iov).drop 16 ++ bytesOf .data iov ++ bytesOf .padding iov ++
    bytesOf .trailer iov) (headerOf header).rrc
  Except.ensure (ec ≤ payload.length) "GSS IOV unwrap: integrity"
  let mac := payload.drop (payload.length - ec)
  let canonicalData := payload.take (payload.length - ec)
  let canonical := header.take 4 ++ [0, 0, 0, 0] ++ header.drop 8
  Except.ensure (etype.verifyChecksum c.key.keyValue (if c.initiator then 22 else 24)
    (orderedMessageBuffersWithData iov canonicalData ++ canonical) mac = true)
      "GSS IOV unwrap: integrity"
  .ok canonicalData

/-- The data of a message with SIGN_ONLY buffers. -/
def openIOV (c : Context) (etype : EType) (iov : List IOVBuffer) (header : Bytes) :
    Except String Bytes :=
  if (headerOf header).flags &&& tokenFlagSealed ≠ 0 then c.openSealedIOV E etype iov header
  else c.openSignedIOV etype iov header

/-- `UnwrapIOV` with SIGN_ONLY buffers. -/
def unwrapIOVWithAssociatedData (c : Context) (iov : List IOVBuffer) :
    Except String (List IOVBuffer × Context) := do
  Except.ensure (16 ≤ (bytesOf .header iov).length) "GSS IOV unwrap: invalid header"
  let header := (bytesOf .header iov).take 16
  Except.ensure (header.getD 3 0 = 0xff) "GSS token: invalid filler"
  Except.ofOption "GSS token" (c.validateIncoming (headerOf header))
  let etype ← Except.ofOption "enctype" (E.gss.ap.etype c.key.keyType)
  let body ← c.openIOV E etype iov header
  let iov ← distributeIOV iov body
  .ok (iov, { c with recvSeq := c.recvSeq + 1 })

/-- The payload of a message without SIGN_ONLY buffers, without the filler of its trailer. -/
def payloadIOV (c : Context) (header payload : Bytes) : Except String Bytes :=
  if (headerOf header).flags &&& tokenFlagSealed ≠ 0 then do
    let ec := (headerOf header).ec
    let etype ← Except.ofOption "enctype" (E.gss.ap.etype c.key.keyType)
    let trailerLen := 16 + etype.checksumSize + (if c.dceStyle then ec else 0)
    Except.ensure (trailerLen ≤ payload.length) "GSS IOV unwrap: invalid trailer"
    .ok (if c.dceStyle then withoutFiller payload trailerLen ec else payload)
  else .ok payload

def unwrapIOV (c : Context) (iov : List IOVBuffer) : Except String (List IOVBuffer × Context) := do
  parseIOV (iov.map IOVBuffer.type) true
  if .stream ∈ iov.map IOVBuffer.type then do
    let (plain, c) ← Except.ofOption "GSS unwrap" (c.unwrap E.gss (bytesOf .stream iov))
    .ok (iov.map fun buffer => { buffer with content := some plain }, c)
  else if .signOnly ∈ iov.map IOVBuffer.type then c.unwrapIOVWithAssociatedData E iov
  else do
    Except.ensure (16 ≤ (bytesOf .header iov).length) "GSS IOV unwrap: invalid header"
    let token := bytesOf .header iov ++ bytesOf .data iov ++ bytesOf .padding iov ++
      bytesOf .trailer iov
    let header := token.take 16
    let payload ← c.payloadIOV E header (rotateLeft (token.drop 16) (headerOf header).rrc)
    let (plain, c) ← Except.ofOption "GSS unwrap"
      (c.unwrap E.gss (withoutRotation header ++ payload))
    let iov ← distributeIOV iov plain
    .ok (iov, c)

end Context

end Kerberos.GSS
