import Kerberos.Spec.Framing

/-!
# The initiator of a security context

`Initiator` of the package `gssapi`, once it has sent its AP-REQ: the AP-REP of an acceptor that was
asked for mutual authentication.

As for the acceptor, what fails is reported without its reason. A frame whose reading leaves the
buffer (`Spec/Framing`) fails too.
-/

namespace Kerberos.GSS

def GSSChannelBoundFlag : Flags := flag 11

/-- `client.Credentials`, as far as a context uses them. -/
structure Credentials where
  client : Principal
  server : Principal
  key : EncryptionKey
  ticket : Bytes
  deriving DecidableEq

/-- `ap.APReqState`: what the initiator keeps of an AP-REQ. -/
structure APReqState where
  sessionKey : EncryptionKey
  authenticatorTime : ℤ
  cusec : Int32
  subKey : Option EncryptionKey
  seqNumber : Option UInt32
  apOptions : Flags
  deriving DecidableEq

/-- `ap.APRepDetails`. -/
structure APRepDetails where
  subKey : Option EncryptionKey
  seqNumber : Option UInt32
  deriving DecidableEq

/-- The package `ap` on the initiator's side. -/
structure InitiatorEnv where
  verifyAPRepWithDetails : APReqState → Bytes → Option APRepDetails

structure Initiator where
  creds : Credentials
  flags : Flags
  state : Option APReqState := none
  ctx : Option Context := none

namespace Initiator

/-- The context of an AP-REQ, before any AP-REP. -/
def contextOf (creds : Credentials) (flags : Flags) (state : APReqState) : Context where
  key := contextKey state.sessionKey state.subKey
  initiator := true
  flags := flags &&& ~~~GSSChannelBoundFlag
  ticketFlags := 0
  sendSeq := (state.seqNumber.getD 0).toUInt64
  source := creds.client
  target := creds.server

/-- What an AP-REP asserts changes the context. -/
def adopt (state : APReqState) (details : APRepDetails) (c : Context) : Context :=
  let c := match details.subKey with
    | some key => { c with key := contextKey state.sessionKey (some key), acceptorSubkey := true }
    | none => c
  match details.seqNumber with
  | some n => { c with recvSeq := n.toUInt64 }
  | none => c

def verifyToken (B : InitiatorEnv) (i : Initiator) (token : Bytes) : Option Initiator := do
  let state ← i.state
  let inner ← (unframeTokenAnyOID token [0x02, 0x00]).toOption
  let details ← B.verifyAPRepWithDetails state inner
  pure { i with ctx := some (adopt state details (i.ctx.getD (contextOf i.creds i.flags state))) }

/-- The key of `Lucid`: `prfPartial`, which an AP-REP does not change. -/
def lucid (i : Initiator) : Option EncryptionKey := do
  let ctx ← i.ctx
  let state ← i.state
  guard (ctx.key.keyValue ≠ [])
  let own := contextKey state.sessionKey state.subKey
  pure (if own.keyValue = [] then ctx.key else own)

end Initiator

end Kerberos.GSS
