import Kerberos.Spec.GSS
import Kerberos.Spec.Iprop

/-!
# RPCSEC_GSS

How the servers of the packages `kadm5` and `iprop` serve a connection: a record is an RPC call, an
INIT or CONTINUE call carries a token of the security context, and a DATA call is dispatched once
its verifier and its body have passed the context. `Kadm5.serveRecord` and `Iprop.serveRecord` are
one round of `serveConn`.

The context with which a call was read is reported next to what is dispatched (`Dispatched`). The
session keeps the identity of the client apart from the context.
-/

namespace Kerberos.RPC

open GSS Xdr

def msgCall : UInt32 := 0
def msgReply : UInt32 := 1
def rpcVersion : UInt32 := 2
def rpcsecGSS : UInt32 := 6
def rpcsecGSSData : UInt32 := 0
def rpcsecGSSInit : UInt32 := 1
def rpcsecGSSCont : UInt32 := 2
def rpcsecGSSPrivacy : UInt32 := 3

/-- `rpcCall`. -/
structure Call where
  xid : UInt32
  proc : UInt32
  flavor : UInt32
  credential : Bytes
  verifier : Bytes
  body : Bytes
  /-- The record up to the credential. -/
  front : Bytes

def seqBytes (v : UInt32) : Bytes := u32 v

/-- `opaqueAuth`. -/
def auth (flavor : UInt32) (data : Bytes) : Bytes := u32 flavor ++ bytes data

def rpcReply (xid flavor : UInt32) (verifier body : Bytes) : Bytes :=
  u32 xid ++ u32 msgReply ++ u32 0 ++ auth flavor verifier ++ u32 0 ++ body

def rpcErrorReply (xid status : UInt32) : Bytes :=
  u32 xid ++ u32 msgReply ++ u32 0 ++ auth 0 [] ++ u32 status

/-- All of the data, and nothing else. -/
def whole {α : Type} (r : XdrReader α) (data : Bytes) : Option α :=
  match r data with
  | .ok (a, []) => some a
  | _ => none

/-- The credential of a call. -/
structure Credential where
  proc : UInt32
  seq : UInt32
  service : UInt32
  handle : Bytes

/-- The readers the two servers have for words and strings. -/
structure Readers where
  u32 : XdrReader UInt32
  bytes : XdrReader Bytes

/-- The credential, of version 1. -/
def readCredential (r : Readers) (data : Bytes) : Option Credential :=
  whole (do
    let version ← r.u32
    Reader.check (version = 1) ""
    let proc ← r.u32
    let seq ← r.u32
    let service ← r.u32
    let handle ← r.bytes
    pure { proc, seq, service, handle }) data

/-- What a server meets when a record arrives. -/
structure Arrival where
  record : Bytes
  circumstances : Circumstances
  /-- The handle that `rand.Read` gives for a new session. -/
  handle : Option Bytes := none
  /-- What `dispatch` returns, if the record comes to it. -/
  result : Bytes := []

/-- The configuration of a server, as far as calls are read with it. -/
structure Listener where
  keytab : List AP.Entry
  realm : Bytes

/-- What is dispatched, in whose name, and the context the call was read with. -/
structure Dispatched (Identity : Type) where
  identity : Identity
  proc : UInt32
  body : Bytes
  context : Context

/-- How a record is served: the reply, or an error that ends the connection. -/
structure Outcome (Session Identity : Type) where
  reply : Except String Bytes
  session : Option Session
  dispatched : Option (Dispatched Identity) := none

/-- A call that is refused with a status. -/
def refused {Session Identity : Type} (call : Call) (status : UInt32) (session : Option Session) :
    Outcome Session Identity := ⟨.ok (rpcErrorReply call.xid status), session, none⟩

/-- The outcome of a handler that may return early. -/
def settle {Session Identity : Type} :
    Except (Outcome Session Identity) (Outcome Session Identity) → Outcome Session Identity
  | .ok o => o
  | .error o => o

/-- The window of sequence numbers. -/
def window : UInt32 := 0x7fffffff

/-- The reply to a token. -/
def tokenReply (call : Call) (handle verifier response : Bytes) : Bytes :=
  rpcReply call.xid rpcsecGSS verifier
    (bytes handle ++ u32 0 ++ u32 0 ++ u32 window ++ bytes response)

/-- The first sequence number of a context is that of the token the client made first. -/
def firstSequence (protectedSeq verifierSeq : UInt64) : Option UInt64 :=
  if protectedSeq + 1 = verifierSeq then some protectedSeq
  else if verifierSeq + 1 = protectedSeq then some verifierSeq
  else none

/-- The plaintext begins with the sequence number of the call. -/
def startsWith (plain : Bytes) (seq : UInt32) : Bool :=
  decide (4 ≤ plain.length) && plain.take 4 == seqBytes seq

/-- The body and the verifier pass the context, in the order of their sequence numbers. Short
plaintexts are refused, but for `lenient` ones when the verifier comes first. -/
def receive (E : GSS.Env) (lenient : Bool) (ctx : Context) (call : Call) (sealed : Bytes)
    (seq : UInt32) :
    Option Bytes × Context :=
  if tokenSeq sealed + 1 = tokenSeq call.verifier then
    match ctx.unwrap E sealed with
    | none => (none, ctx)
    | some (plain, ctx) =>
      match ctx.verifyMIC E call.front call.verifier with
      | none => (none, ctx)
      | some ctx => (if startsWith plain seq then some plain else none, ctx)
  else if tokenSeq call.verifier + 1 = tokenSeq sealed then
    match ctx.verifyMIC E call.front call.verifier with
    | none => (none, ctx)
    | some ctx =>
      match ctx.unwrap E sealed with
      | none => (none, ctx)
      | some (plain, ctx) =>
        (if startsWith plain seq ∨ (lenient ∧ plain.length < 4) then some plain else none, ctx)
  else (none, ctx)

end Kerberos.RPC

/-! ## The administration server -/

namespace Kerberos.Kadm5

open GSS RPC Except

namespace Read

def eof : String := "unexpected EOF"

def u32 : XdrReader UInt32 := do
  let b ← Reader.take 4 eof
  pure (UInt32.ofNat (Words.ofBE b))

/-- `xdrReader.opaque`. -/
def bytes : XdrReader Bytes := do
  let n ← u32
  Reader.check (n.toNat ≤ 2 ^ 24) "kadm5: oversized XDR opaque"
  let v ← Reader.take n.toNat eof
  let pad ← Reader.take (xdrPad n.toNat) eof
  Reader.check (pad.all (· == 0)) "kadm5: non-zero XDR padding"
  pure v

end Read

def readers : Readers := ⟨Read.u32, Read.bytes⟩

def Program : UInt32 := 2112
def Version : UInt32 := 2

def parseRPCCall (record : Bytes) : Except String Call :=
  Except.map Prod.fst ((do
    let xid ← Read.u32
    let msg ← Read.u32
    Reader.check (msg = msgCall) "kadm5: invalid RPC call type"
    let version ← Read.u32
    Reader.check (version = rpcVersion) "kadm5: unsupported RPC version"
    let program ← Read.u32
    Reader.check (program = Program) "kadm5: unexpected RPC program"
    let version ← Read.u32
    Reader.check (version = Version) "kadm5: unexpected RPC program version"
    let proc ← Read.u32
    let flavor ← Read.u32
    let credential ← Read.bytes
    let rest ← get
    let _ ← Read.u32
    let verifier ← Read.bytes
    let body ← get
    pure { xid, proc, flavor, credential, verifier, body
           front := record.take (record.length - rest.length) } : XdrReader Call) record)

/-- In whose name a call is made. -/
structure Identity where
  client : Principal
  service : Principal
  initial : Bool
  deriving DecidableEq

/-- `serverSession`. -/
structure Session where
  ctx : Context
  client : Principal
  initial : Bool
  service : Principal
  handle : Bytes
  next : UInt32
  gssSeqSet : Bool

def Session.identity (s : Session) : Identity := ⟨s.client, s.service, s.initial⟩

def validKadmService (service : Principal) (realm : Bytes) : Bool :=
  match service.components with
  | [first, second] => service.realm == realm && first == str "kadmin" && second != str "history"
  | _ => false

/-- The procedures: `knownProcedure`. -/
inductive Procedure
  | createPrincipal | deletePrincipal | modifyPrincipal | renamePrincipal | getPrincipal
  | chpassPrincipal | chrandPrincipal | createPolicy | deletePolicy | modifyPolicy | getPolicy
  | getPrivs | initProcedure | getPrincs | getPolicies | setkeyPrincipal | createPrincipal3
  | chpassPrincipal3 | chrandPrincipal3 | setkeyPrincipal3 | purgeKeys | getStrings | setString
  | setkeyPrincipal4 | extractKeys | createAlias
  deriving DecidableEq

/-- The procedure of a number. -/
def Procedure.ofNumber : ℕ → Option Procedure
  | 1 => some .createPrincipal
  | 2 => some .deletePrincipal
  | 3 => some .modifyPrincipal
  | 4 => some .renamePrincipal
  | 5 => some .getPrincipal
  | 6 => some .chpassPrincipal
  | 7 => some .chrandPrincipal
  | 8 => some .createPolicy
  | 9 => some .deletePolicy
  | 10 => some .modifyPolicy
  | 11 => some .getPolicy
  | 12 => some .getPrivs
  | 13 => some .initProcedure
  | 14 => some .getPrincs
  | 15 => some .getPolicies
  | 16 => some .setkeyPrincipal
  | 18 => some .createPrincipal3
  | 19 => some .chpassPrincipal3
  | 20 => some .chrandPrincipal3
  | 21 => some .setkeyPrincipal3
  | 22 => some .purgeKeys
  | 23 => some .getStrings
  | 24 => some .setString
  | 25 => some .setkeyPrincipal4
  | 26 => some .extractKeys
  | 27 => some .createAlias
  | _ => none

variable (E : GSS.Env)

/-- The session answers a token. -/
def Session.answer (call : Call) (s : Session) (response : Bytes) : Outcome Session Identity :=
  match s.ctx.mic E (seqBytes window) with
  | none => ⟨.error "GSS MIC", none, none⟩
  | some (verifier, ctx) =>
    ⟨.ok (tokenReply call s.handle verifier response), some { s with ctx }, none⟩

variable (srv : Listener)

/-- An INIT or CONTINUE call. -/
def handleToken (a : Arrival) (call : Call) (cred : Credential)
    (session : Option Session) : Except (Outcome Session Identity) (Outcome Session Identity) := do
  match session with
  | none => ensure (cred.proc = rpcsecGSSInit ∧ cred.handle = []) (refused call 1 session)
  | some s => ensure (cred.proc = rpcsecGSSCont ∧ cred.handle = s.handle) (refused call 1 session)
  let token ← ofOption (refused call 1 session) (whole Read.bytes call.body)
  let (ctx, client, response) ← ofOption (refused call 1 session)
    (accept E srv.keytab a.circumstances token)
  match session with
  | none => do
    ensure (validKadmService ctx.target srv.realm) (refused call 1 none)
    let handle ← Except.ofOption ⟨.error "rand", none, none⟩ a.handle
    pure (Session.answer E call
      { ctx, client, initial := ctx.initialTicket, service := ctx.target, handle, next := 1
        gssSeqSet := false } response)
  | some s => pure ({ s with ctx }.answer E call response)

/-- The sealed result and its verifier, in the order in which the call had them. -/
def sealReply (verifierFirst : Bool) (ctx : Context) (seq : UInt32) (result : Bytes) :
    Option (Bytes × Bytes × Context) :=
  if verifierFirst then do
    let (verifier, ctx) ← ctx.mic E (seqBytes seq)
    let (wrapped, ctx) ← ctx.wrapSealed E (seqBytes seq ++ result)
    pure (wrapped, verifier, ctx)
  else do
    let (wrapped, ctx) ← ctx.wrapSealed E (seqBytes seq ++ result)
    let (verifier, ctx) ← ctx.mic E (seqBytes seq)
    pure (wrapped, verifier, ctx)

/-- The session whose context expects the first sequence number. -/
def Session.synchronized (s : Session) (first : Option UInt64) : Option Session :=
  if s.gssSeqSet then some s
  else first.map fun first => { s with ctx := s.ctx.setReceiveSequence first, gssSeqSet := true }

/-- A DATA call. -/
def handleData (a : Arrival) (call : Call) (cred : Credential) (session : Option Session) :
    Except (Outcome Session Identity) (Outcome Session Identity) := do
  let s ← ofOption (refused call 1 session) session
  ensure (cred.handle = s.handle ∧ cred.proc = rpcsecGSSData) (refused call 1 session)
  ensure (cred.seq = s.next) (refused call 1 session)
  let sealed ← ofOption (refused call 1 session) (whole Read.bytes call.body)
  ensure (16 ≤ sealed.length ∧ 16 ≤ call.verifier.length) (refused call 1 session)
  let s ← ofOption (refused call 1 session)
    (s.synchronized (firstSequence (tokenSeq sealed) (tokenSeq call.verifier)))
  match receive E false s.ctx call sealed cred.seq with
  | (none, ctx) => throw (refused call 1 (some { s with ctx }))
  | (some plain, ctx) =>
    let s := { s with ctx }
    ensure (Procedure.ofNumber call.proc.toNat).isSome (refused call 3 (some s))
    let s := { s with next := s.next + 1 }
    let dispatched :=
      { identity := s.identity, proc := call.proc, body := plain.drop 4, context := ctx }
    match sealReply E (tokenSeq call.verifier + 1 == tokenSeq sealed) ctx cred.seq a.result with
    | none => pure ⟨.error "GSS wrap", some s, some dispatched⟩
    | some (wrapped, verifier, ctx) =>
      pure ⟨.ok (rpcReply call.xid rpcsecGSS verifier (Xdr.bytes wrapped)), some { s with ctx },
        some dispatched⟩

def handleGSS (a : Arrival) (call : Call) (session : Option Session) :
    Outcome Session Identity :=
  settle do
    let cred ← ofOption (refused call 1 session) (readCredential readers call.credential)
    ensure (cred.service = rpcsecGSSPrivacy ∨ cred.service = rpcsecGSSData) (refused call 1 session)
    ensure (call.body ≠ []) (refused call 1 session)
    if cred.proc = rpcsecGSSInit ∨ cred.proc = rpcsecGSSCont then
      handleToken E srv a call cred session
    else handleData E a call cred session

/-- A round of `serveConn`. -/
def serveRecord (a : Arrival) (session : Option Session) :
    Outcome Session Identity :=
  match parseRPCCall a.record with
  | .error e => ⟨.error e, none, none⟩
  | .ok call =>
    if call.flavor = rpcsecGSS then handleGSS E srv a call session
    else refused call 1 session

end Kerberos.Kadm5

/-! ## The propagation server -/

namespace Kerberos.Iprop

open GSS RPC Except

def readers : Readers := ⟨Read.u32, Read.bytes⟩

def Program : UInt32 := 100423
def Version : UInt32 := 1

/-- A word; 0 if there is none. -/
def Read.u32OrZero : XdrReader UInt32 := fun input =>
  match Read.u32 input with
  | .ok result => .ok result
  | .error _ => .ok (0, input)

def parseCall (record : Bytes) : Except String Call :=
  Except.map Prod.fst ((do
    let xid ← Read.u32
    let msg ← Read.u32OrZero
    Reader.check (msg = msgCall) "iprop: invalid RPC call"
    let version ← Read.u32OrZero
    Reader.check (version = rpcVersion) "iprop: invalid RPC version"
    let program ← Read.u32OrZero
    Reader.check (program = Program) "iprop: unexpected RPC program"
    let version ← Read.u32OrZero
    Reader.check (version = Version) "iprop: unexpected RPC version"
    let proc ← Read.u32
    let flavor ← Read.u32
    let credential ← Read.bytes
    let rest ← get
    let _ ← Read.u32
    let verifier ← Read.bytes
    let body ← get
    pure { xid, proc, flavor, credential, verifier, body
           front := record.take (record.length - rest.length) } : XdrReader Call) record)

/-- `serverSession`. -/
structure Session where
  ctx : Context
  client : Principal
  service : Principal
  handle : Bytes
  next : UInt32
  gssSeqSet : Bool

def validIpropService (service : Principal) (realm : Bytes) : Bool :=
  match service.components with
  | [first, _] => service.realm == realm && first == str "kiprop"
  | _ => false

/-- The session answers a token. -/
def Session.answer (E : GSS.Env) (call : Call) (s : Session) (response : Bytes) :
    Outcome Session Principal :=
  match s.ctx.mic E (seqBytes window) with
  | none => ⟨.error "GSS MIC", none, none⟩
  | some (verifier, ctx) =>
    ⟨.ok (tokenReply call s.handle verifier response), some { s with ctx }, none⟩

/-- An INIT or CONTINUE call: a token that is not accepted ends the session. -/
def handleToken (E : GSS.Env) (srv : Listener) (a : Arrival) (call : Call) (cred : Credential)
    (token : Bytes)
    (session : Option Session) :
    Except (Outcome Session Principal) (Outcome Session Principal) := do
  match session with
  | none => ensure (cred.proc = rpcsecGSSInit ∧ cred.handle = []) (refused call 1 session)
  | some s => ensure (cred.proc = rpcsecGSSCont ∧ cred.handle = s.handle) (refused call 1 session)
  let (ctx, client, response) ← ofOption (refused call 1 none)
    (accept E srv.keytab a.circumstances token)
  ensure (validIpropService ctx.target srv.realm) (refused call 1 none)
  match session with
  | none => do
    let handle ← Except.ofOption ⟨.error "rand", none, none⟩ a.handle
    pure (Session.answer E call
      { ctx, client, service := ctx.target, handle, next := 1, gssSeqSet := false } response)
  | some s => pure ({ s with ctx }.answer E call response)

/-- The sealed result, and then its verifier. -/
def sealReply (E : GSS.Env) (ctx : Context) (seq : UInt32) (result : Bytes) :
    Option (Bytes × Bytes × Context) := do
  let (wrapped, ctx) ← ctx.wrapSealed E (seqBytes seq ++ result)
  let (verifier, ctx) ← ctx.mic E (seqBytes seq)
  pure (wrapped, verifier, ctx)

/-- The session whose context expects the first sequence number. -/
def Session.synchronized (s : Session) (first : Option UInt64) : Option Session :=
  if s.gssSeqSet then some s
  else first.map fun first => { s with ctx := s.ctx.setReceiveSequence first, gssSeqSet := true }

/-- A DATA call. -/
def handleData (E : GSS.Env) (a : Arrival) (call : Call) (cred : Credential) (sealed : Bytes)
    (session : Option Session) :
    Except (Outcome Session Principal) (Outcome Session Principal) := do
  let s ← ofOption (refused call 1 session) session
  ensure (cred.handle = s.handle ∧ cred.proc = rpcsecGSSData ∧ cred.seq = s.next)
    (refused call 1 session)
  ensure (16 ≤ sealed.length ∧ 16 ≤ call.verifier.length) (refused call 1 session)
  let s ← ofOption (refused call 1 session)
    (s.synchronized (firstSequence (tokenSeq sealed) (tokenSeq call.verifier)))
  match receive E true s.ctx call sealed cred.seq with
  | (none, ctx) => throw (refused call 1 (some { s with ctx }))
  | (some plain, ctx) =>
    let s := { s with ctx, next := s.next + 1 }
    -- a plaintext shorter than the sequence number is sliced out of its bounds
    Except.ensure (4 ≤ plain.length) ⟨.error "slice bounds out of range", some s, none⟩
    let dispatched :=
      { identity := s.client, proc := call.proc, body := plain.drop 4, context := ctx }
    match sealReply E ctx cred.seq a.result with
    | none => pure ⟨.error "GSS wrap", some s, some dispatched⟩
    | some (wrapped, verifier, ctx) =>
      pure ⟨.ok (rpcReply call.xid rpcsecGSS verifier (Xdr.bytes wrapped)), some { s with ctx },
        some dispatched⟩

def handleGSS (E : GSS.Env) (srv : Listener) (a : Arrival) (call : Call)
    (session : Option Session) :
    Outcome Session Principal :=
  settle do
    let cred ← ofOption (refused call 1 session) (readCredential readers call.credential)
    ensure (cred.service = rpcsecGSSPrivacy ∨ cred.service = rpcsecGSSData) (refused call 1 session)
    let sealed ← ofOption (refused call 1 session) (whole Read.bytes call.body)
    if cred.proc = rpcsecGSSInit ∨ cred.proc = rpcsecGSSCont then
      handleToken E srv a call cred sealed session
    else handleData E a call cred sealed session

/-- A round of `serveConn`. -/
def serveRecord (E : GSS.Env) (srv : Listener) (a : Arrival) (session : Option Session) :
    Outcome Session Principal :=
  match parseCall a.record with
  | .error e => ⟨.error e, none, none⟩
  | .ok call =>
    if call.flavor = rpcsecGSS then handleGSS E srv a call session
    else refused call 1 session

end Kerberos.Iprop
