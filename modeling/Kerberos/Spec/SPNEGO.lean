import Kerberos.Spec.IOV
import Kerberos.Spec.Initiator
import Kerberos.Spec.NegoEx
import Kerberos.Spec.TLV

/-!
# SPNEGO

The package `spnego`: the tokens of RFC 4178, and the initiator of a negotiation over the Kerberos
mechanism. An object identifier is kept as its content octets; which contents are read as one is a
matter of `encoding/asn1`. `readTLV` of this package makes the checks of the one of `krb5/asn1`,
with texts of its own.

A negotiation is two or three tokens: the initiator's list with the mechanism's first token, the
acceptor's choice with its reply, and a last token of the initiator if the list has to be protected
by a MIC or NegoEx is used.
-/

namespace Kerberos.SPNEGO

open Except

/-- The content octets of an object identifier. -/
abbrev OID := Bytes

def spnegoOID : OID := [0x2b, 0x06, 0x01, 0x05, 0x05, 0x02]
def kerberosOID : OID := [0x2a, 0x86, 0x48, 0x86, 0xf7, 0x12, 0x01, 0x02, 0x02]
def legacyKerberosOID : OID := [0x2a, 0x86, 0x48, 0x82, 0xf7, 0x12, 0x01, 0x02, 0x02]
def negoexOID : OID := [0x2b, 0x06, 0x01, 0x04, 0x01, 0x82, 0x37, 0x02, 0x02, 0x1e]

/-- The packages around a negotiation. -/
structure Env where
  gss : GSS.Env
  initiator : GSS.InitiatorEnv
  /-- `encoding/asn1` reads an object identifier of this content. -/
  validOID : Bytes → Bool

/-- What an error says: its text, or that it comes from the mechanism or from `encoding/asn1`. -/
inductive Failure
  | text (s : String)
  | mechanism
  | oid
  deriving DecidableEq

/-! ## Tokens -/

inductive NegState
  | acceptCompleted
  | acceptIncomplete
  | reject
  | requestMIC
  deriving DecidableEq

def NegState.code : NegState → UInt8
  | .acceptCompleted => 0
  | .acceptIncomplete => 1
  | .reject => 2
  | .requestMIC => 3

def NegState.ofCode (code : UInt8) : Option NegState :=
  if code = 0 then some .acceptCompleted
  else if code = 1 then some .acceptIncomplete
  else if code = 2 then some .reject
  else if code = 3 then some .requestMIC
  else none

structure NegTokenInit where
  mechTypes : List OID := []
  reqFlags : Bytes := []
  mechToken : Option Bytes := none
  mechListMIC : Option Bytes := none
  deriving DecidableEq

/-- A state that is not given is `NegStateUnset` in the code. -/
structure NegTokenResp where
  negState : Option NegState := none
  supportedMech : Option OID := none
  responseToken : Option Bytes := none
  mechListMIC : Option Bytes := none
  deriving DecidableEq

inductive Token
  | init (token : NegTokenInit)
  | resp (token : NegTokenResp)
  deriving DecidableEq

def tlv (tag : UInt8) (value : Bytes) : Bytes := ASN1.encodeTLV tag value

/-- `readTLV`: the tag, the content and the rest. -/
def readTLV (data : Bytes) : Except Failure (UInt8 × Bytes × Bytes) :=
  match ASN1.readTLV data with
  | .ok e => .ok (e.tag, e.content, data.drop e.size)
  | .error _ =>
    .error
      (.text (if data.length < 2 then "SPNEGO: truncated DER" else "SPNEGO: invalid DER length"))

/-- An element of one tag that is the whole of the data. -/
def readOnly (tag : UInt8) (data : Bytes) (err : String) : Except Failure Bytes :=
  match readTLV data with
  | .ok (found, value, rest) => if found = tag ∧ rest = [] then .ok value else .error (.text err)
  | .error _ => .error (.text err)

def mustOID (oid : OID) : Bytes := tlv 0x06 oid

def encodeMechTypes (mechs : List OID) : Bytes := tlv 0x30 (mechs.flatMap mustOID)

def mechListDER (mechs : List OID) : Bytes := encodeMechTypes mechs

variable {α : Type}

/-- A field that may be missing. -/
def optionalField (value : Option α) (encode : α → Bytes) : Bytes := value.elim [] encode

def octetField (tag : UInt8) (value : Option Bytes) : Bytes :=
  optionalField value fun v => tlv tag (tlv 0x04 v)

def encodeResp (resp : NegTokenResp) : Bytes :=
  tlv 0x30 (optionalField resp.negState (fun s => tlv 0xa0 (tlv 0x0a [s.code])) ++
    optionalField resp.supportedMech (fun mech => tlv 0xa1 (mustOID mech)) ++
    octetField 0xa2 resp.responseToken ++ octetField 0xa3 resp.mechListMIC)

def encodeBareResp (resp : NegTokenResp) : Bytes := tlv 0xa1 (encodeResp resp)

variable (E : Env)

def parseOIDValue (value : Bytes) : Except Failure OID :=
  if E.validOID value then .ok value else .error .oid

def parseOID (data : Bytes) : Except Failure OID := do
  let value ← readOnly 0x06 data "SPNEGO: invalid mechanism OID"
  parseOIDValue E value

/-- `decodeOctet`: an empty string is read as nil. -/
def decodeOctet (data : Bytes) : Except Failure (Option Bytes) := do
  let value ← readOnly 0x04 data "SPNEGO: invalid OCTET STRING"
  .ok (if value = [] then none else some value)

/-- The loops over the elements of a sequence; the fuel is the number of octets left. -/
def eachElement {α : Type} (step : α → UInt8 → Bytes → Except Failure α) :
    ℕ → Bytes → α → Except Failure α
  | _, [], out => .ok out
  | 0, _ :: _, _ => .error (.text "SPNEGO: truncated DER")
  | fuel + 1, value@(_ :: _), out => do
    let (tag, field, next) ← readTLV value
    let out ← step out tag field
    eachElement step fuel next out

/-- The loop of `decodeMechTypes`, which has a text of its own for every fault of an element. -/
def mechTypesLoop (E : Env) : ℕ → Bytes → Except Failure (List OID)
  | _, [] => .ok []
  | 0, _ :: _ => .error (.text "SPNEGO mechanism list: invalid OID")
  | fuel + 1, value@(_ :: _) =>
    match readTLV value with
    | .ok (tag, oid, next) =>
      if tag = 0x06 then do
        let parsed ← parseOIDValue E oid
        let mechs ← mechTypesLoop E fuel next
        .ok (parsed :: mechs)
      else .error (.text "SPNEGO mechanism list: invalid OID")
    | .error _ => .error (.text "SPNEGO mechanism list: invalid OID")

def decodeMechTypes (data : Bytes) : Except Failure (List OID) := do
  let value ← readOnly 0x30 data "SPNEGO mechanism list: invalid sequence"
  mechTypesLoop E value.length value

def decodeReqFlags (field : Bytes) : Except Failure Bytes := do
  let (tag, bitString, rest) ← readTLV field
  ensure (¬ (tag ≠ 0x03 ∨ rest ≠ [] ∨ bitString = [] ∨ 7 < bitString.headD 0))
    (.text "SPNEGO NegTokenInit: invalid reqFlags")
  .ok bitString

def initField (out : NegTokenInit) (tag : UInt8) (field : Bytes) : Except Failure NegTokenInit :=
  if tag = 0xa0 then do
    let mechTypes ← decodeMechTypes E field
    .ok { out with mechTypes }
  else if tag = 0xa1 then do
    let reqFlags ← decodeReqFlags field
    .ok { out with reqFlags }
  else if tag = 0xa2 then do
    let mechToken ← decodeOctet field
    .ok { out with mechToken }
  else if tag = 0xa3 then do
    let mechListMIC ← decodeOctet field
    .ok { out with mechListMIC }
  else .error (.text "SPNEGO NegTokenInit: unexpected tag")

def decodeInit (data : Bytes) : Except Failure NegTokenInit := do
  let value ← readOnly 0x30 data "SPNEGO NegTokenInit: invalid sequence"
  let out ← eachElement (initField E) value.length value {}
  Except.ensure (out.mechTypes ≠ []) (.text "SPNEGO NegTokenInit: missing mechanism list")
  .ok out

/-- The tag of the state is not looked at. -/
def decodeNegState (field : Bytes) : Except Failure NegState :=
  match readTLV field with
  | .ok (_, [code], _) =>
    Except.ofOption (.text "SPNEGO NegTokenResp: invalid negState") (NegState.ofCode code)
  | _ => .error (.text "SPNEGO NegTokenResp: invalid negState")

def respField (out : NegTokenResp) (tag : UInt8) (field : Bytes) : Except Failure NegTokenResp :=
  if tag = 0xa0 then do
    let negState ← decodeNegState field
    .ok { out with negState := some negState }
  else if tag = 0xa1 then do
    let mech ← parseOID E field
    .ok { out with supportedMech := some mech }
  else if tag = 0xa2 then do
    let responseToken ← decodeOctet field
    .ok { out with responseToken }
  else if tag = 0xa3 then do
    let mechListMIC ← decodeOctet field
    .ok { out with mechListMIC }
  else .error (.text "SPNEGO NegTokenResp: unexpected tag")

def decodeResp (data : Bytes) : Except Failure NegTokenResp := do
  let value ← readOnly 0x30 data "SPNEGO NegTokenResp: invalid sequence"
  eachElement (respField E) value.length value {}

def unframe (data : Bytes) : Except Failure Bytes := do
  let value ← readOnly 0x60 data "SPNEGO: invalid GSS framing"
  Except.ensure (2 ≤ value.length) (.text "SPNEGO: missing mechanism OID")
  match readTLV value with
  | .ok (tag, oid, rest) =>
    if tag ≠ 0x06 ∨ rest.length = value.length then .error (.text "SPNEGO: invalid mechanism OID")
    else if E.validOID oid ∧ oid = spnegoOID then .ok rest
    else .error (.text "SPNEGO: unexpected mechanism OID")
  | .error _ => .error (.text "SPNEGO: invalid mechanism OID")

/-- What stands in the frame, if there is one. -/
def unframed (data : Bytes) : Except Failure Bytes :=
  if data.head? = some 0x60 then unframe E data else .ok data

def decodeToken (data : Bytes) : Except Failure Token := do
  let body ← unframed E data
  match readTLV body with
  | .ok (tag, choice, []) =>
    if tag = 0xa0 then Token.init <$> decodeInit E choice
    else if tag = 0xa1 then Token.resp <$> decodeResp E choice
    else .error (.text "SPNEGO token: unsupported choice tag")
  | _ => .error (.text "SPNEGO token: invalid negotiation choice")

/-- A token that has to be the acceptor's. -/
def decodeAsResp (data : Bytes) (err : String) : Except Failure NegTokenResp :=
  match decodeToken E data with
  | .ok (.resp resp) => .ok resp
  | _ => .error (.text err)

/-! ## Mechanisms -/

def isKerberos (oid : OID) : Bool := oid == kerberosOID || oid == legacyKerberosOID

/-- An error of the mechanism. -/
def ofMech (x : Option α) : Except Failure α := ofOption .mechanism x

def ofNegoEx (x : Except String α) : Except Failure α := x.mapError .text

/-- A VERIFY message of a token, checked by the state of the conversation. -/
def verifyMessage (s : NegoEx.State) (lucid : Option EncryptionKey) (token : Bytes) (side : String)
    (m : NegoEx.Message) : Except Failure Unit := do
  Except.ensure (m.authScheme = s.scheme)
    (.text (side ++ ": NegoEx verify: unexpected auth scheme"))
  ofOption .mechanism (s.verify E.gss.ap.etype lucid m (token.take m.offset))

/-- The VERIFY messages of a token: all are checked, and there is one. -/
def verifyAll (s : NegoEx.State) (lucid : Option EncryptionKey) (token : Bytes) (side : String)
    (messages : List NegoEx.Message) : Except Failure Unit := do
  let verifies := messages.filter fun m => m.type == .verify
  verifies.forM (verifyMessage E s lucid token side)
  Except.ensure (verifies ≠ []) (.text (side ++ ": missing NegoEx verification"))

/-! ## The initiator -/

structure Initiator where
  mech : GSS.Initiator
  /-- The list that was sent. -/
  mechList : Option (List OID) := none
  needMIC : Bool := false
  complete : Bool := false
  negoex : Option NegoEx.State := none

/-- The initiator in the texts of errors. -/
def initiatorText : String := "SPNEGO initiator"

namespace Initiator

/-- The CHALLENGE messages: one with a token is the AP-REP. -/
def challenges (E : Env) : GSS.Initiator → List NegoEx.Message → Except Failure GSS.Initiator
  | mech, [] => .ok mech
  | mech, m :: messages =>
    if m.type = .challenge ∧ m.token ≠ [] then do
      let mech ← ofMech (mech.verifyToken E.initiator m.token)
      challenges E mech messages
    else challenges E mech messages

/-- `Continue` of a NegoEx conversation. -/
def continueNegoEx (i : Initiator) (s : NegoEx.State) (resp : NegTokenResp) :
    Except Failure (Option Bytes × Initiator) := do
  let token ← Except.ofOption (.text "SPNEGO initiator: missing NegoEx response") resp.responseToken
  let messages ← ofNegoEx (NegoEx.decode token)
  ofNegoEx (s.validate messages)
  let mech ← challenges E i.mech messages
  -- `Context` of the mechanism fails before there is one
  let _ ← ofMech mech.ctx
  verifyAll E s mech.lucid token initiatorText messages
  let (_, s) ← ofNegoEx (s.receive token)
  let (checksum, checksumType) ← ofMech (s.checksum E.gss.ap.etype mech.lucid)
  let (out, s) ← ofNegoEx
      (s.append [{ type := .verify, authScheme := s.scheme, checksumType, checksum }])
  .ok (some (encodeBareResp {
      negState := some .acceptCompleted, supportedMech := some negoexOID, responseToken :=
        some out }),
    { i with mech, complete := true, negoex := some s })

/-- The mechanism's reply, if there is one. -/
def verifyReply (mech : GSS.Initiator) (reply : Option Bytes) : Except Failure GSS.Initiator :=
  match reply with
  | some token => ofMech (mech.verifyToken E.initiator token)
  | none => .ok mech

/-- The acceptor's MIC over the list, if there is one. -/
def verifyListMIC (mech : GSS.Initiator) (mechList : List OID) (mic : Option Bytes) :
    Except Failure GSS.Initiator :=
  match mic with
  | some mic => do
    let ctx ← ofMech mech.ctx
    let ctx ← ofMech (ctx.verifyMIC E.gss (mechListDER mechList) mic)
    .ok { mech with ctx := some ctx }
  | none => .ok mech

/-- The initiator's own MIC, where it is needed. -/
def sendListMIC (mech : GSS.Initiator) (mechList : List OID) (needMIC : Bool) (selected : OID) :
    Except Failure (Option Bytes × GSS.Initiator) :=
  if needMIC then do
    let ctx ← ofMech mech.ctx
    let (mic, ctx) ← ofMech (ctx.mic E.gss (mechListDER mechList))
    .ok (some (encodeBareResp {
      negState := some .acceptCompleted, supportedMech := some selected, mechListMIC := some mic }),
      { mech with ctx := some ctx })
  else .ok (none, mech)

/-- The mechanism the acceptor selected. -/
def selected (resp : NegTokenResp) : OID := resp.supportedMech.getD kerberosOID

/-- A MIC over the list is needed: the acceptor asks for it, or did not take the first mechanism. -/
def requiresMIC (mechList : List OID) (resp : NegTokenResp) : Bool :=
  resp.negState == some .requestMIC || mechList.head? != some (selected resp)

/-- `Continue` without NegoEx. -/
def continuePlain (i : Initiator) (mechList : List OID) (resp : NegTokenResp) :
    Except Failure (Option Bytes × Initiator) := do
  let needMIC := requiresMIC mechList resp
  ensure (¬ (resp.negState = some .acceptCompleted ∧ resp.responseToken = none))
    (.text "SPNEGO initiator: missing mechanism response")
  ensure (¬ (needMIC = true ∧ resp.mechListMIC = none))
    (.text "SPNEGO initiator: missing required mechListMIC")
  let mech ← verifyReply E i.mech resp.responseToken
  let mech ← verifyListMIC E mech mechList resp.mechListMIC
  let (out, mech) ← sendListMIC E mech mechList needMIC (selected resp)
  .ok (out, { i with mech, needMIC, complete := true })

/-- `Continue`: a token to send, or none when nothing is left to say. -/
def «continue» (i : Initiator) (token : Bytes) : Except Failure (Option Bytes × Initiator) := do
  let mechList ← Except.ofOption (.text "SPNEGO initiator: context is not initialized") i.mechList
  let resp ← decodeAsResp E token initiatorText
  Except.ensure (resp.negState ≠ some .reject)
    (.text "SPNEGO initiator: acceptor rejected negotiation")
  ensure (if i.negoex.isSome then selected resp = negoexOID else isKerberos (selected resp) = true)
    (.text "SPNEGO initiator: unsupported selected mechanism")
  match i.negoex with
  | some s => i.continueNegoEx E s resp
  | none => i.continuePlain E mechList resp

end Initiator

end Kerberos.SPNEGO
