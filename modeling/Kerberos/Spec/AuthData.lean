import Kerberos.Spec.Messages
import Kerberos.Spec.Server

/-!
# Import of authorization data

`Context.Import` of the package `authdata`, with the functions of the package `cammac` it calls. The
elements are walked down through the containers AD-IF-RELEVANT, AD-KDC-ISSUED and AD-CAMMAC; what is
found is handed to the modules, with a mark if a KDC vouched for it.

The recursion of `unwrap` is by fuel. The modules keep a state of their own, of any type.
-/

namespace Kerberos.AuthData

open ASN1 Messages

/-! ## Elements -/

abbrev Entry := authorizationDataEntry.Val

def adType (entry : Entry) : Int32 := entry.1

def adData (entry : Entry) : Bytes := (entry.2.1 : Option Bytes).getD []

/-- The elements of a list. -/
def entries (data : authorizationData.Val) : List Entry := (data : Option (List Entry)).getD []

def ADIfRelevant : Int32 := 1
def ADKDCIssued : Int32 := 4
def ADCAMMAC : Int32 := 96

def ADUsageKDCIssued : Flags := 0x08
def ADInformational : Flags := 0x10
def ADCAMMACProtected : Flags := 0x20

/-- `checksumEType`. The registry of enctypes is a parameter. -/
def checksumEType (registry : Int32 → Option EType) (checksumType : Int32) : Except String EType :=
  let enctype : Option Int32 :=
    if checksumType = 15 then some 17
    else if checksumType = 16 then some 18
    else if checksumType = 17 then some 25
    else if checksumType = 18 then some 26
    else if checksumType = 19 then some 19
    else if checksumType = 20 then some 20
    else none
  match enctype with
  | none => .error "authdata: unsupported keyed checksum type"
  | some enctype => Except.ofOption "unsupported encryption type" (registry enctype)

/-! ## CAMMAC -/

namespace Cammac

/-- The elements of a CAMMAC. -/
def elements (value : cammac.Val) : authorizationData.Val := value.1

def kdcVerifier (value : cammac.Val) : Option verifierMAC.Val := value.2.1

def svcVerifier (value : cammac.Val) : Option verifierMAC.Val := value.2.2.1

def otherVerifiers (value : cammac.Val) : List verifierMAC.Val :=
  (value.2.2.2.1 : Option (List verifierMAC.Val)).getD []

/-- The checksum of a verifier. -/
def mac (verifier : verifierMAC.Val) : Bytes := (verifier.2.2.2.1.2.1 : Option Bytes).getD []

def parse (data : Bytes) : Except String cammac.Val := do
  let value ← Except.within "CAMMAC: " (unmarshal Messages.cammac data)
  Except.ensure (entries (elements value) ≠ []) "CAMMAC: invalid CAMMAC: missing elements"
  Except.ensure (¬ ((kdcVerifier value).isNone = true ∧ (svcVerifier value).isNone = true ∧
    otherVerifiers value = []))
    "CAMMAC: invalid CAMMAC: missing verifiers"
  .ok value

/-- The CAMMACs of one outer element. -/
def findIn (outer : Entry) : Except String (List cammac.Val) :=
  if adType outer ≠ ADIfRelevant then .ok []
  else do
    let inner ← Except.within "CAMMAC IF-RELEVANT: "
      (unmarshal Messages.authorizationData (adData outer))
    ((entries inner).filter fun entry => adType entry == ADCAMMAC).mapM fun entry =>
      parse (adData entry)

def find (data : List Entry) : Except String (List cammac.Val) := do
  let found ← data.mapM findIn
  Except.ensure (found.flatten ≠ []) "CAMMAC not found"
  .ok found.flatten

/-- The service verifier of one CAMMAC. -/
def verifyOne (etype : EType) (key : EncryptionKey) (value : cammac.Val) : Except String Unit :=
  match svcVerifier value with
  | none => .error "CAMMAC: invalid CAMMAC: missing service verifier"
  | some verifier => do
    let encoded ← Except.within "CAMMAC authorization data: "
      (marshal Messages.authorizationData (elements value))
    Except.ensure (etype.verifyChecksum key.keyValue 64 encoded (mac verifier) = true)
      "CAMMAC service verifier"

def verifyService (registry : Int32 → Option EType) (data : List Entry) (key : EncryptionKey) :
    Except String (List Entry) := do
  let values ← find data
  let etype ← Except.ofOption "unsupported encryption type" (registry key.keyType)
  values.forM (verifyOne etype key)
  .ok (values.flatMap fun value => entries (elements value))

def protectedElements (data : List Entry) : Except String (List Entry) := do
  let values ← find data
  .ok (values.flatMap fun value => entries (elements value))

def hasCAMMAC (data : List Entry) : Bool := (find data).isOk

end Cammac

/-! ## KDC-ISSUED -/

namespace Issued

def elements (issued : kdcIssued.Val) : authorizationData.Val := issued.2.2.2.1

def checksumType (issued : kdcIssued.Val) : Int32 := issued.1.1

def mac (issued : kdcIssued.Val) : Bytes := (issued.1.2.1 : Option Bytes).getD []

/-- The issuer that the element names, if it names one. -/
def issuer (issued : kdcIssued.Val) : Option Principal :=
  match (issued.2.1 : Option Bytes), (issued.2.2.1 : Option principalName.Val) with
  | some realm, some name => some ⟨realm, name.1, (name.2.1 : Option (List Bytes)).getD []⟩
  | _, _ => none

end Issued

/-! ## The walk -/

/-- `importedAuthData`. -/
structure Item where
  entry : Entry
  usage : Flags
  authenticated : Bool
  issuer : Option Principal

/-- What is the same for a whole walk. -/
structure Walk where
  registry : Int32 → Option EType
  ticket : Option EncTicketPart
  key : EncryptionKey

/-- A call of `unwrap` for the elements of a container. -/
abbrev Recur := List Entry → Flags → Bool → Option Principal → Except String (List Item)

namespace Walk

variable (w : Walk)

def unwrapCAMMAC (recur : Recur) (data : List Entry) (usage : Flags) (issuer : Option Principal) :
    Except String (List Item) := do
  Except.ensure (¬ (w.key.keyValue = [] ∨ w.ticket.isNone = true ∨ Cammac.hasCAMMAC data = false))
    "CAMMAC not found"
  let _ ← Cammac.verifyService w.registry data w.key
  let protectedData ← Cammac.protectedElements data
  recur protectedData (usage ||| ADCAMMACProtected) true issuer

/-- An element of an AD-IF-RELEVANT. A CAMMAC is wrapped again, alone, to be verified; if it cannot
be, it is an element like others. -/
def unwrapInner (recur : Recur) (usage : Flags) (authenticated : Bool) (issuer : Option Principal)
    (inner : Entry) :
    Except String (List Item) :=
  if adType inner = ADCAMMAC then do
    let wrapped ← marshal authorizationData (some [inner] : Option (List Entry))
    match w.unwrapCAMMAC recur [((ADIfRelevant, some wrapped, ()) : Entry)] usage issuer with
    | .ok items => .ok items
    | .error _ => recur [inner] usage authenticated issuer
  else recur [inner] usage authenticated issuer

/-- The element of a KDC-ISSUED is verified, if there is a key to do it. -/
def verifyIssued (issued : kdcIssued.Val) : Except String Bool := do
  let encoded ← marshal authorizationData (Issued.elements issued)
  let etype ← checksumEType w.registry (Issued.checksumType issued)
  if w.key.keyValue = [] then .ok false
  else do
    Except.ensure (etype.verifyChecksum w.key.keyValue 19 encoded (Issued.mac issued) = true)
      "authdata KDC-ISSUED checksum"
    .ok true

/-- One element. -/
def unwrapEntry (recur : Recur) (usage : Flags) (authenticated : Bool) (issuer : Option Principal)
    (entry : Entry) :
    Except String (List Item) :=
  if adType entry = ADIfRelevant then do
    let inner ← Except.within "authdata IF-RELEVANT: "
      (unmarshal Messages.authorizationData (adData entry))
    let items ← (entries inner).mapM (w.unwrapInner recur usage authenticated issuer)
    .ok items.flatten
  else if adType entry = ADKDCIssued then do
    let issued ← Except.within "authdata KDC-ISSUED: " (unmarshal Messages.kdcIssued (adData entry))
    let verified ← w.verifyIssued issued
    recur (entries (Issued.elements issued))
      (if verified then usage ||| ADUsageKDCIssued else usage)
      (authenticated || verified) ((Issued.issuer issued).or issuer)
  else .ok [⟨entry, usage, authenticated, issuer⟩]

/-- One call of `unwrap`. -/
def unwrapLevel (recur : Recur) : Recur := fun data usage authenticated issuer => do
  let items ← data.mapM (w.unwrapEntry recur usage authenticated issuer)
  .ok items.flatten

/-- `unwrap`, going down `fuel` levels; below them is `bottom`. -/
def unwrap (bottom : Recur) : ℕ → Recur
  | 0 => bottom
  | fuel + 1 => w.unwrapLevel (unwrap bottom fuel)

end Walk

/-- The octets of the elements, which bound how deep the containers are nested. -/
def size (data : List Entry) : ℕ := (data.map fun entry => (adData entry).length + 1).sum

/-! ## Modules -/

/-- A module, with a state. -/
structure Module (σ : Type) where
  name : String
  flags : Int32 → Flags
  importAuthData : Entry → Bool → Option Principal → σ → Except String Unit × σ

/-- A call of a module. -/
structure Call where
  module : String
  item : Item

/-- What a loop over calls does: the calls that are made, and how it ends. -/
abbrev Outcome (σ : Type) := List Call × Except String Unit × σ

/-- A call before others. -/
def Outcome.after {σ : Type} (call : Call) (outcome : Outcome σ) : Outcome σ :=
  (call :: outcome.1, outcome.2)

/-- The loop over the elements for one module. -/
def importItems {σ : Type} (module : Module σ) : List Item → σ → Outcome σ
  | [], s => ([], .ok (), s)
  | item :: items, s =>
    let flags := module.flags (adType item.entry)
    if flags &&& item.usage = 0 then importItems module items s
    else
      match module.importAuthData item.entry item.authenticated item.issuer s with
      | (.ok _, s) => (importItems module items s).after ⟨module.name, item⟩
      | (.error err, s) =>
        if flags &&& ADInformational ≠ 0 then (importItems module items s).after ⟨module.name, item⟩
        else ([⟨module.name, item⟩], .error err, s)

/-- The loop over the modules. -/
def importModules {σ : Type} (items : List Item) : List (Module σ) → σ → Outcome σ
  | [], s => ([], .ok (), s)
  | module :: modules, s =>
    match importItems module items s with
    | (calls, .error err, s) => (calls, .error err, s)
    | (calls, .ok _, s) =>
      (calls ++ (importModules items modules s).1, (importModules items modules s).2)

/-- `Import`: the calls of modules that it makes, and how it ends. -/
def importData {σ : Type} (w : Walk) (modules : List (Module σ)) (data : List Entry)
    (usage : Flags) (s : σ) :
    Outcome σ :=
  match w.unwrap (fun _ _ _ _ => .error "") (size data + 1) data usage false none with
  | .error err => ([], .error err, s)
  | .ok items => importModules items modules s

end Kerberos.AuthData
