import Kerberos.Spec.Protocol

/-!
# The display form of principals

`Principal.format` and `parsePrincipal` are `Principal.Format` and `Parse` of the
principal package. The parser is a scan with one byte of look-ahead; its state is
the part being built (a component, or the realm after the `@`) and the components
flushed so far.
-/

namespace Kerberos

def tab : UInt8 := 9
def newline : UInt8 := 10
def backspace : UInt8 := 8
def slash : UInt8 := 47
def atSign : UInt8 := 64
def backslash : UInt8 := 92

/-- The bytes `writeEscaped` emits for one byte. -/
def escapeByte (c : UInt8) : Bytes :=
  if c = slash ∨ c = atSign ∨ c = backslash then [backslash, c]
  else if c = tab then str "\\t"
  else if c = newline then str "\\n"
  else if c = backspace then str "\\b"
  else if c = 0 then str "\\0"
  else [c]

def writeEscaped (value : Bytes) : Bytes := value.flatMap escapeByte

/-- `Principal.Format`. -/
def Principal.format (p : Principal) : Except String Bytes :=
  if p.realm = [] then .error "format principal: empty realm"
  else if p.components = [] then .error "format principal: no components"
  else if [] ∈ p.components then .error "format principal: empty component"
  else .ok ([slash].intercalate (p.components.map writeEscaped) ++ [atSign] ++ writeEscaped p.realm)

/-- `Principal.String`: empty for a principal without a display form. -/
def Principal.display (p : Principal) : Bytes :=
  match p.format with
  | .ok value => value
  | .error _ => []

/-- The byte an escape stands for. -/
def unescapeByte (c : UInt8) : UInt8 :=
  if c = 116 then tab else if c = 110 then newline else if c = 98 then backspace
  else if c = 48 then 0 else c

def NTPrincipal : Int32 := 1

/-- The scan of `Parse` behind the `@`: `realm` is what has been read of it. -/
def parseRealm (components : List Bytes) : Bytes → Bytes → Except String Principal
  | [], realm =>
    if realm = [] then .error "parse principal: empty realm"
      else .ok ⟨realm, NTPrincipal, components⟩
  | [c], realm =>
    if c = backslash then .error "parse principal: trailing escape"
    else if c = slash then .error "parse principal: slash in realm"
    else if c = atSign then .error "parse principal: multiple realms"
    else parseRealm components [] (realm ++ [c])
  | c :: d :: rest, realm =>
    if c = backslash then parseRealm components rest (realm ++ [unescapeByte d])
    else if c = slash then .error "parse principal: slash in realm"
    else if c = atSign then .error "parse principal: multiple realms"
    else parseRealm components (d :: rest) (realm ++ [c])

/-- The scan of `Parse` up to the `@`: `component` is what has been read of the
current component. -/
def parseComponents : Bytes → List Bytes → Bytes → Except String Principal
  | [], _, _ => .error "parse principal: missing realm"
  | [c], components, component =>
    if c = backslash then .error "parse principal: trailing escape"
    else if c = slash ∨ c = atSign then
      if component = [] then .error "parse principal: empty component"
      else if c = slash then parseComponents [] (components ++ [component]) []
      else parseRealm (components ++ [component]) [] []
    else parseComponents [] components (component ++ [c])
  | c :: d :: rest, components, component =>
    if c = backslash then parseComponents rest components (component ++ [unescapeByte d])
    else if c = slash ∨ c = atSign then
      if component = [] then .error "parse principal: empty component"
      else if c = slash then parseComponents (d :: rest) (components ++ [component]) []
      else parseRealm (components ++ [component]) (d :: rest) []
    else parseComponents (d :: rest) components (component ++ [c])

/-- `Parse`. -/
def parsePrincipal (name : Bytes) : Except String Principal :=
  if name = [] then .error "parse principal: empty name" else parseComponents name [] []

example : parsePrincipal (str "a\\/b/c@R\\tX") =
    .ok ⟨str "R\tX", NTPrincipal, [str "a/b", str "c"]⟩ := by rfl

end Kerberos
