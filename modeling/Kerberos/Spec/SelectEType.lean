import Kerberos.Spec.Messages

/-!
# The choice of an enctype

`SelectEType` of the package `preauth`: the client takes an enctype, the salt and the string-to-key
parameters from the first hint of the KDC that offers an enctype it supports.
-/

namespace Kerberos.Preauth

open ASN1

def PADataETypeInfo : Int32 := 11
def PADataETypeInfo2 : Int32 := 19

structure ETypeInfo2Entry where
  eType : Int32
  salt : Option Bytes := none
  s2kParams : Bytes := []
  deriving DecidableEq

/-- `asn1.Unmarshal` of an ETYPE-INFO2. -/
def unmarshalInfo2 (data : Bytes) : Except String (List ETypeInfo2Entry) :=
  (unmarshal Messages.eTypeInfo2 data).map fun (v : Option (List Messages.eTypeInfo2Entry.Val)) =>
    (v.getD []).map
      fun ((eType, salt, s2kParams, _) : Int32 × Option Bytes × Option Bytes × Unit) =>
      { eType, salt, s2kParams := s2kParams.getD [] }

/-- `asn1.Unmarshal` of an ETYPE-INFO, with its entries in the newer form. -/
def unmarshalInfo (data : Bytes) : Except String (List ETypeInfo2Entry) :=
  (unmarshal Messages.eTypeInfo data).map fun (v : Option (List Messages.eTypeInfoEntry.Val)) =>
    (v.getD []).map fun ((eType, salt, _) : Int32 × Option (Option Bytes) × Unit) =>
      { eType, salt := salt.map (·.getD []) }

/-- The arguments of `SelectEType` besides the padata. -/
structure Selector where
  realm : Bytes
  name : Principal
  registry : Int32 → Bool
  offered : List Int32 := []

abbrev Choice := Int32 × Bytes × Bytes

/-- The entries of an element; one that is not a hint has none. -/
def hints (pa : PAData) : Except String (List ETypeInfo2Entry) :=
  if pa.paDataType = PADataETypeInfo2 then
    (unmarshalInfo2 pa.paDataValue).within "parse ETYPE-INFO2: "
  else if pa.paDataType = PADataETypeInfo then
    (unmarshalInfo pa.paDataValue).within "parse ETYPE-INFO: "
  else .ok []

namespace Selector

variable (S : Selector)

def defaultSalt : Bytes := S.realm ++ S.name.components.flatten

/-- The entries in the order of the client's preference, if it has one. -/
def candidates (entries : List ETypeInfo2Entry) : List ETypeInfo2Entry :=
  if S.offered = [] then entries
  else S.offered.flatMap fun preferred => entries.filter fun entry => entry.eType = preferred

/-- What is returned for an entry. -/
def choice (entry : ETypeInfo2Entry) : Choice :=
  (entry.eType, entry.salt.getD S.defaultSalt, entry.s2kParams)

/-- What one element gives. -/
def choose (pa : PAData) : Except String (Option Choice) := do
  let entries ← hints pa
  .ok (((S.candidates entries).find? fun entry => S.registry entry.eType).map S.choice)

def selectEType : MethodData → Except String Choice
  | [] => .error "select preauthentication enctype"
  | pa :: methodData => do
    match ← S.choose pa with
    | some choice => .ok choice
    | none => selectEType methodData

end Selector

end Kerberos.Preauth
