import Kerberos.Lib.Except
import Kerberos.Lib.Runes
import Kerberos.Spec.Principal

/-!
# The transited realms of a ticket

The realms a ticket has come through, as one string: DOMAIN-X500-COMPRESS. A field that
begins with a slash stands for the realm before it and what is added to it, one that ends
with a dot for what is put in front of it. Commas and backslashes in names are escaped.

The encoder compares the escaped names. The decoder takes the escaped field, adds the
realm before it as it was decoded, and removes the escapes from the whole.
-/

namespace Kerberos.Transited

open Runes

def comma : UInt8 := 44
def dot : UInt8 := 46
def space : UInt8 := 32

/-- `strings.ReplaceAll` of one byte. -/
def replaceAll (value : Bytes) (old : UInt8) (new : Bytes) : Bytes :=
  value.flatMap fun c => if c = old then new else [c]

def escapeTransited (value : Bytes) : Bytes :=
  replaceAll (replaceAll value backslash [backslash, backslash]) comma [backslash, comma]

/-- The loop of `unescapeTransited`, over the runes of the value. -/
def unescapeRunes : Bool → List Bytes → Bytes
  | _, [] => []
  | true, char :: rest => char ++ unescapeRunes false rest
  | false, char :: rest =>
    if char = [backslash] then unescapeRunes true rest else char ++ unescapeRunes false rest

def unescapeTransited (value : Bytes) : Bytes := unescapeRunes false (runes value)

/-- The field for a realm behind another, both escaped. -/
def compress (previous realm : Bytes) : Bytes :=
  if previous <+: realm ∧ [slash] <+: realm.drop previous.length then realm.drop previous.length
  else if previous.length < realm.length ∧ previous <:+ realm ∧
      realm[realm.length - previous.length - 1]? = some dot then
    -- `strings.TrimSuffix`
    let field := realm.take (realm.length - previous.length)
    if [dot] <:+ field then field else field ++ [dot]
  else realm

/-- The loop of `encodeTransited`. -/
def encodeFields (previous : Bytes) : List Bytes → Except String (List Bytes)
  | [] => .ok []
  | realm :: realms => do
    Except.ensure (realm ≠ [] ∧ 0 ∉ realm) "invalid transited realm"
    let realm := escapeTransited realm
    let field := if previous = [] then realm else compress previous realm
    let fields ← encodeFields realm realms
    .ok (field :: fields)

def encodeTransited (realms : List Bytes) : Except String Bytes := do
  let fields ← encodeFields [] realms
  .ok ([comma].intercalate fields)

/-- The value of a field behind the last realm decoded, still with its escapes. -/
def expand (last : Option Bytes) (value : Bytes) : Bytes :=
  if [space] <+: value then value.drop 1
  else match last with
    | none => value
    | some last =>
      if [slash] <+: value ∧ [slash] <+: last then last ++ value
      else if [dot] <:+ value then value ++ last
      else value

def flush (fields : List Bytes) (value : Bytes) : Except String (List Bytes) :=
  if value = [] then .ok fields
  else if unescapeTransited (expand fields.getLast? value) = [] then .error "empty transited realm"
  else .ok (fields ++ [unescapeTransited (expand fields.getLast? value)])

/-- The loop of `decodeTransited`: the realms decoded, the field being read, and whether the
byte before was a backslash that escapes. -/
def scan (fields : List Bytes) (field : Bytes) : Bool → Bytes → Except String (List Bytes)
  | true, [] => .error "transited field ends with escape"
  | false, [] => flush fields field
  | true, char :: rest => scan fields (field ++ [char]) false rest
  | false, char :: rest =>
    if char = backslash then scan fields (field ++ [char]) true rest
    else if char = comma then do
      let fields ← flush fields field
      scan fields [] false rest
    else scan fields (field ++ [char]) false rest

def decodeTransited (contents : Bytes) : Except String (List Bytes) :=
  if contents = [] then .ok [] else scan [] [] false contents

def appendTransited (contents realm : Bytes) : Except String Bytes := do
  let realms ← decodeTransited contents
  encodeTransited (realms ++ [realm])

end Kerberos.Transited
