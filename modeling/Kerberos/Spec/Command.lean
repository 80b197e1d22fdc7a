import Kerberos.Lib.Except
import Kerberos.Lib.Runes
import Kerberos.Spec.Protocol

/-!
# The command lines of kadmin

`splitCommand` cuts a line into arguments, with quotes and escapes, character by character.
`RunInteractive` executes a query, the arguments of the program joined with spaces, or the
lines it reads.
-/

namespace Kerberos.KAdmin

/-- `splitCommand` between two characters. A character is kept as the bytes it is written as. -/
structure Splitter where
  out : List Bytes := []
  b : Bytes := []
  quote : Option Bytes := none
  escaped : Bool := false

def escape : Bytes := [0x5C]

def quotes : List Bytes := [[0x27], [0x22]]

def blanks : List Bytes := [[0x20], [0x09], [0x0D], [0x0A]]

/-- The argument that was begun is complete. -/
def Splitter.flush (s : Splitter) : Splitter :=
  if s.b = [] then s else { s with out := s.out ++ [s.b], b := [] }

def Splitter.next (s : Splitter) (r : Bytes) : Splitter :=
  if s.escaped then { s with b := s.b ++ r, escaped := false }
  else if r = escape then { s with escaped := true }
  else match s.quote with
    | some quote => if r = quote then { s with quote := none } else { s with b := s.b ++ r }
    | none =>
      if quotes.contains r then { s with quote := some r }
      else if blanks.contains r then s.flush
      else { s with b := s.b ++ r }

def splitCommand (line : Bytes) : Except String (List Bytes) := do
  let s := (Runes.runes line).foldl Splitter.next {}
  Except.ensure (¬ (s.escaped ∨ s.quote.isSome)) "unterminated quote or escape"
  return s.flush.out

/-- `executeArgs` of an engine, with the hook behind a command that changes something: whether exit
is asked for, or an error. -/
structure Engine (σ : Type) where
  executeArgs : List Bytes → σ → Except String Bool × σ

variable {σ : Type} (e : Engine σ)

def Engine.execute (line : Bytes) (s : σ) : Except String Bool × σ :=
  match splitCommand line with
  | .error err => (.error err, s)
  | .ok [] => (.ok false, s)
  | .ok args => e.executeArgs args s

/-- `RunInteractive` returns the error, but not whether exit was asked for. -/
def returned (r : Except String Bool × σ) : Except String Unit × σ := (r.1.map fun _ => (), r.2)

def trimSuffix (line : Bytes) (c : UInt8) : Bytes :=
  if line.getLast? = some c then line.dropLast else line

/-- The loop over the lines of the input, and `failure` behind them: reading on is an error, or the
end. An error of a command is printed. -/
def Engine.prompt (failure : Option String) : List Bytes → σ → Except String Unit × σ
  | [], s => (failure.elim (.ok ()) .error, s)
  | [] :: _, s => (.ok (), s)
  | line :: lines, s =>
    let r := e.execute (trimSuffix (trimSuffix line 0x0A) 0x0D) s
    match r.1 with
    | .ok true | .error "EOF" => (.ok (), r.2)
    | _ => Engine.prompt failure lines r.2

def Engine.runInteractive (query : Bytes) (args lines : List Bytes)
    (failure : Option String) (s : σ) :
    Except String Unit × σ :=
  if query ≠ [] then returned (e.execute query s)
  else if args ≠ [] then returned (e.execute ([(0x20 : UInt8)].intercalate args) s)
  else e.prompt failure lines s

end Kerberos.KAdmin
