import Kerberos.Lib.Except
import Kerberos.Lib.Run
import Kerberos.Spec.AP
import Kerberos.Spec.Sample

/-!
# One call of the acceptor

What a call does to the state, whichever replay cache it is tested in; and an acceptor
small enough to evaluate.
-/

namespace Kerberos.AP

open RCache

variable {E : Env} {skew : ℤ} {w w' : World} {c : Call} {o : Opened}

@[simp]
theorem orError_ok {α : Type} {o : Option α} {text : String} {cause : Cause} {a : α} :
    orError o text cause = .ok a ↔ o = some a := by
  cases o <;> simp [orError]

/-- The call accepts a request with the encrypted authenticator `i`, on the word of the
configured cache or of the local one. -/
def Accepts (E : Env) (skew : ℤ) (persistent : Bool) (i : EncAuthenticator) (w : World) (c : Call) :
    Prop :=
  c.persistent = persistent ∧ (∃ o, c.reads E skew o ∧ o.encAuthenticator = i) ∧
    ∃ v, c.answer E skew w = .ok v

/-- The state behind a call: that of the replay test, if it comes to it. -/
theorem Step.state_eq (h : Step E skew w c w') :
    w'.state = match readAPReq E c.keytab c.der c.now skew with
      | .error _ => w.state
      | .ok o => (testReplay E c.random c.persistent o c.now skew w.state).2 := by
  obtain ⟨-, rfl⟩ := h
  unfold World.next verifyAPReqWithOptions
  cases readAPReq E c.keytab c.der c.now skew <;> rfl

theorem Step.clock_eq (h : Step E skew w c w') : w.clock ≤ c.now ∧ w'.clock = c.now := by
  obtain ⟨hle, rfl⟩ := h
  exact ⟨hle, rfl⟩

/-- The answer to a request that is read is that of the replay test. -/
theorem Call.answer_eq (h : c.reads E skew o) : c.answer E skew w =
      (testReplay E c.random c.persistent o c.now skew w.state).1.map fun _ => o.verified := by
  unfold answer verifyAPReqWithOptions
  rw [show readAPReq E c.keytab c.der c.now skew = .ok o from h]

namespace Sample

open Kerberos.Sample (aes realm client service)

/-- The packages around the acceptor at their simplest: tickets end at `finish`, and the
authenticator of a request of `n` bytes is made at minute `n`. -/
def env (finish : ℤ) : Env where
  etype e := if e = 18 then some aes else none
  apReq der := some ⟨5, 14, 0, ⟨5, realm, service, ⟨18, none, []⟩⟩, ⟨18, none, der⟩⟩
  encTicketPart _ := some (Kerberos.Sample.tgt 0 0 finish none)
  authenticator plain := some (Kerberos.Sample.authenticator (plain.length * minute))
  verifyService _ _ := .error .notFound
  sha256 := id

def keytab : List Entry := [⟨principalFromProtocol service realm, 0, 1, 18, [7]⟩]

/-- A call at `now` with the request of minute `n`. -/
def call (persistent : Bool) (n : ℕ) (now : ℤ) : Call :=
  ⟨[], persistent, keytab, List.replicate n 0, now⟩

/-- The acceptor before its first call, with a memory cache. -/
def start : World := ⟨0, ⟨⟨∅, zeroTime, 0⟩, .memory ∅⟩, []⟩

/-- The encrypted authenticator of minute `n`. -/
def encAuthenticator (n : ℕ) : EncAuthenticator := ⟨18, List.replicate n 0, n * minute⟩

end Sample

end Kerberos.AP
