import Kerberos.Proof.Wrap

/-!
# The order of messages

**`UnwrapInitial` counts its message twice**: once in the call of `unwrap`, and once more itself, so
that the message after the first one is refused. It also takes over the sequence number of a token
before it is authenticated (`unwrapInitial_hands_over`).
-/

namespace Kerberos.GSS

open List

variable {E : Env} {c c' d : Context} {etype : EType} {data token : Bytes} {sealed : Bool}

/-- A wrapped message has the next sequence number, and the other side opens it. -/
theorem wrap_ok (hetype : E.ap.etype c.key.keyType = some etype) (hlawful : etype.Lawful)
    (hwrap : c.wrap E data sealed = some (token, c')) :
    (∃ ec payload, parseMessage token [0x05, 0x04] = some (c.fields sealed ec, payload)) ∧
      (∀ d, Peers c d → d.unwrap E token = some (data, { d with recvSeq := d.recvSeq + 1 })) ∧
      c' = { c with sendSeq := c.sendSeq + 1 } := by
  cases sealed with
  | true =>
    simp only [Context.wrap, if_true, Context.wrapSealed, hetype, Option.bind_eq_bind,
      Option.bind_some, Option.bind_eq_some_iff] at hwrap
    obtain ⟨payload, hencrypt, hpure⟩ := hwrap
    cases hpure
    have hsize : 0 < 65536 := by decide
    exact ⟨⟨0, payload, parseMessage_header c true hsize payload⟩,
      fun d hd => hd.unwrap_sealed hetype hlawful hsize (.inl rfl) hencrypt, rfl⟩
  | false =>
    simp only [Context.wrap, Bool.false_eq_true, if_false, Context.wrapSigned, hetype,
      Option.bind_eq_bind, Option.bind_some, Option.bind_eq_some_iff] at hwrap
    obtain ⟨mac, hchecksum, hpure⟩ := hwrap
    cases hpure
    rw [append_assoc]
    exact ⟨⟨_, data ++ mac, parseMessage_header c false hlawful.checksumSize_lt _⟩,
      fun d hd => hd.unwrap_signed hetype hlawful hchecksum, rfl⟩

/-- A token with another sequence number than the expected one is refused. -/
theorem unwrap_of_other {header : Header} {payload : Bytes}
    (hparse : parseMessage token [0x05, 0x04] = some (header, payload))
    (hseq : header.seq ≠ d.recvSeq) :
    d.unwrap E token = none := by
  have hvalid : d.validateIncoming header = none := if_neg fun h => hseq h.2
  rw [Context.unwrap, hparse]
  simp only [Option.bind_eq_bind, Option.bind_some, hvalid, Option.bind_none]

/-! ## The first message -/

/-- Messages wrapped one after the other. -/
def wrapAll (E : Env) : Context → List (Bytes × Bool) → Option (List Bytes)
  | _, [] => some []
  | c, (data, sealed) :: rest => do
    let (token, c) ← c.wrap E data sealed
    let tokens ← wrapAll E c rest
    pure (token :: tokens)

/-- Tokens opened one after the other. -/
def unwrapAll (E : Env) : Context → List Bytes → Option (List Bytes)
  | _, [] => some []
  | d, token :: rest => do
    let (data, d) ← d.unwrap E token
    let messages ← unwrapAll E d rest
    pure (data :: messages)

/-- The first token opened with `UnwrapInitial`, the others with `Unwrap`. -/
def openAll (E : Env) (d : Context) : List Bytes → Option (List Bytes)
  | [] => some []
  | token :: rest => do
    let data ← (d.unwrapInitial E token).1
    let messages ← unwrapAll E (d.unwrapInitial E token).2 rest
    pure (data :: messages)

/-- **`UnwrapInitial` hands over to nothing**: of messages wrapped one after the other only the
first is opened, so that all are exactly if it is the only one; and a token that is refused leaves
the expected sequence number alone exactly if it has no header or that very number in it. -/
theorem unwrapInitial_hands_over (E : Env) (etype : EType) (c d : Context)
    (hetype : E.ap.etype c.key.keyType = some etype) (hlawful : etype.Lawful) (hkey : d.key = c.key)
    (hdirection : d.initiator = !c.initiator) (first : Bytes × Bool) (rest : List (Bytes × Bool))
    (tokens : List Bytes) (hwrap : wrapAll E c (first :: rest) = some tokens) :
    openAll E d tokens = (if rest = [] then some [first.1] else none) ∧
      ∀ token, (d.unwrapInitial E token).1 = none →
        ((d.unwrapInitial E token).2.recvSeq = d.recvSeq ↔
        ∀ header payload, parseMessage token [0x05, 0x04] = some (header, payload) →
          header.seq = d.recvSeq) := by
  constructor
  · simp only [wrapAll, Option.bind_eq_bind, Option.bind_eq_some_iff] at hwrap
    obtain ⟨⟨token, c'⟩, hfirst, tokens, hrest, hpure⟩ := hwrap
    cases hpure
    -- the first message is opened, and counted twice
    obtain ⟨⟨ec, payload, hparse⟩, hopen, rfl⟩ := wrap_ok hetype hlawful hfirst
    have hpeers : Peers c { d with recvSeq := c.sendSeq } := ⟨hkey, hdirection, rfl⟩
    have hseq : (c.fields first.2 ec).seq = c.sendSeq := rfl
    have hopened : d.unwrapInitial E token =
        (some first.1, { d with recvSeq := c.sendSeq + 1 + 1 }) := by
      simp only [Context.unwrapInitial, hparse, hseq, hopen _ hpeers]
    simp only [openAll, hopened]
    cases rest with
    | nil =>
      cases hrest
      rfl
    | cons second rest =>
      simp only [wrapAll, Option.bind_eq_bind, Option.bind_eq_some_iff] at hrest
      obtain ⟨⟨token', c'⟩, hsecond, tokens', -, hpure⟩ := hrest
      cases hpure
      -- the second message has the number after the first, and one more is expected
      obtain ⟨⟨ec, payload, hparse⟩, -⟩ :=
        wrap_ok (c := { c with sendSeq := c.sendSeq + 1 }) hetype hlawful hsecond
      have hother : c.sendSeq + 1 ≠ c.sendSeq + 1 + 1 := by
        grind
      have hrefused : Context.unwrap E { d with recvSeq := c.sendSeq + 1 + 1 } token' = none :=
        unwrap_of_other hparse hother
      rw [unwrapAll, hrefused]
      rfl
  · intro token hnone
    unfold Context.unwrapInitial at hnone ⊢
    cases hparse : parseMessage token [0x05, 0x04] with
    | none => simp
    | some parsed =>
      obtain ⟨header, payload⟩ := parsed
      rw [hparse] at hnone
      dsimp only at hnone ⊢
      cases hopen : Context.unwrap E { d with recvSeq := header.seq } token with
      | none => simp
      | some result =>
        rw [hopen] at hnone
        cases hnone

open Sample in
/-- One message. -/
theorem unwrapInitial_hands_over_once :
    ∃ token, wrapAll plainEnv sender [([1], true)] = some [token] ∧
    openAll plainEnv (receiver false) [token] = some [[1]] :=
  ⟨_, rfl, (unwrapInitial_hands_over plainEnv plainEType sender (receiver false) rfl
    lawful_plainEType rfl rfl ([1], true)
    [] _ rfl).1⟩

open Sample in
/-- Two messages are wrapped, and the second is refused; a token that is refused sets the number to
its own. -/
theorem unwrapInitial_counts_twice :
    (∃ tokens, wrapAll plainEnv sender [([1], true), ([2], true)] = some tokens ∧
      openAll plainEnv (receiver false) tokens = none) ∧
    (let token := messageHeader [0x05, 0x04] 0 0 0 7
     ((receiver false).unwrapInitial plainEnv token).1 = none ∧
      ((receiver false).unwrapInitial plainEnv token).2.recvSeq = 7) :=
  ⟨⟨_, rfl, rfl⟩, by decide +kernel⟩

end Kerberos.GSS
