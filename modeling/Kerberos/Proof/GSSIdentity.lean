import Kerberos.Lib.Run
import Kerberos.Spec.RPCSec

/-!
# Sessions and the contexts that protect them

A session keeps the identity of its client apart from the context. `Effect` is what a record can do
to both: a token establishes a session or continues it, and a call is dispatched. A `GSSServer` is
a server whose records have no other effects.

In a run in which no session is continued with the token of another identity, every call is
dispatched in the name of the client for whom the context was accepted (`dispatch_authentic`).
-/

namespace Kerberos

open List Option

namespace GSS.Context

/-- The same context, but for its sequence numbers. -/
structure Kept (c c' : Context) : Prop where
  key : c'.key = c.key
  source : c'.source = c.source
  target : c'.target = c.target
  ticketFlags : c'.ticketFlags = c.ticketFlags

variable {E : GSS.Env} {c c' c'' : Context} {data token : Bytes}

theorem Kept.refl (c : Context) : Kept c c := ⟨rfl, rfl, rfl, rfl⟩

theorem Kept.symm (h : Kept c c') : Kept c' c :=
  ⟨h.key.symm, h.source.symm, h.target.symm, h.ticketFlags.symm⟩

theorem Kept.trans (h : Kept c c') (h' : Kept c' c'') : Kept c c'' :=
  ⟨h'.key.trans h.key, h'.source.trans h.source, h'.target.trans h.target,
    h'.ticketFlags.trans h.ticketFlags⟩

theorem unwrap_kept (h : c.unwrap E token = some (data, c')) : Kept c c' := by
  simp only [unwrap, bind, bind_eq_some_iff] at h
  obtain ⟨_, _, _, _, _, _, _, _, h⟩ := h
  cases h
  exact ⟨rfl, rfl, rfl, rfl⟩

theorem verifyMIC_kept (h : c.verifyMIC E data token = some c') : Kept c c' := by
  simp only [verifyMIC, bind, bind_eq_some_iff] at h
  obtain ⟨_, _, _, _, _, _, _, _, _, _, _, _, h⟩ := h
  cases h
  exact ⟨rfl, rfl, rfl, rfl⟩

theorem mic_kept (h : c.mic E data = some (token, c')) : Kept c c' := by
  simp only [mic, bind, bind_eq_some_iff] at h
  obtain ⟨_, _, _, _, h⟩ := h
  cases h
  exact ⟨rfl, rfl, rfl, rfl⟩

theorem wrapSealed_kept (h : c.wrapSealed E data = some (token, c')) : Kept c c' := by
  simp only [wrapSealed, bind, bind_eq_some_iff] at h
  obtain ⟨_, _, _, _, h⟩ := h
  cases h
  exact ⟨rfl, rfl, rfl, rfl⟩

end GSS.Context

namespace RPC

open GSS

/-! ## Handlers that return early -/

section Settle

variable {S I α : Type} {P : Outcome S I → Prop} {o : Outcome S I}

theorem settle_ensure {p : Prop} [Decidable p] {f : Unit → Except (Outcome S I) (Outcome S I)}
    (hf : p → P (settle (f ()))) (ho : P o) : P (settle (Except.ensure p o >>= f)) := by
  by_cases hp : p
  · rw [Except.ensure_of hp]
    exact hf hp
  · rw [Except.ensure, if_neg hp]
    exact ho

theorem settle_ofOption {x : Option α} {f : α → Except (Outcome S I) (Outcome S I)}
    (hf : ∀ a, x = some a → P (settle (f a))) (ho : P o) :
    P (settle (Except.ofOption o x >>= f)) := by
  cases x with
  | none => exact ho
  | some a => exact hf a rfl

end Settle

/-! ## What a record does to a session -/

/-- What a token was accepted for. -/
structure Presented where
  cred : Credential
  context : Context
  client : Principal

/-- The call passes the context of what is dispatched: its verifier and its body do. -/
structure Protects {I : Type} (E : GSS.Env) (call : Call) (sealed : Bytes) (d : Dispatched I) :
    Prop where
  verified : ∃ c c' : Context, c.Kept d.context ∧ c.verifyMIC E call.front call.verifier = some c'
  unwrapped : ∃ (c c' : Context) (plain : Bytes), c.Kept d.context ∧
    c.unwrap E sealed = some (plain, c') ∧
    d.body = plain.drop 4

/-- What `receive` gives: the context is kept, and a plaintext has passed it together with the
verifier. -/
theorem receive_spec (E : GSS.Env) (lenient : Bool) (ctx : Context) (call : Call) (sealed : Bytes)
    (seq : UInt32) :
    ctx.Kept (receive E lenient ctx call sealed seq).2 ∧
      ∀ plain, (receive E lenient ctx call sealed seq).1 = some plain →
        (∃ c c' : Context, ctx.Kept c ∧ c.verifyMIC E call.front call.verifier = some c') ∧
          ∃ c c' : Context, ctx.Kept c ∧ c.unwrap E sealed = some (plain, c') := by
  have hrefl := Context.Kept.refl ctx
  unfold receive
  split_ifs
  · cases hunwrap : ctx.unwrap E sealed with
    | none => exact ⟨hrefl, nofun⟩
    | some unwrapped =>
      obtain ⟨plain, c⟩ := unwrapped
      have hc := Context.unwrap_kept hunwrap
      dsimp only
      cases hmic : c.verifyMIC E call.front call.verifier with
      | none => exact ⟨hc, nofun⟩
      | some c' =>
        refine ⟨hc.trans (Context.verifyMIC_kept hmic), fun plain' hplain => ?_⟩
        split_ifs at hplain
        cases hplain
        exact ⟨⟨c, c', hc, hmic⟩, ctx, c, hrefl, hunwrap⟩
  · cases hmic : ctx.verifyMIC E call.front call.verifier with
    | none => exact ⟨hrefl, nofun⟩
    | some c =>
      have hc := Context.verifyMIC_kept hmic
      dsimp only
      cases hunwrap : c.unwrap E sealed with
      | none => exact ⟨hc, nofun⟩
      | some unwrapped =>
        obtain ⟨plain, c'⟩ := unwrapped
        refine ⟨hc.trans (Context.unwrap_kept hunwrap), fun plain' hplain => ?_⟩
        dsimp only at hplain
        split_ifs at hplain
        cases hplain
        exact ⟨⟨ctx, c, hrefl, hmic⟩, c, c', hc, hunwrap⟩
  · exact ⟨hrefl, nofun⟩

section Receive

variable {E : GSS.Env} {lenient : Bool} {ctx ctx' : Context} {call : Call} {sealed plain : Bytes}
  {seq : UInt32}

theorem receive_kept {read : Option Bytes}
    (h : receive E lenient ctx call sealed seq = (read, ctx')) :
    ctx.Kept ctx' := by
  have hkept := (receive_spec E lenient ctx call sealed seq).1
  rwa [h] at hkept

theorem protects_of_receive {I : Type}
    (h : receive E lenient ctx call sealed seq = (some plain, ctx'))
    (identity : I) (proc : UInt32) :
    Protects E call sealed ⟨identity, proc, plain.drop 4, ctx'⟩ := by
  have hkept := receive_kept h
  have hread := (receive_spec E lenient ctx call sealed seq).2
  rw [h] at hread
  obtain ⟨⟨c, c', hc, hmic⟩, b, b', hb, hunwrap⟩ := hread plain rfl
  exact ⟨⟨c, c', hc.symm.trans hkept, hmic⟩, b, b', plain, hb.symm.trans hkept, hunwrap, rfl⟩

end Receive

/-- A record whose token is accepted. -/
theorem presented_of {E : GSS.Env} {parse : Bytes → Except String Call} {r : Readers}
    {keytab : List AP.Entry}
    {w : Circumstances} {record token response : Bytes} {call : Call} {cred : Credential}
    {context : Context}
    {client : Principal} (hcall : parse record = .ok call)
    (hcred : readCredential r call.credential = some cred)
    (htoken : whole r.bytes call.body = some token)
    (haccept : accept E keytab w token = some (context, client, response)) :
    (do
      let call ← (parse record).toOption
      let cred ← readCredential r call.credential
      let token ← whole r.bytes call.body
      let (context, client, _) ← accept E keytab w token
      pure { cred, context, client } : Option Presented) = some { cred, context, client } := by
  simp only [hcall, Except.toOption, hcred, htoken, haccept, bind_eq_bind, bind_some]
  rfl

section Effect

variable {I : Type} (identityOf : Presented → I) (presented : Option Presented)
  (continues : Presented → Prop)
  (protects : Dispatched I → Prop)

/-- What a record does to the identity and the context of a session. It may present a token, which
establishes a session or continues it, or be dispatched. -/
inductive Effect : Option (I × Context) → Option (I × Context) → Option (Dispatched I) → Prop
  | idle : Effect none none none
  | closed (v : Option (I × Context)) : Effect v none none
  | kept {i : I} {c c' : Context} (h : c.Kept c') : Effect (some (i, c)) (some (i, c')) none
  | established {p : Presented} {c : Context} (hp : presented = some p) (h : p.context.Kept c) :
      Effect none (some (identityOf p, c)) none
  | renewed {p : Presented} {i : I} {c c' : Context} (hp : presented = some p) (hc : continues p)
      (h : p.context.Kept c') : Effect (some (i, c)) (some (i, c')) none
  | dispatched {i : I} {c c' : Context} {d : Dispatched I} (hd : d.identity = i)
    (h : c.Kept d.context)
      (h' : d.context.Kept c') (hp : protects d) : Effect (some (i, c)) (some (i, c')) (some d)

variable {identityOf presented continues protects}

/-- A record that leaves the session as it is. -/
theorem Effect.refl (v : Option (I × Context)) :
    Effect identityOf presented continues protects v v none := by
  cases v with
  | none => exact .idle
  | some v => exact .kept (Context.Kept.refl v.2)

/-- An answer to a token: nothing is dispatched, and the session goes on in its context, or ends. -/
def Answers {S : Type} (view : S → I × Context) (o : Outcome S I) (i : I) (c : Context) : Prop :=
  o.dispatched = none ∧
    (o.session.map view = none ∨ ∃ c', c.Kept c' ∧ o.session.map view = some (i, c'))

section Parts

variable {S : Type} {view : S → I × Context} {o : Outcome S I} {p : Presented} {i i' : I}
  {c c' : Context}

theorem Effect.of_token (hp : presented = some p) (h : Answers view o (identityOf p) p.context) :
    Effect identityOf presented continues protects none (o.session.map view) o.dispatched := by
  obtain ⟨hnone, hclosed | ⟨c', hkept, hsession⟩⟩ := h
  · rw [hnone, hclosed]
    exact .idle
  · rw [hnone, hsession]
    exact .established hp hkept

theorem Effect.of_continued (hp : presented = some p) (hc : continues p)
    (h : Answers view o i p.context) :
    Effect identityOf presented continues protects (some (i, c)) (o.session.map view)
      o.dispatched := by
  obtain ⟨hnone, hclosed | ⟨c', hkept, hsession⟩⟩ := h
  · rw [hnone, hclosed]
    exact .closed _
  · rw [hnone, hsession]
    exact .renewed hp hc hkept

theorem Effect.kept_as (hi : i' = i) (h : c.Kept c') :
    Effect identityOf presented continues protects (some (i, c)) (some (i', c')) none := by
  rw [hi]
  exact .kept h

theorem Effect.dispatched_as {d : Dispatched I} (hi : i' = i) (hd : d.identity = i')
    (h : c.Kept d.context)
    (h' : d.context.Kept c') (hp : protects d) :
    Effect identityOf presented continues protects (some (i, c)) (some (i', c')) (some d) := by
  rw [hi]
  exact .dispatched (hd.trans hi) h h' hp

end Parts

variable {V : I → Context → Prop} {v v' : Option (I × Context)} {d : Option (Dispatched I)}

/-- What is dispatched goes with the session's identity and context. -/
theorem Effect.of_dispatched (hkept : ∀ i c c', V i c → c.Kept c' → V i c')
    (h : Effect identityOf presented continues protects v v' d) (hv : ∀ x ∈ v, V x.1 x.2) :
    ∀ x ∈ d, V x.identity x.context ∧ protects x := by
  rintro x hx
  cases h with
  | dispatched hd h _ hp =>
    cases hx
    exact ⟨hd ▸ hkept _ _ _ (hv _ rfl) h, hp⟩
  | _ => cases hx

/-- What holds of an identity and its context still does after a record, if the token of a session
that is continued is for the same identity. -/
theorem Effect.session (hkept : ∀ i c c', V i c → c.Kept c' → V i c')
    (h : Effect identityOf presented continues protects v v' d) (hv : ∀ x ∈ v, V x.1 x.2)
    (hnew : ∀ p ∈ presented, V (identityOf p) p.context)
    (hsame : ∀ p ∈ presented, continues p → ∀ x ∈ v, identityOf p = x.1) : ∀ x ∈ v', V x.1 x.2 := by
  rintro x hx
  cases h with
  | idle => cases hx
  | closed => cases hx
  | kept h =>
    cases hx
    have hold := hv _ rfl
    exact hkept _ _ _ hold h
  | established hp h =>
    cases hx
    exact hkept _ _ _ (hnew _ hp) h
  | renewed hp hc h =>
    cases hx
    have hnew := hnew _ hp
    rw [hsame _ hp hc _ rfl] at hnew
    exact hkept _ _ _ hnew h
  | dispatched _ h h' _ =>
    cases hx
    have hold := hv _ rfl
    exact hkept _ _ _ hold (h.trans h')

end Effect

/-! ## Servers -/

/-- A server for RPCSEC_GSS: its records have no other effects. -/
structure GSSServer (S I : Type) where
  serve : Arrival → Option S → Outcome S I
  presented : Arrival → Option Presented
  identityOf : Presented → I
  protects : Arrival → Dispatched I → Prop
  identity : S → I
  context : S → Context
  handle : S → Bytes
  effect (a : Arrival) (session : Option S) :
    Effect identityOf (presented a)
      (fun p => p.cred.proc = rpcsecGSSCont ∧ ∃ s ∈ session, p.cred.handle = handle s) (protects a)
      (session.map fun s => (identity s, context s))
      ((serve a session).session.map fun s => (identity s, context s)) (serve a session).dispatched

namespace GSSServer

variable {S I : Type} (srv : GSSServer S I)

/-- A record is served and the connection goes on. -/
def Served (session : Option S) (a : Arrival) (session' : Option S) : Prop :=
  (∃ reply, (srv.serve a session).reply = .ok reply) ∧ session' = (srv.serve a session).session

/-- The record does not continue the session with the token of another identity. -/
def SameIdentity (session : Option S) (a : Arrival) : Prop :=
  ∀ s ∈ session, ∀ p ∈ srv.presented a, p.cred.proc = rpcsecGSSCont → p.cred.handle = srv.handle s →
    srv.identityOf p = srv.identity s

/-- The identity is what a token of the past was accepted for, together with the context. -/
def Vouched (past : List Arrival) (identity : I) (context : Context) : Prop :=
  ∃ b ∈ past, ∃ p ∈ srv.presented b, p.context.Kept context ∧ identity = srv.identityOf p

variable {srv} {past : List Arrival} {identity : I} {context context' : Context}

theorem Vouched.kept (h : srv.Vouched past identity context) (hkept : context.Kept context') :
    srv.Vouched past identity context' := by
  obtain ⟨b, hb, p, hp, hcontext, hidentity⟩ := h
  exact ⟨b, hb, p, hp, hcontext.trans hkept, hidentity⟩

theorem Vouched.later (h : srv.Vouched past identity context) (a : Arrival) :
    srv.Vouched (past ++ [a]) identity context := by
  obtain ⟨b, hb, h⟩ := h
  exact ⟨b, mem_append_left _ hb, h⟩

/-- **Step.** A record that does not change the identity keeps the session vouched for. -/
theorem vouched_step {session session' : Option S} {a : Arrival}
    (h : ∀ s ∈ session, srv.Vouched past (srv.identity s) (srv.context s))
    (hstep : Transition.Guarded srv.Served srv.SameIdentity session a session') :
    ∀ s ∈ session', srv.Vouched (past ++ [a]) (srv.identity s) (srv.context s) := by
  obtain ⟨⟨_, rfl⟩, hsame⟩ := hstep
  intro s hs
  refine Effect.session (V := srv.Vouched (past ++ [a])) (fun _ _ _ => Vouched.kept)
    (srv.effect a session) ?_ ?_ ?_
    (srv.identity s, srv.context s) (mem_map_of_mem _ hs)
  · intro x hx
    obtain ⟨s, hs, rfl⟩ := mem_map.1 hx
    exact (h s hs).later a
  · intro p hp
    exact ⟨a, mem_append_right _ mem_cons_self, p, hp, Context.Kept.refl _, rfl⟩
  · rintro p hp ⟨hproc, s, hs, hhandle⟩ x hx
    obtain ⟨s', hs', rfl⟩ := mem_map.1 hx
    cases mem_unique hs hs'
    exact hsame s hs p hp hproc hhandle

/-- **Run.** -/
theorem vouched_run {es : List Arrival} {session session' : Option S}
    (hr : Transition.Run (Transition.Guarded srv.Served srv.SameIdentity) session es session')
    (h : ∀ s ∈ session, srv.Vouched past (srv.identity s) (srv.context s)) :
    ∀ s ∈ session', srv.Vouched (past ++ es) (srv.identity s) (srv.context s) := by
  induction hr generalizing past with
  | nil =>
    rw [append_nil]
    exact h
  | cons hstep _ ih =>
    have := ih (vouched_step h hstep)
    rwa [append_assoc] at this

/-- **Calls are dispatched in the name of the client whose context protects them.** -/
theorem dispatch_authentic {es : List Arrival} {session : Option S}
    (hr : Transition.Run (Transition.Guarded srv.Served srv.SameIdentity) none es session)
    (a : Arrival)
    {d : Dispatched I} (hd : d ∈ (srv.serve a session).dispatched) :
    srv.Vouched es d.identity d.context ∧ srv.protects a d := by
  have hnone : ∀ s ∈ (none : Option S), srv.Vouched [] (srv.identity s) (srv.context s) := by simp
  have hvouched := vouched_run hr hnone
  refine Effect.of_dispatched (V := srv.Vouched es) (fun _ _ _ => Vouched.kept)
    (srv.effect a session) ?_ d hd
  intro x hx
  obtain ⟨s, hs, rfl⟩ := mem_map.1 hx
  exact hvouched s hs

end GSSServer

end RPC

end Kerberos
