import Kerberos.Proof.GSSIdentity
import Kerberos.Spec.Sample
import Kerberos.Spec.SmallKDB

/-!
# The servers for RPCSEC_GSS

The administration server and the propagation server are `GSSServer`s. INIT sets the identity and
the context of a session, but CONTINUE replaces only the context: a client may continue its session
with the token of another ticket, and is then served in the name of the first
(`continued_as_another`). Otherwise calls are made in the name of the client whose context protects
them (`dispatch_identity`).
-/

namespace Kerberos

open Option Xdr

/-! ## The administration server -/

variable {token : Bytes}

namespace Kadm5

open GSS RPC

/-- The token a record carries, if it is accepted. -/
def presented (E : GSS.Env) (srv : Listener) (a : Arrival) : Option Presented := do
  let call ← (parseRPCCall a.record).toOption
  let cred ← readCredential readers call.credential
  let token ← whole Read.bytes call.body
  let (context, client, _) ← accept E srv.keytab a.circumstances token
  pure { cred, context, client }

/-- The identity that `AcceptWithPrincipal` gives for a token. -/
def identityOf (p : Presented) : Identity := ⟨p.client, p.context.target, p.context.initialTicket⟩

def protects (E : GSS.Env) (a : Arrival) (d : Dispatched Identity) : Prop :=
  ∃ call sealed, parseRPCCall a.record = .ok call ∧ whole Read.bytes call.body = some sealed ∧
    Protects E call sealed d

section

variable {E : GSS.Env} {srv : Listener} {a : Arrival} {call : Call} {cred : Credential}
  {session : Option Session}

/-- The effect of an outcome. -/
def HasEffect (E : GSS.Env) (srv : Listener) (a : Arrival) (session : Option Session)
    (o : Outcome Session Identity) : Prop :=
  Effect identityOf (presented E srv a)
    (fun p => p.cred.proc = rpcsecGSSCont ∧ ∃ s ∈ session, p.cred.handle = s.handle) (protects E a)
    (session.map fun s => (s.identity, s.ctx)) (o.session.map fun s => (s.identity, s.ctx))
      o.dispatched

theorem refused_effect (call : Call) (status : UInt32) :
    HasEffect E srv a session (refused call status session) := Effect.refl _

/-- A session that answers a token keeps its context, or the connection ends. -/
theorem answers_answer (E : GSS.Env) (call : Call) (s : Session) (response : Bytes) :
    Answers (fun s : Session => (s.identity, s.ctx)) (s.answer E call response)
      s.identity s.ctx := by
  unfold Session.answer
  cases hmic : s.ctx.mic E (seqBytes window) with
  | none => exact ⟨rfl, .inl rfl⟩
  | some made => exact ⟨rfl, .inr ⟨made.2, Context.mic_kept hmic, rfl⟩⟩

theorem handleToken_effect (hcall : parseRPCCall a.record = .ok call)
    (hcred : readCredential readers call.credential = some cred) :
    HasEffect E srv a session (settle (handleToken E srv a call cred session)) := by
  cases session with
  | none =>
    refine settle_ensure (fun _ =>
      settle_ofOption (fun token htoken => settle_ofOption (fun accepted haccept => ?_)
      (refused_effect ..)) (refused_effect ..)) (refused_effect ..)
    refine settle_ensure (fun _ => settle_ofOption (fun handle _ => ?_) (.closed _))
      (refused_effect ..)
    exact .of_token (presented_of hcall hcred htoken haccept) (answers_answer ..)
  | some s =>
    refine settle_ensure (fun hproc => settle_ofOption (fun token htoken => settle_ofOption
      (fun accepted haccept => ?_) (refused_effect ..)) (refused_effect ..)) (refused_effect ..)
    exact .of_continued (presented_of hcall hcred htoken haccept) ⟨hproc.1, s, rfl, hproc.2⟩
      (answers_answer ..)

theorem synchronized_spec {s s' : Session} {first : Option UInt64}
    (h : s.synchronized first = some s') :
    s'.identity = s.identity ∧ s.ctx.Kept s'.ctx := by
  unfold Session.synchronized at h
  split_ifs at h
  · cases h
    exact ⟨rfl, Context.Kept.refl _⟩
  · obtain ⟨first, _, rfl⟩ := map_eq_some_iff.1 h
    exact ⟨rfl, ⟨rfl, rfl, rfl, rfl⟩⟩

theorem sealReply_kept {verifierFirst : Bool} {ctx ctx' : Context} {seq : UInt32}
    {result wrapped verifier : Bytes}
    (h : sealReply E verifierFirst ctx seq result = some (wrapped, verifier, ctx')) :
    ctx.Kept ctx' := by
  unfold sealReply at h
  split_ifs at h
  · simp only [bind, bind_eq_some_iff] at h
    obtain ⟨made, hmic, wrapped, hwrap, h⟩ := h
    cases h
    exact (Context.mic_kept hmic).trans (Context.wrapSealed_kept hwrap)
  · simp only [bind, bind_eq_some_iff] at h
    obtain ⟨wrapped, hwrap, made, hmic, h⟩ := h
    cases h
    exact (Context.wrapSealed_kept hwrap).trans (Context.mic_kept hmic)

theorem handleData_effect (hcall : parseRPCCall a.record = .ok call) :
    HasEffect E srv a session (settle (handleData E a call cred session)) := by
  refine settle_ofOption (fun s hs =>
    settle_ensure (fun _ => settle_ensure (fun _ => settle_ofOption
    (fun sealed hsealed => settle_ensure
      (fun _ => settle_ofOption (fun s' hs' => ?_) (refused_effect ..))
      (refused_effect ..)) (refused_effect ..)) (refused_effect ..)) (refused_effect ..))
        (refused_effect ..)
  obtain ⟨hidentity, hsync⟩ := synchronized_spec hs'
  subst hs
  rcases hreceive : receive E false s'.ctx call sealed cred.seq with ⟨_ | plain, ctx⟩
  · exact .kept_as hidentity (hsync.trans (receive_kept hreceive))
  · have hkept := hsync.trans (receive_kept hreceive)
    refine settle_ensure (fun _ => ?_) (by exact .kept_as hidentity hkept)
    have hprotects : protects E a ⟨s'.identity, call.proc, plain.drop 4, ctx⟩ :=
      ⟨call, sealed, hcall, hsealed, protects_of_receive hreceive ..⟩
    cases hseal : sealReply E (tokenSeq call.verifier + 1 == tokenSeq sealed) ctx cred.seq
      a.result with
    | none => exact .dispatched_as hidentity rfl hkept (Context.Kept.refl _) hprotects
    | some made => exact .dispatched_as hidentity rfl hkept (sealReply_kept hseal) hprotects

theorem serveRecord_effect (E : GSS.Env) (srv : Listener) (a : Arrival) (session : Option Session) :
    HasEffect E srv a session (serveRecord E srv a session) := by
  unfold serveRecord
  cases hcall : parseRPCCall a.record with
  | error e => exact .closed _
  | ok call =>
    dsimp only
    split_ifs
    · refine settle_ofOption (fun cred hcred => settle_ensure (fun _ => settle_ensure (fun _ => ?_)
        (refused_effect ..)) (refused_effect ..)) (refused_effect ..)
      split_ifs
      · exact handleToken_effect hcall hcred
      · exact handleData_effect hcall
    · exact refused_effect ..

end

/-- The administration server. -/
def server (E : GSS.Env) (srv : Listener) : GSSServer Session Identity where
  serve := serveRecord E srv
  presented := presented E srv
  identityOf := identityOf
  protects := protects E
  identity := Session.identity
  context := Session.ctx
  handle := Session.handle
  effect := serveRecord_effect E srv

end Kadm5

/-! ## The propagation server -/

namespace Iprop

open GSS RPC

/-- The token a record carries, if it is accepted. -/
def presented (E : GSS.Env) (srv : Listener) (a : Arrival) : Option Presented := do
  let call ← (parseCall a.record).toOption
  let cred ← readCredential readers call.credential
  let token ← whole Read.bytes call.body
  let (context, client, _) ← accept E srv.keytab a.circumstances token
  pure { cred, context, client }

/-- The identity that `AcceptWithPrincipal` gives for a token. -/
def identityOf (p : Presented) : Principal := p.client

def protects (E : GSS.Env) (a : Arrival) (d : Dispatched Principal) : Prop :=
  ∃ call sealed, parseCall a.record = .ok call ∧ whole Read.bytes call.body = some sealed ∧
    Protects E call sealed d

section

variable {E : GSS.Env} {srv : Listener} {a : Arrival} {call : Call} {cred : Credential}
  {session : Option Session}

/-- The effect of an outcome. -/
def HasEffect (E : GSS.Env) (srv : Listener) (a : Arrival) (session : Option Session)
    (o : Outcome Session Principal) : Prop :=
  Effect identityOf (presented E srv a)
    (fun p => p.cred.proc = rpcsecGSSCont ∧ ∃ s ∈ session, p.cred.handle = s.handle) (protects E a)
    (session.map fun s => (s.client, s.ctx)) (o.session.map fun s => (s.client, s.ctx)) o.dispatched

theorem refused_effect (call : Call) (status : UInt32) :
    HasEffect E srv a session (refused call status session) := Effect.refl _

/-- A session that answers a token keeps its context, or the connection ends. -/
theorem answers_answer (E : GSS.Env) (call : Call) (s : Session) (response : Bytes) :
    Answers (fun s : Session => (s.client, s.ctx)) (s.answer E call response) s.client s.ctx := by
  unfold Session.answer
  cases hmic : s.ctx.mic E (seqBytes window) with
  | none => exact ⟨rfl, .inl rfl⟩
  | some made => exact ⟨rfl, .inr ⟨made.2, Context.mic_kept hmic, rfl⟩⟩

theorem handleToken_effect (hcall : parseCall a.record = .ok call)
    (hcred : readCredential readers call.credential = some cred)
    (htoken : whole Read.bytes call.body = some token) :
    HasEffect E srv a session (settle (handleToken E srv a call cred token session)) := by
  cases session with
  | none =>
    refine settle_ensure (fun _ => settle_ofOption (fun accepted haccept => ?_) (.closed _))
      (refused_effect ..)
    refine settle_ensure (fun _ => settle_ofOption (fun handle _ => ?_) (.closed _)) (.closed _)
    exact .of_token (presented_of hcall hcred htoken haccept) (answers_answer ..)
  | some s =>
    refine settle_ensure (fun hproc => settle_ofOption (fun accepted haccept => ?_) (.closed _))
      (refused_effect ..)
    refine settle_ensure (fun _ => ?_) (.closed _)
    exact .of_continued (presented_of hcall hcred htoken haccept) ⟨hproc.1, s, rfl, hproc.2⟩
      (answers_answer ..)

theorem synchronized_spec {s s' : Session} {first : Option UInt64}
    (h : s.synchronized first = some s') :
    s'.client = s.client ∧ s.ctx.Kept s'.ctx := by
  unfold Session.synchronized at h
  split_ifs at h
  · cases h
    exact ⟨rfl, Context.Kept.refl _⟩
  · obtain ⟨first, _, rfl⟩ := map_eq_some_iff.1 h
    exact ⟨rfl, ⟨rfl, rfl, rfl, rfl⟩⟩

theorem sealReply_kept {ctx ctx' : Context} {seq : UInt32} {result wrapped verifier : Bytes}
    (h : sealReply E ctx seq result = some (wrapped, verifier, ctx')) : ctx.Kept ctx' := by
  simp only [sealReply, bind, bind_eq_some_iff] at h
  obtain ⟨wrapped, hwrap, made, hmic, h⟩ := h
  cases h
  exact (Context.wrapSealed_kept hwrap).trans (Context.mic_kept hmic)

theorem handleData_effect {sealed : Bytes} (hcall : parseCall a.record = .ok call)
    (hsealed : whole Read.bytes call.body = some sealed) :
    HasEffect E srv a session (settle (handleData E a call cred sealed session)) := by
  refine settle_ofOption (fun s hs =>
    settle_ensure (fun _ => settle_ensure (fun _ => settle_ofOption
    (fun s' hs' => ?_) (refused_effect ..)) (refused_effect ..)) (refused_effect ..))
      (refused_effect ..)
  obtain ⟨hidentity, hsync⟩ := synchronized_spec hs'
  subst hs
  rcases hreceive : receive E true s'.ctx call sealed cred.seq with ⟨_ | plain, ctx⟩
  · exact .kept_as hidentity (hsync.trans (receive_kept hreceive))
  · have hkept := hsync.trans (receive_kept hreceive)
    refine settle_ensure (fun _ => ?_) (by exact .kept_as hidentity hkept)
    have hprotects : protects E a ⟨s'.client, call.proc, plain.drop 4, ctx⟩ :=
      ⟨call, sealed, hcall, hsealed, protects_of_receive hreceive ..⟩
    cases hseal : sealReply E ctx cred.seq a.result with
    | none => exact .dispatched_as hidentity rfl hkept (Context.Kept.refl _) hprotects
    | some made => exact .dispatched_as hidentity rfl hkept (sealReply_kept hseal) hprotects

theorem serveRecord_effect (E : GSS.Env) (srv : Listener) (a : Arrival) (session : Option Session) :
    HasEffect E srv a session (serveRecord E srv a session) := by
  unfold serveRecord
  cases hcall : parseCall a.record with
  | error e => exact .closed _
  | ok call =>
    dsimp only
    split_ifs
    · refine settle_ofOption (fun cred hcred =>
        settle_ensure (fun _ => settle_ofOption (fun sealed hsealed => ?_)
        (refused_effect ..)) (refused_effect ..)) (refused_effect ..)
      split_ifs
      · exact handleToken_effect hcall hcred hsealed
      · exact handleData_effect hcall hsealed
    · exact refused_effect ..

end

/-- The propagation server. -/
def server (E : GSS.Env) (srv : Listener) : GSSServer Session Principal where
  serve := serveRecord E srv
  presented := presented E srv
  identityOf := identityOf
  protects := protects E
  identity := Session.client
  context := Session.ctx
  handle := Session.handle
  effect := serveRecord_effect E srv

end Iprop

/-! ## Calls and their clients -/

namespace RPC

open GSS Transition

/-- **Calls are dispatched in the name of the client whose context protects them**, in every run in
which no session is continued with the token of another identity. -/
theorem dispatch_identity (E : GSS.Env) (srv : Listener) : (∀ es session a d,
      Run (Guarded (Kadm5.server E srv).Served (Kadm5.server E srv).SameIdentity) none es session →
      d ∈ (Kadm5.serveRecord E srv a session).dispatched →
        (Kadm5.server E srv).Vouched es d.identity d.context ∧ Kadm5.protects E a d) ∧
          (∀ es session a d,
      Run (Guarded (Iprop.server E srv).Served (Iprop.server E srv).SameIdentity) none es session →
      d ∈ (Iprop.serveRecord E srv a session).dispatched →
        (Iprop.server E srv).Vouched es d.identity d.context ∧ Iprop.protects E a d) := by
  constructor
  · intro es session a d hr hd
    exact GSSServer.dispatch_authentic hr a hd
  · intro es session a d hr hd
    exact GSSServer.dispatch_authentic hr a hd

/-! ### A session that is continued -/

namespace TwoClients

/-- What a record of the program names, and the service its server has the key of. -/
structure Site where
  service : PrincipalName
  program : UInt32
  version : UInt32

def kadmin : Site := ⟨⟨2, [str "kadmin", str "admin"]⟩, Kadm5.Program, Kadm5.Version⟩

def kiprop : Site := ⟨⟨2, [str "kiprop", str "kdc"]⟩, Iprop.Program, Iprop.Version⟩

/-- Checksums and ciphertexts carry their key. -/
def etype : EType :=
  { Small.etype 18 with
    checksum := fun k _ _ => some k
    verifyChecksum := fun k _ _ mac => mac == k }

variable (site : Site)

/-- The packages around the server at their simplest: the request `[n]` is that of the client named
`[n]`, with the session key `[n]`. -/
def env : GSS.Env where
  ap :=
    { etype := fun e => if e = 18 then some etype else none
      apReq := fun der => some ⟨5, 14, 0, ⟨5, Small.realm, site.service,
        ⟨18, none, Small.tag 18 :: 7 :: der⟩⟩, ⟨18, none, Small.tag 18 :: der ++ der⟩⟩
      encTicketPart := fun plain => some
        { Kerberos.Sample.first with key := ⟨18, plain⟩, cname := ⟨1, [plain]⟩ }
      authenticator := fun plain => some
        { Kerberos.Sample.authenticator 0 with cname := ⟨1, [plain]⟩, checksum := none }
      verifyService := fun _ _ => .error .notFound
      sha256 := id }
  ifRelevant _ := none
  readKRBCred _ _ := false
  buildAPRep _ := none

def listener : Listener :=
  ⟨[⟨principalFromProtocol site.service Small.realm, 0, 1, 18, [7]⟩], Small.realm⟩

/-- The record up to the credential. -/
def front (proc gssProc seq : UInt32) (handle : Bytes) : Bytes :=
  u32 1 ++ u32 msgCall ++ u32 rpcVersion ++ u32 site.program ++ u32 site.version ++
    u32 proc ++ auth rpcsecGSS
      (u32 1 ++ u32 gssProc ++ u32 seq ++ u32 rpcsecGSSPrivacy ++ bytes handle)

def arrival (record : Bytes) : Arrival :=
  { record, circumstances := { now := 0, caches := ⟨⟨∅, zeroTime, 0⟩, .memory ∅⟩ },
    handle := some [1] }

/-- A new session with the token of the client `n`. -/
def initRecord (n : UInt8) : Arrival :=
  arrival (front site 0 rpcsecGSSInit 0 [] ++ auth 0 [] ++ bytes (frameToken [0x01, 0x00] [n]))

/-- The session is continued with the token of the client `n`. -/
def contRecord (n : UInt8) : Arrival :=
  arrival (front site 0 rpcsecGSSCont 0 [1] ++ auth 0 [] ++ bytes (frameToken [0x01, 0x00] [n]))

/-- The context of the client `n` on its side. -/
def initiator (n : UInt8) : Context :=
  { key := ⟨18, [n]⟩, initiator := true, ticketFlags := 0, source := default, target := default }

/-- A call that the context of the client `n` protects. -/
def callRecord (n : UInt8) : Arrival :=
  let head := front site 13 rpcsecGSSData 1 [1]
  match (initiator n).wrapSealed (env site) (seqBytes 1) with
  | none => arrival []
  | some (sealed, ctx) =>
    match ctx.mic (env site) head with
    | none => arrival []
    | some (verifier, _) => arrival (head ++ auth rpcsecGSS verifier ++ bytes sealed)

/-- The administration server. -/
def admin : GSSServer Kadm5.Session Kadm5.Identity := Kadm5.server (env kadmin) (listener kadmin)

/-- The propagation server. -/
def propagation : GSSServer Iprop.Session Principal := Iprop.server (env kiprop) (listener kiprop)

variable {S I : Type} (srv : GSSServer S I)

/-- The session of the client 1, continued with the token of the client `n`. -/
def continued (n : UInt8) : Option S :=
  (srv.serve (contRecord site n) (srv.serve (initRecord site 1) none).session).session

end TwoClients

open TwoClients

theorem GSSServer.served_of_isOk {S I : Type} (srv : GSSServer S I) (a : Arrival)
    (session : Option S)
    (h : (srv.serve a session).reply.isOk = true) :
    srv.Served session a (srv.serve a session).session :=
  ⟨Except.isOk_iff.1 h, rfl⟩

theorem GSSServer.sameIdentity_of_eq {S I : Type} (srv : GSSServer S I) (a : Arrival)
    (session : Option S)
    (h : session.map srv.identity = (srv.presented a).map srv.identityOf) :
    srv.SameIdentity session a := by
  intro s hs p hp _ _
  rw [mem_def.1 hs, mem_def.1 hp] at h
  exact (Option.some.inj h).symm

/-- The client 1 continues its session with a token of its own and makes a call, with the
administration server and with the propagation server. -/
theorem dispatch_identity_continued :
    (∃ d, d ∈ (admin.serve (callRecord kadmin 1) (continued kadmin admin 1)).dispatched ∧
      d.identity.client = ⟨Small.realm, 1, [[1]]⟩ ∧
      admin.Vouched [initRecord kadmin 1, contRecord kadmin 1] d.identity d.context) ∧
    (∃ d,
      d ∈ (propagation.serve (callRecord kiprop 1) (continued kiprop propagation 1)).dispatched ∧
      d.identity = ⟨Small.realm, 1, [[1]]⟩ ∧
      propagation.Vouched [initRecord kiprop 1, contRecord kiprop 1] d.identity d.context) := by
  constructor
  · have hd : ((admin.serve (callRecord kadmin 1) (continued kadmin admin 1)).dispatched.map
        fun d => d.identity.client) = some ⟨Small.realm, 1, [[1]]⟩ := by decide +kernel
    obtain ⟨d, hd, hclient⟩ := map_eq_some_iff.1 hd
    have hinit := admin.served_of_isOk (initRecord kadmin 1) none (by decide +kernel)
    have hcont :=
      admin.served_of_isOk (contRecord kadmin 1) (admin.serve (initRecord kadmin 1) none).session
      (by decide +kernel)
    have hsame := admin.sameIdentity_of_eq (contRecord kadmin 1)
      (admin.serve (initRecord kadmin 1) none).session
      (by decide +kernel)
    refine ⟨d, hd, hclient,
      ((dispatch_identity (env kadmin) (listener kadmin)).1 _ (continued kadmin admin 1)
      (callRecord kadmin 1) d ?_ hd).1⟩
    exact .cons ⟨hinit, fun _ hs => by cases hs⟩ (.single ⟨hcont, hsame⟩)
  · have hd :
      ((propagation.serve (callRecord kiprop 1) (continued kiprop propagation 1)).dispatched.map
        fun d => d.identity) = some ⟨Small.realm, 1, [[1]]⟩ := by decide +kernel
    obtain ⟨d, hd, hclient⟩ := map_eq_some_iff.1 hd
    have hinit := propagation.served_of_isOk (initRecord kiprop 1) none (by decide +kernel)
    have hcont := propagation.served_of_isOk (contRecord kiprop 1)
      (propagation.serve (initRecord kiprop 1) none).session (by decide +kernel)
    have hsame := propagation.sameIdentity_of_eq (contRecord kiprop 1)
      (propagation.serve (initRecord kiprop 1) none).session (by decide +kernel)
    refine ⟨d, hd, hclient, ((dispatch_identity (env kiprop) (listener kiprop)).2 _
      (continued kiprop propagation 1) (callRecord kiprop 1) d ?_ hd).1⟩
    exact .cons ⟨hinit, fun _ hs => by cases hs⟩ (.single ⟨hcont, hsame⟩)

/-- The client 2 makes a call, and it is dispatched in the name of the client 1. -/
theorem continued_as_another : ¬ ∀ es session a d, Run admin.Served none es session →
    d ∈ (admin.serve a session).dispatched → admin.Vouched es d.identity d.context := by
  intro hall
  have hd : ((admin.serve (callRecord kadmin 2) (continued kadmin admin 2)).dispatched.map
      fun d => (d.identity.client, d.context.source)) =
        some (⟨Small.realm, 1, [[1]]⟩, ⟨Small.realm, 1, [[2]]⟩) := by decide +kernel
  obtain ⟨d, hd, hclient⟩ := map_eq_some_iff.1 hd
  have hinit := admin.served_of_isOk (initRecord kadmin 1) none (by decide +kernel)
  have hcont :=
    admin.served_of_isOk (contRecord kadmin 2) (admin.serve (initRecord kadmin 1) none).session
    (by decide +kernel)
  -- whoever the context was accepted for is its source, and that is the client 2
  obtain ⟨b, _, p, hp, hkept, hidentity⟩ :=
    hall _ _ (callRecord kadmin 2) d (.cons hinit (.single hcont)) hd
  have hsource : p.context.source = p.client := by
    simp only [admin, Kadm5.server, Kadm5.presented, bind, mem_def, bind_eq_some_iff] at hp
    obtain ⟨_, _, _, _, _, _, _, haccept, hp⟩ := hp
    cases hp
    simp only [accept, bind, bind_eq_some_iff] at haccept
    obtain ⟨_, _, verified, _, _, _, _, _, flags, _, _, _, haccept⟩ := haccept
    split_ifs at haccept
    · obtain ⟨_, _, haccept⟩ := bind_eq_some_iff.1 haccept
      cases haccept
      rfl
    · cases haccept
      rfl
  injection hclient with hclient hcontext
  have hsame : d.identity.client = d.context.source := by
    rw [hkept.source, hsource, hidentity]
    rfl
  rw [hclient, hcontext] at hsame
  exact absurd hsame (by decide)

end RPC

end Kerberos
