import Kerberos.Proof.TLV
import Kerberos.Spec.SPNEGO

/-!
# The selected mechanism

An attacker may change every token of a negotiation: the list the acceptor sees, the mechanism it
selects, the state it reports, and whether a MIC over the list is there. The initiator decides from
the token it gets and from the list it sent. If it completes with another mechanism than its first,
the token had a MIC that verified over the encoding of its own list (`Initiator.continuePlain_ok`).
With MICs that nobody else can make, the peer made one over that list.

What fails is not used: the statement is about any state of an initiator, also one left behind by
calls that failed. The encoding of a list of mechanisms determines the list (`mechListDER_inj`).
-/

namespace Kerberos

open Except Option

namespace GSS

variable {E : Env} {c c' : Context} {data token : Bytes}

theorem Context.verifyMIC_eq (h : c.verifyMIC E data token = some c') :
    c' = { c with recvSeq := c.recvSeq + 1 } := by
  obtain ⟨_, -, h⟩ := bind_eq_some_iff.1 h
  obtain ⟨_, -, h⟩ := bind_eq_some_iff.1 h
  obtain ⟨_, -, h⟩ := bind_eq_some_iff.1 h
  obtain ⟨_, -, h⟩ := bind_eq_some_iff.1 h
  obtain ⟨_, -, h⟩ := bind_eq_some_iff.1 h
  obtain ⟨_, -, h⟩ := bind_eq_some_iff.1 h
  exact (some.inj h).symm

theorem Context.mic_eq (h : c.mic E data = some (token, c')) :
    c' = { c with sendSeq := c.sendSeq + 1 } := by
  obtain ⟨_, -, h⟩ := bind_eq_some_iff.1 h
  obtain ⟨_, -, h⟩ := bind_eq_some_iff.1 h
  exact (Prod.mk.inj (some.inj h)).2.symm

end GSS

namespace SPNEGO

/-! ## Lists of mechanisms -/

section Lists

open ASN1 (length_encodeTLV length_encodeTLV_le_iff encodeTLV_append_inj)
open List

variable {tag : UInt8} {content : Bytes}

theorem length_tlv_lt : content.length < (tlv tag content).length := by
  rw [tlv, length_encodeTLV]
  omega

/-- An element determines its content, whatever its length. -/
theorem tlv_inj {content' : Bytes} (h : tlv tag content = tlv tag content') :
    content = content' := by
  have hlength : content.length = content'.length :=
    le_antisymm (length_encodeTLV_le_iff.1 (congrArg length h).le)
      (length_encodeTLV_le_iff.1 (congrArg length h).ge)
  rw [tlv, tlv, ASN1.encodeTLV, ASN1.encodeTLV, hlength, cons.injEq] at h
  exact append_cancel_left h.2

variable {mechs : List OID}

theorem length_le_flatMap {mech : OID} (h : mech ∈ mechs) :
    mech.length ≤ (mechs.flatMap mustOID).length := by
  rw [length_flatMap]
  have hle := single_le_sum (fun _ _ => Nat.zero_le _) _
    (mem_map_of_mem (f := fun mech => (mustOID mech).length) h)
  exact length_tlv_lt.le.trans hle

/-- **The encoding of a list of mechanisms is that of no other list.** -/
theorem mechListDER_inj {mechs' : List OID} (hsize : (mechListDER mechs).length < 2 ^ 32)
    (h : mechListDER mechs = mechListDER mechs') : mechs = mechs' := by
  have hcontent := tlv_inj h
  have hbound : (mechs.flatMap mustOID).length < 2 ^ 32 := length_tlv_lt.trans hsize
  clear h hsize
  induction mechs generalizing mechs' with
  | nil =>
    cases mechs' with
    | nil => rfl
    | cons mech mechs' => cases hcontent
  | cons mech mechs ih =>
    cases mechs' with
    | nil => cases hcontent
    | cons mech' mechs' =>
      have hmech : mech.length < 2 ^ 32 := (length_le_flatMap mem_cons_self).trans_lt hbound
      have hmech' : mech'.length < 2 ^ 32 := by
        have hle := length_le_flatMap (mem_cons_self (a := mech') (l := mechs'))
        rw [← hcontent] at hle
        exact hle.trans_lt hbound
      obtain ⟨-, rfl, hrest⟩ := encodeTLV_append_inj hmech hmech' hcontent
      rw [flatMap_cons, length_append] at hbound
      rw [ih hrest (by omega)]

end Lists

variable {E : Env} {i i' : Initiator} {mech mech' : GSS.Initiator} {mechList : List OID}
  {resp : NegTokenResp}
  {out : Option Bytes}

theorem Initiator.sendListMIC_ok {needMIC : Bool} {oid : OID}
    (h : sendListMIC E mech mechList needMIC oid = .ok (out, mech')) :
    mech' = mech ∨ ∃ c c', mech.ctx = some c ∧ mech'.ctx = some c' ∧
      c' = { c with sendSeq := c.sendSeq + 1 } := by
  unfold sendListMIC at h
  split_ifs at h
  · obtain ⟨c, hctx, h⟩ := bind_ok.1 h
    obtain ⟨⟨mic, c'⟩, hmic, h⟩ := bind_ok.1 h
    obtain ⟨-, rfl⟩ := Prod.mk.inj (ok.inj h)
    exact .inr ⟨c, c', ofOption_ok.1 hctx, rfl, GSS.Context.mic_eq (ofOption_ok.1 hmic)⟩
  · exact .inl (Prod.mk.inj (ok.inj h)).2.symm

/-- A MIC that is needed was there and verified, under the key the initiator ends with. -/
theorem Initiator.continuePlain_ok (h : i.continuePlain E mechList resp = .ok (out, i'))
    (hneed : requiresMIC mechList resp = true) :
    ∃ (mic : Bytes) (c c' ctx : GSS.Context), resp.mechListMIC = some mic ∧
      c.verifyMIC E.gss (mechListDER mechList) mic = some c' ∧ i'.mech.ctx = some ctx ∧
        c.key = ctx.key ∧ c.initiator = ctx.initiator := by
  obtain ⟨_, -, h⟩ := bind_ok.1 h
  obtain ⟨hpresent, h⟩ := ensure_bind_ok.1 h
  obtain ⟨mech₁, -, h⟩ := bind_ok.1 h
  obtain ⟨mech₂, hverify, h⟩ := bind_ok.1 h
  obtain ⟨⟨_, mech₃⟩, hsend, h⟩ := bind_ok.1 h
  obtain ⟨-, rfl⟩ := Prod.mk.inj (ok.inj h)
  cases hmic : resp.mechListMIC with
  | none => exact absurd ⟨hneed, hmic⟩ (hpresent)
  | some mic =>
    rw [hmic] at hverify
    obtain ⟨c, -, hverify⟩ := bind_ok.1 hverify
    obtain ⟨c', hmicVerified, hverify⟩ := bind_ok.1 hverify
    replace hmicVerified := ofOption_ok.1 hmicVerified
    obtain rfl := ok.inj hverify
    obtain rfl := GSS.Context.verifyMIC_eq hmicVerified
    rcases sendListMIC_ok hsend with rfl | ⟨d, d', hd, hd', rfl⟩
    · exact ⟨mic, c, _, _, rfl, hmicVerified, rfl, rfl, rfl⟩
    · obtain rfl := some.inj hd
      exact ⟨mic, c, _, _, rfl, hmicVerified, hd', rfl, rfl⟩

theorem Initiator.continue_ok {token : Bytes} (hlist : i.mechList = some mechList)
    (hplain : i.negoex = none)
    (h : i.«continue» E token = .ok (out, i')) :
    ∃ resp, decodeToken E token = .ok (.resp resp) ∧ i.continuePlain E mechList resp =
      .ok (out, i') := by
  obtain ⟨_, hinit, h⟩ := bind_ok.1 h
  obtain rfl := some.inj (hlist.symm.trans (ofOption_ok.1 hinit))
  obtain ⟨resp, hdecode, h⟩ := bind_ok.1 h
  obtain ⟨_, -, h⟩ := bind_ok.1 h
  obtain ⟨_, -, h⟩ := bind_ok.1 h
  rw [hplain] at h
  refine ⟨resp, ?_, h⟩
  unfold decodeAsResp at hdecode
  split at hdecode
  · next hok => rw [hok, ok.inj hdecode]
  · cases hdecode

theorem Initiator.head_of_not_requiresMIC (h : requiresMIC mechList resp = false) :
    mechList.head? = some (selected resp) := by
  rw [requiresMIC, Bool.or_eq_false_iff] at h
  exact of_not_not fun hne => absurd h.2 (by simpa using hne)

/-- **Downgrade resistance.** `made` has the MICs the peer made, with what they are over. Under the
key of the context an initiator ends with, no other MIC verifies. Whatever token makes `Continue`
complete, the mechanism it selects is the first of the initiator's list, or the token has a MIC that
the peer made over the encoding of that list, which is the encoding of no other. -/
theorem downgrade_resistance (E : Env) (i i' : Initiator) (mechList : List OID) (token : Bytes)
    (out : Option Bytes)
    (made : Bytes → Bytes → Prop) (hlist : i.mechList = some mechList) (hplain : i.negoex = none)
    (hideal : ∀ ctx ∈ i'.mech.ctx, ∀ c c' data mic, c.key = ctx.key → c.initiator = ctx.initiator →
      GSS.Context.verifyMIC E.gss c data mic = some c' → made data mic)
    (hcontinue : i.«continue» E token = .ok (out, i')) :
    ∃ resp, decodeToken E token = .ok (.resp resp) ∧
      (mechList.head? = some (Initiator.selected resp) ∨
        ∃ mic, resp.mechListMIC = some mic ∧ made (mechListDER mechList) mic ∧
          ∀ other, (mechListDER other).length < 2 ^ 32 → mechListDER other = mechListDER mechList →
            other = mechList) := by
  obtain ⟨resp, hdecode, hplain⟩ := Initiator.continue_ok hlist hplain hcontinue
  refine ⟨resp, hdecode, ?_⟩
  cases hneed : Initiator.requiresMIC mechList resp with
  | false => exact .inl (Initiator.head_of_not_requiresMIC hneed)
  | true =>
    obtain ⟨mic, c, c', ctx, hmic, hverify, hctx, hkey, hdirection⟩ :=
      Initiator.continuePlain_ok hplain hneed
    exact .inr ⟨mic, hmic, hideal ctx hctx c c' _ mic hkey hdirection hverify,
      fun other => mechListDER_inj⟩

namespace Sample

/-- Two mechanisms, Kerberos the second. -/
def mechanisms : List OID := [spnegoOID, kerberosOID]

/-- A checksum that is what it is over. -/
def openEType : EType where
  id := 18
  keySize := 0
  checksumSize := 37
  encrypt _ _ plain := some plain
  decrypt _ _ cipher := some cipher
  checksum _ _ data := some data
  verifyChecksum _ _ data mac := mac == data

def openEnv : Env where
  gss :=
    { ap :=
        { etype := fun _ => some openEType
          apReq := fun _ => none
          encTicketPart := fun _ => none
          authenticator := fun _ => none
          verifyService := fun data _ => .ok data
          sha256 := fun _ => [] }
      ifRelevant := fun _ => none
      readKRBCred := fun _ _ => false
      buildAPRep := fun _ => none }
  initiator := ⟨fun _ _ => none⟩
  validOID := fun _ => true

def nobody : Principal := ⟨[], 0, []⟩

def context (initiator : Bool) : GSS.Context :=
  { key := ⟨18, []⟩, initiator, ticketFlags := 0, source := nobody, target := nobody }

/-- An initiator that has sent its list. -/
def started : Initiator where
  mech := { creds := ⟨nobody, nobody, ⟨18, []⟩, []⟩, flags := 0, ctx := some (context true) }
  mechList := some mechanisms

/-- The answer of an acceptor that selects Kerberos. -/
def answer : Bytes := encodeBareResp {
  negState := some .requestMIC, supportedMech := some kerberosOID
  mechListMIC := ((context false).mic openEnv.gss (mechListDER mechanisms)).map Prod.fst }

theorem ideal {c c' : GSS.Context} {data mic : Bytes}
    (h : c.verifyMIC openEnv.gss data mic = some c') :
    data <+: mic.drop 16 := by
  obtain ⟨⟨header, payload⟩, hparse, h⟩ := bind_eq_some_iff.1 h
  obtain ⟨_, -, h⟩ := bind_eq_some_iff.1 h
  obtain ⟨_, -, h⟩ := bind_eq_some_iff.1 h
  obtain ⟨etype, hetype, h⟩ := bind_eq_some_iff.1 h
  obtain ⟨_, -, h⟩ := bind_eq_some_iff.1 h
  obtain ⟨_, hverify, -⟩ := bind_eq_some_iff.1 h
  obtain rfl := some.inj hetype
  obtain ⟨_, -, hparse⟩ := bind_eq_some_iff.1 hparse
  obtain ⟨-, rfl⟩ := Prod.mk.inj (some.inj hparse)
  have heq : mic.drop 16 = data ++ GSS.micHeader header.flags header.seq := by
    simpa [openEType] using hverify
  rw [heq]
  exact List.prefix_append _ _

end Sample

open Sample in
/-- An acceptor's MIC over the list completes a negotiation with the second mechanism. -/
theorem downgrade_resistance_sample : ∃ out i', started.«continue» openEnv answer = .ok (out, i') ∧
    ∃ resp, decodeToken openEnv answer = .ok (.resp resp) ∧
      (mechanisms.head? = some (Initiator.selected resp) ∨
        ∃ mic, resp.mechListMIC = some mic ∧ mechListDER mechanisms <+: mic.drop 16 ∧
          ∀ other, (mechListDER other).length < 2 ^ 32 →
            mechListDER other = mechListDER mechanisms →
            other = mechanisms) := by
  have hcontinue : ∃ result, started.«continue» openEnv answer = .ok result := ⟨_, rfl⟩
  obtain ⟨⟨out, i'⟩, hcontinue⟩ := hcontinue
  exact ⟨out, i', hcontinue, downgrade_resistance openEnv started i' mechanisms answer out
    (fun data mic => data <+: mic.drop 16) rfl rfl (fun _ _ _ _ _ _ _ _ h => ideal h) hcontinue⟩

end SPNEGO

end Kerberos
