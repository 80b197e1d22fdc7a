import Kerberos.Spec.TGS

/-!
# Preauthentication modules

`verifyPreauthModules` and its companions: the registered modules examine the
padata one after the other, the verdicts are added up, and the modules that must
have verified the client are remembered by their name.
-/

namespace Kerberos

/-- The state of the loop of `verifyPreauthModules`. `required` has the names in
`rock.State["verified-required-preauth"]`; `done` says a sufficient module ended
the loop. -/
structure ModuleState where
  aggregate : VerifyResult := ⟨false, false, [], [], none⟩
  successes : List (KDCPreauthModule × VerifyResult) := []
  replaced : Bool := false
  required : List Bytes := []
  done : Bool := false

/-- The PA types the KDC handles itself. -/
def kdcBuiltinPAType (paType : Int32) : Bool :=
  paType == 2 || paType == 138 || paType == 151 || paType == 142 || paType == 16

/-- The state after a module has authenticated the client. -/
def ModuleState.accept (st : ModuleState) (m : KDCPreauthModule) (flags : Flags)
    (result : VerifyResult) : ModuleState :=
  { aggregate :=
      { authenticated := true
        hardwareAuthenticated := st.aggregate.hardwareAuthenticated || result.hardwareAuthenticated
        authIndicators := st.aggregate.authIndicators ++ result.authIndicators
        authorizationData := st.aggregate.authorizationData ++ result.authorizationData
        replacedReplyKey := result.replacedReplyKey.or st.aggregate.replacedReplyKey }
    successes := st.successes ++ [(m, result)]
    replaced := st.replaced || result.replacedReplyKey.isSome
    required := if has flags PA.Required then m.name :: st.required else st.required
    done := has flags PA.Sufficient }

/-- One module on one element. -/
def verifyModule (rock : PreauthRock) (pa : PAData) (st : ModuleState) (m : KDCPreauthModule) :
    Except Unit ModuleState :=
  if st.done || !m.paTypes.contains pa.paDataType then .ok st
  else
    match m.verify rock pa with
    | .error _ => .error ()
    | .ok none => .ok st
    | .ok (some result) =>
      if !result.authenticated then .ok st
      else
        let flags := m.flags pa.paDataType
        if result.replacedReplyKey.isSome && (!has flags PA.ReplacesKey || st.replaced) then
          .error ()
        else .ok (st.accept m flags { result with
          hardwareAuthenticated := has flags PA.Hardware || result.hardwareAuthenticated })

variable (s : Server)

def verifyPreauthModules (rock : PreauthRock) (data : MethodData) :
    Except Unit ModuleState :=
  (data.filter fun pa => !kdcBuiltinPAType pa.paDataType).foldlM
    (fun st pa => (registered s.preauthModules).foldlM (verifyModule rock pa) st) {}

/-- The module is flagged PA_REQUIRED for one of its types. -/
def KDCPreauthModule.isRequired (m : KDCPreauthModule) : Bool :=
  m.paTypes.any fun t => has (m.flags t) PA.Required

def customPreauthRequired : Bool :=
  (registered s.preauthModules).any (·.isRequired)

/-- `customPreauthSatisfied`: the name of every required module is remembered. -/
def customPreauthSatisfied (verified : List Bytes) : Bool :=
  (registered s.preauthModules).all fun m => !m.isRequired || verified.contains m.name

def preauthModuleHints (rock : PreauthRock) : MethodData :=
  (registered s.preauthModules).flatMap fun m =>
    m.paTypes.filterMap fun paType =>
      if kdcBuiltinPAType paType || has (m.flags paType) PA.Pseudo then none
      else (m.edata rock paType).filter fun hint => hint.paDataType == paType

/-- `authorizeCertificateModules`: `error` is the code to answer, otherwise whether a
module vouched for hardware authentication, and the indicators. -/
def authorizeCertificate (cert : Bytes) (client : Principal) (entry : PrincipalRecord) :
    Except ℤ (Bool × List Bytes) := do
  let (accepted, hwauth, indicators) ← (registered s.certAuthModules).foldlM
    (fun (st : Bool × Bool × List Bytes) m =>
      let (accepted, hwauth, indicators) := st
      match m.authorize cert client entry with
      | .error code => .error (code.getD Err.ClientNotTrusted)
      | .ok (decision, more) =>
        match decision with
        | .pass => .ok (accepted, hwauth, indicators ++ more)
        | .accept => .ok (true, hwauth, indicators ++ more)
        | .hwAuth => .ok (true, true, indicators ++ more)
        | .hwAuthPass => .ok (accepted, true, indicators ++ more)
        | .invalid => .error Err.ClientNotTrusted)
    (false, false, [])
  if accepted then .ok (hwauth, indicators) else .error 75

end Kerberos
