import Kerberos.Lib.Except
import Kerberos.Spec.Preauth

/-!
# The registered preauthentication modules

What the loop of `verifyPreauthModules` can say: that a client is authenticated, with
hardware or by a required module, only on the word of a module (`Justified`); and that
it is not, only if no module vouched for it (`vouches_authenticated`).
-/

namespace Kerberos

open Except

variable {s : Server} {rock : PreauthRock} {data : MethodData} {pa : PAData} {st st' : ModuleState}
  {m : KDCPreauthModule} {modules : List KDCPreauthModule}

/-- The module vouches for the client with the result `r` on an element of its types. -/
structure Vouches (rock : PreauthRock) (data : MethodData) (m : KDCPreauthModule) (pa : PAData)
    (r : VerifyResult) : Prop where
  mem : pa ∈ data
  custom : kdcBuiltinPAType pa.paDataType = false
  claims : m.paTypes.contains pa.paDataType = true
  verify : m.verify rock pa = .ok (some r)
  authenticated : r.authenticated = true

/-- The word of a module stands for hardware authentication. -/
def hardwareVouched (m : KDCPreauthModule) (pa : PAData) (r : VerifyResult) : Bool :=
  has (m.flags pa.paDataType) PA.Hardware || r.hardwareAuthenticated

/-- What the loop has collected is on the word of registered modules. -/
structure Justified (s : Server) (rock : PreauthRock) (data : MethodData) (st : ModuleState) :
    Prop where
  authenticated : st.aggregate.authenticated = true →
    ∃ m ∈ registered s.preauthModules, ∃ pa r, Vouches rock data m pa r
  hardware : st.aggregate.hardwareAuthenticated = true →
    ∃ m ∈ registered s.preauthModules, ∃ pa r, Vouches rock data m pa r ∧
      hardwareVouched m pa r = true
  required : ∀ n ∈ st.required, ∃ m ∈ registered s.preauthModules, m.name = n ∧
    ∃ pa r, Vouches rock data m pa r ∧ has (m.flags pa.paDataType) PA.Required = true

/-- One round: the state stays, or the module is consulted and vouches. -/
theorem verifyModule_ok (h : verifyModule rock pa st m = .ok st') :
    st' = st ∨ ∃ r, m.paTypes.contains pa.paDataType = true ∧ m.verify rock pa = .ok (some r) ∧
      r.authenticated = true ∧ st' = st.accept m (m.flags pa.paDataType)
        { r with hardwareAuthenticated := hardwareVouched m pa r } := by
  unfold verifyModule at h
  split at h
  · cases h; exact Or.inl rfl
  rename_i hclaims
  split at h
  · cases h
  · cases h; exact Or.inl rfl
  rename_i r hr
  split at h
  · cases h; exact Or.inl rfl
  rename_i hauth
  simp only at h
  split at h
  · cases h
  · cases h
    simp only [Bool.or_eq_true, Bool.not_eq_true', not_or, Bool.not_eq_false] at hclaims hauth
    exact Or.inr ⟨r, hclaims.2, hr, hauth, rfl⟩

theorem verifyModule_justified (hm : m ∈ registered s.preauthModules)
    (hpa : pa ∈ data ∧ kdcBuiltinPAType pa.paDataType = false) (hj : Justified s rock data st)
    (h : verifyModule rock pa st m = .ok st') : Justified s rock data st' := by
  rcases verifyModule_ok h with rfl | ⟨r, hclaims, hr, hauth, rfl⟩
  · exact hj
  have hv : Vouches rock data m pa r := ⟨hpa.1, hpa.2, hclaims, hr, hauth⟩
  refine ⟨fun _ => ⟨m, hm, pa, r, hv⟩, ?_, ?_⟩
  · intro hhw
    simp only [ModuleState.accept, Bool.or_eq_true] at hhw
    rcases hhw with hhw | hhw
    · exact hj.hardware hhw
    · exact ⟨m, hm, pa, r, hv, hhw⟩
  · intro n hn
    simp only [ModuleState.accept] at hn
    split at hn
    · rename_i hreq
      rcases List.mem_cons.1 hn with rfl | hn
      · exact ⟨m, hm, rfl, pa, r, hv, hreq⟩
      · exact hj.required n hn
    · exact hj.required n hn

/-- **The loop** says nothing but on the word of a module. -/
theorem verifyPreauthModules_justified (h : verifyPreauthModules s rock data = .ok st) :
    Justified s rock data st := by
  refine foldlM_invariant ?_ ⟨by simp, by simp, by simp⟩ h
  intro st pa st' hpa hj h
  simp only [List.mem_filter, Bool.not_eq_true'] at hpa
  exact foldlM_invariant (fun _ m _ hm => verifyModule_justified hm hpa) hj h

/-! ## No word is lost -/

/-- A loop that has ended early has authenticated the client. -/
def Sound (st : ModuleState) : Prop := st.done = true → st.aggregate.authenticated = true

theorem verifyModule_sound (hs : Sound st) (h : verifyModule rock pa st m = .ok st') :
    Sound st' := by
  rcases verifyModule_ok h with rfl | ⟨r, -, -, -, rfl⟩
  · exact hs
  · exact fun _ => rfl

theorem verifyModule_authenticated (ha : st.aggregate.authenticated = true)
    (h : verifyModule rock pa st m = .ok st') : st'.aggregate.authenticated = true := by
  rcases verifyModule_ok h with rfl | ⟨r, -, -, -, rfl⟩
  · exact ha
  · rfl

/-- A module that vouches is heard, unless another has ended the loop. -/
theorem verifyModule_heard {r : VerifyResult} (hv : Vouches rock data m pa r) (hs : Sound st)
    (h : verifyModule rock pa st m = .ok st') : st'.aggregate.authenticated = true := by
  unfold verifyModule at h
  cases hd : st.done with
  | true =>
    simp only [hd] at h
    cases h
    exact hs hd
  | false =>
    simp only [hd, hv.claims, hv.verify, hv.authenticated, Bool.not_true, Bool.or_self,
      Bool.false_eq_true, if_false] at h
    split at h
    · cases h
    · cases h; rfl

/-- **Who is not authenticated has no module that vouches for it.** -/
theorem vouches_authenticated {r : VerifyResult} (h : verifyPreauthModules s rock data = .ok st)
    (hm : m ∈ registered s.preauthModules) (hv : Vouches rock data m pa r) :
    st.aggregate.authenticated = true := by
  have hpa : pa ∈ data.filter fun pa => !kdcBuiltinPAType pa.paDataType := by
    simp [hv.mem, hv.custom]
  refine foldlM_reaches (P := Sound) (Q := fun st => st.aggregate.authenticated = true)
    hpa ?_ ?_ ?_ (by simp [Sound]) h
  · intro st pa st' hs h
    exact foldlM_invariant (fun _ _ _ _ => verifyModule_sound) hs h
  · intro st pa st' ha h
    exact foldlM_invariant
      (fun _ _ _ _ => verifyModule_authenticated) ha h
  · intro st st' hs h
    exact foldlM_reaches (f := verifyModule rock pa)
      hm
      (fun _ _ _ => verifyModule_sound) (fun _ _ _ => verifyModule_authenticated)
      (fun _ _ => verifyModule_heard hv) hs h

end Kerberos
