import Kerberos.Lib.Run
import Kerberos.Spec.KCM

/-!
# The names that `GEN_NEW` makes

A generated name holds the next value of the counter, so it is new as long as no cache is called
`unique n` for an `n` the counter has not reached. The server itself keeps to that
(`numbered_step`); a client that makes such a cache, with `INITIALIZE`, with `REPLACE` or with an
operation the server does not know, has a later `GEN_NEW` return the cache that is there.
-/

namespace Kerberos.KCM

open Transition Except

/-- The operations that make the cache they name. -/
def Op.makes : Op → Bool
  | initializeCache | replace | other => true
  | _ => false

namespace Namespace

variable {ns ns' : Namespace} {name : Bytes} {r : Request}

/-- No cache has a generated name that is still to come. -/
def Numbered (ns : Namespace) : Prop := ∀ n, uniqueName n ∈ ns.caches → n ≤ ns.next.toNat

/-- The condition on a request: the counter is far from its end, and a name `unique n` that it gives
to a new cache is at most the next one. -/
def Orderly (ns : Namespace) (r : Request) : Prop :=
  ns.next.toNat < 2 ^ 63 ∧ ∀ n rest, (opOf r.bytes).makes = true →
    splitCString (r.bytes.drop 4) = some (uniqueName n, rest) → n ≤ ns.next.toNat + 1

/-- An operation on a cache that is there makes none, and the counter does not go back. -/
structure Kept (ns ns' : Namespace) : Prop where
  caches : ∀ key ∈ ns'.caches, key ∈ ns.caches
  next : ns.next.toNat ≤ ns'.next.toNat

theorem Numbered.kept (h : Numbered ns) (hkept : Kept ns ns') : Numbered ns' :=
  fun n hn => (h n (hkept.caches _ hn)).trans hkept.next

theorem toNat_next {next : UInt64} (hroom : next.toNat ≤ 2 ^ 63) :
    (next + 1).toNat = next.toNat + 1 := by
  exact Nat.mod_eq_of_lt (show next.toNat + 1 < 2 ^ 64 by omega)

theorem uniqueName_inj {m n : ℕ} (h : uniqueName m = uniqueName n) : m = n := by
  have hdigits := congrArg Text.digitsValue (List.append_cancel_left h)
  rwa [Text.digitsValue_decimal, Text.digitsValue_decimal] at hdigits

theorem handle_kept {cache : Cache} {rest payload : Bytes} {op : Op} (hname : name ∈ ns.caches)
    (hroom : ns.next.toNat ≤ 2 ^ 63) (h : ns.handle name cache rest op = .ok (ns', payload)) :
    Kept ns ns' := by
  have hsame : Kept ns ns := ⟨fun _ hkey => hkey, le_rfl⟩
  have hmem : ∀ cache, ∀ key ∈ (ns.put name cache).caches, key ∈ ns.caches := by
    intro cache key hkey
    rcases (AList.mem_insert _).1 hkey with rfl | hkey
    · exact hname
    · exact hkey
  have hput : ∀ cache, Kept ns (ns.put name cache) := fun cache => ⟨hmem cache, le_rfl⟩
  -- so many values are drawn from the counter
  have hdraw : ∀ cache, ∀ m < 2 ^ 32,
      Kept ns { ns.put name cache with next := ns.next + UInt64.ofNat m } := by
    refine fun cache m hm => ⟨hmem cache, ?_⟩
    rw [UInt64.toNat_add, UInt64.toNat_ofNat_of_lt' (by norm_num; omega)]
    omega
  cases op <;> simp only [handle, bind_ok, ok.injEq, reduceCtorEq] at h
  case destroy =>
    obtain ⟨rfl, -⟩ := h
    exact ⟨fun _ hkey => (AList.mem_erase.1 hkey).2, le_rfl⟩
  case setDefaultCache =>
    obtain ⟨rfl, -⟩ := h
    exact ⟨fun _ hkey => hkey, le_rfl⟩
  case store =>
    obtain ⟨_, -, rfl, -⟩ := h
    exact hdraw _ 1 (by norm_num)
  case replace =>
    obtain ⟨⟨_, _, count, _⟩, -, rfl, -⟩ := h
    exact hdraw _ _ count.toNat_lt
  all_goals grind

theorem numbered_ensure (h : Numbered ns) (hroom : ns.next.toNat ≤ 2 ^ 63)
    (hnew : name ∉ ns.caches → ∀ n, name = uniqueName n → n ≤ ns.next.toNat + 1) :
    Numbered (ns.ensure name).1 ∧ name ∈ (ns.ensure name).1.caches ∧
      (ns.ensure name).1.next.toNat ≤ ns.next.toNat + 1 := by
  unfold ensure
  cases hfound : ns.caches.lookup name with
  | some cache => exact ⟨h, AList.lookup_isSome.1 (by rw [hfound]; rfl), Nat.le_succ _⟩
  | none =>
    have hnext := toNat_next hroom
    refine ⟨fun n hn => ?_, (AList.mem_insert _).2 (.inl rfl), hnext.le⟩
    rw [hnext]
    rcases (AList.mem_insert _).1 hn with hn | hn
    · exact hnew (AList.lookup_eq_none.1 hfound) n hn.symm
    · exact (h n hn).trans (Nat.le_succ _)

theorem numbered_dispatchNamed {op : Op} {args : Bytes} (h : Numbered ns)
    (hroom : ns.next.toNat < 2 ^ 63)
    (hnew : ∀ n rest, op.requiresExisting = false → splitCString args = some (uniqueName n, rest) →
      n ≤ ns.next.toNat + 1) : Numbered (ns.dispatchNamed op args).1 := by
  unfold dispatchNamed
  cases hargs : splitCString args with
  | none => exact h
  | some split =>
    obtain ⟨name, rest⟩ := split
    simp only
    split_ifs with hrequires
    · exact h
    obtain ⟨hnumbered, hthere, hnext⟩ := @numbered_ensure ns name h hroom.le (by
      rintro habsent n rfl
      refine hnew n rest ?_ hargs
      have habsent := AList.lookup_eq_none.2 habsent
      simpa [habsent] using hrequires)
    cases hhandle : (ns.ensure name).1.handle name (ns.ensure name).2 rest op with
    | error code => exact hnumbered
    | ok result => exact hnumbered.kept (handle_kept hthere (by omega) hhandle)

theorem numbered_step (ns : Namespace) (r : Request) (ns' : Namespace) (h : Numbered ns)
    (hstep : Guarded Step Orderly ns r ns') : Numbered ns' := by
  obtain ⟨rfl, hroom, hnew⟩ := hstep
  unfold dispatchPeer
  split_ifs
  · exact h
  split
  · exact h
  · -- the generated name is that of the counter
    have hnext := toNat_next hroom.le
    refine (@numbered_ensure { ns with next := ns.next + 1 } _ ?_ ?_ ?_).1
    · exact h.kept ⟨fun _ hkey => hkey, by rw [hnext]; exact Nat.le_succ _⟩
    · rw [hnext]
      exact hroom
    · exact fun _ n hn => (uniqueName_inj hn).ge.trans (Nat.le_succ _)
  · exact h
  · dsimp only
    split_ifs <;> exact h
  · refine numbered_dispatchNamed h hroom fun n rest hrequires => hnew n rest ?_
    cases hop : opOf r.bytes <;> simp_all [Op.requiresExisting, Op.makes]

/-- **A generated name is new**, in every namespace that orderly requests lead to. -/
theorem genNew_fresh {requests : List Request} (hrun : Run (Guarded Step Orderly) {} requests ns)
    (hop : opOf r.bytes = .genNew) (hroom : ns.next.toNat < 2 ^ 63)
    (hreply : (ns.dispatchPeer r).2 = .ok (cstring name)) : name ∉ ns.caches := by
  have hnumbered : Numbered ns := hrun.invariant numbered_step fun n hn =>
    absurd hn (AList.notMem_empty _)
  unfold dispatchPeer at hreply
  split_ifs at hreply
  rw [hop] at hreply
  obtain rfl := List.append_cancel_right (ok.inj hreply)
  intro hmem
  have hle := hnumbered _ hmem
  rw [toNat_next hroom.le] at hle
  omega

namespace Sample

def genNew : Request := ⟨[2, 0, 0, 3], id⟩

/-- `INITIALIZE` of the cache `unique n`, for the principal `u@R`. -/
def initializing (n : ℕ) : Request :=
  ⟨[2, 0, 0, 4] ++ cstring (uniqueName n) ++
    [0, 0, 0, 1, 0, 0, 0, 1, 0, 0, 0, 1, 82, 0, 0, 0, 1, 117], id⟩

/-- A credential of `u@R` for `s@R`, and the template that asks for it. -/
def stored : Bytes :=
  [0, 0, 0, 1, 0, 0, 0, 1, 0, 0, 0, 1, 82, 0, 0, 0, 1, 117] ++
    [0, 0, 0, 1, 0, 0, 0, 1, 0, 0, 0, 1, 82, 0, 0, 0, 1, 115] ++
    [0, 18, 0, 0, 0, 1, 7] ++ List.replicate 37 0

def template : Bytes :=
  [0, 0, 0, 4, 0, 0, 0, 3] ++ [0, 0, 0, 1, 0, 0, 0, 1, 0, 0, 0, 1, 82, 0, 0, 0, 1, 117] ++
    [0, 0, 0, 1, 0, 0, 0, 1, 0, 0, 0, 1, 82, 0, 0, 0, 1, 115] ++ List.replicate 21 0

/-- `STORE` into the cache `unique n`. -/
def storing (n : ℕ) : Request := ⟨[2, 0, 0, 6] ++ cstring (uniqueName n) ++ stored, id⟩

/-- `RETRIEVE` and `REMOVE_CRED` with the template. -/
def retrieving (n : ℕ) : Request :=
  ⟨[2, 0, 0, 7] ++ cstring (uniqueName n) ++ [0, 0, 0, 0] ++ template, id⟩

def removing (n : ℕ) : Request :=
  ⟨[2, 0, 0, 11] ++ cstring (uniqueName n) ++ [0, 0, 0, 0] ++ template, id⟩

/-- The namespace after that. -/
def initialized (n : ℕ) : Namespace := (({} : Namespace).dispatchPeer (initializing n)).1

end Sample

open Sample

/-- The first name of the counter may be taken: the next one is still new. -/
theorem unique2_fresh : uniqueName 2 ∉ (initialized 1).caches := by
  have hsplit : splitCString ((initializing 1).bytes.drop 4) =
      some (uniqueName 1, (initializing 1).bytes.drop 12) := by decide +kernel
  refine @genNew_fresh _ _ genNew _ (.single ⟨rfl, by decide, fun n rest _ hn => ?_⟩) rfl ?_ ?_
  · rw [hsplit] at hn
    exact (uniqueName_inj (congrArg Prod.fst (Option.some.inj hn))).ge
  · decide +kernel
  · decide +kernel

/-- A client that makes the cache `unique2` in a new namespace: `GEN_NEW` then returns that one. -/
theorem genNew_existing : ((initialized 2).dispatchPeer genNew).2 = .ok (cstring (uniqueName 2)) ∧
    ((initialized 2).caches.lookup (uniqueName 2)).isSome := by
  decide +kernel

end Namespace

/-! ## Users -/

namespace Server

variable {s s' : Server} {uid : UInt32}

theorem namespaceOf_serve (hs : s.sharedNamespace = false) (user : UInt32) (r : Request) :
    (s.serve user r).1.sharedNamespace = false ∧ (s.serve user r).1.namespaceOf uid =
      if user = uid then ((s.namespaceOf uid).dispatchPeer r).1 else s.namespaceOf uid := by
  unfold serve namespaceOf
  simp only [hs, Bool.false_eq_true, if_false, true_and]
  split_ifs with huser
  · rw [huser, AList.lookup_insert, Option.getD_some]
  · rw [AList.lookup_insert_ne (Ne.symm huser)]

/-- A user's replies are those of a server that gets no requests but the user's own. -/
theorem replies_own (hs : s.sharedNamespace = false) (hs' : s'.sharedNamespace = false)
    (h : s.namespaceOf uid = s'.namespaceOf uid) (requests : List (UInt32 × Request)) :
    (replies s requests).filter (·.1 = uid) = replies s' (requests.filter (·.1 = uid)) := by
  induction requests generalizing s s' with
  | nil => rfl
  | cons request requests ih =>
    obtain ⟨user, r⟩ := request
    obtain ⟨hunshared, hnext⟩ := @namespaceOf_serve s uid hs user r
    rw [replies]
    by_cases huser : user = uid
    · subst huser
      obtain ⟨hunshared', hnext'⟩ := @namespaceOf_serve s' user hs' user r
      have hreply : (s.serve user r).2 = (s'.serve user r).2 := by rw [serve, serve, h]
      rw [if_pos rfl, h] at hnext
      rw [if_pos rfl] at hnext'
      simp only [List.filter_cons, decide_true, if_true, replies]
      rw [hreply, ih hunshared hunshared' (hnext.trans hnext'.symm)]
    · rw [if_neg huser] at hnext
      simp only [List.filter_cons, huser]
      exact ih hunshared hs' (hnext.trans h)

/-- **Users are kept apart.** The replies to a user depend on the user's own requests only, each
with the order in which it runs through the map of UUIDs. -/
theorem users_isolated (s : Server) (hs : s.sharedNamespace = false) (uid : UInt32)
    (requests requests' : List (UInt32 × Request))
    (hown : requests.filter (·.1 = uid) = requests'.filter (·.1 = uid)) :
    (replies s requests).filter (·.1 = uid) = (replies s requests').filter (·.1 = uid) := by
  rw [replies_own hs hs rfl, replies_own hs hs rfl, hown]

open Namespace.Sample

/-- One user stores a credential and retrieves it; another removes one from a cache of the same
name. -/
theorem users_isolated_sample :
    (replies {} [(0, initializing 1), (1, initializing 1), (0, storing 1), (1, storing 1),
      (1, removing 1), (0, retrieving 1)]).filter (·.1 = 0) =
    (replies {} [(0, initializing 1), (0, storing 1), (0, retrieving 1)]).filter (·.1 = 0) :=
  users_isolated {} rfl 0 _ _ rfl

example : (replies {} [(1, initializing 1), (1, storing 1), (1, removing 1), (1, retrieving 1)]).map
    (fun reply => reply.2.toOption) = [some [], some [], some [], none] ∧
    (replies {} [(0, initializing 1), (0, storing 1), (0, retrieving 1)]).map
    (fun reply => reply.2.toOption) = [some [], some [], some stored] := by
  decide +kernel

/-- With two caches, `GET_CACHE_UUID_LIST` gives their UUIDs in one order or the other. -/
theorem uuids_unordered :
    (replies {} [(0, initializing 1), (0, initializing 2), (0, ⟨[2, 0, 0, 18], id⟩)]).map
      (·.2.toOption) ≠
      (replies {} [(0, initializing 1), (0, initializing 2),
        (0, ⟨[2, 0, 0, 18], List.reverse⟩)]).map (·.2.toOption) := by
  decide +kernel

end Server

end Kerberos.KCM
