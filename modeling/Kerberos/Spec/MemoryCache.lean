import Kerberos.Lib.Run
import Kerberos.Lib.Text
import Kerberos.Spec.Protocol

/-!
# MEMORY credential caches

The `MEMORY` backend of the package `ccache`: a registry of cache objects by name, and handles with
a pointer of their own to an object. `Resolve`, `Write`, `modifyCache` (of `Store` and `Remove`) and
`Destroy` hold the lock of the registry; `Read` takes the handle's pointer first and the object's
contents later. The contents are of any type.

`contents` is not in the source: what the last write to the cache under a name left, since that
cache was made and since the last `Destroy`.
-/

namespace Kerberos.MemoryCache

/-- `memoryCache`. -/
structure Object (α : Type) where
  cache : Option α := none
  destroyed : Bool := false

structure Handle where
  name : Bytes
  memory : ℕ

/-- The objects at their addresses, of which those from `next` on are free, and `memoryCaches`. A
read under way has the name and the pointer of its handle. -/
structure World (α : Type) where
  heap : ℕ → Object α := fun _ => {}
  next : ℕ := 0
  memoryCaches : Bytes → Option ℕ := fun _ => none
  memorySequence : UInt64 := 0
  handles : ℕ → Option Handle := fun _ => none
  reads : ℕ → Option Handle := fun _ => none
  contents : Bytes → Option α := fun _ => none

inductive Event (α : Type)
  /-- A `Resolve`, with the bytes that are drawn if no name is given. -/
  | resolve (h : ℕ) (residual suffix : Bytes)
  | write (h : ℕ) (cache : α)
  | modify (h : ℕ) (f : α → Option α)
  | destroy (h : ℕ)
  | beginRead (r h : ℕ)
  | endRead (r : ℕ)

/-- What a `Read` returns of an object; `none` is `os.ErrNotExist`. -/
def Object.read {α : Type} (o : Object α) : Option α := if o.destroyed then none else o.cache

namespace World

variable {α : Type} (w : World α)

/-- The name a `Resolve` without one tries after `k` that were taken. -/
def drawn (suffix : Bytes) : ℕ → Bytes
  | 0 => Text.encodeHex suffix
  | k + 1 => Text.encodeHex suffix ++ str "-" ++
      Text.decimal (w.memorySequence + UInt64.ofNat (k + 1)).toNat

/-- The name a `Resolve` comes to, and the numbers it uses up for it. -/
def Named (residual suffix name : Bytes) (tries : ℕ) : Prop :=
  if residual = [] then name = w.drawn suffix tries ∧ w.memoryCaches name = none ∧
    ∀ k < tries, w.memoryCaches (w.drawn suffix k) ≠ none
  else name = residual ∧ tries = 0

/-- A new object under a name, which a handle gets. -/
def create (h : ℕ) (name : Bytes) : World α :=
  { w with
    heap := Function.update w.heap w.next {}, next := w.next + 1
    memoryCaches := Function.update w.memoryCaches name (some w.next)
    handles := Function.update w.handles h (some ⟨name, w.next⟩)
    contents := Function.update w.contents name none }

/-- `resolveMemory`, once there is a name. -/
def resolve (h : ℕ) (name : Bytes) : World α :=
  match w.memoryCaches name with
  | some memory => { w with handles := Function.update w.handles h (some ⟨name, memory⟩) }
  | none => w.create h name

/-- New contents of an object, left by a call through a handle of `name`. -/
def put (memory : ℕ) (name : Bytes) (cache : α) : World α :=
  { w with
    heap := Function.update w.heap memory { cache := some cache }
    contents := if w.memoryCaches name = some memory then
      Function.update w.contents name (some cache) else w.contents }

def write (h : ℕ) (handle : Handle) (cache : α) : World α :=
  if (w.heap handle.memory).destroyed then (w.create h handle.name).put w.next handle.name cache
  else w.put handle.memory handle.name cache

/-- `modifyCache`. -/
def modify (handle : Handle) (f : α → Option α) : World α :=
  match ((w.heap handle.memory).read).bind f with
  | some cache => w.put handle.memory handle.name cache
  | none => w

/-- `Destroy`, which returns nil in any case. -/
def destroy (handle : Handle) : World α :=
  if w.memoryCaches handle.name = some handle.memory then
    { w with
      heap := Function.update w.heap handle.memory { destroyed := true }
      memoryCaches := Function.update w.memoryCaches handle.name none
      contents := Function.update w.contents handle.name none }
  else { w with contents := Function.update w.contents handle.name none }

/-- A call through a handle; one that was never resolved does nothing. -/
def through (h : ℕ) (f : Handle → World α) : World α := ((w.handles h).map f).getD w

def Step (w : World α) : Event α → World α → Prop
  | .resolve h residual suffix, w' => ∃ name tries, w.Named residual suffix name tries ∧
      w' = { w.resolve h name with memorySequence := w.memorySequence + UInt64.ofNat tries }
  | .write h cache, w' => w' = w.through h fun handle => w.write h handle cache
  | .modify h f, w' => w' = w.through h fun handle => w.modify handle f
  | .destroy h, w' => w' = w.through h w.destroy
  | .beginRead r h, w' => w' = { w with reads := Function.update w.reads r (w.handles h) }
  | .endRead r, w' => w' = { w with reads := Function.update w.reads r none }

/-- No `Destroy` through a handle whose cache is not that of its name while another one is. -/
def Effective (w : World α) : Event α → Prop
  | .destroy h => ∀ handle, w.handles h = some handle →
      w.memoryCaches handle.name = some handle.memory ∨ w.memoryCaches handle.name = none
  | _ => True

end World

end Kerberos.MemoryCache
