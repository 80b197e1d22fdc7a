import Kerberos.Spec.Store

/-!
# The lookaside caches

The KDC and the password server keep the requests they work on and the responses they gave, so that
a request sent again is answered again. `lookasideCache` is the same in both packages but for the
points of `Service`. An entry is shared by the map and the queue of a cache, which hold its address;
what a handler changes through one is seen through the other.

The handlers of a server run side by side. Each calls `begin` once and, unless it met an entry,
`complete` once, whenever it is done; the calls themselves are made under a lock. `next` is one
call, after the clock has gone on.
-/

namespace Kerberos.Lookaside

/-- The packages that have such a cache. -/
inductive Service
  | kdc
  | kpasswd
  deriving DecidableEq

/-- `kdcLookasideStaleTime` and `lookasideStaleTime`: two minutes. -/
def staleTime : ℤ := 120 * second

/-- `kdcLookasideMaxSize` and `lookasideMaxSize`. -/
def defaultMaxSize : ℤ := 10 * 2 ^ 20

structure Entry where
  request : Bytes
  response : Option Bytes := none
  timeIn : ℤ
  hits : UInt64 := 0

structure Cache where
  /-- The entries by address. -/
  heap : ℕ → Entry
  /-- The first address not used yet. -/
  fresh : ℕ
  entries : GoMap Bytes ℕ
  queue : List ℕ
  size : ℤ
  maxSize : ℤ

variable (service : Service)

namespace Service

/-- The test of `expireLocked` at which it stops. -/
def young (now timeIn : ℤ) : Bool :=
  match service with
  | .kdc => now < timeIn + staleTime
  | .kpasswd => now < timeIn || now - timeIn < staleTime

/-- The responses for which `complete` gives the entry up. -/
def dismisses (response : Option Bytes) : Bool :=
  match service with
  | .kdc => (response.getD []).isEmpty
  | .kpasswd => response.isNone

/-- What `evictLocked` does when nothing is left to evict. -/
def emptied (c : Cache) : Cache :=
  match service with
  | .kdc => c
  | .kpasswd => { c with size := 0 }

end Service

/-- The bytes an entry holds. -/
def Entry.weight (entry : Entry) : ℕ := entry.request.length + (entry.response.getD []).length

namespace Cache

/-- `newLookasideCache`, with another limit. -/
def new (maxSize : ℤ) : Cache where
  heap _ := { request := [], timeIn := zeroTime }
  fresh := 0
  entries := ∅
  queue := []
  size := 0
  maxSize := maxSize

/-- `initializeLocked`. -/
def initialized (c : Cache) : Cache :=
  { c with maxSize := if c.maxSize ≤ 0 then defaultMaxSize else c.maxSize }

/-- `removeLocked`. -/
def remove (c : Cache) (a : ℕ) : Cache :=
  let size := c.size - (c.heap a).weight
  { c with
    entries := c.entries.erase (c.heap a).request
    queue := c.queue.erase a
    size := if size < 0 then 0 else size }

/-- The loop of `expireLocked`; each round takes the front of the queue. -/
def expireLoop (service : Service) (now : ℤ) : ℕ → Cache → Cache
  | 0, c => c
  | rounds + 1, c =>
    match c.queue with
    | [] => c
    | a :: _ =>
      if service.young now (c.heap a).timeIn then c else expireLoop service now rounds (c.remove a)

/-- `expireLocked`. -/
def expire (now : ℤ) (c : Cache) : Cache := expireLoop service now c.queue.length c

def evictLoop (service : Service) : ℕ → Cache → Cache
  | 0, c => c
  | rounds + 1, c =>
    if c.size ≤ c.maxSize then c
    else
      match c.queue with
      | [] => service.emptied c
      | a :: _ => evictLoop service rounds (c.remove a)

/-- `evictLocked`. -/
def evict (c : Cache) : Cache := evictLoop service (c.queue.length + 1) c

/-- A change of an entry through its address. -/
def modify (c : Cache) (a : ℕ) (f : Entry → Entry) : Cache :=
  { c with heap := Function.update c.heap a (f (c.heap a)) }

/-- A new entry at the end of the queue. -/
def push (c : Cache) (request : Bytes) (now : ℤ) : Cache where
  heap := Function.update c.heap c.fresh { request, timeIn := now }
  fresh := c.fresh + 1
  entries := c.entries.insert request c.fresh
  queue := c.queue ++ [c.fresh]
  size := c.size + request.length
  maxSize := c.maxSize

/-- `begin`: whether an entry was found and the response it has, and the cache. -/
def begin (c : Cache) (request : Bytes) (now : ℤ) : (Option Bytes × Bool) × Cache :=
  let c := c.initialized.expire service now
  match c.entries.lookup request with
  | some a =>
    (((c.heap a).response, true), c.modify a fun entry => { entry with hits := entry.hits + 1 })
  | none => ((none, false), (c.push request now).evict service)

/-- A response for the entry at `a`. -/
def respond (c : Cache) (a : ℕ) (response : Bytes) : Cache :=
  { c.modify a fun entry => { entry with response := some response } with
    size := c.size + response.length }

def complete (c : Cache) (request : Bytes) (response : Option Bytes) (now : ℤ) : Cache :=
  let c := c.initialized.expire service now
  match c.entries.lookup request with
  | none => c
  | some a =>
    if service.dismisses response then c.remove a
    else (c.respond a (response.getD [])).evict service

end Cache

/-! ## Handlers -/

/-- A server: its cache, the requests its handlers are working on, and the clock. -/
structure World where
  cache : Cache
  pending : List Bytes := []
  clock : ℤ

/-- A call, and the time that has passed since the call before it. -/
inductive Call
  | begin (request : Bytes) (elapsed : ℕ)
  /-- The `i`-th of the handlers at work is done. -/
  | complete (i : ℕ) (response : Option Bytes) (elapsed : ℕ)

def next (w : World) : Call → World
  | .begin request elapsed =>
    let now := w.clock + elapsed
    let (found, cache) := w.cache.begin service request now
    { cache, clock := now, pending := if found.2 then w.pending else w.pending ++ [request] }
  | .complete i response elapsed =>
    match w.pending[i]? with
    | none => w
    | some request =>
      let now := w.clock + elapsed
      { cache := w.cache.complete service request response now, clock := now,
        pending := w.pending.eraseIdx i }

def start (maxSize clock : ℤ) : World := { cache := .new maxSize, clock }

end Kerberos.Lookaside
