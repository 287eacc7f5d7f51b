import TinyS3Proxy.Cache.Locking
import TinyS3Proxy.Cache.SingleFlight
import TinyS3Proxy.Proxy.Versions
import TinyS3Proxy.S3.ProxyError

/-!
# The world around the cache

What the handlers work with besides the cache: the backend, which has for every key one
version at a time, the registry of flights, and a log of what the handlers have done, which
the code never reads.

The versions that a key goes through are given beforehand, as a function of how often the key
has been written. A write does not carry its contents: the `n`-th write of a key puts in place
the `n`-th version of it.
-/

namespace TinyS3Proxy

open Coop

/-- Which objects are cached. -/
structure CachePolicy where
  cacheablePrefixes : List String
  maxObjectBytes : ℕ

namespace CachePolicy

/-- The key has one of the prefixes. -/
def isCacheable (policy : CachePolicy) (key : String) : Bool :=
  policy.cacheablePrefixes.any fun p => p.toList.isPrefixOf key.toList

/-- An object of the given size may be cached. -/
def isSizeCacheable (policy : CachePolicy) (size : ℕ) : Bool := size ≤ policy.maxObjectBytes

end CachePolicy

/-- What a proxy is set up with, and what it is connected to: the versions that the objects
of the backend go through, the errors that the backend may report, the hash that names the
files of a key, and the form of dates in headers. -/
structure Deployment where
  backendBucket : String
  policy : CachePolicy
  cacheServeStaleOnError : Bool
  computeHash : String → String → String
  httpDate : Time → String
  history : CacheKey → ℕ → Option ObjectVersion
  errors : ℕ → ProxyError

/-- The error of a read of an object that the backend does not have. -/
def notFound : ProxyError :=
  .upstreamS3 404 (Text.ascii "NoSuchKey") (Text.ascii "") (Text.ascii "")

/-- The backend reports that it does not have the object. -/
def ProxyError.isNotFound : ProxyError → Bool
  | .upstreamS3 status _ _ _ => status = 404
  | _ => false

/-- The cache key of an object of the backend bucket. -/
def Deployment.cacheKey (d : Deployment) (objectKey : String) : CacheKey :=
  .new d.computeHash d.backendBucket objectKey

/-! ### The log -/

/-- The methods of reads. -/
inductive ReadMethod
  | get
  | head
  deriving DecidableEq

/-- What the task `t` has done for a key.

* A request has `began`.
* The backend has `read` the version `n` of the key for a `GET`.
* The cache was `found` to have a body for the key.
* A read was `answered`, or has `failed`.
* The backend has `applied` a write, which put the version `n` in place.
* A write was `acknowledged`, where an invalidation of the key may have succeeded.
* The body of a response is being copied into the cache.
* The request has `ended`. -/
inductive ProxyEvent
  | began (t : ℕ) (key : CacheKey)
  | read (t : ℕ) (key : CacheKey) (n : ℕ)
  | found (t : ℕ) (key : CacheKey) (body : List UInt8)
  | answered (t : ℕ) (key : CacheKey) (method : ReadMethod) (options : ReadOptions)
      (requestId : String) (response : ReadResponse)
  | failed (t : ℕ) (key : CacheKey) (e : ProxyError)
  | applied (t : ℕ) (key : CacheKey) (n : ℕ)
  | acknowledged (t : ℕ) (key : CacheKey) (n : ℕ) (invalidated : Bool)
  | copying (t : ℕ) (key : CacheKey)
  | ended (t : ℕ) (key : CacheKey)

/-- The task of an event. -/
def ProxyEvent.task : ProxyEvent → ℕ
  | began t _ | read t _ _ | found t _ _ | answered t _ _ _ _ _ | failed t _ _ | applied t _ _
  | acknowledged t _ _ _ | copying t _ | ended t _ => t

/-- What surrounds the cache: the flights, for each key the number of the version that the
backend has, for each task the flight that it leads, and the log. -/
structure World where
  flights : SingleFlight
  current : CacheKey → ℕ
  leads : ℕ → Option ℕ
  log : List ProxyEvent

/-- The world before any request. -/
def World.start : World := ⟨.new, fun _ => 0, fun _ => none, []⟩

/-- Add an event to the log. -/
def World.note (w : World) (e : ProxyEvent) : World := { w with log := w.log ++ [e] }

/-- The cache, in the world of the handlers. -/
abbrev ProxyState := DiskCache World

namespace DiskCache

/-- Change the world. -/
def inWorld (s : ProxyState) (f : World → World) : ProxyState := s.setEnv (f s.env)

/-- Note an event. -/
def report (e : ℕ → ProxyEvent) : Async ProxyState Unit :=
  .modifies fun t s => s.inWorld fun w => w.note (e t)

/-- Suspend until an operation on the world completes. -/
def worldly {β : Type} (f : ℕ → ℕ → World → Option (β × World)) : Async ProxyState β :=
  .suspend fun t c s => (f t c s.env).map fun r => (r.1, s.setEnv r.2)

/-- Let the others run, while an answer is on its way. -/
def arrive : Async ProxyState Unit := worldly fun _ _ w => some ((), w)

/-! ### The backend

A call of the backend takes effect at one moment and returns at a later one. It fails whenever
the scheduler chooses so; a write that fails may have been applied nevertheless. -/

section Backend

variable (d : Deployment) (key : CacheKey)

/-- Ask the backend for the version that it has, with its number. -/
def fetchVersion : Async ProxyState (Except ProxyError (ℕ × ObjectVersion)) :=
  worldly fun _ c w => some (
    if c = 0 then
      match d.history key (w.current key) with
      | some v => .ok (w.current key, v)
      | none => .error notFound
    else .error (d.errors c), w)

/-- Get an object from the backend. -/
def getObject (options : ReadOptions) :
    Async ProxyState (Except ProxyError (GetObjectMeta × List UInt8)) := do
  match ← fetchVersion d key with
  | .error e =>
      arrive
      return .error e
  | .ok (n, v) =>
      report fun t => .read t key n
      arrive
      return .ok (v.get options, v.body)

/-- Ask the backend about an object. -/
def headObject (options : ReadOptions) : Async ProxyState (Except ProxyError HeadObjectOutput) := do
  let r ← fetchVersion d key
  arrive
  return r.map fun p => p.2.head options

/-- Put the next version of the key in place. The result is its number, or the error that is
reported with the number of the version if it was put in place nevertheless. -/
def applyWrite : Async ProxyState (Except (ProxyError × Option ℕ) ℕ) :=
  worldly fun _ c w => some (
    if c ≤ 1 then
      (if c = 0 then .ok (w.current key + 1) else .error (d.errors c, some (w.current key + 1)),
        { w with current := Function.update w.current key (w.current key + 1) })
    else (.error (d.errors c, none), w))

/-- The number of the version that a write has put in place. -/
def appliedVersion : Except (ProxyError × Option ℕ) ℕ → Option ℕ
  | .ok n => some n
  | .error (_, n) => n

/-- Note that a write has put a version in place, if it has. -/
def noteApplied : Option ℕ → Async ProxyState Unit
  | some n => report fun t => .applied t key n
  | none => pure ()

/-- Write an object to the backend. The result is the number of its version. -/
def writeObject : Async ProxyState (Except ProxyError ℕ) := do
  let r ← applyWrite d key
  noteApplied key (appliedVersion r)
  arrive
  return r.mapError Prod.fst

end Backend

/-! ### Flights -/

/-- Become the leader of the key, or a follower of the flight under way. -/
def tryAcquire (key : CacheKey) : Async ProxyState FlightResult :=
  worldly fun t _ w => some (
    match (w.flights.tryAcquire key).1 with
    | .leader n =>
        (.leader n, { w with
          flights := (w.flights.tryAcquire key).2
          leads := Function.update w.leads t (some n) })
    | .follower i => (.follower i, { w with flights := (w.flights.tryAcquire key).2 }))

/-- Nothing is left that could send to the channel of the flight `n` of the key. -/
def flightClosed (w : World) (key : CacheKey) (n : ℕ) : Bool :=
  (w.flights.waiters n).isNone && (w.flights.registry key).all fun e => e.sender ≠ n

/-- Wait until the leader of the flight completes or is gone. -/
def recv (key : CacheKey) (i : ℕ) : Async ProxyState Unit :=
  worldly fun _ _ w =>
    match w.flights.receivers i with
    | none => some ((), w)
    | some r => if r.received || flightClosed w key r.sender then some ((), w) else none

/-- The leader `n` wakes its followers, takes its flight out of the registry, and drops its
handle. -/
def complete (n : ℕ) : Async ProxyState Unit := do
  .modifies fun _ s => s.inWorld fun w =>
    match w.flights.waiters n with
    | some f => { w with flights := w.flights.send n f }
    | none => w
  worldly fun t _ w => some ((),
    match w.flights.waiters n with
    | some f =>
        { w with
          flights := (w.flights.deregister n f).dropWaiter n f false
          leads := Function.update w.leads t none }
    | none => w)

/-- Cancel the flight of a key. -/
def cancel (key : CacheKey) : Async ProxyState Unit :=
  worldly fun _ _ w => some ((), { w with flights := w.flights.cancel key })

end DiskCache

end TinyS3Proxy
