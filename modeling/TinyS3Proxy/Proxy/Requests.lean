import TinyS3Proxy.Cache.Eviction
import TinyS3Proxy.Proxy.World

/-!
# The handlers of typed requests

The handlers of `GET`, `HEAD` and of the writes of one object (`handlers/get.rs`,
`handlers/head.rs`, `handlers/put.rs`, `handlers/delete.rs`, `handlers/multipart.rs`), over the
cache, the backend and the flights. A handler runs as one task. The copying of a body into the
cache goes on in the task of the request that has fetched the body, after it was answered.
-/

namespace TinyS3Proxy

open Coop

/-- A read of an object. The field `now` is the time at which what it fetches is cached. -/
structure ReadRequest where
  requestId : String
  objectKey : String
  options : ReadOptions
  ranged : Bool
  now : Time

namespace DiskCache

/-- Look into the cache without opening the body. -/
def peek (key : CacheKey) : Async ProxyState (Except CacheError (Option CacheEntry)) :=
  lookupInner key false

/-- Look into the cache and open the body. -/
def peekBody (key : CacheKey) : Async ProxyState (Except CacheError (Option CacheEntry)) :=
  lookupInner key true

/-- Invalidate an entry that the backend has disproved, unless it has been replaced. The result
tells whether what the backend has said holds of the entry. -/
def purgeThenPoisonIfUnchanged (key : CacheKey) (expected : FillId) : Async ProxyState Bool := do
  match ← purgeIfUnchanged key expected with
  | .ok b => return b
  | .error _ =>
      match ← poisonIfUnchanged key expected with
      | .ok b => return b
      | .error _ => return true

section Reads

variable (d : Deployment) (r : ReadRequest)

/-- The cache key of a request. -/
abbrev readKey : CacheKey := d.cacheKey r.objectKey

/-- Answer a read, with a response or with the response for an error. -/
def respond (method : ReadMethod) : Except ProxyError ReadResponse → Async ProxyState Unit
  | .ok response =>
      report fun t => .answered t (readKey d r) method r.options r.requestId response
  | .error e => report fun t => .failed t (readKey d r) e

/-! ### `GET` from the cache -/

/-- The bytes of a cached body, through the handle that the lookup has opened, if it has. -/
def openFileStream (entry : CacheEntry) : Async ProxyState (Option (List UInt8)) :=
  match entry.bodyFile with
  | some i => .reads fun s => some (s.data i).bytes
  | none => do
      match ← openFile (.body (readKey d r).hash) with
      | .ok i => .reads fun s => some (s.data i).bytes
      | .error _ => return none

/-- The response that is made of a cached entry, unless its body is gone. -/
def cacheResponse (cacheStatus : CacheStatus) (entry : CacheEntry) :
    Async ProxyState (Option ReadResponse) := do
  match ← openFileStream d r entry with
  | some body =>
      report fun t => .found t (readKey d r) body
      return some (buildCacheResponse d.httpDate entry.info body r.requestId cacheStatus
        r.options.wantsChecksumHeaders)
  | none => return none

/-- The response that is made of what the cache has, if that can answer the request. -/
def serveCached (cacheStatus : CacheStatus) : Async ProxyState (Option ReadResponse) := do
  match ← peekBody (readKey d r) with
  | .ok (some entry) =>
      if cacheEntrySatisfiesReadOptions entry.info r.options then cacheResponse d r cacheStatus entry
      else return none
  | _ => return none

/-- Refresh cached metadata without checksums of a `GET` by a `HEAD`. The result is an answer
to the request, if the refresh gives one. -/
def tryRefreshCachedGetMetadata (m : CacheMeta) :
    Async ProxyState (Option (Except ProxyError ReadResponse)) :=
  if !r.options.wantsChecksumHeaders || m.checksumModeChecked then return none
  else do
    match ← headObject d (readKey d r) r.options with
    | .error e =>
        if e.isNotFound then do
          let invalidated ← purgeThenPoisonIfUnchanged (readKey d r) m.fillId
          return if invalidated then some (.error e) else none
        else return none
    | .ok output =>
        match refreshedCacheMeta m output r.options.wantsChecksumHeaders with
        | .updated info =>
            match ← updateMetadataIfUnchanged (readKey d r) m.fillId info with
            | .ok false => return (← serveCached d r .miss).map .ok
            | _ => return none
        | .etagMismatch => do
            let _ ← purgeThenPoisonIfUnchanged (readKey d r) m.fillId
            return none
        | .noStrongMatch => return none

/-- Look into the cache again as the leader, and refresh what it has if that can help. -/
def probeAsLeader : Async ProxyState (Option (Except ProxyError ReadResponse)) := do
  match ← peek (readKey d r) with
  | .ok (some entry) =>
      if cacheEntrySatisfiesReadOptions entry.info r.options then
        return (← serveCached d r .hit).map .ok
      else
        match ← tryRefreshCachedGetMetadata d r entry.info with
        | some result => return some result
        | none =>
            match ← peek (readKey d r) with
            | .ok (some refreshed) =>
                if cacheEntrySatisfiesReadOptions refreshed.info r.options then
                  return (← serveCached d r .hit).map .ok
                else return none
            | _ => return none
  | _ => return none

/-! ### `GET` from the backend -/

/-- Stream the answer of the backend to the client, without caching it. -/
def passThroughGet (cacheStatus : CacheStatus) : Async ProxyState Unit := do
  match ← getObject d (readKey d r) r.options with
  | .ok (info, body) =>
      respond d r .get (.ok (buildMetaResponse d.httpDate info body r.requestId cacheStatus
        r.options.wantsChecksumHeaders))
  | .error e => respond d r .get (.error e)

/-- Something that the code leaves open. -/
def undecided : Async ProxyState Bool := worldly fun _ c w => some (c = 0, w)

/-- Copy a body into the cache, commit the fill, and wake the followers. When the copy fails, the
fill is abandoned and the followers are woken, in one order or the other. -/
def copyToCache (guard : FillGuard) (n : ℕ) (info : GetObjectMeta) (body : List UInt8) :
    Async ProxyState Unit := do
  let t ← currentTask
  let id ← nextTmp
  let tempBody := Path.tmp t id .body
  match ← writeFileSecure tempBody (.body guard.fill body) with
  | .ok () =>
      match ← fsEffect with
      | .ok () =>
          match ← commitFill guard tempBody (fetchedCacheMeta (readKey d r) info r.options r.now) with
          | .ok () => complete n
          | .error _ => do
              discard [tempBody]
              complete n
      | .error _ => do
          abortFill guard
          discard [tempBody]
          complete n
  | .error _ =>
      if ← undecided then do
        abortFill guard
        discard [tempBody]
        complete n
      else do
        complete n
        arrive
        abortFill guard
        discard [tempBody]

/-- The size of an object is known and allows caching it. A negative length is read as a large
one. -/
def sizeCacheable (info : GetObjectMeta) : Bool :=
  (info.contentLength.map fun n => d.policy.isSizeCacheable (n % 2 ^ 64).toNat).getD false

/-- The stale response to a read that the backend has failed to answer, if there is one. -/
def serveStale (e : ProxyError) : Async ProxyState (Option ReadResponse) :=
  if d.cacheServeStaleOnError && e.isTransient then serveCached d r .stale else return none

/-- Fetch the object as the leader `n`. The fill is begun before the object is fetched. -/
def fetchAsLeader (n : ℕ) : Async ProxyState Unit := do
  let guard ← beginFill (readKey d r)
  match ← getObject d (readKey d r) r.options with
  | .ok (info, body) =>
      if sizeCacheable d info then do
        report fun t => .copying t (readKey d r)
        respond d r .get (.ok (buildMetaResponse d.httpDate info body r.requestId .miss
          r.options.wantsChecksumHeaders))
        copyToCache d r guard n info body
      else do
        abortFill guard
        complete n
        respond d r .get (.ok (buildMetaResponse d.httpDate info body r.requestId .miss
          r.options.wantsChecksumHeaders))
  | .error e => do
      abortFill guard
      let stale ← serveStale d r e
      complete n
      match stale with
      | some response => respond d r .get (.ok response)
      | none => respond d r .get (.error e)

/-- The leader `n` looks into the cache again, and fetches the object if it is not there. -/
def handleLeader (n : ℕ) : Async ProxyState Unit := do
  match ← probeAsLeader d r with
  | some result => do
      complete n
      respond d r .get result
  | none => fetchAsLeader d r n

/-- A follower waits for its leader and looks into the cache again. When the entry cannot answer
the request, it starts over as given, if at all. -/
def handleFollower (again : Option (Async ProxyState Unit)) (i : ℕ) : Async ProxyState Unit := do
  recv (readKey d r) i
  match ← peekBody (readKey d r) with
  | .ok (some entry) =>
      if cacheEntrySatisfiesReadOptions entry.info r.options then
        match ← cacheResponse d r .hit entry with
        | some response => respond d r .get (.ok response)
        | none => passThroughGet d r .miss
      else
        match again with
        | some p => p
        | none => passThroughGet d r .miss
  | _ => passThroughGet d r .miss

def handleGetWithRefresh (again : Option (Async ProxyState Unit)) : Async ProxyState Unit :=
  if r.ranged || !d.policy.isCacheable r.objectKey then passThroughGet d r .bypass
  else do
    match ← serveCached d r .hit with
    | some response => respond d r .get (.ok response)
    | none =>
        match ← tryAcquire (readKey d r) with
        | .leader n => handleLeader d r n
        | .follower i => handleFollower d r again i

/-- Handle a `GET`. A follower may start over once. -/
def handleGet : Async ProxyState Unit := do
  report fun t => .began t (readKey d r)
  handleGetWithRefresh d r (some (handleGetWithRefresh d r none))
  report fun t => .ended t (readKey d r)

/-! ### `HEAD` -/

/-- The response that is made of cached metadata, if the cache has some that can answer the
request. -/
def serveCachedHead (cacheStatus : CacheStatus) : Async ProxyState (Option ReadResponse) := do
  match ← peek (readKey d r) with
  | .ok (some entry) =>
      if cacheEntrySatisfiesHeadRequest entry.info r.options then
        return some (buildCachedHeadResponse d.httpDate entry.info r.requestId cacheStatus
          r.options.wantsChecksumHeaders)
      else return none
  | _ => return none

/-- Look into the cache. The result is an answer to the request, or the metadata that is to be
refreshed, if any. -/
def probeHead : Async ProxyState (ReadResponse ⊕ Option CacheMeta) := do
  match ← peek (readKey d r) with
  | .ok (some entry) =>
      if cacheEntrySatisfiesHeadRequest entry.info r.options then
        return .inl (buildCachedHeadResponse d.httpDate entry.info r.requestId .hit
          r.options.wantsChecksumHeaders)
      else return .inr (some entry.info)
  | _ => return .inr none

/-- Work the answer of the backend into the metadata that was found in the cache. -/
def refreshCached (target : Option CacheMeta) (output : HeadObjectOutput) :
    Async ProxyState Unit :=
  match target with
  | none => return ()
  | some m =>
      match refreshedCacheMeta m output r.options.wantsChecksumHeaders with
      | .updated info => do
          let _ ← updateMetadataIfUnchanged (readKey d r) m.fillId info
      | .etagMismatch => do
          let _ ← purgeThenPoisonIfUnchanged (readKey d r) m.fillId
      | .noStrongMatch => return ()

/-- Ask the backend again about an entry that cannot answer the request, and work the answer
in. -/
def retryHead (newer : CacheMeta) : Async ProxyState (Except ProxyError ReadResponse) := do
  match ← headObject d (readKey d r) r.options with
  | .ok output =>
      match refreshedCacheMeta newer output r.options.wantsChecksumHeaders with
      | .updated info => do
          let _ ← updateMetadataIfUnchanged (readKey d r) newer.fillId info
          return .ok (buildCachedHeadResponse d.httpDate info r.requestId .miss
            r.options.wantsChecksumHeaders)
      | _ => do
          let _ ← purgeThenPoisonIfUnchanged (readKey d r) newer.fillId
          return .ok (buildFreshHeadResponse d.httpDate output r.requestId (some .miss)
            r.options.wantsChecksumHeaders)
  | .error e =>
      if e.isNotFound then do
        let _ ← purgeThenPoisonIfUnchanged (readKey d r) newer.fillId
        return .error e
      else return .error e

/-- Look into the cache once more when the entry that the backend does not have any more has been
replaced. -/
def reprobeHead : Async ProxyState (Option (Except ProxyError ReadResponse)) := do
  match ← serveCachedHead d r .hit with
  | some response => return some (.ok response)
  | none =>
      match ← peek (readKey d r) with
      | .ok (some newer) =>
          if cacheEntrySatisfiesHeadRequest newer.info r.options then
            return some (.ok (buildCachedHeadResponse d.httpDate newer.info r.requestId .hit
              r.options.wantsChecksumHeaders))
          else return some (← retryHead d r newer.info)
      | _ => return none

/-- What the cache can do for a request whose `HEAD` has failed. -/
def headFallback (target : Option CacheMeta) (e : ProxyError) :
    Async ProxyState (Option (Except ProxyError ReadResponse)) :=
  match target with
  | none => return none
  | some m =>
      if e.isNotFound then do
        if ← purgeThenPoisonIfUnchanged (readKey d r) m.fillId then return none
        else reprobeHead d r
      else if d.cacheServeStaleOnError && e.isTransient then do
        return (← serveCachedHead d r .stale).map .ok
      else return none

/-- Ask the backend, after a look into the cache has not given an answer. -/
def fetchHead (target : Option CacheMeta) : Async ProxyState Unit := do
  match ← headObject d (readKey d r) r.options with
  | .ok output => do
      refreshCached d r target output
      respond d r .head (.ok (buildFreshHeadResponse d.httpDate output r.requestId none
        r.options.wantsChecksumHeaders))
  | .error e =>
      match ← headFallback d r target e with
      | some result => respond d r .head result
      | none => respond d r .head (.error e)

/-- Answer a `HEAD` from the cache, or else from the backend. -/
def answerHead : Async ProxyState Unit :=
  if d.policy.isCacheable r.objectKey then do
    match ← probeHead d r with
    | .inl response => respond d r .head (.ok response)
    | .inr target => fetchHead d r target
  else fetchHead d r none

/-- Handle a `HEAD`. -/
def handleHead : Async ProxyState Unit := do
  report fun t => .began t (readKey d r)
  answerHead d r
  report fun t => .ended t (readKey d r)

end Reads

/-! ### Writes -/

/-- Purge a key, once more if that fails, and else poison it. The result tells whether one of
these has succeeded. -/
def purgeOrPoison (key : CacheKey) : Async ProxyState Bool := do
  match ← purge key with
  | .ok _ => return true
  | .error _ =>
      match ← purge key with
      | .ok _ => return true
      | .error _ =>
          match ← poison key with
          | .ok _ => return true
          | .error _ => return false

/-- Invalidate a key whose object has been written, and cancel its flight. -/
def invalidateKey (key : CacheKey) : Async ProxyState Bool := do
  let invalidated ← purgeOrPoison key
  cancel key
  return invalidated

/-- Write an object to the backend, and invalidate its key when the backend reports success. -/
def answerWrite (d : Deployment) (key : CacheKey) : Async ProxyState Unit := do
  match ← writeObject d key with
  | .ok n => do
      let invalidated ← invalidateKey key
      report fun t => .acknowledged t key n invalidated
  | .error e => report fun t => .failed t key e

/-- Handle a write of an object. -/
def handleWrite (d : Deployment) (objectKey : String) : Async ProxyState Unit := do
  report fun t => .began t (d.cacheKey objectKey)
  answerWrite d (d.cacheKey objectKey)
  report fun t => .ended t (d.cacheKey objectKey)

end DiskCache

end TinyS3Proxy
