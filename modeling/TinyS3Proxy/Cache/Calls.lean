import TinyS3Proxy.Coop.Log
import TinyS3Proxy.Cache.Committing
import TinyS3Proxy.Cache.Evicting
import TinyS3Proxy.Cache.Startup

/-!
# The cache and its callers

The disk cache under any number of concurrent callers, which make any calls on any keys,
with crashes and restarts at any point. What the callers see is kept in a log: which calls
have been made, and what they have returned.

Every step of the log is accompanied by what holds of the cache at that moment, so that
the theorems about runs only have to look at the log and at the last state.
-/

namespace TinyS3Proxy

open Coop Coop.Discipline

/-! ### Calls -/

/-- The calls that the cache offers, and the task that rewrites access times. -/
inductive Call
  | beginFill (key : CacheKey)
  | commitFill (guard : FillGuard) (tempBody : Path) (info : CacheMeta)
  | abortFill (guard : FillGuard)
  | lookup (key : CacheKey)
  | peek (key : CacheKey)
  | peekBody (key : CacheKey)
  | purge (key : CacheKey)
  | poison (key : CacheKey)
  | purgeIfUnchanged (key : CacheKey) (expected : FillId)
  | poisonIfUnchanged (key : CacheKey) (expected : FillId)
  | updateMetadataIfUnchanged (key : CacheKey) (expected : FillId) (info : CacheMeta)
  | rewriteLastAccessed (hash : String) (expected : FillId) (now : Time)
  | runEvictionPass (cleanups : List DeferredCleanup) (candidates : List EvictionCandidate)

namespace Call

/-- What a call returns. -/
def Result : Call → Type
  | beginFill _ => FillGuard
  | commitFill _ _ _ => Except CacheError Unit
  | abortFill _ => Unit
  | lookup _ => Except CacheError (Option CacheEntry)
  | peek _ => Except CacheError (Option CacheEntry)
  | peekBody _ => Except CacheError (Option CacheEntry)
  | purge _ => Except CacheError Bool
  | poison _ => Except CacheError Unit
  | purgeIfUnchanged _ _ => Except CacheError Bool
  | poisonIfUnchanged _ _ => Except CacheError Bool
  | updateMetadataIfUnchanged _ _ _ => Except CacheError Bool
  | rewriteLastAccessed _ _ _ => Unit
  | runEvictionPass _ _ => Except CacheError Unit

/-- The code of a call. -/
def code {E : Type} : (c : Call) → Async (DiskCache E) c.Result
  | beginFill key => DiskCache.beginFill key
  | commitFill guard tempBody info => DiskCache.commitFill guard tempBody info
  | abortFill guard => DiskCache.abortFill guard
  | lookup key => DiskCache.lookupInner key true
  | peek key => DiskCache.lookupInner key false
  | peekBody key => DiskCache.lookupInner key true
  | purge key => DiskCache.purge key
  | poison key => DiskCache.poison key
  | purgeIfUnchanged key expected => DiskCache.purgeIfUnchanged key expected
  | poisonIfUnchanged key expected => DiskCache.poisonIfUnchanged key expected
  | updateMetadataIfUnchanged key expected info =>
      DiskCache.updateMetadataIfUnchanged key expected info
  | rewriteLastAccessed hash expected now => DiskCache.rewriteLastAccessed hash expected now
  | runEvictionPass cleanups candidates => DiskCache.runEvictionPass cleanups candidates

/-- The calls that stand alone. The others belong to a fill. -/
def Standalone : Call → Prop
  | beginFill _ => False
  | commitFill _ _ _ => False
  | abortFill _ => False
  | _ => True

end Call

/-! ### The log -/

/-- The task `t` has made a call, the call made at position `i` of the log has returned, or
the process has been restarted. -/
inductive Event
  | invoked (t : ℕ) (c : Call)
  | returned (i t : ℕ) (c : Call) (result : c.Result)
  | restarted

/-- The task of an event. -/
def Event.task : Event → Option ℕ
  | invoked t _ => some t
  | returned _ t _ _ => some t
  | restarted => none

namespace DiskCache

/-- Note an event in the log. -/
def note (s : DiskCache (List Event)) (e : Event) : DiskCache (List Event) :=
  s.setEnv (s.env ++ [e])

/-- Note that a call is made. The result is its position in the log. -/
def invoke (c : Call) : Async (DiskCache (List Event)) ℕ :=
  .act fun t s => (s.env.length, s.note (.invoked t c))

/-- Note that the call made at position `i` returns. -/
def finish (i : ℕ) (c : Call) (r : c.Result) : Async (DiskCache (List Event)) Unit :=
  .modifies fun t s => s.note (.returned i t c r)

/-- Make a call. -/
def perform (c : Call) : Async (DiskCache (List Event)) c.Result := do
  let i ← invoke c
  let r ← c.code
  finish i c r
  return r

/-! ### Callers -/

/-- A caller that makes a single call. -/
def caller (c : Call) : Async (DiskCache (List Event)) Unit := do
  let _ ← perform c

/-- A caller that begins a fill, writes a body to a temporary file, and commits the fill
with the given metadata. It aborts the fill when it has got no metadata or cannot write the
body. -/
def filler (key : CacheKey) (body : List UInt8) (info : Option CacheMeta) :
    Async (DiskCache (List Event)) Unit := do
  let guard ← perform (.beginFill key)
  let t ← currentTask
  let id ← nextTmp
  let tempBody := Path.tmp t id .body
  match ← writeFileSecure tempBody (.body (FillGuard.fill guard) body), info with
  | .ok (), some m =>
      let _ ← perform (.commitFill guard tempBody m)
  | _, _ =>
      let _ ← perform (.abortFill guard)

/-- The cache under any number of callers, which may crash at any point and be
restarted. -/
def callers : System (DiskCache (List Event)) where
  spawns p := (∃ c, c.Standalone ∧ p = caller c) ∨ ∃ key body info, p = filler key body info
  droppable _ _ := False
  onDrop _ s := s
  env _ _ := False
  reset s s' := ∃ u s₁, s.Lists u ∧ s.restart u = some s₁ ∧ s' = s₁.note .restarted

/-- The runs of the cache, from an empty cache directory on. -/
def Run (P : Pool (DiskCache (List Event))) : Prop :=
  Pool.Steps callers (Pool.idle (fresh []) 0) P

/-! ### Schedules of callers -/

theorem allowed_filler
    (key : CacheKey) (body : List UInt8) (info : Option CacheMeta) :
  (Pool.Cmd.spawn (filler key body info)).Allowed callers
  := Or.inr ⟨key, body, info, rfl⟩

theorem allowed_caller
    {c : Call} (hc : c.Standalone) :
  (Pool.Cmd.spawn (caller c)).Allowed callers
  := Or.inl ⟨c, hc, rfl⟩

/-- Resume the task `t` as many times as given. -/
def runs (t n : ℕ) : List (Pool.Cmd (DiskCache (List Event))) := List.replicate n (.run t 0)

theorem allowed_runs
    (t n : ℕ) :
  ∀ c ∈ runs t n, c.Allowed callers
  := by
  intro c hc
  obtain ⟨-, rfl⟩ := List.mem_replicate.mp hc
  trivial

/-- What can be computed of the last state of a schedule holds at the end of some run. -/
theorem exists_run
    {cs : List (Pool.Cmd (DiskCache (List Event)))} {p : DiskCache (List Event) → Bool}
    (hcs : ∀ c ∈ cs, c.Allowed callers)
    (h : ((Pool.idle (fresh []) 0).execAll cs).any (fun P => p P.st) = true) :
  ∃ P, Run P ∧ p P.st = true
  := by
  obtain ⟨P, hP, hp⟩ := (Option.any_eq_true _ _).mp h
  exact ⟨P, Pool.execAll_steps hcs hP, hp⟩

/-- A key for the schedules below. -/
def sampleKey : CacheKey := ⟨"bucket", "object", "hash"⟩

/-- Metadata for the key of the schedules below. -/
def sampleMeta : CacheMeta where
  bucket := "bucket"
  key := "object"
  etag := some "etag"
  lastModified := none
  contentType := none
  contentLength := 0
  cacheWrittenAt := 0
  fillId := 0
  metadataVersion := 0
  lastAccessedAt := 0
  hitCount := 0
  sourceStatus := 200
  metadata := Headers.empty
  extraHeaders := Headers.empty
  headExtraHeaders := Headers.empty
  headChecksumHeaders := Headers.empty
  checksumModeChecked := false
  headMetadataChecked := false
  headChecksumChecked := false

end DiskCache

end TinyS3Proxy
