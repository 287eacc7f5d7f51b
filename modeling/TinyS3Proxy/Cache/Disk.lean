import TinyS3Proxy.Cache.Primitives

/-!
# The operations of the disk cache

The code of the cache operations, suspension point by suspension point. A lock guard
that the source drops at the end of a scope is released by the `withMetaLock` and
`withCommitLock` that brackets the scope.

The statistics counters are left out: nothing here reads them.
-/

namespace TinyS3Proxy

open Coop

namespace DiskCache

variable {E : Type}

/-- The result of a cache operation that fails. -/
def failed {α : Type} (operation : String) : Except CacheError α := .error ⟨operation⟩

/-- Check that a file exists, telling its absence from a failure of the check. -/
def checkExists (p : Path) (operation : String) :
    Async (DiskCache E) (Except CacheError Bool) := do
  match ← tryExists p with
  | .ok b => return .ok b
  | .error .notFound => return .ok false
  | .error _ => return failed operation

/-! ### Fill ids -/

/-- Write the next fill id to the counter file: to a temporary file, which is synced and
renamed into place, and then sync the directory. -/
def persistFillIdCounter (next : FillId) : Async (DiskCache E) (Except CacheError Unit) := do
  let t ← currentTask
  let id ← nextTmp
  let tmpPath := Path.tmp t id .fillIdCounter
  match ← writeFileSecure tmpPath (.counter next) with
  | .error _ =>
      discard [tmpPath]
      return failed "write fill_id counter temp file"
  | .ok () =>
  match ← openFile tmpPath with
  | .error _ =>
      discard [tmpPath]
      return failed "open fill_id counter temp file"
  | .ok _ =>
  match ← fsEffect with
  | .error _ =>
      discard [tmpPath]
      return failed "fsync fill_id counter temp file"
  | .ok () =>
  match ← renameFile tmpPath .fillIdCounter with
  | .error _ =>
      discard [tmpPath]
      return failed "rename fill_id counter"
  | .ok () =>
  match ← fsEffect with
  | .error _ => return failed "open fill_id counter parent dir"
  | .ok () =>
  match ← fsEffect with
  | .error _ => return failed "fsync fill_id counter parent dir"
  | .ok () => return .ok ()

/-- Reserve a fill id for the fill `f` under the lock, and persist the next one before it
is used. -/
def reserveLocked (f : ℕ) : Async (DiskCache E) (Except CacheError FillId) := do
  match ← takeFillId f with
  | none => return failed "reserve fill_id"
  | some fillId =>
  match ← persistFillIdCounter (CacheMeta.saturatingSucc fillId) with
  | .error e => return .error e
  | .ok () => return .ok fillId

/-- Reserve a fill id for the fill `f`. -/
def reserveFillId (f : ℕ) : Async (DiskCache E) (Except CacheError FillId) := do
  lockPersist
  let r ← reserveLocked f
  unlockPersist
  return r

/-! ### Publishing -/

/-- Put a file back that was moved away for a publication that failed. -/
def restorePublishBackup (finalPath backupPath : Path) : Async (DiskCache E) Unit := do
  let _ ← renameFile backupPath finalPath

/-- Move a file away, when it is there. The mode of the moved file is then tightened,
which does not change its contents. -/
def moveAway (present : Bool) (finalPath backupPath : Path) :
    Async (DiskCache E) (Except IoError Unit) :=
  if present then do
    match ← renameFile finalPath backupPath with
    | .error e => return .error e
    | .ok () =>
        let _ ← fsEffect
        return .ok ()
  else return .ok ()

/-- Move the new body and the new metadata into place, the old ones having been moved
away. -/
def installFiles (arg : CacheMeta) (h : String) (t id : ℕ) (oldBody oldMeta : Bool)
    (tempBody tempMeta : Path) : Async (DiskCache E) (Except CacheError Unit) := do
  match ← renameFile tempBody (.body h) with
  | .error _ =>
      Async.when oldBody (restorePublishBackup (.body h) (.tmp t id .prevBody))
      Async.when oldMeta (restorePublishBackup (.metaJson h) (.tmp t id .prevMetaJson))
      discard [tempBody, tempMeta]
      return failed "rename body"
  | .ok () =>
  match ← rename tempMeta (.metaJson h) (recordWrite t h (.publish arg)) with
  | .error _ =>
      Async.when oldBody (restorePublishBackup (.body h) (.tmp t id .prevBody))
      Async.when (!oldBody) (discard [.body h])
      Async.when oldMeta (restorePublishBackup (.metaJson h) (.tmp t id .prevMetaJson))
      discard [tempMeta]
      return failed "rename metadata"
  | .ok () =>
      Async.when oldBody (discard [.tmp t id .prevBody])
      Async.when oldMeta (discard [.tmp t id .prevMetaJson])
      return .ok ()

/-- Move the old body and the old metadata away, where there are any, and the new ones
into place. -/
def publishFiles (arg : CacheMeta) (h : String) (t id : ℕ) (tempBody tempMeta : Path) :
    Async (DiskCache E) (Except CacheError Unit) := do
  let oldBody := (← fileMetadata (.body h)).toBool
  let oldMeta := (← fileMetadata (.metaJson h)).toBool
  match ← moveAway oldBody (.body h) (.tmp t id .prevBody) with
  | .error _ =>
      discard [tempBody, tempMeta]
      return failed "backup existing body"
  | .ok () =>
  match ← moveAway oldMeta (.metaJson h) (.tmp t id .prevMetaJson) with
  | .error _ =>
      Async.when oldBody (restorePublishBackup (.body h) (.tmp t id .prevBody))
      discard [tempBody, tempMeta]
      return failed "backup existing metadata"
  | .ok () =>
      installFiles arg h t id oldBody oldMeta tempBody tempMeta

/-- Write the metadata to its temporary file and sync it. -/
def writeTempMeta (guard : FillGuard) (m : CacheMeta) (tempBody tempMeta : Path) :
    Async (DiskCache E) (Except CacheError Unit) := do
  match ← writeFileSecure tempMeta (.json guard.fill m) with
  | .error _ =>
      discard [tempBody, tempMeta]
      return failed "write temp metadata"
  | .ok () =>
  match ← openFile tempMeta with
  | .error _ =>
      discard [tempBody, tempMeta]
      return failed "open temp meta for fsync"
  | .ok _ =>
  match ← fsEffect with
  | .error _ =>
      discard [tempBody, tempMeta]
      return failed "fsync temp metadata"
  | .ok () => return .ok ()

/-- The metadata to publish, reconciled with the metadata that is in place. -/
def reconciled (m : CacheMeta) (current : Except IoError File) : CacheMeta :=
  match current with
  | .ok file =>
      match file.parse with
      | some (_, info) => m.preserveSameEtagHeadStateFrom info
      | none => m
  | .error _ => m

/-- The part of a commit that runs under the commit lock and the metadata lock. -/
def commitLocked (guard : FillGuard) (t id : ℕ) (tempBody tempMeta : Path) (arg : CacheMeta) :
    Async (DiskCache E) (Except CacheError Unit) := do
  if (← currentGeneration guard.key) ≠ guard.generation then
    discard [tempBody]
    return .ok ()
  else
  let m := reconciled arg (← readFile (.metaJson guard.key.hash))
  match ← reserveFillId guard.fill with
  | .error e =>
      discard [tempBody, tempMeta]
      return .error e
  | .ok fillId =>
  match ← writeTempMeta guard (m.stamped fillId) tempBody tempMeta with
  | .error e => return .error e
  | .ok () =>
  match ← publishFiles arg guard.key.hash t id tempBody tempMeta with
  | .error e => return .error e
  | .ok () =>
  clearPoisonedInMemory guard.key.hash
  discard [.poisoned guard.key.hash]
  return .ok ()

/-- Commit a fill, unless its key has been invalidated since it was begun. -/
def commitFillInner (guard : FillGuard) (tempBody : Path) (arg : CacheMeta) :
    Async (DiskCache E) (Except CacheError Unit) := do
  if (← currentGeneration guard.key) ≠ guard.generation then
    discard [tempBody]
    return .ok ()
  else
  let t ← currentTask
  let id ← nextTmp
  let _ ← fileMetadata tempBody
  let tempMeta := Path.tmp t id .metaJson
  match ← fsEffect with
  | .error _ =>
      discard [tempBody, tempMeta]
      return failed "create object dir"
  | .ok () =>
  if (← currentGeneration guard.key) ≠ guard.generation then
    discard [tempBody, tempMeta]
    return .ok ()
  else
  match ← activeFill guard.key with
  | none =>
      discard [tempBody, tempMeta]
      return .ok ()
  | some e =>
      withCommitLock (some e) <| withMetaLock guard.key.hash <|
        commitLocked guard t id tempBody tempMeta arg

/-- Commit a fill, and finish it whatever comes of the commit. -/
def commitFill (guard : FillGuard) (tempBody : Path) (arg : CacheMeta) :
    Async (DiskCache E) (Except CacheError Unit) := do
  let result ← commitFillInner guard tempBody arg
  finishFill guard
  return result

/-- Abandon a fill. -/
def abortFill (guard : FillGuard) : Async (DiskCache E) Unit := finishFill guard

/-! ### Invalidation -/

/-- Remove the body of an entry whose metadata is missing. A failure is reported as the
given operation. -/
def cleanupOrphanedBodyAfterMetadataMiss (h : String) (operation : String) :
    Async (DiskCache E) (Except CacheError Unit) := do
  let _ ← fileMetadata (.body h)
  match ← removeFile (.body h) with
  | .ok () => return .ok ()
  | .error .notFound => return .ok ()
  | .error _ => return failed operation

/-- Clear the poison of a hash, in memory and on disk. -/
def clearPoison (h : String) : Async (DiskCache E) Unit := do
  clearPoisonedInMemory h
  discard [.poisoned h]

/-- Remove the files of an entry that are there, the body first. -/
def removeEntry (h : String) (bodyExists metaExists : Bool) :
    Async (DiskCache E) (Except CacheError Bool) := do
  let _ ← fileMetadata (.body h)
  let _ ← fileMetadata (.metaJson h)
  match ← (if bodyExists then removeFile (.body h) else return .ok ()) with
  | .error _ => return failed "remove body"
  | .ok () =>
  match ← (if metaExists then removeFile (.metaJson h) else return .ok ()) with
  | .error _ => return failed "remove metadata"
  | .ok () =>
      clearPoison h
      return .ok true

/-- Purge an entry under its metadata lock. -/
def purgeLocked (h : String) : Async (DiskCache E) (Except CacheError Bool) := do
  match ← checkExists (.body h) "check body for purge" with
  | .error e => return .error e
  | .ok bodyExists =>
  match ← checkExists (.metaJson h) "check meta for purge" with
  | .error e => return .error e
  | .ok metaExists =>
  if !bodyExists && !metaExists then
    clearPoison h
    return .ok false
  else
    removeEntry h bodyExists metaExists

/-- Purge an entry under its metadata lock, if it still has the expected fill id. -/
def purgeIfUnchangedLocked (h : String) (fillEntry : Option ℕ) (expected : FillId) :
    Async (DiskCache E) (Except CacheError Bool) := do
  match ← readFile (.metaJson h) with
  | .error .notFound =>
      match ← cleanupOrphanedBodyAfterMetadataMiss h
          "remove orphaned body for conditional purge" with
      | .error e => return .error e
      | .ok () =>
          clearPoison h
          return .ok false
  | .error _ => return failed "read metadata for conditional purge"
  | .ok file =>
  match file.parse with
  | none => return failed "parse metadata for conditional purge"
  | some (_, current) =>
  if current.fillId ≠ expected then
    return .ok false
  else
  bumpAny fillEntry
  match ← checkExists (.body h) "check body for conditional purge" with
  | .error e => return .error e
  | .ok bodyExists => removeEntry h bodyExists true

/-- Purge an entry. -/
def purge (key : CacheKey) : Async (DiskCache E) (Except CacheError Bool) := do
  let fillEntry ← activeFill key
  withCommitLock fillEntry do
    bumpAny fillEntry
    withMetaLock key.hash (purgeLocked key.hash)

/-- Purge an entry if it still has the expected fill id. -/
def purgeIfUnchanged (key : CacheKey) (expected : FillId) :
    Async (DiskCache E) (Except CacheError Bool) := do
  let fillEntry ← activeFill key
  withCommitLock fillEntry <|
    withMetaLock key.hash (purgeIfUnchangedLocked key.hash fillEntry expected)

/-- Write the poison marker of a hash. -/
def writePoisonMarker (h : String) : Async (DiskCache E) (Except CacheError Unit) := do
  match ← fsEffect with
  | .error _ => return failed "create poison marker dir"
  | .ok () =>
  match ← writeFileSecure (.poisoned h) (.raw []) with
  | .ok () => return .ok ()
  | .error .alreadyExists => return .ok ()
  | .error _ => return failed "write poison marker"

/-- Poison an entry. -/
def poison (key : CacheKey) : Async (DiskCache E) (Except CacheError Unit) := do
  let fillEntry ← activeFill key
  withCommitLock fillEntry do
    bumpAny fillEntry
    withMetaLock key.hash do
      markPoisonedInMemory key.hash
      writePoisonMarker key.hash

/-- Poison an entry under its metadata lock, if it still has the expected fill id. -/
def poisonIfUnchangedLocked (h : String) (fillEntry : Option ℕ) (expected : FillId) :
    Async (DiskCache E) (Except CacheError Bool) := do
  match ← readFile (.metaJson h) with
  | .error .notFound => return .ok false
  | .error _ => return failed "read metadata for poison"
  | .ok file =>
  match file.parse with
  | none => return failed "parse metadata for poison"
  | some (_, current) =>
  if current.fillId ≠ expected then
    return .ok false
  else
  bumpAny fillEntry
  markPoisonedInMemory h
  match ← writePoisonMarker h with
  | .error e => return .error e
  | .ok () => return .ok true

/-- Poison an entry if it still has the expected fill id. -/
def poisonIfUnchanged (key : CacheKey) (expected : FillId) :
    Async (DiskCache E) (Except CacheError Bool) := do
  let fillEntry ← activeFill key
  withCommitLock fillEntry <|
    withMetaLock key.hash (poisonIfUnchangedLocked key.hash fillEntry expected)

/-! ### Rewriting metadata -/

/-- A number for the temporary file of a metadata update. -/
def nextUpdate : Async (DiskCache E) ℕ :=
  .act fun _ s => (s.updateCounter, { s with updateCounter := s.updateCounter + 1 })

/-- A number for the temporary file of an access-time rewrite. -/
def nextAccess : Async (DiskCache E) ℕ :=
  .act fun _ s => (s.accessCounter, { s with accessCounter := s.accessCounter + 1 })

/-- Update metadata under the metadata lock, if the entry still has the expected fill id
and the version that the update was computed from. -/
def updateMetadataLocked (h : String) (expected : FillId) (m : CacheMeta) :
    Async (DiskCache E) (Except CacheError Bool) := do
  match ← checkExists (.body h) "check body for metadata update" with
  | .error e => return .error e
  | .ok false => return .ok false
  | .ok true =>
  match ← checkExists (.metaJson h) "check meta for metadata update" with
  | .error e => return .error e
  | .ok false => return .ok false
  | .ok true =>
  match ← readFile (.metaJson h) with
  | .error .notFound => return .ok false
  | .error _ => return failed "read metadata for update"
  | .ok file =>
  match file.parse with
  | none => return failed "parse metadata for update"
  | some (fill, current) =>
  if current.fillId ≠ expected ∨ current.metadataVersion ≠ m.metadataVersion then
    return .ok false
  else
  let tmpPath := Path.metaTmp h (← nextUpdate)
  match ← writeFileSecure tmpPath (.json fill (m.updatedFrom current)) with
  | .error _ =>
      discard [tmpPath]
      return failed "write metadata update"
  | .ok () =>
  let t ← currentTask
  match ← rename tmpPath (.metaJson h) (recordWrite t h .update) with
  | .error _ =>
      discard [tmpPath]
      return failed "rename metadata update"
  | .ok () => return .ok true

/-- Update the metadata of an entry if it is unchanged. -/
def updateMetadataIfUnchanged (key : CacheKey) (expected : FillId) (m : CacheMeta) :
    Async (DiskCache E) (Except CacheError Bool) :=
  withMetaLock key.hash (updateMetadataLocked key.hash expected m)

/-- Rewrite the access time under the metadata lock. -/
def rewriteLastAccessedLocked (h : String) (expected : FillId) (now : Time) :
    Async (DiskCache E) Unit := do
  match ← readFile (.metaJson h) with
  | .error _ => return
  | .ok file =>
  match file.parse with
  | none => return
  | some (fill, current) =>
  if current.fillId ≠ expected then
    return
  else if now ≤ current.lastAccessedAt then
    return
  else
  let tmpPath := Path.metaTmp h (← nextAccess)
  match ← writeFileSecure tmpPath (.json fill { current with lastAccessedAt := now }) with
  | .error _ =>
      discard [tmpPath]
      return
  | .ok () =>
  let t ← currentTask
  match ← rename tmpPath (.metaJson h) (recordWrite t h .touch) with
  | .error _ =>
      discard [tmpPath]
      return
  | .ok () => return

/-- Rewrite the access time of an entry that has been hit, if it still has the expected
fill id and the new time is later. -/
def rewriteLastAccessed (h : String) (expected : FillId) (now : Time) :
    Async (DiskCache E) Unit :=
  withMetaLock h (rewriteLastAccessedLocked h expected now)

/-! ### Probes -/

/-- Check whether the hash is poisoned, in memory or on disk. -/
def checkPoisoned (h : String) (operation : String) :
    Async (DiskCache E) (Except CacheError Bool) := do
  if ← isPoisonedInMemory h then
    return .ok true
  else
    checkExists (.poisoned h) operation

/-- Remove the body of an entry whose metadata a probe has not found, whatever comes of
it. -/
def cleanOrphanedBody (h : String) : Async (DiskCache E) Unit := do
  let _ ← fileMetadata (.body h)
  let _ ← cleanFile (.body h)

/-- Find the body of an entry, and pin it when asked to. The result is `none` when there
is no body. -/
def probeBody (h : String) (pinBody : Bool) :
    Async (DiskCache E) (Except CacheError (Option (Option ℕ))) :=
  if pinBody then do
    match ← openFile (.body h) with
    | .ok i => return .ok (some (some i))
    | .error .notFound => return .ok none
    | .error _ => return failed "open body"
  else do
    match ← tryExists (.body h) with
    | .ok true => return .ok (some none)
    | .ok false => return .ok none
    | .error _ => return failed "check body exists"

/-- Probe an entry under its metadata lock. -/
def lookupLocked (key : CacheKey) (pinBody : Bool) :
    Async (DiskCache E) (Except CacheError (Option CacheEntry)) := do
  match ← checkPoisoned key.hash "recheck poison marker" with
  | .error e => return .error e
  | .ok true => return .ok none
  | .ok false =>
  match ← readFile (.metaJson key.hash) with
  | .error .notFound =>
      cleanOrphanedBody key.hash
      return .ok none
  | .error _ => return failed "read metadata"
  | .ok file =>
  match file.parse with
  | none =>
      let _ ← fileMetadata (.body key.hash)
      let _ ← cleanFile (.metaJson key.hash)
      let _ ← cleanFile (.body key.hash)
      return .ok none
  | some (_, info) =>
  if info.bucket ≠ key.bucket ∨ info.key ≠ key.objectKey then
    return .ok none
  else
  match ← probeBody key.hash pinBody with
  | .error e => return .error e
  | .ok none =>
      let _ ← cleanFile (.metaJson key.hash)
      return .ok none
  | .ok (some bodyFile) => return .ok (some ⟨info, bodyFile⟩)

/-- Probe an entry, pinning its body when asked to. A hit is noted by a task of its own,
which rewrites the access time. -/
def lookupInner (key : CacheKey) (pinBody : Bool) :
    Async (DiskCache E) (Except CacheError (Option CacheEntry)) := do
  match ← checkPoisoned key.hash "check poison marker" with
  | .error e => return .error e
  | .ok true => return .ok none
  | .ok false => withMetaLock key.hash (lookupLocked key pinBody)

end DiskCache

end TinyS3Proxy
