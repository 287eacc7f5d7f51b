import TinyS3Proxy.Cache.Disk

/-!
# Eviction

An eviction pass first scans the cache without any locks. The scan only reads; what it
finds are candidates for eviction and leftovers to clean up, and everything is checked
again under the metadata lock of the entry before a file is removed. So a pass is
modelled from the end of its scan on, for any outcome of the scan.

The byte counts of the pass are left out: they decide how many of the candidates are
tried, and a pass is modelled for any list of candidates.
-/

namespace TinyS3Proxy

open Coop

/-- An entry that the scan found, as a candidate for eviction. -/
structure EvictionCandidate where
  hash : String
  fillId : FillId
  lastAccessedAt : Time

/-- What the scan found to be cleaned up under the lock of the entry. -/
inductive DeferredCleanup
  | orphanBody (hash : String)
  | orphanPoison (hash : String)
  | corruptEntry (hash : String)
  | malformedHash (hash : String)
  | missingBody (hash : String)

/-- What a second look at an entry under its lock has found. -/
inductive RecoverOutcome
  | recovered
  | missingBody
  | bodyStatError
  | metaReadError
  | metaParseError

namespace DiskCache

variable {E : Type}

/-- A file is gone when it has been removed or was not there. -/
def isGone : Except IoError Unit → Bool
  | .ok () => true
  | .error .notFound => true
  | .error _ => false

/-- Remove a file for a pass. The pass is given up when it cannot be found out whether
the file still takes space. -/
def removeFileOrReclaimSize (p : Path) : Async (DiskCache E) (Except CacheError Unit) := do
  let before ← fileMetadata p
  let removal ← removeFile p
  if isGone removal then
    return .ok ()
  else
  match ← fileMetadata p with
  | .ok () => return .ok ()
  | .error .notFound => return .ok ()
  | .error _ =>
      match before with
      | .ok () => return .ok ()
      | .error .notFound => return .ok ()
      | .error _ => return failed "stat after failed remove during eviction cleanup"

/-- Remove files for a pass, in order. -/
def removeFilesOrReclaimSize (ps : List Path) :
    Async (DiskCache E) (Except CacheError Unit) :=
  match ps with
  | [] => return .ok ()
  | p :: ps => do
      match ← removeFileOrReclaimSize p with
      | .error e => return .error e
      | .ok () => removeFilesOrReclaimSize ps

/-- Remove all files of an entry. -/
def removeEntryFiles (h : String) : Async (DiskCache E) (Except CacheError Unit) :=
  removeFilesOrReclaimSize [.metaJson h, .body h, .poisoned h]

/-- Look at an entry again. -/
def tryRecoverEntry (h : String) : Async (DiskCache E) RecoverOutcome := do
  match ← fileMetadata (.body h) with
  | .error .notFound => return .missingBody
  | .error _ => return .bodyStatError
  | .ok () =>
  match ← readFile (.metaJson h) with
  | .error _ => return .metaReadError
  | .ok file =>
  match file.parse with
  | none => return .metaParseError
  | some _ => return .recovered

/-- Remove the body of an entry that has no metadata. -/
def cleanupOrphanBody (h : String) : Async (DiskCache E) (Except CacheError Unit) := do
  match ← tryExists (.metaJson h) with
  | .ok true => return .ok ()
  | .ok false => removeFileOrReclaimSize (.body h)
  | .error _ =>
      match ← fileMetadata (.body h) with
      | .ok () => return .ok ()
      | .error .notFound => return .ok ()
      | .error _ => return failed "stat orphan body during locked eviction cleanup"

/-- Remove the poison marker of an entry that has no metadata. -/
def cleanupOrphanPoison (h : String) : Async (DiskCache E) (Except CacheError Unit) := do
  match ← tryExists (.metaJson h) with
  | .ok true => return .ok ()
  | .ok false => removeFileOrReclaimSize (.poisoned h)
  | .error _ => return .ok ()

/-- Remove what is left of an entry that has no body or whose metadata is corrupt. -/
def cleanupBrokenEntry (h : String) (statError readError : String) :
    Async (DiskCache E) (Except CacheError Unit) := do
  match ← tryRecoverEntry h with
  | .recovered => return .ok ()
  | .missingBody => removeFilesOrReclaimSize [.metaJson h, .poisoned h]
  | .bodyStatError => return failed statError
  | .metaReadError => return failed readError
  | .metaParseError => removeEntryFiles h

/-- Carry out one cleanup under the lock of the entry. -/
def processDeferredCleanup : DeferredCleanup → Async (DiskCache E) (Except CacheError Unit)
  | .orphanBody h => withMetaLock h (cleanupOrphanBody h)
  | .orphanPoison h => withMetaLock h (cleanupOrphanPoison h)
  | .corruptEntry h => withMetaLock h <|
      cleanupBrokenEntry h "stat body during locked eviction cleanup"
        "read metadata during locked eviction cleanup"
  | .malformedHash h => withMetaLock h (removeEntryFiles h)
  | .missingBody h => withMetaLock h <|
      cleanupBrokenEntry h "stat body during locked missing-body cleanup"
        "read metadata during locked missing-body cleanup"

/-- Carry out the cleanups, up to the first that fails. -/
def processDeferredCleanups (cleanups : List DeferredCleanup) :
    Async (DiskCache E) (Except CacheError Unit) :=
  match cleanups with
  | [] => return .ok ()
  | c :: cs => do
      match ← processDeferredCleanup c with
      | .error e => return .error e
      | .ok () => processDeferredCleanups cs

/-- Remove the files of an entry that is to be evicted, the body first, and its poison
marker once one of the two is gone. -/
def evictEntry (h : String) : Async (DiskCache E) Unit := do
  let bodyGone := isGone (← removeFile (.body h))
  let metaGone := isGone (← removeFile (.metaJson h))
  Async.when (bodyGone || metaGone) (discard [.poisoned h])
  Async.when (!bodyGone) do
    let _ ← fileMetadata (.body h)
  Async.when (!metaGone) do
    let _ ← fileMetadata (.metaJson h)

/-- Try to evict a candidate under the lock of its entry. An entry that has changed
since the scan is left alone, and so is one whose metadata cannot be read. -/
def tryEvictCandidate (c : EvictionCandidate) : Async (DiskCache E) Unit :=
  withMetaLock c.hash do
    match ← readFile (.metaJson c.hash) with
    | .error .notFound => evictEntry c.hash
    | .error _ => return
    | .ok file =>
    match file.parse with
    | none => evictEntry c.hash
    | some (_, info) =>
    if info.fillId ≠ c.fillId ∨ info.lastAccessedAt ≠ c.lastAccessedAt then
      let _ ← fileMetadata (.body c.hash)
      let _ ← fileMetadata (.metaJson c.hash)
    else
      evictEntry c.hash

/-- An eviction pass, from the end of its scan on. -/
def runEvictionPass (cleanups : List DeferredCleanup) (candidates : List EvictionCandidate) :
    Async (DiskCache E) (Except CacheError Unit) := do
  match ← processDeferredCleanups cleanups with
  | .error e => return .error e
  | .ok () =>
      Async.forEach candidates tryEvictCandidate
      return .ok ()

end DiskCache

end TinyS3Proxy
