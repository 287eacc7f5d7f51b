import TinyS3Proxy.Cache.Shards
import TinyS3Proxy.Text.Fields

/-!
# Eviction passes

An eviction pass scans the files of the cache, cleans up what is left of broken entries, sets the
statistics to what it has found, and evicts the entries that have not been used for the longest
time until the cache is small enough (`cache/eviction.rs`). After each pass the locks of entries
that are gone are dropped (`sweep_stale_meta_locks` of `cache/disk.rs`).

The scans of the directories run at the same time and only read, so they are taken one after the
other here, in the order in which they are completed. Nothing else runs during a pass.
-/

namespace TinyS3Proxy.Shards

open Text (Bytes ascii)
open Effect

/-! ### Records of a pass -/

/-- An entry that may be evicted. -/
structure EvictionCandidate where
  bodyPath : ShardPath
  metaPath : ShardPath
  hash : Bytes
  fillId : FillId
  lastAccessedAt : Time
  size : ℕ
deriving DecidableEq

/-- The files that an entry consists of. -/
structure EntryPaths where
  metaPath : ShardPath
  bodyPath : ShardPath
  poisonPath : ShardPath
  hash : Bytes
deriving DecidableEq

/-- What is to be cleaned up under the lock of an entry. -/
inductive DeferredCleanup
  | orphanBody (bodyPath : ShardPath) (hash : Bytes)
  | orphanPoison (poisonPath : ShardPath) (hash : Bytes)
  | corruptEntry (paths : EntryPaths)
  | malformedHash (paths : EntryPaths)
  | missingBody (paths : EntryPaths)
deriving DecidableEq

/-- What the scan of a directory finds. -/
structure DirScanResult where
  candidates : List EvictionCandidate
  totalBytes : ℕ
  entryCount : ℕ
  deferredCleanups : List DeferredCleanup
deriving DecidableEq

/-- The part of a pass that failed. -/
inductive ScanFailureReason
  | hashDirWalk
  | hashDirScan
  | deferredCleanup
deriving DecidableEq

/-- Why a pass was given up. -/
structure EvictionScanError where
  reason : ScanFailureReason
  operation : String
deriving DecidableEq

/-- The scan of a directory failed. -/
def hashDirScan (operation : String) : EvictionScanError := ⟨.hashDirScan, operation⟩

/-- A cleanup failed. -/
def deferredCleanup (operation : String) : EvictionScanError := ⟨.deferredCleanup, operation⟩

/-! ### Names of files -/

def bodySuffix : Bytes := ascii ".body"

def metaSuffix : Bytes := ascii ".meta.json"

def poisonSuffix : Bytes := ascii ".poisoned"

/-- The files of the entry of a hash, for a metadata file of the given name. -/
def entryPaths (dir : ShardDir) (fileName hash : Bytes) : EntryPaths :=
  { metaPath := ⟨dir, fileName⟩
    bodyPath := ⟨dir, hash ++ bodySuffix⟩
    poisonPath := ⟨dir, hash ++ poisonSuffix⟩
    hash }

/-- The name with another extension. -/
def withExtension (extension name : Bytes) : Bytes :=
  match Text.splitOnce 46 name.reverse with
  | some (_, stem) => if stem ≠ [] then stem.reverse ++ 46 :: extension else name ++ 46 :: extension
  | none => name ++ 46 :: extension

/-! ### Scanning -/

/-- A directory in which nothing has been found. -/
def DirScanResult.init : DirScanResult := ⟨[], 0, 0, []⟩

/-- Something more is to be cleaned up. -/
def DirScanResult.defer (result : DirScanResult) (cleanup : DeferredCleanup) : DirScanResult :=
  { result with deferredCleanups := result.deferredCleanups ++ [cleanup] }

/-- One more complete entry has been found. -/
def DirScanResult.count (result : DirScanResult) (candidate : EvictionCandidate) :
    DirScanResult :=
  { result with
    candidates := result.candidates ++ [candidate]
    totalBytes := result.totalBytes + candidate.size
    entryCount := result.entryCount + 1 }

/-- A file that is to be removed unless the metadata of its entry is there. -/
def scanOrphan (dir : ShardDir) (result : DirScanResult) (hash : Bytes)
    (cleanup : DeferredCleanup) : Fallible Store EvictionScanError DirScanResult := do
  match ← tryExists ⟨dir, hash ++ metaSuffix⟩ with
  | .ok false => return result.defer cleanup
  | .ok true => return result
  | .error .notFound => return result
  | .error _ => throw (hashDirScan "probe orphan metadata")

/-- A complete entry, unless its name is malformed or its body is missing. -/
def scanEntry (dir : ShardDir) (result : DirScanResult) (fileName hash : Bytes) (metaBytes : ℕ)
    (info : CacheMeta) : Fallible Store EvictionScanError DirScanResult := do
  let paths := entryPaths dir fileName hash
  if hash.length < 5 || !hash.all Text.isHexDigit then return result.defer (.malformedHash paths)
  else
  match ← metadata paths.bodyPath with
  | .error .notFound => return result.defer (.missingBody paths)
  | .error _ => throw (hashDirScan "stat body during eviction scan")
  | .ok bodySize =>
      return result.count
        { bodyPath := paths.bodyPath
          metaPath := paths.metaPath
          hash
          fillId := info.fillId
          lastAccessedAt := info.lastAccessedAt
          size := bodySize + metaBytes }

/-- What the scan of a directory finds at a file. -/
def scanFile (dir : ShardDir) (result : DirScanResult) (fileName : Bytes) :
    Fallible Store EvictionScanError DirScanResult := do
  if !Text.validUtf8 fileName then
    throw (hashDirScan "non-UTF-8 filename inside cache hash shard")
  else if !Text.endsWith metaSuffix fileName then
    if Text.endsWith bodySuffix fileName then
      let hash := Text.trimEndMatches bodySuffix fileName
      scanOrphan dir result hash (.orphanBody ⟨dir, fileName⟩ hash)
    else if Text.endsWith poisonSuffix fileName then
      let hash := Text.trimEndMatches poisonSuffix fileName
      scanOrphan dir result hash (.orphanPoison ⟨dir, fileName⟩ hash)
    else return result
  else
    let hash := Text.trimEndMatches metaSuffix fileName
    match ← read ⟨dir, fileName⟩ with
    | .error .notFound => return result
    | .error _ => throw (hashDirScan "read metadata during eviction scan")
    | .ok file =>
    match file.parsed with
    | none => return result.defer (.corruptEntry (entryPaths dir fileName hash))
    | some info => scanEntry dir result fileName hash file.size info

/-- Scan the files of a directory, one after the other. -/
def scanFiles (dir : ShardDir) (result : DirScanResult) :
    List Bytes → Fallible Store EvictionScanError DirScanResult
  | [] => do
      match ← nextEntry with
      | .ok () => return result
      | .error _ => throw (hashDirScan "iterate hash shard dir")
  | fileName :: fileNames => do
      match ← nextEntry with
      | .error _ => throw (hashDirScan "iterate hash shard dir")
      | .ok () =>
          let result ← scanFile dir result fileName
          scanFiles dir result fileNames

/-- Scan a directory. -/
def scanHashDirForEviction (dir : ShardDir) :
    Fallible Store EvictionScanError DirScanResult := do
  match ← readDir dir with
  | .error .notFound => return .init
  | .error _ => throw (hashDirScan "read hash shard dir")
  | .ok fileNames => scanFiles dir .init fileNames

/-- Scan directories, with the results in the order in which they come. -/
def boundedParallelScan : List ShardDir → Fallible Store EvictionScanError (List DirScanResult)
  | [] => return []
  | dir :: dirs => do
      let result ← scanHashDirForEviction dir
      let results ← boundedParallelScan dirs
      return result :: results

/-! ### Removing files -/

/-- The size of a file before it is removed, if that can be found out. -/
def preStatSize {ε : Type} (p : ShardPath) : Fallible Store ε (Option ℕ) := do
  match ← metadata p with
  | .ok size => return some size
  | .error .notFound => return some 0
  | .error _ => return none

/-- The number of bytes that a file that could not be removed still takes. -/
def measureUnreclaimedAfterFailedRemove (p : ShardPath) (preKnown : Option ℕ) :
    Fallible Store EvictionScanError ℕ := do
  match ← metadata p with
  | .ok size => return size
  | .error .notFound => return 0
  | .error _ =>
      match preKnown with
      | some pre => return pre
      | none => throw (deferredCleanup "stat after failed remove during eviction cleanup")

/-- Remove a file, or find out how many bytes it still takes. -/
def removeFileOrReclaimSize (p : ShardPath) : Fallible Store EvictionScanError ℕ := do
  let preSize ← preStatSize p
  match ← removeFile p with
  | .ok () => return 0
  | .error .notFound => return 0
  | .error _ => measureUnreclaimedAfterFailedRemove p preSize

/-- Remove all files of an entry, or find out how many bytes they still take. -/
def removeEntryFiles (paths : EntryPaths) : Fallible Store EvictionScanError ℕ := do
  let metaUnreclaimed ← removeFileOrReclaimSize paths.metaPath
  let bodyUnreclaimed ← removeFileOrReclaimSize paths.bodyPath
  let poisonUnreclaimed ← removeFileOrReclaimSize paths.poisonPath
  return metaUnreclaimed + bodyUnreclaimed + poisonUnreclaimed

/-! ### Cleaning up -/

/-- What a second look at an entry finds. -/
inductive RecoverOutcome
  | recovered (size : ℕ) (candidate : EvictionCandidate)
  | missingBody
  | bodyStatError
  | metaReadError
  | metaParseError
deriving DecidableEq

/-- Look at an entry again. -/
def tryRecoverEntry {ε : Type} (paths : EntryPaths) : Fallible Store ε RecoverOutcome := do
  match ← metadata paths.bodyPath with
  | .error .notFound => return .missingBody
  | .error _ => return .bodyStatError
  | .ok bodySize =>
  match ← read paths.metaPath with
  | .error _ => return .metaReadError
  | .ok file =>
  match file.parsed with
  | none => return .metaParseError
  | some info =>
      let size := bodySize + file.size
      return .recovered size
        { bodyPath := paths.bodyPath
          metaPath := paths.metaPath
          hash := paths.hash
          fillId := info.fillId
          lastAccessedAt := info.lastAccessedAt
          size }

/-- What a pass has found, with the cleanups that have been made. -/
structure Tally where
  candidates : List EvictionCandidate
  scanTotalBytes : ℕ
  scanEntryCount : ℕ
  deferredCleanupFailed : ℕ
deriving DecidableEq

/-- The bytes of files that could not be removed count, and the cleanup counts as failed if there
are any. -/
def Tally.accountUnreclaimed (tally : Tally) (unreclaimed : ℕ) : Tally :=
  { tally with
    scanTotalBytes := tally.scanTotalBytes + unreclaimed
    deferredCleanupFailed := tally.deferredCleanupFailed + if 0 < unreclaimed then 1 else 0 }

/-- Clean up a file without metadata. `recheckFailed` says what is done if it cannot be found out
that the metadata is still not there. -/
def cleanUpOrphan (tally : Tally) (path : ShardPath) (hash : Bytes)
    (recheckFailed : Fallible Store EvictionScanError Tally) :
    Fallible Store EvictionScanError Tally := do
  acquireMetaLock hash
  match ← tryExists ⟨path.dir, hash ++ metaSuffix⟩ with
  | .ok false =>
      let unreclaimed ← removeFileOrReclaimSize path
      return tally.accountUnreclaimed unreclaimed
  | .ok true => return tally
  | .error _ => recheckFailed

/-- Clean up an entry that is corrupt or has no body, unless it has become complete. -/
def cleanUpBroken (tally : Tally) (paths : EntryPaths) (statError readError : String) :
    Fallible Store EvictionScanError Tally := do
  acquireMetaLock paths.hash
  match ← tryRecoverEntry paths with
  | .recovered size candidate =>
      return { tally with
        candidates := tally.candidates ++ [candidate]
        scanTotalBytes := tally.scanTotalBytes + size
        scanEntryCount := tally.scanEntryCount + 1 }
  | .missingBody =>
      let metaUnreclaimed ← removeFileOrReclaimSize paths.metaPath
      let poisonUnreclaimed ← removeFileOrReclaimSize paths.poisonPath
      return tally.accountUnreclaimed (metaUnreclaimed + poisonUnreclaimed)
  | .bodyStatError => throw (deferredCleanup statError)
  | .metaReadError => throw (deferredCleanup readError)
  | .metaParseError =>
      let unreclaimed ← removeEntryFiles paths
      return tally.accountUnreclaimed unreclaimed

/-- Make a cleanup under the lock of the entry. -/
def processDeferredCleanup (tally : Tally) :
    DeferredCleanup → Fallible Store EvictionScanError Tally
  | .orphanBody bodyPath hash =>
      cleanUpOrphan tally bodyPath hash do
        match ← metadata bodyPath with
        | .ok size =>
            return { tally with
              scanTotalBytes := tally.scanTotalBytes + size
              deferredCleanupFailed := tally.deferredCleanupFailed + 1 }
        | .error .notFound => return tally
        | .error _ => throw (deferredCleanup "stat orphan body during locked eviction cleanup")
  | .orphanPoison poisonPath hash =>
      cleanUpOrphan tally poisonPath hash do
        return { tally with deferredCleanupFailed := tally.deferredCleanupFailed + 1 }
  | .corruptEntry paths =>
      cleanUpBroken tally paths "stat body during locked eviction cleanup"
        "read metadata during locked eviction cleanup"
  | .malformedHash paths => do
      acquireMetaLock paths.hash
      let unreclaimed ← removeEntryFiles paths
      return tally.accountUnreclaimed unreclaimed
  | .missingBody paths =>
      cleanUpBroken tally paths "stat body during locked missing-body cleanup"
        "read metadata during locked missing-body cleanup"

/-- Make the cleanups, one after the other. -/
def processDeferredCleanups (tally : Tally) :
    List DeferredCleanup → Fallible Store EvictionScanError Tally
  | [] => return tally
  | cleanup :: cleanups => do
      let tally ← processDeferredCleanup tally cleanup
      processDeferredCleanups tally cleanups

/-- What a scan of the whole cache finds. -/
structure ScanResult where
  candidates : List EvictionCandidate
  totalBytes : ℕ
  hashDirs : ℕ
  deferredCleanupCount : ℕ
  deferredCleanupFailed : ℕ
deriving DecidableEq

/-- Nothing has been found. -/
def ScanResult.nothing : ScanResult := ⟨[], 0, 0, 0, 0⟩

/-- The results of the scans of directories, taken together. -/
def aggregate (results : List DirScanResult) : Tally × List DeferredCleanup :=
  results.foldl (fun (tally, cleanups) result =>
    ({ tally with
        candidates := tally.candidates ++ result.candidates
        scanTotalBytes := tally.scanTotalBytes + result.totalBytes
        scanEntryCount := tally.scanEntryCount + result.entryCount },
      cleanups ++ result.deferredCleanups)) (⟨[], 0, 0, 0⟩, [])

/-- Scan the cache, clean up, and set the statistics to what has been found. -/
def collectCandidates : Fallible Store EvictionScanError ScanResult := do
  match ← collectHashDirsStrict with
  | .error _ => throw ⟨.hashDirWalk, "walk hash dirs"⟩
  | .ok hashDirs =>
  if hashDirs = [] then
    updateStats fun stats => { stats with totalBytes := 0, entryCount := 0 }
    return .nothing
  else
    let dirResults ← boundedParallelScan hashDirs
    let (found, allCleanups) := aggregate dirResults
    let tally ← processDeferredCleanups found allCleanups
    updateStats fun stats =>
      { stats with totalBytes := tally.scanTotalBytes, entryCount := tally.scanEntryCount }
    return {
      candidates := tally.candidates
      totalBytes := tally.scanTotalBytes
      hashDirs := hashDirs.length
      deferredCleanupCount := allCleanups.length
      deferredCleanupFailed := tally.deferredCleanupFailed }

/-! ### Evicting -/

/-- The result says that the file is gone. -/
def isGone : Except IoError Unit → Bool
  | .ok () => true
  | .error .notFound => true
  | .error _ => false

/-- The size of a file, if that can be found out. -/
def knownSize {ε : Type} (p : ShardPath) : Fallible Store ε (Option ℕ) := do
  match ← metadata p with
  | .ok size => return some size
  | .error .notFound => return some 0
  | .error _ => return none

/-- The number of bytes that a file still takes after it was to be removed. -/
def remainingBytesAfterFailedRemove {ε : Type} (gone : Bool) (p : ShardPath) :
    Fallible Store ε (Option ℕ) :=
  if gone then return some 0 else knownSize p

/-- How far an eviction has got: the size of the cache, and the number of entries evicted. -/
structure Progress where
  currentSize : ℕ
  evicted : ℕ
deriving DecidableEq

/-- The size of the cache once the files of a candidate take as many bytes as measured. -/
def Progress.remeasure (progress : Progress) (candidate : EvictionCandidate) :
    Option ℕ → Option ℕ → Progress
  | some b, some m =>
      { progress with currentSize := progress.currentSize - candidate.size + (b + m) }
  | _, _ => progress

/-- Remove the files of a candidate. -/
def removeCandidate {ε : Type} (candidate : EvictionCandidate) (progress : Progress) :
    Fallible Store ε Progress := do
  let bodyRes ← removeFile candidate.bodyPath
  let metaRes ← removeFile candidate.metaPath
  let bodyGone := isGone bodyRes
  let metaGone := isGone metaRes
  if bodyGone || metaGone then
    let bodyPath := candidate.bodyPath
    let _ ← removeFile { bodyPath with name := withExtension (ascii "poisoned") bodyPath.name }
  if bodyGone && metaGone then
    updateStats fun stats =>
      { stats with
        entryCount := stats.entryCount - 1
        totalBytes := stats.totalBytes - candidate.size }
    return { currentSize := progress.currentSize - candidate.size, evicted := progress.evicted + 1 }
  else
    let bodyRemaining ← remainingBytesAfterFailedRemove bodyGone candidate.bodyPath
    let metaRemaining ← remainingBytesAfterFailedRemove metaGone candidate.metaPath
    return progress.remeasure candidate bodyRemaining metaRemaining

/-- Evict a candidate, unless it has changed or it cannot be found out whether it has. -/
def tryEvictCandidate {ε : Type} (candidate : EvictionCandidate) (progress : Progress) :
    Fallible Store ε Progress := do
  acquireMetaLock candidate.hash
  match ← read candidate.metaPath with
  | .error .notFound => removeCandidate candidate progress
  | .error _ => return progress
  | .ok file =>
  match file.parsed with
  | none => removeCandidate candidate progress
  | some info =>
      if info.fillId ≠ candidate.fillId ∨ info.lastAccessedAt ≠ candidate.lastAccessedAt then
        let bodySize ← knownSize candidate.bodyPath
        let metaSize ← knownSize candidate.metaPath
        return progress.remeasure candidate bodySize metaSize
      else removeCandidate candidate progress

/-- Evict candidates, one after the other, until the cache is small enough. -/
def evictUntilUnder {ε : Type} (maxBytes : ℕ) (progress : Progress) :
    List EvictionCandidate → Fallible Store ε Progress
  | [] => return progress
  | candidate :: candidates =>
      if progress.currentSize ≤ maxBytes then return progress
      else do
        let progress ← tryEvictCandidate candidate progress
        evictUntilUnder maxBytes progress candidates

/-- The candidates in the order in which they are evicted. -/
def evictionOrder (candidates : List EvictionCandidate) : List EvictionCandidate :=
  Text.sortBy EvictionCandidate.lastAccessedAt candidates

/-- Evict what the cache is too large by. -/
def evictOverBudget {ε : Type} (maxBytes : ℕ) (scan : ScanResult) :
    Fallible Store ε Progress := do
  let progress : Progress := ⟨scan.totalBytes, 0⟩
  if maxBytes < scan.totalBytes then
    let progress ← evictUntilUnder maxBytes progress (evictionOrder scan.candidates)
    updateStats fun stats => { stats with evictionCount := stats.evictionCount + progress.evicted }
    return progress
  else return progress

/-- Scan the cache, unless it cannot be found out whether there is one. -/
def scanForEviction : Fallible Store EvictionScanError (Option ScanResult) := do
  match ← objectsDirExists with
  | .ok true => return some (← collectCandidates)
  | .ok false =>
      updateStats fun stats => { stats with totalBytes := 0, entryCount := 0 }
      return some .nothing
  | .error _ => return none

/-- An eviction pass. -/
def runEvictionPassInner (maxBytes : ℕ) : Fallible Store EvictionScanError Unit := do
  match ← scanForEviction with
  | none => return ()
  | some scan =>
      let _ ← evictOverBudget maxBytes scan
      return ()

/-! ### The loop -/

/-- A string is cut within a character. -/
inductive Panic
  | charBoundary
deriving DecidableEq

/-- Whether the lock of a hash can be dropped. -/
def isStale (hash : Bytes) : Fallible Store Panic Bool := do
  if hash.length < 5 then return true
  else
    let d1 ← demand (Text.slice hash 0 2) .charBoundary
    let d2 ← demand (Text.slice hash 2 4) .charBoundary
    match ← tryExists ⟨⟨d1, d2⟩, hash ++ metaSuffix⟩ with
    | .ok found => return !found
    | .error _ => return false

/-- The hashes whose locks can be dropped. -/
def staleLocks : List Bytes → Fallible Store Panic (List Bytes)
  | [] => return []
  | hash :: hashes => do
      let stale ← isStale hash
      let rest ← staleLocks hashes
      return if stale then hash :: rest else rest

/-- Drop the locks of entries that are gone. None of the locks is held. -/
def sweepStaleMetaLocks : Fallible Store Panic Unit := do
  let stale ← staleLocks (← reads Store.metaLocks)
  modify fun s => { s with metaLocks := s.metaLocks.filter (· ∉ stale) }

/-- One round of the eviction loop: a pass, whose failure is only logged, and a sweep. -/
def evictionRound (maxBytes : ℕ) : Fallible Store Panic Unit := do
  modify fun s => (exec (runEvictionPassInner maxBytes) s).2
  sweepStaleMetaLocks

end TinyS3Proxy.Shards
