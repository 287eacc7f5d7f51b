import TinyS3Proxy.Cache.State
import TinyS3Proxy.Effect.Outcome
import TinyS3Proxy.Keyed.Listing
import TinyS3Proxy.Text.Bytes

/-!
# The shard directories

The files of the cache as an eviction pass sees them when nothing else runs: each has a name in
one of the directories `objects/XX/YY`, a size, and contents that are parsed as metadata or are
not. Every call of the file system may fail, and then has no effect; which calls fail is left
open. A pass also has the statistics of the cache and the locks for the metadata of entries.
-/

namespace TinyS3Proxy.Shards

open Text (Bytes ascii)
open Effect

/-- A directory of files. -/
structure ShardDir where
  d1 : Bytes
  d2 : Bytes
deriving DecidableEq

/-- The name of a file in its directory. -/
structure ShardPath where
  dir : ShardDir
  name : Bytes
deriving DecidableEq

/-- A file: its size, and what its contents are parsed as. -/
structure StoredFile where
  size : ℕ
  parsed : Option CacheMeta

/-- The statistics of the cache. -/
structure CacheStats where
  totalBytes : ℕ
  entryCount : ℕ
  evictionCount : ℕ
deriving DecidableEq

/-- The files, each in one of the directories, the statistics and the locks. The calls of the file
system are counted, and `faulty` says which of them fail. -/
structure Store where
  files : Keyed.Listing ShardPath StoredFile
  dirs : Option (List ShardDir)
  nodup_dirs : (dirs.getD []).Nodup
  dir_mem : ∀ p ∈ files.keys, p.dir ∈ dirs.getD []
  stats : CacheStats
  metaLocks : List Bytes
  calls : ℕ
  faulty : ℕ → Bool

/-- The store after a call. -/
def Store.next (s : Store) : Store := { s with calls := s.calls + 1 }

/-- The store without a file. -/
def Store.erase (s : Store) (p : ShardPath) : Store :=
  { s with
    files := s.files.erase p
    dir_mem := fun q hq => s.dir_mem q (s.files.keys_erase_subset p hq) }

/-- The number of bytes of a file counts. -/
def fileSize (_ : ShardPath) (file : StoredFile) : ℕ := file.size

/-- The number of bytes of all files. -/
def Store.bytes (s : Store) : ℕ := s.files.total fileSize

/-- The number of bytes of a file, if it is there. -/
def Store.sizeAt (s : Store) (p : ShardPath) : ℕ := s.files.weightAt fileSize p

/-! ### Calls -/

section Calls

variable {ε α : Type}

/-- A call of the file system. -/
def call (f : Store → Except IoError α × Store) : Fallible Store ε (Except IoError α) :=
  modifyGet fun s => if s.faulty s.calls then (.error .other, s.next) else f s.next

/-- A call that changes nothing. -/
def asks (f : Store → Except IoError α) : Fallible Store ε (Except IoError α) :=
  call fun s => (f s, s)

/-- The size of a file. -/
def metadata (p : ShardPath) : Fallible Store ε (Except IoError ℕ) :=
  asks fun s =>
    match s.files.get p with
    | some file => .ok file.size
    | none => .error .notFound

/-- Whether a file is there. -/
def tryExists (p : ShardPath) : Fallible Store ε (Except IoError Bool) :=
  asks fun s => .ok (s.files.get p).isSome

/-- The contents of a file. -/
def read (p : ShardPath) : Fallible Store ε (Except IoError StoredFile) :=
  asks fun s =>
    match s.files.get p with
    | some file => .ok file
    | none => .error .notFound

/-- Remove a file. -/
def removeFile (p : ShardPath) : Fallible Store ε (Except IoError Unit) :=
  call fun s =>
    match s.files.get p with
    | some _ => (.ok (), s.erase p)
    | none => (.error .notFound, s)

/-- The names of the files of a directory. -/
def readDir (dir : ShardDir) : Fallible Store ε (Except IoError (List Bytes)) :=
  asks fun s =>
    if dir ∈ s.dirs.getD [] then
      .ok ((s.files.keys.filter fun p => p.dir = dir).map ShardPath.name)
    else .error .notFound

/-- Go on to the next file of a directory. -/
def nextEntry : Fallible Store ε (Except IoError Unit) := asks fun _ => .ok ()

/-- Whether there is a directory of directories. -/
def objectsDirExists : Fallible Store ε (Except IoError Bool) := asks fun s => .ok s.dirs.isSome

/-- The directories of files, in the order in which their scans will be completed. The walk that
finds them counts as one call. -/
def collectHashDirsStrict : Fallible Store ε (Except IoError (List ShardDir)) :=
  asks fun s => .ok (s.dirs.getD [])

/-- Get the lock for the metadata of an entry. It is not held by anything else. -/
def acquireMetaLock (hash : Bytes) : Fallible Store ε Unit :=
  modify fun s =>
    if hash ∈ s.metaLocks then s else { s with metaLocks := s.metaLocks ++ [hash] }

/-- Change the statistics. -/
def updateStats (f : CacheStats → CacheStats) : Fallible Store ε Unit :=
  modify fun s => { s with stats := f s.stats }

/-! ### What calls do -/

variable {s : Store} {p : ShardPath} {F : ε → Store → Prop}

/-- A call fails without an effect, or does what it is for. -/
theorem leads_call
    {f : Store → Except IoError α × Store} {Q : Except IoError α → Store → Prop}
    (hfault : s.faulty s.calls = true → Q (.error .other) s.next)
    (hdone : Q (f s.next).1 (f s.next).2) :
  Leads (call f) s Q F
  := by
  apply leads_modifyGet
  rcases hf : s.faulty s.calls with _ | _
  · exact hdone
  · exact hfault hf

theorem leads_asks
    {f : Store → Except IoError α} {Q : Except IoError α → Store → Prop}
    (hfault : s.faulty s.calls = true → Q (.error .other) s.next) (hdone : Q (f s.next) s.next) :
  Leads (asks f) s Q F
  := leads_call hfault hdone

theorem leads_metadata
    {Q : Except IoError ℕ → Store → Prop}
    (hfault : s.faulty s.calls = true → Q (.error .other) s.next)
    (hfound : ∀ file, s.files.get p = some file → Q (.ok file.size) s.next)
    (hnone : s.files.get p = none → Q (.error .notFound) s.next) :
  Leads (metadata p) s Q F
  := by
  apply leads_asks hfault
  change Q (match s.files.get p with | some file => .ok file.size | none => .error .notFound) s.next
  rcases hget : s.files.get p with _ | file
  · exact hnone hget
  · exact hfound file hget

theorem leads_tryExists
    {Q : Except IoError Bool → Store → Prop}
    (hfault : s.faulty s.calls = true → Q (.error .other) s.next)
    (hfound : ∀ file, s.files.get p = some file → Q (.ok true) s.next)
    (hnone : s.files.get p = none → Q (.ok false) s.next) :
  Leads (tryExists p) s Q F
  := by
  apply leads_asks hfault
  change Q (.ok (s.files.get p).isSome) s.next
  rcases hget : s.files.get p with _ | file
  · exact hnone hget
  · exact hfound file hget

theorem leads_read
    {Q : Except IoError StoredFile → Store → Prop}
    (hfault : s.faulty s.calls = true → Q (.error .other) s.next)
    (hfound : ∀ file, s.files.get p = some file → Q (.ok file) s.next)
    (hnone : s.files.get p = none → Q (.error .notFound) s.next) :
  Leads (read p) s Q F
  := by
  apply leads_asks hfault
  change Q (match s.files.get p with | some file => .ok file | none => .error .notFound) s.next
  rcases hget : s.files.get p with _ | file
  · exact hnone hget
  · exact hfound file hget

theorem leads_removeFile
    {Q : Except IoError Unit → Store → Prop}
    (hfault : s.faulty s.calls = true → Q (.error .other) s.next)
    (hfound : ∀ file, s.files.get p = some file → Q (.ok ()) (s.next.erase p))
    (hnone : s.files.get p = none → Q (.error .notFound) s.next) :
  Leads (removeFile p) s Q F
  := by
  apply leads_call hfault
  rcases hget : s.files.get p with _ | file
  · have hget' : s.next.files.get p = none := hget
    simp only [hget']
    exact hnone hget
  · have hget' : s.next.files.get p = some file := hget
    simp only [hget']
    exact hfound file hget

end Calls

end TinyS3Proxy.Shards
