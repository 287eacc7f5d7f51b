import TinyS3Proxy.Coop.Async
import TinyS3Proxy.Cache.Metadata

/-!
# The state of the disk cache

The state has three parts.

* The disk: names of files, linked to inodes, and the contents of the inodes. An inode
  keeps its contents for good, so a handle opened on a file reads the same bytes after
  the name has been given to another file or has been removed.
* The memory of the process: the fills in progress, the locks, the poisoned hashes and
  the next fill id.
* A record of the past that the code never reads: which fills there have been, which
  files an entry was last left with, and which metadata files have been written.

The cache lives in an environment of type `E`, which the code of the cache never
touches.
-/

namespace TinyS3Proxy

open Coop

/-! ### The disk -/

/-- The kinds of temporary files that belong to the task that creates them. -/
inductive TmpKind
  | body
  | metaJson
  | prevBody
  | prevMetaJson
  | fillIdCounter
  deriving DecidableEq

/-- The names of files in the cache directory. -/
inductive Path
  | body (hash : String)
  | metaJson (hash : String)
  | poisoned (hash : String)
  | fillIdCounter
  | metaTmp (hash : String) (counter : ℕ)
  | tmp (task id : ℕ) (kind : TmpKind)
  deriving DecidableEq

/-- The contents of a file. A body and a metadata file remember which fill wrote them. -/
inductive File
  | body (fill : ℕ) (bytes : List UInt8)
  | json (fill : ℕ) (info : CacheMeta)
  | counter (next : UInt64)
  | raw (bytes : List UInt8)

namespace File

/-- Parse the contents of a metadata file, with the fill that wrote it. -/
def parse : File → Option (ℕ × CacheMeta)
  | json fill info => some (fill, info)
  | _ => none

/-- The bytes of a body. -/
def bytes : File → List UInt8
  | body _ b => b
  | raw b => b
  | _ => []

end File

/-- The errors of file-system calls. -/
inductive IoError
  | notFound
  | alreadyExists
  | other
  deriving DecidableEq

/-! ### Fills in progress -/

/-- The tracking record of the fills of one key. The generation starts at zero and
counts the bumps, wrapping around at 64 bits. -/
structure FillEntry where
  refcount : ℕ
  bumps : ℕ
  commitLock : Option ℕ
  live : Finset ℕ

/-- The generation counter of a tracking record. -/
def FillEntry.generation (e : FillEntry) : UInt64 := UInt64.ofNat e.bumps

/-- What is remembered about a fill: the environment it was begun in, the task that
holds its guard, the fill id it was given, and how many metadata files had been written
by then. -/
structure Fill (E : Type) where
  key : CacheKey
  entry : ℕ
  bumps₀ : ℕ
  born : E
  owner : Option ℕ
  finished : Bool
  fillId : Option FillId
  reservedAt : ℕ

/-! ### Entries -/

/-- The files of an entry and whether its hash is poisoned in memory. -/
@[ext]
structure View where
  body : Option ℕ
  info : Option ℕ
  poisoned : Bool

/-- The three ways in which a metadata file is written in place. -/
inductive WriteKind
  | publish (arg : CacheMeta)
  | update
  | touch

/-- A metadata file written in place, with the task that wrote it and the metadata it
replaced. -/
structure Write where
  task : ℕ
  hash : String
  kind : WriteKind
  fill : ℕ
  old : Option (ℕ × CacheMeta)
  new : CacheMeta

/-- The disk cache. -/
structure DiskCache (E : Type) where
  files : Path → Option ℕ
  data : ℕ → File
  nextIno : ℕ
  activeFills : CacheKey → Option ℕ
  entries : ℕ → FillEntry
  nextEntry : ℕ
  metaLocks : String → Option ℕ
  poisonedHashes : String → Bool
  nextFillId : UInt64
  fillIdPersistLock : Option ℕ
  tmpCounter : ℕ
  accessCounter : ℕ
  updateCounter : ℕ
  /-- The fills there have been. -/
  fills : ℕ → Option (Fill E)
  nextFill : ℕ
  /-- The fills numbered below `bootFill` were begun before the last restart. -/
  bootFill : ℕ
  /-- The files an entry was last left with. -/
  slot : String → View
  /-- The metadata files written in place, in order. -/
  writes : List Write
  /-- The counter file has been kept since this many metadata files were written. -/
  counterKept : ℕ
  /-- The inodes that a probe has removed as leftovers. -/
  cleaned : List ℕ
  /-- Some file-system call has failed, other than by not finding a file. -/
  faulted : Bool
  /-- Some task has been dropped. -/
  dropped : Bool
  /-- The generation of some fill in progress has wrapped around. -/
  wrapped : Bool
  env : E

namespace DiskCache

variable {E : Type}

/-- The files of the entry with the given hash, as they are. -/
def view (s : DiskCache E) (h : String) : View :=
  ⟨s.files (.body h), s.files (.metaJson h), s.poisonedHashes h⟩

/-- Parse the metadata in an inode. -/
def parseAt (s : DiskCache E) (i : Option ℕ) : Option (ℕ × CacheMeta) :=
  i.bind fun i => (s.data i).parse

end DiskCache

end TinyS3Proxy
