import Mathlib.Tactic

/-!
# Cache keys and cache metadata

The records that the cache stores and passes around: the key of an object, the metadata
kept beside a cached body, the guard of a fill in progress, and the errors of the
cache.

A header map is a function from header names to values. The source keeps hash maps and
only ever looks names up in them, filters them, and lays one over another.

Times are integers, counted in some fixed unit.
-/

namespace TinyS3Proxy

/-- A map from header names to values. -/
abbrev Headers := String → Option String

namespace Headers

/-- The map without any header. -/
def empty : Headers := fun _ => none

/-- The headers whose name satisfies `p`. -/
def filter (p : String → Bool) (H : Headers) : Headers :=
  fun name => if p name then H name else none

/-- The headers of `H` with those of `K` laid over them. -/
def extend (H K : Headers) : Headers :=
  fun name => (K name).or (H name)

end Headers

/-- A point in time. -/
abbrev Time := ℤ

/-- The token that distinguishes the fills of the cache. -/
abbrev FillId := UInt64

/-- A cache key. The hash names the files of the entry; the source computes it from the
bucket and the object key. -/
structure CacheKey where
  bucket : String
  objectKey : String
  hash : String
  deriving DecidableEq

/-- The cache key of an object, where `computeHash` is the hash that names its files. -/
def CacheKey.new (computeHash : String → String → String) (bucket objectKey : String) :
    CacheKey :=
  ⟨bucket, objectKey, computeHash bucket objectKey⟩

/-- The metadata stored beside a cached body. -/
structure CacheMeta where
  bucket : String
  key : String
  etag : Option String
  lastModified : Option Time
  contentType : Option String
  contentLength : ℤ
  cacheWrittenAt : Time
  fillId : FillId
  metadataVersion : UInt64
  lastAccessedAt : Time
  hitCount : UInt64
  sourceStatus : ℕ
  metadata : Headers
  extraHeaders : Headers
  headExtraHeaders : Headers
  headChecksumHeaders : Headers
  checksumModeChecked : Bool
  headMetadataChecked : Bool
  headChecksumChecked : Bool

namespace CacheMeta

/-- Both entity tags are present and equal. -/
def SameEtag (m current : CacheMeta) : Prop := m.etag ≠ none ∧ m.etag = current.etag

instance (m current : CacheMeta) : Decidable (m.SameEtag current) :=
  inferInstanceAs (Decidable (m.etag ≠ none ∧ m.etag = current.etag))

/-- The metadata `m`, with the state learned from `HEAD` responses carried over from
`current` when both describe the same entity tag. -/
def preserveSameEtagHeadStateFrom (m current : CacheMeta) : CacheMeta :=
  if m.SameEtag current then
    { m with
      headExtraHeaders := current.headExtraHeaders
      headChecksumHeaders := current.headChecksumHeaders
      headMetadataChecked := current.headMetadataChecked
      headChecksumChecked := current.headChecksumChecked }
  else m

/-- The metadata as a fill publishes it: stamped with its fill id, at version zero. -/
def stamped (m : CacheMeta) (fillId : FillId) : CacheMeta :=
  { m with fillId, metadataVersion := 0 }

/-- Addition of one that stays at the largest value once it is reached. -/
def saturatingSucc (n : UInt64) : UInt64 :=
  if n = UInt64.ofNat (2 ^ 64 - 1) then n else n + 1

/-- The metadata that replaces `current` when it is updated to `m`: the fields that the
store accounts for are kept, and the version is bumped. -/
def updatedFrom (m current : CacheMeta) : CacheMeta :=
  { m with
    cacheWrittenAt := current.cacheWrittenAt
    fillId := current.fillId
    lastAccessedAt := current.lastAccessedAt
    hitCount := current.hitCount
    sourceStatus := current.sourceStatus
    metadataVersion := saturatingSucc current.metadataVersion }

end CacheMeta

/-- The guard of a fill. The number of the fill, which only the proofs refer to, tells
apart the guards of one key. -/
structure FillGuard where
  key : CacheKey
  generation : UInt64
  fill : ℕ

/-- A cache entry as a probe returns it, with the handle of the body when the probe
pinned it. -/
structure CacheEntry where
  info : CacheMeta
  bodyFile : Option ℕ

/-- The errors of the cache, with the operation that failed. -/
structure CacheError where
  operation : String
  deriving DecidableEq

end TinyS3Proxy
