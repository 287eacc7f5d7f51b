import TinyS3Proxy.Cache.Metadata

/-!
# Objects as the backend describes them

What a `GET` or a `HEAD` of an object tells about it, the response headers that are made of
it, what the cache keeps of it, and the responses that are made of what the cache keeps.

The backend client and the cache keep headers in maps whose names are in lower case. A map
is laid over another with `Headers.extend`, which is what inserting its headers one by one
does.
-/

namespace TinyS3Proxy

/-! ### Read options -/

/-- The checksum mode of a read. -/
inductive ChecksumMode
  | enabled
  deriving DecidableEq

/-- The checksum mode that a header value asks for. -/
def ChecksumMode.fromHeaderValue (value : String) : Option ChecksumMode :=
  if value = "ENABLED" then some .enabled else none

/-- The options of a read. -/
structure ReadOptions where
  checksumMode : Option ChecksumMode
  deriving DecidableEq

/-- The read asks for checksum headers. -/
def ReadOptions.wantsChecksumHeaders (options : ReadOptions) : Bool :=
  options.checksumMode = some .enabled

/-! ### What the backend tells -/

/-- The entries of a header map, in some order. -/
abbrev HeaderEntries := List (String × String)

/-- The map with the given entries. -/
def HeaderEntries.toHeaders (entries : HeaderEntries) : Headers := fun name =>
  (entries.find? fun e => e.1 = name).map Prod.snd

/-- What a `GET` tells about an object, besides its body. -/
structure GetObjectMeta where
  contentType : Option String
  contentLength : Option ℤ
  etag : Option String
  lastModified : Option Time
  metadata : Headers
  extraHeaders : HeaderEntries

/-- What a `HEAD` tells about an object. -/
structure HeadObjectOutput where
  contentType : Option String
  contentLength : Option ℤ
  etag : Option String
  lastModified : Option Time
  metadata : Headers
  extraHeaders : Headers

/-! ### Response headers -/

/-- The front of the names of checksum headers. -/
def checksumFront : List Char := "x-amz-checksum-".toList

/-- The name is that of a checksum header, in any case. -/
def isChecksumResponseHeader (name : String) : Bool :=
  (name.toList.take checksumFront.length).map Char.toLower = checksumFront

/-- The name is that of a header that only `HEAD` responses carry. -/
def isHeadOnlyResponseHeader (name : String) : Bool := name = "x-amz-archive-status"

/-- The text is a valid header value. -/
def isHeaderValue (value : String) : Bool :=
  value.toList.all fun c => (32 ≤ c.toNat && c.toNat ≠ 127) || c.toNat = 9

/-- The text is a valid header name in lower case. -/
def isHeaderName (name : String) : Bool :=
  !name.isEmpty && name.toList.all fun c =>
    c.isLower || c.isDigit || "!#$%&'*+-.^_|~".toList.contains c || c.toNat = 96

namespace Headers

/-- The map with at most one header. -/
def single (name : String) (value : Option String) : Headers := fun n =>
  if n = name then value else none

/-- The headers with a valid name and a valid value. -/
def valid (H : Headers) : Headers := fun name =>
  (H name).filter fun value => isHeaderName name && isHeaderValue value

/-- The header with a valid value, if it is given. -/
def given (name : String) (value : Option String) : Headers :=
  single name (value.filter isHeaderValue)

/-- The headers other than checksum headers. -/
def withoutChecksums (H : Headers) : Headers := H.filter fun name => !isChecksumResponseHeader name

end Headers

/-- The checksum headers. -/
def extractChecksumHeaders (H : Headers) : Headers := H.filter isChecksumResponseHeader

/-- The headers of a `HEAD` response that a `GET` response has too, and those that it has
not. -/
def splitHeadRefreshHeaders (H : Headers) : Headers × Headers :=
  (H.filter fun name => !isHeadOnlyResponseHeader name, H.filter isHeadOnlyResponseHeader)

/-- The front of the names of user metadata headers. -/
def metadataFront : List Char := "x-amz-meta-".toList

/-- The response headers of user metadata, which is kept under bare names. -/
def userMetadataHeaders (metadata : Headers) : Headers :=
  Headers.valid fun name =>
    if metadataFront.isPrefixOf name.toList then
      metadata (String.ofList (name.toList.drop metadataFront.length))
    else none

section Rendering

-- How a point in time is written as an HTTP date.
variable (httpDate : Time → String)

/-- The response headers of an object. -/
def buildObjectHeadersCommon (contentType : Option String) (contentLength : Option ℤ)
    (etag : Option String) (lastModified : Option Time) (metadata extraHeaders : Headers)
    (includeChecksumHeaders : Bool) : Headers :=
  (((((Headers.given "content-type" contentType).extend
    (Headers.single "content-length" (contentLength.map toString))).extend
    (Headers.given "etag" etag)).extend
    (Headers.given "last-modified" (lastModified.map httpDate))).extend
    (userMetadataHeaders metadata)).extend
    (extraHeaders.filter fun name =>
      includeChecksumHeaders || !isChecksumResponseHeader name).valid

/-- The response headers of a `GET`. -/
def getObjectHeaders (info : GetObjectMeta) (includeChecksumHeaders : Bool) : Headers :=
  buildObjectHeadersCommon httpDate info.contentType info.contentLength info.etag
    info.lastModified info.metadata info.extraHeaders.toHeaders includeChecksumHeaders

/-- The response headers of a `HEAD`. -/
def headObjectHeaders (output : HeadObjectOutput) (includeChecksumHeaders : Bool) : Headers :=
  buildObjectHeadersCommon httpDate output.contentType output.contentLength output.etag
    output.lastModified output.metadata output.extraHeaders includeChecksumHeaders

/-- The headers that all responses carry. -/
def commonHeaders (requestId : String) : Headers :=
  ((Headers.single "server" (some "tiny-s3-proxy")).extend
    (Headers.single "x-amz-id-2" (some "tiny-s3-proxy-id-2"))).extend
    (Headers.given "x-amz-request-id" (some requestId))

/-- What a response says about the part the cache has played in it. -/
inductive CacheStatus
  | hit
  | miss
  | stale
  | bypass
  deriving DecidableEq

/-- A successful response of a read. A `HEAD` has no body. The cache status goes into a
header of its own. -/
structure ReadResponse where
  headers : Headers
  cacheStatus : Option CacheStatus
  body : Option (List UInt8)

/-- The response to a `GET` that is made of what the backend has told and of a body. -/
def buildMetaResponse (info : GetObjectMeta) (body : List UInt8) (requestId : String)
    (cacheStatus : CacheStatus) (includeChecksumHeaders : Bool) : ReadResponse where
  headers := (getObjectHeaders httpDate info includeChecksumHeaders).extend
    (commonHeaders requestId)
  cacheStatus := some cacheStatus
  body := some body

/-- The response to a `HEAD` that is made of what the backend has told. -/
def buildFreshHeadResponse (output : HeadObjectOutput) (requestId : String)
    (cacheStatus : Option CacheStatus) (includeChecksumHeaders : Bool) : ReadResponse where
  headers := (headObjectHeaders httpDate output includeChecksumHeaders).extend
    (commonHeaders requestId)
  cacheStatus := cacheStatus
  body := none

/-! ### Responses of the cache -/

/-- The response to a `GET` that is made of a cached entry, with the headers built from the
metadata one by one. -/
def buildCacheResponse (m : CacheMeta) (body : List UInt8) (requestId : String)
    (cacheStatus : CacheStatus) (includeChecksumHeaders : Bool) : ReadResponse where
  headers := ((((((Headers.given "content-type" m.contentType).extend
    (Headers.single "content-length" (some (toString m.contentLength)))).extend
    (Headers.given "etag" m.etag)).extend
    (Headers.given "last-modified" (m.lastModified.map httpDate))).extend
    (userMetadataHeaders m.metadata)).extend
    (m.extraHeaders.filter fun name =>
      includeChecksumHeaders || !isChecksumResponseHeader name).valid).extend
    (commonHeaders requestId)
  cacheStatus := some cacheStatus
  body := some body

/-- The response to a `HEAD` that is made of cached metadata. -/
def buildCachedHeadResponse (m : CacheMeta) (requestId : String) (cacheStatus : CacheStatus)
    (includeChecksumHeaders : Bool) : ReadResponse :=
  buildFreshHeadResponse httpDate
    { contentType := m.contentType
      contentLength := some m.contentLength
      etag := m.etag
      lastModified := m.lastModified
      metadata := m.metadata
      extraHeaders := (m.extraHeaders.withoutChecksums.extend m.headExtraHeaders).extend
        (if includeChecksumHeaders then m.headChecksumHeaders else Headers.empty) }
    requestId (some cacheStatus) includeChecksumHeaders

end Rendering

/-! ### What the cache keeps -/

/-- The cached entry can answer a `GET` with the given options. -/
def cacheEntrySatisfiesReadOptions (m : CacheMeta) (options : ReadOptions) : Bool :=
  !options.wantsChecksumHeaders || m.checksumModeChecked

/-- The cached metadata can answer a `HEAD` with the given options. -/
def cacheEntrySatisfiesHeadRequest (m : CacheMeta) (options : ReadOptions) : Bool :=
  if options.wantsChecksumHeaders then m.headMetadataChecked && m.headChecksumChecked
  else m.headMetadataChecked

/-- The metadata that a leader hands to the cache with the body it has fetched. -/
def fetchedCacheMeta (key : CacheKey) (info : GetObjectMeta) (options : ReadOptions) (now : Time) :
    CacheMeta where
  bucket := key.bucket
  key := key.objectKey
  etag := info.etag
  lastModified := info.lastModified
  contentType := info.contentType
  contentLength := info.contentLength.getD 0
  cacheWrittenAt := now
  fillId := 0
  metadataVersion := 0
  lastAccessedAt := now
  hitCount := 0
  sourceStatus := 200
  metadata := info.metadata
  extraHeaders := info.extraHeaders.toHeaders
  headExtraHeaders := Headers.empty
  headChecksumHeaders := Headers.empty
  checksumModeChecked := options.wantsChecksumHeaders ||
    info.extraHeaders.any fun e => isChecksumResponseHeader e.1
  headMetadataChecked := false
  headChecksumChecked := false

/-- What comes of comparing cached metadata with a `HEAD` of the object. -/
inductive CacheRefreshOutcome
  | updated (info : CacheMeta)
  | etagMismatch
  | noStrongMatch

/-- Cached metadata with the headers of a `HEAD` response worked in. The checksum headers of
the response never enter those that answer a `GET`. -/
def mergedCacheMeta (cached : CacheMeta) (output : HeadObjectOutput)
    (requestedChecksumHeaders : Bool) : CacheMeta :=
  { cached with
    etag := output.etag
    lastModified := output.lastModified.or cached.lastModified
    contentType := output.contentType.or cached.contentType
    contentLength := output.contentLength.getD cached.contentLength
    metadata := output.metadata
    extraHeaders := (splitHeadRefreshHeaders output.extraHeaders).1.withoutChecksums.extend
      (extractChecksumHeaders cached.extraHeaders)
    headExtraHeaders := (splitHeadRefreshHeaders output.extraHeaders).2
    headChecksumHeaders :=
      if requestedChecksumHeaders then
        extractChecksumHeaders (splitHeadRefreshHeaders output.extraHeaders).1
      else cached.headChecksumHeaders
    headMetadataChecked := true
    headChecksumChecked := cached.headChecksumChecked || requestedChecksumHeaders }

/-- Compare cached metadata with a `HEAD` of the object. -/
def refreshedCacheMeta (cached : CacheMeta) (output : HeadObjectOutput)
    (requestedChecksumHeaders : Bool) : CacheRefreshOutcome :=
  match cached.etag, output.etag with
  | some cachedEtag, some outputEtag =>
      if cachedEtag = outputEtag then
        .updated (mergedCacheMeta cached output requestedChecksumHeaders)
      else .etagMismatch
  | _, _ => .noStrongMatch

end TinyS3Proxy
