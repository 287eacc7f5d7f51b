import TinyS3Proxy.Http.Headers
import TinyS3Proxy.S3.Ops
import TinyS3Proxy.Text.Percent
import TinyS3Proxy.Text.Utf8

/-!
# Classification of requests

A request is classified by its method, the bucket and the key that its path consists of, and the
parameters of its query (`s3/parse.rs`). What is not understood is classified as unsupported.
-/

namespace TinyS3Proxy

open Text (Bytes ascii)

/-! ### The query -/

/-- The parameters that make a request one for a part of a resource, or that change the response. -/
def s3SubresourceParams : List Bytes :=
  [ascii "acl", ascii "cors", ascii "delete", ascii "encryption", ascii "intelligent-tiering",
    ascii "inventory", ascii "legal-hold", ascii "lifecycle", ascii "location", ascii "logging",
    ascii "metrics", ascii "notification", ascii "object-lock", ascii "policy",
    ascii "replication", ascii "requestPayment", ascii "restore", ascii "retention",
    ascii "select", ascii "tagging", ascii "torrent", ascii "versioning", ascii "versions",
    ascii "website", ascii "accelerate", ascii "analytics", ascii "versionId",
    ascii "response-content-type", ascii "response-content-disposition",
    ascii "response-content-encoding", ascii "response-content-language",
    ascii "response-expires", ascii "response-cache-control"]

/-- Undo the percent-encoding of a string, and make the result a string. -/
def percentDecodeLossy (bs : Bytes) : Bytes := Text.fromUtf8Lossy (Text.percentDecode bs)

/-- The parameters of a query. The last value of a name counts. -/
def parseQuery (query : Bytes) : StringMap :=
  if query = [] then []
  else
    (query.splitOn 38).foldl (fun map pair =>
      let (key, value) := (Text.splitOnce 61 pair).getD (pair, [])
      StringMap.insert map (percentDecodeLossy key) (percentDecodeLossy value)) []

/-! ### Headers -/

/-- The first value of a header as a string. -/
def headerStr (headers : HeaderMap) (name : Bytes) : Option Bytes :=
  (headers.get name).bind HeaderValue.toStr

/-- The values of a header, with commas between them. -/
def headerStrCombined (headers : HeaderMap) (name : Bytes) : Option Bytes :=
  match (headers.getAll name).filterMap HeaderValue.toStr with
  | [] => none
  | parts => some ((ascii ", ").intercalate parts)

/-- The headers for the authentication of a request, which are not forwarded. -/
def authAmzHeaders : List Bytes :=
  [ascii "x-amz-date", ascii "x-amz-content-sha256", ascii "x-amz-security-token",
    ascii "x-amz-credential", ascii "x-amz-signature", ascii "x-amz-algorithm",
    ascii "x-amz-signedheaders", ascii "x-amz-decoded-content-length"]

/-- The metadata of the user and the other headers to forward, with those of one more header. -/
def collectAmzHeader (maps : StringMap × StringMap) (h : HeaderName × HeaderValue) :
    StringMap × StringMap :=
  match h.2.toStr with
  | none => maps
  | some v =>
      match Text.strip (ascii "x-amz-meta-") h.1.bytes with
      | some bareKey => (StringMap.insert maps.1 bareKey v, maps.2)
      | none =>
          if (Text.strip (ascii "x-amz-") h.1.bytes).isSome ∧ h.1.bytes ∉ authAmzHeaders then
            (maps.1, StringMap.insert maps.2 h.1.bytes v)
          else maps

/-- The headers about the content that are to be forwarded. -/
def contentHeadersOf (headers : HeaderMap) : StringMap :=
  let combined := [ascii "content-encoding", ascii "content-language", ascii "cache-control"]
  let single := [ascii "content-disposition", ascii "expires"]
  let map := combined.foldl (fun map name =>
    match headerStrCombined headers name with
    | some val => StringMap.insert map name val
    | none => map) ([] : StringMap)
  single.foldl (fun map name =>
    match headerStr headers name with
    | some val => StringMap.insert map name val
    | none => map) map

/-! ### Operations -/

/-- The slash, which separates the segments of a path. -/
def slash : UInt8 := 47

/-- The path without the slash that it starts with. -/
def trimmedPath (path : Bytes) : Bytes := (Text.strip [slash] path).getD path

/-- The bucket and the key, as they are in the path. -/
def splitPath (path : Bytes) : Bytes × Bytes :=
  let trimmed := trimmedPath path
  if trimmed = [] then ([], [])
  else (Text.splitOnce slash trimmed).getD (trimmed, [])

/-- The query has a parameter for a part of a resource. -/
def isSubresource (query : StringMap) : Bool :=
  s3SubresourceParams.any fun p => query.containsKey p

/-- The query has a parameter for an upload in parts. -/
def hasMultipartParams (query : StringMap) : Bool :=
  query.containsKey (ascii "uploads") || query.containsKey (ascii "uploadId") ||
    query.containsKey (ascii "partNumber")

/-- The request is a copy. -/
def isCopy (headers : HeaderMap) : Bool := headers.containsKey (ascii "x-amz-copy-source")

/-- The operation of an upload in parts that a request asks for. -/
def multipartOperation (parts : Parts) (query : StringMap) (bucket key : Bytes) : S3Operation :=
  let uploads := query.containsKey (ascii "uploads")
  let uploadId := query.containsKey (ascii "uploadId")
  let partNumber := query.containsKey (ascii "partNumber")
  let id := (query.get (ascii "uploadId")).getD []
  if parts.method = ascii "PUT" ∧ partNumber ∧ uploadId ∧ !uploads then
    if isCopy parts.headers then .unsupported parts.method parts.path
    else
      .uploadPart bucket key
        (((query.get (ascii "partNumber")).bind (Text.fromStrSigned 32)).getD 0) id
  else if parts.method = ascii "POST" ∧ uploads ∧ !uploadId ∧ !partNumber then
    .createMultipartUpload bucket key
  else if parts.method = ascii "POST" ∧ uploadId ∧ !uploads ∧ !partNumber then
    .completeMultipartUpload bucket key id
  else if parts.method = ascii "DELETE" ∧ uploadId ∧ !uploads ∧ !partNumber then
    .abortMultipartUpload bucket key id
  else .unsupported parts.method parts.path

/-- The operation on an object that a request asks for. -/
def plainOperation (parts : Parts) (bucket key : Bytes) : S3Operation :=
  if parts.method = ascii "GET" then .getObject bucket key
  else if parts.method = ascii "HEAD" then .headObject bucket key
  else if parts.method = ascii "PUT" then
    if isCopy parts.headers then .unsupported parts.method parts.path else .putObject bucket key
  else if parts.method = ascii "DELETE" then .deleteObject bucket key
  else .unsupported parts.method parts.path

/-- The operation on an object, or on a part of it, that a request asks for. -/
def objectOperation (parts : Parts) (query : StringMap) (bucket key : Bytes) : S3Operation :=
  if isSubresource query then .unsupported parts.method parts.path
  else if hasMultipartParams query then multipartOperation parts query bucket key
  else plainOperation parts bucket key

/-- The parameters of a listing that a query has. -/
def listParamsOf (query : StringMap) : ListParams :=
  { pre := query.get (ascii "prefix")
    delimiter := query.get (ascii "delimiter")
    maxKeys := (query.get (ascii "max-keys")).bind (Text.fromStrSigned 32)
    continuationToken := query.get (ascii "continuation-token")
    marker := query.get (ascii "marker")
    startAfter := query.get (ascii "start-after")
    encodingType := query.get (ascii "encoding-type") }

/-- The operation on a bucket that a request asks for. -/
def bucketOperation (parts : Parts) (query : StringMap) (bucket : Bytes) : S3Operation :=
  if parts.method = ascii "GET" then
    if isSubresource query || query.containsKey (ascii "uploads") then
      .unsupported parts.method parts.path
    else
      let listType := query.get (ascii "list-type")
      let maxKeysInvalid :=
        (query.get (ascii "max-keys")).any fun v => (Text.fromStrSigned 32 v).isNone
      let encodingTypeInvalid := (query.get (ascii "encoding-type")).any fun v => v ≠ ascii "url"
      if (listType.any fun v => v ≠ ascii "2") || maxKeysInvalid || encodingTypeInvalid then
        .unsupported parts.method parts.path
      else if listType = some (ascii "2") then .listObjectsV2 bucket (listParamsOf query)
      else .listObjectsV1 bucket (listParamsOf query)
  else .unsupported parts.method parts.path

/-- The operation that a request asks for. -/
def parseOperation (parts : Parts) : S3Operation :=
  let query := parseQuery (parts.query.getD [])
  let (bucket, rawKey) := splitPath parts.path
  let key := percentDecodeLossy rawKey
  if bucket = [] then .unsupported parts.method parts.path
  else if key ≠ [] then objectOperation parts query bucket key
  else bucketOperation parts query bucket

/-- Classify a request. The identifier is the one that is generated for it. -/
def parseRequest (parts : Parts) (requestId : Bytes) : ParsedRequest :=
  let amzHeaders := parts.headers.foldl collectAmzHeader ([], [])
  { operation := parseOperation parts
    requestId
    contentType := headerStr parts.headers (ascii "content-type")
    contentLength := ((headerStr parts.headers (ascii "content-length")).bind
      (Text.fromStrSigned 64)).filter fun v => 0 ≤ v
    contentMd5 := headerStr parts.headers (ascii "content-md5")
    authorization := headerStr parts.headers (ascii "authorization")
    amzDate := headerStr parts.headers (ascii "x-amz-date")
    amzContentSha256 := headerStr parts.headers (ascii "x-amz-content-sha256")
    range := headerStr parts.headers (ascii "range")
    userMetadata := amzHeaders.1
    extraAmzHeaders := amzHeaders.2
    contentHeaders := contentHeadersOf parts.headers }

end TinyS3Proxy
