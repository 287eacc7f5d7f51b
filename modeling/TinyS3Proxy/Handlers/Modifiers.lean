import TinyS3Proxy.S3.Checksum
import TinyS3Proxy.S3.Parse

/-!
# How requests are handled

Which uploads are decoded, which are passed through and which are forwarded as they are, and which
of the other requests are passed through, by the headers of the request (`handlers/modifiers.rs`).
The names of the wire formats are those of `s3/aws_chunked.rs`.
-/

namespace TinyS3Proxy

open Text (Bytes ascii)

/-! ### Headers that a write cannot keep -/

/-- The headers that change what a write does and that no typed write forwards. -/
def writeModifyingBase : List Bytes :=
  [ascii "x-amz-storage-class", ascii "x-amz-server-side-encryption",
    ascii "x-amz-server-side-encryption-aws-kms-key-id",
    ascii "x-amz-server-side-encryption-context",
    ascii "x-amz-server-side-encryption-bucket-key-enabled",
    ascii "x-amz-server-side-encryption-customer-algorithm",
    ascii "x-amz-server-side-encryption-customer-key",
    ascii "x-amz-server-side-encryption-customer-key-md5", ascii "x-amz-request-payer",
    ascii "x-amz-expected-bucket-owner", ascii "x-amz-bypass-governance-retention",
    ascii "x-amz-mfa", ascii "x-amz-tagging", ascii "x-amz-object-lock-mode",
    ascii "x-amz-object-lock-retain-until-date", ascii "x-amz-object-lock-legal-hold",
    ascii "x-amz-website-redirect-location", ascii "x-amz-mp-object-size",
    ascii "x-amz-if-match-last-modified-time", ascii "x-amz-if-match-size",
    ascii "x-amz-if-match-initiated-time", ascii "x-amz-acl", ascii "x-amz-grant-full-control",
    ascii "x-amz-grant-read", ascii "x-amz-grant-read-acp", ascii "x-amz-grant-write-acp",
    ascii "x-amz-write-offset-bytes"]

/-- The headers with checksums, which the writes of parts do not forward. -/
def multipartChecksumHeaders : List Bytes :=
  [ascii "x-amz-checksum-algorithm", ascii "x-amz-checksum-crc32", ascii "x-amz-checksum-crc32c",
    ascii "x-amz-checksum-crc64nvme", ascii "x-amz-checksum-sha1", ascii "x-amz-checksum-sha256",
    ascii "x-amz-checksum-type", ascii "x-amz-sdk-checksum-algorithm"]

/-- The request is conditional. -/
def hasUnsupportedHttpConditionals (rawHeaders : HeaderMap) : Bool :=
  rawHeaders.containsKey (ascii "if-match") || rawHeaders.containsKey (ascii "if-none-match")

/-! ### Wire formats -/

def streamingAws4HmacSha256Payload : Bytes := ascii "STREAMING-AWS4-HMAC-SHA256-PAYLOAD"

def streamingUnsignedPayloadTrailer : Bytes := ascii "STREAMING-UNSIGNED-PAYLOAD-TRAILER"

def streamingAws4HmacSha256PayloadTrailer : Bytes :=
  ascii "STREAMING-AWS4-HMAC-SHA256-PAYLOAD-TRAILER"

def streamingAws4EcdsaP256Sha256Payload : Bytes :=
  ascii "STREAMING-AWS4-ECDSA-P256-SHA256-PAYLOAD"

def streamingAws4EcdsaP256Sha256PayloadTrailer : Bytes :=
  ascii "STREAMING-AWS4-ECDSA-P256-SHA256-PAYLOAD-TRAILER"

/-- The name of the header that declares the body. -/
def contentSha256Name : Bytes := ascii "x-amz-content-sha256"

/-- The name of the header that declares the trailer. -/
def trailerName : Bytes := ascii "x-amz-trailer"

/-- What is done with the body of a write. -/
inductive WriteBodyRoute
  | typed
  | decodeAwsChunked
  | passthrough
  | rejectUnsupportedSignature
deriving DecidableEq

/-- The wire format of an upload, as far as it is known. -/
inductive AwsChunkedUploadMode
  | nonTrailerHmacSha256
  | nonTrailerEcdsaP256
  | unsignedTrailer
  | signedTrailerHmacSha256
  | signedTrailerEcdsaP256
  | otherStreaming
deriving DecidableEq

/-- The format has a trailer that can be checked. -/
def AwsChunkedUploadMode.hasTrailer : AwsChunkedUploadMode → Bool
  | unsignedTrailer => true
  | signedTrailerHmacSha256 => true
  | signedTrailerEcdsaP256 => true
  | _ => false

/-- The algorithm of the trailer that the first header declares. -/
def declaredAlgorithm (rawHeaders : HeaderMap) : Option ChecksumAlgorithm :=
  ((rawHeaders.get trailerName).bind HeaderValue.toStr).bind fun s =>
    ChecksumAlgorithm.fromHeaderName (Text.trim s)

/-- The trailer that the first header declares can be checked. -/
def trailerAlgorithmSupported (rawHeaders : HeaderMap) : Bool :=
  (declaredAlgorithm rawHeaders).isSome

/-- The wire format that a value in upper case stands for. -/
def uploadModeCandidate (trailerAlgoIsSupported : Bool) (upper : Bytes) :
    Option AwsChunkedUploadMode :=
  if upper = streamingAws4HmacSha256Payload then some .nonTrailerHmacSha256
  else if upper = streamingAws4EcdsaP256Sha256Payload then some .nonTrailerEcdsaP256
  else if upper = streamingUnsignedPayloadTrailer then
    if trailerAlgoIsSupported then some .unsignedTrailer else some .otherStreaming
  else if upper = streamingAws4HmacSha256PayloadTrailer then
    if trailerAlgoIsSupported then some .signedTrailerHmacSha256 else some .otherStreaming
  else if upper = streamingAws4EcdsaP256Sha256PayloadTrailer then
    if trailerAlgoIsSupported then some .signedTrailerEcdsaP256 else some .otherStreaming
  else if (Text.strip (ascii "STREAMING-") upper).isSome then some .otherStreaming
  else none

/-- The wire format, with that of another value: formats that differ are not decided on. -/
def mergeUploadModes : Option AwsChunkedUploadMode → Option AwsChunkedUploadMode →
    Option AwsChunkedUploadMode
  | none, candidate => candidate
  | some existing, some other => if existing ≠ other then some .otherStreaming else some existing
  | existing, none => existing

/-- The wire format, with that of the value of another header. -/
def observeUploadMode (trailerAlgoIsSupported : Bool) (mode : Option AwsChunkedUploadMode)
    (value : HeaderValue) : Option AwsChunkedUploadMode :=
  match value.toStr with
  | none => mode
  | some s =>
      let trimmed := Text.trim s
      if trimmed = [] then mode
      else mergeUploadModes mode (uploadModeCandidate trailerAlgoIsSupported (Text.upper trimmed))

/-- A header says that the body is in chunks. -/
def contentEncodingHasAwsChunked (rawHeaders : HeaderMap) : Bool :=
  (rawHeaders.getAll (ascii "content-encoding")).any fun value =>
    match value.toStr with
    | none => false
    | some s =>
        (s.splitOn 44).any fun tok => Text.eqIgnoreCase (Text.trim tok) (ascii "aws-chunked")

/-- The wire format of an upload, if it is in chunks. -/
def classifyAwsChunkedUpload (rawHeaders : HeaderMap) : Option AwsChunkedUploadMode :=
  let mode := (rawHeaders.getAll contentSha256Name).foldl
    (observeUploadMode (trailerAlgorithmSupported rawHeaders)) none
  if rawHeaders.containsKey trailerName && !(mode.any AwsChunkedUploadMode.hasTrailer) then
    some .otherStreaming
  else if mode.isSome then mode
  else if contentEncodingHasAwsChunked rawHeaders ||
      rawHeaders.containsKey (ascii "x-amz-decoded-content-length") then
    some .otherStreaming
  else none

/-! ### Routes -/

/-- What is done with a body for its wire format. -/
def awsChunkedRouteFor (rawHeaders : HeaderMap) : WriteBodyRoute :=
  match classifyAwsChunkedUpload rawHeaders with
  | none => .typed
  | some .otherStreaming => .passthrough
  | some _ => .decodeAwsChunked

/-- What is done with the body of an object. -/
def classifyPutBodyRoute (extraAmz : List (Bytes × Bytes)) (rawHeaders : HeaderMap) :
    WriteBodyRoute :=
  let awsChunked := awsChunkedRouteFor rawHeaders
  if awsChunked = .rejectUnsupportedSignature then .rejectUnsupportedSignature
  else if hasUnsupportedHttpConditionals rawHeaders then .passthrough
  else if extraAmz.any fun h => writeModifyingBase.contains h.1 then .passthrough
  else awsChunked

/-- What is done with the body of a part of an object. -/
def classifyUploadPartBodyRoute (extraAmz : List (Bytes × Bytes)) (rawHeaders : HeaderMap) :
    WriteBodyRoute :=
  let awsChunked := awsChunkedRouteFor rawHeaders
  if awsChunked = .rejectUnsupportedSignature then .rejectUnsupportedSignature
  else if hasUnsupportedHttpConditionals rawHeaders then .passthrough
  else if extraAmz.any fun h => writeModifyingBase.contains h.1 then .passthrough
  else if awsChunked = .decodeAwsChunked then .decodeAwsChunked
  else if extraAmz.any fun h => multipartChecksumHeaders.contains h.1 then .passthrough
  else awsChunked

/-- The body is in chunks. -/
def hasS3StreamingUploadIndicators (rawHeaders : HeaderMap) : Bool :=
  (classifyAwsChunkedUpload rawHeaders).isSome

/-- A write of an object, or its deletion, cannot keep all of its headers. -/
def hasUnsupportedWriteModifiers (extraAmz : StringMap) (rawHeaders : HeaderMap) : Bool :=
  hasUnsupportedHttpConditionals rawHeaders || hasS3StreamingUploadIndicators rawHeaders ||
    extraAmz.any fun h => writeModifyingBase.contains h.1

/-- A request about an upload in parts cannot keep all of its headers. -/
def hasUnsupportedMultipartModifiers (extraAmz : StringMap) (rawHeaders : HeaderMap) : Bool :=
  hasUnsupportedHttpConditionals rawHeaders || hasS3StreamingUploadIndicators rawHeaders ||
    extraAmz.any fun h =>
      writeModifyingBase.contains h.1 || multipartChecksumHeaders.contains h.1

/-- The header for the mode of checksums is not the one that is known. -/
def checksumModeRequiresPassthrough (headers : HeaderMap) : Bool :=
  match headers.getAll (ascii "x-amz-checksum-mode") with
  | [] => false
  | [value] => value.toStr ≠ some (ascii "ENABLED")
  | _ :: _ :: _ => true

/-- A read of an object cannot keep all of its headers. -/
def hasUnsupportedGetModifiers (headers : HeaderMap) : Bool :=
  [ascii "range", ascii "if-match", ascii "if-none-match", ascii "if-modified-since",
      ascii "if-unmodified-since", ascii "x-amz-request-payer",
      ascii "x-amz-expected-bucket-owner"].any (fun name => headers.containsKey name) ||
    checksumModeRequiresPassthrough headers ||
    headers.any fun h =>
      (Text.strip (ascii "x-amz-server-side-encryption-customer-") h.1.bytes).isSome

/-- A listing cannot keep all of its parameters and headers. -/
def hasUnsupportedListModifiers (query : Option Bytes) (headers : HeaderMap) : Bool :=
  (query.any fun q => (q.splitOn 38).any fun pair =>
      let decodedKey := percentDecodeLossy (((pair.splitOn 61).head?).getD [])
      decodedKey = ascii "fetch-owner" || decodedKey = ascii "optional-object-attributes") ||
    headers.containsKey (ascii "x-amz-request-payer") ||
    headers.containsKey (ascii "x-amz-expected-bucket-owner")

end TinyS3Proxy
