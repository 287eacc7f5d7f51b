import TinyS3Proxy.Handlers.Decode
import TinyS3Proxy.Handlers.Sending

/-!
# Dispatch

A request is checked and then handled by its operation (`handlers/mod.rs`): it is passed through, or
one of the typed operations of the backend is called. What is modelled is which of these is done, and
with what.
-/

namespace TinyS3Proxy

open Text (Bytes Reader XmlEvent ascii)
open Effect (exists_of_bind_eq_ok)

/-- What the handlers of requests use besides the state of the proxy. -/
structure Services (K : Type) where
  crypto : Crypto K
  /-- Verifies the signature of a request, in strict mode. -/
  inboundSigv4 : Option (Parts → Bytes → Except S3Error (VerifiedRequest K))
  /-- Checks the access of a request, in the other modes. -/
  checkAccess : ParsedRequest → Except S3Error Unit
  spool : Spool
  maxRequestBodyBytes : ℕ
  backendEndpointIsHttps : Bool
  /-- Reads XML up to its end. -/
  readXml : Bytes → List XmlEvent

/-- What is done for a request. -/
inductive Dispatched
  | passthrough (request : UpstreamRequest) (body : RequestBody)
  | handleGet (key : Bytes)
  | handleHead (key : Bytes)
  | handleList (params : ListParams) (isV2 : Bool)
  | putObject (input : PutObjectInput)
  | putObjectFromPath (input : PutObjectSpoolInput)
  | deleteObject (input : DeleteObjectInput)
  | createMultipartUpload (input : CreateMultipartUploadInput)
  | uploadPart (input : UploadPartInput)
  | uploadPartFromPath (input : UploadPartSpoolInput)
  | completeMultipartUpload (input : CompleteMultipartInput)
  | abortMultipartUpload (input : AbortMultipartUploadInput)
deriving DecidableEq

/-- The headers that are put on the request to the backend, besides those of libraries. -/
def Dispatched.headers : Dispatched → List (Bytes × Bytes)
  | passthrough request _ => sentHeaders request.headers
  | putObject input => input.headers
  | putObjectFromPath input => input.headers
  | createMultipartUpload input => input.headers
  | uploadPart input => input.headers
  | uploadPartFromPath input => input.headers
  | _ => []

/-! ### Checks -/

/-- The methods that S3 has. -/
def s3Methods : List Bytes :=
  [ascii "GET", ascii "HEAD", ascii "PUT", ascii "POST", ascii "DELETE"]

/-- Reject methods that S3 does not have. -/
def checkMethod (parts : Parts) (requestId : Bytes) : Except S3Error Unit :=
  if !s3Methods.contains parts.method then
    .error (.unsupportedOperation (parts.method ++ ascii " " ++ parts.path) requestId)
  else .ok ()

/-- Reject bodies of a negative length. -/
def checkContentLength (parts : Parts) (requestId : Bytes) : Except S3Error Unit :=
  match (headerStr parts.headers (ascii "content-length")).bind (Text.fromStrSigned 64) with
  | none => .ok ()
  | some n =>
      if n < 0 then
        .error (.invalidRequest (ascii "invalid request: Content-Length must not be negative")
          requestId)
      else .ok ()

variable {K : Type}

/-- Verify the request, or check its access. -/
def authenticate (services : Services K) (parts : Parts) (parsed : ParsedRequest) :
    Except S3Error (Option (VerifiedRequest K)) :=
  match services.inboundSigv4 with
  | some verify => (verify parts parsed.requestId).map some
  | none => (services.checkAccess parsed).map fun _ => none

/-- The body as it is read. -/
def RequestBody.ofReader (body : Reader) : RequestBody := ⟨body.bytes, body.failing⟩

/-- Read the whole body. -/
def readBody (services : Services K) (body : Reader) (requestId : Bytes) : Except S3Error Bytes :=
  (RequestBody.ofReader body).toBytes services.maxRequestBodyBytes requestId

/-- The hash of the body is the one that was signed. -/
def verifyPayloadHash (c : Crypto K) (verified : VerifiedRequest K) (bytes requestId : Bytes) :
    Except S3Error Unit :=
  match verified.payload with
  | .signedSha256 hash =>
      if Text.hexEncode (c.sha256 bytes) ≠ hash.hex then
        .error (.signatureDoesNotMatch (ascii "x-amz-content-sha256 mismatch with actual body")
          requestId)
      else .ok ()
  | _ => .ok ()

/-- Compare the body with its hash, if that was signed. -/
def checkPayload (services : Services K) (verified : Option (VerifiedRequest K)) (body : Reader)
    (requestId : Bytes) : Except S3Error Reader :=
  match verified with
  | none => .ok body
  | some v =>
      if v.payload.requiresBodyBytes then do
        let bytes ← readBody services body requestId
        verifyPayloadHash services.crypto v bytes requestId
        .ok ⟨[bytes], false⟩
      else .ok body

/-- Reject bodies whose chunks are signed and will not be decoded. -/
def enforceSignedStreamingDecodeRoute (verified : Option (VerifiedRequest K))
    (route : WriteBodyRoute) (requestId : Bytes) : Except S3Error Unit :=
  match verified with
  | none => .ok ()
  | some v =>
      if !v.payload.isSignedStreaming then .ok ()
      else
        match route with
        | .decodeAwsChunked | .rejectUnsupportedSignature => .ok ()
        | .typed | .passthrough =>
            .error (.unsupportedSignature (ascii ("strict-mode signed aws-chunked upload could " ++
              "not be routed to the chunk-verifying decoder; the wire-format shape (e.g. " ++
              "unsupported x-amz-trailer algorithm, or a sentinel/trailer combination this proxy " ++
              "does not model) is unsupported")) requestId)

/-- Reject a request for the kind of its signature. -/
def rejectUnsupportedSignature (requestId : Bytes) : S3Error :=
  .unsupportedSignature (ascii ("aws-chunked streaming upload uses a signature algorithm this " ++
    "proxy does not support")) requestId

/-! ### Handlers -/

/-- The resource that a key names at the proxy. -/
def objectResource (state : AppState) (key : Bytes) : Bytes :=
  ascii "/" ++ state.frontendBucket ++ ascii "/" ++ key

/-- Store an object. -/
def handlePut (services : Services K) (state : AppState) (parsed : ParsedRequest) (key : Bytes)
    (body : Reader) : Except S3Error Dispatched := do
  let bytes ← readBody services body parsed.requestId
  .ok (.putObject
    { bucket := state.backendBucket
      key
      body := bytes
      contentType := parsed.contentType
      contentMd5 := parsed.contentMd5
      metadata := parsed.userMetadata
      extraAmzHeaders := parsed.extraAmzHeaders
      contentHeaders := parsed.contentHeaders })

/-- Bodies that are not signed are not sent in the clear. -/
def requireHttpsForUnsignedPayload (services : Services K) (state : AppState)
    (parsed : ParsedRequest) (key : Bytes) : Except S3Error Unit :=
  if services.backendEndpointIsHttps then .ok ()
  else
    .error
      { S3Error.internalError (ascii "An internal error occurred.") parsed.requestId with
        resource := some (objectResource state key) }

/-- Decode an object and store it. -/
def handlePutDecodeAwsChunked (services : Services K) (state : AppState) (parsed : ParsedRequest)
    (key : Bytes) (rawHeaders : HeaderMap) (verified : Option (VerifiedRequest K)) (body : Reader) :
    Except S3Error Dispatched := do
  let (bytes, summary) ← decodeBody services.crypto services.spool services.maxRequestBodyBytes
    parsed rawHeaders verified services.inboundSigv4.isSome body
  requireHttpsForUnsignedPayload services state parsed key
  .ok (.putObjectFromPath
    { bucket := state.backendBucket
      key
      body := bytes
      len := summary.decodedLen
      sha256Hex := summary.sha256Hex
      contentType := parsed.contentType
      contentMd5 := parsed.contentMd5
      metadata := parsed.userMetadata
      extraAmzHeaders := extraAmzHeadersForDecoded parsed
      contentHeaders := contentHeadersForDecoded parsed
      checksum := summary.trailer })

/-- Start an upload in parts. -/
def handleCreateMultipart (state : AppState) (parsed : ParsedRequest) (key : Bytes) : Dispatched :=
  .createMultipartUpload
    { bucket := state.backendBucket
      key
      contentType := parsed.contentType
      metadata := parsed.userMetadata
      contentHeaders := parsed.contentHeaders }

/-- Reject parts with numbers that parts do not have. -/
def checkPartNumber (partNumber : ℤ) (requestId : Bytes) : Except S3Error Unit :=
  if 1 ≤ partNumber ∧ partNumber ≤ 10000 then .ok ()
  else
    .error (.invalidArgument
      (ascii "Part number must be between 1 and 10000, got " ++ ascii (toString partNumber))
      requestId)

/-- Store a part of an object. -/
def handleUploadPart (services : Services K) (state : AppState) (parsed : ParsedRequest)
    (key : Bytes) (partNumber : ℤ) (uploadId : Bytes) (body : Reader) :
    Except S3Error Dispatched := do
  checkPartNumber partNumber parsed.requestId
  let bytes ← readBody services body parsed.requestId
  .ok (.uploadPart
    { bucket := state.backendBucket
      key
      uploadId
      partNumber
      body := bytes
      contentMd5 := parsed.contentMd5 })

/-- Decode a part of an object and store it. -/
def handleUploadPartDecodeAwsChunked (services : Services K) (state : AppState)
    (parsed : ParsedRequest) (key : Bytes) (partNumber : ℤ) (uploadId : Bytes)
    (rawHeaders : HeaderMap) (verified : Option (VerifiedRequest K)) (body : Reader) :
    Except S3Error Dispatched := do
  checkPartNumber partNumber parsed.requestId
  let (bytes, summary) ← decodeBody services.crypto services.spool services.maxRequestBodyBytes
    parsed rawHeaders verified services.inboundSigv4.isSome body
  requireHttpsForUnsignedPayload services state parsed key
  .ok (.uploadPartFromPath
    { bucket := state.backendBucket
      key
      uploadId
      partNumber
      body := bytes
      len := summary.decodedLen
      sha256Hex := summary.sha256Hex
      contentMd5 := parsed.contentMd5
      extraAmzHeaders := extraAmzHeadersForDecoded parsed
      checksum := summary.trailer })

/-- The names of the elements for the checksums of parts. -/
def checksumElementNames : List Bytes :=
  [ascii "ChecksumCRC32", ascii "ChecksumCRC32C", ascii "ChecksumCRC64NVME", ascii "ChecksumSHA1",
    ascii "ChecksumSHA256"]

/-- The name of an element without the prefix for its name space. -/
def localName (name : Bytes) : Bytes := ((Text.splitOnce 58 name).map Prod.snd).getD name

/-- There are checksums of parts, before the first error. -/
def bodyHasChecksumElements (events : List XmlEvent) : Bool :=
  (events.takeWhile (· ≠ .error)).any fun
    | .start name => checksumElementNames.contains (localName name)
    | .empty name => checksumElementNames.contains (localName name)
    | _ => false

/-- Complete an upload in parts. -/
def handleCompleteMultipart (services : Services K) (state : AppState) (parsed : ParsedRequest)
    (key uploadId bodyBytes : Bytes) : Except S3Error Dispatched :=
  match parseCompleteMultipartBody (services.readXml bodyBytes) with
  | .error e =>
      .error (.malformedXml
        (ascii "failed to parse CompleteMultipartUpload XML: " ++ e.message) parsed.requestId)
  | .ok parts =>
      .ok (.completeMultipartUpload { bucket := state.backendBucket, key, uploadId, parts })

/-! ### Dispatch -/

/-- Pass a request through with its body. -/
def passThrough (state : AppState) (parts : Parts) (body : Reader) : Dispatched :=
  .passthrough (routeToPassthrough state parts) (.ofReader body)

/-- Handle a request that was checked, by its operation. -/
def dispatch (services : Services K) (state : AppState) (parts : Parts) (parsed : ParsedRequest)
    (verified : Option (VerifiedRequest K)) (body : Reader) : Except S3Error Dispatched :=
  match parsed.operation with
  | .unsupported _ _ => .ok (passThrough state parts body)
  | .getObject _ key =>
      if hasUnsupportedGetModifiers parts.headers then .ok (passThrough state parts body)
      else .ok (.handleGet key)
  | .headObject _ key =>
      if hasUnsupportedGetModifiers parts.headers then .ok (passThrough state parts body)
      else .ok (.handleHead key)
  | .putObject _ key => do
      let route := classifyPutBodyRoute parsed.extraAmzHeaders parts.headers
      enforceSignedStreamingDecodeRoute verified route parsed.requestId
      match route with
      | .typed => handlePut services state parsed key body
      | .decodeAwsChunked =>
          handlePutDecodeAwsChunked services state parsed key parts.headers verified body
      | .passthrough => .ok (passThrough state parts body)
      | .rejectUnsupportedSignature => .error (rejectUnsupportedSignature parsed.requestId)
  | .deleteObject _ key =>
      if hasUnsupportedWriteModifiers parsed.extraAmzHeaders parts.headers then
        .ok (passThrough state parts body)
      else .ok (.deleteObject { bucket := state.backendBucket, key })
  | .listObjectsV1 _ params =>
      if hasUnsupportedListModifiers parts.query parts.headers then
        .ok (passThrough state parts body)
      else .ok (.handleList params false)
  | .listObjectsV2 _ params =>
      if hasUnsupportedListModifiers parts.query parts.headers then
        .ok (passThrough state parts body)
      else .ok (.handleList params true)
  | .createMultipartUpload _ key =>
      if hasUnsupportedMultipartModifiers parsed.extraAmzHeaders parts.headers then
        .ok (passThrough state parts body)
      else .ok (handleCreateMultipart state parsed key)
  | .uploadPart _ key partNumber uploadId => do
      let route := classifyUploadPartBodyRoute parsed.extraAmzHeaders parts.headers
      enforceSignedStreamingDecodeRoute verified route parsed.requestId
      match route with
      | .typed => handleUploadPart services state parsed key partNumber uploadId body
      | .decodeAwsChunked =>
          handleUploadPartDecodeAwsChunked services state parsed key partNumber uploadId
            parts.headers verified body
      | .passthrough => .ok (passThrough state parts body)
      | .rejectUnsupportedSignature => .error (rejectUnsupportedSignature parsed.requestId)
  | .completeMultipartUpload _ key uploadId =>
      if hasUnsupportedMultipartModifiers parsed.extraAmzHeaders parts.headers then
        .ok (passThrough state parts body)
      else do
        let bodyBytes ← readBody services body parsed.requestId
        if bodyHasChecksumElements (services.readXml bodyBytes) then
          .ok (passThrough state parts ⟨[bodyBytes], false⟩)
        else handleCompleteMultipart services state parsed key uploadId bodyBytes
  | .abortMultipartUpload _ key uploadId =>
      if hasUnsupportedMultipartModifiers parsed.extraAmzHeaders parts.headers then
        .ok (passThrough state parts body)
      else .ok (.abortMultipartUpload { bucket := state.backendBucket, key, uploadId })

/-- Handle a request. The identifier is the one that is generated for it. -/
def handleS3Request (services : Services K) (state : AppState) (parts : Parts) (body : Reader)
    (requestId : Bytes) : Except S3Error Dispatched := do
  let parsed := parseRequest parts requestId
  checkMethod parts requestId
  checkContentLength parts requestId
  let verified ← authenticate services parts parsed
  checkBucket state parsed
  let body ← checkPayload services verified body requestId
  dispatch services state parts parsed verified body

/-! ### Admission -/

/-- A request is admitted if it passes all checks. What is then dispatched is the request as it was
verified, with the body as it was read. -/
structure Admitted (services : Services K) (state : AppState) (parts : Parts) (body : Reader)
    (requestId : Bytes) (verified : Option (VerifiedRequest K)) (body' : Reader) : Prop where
  method : checkMethod parts requestId = .ok ()
  contentLength : checkContentLength parts requestId = .ok ()
  authenticated : authenticate services parts (parseRequest parts requestId) = .ok verified
  bucket : checkBucket state (parseRequest parts requestId) = .ok ()
  payload : checkPayload services verified body requestId = .ok body'

/-- What is handled was admitted and then dispatched. -/
theorem admitted_of_handleS3Request
    {services : Services K} {state : AppState} {parts : Parts} {body : Reader} {requestId : Bytes}
    {d : Dispatched} (h : handleS3Request services state parts body requestId = .ok d) :
  ∃ verified body', Admitted services state parts body requestId verified body' ∧
    dispatch services state parts (parseRequest parts requestId) verified body' = .ok d
  := by
  obtain ⟨⟨⟩, hmethod, h⟩ := exists_of_bind_eq_ok h
  obtain ⟨⟨⟩, hlength, h⟩ := exists_of_bind_eq_ok h
  obtain ⟨verified, hverified, h⟩ := exists_of_bind_eq_ok h
  obtain ⟨⟨⟩, hbucket, h⟩ := exists_of_bind_eq_ok h
  obtain ⟨body', hbody, h⟩ := exists_of_bind_eq_ok h
  use verified, body'
  exact ⟨⟨hmethod, hlength, hverified, hbucket, hbody⟩, h⟩

end TinyS3Proxy
