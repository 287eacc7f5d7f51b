import TinyS3Proxy.Auth.Authorization

/-!
# Presigned requests

The signature of a presigned request is in its query (`auth/sigv4/presigned.rs` for keyed hashes,
`auth/sigv4a/presigned.rs` for elliptic-curve signatures). The parameters that make up the signature
are known by their names in any case, and have to be written in one case and given once.
-/

namespace TinyS3Proxy

open Text (Bytes ascii)

/-! ### Names -/

/-- The names of the parameters for a keyed hash. -/
def presignedAuthNames : List Bytes :=
  [ascii "X-Amz-Algorithm", ascii "X-Amz-Credential", ascii "X-Amz-Date", ascii "X-Amz-Expires",
    ascii "X-Amz-SignedHeaders", ascii "X-Amz-Signature", ascii "X-Amz-Security-Token",
    ascii "X-Amz-Content-Sha256"]

/-- The names of the parameters for an elliptic-curve signature. -/
def sigV4aPresignedAuthNames : List Bytes :=
  [ascii "X-Amz-Algorithm", ascii "X-Amz-Credential", ascii "X-Amz-Date", ascii "X-Amz-Expires",
    ascii "X-Amz-SignedHeaders", ascii "X-Amz-Signature", ascii "X-Amz-Security-Token",
    ascii "X-Amz-Region-Set", ascii "X-Amz-Content-Sha256"]

/-- The name that a key is, up to the case of its letters. -/
def classifyPresignedAuthKey (names : List Bytes) (decodedKey : Bytes) : Option Bytes :=
  names.find? fun name => Text.eqIgnoreCase name decodedKey

/-- The query has a parameter for a signature, in any case. -/
def hasPresignedSignatureQuery (rawQuery : Bytes) : Bool :=
  (Text.nonemptyFields amp rawQuery).any fun chunk =>
    let rawK := ((Text.splitOnce eqSign chunk).map Prod.fst).getD chunk
    Text.eqIgnoreCase rawK (ascii "X-Amz-Signature") ||
      Text.eqIgnoreCase (percentDecodeForQuery rawK) (ascii "X-Amz-Signature")

/-- What the algorithm is that the query names. -/
def classifyPresignedAlgorithm (rawQuery : Bytes) : Option AuthorizationAlgorithm :=
  let isAlgorithm := fun chunk : Bytes =>
    let rawK := ((Text.splitOnce eqSign chunk).map Prod.fst).getD chunk
    Text.eqIgnoreCase rawK (ascii "X-Amz-Algorithm") ||
      Text.eqIgnoreCase (percentDecodeForQuery rawK) (ascii "X-Amz-Algorithm")
  ((Text.nonemptyFields amp rawQuery).find? isAlgorithm).map fun chunk =>
    let value := (decodeParameter chunk).2
    if value = hmacAlgorithm then .sigV4HmacSha256
    else if value = ecdsaAlgorithm then .sigV4aEcdsaP256Sha256
    else .other

/-! ### Parameters -/

/-- The values of the parameters that were read so far. -/
abbrev PresignedSlots := List (Bytes × Bytes)

/-- An error about one of the parameters. -/
def malformedField (before name after requestId : Bytes) : S3Error :=
  .authorizationHeaderMalformed (before ++ name ++ after) requestId

/-- The parameter is not written in the case that it has to be. -/
def miscasedField (name requestId : Bytes) : S3Error :=
  malformedField (ascii "presigned auth parameter ") name
    (ascii " must be sent with the AWS canonical casing") requestId

/-- Store the value of a parameter that has to be a string. -/
def fillPresignedSlot (slots : PresignedSlots) (name value requestId : Bytes) :
    Except S3Error PresignedSlots :=
  if (slots.lookup name).isSome then
    .error (malformedField (ascii "presigned auth has duplicate ") name [] requestId)
  else .ok (slots ++ [(name, value)])

/-- Store the token of a session. -/
def readSecurityToken (slots : PresignedSlots) (name value requestId : Bytes) :
    Except S3Error PresignedSlots :=
  if (slots.lookup name).isSome then
    .error (malformed "presigned auth has duplicate X-Amz-Security-Token" requestId)
  else if !Text.validUtf8 value then
    .error (malformed "presigned auth field X-Amz-Security-Token is not valid UTF-8" requestId)
  else if value = [] then
    .error (malformed "presigned auth field X-Amz-Security-Token is empty" requestId)
  else if value.any fun b => 0x80 ≤ b then
    .error (malformed "presigned auth field X-Amz-Security-Token is not valid ASCII" requestId)
  else .ok (slots ++ [(name, value)])

/-- Read a parameter of a query, for a keyed hash. -/
def readPresignedField (requestId : Bytes) (slots : PresignedSlots) (chunk : Bytes) :
    Except S3Error PresignedSlots :=
  let (key, value) := decodeParameter chunk
  if !Text.validUtf8 key then .ok slots
  else
    match classifyPresignedAuthKey presignedAuthNames key with
    | none => .ok slots
    | some name =>
        if key ≠ name then .error (miscasedField name requestId)
        else if name = ascii "X-Amz-Content-Sha256" then .ok slots
        else if name = ascii "X-Amz-Security-Token" then
          readSecurityToken slots name value requestId
        else if !Text.validUtf8 value then
          .error (malformedField (ascii "presigned auth field ") name (ascii " is not valid UTF-8")
            requestId)
        else if value.any fun b => 0x80 ≤ b then
          .error (malformedField (ascii "presigned auth field ") name
            (ascii " contains non-ASCII bytes") requestId)
        else fillPresignedSlot slots name value requestId

/-- Read a parameter of a query, for an elliptic-curve signature. -/
def readSigV4aPresignedField (requestId : Bytes) (slots : PresignedSlots) (chunk : Bytes) :
    Except S3Error PresignedSlots :=
  let (key, value) := decodeParameter chunk
  if !Text.validUtf8 key then .ok slots
  else
    match classifyPresignedAuthKey sigV4aPresignedAuthNames key with
    | none => .ok slots
    | some name =>
        if key ≠ name then .error (miscasedField name requestId)
        else if name = ascii "X-Amz-Content-Sha256" then .ok slots
        else if !Text.validUtf8 value then
          .error (malformedField (ascii "presigned auth field ") name (ascii " is not valid UTF-8")
            requestId)
        else if value = [] ∧ name ≠ ascii "X-Amz-Region-Set" then
          .error (malformedField (ascii "presigned auth field ") name (ascii " is empty") requestId)
        else if value.any fun b => 0x80 ≤ b then
          .error (malformedField (ascii "presigned auth field ") name
            (ascii " contains non-ASCII bytes") requestId)
        else fillPresignedSlot slots name value requestId

/-- The value of a parameter that has to be there. -/
def requiredField (slots : PresignedSlots) (name : String) (requestId : Bytes) :
    Except S3Error Bytes :=
  required (slots.lookup (ascii name)) ("presigned auth missing " ++ name) requestId

/-- The longest time for which a presigned request is valid, in seconds. -/
def maxPresignedExpiresSecs : ℕ := 604800

/-- Read for how many seconds a request is valid. -/
def parseExpires (value requestId : Bytes) : Except S3Error ℕ :=
  if value = [] ∨ !value.all (fun b => 48 ≤ b && b ≤ 57) then
    .error (malformed "presigned auth X-Amz-Expires must be a decimal integer" requestId)
  else do
    let secs ← required (Text.fromStrUnsigned 64 value)
      "presigned auth X-Amz-Expires is out of range" requestId
    if secs = 0 ∨ maxPresignedExpiresSecs < secs then
      .error (malformed "presigned auth X-Amz-Expires must be in 1..=604800" requestId)
    else .ok secs

/-! ### Authorizations -/

/-- What a query says, for a keyed hash. -/
structure PresignedAuthorization where
  accessKeyId : Bytes
  scope : CredentialScope
  signedHeaders : List HeaderName
  signature : Bytes
  signatureHex : Bytes
  amzDate : Bytes
  requestTime : Instant
  expires : ℕ
  sessionToken : Option Bytes
deriving DecidableEq

/-- What a query says, for an elliptic-curve signature. -/
structure SigV4aPresignedAuthorization where
  accessKeyId : Bytes
  scope : SigV4aCredentialScope
  signedHeaders : List HeaderName
  signatureDer : Bytes
  signatureHex : Bytes
  amzDate : Bytes
  requestTime : Instant
  expires : ℕ
  sessionToken : Option Bytes
  regionSet : Bytes
deriving DecidableEq

/-- The query names the algorithm. -/
def checkPresignedAlgorithm (slots : PresignedSlots) (algorithm : Bytes) (unsupported : String)
    (requestId : Bytes) : Except S3Error Unit := do
  let value ← requiredField slots "X-Amz-Algorithm" requestId
  if value ≠ algorithm then .error (malformed unsupported requestId) else .ok ()

/-- Read the signature of a query, for a keyed hash. -/
def parsePresignedAuthorization (cal : Calendar) (rawQuery requestId : Bytes) :
    Except S3Error PresignedAuthorization := do
  let slots ← (Text.nonemptyFields amp rawQuery).foldlM (readPresignedField requestId) []
  checkPresignedAlgorithm slots hmacAlgorithm
    "presigned auth X-Amz-Algorithm must be AWS4-HMAC-SHA256" requestId
  let credentialV ← requiredField slots "X-Amz-Credential" requestId
  let amzDate ← requiredField slots "X-Amz-Date" requestId
  let expiresV ← requiredField slots "X-Amz-Expires" requestId
  let signedHeadersV ← requiredField slots "X-Amz-SignedHeaders" requestId
  let signatureHex ← requiredField slots "X-Amz-Signature" requestId
  let (accessKeyId, scope) ← parseCredential cal credentialV requestId
  let signedHeaders ← parseSignedHeaders signedHeadersV requestId
  let signature ← parseSignatureHex signatureHex requestId
  let requestTime ← required (cal.parseAmzDate amzDate)
    "presigned auth X-Amz-Date is not in YYYYMMDDTHHMMSSZ format" requestId
  let expires ← parseExpires expiresV requestId
  pure {
    accessKeyId
    scope
    signedHeaders
    signature
    signatureHex
    amzDate
    requestTime
    expires
    sessionToken := slots.lookup (ascii "X-Amz-Security-Token") }

variable {K : Type}

/-- Read the signature of a query, for an elliptic-curve signature. -/
def parseSigV4aPresignedAuthorization (c : Crypto K) (cal : Calendar) (rawQuery requestId : Bytes) :
    Except S3Error SigV4aPresignedAuthorization := do
  let slots ← (Text.nonemptyFields amp rawQuery).foldlM (readSigV4aPresignedField requestId) []
  checkPresignedAlgorithm slots ecdsaAlgorithm
    "presigned auth X-Amz-Algorithm must be AWS4-ECDSA-P256-SHA256" requestId
  let credentialV ← requiredField slots "X-Amz-Credential" requestId
  let amzDate ← requiredField slots "X-Amz-Date" requestId
  let expiresV ← requiredField slots "X-Amz-Expires" requestId
  let signedHeadersV ← requiredField slots "X-Amz-SignedHeaders" requestId
  let signatureHex ← requiredField slots "X-Amz-Signature" requestId
  let regionSet ← required (slots.lookup (ascii "X-Amz-Region-Set"))
    "SigV4A presigned auth missing X-Amz-Region-Set" requestId
  if regionSet = [] then
    .error (malformed "SigV4A presigned auth X-Amz-Region-Set is empty" requestId)
  else do
    let (accessKeyId, scope) ← parseSigV4aCredential cal credentialV requestId
    let signedHeaders ← parseSignedHeaders signedHeadersV requestId
    let signatureDer ← parseSignatureDer c "X-Amz-Signature" signatureHex requestId
    let requestTime ← required (cal.parseAmzDate amzDate)
      "presigned auth X-Amz-Date is not in YYYYMMDDTHHMMSSZ format" requestId
    let expires ← parseExpires expiresV requestId
    pure {
      accessKeyId
      scope
      signedHeaders
      signatureDer
      signatureHex
      amzDate
      requestTime
      expires
      sessionToken := slots.lookup (ascii "X-Amz-Security-Token")
      regionSet }

/-! ### Checks -/

/-- The request was signed, and its signature has not expired. -/
def enforcePresignedWindow (requestTime : Instant) (expires : ℕ) (now : Instant)
    (requestId : Bytes) : Except S3Error Unit :=
  if now.nanos < requestTime.nanos ∨ requestTime.nanos + expires * 10 ^ 9 < now.nanos then
    .error (timeTooSkewed "presigned URL is outside its validity window" requestId)
  else .ok ()

/-- The start of what is declared about a body in chunks. -/
def streamingPrefix : Bytes := ascii "STREAMING-"

/-- A presigned request with a body in chunks is not accepted. -/
def presignedStreaming (requestId : Bytes) : S3Error :=
  .unsupportedSignature (ascii ("presigned aws-chunked streaming uploads are not supported in " ++
    "strict mode; tracked in PR 5 of issue #63")) requestId

/-- What is declared about the body in the query. -/
def queryPayloadMarkers (rawQuery : Bytes) : List Bytes :=
  ((decodedPairs rawQuery).filter fun p => p.1 = ascii "X-Amz-Content-Sha256").map Prod.snd

/-- The value of a header has the coding for chunks. -/
def namesAwsChunked (value : HeaderValue) : Bool :=
  value.toStr.any fun s =>
    (s.splitOn 44).any fun t => Text.eqIgnoreCase (Text.trim t) (ascii "aws-chunked")

/-- Reject presigned requests with a body in chunks. -/
def rejectPresignedAwsChunked (parts : Parts) (requestId : Bytes) : Except S3Error Unit :=
  if parts.headers.containsKey (ascii "x-amz-decoded-content-length") ||
      parts.headers.containsKey (ascii "x-amz-trailer") then
    .error (presignedStreaming requestId)
  else if (parts.headers.getAll (ascii "content-encoding")).any namesAwsChunked then
    .error (presignedStreaming requestId)
  else if ((parts.headers.get (ascii "x-amz-content-sha256")).bind HeaderValue.toStr).any
      fun s => streamingPrefix.isPrefixOf s then
    .error (presignedStreaming requestId)
  else if (queryPayloadMarkers (parts.query.getD [])).any fun v => streamingPrefix.isPrefixOf v then
    .error (presignedStreaming requestId)
  else .ok ()

/-- The value is a hash in hexadecimal form. -/
def isHexDigest (s : Bytes) : Bool := s.length = 64 && s.all Text.isHexDigit

/-- A presigned request does not have a hash of its body. -/
def presignedDigest (requestId : Bytes) : S3Error :=
  .invalidRequest (ascii "presigned URLs with signed payload hashes are not supported") requestId

/-- Reject a declaration that is about a body in chunks or about a hash. -/
def scanPayloadMarker (requestId marker : Bytes) : Except S3Error Unit :=
  if !Text.validUtf8 marker then .ok ()
  else if streamingPrefix.isPrefixOf marker then .error (presignedStreaming requestId)
  else if isHexDigest marker then .error (presignedDigest requestId)
  else .ok ()

/-- The declaration is that the body is not signed. -/
def classifyPresignedPayloadMarker (marker requestId : Bytes) : Except S3Error Unit :=
  if !Text.validUtf8 marker then
    .error (malformed "x-amz-content-sha256 is not valid UTF-8" requestId)
  else if marker = ascii "UNSIGNED-PAYLOAD" then .ok ()
  else if streamingPrefix.isPrefixOf marker then .error (presignedStreaming requestId)
  else if isHexDigest marker then .error (presignedDigest requestId)
  else
    .error (malformed "presigned URL x-amz-content-sha256 must be UNSIGNED-PAYLOAD" requestId)

/-- All declarations about the body, in the headers and in the query, are that it is not signed. -/
def checkPresignedPayloadMarker (parts : Parts) (requestId : Bytes) : Except S3Error Unit :=
  let markers := (parts.headers.getAll (ascii "x-amz-content-sha256")).map HeaderValue.bytes ++
    queryPayloadMarkers (parts.query.getD [])
  match markers with
  | [] => .ok ()
  | first :: _ => do
      markers.forM (scanPayloadMarker requestId)
      if markers.any fun m => m ≠ first then
        .error (.invalidRequest
          (ascii "presigned URL x-amz-content-sha256 header / query markers disagree") requestId)
      else classifyPresignedPayloadMarker first requestId

end TinyS3Proxy
