import TinyS3Proxy.Auth.Derivation
import TinyS3Proxy.Auth.Presigned

/-!
# Verification of requests

A request is verified by its `Authorization` header or by its query, but not by both, and with a
keyed hash or an elliptic-curve signature (`auth/sigv4/mod.rs`, `auth/sigv4a/mod.rs` and the second
halves of the two modules for presigned requests).
-/

namespace TinyS3Proxy

open Text (Bytes ascii lf)

/-! ### Credentials -/

/-- The credential of a client. -/
structure InboundCredential where
  accessKeyId : Bytes
  secretAccessKey : Bytes
  sessionToken : Option Bytes
  expiresAt : Option Instant
deriving DecidableEq

/-- Why no credential could be looked up. -/
inductive CredentialResolveError
  | expired
  | invalidToken
  | internal
deriving DecidableEq

/-- Looks up the credential of an access key and a token. -/
abbrev InboundCredentialResolver :=
  Bytes → Option Bytes → Instant → Except CredentialResolveError (Option InboundCredential)

/-- The credential of an access key and a token. -/
def resolveCredentialForSigV4 (resolver : InboundCredentialResolver) (accessKeyId : Bytes)
    (sessionToken : Option Bytes) (now : Instant) (requestId : Bytes) :
    Except S3Error InboundCredential :=
  match resolver accessKeyId sessionToken now with
  | .ok (some credential) => .ok credential
  | .ok none => .error (.invalidAccessKeyId (ascii "access-key id is not configured") requestId)
  | .error .expired => .error (.expiredToken (ascii "The provided token has expired.") requestId)
  | .error .invalidToken =>
      .error (.invalidToken
        (ascii "The provided session token is malformed or otherwise invalid.") requestId)
  | .error .internal => .error (.internalError (ascii "credential resolver failed") requestId)

/-- The token of a session that the headers have, which has to be signed. -/
def extractHeaderSessionToken (parts : Parts) (signedHeaders : List HeaderName)
    (requestId : Bytes) : Except S3Error (Option Bytes) :=
  match parts.headers.getAll (ascii "x-amz-security-token") with
  | [] => .ok none
  | _ :: _ :: _ =>
      .error (malformed "request has multiple x-amz-security-token header values" requestId)
  | [first] =>
      if !signedHeaders.any fun n => n.bytes = ascii "x-amz-security-token" then
        .error (malformed "x-amz-security-token header must be listed in SignedHeaders" requestId)
      else do
        let raw ← readableValue first "x-amz-security-token header value is not valid ASCII"
          requestId
        let normalized := trimWs raw
        if normalized = [] then
          .error (malformed "x-amz-security-token header value is empty" requestId)
        else .ok (some normalized)

/-! ### Signatures -/

variable {K : Type}

/-- The key of a keyed hash. -/
def deriveSigningKey (c : Crypto K) (secret dateYyyymmdd region service : Bytes) : Bytes :=
  let kDate := c.hmacSha256 (ascii "AWS4" ++ secret) dateYyyymmdd
  let kRegion := c.hmacSha256 kDate region
  let kService := c.hmacSha256 kRegion service
  c.hmacSha256 kService (ascii "aws4_request")

/-- What is signed: the algorithm, the time, the scope and the hash of the canonical request. -/
def stringToSign (c : Crypto K) (algorithm amzDate scope canonicalRequest : Bytes) : Bytes :=
  algorithm ++ lf :: (amzDate ++ lf :: (scope ++ lf ::
    Text.hexEncode (c.sha256 canonicalRequest)))

def buildStringToSign (c : Crypto K) (scope : CredentialScope) (amzDate canonicalRequest : Bytes) :
    Bytes :=
  stringToSign c hmacAlgorithm amzDate scope.verified.credentialScopeString canonicalRequest

def buildSigV4aStringToSign (c : Crypto K) (scope : SigV4aCredentialScope)
    (amzDate canonicalRequest : Bytes) : Bytes :=
  stringToSign c ecdsaAlgorithm amzDate scope.verified.credentialScopeString canonicalRequest

/-- Verifies requests. -/
structure SigV4Verifier (K : Type) where
  crypto : Crypto K
  calendar : Calendar
  /-- Makes the verifying key of a scalar. -/
  fromSlice : Bytes → Option K
  resolver : InboundCredentialResolver
  maxSkew : ℤ

namespace SigV4Verifier

variable (verifier : SigV4Verifier K)

/-- Compare a keyed hash with the one that is expected, and return its key. -/
def checkHmac (credential : InboundCredential) (scope : CredentialScope)
    (amzDate canonicalRequest signature : Bytes) (mismatch : String) (requestId : Bytes) :
    Except S3Error Bytes :=
  let signingKey := deriveSigningKey verifier.crypto credential.secretAccessKey scope.dateYyyymmdd
    scope.region scope.service
  let expectedHex := Text.hexEncode (verifier.crypto.hmacSha256 signingKey
    (buildStringToSign verifier.crypto scope amzDate canonicalRequest))
  match parseHex32 expectedHex with
  | none =>
      .error (.internalError (ascii "internal error computing expected signature") requestId)
  | some expected =>
      if expected ≠ signature then .error (.signatureDoesNotMatch (ascii mismatch) requestId)
      else .ok signingKey

/-- Verify an elliptic-curve signature, and return its key. -/
def checkEcdsa (accessKeyId : Bytes) (credential : InboundCredential)
    (scope : SigV4aCredentialScope) (amzDate canonicalRequest der : Bytes) (mismatch : String)
    (requestId : Bytes) : Except S3Error K :=
  match deriveSigV4aVerifyingKey verifier.crypto.hmacSha256 verifier.fromSlice accessKeyId
      credential.secretAccessKey with
  | .error _ =>
      .error (.internalError (ascii "internal error deriving SigV4A verifying key") requestId)
  | .ok key =>
      match verifySigV4aDerSignature verifier.crypto key
          (buildSigV4aStringToSign verifier.crypto scope amzDate canonicalRequest) der with
      | .error _ => .error (.signatureDoesNotMatch (ascii mismatch) requestId)
      | .ok () => .ok key

/-! ### The header -/

/-- The value of the `Authorization` header. -/
def authorizationValue (parts : Parts) (requestId : Bytes) : Except S3Error Bytes :=
  match parts.headers.get (ascii "authorization") with
  | none =>
      .error (.missingAuthenticationToken (ascii "request is missing the Authorization header")
        requestId)
  | some value => readableValue value "Authorization header is not valid ASCII" requestId

/-- What the request declares about its body. -/
def payloadOf (parts : Parts) (requestId : Bytes) : Except S3Error PayloadHashForSigning := do
  let header ← required (parts.headers.get (ascii "x-amz-content-sha256"))
    "request is missing x-amz-content-sha256" requestId
  let value ← readableValue header "x-amz-content-sha256 is not valid ASCII" requestId
  classifyPayloadHeader value requestId

/-- Verify a request by its header, with a keyed hash. -/
def verifyAuthorizationHeaderAt (parts : Parts) (requestId : Bytes) (now : Instant) :
    Except S3Error (VerifiedRequest K) := do
  let authStr ← authorizationValue parts requestId
  let auth ← parseAuthorization verifier.calendar authStr requestId
  let (amzDate, requestTime) ← resolveRequestTime verifier.calendar parts.headers requestId
  enforceSkew requestTime now verifier.maxSkew requestId
  ensureDateMatches auth.scope.date requestTime requestId
  let payload ← payloadOf parts requestId
  let sessionToken ← extractHeaderSessionToken parts auth.signedHeaders requestId
  let credential ← resolveCredentialForSigV4 verifier.resolver auth.accessKeyId sessionToken now
    requestId
  let canonical ← buildCanonicalRequestFromSignedHeaders parts auth.signedHeaders payload
    .includeAll requestId
  let key ← verifier.checkHmac credential auth.scope amzDate canonical.canonicalRequest
    auth.signature "computed request signature does not match the supplied signature" requestId
  pure {
    accessKeyId := credential.accessKeyId
    credentialScope := auth.scope.verified
    signedHeaders := auth.signedHeaders
    requestSignatureHex := auth.signatureHex
    signingContext := .hmacSha256 key
    amzDate
    payload }

/-- Verify a request by its header, with an elliptic-curve signature. -/
def verifySigV4aAuthorizationHeaderAt (parts : Parts) (requestId : Bytes) (now : Instant) :
    Except S3Error (VerifiedRequest K) := do
  let authStr ← authorizationValue parts requestId
  let auth ← parseSigV4aAuthorization verifier.crypto verifier.calendar authStr requestId
  let (amzDate, requestTime) ← resolveRequestTime verifier.calendar parts.headers requestId
  enforceSkew requestTime now verifier.maxSkew requestId
  ensureDateMatches auth.scope.date requestTime requestId
  ensureSigV4aRegionSetSigned parts.headers auth.signedHeaders requestId
  let payload ← payloadOf parts requestId
  let sessionToken ← extractHeaderSessionToken parts auth.signedHeaders requestId
  let credential ← resolveCredentialForSigV4 verifier.resolver auth.accessKeyId sessionToken now
    requestId
  let canonical ← buildCanonicalRequestFromSignedHeaders parts auth.signedHeaders payload
    .includeAll requestId
  let key ← verifier.checkEcdsa auth.accessKeyId credential auth.scope amzDate
    canonical.canonicalRequest auth.signatureDer
    "computed SigV4A signature does not match the supplied signature" requestId
  pure {
    accessKeyId := credential.accessKeyId
    credentialScope := auth.scope.verified
    signedHeaders := auth.signedHeaders
    requestSignatureHex := auth.signatureHex
    signingContext := .ecdsaP256 key
    amzDate
    payload }

/-! ### The query -/

/-- Verify a presigned request, with a keyed hash. -/
def verifyPresignedRequest (parts : Parts) (requestId : Bytes) (now : Instant) :
    Except S3Error (VerifiedRequest K) := do
  rejectPresignedAwsChunked parts requestId
  let pres ← parsePresignedAuthorization verifier.calendar (parts.query.getD []) requestId
  ensureDateMatches pres.scope.date pres.requestTime requestId
  enforcePresignedWindow pres.requestTime pres.expires now requestId
  checkPresignedPayloadMarker parts requestId
  let credential ← resolveCredentialForSigV4 verifier.resolver pres.accessKeyId pres.sessionToken
    now requestId
  let canonical ← buildCanonicalRequestFromSignedHeaders parts pres.signedHeaders .unsignedPayload
    .excludePresignedSignature requestId
  let key ← verifier.checkHmac credential pres.scope pres.amzDate canonical.canonicalRequest
    pres.signature "computed request signature does not match the supplied X-Amz-Signature"
    requestId
  pure {
    accessKeyId := credential.accessKeyId
    credentialScope := pres.scope.verified
    signedHeaders := pres.signedHeaders
    requestSignatureHex := pres.signatureHex
    signingContext := .hmacSha256 key
    amzDate := pres.amzDate
    payload := .unsignedPayload }

/-- Verify a presigned request, with an elliptic-curve signature. -/
def verifySigV4aPresignedRequest (parts : Parts) (requestId : Bytes) (now : Instant) :
    Except S3Error (VerifiedRequest K) := do
  rejectPresignedAwsChunked parts requestId
  let pres ← parseSigV4aPresignedAuthorization verifier.crypto verifier.calendar
    (parts.query.getD []) requestId
  ensureDateMatches pres.scope.date pres.requestTime requestId
  enforcePresignedWindow pres.requestTime pres.expires now requestId
  checkPresignedPayloadMarker parts requestId
  let credential ← resolveCredentialForSigV4 verifier.resolver pres.accessKeyId pres.sessionToken
    now requestId
  let canonical ← buildCanonicalRequestFromSignedHeaders parts pres.signedHeaders .unsignedPayload
    .excludePresignedSignature requestId
  let key ← verifier.checkEcdsa pres.accessKeyId credential pres.scope pres.amzDate
    canonical.canonicalRequest pres.signatureDer
    "computed SigV4A signature does not match the supplied X-Amz-Signature" requestId
  pure {
    accessKeyId := credential.accessKeyId
    credentialScope := pres.scope.verified
    signedHeaders := pres.signedHeaders
    requestSignatureHex := pres.signatureHex
    signingContext := .ecdsaP256 key
    amzDate := pres.amzDate
    payload := .unsignedPayload }

/-! ### Dispatch -/

/-- Verify a request by its header or by its query, at a time. -/
def verifyAt (parts : Parts) (requestId : Bytes) (now : Instant) :
    Except S3Error (VerifiedRequest K) :=
  let hasQueryAuth := hasPresignedSignatureQuery (parts.query.getD [])
  let hasHeaderAuth := parts.headers.containsKey (ascii "authorization")
  match hasHeaderAuth, hasQueryAuth with
  | true, true =>
      .error (.invalidRequest (ascii ("Only one auth mechanism is allowed; use either the " ++
        "Authorization header or X-Amz-* query authentication, not both")) requestId)
  | false, true =>
      if classifyPresignedAlgorithm (parts.query.getD []) = some .sigV4aEcdsaP256Sha256 then
        verifier.verifySigV4aPresignedRequest parts requestId now
      else verifier.verifyPresignedRequest parts requestId now
  | true, false =>
      let raw := ((parts.headers.get (ascii "authorization")).bind HeaderValue.toStr).getD []
      if classifyAuthorizationAlgorithm raw = .sigV4aEcdsaP256Sha256 then
        verifier.verifySigV4aAuthorizationHeaderAt parts requestId now
      else verifier.verifyAuthorizationHeaderAt parts requestId now
  | false, false =>
      .error (.missingAuthenticationToken (ascii ("request is missing the Authorization header " ++
        "or X-Amz-Signature query parameter")) requestId)

end SigV4Verifier

end TinyS3Proxy
