import TinyS3Proxy.Auth.Canonical
import TinyS3Proxy.Auth.Verified
import TinyS3Proxy.S3.Parse

/-!
# The header of a signature

The `Authorization` header has the access key of the client with the scope of its signature, the
list of the signed headers and the signature (`auth/sigv4/parser.rs` for keyed hashes,
`auth/sigv4a/parser.rs` for elliptic-curve signatures). The same module has the checks of the time of
a request. Dates are parsed by libraries, and are parameters of the model.
-/

namespace TinyS3Proxy

open Text (Bytes ascii)

/-! ### Dates -/

/-- An instant, with its date. -/
structure Instant where
  date : ℤ
  nanos : ℤ
deriving DecidableEq

/-- How dates are read and written. -/
structure Calendar where
  /-- Reads a date of the form `%Y%m%d`. -/
  parseDate : Bytes → Option ℤ
  /-- Reads an instant of the form `%Y%m%dT%H%M%SZ`. -/
  parseAmzDate : Bytes → Option Instant
  parseHttpDate : Bytes → Option Instant
  formatAmzDate : Instant → Bytes

/-- The `Authorization` header, or what takes its place in a query, is not well formed. -/
def malformed (message : String) (requestId : Bytes) : S3Error :=
  .authorizationHeaderMalformed (ascii message) requestId

/-- The value is there. -/
def required {α : Type} (value : Option α) (message : String) (requestId : Bytes) :
    Except S3Error α :=
  match value with
  | some v => .ok v
  | none => .error (malformed message requestId)

/-- The value of a header as a string. -/
def readableValue (value : HeaderValue) (message : String) (requestId : Bytes) :
    Except S3Error Bytes :=
  required value.toStr message requestId

/-! ### Algorithms -/

def hmacAlgorithm : Bytes := ascii "AWS4-HMAC-SHA256"

def ecdsaAlgorithm : Bytes := ascii "AWS4-ECDSA-P256-SHA256"

/-- What a request is signed with. -/
inductive AuthorizationAlgorithm
  | sigV4HmacSha256
  | sigV4aEcdsaP256Sha256
  | other
deriving DecidableEq

/-- Split a string at its first white space. -/
def splitOnceWhitespace : Bytes → Option (Bytes × Bytes)
  | [] => none
  | b :: bs =>
      match Text.whitespace.findSome? fun w => Text.strip w (b :: bs) with
      | some rest => some ([], rest)
      | none => (splitOnceWhitespace bs).map fun r => (b :: r.1, r.2)

/-- What the algorithm is that the header names. -/
def classifyAuthorizationAlgorithm (headerValue : Bytes) : AuthorizationAlgorithm :=
  match splitOnceWhitespace headerValue with
  | none => .other
  | some (algorithm, _) =>
      if Text.trim algorithm = hmacAlgorithm then .sigV4HmacSha256
      else if Text.trim algorithm = ecdsaAlgorithm then .sigV4aEcdsaP256Sha256
      else .other

/-! ### Parameters -/

/-- The parameters of the header that were read so far. -/
structure AuthorizationParams where
  credential : Option Bytes
  signedHeaders : Option Bytes
  signature : Option Bytes
deriving DecidableEq

/-- A parameter is given once. -/
def fillOnce (slot : Option Bytes) (value : Bytes) (message : String) (requestId : Bytes) :
    Except S3Error (Option Bytes) :=
  if slot.isSome then .error (malformed message requestId) else .ok (some value)

/-- Read a parameter. -/
def readAuthorizationParam (requestId : Bytes) (params : AuthorizationParams) (raw : Bytes) :
    Except S3Error AuthorizationParams :=
  let part := Text.trim raw
  if part = [] then
    .error (malformed "Authorization header contains an empty parameter" requestId)
  else
    match Text.splitOnce eqSign part with
    | none => .error (malformed "Authorization parameter missing '='" requestId)
    | some (key, value) =>
        let k := Text.trim key
        let v := Text.trim value
        if k = ascii "Credential" then do
          let credential ← fillOnce params.credential v
            "Authorization header has duplicate Credential" requestId
          pure { params with credential }
        else if k = ascii "SignedHeaders" then do
          let signedHeaders ← fillOnce params.signedHeaders v
            "Authorization header has duplicate SignedHeaders" requestId
          pure { params with signedHeaders }
        else if k = ascii "Signature" then do
          let signature ← fillOnce params.signature v
            "Authorization header has duplicate Signature" requestId
          pure { params with signature }
        else
          .error (.authorizationHeaderMalformed
            (ascii "Authorization header has unknown parameter '" ++ k ++ ascii "'") requestId)

/-- The values of the parameters of a header for an algorithm. -/
def parseAuthorizationParams (algorithm : Bytes) (unsupported : String)
    (headerValue requestId : Bytes) : Except S3Error (Bytes × Bytes × Bytes) := do
  let (name, params) ← required (splitOnceWhitespace headerValue)
    "Authorization header missing algorithm/params separator" requestId
  if Text.trim name ≠ algorithm then .error (malformed unsupported requestId)
  else do
    let params ← ((Text.trim params).splitOn 44).foldlM (readAuthorizationParam requestId)
      ⟨none, none, none⟩
    let credential ← required params.credential "Authorization header missing Credential" requestId
    let signedHeaders ← required params.signedHeaders
      "Authorization header missing SignedHeaders" requestId
    let signature ← required params.signature "Authorization header missing Signature" requestId
    pure (credential, signedHeaders, signature)

/-! ### Credentials -/

/-- The scope of a signature that is a keyed hash. -/
structure CredentialScope where
  date : ℤ
  dateYyyymmdd : Bytes
  region : Bytes
  service : Bytes
deriving DecidableEq

/-- The scope of an elliptic-curve signature. -/
structure SigV4aCredentialScope where
  date : ℤ
  dateYyyymmdd : Bytes
  service : Bytes
deriving DecidableEq

def CredentialScope.verified (scope : CredentialScope) : VerifiedCredentialScope :=
  .sigV4 scope.dateYyyymmdd scope.region scope.service

def SigV4aCredentialScope.verified (scope : SigV4aCredentialScope) : VerifiedCredentialScope :=
  .sigV4a scope.dateYyyymmdd scope.service

/-- Read an access key with a scope. -/
def parseCredential (cal : Calendar) (value requestId : Bytes) :
    Except S3Error (Bytes × CredentialScope) :=
  match value.splitOn slash with
  | [] => .error (malformed "Credential field missing access-key id" requestId)
  | [_] => .error (malformed "Credential field missing date" requestId)
  | [_, _] => .error (malformed "Credential field missing region" requestId)
  | [_, _, _] => .error (malformed "Credential field missing service" requestId)
  | [_, _, _, _] => .error (malformed "Credential field missing aws4_request suffix" requestId)
  | [akid, date, region, service, suffix] =>
      if akid = [] then .error (malformed "Credential field has empty access-key id" requestId)
      else if region = [] then .error (malformed "Credential field has empty region" requestId)
      else if service ≠ ascii "s3" then
        .error (malformed "Credential field service must be 's3'" requestId)
      else if suffix ≠ ascii "aws4_request" then
        .error (malformed "Credential field must end with /aws4_request" requestId)
      else do
        let parsedDate ← required (cal.parseDate date)
          "Credential field date is not a valid YYYYMMDD value" requestId
        pure (akid, { date := parsedDate, dateYyyymmdd := date, region, service })
  | _ =>
      .error (malformed "Credential field has extra components after aws4_request" requestId)

/-- Read an access key with a scope that has no region. -/
def parseSigV4aCredential (cal : Calendar) (value requestId : Bytes) :
    Except S3Error (Bytes × SigV4aCredentialScope) :=
  match value.splitOn slash with
  | [] => .error (malformed "Credential field missing access-key id" requestId)
  | [_] => .error (malformed "Credential field missing date" requestId)
  | [_, _] => .error (malformed "Credential field missing service" requestId)
  | [_, _, _] => .error (malformed "Credential field missing aws4_request suffix" requestId)
  | [akid, date, service, suffix] =>
      if akid = [] then .error (malformed "Credential field has empty access-key id" requestId)
      else if service ≠ ascii "s3" then
        .error (malformed "SigV4A Credential field service must be 's3'" requestId)
      else if suffix ≠ ascii "aws4_request" then
        .error (malformed "Credential field must end with /aws4_request" requestId)
      else do
        let parsedDate ← required (cal.parseDate date)
          "Credential field date is not a valid YYYYMMDD value" requestId
        pure (akid, { date := parsedDate, dateYyyymmdd := date, service })
  | _ =>
      .error (.authorizationHeaderMalformed
        (ascii ("SigV4A Credential field has extra components after aws4_request " ++
          "(expected <akid>/<yyyymmdd>/s3/aws4_request ") ++ [0xE2, 0x80, 0x94] ++
          ascii " no region)") requestId)

/-! ### Signatures -/

/-- Read a signature that is a keyed hash. -/
def parseSignatureHex (value requestId : Bytes) : Except S3Error Bytes :=
  if value.length ≠ 64 then
    .error (malformed "Signature must be 64 hex characters" requestId)
  else if value.any fun b => 65 ≤ b && b ≤ 90 then
    .error (malformed "Signature hex must be lowercase" requestId)
  else
    required (parseHex32 value) "Signature contains non-hex characters" requestId

/-- What the header says, for a keyed hash. -/
structure SigV4Authorization where
  accessKeyId : Bytes
  scope : CredentialScope
  signedHeaders : List HeaderName
  signature : Bytes
  signatureHex : Bytes
deriving DecidableEq

/-- What the header says, for an elliptic-curve signature. -/
structure SigV4aAuthorization where
  accessKeyId : Bytes
  scope : SigV4aCredentialScope
  signedHeaders : List HeaderName
  signatureDer : Bytes
  signatureHex : Bytes
deriving DecidableEq

/-- Read the header for a keyed hash. -/
def parseAuthorization (cal : Calendar) (headerValue requestId : Bytes) :
    Except S3Error SigV4Authorization := do
  let (credential, signedHeadersRaw, signatureRaw) ← parseAuthorizationParams hmacAlgorithm
    "unsupported signing algorithm; expected AWS4-HMAC-SHA256" headerValue requestId
  let (accessKeyId, scope) ← parseCredential cal credential requestId
  let signedHeaders ← parseSignedHeaders signedHeadersRaw requestId
  let signature ← parseSignatureHex signatureRaw requestId
  pure { accessKeyId, scope, signedHeaders, signature, signatureHex := signatureRaw }

variable {K : Type}

/-- Read an elliptic-curve signature, which stands in the named place. -/
def parseSignatureDer (c : Crypto K) (place : String) (value requestId : Bytes) :
    Except S3Error Bytes :=
  match parseDerSignatureHex c value with
  | .ok der => .ok der
  | .error _ =>
      .error (malformed (place ++ " must be lowercase hex of a DER-encoded ECDSA P-256/SHA-256 " ++
        "signature (even length, <= 144 chars)") requestId)

/-- Read the header for an elliptic-curve signature. -/
def parseSigV4aAuthorization (c : Crypto K) (cal : Calendar) (headerValue requestId : Bytes) :
    Except S3Error SigV4aAuthorization := do
  let (credential, signedHeadersRaw, signatureRaw) ← parseAuthorizationParams ecdsaAlgorithm
    "Authorization header algorithm is not AWS4-ECDSA-P256-SHA256" headerValue requestId
  let (accessKeyId, scope) ← parseSigV4aCredential cal credential requestId
  let signedHeaders ← parseSignedHeaders signedHeadersRaw requestId
  let signatureDer ← parseSignatureDer c "Signature" signatureRaw requestId
  pure { accessKeyId, scope, signedHeaders, signatureDer, signatureHex := signatureRaw }

/-- The region set is there and is signed. -/
def ensureSigV4aRegionSetSigned (headers : HeaderMap) (signedHeaders : List HeaderName)
    (requestId : Bytes) : Except S3Error Unit := do
  let value ← required (headers.get (ascii "x-amz-region-set"))
    "SigV4A requests must include the x-amz-region-set header" requestId
  let raw ← readableValue value "SigV4A x-amz-region-set header is not valid ASCII" requestId
  if Text.trim raw = [] then
    .error (malformed "SigV4A x-amz-region-set header is empty" requestId)
  else if !signedHeaders.any fun n => n.bytes = ascii "x-amz-region-set" then
    .error (malformed "SigV4A SignedHeaders must include x-amz-region-set" requestId)
  else .ok ()

/-! ### Times -/

/-- The time of a request, as it is signed and as it is meant. -/
def resolveRequestTime (cal : Calendar) (headers : HeaderMap) (requestId : Bytes) :
    Except S3Error (Bytes × Instant) :=
  match headers.get (ascii "x-amz-date") with
  | some v => do
      let s ← readableValue v "x-amz-date header value is not valid ASCII" requestId
      let time ← required (cal.parseAmzDate s)
        "x-amz-date header is not in YYYYMMDDTHHMMSSZ format" requestId
      pure (s, time)
  | none =>
      match headers.get (ascii "date") with
      | some v => do
          let s ← readableValue v "Date header value is not valid ASCII" requestId
          let time ← required (cal.parseHttpDate s) "Date header is not a valid HTTP date" requestId
          pure (cal.formatAmzDate time, time)
      | none => .error (malformed "request is missing x-amz-date and Date headers" requestId)

/-- The time of a request is not the one that it is now. -/
def timeTooSkewed (message : String) (requestId : Bytes) : S3Error :=
  .requestTimeTooSkewed (ascii message) requestId

/-- The time of a request is close to what the time is. -/
def enforceSkew (requestTime now : Instant) (maxSkew : ℤ) (requestId : Bytes) :
    Except S3Error Unit :=
  if maxSkew < |now.nanos - requestTime.nanos| then
    .error (timeTooSkewed "request date is outside the configured clock-skew window" requestId)
  else .ok ()

/-- The date of a scope is that of the request. -/
def ensureDateMatches (date : ℤ) (requestTime : Instant) (requestId : Bytes) :
    Except S3Error Unit :=
  if date ≠ requestTime.date then
    .error (malformed "Credential scope date does not match the request timestamp" requestId)
  else .ok ()

end TinyS3Proxy
