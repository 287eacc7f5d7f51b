import TinyS3Proxy.Auth.Payload
import TinyS3Proxy.Http.Headers
import TinyS3Proxy.Text.Fields
import TinyS3Proxy.Text.Percent

/-!
# Canonical requests

The canonical request is the string that a signature of a request covers
(`auth/sigv4/canonical.rs`): the method, the path as it was sent, the parameters of the query in
a normal form, the signed headers with their values, the list of their names and what is declared
about the body. The names of the signed headers come from a list that the client sends
(`parse_signed_headers` of `auth/sigv4/parser.rs`).
-/

namespace TinyS3Proxy

open Text (Bytes ascii lf)

/-! ### The query -/

/-- Which parameters of the query the canonical query keeps. -/
inductive CanonicalQueryMode
  | includeAll
  | excludePresignedSignature
deriving DecidableEq

/-- The byte is not to be escaped. -/
def isUnreserved (b : UInt8) : Bool :=
  (48 ≤ b && b ≤ 57) || (65 ≤ b && b ≤ 90) || (97 ≤ b && b ≤ 122) || (ascii "-._~").contains b

/-- Bytes, escaped for the canonical query. -/
def awsUriEncodeBytes (bs : Bytes) : Bytes := Text.percentEncode isUnreserved bs

/-- The bytes that a part of a query stands for. -/
def percentDecodeForQuery (s : Bytes) : Bytes := Text.percentDecode s

/-- The ampersand, which separates parameters. -/
def amp : UInt8 := 38

/-- The equals sign, which separates the name of a parameter from its value. -/
def eqSign : UInt8 := 61

/-- The name and the value of a parameter, decoded. -/
def decodeParameter (chunk : Bytes) : Bytes × Bytes :=
  let (rawK, rawV) := (Text.splitOnce eqSign chunk).getD (chunk, [])
  (percentDecodeForQuery rawK, percentDecodeForQuery rawV)

/-- The parameters of a query, decoded. -/
def decodedPairs (rawQuery : Bytes) : List (Bytes × Bytes) :=
  (Text.nonemptyFields amp rawQuery).map decodeParameter

/-- A parameter is kept in a canonical query. -/
def CanonicalQueryMode.keeps (mode : CanonicalQueryMode) (p : Bytes × Bytes) : Bool :=
  !(mode = excludePresignedSignature && p.1 = ascii "X-Amz-Signature")

/-- What parameters are sorted by: the name, then the value. -/
def parameterKey (p : Bytes × Bytes) : List ℕ ×ₗ List ℕ :=
  toLex (Text.ordinals p.1, Text.ordinals p.2)

/-- A parameter as it appears in a query. -/
def formatParameter (p : Bytes × Bytes) : Bytes := p.1 ++ eqSign :: p.2

/-- The canonical form of a query. -/
def canonicalizeQuery (rawQuery : Bytes) (mode : CanonicalQueryMode) (_requestId : Bytes) :
    Except S3Error Bytes :=
  if rawQuery = [] then .ok []
  else
    let kept := (decodedPairs rawQuery).filter mode.keeps
    let pairs := kept.map fun p => (awsUriEncodeBytes p.1, awsUriEncodeBytes p.2)
    .ok (Text.joinFields amp ((Text.sortBy parameterKey pairs).map formatParameter))

/-! ### The headers -/

/-- The string with a single blank for each run of blanks. `afterSpace` says that the byte before
the string was a blank. -/
def collapseSpaces (afterSpace : Bool) : Bytes → Bytes
  | [] => []
  | b :: bs =>
      if b = 32 then if afterSpace then collapseSpaces true bs else b :: collapseSpaces true bs
      else b :: collapseSpaces false bs

/-- The string without blanks at its ends, and with a single blank for each run of blanks. -/
def trimWs (s : Bytes) : Bytes :=
  let trimmed := ((s.dropWhile (· = 32)).reverse.dropWhile (· = 32)).reverse
  collapseSpaces false trimmed

/-- The value of a header as a string. -/
def headerUtf8 (name : HeaderName) (requestId : Bytes) (value : HeaderValue) :
    Except S3Error Bytes :=
  if Text.validUtf8 value.bytes then .ok value.bytes
  else
    .error (.authorizationHeaderMalformed
      (ascii "header '" ++ name.bytes ++ ascii "' has non-UTF-8 bytes") requestId)

/-- The values of the headers of a name, with commas between them. -/
def canonicalizeHeader (parts : Parts) (requestId : Bytes) (name : HeaderName) :
    Except S3Error Bytes :=
  match parts.headers.getAll name.bytes with
  | [] =>
      .error (.authorizationHeaderMalformed
        (ascii "SignedHeaders references '" ++ name.bytes ++
          ascii "' but the request does not carry it") requestId)
  | first :: extras => do
      let raw ← headerUtf8 name requestId first
      extras.foldlM (fun value extra => do
        let raw ← headerUtf8 name requestId extra
        pure (value ++ 44 :: trimWs raw)) (trimWs raw)

/-- The lines of the signed headers. -/
def canonicalHeaderLines (parts : Parts) (requestId : Bytes) :
    List HeaderName → Except S3Error Bytes
  | [] => pure []
  | name :: names => do
      let value ← canonicalizeHeader parts requestId name
      let lines ← canonicalHeaderLines parts requestId names
      pure (name.bytes ++ 58 :: (value ++ lf :: lines))

/-- The lines of the signed headers, and the list of their names. -/
def canonicalizeHeaders (parts : Parts) (signedHeaders : List HeaderName) (requestId : Bytes) :
    Except S3Error (Bytes × Bytes) := do
  let lines ← canonicalHeaderLines parts requestId signedHeaders
  pure (lines, Text.joinFields 59 (signedHeaders.map HeaderName.bytes))

/-! ### The request -/

/-- A canonical request with its parts. -/
structure CanonicalRequest where
  canonicalRequest : Bytes
  canonicalHeaders : Bytes
  signedHeaders : Bytes
  hashedPayload : Bytes
deriving DecidableEq

/-- The canonical request for the signed headers. -/
def buildCanonicalRequestFromSignedHeaders (parts : Parts) (signedHeaders : List HeaderName)
    (payload : PayloadHashForSigning) (queryMode : CanonicalQueryMode) (requestId : Bytes) :
    Except S3Error CanonicalRequest := do
  let canonicalQuery ← canonicalizeQuery (parts.query.getD []) queryMode requestId
  let (canonicalHeaders, signedHeadersStr) ← canonicalizeHeaders parts signedHeaders requestId
  let hashedPayload := payload.canonicalString
  pure {
    canonicalRequest := parts.method ++ lf :: (parts.path ++ lf :: (canonicalQuery ++ lf ::
      (canonicalHeaders ++ lf :: (signedHeadersStr ++ lf :: hashedPayload))))
    canonicalHeaders
    signedHeaders := signedHeadersStr
    hashedPayload }

/-! ### The list of signed headers -/

/-- The name of a signed header. -/
def parseSignedHeader (requestId part : Bytes) : Except S3Error HeaderName :=
  if part = [] then
    .error (.authorizationHeaderMalformed (ascii "SignedHeaders contains an empty element")
      requestId)
  else if part.any fun b => 65 ≤ b && b ≤ 90 then
    .error (.authorizationHeaderMalformed (ascii "SignedHeaders entries must be lowercase")
      requestId)
  else
    match HeaderName.fromStr part with
    | some name => .ok name
    | none =>
        .error (.authorizationHeaderMalformed
          (ascii "SignedHeaders contains an invalid header name") requestId)

/-- The names are in ascending order, and no two of them are the same. -/
def checkAscending (requestId : Bytes) : List HeaderName → Except S3Error Unit
  | a :: b :: names =>
      if Text.ordinals b.bytes < Text.ordinals a.bytes then
        .error (.authorizationHeaderMalformed
          (ascii "SignedHeaders must be sorted in ascending order") requestId)
      else if a.bytes = b.bytes then
        .error (.authorizationHeaderMalformed
          (ascii "SignedHeaders contains a duplicate header name") requestId)
      else checkAscending requestId (b :: names)
  | _ => .ok ()

/-- The names of the signed headers. -/
def parseSignedHeaders (value requestId : Bytes) : Except S3Error (List HeaderName) :=
  if value = [] then
    .error (.authorizationHeaderMalformed (ascii "SignedHeaders is empty") requestId)
  else do
    let names ← (value.splitOn 59).mapM (parseSignedHeader requestId)
    checkAscending requestId names
    if names.any fun n => n.bytes = ascii "host" then pure names
    else .error (.authorizationHeaderMalformed (ascii "SignedHeaders must include 'host'")
      requestId)

end TinyS3Proxy
