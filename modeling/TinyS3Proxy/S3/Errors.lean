import TinyS3Proxy.Text.Bytes

/-!
# Error responses

The errors that are sent to clients (`s3/errors.rs`).
-/

namespace TinyS3Proxy

open Text (Bytes ascii)

/-- An error response. -/
structure S3Error where
  httpStatus : ℕ
  code : Bytes
  message : Bytes
  resource : Option Bytes
  requestId : Bytes
deriving DecidableEq

namespace S3Error

/-- An error with status 400 that is about no resource. -/
def badRequest (code message requestId : Bytes) : S3Error :=
  { httpStatus := 400, code, message, resource := none, requestId }

/-- The request is well formed, but is not accepted. -/
def invalidRequest (message requestId : Bytes) : S3Error :=
  badRequest (ascii "InvalidRequest") message requestId

/-- The `Authorization` header is not well formed. -/
def authorizationHeaderMalformed (message requestId : Bytes) : S3Error :=
  badRequest (ascii "AuthorizationHeaderMalformed") message requestId

/-- The body is larger than it may be. -/
def entityTooLarge (message requestId : Bytes) : S3Error :=
  badRequest (ascii "EntityTooLarge") message requestId

/-- The body, or its framing, ends too early. -/
def incompleteBody (message requestId : Bytes) : S3Error :=
  badRequest (ascii "IncompleteBody") message requestId

/-- An argument is not what it may be. -/
def invalidArgument (message requestId : Bytes) : S3Error :=
  badRequest (ascii "InvalidArgument") message requestId

/-- A chunk is smaller than it may be. -/
def invalidChunkSize (message requestId : Bytes) : S3Error :=
  badRequest (ascii "InvalidChunkSizeError") message requestId

/-- A checksum is not well formed. -/
def invalidDigest (message requestId : Bytes) : S3Error :=
  badRequest (ascii "InvalidDigest") message requestId

/-- A checksum does not match. -/
def badDigest (message requestId : Bytes) : S3Error :=
  badRequest (ascii "BadDigest") message requestId

/-- The body is not the XML that is expected. -/
def malformedXml (message requestId : Bytes) : S3Error :=
  badRequest (ascii "MalformedXML") message requestId

/-- The signature is of a kind that is not supported. -/
def unsupportedSignature (message requestId : Bytes) : S3Error :=
  badRequest (ascii "UnsupportedSignature") message requestId

/-- Something went wrong that is no fault of the client. -/
def internalError (message requestId : Bytes) : S3Error :=
  { httpStatus := 500, code := ascii "InternalError", message, resource := none, requestId }

/-- The signature does not match. -/
def signatureDoesNotMatch (message requestId : Bytes) : S3Error :=
  { httpStatus := 403, code := ascii "SignatureDoesNotMatch", message, resource := none, requestId }

/-- The request is not signed. -/
def missingAuthenticationToken (message requestId : Bytes) : S3Error :=
  { httpStatus := 403
    code := ascii "MissingAuthenticationToken"
    message
    resource := none
    requestId }

/-- The access key is not known. -/
def invalidAccessKeyId (message requestId : Bytes) : S3Error :=
  { httpStatus := 403, code := ascii "InvalidAccessKeyId", message, resource := none, requestId }

/-- The request was signed at another time. -/
def requestTimeTooSkewed (message requestId : Bytes) : S3Error :=
  { httpStatus := 403, code := ascii "RequestTimeTooSkewed", message, resource := none, requestId }

/-- The token of the session is not accepted. -/
def invalidToken (message requestId : Bytes) : S3Error :=
  badRequest (ascii "InvalidToken") message requestId

/-- The session of the token has ended. -/
def expiredToken (message requestId : Bytes) : S3Error :=
  badRequest (ascii "ExpiredToken") message requestId

/-- The operation is not one of S3. -/
def unsupportedOperation (operation requestId : Bytes) : S3Error :=
  { httpStatus := 501
    code := ascii "NotImplemented"
    message := ascii "unsupported operation: " ++ operation
    resource := none
    requestId }

/-- The bucket does not exist. -/
def noSuchBucket (bucket requestId : Bytes) : S3Error :=
  { httpStatus := 404
    code := ascii "NoSuchBucket"
    message := ascii "The specified bucket does not exist."
    resource := some bucket
    requestId }

end S3Error

end TinyS3Proxy
