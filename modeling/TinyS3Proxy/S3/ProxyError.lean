import TinyS3Proxy.S3.Errors

/-!
# Errors of the proxy

What can go wrong in the proxy, and the error response that a client gets for it (`error.rs`,
`s3/errors.rs`).
-/

namespace TinyS3Proxy

open Text (Bytes ascii)

/-- An error of the proxy. -/
inductive ProxyError
  | backend (operation : Bytes)
  | cache (operation : Bytes)
  | auth (message : Bytes)
  | invalidRequest (message : Bytes)
  | unsupportedOperation (operation : Bytes)
  | timeout (operation : Bytes)
  | upstreamS3 (statusCode : ℕ) (s3Code message operation : Bytes)
  | internal
deriving DecidableEq

namespace ProxyError

/-- The status of the response for an error. A status that is none of HTTP is reported as a bad
gateway. -/
def statusCode : ProxyError → ℕ
  | backend _ => 502
  | cache _ => 500
  | auth _ => 403
  | invalidRequest _ => 400
  | unsupportedOperation _ => 501
  | timeout _ => 504
  | upstreamS3 status _ _ _ => if 100 ≤ status ∧ status ≤ 999 then status else 502
  | internal => 500

/-- The error may go away by itself. -/
def isTransient : ProxyError → Bool
  | backend _ | timeout _ => true
  | upstreamS3 status _ _ _ => 500 ≤ status
  | _ => false

/-- The code of an error, as S3 has it. -/
def s3ErrorCode : ProxyError → Bytes
  | backend _ => ascii "InternalError"
  | cache _ => ascii "InternalError"
  | auth _ => ascii "AccessDenied"
  | invalidRequest _ => ascii "InvalidRequest"
  | unsupportedOperation _ => ascii "NotImplemented"
  | timeout _ => ascii "RequestTimeout"
  | upstreamS3 _ s3Code _ _ => s3Code
  | internal => ascii "InternalError"

/-- What is told to the client. -/
def publicMessage : ProxyError → Bytes
  | backend _ => ascii "A backend error occurred. Please retry the request."
  | timeout _ => ascii "The request to the backend timed out. Please retry."
  | upstreamS3 _ s3Code _ _ => ascii "The backend returned an error: " ++ s3Code
  | auth _ => ascii "Access Denied"
  | cache _ => ascii "An internal cache error occurred."
  | internal => ascii "An internal error occurred."
  | invalidRequest message => ascii "invalid request: " ++ message
  | unsupportedOperation operation => ascii "unsupported operation: " ++ operation

end ProxyError

/-- The error response for an error. -/
def S3Error.fromProxyError (e : ProxyError) (requestId : Bytes) (resource : Option Bytes) :
    S3Error where
  httpStatus := e.statusCode
  code := e.s3ErrorCode
  message := e.publicMessage
  resource
  requestId

/-- The status is that of a success. -/
def isSuccess (status : ℕ) : Bool := 200 ≤ status ∧ status ≤ 299

/-- An error that the proxy has not got from the backend is no success. -/
theorem ProxyError.isSuccess_statusCode
    {e : ProxyError} (h : isSuccess e.statusCode = true) :
  ∃ status s3Code message operation, e = .upstreamS3 status s3Code message operation ∧
    isSuccess status = true
  := by
  cases e with
  | upstreamS3 status s3Code message operation =>
      refine ⟨status, s3Code, message, operation, rfl, ?_⟩
      rw [statusCode] at h
      split at h
      next => exact h
      next => cases h
  | backend | cache | auth | invalidRequest | unsupportedOperation | timeout | internal => cases h

end TinyS3Proxy
