import TinyS3Proxy.Auth.Payload
import TinyS3Proxy.Auth.Streaming
import TinyS3Proxy.Http.Headers

/-!
# Verified requests

What is known of a request once its signature has been verified (`auth/verified.rs`), and where the
chains of signatures of its chunks start.
-/

namespace TinyS3Proxy

open Text (Bytes ascii)

/-- The scope of a credential. The scope of an elliptic-curve signature has no region. -/
inductive VerifiedCredentialScope
  | sigV4 (dateYyyymmdd region service : Bytes)
  | sigV4a (dateYyyymmdd service : Bytes)
deriving DecidableEq

/-- The scope as it occurs in strings to sign. -/
def VerifiedCredentialScope.credentialScopeString : VerifiedCredentialScope → Bytes
  | sigV4 date region service =>
      date ++ ascii "/" ++ region ++ ascii "/" ++ service ++ ascii "/aws4_request"
  | sigV4a date service => date ++ ascii "/" ++ service ++ ascii "/aws4_request"

/-- The key that the request was verified with. -/
inductive VerifiedSigningContext (K : Type)
  | hmacSha256 (key : Bytes)
  | ecdsaP256 (key : K)

/-- A request whose signature has been verified. -/
structure VerifiedRequest (K : Type) where
  accessKeyId : Bytes
  credentialScope : VerifiedCredentialScope
  signedHeaders : List HeaderName
  requestSignatureHex : Bytes
  signingContext : VerifiedSigningContext K
  amzDate : Bytes
  payload : PayloadHashForSigning

/-- The body has to be hashed. -/
def PayloadHashForSigning.requiresBodyBytes : PayloadHashForSigning → Bool
  | signedSha256 _ => true
  | _ => false

/-- The chunks of the body are signed. -/
def PayloadHashForSigning.isSignedStreaming : PayloadHashForSigning → Bool
  | streamingAws4HmacSha256Payload => true
  | streamingAws4HmacSha256PayloadTrailer => true
  | streamingAws4EcdsaP256Sha256Payload => true
  | streamingAws4EcdsaP256Sha256PayloadTrailer => true
  | _ => false

variable {K : Type}

/-- The start of a chain of keyed hashes. -/
def StreamingSigV4Context.fromVerified (verified : VerifiedRequest K) :
    Option StreamingSigV4Context :=
  match verified.signingContext with
  | .hmacSha256 key =>
      some
        { signingKey := key
          amzDate := verified.amzDate
          scope := verified.credentialScope.credentialScopeString
          previousSignatureHex := verified.requestSignatureHex }
  | .ecdsaP256 _ => none

/-- The start of a chain of elliptic-curve signatures. -/
def StreamingSigV4aContext.fromVerified (verified : VerifiedRequest K) :
    Option (StreamingSigV4aContext K) :=
  match verified.signingContext with
  | .hmacSha256 _ => none
  | .ecdsaP256 key =>
      some
        { verifyingKey := key
          amzDate := verified.amzDate
          scope := verified.credentialScope.credentialScopeString
          previousSignatureHex := verified.requestSignatureHex }

end TinyS3Proxy
