import TinyS3Proxy.Handlers.Modifiers
import TinyS3Proxy.S3.AwsChunked
import TinyS3Proxy.S3.Errors

/-!
# The mode of the decoder

The wire format that an upload is decoded under, read from the headers of the request
(`handlers/aws_chunked.rs`).
-/

namespace TinyS3Proxy

open Text (Bytes ascii)

/-- There is more than one header that declares the trailer. -/
def multipleTrailers (requestId : Bytes) : S3Error :=
  .invalidRequest (ascii ("trailer-mode aws-chunked upload has multiple " ++
    "x-amz-trailer headers; only one is supported")) requestId

/-- There is more than one header that declares the body. -/
def multipleContentSha256 (requestId : Bytes) : S3Error :=
  .invalidRequest (ascii ("aws-chunked decode path has multiple " ++
    "x-amz-content-sha256 headers; only one is supported")) requestId

/-- The only header that declares the trailer, and the algorithm of its checksum. -/
def readDeclaredTrailer (rawHeaders : HeaderMap) (requestId : Bytes) :
    Except S3Error ChecksumHeader :=
  match rawHeaders.getAll trailerName with
  | [] =>
      .error (.invalidRequest
        (ascii "trailer-mode aws-chunked upload missing required x-amz-trailer header") requestId)
  | [raw] =>
      match raw.toStr with
      | none => .error (.invalidRequest (ascii "x-amz-trailer header was not valid ASCII") requestId)
      | some value =>
          let trimmed := Text.trim value
          match ChecksumAlgorithm.fromHeaderName trimmed with
          | none =>
              .error (.invalidRequest
                (ascii "x-amz-trailer declared unsupported trailer header " ++ quoted trimmed)
                requestId)
          | some algo => .ok { algorithm := algo, name := algo.headerName, value := [] }
  | _ :: _ :: _ => .error (multipleTrailers requestId)

/-- The mode for the value of the header that declares the body. -/
def decoderModeForSentinel (rawHeaders : HeaderMap) (sentinel requestId : Bytes) :
    Except S3Error DecoderMode :=
  let upper := Text.upper sentinel
  if upper = streamingAws4HmacSha256Payload then .ok (.nonTrailer .hmacSha256)
  else if upper = streamingAws4EcdsaP256Sha256Payload then .ok (.nonTrailer .ecdsaP256)
  else do
    let header ← readDeclaredTrailer rawHeaders requestId
    if upper = streamingUnsignedPayloadTrailer then
      .ok (.unsignedTrailer header.name header.algorithm)
    else if upper = streamingAws4HmacSha256PayloadTrailer then
      .ok (.signedTrailer header.name header.algorithm .hmacSha256)
    else if upper = streamingAws4EcdsaP256Sha256PayloadTrailer then
      .ok (.signedTrailer header.name header.algorithm .ecdsaP256)
    else
      .error (.invalidRequest (ascii "unsupported aws-chunked sentinel " ++ quoted sentinel ++
        ascii " reached the decode path") requestId)

/-- The mode that a body is decoded under. -/
def decoderModeFromHeaders (rawHeaders : HeaderMap) (requestId : Bytes) :
    Except S3Error DecoderMode :=
  match rawHeaders.getAll contentSha256Name with
  | [] =>
      .error (.invalidRequest
        (ascii "aws-chunked decode path requires x-amz-content-sha256 header") requestId)
  | [raw] =>
      match raw.toStr with
      | none =>
          .error (.invalidRequest (ascii "x-amz-content-sha256 header was not valid ASCII")
            requestId)
      | some s =>
          let sentinel := Text.trim s
          if sentinel = [] then
            .error (.invalidRequest (ascii "x-amz-content-sha256 header was empty") requestId)
          else decoderModeForSentinel rawHeaders sentinel requestId
  | _ :: _ :: _ => .error (multipleContentSha256 requestId)

end TinyS3Proxy
