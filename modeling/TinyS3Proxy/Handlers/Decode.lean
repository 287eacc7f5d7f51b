import TinyS3Proxy.Auth.Verified
import TinyS3Proxy.Backend.Client
import TinyS3Proxy.Handlers.AwsChunked

/-!
# Uploads that are decoded

An upload in chunks that is not passed through is decoded into a file, and the file is stored
(`handlers/aws_chunked.rs`).
-/

namespace TinyS3Proxy

open Text (Bytes Reader ascii)
open Effect

/-! ### Headers -/

/-- The length that a request declares for its decoded body. -/
def readDeclaredDecodedLength (rawHeaders : HeaderMap) (requestId : Bytes) :
    Except S3Error UInt64 :=
  match rawHeaders.getAll (ascii "x-amz-decoded-content-length") with
  | [] =>
      .error (.invalidArgument
        (ascii "aws-chunked upload missing required header x-amz-decoded-content-length") requestId)
  | [raw] =>
      match raw.toStr with
      | none =>
          .error (.invalidArgument (ascii "x-amz-decoded-content-length header was not valid ASCII")
            requestId)
      | some s =>
          match Text.fromStrUnsigned 64 s with
          | none =>
              .error (.invalidArgument (ascii ("x-amz-decoded-content-length header was not a " ++
                "non-negative integer")) requestId)
          | some n => .ok (UInt64.ofNat n)
  | _ :: _ :: _ =>
      .error (.invalidArgument (ascii ("aws-chunked upload has multiple " ++
        "x-amz-decoded-content-length headers; only one is supported")) requestId)

/-- The codings of a content without the one for the chunks, if there are others. -/
def contentEncodingWithoutAwsChunked (value : Bytes) : Option Bytes :=
  let surviving := ((value.splitOn 44).map Text.trim).filter fun tok =>
    !Text.eqIgnoreCase tok (ascii "aws-chunked") && tok ≠ []
  if surviving = [] then none else some ((ascii ", ").intercalate surviving)

/-- The headers about the content of the decoded body. -/
def contentHeadersForDecoded (parsed : ParsedRequest) : StringMap :=
  let name := ascii "content-encoding"
  match parsed.contentHeaders.get name with
  | none => parsed.contentHeaders
  | some ce =>
      let out := parsed.contentHeaders.filter fun entry => entry.1 ≠ name
      match contentEncodingWithoutAwsChunked ce with
      | none => out
      | some stripped => StringMap.insert out name stripped

/-- The header is about the chunks only. -/
def isStreamingOnlyAmzHeader (name : Bytes) : Bool :=
  Text.eqIgnoreCase name (ascii "x-amz-content-sha256") ||
    Text.eqIgnoreCase name (ascii "x-amz-decoded-content-length") ||
    Text.eqIgnoreCase name (ascii "x-amz-trailer") ||
    Text.eqIgnoreCase name (ascii "x-amz-sdk-checksum-algorithm")

/-- The other headers of the request for the decoded body. -/
def extraAmzHeadersForDecoded (parsed : ParsedRequest) : StringMap :=
  parsed.extraAmzHeaders.filter fun entry => !isStreamingOnlyAmzHeader entry.1

/-! ### Decoding -/

/-- The text of an error, as far as it does not come from libraries. -/
def AwsChunkedError.display : AwsChunkedError → Bytes
  | malformedFrame message => ascii "malformed aws-chunked frame: " ++ message
  | invalidChunkSize chunkIndex size min =>
      ascii "invalid aws-chunked chunk size at chunk " ++ decimal chunkIndex.toNat ++ ascii ": " ++
        decimal size.toNat ++ ascii " (min " ++ decimal min.toNat ++ ascii ")"
  | decodedLengthMismatch declared actual =>
      ascii "decoded length mismatch: declared " ++ decimal declared.toNat ++ ascii ", actual " ++
        decimal actual.toNat
  | decodedLengthExceeded declared attempted =>
      ascii "decoded length exceeded: declared " ++ decimal declared.toNat ++
        ascii ", attempted " ++ decimal attempted.toNat
  | truncated => ascii "truncated aws-chunked body"
  | trailingData => ascii "aws-chunked body contained data after the final chunk"
  | chunkHeaderTooLarge limit =>
      ascii "aws-chunked chunk header exceeded " ++ decimal limit ++ ascii " bytes"
  | inboundIo => ascii "aws-chunked inbound body read I/O error: "
  | spoolIo => ascii "aws-chunked spool write I/O error: "
  | invalidTrailer message => ascii "invalid aws-chunked trailer header: " ++ message
  | missingTrailer name => ascii "missing aws-chunked trailer header: " ++ name
  | invalidTrailerChecksum message => ascii "invalid trailer checksum: " ++ message
  | trailerChecksumMismatch name => ascii "trailer checksum mismatch for " ++ name
  | invalidTrailerSignature message => ascii "invalid trailer signature: " ++ message
  | chunkSignatureMismatch chunkIndex =>
      ascii "aws-chunked chunk signature mismatch at chunk " ++ decimal chunkIndex.toNat
  | trailerSignatureMismatch => ascii "aws-chunked trailer signature mismatch"
  | panicked => []

/-- The response to a decoding that failed. -/
def mapDecodeError (err : AwsChunkedError) (requestId : Bytes) : S3Error :=
  match err with
  | .invalidChunkSize _ _ _ => .invalidChunkSize err.display requestId
  | .spoolIo => .internalError (ascii "aws-chunked decode I/O error: " ++ err.display) requestId
  | .inboundIo | .malformedFrame _ | .decodedLengthMismatch _ _ | .decodedLengthExceeded _ _
  | .truncated | .trailingData | .chunkHeaderTooLarge _ => .incompleteBody err.display requestId
  | .invalidTrailer _ | .missingTrailer _ | .invalidTrailerSignature _ =>
      .invalidRequest err.display requestId
  | .invalidTrailerChecksum _ => .invalidDigest err.display requestId
  | .trailerChecksumMismatch _ => .badDigest err.display requestId
  | .chunkSignatureMismatch _ | .trailerSignatureMismatch =>
      .signatureDoesNotMatch err.display requestId
  | .panicked => .internalError err.display requestId

/-- Where decoded bodies are written: a file, if one can be created, and whether its last bytes can
be written. -/
structure Spool where
  file : Option Sink
  flushes : Bool

variable {K : Type}

/-- Decode a body into a file. What is returned is what the file then holds, and the summary of the
decoding. -/
def decodeIntoSpool (c : Crypto K) (spool : Spool) (parsed : ParsedRequest) (body : Reader)
    (declaredLen : UInt64) (mode : DecoderMode) (policy : ChunkSignaturePolicy K) :
    Except S3Error (Bytes × DecodedSummary) :=
  match spool.file with
  | none =>
      .error (.internalError (ascii "failed to create aws-chunked spool file: ") parsed.requestId)
  | some file =>
      let decoder :=
        AwsChunkedDecoder.withModeAndSignaturePolicy body declaredLen mode policy file
      match exec (AwsChunkedDecoder.decodeToWriter c) decoder with
      | (.error e, _) => .error (mapDecodeError e parsed.requestId)
      | (.ok summary, decoder') =>
          if !spool.flushes then
            .error (.internalError (ascii "failed to flush aws-chunked spool file: ")
              parsed.requestId)
          else .ok (decoder'.writer.written, summary)

/-- Reject a body that is declared to be larger than it may be. -/
def rejectIfOversized (maxRequestBodyBytes : ℕ) (parsed : ParsedRequest) (declaredLen : UInt64) :
    Except S3Error Unit :=
  if maxRequestBodyBytes < declaredLen.toNat then
    .error (.entityTooLarge
      (ascii "x-amz-decoded-content-length " ++ decimal declaredLen.toNat ++
        ascii " exceeds configured max_request_body_bytes (" ++ decimal maxRequestBodyBytes ++
        ascii ")")
      parsed.requestId)
  else .ok ()

/-- The request should have been verified, and was not. -/
def reachedUnverified (requestId : Bytes) : S3Error :=
  .internalError (ascii "strict-mode aws-chunked decode reached without a VerifiedRequest") requestId

/-- What is done with the signatures of chunks. -/
def signaturePolicyForDecode (mode : DecoderMode) (verified : Option (VerifiedRequest K))
    (strictSigv4 : Bool) (requestId : Bytes) : Except S3Error (ChunkSignaturePolicy K) :=
  if !strictSigv4 then .ok .shapeOnly
  else
    match verified with
    | none => .error (reachedUnverified requestId)
    | some v =>
        match mode.signedChunkAlgorithm with
        | none => .ok .shapeOnly
        | some .hmacSha256 =>
            match StreamingSigV4Context.fromVerified v with
            | some ctx => .ok (.verifyHmac ctx)
            | none =>
                .error (.internalError (ascii ("strict-mode HMAC aws-chunked decode reached with " ++
                  "a non-HMAC VerifiedRequest")) requestId)
        | some .ecdsaP256 =>
            match StreamingSigV4aContext.fromVerified v with
            | some ctx => .ok (.verifyEcdsa ctx)
            | none =>
                .error (.internalError (ascii ("strict-mode ECDSA aws-chunked decode reached with " ++
                  "a non-SigV4A VerifiedRequest")) requestId)

/-- Decode the body of a request by its headers. -/
def decodeBody (c : Crypto K) (spool : Spool) (maxRequestBodyBytes : ℕ) (parsed : ParsedRequest)
    (rawHeaders : HeaderMap) (verified : Option (VerifiedRequest K)) (strictSigv4 : Bool)
    (body : Reader) : Except S3Error (Bytes × DecodedSummary) := do
  let declaredLen ← readDeclaredDecodedLength rawHeaders parsed.requestId
  rejectIfOversized maxRequestBodyBytes parsed declaredLen
  let mode ← decoderModeFromHeaders rawHeaders parsed.requestId
  let policy ← signaturePolicyForDecode mode verified strictSigv4 parsed.requestId
  decodeIntoSpool c spool parsed body declaredLen mode policy

end TinyS3Proxy
