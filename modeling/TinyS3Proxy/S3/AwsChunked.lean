import TinyS3Proxy.Auth.Streaming
import TinyS3Proxy.Effect.Fallible
import TinyS3Proxy.Text.Reader

/-!
# The aws-chunked decoder

The decoder of `s3/aws_chunked.rs`: it reads chunk after chunk off the body of a request, checks
the framing and the signatures, and writes the data of the chunks to a file. The functions are
those of the source, and the decoder is their state. A hasher is the string of the bytes that it
was fed, and a string of text is the string of its bytes.

The counters of the decoder are machine words. `wrapped` is not part of the program: it notes
that an addition or a subtraction on the counters has left their range.
-/

namespace TinyS3Proxy

open Text (Bytes Reader ascii lf crlf)
open Effect

/-! ### Modes and errors -/

/-- The algorithm that signs the chunks. -/
inductive SignedChunkAlgorithm
  | hmacSha256
  | ecdsaP256
deriving DecidableEq

/-- The wire format. -/
inductive DecoderMode
  | nonTrailer (signatureAlgorithm : SignedChunkAlgorithm)
  | unsignedTrailer (expectedTrailerName : Bytes) (algorithm : ChecksumAlgorithm)
  | signedTrailer (expectedTrailerName : Bytes) (algorithm : ChecksumAlgorithm)
      (signatureAlgorithm : SignedChunkAlgorithm)
deriving DecidableEq

namespace DecoderMode

def expectsChunkSignature : DecoderMode → Bool
  | unsignedTrailer .. => false
  | _ => true

def signedChunkAlgorithm : DecoderMode → Option SignedChunkAlgorithm
  | nonTrailer a => some a
  | signedTrailer _ _ a => some a
  | unsignedTrailer .. => none

/-- The name of the trailer, its algorithm and whether it is signed. -/
def trailerInfo : DecoderMode → Option (Bytes × ChecksumAlgorithm × Bool)
  | nonTrailer _ => none
  | unsignedTrailer name a => some (name, a, false)
  | signedTrailer name a _ => some (name, a, true)

end DecoderMode

/-- What a decoding that succeeds returns. -/
structure DecodedSummary where
  decodedLen : UInt64
  sha256 : Bytes
  sha256Hex : Bytes
  trailer : Option ChecksumHeader
deriving DecidableEq

/-- Why a decoding failed. The cause of a failure to read or to write is left out. -/
inductive AwsChunkedError
  | malformedFrame (message : Bytes)
  | invalidChunkSize (chunkIndex size min : UInt64)
  | decodedLengthMismatch (declared actual : UInt64)
  | decodedLengthExceeded (declared attempted : UInt64)
  | truncated
  | trailingData
  | chunkHeaderTooLarge (limit : ℕ)
  | inboundIo
  | spoolIo
  | invalidTrailer (message : Bytes)
  | missingTrailer (name : Bytes)
  | invalidTrailerChecksum (message : Bytes)
  | trailerChecksumMismatch (name : Bytes)
  | invalidTrailerSignature (message : Bytes)
  | chunkSignatureMismatch (chunkIndex : UInt64)
  | trailerSignatureMismatch
  /-- The code has panicked, at a place that it takes to be unreachable. -/
  | panicked
deriving DecidableEq

/-- What is done with signatures whose form is right. -/
inductive ChunkSignaturePolicy (K : Type)
  | shapeOnly
  | verifyHmac (ctx : StreamingSigV4Context)
  | verifyEcdsa (ctx : StreamingSigV4aContext K)

/-- The greatest length of a line, with its terminator. -/
def maxChunkHeaderLineBytes : ℕ := 4096

def maxTrailerLineBytes : ℕ := maxChunkHeaderLineBytes

/-- The length of a keyed hash in hexadecimal digits. -/
def chunkSignatureHexLen : ℕ := 64

/-- The least size of a chunk that another chunk follows. -/
def minNonFinalChunkBytes : UInt64 := 8192

/-- The decimal digits of a number. -/
def decimal (n : ℕ) : Bytes := ascii (toString n)

/-- Text in backquotes. -/
def quoted (bs : Bytes) : Bytes := ascii "`" ++ bs ++ ascii "`"

/-! ### Chunk headers -/

section ChunkHeaders

variable {K : Type} (c : Crypto K)

/-- A chunk header, parsed. -/
structure ParsedChunkHeader where
  size : UInt64
  signatureHex : Option Bytes
deriving DecidableEq

def parseChunkSize (sizePart : Bytes) : Except AwsChunkedError UInt64 :=
  if sizePart = [] then .error (.malformedFrame (ascii "chunk header had empty size field"))
  else
    match Text.fromStrRadix16 sizePart with
    | some n => .ok (UInt64.ofNat n)
    | none =>
        .error (.malformedFrame (ascii "chunk size is not valid hex: " ++ quoted sizePart))

def validateChunkSignatureShape (sigHex : Bytes) :
    SignedChunkAlgorithm → Except AwsChunkedError Unit
  | .hmacSha256 =>
      if sigHex.length ≠ chunkSignatureHexLen then
        .error (.malformedFrame
          (ascii "chunk-signature must be 64 hex chars, got " ++ decimal sigHex.length))
      else if !sigHex.all Text.isLowerHex then
        .error (.malformedFrame (ascii "chunk-signature must be lowercase hex"))
      else .ok ()
  | .ecdsaP256 =>
      match parseStreamingDerSignatureHexPadded c sigHex with
      | .ok _ => .ok ()
      | .error e =>
          .error (.malformedFrame
            (ascii "SigV4A chunk-signature failed shape validation: " ++ e.message))

/-- The extension that carries the signature of a chunk. -/
def signatureExtension : Bytes := ascii "chunk-signature="

def parseChunkHeader (line : Bytes) :
    Option SignedChunkAlgorithm → Except AwsChunkedError ParsedChunkHeader
  | none =>
      if 59 ∈ line then
        .error (.malformedFrame
          (ascii "unsigned-trailer chunk header must be bare `<hex-size>` without extensions, got "
            ++ quoted line))
      else do
        let size ← parseChunkSize line
        .ok ⟨size, none⟩
  | some algorithm =>
      match Text.splitOnce 59 line with
      | none =>
          .error (.malformedFrame
            (ascii "chunk header missing `;chunk-signature=` extension: " ++ quoted line))
      | some (sizePart, sigPart) => do
          let size ← parseChunkSize sizePart
          match Text.strip signatureExtension sigPart with
          | none =>
              .error (.malformedFrame
                (ascii "chunk header extension is not `chunk-signature=...`: " ++ quoted sigPart))
          | some sigHex => do
              validateChunkSignatureShape c sigHex algorithm
              .ok ⟨size, some sigHex⟩

end ChunkHeaders

/-! ### Verifying signatures -/

section Signatures

variable {K : Type} (c : Crypto K)

def verifyHmacChunk (ctx : StreamingSigV4Context) (hashHex supplied : Bytes)
    (chunkIndex : UInt64) : Except AwsChunkedError StreamingSigV4Context :=
  match ctx.verifyPayloadChunk c hashHex supplied with
  | .ok ctx' => .ok ctx'
  | .error .chunkSignatureMismatch => .error (.chunkSignatureMismatch chunkIndex)
  | .error (.invalidSignatureHex _) =>
      .error (.malformedFrame
        (ascii "chunk-signature failed hex validation at chunk " ++ decimal chunkIndex.toNat))
  | .error .trailerSignatureMismatch => .error .panicked

def verifyEcdsaChunk (ctx : StreamingSigV4aContext K) (hashHex supplied : Bytes)
    (chunkIndex : UInt64) : Except AwsChunkedError (StreamingSigV4aContext K) :=
  match ctx.verifyPayloadChunk c hashHex supplied with
  | .ok ctx' => .ok ctx'
  | .error .chunkSignatureMismatch => .error (.chunkSignatureMismatch chunkIndex)
  | .error (.invalidSignatureHex _) =>
      .error (.malformedFrame
        (ascii "SigV4A chunk-signature failed hex validation at chunk "
          ++ decimal chunkIndex.toNat))
  | .error .trailerSignatureMismatch => .error .panicked

/-- The policy after the signature of a chunk has been verified. -/
def ChunkSignaturePolicy.verifyChunk (hashHex supplied : Bytes) (chunkIndex : UInt64) :
    ChunkSignaturePolicy K → Except AwsChunkedError (ChunkSignaturePolicy K)
  | shapeOnly => .ok shapeOnly
  | verifyHmac ctx => (verifyHmacChunk c ctx hashHex supplied chunkIndex).map .verifyHmac
  | verifyEcdsa ctx => (verifyEcdsaChunk c ctx hashHex supplied chunkIndex).map .verifyEcdsa

/-- The error that the outcome of verifying a trailer stands for. -/
def trailerOutcome : Except StreamingError Unit → Except AwsChunkedError Unit
  | .ok () => .ok ()
  | .error .trailerSignatureMismatch => .error .trailerSignatureMismatch
  | .error (.invalidSignatureHex _) =>
      .error (.invalidTrailerSignature (ascii "x-amz-trailer-signature failed hex validation"))
  | .error .chunkSignatureMismatch => .error .panicked

/-- Verify the signature of a trailer. -/
def ChunkSignaturePolicy.verifyTrailer (canonical supplied : Bytes) :
    ChunkSignaturePolicy K → Except AwsChunkedError Unit
  | shapeOnly => .ok ()
  | verifyHmac ctx => trailerOutcome (ctx.verifyTrailer c canonical supplied)
  | verifyEcdsa ctx => trailerOutcome (ctx.verifyTrailer c canonical supplied)

end Signatures

/-! ### The decoder -/

/-- The file that the decoded bytes are written to. -/
structure Sink where
  written : Bytes
  /-- The number of bytes that can still be written, if there is a limit. -/
  room : Option ℕ
deriving DecidableEq

/-- Write all bytes, or those that there is room for. -/
def Sink.writeAll (part : Bytes) (w : Sink) : Except Unit Unit × Sink :=
  match w.room with
  | none => (.ok (), { w with written := w.written ++ part })
  | some n =>
      if part.length ≤ n then (.ok (), ⟨w.written ++ part, some (n - part.length)⟩)
      else (.error (), ⟨w.written ++ part.take n, some 0⟩)

/-- The state of a decoding. -/
structure AwsChunkedDecoder (K : Type) where
  inner : Reader
  declaredDecodedLen : UInt64
  decodedLen : UInt64
  hasher : Bytes
  chunkIndex : UInt64
  previousDataChunkSize : Option UInt64
  mode : DecoderMode
  algoHasher : Option Bytes
  signaturePolicy : ChunkSignaturePolicy K
  writer : Sink
  wrapped : Bool

/-- A decoder that has read nothing yet. -/
def AwsChunkedDecoder.withModeAndSignaturePolicy {K : Type} (inner : Reader)
    (declaredDecodedLen : UInt64) (mode : DecoderMode) (policy : ChunkSignaturePolicy K)
    (writer : Sink) : AwsChunkedDecoder K where
  inner := inner
  declaredDecodedLen := declaredDecodedLen
  decodedLen := 0
  hasher := []
  chunkIndex := 0
  previousDataChunkSize := none
  mode := mode
  algoHasher :=
    match mode.trailerInfo with
    | some (_, .sha256, _) => none
    | none => none
    | some (_, _, _) => some []
  signaturePolicy := policy
  writer := writer
  wrapped := false

namespace AwsChunkedDecoder

variable {K : Type}

/-- Code of the decoder. -/
abbrev Dec (K : Type) : Type → Type := Fallible (AwsChunkedDecoder K) AwsChunkedError

/-- Read off the body. -/
def fromInner {ε α : Type} (f : Reader → Except ε α × Reader) (fault : ε → AwsChunkedError) :
    Dec K α :=
  attempt (fun s => ((f s.inner).1, { s with inner := (f s.inner).2 })) fault

/-- Write to the file. -/
def toWriter (part : Bytes) : Dec K Unit :=
  attempt (fun s => ((s.writer.writeAll part).1, { s with writer := (s.writer.writeAll part).2 }))
    fun _ => .spoolIo

/-- Note whether an operation on the counters has left their range. -/
def note (outOfRange : Bool) : Dec K Unit :=
  modify fun s => { s with wrapped := s.wrapped || outOfRange }

/-- The error for a chunk header that could not be read. -/
def headerFault : Reader.LineFault → AwsChunkedError
  | .failed => .inboundIo
  | .missing => .truncated
  | .unterminated => .malformedFrame (ascii "chunk header missing CRLF terminator")
  | .tooLong => .chunkHeaderTooLarge maxChunkHeaderLineBytes

def readChunkHeaderLine : Dec K Bytes := do
  let raw ← fromInner (Reader.readLine maxChunkHeaderLineBytes) headerFault
  let header ← demand (Text.stripEnd crlf raw)
    (.malformedFrame (ascii "chunk header not terminated by CRLF"))
  require (Text.validUtf8 header)
    (.malformedFrame (ascii "chunk header contained non-UTF-8 bytes"))
  pure header

/-- The error for a trailer line that could not be read. -/
def trailerFault (expectedName : Bytes) : Reader.LineFault → AwsChunkedError
  | .failed => .inboundIo
  | .missing => .missingTrailer expectedName
  | .unterminated => .invalidTrailer (ascii "trailer line missing LF terminator")
  | .tooLong => .invalidTrailer (ascii "trailer line exceeded 4096 bytes")

/-- A line without its terminator, with or without a carriage return. -/
def stripTerminator (raw : Bytes) : Option Bytes :=
  match Text.stripEnd crlf raw with
  | some line => some line
  | none => Text.stripEnd [lf] raw

def readTrailerLine (expectedName : Bytes) (fault : AwsChunkedError → AwsChunkedError) :
    Dec K Bytes := do
  let raw ← fromInner (Reader.readLine maxTrailerLineBytes) (fault ∘ trailerFault expectedName)
  let line ← demand (stripTerminator raw)
    (fault (.invalidTrailer (ascii "trailer line not terminated by LF")))
  require (line ≠ []) (fault (.missingTrailer expectedName))
  require (Text.validUtf8 line)
    (fault (.invalidTrailer (ascii "trailer line contained non-UTF-8 bytes")))
  pure line

/-- The fields of a trailer line, before and after its colon. -/
def readTrailerFields (expectedName : Bytes) (fault : AwsChunkedError → AwsChunkedError)
    (missing : Bytes → AwsChunkedError) : Dec K (Bytes × Bytes) := do
  let line ← readTrailerLine expectedName fault
  demand (Text.splitOnce 58 line) (missing line)

def expectCrlf : Dec K Unit := do
  let bs ← fromInner (Reader.readExact 2 2) fun
    | .unexpectedEof => .truncated
    | .failed => .inboundIo
  require (bs = crlf)
    (.malformedFrame (ascii "expected CRLF after chunk payload or final chunk"))

def expectEof : Dec K Unit := do
  let bs ← fromInner (Reader.read 1) fun _ => .inboundIo
  require (bs = []) .trailingData

/-- The size of the buffer that payload is copied through. -/
def copyBuffer : UInt64 := 16384

/-- Copy `remaining` bytes of payload in at most `fuel` reads, after the part of the chunk that
`chunkHasher` was fed. -/
def copyRemaining : ℕ → UInt64 → Bytes → Dec K Bytes
  | 0, _, chunkHasher => pure chunkHasher
  | fuel + 1, remaining, chunkHasher =>
      if remaining = 0 then pure chunkHasher
      else do
        let part ← fromInner (Reader.read (min remaining copyBuffer).toNat) fun _ => .inboundIo
        require (part ≠ []) .truncated
        modify fun s =>
          { s with
            hasher := s.hasher ++ part
            algoHasher := s.algoHasher.map (· ++ part) }
        toWriter part
        note (remaining.toNat < part.length)
        copyRemaining fuel (remaining - UInt64.ofNat part.length) (chunkHasher ++ part)

/-- Copy a payload and return its hash. Every read yields at least one byte. -/
def copyChunkPayload (c : Crypto K) (chunkSize : UInt64) : Dec K Bytes := do
  let chunkHasher ← copyRemaining chunkSize.toNat chunkSize []
  pure (c.sha256 chunkHasher)

/-- Verify the signature of a chunk under the policy of the decoder. -/
def verifyChunk (c : Crypto K) (hashHex supplied : Bytes) : Dec K Unit := do
  let policy ← reads (·.signaturePolicy)
  let chunkIndex ← reads (·.chunkIndex)
  let policy' ← outcome (policy.verifyChunk c hashHex supplied chunkIndex)
  modify fun s => { s with signaturePolicy := policy' }

/-- Verify the signature of a chunk in the modes that have signatures. -/
def verifyIfSigned (c : Crypto K) (hashHex : Bytes) (signatureHex : Option Bytes) :
    Dec K Unit := do
  let mode ← reads (·.mode)
  if mode.expectsChunkSignature then do
    let supplied ← demand signatureHex .panicked
    verifyChunk c hashHex supplied
  else pure ()

def readAndValidateTrailer (c : Crypto K) (expectedName : Bytes)
    (algorithm : ChecksumAlgorithm) : Dec K ChecksumHeader := do
  let (name, value) ← readTrailerFields expectedName id fun line =>
    .invalidTrailer (ascii "trailer header missing `:` separator: " ++ quoted line)
  require (Text.eqIgnoreCase (Text.trim name) expectedName)
    (.invalidTrailer (ascii "trailer header name " ++ quoted (Text.trim name) ++
      ascii " does not match declared " ++ quoted expectedName))
  let decoded ← outcome ((c.base64Decode (Text.trim value)).mapError fun e =>
    AwsChunkedError.invalidTrailerChecksum (ascii "base64 decode failed: " ++ e))
  require (decoded.length = algorithm.digestLen)
    (.invalidTrailerChecksum (ascii "trailer for " ++ expectedName ++ ascii " decoded to " ++
      decimal decoded.length ++ ascii " bytes, expected " ++ decimal algorithm.digestLen))
  pure ⟨algorithm, algorithm.headerName, Text.trim value⟩

/-- The name of the line that carries the signature of the trailer. -/
def trailerSignatureName : Bytes := ascii "x-amz-trailer-signature"

/-- The error for a signature line that could not be read. -/
def signatureLineFault : AwsChunkedError → AwsChunkedError
  | .truncated =>
      .invalidTrailerSignature (ascii "x-amz-trailer-signature line missing")
  | .missingTrailer _ =>
      .invalidTrailerSignature (ascii "x-amz-trailer-signature line missing")
  | e => e

/-- The error for a signature of the wrong form on the signature line. -/
def signatureShapeFault : AwsChunkedError → AwsChunkedError
  | .malformedFrame message => .invalidTrailerSignature message
  | e => e

def readAndValidateTrailerSignature (c : Crypto K) (algorithm : SignedChunkAlgorithm) :
    Dec K Bytes := do
  let (name, value) ← readTrailerFields trailerSignatureName signatureLineFault fun line =>
    .invalidTrailerSignature (ascii "missing `:` separator: " ++ quoted line)
  require (Text.eqIgnoreCase (Text.trim name) trailerSignatureName)
    (.invalidTrailerSignature (ascii "unexpected name " ++ quoted name))
  outcome ((validateChunkSignatureShape c (Text.trim value) algorithm).mapError
    signatureShapeFault)
  pure (Text.trim value)

/-- The bytes that the signature of a trailer covers. -/
def canonicalTrailer (header : ChecksumHeader) : Bytes :=
  Text.lower header.name ++ 58 :: (header.value ++ [lf])

/-- Read the signature of a trailer and verify it. -/
def verifyTrailerSignature (c : Crypto K) (header : ChecksumHeader) : Dec K Unit := do
  let mode ← reads (·.mode)
  let algorithm ← demand mode.signedChunkAlgorithm .panicked
  let supplied ← readAndValidateTrailerSignature c algorithm
  let policy ← reads (·.signaturePolicy)
  outcome (policy.verifyTrailer c (canonicalTrailer header) supplied)

/-- Read what follows the chunk of size zero. -/
def readTrailer (c : Crypto K) : Dec K (Option ChecksumHeader) := do
  let mode ← reads (·.mode)
  match mode.trailerInfo with
  | none => do
      expectCrlf
      expectEof
      pure none
  | some (expectedName, algorithm, signed) => do
      let header ← readAndValidateTrailer c expectedName algorithm
      if signed then verifyTrailerSignature c header else pure ()
      expectCrlf
      expectEof
      pure (some header)

/-- Compare the checksum that the trailer declares with that of the body. -/
def checkTrailer (c : Crypto K) (sha256 : Bytes) (algoHasher : Option Bytes)
    (header : ChecksumHeader) : Dec K Unit := do
  let expected ← outcome ((c.base64Decode header.value).mapError fun e =>
    AwsChunkedError.invalidTrailerChecksum (ascii "base64 decode failed: " ++ e))
  let computed ←
    match header.algorithm with
    | .sha256 => pure sha256
    | algorithm => do
        let hasher ← demand algoHasher .panicked
        pure (c.checksum algorithm hasher)
  require (computed = expected) (.trailerChecksumMismatch header.name)

def finalize (c : Crypto K) (zeroChunkSignatureHex : Option Bytes) : Dec K DecodedSummary := do
  verifyIfSigned c emptySha256Hex zeroChunkSignatureHex
  let algoHasher ← reads (·.algoHasher)
  let trailer ← readTrailer c
  let decodedLen ← reads (·.decodedLen)
  let declared ← reads (·.declaredDecodedLen)
  require (decodedLen = declared) (.decodedLengthMismatch declared decodedLen)
  let hasher ← reads (·.hasher)
  match trailer with
  | none => pure ()
  | some header => checkTrailer c (c.sha256 hasher) algoHasher header
  pure ⟨decodedLen, c.sha256 hasher, Text.hexEncode (c.sha256 hasher), trailer⟩

/-- The sum of two counters, or the greatest number if it does not fit. -/
def saturatingAdd (a b : UInt64) : UInt64 := UInt64.ofNat (min (a.toNat + b.toNat) (2 ^ 64 - 1))

/-- A chunk that was too small to be followed by another one is an error now. -/
def checkPreviousChunk : Dec K Unit := do
  let previous ← reads (·.previousDataChunkSize)
  match previous with
  | none => pure ()
  | some size =>
      if size < minNonFinalChunkBytes then do
        let chunkIndex ← reads (·.chunkIndex)
        note (chunkIndex.toNat < 1)
        throw (.invalidChunkSize (chunkIndex - 1) size minNonFinalChunkBytes)
      else pure ()

/-- The rest of a chunk that has data, after its header. -/
def decodeData (c : Crypto K) (parsed : ParsedChunkHeader) : Dec K Unit := do
  checkPreviousChunk
  let declared ← reads (·.declaredDecodedLen)
  let decodedLen ← reads (·.decodedLen)
  let attempted := saturatingAdd decodedLen parsed.size
  require (attempted ≤ declared) (.decodedLengthExceeded declared attempted)
  let chunkSha ← copyChunkPayload c parsed.size
  verifyIfSigned c (Text.hexEncode chunkSha) parsed.signatureHex
  expectCrlf
  note (2 ^ 64 ≤ decodedLen.toNat + parsed.size.toNat)
  modify fun s =>
    { s with
      decodedLen := s.decodedLen + parsed.size
      previousDataChunkSize := some parsed.size }
  let chunkIndex ← reads (·.chunkIndex)
  note (2 ^ 64 ≤ chunkIndex.toNat + 1)
  modify fun s => { s with chunkIndex := s.chunkIndex + 1 }

/-- Read the header of a chunk and parse it. -/
def readHeader (c : Crypto K) (a : Option SignedChunkAlgorithm) : Dec K ParsedChunkHeader := do
  let header ← readChunkHeaderLine
  outcome (parseChunkHeader c header a)

/-- One turn of the loop: the summary after the last chunk, or nothing after another one. -/
def decodeChunk (c : Crypto K) : Dec K (Option DecodedSummary) := do
  let mode ← reads (·.mode)
  let parsed ← readHeader c mode.signedChunkAlgorithm
  if parsed.size = 0 then do
    let summary ← finalize c parsed.signatureHex
    pure (some summary)
  else do
    decodeData c parsed
    pure none

/-- At most `fuel` turns of the loop. -/
def decodeLoop (c : Crypto K) : ℕ → Dec K DecodedSummary
  | 0 => throw .truncated
  | fuel + 1 => do
      let result ← decodeChunk c
      match result with
      | some summary => pure summary
      | none => decodeLoop c fuel

/-- Decode the body. Every turn of the loop takes at least one byte off the body. -/
def decodeToWriter (c : Crypto K) : Dec K DecodedSummary := do
  let inner ← reads (·.inner)
  decodeLoop c (inner.bytes.length + 1)

end AwsChunkedDecoder

end TinyS3Proxy
