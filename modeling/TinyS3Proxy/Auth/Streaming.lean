import TinyS3Proxy.Auth.Crypto

/-!
# Signatures of a stream

The signature of a chunk covers the hash of the chunk and the signature before it, so that the
signatures of a stream form a chain which starts at the signature of the request
(`auth/sigv4/streaming.rs`, `auth/sigv4a/streaming.rs`). The trailer is signed last, after the
chunk of size zero.
-/

namespace TinyS3Proxy

open Text (Bytes ascii lf)

/-- The hash of the empty string, in hexadecimal digits. -/
def emptySha256Hex : Bytes :=
  ascii "e3b0c44298fc1c149afbf4c8996fb92427ae41e4649b934ca495991b7852b855"

/-- The string to sign for a chunk. -/
def chunkStringToSign (label amzDate scope previous hashHex : Bytes) : Bytes :=
  label ++ lf :: (amzDate ++ lf :: (scope ++ lf :: (previous ++ lf ::
    (emptySha256Hex ++ lf :: hashHex))))

/-- The string to sign for a trailer. -/
def trailerStringToSign (label amzDate scope previous hashHex : Bytes) : Bytes :=
  label ++ lf :: (amzDate ++ lf :: (scope ++ lf :: (previous ++ lf :: hashHex)))

/-- Why the signature of a chunk or of a trailer was not accepted. -/
inductive StreamingError
  | chunkSignatureMismatch
  | trailerSignatureMismatch
  | invalidSignatureHex (signature : Bytes)
deriving DecidableEq

/-- The state of a chain of keyed hashes. -/
structure StreamingSigV4Context where
  signingKey : Bytes
  amzDate : Bytes
  scope : Bytes
  previousSignatureHex : Bytes
deriving DecidableEq

/-- The state of a chain of elliptic-curve signatures. -/
structure StreamingSigV4aContext (K : Type) where
  verifyingKey : K
  amzDate : Bytes
  scope : Bytes
  previousSignatureHex : Bytes

variable {K : Type} (c : Crypto K)

namespace StreamingSigV4Context

variable (ctx : StreamingSigV4Context)

/-- The string to sign for a chunk with the given hash, at this place of the chain. -/
def chunkSts (hashHex : Bytes) : Bytes :=
  chunkStringToSign (ascii "AWS4-HMAC-SHA256-PAYLOAD") ctx.amzDate ctx.scope
    ctx.previousSignatureHex hashHex

/-- The string to sign for a trailer, at this place of the chain. -/
def trailerSts (canonical : Bytes) : Bytes :=
  trailerStringToSign (ascii "AWS4-HMAC-SHA256-TRAILER") ctx.amzDate ctx.scope
    ctx.previousSignatureHex (Text.hexEncode (c.sha256 canonical))

/-- Verify the signature of a chunk, and advance the chain to it. -/
def verifyPayloadChunk (hashHex supplied : Bytes) :
    Except StreamingError StreamingSigV4Context :=
  match parseHex32 supplied with
  | none => .error (.invalidSignatureHex supplied)
  | some bytes =>
      if c.hmacSha256 ctx.signingKey (ctx.chunkSts hashHex) ≠ bytes then
        .error .chunkSignatureMismatch
      else .ok { ctx with previousSignatureHex := supplied }

/-- Verify the signature of a trailer. -/
def verifyTrailer (canonical supplied : Bytes) : Except StreamingError Unit :=
  match parseHex32 supplied with
  | none => .error (.invalidSignatureHex supplied)
  | some bytes =>
      if c.hmacSha256 ctx.signingKey (ctx.trailerSts c canonical) ≠ bytes then
        .error .trailerSignatureMismatch
      else .ok ()

variable {c ctx}

theorem verifyPayloadChunk_eq_ok
    {hashHex supplied : Bytes} {ctx' : StreamingSigV4Context} :
  ctx.verifyPayloadChunk c hashHex supplied = .ok ctx' ↔
    parseHex32 supplied = some (c.hmacSha256 ctx.signingKey (ctx.chunkSts hashHex)) ∧
      ctx' = { ctx with previousSignatureHex := supplied }
  := by
  rw [verifyPayloadChunk]
  cases parseHex32 supplied with
  | none => simp
  | some bytes =>
      simp only [ne_eq, ite_not, Option.some.injEq]
      split
      next h => simp [h, eq_comm]
      next h => simp [Ne.symm h]

theorem verifyTrailer_eq_ok
    {canonical supplied : Bytes} :
  ctx.verifyTrailer c canonical supplied = .ok () ↔
    parseHex32 supplied = some (c.hmacSha256 ctx.signingKey (ctx.trailerSts c canonical))
  := by
  rw [verifyTrailer]
  cases parseHex32 supplied with
  | none => simp
  | some bytes =>
      simp only [ne_eq, ite_not, Option.some.injEq]
      split
      next h => simp [h]
      next h => simp [Ne.symm h]

end StreamingSigV4Context

namespace StreamingSigV4aContext

variable (ctx : StreamingSigV4aContext K)

/-- The string to sign for a chunk with the given hash, at this place of the chain. -/
def chunkSts (hashHex : Bytes) : Bytes :=
  chunkStringToSign (ascii "AWS4-ECDSA-P256-SHA256-PAYLOAD") ctx.amzDate ctx.scope
    ctx.previousSignatureHex hashHex

/-- The string to sign for a trailer, at this place of the chain. -/
def trailerSts (canonical : Bytes) : Bytes :=
  trailerStringToSign (ascii "AWS4-ECDSA-P256-SHA256-TRAILER") ctx.amzDate ctx.scope
    ctx.previousSignatureHex (Text.hexEncode (c.sha256 canonical))

/-- Verify the signature of a chunk, and advance the chain to it, without its padding. -/
def verifyPayloadChunk (hashHex supplied : Bytes) :
    Except StreamingError (StreamingSigV4aContext K) :=
  match parseStreamingDerSignatureHexPadded c supplied with
  | .error _ => .error (.invalidSignatureHex supplied)
  | .ok der =>
      match verifySigV4aDerSignature c ctx.verifyingKey (ctx.chunkSts hashHex) der with
      | .error _ => .error .chunkSignatureMismatch
      | .ok () => .ok { ctx with previousSignatureHex := trimStars supplied }

/-- Verify the signature of a trailer. -/
def verifyTrailer (canonical supplied : Bytes) : Except StreamingError Unit :=
  match parseStreamingDerSignatureHexPadded c supplied with
  | .error _ => .error (.invalidSignatureHex supplied)
  | .ok der =>
      match verifySigV4aDerSignature c ctx.verifyingKey (ctx.trailerSts c canonical) der with
      | .error _ => .error .trailerSignatureMismatch
      | .ok () => .ok ()

variable {c ctx}

theorem verifyPayloadChunk_eq_ok
    {hashHex supplied : Bytes} {ctx' : StreamingSigV4aContext K} :
  ctx.verifyPayloadChunk c hashHex supplied = .ok ctx' ↔
    (∃ der, parseStreamingDerSignatureHexPadded c supplied = .ok der ∧
      verifySigV4aDerSignature c ctx.verifyingKey (ctx.chunkSts hashHex) der = .ok ()) ∧
      ctx' = { ctx with previousSignatureHex := trimStars supplied }
  := by
  rw [verifyPayloadChunk]
  cases parseStreamingDerSignatureHexPadded c supplied with
  | error e => simp
  | ok der =>
      simp only [Except.ok.injEq, exists_eq_left']
      cases verifySigV4aDerSignature c ctx.verifyingKey (ctx.chunkSts hashHex) der with
      | error e => simp
      | ok u => simp [eq_comm]

theorem verifyTrailer_eq_ok
    {canonical supplied : Bytes} :
  ctx.verifyTrailer c canonical supplied = .ok () ↔
    ∃ der, parseStreamingDerSignatureHexPadded c supplied = .ok der ∧
      verifySigV4aDerSignature c ctx.verifyingKey (ctx.trailerSts c canonical) der = .ok ()
  := by
  rw [verifyTrailer]
  cases parseStreamingDerSignatureHexPadded c supplied with
  | error e => simp
  | ok der =>
      simp only [Except.ok.injEq, exists_eq_left']
      cases verifySigV4aDerSignature c ctx.verifyingKey (ctx.trailerSts c canonical) der with
      | error e => simp
      | ok u => simp

end StreamingSigV4aContext

end TinyS3Proxy
