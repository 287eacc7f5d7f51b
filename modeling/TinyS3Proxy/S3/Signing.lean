import TinyS3Proxy.Auth.Chain
import TinyS3Proxy.S3.Acceptance

/-!
# The chain of signatures of a body

What the policies of the decoder amount to: the signatures of the chunks, of the chunk of size
zero and of the trailer verify over strings to sign that form a chain from the seed.
-/

namespace TinyS3Proxy

open Text (Bytes Reader ascii lf crlf)
open Effect

variable {K : Type} (c : Crypto K)

namespace ChunkSignaturePolicy

/-- The signature that the chain starts at. -/
def seed : ChunkSignaturePolicy K → Bytes
  | shapeOnly => []
  | verifyHmac ctx => ctx.previousSignatureHex
  | verifyEcdsa ctx => ctx.previousSignatureHex

/-- A signature without its padding. -/
def unpadded : ChunkSignaturePolicy K → Bytes → Bytes
  | verifyEcdsa _, signature => trimStars signature
  | _, signature => signature

/-- The string to sign for a chunk, after the signature `previous`. -/
def chunkText : ChunkSignaturePolicy K → Bytes → Bytes → Bytes
  | shapeOnly, _, _ => []
  | verifyHmac ctx, previous, hashHex =>
      chunkStringToSign (ascii "AWS4-HMAC-SHA256-PAYLOAD") ctx.amzDate ctx.scope previous hashHex
  | verifyEcdsa ctx, previous, hashHex =>
      chunkStringToSign (ascii "AWS4-ECDSA-P256-SHA256-PAYLOAD") ctx.amzDate ctx.scope previous
        hashHex

/-- The string to sign for a trailer with the given hash, after the signature `previous`. -/
def trailerText : ChunkSignaturePolicy K → Bytes → Bytes → Bytes
  | shapeOnly, _, _ => []
  | verifyHmac ctx, previous, hashHex =>
      trailerStringToSign (ascii "AWS4-HMAC-SHA256-TRAILER") ctx.amzDate ctx.scope previous hashHex
  | verifyEcdsa ctx, previous, hashHex =>
      trailerStringToSign (ascii "AWS4-ECDSA-P256-SHA256-TRAILER") ctx.amzDate ctx.scope previous
        hashHex

/-- The signature verifies over the string to sign, under the key of the policy. -/
def Verifies : ChunkSignaturePolicy K → Bytes → Bytes → Prop
  | shapeOnly, _, _ => True
  | verifyHmac ctx, text, signature =>
      parseHex32 signature = some (c.hmacSha256 ctx.signingKey text)
  | verifyEcdsa ctx, text, signature =>
      ∃ der, parseStreamingDerSignatureHexPadded c signature = .ok der ∧
        verifySigV4aDerSignature c ctx.verifyingKey text der = .ok ()

/-- The policy at another place of the chain, after the signature `previous`. -/
def after : ChunkSignaturePolicy K → Bytes → ChunkSignaturePolicy K
  | shapeOnly, _ => shapeOnly
  | verifyHmac ctx, previous => verifyHmac { ctx with previousSignatureHex := previous }
  | verifyEcdsa ctx, previous => verifyEcdsa { ctx with previousSignatureHex := previous }

variable {c}

theorem after_seed
    (d : ChunkSignaturePolicy K) :
  d.after d.seed = d
  := by
  cases d with
  | shapeOnly => rfl
  | verifyHmac ctx => rfl
  | verifyEcdsa ctx => rfl

theorem verifyHmacChunk_eq_ok
    {ctx ctx' : StreamingSigV4Context} {hashHex signature : Bytes} {i : UInt64} :
  verifyHmacChunk c ctx hashHex signature i = .ok ctx' ↔
    ctx.verifyPayloadChunk c hashHex signature = .ok ctx'
  := by
  rw [verifyHmacChunk]
  rcases ctx.verifyPayloadChunk c hashHex signature with (_ | _ | _) | _
  all_goals
    simp

theorem verifyEcdsaChunk_eq_ok
    {ctx ctx' : StreamingSigV4aContext K} {hashHex signature : Bytes} {i : UInt64} :
  verifyEcdsaChunk c ctx hashHex signature i = .ok ctx' ↔
    ctx.verifyPayloadChunk c hashHex signature = .ok ctx'
  := by
  rw [verifyEcdsaChunk]
  rcases ctx.verifyPayloadChunk c hashHex signature with (_ | _ | _) | _
  all_goals
    simp

theorem map_eq_ok
    {ε α β : Type} {x : Except ε α} {f : α → β} {b : β} :
  x.map f = .ok b ↔ ∃ a, x = .ok a ∧ f a = b
  := by
  cases x with
  | error e => simp [Except.map]
  | ok a => simp [Except.map]

/-- The policy accepts the signatures that verify, and goes on after them. -/
theorem verifyChunk_after
    {d d' : ChunkSignaturePolicy K} {previous hashHex signature : Bytes} {i : UInt64} :
  (d.after previous).verifyChunk c hashHex signature i = .ok d' ↔
    d.Verifies c (d.chunkText previous hashHex) signature ∧ d' = d.after (d.unpadded signature)
  := by
  cases d with
  | shapeOnly => simp [verifyChunk, Verifies, after, eq_comm]
  | verifyHmac ctx =>
      rw [after, verifyChunk, map_eq_ok]
      simp only [verifyHmacChunk_eq_ok, StreamingSigV4Context.verifyPayloadChunk_eq_ok]
      constructor
      · rintro ⟨ctx', ⟨hv, rfl⟩, rfl⟩
        exact ⟨hv, rfl⟩
      · rintro ⟨hv, rfl⟩
        exact ⟨_, ⟨hv, rfl⟩, rfl⟩
  | verifyEcdsa ctx =>
      rw [after, verifyChunk, map_eq_ok]
      simp only [verifyEcdsaChunk_eq_ok, StreamingSigV4aContext.verifyPayloadChunk_eq_ok]
      constructor
      · rintro ⟨ctx', ⟨hv, rfl⟩, rfl⟩
        exact ⟨hv, rfl⟩
      · rintro ⟨hv, rfl⟩
        exact ⟨_, ⟨hv, rfl⟩, rfl⟩

theorem trailerOutcome_eq_ok
    {x : Except StreamingError Unit} :
  trailerOutcome x = .ok () ↔ x = .ok ()
  := by
  rcases x with (_ | _ | _) | _
  all_goals
    simp [trailerOutcome]

theorem verifyTrailer_after
    {d : ChunkSignaturePolicy K} {previous canonical signature : Bytes} :
  (d.after previous).verifyTrailer c canonical signature = .ok () ↔
    d.Verifies c (d.trailerText previous (Text.hexEncode (c.sha256 canonical))) signature
  := by
  cases d with
  | shapeOnly => simp [verifyTrailer, after, Verifies]
  | verifyHmac ctx =>
      rw [after, verifyTrailer, trailerOutcome_eq_ok, StreamingSigV4Context.verifyTrailer_eq_ok]
      rfl
  | verifyEcdsa ctx =>
      rw [after, verifyTrailer, trailerOutcome_eq_ok, StreamingSigV4aContext.verifyTrailer_eq_ok]
      rfl

end ChunkSignaturePolicy

/-! ### The chain of a body -/

/-- The signature `signature` verifies over the string to sign for a chunk with the hash `hashHex`
that names the signature `previous`. -/
def CoversChunk (d : ChunkSignaturePolicy K) (previous hashHex signature : Bytes) : Prop :=
  d.Verifies c (d.chunkText previous hashHex) signature

/-- The hashes and the signatures of the chunks of a body, with the chunk of size zero. -/
def Frames.links (F : Frames) : List (Bytes × Bytes) :=
  (F.chunks.map fun ch => (Text.hexEncode (c.sha256 ch.data), ch.signature)) ++
    [(emptySha256Hex, F.zeroSignature)]

/-- The signatures of a body form a chain from the seed of the policy: those of the chunks, that
of the chunk of size zero, and that of the trailer in the mode that has one. -/
structure SignedChain (d : ChunkSignaturePolicy K) (mode : DecoderMode) (F : Frames) : Prop where
  chunks : Chain.Linked (CoversChunk c d) d.unpadded d.seed (F.links c)
  trailer : ∀ header ∈ declaredChecksum mode F.trailer, ∀ line ∈ F.trailerSignature,
    d.Verifies c
      (d.trailerText (Chain.last d.unpadded d.seed (F.links c))
        (Text.hexEncode (c.sha256 (AwsChunkedDecoder.canonicalTrailer header))))
      (Text.trim line.value)

variable {c}

theorem follows_after
    {d d' : ChunkSignaturePolicy K} {previous : Bytes} {chunks : List Chunk} :
  Follows c true (d.after previous) chunks d' ↔
    Chain.Linked (CoversChunk c d) d.unpadded previous
        (chunks.map fun ch => (Text.hexEncode (c.sha256 ch.data), ch.signature)) ∧
      d' = d.after (Chain.last d.unpadded previous
        (chunks.map fun ch => (Text.hexEncode (c.sha256 ch.data), ch.signature)))
  := by
  induction chunks generalizing previous with
  | nil => simp [Follows, Chain.Linked, Chain.last]
  | cons ch chunks ih =>
      rw [Follows]
      simp only [Advances, if_true, ChunkSignaturePolicy.verifyChunk_after, List.map_cons,
        Chain.Linked, Chain.last, List.foldl_cons]
      constructor
      · rintro ⟨d₁, ⟨hv, rfl⟩, hrest⟩
        obtain ⟨hlink, rfl⟩ := ih.mp hrest
        exact ⟨⟨hv, hlink⟩, rfl⟩
      · rintro ⟨⟨hv, hlink⟩, rfl⟩
        exact ⟨_, ⟨hv, rfl⟩, ih.mpr ⟨hlink, rfl⟩⟩

/-- Where chunks are signed, the policy accepts the signatures of a body if they form a chain. -/
theorem acceptsSignatures_iff
    {d : ChunkSignaturePolicy K} {mode : DecoderMode} {F : Frames}
    (hsigned : mode.expectsChunkSignature = true) :
  AcceptsSignatures c d mode F ↔ SignedChain c d mode F
  := by
  have hseed := d.after_seed
  rw [AcceptsSignatures, hsigned]
  constructor
  · rintro ⟨d₁, d₂, hfol, hadv, htrailer⟩
    rw [← hseed, follows_after] at hfol
    obtain ⟨hlink, rfl⟩ := hfol
    rw [Advances, if_pos rfl, ChunkSignaturePolicy.verifyChunk_after] at hadv
    obtain ⟨hzero, rfl⟩ := hadv
    constructor
    · exact Chain.linked_append.mpr ⟨hlink, hzero, trivial⟩
    · intro header hh line hl
      have hv := ChunkSignaturePolicy.verifyTrailer_after.mp (htrailer header hh line hl)
      rw [Frames.links, Chain.last, List.foldl_append]
      exact hv
  · rintro ⟨hchunks, htrailer⟩
    obtain ⟨hlink, hzero, -⟩ := Chain.linked_append.mp hchunks
    have hfol := follows_after.mpr ⟨hlink, rfl⟩
    have hadv := (ChunkSignaturePolicy.verifyChunk_after (i := 0)).mpr ⟨hzero, rfl⟩
    rw [hseed] at hfol
    refine ⟨_, _, hfol, hadv, ?_⟩
    intro header hh line hl
    have hv := htrailer header hh line hl
    rw [Frames.links, Chain.last, List.foldl_append] at hv
    exact ChunkSignaturePolicy.verifyTrailer_after.mpr hv

/-- Where chunks are not signed, there is nothing to accept. -/
theorem acceptsSignatures_of_unsigned
    {d : ChunkSignaturePolicy K} {mode : DecoderMode} {F : Frames}
    (hunsigned : mode.expectsChunkSignature = false) (hline : F.trailerSignature = none) :
  AcceptsSignatures c d mode F
  := by
  have hfol : ∀ chunks : List Chunk, Follows c false d chunks d := by
    intro chunks
    induction chunks with
    | nil => rfl
    | cons ch chunks ih => exact ⟨d, rfl, ih⟩
  rw [AcceptsSignatures, hunsigned]
  refine ⟨d, d, hfol F.chunks, rfl, ?_⟩
  intro header _ line hl
  rw [hline] at hl
  cases hl

end TinyS3Proxy
