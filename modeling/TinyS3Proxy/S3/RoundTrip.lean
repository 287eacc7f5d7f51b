import TinyS3Proxy.S3.Signing

/-!
# Decoding what was encoded

A client frames the chunks of a body as the mode prescribes, with a checksum trailer and signatures
where the mode has them. The decoder returns the body.
-/

namespace TinyS3Proxy

open Text (Bytes Reader ascii lf crlf)
open Effect

variable {K : Type} (c : Crypto K)

/-! ### Encoding -/

/-- A body in chunks with signatures, framed for a mode. -/
def encode (mode : DecoderMode) (chunks : List (Bytes × Bytes))
    (zeroSignature trailerSignature : Bytes) : Frames where
  chunks := chunks.map fun ch =>
    ⟨Text.toHex ch.1.length, if mode.expectsChunkSignature then ch.2 else [], ch.1⟩
  zeroField := ascii "0"
  zeroSignature := if mode.expectsChunkSignature then zeroSignature else []
  trailer := mode.trailerInfo.map fun info =>
    ⟨info.1, Text.base64Encode (bodyDigest c info.2.1 (chunks.flatMap Prod.fst)), crlf⟩
  trailerSignature := mode.trailerInfo.bind fun info =>
    if info.2.2 then some ⟨AwsChunkedDecoder.trailerSignatureName, trailerSignature, crlf⟩
    else none

variable {c}

theorem body_encode
    (mode : DecoderMode) (chunks : List (Bytes × Bytes)) (zeroSignature trailerSignature : Bytes) :
  (encode c mode chunks zeroSignature trailerSignature).body = chunks.flatMap Prod.fst
  := by
  rw [Frames.body, payload, encode, List.flatMap_map]

/-- The name of the trailer is that of the header for its algorithm, up to case. -/
def NamesChecksum (mode : DecoderMode) : Prop :=
  ∀ info ∈ mode.trailerInfo, Text.eqIgnoreCase info.1 info.2.1.headerName = true

/-- The signatures have the form that the mode asks for. -/
structure ShapesOk (c : Crypto K) (mode : DecoderMode) (chunks : List (Bytes × Bytes))
    (zeroSignature trailerSignature : Bytes) : Prop where
  chunks : ∀ a ∈ mode.signedChunkAlgorithm, ∀ ch ∈ chunks, SignatureShape c a ch.2
  zero : ∀ a ∈ mode.signedChunkAlgorithm, SignatureShape c a zeroSignature
  trailer : ∀ a ∈ mode.signedChunkAlgorithm, mode.trailerInfo.isSome →
    SignatureShape c a trailerSignature

theorem SignatureShape.length_le
    {a : SignedChunkAlgorithm} {signature : Bytes} (h : SignatureShape c a signature) :
  signature.length ≤ 144
  := by
  cases h with
  | hmac hlen _ => omega
  | der _ _ hshort hpad _ _ _ =>
      rw [List.length_append, List.length_replicate]
      omega

theorem expectsChunkSignature_eq
    (mode : DecoderMode) :
  mode.expectsChunkSignature = mode.signedChunkAlgorithm.isSome
  := by
  cases mode with
  | nonTrailer a => rfl
  | unsignedTrailer name a => rfl
  | signedTrailer name a b => rfl

/-- The header of a chunk is well formed. -/
theorem headerOk_of_hexNumber
    {mode : DecoderMode} {sizeField signature : Bytes} {n : ℕ} (hn : Text.HexNumber sizeField n)
    (hlen : sizeField.length ≤ 16)
    (hsig : ∀ a ∈ mode.signedChunkAlgorithm, SignatureShape c a signature) :
  HeaderOk c Text.HexNumber mode.signedChunkAlgorithm sizeField
    (if mode.expectsChunkSignature then signature else []) n
  := by
  have hext : signatureExtension.length = 16 := rfl
  have hcrlf : crlf.length = 2 := rfl
  rw [expectsChunkSignature_eq]
  cases ha : mode.signedChunkAlgorithm with
  | none =>
      refine ⟨hn, fun b hb => (by cases hb), fun _ => rfl, ?_⟩
      rw [headerText, List.length_append]
      omega
  | some a =>
      have hshape := hsig a ha
      have hle := hshape.length_le
      refine ⟨hn, ?_, fun hb => (by cases hb), ?_⟩
      · intro b hb
        obtain rfl := Option.some.inj hb
        exact hshape
      · simp only [headerText, Option.isSome_some, if_true, List.length_append, List.length_cons]
        omega

/-- A line of visible text is well formed. -/
theorem trailerLine_ok
    {name value : Bytes} (hname : Text.Visible name) (hcolon : (58 : UInt8) ∉ name)
    (hvalue : Text.Visible value) (hlen : name.length + value.length ≤ 4000) :
  TrailerLine.Ok ⟨name, value, crlf⟩
  := by
  have htext : Text.Visible (TrailerLine.text ⟨name, value, crlf⟩) := by
    rw [TrailerLine.text, Text.visible_append, Text.visible_cons]
    exact ⟨hname, by decide, hvalue⟩
  have hcrlf : crlf.length = 2 := rfl
  refine ⟨hcolon, htext.lf_notMem, htext.validUtf8, Or.inl rfl, ?_⟩
  simp only [TrailerLine.bytes, TrailerLine.text, List.length_append, List.length_cons]
  omega

theorem lower_headerName
    (a : ChecksumAlgorithm) :
  Text.lower a.headerName = a.headerName ∧ Text.Visible a.headerName ∧
    (58 : UInt8) ∉ a.headerName ∧ a.headerName.length ≤ 24 ∧ a.digestLen ≤ 32
  := by
  cases a with
  | crc32 => decide
  | crc32C => decide
  | crc64Nvme => decide
  | sha1 => decide
  | sha256 => decide

theorem bodyDigest_length
    (hc : c.Lawful) (a : ChecksumAlgorithm) (body : Bytes) :
  (bodyDigest c a body).length = a.digestLen
  := by
  cases a with
  | sha256 => exact hc.sha256_length body
  | crc32 => exact hc.checksum_length _ body
  | crc32C => exact hc.checksum_length _ body
  | crc64Nvme => exact hc.checksum_length _ body
  | sha1 => exact hc.checksum_length _ body

/-- The trailer line declares the checksum of the body. -/
theorem trailerOk_encode
    (hc : c.Lawful) {name : Bytes} {a : ChecksumAlgorithm} (body : Bytes)
    (hname : Text.eqIgnoreCase name a.headerName = true) :
  TrailerOk c name a body ⟨name, Text.base64Encode (bodyDigest c a body), crlf⟩
  := by
  obtain ⟨hlower, hvis, hcolon, hlen, hdigest⟩ := lower_headerName a
  have heq : Text.lower name = a.headerName := (of_decide_eq_true hname).trans hlower
  have hnvis : Text.Visible name := Text.visible_of_lower (heq ▸ hvis)
  have hncolon : (58 : UInt8) ∉ name := by
    intro hm
    apply hcolon
    rw [← heq]
    exact List.mem_map_of_mem (f := Text.lowerByte) hm
  have hnlen : name.length = a.headerName.length := by
    rw [← heq, Text.lower, List.length_map]
  have hblen := Text.base64Encode_length (bodyDigest c a body)
  have hdlen := bodyDigest_length hc a body
  have hbvis := Text.visible_base64Encode (bodyDigest c a body)
  refine ⟨trailerLine_ok hnvis hncolon hbvis (by omega), ?_, ?_, hdlen⟩
  · rw [hnvis.trim]
    exact decide_eq_true rfl
  · rw [hbvis.trim]
    exact hc.base64Decode_encode _

theorem trailerSignatureOk_encode
    {a : SignedChunkAlgorithm} {signature : Bytes} (h : SignatureShape c a signature) :
  TrailerSignatureOk c a ⟨AwsChunkedDecoder.trailerSignatureName, signature, crlf⟩
  := by
  have hname : Text.Visible AwsChunkedDecoder.trailerSignatureName := by decide
  have hlen : AwsChunkedDecoder.trailerSignatureName.length = 23 := rfl
  have hle := h.length_le
  refine ⟨trailerLine_ok hname (by decide) h.visible (by omega), ?_, ?_⟩
  · rw [hname.trim]
    exact decide_eq_true rfl
  · rw [h.visible.trim]
    exact h

/-- The ending of an encoded body is that of the mode. -/
theorem endingOk_encode
    (hc : c.Lawful) {mode : DecoderMode} {chunks : List (Bytes × Bytes)}
    {zeroSignature trailerSignature : Bytes} (hname : NamesChecksum mode)
    (hshape : ShapesOk c mode chunks zeroSignature trailerSignature) :
  EndingOk c (chunks.flatMap Prod.fst) mode
    (encode c mode chunks zeroSignature trailerSignature).trailer
    (encode c mode chunks zeroSignature trailerSignature).trailerSignature
  := by
  cases mode with
  | nonTrailer a => exact .nonTrailer
  | unsignedTrailer name a => exact .unsignedTrailer (trailerOk_encode hc _ (hname _ rfl))
  | signedTrailer name a b =>
      exact .signedTrailer (trailerOk_encode hc _ (hname _ rfl))
        (trailerSignatureOk_encode (hshape.trailer b rfl rfl))

/-- An encoded body is well formed. -/
theorem framesOk_encode
    (hc : c.Lawful) {mode : DecoderMode} {chunks : List (Bytes × Bytes)}
    {zeroSignature trailerSignature : Bytes} {declared : ℕ} (hname : NamesChecksum mode)
    (hshape : ShapesOk c mode chunks zeroSignature trailerSignature)
    (hne : ∀ ch ∈ chunks, ch.1 ≠ []) (hlarge : ∀ ch ∈ chunks.dropLast, 8192 ≤ ch.1.length)
    (hlen : (chunks.flatMap Prod.fst).length = declared) (hsmall : declared < 2 ^ 64) :
  FramesOk c Text.HexNumber mode declared (encode c mode chunks zeroSignature trailerSignature)
  := by
  have hsize : ∀ ch ∈ chunks, ch.1.length < 2 ^ 64 := by
    intro ch hch
    have hsub : ch.1.length ≤ (chunks.flatMap Prod.fst).length := by
      rw [List.length_flatMap]
      exact List.single_le_sum (fun _ _ => Nat.zero_le _) _ (List.mem_map_of_mem hch)
    omega
  refine ⟨⟨?_, ?_, ?_, ?_⟩, ?_⟩
  · intro x hx
    obtain ⟨ch, hch, rfl⟩ := List.mem_map.mp hx
    refine ⟨hne ch hch, ?_⟩
    exact headerOk_of_hexNumber (Text.hexNumber_toHex (hsize ch hch))
      (Text.toHex_length_le (hsize ch hch)) fun a ha => hshape.chunks a ha ch hch
  · intro x hx
    have hx' : x ∈ (chunks.dropLast.map fun ch => (⟨Text.toHex ch.1.length,
        if mode.expectsChunkSignature then ch.2 else [], ch.1⟩ : Chunk)) := by
      rw [List.map_dropLast]
      exact hx
    obtain ⟨ch, hch, rfl⟩ := List.mem_map.mp hx'
    exact hlarge ch hch
  · have hzero : Text.HexNumber (ascii "0") 0 := ⟨by decide, by decide, by decide, by decide⟩
    have hshort : (ascii "0").length ≤ 16 := by decide
    exact headerOk_of_hexNumber hzero hshort hshape.zero
  · rw [body_encode]
    exact endingOk_encode hc hname hshape
  · rw [body_encode]
    exact hlen

/-! ### Decoding -/

/-- A body with digits for sizes is one that the decoder parses. -/
theorem Framed.parsed
    {mode : DecoderMode} {F : Frames} (h : Framed c Text.HexNumber mode F) :
  Framed c ParsedSize mode F
  where
  chunks := fun ch hch =>
    ⟨(h.chunks ch hch).nonempty, (h.chunks ch hch).header.mono parsedSize_of_hexNumber⟩
  large := h.large
  zero := h.zero.mono parsedSize_of_hexNumber
  ending := h.ending

/-- Without verification, any signatures form a chain. -/
theorem signedChain_shapeOnly
    (mode : DecoderMode) (F : Frames) :
  SignedChain c .shapeOnly mode F
  := by
  have hlinked : ∀ (next : Bytes → Bytes) (p : Bytes) (links : List (Bytes × Bytes)),
      Chain.Linked (CoversChunk c .shapeOnly) next p links := by
    intro next p links
    induction links generalizing p with
    | nil => trivial
    | cons link links ih => exact ⟨trivial, ih _⟩
  exact ⟨hlinked _ _ _, fun _ _ _ _ => trivial⟩

/-- The checksum header that the decoder returns for a mode. -/
def checksumOf (c : Crypto K) (mode : DecoderMode) (body : Bytes) : Option ChecksumHeader :=
  mode.trailerInfo.map fun info =>
    ⟨info.2.1, info.2.1.headerName, Text.base64Encode (bodyDigest c info.2.1 body)⟩

theorem declaredChecksum_encode
    (mode : DecoderMode) (chunks : List (Bytes × Bytes)) (zeroSignature trailerSignature : Bytes) :
  declaredChecksum mode (encode c mode chunks zeroSignature trailerSignature).trailer
    = checksumOf c mode (chunks.flatMap Prod.fst)
  := by
  cases mode with
  | nonTrailer a => rfl
  | unsignedTrailer name a =>
      change some (ChecksumHeader.mk _ _ (Text.trim (Text.base64Encode _))) = _
      rw [(Text.visible_base64Encode _).trim]
      rfl
  | signedTrailer name a b =>
      change some (ChecksumHeader.mk _ _ (Text.trim (Text.base64Encode _))) = _
      rw [(Text.visible_base64Encode _).trim]
      rfl

/-- Decoding undoes encoding, in every mode and under every policy: the decoder writes the body, and
returns its length, its hash and the checksum that its trailer declares. -/
theorem decode_encode
    (hc : c.Lawful) {mode : DecoderMode} {policy : ChunkSignaturePolicy K}
    {chunks : List (Bytes × Bytes)} {zeroSignature trailerSignature : Bytes}
    {inner : Reader} {declared : UInt64} {writer : Sink} (hname : NamesChecksum mode)
    (hne : ∀ ch ∈ chunks, ch.1 ≠ []) (hlarge : ∀ ch ∈ chunks.dropLast, 8192 ≤ ch.1.length)
    (hlen : (chunks.flatMap Prod.fst).length = declared.toNat)
    (hshape : ShapesOk c mode chunks zeroSignature trailerSignature)
    (hsigned : policy ≠ .shapeOnly → mode.expectsChunkSignature = true →
      SignedChain c policy mode (encode c mode chunks zeroSignature trailerSignature))
    (hbytes : inner.bytes = (encode c mode chunks zeroSignature trailerSignature).bytes
      mode.signedChunkAlgorithm)
    (hfail : inner.failing = false) (hroom : writer.room = none) :
  ∃ s', Returns (AwsChunkedDecoder.decodeToWriter c)
      (.withModeAndSignaturePolicy inner declared mode policy writer)
      ⟨declared, c.sha256 (chunks.flatMap Prod.fst),
        Text.hexEncode (c.sha256 (chunks.flatMap Prod.fst)),
        checksumOf c mode (chunks.flatMap Prod.fst)⟩ s' ∧
    s'.writer.written = writer.written ++ chunks.flatMap Prod.fst
  := by
  have hok := framesOk_encode hc hname hshape hne hlarge hlen declared.toNat_lt
  have hacc : AcceptsSignatures c policy mode
      (encode c mode chunks zeroSignature trailerSignature) := by
    cases hexp : mode.expectsChunkSignature with
    | true =>
        rw [acceptsSignatures_iff hexp]
        by_cases hpol : policy = .shapeOnly
        · subst hpol
          exact signedChain_shapeOnly mode _
        · exact hsigned hpol hexp
    | false =>
        apply acceptsSignatures_of_unsigned hexp
        cases mode with
        | nonTrailer a => cases hexp
        | unsignedTrailer name a => rfl
        | signedTrailer name a b => cases hexp
  obtain ⟨s', hrun, hw⟩ := AwsChunkedDecoder.exists_decodeToWriter
    ⟨hok.toFramed.parsed, hok.length⟩ hbytes hfail hroom hacc
  use s'
  rw [AwsChunkedDecoder.summaryOf, declaredChecksum_encode, body_encode] at hrun
  rw [body_encode] at hw
  exact ⟨hrun, hw⟩

/-! ### A body of five bytes -/

/-- The bytes with the given hexadecimal form. -/
def unhex (s : String) : Bytes := (Text.decodePairs Text.hexNibble (ascii s)).getD []

/-- A context of a chain, as a verified request leaves it. -/
def sampleContext : StreamingSigV4Context where
  signingKey := List.replicate 32 107
  amzDate := ascii "20130524T000000Z"
  scope := ascii "20130524/us-east-1/s3/aws4_request"
  previousSignatureHex :=
    ascii "4f232c4386841ef735655705268965c44a0e4690baa4adea153f7db9fa80a0a9"

def sampleSignature : String := "a6f6d74ff133be9a1bf007c1ddfc80c551809c00865949249d312c6f1eb6fc70"

def sampleZeroSignature : String :=
  "43c3ca8d18af5d7303b2c8b3735b6f4fcc2c18ff874ae9af49387edad1bf1277"

def sampleTrailerSignature : String :=
  "29b34e8b568d21dd54a785d0e9e538ae8b0dab4c2e6b693c990279b2dc75d1b8"

def sampleHash : String := "2cf24dba5fb0a30e26e83b2ac5b9e29e1b161e5c1fa7425e73043362938b9824"

/-- The strings that are signed under the key of the sample context, with their keyed hashes. -/
def sampleSigned : List (Bytes × Bytes) :=
  [(sampleContext.chunkSts (ascii sampleHash), unhex sampleSignature),
    (StreamingSigV4Context.chunkSts
      { sampleContext with previousSignatureHex := ascii sampleSignature } emptySha256Hex,
      unhex sampleZeroSignature),
    (trailerStringToSign (ascii "AWS4-HMAC-SHA256-TRAILER") sampleContext.amzDate
      sampleContext.scope (ascii sampleZeroSignature)
      (ascii "38e99211513563d256b5151b6e16342dfd235371132e5a97423ee7bf60ac5f14"),
      unhex sampleTrailerSignature)]

/-- The strings that are hashed, with their hashes. -/
def sampleHashed : List (Bytes × Bytes) :=
  [(ascii "hello", unhex sampleHash),
    (ascii "x-amz-checksum-crc32:NhCmhg==\n",
      unhex "38e99211513563d256b5151b6e16342dfd235371132e5a97423ee7bf60ac5f14")]

/-- Primitives with the real values at the strings above, and those of `rest` elsewhere. -/
def sampleCrypto (rest : Bytes → Bytes) : Crypto Unit where
  sha256 bs := (sampleHashed.lookup bs).getD (rest bs)
  hmacSha256 key bs :=
    if key = sampleContext.signingKey then (sampleSigned.lookup bs).getD (rest bs) else rest bs
  fromDer _ := false
  verify _ _ _ := false
  checksum a bs :=
    if a = .crc32 ∧ bs = ascii "hello" then unhex "3610a686" else List.replicate a.digestLen 0
  base64Decode bs :=
    match Text.base64Decode bs with
    | some decoded => .ok decoded
    | none => .error []

/-- Hashes of the right length. -/
def zeros (_ : Bytes) : Bytes := List.replicate 32 0

theorem lookup_length
    {table : List (Bytes × Bytes)} {n : ℕ} (h : ∀ entry ∈ table, entry.2.length = n) {bs d : Bytes}
    (hd : d.length = n) :
  ((table.lookup bs).getD d).length = n
  := by
  induction table with
  | nil => exact hd
  | cons entry table ih =>
      obtain ⟨key, value⟩ := entry
      rw [List.lookup_cons]
      split
      next => exact h _ List.mem_cons_self
      next => exact ih fun e he => h e (List.mem_cons_of_mem _ he)

theorem sampleCrypto_lawful :
  (sampleCrypto zeros).Lawful
  where
  sha256_length := fun bs => lookup_length (by decide +kernel) List.length_replicate
  hmacSha256_length := by
    intro key bs
    simp only [sampleCrypto]
    split
    next => exact lookup_length (by decide +kernel) List.length_replicate
    next => exact List.length_replicate
  checksum_length := by
    intro a bs
    simp only [sampleCrypto]
    split
    next h =>
      rw [h.1]
      decide +kernel
    next => exact List.length_replicate
  base64Decode_encode := by
    intro bs
    simp only [sampleCrypto, Text.base64Decode_base64Encode]

/-- The mode of the sample: signed chunks, and a signed trailer. -/
def sampleMode : DecoderMode :=
  .signedTrailer (ascii "x-amz-checksum-crc32") .crc32 .hmacSha256

/-- A body of one chunk, signed under the sample context. -/
def sampleFrames : Frames :=
  encode (sampleCrypto zeros) sampleMode [(ascii "hello", ascii sampleSignature)]
    (ascii sampleZeroSignature) (ascii sampleTrailerSignature)

theorem shape_of_hex
    {s : String} (h : (ascii s).length = 64 ∧ ∀ b ∈ ascii s, Text.isLowerHex b = true) :
  SignatureShape c .hmacSha256 (ascii s)
  := .hmac h.1 h.2

theorem sampleShapes :
  ShapesOk (sampleCrypto zeros) sampleMode [(ascii "hello", ascii sampleSignature)]
    (ascii sampleZeroSignature) (ascii sampleTrailerSignature)
  where
  chunks := by
    intro a ha ch hch
    obtain rfl := Option.some.inj ha
    obtain rfl := List.mem_singleton.mp hch
    exact shape_of_hex (by decide +kernel)
  zero := by
    intro a ha
    obtain rfl := Option.some.inj ha
    exact shape_of_hex (by decide +kernel)
  trailer := by
    intro a ha _
    obtain rfl := Option.some.inj ha
    exact shape_of_hex (by decide +kernel)

theorem sampleChain :
  SignedChain (sampleCrypto zeros) (.verifyHmac sampleContext) sampleMode sampleFrames
  where
  chunks := by
    have h₁ : parseHex32 (ascii sampleSignature) = some ((sampleCrypto zeros).hmacSha256
        sampleContext.signingKey (sampleContext.chunkSts (ascii sampleHash))) := by decide +kernel
    have h₂ : parseHex32 (ascii sampleZeroSignature) = some ((sampleCrypto zeros).hmacSha256
        sampleContext.signingKey (StreamingSigV4Context.chunkSts
          { sampleContext with previousSignatureHex := ascii sampleSignature } emptySha256Hex)) := by
      decide +kernel
    have hhash : Text.hexEncode ((sampleCrypto zeros).sha256 (ascii "hello")) = ascii sampleHash := by
      decide +kernel
    refine ⟨?_, h₂, trivial⟩
    change parseHex32 (ascii sampleSignature) = some ((sampleCrypto zeros).hmacSha256
      sampleContext.signingKey (sampleContext.chunkSts (Text.hexEncode _)))
    rw [hhash]
    exact h₁
  trailer := by
    intro header hheader line hline
    obtain rfl := Option.some.inj hheader
    obtain rfl := Option.some.inj hline
    change parseHex32 _ = some _
    decide +kernel

/-- The body of five bytes is decoded, with its signatures verified. -/
theorem decode_encode_hello :
  ∃ s', Returns (AwsChunkedDecoder.decodeToWriter (sampleCrypto zeros))
      (.withModeAndSignaturePolicy ⟨[sampleFrames.bytes (some .hmacSha256)], false⟩ 5 sampleMode
        (.verifyHmac sampleContext) ⟨[], none⟩)
      ⟨5, unhex sampleHash, ascii sampleHash,
        some ⟨.crc32, ascii "x-amz-checksum-crc32", ascii "NhCmhg=="⟩⟩ s' ∧
    s'.writer.written = ascii "hello"
  := by
  have hsummary : (⟨5, unhex sampleHash, ascii sampleHash,
      some ⟨.crc32, ascii "x-amz-checksum-crc32", ascii "NhCmhg=="⟩⟩ : DecodedSummary)
      = ⟨5, (sampleCrypto zeros).sha256 (ascii "hello"),
        Text.hexEncode ((sampleCrypto zeros).sha256 (ascii "hello")),
        checksumOf (sampleCrypto zeros) sampleMode (ascii "hello")⟩ := by decide +kernel
  rw [hsummary]
  have hname : NamesChecksum sampleMode := by
    intro info hinfo
    obtain rfl := Option.some.inj hinfo
    decide +kernel
  apply decode_encode sampleCrypto_lawful hname (by decide +kernel) (by decide +kernel)
    (by decide +kernel)
    sampleShapes (fun _ _ => sampleChain) (List.append_nil _) rfl rfl

end TinyS3Proxy
