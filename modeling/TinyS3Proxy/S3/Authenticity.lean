import TinyS3Proxy.S3.RoundTrip
import TinyS3Proxy.S3.Unambiguous
import Mathlib.Data.List.TakeWhile

/-!
# What the signatures of a body determine

The signatures of a body that was decoded under a verifying policy form a chain from the seed, and
the chain leaves no choice: where a signature verifies over one string only and hashes do not
collide, two bodies with the same signatures have the same chunks and the same trailer.
-/

namespace TinyS3Proxy

open Text (Bytes Reader ascii lf crlf)
open Effect

variable {K : Type} {c : Crypto K}

/-! ### Padding -/

theorem trimStars_append
    {hex : Bytes} (h : (42 : UInt8) ∉ hex) (n : ℕ) :
  trimStars (hex ++ List.replicate n 42) = hex
  := by
  have hrep : ∀ b ∈ List.replicate n (42 : UInt8), decide (b = 42) = true := by
    intro b hb
    exact decide_eq_true (List.eq_of_mem_replicate hb)
  have hhex : hex.reverse.dropWhile (· = 42) = hex.reverse := by
    rw [List.dropWhile_eq_self_iff]
    intro hlen heq
    apply h
    rw [← List.mem_reverse, ← of_decide_eq_true heq]
    exact List.getElem_mem hlen
  rw [trimStars, List.reverse_append, List.reverse_replicate, List.dropWhile_append_of_pos hrep, hhex,
    List.reverse_reverse]

/-- A padded signature is parsed as the one without its padding. -/
theorem parseDer_trimStars
    {signature der : Bytes} (h : parseStreamingDerSignatureHexPadded c signature = .ok der) :
  parseDerSignatureHex c (trimStars signature) = .ok der
  := by
  rw [parseStreamingDerSignatureHexPadded] at h
  split at h
  next => cases h
  next =>
    split at h
    next hex stars hs =>
      obtain ⟨rfl, hstar⟩ := Text.splitOnce_eq_some.mp hs
      split at h
      next => cases h
      next =>
        split at h
        next => cases h
        next hall =>
          have hrep : 42 :: stars = List.replicate (stars.length + 1) 42 := by
            apply List.eq_replicate_of_mem
            simpa using hall
          rw [hrep, trimStars_append hstar]
          exact h
    next hs =>
      have htrim := trimStars_append (Text.splitOnce_eq_none.mp hs) 0
      rw [List.replicate_zero, List.append_nil] at htrim
      rw [htrim]
      exact h

namespace ChunkSignaturePolicy

variable {d : ChunkSignaturePolicy K}

/-- Signatures that differ in their padding only verify over the same strings. -/
theorem Verifies.of_unpadded
    {text text' signature signature' : Bytes} (h : d.Verifies c text signature)
    (h' : d.Verifies c text' signature') (heq : d.unpadded signature = d.unpadded signature') :
  d.Verifies c text' signature
  := by
  cases d with
  | shapeOnly => trivial
  | verifyHmac ctx =>
      obtain rfl : signature = signature' := heq
      exact h'
  | verifyEcdsa ctx =>
      obtain ⟨der, hparse, -⟩ := h
      obtain ⟨der', hparse', hver'⟩ := h'
      have htrim : trimStars signature = trimStars signature' := heq
      have hder := parseDer_trimStars hparse
      rw [htrim, parseDer_trimStars hparse'] at hder
      obtain rfl := Except.ok.inj hder
      exact ⟨der', hparse, hver'⟩

variable (c d) in
/-- Under the key of the policy, a signature verifies over at most one string to sign. -/
def VerifiesOne : Prop :=
  ∀ signature text text', d.Verifies c text signature → d.Verifies c text' signature → text = text'

theorem VerifiesOne.text_eq
    (hone : d.VerifiesOne c) {text text' signature signature' : Bytes}
    (h : d.Verifies c text signature) (h' : d.Verifies c text' signature')
    (heq : d.unpadded signature = d.unpadded signature') :
  text = text'
  := hone signature text text' h (h.of_unpadded h' heq)

/-- Without verification, a signature verifies over every string. -/
theorem VerifiesOne.ne_shapeOnly
    (hone : d.VerifiesOne c) :
  d ≠ .shapeOnly
  := by
  rintro rfl
  cases hone [] [] [0] trivial trivial

/-- The string to sign for a chunk determines the hash of the chunk. -/
theorem chunkText_injective
    (hd : d ≠ .shapeOnly) {previous hashHex hashHex' : Bytes}
    (h : d.chunkText previous hashHex = d.chunkText previous hashHex') :
  hashHex = hashHex'
  := by
  cases d with
  | shapeOnly => exact absurd rfl hd
  | verifyHmac ctx => simpa [chunkText, chunkStringToSign] using h
  | verifyEcdsa ctx => simpa [chunkText, chunkStringToSign] using h

/-- The string to sign for a trailer determines the hash of the trailer. -/
theorem trailerText_injective
    (hd : d ≠ .shapeOnly) {previous hashHex hashHex' : Bytes}
    (h : d.trailerText previous hashHex = d.trailerText previous hashHex') :
  hashHex = hashHex'
  := by
  cases d with
  | shapeOnly => exact absurd rfl hd
  | verifyHmac ctx => simpa [trailerText, trailerStringToSign] using h
  | verifyEcdsa ctx => simpa [trailerText, trailerStringToSign] using h

end ChunkSignaturePolicy

/-! ### Bodies with the same signatures -/

/-- The signatures of a body in order, without their padding: those of the chunks, that of the
chunk of size zero and that of the trailer. -/
def Frames.signatures (d : ChunkSignaturePolicy K) (F : Frames) : List Bytes × Option Bytes :=
  (F.chunks.map (fun ch => d.unpadded ch.signature) ++ [d.unpadded F.zeroSignature],
    F.trailerSignature.map fun line => d.unpadded (Text.trim line.value))

theorem map_links
    (d : ChunkSignaturePolicy K) (F : Frames) :
  (F.links c).map (fun link => d.unpadded link.2) = (F.signatures d).1
  := by
  simp [Frames.links, Frames.signatures, Function.comp_def]

/-- The chunks of a body are determined by its signatures. -/
theorem SignedChain.chunks_eq
    {d : ChunkSignaturePolicy K} {mode : DecoderMode} {F F' : Frames}
    (hone : d.VerifiesOne c) (hsha : Function.Injective c.sha256) (h : SignedChain c d mode F)
    (h' : SignedChain c d mode F') (hsigs : F.signatures d = F'.signatures d) :
  F.chunks.map Chunk.data = F'.chunks.map Chunk.data
  := by
  have hV : ∀ p m m' s s' : Bytes, CoversChunk c d p m s → CoversChunk c d p m' s' →
      d.unpadded s = d.unpadded s' → m = m' := by
    intro p m m' s s' hs hs' heq
    exact ChunkSignaturePolicy.chunkText_injective hone.ne_shapeOnly (hone.text_eq hs hs' heq)
  have hmessages := Chain.Linked.messages_eq hV h.chunks h'.chunks
    (by rw [map_links, map_links, hsigs])
  have hhashes : F.chunks.map (fun ch => Text.hexEncode (c.sha256 ch.data))
      = F'.chunks.map fun ch => Text.hexEncode (c.sha256 ch.data) := by
    simpa [Frames.links, Function.comp_def] using hmessages
  have hinj : Function.Injective fun data => Text.hexEncode (c.sha256 data) :=
    Text.hexEncode_injective.comp hsha
  apply hinj.list_map
  simpa [Function.comp_def] using hhashes

/-- A trailer is determined by what its signature covers. -/
theorem canonicalTrailer_injective
    {header header' : ChecksumHeader} (halg : header.algorithm = header'.algorithm)
    (hname : header.name = header'.name)
    (h : AwsChunkedDecoder.canonicalTrailer header = AwsChunkedDecoder.canonicalTrailer header') :
  header = header'
  := by
  obtain ⟨a, name, value⟩ := header
  obtain ⟨a', name', value'⟩ := header'
  obtain rfl : a = a' := halg
  obtain rfl : name = name' := hname
  obtain rfl : value = value' := by simpa [AwsChunkedDecoder.canonicalTrailer] using h
  rfl

/-- The trailer of a body is determined by its signatures. -/
theorem SignedChain.trailer_eq
    {d : ChunkSignaturePolicy K} {mode : DecoderMode} {F F' : Frames}
    (hmode : mode.expectsChunkSignature = true) (hone : d.VerifiesOne c)
    (hsha : Function.Injective c.sha256) (h : SignedChain c d mode F)
    (h' : SignedChain c d mode F') (hframed : Framed c ParsedSize mode F)
    (hframed' : Framed c ParsedSize mode F') (hsigs : F.signatures d = F'.signatures d) :
  declaredChecksum mode F.trailer = declaredChecksum mode F'.trailer
  := by
  have hlast : Chain.last d.unpadded d.seed (F.links c)
      = Chain.last d.unpadded d.seed (F'.links c) :=
    Chain.last_eq_of_map_eq (by rw [map_links, map_links, hsigs])
  have hline := congrArg Prod.snd hsigs
  obtain ⟨chunks, zeroField, zeroSignature, t, u⟩ := F
  obtain ⟨chunks', zeroField', zeroSignature', t', u'⟩ := F'
  cases hframed.ending with
  | nonTrailer =>
      cases hframed'.ending
      rfl
  | unsignedTrailer ht => cases hmode
  | signedTrailer ht hu =>
      cases hframed'.ending with
      | signedTrailer ht' hu' =>
          have hv := h.trailer _ rfl _ rfl
          have hv' := h'.trailer _ rfl _ rfl
          rw [← hlast] at hv'
          have htext := hone.text_eq hv hv' (Option.some.inj hline)
          have hhash := ChunkSignaturePolicy.trailerText_injective hone.ne_shapeOnly htext
          have hcanon := hsha (Text.hexEncode_injective hhash)
          exact congrArg some (canonicalTrailer_injective rfl rfl hcanon)

/-! ### Decoded bodies -/

open AwsChunkedDecoder in
/-- The signatures of a body that was decoded form a chain from the seed. Where a signature
verifies over one string only and hashes do not collide, any two such bodies with the same
signatures have the same chunks, the same bytes and the same trailer. -/
theorem decoded_chain
    {mode : DecoderMode} {policy : ChunkSignaturePolicy K}
    (hmode : mode.expectsChunkSignature = true) :
  (∀ (inner : Reader) (declared : UInt64) (writer : Sink) (summary : DecodedSummary)
      (s' : AwsChunkedDecoder K),
    Returns (decodeToWriter c) (withModeAndSignaturePolicy inner declared mode policy writer)
      summary s' →
    ∃ F : Frames, inner.bytes = F.bytes mode.signedChunkAlgorithm ∧ Framed c ParsedSize mode F ∧
      s'.writer.written = writer.written ++ F.body ∧
      summary.trailer = declaredChecksum mode F.trailer ∧ SignedChain c policy mode F) ∧
  (policy.VerifiesOne c → Function.Injective c.sha256 →
    ∀ (inner inner' : Reader) (declared declared' : UInt64) (writer writer' : Sink)
      (summary summary' : DecodedSummary) (s s' : AwsChunkedDecoder K) (F F' : Frames),
    Returns (decodeToWriter c) (withModeAndSignaturePolicy inner declared mode policy writer)
      summary s →
    Returns (decodeToWriter c) (withModeAndSignaturePolicy inner' declared' mode policy writer')
      summary' s' →
    Framed c ParsedSize mode F → inner.bytes = F.bytes mode.signedChunkAlgorithm →
    Framed c ParsedSize mode F' → inner'.bytes = F'.bytes mode.signedChunkAlgorithm →
    F.signatures policy = F'.signatures policy →
    F.chunks.map Chunk.data = F'.chunks.map Chunk.data ∧
      s.writer.written = writer.written ++ F.body ∧
      s'.writer.written = writer'.written ++ F.body ∧ summary.trailer = summary'.trailer)
  := by
  have hsound : ∀ {inner : Reader} {declared : UInt64} {writer : Sink} {summary : DecodedSummary}
      {s' : AwsChunkedDecoder K},
      Returns (decodeToWriter c) (withModeAndSignaturePolicy inner declared mode policy writer)
        summary s' →
      ∃ F : Frames, inner.bytes = F.bytes mode.signedChunkAlgorithm ∧ Framed c ParsedSize mode F ∧
        s'.writer.written = writer.written ++ F.body ∧
        summary.trailer = declaredChecksum mode F.trailer ∧ SignedChain c policy mode F := by
    intro inner declared writer summary s' h
    obtain ⟨F, hbytes, -, hframed, -, hacc, rfl, hw⟩ := frames_of_decodeToWriter h
    exact ⟨F, hbytes, hframed, hw, rfl, (acceptsSignatures_iff hmode).mp hacc⟩
  constructor
  · intro inner declared writer summary s' h
    exact hsound h
  · intro hone hsha inner inner' declared declared' writer writer' summary summary' s s' F F' h h'
      hF hbytes hF' hbytes' hsigs
    obtain ⟨G, hG, hGframed, hGw, hGtrailer, hGchain⟩ := hsound h
    obtain ⟨G', hG', hGframed', hGw', hGtrailer', hGchain'⟩ := hsound h'
    obtain rfl := frames_unique hGframed hF (hG.symm.trans hbytes)
    obtain rfl := frames_unique hGframed' hF' (hG'.symm.trans hbytes')
    have hdata := SignedChain.chunks_eq hone hsha hGchain hGchain' hsigs
    have hbody : G'.body = G.body := by
      rw [Frames.body, Frames.body, payload, payload, List.flatMap_def, List.flatMap_def, hdata]
    refine ⟨hdata, hGw, ?_, ?_⟩
    · rw [hGw', hbody]
    · rw [hGtrailer, hGtrailer']
      exact SignedChain.trailer_eq hmode hone hsha hGchain hGchain' hGframed hGframed' hsigs

/-! ### Two bodies with the same signatures -/

/-- A value for every other string, longer than a hash. -/
def longer (bs : Bytes) : Bytes := List.replicate 33 0 ++ bs

theorem mem_of_lookup
    {table : List (Bytes × Bytes)} {key value : Bytes} (h : table.lookup key = some value) :
  (key, value) ∈ table
  := by
  obtain ⟨l, r, rfl, -⟩ := List.lookup_eq_some_iff.mp h
  exact List.mem_append_right l List.mem_cons_self

/-- A table of hashes with other values elsewhere does not collide, if the table does not. -/
theorem lookup_injective
    {table : List (Bytes × Bytes)} (hlen : ∀ entry ∈ table, entry.2.length = 32)
    (hinj : ∀ entry ∈ table, ∀ entry' ∈ table, entry.2 = entry'.2 → entry.1 = entry'.1) :
  Function.Injective fun bs => (table.lookup bs).getD (longer bs)
  := by
  have hlonger : ∀ bs : Bytes, 33 ≤ (longer bs).length := by
    intro bs
    rw [longer, List.length_append, List.length_replicate]
    omega
  intro x y h
  simp only at h
  cases hx : table.lookup x with
  | none =>
      cases hy : table.lookup y with
      | none =>
          rw [hx, hy] at h
          exact List.append_cancel_left h
      | some w =>
          have hw : w.length = 32 := hlen _ (mem_of_lookup hy)
          have hl := hlonger x
          rw [hx, hy] at h
          simp only [Option.getD_none, Option.getD_some] at h
          rw [h] at hl
          omega
  | some v =>
      have hv : v.length = 32 := hlen _ (mem_of_lookup hx)
      cases hy : table.lookup y with
      | none =>
          have hl := hlonger y
          rw [hx, hy] at h
          simp only [Option.getD_none, Option.getD_some] at h
          rw [← h] at hl
          omega
      | some w =>
          rw [hx, hy] at h
          exact hinj _ (mem_of_lookup hx) _ (mem_of_lookup hy) h

/-- A body of one chunk, with the given size field. -/
def helloFrames (sizeField : Bytes) : Frames :=
  ⟨[⟨sizeField, ascii sampleSignature, ascii "hello"⟩], ascii "0", ascii sampleZeroSignature, none,
    none⟩

theorem helloFrames_framed
    {sizeField : Bytes} (hsize : ParsedSize sizeField 5) (hlen : sizeField.length ≤ 2) :
  Framed (sampleCrypto longer) ParsedSize (.nonTrailer .hmacSha256) (helloFrames sizeField)
  where
  chunks := by
    intro ch hch
    obtain rfl := List.mem_singleton.mp hch
    have hne : ascii "hello" ≠ [] := by decide
    refine ⟨hne, hsize, ?_, nofun, ?_⟩
    · intro b hb
      obtain rfl := Option.some.inj hb
      exact shape_of_hex (by decide +kernel)
    · have hrest : (59 :: (signatureExtension ++ ascii sampleSignature) ++ crlf).length = 83 := by
        decide +kernel
      have happ : headerText (some .hmacSha256) sizeField (ascii sampleSignature) ++ crlf
          = sizeField ++ (59 :: (signatureExtension ++ ascii sampleSignature) ++ crlf) :=
        List.append_assoc ..
      simp only [DecoderMode.signedChunkAlgorithm]
      rw [happ, List.length_append, hrest]
      omega
  large := nofun
  zero := by
    have hzero : Text.fromStrRadix16 (ascii "0") = some 0 := by decide
    have hshort : (headerText (some .hmacSha256) (ascii "0") (ascii sampleZeroSignature)
        ++ crlf).length ≤ 4096 := by decide
    refine ⟨hzero, ?_, nofun, hshort⟩
    intro b hb
    obtain rfl := Option.some.inj hb
    exact shape_of_hex (by decide +kernel)
  ending := .nonTrailer

theorem helloFrames_chain
    (sizeField : Bytes) :
  SignedChain (sampleCrypto longer) (.verifyHmac sampleContext) (.nonTrailer .hmacSha256)
    (helloFrames sizeField)
  where
  chunks := by
    have h₁ : parseHex32 (ascii sampleSignature) = some ((sampleCrypto longer).hmacSha256
        sampleContext.signingKey (sampleContext.chunkSts
          (Text.hexEncode ((sampleCrypto longer).sha256 (ascii "hello"))))) := by decide +kernel
    have h₂ : parseHex32 (ascii sampleZeroSignature) = some ((sampleCrypto longer).hmacSha256
        sampleContext.signingKey (StreamingSigV4Context.chunkSts
          { sampleContext with previousSignatureHex := ascii sampleSignature } emptySha256Hex)) := by
      decide +kernel
    exact ⟨h₁, h₂, trivial⟩
  trailer := nofun

/-- The stream of a body of one chunk. -/
def helloReader (sizeField : Bytes) : Reader :=
  ⟨[(helloFrames sizeField).bytes (some .hmacSha256)], false⟩

theorem helloReader_decoded
    {sizeField : Bytes} (hsize : ParsedSize sizeField 5) (hlen : sizeField.length ≤ 2) :
  ∃ summary s', Returns (AwsChunkedDecoder.decodeToWriter (sampleCrypto longer))
    (.withModeAndSignaturePolicy (helloReader sizeField) 5 (.nonTrailer .hmacSha256)
      (.verifyHmac sampleContext) ⟨[], none⟩) summary s'
  := by
  have hacc : AcceptsSignatures (sampleCrypto longer) (.verifyHmac sampleContext)
      (.nonTrailer .hmacSha256) (helloFrames sizeField) :=
    (acceptsSignatures_iff rfl).mpr (helloFrames_chain sizeField)
  obtain ⟨s', hrun, -⟩ := @AwsChunkedDecoder.exists_decodeToWriter Unit (sampleCrypto longer)
    (helloReader sizeField) 5 (.nonTrailer .hmacSha256) (.verifyHmac sampleContext) ⟨[], none⟩
    (helloFrames sizeField) ⟨helloFrames_framed hsize hlen, rfl⟩ (List.append_nil _) rfl rfl hacc
  exact ⟨_, s', hrun⟩

/-- The size fields of a body are not signed: the same body with the size written in two ways has
the same signatures, and is decoded to the same bytes. -/
theorem decoded_chain_hello :
  ∃ summary summary' s s',
    Returns (AwsChunkedDecoder.decodeToWriter (sampleCrypto longer))
      (.withModeAndSignaturePolicy (helloReader (ascii "5")) 5 (.nonTrailer .hmacSha256)
        (.verifyHmac sampleContext) ⟨[], none⟩) summary s ∧
    Returns (AwsChunkedDecoder.decodeToWriter (sampleCrypto longer))
      (.withModeAndSignaturePolicy (helloReader (ascii "05")) 5 (.nonTrailer .hmacSha256)
        (.verifyHmac sampleContext) ⟨[], none⟩) summary' s' ∧
    s.writer.written = s'.writer.written ∧ summary.trailer = summary'.trailer
  := by
  have hone : (ChunkSignaturePolicy.verifyHmac sampleContext).VerifiesOne (sampleCrypto longer) := by
    intro signature text text' h h'
    have hinj := @lookup_injective sampleSigned (by decide +kernel) (by decide +kernel)
    apply hinj
    have heq := Option.some.inj (h.symm.trans h')
    simpa [sampleCrypto] using heq
  have hsha : Function.Injective (sampleCrypto longer).sha256 :=
    lookup_injective (by decide +kernel) (by decide +kernel)
  have hsize : Text.fromStrRadix16 (ascii "5") = some 5 := by decide
  have hsize' : Text.fromStrRadix16 (ascii "05") = some 5 := by decide
  have hlen : (ascii "5").length ≤ 2 := by decide
  have hlen' : (ascii "05").length ≤ 2 := by decide
  obtain ⟨summary, s, hrun⟩ := helloReader_decoded hsize hlen
  obtain ⟨summary', s', hrun'⟩ := helloReader_decoded hsize' hlen'
  obtain ⟨-, hw, hw', htrailer⟩ := (decoded_chain rfl).2 hone hsha _ _ _ _ _ _ _ _ _ _ _ _ hrun hrun'
    (helloFrames_framed hsize hlen) (List.append_nil _) (helloFrames_framed hsize' hlen')
    (List.append_nil _) rfl
  exact ⟨summary, summary', s, s', hrun, hrun', hw.trans hw'.symm, htrailer⟩

end TinyS3Proxy
