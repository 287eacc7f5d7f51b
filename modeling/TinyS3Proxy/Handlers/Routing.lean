import TinyS3Proxy.Handlers.AwsChunked

/-!
# The route of an upload and the mode of the decoder

Two functions read the wire format of an upload from its headers: one looks at all of them and
decides on a route, the other looks at the only one and decides on the mode of the decoder. An
upload on the route to the decoder is decoded under the format that it was routed by, unless a
header occurs more than once.
-/

namespace TinyS3Proxy

open Text (Bytes ascii)

/-- The mode of the decoder for a wire format, with the algorithm that the headers declare. -/
def AwsChunkedUploadMode.decoderMode (rawHeaders : HeaderMap) :
    AwsChunkedUploadMode → Option DecoderMode
  | nonTrailerHmacSha256 => some (.nonTrailer .hmacSha256)
  | nonTrailerEcdsaP256 => some (.nonTrailer .ecdsaP256)
  | unsignedTrailer =>
      (declaredAlgorithm rawHeaders).map fun a => .unsignedTrailer a.headerName a
  | signedTrailerHmacSha256 =>
      (declaredAlgorithm rawHeaders).map fun a => .signedTrailer a.headerName a .hmacSha256
  | signedTrailerEcdsaP256 =>
      (declaredAlgorithm rawHeaders).map fun a => .signedTrailer a.headerName a .ecdsaP256
  | otherStreaming => none

/-! ### Routes -/

/-- The format of an upload on the route to the decoder is known. -/
theorem classify_of_awsChunkedRouteFor
    {rawHeaders : HeaderMap} (h : awsChunkedRouteFor rawHeaders = .decodeAwsChunked) :
  ∃ mode, classifyAwsChunkedUpload rawHeaders = some mode ∧ mode ≠ .otherStreaming
  := by
  rw [awsChunkedRouteFor] at h
  split at h
  next => cases h
  next => cases h
  next mode hne hmode => exact ⟨mode, hmode, fun heq => hne heq⟩

theorem awsChunkedRouteFor_of_put
    {extraAmz : List (Bytes × Bytes)} {rawHeaders : HeaderMap}
    (h : classifyPutBodyRoute extraAmz rawHeaders = .decodeAwsChunked) :
  awsChunkedRouteFor rawHeaders = .decodeAwsChunked
  := by
  simp only [classifyPutBodyRoute] at h
  split at h
  next => cases h
  next =>
    split at h
    next => cases h
    next =>
      split at h
      next => cases h
      next => exact h

theorem awsChunkedRouteFor_of_uploadPart
    {extraAmz : List (Bytes × Bytes)} {rawHeaders : HeaderMap}
    (h : classifyUploadPartBodyRoute extraAmz rawHeaders = .decodeAwsChunked) :
  awsChunkedRouteFor rawHeaders = .decodeAwsChunked
  := by
  simp only [classifyUploadPartBodyRoute] at h
  split at h
  next => cases h
  next =>
    split at h
    next => cases h
    next =>
      split at h
      next => cases h
      next =>
        split at h
        next hroute => exact hroute
        next =>
          split at h
          next => cases h
          next => exact h

/-! ### Formats -/

/-- A format that is known is the one that the values were found to stand for. -/
theorem foldl_of_classify
    {rawHeaders : HeaderMap} {mode : AwsChunkedUploadMode}
    (h : classifyAwsChunkedUpload rawHeaders = some mode) (hne : mode ≠ .otherStreaming) :
  (rawHeaders.getAll contentSha256Name).foldl
    (observeUploadMode (trailerAlgorithmSupported rawHeaders)) none = some mode
  := by
  simp only [classifyAwsChunkedUpload] at h
  split at h
  next => exact absurd (Option.some.inj h).symm hne
  next =>
    split at h
    next => exact h
    next =>
      split at h
      next => exact absurd (Option.some.inj h).symm hne
      next => cases h

/-- The value that a format was found for. -/
theorem candidate_of_observe
    {supported : Bool} {value : HeaderValue} {mode : AwsChunkedUploadMode}
    (h : observeUploadMode supported none value = some mode) :
  ∃ s, value.toStr = some s ∧ Text.trim s ≠ [] ∧
    uploadModeCandidate supported (Text.upper (Text.trim s)) = some mode
  := by
  simp only [observeUploadMode] at h
  split at h
  next => cases h
  next s hs =>
    split at h
    next => cases h
    next hne => exact ⟨s, hs, hne, h⟩

/-- The trailer is read as it was found to be declared. -/
theorem readDeclaredTrailer_eq
    {rawHeaders : HeaderMap} {a : ChecksumAlgorithm} (h : declaredAlgorithm rawHeaders = some a)
    (requestId : Bytes) :
  readDeclaredTrailer rawHeaders requestId
      = .ok { algorithm := a, name := a.headerName, value := [] } ∨
    1 < (rawHeaders.getAll trailerName).length ∧
      readDeclaredTrailer rawHeaders requestId = .error (multipleTrailers requestId)
  := by
  rw [declaredAlgorithm, HeaderMap.get] at h
  rw [readDeclaredTrailer]
  rcases hvalues : rawHeaders.getAll trailerName with _ | ⟨raw, _ | ⟨next, rest⟩⟩
  · rw [hvalues] at h
    simp at h
  · rw [hvalues] at h
    obtain ⟨s, hs, ha⟩ := Option.bind_eq_some_iff.mp h
    rw [List.head?_cons, Option.bind_some] at hs
    left
    simp only [hs, ha]
  · right
    exact ⟨by simp, rfl⟩

theorem bind_readDeclaredTrailer
    {rawHeaders : HeaderMap} {a : ChecksumAlgorithm} (h : declaredAlgorithm rawHeaders = some a)
    (requestId : Bytes) {f : ChecksumHeader → Except S3Error DecoderMode} {dm : DecoderMode}
    (hf : f { algorithm := a, name := a.headerName, value := [] } = .ok dm) :
  readDeclaredTrailer rawHeaders requestId >>= f = .ok dm ∨
    1 < (rawHeaders.getAll trailerName).length ∧
      readDeclaredTrailer rawHeaders requestId >>= f = .error (multipleTrailers requestId)
  := by
  rcases readDeclaredTrailer_eq h requestId with hread | ⟨hlen, hread⟩
  · rw [hread]
    exact .inl hf
  · rw [hread]
    exact .inr ⟨hlen, rfl⟩

/-- A format with a trailer is found only if the trailer can be checked. -/
theorem exists_declaredAlgorithm
    {rawHeaders : HeaderMap} {known mode : AwsChunkedUploadMode}
    (h : (if trailerAlgorithmSupported rawHeaders then some known else some .otherStreaming)
      = some mode) (hne : mode ≠ .otherStreaming) :
  mode = known ∧ ∃ a, declaredAlgorithm rawHeaders = some a
  := by
  split at h
  next hsupported => exact ⟨(Option.some.inj h).symm, Option.isSome_iff_exists.mp hsupported⟩
  next => exact absurd (Option.some.inj h).symm hne

/-- The decoder is set to the format that a value was found to stand for. -/
theorem decoderModeForSentinel_eq
    {rawHeaders : HeaderMap} {sentinel : Bytes} {mode : AwsChunkedUploadMode}
    (h : uploadModeCandidate (trailerAlgorithmSupported rawHeaders) (Text.upper sentinel)
      = some mode) (hne : mode ≠ .otherStreaming) (requestId : Bytes) :
  (∃ dm, mode.decoderMode rawHeaders = some dm ∧
      decoderModeForSentinel rawHeaders sentinel requestId = .ok dm) ∨
    1 < (rawHeaders.getAll trailerName).length ∧
      decoderModeForSentinel rawHeaders sentinel requestId = .error (multipleTrailers requestId)
  := by
  simp only [decoderModeForSentinel]
  rw [uploadModeCandidate] at h
  generalize Text.upper sentinel = upper at h ⊢
  split at h
  next hupper =>
    obtain rfl := Option.some.inj h
    rw [if_pos hupper]
    exact .inl ⟨_, rfl, rfl⟩
  next hhmac =>
    rw [if_neg hhmac]
    split at h
    next hupper =>
      obtain rfl := Option.some.inj h
      rw [if_pos hupper]
      exact .inl ⟨_, rfl, rfl⟩
    next hecdsa =>
      rw [if_neg hecdsa]
      split at h
      next hupper =>
        obtain ⟨rfl, a, ha⟩ := exists_declaredAlgorithm h hne
        rw [AwsChunkedUploadMode.decoderMode, ha]
        apply Or.imp (fun h => ⟨_, rfl, h⟩) id (bind_readDeclaredTrailer ha requestId _)
        simp only [if_pos hupper]
      next hunsigned =>
        split at h
        next hupper =>
          obtain ⟨rfl, a, ha⟩ := exists_declaredAlgorithm h hne
          rw [AwsChunkedUploadMode.decoderMode, ha]
          apply Or.imp (fun h => ⟨_, rfl, h⟩) id (bind_readDeclaredTrailer ha requestId _)
          simp only [if_neg hunsigned, if_pos hupper]
        next hsigned =>
          split at h
          next hupper =>
            obtain ⟨rfl, a, ha⟩ := exists_declaredAlgorithm h hne
            rw [AwsChunkedUploadMode.decoderMode, ha]
            apply Or.imp (fun h => ⟨_, rfl, h⟩) id (bind_readDeclaredTrailer ha requestId _)
            simp only [if_neg hunsigned, if_neg hsigned, if_pos hupper]
          next =>
            split at h
            next => exact absurd (Option.some.inj h).symm hne
            next => cases h

/-- An upload that is routed to the decoder is decoded under the format that it was routed by,
unless it is rejected since a header occurs more than once. -/
theorem decoderModeFromHeaders_of_route
    {extraAmz : List (Bytes × Bytes)} {rawHeaders : HeaderMap}
    (h : classifyPutBodyRoute extraAmz rawHeaders = .decodeAwsChunked ∨
      classifyUploadPartBodyRoute extraAmz rawHeaders = .decodeAwsChunked) (requestId : Bytes) :
  ∃ mode, classifyAwsChunkedUpload rawHeaders = some mode ∧
    ((∃ dm, mode.decoderMode rawHeaders = some dm ∧
        decoderModeFromHeaders rawHeaders requestId = .ok dm) ∨
      (1 < (rawHeaders.getAll contentSha256Name).length ∧
        decoderModeFromHeaders rawHeaders requestId = .error (multipleContentSha256 requestId)) ∨
      (1 < (rawHeaders.getAll trailerName).length ∧
        decoderModeFromHeaders rawHeaders requestId = .error (multipleTrailers requestId)))
  := by
  have hroute : awsChunkedRouteFor rawHeaders = .decodeAwsChunked := by
    rcases h with h | h
    · exact awsChunkedRouteFor_of_put h
    · exact awsChunkedRouteFor_of_uploadPart h
  obtain ⟨mode, hmode, hne⟩ := classify_of_awsChunkedRouteFor hroute
  have hfold := foldl_of_classify hmode hne
  use mode, hmode
  rw [decoderModeFromHeaders]
  rcases hvalues : rawHeaders.getAll contentSha256Name with _ | ⟨raw, _ | ⟨next, rest⟩⟩
  · rw [hvalues] at hfold
    cases hfold
  · rw [hvalues] at hfold
    obtain ⟨s, hs, hne', hcandidate⟩ := candidate_of_observe hfold
    simp only [hs, if_neg hne']
    rcases decoderModeForSentinel_eq hcandidate hne requestId with hdecoder | hdecoder
    · exact .inl hdecoder
    · exact .inr (.inr hdecoder)
  · exact .inr (.inl ⟨by simp, rfl⟩)

/-- The headers of an upload with a trailer. -/
def trailerUpload : HeaderMap :=
  [(⟨contentSha256Name, by decide, by decide, by decide⟩,
      ⟨ascii " streaming-unsigned-payload-trailer", by decide⟩),
    (⟨trailerName, by decide, by decide, by decide⟩, ⟨ascii "x-amz-checksum-CRC32", by decide⟩)]

/-- An upload with a trailer is decoded with its trailer. -/
theorem decoderModeFromHeaders_trailerUpload :
  decoderModeFromHeaders trailerUpload []
    = .ok (.unsignedTrailer (ascii "x-amz-checksum-crc32") .crc32)
  := by
  have hroute : classifyPutBodyRoute [] trailerUpload = .decodeAwsChunked := by decide +kernel
  obtain ⟨mode, hmode, hcases⟩ := decoderModeFromHeaders_of_route (.inl hroute) []
  have hknown : classifyAwsChunkedUpload trailerUpload = some .unsignedTrailer := by
    decide +kernel
  obtain rfl := Option.some.inj (hmode.symm.trans hknown)
  rcases hcases with ⟨dm, hdm, hdecoder⟩ | ⟨hlen, -⟩ | ⟨hlen, -⟩
  · have hexpected : AwsChunkedUploadMode.unsignedTrailer.decoderMode trailerUpload
        = some (.unsignedTrailer (ascii "x-amz-checksum-crc32") .crc32) := by decide +kernel
    obtain rfl := Option.some.inj (hdm.symm.trans hexpected)
    exact hdecoder
  · exact absurd hlen (by decide)
  · exact absurd hlen (by decide)

end TinyS3Proxy
