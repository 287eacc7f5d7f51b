import TinyS3Proxy.Auth.Verification
import TinyS3Proxy.Handlers.Routes
import TinyS3Proxy.Text.Encoding

/-!
# Bodies of verified requests

In strict mode a request is verified, and its body is declared by a hash, or as a chain of signed
chunks, or as not signed. A body with a hash is compared with it before the request is dispatched. A
body in signed chunks is verified where it is decoded, which is done for the uploads only: the bodies
of the other requests that are passed through are sent as they are.
-/

namespace TinyS3Proxy

open Text (Bytes Reader ascii)
open Effect (exists_of_bind_eq_ok)

/-! ### Declarations -/

/-- Sentinels are what they are in upper case and without white space. -/
theorem trim_upper_canonicalString
    {p : PayloadHashForSigning} (h : ∀ hash, p ≠ .signedSha256 hash) :
  Text.trim p.canonicalString = p.canonicalString ∧
    Text.upper p.canonicalString = p.canonicalString
  := by
  have hall : ∀ p ∈ PayloadHashForSigning.sentinels,
      Text.trim p.canonicalString = p.canonicalString ∧
        Text.upper p.canonicalString = p.canonicalString := by decide +kernel
  exact hall p (PayloadHashForSigning.mem_sentinels h)

/-- A declaration is that of the value. -/
theorem classifyPayloadHeader_eq_ok
    {value requestId : Bytes} {p : PayloadHashForSigning}
    (h : classifyPayloadHeader value requestId = .ok p) :
  value = p.canonicalString
  := by
  rw [classifyPayloadHeader] at h
  split at h
  next q hfind =>
    obtain rfl := Except.ok.inj h
    have hq := List.find?_some hfind
    exact of_decide_eq_true hq
  next =>
    split at h
    next =>
      split at h
      next =>
        obtain rfl := Except.ok.inj h
        rfl
      next => cases h
    next => cases h

/-- The algorithm with which the chunks of a body are signed. -/
def PayloadHashForSigning.chunkAlgorithm : PayloadHashForSigning → Option SignedChunkAlgorithm
  | streamingAws4HmacSha256Payload | streamingAws4HmacSha256PayloadTrailer => some .hmacSha256
  | streamingAws4EcdsaP256Sha256Payload | streamingAws4EcdsaP256Sha256PayloadTrailer =>
      some .ecdsaP256
  | _ => none

theorem chunkAlgorithm_isSome
    (p : PayloadHashForSigning) :
  p.chunkAlgorithm.isSome = p.isSignedStreaming
  := by
  cases p <;> rfl

/-- A declared body in signed chunks is decoded as one. -/
theorem decoderModeForSentinel_eq_ok
    {rawHeaders : HeaderMap} {requestId : Bytes} {p : PayloadHashForSigning} {mode : DecoderMode}
    (hp : p.isSignedStreaming = true)
    (h : decoderModeForSentinel rawHeaders p.canonicalString requestId = .ok mode) :
  mode.signedChunkAlgorithm = p.chunkAlgorithm
  := by
  have hsentinel : ∀ hash, p ≠ .signedSha256 hash := by
    rintro hash rfl
    cases hp
  have hupper := (trim_upper_canonicalString hsentinel).2
  have htrailer : ∀ mode' : ChecksumHeader → DecoderMode,
      (readDeclaredTrailer rawHeaders requestId >>= fun header => .ok (mode' header))
        = Except.ok mode → ∃ header, mode = mode' header := by
    intro mode' h
    obtain ⟨header, -, h⟩ := exists_of_bind_eq_ok h
    exact ⟨header, (Except.ok.inj h).symm⟩
  rw [decoderModeForSentinel, hupper] at h
  cases p with
  | signedSha256 hash => exact absurd rfl (hsentinel hash)
  | unsignedPayload => cases hp
  | streamingUnsignedPayloadTrailer => cases hp
  | streamingAws4HmacSha256Payload =>
      obtain rfl := Except.ok.inj h
      rfl
  | streamingAws4EcdsaP256Sha256Payload =>
      obtain rfl := Except.ok.inj h
      rfl
  | streamingAws4HmacSha256PayloadTrailer =>
      obtain ⟨header, rfl⟩ := htrailer (fun header =>
        .signedTrailer header.name header.algorithm .hmacSha256) h
      rfl
  | streamingAws4EcdsaP256Sha256PayloadTrailer =>
      obtain ⟨header, rfl⟩ := htrailer (fun header =>
        .signedTrailer header.name header.algorithm .ecdsaP256) h
      rfl

/-- A body that is declared to be in signed chunks is not decoded as another one. -/
theorem decoderModeFromHeaders_eq_ok
    {parts : Parts} {requestId requestId' : Bytes} {p : PayloadHashForSigning} {mode : DecoderMode}
    (hpayload : SigV4Verifier.payloadOf parts requestId = .ok p) (hp : p.isSignedStreaming = true)
    (h : decoderModeFromHeaders parts.headers requestId' = .ok mode) :
  mode.signedChunkAlgorithm = p.chunkAlgorithm
  := by
  obtain ⟨header, hheader, hpayload⟩ := exists_of_bind_eq_ok hpayload
  obtain ⟨value, hvalue, hpayload⟩ := exists_of_bind_eq_ok hpayload
  have hget := required_eq_ok.mp hheader
  have hstr := required_eq_ok.mp hvalue
  obtain rfl := classifyPayloadHeader_eq_ok hpayload
  have hsentinel : ∀ hash, p ≠ .signedSha256 hash := by
    rintro hash rfl
    cases hp
  rw [decoderModeFromHeaders] at h
  rw [HeaderMap.get] at hget
  change (parts.headers.getAll contentSha256Name).head? = some header at hget
  rcases hall : parts.headers.getAll contentSha256Name with _ | ⟨raw, rest⟩
  · rw [hall] at hget
    cases hget
  · rw [hall] at h hget
    obtain rfl := Option.some.inj hget
    cases rest with
    | cons second rest => cases h
    | nil =>
        simp only [hstr, (trim_upper_canonicalString hsentinel).1] at h
        split at h
        next => cases h
        next => exact decoderModeForSentinel_eq_ok hp h

variable {K : Type}

/-! ### Chunks -/

/-- The signatures of chunks are verified, in a chain that starts with the signature of the
request. -/
inductive ChunkSignaturePolicy.SeededBy (v : VerifiedRequest K) : ChunkSignaturePolicy K → Prop
  | hmac {ctx : StreamingSigV4Context} (seed : StreamingSigV4Context.fromVerified v = some ctx) :
      SeededBy v (.verifyHmac ctx)
  | ecdsa {ctx : StreamingSigV4aContext K}
      (seed : StreamingSigV4aContext.fromVerified v = some ctx) :
      SeededBy v (.verifyEcdsa ctx)

/-- In strict mode, the signatures of signed chunks are verified. -/
theorem seededBy_of_signaturePolicyForDecode
    {mode : DecoderMode} {v : VerifiedRequest K} {requestId : Bytes}
    {policy : ChunkSignaturePolicy K} (hmode : mode.signedChunkAlgorithm.isSome = true)
    (h : signaturePolicyForDecode mode (some v) true requestId = .ok policy) :
  policy.SeededBy v
  := by
  rw [signaturePolicyForDecode] at h
  simp only [Bool.not_true, Bool.false_eq_true, if_false] at h
  rcases halgorithm : mode.signedChunkAlgorithm with _ | algorithm
  · rw [halgorithm] at hmode
    cases hmode
  · rw [halgorithm] at h
    cases algorithm with
    | hmacSha256 =>
        simp only at h
        split at h
        next ctx hctx =>
          obtain rfl := Except.ok.inj h
          exact .hmac hctx
        next => cases h
    | ecdsaP256 =>
        simp only at h
        split at h
        next ctx hctx =>
          obtain rfl := Except.ok.inj h
          exact .ecdsa hctx
        next => cases h

/-- A body that is declared by its hash is not decoded. -/
theorem decoderModeFromHeaders_ne_ok
    {parts : Parts} {requestId requestId' : Bytes} {hash : SignedHash} {mode : DecoderMode}
    (hpayload : SigV4Verifier.payloadOf parts requestId = .ok (.signedSha256 hash)) :
  decoderModeFromHeaders parts.headers requestId' ≠ .ok mode
  := by
  intro h
  obtain ⟨header, hheader, hpayload⟩ := exists_of_bind_eq_ok hpayload
  obtain ⟨value, hvalue, hpayload⟩ := exists_of_bind_eq_ok hpayload
  have hget := required_eq_ok.mp hheader
  have hstr := required_eq_ok.mp hvalue
  obtain rfl : value = hash.hex := classifyPayloadHeader_eq_ok hpayload
  have hlower : ∀ b ∈ hash.hex, Text.isLowerHex b = true := by
    have hparse := hash.parse_hex
    rw [parseHex32, if_neg (not_not.mpr hash.hex_length)] at hparse
    exact Text.isLowerHex_of_decodePairs hparse
  have htrim : Text.trim hash.hex = hash.hex := (Text.visible_of_isLowerHex hlower).trim
  have hne : ∀ sentinel : Bytes, sentinel.length ≠ 64 → Text.upper hash.hex ≠ sentinel := by
    rintro sentinel hlength rfl
    rw [Text.upper, List.length_map] at hlength
    exact hlength hash.hex_length
  rw [decoderModeFromHeaders] at h
  rw [HeaderMap.get] at hget
  change (parts.headers.getAll contentSha256Name).head? = some header at hget
  rcases hall : parts.headers.getAll contentSha256Name with _ | ⟨raw, rest⟩
  · rw [hall] at hget
    cases hget
  · rw [hall] at h hget
    obtain rfl := Option.some.inj hget
    cases rest with
    | cons second rest => cases h
    | nil =>
        simp only [hstr, htrim] at h
        split at h
        next => cases h
        next =>
          rw [decoderModeForSentinel, if_neg (hne _ (by decide)), if_neg (hne _ (by decide))] at h
          obtain ⟨trailer, -, h⟩ := exists_of_bind_eq_ok h
          rw [if_neg (hne _ (by decide)), if_neg (hne _ (by decide)), if_neg (hne _ (by decide))] at h
          cases h

/-! ### What is handed to the backend -/

/-- The bytes that are handed to the backend as a body. -/
def Dispatched.handedBody : Dispatched → Option Bytes
  | passthrough _ body => some body.bytes
  | putObject input => some input.body
  | putObjectFromPath input => some input.body
  | uploadPart input => some input.body
  | uploadPartFromPath input => some input.body
  | _ => none

/-- The backend is given a list of parts. -/
def Dispatched.isCompletion : Dispatched → Bool
  | completeMultipartUpload _ => true
  | _ => false

/-- The bytes were decoded of the body, with the signatures of all chunks verified. -/
def DecodedFrom (services : Services K) (parsed : ParsedRequest) (v : VerifiedRequest K)
    (body : Reader) (bytes : Bytes) : Prop :=
  ∃ declaredLen mode policy summary, policy.SeededBy v ∧
    decodeIntoSpool services.crypto services.spool parsed body declaredLen mode policy
      = .ok (bytes, summary)

/-- The bytes have the hash that was signed. -/
def HasSignedHash (services : Services K) (v : VerifiedRequest K) (bytes : Bytes) : Prop :=
  ∃ hash, v.payload = .signedSha256 hash ∧
    Text.hexEncode (services.crypto.sha256 bytes) = hash.hex

/-- What is handed to the backend of a body has the hash that was signed, or was decoded with the
signatures of all chunks verified. -/
inductive BodyAuthentic (services : Services K) (parsed : ParsedRequest) (v : VerifiedRequest K)
    (body : Reader) : Dispatched → Prop
  | hashed {d : Dispatched} {bytes : Bytes} (handed : d.handedBody = some bytes)
      (hash : HasSignedHash services v bytes) : BodyAuthentic services parsed v body d
  | putObjectFromPath {input : PutObjectSpoolInput}
      (decoded : DecodedFrom services parsed v body input.body) :
      BodyAuthentic services parsed v body (.putObjectFromPath input)
  | uploadPartFromPath {input : UploadPartSpoolInput}
      (decoded : DecodedFrom services parsed v body input.body) :
      BodyAuthentic services parsed v body (.uploadPartFromPath input)
  | completed {input : CompleteMultipartInput} {bytes : Bytes}
      (hash : HasSignedHash services v bytes)
      (parts : parseCompleteMultipartBody (services.readXml bytes) = .ok input.parts) :
      BodyAuthentic services parsed v body (.completeMultipartUpload input)
  | nothing {d : Dispatched} (handed : d.handedBody = none)
      (notCompleted : d.isCompletion = false) :
      BodyAuthentic services parsed v body d

/-- The operation has a list of parts for its body. -/
def S3Operation.isCompletion : S3Operation → Bool
  | completeMultipartUpload _ _ _ => true
  | _ => false

/-- The body of the request is compared with its hash, or decoded, or not handed on. -/
def BodyChecked (payload : PayloadHashForSigning) (operation : S3Operation)
    (route : WriteBodyRoute) : Prop :=
  payload.requiresBodyBytes = true ∨ operation.isUpload = true ∨
    (route = .typed ∧ operation.isCompletion = false)

theorem bytes_single
    (bytes : Bytes) :
  (⟨[bytes], false⟩ : Reader).bytes = bytes
  := List.append_nil bytes

theorem readBody_eq_ok
    {services : Services K} {body : Reader} {requestId bytes : Bytes}
    (h : readBody services body requestId = .ok bytes) :
  bytes = body.bytes
  := by
  rw [readBody, RequestBody.toBytes] at h
  split at h
  next => cases h
  next =>
    split at h
    next => cases h
    next => exact (Except.ok.inj h).symm

/-- A body that is declared by its hash is handled as it was read, if it has that hash. -/
theorem hasSignedHash_of_checkPayload
    {services : Services K} {v : VerifiedRequest K} {body body' : Reader} {requestId : Bytes}
    (hv : v.payload.requiresBodyBytes = true)
    (h : checkPayload services (some v) body requestId = .ok body') :
  HasSignedHash services v body'.bytes
  := by
  rw [checkPayload] at h
  simp only [hv, if_true] at h
  obtain ⟨bytes, -, h⟩ := exists_of_bind_eq_ok h
  obtain ⟨⟨⟩, hverified, h⟩ := exists_of_bind_eq_ok h
  obtain rfl := Except.ok.inj h
  rw [bytes_single]
  rcases hpayload : v.payload
  case signedSha256 hash =>
    use hash, hpayload
    rw [verifyPayloadHash, hpayload] at hverified
    simp only at hverified
    split at hverified
    next => cases hverified
    next heq => exact not_not.mp heq
  all_goals
    rw [hpayload] at hv
    cases hv

/-- Other bodies are handled as they are. -/
theorem eq_of_checkPayload
    {services : Services K} {v : VerifiedRequest K} {body body' : Reader} {requestId : Bytes}
    (hv : v.payload.requiresBodyBytes = false)
    (h : checkPayload services (some v) body requestId = .ok body') :
  body' = body
  := by
  rw [checkPayload] at h
  simp only [hv, Bool.false_eq_true, if_false] at h
  exact (Except.ok.inj h).symm

/-- Signed chunks are not passed through by an upload. -/
theorem enforce_ne_ok
    {v : VerifiedRequest K} {route : WriteBodyRoute} {requestId : Bytes}
    (hv : v.payload.isSignedStreaming = true) (hroute : route = .typed ∨ route = .passthrough) :
  enforceSignedStreamingDecodeRoute (some v) route requestId ≠ .ok ()
  := by
  intro h
  simp only [enforceSignedStreamingDecodeRoute, hv] at h
  rcases hroute with rfl | rfl
  · cases h
  · cases h

section

variable {services : Services K} {state : AppState} {parts : Parts} {body body' : Reader}
  {requestId : Bytes} {v : VerifiedRequest K} {d : Dispatched}

/-- What an upload decodes is decoded with the signatures of its chunks verified. -/
theorem decodedFrom_of_decodeBody
    {bytes : Bytes} {summary : DecodedSummary}
    (hpayload : SigV4Verifier.payloadOf parts requestId = .ok v.payload)
    (hv : v.payload.isSignedStreaming = true)
    (h : decodeBody services.crypto services.spool services.maxRequestBodyBytes
      (parseRequest parts requestId) parts.headers (some v) true body = .ok (bytes, summary)) :
  DecodedFrom services (parseRequest parts requestId) v body bytes
  := by
  obtain ⟨declaredLen, -, h⟩ := exists_of_bind_eq_ok h
  obtain ⟨⟨⟩, -, h⟩ := exists_of_bind_eq_ok h
  obtain ⟨mode, hmode, h⟩ := exists_of_bind_eq_ok h
  obtain ⟨policy, hpolicy, h⟩ := exists_of_bind_eq_ok h
  have halgorithm := decoderModeFromHeaders_eq_ok hpayload hv hmode
  have hsome : mode.signedChunkAlgorithm.isSome = true := by
    rw [halgorithm, chunkAlgorithm_isSome, hv]
  exact ⟨declaredLen, mode, policy, summary, seededBy_of_signaturePolicyForDecode hsome hpolicy, h⟩

theorem decodeBody_ne_ok
    {hash : SignedHash} {out : Bytes × DecodedSummary}
    (hpayload : SigV4Verifier.payloadOf parts requestId = .ok (.signedSha256 hash)) :
  decodeBody services.crypto services.spool services.maxRequestBodyBytes
    (parseRequest parts requestId) parts.headers (some v) true body ≠ .ok out
  := by
  intro h
  obtain ⟨declaredLen, -, h⟩ := exists_of_bind_eq_ok h
  obtain ⟨⟨⟩, -, h⟩ := exists_of_bind_eq_ok h
  obtain ⟨mode, hmode, -⟩ := exists_of_bind_eq_ok h
  exact decoderModeFromHeaders_ne_ok hpayload hmode

/-- What is handed on of a body that is declared by its hash has that hash. -/
theorem bodyAuthentic_of_hashed
    (hstrict : services.inboundSigv4.isSome = true)
    (hpayload : SigV4Verifier.payloadOf parts requestId = .ok v.payload)
    (hv : v.payload.requiresBodyBytes = true)
    (hchecked : checkPayload services (some v) body requestId = .ok body')
    (h : Routed services state parts (parseRequest parts requestId) (some v) body'
      (parseRequest parts requestId).operation d) :
  BodyAuthentic services (parseRequest parts requestId) v body d
  := by
  have hhash := hasSignedHash_of_checkPayload hv hchecked
  have hread : ∀ {bytes}, readBody services body' (parseRequest parts requestId).requestId
      = .ok bytes → HasSignedHash services v bytes :=
    fun hread => readBody_eq_ok hread ▸ hhash
  have hnotDecoded : ∀ {out}, decodeBody services.crypto services.spool
      services.maxRequestBodyBytes (parseRequest parts requestId) parts.headers (some v)
      services.inboundSigv4.isSome body' ≠ .ok out := by
    intro out hdecoded
    obtain ⟨hash, hsigned, -⟩ := hhash
    rw [hstrict] at hdecoded
    exact decodeBody_ne_ok (hsigned ▸ hpayload) hdecoded
  generalize (parseRequest parts requestId).operation = op at h
  cases h with
  | passthrough => exact .hashed rfl hhash
  | putObject _ _ read => exact .hashed rfl (hread read)
  | uploadPart _ _ read => exact .hashed rfl (hread read)
  | putObjectFromPath _ decoded => exact absurd decoded hnotDecoded
  | uploadPartFromPath _ decoded => exact absurd decoded hnotDecoded
  | completeWithChecksums _ read =>
      apply BodyAuthentic.hashed rfl
      rw [RequestBody.ofReader, bytes_single]
      exact hread read
  | completeMultipartUpload _ read parsedBody => exact .completed (hread read) parsedBody
  | getObject => exact .nothing rfl rfl
  | headObject => exact .nothing rfl rfl
  | listObjectsV1 => exact .nothing rfl rfl
  | listObjectsV2 => exact .nothing rfl rfl
  | deleteObject => exact .nothing rfl rfl
  | createMultipartUpload => exact .nothing rfl rfl
  | abortMultipartUpload => exact .nothing rfl rfl

/-- What is handed on of a body in signed chunks is authentic if and only if the request is an upload,
or is handled without its body. -/
theorem bodyAuthentic_iff_of_streaming
    (hstrict : services.inboundSigv4.isSome = true)
    (hpayload : SigV4Verifier.payloadOf parts requestId = .ok v.payload)
    (hv : v.payload.isSignedStreaming = true)
    (h : Routed services state parts (parseRequest parts requestId) (some v) body
      (parseRequest parts requestId).operation d) :
  BodyAuthentic services (parseRequest parts requestId) v body d ↔
    (parseRequest parts requestId).operation.isUpload = true ∨
      ((parseRequest parts requestId).route parts = .typed ∧
        (parseRequest parts requestId).operation.isCompletion = false)
  := by
  have hnotHashed : ∀ bytes, ¬HasSignedHash services v bytes := by
    rintro bytes ⟨hash, hsigned, -⟩
    rw [hsigned] at hv
    cases hv
  have hdecode : ∀ {bytes summary}, decodeBody services.crypto services.spool
      services.maxRequestBodyBytes (parseRequest parts requestId) parts.headers (some v)
      services.inboundSigv4.isSome body = .ok (bytes, summary) →
      DecodedFrom services (parseRequest parts requestId) v body bytes :=
    fun hdecoded => decodedFrom_of_decodeBody hpayload hv (hstrict ▸ hdecoded)
  rw [ParsedRequest.route]
  generalize (parseRequest parts requestId).operation = op at h
  have hnothing : ∀ {d : Dispatched}, d.handedBody = none →
      d.isCompletion = false → op.isUpload = true ∨
        (routeOf op (parseRequest parts requestId).extraAmzHeaders parts = .typed ∧
          op.isCompletion = false) →
      (BodyAuthentic services (parseRequest parts requestId) v body d ↔ op.isUpload = true ∨
        (routeOf op (parseRequest parts requestId).extraAmzHeaders parts = .typed ∧
          op.isCompletion = false)) :=
    fun hnone hnot hcond => ⟨fun _ => hcond, fun _ => .nothing hnone hnot⟩
  have hpassed : ∀ {body'}, ¬BodyAuthentic services (parseRequest parts requestId) v body
      (passThrough state parts body') := by
    intro body' hauthentic
    cases hauthentic with
    | hashed _ hash => exact hnotHashed _ hash
    | nothing handed => cases handed
  cases h with
  | passthrough route enforced =>
      have hnot : op.isUpload = false := by
        by_contra hupload
        rw [Bool.not_eq_false] at hupload
        exact enforce_ne_ok hv (.inr rfl) (enforced hupload)
      rw [hnot, route]
      exact ⟨fun hauthentic => absurd hauthentic hpassed, by rintro (h | ⟨h, -⟩) <;> cases h⟩
  | putObject _ enforced => exact absurd enforced (enforce_ne_ok hv (.inl rfl))
  | uploadPart _ enforced => exact absurd enforced (enforce_ne_ok hv (.inl rfl))
  | putObjectFromPath _ decoded =>
      exact ⟨fun _ => .inl rfl, fun _ => .putObjectFromPath (hdecode decoded)⟩
  | uploadPartFromPath _ decoded =>
      exact ⟨fun _ => .inl rfl, fun _ => .uploadPartFromPath (hdecode decoded)⟩
  | completeWithChecksums =>
      exact ⟨fun hauthentic => absurd hauthentic hpassed, by rintro (h | ⟨-, h⟩) <;> cases h⟩
  | completeMultipartUpload =>
      constructor
      · intro hauthentic
        cases hauthentic with
        | hashed handed => cases handed
        | completed hash => exact absurd hash (hnotHashed _)
        | nothing _ notCompleted => cases notCompleted
      · rintro (h | ⟨-, h⟩) <;> cases h
  | getObject route => exact hnothing rfl rfl (.inr ⟨passthroughIf_eq_typed.mpr route, rfl⟩)
  | headObject route => exact hnothing rfl rfl (.inr ⟨passthroughIf_eq_typed.mpr route, rfl⟩)
  | listObjectsV1 route => exact hnothing rfl rfl (.inr ⟨passthroughIf_eq_typed.mpr route, rfl⟩)
  | listObjectsV2 route => exact hnothing rfl rfl (.inr ⟨passthroughIf_eq_typed.mpr route, rfl⟩)
  | deleteObject route => exact hnothing rfl rfl (.inr ⟨passthroughIf_eq_typed.mpr route, rfl⟩)
  | createMultipartUpload route =>
      exact hnothing rfl rfl (.inr ⟨passthroughIf_eq_typed.mpr route, rfl⟩)
  | abortMultipartUpload route =>
      exact hnothing rfl rfl (.inr ⟨passthroughIf_eq_typed.mpr route, rfl⟩)

end

/-- A signed request declares its body in its header. -/
theorem payloadOf_of_verifyAt
    {verifier : SigV4Verifier K} {parts : Parts} {requestId : Bytes} {now : Instant}
    {v : VerifiedRequest K} (h : verifier.verifyAt parts requestId now = .ok v)
    (hv : v.payload ≠ .unsignedPayload) :
  SigV4Verifier.payloadOf parts requestId = .ok v.payload
  := by
  rcases verified_of_verifyAt h with hheader | hquery
  · exact hheader.payload
  · exact absurd hquery.payload hv

/-- What is handed to the backend for a verified request whose body is declared by its hash or in
signed chunks is authentic if and only if the body is compared with its hash, decoded or not handed
on. -/
theorem bodyAuthentic_iff
    {services : Services K} {verifier : SigV4Verifier K} {state : AppState} {parts : Parts}
    {body : Reader} {requestId : Bytes} {now : Instant} {v : VerifiedRequest K} {d : Dispatched}
    (hstrict : services.inboundSigv4
      = some fun parts requestId => verifier.verifyAt parts requestId now)
    (hverified : verifier.verifyAt parts requestId now = .ok v)
    (hv : v.payload.requiresBodyBytes = true ∨ v.payload.isSignedStreaming = true)
    (h : handleS3Request services state parts body requestId = .ok d) :
  BodyAuthentic services (parseRequest parts requestId) v body d ↔
    BodyChecked v.payload (parseRequest parts requestId).operation
      ((parseRequest parts requestId).route parts)
  := by
  obtain ⟨verified, body', hadmitted, hrouted⟩ := routed_of_handleS3Request h
  have hsome : services.inboundSigv4.isSome = true := by rw [hstrict]; rfl
  obtain rfl : verified = some v := by
    have hauth := hadmitted.authenticated
    simp only [authenticate, hstrict] at hauth
    change (verifier.verifyAt parts requestId now).map some = _ at hauth
    rw [hverified] at hauth
    exact (Except.ok.inj hauth).symm
  have hpayload : SigV4Verifier.payloadOf parts requestId = .ok v.payload := by
    apply payloadOf_of_verifyAt hverified
    intro hunsigned
    rw [hunsigned] at hv
    rcases hv with hv | hv
    · cases hv
    · cases hv
  rw [BodyChecked]
  rcases hhash : v.payload.requiresBodyBytes
  · have hstreaming : v.payload.isSignedStreaming = true :=
      hv.resolve_left (Bool.eq_false_iff.mp hhash)
    obtain rfl := eq_of_checkPayload hhash hadmitted.payload
    rw [bodyAuthentic_iff_of_streaming hsome hpayload hstreaming hrouted]
    simp only [Bool.false_eq_true, false_or]
  · have hauthentic := bodyAuthentic_of_hashed hsome hpayload hhash hadmitted.payload hrouted
    exact ⟨fun _ => .inl rfl, fun _ => hauthentic⟩

theorem exists_of_map_eq_ok
    {ε α β : Type} {x : Except ε α} {f : α → β} {b : β} (h : x.map f = .ok b) :
  ∃ a, x = .ok a ∧ f a = b
  := by
  cases x with
  | error e => cases h
  | ok a => exact ⟨a, rfl, Except.ok.inj h⟩

/-- Services in strict mode. -/
def strictServices : Services Unit where
  crypto := requestCrypto
  inboundSigv4 := some fun parts requestId => sampleVerifier.verifyAt parts requestId sampleNow
  checkAccess _ := .ok ()
  spool := { file := some ⟨[], none⟩, flushes := true }
  maxRequestBodyBytes := 100
  backendEndpointIsHttps := true
  readXml _ := []

/-- An object that is stored has the hash that was signed. -/
theorem bodyAuthentic_helloRequest :
  ∃ v d, sampleVerifier.verifyAt helloRequest [] sampleNow = .ok v ∧
    handleS3Request strictServices sampleState helloRequest ⟨[ascii "hello"], false⟩ [] = .ok d ∧
    BodyAuthentic strictServices (parseRequest helloRequest []) v ⟨[ascii "hello"], false⟩ d
  := by
  have hobs : (sampleVerifier.verifyAt helloRequest [] sampleNow).map
      (fun v => v.payload.requiresBodyBytes) = .ok true := by decide +kernel
  obtain ⟨v, hverified, hv⟩ := exists_of_map_eq_ok hobs
  have hhandled : handleS3Request strictServices sampleState helloRequest
      ⟨[ascii "hello"], false⟩ [] = .ok (.putObject
        ⟨ascii "back", ascii "key", ascii "hello", none, none, [], [], []⟩) := by decide +kernel
  refine ⟨v, _, hverified, hhandled, ?_⟩
  exact (bodyAuthentic_iff rfl hverified (.inl hv) hhandled).mpr (.inl hv)

/-- A request to delete an object, with a body in signed chunks. -/
def streamingDelete : Parts :=
  signedRequest (ascii "DELETE") (by decide) "STREAMING-AWS4-HMAC-SHA256-PAYLOAD"
    "37e0a0d5318ce578afb7adb32ce5018c884462f8e8b9c32b17b52f1c8f001a1e"

/-- The body of a deletion is passed through, although its chunks were to be verified. -/
theorem streamingDelete_notAuthentic :
  ∃ v request, sampleVerifier.verifyAt streamingDelete [] sampleNow = .ok v ∧
    v.payload = .streamingAws4HmacSha256Payload ∧
    handleS3Request strictServices sampleState streamingDelete ⟨[ascii "forged"], false⟩ []
      = .ok (.passthrough request ⟨ascii "forged", false⟩) ∧
    ¬BodyAuthentic strictServices (parseRequest streamingDelete []) v ⟨[ascii "forged"], false⟩
      (.passthrough request ⟨ascii "forged", false⟩)
  := by
  have hobs : (sampleVerifier.verifyAt streamingDelete [] sampleNow).map (fun v => v.payload)
      = .ok .streamingAws4HmacSha256Payload := by decide +kernel
  obtain ⟨v, hverified, hv⟩ := exists_of_map_eq_ok hobs
  have hhandled : handleS3Request strictServices sampleState streamingDelete
      ⟨[ascii "forged"], false⟩ [] = .ok (.passthrough (routeToPassthrough sampleState
        streamingDelete) ⟨ascii "forged", false⟩) := by decide +kernel
  refine ⟨v, _, hverified, hv, hhandled, ?_⟩
  intro hauthentic
  cases hauthentic with
  | hashed _ hash =>
      obtain ⟨hash, hsigned, -⟩ := hash
      rw [hv] at hsigned
      cases hsigned
  | nothing handed => cases handed

end TinyS3Proxy
