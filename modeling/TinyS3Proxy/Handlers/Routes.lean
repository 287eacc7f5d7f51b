import TinyS3Proxy.Handlers.Dispatch

/-!
# Routes

What is done for a request is settled by its operation and by its route: whether it is passed through,
decoded or handled as it is. Each outcome of the dispatch is stated here with all that was checked on
the way to it.
-/

namespace TinyS3Proxy

open Text (Bytes Reader)
open Effect (exists_of_bind_eq_ok)

/-- Pass a request through if it cannot be handled. -/
def passthroughIf (unsupported : Bool) : WriteBodyRoute :=
  if unsupported then .passthrough else .typed

/-- What is done for a request, as far as its headers and its query say. -/
def routeOf (operation : S3Operation) (extraAmz : StringMap) (parts : Parts) : WriteBodyRoute :=
  match operation with
  | .unsupported _ _ => .passthrough
  | .getObject _ _ | .headObject _ _ => passthroughIf (hasUnsupportedGetModifiers parts.headers)
  | .listObjectsV1 _ _ | .listObjectsV2 _ _ =>
      passthroughIf (hasUnsupportedListModifiers parts.query parts.headers)
  | .putObject _ _ => classifyPutBodyRoute extraAmz parts.headers
  | .uploadPart _ _ _ _ => classifyUploadPartBodyRoute extraAmz parts.headers
  | .deleteObject _ _ => passthroughIf (hasUnsupportedWriteModifiers extraAmz parts.headers)
  | .createMultipartUpload _ _ | .completeMultipartUpload _ _ _ | .abortMultipartUpload _ _ _ =>
      passthroughIf (hasUnsupportedMultipartModifiers extraAmz parts.headers)

/-- The operation has a body that may be decoded. -/
def S3Operation.isUpload : S3Operation → Bool
  | putObject _ _ => true
  | uploadPart _ _ _ _ => true
  | _ => false

/-- The route of a request. -/
def ParsedRequest.route (parsed : ParsedRequest) (parts : Parts) : WriteBodyRoute :=
  routeOf parsed.operation parsed.extraAmzHeaders parts

theorem passthroughIf_eq_passthrough
    {unsupported : Bool} :
  passthroughIf unsupported = .passthrough ↔ unsupported = true
  := by
  cases unsupported with
  | true => exact ⟨fun _ => rfl, fun _ => rfl⟩
  | false =>
      constructor
      · intro h
        cases h
      · intro h
        cases h

theorem passthroughIf_eq_typed
    {unsupported : Bool} :
  passthroughIf unsupported = .typed ↔ unsupported = false
  := by
  cases unsupported with
  | true =>
      constructor
      · intro h
        cases h
      · intro h
        cases h
  | false => exact ⟨fun _ => rfl, fun _ => rfl⟩

/-- The request is passed through. -/
def Dispatched.isPassthrough : Dispatched → Bool
  | passthrough _ _ => true
  | _ => false

variable {K : Type}

/-- What is done for a request of an operation, and what was checked before. -/
inductive Routed (services : Services K) (state : AppState) (parts : Parts)
    (parsed : ParsedRequest) (verified : Option (VerifiedRequest K)) (body : Reader) :
    S3Operation → Dispatched → Prop
  | passthrough {op : S3Operation} (route : routeOf op parsed.extraAmzHeaders parts = .passthrough)
      (enforced : op.isUpload = true →
        enforceSignedStreamingDecodeRoute verified .passthrough parsed.requestId = .ok ()) :
      Routed services state parts parsed verified body op (passThrough state parts body)
  | getObject {bucket key : Bytes}
      (route : hasUnsupportedGetModifiers parts.headers = false) :
      Routed services state parts parsed verified body (.getObject bucket key) (.handleGet key)
  | headObject {bucket key : Bytes}
      (route : hasUnsupportedGetModifiers parts.headers = false) :
      Routed services state parts parsed verified body (.headObject bucket key) (.handleHead key)
  | listObjectsV1 {bucket : Bytes} {params : ListParams}
      (route : hasUnsupportedListModifiers parts.query parts.headers = false) :
      Routed services state parts parsed verified body (.listObjectsV1 bucket params)
        (.handleList params false)
  | listObjectsV2 {bucket : Bytes} {params : ListParams}
      (route : hasUnsupportedListModifiers parts.query parts.headers = false) :
      Routed services state parts parsed verified body (.listObjectsV2 bucket params)
        (.handleList params true)
  | putObject {bucket key bytes : Bytes}
      (route : classifyPutBodyRoute parsed.extraAmzHeaders parts.headers = .typed)
      (enforced : enforceSignedStreamingDecodeRoute verified .typed parsed.requestId = .ok ())
      (read : readBody services body parsed.requestId = .ok bytes) :
      Routed services state parts parsed verified body (.putObject bucket key)
        (.putObject
          { bucket := state.backendBucket
            key
            body := bytes
            contentType := parsed.contentType
            contentMd5 := parsed.contentMd5
            metadata := parsed.userMetadata
            extraAmzHeaders := parsed.extraAmzHeaders
            contentHeaders := parsed.contentHeaders })
  | putObjectFromPath {bucket key bytes : Bytes} {summary : DecodedSummary}
      (route : classifyPutBodyRoute parsed.extraAmzHeaders parts.headers = .decodeAwsChunked)
      (decoded : decodeBody services.crypto services.spool services.maxRequestBodyBytes parsed
        parts.headers verified services.inboundSigv4.isSome body = .ok (bytes, summary)) :
      Routed services state parts parsed verified body (.putObject bucket key)
        (.putObjectFromPath
          { bucket := state.backendBucket
            key
            body := bytes
            len := summary.decodedLen
            sha256Hex := summary.sha256Hex
            contentType := parsed.contentType
            contentMd5 := parsed.contentMd5
            metadata := parsed.userMetadata
            extraAmzHeaders := extraAmzHeadersForDecoded parsed
            contentHeaders := contentHeadersForDecoded parsed
            checksum := summary.trailer })
  | deleteObject {bucket key : Bytes}
      (route : hasUnsupportedWriteModifiers parsed.extraAmzHeaders parts.headers = false) :
      Routed services state parts parsed verified body (.deleteObject bucket key)
        (.deleteObject { bucket := state.backendBucket, key })
  | createMultipartUpload {bucket key : Bytes}
      (route : hasUnsupportedMultipartModifiers parsed.extraAmzHeaders parts.headers = false) :
      Routed services state parts parsed verified body (.createMultipartUpload bucket key)
        (handleCreateMultipart state parsed key)
  | uploadPart {bucket key uploadId bytes : Bytes} {partNumber : ℤ}
      (route : classifyUploadPartBodyRoute parsed.extraAmzHeaders parts.headers = .typed)
      (enforced : enforceSignedStreamingDecodeRoute verified .typed parsed.requestId = .ok ())
      (read : readBody services body parsed.requestId = .ok bytes) :
      Routed services state parts parsed verified body (.uploadPart bucket key partNumber uploadId)
        (.uploadPart
          { bucket := state.backendBucket
            key
            uploadId
            partNumber
            body := bytes
            contentMd5 := parsed.contentMd5 })
  | uploadPartFromPath {bucket key uploadId bytes : Bytes} {partNumber : ℤ}
      {summary : DecodedSummary}
      (route : classifyUploadPartBodyRoute parsed.extraAmzHeaders parts.headers
        = .decodeAwsChunked)
      (decoded : decodeBody services.crypto services.spool services.maxRequestBodyBytes parsed
        parts.headers verified services.inboundSigv4.isSome body = .ok (bytes, summary)) :
      Routed services state parts parsed verified body (.uploadPart bucket key partNumber uploadId)
        (.uploadPartFromPath
          { bucket := state.backendBucket
            key
            uploadId
            partNumber
            body := bytes
            len := summary.decodedLen
            sha256Hex := summary.sha256Hex
            contentMd5 := parsed.contentMd5
            extraAmzHeaders := extraAmzHeadersForDecoded parsed
            checksum := summary.trailer })
  | completeWithChecksums {bucket key uploadId bytes : Bytes}
      (route : hasUnsupportedMultipartModifiers parsed.extraAmzHeaders parts.headers = false)
      (read : readBody services body parsed.requestId = .ok bytes)
      (checksums : bodyHasChecksumElements (services.readXml bytes) = true) :
      Routed services state parts parsed verified body
        (.completeMultipartUpload bucket key uploadId) (passThrough state parts ⟨[bytes], false⟩)
  | completeMultipartUpload {bucket key uploadId bytes : Bytes} {completed : List CompletedPart}
      (route : hasUnsupportedMultipartModifiers parsed.extraAmzHeaders parts.headers = false)
      (read : readBody services body parsed.requestId = .ok bytes)
      (parsedBody : parseCompleteMultipartBody (services.readXml bytes) = .ok completed) :
      Routed services state parts parsed verified body
        (.completeMultipartUpload bucket key uploadId)
        (.completeMultipartUpload
          { bucket := state.backendBucket, key, uploadId, parts := completed })
  | abortMultipartUpload {bucket key uploadId : Bytes}
      (route : hasUnsupportedMultipartModifiers parsed.extraAmzHeaders parts.headers = false) :
      Routed services state parts parsed verified body (.abortMultipartUpload bucket key uploadId)
        (.abortMultipartUpload { bucket := state.backendBucket, key, uploadId })

/-! ### Inversion -/

section

variable {services : Services K} {state : AppState} {parts : Parts} {parsed : ParsedRequest}
  {verified : Option (VerifiedRequest K)} {body : Reader} {d : Dispatched}

/-- A request is passed through, or it is handled. -/
theorem routed_of_ite
    {op : S3Operation} {unsupported : Bool} {handled : Except S3Error Dispatched}
    (hroute : routeOf op parsed.extraAmzHeaders parts = passthroughIf unsupported)
    (hupload : op.isUpload = false)
    (h : (if unsupported then .ok (passThrough state parts body) else handled) = .ok d)
    (hhandled : unsupported = false → handled = .ok d →
      Routed services state parts parsed verified body op d) :
  Routed services state parts parsed verified body op d
  := by
  cases unsupported with
  | true =>
      obtain rfl := Except.ok.inj h
      apply Routed.passthrough hroute
      intro htrue
      rw [hupload] at htrue
      cases htrue
  | false => exact hhandled rfl h

theorem routed_of_putObject
    {bucket key : Bytes} (hop : parsed.operation = .putObject bucket key)
    (h : dispatch services state parts parsed verified body = .ok d) :
  Routed services state parts parsed verified body (.putObject bucket key) d
  := by
  rw [dispatch, hop] at h
  obtain ⟨⟨⟩, henforced, h⟩ := exists_of_bind_eq_ok h
  rcases hroute : classifyPutBodyRoute parsed.extraAmzHeaders parts.headers
  · rw [hroute] at h henforced
    obtain ⟨bytes, hread, h⟩ := exists_of_bind_eq_ok h
    obtain rfl := Except.ok.inj h
    exact .putObject hroute henforced hread
  · rw [hroute] at h
    obtain ⟨⟨bytes, summary⟩, hdecoded, h⟩ := exists_of_bind_eq_ok h
    obtain ⟨⟨⟩, -, h⟩ := exists_of_bind_eq_ok h
    obtain rfl := Except.ok.inj h
    exact .putObjectFromPath hroute hdecoded
  · rw [hroute] at h henforced
    obtain rfl := Except.ok.inj h
    exact .passthrough hroute fun _ => henforced
  · rw [hroute] at h
    cases h

theorem routed_of_uploadPart
    {bucket key uploadId : Bytes} {partNumber : ℤ}
    (hop : parsed.operation = .uploadPart bucket key partNumber uploadId)
    (h : dispatch services state parts parsed verified body = .ok d) :
  Routed services state parts parsed verified body (.uploadPart bucket key partNumber uploadId) d
  := by
  rw [dispatch, hop] at h
  obtain ⟨⟨⟩, henforced, h⟩ := exists_of_bind_eq_ok h
  rcases hroute : classifyUploadPartBodyRoute parsed.extraAmzHeaders parts.headers
  · rw [hroute] at h henforced
    obtain ⟨⟨⟩, -, h⟩ := exists_of_bind_eq_ok h
    obtain ⟨bytes, hread, h⟩ := exists_of_bind_eq_ok h
    obtain rfl := Except.ok.inj h
    exact .uploadPart hroute henforced hread
  · rw [hroute] at h
    obtain ⟨⟨⟩, -, h⟩ := exists_of_bind_eq_ok h
    obtain ⟨⟨bytes, summary⟩, hdecoded, h⟩ := exists_of_bind_eq_ok h
    obtain ⟨⟨⟩, -, h⟩ := exists_of_bind_eq_ok h
    obtain rfl := Except.ok.inj h
    exact .uploadPartFromPath hroute hdecoded
  · rw [hroute] at h henforced
    obtain rfl := Except.ok.inj h
    exact .passthrough hroute fun _ => henforced
  · rw [hroute] at h
    cases h

theorem routed_of_completeMultipartUpload
    {bucket key uploadId : Bytes}
    (hop : parsed.operation = .completeMultipartUpload bucket key uploadId)
    (h : dispatch services state parts parsed verified body = .ok d) :
  Routed services state parts parsed verified body (.completeMultipartUpload bucket key uploadId) d
  := by
  rw [dispatch, hop] at h
  apply routed_of_ite rfl rfl h
  intro hroute h
  obtain ⟨bytes, hread, h⟩ := exists_of_bind_eq_ok h
  split at h
  next hchecksums =>
    obtain rfl := Except.ok.inj h
    exact .completeWithChecksums hroute hread hchecksums
  next =>
    rw [handleCompleteMultipart] at h
    split at h
    next => cases h
    next completed hparsed =>
      obtain rfl := Except.ok.inj h
      exact .completeMultipartUpload hroute hread hparsed

/-- What is dispatched is one of the outcomes. -/
theorem routed_of_dispatch
    (h : dispatch services state parts parsed verified body = .ok d) :
  Routed services state parts parsed verified body parsed.operation d
  := by
  rcases hop : parsed.operation
  case putObject => exact routed_of_putObject hop h
  case uploadPart => exact routed_of_uploadPart hop h
  case completeMultipartUpload => exact routed_of_completeMultipartUpload hop h
  all_goals rw [dispatch, hop] at h
  case unsupported =>
    obtain rfl := Except.ok.inj h
    exact .passthrough rfl nofun
  all_goals
    apply routed_of_ite rfl rfl h
    intro hroute h
    obtain rfl := Except.ok.inj h
  case getObject => exact .getObject hroute
  case headObject => exact .headObject hroute
  case deleteObject => exact .deleteObject hroute
  case listObjectsV1 => exact .listObjectsV1 hroute
  case listObjectsV2 => exact .listObjectsV2 hroute
  case createMultipartUpload => exact .createMultipartUpload hroute
  case abortMultipartUpload => exact .abortMultipartUpload hroute

end

/-- What is handled was admitted and is one of the outcomes. -/
theorem routed_of_handleS3Request
    {services : Services K} {state : AppState} {parts : Parts} {body : Reader} {requestId : Bytes}
    {d : Dispatched} (h : handleS3Request services state parts body requestId = .ok d) :
  ∃ verified body', Admitted services state parts body requestId verified body' ∧
    Routed services state parts (parseRequest parts requestId) verified body'
      (parseRequest parts requestId).operation d
  := by
  obtain ⟨verified, body', hadmitted, hdispatch⟩ := admitted_of_handleS3Request h
  exact ⟨verified, body', hadmitted, routed_of_dispatch hdispatch⟩

end TinyS3Proxy
