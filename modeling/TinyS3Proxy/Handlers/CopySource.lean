import TinyS3Proxy.Handlers.Dispatch

/-!
# Copy sources

A copy names a second object, the one that is copied, in a header. Requests for copies are passed
through with that header as it is: neither is the bucket in it checked, nor is it replaced. So a copy
is confined to the bucket of the proxy, and its source is the one at the backend, only where the two
buckets have one name.
-/

namespace TinyS3Proxy

open Text (Bytes Reader ascii)

/-- The name of the header for the source of a copy. -/
def copySourceName : Bytes := ascii "x-amz-copy-source"

/-- The source of a copy. -/
structure CopySource where
  bucket : Bytes
  key : Bytes
  versionId : Option Bytes
deriving DecidableEq

/-- The path that a value consists of, and the version of the object if it names one. -/
def splitVersion (value : Bytes) : Bytes × Option Bytes :=
  match Text.splitOnce 63 value with
  | none => (value, none)
  | some (path, query) =>
      match Text.strip (ascii "versionId=") query with
      | none => (value, none)
      | some version => (path, some version)

/-- The source that a value names: its path may be percent-encoded and may start with a slash. -/
def copySource (value : Bytes) : CopySource :=
  let (path, version) := splitVersion value
  let (bucket, key) := splitPath (Text.percentDecode path)
  { bucket, key, versionId := version.map Text.percentDecode }

/-- The source is the object of the same key and version in another bucket. -/
def CopySource.inBucket (source : CopySource) (bucket : Bytes) : CopySource :=
  { source with bucket }

theorem CopySource.inBucket_eq_self_iff
    {source : CopySource} {bucket : Bytes} :
  source.inBucket bucket = source ↔ source.bucket = bucket
  := by
  constructor
  · intro h
    exact (congrArg CopySource.bucket h).symm
  · rintro rfl
    rfl

/-- The sources that the headers of a request name. -/
def requestedSources (headers : HeaderMap) : List CopySource :=
  (headers.getAll copySourceName).map fun v => copySource v.bytes

/-- The sources that the headers of a request to the backend name. -/
def sentSources (headers : List (Bytes × Bytes)) : List CopySource :=
  (headers.filter fun e => e.1 = copySourceName).map fun e => copySource e.2

/-- Only the bucket of the proxy is copied from, and the sources that are sent are those of the
request, in the bucket of the backend. -/
structure CopyConfined (state : AppState) (parts : Parts) (sent : List (Bytes × Bytes)) : Prop where
  frontend : ∀ source ∈ requestedSources parts.headers, source.bucket = state.frontendBucket
  backend : sentSources sent
    = (requestedSources parts.headers).map (·.inBucket state.backendBucket)

/-- The sources are in the bucket of the proxy, which is the one of the backend, and their headers
are ones that are forwarded. -/
structure CopiesWithin (state : AppState) (parts : Parts) : Prop where
  frontend : ∀ source ∈ requestedSources parts.headers, source.bucket = state.frontendBucket
  bucket : state.frontendBucket = state.backendBucket
  readable : ∀ v ∈ parts.headers.getAll copySourceName, v.Readable
  notNominated : copySourceName ∉ collectConnectionNominated parts.headers

/-! ### Routes -/

/-- A request for a copy is not one of the operations that are handled. -/
theorem parseOperation_of_isCopy
    {parts : Parts} (hput : parts.method = ascii "PUT") (hcopy : isCopy parts.headers = true) :
  parseOperation parts = .unsupported parts.method parts.path
  := by
  have hne : ∀ m ∈ [ascii "GET", ascii "HEAD", ascii "POST", ascii "DELETE"], parts.method ≠ m := by
    rw [hput]
    decide
  simp only [List.mem_cons, List.not_mem_nil, or_false, forall_eq_or_imp, forall_eq] at hne
  obtain ⟨hget, hhead, hpost, hdelete⟩ := hne
  simp only [parseOperation, objectOperation, multipartOperation, plainOperation, bucketOperation,
    hget, hhead, hpost, hdelete, hcopy, if_true, if_false, false_and, ite_self]

/-- A copy that is admitted is passed through. -/
theorem dispatch_of_isCopy
    {K : Type} {services : Services K} {state : AppState} {parts : Parts} {body : Reader}
    {requestId : Bytes} {verified : Option (VerifiedRequest K)}
    (hput : parts.method = ascii "PUT") (hcopy : isCopy parts.headers = true) :
  dispatch services state parts (parseRequest parts requestId) verified body
    = .ok (passThrough state parts body)
  := by
  have hoperation : (parseRequest parts requestId).operation
      = .unsupported parts.method parts.path := parseOperation_of_isCopy hput hcopy
  rw [dispatch, hoperation]

/-! ### Headers -/

theorem copySourceName_notMem :
  copySourceName ∉ skipRequestHeaders ∧ copySourceName ∉ hopByHopHeaders
  := by decide

/-- A copy is confined if its sources are in the bucket of the proxy and that is the one of the
backend, and not otherwise. -/
theorem copyConfined_iff
    {state : AppState} {parts : Parts} (hcopy : isCopy parts.headers = true) :
  CopyConfined state parts (sentHeaders (baseHeaders parts.headers)) ↔ CopiesWithin state parts
  := by
  obtain ⟨hskip, hhop⟩ := copySourceName_notMem
  have hne : parts.headers.getAll copySourceName ≠ [] := HeaderMap.containsKey_iff.mp hcopy
  have hsources : copySourceName ∉ collectConnectionNominated parts.headers →
      sentSources (sentHeaders (baseHeaders parts.headers))
        = (parts.headers.getAll copySourceName).filterMap fun v => v.toStr.map copySource := by
    intro hnominated
    rw [sentSources, filter_sentHeaders hskip hhop hnominated, List.map_filterMap]
    apply List.filterMap_congr
    intro v _
    rw [Option.map_map]
    rfl
  have hread : ∀ {v : HeaderValue}, v.Readable → v.toStr.map copySource = some (copySource v.bytes) := by
    intro v hv
    obtain ⟨s, hs⟩ := Option.isSome_iff_exists.mp hv
    rw [hs, (HeaderValue.toStr_eq_some hs).1]
    rfl
  constructor
  · intro h
    have hnominated : copySourceName ∉ collectConnectionNominated parts.headers := by
      intro hmem
      have hbackend := h.backend
      rw [sentSources, filter_sentHeaders_of_nominated hmem, requestedSources, List.map_map] at hbackend
      exact hne (List.map_eq_nil_iff.mp hbackend.symm)
    have hbackend := h.backend
    rw [hsources hnominated, requestedSources, List.map_map] at hbackend
    have hreadable : ∀ v ∈ parts.headers.getAll copySourceName, v.Readable := by
      have hlength := congrArg List.length hbackend
      rw [List.length_map, List.filterMap_length_eq_length] at hlength
      intro v hv
      have hsome := hlength v hv
      rwa [Option.isSome_map] at hsome
    rw [List.filterMap_congr fun v hv => hread (hreadable v hv), List.filterMap_eq_map'] at hbackend
    obtain ⟨v, hv⟩ := List.exists_mem_of_ne_nil _ hne
    have hsame := CopySource.inBucket_eq_self_iff.mp (List.map_inj_left.mp hbackend v hv).symm
    exact {
      frontend := h.frontend
      bucket := (h.frontend _ (List.mem_map_of_mem hv)).symm.trans hsame
      readable := hreadable
      notNominated := hnominated }
  · intro h
    use h.frontend
    rw [hsources h.notNominated, requestedSources, List.map_map,
      List.filterMap_congr fun v hv => hread (h.readable v hv), List.filterMap_eq_map']
    apply List.map_congr_left
    intro v hv
    have hfrontend := h.frontend _ (List.mem_map_of_mem hv)
    exact (CopySource.inBucket_eq_self_iff.mpr (hfrontend.trans h.bucket)).symm

/-- A copy that is handled is passed through, and what is sent for it is confined if and only if its
sources are in the bucket of the proxy, that is the one of the backend, and their headers are ones
that are forwarded. -/
theorem handleS3Request_copyConfined_iff
    {K : Type} {services : Services K} {state : AppState} {parts : Parts} {body : Reader}
    {requestId : Bytes} {d : Dispatched} (hput : parts.method = ascii "PUT")
    (hcopy : isCopy parts.headers = true)
    (h : handleS3Request services state parts body requestId = .ok d) :
  ∃ body', d = .passthrough (routeToPassthrough state parts) body' ∧
    ∀ http config now results,
      ∀ a ∈ sendPassthrough http config (routeToPassthrough state parts) parts.headers body'
        requestId now results,
      CopyConfined state parts a.sent.headers ↔ CopiesWithin state parts
  := by
  obtain ⟨verified, body', -, hdispatch⟩ := admitted_of_handleS3Request h
  rw [dispatch_of_isCopy hput hcopy] at hdispatch
  use .ofReader body', (Except.ok.inj hdispatch).symm
  intro http config now results a ha
  have hsources : sentSources a.sent.headers = sentSources (sentHeaders (baseHeaders parts.headers)) := by
    rw [sentSources, sentSources, ← forwarded_of_sendPassthrough ha,
      filter_forwarded copySourceName_notMem.1]
  rw [← copyConfined_iff hcopy]
  constructor
  · intro hconfined
    exact ⟨hconfined.frontend, hsources ▸ hconfined.backend⟩
  · intro hconfined
    exact ⟨hconfined.frontend, hsources ▸ hconfined.backend⟩

/-- The name of the header for the source of a copy, as a name. -/
def copySourceHeader : HeaderName := ⟨copySourceName, by decide, by decide, by decide⟩

/-- A request to copy the object that a value names. -/
def copyRequest (source : HeaderValue) : Parts where
  method := ascii "PUT"
  path := ascii "/front/b"
  query := none
  headers := [(copySourceHeader, source)]
  lf_notMem_method := by decide
  lf_notMem_path := by decide

/-- Services that admit every request. -/
def openServices : Services Unit where
  crypto :=
    { sha256 := fun _ => List.replicate 32 0
      hmacSha256 := fun _ _ => List.replicate 32 0
      fromDer := fun _ => false
      verify := fun _ _ _ => false
      checksum := fun a _ => List.replicate a.digestLen 0
      base64Decode := fun _ => .error [] }
  inboundSigv4 := none
  checkAccess _ := .ok ()
  spool := { file := some ⟨[], none⟩, flushes := true }
  maxRequestBodyBytes := 100
  backendEndpointIsHttps := true
  readXml _ := []

/-- A copy from a bucket that is neither that of the proxy nor that of the backend. -/
def foreignCopy : Parts := copyRequest ⟨ascii "/other/a%20b?versionId=7", by decide⟩

/-- A copy from another bucket is sent with that bucket in it. -/
theorem foreignCopy_not_confined :
  ∃ body', handleS3Request openServices sampleState foreignCopy ⟨[], false⟩ []
      = .ok (.passthrough (routeToPassthrough sampleState foreignCopy) body') ∧
    ∃ a, a ∈ sendPassthrough sampleStack sampleSendConfig (routeToPassthrough sampleState foreignCopy)
        foreignCopy.headers body' [] id (fun _ => .status 200) ∧
      sentSources a.sent.headers = [⟨ascii "other", ascii "a b", some (ascii "7")⟩] ∧
      ¬CopyConfined sampleState foreignCopy a.sent.headers
  := by
  use ⟨[], false⟩, by decide +kernel
  have hne : sendPassthrough sampleStack sampleSendConfig
      (routeToPassthrough sampleState foreignCopy) foreignCopy.headers ⟨[], false⟩ [] id
      (fun _ => .status 200) ≠ [] := by decide +kernel
  have hsent : ∀ a ∈ sendPassthrough sampleStack sampleSendConfig
      (routeToPassthrough sampleState foreignCopy) foreignCopy.headers ⟨[], false⟩ [] id
      (fun _ => .status 200),
      sentSources a.sent.headers = [⟨ascii "other", ascii "a b", some (ascii "7")⟩] := by
    decide +kernel
  obtain ⟨a, ha⟩ := List.exists_mem_of_ne_nil _ hne
  use a, ha, hsent a ha
  intro h
  have hother := h.frontend ⟨ascii "other", ascii "a b", some (ascii "7")⟩ (by decide +kernel)
  revert hother
  decide

/-- A proxy whose bucket has the name that it has at the backend. -/
def sharedState : AppState := { sampleState with backendBucket := ascii "front" }

/-- A copy within the bucket of the proxy. -/
def ownCopy : Parts := copyRequest ⟨ascii "front/a", by decide⟩

/-- Where the bucket has one name, a copy within it is confined. -/
theorem ownCopy_confined :
  ∃ a, a ∈ sendPassthrough sampleStack sampleSendConfig (routeToPassthrough sharedState ownCopy)
      ownCopy.headers ⟨[], false⟩ [] id (fun _ => .status 200) ∧
    CopyConfined sharedState ownCopy a.sent.headers
  := by
  have hhandled : handleS3Request openServices sharedState ownCopy ⟨[], false⟩ []
      = .ok (.passthrough (routeToPassthrough sharedState ownCopy) ⟨[], false⟩) := by
    decide +kernel
  obtain ⟨body', hbody, h⟩ := handleS3Request_copyConfined_iff (by decide) (by decide) hhandled
  obtain ⟨-, rfl⟩ := Dispatched.passthrough.inj hbody
  have hne : sendPassthrough sampleStack sampleSendConfig
      (routeToPassthrough sharedState ownCopy) ownCopy.headers ⟨[], false⟩ [] id
      (fun _ => .status 200) ≠ [] := by decide +kernel
  obtain ⟨a, ha⟩ := List.exists_mem_of_ne_nil _ hne
  use a, ha
  apply (h sampleStack sampleSendConfig id (fun _ => .status 200) a ha).mpr
  exact {
    frontend := by decide +kernel
    bucket := rfl
    readable := by
      intro v hv
      obtain rfl := List.mem_singleton.mp hv
      rfl
    notNominated := by decide }

end TinyS3Proxy
