import TinyS3Proxy.S3.Errors
import TinyS3Proxy.S3.Keys
import TinyS3Proxy.Text.Fields

/-!
# Requests that are passed through

A request that the proxy does not handle itself is forwarded to the backend with its path, in
which the bucket is replaced, and its query (`handlers/mod.rs` and `handlers/passthrough.rs`). The
bucket of a request is found in three places, each with code of its own: where the request is
admitted, where its path is rewritten and where the host of the backend is put before it. They
agree on what the bucket of a path is, so that all that is forwarded is addressed to the bucket of
the backend, with the rest of the path and the query as they were.
-/

namespace TinyS3Proxy

open Text (Bytes ascii)

/-! ### The state of the proxy -/

/-- How the backend is reached. -/
structure Config where
  backendEndpoint : Bytes
  backendUsePathStyle : Bool
deriving DecidableEq

/-- What the handlers of requests share. -/
structure AppState where
  config : Config
  frontendBucket : Bytes
  backendBucket : Bytes
deriving DecidableEq

/-! ### The bucket -/

/-- The bucket that a request is checked for. -/
def opBucket : S3Operation → Bytes
  | .unsupported _ path => (((trimmedPath path).splitOn slash).head?).getD []
  | other => other.bucket

/-- Reject requests for other buckets than that of the proxy. -/
def checkBucket (state : AppState) (parsed : ParsedRequest) : Except S3Error Unit :=
  if opBucket parsed.operation ≠ state.frontendBucket then
    .error (.noSuchBucket (opBucket parsed.operation) parsed.requestId)
  else .ok ()

/-- The path with the bucket of the backend in place of that of the proxy. -/
def rewriteBucketInPath (path frontendBucket backendBucket : Bytes) : Bytes :=
  match Text.strip frontendBucket (trimmedPath path) with
  | none => path
  | some rest =>
      match Text.strip [slash] rest with
      | some keyPart => slash :: (backendBucket ++ slash :: keyPart)
      | none => if rest = [] then slash :: backendBucket else path

/-! ### The request to the backend -/

/-- The end point of the backend, without slashes at its end. -/
def Config.endpoint (config : Config) : Bytes :=
  (config.backendEndpoint.reverse.dropWhile (· = slash)).reverse

/-- The path at the host of the backend, or at the host of the bucket. -/
def backendUrl (config : Config) (path : Bytes) : Bytes :=
  if !config.backendUsePathStyle then
    let trimmed := trimmedPath path
    let (bucketPart, remainder) := (Text.splitOnce slash trimmed).getD (trimmed, [])
    match Text.strip (ascii "https://") config.endpoint with
    | some stripped =>
        ascii "https://" ++ bucketPart ++ ascii "." ++ stripped ++ ascii "/" ++ remainder
    | none =>
        match Text.strip (ascii "http://") config.endpoint with
        | some stripped =>
            ascii "http://" ++ bucketPart ++ ascii "." ++ stripped ++ ascii "/" ++ remainder
        | none => config.endpoint ++ path
  else config.endpoint ++ path

/-- The query as it is put after a path. -/
def querySuffix : Option Bytes → Bytes
  | some q => if q ≠ [] then ascii "?" ++ q else []
  | none => []

/-- The URL that a request is sent to. -/
def upstreamUrl (config : Config) (path : Bytes) (query : Option Bytes) : Bytes :=
  backendUrl config path ++ querySuffix query

/-- The headers that are about one connection only. -/
def hopByHopHeaders : List Bytes :=
  [ascii "connection", ascii "keep-alive", ascii "proxy-authenticate",
    ascii "proxy-authorization", ascii "te", ascii "trailer", ascii "transfer-encoding",
    ascii "upgrade"]

/-- The headers that are set anew when a request is sent. -/
def skipRequestHeaders : List Bytes :=
  [ascii "authorization", ascii "x-amz-date", ascii "x-amz-content-sha256",
    ascii "x-amz-security-token", ascii "host", ascii "content-length"]

/-- The headers that the client says are about one connection only. -/
def collectConnectionNominated (headers : HeaderMap) : List Bytes :=
  (headers.getAll (ascii "connection")).flatMap fun value =>
    match value.toStr with
    | none => []
    | some s => ((s.splitOn 44).map fun token => Text.lower (Text.trim token)).filter (· ≠ [])

/-- The headers that are forwarded. -/
def baseHeaders (headers : HeaderMap) : HeaderMap :=
  let nominated := collectConnectionNominated headers
  headers.filter fun h =>
    !(skipRequestHeaders.contains h.1.bytes || hopByHopHeaders.contains h.1.bytes ||
      nominated.contains h.1.bytes)

/-- A request as it is sent to the backend, before it is signed. -/
structure UpstreamRequest where
  method : Bytes
  url : Bytes
  headers : HeaderMap
deriving DecidableEq

/-- The request to the backend for a request that is passed through. -/
def handlePassthrough (state : AppState) (method path : Bytes) (query : Option Bytes)
    (originalHeaders : HeaderMap) : UpstreamRequest :=
  { method, url := upstreamUrl state.config path query, headers := baseHeaders originalHeaders }

/-- Pass a request through, with the bucket in its path replaced. -/
def routeToPassthrough (state : AppState) (parts : Parts) : UpstreamRequest :=
  let rewritten := rewriteBucketInPath parts.path state.frontendBucket state.backendBucket
  handlePassthrough state parts.method rewritten parts.query parts.headers

/-! ### Paths -/

/-- What follows the first segment of a path. -/
def pathRemainder (path : Bytes) : Bytes := (trimmedPath path).dropWhile (· ≠ slash)

/-- A path is its first segment and what follows it. -/
theorem trimmedPath_eq_append
    (path : Bytes) :
  trimmedPath path = (splitPath path).1 ++ pathRemainder path
  := by
  obtain ⟨hmem, heq⟩ := trimmedPath_eq path
  have hbucket : ∀ b ∈ (splitPath path).1, decide (b ≠ slash) = true := by
    intro b hb
    apply decide_eq_true
    rintro rfl
    exact hmem hb
  rw [pathRemainder]
  rcases heq with ⟨heq, -⟩ | heq
  · have hdrop := @List.dropWhile_append_of_pos _ _ _ [] hbucket
    rw [List.append_nil, List.dropWhile_nil] at hdrop
    rw [heq, hdrop, List.append_nil]
  · rw [heq, List.dropWhile_append_of_pos hbucket]
    rfl

theorem pathRemainder_cases
    (path : Bytes) :
  pathRemainder path = [] ∨ ∃ rest, pathRemainder path = slash :: rest
  := by
  obtain ⟨-, heq⟩ := trimmedPath_eq path
  rw [trimmedPath_eq_append path] at heq
  rcases heq with ⟨heq, -⟩ | heq
  · exact .inl (List.append_right_eq_self.mp heq)
  · exact .inr ⟨_, List.append_cancel_left heq⟩

/-! ### Agreement on the bucket -/

/-- The operation of a request is unsupported, or one on the first segment of its path. -/
theorem parseOperation_bucket
    (parts : Parts) :
  parseOperation parts = .unsupported parts.method parts.path ∨
    opBucket (parseOperation parts) = (splitPath parts.path).1
  := by
  simp only [parseOperation, objectOperation, multipartOperation, plainOperation, bucketOperation]
  split_ifs
  all_goals
    first
    | exact .inl rfl
    | exact .inr rfl

/-- The bucket that a request is checked for is the first segment of its path. -/
theorem opBucket_parseOperation
    (parts : Parts) :
  opBucket (parseOperation parts) = (splitPath parts.path).1
  := by
  rcases parseOperation_bucket parts with h | h
  · rw [h, opBucket, Text.head?_splitOn, Option.getD_some, splitPath]
    split
    next hnil => simp [hnil, Text.splitOnce]
    next => rfl
  · exact h

/-- The first segment of the path is replaced, and nothing else. -/
theorem rewriteBucketInPath_eq
    (path backendBucket : Bytes) :
  rewriteBucketInPath path (splitPath path).1 backendBucket
    = slash :: (backendBucket ++ pathRemainder path)
  := by
  have hstrip : Text.strip (splitPath path).1 (trimmedPath path) = some (pathRemainder path) :=
    Text.strip_eq_some.mpr (trimmedPath_eq_append path)
  rw [rewriteBucketInPath, hstrip]
  rcases pathRemainder_cases path with h | ⟨rest, h⟩
  · rw [h, List.append_nil]
    rfl
  · rw [h]
    rfl

/-! ### Confinement -/

/-- The schemes under which a bucket can have a host of its own. -/
def knownSchemes : List Bytes := [ascii "https://", ascii "http://"]

/-- The URL without the query addresses a bucket of the backend with a rest of a path: the bucket
is the first segment of the path at the end point, or the label before its host. -/
inductive Addresses (config : Config) (bucket remainder : Bytes) : Bytes → Prop where
  | pathStyle :
      (config.backendUsePathStyle = false →
        ∀ scheme ∈ knownSchemes, Text.strip scheme config.endpoint = none) →
      Addresses config bucket remainder (config.endpoint ++ slash :: (bucket ++ remainder))
  | virtualHosted {scheme host : Bytes} :
      config.backendUsePathStyle = false → scheme ∈ knownSchemes →
      config.endpoint = scheme ++ host →
      Addresses config bucket remainder
        (scheme ++ bucket ++ ascii "." ++ host ++ (if remainder = [] then [slash] else remainder))

/-- The URL for a path addresses the first segment of the path. -/
theorem addresses_backendUrl
    (config : Config) {bucket remainder : Bytes} (hbucket : slash ∉ bucket)
    (hremainder : remainder = [] ∨ ∃ rest, remainder = slash :: rest) :
  Addresses config bucket remainder (backendUrl config (slash :: (bucket ++ remainder)))
  := by
  have hsplit : ∃ tail, slash :: tail = (if remainder = [] then [slash] else remainder) ∧
      (Text.splitOnce slash (bucket ++ remainder)).getD (bucket ++ remainder, [])
        = (bucket, tail) := by
    rcases hremainder with rfl | ⟨rest, rfl⟩
    · use [], rfl
      rw [List.append_nil, Text.splitOnce_eq_none.mpr hbucket, Option.getD_none]
    · use rest, rfl
      rw [Text.splitOnce_eq_some.mpr ⟨rfl, hbucket⟩, Option.getD_some]
  obtain ⟨tail, htail, hsplit⟩ := hsplit
  rw [backendUrl]
  split
  next hstyle =>
    have hstyle' : config.backendUsePathStyle = false := by simpa using hstyle
    simp only [trimmedPath_slash, hsplit]
    split
    next stripped hstrip =>
      have haddress := @Addresses.virtualHosted _ bucket remainder _ _ hstyle'
        List.mem_cons_self (Text.strip_eq_some.mp hstrip)
      rw [← htail] at haddress
      exact (List.append_assoc _ (ascii "/") tail) ▸ haddress
    next hhttps =>
      split
      next stripped hstrip =>
        have haddress := @Addresses.virtualHosted _ bucket remainder _ _
          hstyle' (List.mem_cons_of_mem _ List.mem_cons_self) (Text.strip_eq_some.mp hstrip)
        rw [← htail] at haddress
        exact (List.append_assoc _ (ascii "/") tail) ▸ haddress
      next hhttp =>
        apply Addresses.pathStyle
        intro _ scheme hscheme
        simp only [knownSchemes, List.mem_cons, List.not_mem_nil, or_false] at hscheme
        rcases hscheme with rfl | rfl
        · exact hhttps
        · exact hhttp
  next hstyle =>
    apply Addresses.pathStyle
    intro hfalse
    rw [hfalse] at hstyle
    exact absurd rfl hstyle

/-- The bucket of a request that is admitted is that of the proxy. -/
theorem splitPath_of_checkBucket
    {state : AppState} {parts : Parts} {requestId : Bytes}
    (h : checkBucket state (parseRequest parts requestId) = .ok ()) :
  (splitPath parts.path).1 = state.frontendBucket
  := by
  rw [checkBucket] at h
  split at h
  next => cases h
  next hne =>
    rw [← opBucket_parseOperation]
    exact not_not.mp hne

/-- The URL for a path whose bucket is that of the proxy. -/
theorem addresses_routeToPassthrough
    {state : AppState} {parts : Parts} (hbackend : slash ∉ state.backendBucket)
    (hfrontend : (splitPath parts.path).1 = state.frontendBucket) :
  ∃ url, (routeToPassthrough state parts).url = url ++ querySuffix parts.query ∧
    Addresses state.config state.backendBucket (pathRemainder parts.path) url
  := by
  have hrewritten := rewriteBucketInPath_eq parts.path state.backendBucket
  rw [hfrontend] at hrewritten
  use backendUrl state.config
    (rewriteBucketInPath parts.path state.frontendBucket state.backendBucket), rfl
  rw [hrewritten]
  exact addresses_backendUrl state.config hbackend (pathRemainder_cases parts.path)

/-- A proxy in front of a bucket at a host of its own. -/
def sampleState : AppState :=
  { config := { backendEndpoint := ascii "https://store.example/", backendUsePathStyle := false }
    frontendBucket := ascii "front"
    backendBucket := ascii "back" }

/-- A request whose path has an empty segment. -/
def aclRequest : Parts :=
  { method := ascii "GET", path := ascii "/front//a", query := some (ascii "acl"), headers := []
    lf_notMem_method := lf_notMem_get, lf_notMem_path := by decide }

end TinyS3Proxy
