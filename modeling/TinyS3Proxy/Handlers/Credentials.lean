import TinyS3Proxy.Auth.Verification
import TinyS3Proxy.Handlers.CopySource
import TinyS3Proxy.Handlers.Strict
import TinyS3Proxy.S3.Collected

/-!
# Credentials of clients

A request is signed anew for the backend, and what the client has signed it with is not to be sent
on. The headers of a signature are left out when a request is passed through, and when its headers
are collected, each by a list of its own; the query is sent as it is.
-/

namespace TinyS3Proxy

open Text (Bytes Reader ascii)

/-! ### Requests that differ in what they are signed with -/

/-- The header with the regions of an elliptic-curve signature. -/
def regionSetName : Bytes := ascii "x-amz-region-set"

/-- The headers that a client signs a request with. -/
def clientAuthHeaders : List Bytes :=
  [ascii "authorization", ascii "x-amz-date", ascii "x-amz-content-sha256",
    ascii "x-amz-security-token", regionSetName]

/-- The parameters that a client signs a request with. -/
def clientAuthParameters : List Bytes :=
  [ascii "X-Amz-Algorithm", ascii "X-Amz-Credential", ascii "X-Amz-Date", ascii "X-Amz-Expires",
    ascii "X-Amz-SignedHeaders", ascii "X-Amz-Signature", ascii "X-Amz-Security-Token",
    ascii "X-Amz-Region-Set"]

/-- The headers that have nothing to do with the signature. -/
def plainHeaders (headers : HeaderMap) : HeaderMap :=
  headers.filter fun h => !clientAuthHeaders.contains h.1.bytes

/-- The parameters that have nothing to do with the signature. -/
def plainParameters (query : Option Bytes) : List Bytes :=
  (Text.nonemptyFields amp (query.getD [])).filter fun chunk =>
    !clientAuthParameters.contains (decodeParameter chunk).1

/-- The requests differ in what they are signed with only. -/
structure DifferInCredentials (parts parts' : Parts) : Prop where
  method : parts.method = parts'.method
  path : parts.path = parts'.path
  headers : plainHeaders parts.headers = plainHeaders parts'.headers
  query : plainParameters parts.query = plainParameters parts'.query

/-! ### What is sent -/

/-- The requests are the same, up to the order of headers with different names. -/
structure UpstreamRequest.Same (r r' : UpstreamRequest) : Prop where
  method : r.method = r'.method
  url : r.url = r'.url
  headers : ∀ name, r.headers.getAll name = r'.headers.getAll name

/-- The other headers of S3 that the typed backend is given. -/
def Dispatched.extraAmzHeaders : Dispatched → StringMap
  | putObject input => input.extraAmzHeaders
  | putObjectFromPath input => input.extraAmzHeaders
  | uploadPartFromPath input => input.extraAmzHeaders
  | _ => []

/-- The typed backend is given other headers of S3. -/
def Dispatched.carriesHeaders : Dispatched → Bool
  | putObject _ | putObjectFromPath _ | uploadPartFromPath _ => true
  | _ => false

/-- The same is signed and sent, or the typed backend is given the same headers. -/
structure SameToBackend (d d' : Dispatched) : Prop where
  request : ∀ r b r' b', d = .passthrough r b → d' = .passthrough r' b' → r.Same r' ∧ b = b'
  headers : ∀ e, e ∈ d.extraAmzHeaders ↔ e ∈ d'.extraAmzHeaders

/-- Nothing of what the requests differ in is sent. -/
structure CredentialsStripped (parts parts' : Parts) (d : Dispatched) : Prop where
  query : d.isPassthrough = true → querySuffix parts.query = querySuffix parts'.query
  forwarded : d.isPassthrough = true →
    regionSetName ∈ collectConnectionNominated parts.headers ∨
      parts.headers.getAll regionSetName = parts'.headers.getAll regionSetName
  collected : d.carriesHeaders = true →
    lastReadable parts.headers regionSetName = lastReadable parts'.headers regionSetName

/-! ### Headers -/

theorem getAll_plainHeaders
    (headers : HeaderMap) {name : Bytes} (hname : name ∉ clientAuthHeaders) :
  (plainHeaders headers).getAll name = headers.getAll name
  := by
  rw [HeaderMap.getAll, HeaderMap.getAll, plainHeaders, List.filter_filter]
  congr 1
  apply List.filter_congr
  intro h _
  by_cases heq : h.1.bytes = name
  · simp [heq, hname]
  · simp [heq]

/-- Headers that do not belong to the signature are the same. -/
theorem DifferInCredentials.getAll_eq
    {parts parts' : Parts} (h : DifferInCredentials parts parts') {name : Bytes}
    (hname : name ∉ clientAuthHeaders) :
  parts.headers.getAll name = parts'.headers.getAll name
  := by
  rw [← getAll_plainHeaders parts.headers hname, h.headers, getAll_plainHeaders _ hname]

/-- The values that are forwarded of a header are all or none. -/
theorem getAll_baseHeaders
    (headers : HeaderMap) (name : Bytes) :
  (baseHeaders headers).getAll name
    = if name ∈ skipRequestHeaders ∨ name ∈ hopByHopHeaders ∨
        name ∈ collectConnectionNominated headers then []
      else headers.getAll name
  := by
  rw [HeaderMap.getAll, baseHeaders, List.filter_filter]
  split
  next hskip =>
    rw [List.map_eq_nil_iff, List.filter_eq_nil_iff]
    intro h _ hkept
    simp only [Bool.and_eq_true, decide_eq_true_eq, Bool.not_eq_true', Bool.or_eq_false_iff,
      List.contains_eq_mem, decide_eq_false_iff_not] at hkept
    obtain ⟨rfl, ⟨hskip', hhop⟩, hnominated⟩ := hkept
    rcases hskip with hskip | hskip | hskip
    · exact hskip' hskip
    · exact hhop hskip
    · exact hnominated hskip
  next hkeep =>
    rw [HeaderMap.getAll]
    congr 1
    apply List.filter_congr
    intro h _
    by_cases heq : h.1.bytes = name
    · subst heq
      rw [not_or, not_or] at hkeep
      simp [hkeep.1, hkeep.2.1, hkeep.2.2]
    · simp [heq]

section

variable {parts parts' : Parts}

/-- The headers that are forwarded are the same if and only if the region sets are. -/
theorem DifferInCredentials.baseHeaders_iff
    (h : DifferInCredentials parts parts') :
  (∀ name, (baseHeaders parts.headers).getAll name = (baseHeaders parts'.headers).getAll name) ↔
    regionSetName ∈ collectConnectionNominated parts.headers ∨
      parts.headers.getAll regionSetName = parts'.headers.getAll regionSetName
  := by
  have hnominated : collectConnectionNominated parts.headers
      = collectConnectionNominated parts'.headers := by
    rw [collectConnectionNominated, collectConnectionNominated, h.getAll_eq (by decide)]
  have hskipped : ∀ name ∈ clientAuthHeaders, name ≠ regionSetName → name ∈ skipRequestHeaders := by
    decide
  have hforwarded : regionSetName ∉ skipRequestHeaders ∧ regionSetName ∉ hopByHopHeaders := by decide
  constructor
  · intro hsame
    have hregion := hsame regionSetName
    rw [getAll_baseHeaders, getAll_baseHeaders, ← hnominated] at hregion
    by_cases hnom : regionSetName ∈ collectConnectionNominated parts.headers
    · exact .inl hnom
    · have hkeep : ¬(regionSetName ∈ skipRequestHeaders ∨ regionSetName ∈ hopByHopHeaders ∨
          regionSetName ∈ collectConnectionNominated parts.headers) := by
        rintro (hskip | hhop | hnom')
        · exact hforwarded.1 hskip
        · exact hforwarded.2 hhop
        · exact hnom hnom'
      rw [if_neg hkeep, if_neg hkeep] at hregion
      exact .inr hregion
  · intro hregion name
    rw [getAll_baseHeaders, getAll_baseHeaders, ← hnominated]
    split
    next => rfl
    next hkeep =>
      by_cases hauth : name ∈ clientAuthHeaders
      · by_cases heq : name = regionSetName
        · subst heq
          exact hregion.resolve_left fun hnom => hkeep (.inr (.inr hnom))
        · exact absurd (.inl (hskipped name hauth heq)) hkeep
      · exact h.getAll_eq hauth

/-- The headers that are collected are the same if and only if the region sets are. -/
theorem DifferInCredentials.extraAmzHeaders_iff
    (h : DifferInCredentials parts parts') (requestId requestId' : Bytes) :
  (∀ e, e ∈ (parseRequest parts requestId).extraAmzHeaders
      ↔ e ∈ (parseRequest parts' requestId').extraAmzHeaders) ↔
    lastReadable parts.headers regionSetName = lastReadable parts'.headers regionSetName
  := by
  have hextra : ∀ name ∈ clientAuthHeaders, IsExtraAmz name → name = regionSetName := by decide
  have hregion : IsExtraAmz regionSetName := by decide
  simp only [mem_extraAmzHeaders]
  constructor
  · intro hsame
    apply Option.ext
    intro v
    have hv := hsame (regionSetName, v)
    rwa [and_iff_right hregion, and_iff_right hregion] at hv
  · rintro hlast ⟨name, v⟩
    apply and_congr_right
    intro hname
    by_cases hauth : name ∈ clientAuthHeaders
    · obtain rfl : name = regionSetName := hextra name hauth hname
      rw [hlast]
    · have hsame : lastReadable parts.headers name = lastReadable parts'.headers name := by
        rw [lastReadable, lastReadable, h.getAll_eq hauth]
      rw [hsame]

/-- The same holds of the headers of an upload that is decoded. -/
theorem DifferInCredentials.extraAmzHeadersForDecoded_iff
    (h : DifferInCredentials parts parts') (requestId requestId' : Bytes) :
  (∀ e, e ∈ extraAmzHeadersForDecoded (parseRequest parts requestId)
      ↔ e ∈ extraAmzHeadersForDecoded (parseRequest parts' requestId')) ↔
    lastReadable parts.headers regionSetName = lastReadable parts'.headers regionSetName
  := by
  have hkept : isStreamingOnlyAmzHeader regionSetName = false := by decide
  have hregion : IsExtraAmz regionSetName := by decide
  rw [← h.extraAmzHeaders_iff requestId requestId']
  simp only [extraAmzHeadersForDecoded, List.mem_filter]
  constructor
  · intro hsame
    rw [h.extraAmzHeaders_iff requestId requestId']
    apply Option.ext
    intro v
    have hv := hsame (regionSetName, v)
    simp only [hkept, Bool.not_false, and_true, mem_extraAmzHeaders] at hv
    rwa [and_iff_right hregion, and_iff_right hregion] at hv
  · intro hsame e
    rw [hsame e]

end

/-! ### Requests that are handled -/

variable {K : Type} {services : Services K} {state : AppState} {parts parts' : Parts}
  {body : Reader} {requestId requestId' : Bytes} {d d' : Dispatched}

/-- A body that was read is handled as it was received. -/
theorem ofReader_of_readBody
    {bytes : Bytes} (h : readBody services body requestId = .ok bytes) :
  RequestBody.ofReader ⟨[bytes], false⟩ = .ofReader body
  := by
  rw [RequestBody.ofReader, bytes_single, readBody_eq_ok h]
  rw [readBody, RequestBody.toBytes] at h
  split at h
  next => cases h
  next =>
    split at h
    next => cases h
    next hfails =>
      have hfailing : body.failing = false := Bool.eq_false_iff.mpr hfails
      rw [RequestBody.ofReader, hfailing]

/-- The body is handled as it was received. -/
theorem ofReader_of_checkPayload
    {verified : Option (VerifiedRequest K)} {body' : Reader}
    (h : checkPayload services verified body requestId = .ok body') :
  RequestBody.ofReader body' = .ofReader body
  := by
  cases verified with
  | none => rw [Except.ok.inj h]
  | some v =>
      rw [checkPayload] at h
      split at h
      next =>
        obtain ⟨bytes, hread, h⟩ := Effect.exists_of_bind_eq_ok h
        obtain ⟨⟨⟩, -, h⟩ := Effect.exists_of_bind_eq_ok h
        obtain rfl := Except.ok.inj h
        exact ofReader_of_readBody hread
      next => rw [Except.ok.inj h]

/-- A request that is passed through is sent with the body that was received. -/
theorem eq_of_passthrough
    {r : UpstreamRequest} {b : RequestBody}
    (h : handleS3Request services state parts body requestId = .ok (.passthrough r b)) :
  r = routeToPassthrough state parts ∧ b = .ofReader body
  := by
  obtain ⟨verified, body', hadmitted, hrouted⟩ := routed_of_handleS3Request h
  have hbody := ofReader_of_checkPayload hadmitted.payload
  generalize (parseRequest parts requestId).operation = op at hrouted
  cases hrouted with
  | passthrough => exact ⟨rfl, hbody⟩
  | completeWithChecksums _ read =>
      exact ⟨rfl, (ofReader_of_readBody read).trans hbody⟩

/-- The typed backend is given other headers of S3 only if it is given any headers. -/
theorem extraAmzHeaders_of_not_carriesHeaders
    (h : d.carriesHeaders = false) :
  d.extraAmzHeaders = []
  := by
  cases d with
  | putObject => cases h
  | putObjectFromPath => cases h
  | uploadPartFromPath => cases h
  | _ => rfl

/-- Two requests that take the same route collect their headers in the same way. -/
theorem extraAmzHeaders_iff_of_handled
    (hdiffer : DifferInCredentials parts parts')
    (h : handleS3Request services state parts body requestId = .ok d)
    (h' : handleS3Request services state parts' body requestId' = .ok d')
    (hroute : d.ctorIdx = d'.ctorIdx) (hcarries : d.carriesHeaders = true) :
  (∀ e, e ∈ d.extraAmzHeaders ↔ e ∈ d'.extraAmzHeaders) ↔
    lastReadable parts.headers regionSetName = lastReadable parts'.headers regionSetName
  := by
  obtain ⟨verified, body', -, hrouted⟩ := routed_of_handleS3Request h
  obtain ⟨verified', body'', -, hrouted'⟩ := routed_of_handleS3Request h'
  generalize (parseRequest parts requestId).operation = op at hrouted
  generalize (parseRequest parts' requestId').operation = op' at hrouted'
  cases hrouted with
  | putObject =>
      cases hrouted' with
      | putObject => exact hdiffer.extraAmzHeaders_iff requestId requestId'
      | _ => cases hroute
  | putObjectFromPath =>
      cases hrouted' with
      | putObjectFromPath => exact hdiffer.extraAmzHeadersForDecoded_iff requestId requestId'
      | _ => cases hroute
  | uploadPartFromPath =>
      cases hrouted' with
      | uploadPartFromPath => exact hdiffer.extraAmzHeadersForDecoded_iff requestId requestId'
      | _ => cases hroute
  | _ => cases hcarries

/-- Two requests that are passed through are sent as one if and only if nothing that they differ in
is sent. -/
theorem same_routeToPassthrough_iff
    (hdiffer : DifferInCredentials parts parts') :
  (routeToPassthrough state parts).Same (routeToPassthrough state parts') ↔
    querySuffix parts.query = querySuffix parts'.query ∧
      (regionSetName ∈ collectConnectionNominated parts.headers ∨
        parts.headers.getAll regionSetName = parts'.headers.getAll regionSetName)
  := by
  have hurl : (routeToPassthrough state parts).url = (routeToPassthrough state parts').url ↔
      querySuffix parts.query = querySuffix parts'.query := by
    simp only [routeToPassthrough, handlePassthrough, upstreamUrl, hdiffer.path]
    exact List.append_right_inj _
  constructor
  · intro hsame
    exact ⟨hurl.mp hsame.url, hdiffer.baseHeaders_iff.mp hsame.headers⟩
  · rintro ⟨hquery, hregion⟩
    exact {
      method := hdiffer.method
      url := hurl.mpr hquery
      headers := hdiffer.baseHeaders_iff.mpr hregion }

/-- Two requests that differ in what they are signed with, and take the same route, are the same for
the backend if and only if nothing of what they differ in is sent. -/
theorem sameToBackend_iff
    (hdiffer : DifferInCredentials parts parts')
    (h : handleS3Request services state parts body requestId = .ok d)
    (h' : handleS3Request services state parts' body requestId' = .ok d')
    (hroute : d.ctorIdx = d'.ctorIdx) :
  SameToBackend d d' ↔ CredentialsStripped parts parts' d
  := by
  have hcollected := extraAmzHeaders_iff_of_handled hdiffer h h' hroute
  have hpassed : d.isPassthrough = true → ∃ r b r' b', d = .passthrough r b ∧
      d' = .passthrough r' b' := by
    intro hpass
    cases d with
    | passthrough r b =>
        cases d' with
        | passthrough r' b' => exact ⟨r, b, r', b', rfl, rfl⟩
        | _ => cases hroute
    | _ => cases hpass
  constructor
  · intro hsame
    have hrequest : d.isPassthrough = true →
        (routeToPassthrough state parts).Same (routeToPassthrough state parts') := by
      intro hpass
      obtain ⟨r, b, r', b', rfl, rfl⟩ := hpassed hpass
      obtain ⟨rfl, rfl⟩ := eq_of_passthrough h
      obtain ⟨rfl, rfl⟩ := eq_of_passthrough h'
      exact (hsame.request _ _ _ _ rfl rfl).1
    exact {
      query := fun hpass => ((same_routeToPassthrough_iff hdiffer).mp (hrequest hpass)).1
      forwarded := fun hpass => ((same_routeToPassthrough_iff hdiffer).mp (hrequest hpass)).2
      collected := fun hcarries => (hcollected hcarries).mp hsame.headers }
  · intro hstripped
    exact {
      request := by
        rintro r b r' b' rfl rfl
        obtain ⟨rfl, rfl⟩ := eq_of_passthrough h
        obtain ⟨rfl, rfl⟩ := eq_of_passthrough h'
        use (same_routeToPassthrough_iff hdiffer).mpr
          ⟨hstripped.query rfl, hstripped.forwarded rfl⟩
      headers := by
        rcases hcarries : d.carriesHeaders
        · have hcarries' : d'.carriesHeaders = false := by
            cases d'
            case putObject | putObjectFromPath | uploadPartFromPath =>
              cases d
              case putObject | putObjectFromPath | uploadPartFromPath => cases hcarries
              all_goals cases hroute
            all_goals rfl
          rw [extraAmzHeaders_of_not_carriesHeaders hcarries,
            extraAmzHeaders_of_not_carriesHeaders hcarries']
          exact fun _ => Iff.rfl
        · exact (hcollected hcarries).mpr (hstripped.collected hcarries) }

/-- A request for a part of an object, with a header. -/
def aclRequestWith (name value : String) : Parts :=
  { aclRequest with headers := sampleHeader name value }

/-- The header of the signature makes no difference for the backend. -/
theorem sameToBackend_authorization :
  ∃ d d', handleS3Request openServices sampleState (aclRequestWith "authorization" "one")
      ⟨[], false⟩ [] = .ok d ∧
    handleS3Request openServices sampleState (aclRequestWith "authorization" "two")
      ⟨[], false⟩ [] = .ok d' ∧ SameToBackend d d'
  := by
  have hdiffer : DifferInCredentials (aclRequestWith "authorization" "one")
      (aclRequestWith "authorization" "two") :=
    ⟨rfl, rfl, by decide +kernel, rfl⟩
  have h : ∀ value ∈ ["one", "two"], handleS3Request openServices sampleState
      (aclRequestWith "authorization" value) ⟨[], false⟩ []
        = .ok (.passthrough (routeToPassthrough sampleState (aclRequestWith "authorization" value))
          ⟨[], false⟩) := by decide +kernel
  have h₁ := h "one" List.mem_cons_self
  have h₂ := h "two" (List.mem_cons_of_mem _ List.mem_cons_self)
  refine ⟨_, _, h₁, h₂, (sameToBackend_iff hdiffer h₁ h₂ rfl).mpr ?_⟩
  exact {
    query := fun _ => rfl
    forwarded := fun _ => .inr (by decide +kernel)
    collected := by
      intro hcarries
      cases hcarries }

/-- The regions of a signature are sent to the backend. -/
theorem regionSet_forwarded :
  ∃ d d', DifferInCredentials (aclRequestWith "x-amz-region-set" "us-east-1")
      (aclRequestWith "x-amz-region-set" "*") ∧
    handleS3Request openServices sampleState (aclRequestWith "x-amz-region-set" "us-east-1")
      ⟨[], false⟩ [] = .ok d ∧
    handleS3Request openServices sampleState (aclRequestWith "x-amz-region-set" "*")
      ⟨[], false⟩ [] = .ok d' ∧ d.headers = [(regionSetName, ascii "us-east-1")] ∧
    d'.headers = [(regionSetName, ascii "*")] ∧ ¬SameToBackend d d'
  := by
  have hdiffer : DifferInCredentials (aclRequestWith "x-amz-region-set" "us-east-1")
      (aclRequestWith "x-amz-region-set" "*") :=
    ⟨rfl, rfl, by decide +kernel, rfl⟩
  have h : ∀ value ∈ ["us-east-1", "*"], handleS3Request openServices sampleState
      (aclRequestWith "x-amz-region-set" value) ⟨[], false⟩ []
        = .ok (.passthrough (routeToPassthrough sampleState
          (aclRequestWith "x-amz-region-set" value)) ⟨[], false⟩) := by decide +kernel
  have h₁ := h "us-east-1" List.mem_cons_self
  have h₂ := h "*" (List.mem_cons_of_mem _ List.mem_cons_self)
  refine ⟨_, _, hdiffer, h₁, h₂, by decide +kernel, by decide +kernel, ?_⟩
  intro hsame
  have hheaders := (hsame.request _ _ _ _ rfl rfl).1.headers regionSetName
  revert hheaders
  decide +kernel

end TinyS3Proxy
