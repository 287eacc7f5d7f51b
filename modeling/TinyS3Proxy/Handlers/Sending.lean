import TinyS3Proxy.Handlers.Passthrough
import TinyS3Proxy.Text.Ends
import TinyS3Proxy.Text.Url

/-!
# Signing and sending

A request that is passed through is built twice from the same method, URL and headers: once to be
signed and once to be sent, and both are done anew for each attempt (`handlers/passthrough.rs`). The
two agree if and only if the URL has a target that its parser does not rewrite, and each header that
is forwarded can be read as a string of ASCII characters.
-/

namespace TinyS3Proxy

open Text (Bytes ascii)

/-! ### Bodies -/

/-- The body of a request as it is read: bytes, and whether reading them fails in the end. -/
structure RequestBody where
  bytes : Bytes
  fails : Bool
deriving DecidableEq

/-- The error for a body that is larger than it may be. -/
def bodyTooLarge (requestId : Bytes) : S3Error :=
  .entityTooLarge (ascii "request body exceeded the configured size limit") requestId

/-- Read the whole body, up to a limit. -/
def RequestBody.toBytes (body : RequestBody) (limit : ℕ) (requestId : Bytes) :
    Except S3Error Bytes :=
  if limit < body.bytes.length then .error (bodyTooLarge requestId)
  else if body.fails then
    .error (.incompleteBody (ascii "The request body could not be read.") requestId)
  else .ok body.bytes

/-- The body, which fails at a limit. -/
def RequestBody.limited (body : RequestBody) (limit : ℕ) : RequestBody :=
  if limit < body.bytes.length then { bytes := body.bytes.take limit, fails := true } else body

/-! ### What is signed and what is sent -/

/-- What is signed for a body. -/
inductive SignableBody
  | unsignedPayload
  | precomputed (hash : Bytes)
deriving DecidableEq

/-- A request as it is given to the signer. -/
structure SignableRequest where
  method : Bytes
  target : Text.Target
  headers : List (Bytes × Bytes)
  body : SignableBody
deriving DecidableEq

/-- A request as the client puts it on the wire. -/
structure WireRequest where
  method : Bytes
  target : Text.Target
  headers : List (Bytes × Bytes)
  body : RequestBody
deriving DecidableEq

/-- What comes from libraries: which URLs are accepted when a request is built, the bytes that the
parser of the client escapes, the hash of a body, and the headers that a request is signed with. -/
structure HttpStack where
  acceptsUri : Bytes → Bool
  rules : Text.EscapeRules
  sha256 : Bytes → Bytes
  sign : ℕ → SignableRequest → Option HeaderMap
  sign_skipped : ∀ {time r instructions}, sign time r = some instructions →
    ∀ h ∈ instructions, h.1.bytes ∈ skipRequestHeaders

/-- How requests are passed through. -/
structure SendConfig where
  passthroughUnsignedPayload : Bool
  getMaxAttempts : ℕ
  headMaxAttempts : ℕ
  deleteMaxAttempts : ℕ
  maxRequestBodyBytes : ℕ
deriving DecidableEq

/-- The headers as they are given to the signer. -/
def signableHeaders (headers : HeaderMap) : List (Bytes × Bytes) :=
  headers.map fun h => (h.1.bytes, if Text.validUtf8 h.2.bytes then h.2.bytes else [])

/-- The headers as they are given to the client. -/
def sentHeaders (headers : HeaderMap) : List (Bytes × Bytes) :=
  headers.filterMap fun h => h.2.toStr.map fun v => (h.1.bytes, v)

/-- An attempt to send a request: what was signed for it, and what was sent. -/
structure Attempt where
  signed : SignableRequest
  sent : WireRequest
deriving DecidableEq

/-- Sign a request and build it again for the client, with more headers at its end. -/
def signAndBuild (http : HttpStack) (request : UpstreamRequest) (signable : SignableBody)
    (body : RequestBody) (more : List (Bytes × Bytes)) (time : ℕ) : Option Attempt :=
  if !http.acceptsUri request.url then none
  else
    (Text.writtenTarget request.url).bind fun t =>
      let signed : SignableRequest :=
        { method := request.method
          target := t.rooted
          headers := signableHeaders request.headers
          body := signable }
      (http.sign time signed).map fun instructions =>
        { signed
          sent :=
            { method := request.method
              target := http.rules.rewrite t
              headers := sentHeaders (request.headers ++ instructions) ++ more
              body } }

/-! ### Attempts -/

/-- What the client returns for an attempt. -/
inductive SendResult
  | status (code : ℕ)
  | error
deriving DecidableEq

/-- Whether the request may be sent again, and how often it is sent at most. -/
def retryStrategy (config : SendConfig) (method : Bytes) : Bool × ℕ :=
  if method = ascii "GET" then (true, max config.getMaxAttempts 1)
  else if method = ascii "HEAD" then (true, max config.headMaxAttempts 1)
  else if method = ascii "DELETE" then (true, max config.deleteMaxAttempts 1)
  else (false, 1)

/-- The codes for which an attempt is repeated. -/
def retryableStatus : List ℕ := [408, 429, 500, 502, 503, 504]

/-- Try until there is a response to return, from the given attempt on. -/
def bufferedAttempts (isIdempotent : Bool) (maxAttempts : ℕ) (build : ℕ → Option Attempt)
    (results : ℕ → SendResult) : ℕ → ℕ → List Attempt
  | 0, _ => []
  | remaining + 1, attempt =>
      match build attempt with
      | none => []
      | some a =>
          a :: match results attempt with
            | .error =>
                bufferedAttempts isIdempotent maxAttempts build results remaining (attempt + 1)
            | .status code =>
                if isIdempotent ∧ attempt < maxAttempts ∧ code ∈ retryableStatus then
                  bufferedAttempts isIdempotent maxAttempts build results remaining (attempt + 1)
                else []

/-- The number that the header for the length of the body declares. -/
def declaredContentLength (headers : HeaderMap) : Option ℕ :=
  ((headers.get (ascii "content-length")).bind HeaderValue.toStr).bind fun s =>
    (Text.fromStrUnsigned 64 (Text.trim s))

/-- The attempts to send a request to the backend, at the given times and with the given results. A
request that may be sent again, or has its body signed, is read before it is sent. -/
def sendPassthrough (http : HttpStack) (config : SendConfig) (request : UpstreamRequest)
    (originalHeaders : HeaderMap) (body : RequestBody) (requestId : Bytes) (now : ℕ → ℕ)
    (results : ℕ → SendResult) : List Attempt :=
  let (isIdempotent, maxAttempts) := retryStrategy config request.method
  if !config.passthroughUnsignedPayload || isIdempotent then
    match body.toBytes config.maxRequestBodyBytes requestId with
    | .error _ => []
    | .ok bytes =>
        let signable :=
          if config.passthroughUnsignedPayload then .unsignedPayload
          else .precomputed (Text.hexEncode (http.sha256 bytes))
        bufferedAttempts isIdempotent maxAttempts
          (fun attempt =>
            signAndBuild http request signable { bytes, fails := false } [] (now attempt))
          results maxAttempts 1
  else
    let contentLength := declaredContentLength originalHeaders
    if contentLength.any fun n => config.maxRequestBodyBytes < n then []
    else
      (signAndBuild http request .unsignedPayload (body.limited config.maxRequestBodyBytes)
        (contentLength.toList.map fun n => (ascii "content-length", Text.toDecimal n))
        (now 1)).toList

/-! ### Agreement -/

/-- The headers on the wire that are neither set by the signer nor by the client. -/
def WireRequest.forwarded (r : WireRequest) : List (Bytes × Bytes) :=
  r.headers.filter fun h => !skipRequestHeaders.contains h.1

/-- What is sent is what was signed. -/
structure Attempt.Agrees (a : Attempt) : Prop where
  method : a.sent.method = a.signed.method
  target : a.sent.target = a.signed.target
  headers : a.sent.forwarded = a.signed.headers

/-- The value can be read as a string. -/
def HeaderValue.Readable (v : HeaderValue) : Prop := v.toStr.isSome = true

theorem HeaderValue.toStr_eq_some
    {v : HeaderValue} {s : Bytes} (h : v.toStr = some s) :
  s = v.bytes ∧ ∀ b ∈ s, isVisibleByte b = true
  := by
  rw [toStr] at h
  split at h
  next hall =>
    obtain rfl := Option.some.inj h
    exact ⟨rfl, List.all_eq_true.mp hall⟩
  next => cases h

/-- A value that can be read is valid UTF-8. -/
theorem HeaderValue.validUtf8_of_toStr
    {v : HeaderValue} {s : Bytes} (h : v.toStr = some s) :
  Text.validUtf8 v.bytes = true
  := by
  obtain ⟨rfl, hvisible⟩ := toStr_eq_some h
  apply Text.validUtf8_of_lt
  intro b hb
  have hb := hvisible b hb
  rw [isVisibleByte, Bool.or_eq_true, Bool.and_eq_true, decide_eq_true_eq, decide_eq_true_eq,
    decide_eq_true_eq] at hb
  rcases hb with ⟨-, hlt⟩ | rfl
  · exact UInt8.lt_trans hlt (by decide)
  · decide

theorem length_sentHeaders_le
    (headers : HeaderMap) :
  (sentHeaders headers).length ≤ headers.length
  := List.length_filterMap_le _ headers

/-- The headers are sent as they are signed if all of them can be read, and not otherwise. -/
theorem sentHeaders_eq_iff
    {headers : HeaderMap} :
  sentHeaders headers = signableHeaders headers ↔ ∀ h ∈ headers, h.2.Readable
  := by
  induction headers with
  | nil => simp [sentHeaders, signableHeaders]
  | cons h headers ih =>
      rw [List.forall_mem_cons, ← ih, HeaderValue.Readable]
      rcases hstr : h.2.toStr with _ | s
      · have hsent : sentHeaders (h :: headers) = sentHeaders headers := by
          rw [sentHeaders, List.filterMap_cons, hstr]
          rfl
        constructor
        · intro heq
          have hle := length_sentHeaders_le headers
          rw [← hsent, heq, signableHeaders, List.length_map, List.length_cons] at hle
          omega
        · rintro ⟨hsome, -⟩
          cases hsome
      · have hsent : sentHeaders (h :: headers) = (h.1.bytes, s) :: sentHeaders headers := by
          rw [sentHeaders, List.filterMap_cons, hstr]
          rfl
        have hsigned : signableHeaders (h :: headers)
            = (h.1.bytes, s) :: signableHeaders headers := by
          rw [signableHeaders, List.map_cons, HeaderValue.validUtf8_of_toStr hstr,
            (HeaderValue.toStr_eq_some hstr).1]
          rfl
        rw [hsent, hsigned]
        simp

/-- Headers that are set anew are not forwarded. -/
theorem forwarded_of_skipped
    {headers : List (Bytes × Bytes)} (h : ∀ e ∈ headers, e.1 ∈ skipRequestHeaders) :
  (headers.filter fun e => !skipRequestHeaders.contains e.1) = []
  := by
  rw [List.filter_eq_nil_iff]
  intro e he
  simp [h e he]

theorem mem_sentHeaders
    {headers : HeaderMap} {e : Bytes × Bytes} (h : e ∈ sentHeaders headers) :
  ∃ header ∈ headers, header.1.bytes = e.1
  := by
  obtain ⟨header, hmem, hsent⟩ := List.mem_filterMap.mp h
  obtain ⟨v, -, rfl⟩ := Option.map_eq_some_iff.mp hsent
  exact ⟨header, hmem, rfl⟩

theorem mem_baseHeaders
    {headers : HeaderMap} {h : HeaderName × HeaderValue} :
  h ∈ baseHeaders headers ↔ h ∈ headers ∧ h.1.bytes ∉ skipRequestHeaders ∧
    h.1.bytes ∉ hopByHopHeaders ∧ h.1.bytes ∉ collectConnectionNominated headers
  := by
  rw [baseHeaders, List.mem_filter]
  simp [and_assoc]

/-- Besides what the signer and the client set, an attempt sends the headers that can be read. -/
theorem forwarded_of_signAndBuild
    {http : HttpStack} {request : UpstreamRequest} {signable : SignableBody} {body : RequestBody}
    {more : List (Bytes × Bytes)} {time : ℕ} {a : Attempt}
    (hbase : ∀ h ∈ request.headers, h.1.bytes ∉ skipRequestHeaders)
    (hmore : ∀ e ∈ more, e.1 ∈ skipRequestHeaders)
    (h : signAndBuild http request signable body more time = some a) :
  a.sent.forwarded = sentHeaders request.headers
  := by
  rw [signAndBuild] at h
  split at h
  next => cases h
  next =>
    obtain ⟨t, -, h⟩ := Option.bind_eq_some_iff.mp h
    obtain ⟨instructions, hsign, rfl⟩ := Option.map_eq_some_iff.mp h
    have hskipped : ∀ e ∈ sentHeaders instructions, e.1 ∈ skipRequestHeaders := by
      intro e he
      obtain ⟨header, hmem, hname⟩ := mem_sentHeaders he
      rw [← hname]
      exact http.sign_skipped hsign header hmem
    have hkept : ((sentHeaders request.headers).filter fun e =>
        !skipRequestHeaders.contains e.1) = sentHeaders request.headers := by
      rw [List.filter_eq_self]
      intro e he
      obtain ⟨header, hmem, hname⟩ := mem_sentHeaders he
      simp [← hname, hbase header hmem]
    rw [WireRequest.forwarded, sentHeaders, List.filterMap_append, List.filter_append,
      List.filter_append, forwarded_of_skipped hmore, List.append_nil]
    rw [sentHeaders] at hskipped hkept ⊢
    rw [forwarded_of_skipped hskipped, hkept, List.append_nil]

/-- An attempt agrees if the target is plain and the headers can be read, and not otherwise. -/
theorem signAndBuild_agrees_iff
    {http : HttpStack} {request : UpstreamRequest} {signable : SignableBody} {body : RequestBody}
    {more : List (Bytes × Bytes)} {time : ℕ} {a : Attempt}
    (hbase : ∀ h ∈ request.headers, h.1.bytes ∉ skipRequestHeaders)
    (hmore : ∀ e ∈ more, e.1 ∈ skipRequestHeaders)
    (h : signAndBuild http request signable body more time = some a) :
  a.Agrees ↔ (∀ t, Text.writtenTarget request.url = some t → http.rules.Plain t) ∧
    ∀ h ∈ request.headers, h.2.Readable
  := by
  have hforwarded := forwarded_of_signAndBuild hbase hmore h
  rw [signAndBuild] at h
  split at h
  next => cases h
  next =>
    obtain ⟨t, ht, h⟩ := Option.bind_eq_some_iff.mp h
    obtain ⟨instructions, hsign, rfl⟩ := Option.map_eq_some_iff.mp h
    have hplain := http.rules.rewrite_eq_rooted_iff (Text.writtenTarget_path ht)
    constructor
    · intro hagrees
      use fun t' ht' => ?_
      · have hheaders := hagrees.headers
        rw [hforwarded] at hheaders
        exact sentHeaders_eq_iff.mp hheaders
      · obtain rfl := Option.some.inj (ht.symm.trans ht')
        exact hplain.mp hagrees.target
    · rintro ⟨htarget, hheaders⟩
      exact {
        method := rfl
        target := hplain.mpr (htarget t ht)
        headers := hforwarded.trans (sentHeaders_eq_iff.mpr hheaders) }

/-- Each attempt was built. The induction is on how many are left. -/
theorem exists_build_of_mem_bufferedAttempts
    {isIdempotent : Bool} {maxAttempts remaining attempt : ℕ} {build : ℕ → Option Attempt}
    {results : ℕ → SendResult} {a : Attempt}
    (h : a ∈ bufferedAttempts isIdempotent maxAttempts build results remaining attempt) :
  ∃ n, build n = some a
  := by
  induction remaining generalizing attempt with
  | zero => cases h
  | succ remaining ih =>
      rw [bufferedAttempts] at h
      rcases hbuild : build attempt with _ | b
      · rw [hbuild] at h
        cases h
      · rw [hbuild] at h
        rcases List.mem_cons.mp h with rfl | h
        · exact ⟨attempt, hbuild⟩
        · split at h
          next => exact ih h
          next =>
            split at h
            next => exact ih h
            next => cases h

theorem exists_signAndBuild
    {http : HttpStack} {config : SendConfig} {request : UpstreamRequest}
    {originalHeaders : HeaderMap} {body : RequestBody} {requestId : Bytes} {now : ℕ → ℕ}
    {results : ℕ → SendResult} {a : Attempt}
    (h : a ∈ sendPassthrough http config request originalHeaders body requestId now results) :
  ∃ signable body more time, (∀ e ∈ more, e.1 ∈ skipRequestHeaders) ∧
    signAndBuild http request signable body more time = some a
  := by
  simp only [sendPassthrough] at h
  split at h
  next =>
    split at h
    next => cases h
    next bytes hbytes =>
      obtain ⟨n, hbuild⟩ := exists_build_of_mem_bufferedAttempts h
      exact ⟨_, _, [], now n, by simp, hbuild⟩
  next =>
    split at h
    next => cases h
    next =>
      refine ⟨_, _, _, now 1, ?_, Option.mem_toList.mp h⟩
      intro e he
      obtain ⟨n, -, rfl⟩ := List.mem_map.mp he
      simp [skipRequestHeaders]

/-- Besides what the signer and the client set, each attempt sends the headers that can be read. -/
theorem forwarded_of_sendPassthrough
    {http : HttpStack} {config : SendConfig} {state : AppState} {parts : Parts} {body : RequestBody}
    {requestId : Bytes} {now : ℕ → ℕ} {results : ℕ → SendResult} {a : Attempt}
    (h : a ∈ sendPassthrough http config (routeToPassthrough state parts) parts.headers body requestId
      now results) :
  a.sent.forwarded = sentHeaders (baseHeaders parts.headers)
  := by
  obtain ⟨signable, body, more, time, hmore, hbuild⟩ := exists_signAndBuild h
  exact forwarded_of_signAndBuild (fun h hh => (mem_baseHeaders.mp hh).2.1) hmore hbuild

/-- The values of a header that neither the signer nor the client sets. -/
theorem filter_forwarded
    {name : Bytes} (h : name ∉ skipRequestHeaders) (r : WireRequest) :
  (r.forwarded.filter fun e => e.1 = name) = r.headers.filter fun e => e.1 = name
  := by
  rw [WireRequest.forwarded, List.filter_filter]
  apply List.filter_congr
  intro e _
  by_cases he : e.1 = name
  · simp [he, h]
  · simp [he]

/-- The values of a header that are forwarded, if the name of the header is not one of those that
are left out. -/
theorem filter_sentHeaders
    {headers : HeaderMap} {name : Bytes} (hskip : name ∉ skipRequestHeaders)
    (hhop : name ∉ hopByHopHeaders) (hnominated : name ∉ collectConnectionNominated headers) :
  ((sentHeaders (baseHeaders headers)).filter fun e => e.1 = name)
    = (headers.getAll name).filterMap fun v => v.toStr.map fun s => (name, s)
  := by
  rw [baseHeaders, sentHeaders, List.filterMap_filter, List.filter_filterMap, HeaderMap.getAll,
    List.filterMap_map, List.filterMap_filter]
  apply List.filterMap_congr
  intro h _
  by_cases hname : h.1.bytes = name
  · have hkept : (!(skipRequestHeaders.contains h.1.bytes || hopByHopHeaders.contains h.1.bytes ||
        (collectConnectionNominated headers).contains h.1.bytes)) = true := by
      rw [hname]
      simp [hskip, hhop, hnominated]
    rw [if_pos hkept, if_pos (decide_eq_true hname), Function.comp]
    rcases h.2.toStr with _ | s
    · rfl
    · simp [hname]
  · have hother : ¬decide (h.1.bytes = name) = true := fun h => hname (of_decide_eq_true h)
    rw [if_neg hother]
    split
    next =>
      rcases h.2.toStr with _ | s
      · rfl
      · simp [hname]
    next => rfl

/-- No value of a header that the client excepts is forwarded. -/
theorem filter_sentHeaders_of_nominated
    {headers : HeaderMap} {name : Bytes} (hnominated : name ∈ collectConnectionNominated headers) :
  ((sentHeaders (baseHeaders headers)).filter fun e => e.1 = name) = []
  := by
  rw [List.filter_eq_nil_iff]
  intro e he hname
  obtain ⟨header, hheader, hbytes⟩ := mem_sentHeaders he
  apply (mem_baseHeaders.mp hheader).2.2.2
  rw [hbytes, of_decide_eq_true hname]
  exact hnominated

/-! ### Targets -/

/-- The end point is a URL for HTTP with neither a query nor a fragment, and with a path or
without one. -/
inductive IsEndpoint (config : Config) (pre : Bytes) : Prop
  | intro {scheme host : Bytes} : scheme ∈ knownSchemes → config.endpoint = scheme ++ host ++ pre →
      (∀ b ∈ host, Text.endsAuthority b = false) → (pre = [] ∨ ∃ rest, pre = slash :: rest) →
      63 ∉ pre → 35 ∉ pre → IsEndpoint config pre

/-- The path at the backend of what follows the bucket in a request. -/
def Config.targetPath (config : Config) (pre bucket remainder : Bytes) : Bytes :=
  if config.backendUsePathStyle then pre ++ slash :: (bucket ++ remainder)
  else pre ++ (if remainder = [] then [slash] else remainder)

/-- The query that is put after a path, which is the one of the request unless that is empty. -/
def wireQuery (query : Option Bytes) : Option Bytes := query.filter fun q => decide (q ≠ [])

theorem querySuffix_cases
    (query : Option Bytes) :
  (wireQuery query = none ∧ querySuffix query = []) ∨
    ∃ q, query = some q ∧ wireQuery query = some q ∧ querySuffix query = 63 :: q
  := by
  rcases query with _ | _ | ⟨b, q⟩
  · exact .inl ⟨rfl, rfl⟩
  · exact .inl ⟨rfl, rfl⟩
  · exact .inr ⟨b :: q, rfl, rfl, rfl⟩

/-- The target of a URL that is put together. -/
theorem writtenTarget_append
    {scheme authority path : Bytes} {query : Option Bytes} (hscheme : scheme ∈ knownSchemes)
    (hauthority : ∀ b ∈ authority, Text.endsAuthority b = false)
    (hpath : ∃ rest, path = slash :: rest) (hquestion : 63 ∉ path) (hhash : 35 ∉ path)
    (hquery : ∀ q, query = some q → 35 ∉ q) :
  Text.writtenTarget (scheme ++ authority ++ path ++ querySuffix query)
    = some { path, query := wireQuery query }
  := by
  obtain ⟨rest, rfl⟩ := hpath
  have hnohash : 35 ∉ slash :: rest ++ querySuffix query := by
    intro h
    rcases querySuffix_cases query with ⟨-, hsuffix⟩ | ⟨q, rfl, -, hsuffix⟩
    · rw [hsuffix, List.append_nil] at h
      exact hhash h
    · rw [hsuffix] at h
      rcases List.mem_append.mp h with h | h
      · exact hhash h
      · rcases List.mem_cons.mp h with h | h
        · exact absurd h (by decide)
        · exact hquery q rfl h
  have htake : (slash :: rest ++ querySuffix query).takeWhile (fun b => decide (b ≠ 35))
      = slash :: rest ++ querySuffix query := by
    have h := @List.takeWhile_append_of_pos _ (fun b => decide (b ≠ 35))
      (slash :: rest ++ querySuffix query) [] fun b hb => decide_eq_true fun heq => hnohash (heq ▸ hb)
    rwa [List.append_nil, List.takeWhile_nil, List.append_nil] at h
  have hdrop : (authority ++ slash :: rest ++ querySuffix query).dropWhile
      (fun b => !Text.endsAuthority b) = slash :: rest ++ querySuffix query := by
    rw [List.append_assoc, List.dropWhile_append_of_pos fun b hb => by rw [hauthority b hb]; rfl]
    rfl
  have hafter : Text.afterAuthority (scheme ++ authority ++ slash :: rest ++ querySuffix query)
      = some (slash :: rest ++ querySuffix query) := by
    rw [← htake, ← hdrop]
    simp only [knownSchemes, List.mem_cons, List.not_mem_nil, or_false] at hscheme
    rcases hscheme with rfl | rfl
    · rfl
    · rfl
  rw [Text.writtenTarget, hafter, Option.map_some, Text.splitOnce_append hquestion]
  rcases querySuffix_cases query with ⟨hwire, hsuffix⟩ | ⟨q, -, hwire, hsuffix⟩
  · rw [hwire, hsuffix, List.append_nil]
    rfl
  · rw [hwire, hsuffix, Text.splitOnce, if_pos rfl, Option.map_some, List.append_nil]

theorem strip_knownSchemes
    {scheme scheme' a b : Bytes} (hscheme : scheme ∈ knownSchemes) (hscheme' : scheme' ∈ knownSchemes)
    (h : scheme ++ a = scheme' ++ b) :
  scheme = scheme' ∧ a = b
  := by
  simp only [knownSchemes, List.mem_cons, List.not_mem_nil, or_false] at hscheme hscheme'
  rcases hscheme with rfl | rfl
  · rcases hscheme' with rfl | rfl
    · exact ⟨rfl, List.append_cancel_left h⟩
    · exact absurd (congrArg (fun l => l[4]?) h) (by simp [ascii])
  · rcases hscheme' with rfl | rfl
    · exact absurd (congrArg (fun l => l[4]?) h) (by simp [ascii])
    · exact ⟨rfl, List.append_cancel_left h⟩

theorem mem_of_mem_pathRemainder
    {path : Bytes} {b : UInt8} (h : b ∈ pathRemainder path) :
  b ∈ path
  := by
  have htrimmed : b ∈ trimmedPath path := (List.dropWhile_sublist _).subset h
  rw [trimmedPath] at htrimmed
  rcases hstrip : Text.strip [slash] path with _ | rest
  · rwa [hstrip] at htrimmed
  · rw [hstrip] at htrimmed
    rw [Text.strip_eq_some.mp hstrip]
    exact List.mem_append_right _ htrimmed

/-- The target of an admitted request at the backend. -/
theorem writtenTarget_routeToPassthrough
    {state : AppState} {parts : Parts} {requestId pre : Bytes}
    (hadmitted : checkBucket state (parseRequest parts requestId) = .ok ())
    (hendpoint : IsEndpoint state.config pre)
    (hbucket : ∀ b ∈ state.backendBucket, Text.endsAuthority b = false)
    (hpath : 63 ∉ parts.path ∧ 35 ∉ parts.path) (hquery : ∀ q, parts.query = some q → 35 ∉ q) :
  Text.writtenTarget (routeToPassthrough state parts).url
    = some { path := state.config.targetPath pre state.backendBucket (pathRemainder parts.path)
             query := wireQuery parts.query }
  := by
  have hnot : ∀ {b : UInt8}, Text.endsAuthority b = true → b ∉ state.backendBucket := by
    intro b hb hmem
    rw [hbucket b hmem] at hb
    cases hb
  obtain ⟨url, hurl, haddress⟩ :=
    addresses_routeToPassthrough (hnot (by decide)) (splitPath_of_checkBucket hadmitted)
  obtain ⟨hscheme, hconfig, hhost, hpre, hquestion, hhash⟩ := hendpoint
  have hremainder : 63 ∉ pathRemainder parts.path ∧ 35 ∉ pathRemainder parts.path :=
    ⟨fun h => hpath.1 (mem_of_mem_pathRemainder h), fun h => hpath.2 (mem_of_mem_pathRemainder h)⟩
  rw [hurl]
  cases haddress with
  | pathStyle hstyle =>
      have hstyle' : state.config.backendUsePathStyle = true := by
        by_contra h
        have hstrip := hstyle (Bool.eq_false_iff.mpr h) _ hscheme
        rw [hconfig, List.append_assoc, Text.strip_eq_some.mpr rfl] at hstrip
        cases hstrip
      have htarget := @writtenTarget_append _ _
        (pre ++ slash :: (state.backendBucket ++ pathRemainder parts.path)) parts.query hscheme hhost
        (by
          rcases hpre with rfl | ⟨rest, rfl⟩
          · exact ⟨_, rfl⟩
          · exact ⟨_, rfl⟩)
        (by
          simp only [List.mem_append, List.mem_cons, not_or]
          exact ⟨hquestion, by decide, hnot (by decide), hremainder.1⟩)
        (by
          simp only [List.mem_append, List.mem_cons, not_or]
          exact ⟨hhash, by decide, hnot (by decide), hremainder.2⟩)
        hquery
      rw [Config.targetPath, if_pos hstyle', ← htarget, hconfig]
      simp only [List.append_assoc]
  | virtualHosted hstyle hscheme' hconfig' =>
      rw [List.append_assoc] at hconfig
      obtain ⟨rfl, rfl⟩ := strip_knownSchemes hscheme hscheme' (hconfig.symm.trans hconfig')
      have hrooted : ∃ rest, (if pathRemainder parts.path = [] then [slash]
          else pathRemainder parts.path) = slash :: rest := by
        rcases pathRemainder_cases parts.path with h | ⟨rest, h⟩
        · exact ⟨[], if_pos h⟩
        · rw [h]
          exact ⟨rest, rfl⟩
      have hmem : ∀ {b : UInt8}, b ≠ slash → b ∉ pathRemainder parts.path →
          b ∉ (if pathRemainder parts.path = [] then [slash] else pathRemainder parts.path) := by
        intro b hb hpath
        split
        next => simpa using hb
        next => exact hpath
      have htarget := @writtenTarget_append _ (state.backendBucket ++ ascii "." ++ _)
        (pre ++ if pathRemainder parts.path = [] then [slash] else pathRemainder parts.path)
        parts.query hscheme
        (by
          intro b hb
          rcases List.mem_append.mp hb with hb | hb
          · rcases List.mem_append.mp hb with hb | hb
            · exact hbucket b hb
            · obtain rfl := List.mem_singleton.mp hb
              rfl
          · exact hhost b hb)
        (by
          obtain ⟨tail, htail⟩ := hrooted
          rcases hpre with rfl | ⟨rest, rfl⟩
          · exact ⟨tail, htail⟩
          · exact ⟨_, rfl⟩)
        (by
          rw [List.mem_append, not_or]
          exact ⟨hquestion, hmem (by decide) hremainder.1⟩)
        (by
          rw [List.mem_append, not_or]
          exact ⟨hhash, hmem (by decide) hremainder.2⟩)
        hquery
      have hnotstyle : ¬state.config.backendUsePathStyle = true := by
        rw [hstyle]
        decide
      rw [Config.targetPath, if_neg hnotstyle, ← htarget]
      simp only [List.append_assoc]

/-! ### Passing through -/

/-- What an attempt sends is what was signed for it if and only if there is nothing to rewrite in
the target of the URL, and each header that is forwarded can be read. The target is that of the end
point, with the bucket of the backend, what follows the bucket in the path of the request and the
query of the request. -/
theorem sendPassthrough_agrees_iff
    (http : HttpStack) (config : SendConfig) (state : AppState) (parts : Parts)
    (body : RequestBody) (requestId : Bytes) (now : ℕ → ℕ) (results : ℕ → SendResult) :
  (∀ a ∈ sendPassthrough http config (routeToPassthrough state parts) parts.headers body requestId
      now results,
    a.Agrees ↔
      (∀ t, Text.writtenTarget (routeToPassthrough state parts).url = some t →
        http.rules.Plain t) ∧
      ∀ h ∈ baseHeaders parts.headers, h.2.Readable) ∧
    ∀ pre, checkBucket state (parseRequest parts requestId) = .ok () →
      IsEndpoint state.config pre → (∀ b ∈ state.backendBucket, Text.endsAuthority b = false) →
      63 ∉ parts.path ∧ 35 ∉ parts.path → (∀ q, parts.query = some q → 35 ∉ q) →
      Text.writtenTarget (routeToPassthrough state parts).url
        = some { path := state.config.targetPath pre state.backendBucket (pathRemainder parts.path)
                 query := wireQuery parts.query }
  := by
  constructor
  · intro a ha
    obtain ⟨signable, body, more, time, hmore, hbuild⟩ := exists_signAndBuild ha
    exact signAndBuild_agrees_iff (fun h hh => (mem_baseHeaders.mp hh).2.1) hmore hbuild
  · exact fun pre hadmitted hendpoint hbucket hpath hquery =>
      writtenTarget_routeToPassthrough hadmitted hendpoint hbucket hpath hquery

/-- Libraries that accept all URLs and sign with a header of their own. -/
def sampleStack : HttpStack where
  acceptsUri _ := true
  rules := Text.standardEscapes
  sha256 _ := List.replicate 32 0
  sign _ _ := some [(⟨ascii "authorization", by decide, by decide, by decide⟩, ⟨[], by decide⟩)]
  sign_skipped := by
    rintro time r instructions h header hheader
    obtain rfl := Option.some.inj h
    obtain rfl := List.mem_singleton.mp hheader
    decide

def sampleSendConfig : SendConfig where
  passthroughUnsignedPayload := false
  getMaxAttempts := 2
  headMaxAttempts := 2
  deleteMaxAttempts := 2
  maxRequestBodyBytes := 100

/-- A request for a part of an object whose key has a segment of dots. -/
def dotsRequest : Parts :=
  { method := ascii "GET", path := ascii "/front/a/../b", query := some (ascii "acl"), headers := []
    lf_notMem_method := lf_notMem_get, lf_notMem_path := by decide }

/-- The attempts for the request, the first of which fails. -/
def dotsAttempts : List Attempt :=
  sendPassthrough sampleStack sampleSendConfig (routeToPassthrough sampleState dotsRequest) []
    ⟨[], false⟩ [] id fun n => if n = 1 then .error else .status 200

/-- A key with a segment of dots is signed as it is, and another key is sent. -/
theorem dotsAttempts_disagree :
  dotsAttempts.length = 2 ∧ ∀ a ∈ dotsAttempts, ¬a.Agrees
  := by
  have htargets : ∀ a ∈ dotsAttempts, a.signed.target.path = ascii "/a/../b" ∧
      a.sent.target.path = ascii "/b" := by decide +kernel
  constructor
  · decide +kernel
  · intro a ha hagrees
    obtain ⟨hsigned, hsent⟩ := htargets a ha
    rw [hagrees.target, hsigned] at hsent
    exact absurd hsent (by decide)

/-- A request for a part of an object is sent as it is signed. -/
theorem sendPassthrough_aclRequest :
  (∃ a, a ∈ sendPassthrough sampleStack sampleSendConfig (routeToPassthrough sampleState aclRequest)
      [] ⟨[], false⟩ [] id (fun _ => .status 200) ∧ a.Agrees) ∧
    Text.writtenTarget (routeToPassthrough sampleState aclRequest).url
      = some { path := ascii "//a", query := some (ascii "acl") }
  := by
  have hspec := sendPassthrough_agrees_iff sampleStack sampleSendConfig sampleState aclRequest
    ⟨[], false⟩ [] id fun _ => .status 200
  have htarget := hspec.2 [] (by decide +kernel)
    (@IsEndpoint.intro _ _ (ascii "https://") (ascii "store.example") (by decide)
      (by decide +kernel) (by decide) (.inl rfl) (by decide) (by decide)) (by decide) (by decide)
    (by decide)
  constructor
  · have hne : sendPassthrough sampleStack sampleSendConfig
        (routeToPassthrough sampleState aclRequest) [] ⟨[], false⟩ [] id (fun _ => .status 200)
        ≠ [] := by decide +kernel
    obtain ⟨a, ha⟩ := List.exists_mem_of_ne_nil _ hne
    use a, ha
    apply (hspec.1 a ha).mpr
    constructor
    · intro t ht
      obtain rfl := Option.some.inj (htarget.symm.trans ht)
      exact {
        path := by decide +kernel
        dots := by decide +kernel
        query := by
          rintro q hq
          obtain rfl := Option.some.inj hq
          decide +kernel }
    · exact fun h hh => by cases hh
  · exact htarget

end TinyS3Proxy
