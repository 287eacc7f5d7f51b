import TinyS3Proxy.Handlers.CopySource
import TinyS3Proxy.Handlers.Routes
import TinyS3Proxy.S3.ProxyError

/-!
# Invalidation

What is done once the backend has been called for a request (`handlers/put.rs`, `delete.rs`,
`multipart.rs`, `aws_chunked.rs`, `passthrough.rs` and `mod.rs`). The handlers of the typed writes
invalidate the object that was written, and do so before they answer. A request that is passed
through is answered with what the backend has answered, whatever it has changed there.
-/

namespace TinyS3Proxy

open Text (Bytes Reader ascii)
open Effect (exists_of_bind_eq_ok)

/-! ### Invalidating an object -/

/-- What is done to the cache for an object, by its bucket and its key. -/
inductive CacheAction
  | purge (bucket key : Bytes)
  | poison (bucket key : Bytes)
  | cancel (bucket key : Bytes)
deriving DecidableEq

/-- Whether the purges of an object succeed: the first one, and the one that repeats it. -/
structure Purges where
  first : Bool
  retried : Bool

/-- Purge an object, once more if that fails, and poison it if that fails too. Cancel its flight
whatever comes of it. -/
def invalidateCacheKey (purges : Purges) (bucket key : Bytes) : List CacheAction :=
  .purge bucket key ::
    (if purges.first then []
      else .purge bucket key :: if purges.retried then [] else [.poison bucket key]) ++
    [.cancel bucket key]

/-! ### Answering -/

/-- What is done to the cache for a request once the backend has been called, and the status of the
response that is sent after that. -/
structure Handling where
  actions : List CacheAction
  status : ℕ
deriving DecidableEq

/-- The objects of which a request can change the content, as S3 has it: a request that is passed
through can be any, and of the others only the writes of whole objects change one, the one that they
are for. -/
def Dispatched.MayChange : Dispatched → Bytes → Prop
  | passthrough _ _, _ => True
  | putObject input, key => key = input.key
  | putObjectFromPath input, key => key = input.key
  | deleteObject input, key => key = input.key
  | completeMultipartUpload input, key => key = input.key
  | _, _ => False

/-- What the backend does for a request: its answer, which is a status or an error, and the keys of
the objects of which it has changed the content. -/
structure BackendReply (d : Dispatched) where
  result : Except ProxyError ℕ
  changed : List Bytes
  mayChange : ∀ key ∈ changed, d.MayChange key

/-- What a request meets on its way. -/
structure Circumstances where
  reply : (d : Dispatched) → BackendReply d
  purges : Purges
  /-- What the reads do, which is not settled by one answer of the backend. -/
  reads : Handling

/-- Answer a call of the backend. -/
def answer (status : ℕ) (result : Except ProxyError ℕ) : Handling :=
  match result with
  | .ok _ => ⟨[], status⟩
  | .error e => ⟨[], e.statusCode⟩

/-- Answer a call that has written an object, after it has been invalidated. -/
def answerWrite (state : AppState) (purges : Purges) (key : Bytes) (status : ℕ)
    (result : Except ProxyError ℕ) : Handling :=
  match result with
  | .ok _ => ⟨invalidateCacheKey purges state.backendBucket key, status⟩
  | .error e => ⟨[], e.statusCode⟩

/-- Forward the answer of the backend. -/
def forwardAnswer (result : Except ProxyError ℕ) : Handling :=
  match result with
  | .ok status => ⟨[], status⟩
  | .error e => ⟨[], e.statusCode⟩

/-- Do for a request what is done once it has been sent. -/
def finish (state : AppState) (c : Circumstances) (d : Dispatched) : Handling :=
  match d with
  | .passthrough request body => forwardAnswer (c.reply (.passthrough request body)).result
  | .handleGet _ | .handleHead _ | .handleList _ _ => c.reads
  | .putObject input =>
      answerWrite state c.purges input.key 200 (c.reply (.putObject input)).result
  | .putObjectFromPath input =>
      answerWrite state c.purges input.key 200 (c.reply (.putObjectFromPath input)).result
  | .deleteObject input =>
      answerWrite state c.purges input.key 204 (c.reply (.deleteObject input)).result
  | .createMultipartUpload input => answer 200 (c.reply (.createMultipartUpload input)).result
  | .uploadPart input => answer 200 (c.reply (.uploadPart input)).result
  | .uploadPartFromPath input => answer 200 (c.reply (.uploadPartFromPath input)).result
  | .completeMultipartUpload input =>
      answerWrite state c.purges input.key 200 (c.reply (.completeMultipartUpload input)).result
  | .abortMultipartUpload input => answer 204 (c.reply (.abortMultipartUpload input)).result

/-- The object has been invalidated before the response is sent. -/
def Handling.Invalidates (h : Handling) (c : Circumstances) (bucket key : Bytes) : Prop :=
  invalidateCacheKey c.purges bucket key <:+: h.actions

/-- The request changes the content of the object and is acknowledged. -/
structure Acknowledged (state : AppState) (c : Circumstances) (d : Dispatched) (key : Bytes) :
    Prop where
  changed : key ∈ (c.reply d).changed
  success : isSuccess (finish state c d).status = true

/-! ### Which requests are passed through -/

/-- The request is passed through: by its headers and its query, or for the checksums of parts in
its body. -/
def PassedThrough {K : Type} (services : Services K) (parts : Parts) (parsed : ParsedRequest)
    (body : Reader) : Prop :=
  parsed.route parts = .passthrough ∨
    ∃ bucket key uploadId bytes, parsed.operation = .completeMultipartUpload bucket key uploadId ∧
      readBody services body parsed.requestId = .ok bytes ∧
      bodyHasChecksumElements (services.readXml bytes) = true

variable {K : Type} {services : Services K} {state : AppState} {parts : Parts}
  {parsed : ParsedRequest} {verified : Option (VerifiedRequest K)} {body : Reader} {d : Dispatched}

/-- A request of any other operation is passed through by its route alone. -/
theorem passedThrough_iff_route
    (hop : ∀ bucket key uploadId,
      parsed.operation ≠ .completeMultipartUpload bucket key uploadId) :
  PassedThrough services parts parsed body ↔ parsed.route parts = .passthrough
  := by
  constructor
  · rintro (hroute | ⟨bucket, key, uploadId, bytes, heq, -⟩)
    · exact hroute
    · exact absurd heq (hop bucket key uploadId)
  · exact Or.inl

theorem passedThrough_iff_of_complete
    {bucket key uploadId : Bytes} (hop : parsed.operation = .completeMultipartUpload bucket key uploadId)
    (h : dispatch services state parts parsed verified body = .ok d) :
  PassedThrough services parts parsed body ↔ d.isPassthrough = true
  := by
  simp only [dispatch, hop] at h
  split at h
  next hunsupported =>
    obtain rfl := Except.ok.inj h
    have hroute : parsed.route parts = .passthrough := by
      rw [ParsedRequest.route, hop]
      exact passthroughIf_eq_passthrough.mpr hunsupported
    exact ⟨fun _ => rfl, fun _ => Or.inl hroute⟩
  next hsupported =>
    have hroute : parsed.route parts ≠ .passthrough := by
      rw [ParsedRequest.route, hop]
      exact mt passthroughIf_eq_passthrough.mp hsupported
    obtain ⟨bytes, hread, h⟩ := exists_of_bind_eq_ok h
    split at h
    next hchecksums =>
      obtain rfl := Except.ok.inj h
      exact ⟨fun _ => rfl, fun _ => Or.inr ⟨bucket, key, uploadId, bytes, hop, hread, hchecksums⟩⟩
    next hchecksums =>
      constructor
      · rintro (hp | ⟨_, _, _, bytes', -, hread', hchecksums'⟩)
        · exact absurd hp hroute
        · obtain rfl := Except.ok.inj (hread.symm.trans hread')
          exact absurd hchecksums' hchecksums
      · intro hpass
        rw [handleCompleteMultipart] at h
        split at h
        next => cases h
        next =>
          obtain rfl := Except.ok.inj h
          cases hpass

/-- What a routed request of any other operation is passed through by. -/
theorem Routed.route_iff
    {op : S3Operation} (h : Routed services state parts parsed verified body op d)
    (hop : ∀ bucket key uploadId, op ≠ .completeMultipartUpload bucket key uploadId) :
  routeOf op parsed.extraAmzHeaders parts = .passthrough ↔ d.isPassthrough = true
  := by
  cases h with
  | passthrough route => exact ⟨fun _ => rfl, fun _ => route⟩
  | getObject route | headObject route | listObjectsV1 route | listObjectsV2 route
  | deleteObject route | createMultipartUpload route | abortMultipartUpload route =>
      simp only [routeOf, passthroughIf_eq_passthrough, route]
      simp [Dispatched.isPassthrough, handleCreateMultipart]
  | putObject route | putObjectFromPath route | uploadPart route | uploadPartFromPath route =>
      simp only [routeOf, route]
      simp [Dispatched.isPassthrough]
  | completeWithChecksums | completeMultipartUpload => exact absurd rfl (hop _ _ _)

/-- What is passed through is what the request says. -/
theorem passedThrough_iff
    (h : dispatch services state parts parsed verified body = .ok d) :
  PassedThrough services parts parsed body ↔ d.isPassthrough = true
  := by
  by_cases hop : ∃ bucket key uploadId,
      parsed.operation = .completeMultipartUpload bucket key uploadId
  · obtain ⟨bucket, key, uploadId, hop⟩ := hop
    exact passedThrough_iff_of_complete hop h
  · push Not at hop
    rw [passedThrough_iff_route hop]
    exact (routed_of_dispatch h).route_iff hop

/-! ### Writes are invalidated -/

variable {c : Circumstances} {key : Bytes}

/-- What a typed write has changed is invalidated if the backend has answered it. -/
theorem invalidates_of_typed
    (hd : d.isPassthrough = false) (hkey : key ∈ (c.reply d).changed)
    (hok : ∃ status, (c.reply d).result = .ok status) :
  (finish state c d).Invalidates c state.backendBucket key
  := by
  have hmay := (c.reply d).mayChange key hkey
  obtain ⟨status, hok⟩ := hok
  cases d with
  | passthrough => cases hd
  | putObject | putObjectFromPath | deleteObject | completeMultipartUpload =>
      obtain rfl := hmay
      simp only [finish, answerWrite, hok]
      exact List.infix_rfl
  | handleGet | handleHead | handleList | createMultipartUpload | uploadPart | uploadPartFromPath
  | abortMultipartUpload => exact hmay.elim

/-- Nothing is invalidated for a request that is passed through, or for a write that the backend has
not answered. -/
theorem actions_eq_nil
    (hkey : key ∈ (c.reply d).changed)
    (h : d.isPassthrough = true ∨ ∃ e, (c.reply d).result = .error e) :
  (finish state c d).actions = []
  := by
  have hmay := (c.reply d).mayChange key hkey
  cases d with
  | passthrough request body =>
      simp only [finish, forwardAnswer]
      split
      · rfl
      · rfl
  | putObject | putObjectFromPath | deleteObject | completeMultipartUpload =>
      obtain ⟨e, he⟩ := h.resolve_left (by simp [Dispatched.isPassthrough])
      simp only [finish, answerWrite, he]
  | handleGet | handleHead | handleList | createMultipartUpload | uploadPart | uploadPartFromPath
  | abortMultipartUpload => exact hmay.elim

theorem not_invalidates_of_nil
    {h : Handling} (hnil : h.actions = []) (bucket : Bytes) :
  ¬h.Invalidates c bucket key
  := by
  intro hinf
  rw [Handling.Invalidates, hnil, List.infix_nil] at hinf
  cases hinf

/-- A request that is admitted is dispatched. -/
theorem Admitted.handleS3Request_eq
    {requestId : Bytes} {body' : Reader}
    (h : Admitted services state parts body requestId verified body') :
  handleS3Request services state parts body requestId
    = dispatch services state parts (parseRequest parts requestId) verified body'
  := by
  have hbind : ∀ {α β : Type} (a : α) (f : α → Except S3Error β), (Except.ok a >>= f) = f a :=
    fun _ _ => rfl
  simp only [handleS3Request, h.method, h.contentLength, h.authenticated, h.bucket, h.payload, hbind]

/-- An acknowledged change of an object is followed by its invalidation, before the response, if and
only if the request is not passed through and the backend has not answered it with an error. -/
theorem invalidates_iff
    {requestId : Bytes} {body' : Reader}
    (hadmitted : Admitted services state parts body requestId verified body')
    (h : handleS3Request services state parts body requestId = .ok d) :
  (Acknowledged state c d key → (finish state c d).Invalidates c state.backendBucket key) ↔
    ¬(Acknowledged state c d key ∧
      (PassedThrough services parts (parseRequest parts requestId) body' ∨
        ∃ e, (c.reply d).result = .error e))
  := by
  rw [passedThrough_iff (hadmitted.handleS3Request_eq.symm.trans h)]
  constructor
  · rintro hinvalidates ⟨hack, hcase⟩
    exact not_invalidates_of_nil (actions_eq_nil hack.changed hcase) _ (hinvalidates hack)
  · intro hnot hack
    obtain ⟨hpass, hanswer⟩ := not_or.mp (not_and.mp hnot hack)
    apply invalidates_of_typed (Bool.eq_false_of_not_eq_true hpass) hack.changed
    rcases hresult : (c.reply d).result with e | status
    · exact absurd ⟨e, hresult⟩ hanswer
    · exact ⟨status, rfl⟩

/-- A request to store an object. -/
def plainPut : Parts where
  method := ascii "PUT"
  path := ascii "/front/key"
  query := none
  headers := []
  lf_notMem_method := lf_notMem_put
  lf_notMem_path := lf_notMem_frontKey

/-- Everything succeeds. A request that is passed through changes the object of the key, and one to
store an object changes that. -/
def changing (key : Bytes) : Circumstances where
  reply
    | .passthrough _ _ => ⟨.ok 200, [key], fun _ _ => trivial⟩
    | .putObject input => ⟨.ok 200, [input.key], fun _ => List.mem_singleton.mp⟩
    | _ => ⟨.ok 200, [], fun _ h => absurd h List.not_mem_nil⟩
  purges := ⟨true, true⟩
  reads := ⟨[], 200⟩

/-- What is stored is invalidated. -/
theorem plainPut_invalidated :
  ∃ d, handleS3Request openServices sampleState plainPut ⟨[], false⟩ [] = .ok d ∧
    Acknowledged sampleState (changing []) d (ascii "key") ∧
    (finish sampleState (changing []) d).Invalidates (changing []) sampleState.backendBucket
      (ascii "key")
  := by
  have hadmitted : Admitted openServices sampleState plainPut ⟨[], false⟩ [] none ⟨[], false⟩ := {
    method := by decide +kernel
    contentLength := by decide +kernel
    authenticated := rfl
    bucket := by decide +kernel
    payload := rfl }
  let input : PutObjectInput :=
    { bucket := sampleState.backendBucket
      key := ascii "key"
      body := []
      contentType := none
      contentMd5 := none
      metadata := []
      extraAmzHeaders := []
      contentHeaders := [] }
  have hput : handleS3Request openServices sampleState plainPut ⟨[], false⟩ []
      = .ok (.putObject input) := by
    decide +kernel
  have hack : Acknowledged sampleState (changing []) (.putObject input) (ascii "key") :=
    ⟨List.mem_singleton.mpr rfl, rfl⟩
  use .putObject input, hput, hack
  apply (invalidates_iff hadmitted hput).mpr _ hack
  rintro ⟨-, hpass | ⟨e, he⟩⟩
  · rw [passedThrough_iff (hadmitted.handleS3Request_eq.symm.trans hput)] at hpass
    cases hpass
  · cases he

/-- A copy is acknowledged, and what was cached of its target is left. -/
theorem ownCopy_not_invalidated :
  ∃ d, handleS3Request openServices sampleState ownCopy ⟨[], false⟩ [] = .ok d ∧
    Acknowledged sampleState (changing (ascii "b")) d (ascii "b") ∧
    ¬(finish sampleState (changing (ascii "b")) d).Invalidates (changing (ascii "b"))
      sampleState.backendBucket (ascii "b")
  := by
  use .passthrough (routeToPassthrough sampleState ownCopy) ⟨[], false⟩, by decide +kernel
  refine ⟨⟨List.mem_singleton.mpr rfl, rfl⟩, ?_⟩
  exact not_invalidates_of_nil rfl _

end TinyS3Proxy
