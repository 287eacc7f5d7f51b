import TinyS3Proxy.Handlers.CopySource
import TinyS3Proxy.Handlers.Routes
import TinyS3Proxy.S3.Acceptance

/-!
# Headers that are kept

Some headers change what a write does. Writes that cannot keep them are passed through, but which
these are is decided by the headers that were collected, and those that are passed through are not all
forwarded. So each value of such a header reaches the backend if and only if all of them can be read,
are not excepted by the client, and, where the request is not passed through, do not differ from one
another and are not those of a deletion.
-/

namespace TinyS3Proxy

open Text (Bytes Reader ascii)

/-! ### Modifiers -/

/-- The names of the headers that make a request conditional. -/
def conditionalNames : List Bytes := [ascii "if-match", ascii "if-none-match"]

/-- The names of the headers that change what a write does. -/
def modifierNames : List Bytes := conditionalNames ++ (writeModifyingBase ++ multipartChecksumHeaders)

namespace S3Operation

/-- The operation stores metadata. -/
def hasMetadata : S3Operation → Bool
  | putObject _ _ => true
  | createMultipartUpload _ _ => true
  | _ => false

/-- The operation is a write that headers can change. -/
def isWrite : S3Operation → Bool
  | putObject _ _ => true
  | deleteObject _ _ => true
  | createMultipartUpload _ _ => true
  | uploadPart _ _ _ _ => true
  | completeMultipartUpload _ _ _ => true
  | _ => false

/-- The operation deletes an object. -/
def isDeletion : S3Operation → Bool
  | deleteObject _ _ => true
  | _ => false

end S3Operation

/-- A header of the name changes what the write does. The algorithm that a library was told to use is
of no use where the body is decoded. -/
inductive IsModifier (op : S3Operation) (route : WriteBodyRoute) (name : Bytes) : Prop
  | modifier (mem : name ∈ modifierNames)
      (decoded : route = .decodeAwsChunked → name ≠ ascii "x-amz-sdk-checksum-algorithm") :
      IsModifier op route name
  | metadata (stored : op.hasMetadata = true) (bare : Bytes) (name_eq : name = metadataName ++ bare) :
      IsModifier op route name

/-- All values of the headers that change what the write does are sent. -/
def KeepsModifiers (op : S3Operation) (route : WriteBodyRoute) (headers : HeaderMap)
    (sent : List (Bytes × Bytes)) : Prop :=
  ∀ h ∈ headers, IsModifier op route h.1.bytes → (h.1.bytes, h.2.bytes) ∈ sent

/-- The headers that change what the write does are ones that are kept. -/
structure ModifiersKept (op : S3Operation) (route : WriteBodyRoute) (headers : HeaderMap) :
    Prop where
  readable : ∀ h ∈ headers, IsModifier op route h.1.bytes → h.2.Readable
  notNominated : route = .passthrough → ∀ h ∈ headers, IsModifier op route h.1.bytes →
    h.1.bytes ∉ collectConnectionNominated headers
  single : route ≠ .passthrough → ∀ h ∈ headers, IsModifier op route h.1.bytes →
    ∀ v ∈ headers.getAll h.1.bytes, v = h.2
  deletion : op.isDeletion = true → route = .typed →
    ∀ h ∈ headers, h.1.bytes ∉ multipartChecksumHeaders

/-- What is sent to the backend for a request: the attempts to send it if it is passed through, and
otherwise one call. -/
inductive SentFor (parts : Parts) (requestId : Bytes) : Dispatched → List (Bytes × Bytes) → Prop
  | attempt {http : HttpStack} {config : SendConfig} {request : UpstreamRequest} {body : RequestBody}
      {now : ℕ → ℕ} {results : ℕ → SendResult} {a : Attempt}
      (mem : a ∈ sendPassthrough http config request parts.headers body requestId now results) :
      SentFor parts requestId (.passthrough request body) a.sent.headers
  | call {d : Dispatched} (handled : ∀ request body, d ≠ .passthrough request body) :
      SentFor parts requestId d d.headers

/-! ### Names -/

theorem modifierNames_notMem :
  ∀ name ∈ modifierNames, name ∉ skipRequestHeaders ∧ name ∉ hopByHopHeaders ∧ name ∉ contentNames
  := by decide

/-- The names of headers for metadata are not among those of others. -/
theorem metadataName_notMem
    (bare : Bytes) :
  metadataName ++ bare ∉ skipRequestHeaders ∧ metadataName ++ bare ∉ hopByHopHeaders ∧
    metadataName ++ bare ∉ contentNames ∧ metadataName ++ bare ∉ modifierNames
  := by
  have hstrip : ∀ name ∈ skipRequestHeaders ++ hopByHopHeaders ++ contentNames ++ modifierNames,
      Text.strip metadataName name = none := by decide
  have hnotMem : metadataName ++ bare ∉
      skipRequestHeaders ++ hopByHopHeaders ++ contentNames ++ modifierNames := by
    intro hmem
    have hnone := hstrip _ hmem
    rw [Text.strip_eq_some.mpr rfl] at hnone
    cases hnone
  simpa only [List.mem_append, not_or, and_assoc] using hnotMem

theorem IsModifier.notMem
    {op : S3Operation} {route : WriteBodyRoute} {name : Bytes} (h : IsModifier op route name) :
  name ∉ skipRequestHeaders ∧ name ∉ hopByHopHeaders ∧ name ∉ contentNames
  := by
  cases h with
  | modifier mem => exact modifierNames_notMem name mem
  | metadata _ bare name_eq =>
      subst name_eq
      obtain ⟨hskip, hhop, hcontent, -⟩ := metadataName_notMem bare
      exact ⟨hskip, hhop, hcontent⟩

theorem isExtraAmz_of_mem :
  ∀ name ∈ writeModifyingBase ++ multipartChecksumHeaders, IsExtraAmz name
  := by decide

theorem not_isExtraAmz_metadata
    (bare : Bytes) :
  ¬IsExtraAmz (metadataName ++ bare)
  := by
  rintro ⟨hnone, -⟩
  change Text.strip metadataName (metadataName ++ bare) = none at hnone
  rw [Text.strip_eq_some.mpr rfl] at hnone
  cases hnone

/-! ### Routes -/

section

variable {parts : Parts} {requestId : Bytes} {op : S3Operation}

/-- What is collected is looked at for its names. -/
theorem lastReadable_of_any
    {p : Bytes → Bool} (h : ((parseRequest parts requestId).extraAmzHeaders.any fun e => p e.1) = false)
    {name : Bytes} (hname : IsExtraAmz name) (hp : p name = true) :
  lastReadable parts.headers name = none
  := by
  rcases hlast : lastReadable parts.headers name with _ | value
  · rfl
  · have hmem : (name, value) ∈ (parseRequest parts requestId).extraAmzHeaders :=
      mem_extraAmzHeaders.mpr ⟨hname, hlast⟩
    have hfalse := List.any_eq_false.mp h _ hmem
    exact absurd hp hfalse

/-- Nothing that was read makes the request one to pass through, but for checksums. -/
structure Unmodified (parts : Parts) : Prop where
  unconditional : hasUnsupportedHttpConditionals parts.headers = false
  base : ∀ name ∈ writeModifyingBase, lastReadable parts.headers name = none

/-- A body is not decoded in vain. -/
theorem awsChunkedRouteFor_ne
    (headers : HeaderMap) :
  awsChunkedRouteFor headers ≠ .rejectUnsupportedSignature
  := by
  rw [awsChunkedRouteFor]
  split
  all_goals exact nofun

/-- No header for a checksum was read. -/
def ChecksumsUnread (parts : Parts) : Prop :=
  ∀ name ∈ multipartChecksumHeaders, lastReadable parts.headers name = none

theorem unmodified_of_classifyPut
    {route : WriteBodyRoute}
    (h : classifyPutBodyRoute (parseRequest parts requestId).extraAmzHeaders parts.headers = route)
    (hne : route ≠ .passthrough) :
  Unmodified parts
  := by
  rw [classifyPutBodyRoute] at h
  simp only [if_neg (awsChunkedRouteFor_ne parts.headers)] at h
  split at h
  next => exact absurd h.symm hne
  next hconditional =>
    split at h
    next => exact absurd h.symm hne
    next hbase =>
      use Bool.eq_false_iff.mpr hconditional
      intro name hname
      exact lastReadable_of_any (Bool.eq_false_iff.mpr hbase)
        (isExtraAmz_of_mem name (List.mem_append_left _ hname)) (by simpa using hname)

theorem unmodified_of_classifyUploadPart
    {route : WriteBodyRoute}
    (h : classifyUploadPartBodyRoute (parseRequest parts requestId).extraAmzHeaders parts.headers
      = route)
    (hne : route ≠ .passthrough) :
  Unmodified parts ∧ (route = .typed → ChecksumsUnread parts)
  := by
  rw [classifyUploadPartBodyRoute] at h
  simp only [if_neg (awsChunkedRouteFor_ne parts.headers)] at h
  split at h
  next => exact absurd h.symm hne
  next hconditional =>
    split at h
    next => exact absurd h.symm hne
    next hbase =>
      constructor
      · use Bool.eq_false_iff.mpr hconditional
        intro name hname
        exact lastReadable_of_any (Bool.eq_false_iff.mpr hbase)
          (isExtraAmz_of_mem name (List.mem_append_left _ hname)) (by simpa using hname)
      · rintro rfl name hname
        split at h
        next => cases h
        next =>
          split at h
          next => cases h
          next hchecksums =>
            exact lastReadable_of_any (Bool.eq_false_iff.mpr hchecksums)
              (isExtraAmz_of_mem name (List.mem_append_right _ hname)) (by simpa using hname)

theorem unmodified_of_write
    (h : hasUnsupportedWriteModifiers (parseRequest parts requestId).extraAmzHeaders parts.headers
      = false) :
  Unmodified parts
  := by
  rw [hasUnsupportedWriteModifiers, Bool.or_eq_false_iff, Bool.or_eq_false_iff] at h
  obtain ⟨⟨hconditional, -⟩, hbase⟩ := h
  use hconditional
  intro name hname
  exact lastReadable_of_any hbase (isExtraAmz_of_mem name (List.mem_append_left _ hname))
    (by simpa using hname)

theorem unmodified_of_multipart
    (h : hasUnsupportedMultipartModifiers (parseRequest parts requestId).extraAmzHeaders parts.headers
      = false) :
  Unmodified parts ∧ ChecksumsUnread parts
  := by
  rw [hasUnsupportedMultipartModifiers, Bool.or_eq_false_iff, Bool.or_eq_false_iff] at h
  obtain ⟨⟨hconditional, -⟩, hnames⟩ := h
  have hnone : ∀ name ∈ writeModifyingBase ++ multipartChecksumHeaders,
      lastReadable parts.headers name = none := by
    intro name hname
    apply lastReadable_of_any
      (p := fun name => writeModifyingBase.contains name || multipartChecksumHeaders.contains name)
      hnames (isExtraAmz_of_mem name hname)
    simpa using hname
  constructor
  · use hconditional
    intro name hname
    exact hnone name (List.mem_append_left _ hname)
  · intro name hname
    exact hnone name (List.mem_append_right _ hname)

/-- A header of an unconditional request does not make it conditional. -/
theorem Unmodified.notMem_conditionalNames
    (hun : Unmodified parts) {h : HeaderName × HeaderValue} (hmem : h ∈ parts.headers) :
  h.1.bytes ∉ conditionalNames
  := by
  obtain ⟨hmatch, hnone⟩ := Bool.or_eq_false_iff.mp hun.unconditional
  intro hname
  simp only [conditionalNames, List.mem_cons, List.not_mem_nil, or_false] at hname
  rcases hname with hname | hname
  · exact List.any_eq_false.mp hmatch h hmem (decide_eq_true hname)
  · exact List.any_eq_false.mp hnone h hmem (decide_eq_true hname)

end

/-! ### Calls -/

section

variable {parts : Parts} {requestId : Bytes} {op : S3Operation} {route : WriteBodyRoute}

/-- What is collected for metadata, as headers. -/
theorem mem_metadataHeaders_userMetadata
    {e : Bytes × Bytes} :
  e ∈ metadataHeaders (parseRequest parts requestId).userMetadata
    ↔ (∃ bare, e.1 = metadataName ++ bare) ∧ lastReadable parts.headers e.1 = some e.2
  := by
  rw [mem_metadataHeaders]
  constructor
  · rintro ⟨bare, hmem, hname⟩
    use ⟨bare, hname⟩
    rw [hname]
    exact mem_userMetadata.mp hmem
  · rintro ⟨⟨bare, hname⟩, hlast⟩
    use bare
    rw [hname] at hlast
    exact ⟨mem_userMetadata.mpr hlast, hname⟩

/-- What was collected is set in the place of other headers. -/
theorem mem_insertAllRaw_collected
    {extra : StringMap} (hextra : ∀ a ∈ extra, a ∈ (parseRequest parts requestId).extraAmzHeaders)
    (headers : StringMap) (e : Bytes × Bytes) :
  e ∈ insertAllRaw headers extra ↔ e ∈ extra ∨ e ∈ headers ∧ ∀ a ∈ extra, a.1 ≠ e.1
  := by
  apply mem_insertAllRaw
  · intro a ha
    exact isHeader_of_lastReadable (mem_extraAmzHeaders.mp (hextra a ha)).2
  · intro a ha b hb hname
    have hlast := (mem_extraAmzHeaders.mp (hextra a ha)).2
    rw [hname, (mem_extraAmzHeaders.mp (hextra b hb)).2] at hlast
    exact (Option.some.inj hlast).symm

/-- The headers of a call: those that were collected for it, those for metadata if it stores metadata,
that for a checksum, and those about the content. -/
structure CallHeaders (parts : Parts) (requestId : Bytes) (op : S3Operation) (extra : StringMap)
    (checksum : Option ChecksumHeader) (headers : StringMap) : Prop where
  collected : ∀ a ∈ extra, a ∈ (parseRequest parts requestId).extraAmzHeaders
  mem : ∀ e : Bytes × Bytes, e.1 ∉ contentNames →
    (e ∈ headers ↔ e ∈ extra ∨
      ((op.hasMetadata = true ∧ e ∈ metadataHeaders (parseRequest parts requestId).userMetadata) ∨
        e ∈ checksumHeaders checksum) ∧ ∀ a ∈ extra, a.1 ≠ e.1)

/-- What is collected for a call are all the headers that change what it does. -/
def CollectsModifiers (parts : Parts) (op : S3Operation) (route : WriteBodyRoute)
    (extra : StringMap) : Prop :=
  ∀ h ∈ parts.headers, h.1.bytes ∈ modifierNames → IsModifier op route h.1.bytes →
    ∀ value, (h.1.bytes, value) ∈ extra ↔ lastReadable parts.headers h.1.bytes = some value

theorem headerName_mem_modifierNames
    (a : ChecksumAlgorithm) :
  a.headerName ∈ modifierNames
  := by
  cases a with
  | crc32 => decide
  | crc32C => decide
  | crc64Nvme => decide
  | sha1 => decide
  | sha256 => decide

/-- The value of a header that changes what the write does is in the headers of its call if it is the
last one that can be read. -/
theorem CallHeaders.mem_iff
    {extra headers : StringMap} {checksum : Option ChecksumHeader}
    (hcall : CallHeaders parts requestId op extra checksum headers)
    (hmodifiers : CollectsModifiers parts op route extra)
    (hvisible : ∀ header ∈ checksum, header.value.all isVisibleByte = true)
    {h : HeaderName × HeaderValue} (hmem : h ∈ parts.headers)
    (hmod : IsModifier op route h.1.bytes) :
  (h.1.bytes, h.2.bytes) ∈ headers ↔ lastReadable parts.headers h.1.bytes = some h.2.bytes
  := by
  rw [hcall.mem _ hmod.notMem.2.2]
  cases hmod with
  | modifier mem decoded =>
      have hextra := hmodifiers h hmem mem (.modifier mem decoded)
      constructor
      · rintro (he | ⟨⟨-, hmeta⟩ | hchecksum, hnone⟩)
        · exact (hextra _).mp he
        · obtain ⟨⟨bare, hname⟩, -⟩ := mem_metadataHeaders_userMetadata.mp hmeta
          exact absurd (hname ▸ mem) (metadataName_notMem bare).2.2.2
        · exfalso
          obtain ⟨header, hheader, heq⟩ := mem_checksumHeaders hchecksum
          obtain ⟨-, hvalue⟩ := Prod.mk.inj heq
          have hread : h.2.toStr ≠ none := by
            rw [HeaderValue.toStr, hvalue, if_pos (hvisible header hheader)]
            exact Option.some_ne_none _
          obtain ⟨value, hvalue⟩ := Option.ne_none_iff_exists'.mp (lastReadable_ne_none hmem hread)
          exact hnone _ ((hextra value).mpr hvalue) rfl
      · intro hlast
        exact .inl ((hextra _).mpr hlast)
  | metadata stored bare name_eq =>
      have hnone : ∀ a ∈ extra, a.1 ≠ h.1.bytes := by
        intro a ha heq
        apply not_isExtraAmz_metadata bare
        rw [← name_eq, ← heq]
        exact (mem_extraAmzHeaders.mp (hcall.collected a ha)).1
      constructor
      · rintro (he | ⟨⟨-, hmeta⟩ | hchecksum, -⟩)
        · exact absurd rfl (hnone _ he)
        · exact (mem_metadataHeaders_userMetadata.mp hmeta).2
        · obtain ⟨header, -, heq⟩ := mem_checksumHeaders hchecksum
          obtain ⟨hname, -⟩ := Prod.mk.inj heq
          apply absurd (headerName_mem_modifierNames header.algorithm)
          rw [← hname, name_eq]
          exact (metadataName_notMem bare).2.2.2
      · intro hlast
        right
        use .inl ⟨stored, mem_metadataHeaders_userMetadata.mpr ⟨⟨bare, name_eq⟩, hlast⟩⟩, hnone

/-- A call for which nothing is collected collects all modifiers if none can be read. -/
theorem collectsModifiers_nil
    (hun : Unmodified parts) (hchecksums : ChecksumsUnread parts) :
  CollectsModifiers parts op route []
  := by
  intro h hmem hname _ value
  have hnone : lastReadable parts.headers h.1.bytes = none := by
    rcases List.mem_append.mp hname with hname | hname
    · exact absurd hname (hun.notMem_conditionalNames hmem)
    · rcases List.mem_append.mp hname with hname | hname
      · exact hun.base _ hname
      · exact hchecksums _ hname
  rw [hnone]
  constructor
  · intro h
    cases h
  · intro h
    cases h

/-- What is collected for an unconditional request are all the headers that change what it does. -/
theorem collectsModifiers_of_unmodified
    (hun : Unmodified parts) {extra : StringMap}
    (hextra : ∀ a, IsModifier op route a.1 → a.1 ∈ modifierNames →
      (a ∈ extra ↔ a ∈ (parseRequest parts requestId).extraAmzHeaders)) :
  CollectsModifiers parts op route extra
  := by
  intro h hmem hname hmod value
  have hamz : IsExtraAmz h.1.bytes := by
    rcases List.mem_append.mp hname with hname | hname
    · exact absurd hname (hun.notMem_conditionalNames hmem)
    · exact isExtraAmz_of_mem _ hname
  rw [hextra _ hmod hname, mem_extraAmzHeaders]
  exact and_iff_right hamz

/-- Of the headers that change what a write does, only one is about the chunks. -/
theorem isStreamingOnlyAmzHeader_of_mem :
  ∀ name ∈ modifierNames, name ≠ ascii "x-amz-sdk-checksum-algorithm" →
    isStreamingOnlyAmzHeader name = false
  := by decide

theorem mem_extraAmzHeadersForDecoded
    {a : Bytes × Bytes} (hmod : IsModifier op .decodeAwsChunked a.1) (hname : a.1 ∈ modifierNames) :
  a ∈ extraAmzHeadersForDecoded (parseRequest parts requestId)
    ↔ a ∈ (parseRequest parts requestId).extraAmzHeaders
  := by
  rw [extraAmzHeadersForDecoded, List.mem_filter]
  apply and_iff_left
  cases hmod with
  | modifier _ decoded =>
      rw [isStreamingOnlyAmzHeader_of_mem _ hname (decoded rfl)]
      rfl
  | metadata _ bare name_eq => exact absurd (name_eq ▸ hname) (metadataName_notMem bare).2.2.2

/-! ### Calls of the backend -/

/-- The headers of an object, without and with the checksum of a body that was decoded. -/
theorem mem_contentHeaders_append
    {contentType contentMd5 : Option Bytes} {metadata contentHeaders more : StringMap}
    {e : Bytes × Bytes} (hname : e.1 ∉ contentNames) :
  e ∈ headerOf (ascii "content-type") contentType ++ headerOf (ascii "content-md5") contentMd5 ++
      metadataHeaders metadata ++ standardContentHeaders contentHeaders ++ more
    ↔ e ∈ metadataHeaders metadata ∨ e ∈ more
  := by rw [List.mem_append, mem_contentHeaders hname]

theorem callHeaders_putObject
    {bucket key backendBucket bytes : Bytes} {parsed : ParsedRequest}
    (hparsed : parsed = parseRequest parts requestId) :
  CallHeaders parts requestId (.putObject bucket key) parsed.extraAmzHeaders none
    (PutObjectInput.headers
      { bucket := backendBucket
        key
        body := bytes
        contentType := parsed.contentType
        contentMd5 := parsed.contentMd5
        metadata := parsed.userMetadata
        extraAmzHeaders := parsed.extraAmzHeaders
        contentHeaders := parsed.contentHeaders })
  := by
  subst hparsed
  constructor
  · exact fun a ha => ha
  · intro e hname
    rw [PutObjectInput.headers, mem_insertAllRaw_expires hname,
      mem_insertAllRaw_collected fun a ha => ha, mem_contentHeaders hname]
    simp [S3Operation.hasMetadata, checksumHeaders]

theorem extraAmzHeadersForDecoded_subset
    {a : Bytes × Bytes} (h : a ∈ extraAmzHeadersForDecoded (parseRequest parts requestId)) :
  a ∈ (parseRequest parts requestId).extraAmzHeaders
  := (List.mem_filter.mp h).1

theorem callHeaders_putObjectFromPath
    {bucket key backendBucket bytes : Bytes} {summary : DecodedSummary} {parsed : ParsedRequest}
    (hparsed : parsed = parseRequest parts requestId) :
  CallHeaders parts requestId (.putObject bucket key) (extraAmzHeadersForDecoded parsed)
    summary.trailer
    (PutObjectSpoolInput.headers
      { bucket := backendBucket
        key
        body := bytes
        len := summary.decodedLen
        sha256Hex := summary.sha256Hex
        contentType := parsed.contentType
        contentMd5 := parsed.contentMd5
        metadata := parsed.userMetadata
        extraAmzHeaders := extraAmzHeadersForDecoded parsed
        contentHeaders := contentHeadersForDecoded parsed
        checksum := summary.trailer })
  := by
  subst hparsed
  constructor
  · exact fun a ha => extraAmzHeadersForDecoded_subset ha
  · intro e hname
    rw [PutObjectSpoolInput.headers, mem_insertAllRaw_expires hname,
      mem_insertAllRaw_collected fun a ha => extraAmzHeadersForDecoded_subset ha,
      mem_contentHeaders_append hname]
    simp [S3Operation.hasMetadata]

theorem callHeaders_createMultipartUpload
    {bucket key backendBucket : Bytes} {parsed : ParsedRequest}
    (hparsed : parsed = parseRequest parts requestId) :
  CallHeaders parts requestId (.createMultipartUpload bucket key) [] none
    (CreateMultipartUploadInput.headers
      { bucket := backendBucket
        key
        contentType := parsed.contentType
        metadata := parsed.userMetadata
        contentHeaders := parsed.contentHeaders })
  := by
  subst hparsed
  constructor
  · exact fun a ha => absurd ha List.not_mem_nil
  · intro e hname
    have hcontent := @mem_contentHeaders (parseRequest parts requestId).contentType none
      (parseRequest parts requestId).userMetadata (parseRequest parts requestId).contentHeaders e
      hname
    rw [CreateMultipartUploadInput.headers, mem_insertAllRaw_expires hname]
    simpa [S3Operation.hasMetadata, checksumHeaders, headerOf] using hcontent

theorem callHeaders_uploadPart
    {bucket key uploadId : Bytes} {partNumber : ℤ} (input : UploadPartInput) :
  CallHeaders parts requestId (.uploadPart bucket key partNumber uploadId) [] none input.headers
  := by
  have hmd5 : ascii "content-md5" ∈ contentNames := by decide
  constructor
  · exact fun a ha => absurd ha List.not_mem_nil
  · intro e hname
    have hnot : e ∉ input.headers := fun h => hname (mem_headerOf h ▸ hmd5)
    simp [S3Operation.hasMetadata, checksumHeaders, hnot]

theorem callHeaders_uploadPartFromPath
    {bucket key uploadId : Bytes} {partNumber : ℤ} {input : UploadPartSpoolInput}
    (hextra : input.extraAmzHeaders = extraAmzHeadersForDecoded (parseRequest parts requestId)) :
  CallHeaders parts requestId (.uploadPart bucket key partNumber uploadId) input.extraAmzHeaders
    input.checksum input.headers
  := by
  have hmd5 : ascii "content-md5" ∈ contentNames := by decide
  have hsub : ∀ a ∈ input.extraAmzHeaders, a ∈ (parseRequest parts requestId).extraAmzHeaders := by
    rw [hextra]
    exact fun a ha => extraAmzHeadersForDecoded_subset ha
  constructor
  · exact hsub
  · intro e hname
    have hnot : e ∉ headerOf (ascii "content-md5") input.contentMd5 :=
      fun h => hname (mem_headerOf h ▸ hmd5)
    rw [UploadPartSpoolInput.headers, mem_insertAllRaw_collected hsub]
    simp [S3Operation.hasMetadata, hnot]

/-- A call without headers of a write that stores no metadata. -/
theorem callHeaders_nil
    (hmetadata : op.hasMetadata = false) :
  CallHeaders parts requestId op [] none []
  := by
  constructor
  · exact fun a ha => absurd ha List.not_mem_nil
  · intro e _
    simp [hmetadata, checksumHeaders]

end

/-- Only visible characters are read as base64. -/
def Crypto.DecodesVisible {K : Type} (c : Crypto K) : Prop :=
  ∀ s bs, c.base64Decode s = .ok bs → s.all isVisibleByte = true

/-- The checksum in the trailer of a body is read as base64. -/
theorem visible_of_decodeBody
    {K : Type} {c : Crypto K} (hc : c.DecodesVisible) {spool : Spool} {maxRequestBodyBytes : ℕ}
    {parsed : ParsedRequest} {headers : HeaderMap} {verified : Option (VerifiedRequest K)}
    {strictSigv4 : Bool} {body : Reader} {bytes : Bytes} {summary : DecodedSummary}
    (h : decodeBody c spool maxRequestBodyBytes parsed headers verified strictSigv4 body
      = .ok (bytes, summary)) :
  ∀ header ∈ summary.trailer, header.value.all isVisibleByte = true
  := by
  obtain ⟨declaredLen, -, h⟩ := Effect.exists_of_bind_eq_ok h
  obtain ⟨⟨⟩, -, h⟩ := Effect.exists_of_bind_eq_ok h
  obtain ⟨mode, -, h⟩ := Effect.exists_of_bind_eq_ok h
  obtain ⟨policy, -, h⟩ := Effect.exists_of_bind_eq_ok h
  rw [decodeIntoSpool] at h
  split at h
  next => cases h
  next file hfile =>
    simp only at h
    split at h
    next => cases h
    next summary' decoder' hrun =>
      split at h
      next => cases h
      next =>
        obtain ⟨-, rfl⟩ := Prod.mk.inj (Except.ok.inj h)
        obtain ⟨F, -, -, hframed, -, -, rfl, -⟩ := AwsChunkedDecoder.frames_of_decodeToWriter hrun
        intro header hheader
        exact hc _ _ (AwsChunkedDecoder.checksum_of_endingOk hframed.ending hheader)

/-! ### When modifiers are kept -/

section

variable {parts : Parts} {requestId : Bytes} {op : S3Operation} {route : WriteBodyRoute}

/-- A value is the last one that can be read, for all values of its header, if all can be read and do
not differ. -/
theorem lastReadable_iff
    {headers : HeaderMap} {name : Bytes} :
  (∀ h ∈ headers, h.1.bytes = name → lastReadable headers name = some h.2.bytes)
    ↔ (∀ h ∈ headers, h.1.bytes = name → h.2.Readable) ∧
      ∀ h ∈ headers, h.1.bytes = name → ∀ v ∈ headers.getAll name, v = h.2
  := by
  have hmem : ∀ {v : HeaderValue}, v ∈ headers.getAll name →
      ∃ h ∈ headers, h.1.bytes = name ∧ h.2 = v := by
    intro v hv
    obtain ⟨h, hh, rfl⟩ := List.mem_map.mp hv
    exact ⟨h, (List.mem_filter.mp hh).1, of_decide_eq_true (List.mem_filter.mp hh).2, rfl⟩
  constructor
  · intro hlast
    constructor
    · intro h hh hname
      obtain ⟨v, -, hv⟩ := exists_of_lastReadable (hlast h hh hname)
      have hbytes := HeaderValue.toStr_eq_some hv
      rw [HeaderValue.Readable, HeaderValue.toStr, if_pos (List.all_eq_true.mpr hbytes.2)]
      rfl
    · intro h hh hname v hv
      obtain ⟨h', hh', hname', rfl⟩ := hmem hv
      have heq := (hlast h' hh' hname').symm.trans (hlast h hh hname)
      rw [HeaderValue.mk.injEq]
      exact Option.some.inj heq
  · rintro ⟨hread, hsame⟩ h hh hname
    have hne : h.2.toStr ≠ none := Option.isSome_iff_ne_none.mp (hread h hh hname)
    obtain ⟨value, hvalue⟩ := Option.ne_none_iff_exists'.mp
      (hname ▸ lastReadable_ne_none hh hne)
    obtain ⟨v, hv, hstr⟩ := exists_of_lastReadable hvalue
    rw [hvalue, (HeaderValue.toStr_eq_some hstr).1, hsame h hh hname v hv]

/-- A call keeps the modifiers if the value of each is the last one that can be read. -/
theorem keepsModifiers_call_iff
    {sent : StringMap} (hroute : route ≠ .passthrough)
    (hdeletion : op.isDeletion = true → route = .typed →
      ∀ h ∈ parts.headers, h.1.bytes ∉ multipartChecksumHeaders)
    (hmem : ∀ h ∈ parts.headers, IsModifier op route h.1.bytes →
      ((h.1.bytes, h.2.bytes) ∈ sent
        ↔ lastReadable parts.headers h.1.bytes = some h.2.bytes)) :
  KeepsModifiers op route parts.headers sent ↔ ModifiersKept op route parts.headers
  := by
  constructor
  · intro hkeeps
    have hlast : ∀ h ∈ parts.headers, IsModifier op route h.1.bytes →
        ∀ h' ∈ parts.headers, h'.1.bytes = h.1.bytes →
        lastReadable parts.headers h.1.bytes = some h'.2.bytes := by
      intro h hh hmod h' hh' hname
      have hmod' : IsModifier op route h'.1.bytes := hname ▸ hmod
      rw [← hname]
      exact (hmem h' hh' hmod').mp (hkeeps h' hh' hmod')
    exact {
      readable := by
        intro h hh hmod
        exact (lastReadable_iff.mp (hlast h hh hmod)).1 h hh rfl
      notNominated := fun hpass => absurd hpass hroute
      single := by
        intro _ h hh hmod
        exact (lastReadable_iff.mp (hlast h hh hmod)).2 h hh rfl
      deletion := hdeletion }
  · intro hkept h hh hmod
    rw [hmem h hh hmod]
    apply lastReadable_iff.mpr ⟨?_, ?_⟩ h hh rfl
    · intro h' hh' hname
      exact hkept.readable h' hh' (hname ▸ hmod)
    · intro h' hh' hname v hv
      exact hkept.single hroute h' hh' (hname ▸ hmod) v (hname ▸ hv)

/-- A request that is passed through keeps the modifiers that can be read and are not excepted. -/
theorem mem_attempt_iff
    {state : AppState} {http : HttpStack} {config : SendConfig} {body : RequestBody}
    {now : ℕ → ℕ} {results : ℕ → SendResult} {a : Attempt}
    (ha : a ∈ sendPassthrough http config (routeToPassthrough state parts) parts.headers body requestId
      now results) {h : HeaderName × HeaderValue} (hh : h ∈ parts.headers)
    (hmod : IsModifier op route h.1.bytes) :
  (h.1.bytes, h.2.bytes) ∈ a.sent.headers
    ↔ h.2.Readable ∧ h.1.bytes ∉ collectConnectionNominated parts.headers
  := by
  obtain ⟨hskip, hhop, -⟩ := hmod.notMem
  have hfilter : (h.1.bytes, h.2.bytes) ∈ a.sent.headers ↔ (h.1.bytes, h.2.bytes) ∈
      ((sentHeaders (baseHeaders parts.headers)).filter fun e => e.1 = h.1.bytes) := by
    rw [← forwarded_of_sendPassthrough ha, filter_forwarded hskip, List.mem_filter]
    exact (and_iff_left (decide_eq_true rfl)).symm
  rw [hfilter]
  by_cases hnominated : h.1.bytes ∈ collectConnectionNominated parts.headers
  · rw [filter_sentHeaders_of_nominated hnominated]
    constructor
    · intro hmem
      cases hmem
    · rintro ⟨-, hnot⟩
      exact absurd hnominated hnot
  · rw [filter_sentHeaders hskip hhop hnominated, List.mem_filterMap, and_iff_left hnominated]
    constructor
    · rintro ⟨v, -, hv⟩
      obtain ⟨s, hs, heq⟩ := Option.map_eq_some_iff.mp hv
      obtain ⟨-, rfl⟩ := Prod.mk.inj heq
      rw [HeaderValue.Readable, HeaderValue.toStr,
        if_pos (List.all_eq_true.mpr (HeaderValue.toStr_eq_some hs).2)]
      rfl
    · intro hread
      obtain ⟨s, hs⟩ := Option.isSome_iff_exists.mp hread
      refine ⟨h.2, List.mem_map_of_mem (List.mem_filter.mpr ⟨hh, decide_eq_true rfl⟩), ?_⟩
      rw [hs, (HeaderValue.toStr_eq_some hs).1]
      rfl

theorem keepsModifiers_attempt_iff
    {state : AppState} {http : HttpStack} {config : SendConfig} {body : RequestBody}
    {now : ℕ → ℕ} {results : ℕ → SendResult} {a : Attempt}
    (ha : a ∈ sendPassthrough http config (routeToPassthrough state parts) parts.headers body requestId
      now results) :
  KeepsModifiers op .passthrough parts.headers a.sent.headers
    ↔ ModifiersKept op .passthrough parts.headers
  := by
  constructor
  · intro hkeeps
    exact {
      readable := fun h hh hmod => ((mem_attempt_iff ha hh hmod).mp (hkeeps h hh hmod)).1
      notNominated := fun _ h hh hmod => ((mem_attempt_iff ha hh hmod).mp (hkeeps h hh hmod)).2
      single := fun hne => absurd rfl hne
      deletion := nofun }
  · intro hkept h hh hmod
    exact (mem_attempt_iff ha hh hmod).mpr
      ⟨hkept.readable h hh hmod, hkept.notNominated rfl h hh hmod⟩

/-- A value that is not kept cannot be read. -/
theorem not_readable_of_unmodified
    (hun : Unmodified parts) (hchecksums : ChecksumsUnread parts) {h : HeaderName × HeaderValue}
    (hh : h ∈ parts.headers) (hname : h.1.bytes ∈ modifierNames) :
  lastReadable parts.headers h.1.bytes = none ∧ ¬h.2.Readable
  := by
  have hnone : lastReadable parts.headers h.1.bytes = none := by
    rcases List.mem_append.mp hname with hname | hname
    · exact absurd hname (hun.notMem_conditionalNames hh)
    · rcases List.mem_append.mp hname with hname | hname
      · exact hun.base _ hname
      · exact hchecksums _ hname
  use hnone
  intro hread
  exact lastReadable_ne_none hh (Option.isSome_iff_ne_none.mp hread) hnone

/-- A deletion that is not passed through keeps none of its headers. -/
theorem keepsModifiers_deletion_iff
    (hdeletion : op.isDeletion = true) (hmetadata : op.hasMetadata = false) (hun : Unmodified parts) :
  KeepsModifiers op .typed parts.headers [] ↔ ModifiersKept op .typed parts.headers
  := by
  constructor
  · intro hkeeps
    have hnone : ∀ h ∈ parts.headers, ¬IsModifier op .typed h.1.bytes :=
      fun h hh hmod => absurd (hkeeps h hh hmod) List.not_mem_nil
    exact {
      readable := fun h hh hmod => absurd hmod (hnone h hh)
      notNominated := nofun
      single := fun _ h hh hmod => absurd hmod (hnone h hh)
      deletion := by
        intro _ _ h hh hname
        apply hnone h hh
        exact .modifier (List.mem_append_right _ (List.mem_append_right _ hname)) nofun }
  · intro hkept h hh hmod
    exfalso
    have hread : lastReadable parts.headers h.1.bytes ≠ none :=
      lastReadable_ne_none hh (Option.isSome_iff_ne_none.mp (hkept.readable h hh hmod))
    cases hmod with
    | modifier mem _ =>
        rcases List.mem_append.mp mem with hname | hname
        · exact hun.notMem_conditionalNames hh hname
        · rcases List.mem_append.mp hname with hname | hname
          · exact hread (hun.base _ hname)
          · exact hkept.deletion hdeletion rfl h hh hname
    | metadata stored _ _ =>
        rw [hmetadata] at stored
        cases stored

end

/-- A call keeps the modifiers that are collected for it. -/
theorem CallHeaders.keepsModifiers_iff_kept
    {parts : Parts} {requestId : Bytes} {op : S3Operation} {route : WriteBodyRoute}
    {extra headers : StringMap} {checksum : Option ChecksumHeader}
    (hcall : CallHeaders parts requestId op extra checksum headers) (hroute : route ≠ .passthrough)
    (hdeletion : op.isDeletion = false) (hmodifiers : CollectsModifiers parts op route extra)
    (hvisible : ∀ header ∈ checksum, header.value.all isVisibleByte = true) :
  KeepsModifiers op route parts.headers headers ↔ ModifiersKept op route parts.headers
  := by
  apply keepsModifiers_call_iff hroute
  · intro htrue
    rw [hdeletion] at htrue
    cases htrue
  · intro h hh hmod
    exact hcall.mem_iff hmodifiers hvisible hh hmod

/-- The headers that are sent for a write have all values of the headers that change what it does if
and only if these can be read, are not excepted if the request is passed through, and, if it is not, do
not differ and are not for the checksum of a deletion. -/
theorem keepsModifiers_iff
    {K : Type} {services : Services K} {state : AppState} {parts : Parts} {body : Reader}
    {requestId : Bytes} {d : Dispatched} {sent : List (Bytes × Bytes)}
    (hbase64 : services.crypto.DecodesVisible)
    (hwrite : (parseOperation parts).isWrite = true)
    (h : handleS3Request services state parts body requestId = .ok d)
    (hsent : SentFor parts requestId d sent) :
  KeepsModifiers (parseOperation parts) ((parseRequest parts requestId).route parts) parts.headers sent
    ↔ ModifiersKept (parseOperation parts) ((parseRequest parts requestId).route parts) parts.headers
  := by
  obtain ⟨verified, body', -, hrouted⟩ := routed_of_handleS3Request h
  have hop : (parseRequest parts requestId).operation = parseOperation parts := rfl
  rw [ParsedRequest.route, hop]
  rw [hop] at hrouted
  generalize parseOperation parts = op at hwrite hrouted ⊢
  have htyped : WriteBodyRoute.typed ≠ .passthrough := nofun
  have hdecode : WriteBodyRoute.decodeAwsChunked ≠ .passthrough := nofun
  have hcall : (∀ request body, d ≠ .passthrough request body) → sent = d.headers := by
    intro hne
    cases hsent with
    | attempt _ => exact absurd rfl (hne _ _)
    | call _ => rfl
  cases hrouted with
  | passthrough hroute _ =>
      rw [hroute]
      cases hsent with
      | attempt ha => exact keepsModifiers_attempt_iff ha
      | call hne => exact absurd rfl (hne _ _)
  | getObject _ => cases hwrite
  | headObject _ => cases hwrite
  | listObjectsV1 _ => cases hwrite
  | listObjectsV2 _ => cases hwrite
  | abortMultipartUpload _ => cases hwrite
  | putObject hroute _ _ =>
      rw [hcall nofun, routeOf, hroute]
      apply (callHeaders_putObject rfl).keepsModifiers_iff_kept htyped rfl
      · exact collectsModifiers_of_unmodified (unmodified_of_classifyPut hroute htyped)
          fun _ _ _ => Iff.rfl
      · exact nofun
  | putObjectFromPath hroute hdecoded =>
      rw [hcall nofun, routeOf, hroute]
      apply (callHeaders_putObjectFromPath rfl).keepsModifiers_iff_kept hdecode rfl
      · exact collectsModifiers_of_unmodified (unmodified_of_classifyPut hroute hdecode)
          fun _ hmod hname => mem_extraAmzHeadersForDecoded hmod hname
      · exact visible_of_decodeBody hbase64 hdecoded
  | deleteObject hroute =>
      rw [hcall nofun, routeOf, passthroughIf_eq_typed.mpr hroute]
      exact keepsModifiers_deletion_iff rfl rfl (unmodified_of_write hroute)
  | createMultipartUpload hroute =>
      obtain ⟨hun, hchecksums⟩ := unmodified_of_multipart hroute
      rw [hcall nofun, routeOf, passthroughIf_eq_typed.mpr hroute]
      apply (callHeaders_createMultipartUpload rfl).keepsModifiers_iff_kept htyped rfl
      · exact collectsModifiers_nil hun hchecksums
      · exact nofun
  | uploadPart hroute _ _ =>
      obtain ⟨hun, hchecksums⟩ := unmodified_of_classifyUploadPart hroute htyped
      rw [hcall nofun, routeOf, hroute]
      apply (@callHeaders_uploadPart parts requestId _ _ _ _ _).keepsModifiers_iff_kept htyped rfl
      · exact collectsModifiers_nil hun (hchecksums rfl)
      · exact nofun
  | uploadPartFromPath hroute hdecoded =>
      obtain ⟨hun, -⟩ := unmodified_of_classifyUploadPart hroute hdecode
      rw [hcall nofun, routeOf, hroute]
      apply (callHeaders_uploadPartFromPath rfl).keepsModifiers_iff_kept hdecode rfl
      · exact collectsModifiers_of_unmodified hun
          fun _ hmod hname => mem_extraAmzHeadersForDecoded hmod hname
      · exact visible_of_decodeBody hbase64 hdecoded
  | completeMultipartUpload hroute _ _ =>
      obtain ⟨hun, hchecksums⟩ := unmodified_of_multipart hroute
      rw [hcall nofun, routeOf, passthroughIf_eq_typed.mpr hroute]
      apply (@callHeaders_nil parts requestId _ rfl).keepsModifiers_iff_kept htyped rfl
      · exact collectsModifiers_nil hun hchecksums
      · exact nofun
  | completeWithChecksums hroute _ _ =>
      obtain ⟨hun, hchecksums⟩ := unmodified_of_multipart hroute
      rw [routeOf, passthroughIf_eq_typed.mpr hroute]
      cases hsent with
      | call hne => exact absurd rfl (hne _ _)
      | attempt ha =>
          have hnotDeletion : ∀ bucket key uploadId,
              (S3Operation.completeMultipartUpload bucket key uploadId).isDeletion = false :=
            fun _ _ _ => rfl
          apply keepsModifiers_call_iff htyped fun htrue =>
            absurd (htrue.symm.trans (hnotDeletion _ _ _)) (by decide)
          intro h hh hmod
          rw [mem_attempt_iff ha hh hmod]
          cases hmod with
          | metadata stored _ _ => cases stored
          | modifier mem _ =>
              obtain ⟨hnone, hread⟩ := not_readable_of_unmodified hun hchecksums hh mem
              rw [hnone]
              constructor
              · rintro ⟨hread', -⟩
                exact absurd hread' hread
              · intro heq
                cases heq

/-- A request to store an object, with a header. -/
def storeRequest (name : HeaderName) (value : HeaderValue) : Parts where
  method := ascii "PUT"
  path := ascii "/front/doc"
  query := none
  headers := [(name, value)]
  lf_notMem_method := lf_notMem_put
  lf_notMem_path := by decide

/-- A request to store an object with a tag that is not written in ASCII. -/
def taggedStore : Parts :=
  storeRequest ⟨ascii "x-amz-tagging", by decide, by decide, by decide⟩
    ⟨ascii "name=Zo" ++ [0xC3, 0xAB], by decide⟩

/-- The object is stored without its tag. -/
theorem taggedStore_drops :
  ∃ input, handleS3Request openServices sampleState taggedStore ⟨[], false⟩ []
      = .ok (.putObject input) ∧
    SentFor taggedStore [] (.putObject input) input.headers ∧
    ¬KeepsModifiers (parseOperation taggedStore) ((parseRequest taggedStore []).route taggedStore)
      taggedStore.headers input.headers
  := by
  refine ⟨⟨ascii "back", ascii "doc", [], none, none, [], [], []⟩, by decide +kernel, .call nofun, ?_⟩
  intro hkeeps
  have hsent := hkeeps _ (List.mem_singleton.mpr rfl) (.modifier (by decide) nofun)
  revert hsent
  decide +kernel

/-- A request to store an object with metadata. -/
def describedStore : Parts :=
  storeRequest ⟨ascii "x-amz-meta-a", by decide, by decide, by decide⟩ ⟨ascii "1", by decide⟩

/-- The object is stored with its metadata. -/
theorem describedStore_keeps :
  ∃ input, handleS3Request openServices sampleState describedStore ⟨[], false⟩ []
      = .ok (.putObject input) ∧
    KeepsModifiers (parseOperation describedStore)
      ((parseRequest describedStore []).route describedStore) describedStore.headers input.headers
  := by
  have hhandled : handleS3Request openServices sampleState describedStore ⟨[], false⟩ []
      = .ok (.putObject ⟨ascii "back", ascii "doc", [], none, none, [(ascii "a", ascii "1")], [], []⟩) := by
    decide +kernel
  refine ⟨_, hhandled, ?_⟩
  have hbase64 : openServices.crypto.DecodesVisible := nofun
  apply (keepsModifiers_iff hbase64 (by decide +kernel) hhandled (.call nofun)).mpr
  exact {
    readable := by
      intro h hh _
      obtain rfl := List.mem_singleton.mp hh
      rfl
    notNominated := by
      intro hroute
      exact absurd hroute (by decide +kernel)
    single := by
      intro _ h hh _ v hv
      obtain rfl := List.mem_singleton.mp hh
      exact List.mem_singleton.mp hv
    deletion := by
      intro hdeletion
      exact absurd hdeletion (by decide +kernel) }

end TinyS3Proxy
