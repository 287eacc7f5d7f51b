import TinyS3Proxy.Proxy.Objects

/-!
# Versions of objects

The backend answers the reads of one version of an object with four fixed responses: to a
`GET` and to a `HEAD`, each with and without checksum mode. When these describe one object,
cached metadata is a mixture of parts of them. This module says which parts, shows that the
ways in which metadata is made and merged keep to it, and that the responses made of such
metadata are the ones made of the answers of the backend.
-/

namespace TinyS3Proxy

/-! ### Headers by kind -/

namespace Headers

/-- Header maps with the same checksum headers and the same other headers are equal. -/
theorem eq_of_parts
    {H K : Headers} (hw : H.withoutChecksums = K.withoutChecksums)
    (hc : extractChecksumHeaders H = extractChecksumHeaders K) :
  H = K
  := by
  funext name
  have hwn := congrFun hw name
  have hcn := congrFun hc name
  simp only [withoutChecksums, extractChecksumHeaders, filter] at hwn hcn
  by_cases hn : isChecksumResponseHeader name = true
  · simpa [hn] using hcn
  · simpa [hn] using hwn

/-- Leaving out the checksum headers when they are not asked for. -/
theorem filter_asked
    (H : Headers) (asked : Bool) :
  (H.filter fun name => asked || !isChecksumResponseHeader name) =
    if asked then H else H.withoutChecksums
  := by
  cases asked with
  | false => rfl
  | true => rfl

/-- Only checksum headers are left of a map of checksum headers. -/
theorem withoutChecksums_extract
    (H : Headers) :
  (extractChecksumHeaders H).withoutChecksums = empty
  := by
  funext name
  simp only [withoutChecksums, extractChecksumHeaders, filter, empty]
  split
  next h => simp [by simpa using h]
  next => rfl

theorem withoutChecksums_withoutChecksums
    (H : Headers) :
  H.withoutChecksums.withoutChecksums = H.withoutChecksums
  := by
  funext name
  simp only [withoutChecksums, filter]
  split
  · rfl
  · rfl

theorem withoutChecksums_extend
    (H K : Headers) :
  (H.extend K).withoutChecksums = H.withoutChecksums.extend K.withoutChecksums
  := by
  funext name
  simp only [withoutChecksums, filter, extend]
  split
  · rfl
  · rfl

theorem extend_empty
    (H : Headers) :
  H.extend empty = H
  := by
  funext name
  simp [extend, empty]

theorem extract_extend
    (H K : Headers) :
  extractChecksumHeaders (H.extend K) =
    (extractChecksumHeaders H).extend (extractChecksumHeaders K)
  := by
  funext name
  simp only [extractChecksumHeaders, filter, extend]
  split
  · rfl
  · rfl

theorem extract_withoutChecksums
    (H : Headers) :
  extractChecksumHeaders H.withoutChecksums = empty
  := by
  funext name
  simp only [withoutChecksums, extractChecksumHeaders, filter, empty]
  split
  next h => simp [h]
  next => rfl

theorem extract_extract
    (H : Headers) :
  extractChecksumHeaders (extractChecksumHeaders H) = extractChecksumHeaders H
  := by
  funext name
  simp only [extractChecksumHeaders, filter]
  split
  · rfl
  · rfl

theorem empty_extend
    (H : Headers) :
  empty.extend H = H
  := by
  funext name
  simp [extend, empty]

end Headers

/-- A header that only `HEAD` responses carry is not a checksum header. -/
theorem isChecksumResponseHeader_headOnly
    {name : String} (h : isHeadOnlyResponseHeader name = true) :
  isChecksumResponseHeader name = false
  := by
  obtain rfl : name = "x-amz-archive-status" := by simpa [isHeadOnlyResponseHeader] using h
  decide

/-- A header map is put together again from its headers by kind. -/
theorem splitHeadRefreshHeaders_extend
    (H : Headers) :
  ((splitHeadRefreshHeaders H).1.withoutChecksums.extend (splitHeadRefreshHeaders H).2).extend
    (extractChecksumHeaders (splitHeadRefreshHeaders H).1) = H
  := by
  funext name
  simp only [splitHeadRefreshHeaders, Headers.withoutChecksums, extractChecksumHeaders,
    Headers.filter, Headers.extend]
  by_cases hh : isHeadOnlyResponseHeader name = true
  · simp [hh, isChecksumResponseHeader_headOnly hh]
  · by_cases hc : isChecksumResponseHeader name = true
    · simp [hh, hc]
    · simp [hh, hc]

/-- Without checksum headers, a header map is put together from the two other kinds. -/
theorem splitHeadRefreshHeaders_withoutChecksums
    (H : Headers) :
  (splitHeadRefreshHeaders H).1.withoutChecksums.extend (splitHeadRefreshHeaders H).2 =
    H.withoutChecksums
  := by
  funext name
  simp only [splitHeadRefreshHeaders, Headers.withoutChecksums, Headers.filter, Headers.extend]
  by_cases hh : isHeadOnlyResponseHeader name = true
  · simp [hh, isChecksumResponseHeader_headOnly hh]
  · by_cases hc : isChecksumResponseHeader name = true
    · simp [hh, hc]
    · simp [hh, hc]

/-- A map has checksum headers when some entry is one. -/
theorem HeaderEntries.extract_ne_empty
    {entries : HeaderEntries} (h : entries.any (fun e => isChecksumResponseHeader e.1) = true) :
  extractChecksumHeaders entries.toHeaders ≠ Headers.empty
  := by
  obtain ⟨e, he, hc⟩ := List.any_eq_true.mp h
  intro hempty
  have hnone := congrFun hempty e.1
  simp only [extractChecksumHeaders, Headers.filter, hc, if_true, HeaderEntries.toHeaders,
    Headers.empty, Option.map_eq_none_iff, List.find?_eq_none] at hnone
  exact hnone e he (by simp)

/-! ### Versions -/

/-- A read without and with checksum mode. -/
def ReadOptions.plain : ReadOptions := ⟨none⟩

def ReadOptions.checked : ReadOptions := ⟨some .enabled⟩

/-- The two ways of reading. -/
theorem ReadOptions.eq_plain_or_checked
    (options : ReadOptions) :
  options = plain ∨ options = checked
  := by
  obtain ⟨_ | ⟨⟨⟩⟩⟩ := options
  · exact Or.inl rfl
  · exact Or.inr rfl

/-- A version of an object: its body, and what the backend answers to a `GET` and to a
`HEAD`. -/
structure ObjectVersion where
  body : List UInt8
  get : ReadOptions → GetObjectMeta
  head : ReadOptions → HeadObjectOutput

/-- What all answers about one version share. -/
structure SharedFields where
  contentType : Option String
  contentLength : Option ℤ
  etag : Option String
  lastModified : Option Time
  metadata : Headers
  extraHeaders : Headers

/-- What the answer to a `GET` should share with the others. -/
def GetObjectMeta.shared (info : GetObjectMeta) : SharedFields where
  contentType := info.contentType
  contentLength := info.contentLength
  etag := info.etag
  lastModified := info.lastModified
  metadata := info.metadata
  extraHeaders := info.extraHeaders.toHeaders.withoutChecksums

/-- What the answer to a `HEAD` should share with the others. -/
def HeadObjectOutput.shared (output : HeadObjectOutput) : SharedFields where
  contentType := output.contentType
  contentLength := output.contentLength
  etag := output.etag
  lastModified := output.lastModified
  metadata := output.metadata
  extraHeaders := (splitHeadRefreshHeaders output.extraHeaders).1.withoutChecksums

namespace ObjectVersion

/-- The entity tag of a version. -/
def etag (v : ObjectVersion) : Option String := (v.get .plain).etag

/-- The headers of a version that only `HEAD` responses carry. -/
def headOnly (v : ObjectVersion) : Headers :=
  (splitHeadRefreshHeaders (v.head .plain).extraHeaders).2

/-- The checksum headers of a `GET` in checksum mode. -/
def getChecksums (v : ObjectVersion) : Headers :=
  extractChecksumHeaders (v.get .checked).extraHeaders.toHeaders

/-- The checksum headers of a `HEAD` in checksum mode. -/
def headChecksums (v : ObjectVersion) : Headers :=
  extractChecksumHeaders (splitHeadRefreshHeaders (v.head .checked).extraHeaders).1

/-- The four answers about the version share what does not depend on the method and the mode,
and a plain `GET` is answered with no checksum header or with all of them. -/
structure Uniform (v : ObjectVersion) : Prop where
  get : ∀ options, (v.get options).shared = (v.get .plain).shared
  head : ∀ options, (v.head options).shared = (v.get .plain).shared
  etag : v.etag ≠ none
  headOnly : ∀ options, (splitHeadRefreshHeaders (v.head options).extraHeaders).2 = v.headOnly
  plainGet : extractChecksumHeaders (v.get .plain).extraHeaders.toHeaders = Headers.empty ∨
    extractChecksumHeaders (v.get .plain).extraHeaders.toHeaders = v.getChecksums

/-! ### Cached metadata of a version -/

/-- The cached metadata has been put together from answers about the version, and what its
flags say has been checked is complete. -/
structure Describes (v : ObjectVersion) (m : CacheMeta) : Prop where
  contentType : m.contentType = (v.get .plain).contentType
  contentLength : some m.contentLength = (v.get .plain).contentLength
  etag : m.etag = v.etag
  lastModified : m.lastModified = (v.get .plain).lastModified
  metadata : m.metadata = (v.get .plain).metadata
  extraHeaders : m.extraHeaders.withoutChecksums = (v.get .plain).shared.extraHeaders
  checksums : m.checksumModeChecked = true →
    extractChecksumHeaders m.extraHeaders = v.getChecksums
  headExtra : m.headMetadataChecked = true → m.headExtraHeaders = v.headOnly
  headChecksums : m.headChecksumChecked = true → m.headChecksumHeaders = v.headChecksums

variable {v w : ObjectVersion} {m c : CacheMeta} {key : CacheKey} {options : ReadOptions}

/-- What a leader hands to the cache describes the version it has fetched. -/
theorem Uniform.describes_fetched
    (h : v.Uniform) (hlen : (v.get options).contentLength ≠ none) (now : Time) :
  v.Describes (fetchedCacheMeta key (v.get options) options now)
  := by
  have hs := h.get options
  simp only [GetObjectMeta.shared, SharedFields.mk.injEq] at hs
  obtain ⟨hct, hcl, het, hlm, hmd, hex⟩ := hs
  refine ⟨hct, ?_, het, hlm, hmd, hex, ?_, ?_, ?_⟩
  · obtain ⟨n, hn⟩ := Option.ne_none_iff_exists'.mp hlen
    rw [← hcl, hn]
    simp [fetchedCacheMeta, hn]
  · intro hc
    obtain rfl | rfl := options.eq_plain_or_checked
    · -- A plain `GET` that has some checksum header has them all.
      have hany : (v.get .plain).extraHeaders.any (fun e => isChecksumResponseHeader e.1) = true :=
        hc
      obtain hempty | hall := h.plainGet
      · exact absurd hempty (HeaderEntries.extract_ne_empty hany)
      · exact hall
    · rfl
  · intro hc
    cases hc
  · intro hc
    cases hc

/-- Working in a `HEAD` of the version keeps metadata that describes it. -/
theorem Describes.merged
    (hd : v.Describes m) (h : v.Uniform) (options : ReadOptions) :
  v.Describes (mergedCacheMeta m (v.head options) options.wantsChecksumHeaders)
  := by
  have hs := h.head options
  simp only [GetObjectMeta.shared, HeadObjectOutput.shared, SharedFields.mk.injEq] at hs
  obtain ⟨hct, hcl, het, hlm, hmd, hex⟩ := hs
  refine ⟨?_, ?_, het, ?_, hmd, ?_, ?_, ?_, ?_⟩
  · simp [mergedCacheMeta, hct, hd.contentType]
  · simp [mergedCacheMeta, hcl, ← hd.contentLength]
  · simp [mergedCacheMeta, hlm, hd.lastModified]
  · simp only [mergedCacheMeta, Headers.withoutChecksums_extend,
      Headers.withoutChecksums_withoutChecksums, Headers.withoutChecksums_extract,
      Headers.extend_empty, GetObjectMeta.shared]
    exact hex
  · intro hc
    simp only [mergedCacheMeta, Headers.extract_extend, Headers.extract_withoutChecksums,
      Headers.extract_extract, Headers.empty_extend]
    exact hd.checksums hc
  · intro _
    exact h.headOnly options
  · obtain rfl | rfl := options.eq_plain_or_checked
    · intro hc
      have hc' : m.headChecksumChecked = true := by
        simpa [mergedCacheMeta, ReadOptions.wantsChecksumHeaders, ReadOptions.plain] using hc
      exact hd.headChecksums hc'
    · intro _
      rfl

theorem Describes.stamped
    (hd : v.Describes m) (id : FillId) :
  v.Describes (m.stamped id)
  := ⟨hd.contentType, hd.contentLength, hd.etag, hd.lastModified, hd.metadata, hd.extraHeaders,
    hd.checksums, hd.headExtra, hd.headChecksums⟩

theorem Describes.updatedFrom
    (hd : v.Describes m) (c : CacheMeta) :
  v.Describes (m.updatedFrom c)
  := ⟨hd.contentType, hd.contentLength, hd.etag, hd.lastModified, hd.metadata, hd.extraHeaders,
    hd.checksums, hd.headExtra, hd.headChecksums⟩

theorem Describes.touched
    (hd : v.Describes m) (now : Time) :
  v.Describes { m with lastAccessedAt := now }
  := ⟨hd.contentType, hd.contentLength, hd.etag, hd.lastModified, hd.metadata, hd.extraHeaders,
    hd.checksums, hd.headExtra, hd.headChecksums⟩

/-- Carrying over what `HEAD` responses have told keeps metadata that describes the version,
when the same entity tag means the same version. -/
theorem Describes.preserve
    (hd : v.Describes m) (hc : w.Describes c) (hsame : v.etag = w.etag → v = w) :
  v.Describes (m.preserveSameEtagHeadStateFrom c)
  := by
  rw [CacheMeta.preserveSameEtagHeadStateFrom]
  split
  next hs =>
    obtain rfl : v = w := hsame (hd.etag.symm.trans (hs.2.trans hc.etag))
    exact ⟨hd.contentType, hd.contentLength, hd.etag, hd.lastModified, hd.metadata,
      hd.extraHeaders, hd.checksums, hc.headExtra, hc.headChecksums⟩
  next => exact hd

/-! ### Responses made of cached metadata -/

variable {httpDate : Time → String} {requestId : String} {cacheStatus : CacheStatus}

/-- A `GET` response that is made of a cached entry has the headers of the one that is made
of the answer of the backend. -/
theorem Describes.buildCacheResponse
    (hd : v.Describes m) (h : v.Uniform) (hs : cacheEntrySatisfiesReadOptions m options = true)
    (body : List UInt8) (cacheStatus' : CacheStatus) :
  (TinyS3Proxy.buildCacheResponse httpDate m body requestId cacheStatus
      options.wantsChecksumHeaders).headers =
    (buildMetaResponse httpDate (v.get options) v.body requestId cacheStatus'
      options.wantsChecksumHeaders).headers
  := by
  have hsh := h.get options
  simp only [GetObjectMeta.shared, SharedFields.mk.injEq] at hsh
  obtain ⟨hct, hcl, het, hlm, hmd, hex⟩ := hsh
  have hmet : m.etag = (v.get options).etag := hd.etag.trans het.symm
  have hextra : (m.extraHeaders.filter fun name =>
      options.wantsChecksumHeaders || !isChecksumResponseHeader name) =
      (v.get options).extraHeaders.toHeaders.filter fun name =>
        options.wantsChecksumHeaders || !isChecksumResponseHeader name := by
    rw [Headers.filter_asked, Headers.filter_asked]
    obtain rfl | rfl := options.eq_plain_or_checked
    · exact hd.extraHeaders
    · apply Headers.eq_of_parts (hd.extraHeaders.trans hex.symm)
      apply hd.checksums
      simpa [cacheEntrySatisfiesReadOptions, ReadOptions.wantsChecksumHeaders,
        ReadOptions.checked] using hs
  simp only [TinyS3Proxy.buildCacheResponse, buildMetaResponse, getObjectHeaders,
    buildObjectHeadersCommon, hextra, hct, hcl, hlm, hmd, hd.contentType, hd.lastModified,
    hd.metadata, hmet, ← hd.contentLength, Option.map_some]

/-- A `HEAD` response that is made of cached metadata has the headers of the one that is made
of the answer of the backend. -/
theorem Describes.buildCachedHeadResponse
    (hd : v.Describes m) (h : v.Uniform) (hs : cacheEntrySatisfiesHeadRequest m options = true)
    (cacheStatus' : Option CacheStatus) :
  (TinyS3Proxy.buildCachedHeadResponse httpDate m requestId cacheStatus
      options.wantsChecksumHeaders).headers =
    (buildFreshHeadResponse httpDate (v.head options) requestId cacheStatus'
      options.wantsChecksumHeaders).headers
  := by
  have hsh := h.head options
  simp only [GetObjectMeta.shared, HeadObjectOutput.shared, SharedFields.mk.injEq] at hsh
  obtain ⟨hct, hcl, het, hlm, hmd, hex⟩ := hsh
  have hmet : m.etag = (v.head options).etag := hd.etag.trans het.symm
  have honly : m.headExtraHeaders = (splitHeadRefreshHeaders (v.head options).extraHeaders).2 := by
    rw [h.headOnly options]
    apply hd.headExtra
    simp only [cacheEntrySatisfiesHeadRequest] at hs
    split at hs
    next => exact (Bool.and_eq_true_iff.mp hs).1
    next => exact hs
  have hextra : (((m.extraHeaders.withoutChecksums.extend m.headExtraHeaders).extend
      (if options.wantsChecksumHeaders then m.headChecksumHeaders else Headers.empty)).filter
        fun name => options.wantsChecksumHeaders || !isChecksumResponseHeader name) =
      (v.head options).extraHeaders.filter fun name =>
        options.wantsChecksumHeaders || !isChecksumResponseHeader name := by
    rw [Headers.filter_asked, Headers.filter_asked, honly, hd.extraHeaders.trans hex.symm]
    obtain rfl | rfl := options.eq_plain_or_checked
    · -- Without checksum mode there are no checksum headers to be left out.
      change (((splitHeadRefreshHeaders (v.head .plain).extraHeaders).1.withoutChecksums.extend
        (splitHeadRefreshHeaders (v.head .plain).extraHeaders).2).extend
          Headers.empty).withoutChecksums = (v.head .plain).extraHeaders.withoutChecksums
      rw [Headers.extend_empty, splitHeadRefreshHeaders_withoutChecksums,
        Headers.withoutChecksums_withoutChecksums]
    · have hck : m.headChecksumHeaders =
          extractChecksumHeaders (splitHeadRefreshHeaders (v.head .checked).extraHeaders).1 := by
        apply hd.headChecksums
        exact (Bool.and_eq_true_iff.mp hs).2
      change (((splitHeadRefreshHeaders (v.head .checked).extraHeaders).1.withoutChecksums.extend
        (splitHeadRefreshHeaders (v.head .checked).extraHeaders).2).extend
          m.headChecksumHeaders) = (v.head .checked).extraHeaders
      rw [hck, splitHeadRefreshHeaders_extend]
  simp only [TinyS3Proxy.buildCachedHeadResponse, buildFreshHeadResponse, headObjectHeaders,
    buildObjectHeadersCommon, hextra, hct, hcl, hlm, hmd, hd.contentType, hd.lastModified,
    hd.metadata, hmet, hd.contentLength]

end ObjectVersion

end TinyS3Proxy
