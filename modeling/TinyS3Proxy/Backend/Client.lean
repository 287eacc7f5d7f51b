import TinyS3Proxy.S3.Checksum
import TinyS3Proxy.S3.Collected
import TinyS3Proxy.S3.CompleteMultipart

/-!
# Calls of the backend

What the typed operations of the backend are called with (`backend/models.rs`), and the headers that
the calls put on the requests to the backend (`backend/client.rs`). The headers that the client
library adds by itself are left out.
-/

namespace TinyS3Proxy

open Text (Bytes ascii)

/-! ### Inputs -/

/-- An object to store. -/
structure PutObjectInput where
  bucket : Bytes
  key : Bytes
  body : Bytes
  contentType : Option Bytes
  contentMd5 : Option Bytes
  metadata : StringMap
  extraAmzHeaders : StringMap
  contentHeaders : StringMap
deriving DecidableEq

/-- An object to store from a file. The path of the file is left out, and what it holds is here. -/
structure PutObjectSpoolInput where
  bucket : Bytes
  key : Bytes
  body : Bytes
  len : UInt64
  sha256Hex : Bytes
  contentType : Option Bytes
  contentMd5 : Option Bytes
  metadata : StringMap
  extraAmzHeaders : StringMap
  contentHeaders : StringMap
  checksum : Option ChecksumHeader
deriving DecidableEq

/-- An object to delete. -/
structure DeleteObjectInput where
  bucket : Bytes
  key : Bytes
deriving DecidableEq

/-- An upload in parts to start. -/
structure CreateMultipartUploadInput where
  bucket : Bytes
  key : Bytes
  contentType : Option Bytes
  metadata : StringMap
  contentHeaders : StringMap
deriving DecidableEq

/-- A part of an object to store. -/
structure UploadPartInput where
  bucket : Bytes
  key : Bytes
  uploadId : Bytes
  partNumber : ℤ
  body : Bytes
  contentMd5 : Option Bytes
deriving DecidableEq

/-- A part of an object to store from a file. -/
structure UploadPartSpoolInput where
  bucket : Bytes
  key : Bytes
  uploadId : Bytes
  partNumber : ℤ
  body : Bytes
  len : UInt64
  sha256Hex : Bytes
  contentMd5 : Option Bytes
  extraAmzHeaders : StringMap
  checksum : Option ChecksumHeader
deriving DecidableEq

/-- An upload in parts to complete. -/
structure CompleteMultipartInput where
  bucket : Bytes
  key : Bytes
  uploadId : Bytes
  parts : List CompletedPart
deriving DecidableEq

/-- An upload in parts to abort. -/
structure AbortMultipartUploadInput where
  bucket : Bytes
  key : Bytes
  uploadId : Bytes
deriving DecidableEq

/-! ### Headers -/

/-- The header for a value that may be missing. -/
def headerOf (name : Bytes) (value : Option Bytes) : StringMap :=
  value.toList.map fun v => (name, v)

/-- What the names of the headers for metadata start with. -/
def metadataName : Bytes := ascii "x-amz-meta-"

/-- The headers for metadata. -/
def metadataHeaders (metadata : StringMap) : StringMap :=
  metadata.map fun entry => (metadataName ++ entry.1, entry.2)

/-- The headers about the content for which the library has functions. -/
def standardContentHeaders (contentHeaders : StringMap) : StringMap :=
  [ascii "content-encoding", ascii "content-disposition", ascii "content-language",
    ascii "cache-control"].flatMap fun name => headerOf name (contentHeaders.get name)

/-- The header for the checksum of a body. -/
def checksumHeaders (checksum : Option ChecksumHeader) : StringMap :=
  checksum.toList.map fun c => (c.algorithm.headerName, c.value)

/-- Set a header, unless its name or its value is not well formed. -/
def insertRaw (headers : StringMap) (entry : Bytes × Bytes) : StringMap :=
  match HeaderName.fromStr entry.1 with
  | some name =>
      if entry.2.all isVisibleByte then StringMap.insert headers name.bytes entry.2 else headers
  | none => headers

/-- Set headers one after the other. -/
def insertAllRaw (headers extra : StringMap) : StringMap := extra.foldl insertRaw headers

/-- The headers for an object to store. -/
def PutObjectInput.headers (input : PutObjectInput) : StringMap :=
  insertAllRaw
    (insertAllRaw
      (headerOf (ascii "content-type") input.contentType ++
        headerOf (ascii "content-md5") input.contentMd5 ++ metadataHeaders input.metadata ++
        standardContentHeaders input.contentHeaders)
      input.extraAmzHeaders)
    (headerOf (ascii "expires") (input.contentHeaders.get (ascii "expires")))

/-- The headers for an object to store from a file. -/
def PutObjectSpoolInput.headers (input : PutObjectSpoolInput) : StringMap :=
  insertAllRaw
    (insertAllRaw
      (headerOf (ascii "content-type") input.contentType ++
        headerOf (ascii "content-md5") input.contentMd5 ++ metadataHeaders input.metadata ++
        standardContentHeaders input.contentHeaders ++
        checksumHeaders input.checksum)
      input.extraAmzHeaders)
    (headerOf (ascii "expires") (input.contentHeaders.get (ascii "expires")))

/-- The headers for an upload in parts to start. -/
def CreateMultipartUploadInput.headers (input : CreateMultipartUploadInput) : StringMap :=
  insertAllRaw
    (headerOf (ascii "content-type") input.contentType ++ metadataHeaders input.metadata ++
      standardContentHeaders input.contentHeaders)
    (headerOf (ascii "expires") (input.contentHeaders.get (ascii "expires")))

/-- The headers for a part of an object to store. -/
def UploadPartInput.headers (input : UploadPartInput) : StringMap :=
  headerOf (ascii "content-md5") input.contentMd5

/-- The headers for a part of an object to store from a file. -/
def UploadPartSpoolInput.headers (input : UploadPartSpoolInput) : StringMap :=
  insertAllRaw
    (headerOf (ascii "content-md5") input.contentMd5 ++
      checksumHeaders input.checksum)
    input.extraAmzHeaders

/-! ### Setting headers -/

/-- The entry is a well-formed header. -/
def IsHeader (e : Bytes × Bytes) : Prop :=
  (∃ name : HeaderName, name.bytes = e.1) ∧ e.2.all isVisibleByte = true

theorem insertRaw_of_isHeader
    {e : Bytes × Bytes} (h : IsHeader e) (headers : StringMap) :
  insertRaw headers e = StringMap.insert headers e.1 e.2
  := by
  obtain ⟨⟨name, hname⟩, hvalue⟩ := h
  rw [insertRaw, ← hname, name.fromStr_bytes]
  exact if_pos hvalue

/-- The headers that are set are those of the map, in the place of others of their names. -/
theorem mem_insertAllRaw
    {extra : StringMap} (hheaders : ∀ a ∈ extra, IsHeader a)
    (hunique : ∀ a ∈ extra, ∀ b ∈ extra, a.1 = b.1 → a.2 = b.2) (headers : StringMap)
    (e : Bytes × Bytes) :
  e ∈ insertAllRaw headers extra ↔ e ∈ extra ∨ e ∈ headers ∧ ∀ a ∈ extra, a.1 ≠ e.1
  := by
  induction extra generalizing headers with
  | nil => simp [insertAllRaw]
  | cons a extra ih =>
      have hrest := ih (fun b hb => hheaders b (List.mem_cons_of_mem _ hb))
        (fun b hb c hc => hunique b (List.mem_cons_of_mem _ hb) c (List.mem_cons_of_mem _ hc))
        (StringMap.insert headers a.1 a.2)
      rw [insertAllRaw, List.foldl_cons, insertRaw_of_isHeader (hheaders a List.mem_cons_self)]
      refine hrest.trans ?_
      rw [StringMap.mem_insert, List.mem_cons, List.forall_mem_cons]
      constructor
      · rintro (he | ⟨⟨he, hne⟩ | rfl, hall⟩)
        · exact .inl (.inr he)
        · exact .inr ⟨he, Ne.symm hne, hall⟩
        · exact .inl (.inl rfl)
      · rintro ((rfl | he) | ⟨he, hne, hall⟩)
        · by_cases hall : ∀ b ∈ extra, b.1 ≠ e.1
          · exact .inr ⟨.inr rfl, hall⟩
          · push Not at hall
            obtain ⟨b, hb, hname⟩ := hall
            have hvalue := hunique b (List.mem_cons_of_mem _ hb) e List.mem_cons_self hname
            obtain rfl : b = e := Prod.ext hname hvalue
            exact .inl hb
        · exact .inl he
        · exact .inr ⟨.inl ⟨he, Ne.symm hne⟩, hall⟩

/-- Headers of other names are not set. -/
theorem mem_insertAllRaw_of_ne
    {extra : StringMap} {e : Bytes × Bytes}
    (hne : ∀ a ∈ extra, ∀ name, HeaderName.fromStr a.1 = some name → name.bytes ≠ e.1)
    (headers : StringMap) :
  e ∈ insertAllRaw headers extra ↔ e ∈ headers
  := by
  induction extra generalizing headers with
  | nil => rfl
  | cons a extra ih =>
      rw [insertAllRaw, List.foldl_cons]
      apply (ih (fun b hb => hne b (List.mem_cons_of_mem _ hb)) (insertRaw headers a)).trans
      rw [insertRaw]
      split
      next name hname =>
        have hother := hne a List.mem_cons_self name hname
        split
        next =>
          rw [StringMap.mem_insert]
          constructor
          · rintro (⟨he, -⟩ | rfl)
            · exact he
            · exact absurd rfl hother
          · intro he
            exact .inl ⟨he, Ne.symm hother⟩
        next => rfl
      next => rfl

/-- What is collected for the backend are well-formed headers. -/
theorem isHeader_of_lastReadable
    {headers : HeaderMap} {name value : Bytes} (h : lastReadable headers name = some value) :
  IsHeader (name, value)
  := by
  obtain ⟨v, hv, hstr⟩ := exists_of_lastReadable h
  obtain ⟨header, hheader, -⟩ := List.mem_map.mp hv
  use ⟨header.1, of_decide_eq_true (List.mem_filter.mp hheader).2⟩
  rw [HeaderValue.toStr] at hstr
  split at hstr
  next hall =>
    rw [← Option.some.inj hstr]
    exact hall
  next => cases hstr

/-! ### Which headers are set -/

/-- The names of the headers about the content. -/
def contentNames : List Bytes :=
  [ascii "content-type", ascii "content-md5", ascii "content-encoding",
    ascii "content-disposition", ascii "content-language", ascii "cache-control", ascii "expires"]

theorem mem_headerOf
    {name : Bytes} {value : Option Bytes} {e : Bytes × Bytes} (h : e ∈ headerOf name value) :
  e.1 = name
  := by
  obtain ⟨v, -, rfl⟩ := List.mem_map.mp h
  rfl

theorem mem_standardContentHeaders
    {contentHeaders : StringMap} {e : Bytes × Bytes} (h : e ∈ standardContentHeaders contentHeaders) :
  e.1 ∈ contentNames
  := by
  obtain ⟨name, hname, he⟩ := List.mem_flatMap.mp h
  have hall : ∀ n ∈ [ascii "content-encoding", ascii "content-disposition",
      ascii "content-language", ascii "cache-control"], n ∈ contentNames := by decide
  rw [mem_headerOf he]
  exact hall name hname

theorem mem_metadataHeaders
    {metadata : StringMap} {e : Bytes × Bytes} :
  e ∈ metadataHeaders metadata ↔ ∃ name, (name, e.2) ∈ metadata ∧ e.1 = metadataName ++ name
  := by
  constructor
  · intro h
    obtain ⟨entry, hentry, rfl⟩ := List.mem_map.mp h
    exact ⟨entry.1, hentry, rfl⟩
  · rintro ⟨name, hname, he⟩
    exact List.mem_map.mpr ⟨(name, e.2), hname, Prod.ext he.symm rfl⟩

theorem mem_checksumHeaders
    {checksum : Option ChecksumHeader} {e : Bytes × Bytes} (h : e ∈ checksumHeaders checksum) :
  ∃ header ∈ checksum, e = (header.algorithm.headerName, header.value)
  := by
  obtain ⟨header, hheader, rfl⟩ := List.mem_map.mp h
  exact ⟨header, Option.mem_toList.mp hheader, rfl⟩

/-- Besides the headers about the content, those for metadata are set. -/
theorem mem_contentHeaders
    {contentType contentMd5 : Option Bytes} {metadata contentHeaders : StringMap}
    {e : Bytes × Bytes} (hname : e.1 ∉ contentNames) :
  e ∈ headerOf (ascii "content-type") contentType ++ headerOf (ascii "content-md5") contentMd5 ++
      metadataHeaders metadata ++ standardContentHeaders contentHeaders
    ↔ e ∈ metadataHeaders metadata
  := by
  have htype : ascii "content-type" ∈ contentNames := by decide
  have hmd5 : ascii "content-md5" ∈ contentNames := by decide
  simp only [List.mem_append]
  constructor
  · rintro (((h | h) | h) | h)
    · exact absurd (mem_headerOf h ▸ htype) hname
    · exact absurd (mem_headerOf h ▸ hmd5) hname
    · exact h
    · exact absurd (mem_standardContentHeaders h) hname
  · intro h
    exact .inl (.inr h)

/-- The header that is set last is another one. -/
theorem mem_insertAllRaw_expires
    {contentHeaders headers : StringMap} {e : Bytes × Bytes} (hname : e.1 ∉ contentNames) :
  e ∈ insertAllRaw headers
      (headerOf (ascii "expires") (contentHeaders.get (ascii "expires"))) ↔ e ∈ headers
  := by
  have hexpires : ∀ name, HeaderName.fromStr (ascii "expires") = some name →
      name.bytes ∈ contentNames := by
    intro name h
    have hsome : (HeaderName.fromStr (ascii "expires")).map HeaderName.bytes
        = some (ascii "expires") := by decide
    rw [h] at hsome
    rw [Option.some.inj hsome]
    decide
  apply mem_insertAllRaw_of_ne
  intro a ha name h heq
  rw [mem_headerOf ha] at h
  exact hname (heq ▸ hexpires name h)

end TinyS3Proxy
