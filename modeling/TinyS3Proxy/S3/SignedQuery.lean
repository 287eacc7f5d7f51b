import TinyS3Proxy.Auth.Query
import TinyS3Proxy.S3.Parse

/-!
# What the signature of a query fixes

The canonical query keeps how often each parameter occurs with which value, but not their order, and
of the values of a parameter the parser takes the last. So whoever reorders a signed query chooses
among the values of each parameter that occurs more than once. What a request asks for is fixed by
its signature if and only if the parameters that matter for it are read alike in all of their values.
-/

namespace TinyS3Proxy

open Text (Bytes ascii)

/-! ### Values of parameters -/

/-- A parameter as the parser reads it. -/
def lossyParameter (p : Bytes × Bytes) : Bytes × Bytes :=
  (Text.fromUtf8Lossy p.1, Text.fromUtf8Lossy p.2)

/-- The values of the parameters of a name, in order. -/
def valuesIn (pairs : List (Bytes × Bytes)) (name : Bytes) : List Bytes :=
  ((pairs.map lossyParameter).filter fun p => p.1 = name).map Prod.snd

/-- The values that a query has for the parameters of a name. -/
def parameterValues (query : Option Bytes) (name : Bytes) : List Bytes :=
  valuesIn (decodedPairs (query.getD [])) name

namespace StringMap

theorem get_append
    (map map' : StringMap) (name : Bytes) :
  get (map ++ map') name = (get map name).or (get map' name)
  := by
  rw [get, get, get, List.find?_append, Option.map_or]

theorem get_insert
    (map : StringMap) (name value name' : Bytes) :
  get (map.insert name value) name' = if name = name' then some value else get map name'
  := by
  rw [insert, get_append, get, get, List.find?_filter]
  split
  next h =>
    subst h
    have hnone : map.find? (fun entry => decide (decide (entry.1 ≠ name) = true ∧
        decide (entry.1 = name) = true)) = none := by
      rw [List.find?_eq_none]
      simp
    rw [hnone]
    simp
  next h =>
    have hsame : map.find? (fun entry => decide (decide (entry.1 ≠ name) = true ∧
        decide (entry.1 = name') = true)) = map.find? fun entry => entry.1 = name' := by
      congr 1
      funext entry
      simp only [decide_eq_true_eq, decide_eq_decide, and_iff_right_iff_imp]
      rintro rfl
      exact Ne.symm h
    rw [hsame, List.find?_singleton, if_neg (by simpa using h)]
    simp [get]

theorem containsKey_eq_isSome
    (map : StringMap) (name : Bytes) :
  containsKey map name = (get map name).isSome
  := by
  rw [containsKey, get, Option.isSome_map, Bool.eq_iff_iff, List.any_eq_true, List.find?_isSome]

end StringMap

theorem mem_valuesIn
    {pairs : List (Bytes × Bytes)} {name v : Bytes} :
  v ∈ valuesIn pairs name ↔ ∃ p ∈ pairs, lossyParameter p = (name, v)
  := by
  simp only [valuesIn, List.mem_map, List.mem_filter, decide_eq_true_eq]
  constructor
  · rintro ⟨-, ⟨⟨p, hp, rfl⟩, rfl⟩, rfl⟩
    exact ⟨p, hp, rfl⟩
  · rintro ⟨p, hp, heq⟩
    exact ⟨_, ⟨⟨p, hp, rfl⟩, congrArg Prod.fst heq⟩, congrArg Prod.snd heq⟩

theorem valuesIn_append
    (pairs pairs' : List (Bytes × Bytes)) (name : Bytes) :
  valuesIn (pairs ++ pairs') name = valuesIn pairs name ++ valuesIn pairs' name
  := by
  simp only [valuesIn, List.map_append, List.filter_append]

theorem valuesIn_cons
    (p : Bytes × Bytes) (pairs : List (Bytes × Bytes)) (name : Bytes) :
  valuesIn (p :: pairs) name = valuesIn [p] name ++ valuesIn pairs name
  := valuesIn_append [p] pairs name

theorem valuesIn_singleton
    (p : Bytes × Bytes) (name : Bytes) :
  valuesIn [p] name = if (lossyParameter p).1 = name then [(lossyParameter p).2] else []
  := by
  by_cases h : (lossyParameter p).1 = name
  · simp [valuesIn, h]
  · simp [valuesIn, h]

theorem valuesIn_perm
    {pairs pairs' : List (Bytes × Bytes)} (h : pairs.Perm pairs') (name : Bytes) :
  (valuesIn pairs name).Perm (valuesIn pairs' name)
  := ((h.map _).filter _).map _

/-- The value of a name in a map that is filled from a list is the last one of the list. -/
theorem get_foldl_insert
    (pairs : List (Bytes × Bytes)) (map : StringMap) (name : Bytes) :
  StringMap.get (pairs.foldl (fun map p =>
      StringMap.insert map (lossyParameter p).1 (lossyParameter p).2) map) name
    = (valuesIn pairs name).getLast?.or (StringMap.get map name)
  := by
  induction pairs using List.reverseRecOn with
  | nil => rfl
  | append_singleton pairs p ih =>
      rw [List.foldl_append, valuesIn_append, valuesIn_singleton]
      simp only [List.foldl_cons, List.foldl_nil]
      rw [StringMap.get_insert, ih]
      split
      next => simp
      next => simp

/-- Empty fields have no name. -/
theorem valuesIn_nonempty
    (chunks : List Bytes) {name : Bytes} (hname : name ≠ []) :
  valuesIn ((chunks.filter (· ≠ [])).map decodeParameter) name
    = valuesIn (chunks.map decodeParameter) name
  := by
  induction chunks with
  | nil => rfl
  | cons chunk chunks ih =>
      rw [List.map_cons, valuesIn_cons, ← ih]
      by_cases h : chunk = []
      · subst h
        have hnil : (lossyParameter (decodeParameter [])).1 = [] := by decide
        rw [List.filter_cons_of_neg (by simp), valuesIn_singleton, hnil, if_neg hname.symm,
          List.nil_append]
      · rw [List.filter_cons_of_pos (by simpa using h), List.map_cons, valuesIn_cons]

/-- What the parser has for a parameter is the last value of the query. -/
theorem get_parseQuery
    (query : Option Bytes) {name : Bytes} (hname : name ≠ []) :
  StringMap.get (parseQuery (query.getD [])) name = (parameterValues query name).getLast?
  := by
  rw [parameterValues]
  generalize query.getD [] = q
  rw [parseQuery]
  split
  next h =>
    subst h
    rfl
  next =>
    have hfold := get_foldl_insert ((q.splitOn amp).map decodeParameter) [] name
    rw [List.foldl_map] at hfold
    have hnone : StringMap.get [] name = none := rfl
    rw [hnone, Option.or_none] at hfold
    rw [decodedPairs, Text.nonemptyFields, valuesIn_nonempty _ hname]
    exact hfold

theorem containsKey_parseQuery
    (query : Option Bytes) {name : Bytes} (hname : name ≠ []) :
  StringMap.containsKey (parseQuery (query.getD [])) name = true
    ↔ parameterValues query name ≠ []
  := by
  rw [StringMap.containsKey_eq_isSome, get_parseQuery query hname, List.getLast?_isSome]

/-! ### Queries with the same signature -/

/-- The query with the given parameters, in order. -/
def queryOf (pairs : List (Bytes × Bytes)) : Bytes :=
  Text.joinFields amp (pairs.map (formatParameter ∘ encodeParameter))

theorem decodedPairs_queryOf
    (pairs : List (Bytes × Bytes)) :
  decodedPairs (queryOf pairs) = pairs
  := by
  have hsep : ∀ field ∈ pairs.map (formatParameter ∘ encodeParameter), amp ∉ field := by
    intro field hf
    obtain ⟨p, -, rfl⟩ := List.mem_map.mp hf
    exact amp_notMem_format p
  have hne : ∀ field ∈ pairs.map (formatParameter ∘ encodeParameter), decide (field ≠ []) = true := by
    intro field hf
    obtain ⟨p, -, rfl⟩ := List.mem_map.mp hf
    exact decide_eq_true (formatParameter_ne_nil _)
  have hid : decodeParameter ∘ formatParameter ∘ encodeParameter = id :=
    funext decodeParameter_format
  rw [decodedPairs, queryOf, Text.nonemptyFields_joinFields hsep, List.filter_eq_self.mpr hne,
    List.map_map, hid, List.map_id]

/-- One signature covers both queries. -/
def SignedAlike (mode : CanonicalQueryMode) (query query' : Option Bytes) : Prop :=
  canonicalQuery (query'.getD []) mode = canonicalQuery (query.getD []) mode

/-- The name is not that of the parameter that a signature does not cover. -/
def IsCovered (name : Bytes) : Prop := name ≠ [] ∧ name ≠ ascii "X-Amz-Signature"

theorem valuesIn_keptPairs
    (q : Bytes) (mode : CanonicalQueryMode) {name : Bytes} (hname : IsCovered name) :
  valuesIn (keptPairs q mode) name = valuesIn (decodedPairs q) name
  := by
  rw [keptPairs]
  induction decodedPairs q with
  | nil => rfl
  | cons p pairs ih =>
      rw [valuesIn_cons, ← ih]
      by_cases h : mode.keeps p = true
      · rw [List.filter_cons_of_pos h, valuesIn_cons]
      · have hsignature : (lossyParameter p).1 = ascii "X-Amz-Signature" := by
          have hp : p.1 = ascii "X-Amz-Signature" := by
            simp only [CanonicalQueryMode.keeps, Bool.not_eq_true', Bool.not_eq_false,
              Bool.and_eq_true, decide_eq_true_eq] at h
            exact h.2
          have hvalid : Text.fromUtf8Lossy (ascii "X-Amz-Signature") = ascii "X-Amz-Signature" := by
            decide
          rw [lossyParameter, hp, hvalid]
        rw [List.filter_cons_of_neg h, valuesIn_singleton, hsignature, if_neg hname.2.symm,
          List.nil_append]

/-- Queries that are signed alike have the same values, in another order. -/
theorem SignedAlike.values_perm
    {mode : CanonicalQueryMode} {query query' : Option Bytes} (h : SignedAlike mode query query')
    {name : Bytes} (hname : IsCovered name) :
  (parameterValues query' name).Perm (parameterValues query name)
  := by
  have hperm := valuesIn_perm (canonicalQuery_eq_iff.mp h) name
  rwa [valuesIn_keptPairs _ _ hname, valuesIn_keptPairs _ _ hname] at hperm

/-- Each value of a parameter is the last in a query that is signed alike, and has the same values
of all other parameters in the same order. -/
theorem exists_last
    {mode : CanonicalQueryMode} {query : Option Bytes} {name v : Bytes}
    (hv : v ∈ parameterValues query name) :
  ∃ query', SignedAlike mode query query' ∧ (parameterValues query' name).getLast? = some v ∧
    ∀ name', name' ≠ name → parameterValues query' name' = parameterValues query name'
  := by
  obtain ⟨p, hp, hlossy⟩ := mem_valuesIn.mp hv
  obtain ⟨before, after, hsplit⟩ := List.append_of_mem hp
  have hpairs := decodedPairs_queryOf (before ++ after ++ [p])
  refine ⟨some (queryOf (before ++ after ++ [p])), ?_, ?_, ?_⟩
  · apply canonicalQuery_eq_iff.mpr
    apply List.Perm.filter
    rw [Option.getD_some, hpairs, hsplit, List.append_assoc]
    exact List.perm_append_comm.append_left before
  · rw [parameterValues, Option.getD_some, hpairs, valuesIn_append, valuesIn_singleton, hlossy,
      if_pos rfl, List.getLast?_append]
    rfl
  · intro name' hne
    have hnil : valuesIn [p] name' = [] := by rw [valuesIn_singleton, hlossy, if_neg hne.symm]
    rw [parameterValues, Option.getD_some, hpairs, parameterValues, hsplit, valuesIn_append,
      valuesIn_append, valuesIn_append, valuesIn_cons p after, hnil, List.append_nil,
      List.nil_append]

theorem SignedAlike.trans
    {mode : CanonicalQueryMode} {query query' query'' : Option Bytes}
    (h : SignedAlike mode query query') (h' : SignedAlike mode query' query'') :
  SignedAlike mode query query''
  := Eq.trans h' h

/-! ### Requests that differ in their query -/

/-- The same request with another query. -/
def Parts.withQuery (parts : Parts) (query : Option Bytes) : Parts := { parts with query }

/-- The parameters of the query of a request. -/
def Parts.parameters (parts : Parts) : StringMap := parseQuery (parts.query.getD [])

/-- The key that the path of a request stands for. -/
def Parts.decodedKey (parts : Parts) : Bytes := percentDecodeLossy (splitPath parts.path).2

instance (name : Bytes) : Decidable (IsCovered name) := inferInstanceAs (Decidable (_ ∧ _))

/-- All values of a parameter are read alike. -/
def ReadAlike {α : Type} (read : Bytes → α) (query : Option Bytes) (name : Bytes) : Prop :=
  ∀ v ∈ parameterValues query name, ∀ v' ∈ parameterValues query name, read v = read v'

/-- The number of a part, as it is read. -/
def readPartNumber (v : Bytes) : ℤ := (Text.fromStrSigned 32 v).getD 0

/-- The request is to store a part of an object. -/
structure AsksForPart (parts : Parts) : Prop where
  method : parts.method = ascii "PUT"
  bucket : (splitPath parts.path).1 ≠ []
  key : parts.decodedKey ≠ []
  plain : isSubresource parts.parameters = false
  partNumber : parts.parameters.containsKey (ascii "partNumber") = true
  uploadId : parts.parameters.containsKey (ascii "uploadId") = true
  uploads : parts.parameters.containsKey (ascii "uploads") = false
  copy : isCopy parts.headers = false

/-- The request is to complete or to abort an upload. -/
structure AsksForUpload (parts : Parts) : Prop where
  method : parts.method = ascii "POST" ∨ parts.method = ascii "DELETE"
  bucket : (splitPath parts.path).1 ≠ []
  key : parts.decodedKey ≠ []
  plain : isSubresource parts.parameters = false
  partNumber : parts.parameters.containsKey (ascii "partNumber") = false
  uploadId : parts.parameters.containsKey (ascii "uploadId") = true
  uploads : parts.parameters.containsKey (ascii "uploads") = false

/-- The request is to list objects. -/
structure AsksForListing (parts : Parts) : Prop where
  method : parts.method = ascii "GET"
  bucket : (splitPath parts.path).1 ≠ []
  key : parts.decodedKey = []
  plain : isSubresource parts.parameters = false
  uploads : parts.parameters.containsKey (ascii "uploads") = false

/-- The parameters of a listing that are checked, and what is accepted for them. -/
def listingChecks : List (Bytes × (Bytes → Bool)) :=
  [(ascii "list-type", fun v => v = ascii "2"),
    (ascii "max-keys", fun v => (Text.fromStrSigned 32 v).isSome),
    (ascii "encoding-type", fun v => v = ascii "url")]

/-- The parameters of a listing that are taken as they are. -/
def listingNames : List Bytes :=
  [ascii "list-type", ascii "encoding-type", ascii "prefix", ascii "delimiter",
    ascii "continuation-token", ascii "marker", ascii "start-after"]

/-- What is done for a listing does not depend on the order of its parameters: it has one of which
no value is accepted, or the values of each are read alike. -/
def ListingDecided (query : Option Bytes) : Prop :=
  (∃ check ∈ listingChecks, parameterValues query check.1 ≠ [] ∧
      ∀ v ∈ parameterValues query check.1, check.2 v = false) ∨
    (∀ name ∈ listingNames, ReadAlike id query name) ∧
      ReadAlike (Text.fromStrSigned 32) query (ascii "max-keys")

/-- The parameters that matter for what a request asks for are read alike in all their values. -/
structure OperationDecided (parts : Parts) : Prop where
  part : AsksForPart parts → ReadAlike id parts.query (ascii "uploadId") ∧
    ReadAlike readPartNumber parts.query (ascii "partNumber")
  upload : AsksForUpload parts → ReadAlike id parts.query (ascii "uploadId")
  listing : AsksForListing parts → ListingDecided parts.query

/-! ### Presence -/

section

variable {mode : CanonicalQueryMode} {parts : Parts} {query : Option Bytes}

theorem SignedAlike.containsKey_eq
    (h : SignedAlike mode parts.query query) {name : Bytes} (hname : IsCovered name) :
  (parts.withQuery query).parameters.containsKey name = parts.parameters.containsKey name
  := by
  rw [Bool.eq_iff_iff, Parts.parameters, Parts.parameters, containsKey_parseQuery _ hname.1,
    containsKey_parseQuery _ hname.1]
  rw [← List.length_pos_iff, ← List.length_pos_iff]
  exact iff_of_eq (congrArg (0 < ·) (h.values_perm hname).length_eq)

theorem SignedAlike.isSubresource_eq
    (h : SignedAlike mode parts.query query) :
  isSubresource (parts.withQuery query).parameters = isSubresource parts.parameters
  := by
  have hcovered : ∀ name ∈ s3SubresourceParams, IsCovered name := by decide
  rw [isSubresource, isSubresource, Bool.eq_iff_iff, List.any_eq_true, List.any_eq_true]
  apply exists_congr
  intro name
  apply and_congr_right
  intro hmem
  rw [h.containsKey_eq (hcovered name hmem)]

/-- The parameters that control uploads are present in both queries or in none. -/
theorem SignedAlike.multipart_eq
    (h : SignedAlike mode parts.query query) :
  (parts.withQuery query).parameters.containsKey (ascii "partNumber")
      = parts.parameters.containsKey (ascii "partNumber") ∧
    (parts.withQuery query).parameters.containsKey (ascii "uploadId")
      = parts.parameters.containsKey (ascii "uploadId") ∧
    (parts.withQuery query).parameters.containsKey (ascii "uploads")
      = parts.parameters.containsKey (ascii "uploads")
  := ⟨h.containsKey_eq (by decide), h.containsKey_eq (by decide), h.containsKey_eq (by decide)⟩

theorem SignedAlike.asksForPart_iff
    (h : SignedAlike mode parts.query query) :
  AsksForPart (parts.withQuery query) ↔ AsksForPart parts
  := by
  obtain ⟨hpart, hid, huploads⟩ := h.multipart_eq
  constructor
  · intro hasks
    exact {
      hasks with
      plain := h.isSubresource_eq ▸ hasks.plain
      partNumber := hpart ▸ hasks.partNumber
      uploadId := hid ▸ hasks.uploadId
      uploads := huploads ▸ hasks.uploads }
  · intro hasks
    exact {
      hasks with
      plain := h.isSubresource_eq.trans hasks.plain
      partNumber := hpart.trans hasks.partNumber
      uploadId := hid.trans hasks.uploadId
      uploads := huploads.trans hasks.uploads }

theorem SignedAlike.asksForUpload_iff
    (h : SignedAlike mode parts.query query) :
  AsksForUpload (parts.withQuery query) ↔ AsksForUpload parts
  := by
  obtain ⟨hpart, hid, huploads⟩ := h.multipart_eq
  constructor
  · intro hasks
    exact {
      hasks with
      plain := h.isSubresource_eq ▸ hasks.plain
      partNumber := hpart ▸ hasks.partNumber
      uploadId := hid ▸ hasks.uploadId
      uploads := huploads ▸ hasks.uploads }
  · intro hasks
    exact {
      hasks with
      plain := h.isSubresource_eq.trans hasks.plain
      partNumber := hpart.trans hasks.partNumber
      uploadId := hid.trans hasks.uploadId
      uploads := huploads.trans hasks.uploads }

theorem SignedAlike.asksForListing_iff
    (h : SignedAlike mode parts.query query) :
  AsksForListing (parts.withQuery query) ↔ AsksForListing parts
  := by
  obtain ⟨-, -, huploads⟩ := h.multipart_eq
  constructor
  · intro hasks
    exact {
      hasks with
      plain := h.isSubresource_eq ▸ hasks.plain
      uploads := huploads ▸ hasks.uploads }
  · intro hasks
    exact {
      hasks with
      plain := h.isSubresource_eq.trans hasks.plain
      uploads := huploads.trans hasks.uploads }

end

/-! ### Operations -/

section

variable {parts : Parts}

theorem parseOperation_eq
    (parts : Parts) :
  parseOperation parts =
    if (splitPath parts.path).1 = [] then .unsupported parts.method parts.path
    else if parts.decodedKey ≠ [] then
      objectOperation parts parts.parameters (splitPath parts.path).1 parts.decodedKey
    else bucketOperation parts parts.parameters (splitPath parts.path).1
  := rfl

theorem parseOperation_of_part
    (h : AsksForPart parts) :
  parseOperation parts = .uploadPart (splitPath parts.path).1 parts.decodedKey
    (((parts.parameters.get (ascii "partNumber")).map readPartNumber).getD 0)
    ((parts.parameters.get (ascii "uploadId")).getD [])
  := by
  have hmultipart : hasMultipartParams parts.parameters = true := by
    rw [hasMultipartParams, h.uploadId, Bool.or_true, Bool.true_or]
  rw [parseOperation_eq, if_neg h.bucket, if_pos h.key, objectOperation,
    if_neg (Bool.eq_false_iff.mp h.plain), if_pos hmultipart, multipartOperation]
  rw [if_pos ⟨h.method, h.partNumber, h.uploadId, by rw [h.uploads]; rfl⟩,
    if_neg (Bool.eq_false_iff.mp h.copy)]
  rcases parts.parameters.get (ascii "partNumber") with _ | v
  · rfl
  · rfl

theorem parseOperation_of_upload
    (h : AsksForUpload parts) :
  parseOperation parts =
    if parts.method = ascii "POST" then
      .completeMultipartUpload (splitPath parts.path).1 parts.decodedKey
        ((parts.parameters.get (ascii "uploadId")).getD [])
    else
      .abortMultipartUpload (splitPath parts.path).1 parts.decodedKey
        ((parts.parameters.get (ascii "uploadId")).getD [])
  := by
  have hmultipart : hasMultipartParams parts.parameters = true := by
    rw [hasMultipartParams, h.uploadId, Bool.or_true, Bool.true_or]
  rw [parseOperation_eq, if_neg h.bucket, if_pos h.key, objectOperation,
    if_neg (Bool.eq_false_iff.mp h.plain), if_pos hmultipart, multipartOperation]
  have hput : parts.method ≠ ascii "PUT" := by
    rcases h.method with hmethod | hmethod
    all_goals
      rw [hmethod]
      decide
  have huploads := Bool.eq_false_iff.mp h.uploads
  have hpart := Bool.eq_false_iff.mp h.partNumber
  rw [if_neg fun hc => hput hc.1, if_neg fun hc => huploads hc.2.1]
  rcases h.method with hmethod | hmethod
  · rw [if_pos ⟨hmethod, h.uploadId, by simpa using huploads, by simpa using hpart⟩, if_pos hmethod]
  · have hpost : parts.method ≠ ascii "POST" := by
      rw [hmethod]
      decide
    rw [if_neg fun hc => hpost hc.1, if_neg hpost,
      if_pos ⟨hmethod, h.uploadId, by simpa using huploads, by simpa using hpart⟩]

/-- The parameters of a listing are accepted. -/
def listingAccepted (query : StringMap) : Bool :=
  listingChecks.all fun check => (query.get check.1).all check.2

theorem parseOperation_of_listing
    (h : AsksForListing parts) :
  parseOperation parts =
    if listingAccepted parts.parameters = true then
      if parts.parameters.get (ascii "list-type") = some (ascii "2") then
        .listObjectsV2 (splitPath parts.path).1 (listParamsOf parts.parameters)
      else .listObjectsV1 (splitPath parts.path).1 (listParamsOf parts.parameters)
    else .unsupported parts.method parts.path
  := by
  have hplain : (isSubresource parts.parameters || parts.parameters.containsKey (ascii "uploads"))
      = false := by rw [h.plain, h.uploads]; rfl
  have hrejected : ∀ listType maxKeys encodingType : Option Bytes,
      ((listType.any fun v => decide (v ≠ ascii "2")) ||
          (maxKeys.any fun v => (Text.fromStrSigned 32 v).isNone) ||
          encodingType.any fun v => decide (v ≠ ascii "url"))
        = !((listType.all fun v => decide (v = ascii "2")) &&
          ((maxKeys.all fun v => (Text.fromStrSigned 32 v).isSome) &&
            ((encodingType.all fun v => decide (v = ascii "url")) && true))) := by
    intro listType maxKeys encodingType
    cases listType
    all_goals cases maxKeys
    all_goals cases encodingType
    all_goals simp [Option.any, Option.all, Bool.or_assoc]
  have haccepted : listingAccepted parts.parameters
      = ((parts.parameters.get (ascii "list-type")).all (fun v => decide (v = ascii "2")) &&
        ((parts.parameters.get (ascii "max-keys")).all (fun v => (Text.fromStrSigned 32 v).isSome) &&
          ((parts.parameters.get (ascii "encoding-type")).all (fun v => decide (v = ascii "url")) &&
            true))) := rfl
  rw [parseOperation_eq, if_neg h.bucket, if_neg (not_not.mpr h.key), bucketOperation,
    if_pos h.method, if_neg (Bool.eq_false_iff.mp hplain)]
  simp only [hrejected, ← haccepted]
  by_cases hok : listingAccepted parts.parameters = true
  · rw [hok]
    rfl
  · rw [Bool.eq_false_iff.mpr hok]
    rfl

/-- The other requests with parameters for uploads are to start an upload, or not supported. -/
theorem multipartOperation_other
    (hbucket : (splitPath parts.path).1 ≠ []) (hkey : parts.decodedKey ≠ [])
    (hplain : isSubresource parts.parameters = false) (hpart : ¬AsksForPart parts)
    (hupload : ¬AsksForUpload parts) (bucket key : Bytes) :
  multipartOperation parts parts.parameters bucket key =
    if parts.method = ascii "POST" ∧ parts.parameters.containsKey (ascii "uploads") = true ∧
        (!parts.parameters.containsKey (ascii "uploadId")) = true ∧
        (!parts.parameters.containsKey (ascii "partNumber")) = true then
      .createMultipartUpload bucket key
    else .unsupported parts.method parts.path
  := by
  rw [multipartOperation]
  by_cases hput : parts.method = ascii "PUT" ∧
      parts.parameters.containsKey (ascii "partNumber") = true ∧
      parts.parameters.containsKey (ascii "uploadId") = true ∧
      (!parts.parameters.containsKey (ascii "uploads")) = true
  · have hpost : parts.method ≠ ascii "POST" := by
      rw [hput.1]
      decide
    have hcopy : isCopy parts.headers = true := by
      by_contra hcopy
      obtain ⟨hmethod, hnumber, hid, huploads⟩ := hput
      exact hpart ⟨hmethod, hbucket, hkey, hplain, hnumber, hid, by simpa using huploads,
        Bool.eq_false_iff.mpr hcopy⟩
    rw [if_pos hput, if_pos hcopy, if_neg fun hc => hpost hc.1]
  · have hcontrol : ∀ method, method = ascii "POST" ∨ method = ascii "DELETE" →
        ¬(parts.method = method ∧ parts.parameters.containsKey (ascii "uploadId") = true ∧
          (!parts.parameters.containsKey (ascii "uploads")) = true ∧
          (!parts.parameters.containsKey (ascii "partNumber")) = true) := by
      rintro method hmethod ⟨rfl, hid, huploads, hnumber⟩
      exact hupload ⟨hmethod, hbucket, hkey, hplain, by simpa using hnumber, hid,
        by simpa using huploads⟩
    rw [if_neg hput, if_neg (hcontrol _ (.inl rfl)), if_neg (hcontrol _ (.inr rfl))]

/-- Which other operation a request asks for is fixed by the parameters that it has. -/
theorem parseOperation_withQuery_of_not
    {mode : CanonicalQueryMode} {query : Option Bytes} (h : SignedAlike mode parts.query query)
    (hpart : ¬AsksForPart parts) (hupload : ¬AsksForUpload parts) (hlisting : ¬AsksForListing parts) :
  parseOperation (parts.withQuery query) = parseOperation parts
  := by
  obtain ⟨hnumber, hid, huploads⟩ := h.multipart_eq
  rw [parseOperation_eq, parseOperation_eq]
  change (if (splitPath parts.path).1 = [] then _ else if parts.decodedKey ≠ [] then
    objectOperation (parts.withQuery query) _ (splitPath parts.path).1 parts.decodedKey
      else bucketOperation (parts.withQuery query) _ (splitPath parts.path).1) = _
  by_cases hbucket : (splitPath parts.path).1 = []
  · rw [if_pos hbucket, if_pos hbucket]
    rfl
  · rw [if_neg hbucket, if_neg hbucket]
    by_cases hkey : parts.decodedKey = []
    · rw [if_neg (not_not.mpr hkey), if_neg (not_not.mpr hkey), bucketOperation, bucketOperation,
        h.isSubresource_eq, huploads]
      change (if parts.method = ascii "GET" then _ else _) = _
      by_cases hget : parts.method = ascii "GET"
      · have hother : (isSubresource parts.parameters ||
            parts.parameters.containsKey (ascii "uploads")) = true := by
          by_contra hplain
          rw [Bool.not_eq_true, Bool.or_eq_false_iff] at hplain
          exact hlisting ⟨hget, hbucket, hkey, hplain.1, hplain.2⟩
        rw [if_pos hget, if_pos hget, if_pos hother, if_pos hother]
        rfl
      · rw [if_neg hget, if_neg hget]
        rfl
    · rw [if_pos hkey, if_pos hkey, objectOperation, objectOperation, h.isSubresource_eq,
        hasMultipartParams, hasMultipartParams, hnumber, hid, huploads]
      by_cases hplain : isSubresource parts.parameters = true
      · rw [if_pos hplain, if_pos hplain]
        rfl
      · have hplain' := Bool.eq_false_iff.mpr hplain
        have hother := @multipartOperation_other (parts.withQuery query) hbucket hkey
          (h.isSubresource_eq.trans hplain') (h.asksForPart_iff.not.mpr hpart)
          (h.asksForUpload_iff.not.mpr hupload) (splitPath parts.path).1 parts.decodedKey
        rw [hnumber, hid, huploads] at hother
        rw [if_neg hplain, if_neg hplain, hother,
          multipartOperation_other hbucket hkey hplain' hpart hupload]
        rfl

/-! ### What is fixed -/

variable {mode : CanonicalQueryMode} {query : Option Bytes}

/-- The last value of a parameter is read as that of a query that is signed alike. -/
theorem ReadAlike.map_get_eq
    {α : Type} {read : Bytes → α} {name : Bytes} (h : ReadAlike read parts.query name)
    (halike : SignedAlike mode parts.query query) (hname : IsCovered name) :
  ((parts.withQuery query).parameters.get name).map read = (parts.parameters.get name).map read
  := by
  have hperm := halike.values_perm hname
  change (StringMap.get (parseQuery (query.getD [])) name).map read = _
  rw [Parts.parameters, get_parseQuery _ hname.1, get_parseQuery _ hname.1]
  rcases hlast : (parameterValues query name).getLast? with _ | v
  · rw [List.getLast?_eq_none_iff] at hlast
    rw [hlast] at hperm
    rw [hperm.symm.eq_nil]
    rfl
  · have hv := hperm.mem_iff.mp (List.mem_of_getLast? hlast)
    rcases hlast' : (parameterValues parts.query name).getLast? with _ | v'
    · rw [List.getLast?_eq_none_iff.mp hlast'] at hv
      cases hv
    · rw [Option.map_some, Option.map_some, h v hv v' (List.mem_of_getLast? hlast')]

/-- Any two values of a parameter may be the last. -/
theorem readAlike_of_get
    {α : Type} {read : Bytes → α} {name : Bytes} (hname : IsCovered name)
    (h : ∀ query query', SignedAlike mode parts.query query → SignedAlike mode parts.query query' →
      ∀ v v', (parts.withQuery query).parameters.get name = some v →
        (parts.withQuery query').parameters.get name = some v' → read v = read v') :
  ReadAlike read parts.query name
  := by
  intro v hv v' hv'
  obtain ⟨query, halike, hlast, -⟩ := exists_last hv
  obtain ⟨query', halike', hlast', -⟩ := exists_last hv'
  apply h query query' halike halike' v v'
  · exact (get_parseQuery query hname.1).trans hlast
  · exact (get_parseQuery query' hname.1).trans hlast'

/-- All values of a parameter that is read as it is are the same. -/
theorem ReadAlike.get_eq
    {name : Bytes} (h : ReadAlike id parts.query name) (halike : SignedAlike mode parts.query query)
    (hname : IsCovered name) :
  (parts.withQuery query).parameters.get name = parts.parameters.get name
  := by
  have hmap := h.map_get_eq halike hname
  rwa [Option.map_id_apply, Option.map_id_apply] at hmap

theorem isCovered_of_mem
    {check : Bytes × (Bytes → Bool)} (h : check ∈ listingChecks) :
  IsCovered check.1
  := by
  have hcovered : ∀ name ∈ listingChecks.map Prod.fst, IsCovered name := by decide
  exact hcovered _ (List.mem_map_of_mem h)

/-- A parameter of which no value is accepted is not accepted, whichever value is the last. -/
theorem listingAccepted_eq_false
    {check : Bytes × (Bytes → Bool)} (hmem : check ∈ listingChecks)
    (hne : parameterValues parts.query check.1 ≠ [])
    (hall : ∀ v ∈ parameterValues parts.query check.1, check.2 v = false)
    (halike : SignedAlike mode parts.query query) :
  listingAccepted (parts.withQuery query).parameters = false
  := by
  have hcovered := isCovered_of_mem hmem
  have hperm := halike.values_perm hcovered
  have hget : (parts.withQuery query).parameters.get check.1
      = (parameterValues query check.1).getLast? := get_parseQuery query hcovered.1
  obtain ⟨v, hlast⟩ : ∃ v, (parameterValues query check.1).getLast? = some v := by
    rw [← Option.isSome_iff_exists, List.getLast?_isSome]
    exact fun hnil => hne (hnil ▸ hperm).symm.eq_nil
  apply List.all_eq_false.mpr
  use check, hmem
  rw [hget, hlast, Option.all_some, hall v (hperm.mem_iff.mp (List.mem_of_getLast? hlast))]
  exact Bool.false_ne_true

/-- The parameters of a listing are the same in all queries that are signed alike. -/
theorem listing_eq_of_readAlike
    (hnames : ∀ name ∈ listingNames, ReadAlike id parts.query name)
    (hkeys : ReadAlike (Text.fromStrSigned 32) parts.query (ascii "max-keys"))
    (halike : SignedAlike mode parts.query query) :
  listingAccepted (parts.withQuery query).parameters = listingAccepted parts.parameters ∧
    (parts.withQuery query).parameters.get (ascii "list-type")
      = parts.parameters.get (ascii "list-type") ∧
    listParamsOf (parts.withQuery query).parameters = listParamsOf parts.parameters
  := by
  have hcovered : ∀ name ∈ listingNames, IsCovered name := by decide
  have hget : ∀ name ∈ listingNames,
      (parts.withQuery query).parameters.get name = parts.parameters.get name :=
    fun name hmem => (hnames name hmem).get_eq halike (hcovered name hmem)
  have hnumber := hkeys.map_get_eq halike (by decide)
  have hbind : ∀ map : StringMap, (map.get (ascii "max-keys")).bind (Text.fromStrSigned 32)
      = ((map.get (ascii "max-keys")).map (Text.fromStrSigned 32)).join :=
    fun map => by cases map.get (ascii "max-keys") <;> rfl
  have hall : ∀ map : StringMap,
      (map.get (ascii "max-keys")).all (fun v => (Text.fromStrSigned 32 v).isSome)
        = ((map.get (ascii "max-keys")).map (Text.fromStrSigned 32)).all Option.isSome :=
    fun map => by cases map.get (ascii "max-keys") <;> rfl
  refine ⟨?_, hget _ (by decide), ?_⟩
  · simp only [listingAccepted, listingChecks, List.all_cons, List.all_nil]
    rw [hget _ (by decide), hget (ascii "encoding-type") (by decide), hall, hall, hnumber]
  · rw [listParamsOf, listParamsOf, hget _ (by decide), hget (ascii "delimiter") (by decide),
      hget (ascii "continuation-token") (by decide), hget (ascii "marker") (by decide),
      hget (ascii "start-after") (by decide), hget (ascii "encoding-type") (by decide), hbind,
      hnumber, ← hbind]

/-- What a request asks for is fixed if the parameters that matter are read alike. -/
theorem OperationDecided.parseOperation_eq
    (h : OperationDecided parts) (halike : SignedAlike mode parts.query query) :
  parseOperation (parts.withQuery query) = parseOperation parts
  := by
  by_cases hpart : AsksForPart parts
  · obtain ⟨hid, hnumber⟩ := h.part hpart
    rw [parseOperation_of_part hpart, parseOperation_of_part (halike.asksForPart_iff.mpr hpart),
      hnumber.map_get_eq halike (by decide), hid.get_eq halike (by decide)]
    rfl
  by_cases hupload : AsksForUpload parts
  · rw [parseOperation_of_upload hupload,
      parseOperation_of_upload (halike.asksForUpload_iff.mpr hupload),
      (h.upload hupload).get_eq halike (by decide)]
    rfl
  by_cases hlisting : AsksForListing parts
  · rw [parseOperation_of_listing hlisting,
      parseOperation_of_listing (halike.asksForListing_iff.mpr hlisting)]
    rcases h.listing hlisting with ⟨check, hmem, hne, hall⟩ | ⟨hnames, hkeys⟩
    · have hrejected : listingAccepted parts.parameters = false :=
        @listingAccepted_eq_false parts mode parts.query check hmem hne hall rfl
      rw [listingAccepted_eq_false hmem hne hall halike, hrejected]
      rfl
    · obtain ⟨haccepted, htype, hparams⟩ := listing_eq_of_readAlike hnames hkeys halike
      rw [haccepted, htype, hparams]
      rfl
  · exact parseOperation_withQuery_of_not halike hpart hupload hlisting

/-! ### What is not fixed -/

/-- If each of some parameters has a value that is accepted, they all are in one query. -/
theorem exists_accepted
    (checks : List (Bytes × (Bytes → Bool))) (hnodup : (checks.map Prod.fst).Nodup)
    (hcovered : ∀ check ∈ checks, IsCovered check.1)
    (h : ∀ check ∈ checks, parameterValues parts.query check.1 ≠ [] →
      ∃ v ∈ parameterValues parts.query check.1, check.2 v = true) :
  ∃ query, SignedAlike mode parts.query query ∧
    (checks.all fun check => ((parts.withQuery query).parameters.get check.1).all check.2) = true
  := by
  induction checks with
  | nil => exact ⟨parts.query, rfl, rfl⟩
  | cons check checks ih =>
      obtain ⟨hnotMem, hnodup⟩ := List.nodup_cons.mp hnodup
      obtain ⟨hhead, htail⟩ := List.forall_mem_cons.mp h
      obtain ⟨hname, hcovered⟩ := List.forall_mem_cons.mp hcovered
      obtain ⟨query, halike, hall⟩ := ih hnodup hcovered htail
      have hperm := halike.values_perm hname
      by_cases hnil : parameterValues parts.query check.1 = []
      · use query, halike
        have hget : (parts.withQuery query).parameters.get check.1 = none := by
          refine (get_parseQuery query hname.1).trans ?_
          rw [List.getLast?_eq_none_iff]
          exact (hnil ▸ hperm).eq_nil
        rw [List.all_cons, hget, hall]
        rfl
      · obtain ⟨v, hv, haccepted⟩ := hhead hnil
        obtain ⟨query', halike', hlast, hrest⟩ :=
          @exists_last mode query check.1 v (hperm.mem_iff.mpr hv)
        use query', halike.trans halike'
        have hget : (parts.withQuery query').parameters.get check.1 = some v :=
          (get_parseQuery query' hname.1).trans hlast
        rw [List.all_cons, hget, Option.all_some, haccepted, Bool.true_and, ← hall]
        rw [Bool.eq_iff_iff, List.all_eq_true, List.all_eq_true]
        apply forall₂_congr
        intro check' hmem
        have hne : check'.1 ≠ check.1 := fun heq => hnotMem (heq ▸ List.mem_map_of_mem hmem)
        have hget' : (parts.withQuery query').parameters.get check'.1
            = (parts.withQuery query).parameters.get check'.1 := by
          refine (get_parseQuery query' (hcovered check' hmem).1).trans ?_
          rw [hrest _ hne]
          exact (get_parseQuery query (hcovered check' hmem).1).symm
        rw [hget']

/-- The parameters of a listing are fixed if what is done for it is. -/
theorem listing_fixed
    (hlisting : AsksForListing parts) {query query' : Option Bytes}
    (halike : SignedAlike mode parts.query query) (halike' : SignedAlike mode parts.query query')
    (haccepted : listingAccepted (parts.withQuery query).parameters = true)
    (heq : parseOperation (parts.withQuery query') = parseOperation (parts.withQuery query)) :
  listingAccepted (parts.withQuery query').parameters = true ∧
    listParamsOf (parts.withQuery query').parameters = listParamsOf (parts.withQuery query).parameters
  := by
  rw [parseOperation_of_listing (halike.asksForListing_iff.mpr hlisting),
    parseOperation_of_listing (halike'.asksForListing_iff.mpr hlisting), if_pos haccepted] at heq
  by_cases haccepted' : listingAccepted (parts.withQuery query').parameters = true
  · rw [if_pos haccepted'] at heq
    use haccepted'
    split_ifs at heq
    · exact (S3Operation.listObjectsV2.inj heq).2
    · exact (S3Operation.listObjectsV1.inj heq).2
  · rw [if_neg haccepted'] at heq
    split_ifs at heq

/-- The type of a listing whose parameters are accepted has one value. -/
theorem get_listType
    {map : StringMap} {v : Bytes} (h : listingAccepted map = true)
    (hget : map.get (ascii "list-type") = some v) :
  v = ascii "2"
  := by
  have hcheck := List.all_eq_true.mp h (ascii "list-type", fun v => v = ascii "2")
    List.mem_cons_self
  rw [hget] at hcheck
  exact of_decide_eq_true hcheck

/-- If what is done for a listing is fixed, its parameters are read alike. -/
theorem listingDecided_of_fixed
    (hlisting : AsksForListing parts)
    (h : ∀ query, SignedAlike mode parts.query query →
      parseOperation (parts.withQuery query) = parseOperation parts) :
  ListingDecided parts.query
  := by
  rw [ListingDecided, or_iff_not_imp_left]
  intro hnot
  have hsome : ∀ check ∈ listingChecks, parameterValues parts.query check.1 ≠ [] →
      ∃ v ∈ parameterValues parts.query check.1, check.2 v = true := by
    intro check hmem hne
    by_contra hnone
    apply hnot
    use check, hmem, hne
    intro v hv
    exact Bool.eq_false_iff.mpr fun htrue => hnone ⟨v, hv, htrue⟩
  obtain ⟨base, hbase, haccepted⟩ :=
    @exists_accepted parts mode listingChecks (by decide) (fun _ => isCovered_of_mem) hsome
  have hfixed : ∀ query, SignedAlike mode parts.query query →
      listingAccepted (parts.withQuery query).parameters = true ∧
        listParamsOf (parts.withQuery query).parameters
          = listParamsOf (parts.withQuery base).parameters := by
    intro query halike
    exact listing_fixed hlisting hbase halike haccepted ((h query halike).trans (h base hbase).symm)
  have hparams : ∀ query query', SignedAlike mode parts.query query →
      SignedAlike mode parts.query query' →
      listParamsOf (parts.withQuery query).parameters
        = listParamsOf (parts.withQuery query').parameters :=
    fun query query' halike halike' => (hfixed query halike).2.trans (hfixed query' halike').2.symm
  -- A parameter whose last value is among those of the listing has the same last value everywhere.
  have hfield : ∀ (name : Bytes) (field : ListParams → Option Bytes), IsCovered name →
      (∀ map, field (listParamsOf map) = map.get name) → ReadAlike id parts.query name := by
    intro name field hname hfield
    apply readAlike_of_get hname
    intro query query' halike halike' v v' hget hget'
    have heq := congrArg field (hparams query query' halike halike')
    rw [hfield, hfield, hget, hget'] at heq
    exact Option.some.inj heq
  constructor
  · intro name hmem
    simp only [listingNames, List.mem_cons, List.not_mem_nil, or_false] at hmem
    rcases hmem with rfl | rfl | rfl | rfl | rfl | rfl | rfl
    · apply readAlike_of_get (by decide)
      intro query query' halike halike' v v' hget hget'
      rw [get_listType (hfixed query halike).1 hget, get_listType (hfixed query' halike').1 hget']
    · exact hfield _ ListParams.encodingType (by decide) fun _ => rfl
    · exact hfield _ ListParams.pre (by decide) fun _ => rfl
    · exact hfield _ ListParams.delimiter (by decide) fun _ => rfl
    · exact hfield _ ListParams.continuationToken (by decide) fun _ => rfl
    · exact hfield _ ListParams.marker (by decide) fun _ => rfl
    · exact hfield _ ListParams.startAfter (by decide) fun _ => rfl
  · apply readAlike_of_get (by decide)
    intro query query' halike halike' v v' hget hget'
    have heq := congrArg ListParams.maxKeys (hparams query query' halike halike')
    change (StringMap.get _ _).bind _ = (StringMap.get _ _).bind _ at heq
    rwa [hget, hget'] at heq

/-- What a request to store a part asks for is fixed only if its parameters are read alike. -/
theorem part_of_fixed
    (hpart : AsksForPart parts)
    (h : ∀ query, SignedAlike mode parts.query query →
      parseOperation (parts.withQuery query) = parseOperation parts) :
  ReadAlike id parts.query (ascii "uploadId") ∧
    ReadAlike readPartNumber parts.query (ascii "partNumber")
  := by
  have hfixed : ∀ query query', SignedAlike mode parts.query query →
      SignedAlike mode parts.query query' →
      parseOperation (parts.withQuery query) = parseOperation (parts.withQuery query') :=
    fun query query' halike halike' => (h query halike).trans (h query' halike').symm
  constructor
  · apply readAlike_of_get (by decide)
    intro query query' halike halike' v v' hget hget'
    have heq := hfixed query query' halike halike'
    rw [parseOperation_of_part (halike.asksForPart_iff.mpr hpart),
      parseOperation_of_part (halike'.asksForPart_iff.mpr hpart), hget, hget'] at heq
    exact (S3Operation.uploadPart.inj heq).2.2.2
  · apply readAlike_of_get (by decide)
    intro query query' halike halike' v v' hget hget'
    have heq := hfixed query query' halike halike'
    rw [parseOperation_of_part (halike.asksForPart_iff.mpr hpart),
      parseOperation_of_part (halike'.asksForPart_iff.mpr hpart), hget, hget'] at heq
    exact (S3Operation.uploadPart.inj heq).2.2.1

/-- What a request to end an upload asks for is fixed only if its parameter is read alike. -/
theorem upload_of_fixed
    (hupload : AsksForUpload parts)
    (h : ∀ query, SignedAlike mode parts.query query →
      parseOperation (parts.withQuery query) = parseOperation parts) :
  ReadAlike id parts.query (ascii "uploadId")
  := by
  apply readAlike_of_get (by decide)
  intro query query' halike halike' v v' hget hget'
  have heq := (h query halike).trans (h query' halike').symm
  rw [parseOperation_of_upload (halike.asksForUpload_iff.mpr hupload),
    parseOperation_of_upload (halike'.asksForUpload_iff.mpr hupload), hget, hget'] at heq
  change (if parts.method = ascii "POST" then _ else _)
    = if parts.method = ascii "POST" then _ else _ at heq
  by_cases hpost : parts.method = ascii "POST"
  · rw [if_pos hpost, if_pos hpost] at heq
    exact (S3Operation.completeMultipartUpload.inj heq).2.2
  · rw [if_neg hpost, if_neg hpost] at heq
    exact (S3Operation.abortMultipartUpload.inj heq).2.2

/-- The signature of a request fixes what it asks for if and only if the parameters that matter for
that are read alike in all of their values. -/
theorem operation_fixed_iff
    (parts : Parts) (mode : CanonicalQueryMode) (requestId requestId' : Bytes) :
  (∀ query, canonicalizeQuery (query.getD []) mode requestId'
        = canonicalizeQuery (parts.query.getD []) mode requestId →
      (parseRequest (parts.withQuery query) requestId').operation
        = (parseRequest parts requestId).operation) ↔
    OperationDecided parts
  := by
  simp only [canonicalizeQuery_eq, Except.ok.injEq]
  constructor
  · intro h
    exact {
      part := fun hpart => part_of_fixed hpart h
      upload := fun hupload => upload_of_fixed hupload h
      listing := fun hlisting => listingDecided_of_fixed hlisting h }
  · intro h query halike
    exact h.parseOperation_eq halike

end

/-- A request to store a part of an object, with a number of the part twice. -/
def partRequest (query : Bytes) : Parts where
  method := ascii "PUT"
  path := ascii "/front/key"
  query := some query
  headers := []
  lf_notMem_method := lf_notMem_put
  lf_notMem_path := lf_notMem_frontKey

/-- One signature covers the upload of one part and of another. -/
theorem partRequest_reordered :
  canonicalizeQuery (ascii "partNumber=2&partNumber=1&uploadId=u") .includeAll []
      = canonicalizeQuery (ascii "partNumber=1&partNumber=2&uploadId=u") .includeAll [] ∧
    (parseRequest (partRequest (ascii "partNumber=1&partNumber=2&uploadId=u")) []).operation
      = .uploadPart (ascii "front") (ascii "key") 2 (ascii "u") ∧
    (parseRequest (partRequest (ascii "partNumber=2&partNumber=1&uploadId=u")) []).operation
      = .uploadPart (ascii "front") (ascii "key") 1 (ascii "u")
  := by
  refine ⟨?_, by decide +kernel, by decide +kernel⟩
  rw [canonicalizeQuery_eq, canonicalizeQuery_eq, Except.ok.injEq, canonicalQuery_eq_iff]
  decide +kernel

end TinyS3Proxy
