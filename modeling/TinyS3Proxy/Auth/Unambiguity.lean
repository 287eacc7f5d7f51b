import TinyS3Proxy.Auth.Query
import TinyS3Proxy.Effect.Fallible

/-!
# Canonical requests are unambiguous

A canonical request is read back line by line. The method, the path, the query, the list of the
signed headers and the declaration of the body are lines. Between them are the lines of the
signed headers, of which none is empty, with an empty line after them; a name and a value are
separated by the first colon, since there is none in a name.
-/

namespace TinyS3Proxy

open Text (Bytes ascii lf)
open Effect (exists_of_bind_eq_ok)

/-! ### Names -/

namespace HeaderName

theorem ext_bytes
    {a b : HeaderName} (h : a.bytes = b.bytes) :
  a = b
  := by
  obtain ⟨bytes, _, _, _⟩ := a
  obtain rfl : bytes = b.bytes := h
  rfl

theorem notMem_bytes
    (name : HeaderName) {b : UInt8} (hb : isNameByte b = false) :
  b ∉ name.bytes
  := by
  intro h
  rw [name.isNameByte_of_mem b h] at hb
  cases hb

end HeaderName

/-! ### Values -/

theorem mem_of_mem_collapseSpaces
    {b : UInt8} {bs : Bytes} {afterSpace : Bool} (h : b ∈ collapseSpaces afterSpace bs) :
  b ∈ bs
  := by
  induction bs generalizing afterSpace with
  | nil => exact h
  | cons c bs ih =>
      rw [collapseSpaces] at h
      split at h
      next =>
        split at h
        next => exact List.mem_cons_of_mem _ (ih h)
        next => exact List.mem_cons.mpr ((List.mem_cons.mp h).imp id ih)
      next => exact List.mem_cons.mpr ((List.mem_cons.mp h).imp id ih)

theorem mem_of_mem_trimWs
    {b : UInt8} {s : Bytes} (h : b ∈ trimWs s) :
  b ∈ s
  := by
  have hmem := mem_of_mem_collapseSpaces h
  rw [List.mem_reverse] at hmem
  have hrev := (List.dropWhile_suffix _).subset hmem
  rw [List.mem_reverse] at hrev
  exact (List.dropWhile_suffix _).subset hrev

/-- The values of the headers of a name without superfluous blanks, with commas between them. -/
def joinedValue (headers : HeaderMap) (name : HeaderName) : Bytes :=
  Text.joinFields 44 ((headers.getAll name.bytes).map fun v => trimWs v.bytes)

theorem lf_notMem_joinedValue
    (headers : HeaderMap) (name : HeaderName) :
  lf ∉ joinedValue headers name
  := by
  apply Text.notMem_joinFields (by decide)
  intro field hf
  obtain ⟨v, -, rfl⟩ := List.mem_map.mp hf
  exact fun h => v.lf_notMem (mem_of_mem_trimWs h)

theorem headerUtf8_eq_ok
    {name : HeaderName} {requestId raw : Bytes} {value : HeaderValue}
    (h : headerUtf8 name requestId value = .ok raw) :
  raw = value.bytes
  := by
  rw [headerUtf8] at h
  split at h
  next => exact (Except.ok.inj h).symm
  next => cases h

/-- The values after the first one are appended. -/
theorem foldlM_headerUtf8_eq_ok
    {name : HeaderName} {requestId acc value : Bytes} {extras : List HeaderValue}
    (h : extras.foldlM (fun value extra => do
      let raw ← headerUtf8 name requestId extra
      pure (value ++ 44 :: trimWs raw)) acc = .ok value) :
  value = extras.foldl (fun acc v => acc ++ 44 :: trimWs v.bytes) acc
  := by
  induction extras generalizing acc with
  | nil => exact (Except.ok.inj h).symm
  | cons extra extras ih =>
      rw [List.foldlM_cons] at h
      obtain ⟨acc', hacc, h⟩ := exists_of_bind_eq_ok h
      obtain ⟨raw, hraw, hacc⟩ := exists_of_bind_eq_ok hacc
      obtain rfl := headerUtf8_eq_ok hraw
      obtain rfl := Except.ok.inj hacc
      exact ih h

/-- The value of a signed header, if the header is there. -/
theorem canonicalizeHeader_eq_ok
    {parts : Parts} {requestId value : Bytes} {name : HeaderName}
    (h : canonicalizeHeader parts requestId name = .ok value) :
  value = joinedValue parts.headers name
  := by
  rw [canonicalizeHeader] at h
  rw [joinedValue]
  cases hvalues : parts.headers.getAll name.bytes with
  | nil =>
      rw [hvalues] at h
      cases h
  | cons first extras =>
      rw [hvalues] at h
      obtain ⟨raw, hraw, h⟩ := exists_of_bind_eq_ok h
      obtain rfl := headerUtf8_eq_ok hraw
      rw [List.map_cons, Text.joinFields_cons, List.foldl_map]
      exact foldlM_headerUtf8_eq_ok h

/-! ### The lines of the signed headers -/

/-- The lines for names and values. -/
def headerLines (value : HeaderName → Bytes) : List HeaderName → Bytes
  | [] => []
  | name :: names => name.bytes ++ 58 :: (value name ++ lf :: headerLines value names)

theorem canonicalHeaderLines_eq_ok
    {parts : Parts} {requestId lines : Bytes} {names : List HeaderName}
    (h : canonicalHeaderLines parts requestId names = .ok lines) :
  lines = headerLines (joinedValue parts.headers) names
  := by
  induction names generalizing lines with
  | nil => exact (Except.ok.inj h).symm
  | cons name names ih =>
      rw [canonicalHeaderLines] at h
      obtain ⟨value, hvalue, h⟩ := exists_of_bind_eq_ok h
      obtain ⟨rest, hrest, h⟩ := exists_of_bind_eq_ok h
      obtain rfl := Except.ok.inj h
      obtain rfl := canonicalizeHeader_eq_ok hvalue
      obtain rfl := ih hrest
      rfl

/-- The lines are read back, and so is what follows the empty line after them. -/
theorem headerLines_append_inj
    {value₁ value₂ : HeaderName → Bytes} (h₁ : ∀ name, lf ∉ value₁ name)
    (h₂ : ∀ name, lf ∉ value₂ name) {names₁ names₂ : List HeaderName} {rest₁ rest₂ : Bytes}
    (h : headerLines value₁ names₁ ++ lf :: rest₁ = headerLines value₂ names₂ ++ lf :: rest₂) :
  names₁ = names₂ ∧ (∀ name ∈ names₁, value₁ name = value₂ name) ∧ rest₁ = rest₂
  := by
  -- A name is not empty and starts with a byte other than a line feed.
  have hhead : ∀ (name : HeaderName) (s t : Bytes), name.bytes ++ s ≠ lf :: t := by
    intro name s t heq
    obtain ⟨b, bs, hb⟩ := List.exists_cons_of_ne_nil name.nonempty
    rw [hb] at heq
    obtain rfl := (List.cons.inj heq).1
    exact name.notMem_bytes (b := lf) (by decide) (hb ▸ List.mem_cons_self)
  induction names₁ generalizing names₂ with
  | nil =>
      cases names₂ with
      | nil => exact ⟨rfl, by simp, (List.cons.inj h).2⟩
      | cons name names =>
          rw [headerLines, headerLines, List.nil_append, List.append_assoc] at h
          exact absurd h.symm (hhead name _ _)
  | cons name₁ names₁ ih =>
      cases names₂ with
      | nil =>
          rw [headerLines, headerLines, List.nil_append, List.append_assoc] at h
          exact absurd h (hhead name₁ _ _)
      | cons name₂ names₂ =>
          simp only [headerLines, List.append_assoc, List.cons_append] at h
          obtain ⟨hname, h⟩ := (Text.append_cons_inj (name₁.notMem_bytes (by decide))
            (name₂.notMem_bytes (by decide))).mp h
          obtain rfl := HeaderName.ext_bytes hname
          obtain ⟨hvalue, h⟩ := (Text.append_cons_inj (h₁ name₁) (h₂ name₁)).mp h
          obtain ⟨rfl, hvalues, hrest⟩ := ih h
          exact ⟨rfl, List.forall_mem_cons.mpr ⟨hvalue, hvalues⟩, hrest⟩

theorem headerLines_congr
    {value₁ value₂ : HeaderName → Bytes} {names : List HeaderName}
    (h : ∀ name ∈ names, value₁ name = value₂ name) :
  headerLines value₁ names = headerLines value₂ names
  := by
  induction names with
  | nil => rfl
  | cons name names ih =>
      rw [headerLines, headerLines, h name List.mem_cons_self,
        ih fun n hn => h n (List.mem_cons_of_mem _ hn)]

/-! ### The list of signed headers -/

theorem fromStr_bytes
    {s : Bytes} {name : HeaderName} (h : HeaderName.fromStr s = some name) :
  name.bytes = Text.lower s
  := by
  rw [HeaderName.fromStr] at h
  split at h
  next =>
    obtain rfl := Option.some.inj h
    rfl
  next => cases h

theorem lower_of_any_eq_false
    {bs : Bytes} (h : (bs.any fun b => decide (65 ≤ b) && decide (b ≤ 90)) = false) :
  Text.lower bs = bs
  := by
  rw [List.any_eq_false] at h
  have hbyte : ∀ b ∈ bs, Text.lowerByte b = b := by
    intro b hb
    rw [Text.lowerByte, if_neg]
    simpa using h b hb
  rw [Text.lower, List.map_congr_left hbyte, List.map_id']

/-- A name that was accepted is the element of the list. -/
theorem parseSignedHeader_eq_ok
    {requestId part : Bytes} {name : HeaderName} (h : parseSignedHeader requestId part = .ok name) :
  name.bytes = part
  := by
  rw [parseSignedHeader] at h
  split at h
  next => cases h
  next =>
    split at h
    next => cases h
    next hupper =>
      have hlower := lower_of_any_eq_false (Bool.eq_false_iff.mpr hupper)
      split at h
      next name' hname =>
        obtain rfl := Except.ok.inj h
        rw [fromStr_bytes hname, hlower]
      next => cases h

theorem mapM_parseSignedHeader_eq_ok
    {requestId : Bytes} {fields : List Bytes} {names : List HeaderName}
    (h : fields.mapM (parseSignedHeader requestId) = .ok names) :
  names.map HeaderName.bytes = fields
  := by
  induction fields generalizing names with
  | nil =>
      obtain rfl := Except.ok.inj h
      rfl
  | cons field fields ih =>
      rw [List.mapM_cons] at h
      obtain ⟨name, hname, h⟩ := exists_of_bind_eq_ok h
      obtain ⟨rest, hrest, h⟩ := exists_of_bind_eq_ok h
      obtain rfl := Except.ok.inj h
      rw [List.map_cons, parseSignedHeader_eq_ok hname, ih hrest]

/-- The names that were accepted are those of the list. -/
theorem parseSignedHeaders_eq_ok
    {value requestId : Bytes} {names : List HeaderName}
    (h : parseSignedHeaders value requestId = .ok names) :
  names.map HeaderName.bytes = value.splitOn 59
  := by
  rw [parseSignedHeaders] at h
  split at h
  next => cases h
  next =>
    obtain ⟨names', hnames, h⟩ := exists_of_bind_eq_ok h
    obtain ⟨_, -, h⟩ := exists_of_bind_eq_ok h
    split at h
    next =>
      obtain rfl := Except.ok.inj h
      exact mapM_parseSignedHeader_eq_ok hnames
    next => cases h

theorem joinFields_parseSignedHeaders
    {value requestId : Bytes} {names : List HeaderName}
    (h : parseSignedHeaders value requestId = .ok names) :
  Text.joinFields 59 (names.map HeaderName.bytes) = value
  := by
  rw [parseSignedHeaders_eq_ok h, Text.joinFields_eq_intercalate, List.intercalate_splitOn]

/-- Lists are the same if the names that are read from them are. -/
theorem parseSignedHeaders_inj
    {s₁ s₂ id₁ id₂ : Bytes} {names₁ names₂ : List HeaderName}
    (h₁ : parseSignedHeaders s₁ id₁ = .ok names₁) (h₂ : parseSignedHeaders s₂ id₂ = .ok names₂) :
  s₁ = s₂ ↔ names₁ = names₂
  := by
  constructor
  · rintro rfl
    apply List.map_injective_iff.mpr fun _ _ => HeaderName.ext_bytes
    rw [parseSignedHeaders_eq_ok h₁, parseSignedHeaders_eq_ok h₂]
  · rintro rfl
    rw [← joinFields_parseSignedHeaders h₁, ← joinFields_parseSignedHeaders h₂]

/-! ### The whole request -/

/-- What a canonical request consists of. -/
theorem buildCanonicalRequest_eq_ok
    {parts : Parts} {names : List HeaderName} {payload : PayloadHashForSigning}
    {mode : CanonicalQueryMode} {requestId : Bytes} {c : CanonicalRequest}
    (h : buildCanonicalRequestFromSignedHeaders parts names payload mode requestId = .ok c) :
  c.canonicalRequest = parts.method ++ lf :: (parts.path ++ lf ::
    (canonicalQuery (parts.query.getD []) mode ++ lf ::
      (headerLines (joinedValue parts.headers) names ++ lf ::
        (Text.joinFields 59 (names.map HeaderName.bytes) ++ lf :: payload.canonicalString))))
  := by
  rw [buildCanonicalRequestFromSignedHeaders] at h
  obtain ⟨query, hquery, h⟩ := exists_of_bind_eq_ok h
  obtain ⟨⟨lines, signed⟩, hheaders, h⟩ := exists_of_bind_eq_ok h
  obtain ⟨lines', hlines, hheaders⟩ := exists_of_bind_eq_ok hheaders
  rw [canonicalizeQuery_eq] at hquery
  obtain rfl := Except.ok.inj hquery
  obtain ⟨rfl, rfl⟩ := Prod.mk.inj (Except.ok.inj hheaders)
  obtain rfl := canonicalHeaderLines_eq_ok hlines
  obtain rfl := Except.ok.inj h
  rfl

theorem lf_notMem_signedHeaders
    (names : List HeaderName) :
  lf ∉ Text.joinFields 59 (names.map HeaderName.bytes)
  := by
  apply Text.notMem_joinFields (by decide)
  intro field hf
  obtain ⟨name, -, rfl⟩ := List.mem_map.mp hf
  exact name.notMem_bytes (by decide)

/-- Two canonical requests are the same string exactly if the methods, the paths, the parameters
of the queries, the lists of the signed headers, the values of every signed header and the
declarations of the bodies are the same. -/
theorem canonicalRequest_eq_iff
    {r₁ r₂ : Parts} {s₁ s₂ id₁ id₂ : Bytes} {names₁ names₂ : List HeaderName}
    {p₁ p₂ : PayloadHashForSigning} {mode : CanonicalQueryMode} {c₁ c₂ : CanonicalRequest}
    (hs₁ : parseSignedHeaders s₁ id₁ = .ok names₁)
    (hs₂ : parseSignedHeaders s₂ id₂ = .ok names₂)
    (hc₁ : buildCanonicalRequestFromSignedHeaders r₁ names₁ p₁ mode id₁ = .ok c₁)
    (hc₂ : buildCanonicalRequestFromSignedHeaders r₂ names₂ p₂ mode id₂ = .ok c₂) :
  c₁.canonicalRequest = c₂.canonicalRequest ↔
    r₁.method = r₂.method ∧ r₁.path = r₂.path ∧
      ((decodedPairs (r₁.query.getD [])).filter mode.keeps : Multiset (Bytes × Bytes))
        = ((decodedPairs (r₂.query.getD [])).filter mode.keeps : List (Bytes × Bytes)) ∧
      s₁ = s₂ ∧ (∀ name ∈ names₁, joinedValue r₁.headers name = joinedValue r₂.headers name) ∧
      p₁ = p₂
  := by
  have hlist := parseSignedHeaders_inj hs₁ hs₂
  rw [buildCanonicalRequest_eq_ok hc₁, buildCanonicalRequest_eq_ok hc₂, Multiset.coe_eq_coe]
  constructor
  · intro h
    obtain ⟨hmethod, h⟩ :=
      (Text.append_cons_inj r₁.lf_notMem_method r₂.lf_notMem_method).mp h
    obtain ⟨hpath, h⟩ := (Text.append_cons_inj r₁.lf_notMem_path r₂.lf_notMem_path).mp h
    obtain ⟨hquery, h⟩ := (Text.append_cons_inj (lf_notMem_canonicalQuery _ _)
      (lf_notMem_canonicalQuery _ _)).mp h
    obtain ⟨hnames, hvalues, h⟩ :=
      headerLines_append_inj (lf_notMem_joinedValue _) (lf_notMem_joinedValue _) h
    obtain ⟨-, hpayload⟩ := (Text.append_cons_inj (lf_notMem_signedHeaders _)
      (lf_notMem_signedHeaders _)).mp h
    exact ⟨hmethod, hpath, canonicalQuery_eq_iff.mp hquery, hlist.mpr hnames, hvalues,
      PayloadHashForSigning.canonicalString_injective hpayload⟩
  · rintro ⟨hmethod, hpath, hquery, hs, hvalues, hpayload⟩
    obtain rfl := hlist.mp hs
    rw [hmethod, hpath, canonicalQuery_eq_iff.mpr hquery, headerLines_congr hvalues, hpayload]

/-- The name of the header that every list of signed headers has. -/
def hostName : HeaderName := ⟨ascii "host", by decide, by decide, by decide⟩

/-- The name of a header of the user. -/
def noteName : HeaderName := ⟨ascii "x-amz-meta-note", by decide, by decide, by decide⟩

/-- A request for an object with headers of the user. -/
def noted (notes : List HeaderValue) : Parts where
  method := ascii "GET"
  path := ascii "/bucket/key"
  query := none
  headers := (hostName, ⟨ascii "localhost", by decide⟩) :: notes.map fun note => (noteName, note)
  lf_notMem_method := by decide
  lf_notMem_path := by decide

/-- The value is sent in two headers. -/
def notedTwice : Parts := noted [⟨ascii "one", by decide⟩, ⟨ascii "  two  ", by decide⟩]

/-- The value is sent in one header. -/
def notedOnce : Parts := noted [⟨ascii "one,two", by decide⟩]

/-- A header that is sent twice is signed as one header with both values. -/
theorem canonicalRequest_eq_noted :
  ∃ c₁ c₂,
    buildCanonicalRequestFromSignedHeaders notedTwice [hostName, noteName] .unsignedPayload
      .includeAll [] = .ok c₁ ∧
    buildCanonicalRequestFromSignedHeaders notedOnce [hostName, noteName] .unsignedPayload
      .includeAll [] = .ok c₂ ∧
    c₁.canonicalRequest = c₂.canonicalRequest
  := by
  have hparse : parseSignedHeaders (ascii "host;x-amz-meta-note") [] = .ok [hostName, noteName] := by
    decide +kernel
  have hsucceeds : ∀ parts ∈ [notedTwice, notedOnce], ∃ c,
      buildCanonicalRequestFromSignedHeaders parts [hostName, noteName] .unsignedPayload
        .includeAll [] = .ok c := by
    intro parts hparts
    rcases List.mem_pair.mp hparts with rfl | rfl
    · exact ⟨_, rfl⟩
    · exact ⟨_, rfl⟩
  obtain ⟨c₁, hc₁⟩ := hsucceeds notedTwice (by simp)
  obtain ⟨c₂, hc₂⟩ := hsucceeds notedOnce (by simp)
  use c₁, c₂, hc₁, hc₂
  apply (canonicalRequest_eq_iff hparse hparse hc₁ hc₂).mpr
  decide +kernel

end TinyS3Proxy
