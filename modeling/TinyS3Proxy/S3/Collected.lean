import TinyS3Proxy.S3.Parse

/-!
# The headers that are collected

Of the headers of a request, the parser collects those for metadata and the other ones of S3 in maps.
A map has one value of a name, which is the last that can be read as a string.
-/

namespace TinyS3Proxy

open Text (Bytes ascii)

/-! ### Names -/

/-- The bytes of a name are in lower case. -/
theorem lowerByte_of_isNameByte
    {b : UInt8} (h : isNameByte b = true) :
  Text.lowerByte b = b
  := by
  have hall : ∀ n : Fin 256, isNameByte (UInt8.ofNat n) = true →
      Text.lowerByte (UInt8.ofNat n) = UInt8.ofNat n := by
    decide +kernel
  have hb := hall ⟨b.toNat, b.toNat_lt⟩
  rw [UInt8.ofNat_toNat] at hb
  exact hb h

/-- A name stands for itself. -/
theorem HeaderName.fromStr_bytes
    (name : HeaderName) :
  fromStr name.bytes = some name
  := by
  have hlower : Text.lower name.bytes = name.bytes := by
    rw [Text.lower, List.map_congr_left fun b hb =>
      lowerByte_of_isNameByte (name.isNameByte_of_mem b hb), List.map_id']
  have hname : Text.lower name.bytes ≠ [] ∧ (Text.lower name.bytes).length ≤ maxHeaderNameLen ∧
      ∀ b ∈ Text.lower name.bytes, isNameByte b = true := by
    rw [hlower]
    exact ⟨name.nonempty, name.length_le, name.isNameByte_of_mem⟩
  obtain ⟨bytes, _, _, _⟩ := name
  rw [fromStr, dif_pos hname]
  simp only [hlower]

/-! ### Maps -/

namespace StringMap

theorem mem_insert
    {map : StringMap} {name value : Bytes} {e : Bytes × Bytes} :
  e ∈ map.insert name value ↔ e ∈ map ∧ e.1 ≠ name ∨ e = (name, value)
  := by
  rw [insert, List.mem_append, List.mem_filter, List.mem_singleton, decide_eq_true_eq]

end StringMap

/-! ### Values -/

/-- The last value of a header that can be read. -/
def lastReadable (headers : HeaderMap) (name : Bytes) : Option Bytes :=
  ((headers.getAll name).filterMap HeaderValue.toStr).getLast?

/-- The value that is kept can be read. -/
theorem exists_of_lastReadable
    {headers : HeaderMap} {name value : Bytes} (h : lastReadable headers name = some value) :
  ∃ v ∈ headers.getAll name, v.toStr = some value
  := List.mem_filterMap.mp (List.mem_of_getLast? h)

/-- A value is kept if one can be read. -/
theorem lastReadable_ne_none
    {headers : HeaderMap} {h : HeaderName × HeaderValue} (hmem : h ∈ headers)
    (hread : h.2.toStr ≠ none) :
  lastReadable headers h.1.bytes ≠ none
  := by
  obtain ⟨value, hvalue⟩ := Option.ne_none_iff_exists'.mp hread
  have hgetAll : h.2 ∈ headers.getAll h.1.bytes :=
    List.mem_map_of_mem (List.mem_filter.mpr ⟨hmem, decide_eq_true rfl⟩)
  have hvalues := List.mem_filterMap.mpr ⟨h.2, hgetAll, hvalue⟩
  rw [lastReadable, ne_eq, List.getLast?_eq_none_iff]
  exact List.ne_nil_of_mem hvalues

theorem getAll_append
    (headers : HeaderMap) (h : HeaderName × HeaderValue) (name : Bytes) :
  HeaderMap.getAll (headers ++ [h]) name
    = headers.getAll name ++ if h.1.bytes = name then [h.2] else []
  := by
  rw [HeaderMap.getAll, List.filter_append, List.map_append]
  by_cases hname : h.1.bytes = name
  · simp [HeaderMap.getAll, hname]
  · simp [HeaderMap.getAll, hname]

/-- A header that follows others has the last value if it can be read. -/
theorem lastReadable_append
    (headers : HeaderMap) (h : HeaderName × HeaderValue) (name : Bytes) :
  lastReadable (headers ++ [h]) name
    = if h.1.bytes = name then h.2.toStr.or (lastReadable headers name)
      else lastReadable headers name
  := by
  rw [lastReadable, getAll_append, List.filterMap_append]
  split
  next =>
    rw [List.filterMap_cons, List.filterMap_nil]
    rcases h.2.toStr with _ | v
    · rw [List.append_nil]
      rfl
    · rw [List.getLast?_append]
      rfl
  next =>
    rw [List.filterMap_nil, List.append_nil]
    rfl

/-- The header is collected, but is not one for metadata. -/
def IsExtraAmz (name : Bytes) : Prop :=
  Text.strip (ascii "x-amz-meta-") name = none ∧ (Text.strip (ascii "x-amz-") name).isSome = true ∧
    name ∉ authAmzHeaders

instance (name : Bytes) : Decidable (IsExtraAmz name) :=
  inferInstanceAs (Decidable (_ ∧ _ ∧ _))

/-- A header that is collected takes the place of those before it. -/
theorem mem_insert_iff
    {map : StringMap} {name value : Bytes} {e : Bytes × Bytes} {last : Option Bytes}
    (h : e ∈ map ↔ last = some e.2) :
  e ∈ map.insert name value ↔ (if name = e.1 then (some value).or last else last) = some e.2
  := by
  rw [StringMap.mem_insert, h]
  split
  next hname =>
    rw [Option.some_or, Option.some.injEq, Prod.ext_iff]
    constructor
    · rintro (⟨-, hne⟩ | ⟨-, hvalue⟩)
      · exact absurd hname.symm hne
      · exact hvalue.symm
    · intro hvalue
      exact .inr ⟨hname.symm, hvalue.symm⟩
  next hname =>
    constructor
    · rintro (⟨hlast, -⟩ | rfl)
      · exact hlast
      · exact absurd rfl hname
    · intro hlast
      exact .inl ⟨hlast, Ne.symm hname⟩

/-- A header that is not collected changes nothing. -/
theorem extraAmz_iff_of_not
    {name : Bytes} (hother : ¬IsExtraAmz name) (e : Bytes × Bytes) (value last : Option Bytes) :
  (IsExtraAmz e.1 ∧ (if name = e.1 then value else last) = some e.2)
    ↔ IsExtraAmz e.1 ∧ last = some e.2
  := by
  apply and_congr_right
  intro hextra
  rw [if_neg]
  rintro rfl
  exact hother hextra

/-- The maps that are collected have the last value of each header. The induction is on the headers
from the last one on, since later ones replace earlier ones. -/
theorem mem_collected
    (headers : HeaderMap) (e : Bytes × Bytes) :
  (e ∈ (headers.foldl collectAmzHeader ([], [])).1
      ↔ lastReadable headers (ascii "x-amz-meta-" ++ e.1) = some e.2) ∧
    (e ∈ (headers.foldl collectAmzHeader ([], [])).2
      ↔ IsExtraAmz e.1 ∧ lastReadable headers e.1 = some e.2)
  := by
  induction headers using List.reverseRecOn with
  | nil => simp [lastReadable, HeaderMap.getAll]
  | append_singleton headers h ih =>
      rw [List.foldl_append, List.foldl_cons, List.foldl_nil]
      generalize headers.foldl collectAmzHeader ([], []) = maps at ih ⊢
      rw [collectAmzHeader, lastReadable_append, lastReadable_append]
      rcases h.2.toStr with _ | v
      · simpa using ih
      · rcases hmeta : Text.strip (ascii "x-amz-meta-") h.1.bytes with _ | bareKey
        · have hne : ∀ bareKey, h.1.bytes ≠ ascii "x-amz-meta-" ++ bareKey := by
            intro bareKey heq
            rw [Text.strip_eq_some.mpr heq] at hmeta
            cases hmeta
          simp only
          by_cases hextra : (Text.strip (ascii "x-amz-") h.1.bytes).isSome = true ∧
              h.1.bytes ∉ authAmzHeaders
          · rw [if_pos hextra, if_neg (hne e.1)]
            use ih.1
            by_cases he : IsExtraAmz e.1
            · rw [mem_insert_iff (ih.2.trans (and_iff_right he)), and_iff_right he]
            · rw [StringMap.mem_insert, ih.2]
              constructor
              · rintro (⟨⟨hextra', -⟩, -⟩ | rfl)
                · exact absurd hextra' he
                · exact absurd ⟨hmeta, hextra⟩ he
              · rintro ⟨hextra', -⟩
                exact absurd hextra' he
          · rw [if_neg hextra, if_neg (hne e.1), extraAmz_iff_of_not fun h => hextra h.2]
            exact ih
        · have hname := Text.strip_eq_some.mp hmeta
          have hother : ¬IsExtraAmz h.1.bytes := by
            rintro ⟨hnone, -⟩
            rw [hmeta] at hnone
            cases hnone
          rw [extraAmz_iff_of_not hother]
          constructor
          · simp only
            rw [mem_insert_iff ih.1, hname]
            simp only [List.append_cancel_left_eq]
          · exact ih.2

/-- What is collected for metadata is the last value of each header. -/
theorem mem_userMetadata
    {parts : Parts} {requestId : Bytes} {e : Bytes × Bytes} :
  e ∈ (parseRequest parts requestId).userMetadata
    ↔ lastReadable parts.headers (ascii "x-amz-meta-" ++ e.1) = some e.2
  := (mem_collected parts.headers e).1

/-- What is collected besides is the last value of each header. -/
theorem mem_extraAmzHeaders
    {parts : Parts} {requestId : Bytes} {e : Bytes × Bytes} :
  e ∈ (parseRequest parts requestId).extraAmzHeaders
    ↔ IsExtraAmz e.1 ∧ lastReadable parts.headers e.1 = some e.2
  := (mem_collected parts.headers e).2

end TinyS3Proxy
