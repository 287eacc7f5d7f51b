import TinyS3Proxy.Auth.Canonical

/-!
# The canonical query

The canonical form of a query determines the parameters of the query and how often each occurs,
and is determined by them. It does not keep the order of the parameters, nor how they were
escaped.
-/

namespace TinyS3Proxy

open Text (Bytes ascii lf)

/-! ### Escaped strings -/

/-- Different strings of bytes are escaped differently. -/
theorem awsUriEncodeBytes_injective :
  Function.Injective awsUriEncodeBytes
  := Text.percentEncode_injective (by decide)

theorem percentDecodeForQuery_encode
    (bs : Bytes) :
  percentDecodeForQuery (awsUriEncodeBytes bs) = bs
  := Text.percentDecode_encode (by decide) bs

theorem amp_notMem_encode
    (bs : Bytes) :
  amp ∉ awsUriEncodeBytes bs
  := Text.notMem_percentEncode (by decide) (by decide) bs

theorem eqSign_notMem_encode
    (bs : Bytes) :
  eqSign ∉ awsUriEncodeBytes bs
  := Text.notMem_percentEncode (by decide) (by decide) bs

theorem lf_notMem_encode
    (bs : Bytes) :
  lf ∉ awsUriEncodeBytes bs
  := Text.notMem_percentEncode (by decide) (by decide) bs

/-! ### Parameters -/

/-- A parameter, escaped. -/
def encodeParameter (p : Bytes × Bytes) : Bytes × Bytes :=
  (awsUriEncodeBytes p.1, awsUriEncodeBytes p.2)

theorem encodeParameter_injective :
  Function.Injective encodeParameter
  := awsUriEncodeBytes_injective.prodMap awsUriEncodeBytes_injective

theorem parameterKey_injective :
  Function.Injective parameterKey
  := toLex.injective.comp (Text.ordinals_injective.prodMap Text.ordinals_injective)

/-- A parameter is read back from its escaped form. -/
theorem decodeParameter_format
    (p : Bytes × Bytes) :
  decodeParameter (formatParameter (encodeParameter p)) = p
  := by
  have hsplit : Text.splitOnce eqSign (formatParameter (encodeParameter p))
      = some (encodeParameter p) := by
    exact Text.splitOnce_eq_some.mpr ⟨rfl, eqSign_notMem_encode p.1⟩
  rw [decodeParameter, hsplit]
  exact Prod.ext (percentDecodeForQuery_encode p.1) (percentDecodeForQuery_encode p.2)

theorem amp_notMem_format
    (p : Bytes × Bytes) :
  amp ∉ formatParameter (encodeParameter p)
  := by
  intro h
  rcases List.mem_append.mp h with h | h
  · exact amp_notMem_encode p.1 h
  · rcases List.mem_cons.mp h with h | h
    · cases h
    · exact amp_notMem_encode p.2 h

theorem formatParameter_ne_nil
    (p : Bytes × Bytes) :
  formatParameter p ≠ []
  := List.append_ne_nil_of_right_ne_nil _ (List.cons_ne_nil _ _)

theorem lf_notMem_format
    (p : Bytes × Bytes) :
  lf ∉ formatParameter (encodeParameter p)
  := by
  intro h
  rcases List.mem_append.mp h with h | h
  · exact lf_notMem_encode p.1 h
  · rcases List.mem_cons.mp h with h | h
    · cases h
    · exact lf_notMem_encode p.2 h

/-! ### The normal form -/

/-- The parameters of a query that the canonical query keeps. -/
def keptPairs (rawQuery : Bytes) (mode : CanonicalQueryMode) : List (Bytes × Bytes) :=
  (decodedPairs rawQuery).filter mode.keeps

/-- The parameters of the canonical query, in order. -/
def canonicalPairs (rawQuery : Bytes) (mode : CanonicalQueryMode) : List (Bytes × Bytes) :=
  Text.sortBy parameterKey ((keptPairs rawQuery mode).map encodeParameter)

/-- The canonical form of a query, which always exists. -/
def canonicalQuery (rawQuery : Bytes) (mode : CanonicalQueryMode) : Bytes :=
  Text.joinFields amp ((canonicalPairs rawQuery mode).map formatParameter)

theorem canonicalizeQuery_eq
    (rawQuery : Bytes) (mode : CanonicalQueryMode) (requestId : Bytes) :
  canonicalizeQuery rawQuery mode requestId = .ok (canonicalQuery rawQuery mode)
  := by
  rw [canonicalizeQuery]
  split
  next h =>
    subst h
    rw [canonicalQuery, canonicalPairs, keptPairs, decodedPairs, Text.nonemptyFields_nil]
    simp [Text.joinFields]
  next => rfl

@[simp]
theorem keptPairs_includeAll
    (rawQuery : Bytes) :
  keptPairs rawQuery .includeAll = decodedPairs rawQuery
  := List.filter_eq_self.mpr fun _ _ => rfl

theorem exists_of_mem_canonicalPairs
    {rawQuery : Bytes} {mode : CanonicalQueryMode} {p : Bytes × Bytes}
    (h : p ∈ canonicalPairs rawQuery mode) :
  ∃ q, p = encodeParameter q
  := by
  obtain ⟨q, -, rfl⟩ := List.mem_map.mp ((Text.sortBy_perm _).mem_iff.mp h)
  exact ⟨q, rfl⟩

/-- The parameters are read back from the canonical query. -/
theorem nonemptyFields_canonicalQuery
    (rawQuery : Bytes) (mode : CanonicalQueryMode) :
  Text.nonemptyFields amp (canonicalQuery rawQuery mode)
    = (canonicalPairs rawQuery mode).map formatParameter
  := by
  rw [canonicalQuery, Text.nonemptyFields_joinFields]
  · rw [List.filter_eq_self]
    intro field hf
    obtain ⟨p, -, rfl⟩ := List.mem_map.mp hf
    exact decide_eq_true (formatParameter_ne_nil p)
  · intro field hf
    obtain ⟨p, hp, rfl⟩ := List.mem_map.mp hf
    obtain ⟨q, rfl⟩ := exists_of_mem_canonicalPairs hp
    exact amp_notMem_format q

/-- The parameters of the canonical query are those that were kept, in another order. -/
theorem decodedPairs_canonicalQuery
    (rawQuery : Bytes) (mode : CanonicalQueryMode) :
  (decodedPairs (canonicalQuery rawQuery mode)).Perm (keptPairs rawQuery mode)
  := by
  rw [decodedPairs, nonemptyFields_canonicalQuery, List.map_map, canonicalPairs]
  have hperm := (@Text.sortBy_perm _ _ _ parameterKey
    ((keptPairs rawQuery mode).map encodeParameter)).map (decodeParameter ∘ formatParameter)
  have hid : (decodeParameter ∘ formatParameter) ∘ encodeParameter = id :=
    funext decodeParameter_format
  rw [List.map_map, hid, List.map_id] at hperm
  exact hperm

/-- The canonical query is a complete invariant of the parameters that are kept. -/
theorem canonicalQuery_eq_iff
    {q₁ q₂ : Bytes} {m₁ m₂ : CanonicalQueryMode} :
  canonicalQuery q₁ m₁ = canonicalQuery q₂ m₂ ↔ (keptPairs q₁ m₁).Perm (keptPairs q₂ m₂)
  := by
  constructor
  · intro h
    have hperm := decodedPairs_canonicalQuery q₁ m₁
    rw [h] at hperm
    exact hperm.symm.trans (decodedPairs_canonicalQuery q₂ m₂)
  · intro h
    have hpairs : canonicalPairs q₁ m₁ = canonicalPairs q₂ m₂ :=
      (Text.sortBy_eq_sortBy_iff parameterKey_injective).mpr (h.map encodeParameter)
    rw [canonicalQuery, canonicalQuery, hpairs]

/-- The canonical query is a line. -/
theorem lf_notMem_canonicalQuery
    (rawQuery : Bytes) (mode : CanonicalQueryMode) :
  lf ∉ canonicalQuery rawQuery mode
  := by
  apply Text.notMem_joinFields (by decide)
  intro field hf
  obtain ⟨p, hp, rfl⟩ := List.mem_map.mp hf
  obtain ⟨q, rfl⟩ := exists_of_mem_canonicalPairs hp
  exact lf_notMem_format q

/-! ### The query without a signature -/

/-- The query without the parameters whose name is that of a signature. -/
def withoutSignature (rawQuery : Bytes) : Bytes :=
  Text.joinFields amp ((rawQuery.splitOn amp).filter fun chunk =>
    (decodeParameter chunk).1 ≠ ascii "X-Amz-Signature")

theorem decodedPairs_withoutSignature
    (rawQuery : Bytes) :
  decodedPairs (withoutSignature rawQuery) = keptPairs rawQuery .excludePresignedSignature
  := by
  have hsep : ∀ field ∈ (rawQuery.splitOn amp).filter fun chunk =>
      (decodeParameter chunk).1 ≠ ascii "X-Amz-Signature", amp ∉ field :=
    fun field hf => Text.notMem_of_mem_splitOn (List.mem_of_mem_filter hf)
  rw [decodedPairs, withoutSignature, Text.nonemptyFields_joinFields hsep, keptPairs,
    decodedPairs, Text.nonemptyFields, List.filter_map, List.filter_filter, List.filter_filter]
  congr 1
  apply List.filter_congr
  intro chunk _
  simp [CanonicalQueryMode.keeps, Function.comp_apply, Bool.and_comm]

/-- The canonical query is a complete invariant of the parameters of the query. It is its own
canonical form, and without signature it is that of the query from which the parameters with the
name of a signature were removed. -/
theorem canonicalizeQuery_normal_form
    (q₁ q₂ requestId : Bytes) (mode : CanonicalQueryMode) :
  (canonicalizeQuery q₁ .includeAll requestId = canonicalizeQuery q₂ .includeAll requestId ↔
      (decodedPairs q₁ : Multiset (Bytes × Bytes)) = decodedPairs q₂) ∧
    (canonicalizeQuery q₁ mode requestId >>= fun q => canonicalizeQuery q mode requestId)
      = canonicalizeQuery q₁ mode requestId ∧
    canonicalizeQuery q₁ .excludePresignedSignature requestId
      = canonicalizeQuery (withoutSignature q₁) .includeAll requestId
  := by
  refine ⟨?_, ?_, ?_⟩
  · rw [canonicalizeQuery_eq, canonicalizeQuery_eq, Except.ok.injEq, canonicalQuery_eq_iff,
      keptPairs_includeAll, keptPairs_includeAll, Multiset.coe_eq_coe]
  · rw [canonicalizeQuery_eq]
    change canonicalizeQuery _ mode requestId = _
    rw [canonicalizeQuery_eq, Except.ok.injEq, canonicalQuery_eq_iff]
    have hkept := (decodedPairs_canonicalQuery q₁ mode).filter mode.keeps
    rw [keptPairs, List.filter_filter] at hkept
    simpa [keptPairs] using hkept
  · rw [canonicalizeQuery_eq, canonicalizeQuery_eq, Except.ok.injEq, canonicalQuery_eq_iff,
      keptPairs_includeAll, decodedPairs_withoutSignature]

end TinyS3Proxy
