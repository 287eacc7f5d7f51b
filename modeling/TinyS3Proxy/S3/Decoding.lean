import TinyS3Proxy.S3.Reading

/-!
# What the decoder accepts

The decoder accepts a body if and only if it is well formed, up to what the decoder takes for the
size of a chunk, and its signatures form a chain that the policy accepts. Both directions are
proved together with what the decoder then returns and writes: a turn of the loop takes one chunk
off the front of the body, and a run of the loop takes all of them and the ending.
-/

namespace TinyS3Proxy

open Text (Bytes Reader ascii lf crlf)
open Effect

/-! ### Chains of signatures -/

section Chains

variable {K : Type} (c : Crypto K)

/-- The policy accepts the signature of a chunk with the given hash, and goes on as `d'`. Where
the chunks are not signed there is nothing to accept. -/
def Advances (signed : Bool) (d : ChunkSignaturePolicy K) (hashHex signature : Bytes)
    (d' : ChunkSignaturePolicy K) : Prop :=
  if signed then d.verifyChunk c hashHex signature 0 = .ok d' else d' = d

/-- The policy accepts the signatures of a list of chunks, one after the other. -/
def Follows (signed : Bool) : ChunkSignaturePolicy K → List Chunk → ChunkSignaturePolicy K → Prop
  | d, [], d' => d' = d
  | d, ch :: chunks, d' =>
      ∃ d₁, Advances c signed d (Text.hexEncode (c.sha256 ch.data)) ch.signature d₁ ∧
        Follows signed d₁ chunks d'

/-- The checksum that a mode and a trailer line declare. -/
def declaredChecksum (mode : DecoderMode) (t : Option TrailerLine) : Option ChecksumHeader :=
  match mode.trailerInfo, t with
  | some (_, a, _), some t => some ⟨a, a.headerName, Text.trim t.value⟩
  | _, _ => none

/-- The policy accepts the signature of the trailer, in the mode that has one. -/
def AcceptsTrailer (d : ChunkSignaturePolicy K) (mode : DecoderMode)
    (t u : Option TrailerLine) : Prop :=
  ∀ header ∈ declaredChecksum mode t, ∀ line ∈ u,
    d.verifyTrailer c (AwsChunkedDecoder.canonicalTrailer header) (Text.trim line.value) = .ok ()

/-- The policy accepts the signatures of a body. -/
def AcceptsSignatures (d : ChunkSignaturePolicy K) (mode : DecoderMode) (F : Frames) : Prop :=
  ∃ d₁ d₂, Follows c mode.expectsChunkSignature d F.chunks d₁ ∧
    Advances c mode.expectsChunkSignature d₁ emptySha256Hex F.zeroSignature d₂ ∧
    AcceptsTrailer c d₂ mode F.trailer F.trailerSignature

variable {c}

/-- The place of a chunk matters only to the error for a signature that is not accepted. -/
theorem verifyChunk_eq_ok
    {d d' : ChunkSignaturePolicy K} {hashHex signature : Bytes} (i j : UInt64)
    (h : d.verifyChunk c hashHex signature i = .ok d') :
  d.verifyChunk c hashHex signature j = .ok d'
  := by
  cases d with
  | shapeOnly => exact h
  | verifyHmac ctx =>
      rw [ChunkSignaturePolicy.verifyChunk, verifyHmacChunk] at h ⊢
      rcases hv : ctx.verifyPayloadChunk c hashHex signature with (_ | _ | _) | _
      all_goals
        rw [hv] at h
        first
        | exact h
        | cases h
  | verifyEcdsa ctx =>
      rw [ChunkSignaturePolicy.verifyChunk, verifyEcdsaChunk] at h ⊢
      rcases hv : ctx.verifyPayloadChunk c hashHex signature with (_ | _ | _) | _
      all_goals
        rw [hv] at h
        first
        | exact h
        | cases h

end Chains

namespace AwsChunkedDecoder

variable {K : Type} {c : Crypto K} {s s' : AwsChunkedDecoder K}

/-! ### Payload -/

/-- The decoder after it has copied payload. -/
def copied (s : AwsChunkedDecoder K) (r : Reader) (w : Sink) (data : Bytes) :
    AwsChunkedDecoder K :=
  { s with
    inner := r
    hasher := s.hasher ++ data
    algoHasher := s.algoHasher.map (· ++ data)
    writer := w }

theorem copied_copied
    (r r' : Reader) (w w' : Sink) (data data' : Bytes) :
  (s.copied r w data).copied r' w' data' = s.copied r' w' (data ++ data')
  := by
  simp [copied, Function.comp_def]

theorem returns_toWriter
    {part : Bytes} {u : Unit} :
  Returns (toWriter part) s u s' ↔
    ∃ w, s.writer.writeAll part = (.ok (), w) ∧ s' = { s with writer := w }
  := by
  rw [toWriter, returns_attempt, Prod.mk.injEq]
  constructor
  · rintro ⟨h, rfl⟩
    exact ⟨_, Prod.ext h rfl, rfl⟩
  · rintro ⟨w, h, rfl⟩
    rw [h]
    exact ⟨rfl, rfl⟩

theorem written_of_writeAll
    {part : Bytes} {w w' : Sink} (h : w.writeAll part = (.ok (), w')) :
  w'.written = w.written ++ part
  := by
  rw [Sink.writeAll] at h
  split at h
  next =>
    obtain ⟨-, rfl⟩ := Prod.mk.inj h
    rfl
  next =>
    split at h
    next =>
      obtain ⟨-, rfl⟩ := Prod.mk.inj h
      rfl
    next => cases (Prod.mk.inj h).1

/-- One read of a payload. -/
theorem returns_copyRemaining
    {fuel : ℕ} {remaining : UInt64} {chunkHasher out : Bytes} (hne : remaining ≠ 0) :
  Returns (copyRemaining (fuel + 1) remaining chunkHasher) s out s' ↔
    ∃ part r w, s.inner.read (min remaining copyBuffer).toNat = (.ok part, r) ∧ part ≠ [] ∧
      s.writer.writeAll part = (.ok (), w) ∧
      Returns (copyRemaining fuel (remaining - UInt64.ofNat part.length) (chunkHasher ++ part))
        { s.copied r w part with wrapped := s.wrapped || decide (remaining.toNat < part.length) }
        out s'
  := by
  rw [copyRemaining, if_neg hne]
  simp only [returns_bind, returns_fromInner, returns_require, returns_modify, returns_toWriter,
    note, decide_eq_true_eq]
  constructor
  · rintro ⟨part, s₁, ⟨r, hr, rfl⟩, u₁, s₂, ⟨hpart, rfl⟩, u₂, s₃, rfl, u₃, s₄, ⟨w, hw, rfl⟩, u₄, s₅,
      rfl, hrest⟩
    exact ⟨part, r, w, hr, hpart, hw, hrest⟩
  · rintro ⟨part, r, w, hr, hpart, hw, hrest⟩
    exact ⟨part, _, ⟨r, hr, rfl⟩, (), _, ⟨hpart, rfl⟩, (), _, rfl, (), _, ⟨w, hw, rfl⟩, (), _, rfl,
      hrest⟩

/-- One read of a payload, however it ends. -/
theorem exec_copyRemaining
    {fuel : ℕ} {remaining : UInt64} {chunkHasher : Bytes} (hne : remaining ≠ 0) :
  exec (copyRemaining (fuel + 1) remaining chunkHasher) s
    = match s.inner.read (min remaining copyBuffer).toNat with
      | (.error _, r) => (.error .inboundIo, { s with inner := r })
      | (.ok part, r) =>
          if part = [] then (.error .truncated, { s with inner := r })
          else
            match s.writer.writeAll part with
            | (.error _, w) => (.error .spoolIo, s.copied r w part)
            | (.ok _, w) =>
                exec
                  (copyRemaining fuel (remaining - UInt64.ofNat part.length) (chunkHasher ++ part))
                  { s.copied r w part with
                    wrapped := s.wrapped || decide (remaining.toNat < part.length) }
  := by
  rw [copyRemaining, if_neg hne]
  rcases hr : s.inner.read (min remaining copyBuffer).toNat with ⟨_ | part, r⟩
  · simp [fromInner, hr]
  · by_cases hpart : part = []
    · simp [fromInner, hr, hpart]
    · rcases hw : s.writer.writeAll part with ⟨_ | _, w⟩
      · simp [fromInner, toWriter, hr, hpart, hw, copied]
      · simp [fromInner, toWriter, note, hr, hpart, hw, copied]

/-- A read asks for at least one byte, and for no more than remain. -/
theorem want_bounds
    {remaining : UInt64} (hne : remaining ≠ 0) :
  0 < (min remaining copyBuffer).toNat ∧ (min remaining copyBuffer).toNat ≤ remaining.toNat
  := by
  have hpos : 0 < remaining.toNat := UInt64.lt_iff_toNat_lt.mp (UInt64.pos_iff_ne_zero.mpr hne)
  rw [UInt64.toNat_min]
  have hbuf : copyBuffer.toNat = 16384 := rfl
  omega

theorem toNat_remaining
    {remaining : UInt64} {part : Bytes} (h : part.length ≤ remaining.toNat) :
  (remaining - UInt64.ofNat part.length).toNat = remaining.toNat - part.length
  := by
  have hlt : part.length < 2 ^ 64 := lt_of_le_of_lt h remaining.toNat_lt
  have hpart : (UInt64.ofNat part.length).toNat = part.length := UInt64.toNat_ofNat_of_lt' hlt
  rw [UInt64.toNat_sub_of_le _ _ (UInt64.le_iff_toNat_le.mpr (by omega)), hpart]

/-- Copying moves the bytes of a payload from the body to the file. -/
theorem copied_of_copyRemaining
    {fuel : ℕ} {remaining : UInt64} {chunkHasher out : Bytes} (hf : remaining.toNat ≤ fuel)
    (h : Returns (copyRemaining fuel remaining chunkHasher) s out s') :
  ∃ data r w, out = chunkHasher ++ data ∧ data.length = remaining.toNat ∧
    s.inner.bytes = data ++ r.bytes ∧ r.failing = s.inner.failing ∧
    w.written = s.writer.written ++ data ∧ s' = s.copied r w data
  := by
  induction fuel generalizing s remaining chunkHasher with
  | zero =>
      obtain ⟨rfl, rfl⟩ := returns_pure.mp h
      use [], s'.inner, s'.writer
      simp [copied, Nat.le_zero.mp hf]
  | succ fuel ih =>
      by_cases hne : remaining = 0
      · rw [copyRemaining, if_pos hne] at h
        obtain ⟨rfl, rfl⟩ := returns_pure.mp h
        use [], s'.inner, s'.writer
        simp [copied, hne]
      · obtain ⟨part, r, w, hr, hpart, hw, hrest⟩ := (returns_copyRemaining hne).mp h
        obtain ⟨hpos, hle⟩ := want_bounds hne
        obtain ⟨hbytes, hlen, hfail⟩ := Reader.bytes_of_read hr
        have hsub := toNat_remaining (hlen.trans hle)
        have hplen : 0 < part.length := List.length_pos_of_ne_nil hpart
        have hwrap : (s.wrapped || decide (remaining.toNat < part.length)) = s.wrapped := by
          rw [decide_eq_false (by omega), Bool.or_false]
        rw [hwrap] at hrest
        change Returns _ (s.copied r w part) out s' at hrest
        obtain ⟨data, r', w', rfl, hdlen, hdbytes, hdfail, hdw, rfl⟩ := ih (by omega) hrest
        use part ++ data, r', w'
        refine ⟨List.append_assoc .., ?_, ?_, hdfail.trans hfail, ?_,
          copied_copied r r' w w' part data⟩
        · rw [List.length_append]
          omega
        · rw [hbytes, List.append_assoc]
          exact congrArg (part ++ ·) hdbytes
        · rw [hdw]
          exact (congrArg (· ++ data) (written_of_writeAll hw)).trans (List.append_assoc ..)

/-- A payload that is there is copied, if the file can be written to. -/
theorem exists_copyRemaining
    {fuel : ℕ} {remaining : UInt64} {chunkHasher data tail : Bytes}
    (hf : remaining.toNat ≤ fuel) (hlen : data.length = remaining.toNat)
    (hbytes : s.inner.bytes = data ++ tail) (hroom : s.writer.room = none) :
  ∃ r, Returns (copyRemaining fuel remaining chunkHasher) s (chunkHasher ++ data)
      (s.copied r ⟨s.writer.written ++ data, none⟩ data) ∧
    r.bytes = tail ∧ r.failing = s.inner.failing
  := by
  have hnil : ∀ {t : AwsChunkedDecoder K}, t.writer.room = none →
      t = t.copied t.inner ⟨t.writer.written ++ [], none⟩ [] := by
    rintro ⟨_, _, _, _, _, _, _, _, _, ⟨written, room⟩, _⟩ hroom
    obtain rfl : room = none := hroom
    simp [copied]
  induction fuel generalizing s remaining chunkHasher data with
  | zero =>
      obtain rfl : data = [] := List.length_eq_zero_iff.mp (by omega)
      use s.inner
      rw [← hnil hroom, List.append_nil]
      exact ⟨returns_pure.mpr ⟨rfl, rfl⟩, hbytes, rfl⟩
  | succ fuel ih =>
      by_cases hne : remaining = 0
      · obtain rfl : data = [] := List.length_eq_zero_iff.mp (by rw [hlen, hne]; rfl)
        use s.inner
        rw [← hnil hroom, List.append_nil, copyRemaining, if_pos hne]
        exact ⟨returns_pure.mpr ⟨rfl, rfl⟩, hbytes, rfl⟩
      · obtain ⟨hpos, hle⟩ := want_bounds hne
        have hsome : s.inner.bytes ≠ [] := by
          intro h
          rw [hbytes, List.append_eq_nil_iff] at h
          rw [h.1, List.length_nil] at hlen
          omega
        obtain ⟨b, part, r, hr⟩ := Reader.exists_read hpos hsome
        obtain ⟨hrbytes, hplen, hfail⟩ := Reader.bytes_of_read hr
        have hple : (b :: part).length ≤ data.length := by omega
        -- What was read is the front of the payload.
        obtain ⟨rest, rfl⟩ : ∃ rest, data = b :: part ++ rest := by
          have hpre : (b :: part) <+: data := by
            apply List.prefix_of_prefix_length_le _ (List.prefix_append data tail) hple
            rw [← hbytes, hrbytes]
            exact List.prefix_append _ _
          obtain ⟨rest, hrest⟩ := hpre
          exact ⟨rest, hrest.symm⟩
        rw [hrbytes, List.append_assoc, List.append_cancel_left_eq] at hbytes
        rw [List.length_append] at hlen
        have hsub := toNat_remaining (hplen.trans hle)
        have hw : s.writer.writeAll (b :: part)
            = (.ok (), ⟨s.writer.written ++ b :: part, none⟩) := by
          rw [Sink.writeAll, hroom]
        have hwrap : (s.wrapped || decide (remaining.toNat < (b :: part).length)) = s.wrapped := by
          rw [decide_eq_false (by omega), Bool.or_false]
        have hcons : 0 < (b :: part).length := Nat.succ_pos _
        obtain ⟨r', hrun, hr', hfail'⟩ := @ih (s.copied r ⟨s.writer.written ++ b :: part, none⟩ (b :: part))
          (remaining - UInt64.ofNat (b :: part).length) (chunkHasher ++ b :: part) rest
          (by omega) (by omega) hbytes rfl
        use r'
        refine ⟨?_, hr', hfail'.trans hfail⟩
        rw [copied_copied] at hrun
        apply (returns_copyRemaining hne).mpr
        use b :: part, r, ⟨s.writer.written ++ b :: part, none⟩
        refine ⟨hr, List.cons_ne_nil _ _, hw, ?_⟩
        rw [hwrap]
        simpa [copied] using hrun

/-! ### Chunks -/

theorem returns_verifyChunk
    {hashHex signature : Bytes} {u : Unit} :
  Returns (verifyChunk c hashHex signature) s u s' ↔
    ∃ d, s.signaturePolicy.verifyChunk c hashHex signature 0 = .ok d ∧
      s' = { s with signaturePolicy := d }
  := by
  simp only [verifyChunk, returns_bind, returns_reads, returns_outcome, returns_modify]
  constructor
  · rintro ⟨d₀, s₁, ⟨rfl, rfl⟩, i, s₂, ⟨rfl, rfl⟩, d, s₃, ⟨hd, rfl⟩, rfl⟩
    exact ⟨d, verifyChunk_eq_ok _ 0 hd, rfl⟩
  · rintro ⟨d, hd, rfl⟩
    exact ⟨_, _, ⟨rfl, rfl⟩, _, _, ⟨rfl, rfl⟩, d, _, ⟨verifyChunk_eq_ok 0 _ hd, rfl⟩, rfl⟩

/-- The signature of a chunk is verified in the modes that have one. -/
theorem returns_verifyIfSigned
    {hashHex signature : Bytes} {u : Unit} :
  Returns (verifyIfSigned c hashHex (s.mode.signedChunkAlgorithm.map fun _ => signature)) s u s' ↔
    ∃ d, Advances c s.mode.expectsChunkSignature s.signaturePolicy hashHex signature d ∧
      s' = { s with signaturePolicy := d }
  := by
  simp only [verifyIfSigned, returns_bind, returns_reads]
  have hsigned : s.mode.expectsChunkSignature = s.mode.signedChunkAlgorithm.isSome := by
    cases s.mode with
    | nonTrailer a => rfl
    | unsignedTrailer name a => rfl
    | signedTrailer name a b => rfl
  rw [hsigned]
  cases ha : s.mode.signedChunkAlgorithm with
  | none =>
      simp only [ha, Option.isSome_none] at hsigned
      constructor
      · rintro ⟨m, s₁, ⟨rfl, rfl⟩, h⟩
        rw [hsigned] at h
        obtain ⟨-, rfl⟩ := returns_pure.mp h
        exact ⟨_, rfl, rfl⟩
      · rintro ⟨d, rfl, rfl⟩
        refine ⟨_, s, ⟨rfl, rfl⟩, ?_⟩
        rw [hsigned]
        exact returns_pure.mpr ⟨rfl, rfl⟩
  | some a =>
      simp only [ha, Option.isSome_some] at hsigned
      constructor
      · rintro ⟨m, s₁, ⟨rfl, rfl⟩, h⟩
        rw [hsigned, if_pos rfl, returns_bind] at h
        obtain ⟨sig, s₂, hdem, hv⟩ := h
        obtain ⟨hsome, rfl⟩ := returns_demand.mp hdem
        obtain rfl := Option.some.inj hsome
        exact returns_verifyChunk.mp hv
      · intro h
        refine ⟨_, s, ⟨rfl, rfl⟩, ?_⟩
        rw [hsigned, if_pos rfl, returns_bind]
        exact ⟨signature, s, returns_demand.mpr ⟨rfl, rfl⟩, returns_verifyChunk.mpr h⟩

theorem returns_checkPreviousChunk
    {u : Unit} :
  Returns checkPreviousChunk s u s' ↔
    (∀ size ∈ s.previousDataChunkSize, 8192 ≤ size.toNat) ∧ s' = s
  := by
  have hmin : minNonFinalChunkBytes.toNat = 8192 := rfl
  simp only [checkPreviousChunk, returns_bind, returns_reads]
  constructor
  · rintro ⟨prev, s₁, ⟨rfl, rfl⟩, h⟩
    cases hprev : s₁.previousDataChunkSize with
    | none =>
        rw [hprev] at h
        obtain ⟨-, rfl⟩ := returns_pure.mp h
        exact ⟨nofun, rfl⟩
    | some size =>
        rw [hprev] at h
        simp only at h
        split at h
        next =>
          obtain ⟨i, s₂, -, h⟩ := returns_bind.mp h
          obtain ⟨u', s₃, -, h⟩ := returns_bind.mp h
          exact absurd h not_returns_throw
        next hlarge =>
          obtain ⟨-, rfl⟩ := returns_pure.mp h
          refine ⟨?_, rfl⟩
          intro size' hsize'
          obtain rfl := Option.some.inj hsize'
          rw [UInt64.lt_iff_toNat_lt, hmin] at hlarge
          omega
  · rintro ⟨hlarge, rfl⟩
    refine ⟨_, s', ⟨rfl, rfl⟩, ?_⟩
    cases hprev : s'.previousDataChunkSize with
    | none => exact returns_pure.mpr ⟨rfl, rfl⟩
    | some size =>
        have hle := hlarge size hprev
        simp only
        rw [if_neg (by rw [UInt64.lt_iff_toNat_lt, hmin]; omega)]
        exact returns_pure.mpr ⟨rfl, rfl⟩

/-- The decoder after a turn of the loop that took a chunk with data. -/
def turned (s : AwsChunkedDecoder K) (r : Reader) (w : Sink) (data : Bytes) (size : UInt64)
    (d : ChunkSignaturePolicy K) : AwsChunkedDecoder K :=
  { s.copied r w data with
    decodedLen := s.decodedLen + size
    chunkIndex := s.chunkIndex + 1
    previousDataChunkSize := some size
    signaturePolicy := d
    wrapped :=
      s.wrapped || decide (2 ^ 64 ≤ s.decodedLen.toNat + size.toNat) ||
        decide (2 ^ 64 ≤ s.chunkIndex.toNat + 1) }

theorem turned_of_decodeData
    {size : UInt64} {signature : Bytes} {u : Unit}
    (h : Returns
      (decodeData c ⟨size, s.mode.signedChunkAlgorithm.map fun _ => signature⟩) s u s') :
  ∃ data r w d, data.length = size.toNat ∧ s.inner.bytes = data ++ (crlf ++ r.bytes) ∧
    r.failing = s.inner.failing ∧ w.written = s.writer.written ++ data ∧
    (∀ p ∈ s.previousDataChunkSize, 8192 ≤ p.toNat) ∧
    (saturatingAdd s.decodedLen size).toNat ≤ s.declaredDecodedLen.toNat ∧
    Advances c s.mode.expectsChunkSignature s.signaturePolicy
      (Text.hexEncode (c.sha256 data)) signature d ∧
    s' = s.turned r w data size d
  := by
  simp only [decodeData, copyChunkPayload, returns_bind, returns_reads, returns_pure,
    returns_require, returns_modify, note, returns_checkPreviousChunk] at h
  obtain ⟨u₀, s₀, ⟨hprev, rfl⟩, declared, s₁, ⟨rfl, rfl⟩, decoded, s₂, ⟨rfl, rfl⟩, u₃, s₃, ⟨hle, rfl⟩,
    sha, s₄, ⟨hasher, s₅, hcopy, rfl, rfl⟩, u₆, s₆, hver, u₇, s₇, hcrlf, u₈, s₈, rfl, u₉, s₉, rfl,
    i, s₁₀, ⟨rfl, rfl⟩, u₁₁, s₁₁, rfl, rfl⟩ := h
  obtain ⟨data, r, w, hout, hlen, hbytes, hfail, hw, rfl⟩ := copied_of_copyRemaining le_rfl hcopy
  obtain rfl : hasher = data := hout
  obtain ⟨d, had, rfl⟩ := returns_verifyIfSigned.mp hver
  obtain ⟨front, r', rfl, hbytes', hfail', rfl⟩ := recognises_expectCrlf.sound hcrlf
  have hrest : r.bytes = crlf ++ r'.bytes := hbytes'
  refine ⟨hasher, r', w, d, hlen, ?_, hfail'.trans hfail, hw, hprev, ?_, had, rfl⟩
  · rw [hbytes, hrest]
  · exact UInt64.le_iff_toNat_le.mp (of_decide_eq_true hle)

theorem exists_decodeData
    {size : UInt64} {signature data tail : Bytes} {d : ChunkSignaturePolicy K}
    (hlen : data.length = size.toNat) (hbytes : s.inner.bytes = data ++ (crlf ++ tail))
    (hroom : s.writer.room = none) (hprev : ∀ p ∈ s.previousDataChunkSize, 8192 ≤ p.toNat)
    (hle : (saturatingAdd s.decodedLen size).toNat ≤ s.declaredDecodedLen.toNat)
    (had : Advances c s.mode.expectsChunkSignature s.signaturePolicy
      (Text.hexEncode (c.sha256 data)) signature d) :
  ∃ r, Returns
      (decodeData c ⟨size, s.mode.signedChunkAlgorithm.map fun _ => signature⟩) s ()
      (s.turned r ⟨s.writer.written ++ data, none⟩ data size d) ∧
    r.bytes = tail ∧ r.failing = s.inner.failing
  := by
  obtain ⟨r, hcopy, hr, hfail⟩ :=
    @exists_copyRemaining K s size.toNat size [] data (crlf ++ tail) le_rfl hlen hbytes hroom
  have hver : Returns (verifyIfSigned c (Text.hexEncode (c.sha256 data))
      (s.mode.signedChunkAlgorithm.map fun _ => signature))
      (s.copied r ⟨s.writer.written ++ data, none⟩ data) ()
      { s.copied r ⟨s.writer.written ++ data, none⟩ data with signaturePolicy := d } :=
    (returns_verifyIfSigned
      (s := s.copied r ⟨s.writer.written ++ data, none⟩ data)).mpr ⟨d, had, rfl⟩
  obtain ⟨r', hcrlf, hr', hfail'⟩ := recognises_expectCrlf.complete
    (s := { s.copied r ⟨s.writer.written ++ data, none⟩ data with signaturePolicy := d })
    (a := ()) hr rfl
  use r'
  refine ⟨?_, hr', hfail'.trans hfail⟩
  simp only [decodeData, copyChunkPayload, returns_bind, returns_reads, returns_pure,
    returns_require, returns_modify, note, returns_checkPreviousChunk]
  exact ⟨(), s, ⟨hprev, rfl⟩, _, s, ⟨rfl, rfl⟩, _, s, ⟨rfl, rfl⟩, (), s,
    ⟨decide_eq_true (UInt64.le_iff_toNat_le.mpr hle), rfl⟩, _, _, ⟨_, _, hcopy, rfl, rfl⟩, (), _,
    hver, (), _, hcrlf, (), _, rfl, (), _, rfl, _, _, ⟨rfl, rfl⟩, (), _, rfl, rfl⟩

/-! ### Endings -/

/-- The empty line that ends a body. -/
theorem end_of_returns
    {α : Type} {x y : α}
    (h : Returns (do expectCrlf; expectEof; pure x : Dec K α) s y s') :
  y = x ∧ s.inner.bytes = crlf ∧ s.inner.failing = false ∧ ∃ r, s' = { s with inner := r }
  := by
  simp only [returns_bind, returns_pure] at h
  obtain ⟨u, s₁, hcrlf, u', s₂, heof, rfl, rfl⟩ := h
  obtain ⟨front, r, rfl, hbytes, hfail, rfl⟩ := recognises_expectCrlf.sound hcrlf
  obtain ⟨hnil, hend⟩ := returns_expectEof.mp ⟨s', heof⟩
  obtain ⟨r', rfl⟩ := inner_of_expectEof heof
  have hr : r.bytes = [] := hnil
  rw [hr, List.append_nil] at hbytes
  exact ⟨rfl, hbytes, hfail.symm.trans hend, r', rfl⟩

theorem exists_end
    {α : Type} (x : α) (hbytes : s.inner.bytes = crlf) (hfail : s.inner.failing = false) :
  ∃ r, Returns (do expectCrlf; expectEof; pure x : Dec K α) s x { s with inner := r }
  := by
  obtain ⟨r, hcrlf, hr, hf⟩ := recognises_expectCrlf.complete (s := s) (a := ())
    (hbytes.trans (List.append_nil crlf).symm) rfl
  obtain ⟨s₂, heof⟩ := (returns_expectEof (s := { s with inner := r })).mpr ⟨hr, hf.trans hfail⟩
  obtain ⟨r', rfl⟩ := inner_of_expectEof heof
  use r'
  exact returns_bind.mpr ⟨(), _, hcrlf, returns_bind.mpr ⟨(), _, heof, returns_pure.mpr ⟨rfl, rfl⟩⟩⟩

/-- The ending is that of the mode, but for the checksum that the trailer declares. -/
theorem ending_of_readTrailer
    {mode : DecoderMode} {header : Option ChecksumHeader} (hmode : s.mode = mode)
    (h : Returns (readTrailer c) s header s') :
  ∃ t u r, s.inner.bytes = endingBytes t u ∧ s.inner.failing = false ∧
    s' = { s with inner := r } ∧ header = declaredChecksum mode t ∧
    AcceptsTrailer c s.signaturePolicy mode t u ∧
    ∀ body, (∀ x ∈ declaredChecksum mode t,
      c.base64Decode x.value = .ok (bodyDigest c x.algorithm body)) → EndingOk c body mode t u
  := by
  obtain ⟨m, s₁, hm, h⟩ := returns_bind.mp h
  obtain ⟨rfl, rfl⟩ := returns_reads.mp hm
  cases mode with
  | nonTrailer a =>
      rw [hmode] at h
      obtain ⟨rfl, hbytes, hfail, r, rfl⟩ := end_of_returns h
      exact ⟨none, none, r, hbytes, hfail, rfl, rfl, nofun, fun _ _ => .nonTrailer⟩
  | unsignedTrailer name a =>
      rw [hmode] at h
      obtain ⟨x, s₂, hx, h⟩ := returns_bind.mp h
      obtain ⟨front, r, rfl, hbytes, hf, t, digest, rfl, hline, hname, hdec, hlen, rfl⟩ :=
        (recognises_readAndValidateTrailer c name a).sound hx
      obtain ⟨rfl, hend, hfail, r', rfl⟩ := end_of_returns h
      have hr : r.bytes = crlf := hend
      rw [hr] at hbytes
      refine ⟨some t, none, r', hbytes, hf.symm.trans hfail, rfl, rfl, ?_, ?_⟩
      · intro x hx line hl
        cases hl
      · intro body hbody
        have hsum := hbody _ rfl
        obtain rfl := Except.ok.inj (hdec.symm.trans hsum)
        exact .unsignedTrailer ⟨hline, hname, hsum, hlen⟩
  | signedTrailer name a b =>
      rw [hmode] at h
      obtain ⟨x, s₂, hx, h⟩ := returns_bind.mp h
      obtain ⟨u, s₃, hu, h⟩ := returns_bind.mp h
      obtain ⟨front, r, rfl, hbytes, hf, t, digest, rfl, hline, hname, hdec, hlen, rfl⟩ :=
        (recognises_readAndValidateTrailer c name a).sound hx
      obtain ⟨front', r', rfl, hbytes', hf', b', line, hb', rfl, hsig, hacc⟩ :=
        (recognises_verifyTrailerSignature c _).sound hu
      obtain ⟨rfl, hend, hfail, r'', rfl⟩ := end_of_returns h
      have hr : r.bytes = line.bytes ++ r'.bytes := hbytes'
      have hr' : r'.bytes = crlf := hend
      have hb : s₁.mode.signedChunkAlgorithm = some b' := hb'
      rw [hmode] at hb
      obtain rfl : b = b' := Option.some.inj hb
      rw [hr, hr'] at hbytes
      refine ⟨some t, some line, r'', hbytes, hf.symm.trans (hf'.symm.trans hfail), rfl, rfl, ?_, ?_⟩
      · intro x hx l hl
        obtain rfl := Option.some.inj hl
        obtain rfl := Option.some.inj hx
        exact hacc
      · intro body hbody
        have hsum := hbody _ rfl
        obtain rfl := Except.ok.inj (hdec.symm.trans hsum)
        exact .signedTrailer ⟨hline, hname, hsum, hlen⟩ hsig

/-- The ending of the mode is read. -/
theorem exists_readTrailer
    {mode : DecoderMode} {body : Bytes} {t u : Option TrailerLine} (hmode : s.mode = mode)
    (hok : EndingOk c body mode t u) (hbytes : s.inner.bytes = endingBytes t u)
    (hfail : s.inner.failing = false) (hacc : AcceptsTrailer c s.signaturePolicy mode t u) :
  ∃ r, Returns (readTrailer c) s (declaredChecksum mode t) { s with inner := r }
  := by
  rw [readTrailer]
  cases mode with
  | nonTrailer a =>
      cases hok
      obtain ⟨r, hr⟩ := exists_end (none : Option ChecksumHeader) hbytes hfail
      use r
      exact returns_bind.mpr ⟨_, s, returns_reads.mpr ⟨hmode.symm, rfl⟩, hr⟩
  | unsignedTrailer name a =>
      cases hok with
      | unsignedTrailer hok =>
          rename_i t
          obtain ⟨r, hread, hr, hf⟩ := (recognises_readAndValidateTrailer c name a).complete
            hbytes ⟨t, _, rfl, hok.line, hok.name, hok.checksum, hok.length, rfl⟩
          obtain ⟨r', hr'⟩ := exists_end (s := { s with inner := r })
            (some (⟨a, a.headerName, Text.trim t.value⟩ : ChecksumHeader)) hr (hf.trans hfail)
          use r'
          refine returns_bind.mpr ⟨_, s, returns_reads.mpr ⟨hmode.symm, rfl⟩, ?_⟩
          exact returns_bind.mpr ⟨_, _, hread, hr'⟩
  | signedTrailer name a b =>
      cases hok with
      | signedTrailer hok hsig =>
          rename_i t line
          obtain ⟨r, hread, hr, hf⟩ := (recognises_readAndValidateTrailer c name a).complete
            hbytes ⟨t, _, rfl, hok.line, hok.name, hok.checksum, hok.length, rfl⟩
          obtain ⟨r', hver, hr', hf'⟩ := (recognises_verifyTrailerSignature c
              ⟨a, a.headerName, Text.trim t.value⟩).complete (s := { s with inner := r }) (a := ())
            hr ⟨b, line, by rw [hmode]; rfl, rfl, hsig, hacc _ rfl _ rfl⟩
          obtain ⟨r'', hr''⟩ := exists_end (s := { s with inner := r' })
            (some (⟨a, a.headerName, Text.trim t.value⟩ : ChecksumHeader)) hr'
            (hf'.trans (hf.trans hfail))
          use r''
          refine returns_bind.mpr ⟨_, s, returns_reads.mpr ⟨hmode.symm, rfl⟩, ?_⟩
          exact returns_bind.mpr ⟨_, _, hread, returns_bind.mpr ⟨(), _, hver, hr''⟩⟩

/-- What the side hasher of a mode has been fed, if the mode has one. -/
def sideHasher (mode : DecoderMode) (fed : Bytes) : Option Bytes :=
  match mode.trailerInfo with
  | some (_, .sha256, _) => none
  | none => none
  | some (_, _, _) => some fed

/-- The side hasher has been fed the same bytes as the hasher. -/
def Fed (s : AwsChunkedDecoder K) : Prop := s.algoHasher = sideHasher s.mode s.hasher

theorem Fed.turned
    {r : Reader} {w : Sink} {data : Bytes} {size : UInt64} {d : ChunkSignaturePolicy K}
    (h : s.Fed) :
  (s.turned r w data size d).Fed
  := by
  have hfed : s.algoHasher = sideHasher s.mode s.hasher := h
  change s.algoHasher.map (· ++ data) = sideHasher s.mode (s.hasher ++ data)
  rw [hfed, sideHasher, sideHasher]
  split
  next => rfl
  next => rfl
  next => rfl

/-- The checksum that a trailer declares is compared with that of the body. -/
theorem returns_checkTrailer
    {mode : DecoderMode} {fed : Bytes} {algoHasher : Option Bytes} {t : Option TrailerLine}
    {header : ChecksumHeader} {u : Unit} (hfed : algoHasher = sideHasher mode fed)
    (hheader : header ∈ declaredChecksum mode t) :
  Returns (checkTrailer c (c.sha256 fed) algoHasher header) s u s' ↔
    c.base64Decode header.value = .ok (bodyDigest c header.algorithm fed) ∧ s' = s
  := by
  obtain ⟨a, name, value⟩ := header
  -- The side hasher is there for every algorithm but the one of the hasher.
  have hside : a = .sha256 ∨ a ≠ .sha256 ∧ sideHasher mode fed = some fed := by
    unfold declaredChecksum at hheader
    split at hheader
    next n a' signed t' hinfo =>
      obtain ⟨rfl, -, -⟩ := ChecksumHeader.mk.inj (Option.some.inj hheader)
      rw [sideHasher, hinfo]
      cases a' with
      | sha256 => exact Or.inl rfl
      | crc32 => exact Or.inr ⟨nofun, rfl⟩
      | crc32C => exact Or.inr ⟨nofun, rfl⟩
      | crc64Nvme => exact Or.inr ⟨nofun, rfl⟩
      | sha1 => exact Or.inr ⟨nofun, rfl⟩
    next => cases hheader
  have hcomputed : Returns
      (do let expected ← outcome ((c.base64Decode value).mapError fun e =>
            AwsChunkedError.invalidTrailerChecksum (ascii "base64 decode failed: " ++ e))
          require (bodyDigest c a fed = expected) (.trailerChecksumMismatch name) :
        Dec K Unit) s u s' ↔
      c.base64Decode value = .ok (bodyDigest c a fed) ∧ s' = s := by
    simp only [returns_bind, returns_outcome, mapError_eq_ok, returns_require]
    constructor
    · rintro ⟨expected, s₁, ⟨hdec, rfl⟩, heq, rfl⟩
      obtain rfl := of_decide_eq_true heq
      exact ⟨hdec, rfl⟩
    · rintro ⟨hdec, rfl⟩
      exact ⟨_, s', ⟨hdec, rfl⟩, decide_eq_true rfl, rfl⟩
  rw [← hcomputed, checkTrailer]
  obtain rfl | ⟨hne, hsome⟩ := hside
  · rfl
  · rw [hfed, hsome]
    cases a with
    | sha256 => exact absurd rfl hne
    | crc32 => rfl
    | crc32C => rfl
    | crc64Nvme => rfl
    | sha1 => rfl

theorem ending_of_finalize
    {signature : Bytes} {summary : DecodedSummary} (hfed : s.Fed)
    (h : Returns (finalize c (s.mode.signedChunkAlgorithm.map fun _ => signature)) s summary s') :
  ∃ t u r d, s.inner.bytes = endingBytes t u ∧ s.inner.failing = false ∧
    Advances c s.mode.expectsChunkSignature s.signaturePolicy emptySha256Hex signature d ∧
    AcceptsTrailer c d s.mode t u ∧ EndingOk c s.hasher s.mode t u ∧
    s.decodedLen = s.declaredDecodedLen ∧
    summary = ⟨s.decodedLen, c.sha256 s.hasher, Text.hexEncode (c.sha256 s.hasher),
      declaredChecksum s.mode t⟩ ∧
    s' = { s with inner := r, signaturePolicy := d }
  := by
  simp only [finalize, returns_bind, returns_reads, returns_require] at h
  obtain ⟨u₀, s₁, hver, algoHasher, s₂, ⟨rfl, rfl⟩, header, s₃, hread, decoded, s₄, ⟨rfl, rfl⟩, declared,
    s₅, ⟨rfl, rfl⟩, u₆, s₆, ⟨hlen, rfl⟩, hasher, s₇, ⟨rfl, rfl⟩, h⟩ := h
  obtain ⟨d, had, rfl⟩ := returns_verifyIfSigned.mp hver
  obtain ⟨t, u, r, hbytes, hfail, rfl, rfl, hacc, hending⟩ := ending_of_readTrailer rfl hread
  have hfed' : s.algoHasher = sideHasher s.mode s.hasher := hfed
  have hlen' := of_decide_eq_true hlen
  refine ⟨t, u, r, d, hbytes, hfail, had, hacc, ?_⟩
  cases hx : declaredChecksum s.mode t with
  | none =>
      simp only [hx] at h
      obtain ⟨rfl, rfl⟩ := returns_pure.mp h
      refine ⟨hending s.hasher ?_, hlen', rfl, rfl⟩
      intro x hmem
      have hmem' : x ∈ declaredChecksum s.mode t := hmem
      rw [hx] at hmem'
      cases hmem'
  | some x =>
      simp only [hx] at h
      obtain ⟨u₈, s₈, hcheck, h⟩ := returns_bind.mp h
      obtain ⟨rfl, rfl⟩ := returns_pure.mp h
      obtain ⟨hsum, rfl⟩ := (returns_checkTrailer hfed' (Option.mem_def.mpr hx)).mp hcheck
      refine ⟨hending s.hasher ?_, hlen', rfl, rfl⟩
      intro y hmem
      have hmem' : y ∈ declaredChecksum s.mode t := hmem
      rw [hx] at hmem'
      obtain rfl := Option.some.inj hmem'
      exact hsum

theorem checksum_of_endingOk
    {mode : DecoderMode} {body : Bytes} {t u : Option TrailerLine} {header : ChecksumHeader}
    (h : EndingOk c body mode t u) (hheader : header ∈ declaredChecksum mode t) :
  c.base64Decode header.value = .ok (bodyDigest c header.algorithm body)
  := by
  cases h with
  | nonTrailer => cases hheader
  | unsignedTrailer ht =>
      obtain rfl := Option.some.inj hheader
      exact ht.checksum
  | signedTrailer ht hu =>
      obtain rfl := Option.some.inj hheader
      exact ht.checksum

theorem exists_finalize
    {signature : Bytes} {t u : Option TrailerLine} {d : ChunkSignaturePolicy K} (hfed : s.Fed)
    (hbytes : s.inner.bytes = endingBytes t u) (hfail : s.inner.failing = false)
    (had : Advances c s.mode.expectsChunkSignature s.signaturePolicy emptySha256Hex signature d)
    (hacc : AcceptsTrailer c d s.mode t u) (hok : EndingOk c s.hasher s.mode t u)
    (hlen : s.decodedLen = s.declaredDecodedLen) :
  ∃ s', Returns (finalize c (s.mode.signedChunkAlgorithm.map fun _ => signature)) s
    ⟨s.decodedLen, c.sha256 s.hasher, Text.hexEncode (c.sha256 s.hasher),
      declaredChecksum s.mode t⟩ s'
  := by
  have hver := (returns_verifyIfSigned (u := ())).mpr ⟨d, had, rfl⟩
  obtain ⟨r, hread⟩ := exists_readTrailer (s := { s with signaturePolicy := d }) rfl hok hbytes
    hfail hacc
  have hfed' : s.algoHasher = sideHasher s.mode s.hasher := hfed
  simp only [finalize, returns_bind, returns_reads, returns_require]
  use { s with inner := r, signaturePolicy := d }
  refine ⟨(), _, hver, _, _, ⟨rfl, rfl⟩, _, _, hread, _, _, ⟨rfl, rfl⟩, _, _, ⟨rfl, rfl⟩, (), _,
    ⟨decide_eq_true hlen, rfl⟩, _, _, ⟨rfl, rfl⟩, ?_⟩
  cases hx : declaredChecksum s.mode t with
  | none => exact returns_pure.mpr ⟨rfl, rfl⟩
  | some x =>
      refine returns_bind.mpr ⟨(), _, ?_, returns_pure.mpr ⟨rfl, rfl⟩⟩
      exact (returns_checkTrailer hfed' hx).mpr ⟨checksum_of_endingOk hok hx, rfl⟩

/-! ### Turns of the loop -/

theorem toNat_data_length
    {data : Bytes} {size : UInt64} (h : data.length = size.toNat) :
  UInt64.ofNat data.length = size
  := by
  rw [h]
  exact UInt64.ofNat_toNat

/-- A turn of the loop that does not end it takes one chunk off the body. -/
theorem chunk_of_decodeChunk
    (h : Returns (decodeChunk c) s none s') :
  ∃ ch r w d, ChunkOk c ParsedSize s.mode.signedChunkAlgorithm ch ∧
    s.inner.bytes = ch.bytes s.mode.signedChunkAlgorithm ++ r.bytes ∧
    r.failing = s.inner.failing ∧ w.written = s.writer.written ++ ch.data ∧
    (∀ p ∈ s.previousDataChunkSize, 8192 ≤ p.toNat) ∧
    (saturatingAdd s.decodedLen (UInt64.ofNat ch.data.length)).toNat
      ≤ s.declaredDecodedLen.toNat ∧
    Advances c s.mode.expectsChunkSignature s.signaturePolicy
      (Text.hexEncode (c.sha256 ch.data)) ch.signature d ∧
    s' = s.turned r w ch.data (UInt64.ofNat ch.data.length) d
  := by
  simp only [decodeChunk, returns_bind, returns_reads] at h
  obtain ⟨mode, s₁, ⟨rfl, rfl⟩, ⟨size, sig⟩, s₂, hread, h⟩ := h
  obtain ⟨front, r, rfl, hbytes, hfail, sizeField, signature, rfl, hok, rfl⟩ :=
    (recognises_readHeader c _).sound hread
  split at h
  next =>
    obtain ⟨summary, s₃, -, h⟩ := returns_bind.mp h
    cases (returns_pure.mp h).1
  next hne =>
    obtain ⟨u, s₃, hdata, h⟩ := returns_bind.mp h
    obtain ⟨-, rfl⟩ := returns_pure.mp h
    obtain ⟨data, r', w, d, hlen, hbytes', hfail', hw, hprev, hle, had, rfl⟩ :=
      turned_of_decodeData (s := { s₁ with inner := r }) hdata
    have hsize := toNat_data_length hlen
    have hrest : r.bytes = data ++ (crlf ++ r'.bytes) := hbytes'
    use ⟨sizeField, signature, data⟩, r', w, d
    rw [hsize]
    refine ⟨⟨?_, ?_⟩, ?_, hfail'.trans hfail, hw, hprev, hle, had, rfl⟩
    · rintro rfl
      apply hne
      rw [← hsize]
      rfl
    · simp only [hlen]
      exact hok
    · rw [hbytes, hrest]
      simp [Chunk.bytes]

/-- A chunk at the front of the body is taken by a turn of the loop. -/
theorem exists_decodeChunk
    {ch : Chunk} {tail : Bytes} {d : ChunkSignaturePolicy K}
    (hok : ChunkOk c ParsedSize s.mode.signedChunkAlgorithm ch)
    (hbytes : s.inner.bytes = ch.bytes s.mode.signedChunkAlgorithm ++ tail)
    (hroom : s.writer.room = none) (hprev : ∀ p ∈ s.previousDataChunkSize, 8192 ≤ p.toNat)
    (hle : (saturatingAdd s.decodedLen (UInt64.ofNat ch.data.length)).toNat
      ≤ s.declaredDecodedLen.toNat)
    (had : Advances c s.mode.expectsChunkSignature s.signaturePolicy
      (Text.hexEncode (c.sha256 ch.data)) ch.signature d) :
  ∃ r, Returns (decodeChunk c) s none (s.turned r ⟨s.writer.written ++ ch.data, none⟩ ch.data
      (UInt64.ofNat ch.data.length) d) ∧
    r.bytes = tail ∧ r.failing = s.inner.failing
  := by
  have hsize : (UInt64.ofNat ch.data.length).toNat = ch.data.length :=
    UInt64.toNat_ofNat_of_lt' hok.header.size.lt
  have hbytes' : s.inner.bytes
      = (headerText s.mode.signedChunkAlgorithm ch.sizeField ch.signature ++ crlf) ++
        (ch.data ++ (crlf ++ tail)) := by
    rw [hbytes, Chunk.bytes]
    simp
  obtain ⟨r, hread, hr, hfail⟩ := (recognises_readHeader c s.mode.signedChunkAlgorithm).complete
    (a := ⟨UInt64.ofNat ch.data.length, s.mode.signedChunkAlgorithm.map fun _ => ch.signature⟩)
    hbytes' ⟨ch.sizeField, ch.signature, rfl, by simpa only [hsize] using hok.header, rfl⟩
  obtain ⟨r', hdata, hr', hfail'⟩ := exists_decodeData (s := { s with inner := r }) hsize.symm hr
    hroom hprev hle had
  use r'
  refine ⟨?_, hr', hfail'.trans hfail⟩
  have hne : UInt64.ofNat ch.data.length ≠ 0 := by
    intro h0
    rw [h0] at hsize
    exact hok.nonempty (List.length_eq_zero_iff.mp hsize.symm)
  simp only [decodeChunk, returns_bind, returns_reads]
  refine ⟨_, s, ⟨rfl, rfl⟩, _, _, hread, ?_⟩
  rw [if_neg hne]
  exact returns_bind.mpr ⟨(), _, hdata, returns_pure.mpr ⟨rfl, rfl⟩⟩

/-- The turn that ends the loop takes the chunk of size zero and the ending. -/
theorem ending_of_decodeChunk
    {summary : DecodedSummary} (hfed : s.Fed) (h : Returns (decodeChunk c) s (some summary) s') :
  ∃ zeroField zeroSignature t u d,
    HeaderOk c ParsedSize s.mode.signedChunkAlgorithm zeroField zeroSignature 0 ∧
    s.inner.bytes
      = headerText s.mode.signedChunkAlgorithm zeroField zeroSignature ++ crlf ++ endingBytes t u ∧
    s.inner.failing = false ∧
    Advances c s.mode.expectsChunkSignature s.signaturePolicy emptySha256Hex zeroSignature d ∧
    AcceptsTrailer c d s.mode t u ∧ EndingOk c s.hasher s.mode t u ∧
    s.decodedLen = s.declaredDecodedLen ∧
    summary = ⟨s.decodedLen, c.sha256 s.hasher, Text.hexEncode (c.sha256 s.hasher),
      declaredChecksum s.mode t⟩ ∧
    s'.writer = s.writer
  := by
  simp only [decodeChunk, returns_bind, returns_reads] at h
  obtain ⟨mode, s₁, ⟨rfl, rfl⟩, ⟨size, sig⟩, s₂, hread, h⟩ := h
  obtain ⟨front, r, rfl, hbytes, hfail, sizeField, signature, rfl, hok, rfl⟩ :=
    (recognises_readHeader c _).sound hread
  split at h
  next hzero =>
    obtain ⟨summary', s₃, hfin, h⟩ := returns_bind.mp h
    obtain ⟨heq, rfl⟩ := returns_pure.mp h
    obtain rfl := Option.some.inj heq
    obtain ⟨t, u, r', d, hend, hfail', had, hacc, hending, hlen, rfl, rfl⟩ :=
      ending_of_finalize (s := { s₁ with inner := r }) hfed hfin
    have hr : r.bytes = endingBytes t u := hend
    have hz : size = 0 := hzero
    rw [hz] at hok
    use sizeField, signature, t, u, d
    refine ⟨hok, ?_, hfail.symm.trans hfail', had, hacc, hending, hlen, rfl, rfl⟩
    rw [hbytes, hr]
  next =>
    obtain ⟨u, s₃, -, h⟩ := returns_bind.mp h
    cases (returns_pure.mp h).1

/-- A chunk of size zero and an ending are taken by a turn that ends the loop. -/
theorem exists_decodeChunk_ending
    {zeroField zeroSignature : Bytes} {t u : Option TrailerLine} {d : ChunkSignaturePolicy K}
    (hfed : s.Fed)
    (hok : HeaderOk c ParsedSize s.mode.signedChunkAlgorithm zeroField zeroSignature 0)
    (hbytes : s.inner.bytes
      = headerText s.mode.signedChunkAlgorithm zeroField zeroSignature ++ crlf ++ endingBytes t u)
    (hfail : s.inner.failing = false)
    (had : Advances c s.mode.expectsChunkSignature s.signaturePolicy emptySha256Hex zeroSignature d)
    (hacc : AcceptsTrailer c d s.mode t u) (hending : EndingOk c s.hasher s.mode t u)
    (hlen : s.decodedLen = s.declaredDecodedLen) :
  ∃ s', Returns (decodeChunk c) s
    (some ⟨s.decodedLen, c.sha256 s.hasher, Text.hexEncode (c.sha256 s.hasher),
      declaredChecksum s.mode t⟩) s'
  := by
  obtain ⟨r, hread, hr, hf⟩ := (recognises_readHeader c s.mode.signedChunkAlgorithm).complete
    (a := ⟨0, s.mode.signedChunkAlgorithm.map fun _ => zeroSignature⟩)
    hbytes ⟨zeroField, zeroSignature, rfl, hok, rfl⟩
  obtain ⟨s', hfin⟩ := exists_finalize (s := { s with inner := r }) hfed hr (hf.trans hfail) had hacc
    hending hlen
  use s'
  simp only [decodeChunk, returns_bind, returns_reads]
  refine ⟨_, s, ⟨rfl, rfl⟩, _, _, hread, ?_⟩
  rw [if_pos rfl]
  exact returns_bind.mpr ⟨_, _, hfin, returns_pure.mpr ⟨rfl, rfl⟩⟩

end AwsChunkedDecoder

end TinyS3Proxy
